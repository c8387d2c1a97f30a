import HotaruMqtt.Channel.Moves
import HotaruMqtt.Exec.Transition

/-!
# Closing and the command queue

As long as no write fails, what the queue has taken is what was written, then the
command in the actor's hands, then what is still queued.  `close` is said to drain
what was taken before it.  Nothing in the actor does so: its `select!` may take the
shutdown branch while commands are queued, and they are then dropped with the queue.
-/

namespace HotaruMqtt.Channel

open Exec Exec.Outcome Exec.Transition

/-- The command that a record says was taken. -/
def Record.command : Record → Option WriteCmd
  | .accepted _ cmd => some cmd
  | _ => none

/-- The commands that were taken, in order. -/
def accepted (log : List Record) : List WriteCmd :=
  log.filterMap Record.command

@[simp]
theorem accepted_append (first second : List Record) :
    accepted (first ++ second) = accepted first ++ accepted second :=
  List.filterMap_append

@[simp]
theorem accepted_singleton (record : Record) : accepted [record] = record.command.toList := by
  cases record <;> rfl

/-- A command that goes to the wire. -/
def WriteCmd.IsPlain : WriteCmd → Prop
  | .packet _ | .publish _ => True
  | .flush | .shutdown => False

theorem isPlain_packet (packet : Packet) : (WriteCmd.packet packet).IsPlain :=
  trivial

theorem isPlain_publish (publish : PublishPacket) : (WriteCmd.publish publish).IsPlain :=
  trivial

theorem isPlain_command (request : MqttRequest) (id : PacketId) : (request.command id).IsPlain := by
  cases request <;> trivial

/-- The commands that a call is still to send. -/
def Stage.commands : Stage → List WriteCmd
  | .parking _ cmd => cmd.toList
  | .enqueueing _ cmd => [cmd]
  | _ => []

/-- Calls send plain commands only. -/
def PlainCommands (link : Link) : Prop :=
  link.EachSend fun _ send => ∀ cmd ∈ send.stage.commands, cmd.IsPlain

theorem commands_resume (waiter : Waiter) (answer : Wake) :
    (waiter.resume answer).commands = [] := by
  unfold Waiter.resume
  split
  · split <;> rfl
  · rfl
  · rfl

theorem commands_afterPark (waiter : Waiter) (cmd : Option WriteCmd) :
    (waiter.afterPark cmd).commands = cmd.toList := by
  cases cmd <;> rfl

theorem commands_afterAccept (waiter : Option Waiter) :
    (Stage.afterAccept waiter).commands = [] := by
  cases waiter <;> rfl

theorem PlainCommands.step {link next : Link} {event : Link.Event} (plain : PlainCommands link)
    (moves : Moves link event next) : PlainCommands next := by
  apply Link.EachSend.step plain _ moves
  intro call move moves
  cases moves with
  | called unused => exact plain.update rfl (by simp [Stage.commands])
  | unnumbered found stage awaits =>
      exact plain.update rfl (by simp [Stage.commands, isPlain_command])
  | numbered found stage awaits =>
      exact plain.update rfl (by simp [Stage.commands, isPlain_command])
  | parked found stage =>
      have before : ∀ cmd ∈ Stage.commands _, cmd.IsPlain := plain _ _ found
      rw [stage] at before
      exact plain.update rfl (by rwa [commands_afterPark])
  | accepted found stage alive => exact plain.update rfl (by simp [commands_afterAccept])
  | rejected found stage gone => exact plain.update rfl (by simp [Stage.commands])
  | resumed found stage sent => exact plain.update rfl (by simp [commands_resume])
  | closed found stage closed => exact plain.update rfl (by simp [Stage.commands])
  | elapsed found stage waiting => exact plain.update rfl (by simp [Stage.commands])
  | cancelled found stage => exact plain.update rfl (by simp [Stage.commands])

namespace Actor

/-- The command that is being written. -/
def inHand : Actor → List WriteCmd
  | .writing cmd => [cmd]
  | _ => []

end Actor

/-- What the actor has on its way, apart from what was written: the command in its
hands and the queue. -/
def Link.pending (link : Link) : List WriteCmd :=
  link.actor.inHand ++ link.queue

/-! ## What a move does to the queue and the wire -/

/-- Every move leaves the queue and the wire alone, or records a call of `close`, or
puts one command into the queue, or is one of the actor. -/
inductive WireMoves (link : Link) : Link.Event → Link → Prop
  | beside {event : Link.Event} {next : Link} (actor : next.actor = link.actor)
      (queue : next.queue = link.queue) (written : next.written = link.written)
      (log : next.log = link.log ∨ ∃ record, record.command = none ∧
        (∀ call, record ≠ .closeCalled call) ∧ next.log = link.log ++ [record]) :
      WireMoves link event next
  | closes {call : CloseId} {next : Link} (actor : next.actor = link.actor)
      (queue : next.queue = link.queue) (written : next.written = link.written)
      (log : next.log = link.log ++ [.closeCalled call]) :
      WireMoves link (.close call .call) next
  | accepts {event : Link.Event} {next : Link} {sender : Option SendId} {cmd : WriteCmd}
      (plain : cmd.IsPlain) (actor : next.actor = link.actor)
      (queue : next.queue = link.queue ++ [cmd]) (written : next.written = link.written)
      (log : next.log = link.log ++ [.accepted sender cmd]) : WireMoves link event next
  | actor {move : Link.ActorMove} {next : Link} (moves : ActorMoves link move next) :
      WireMoves link (.actor move) next

theorem Moves.wire {link next : Link} {event : Link.Event} (plain : PlainCommands link)
    (moves : Moves link event next) : WireMoves link event next := by
  cases moves with
  | send _ moves =>
      cases moves with
      | @accepted send waiter cmd found stage alive =>
          have before : ∀ cmd ∈ send.stage.commands, cmd.IsPlain := plain _ _ found
          rw [stage] at before
          exact .accepts (before cmd (List.mem_singleton_self cmd)) rfl rfl rfl rfl
      | parked found stage => exact .beside rfl rfl rfl (.inr ⟨_, rfl, by simp, rfl⟩)
      | _ => exact .beside rfl rfl rfl (.inl rfl)
  | close _ moves =>
      cases moves with
      | called stage => exact .closes rfl rfl rfl rfl
      | visited stage => exact .beside rfl rfl rfl (.inr ⟨_, rfl, by simp, rfl⟩)
      | finished stage all => exact .beside rfl rfl rfl (.inr ⟨_, rfl, by simp, rfl⟩)
      | _ => exact .beside rfl rfl rfl (.inl rfl)
  | reader _ moves =>
      cases moves with
      | missed _ _ | vanished _ _ | answered _ _ _ | putBack _ _ _ =>
          exact .beside rfl rfl rfl (.inr ⟨_, rfl, by simp, rfl⟩)
      | @released ack stage isPubrec alive =>
          exact .accepts (isPlain_packet (.pubrel ack.id)) rfl rfl rfl rfl
      | @replied reply replies stage alive => exact .accepts (isPlain_packet reply) rfl rfl rfl rfl
      | _ => exact .beside rfl rfl rfl (.inl rfl)
  | actor moves => exact .actor moves
  | @sendPacket packet _ _ => exact .accepts (isPlain_packet packet) rfl rfl rfl rfl
  | @sendPublish publish _ _ => exact .accepts (isPlain_publish publish) rfl rfl rfl rfl
  | allocate _ => exact .beside rfl rfl rfl (.inl rfl)
  | release _ => exact .beside rfl rfl rfl (.inl rfl)

/-! ## Nothing is lost on the way to the wire -/

/-- Everything that was taken is on the wire or on its way. -/
structure Accounted (link : Link) : Prop where
  total : accepted link.log = link.written ++ link.pending
  plain : ∀ cmd ∈ accepted link.log, cmd.IsPlain

/-- No write fails. -/
def Unfailing (_ : Link) (event : Link.Event) : Prop :=
  event ≠ .actor (.finish false)

instance (link : Link) (event : Link.Event) : Decidable (Unfailing link event) :=
  inferInstanceAs (Decidable (_ ≠ _))

namespace Accounted

variable {link next : Link}

/-- What was taken, and what the actor has, stay the same. -/
theorem congr (accounted : Accounted link) (log : accepted next.log = accepted link.log)
    (pending : next.written ++ next.pending = link.written ++ link.pending) : Accounted next where
  total := by rw [log, pending, accounted.total]
  plain cmd listed := accounted.plain cmd (log ▸ listed)

theorem plain_of_pending {cmd : WriteCmd} (accounted : Accounted link)
    (pending : cmd ∈ link.pending) : cmd.IsPlain := by
  apply accounted.plain
  rw [accounted.total]
  exact List.mem_append_right _ pending

theorem actor_step {move : Link.ActorMove} (accounted : Accounted link)
    (unfailing : move ≠ .finish false) (moves : ActorMoves link move next) :
    Accounted next := by
  cases moves with
  | entered stage | hungUp stage _ _ | woken stage _ | stored stage | ended stage =>
      exact accounted.congr rfl (by simp [Link.pending, stage, Actor.inHand])
  | took stage queue other =>
      exact accounted.congr rfl (by simp [Link.pending, stage, queue, Actor.inHand])
  | wrote stage other =>
      exact accounted.congr rfl (by simp [Link.pending, stage, Actor.inHand])
  -- nobody sends the two commands that do not go to the wire
  | flushed stage =>
      have plain : WriteCmd.flush.IsPlain :=
        accounted.plain_of_pending (by simp [Link.pending, stage, Actor.inHand])
      exact plain.elim
  | told stage queue =>
      have plain : WriteCmd.shutdown.IsPlain :=
        accounted.plain_of_pending (by simp [Link.pending, queue])
      exact plain.elim
  | failed stage other => exact absurd rfl unfailing

theorem step {event : Link.Event} (accounted : Accounted link)
    (unfailing : Unfailing link event) (moves : WireMoves link event next) : Accounted next := by
  cases moves with
  | beside actor queue written log =>
      have pending : next.pending = link.pending := by rw [Link.pending, actor, queue]; rfl
      refine accounted.congr ?_ (by rw [written, pending])
      rcases log with same | ⟨record, other, _, log⟩
      · rw [same]
      · rw [log, accepted_append, accepted_singleton, other, Option.toList_none, List.append_nil]
  | closes actor queue written log =>
      have pending : next.pending = link.pending := by rw [Link.pending, actor, queue]; rfl
      exact accounted.congr (by simp [log, Record.command]) (by rw [written, pending])
  | @accepts _ _ sender cmd plain actor queue written log =>
      have taken : accepted next.log = accepted link.log ++ [cmd] := by
        rw [log, accepted_append, accepted_singleton]
        rfl
      constructor
      · rw [taken, accounted.total, written, Link.pending, Link.pending, actor, queue]
        simp
      · intro other listed
        rw [taken, List.mem_append, List.mem_singleton] at listed
        rcases listed with before | rfl
        · exact accounted.plain other before
        · exact plain
  | actor moves => exact accounted.actor_step (fun same => unfailing (same ▸ rfl)) moves

end Accounted

/-! ## What was taken before a close -/

/-- Everything that was taken before a call of `close` is on the wire, in order,
once the actor has left its loop. -/
def Drained (link : Link) : Prop :=
  ¬ link.actor.InLoop → ∀ before call after, link.log = before ++ .closeCalled call :: after →
    accepted before <+: link.written

/-- The actor takes the shutdown branch, and a `close` is called after that, only
when the queue is empty. -/
def WaitsForQueue (link : Link) : Link.Event → Prop
  | .actor .wake => link.queue = []
  | .close _ .call => link.actor.InLoop ∨ link.queue = []
  | _ => True

instance (link : Link) (event : Link.Event) : Decidable (WaitsForQueue link event) := by
  unfold WaitsForQueue
  split <;> infer_instance

theorem split_concat {α : Type} {list before after : List α} {last item : α}
    (split : list ++ [last] = before ++ item :: after) :
    before = list ∧ item = last ∨ ∃ rest, list = before ++ item :: rest := by
  rcases List.eq_nil_or_concat after with rfl | ⟨rest, final, rfl⟩
  · obtain ⟨same, last⟩ := List.append_inj' split rfl
    exact .inl ⟨same.symm, (List.singleton_inj.mp last).symm⟩
  · have same : list ++ [last] = (before ++ item :: rest) ++ [final] := by simpa using split
    exact .inr ⟨rest, (List.append_inj' same rfl).1⟩

namespace Drained

variable {link next : Link}

theorem of_inLoop (inLoop : link.actor.InLoop) : Drained link :=
  fun left => absurd inLoop left

/-- With nothing on its way, everything that was taken is on the wire. -/
theorem of_pending_nil (accounted : Accounted link) (nothing : link.pending = []) :
    Drained link := by
  intro _ before call after split
  have total := accounted.total
  rw [nothing, List.append_nil, split, accepted_append] at total
  exact total ▸ List.prefix_append _ _

/-- Outside its loop the actor writes nothing and holds nothing. -/
theorem inHand_of_left {actor : Actor} (left : ¬ actor.InLoop) : actor.inHand = [] := by
  cases actor with
  | writing cmd => exact absurd trivial left
  | _ => rfl

/-- A record that is no call of `close` makes no new demand. -/
theorem concat (drained : Drained link) {record : Record}
    (other : ∀ call, record ≠ .closeCalled call) (actor : next.actor = link.actor)
    (written : next.written = link.written) (log : next.log = link.log ++ [record]) :
    Drained next := by
  intro left before call after split
  rw [actor] at left
  rw [log] at split
  rw [written]
  rcases split_concat split with ⟨_, last⟩ | ⟨rest, split⟩
  · exact absurd last.symm (other call)
  · exact drained left before call rest split

theorem actor_step {move : Link.ActorMove} (drained : Drained link) (accounted : Accounted link)
    (unfailing : move ≠ .finish false) (waits : WaitsForQueue link (.actor move))
    (moves : ActorMoves link move next) : Drained next := by
  have after := accounted.actor_step unfailing moves
  cases moves with
  | entered _ | took _ _ _ | flushed _ | wrote _ _ => exact .of_inLoop trivial
  | told stage queue =>
      have plain : WriteCmd.shutdown.IsPlain :=
        accounted.plain_of_pending (by simp [Link.pending, queue])
      exact plain.elim
  | hungUp stage queue released =>
      exact .of_pending_nil after (by simp [Link.pending, Actor.inHand, queue])
  | woken stage wakes =>
      have queue : link.queue = [] := waits
      exact .of_pending_nil after (by simp [Link.pending, Actor.inHand, queue])
  | failed stage other => exact absurd rfl unfailing
  | stored stage | ended stage => exact fun _ => drained (by simp [stage, Actor.InLoop])

theorem step {event : Link.Event} (drained : Drained link) (accounted : Accounted link)
    (unfailing : Unfailing link event) (waits : WaitsForQueue link event)
    (moves : WireMoves link event next) : Drained next := by
  have after := accounted.step unfailing moves
  cases moves with
  | beside actor queue written log =>
      rcases log with same | ⟨record, _, other, log⟩
      · intro left
        rw [same, written]
        exact drained (actor ▸ left)
      · exact drained.concat other actor written log
  | closes actor queue written log =>
      rcases waits with inLoop | nothing
      · exact .of_inLoop (actor ▸ inLoop)
      · intro left
        have pending : next.pending = [] := by
          rw [Link.pending, inHand_of_left left, queue, nothing]
          rfl
        exact of_pending_nil after pending left
  | accepts plain actor queue written log => exact drained.concat (by simp) actor written log
  | actor moves =>
      exact drained.actor_step accounted (fun same => unfailing (same ▸ rfl)) waits moves

end Drained

/-- The parts of the invariant together. -/
structure DrainInv (link : Link) : Prop where
  plain : PlainCommands link
  accounted : Accounted link
  drained : Drained link

theorem preserves_drainInv :
    Preserves Link.step (fun link event => Unfailing link event ∧ WaitsForQueue link event)
      DrainInv := by
  rintro link event next ⟨plain, accounted, drained⟩ ⟨unfailing, waits⟩ moved
  have moves := Link.step_moves moved
  have wire := moves.wire plain
  exact ⟨plain.step moves, accounted.step unfailing wire,
    drained.step accounted unfailing waits wire⟩

theorem drainInv_new (role : ProtocolRole) : DrainInv (.new role) where
  plain call send found := by cases found
  accounted := ⟨rfl, fun cmd listed => by cases listed⟩
  drained := .of_inLoop trivial

/-- A server that writes its refusal before it closes, or after. -/
def refuses (written : Bool) : List Link.Event :=
  let writes : List Link.Event := if written then
    [.actor .take, .actor (.finish true), .actor .proceed] else []
  [.actor .proceed, .sendPacket (.connack ⟨false, .notAuthorized⟩)] ++ writes ++
    [.close 0 .call, .close 0 .swap, .close 0 .notify, .actor .wake, .actor .proceed,
      .actor .proceed]

/-- In every run in which the actor leaves its loop with an empty queue, everything
that was taken before a call of `close` is written, in order, before the writer is
shut down. -/
theorem close_drains_queue (role : ProtocolRole) {events : List Link.Event} {link : Link}
    (run : Run Link.step (fun link event => Unfailing link event ∧ WaitsForQueue link event)
      (.new role) events link) (left : ¬ link.actor.InLoop) (before after : List Record)
    (call : CloseId) (called : link.log = before ++ .closeCalled call :: after) :
    accepted before <+: link.written :=
  (run.invariant preserves_drainInv (drainInv_new role)).drained left before call after called

theorem close_drains_queue_refusal :
    let link := replay Link.step (.new .server) (refuses true)
    link.actor = .gone ∧ accepted [.accepted none (.packet (.connack ⟨false, .notAuthorized⟩))] <+:
      link.written := by
  refine ⟨by decide +kernel, ?_⟩
  exact close_drains_queue .server (Follows.run (by decide +kernel)) (by decide +kernel) _ [] 0
    (by decide +kernel)

/-- The refusal is in the queue when `close` is called, and the actor takes the
shutdown branch. -/
theorem close_drops_refusal :
    ∃ link before, Run Link.step Unfailing (.new .server) (refuses false) link ∧
      link.actor = .gone ∧ link.log = before ++ [.closeCalled 0] ∧
      ¬ accepted before <+: link.written := by
  refine ⟨_, [.accepted none (.packet (.connack ⟨false, .notAuthorized⟩))],
    Follows.run (by decide +kernel), by decide +kernel, by decide +kernel, by decide +kernel⟩

end HotaruMqtt.Channel
