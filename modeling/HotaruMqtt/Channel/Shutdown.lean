import HotaruMqtt.Channel.Moves
import HotaruMqtt.Exec.Transition

/-!
# Whether a close is heard

`notify_waiters` wakes the futures that exist and is not kept for later ones.  The
reader makes its future after it has found the flag set, and the actor makes a new
one for every command without looking at the flag.  So a close is heard by both if
it notifies while neither is between two futures, if the actor does not drop a future
that has been woken, and if it is the call that notifies, or comes after it, or finds
nobody left to notify because the actor has stopped and the reader is on its way out.
-/

namespace HotaruMqtt.Channel

open Exec Exec.Outcome Exec.Transition

/-- The future has been woken, or there was no notification that it could have
missed. -/
def Attentive (notify : Notify) (future : Notified) : Prop :=
  notify.Wakes future ∨ future = notify.notified ∧ notify.calls = 0

namespace Attentive

variable {notify : Notify} {future : Notified}

theorem notifyWaiters (attentive : Attentive notify future) :
    notify.notifyWaiters.Wakes future := by
  rcases attentive with wakes | ⟨rfl, _⟩
  · exact wakes.notifyWaiters
  · exact Nat.lt_succ_self _

theorem wakes (attentive : Attentive notify future) (called : 0 < notify.calls) :
    notify.Wakes future := by
  rcases attentive with wakes | ⟨_, never⟩
  · exact wakes
  · exact absurd never called.ne'

end Attentive

/-! ## Where the tasks can be -/

/-- The reader has no future that a notification has missed. -/
def Reader.Hears (notify : Notify) : Reader → Prop
  | .entering => notify.calls = 0
  | .selecting future => Attentive notify future
  | _ => True

/-- The actor has no future that a notification has missed, and will make none. -/
def Actor.Hears (notify : Notify) : Actor → Prop
  | .looping | .writing _ => notify.calls = 0
  | .selecting future => Attentive notify future
  | _ => True

/-- The reader has no future, and makes none before it looks at the flag again. -/
def Reader.Outside : Reader → Prop
  | .entering | .selecting _ => False
  | _ => True

instance : DecidablePred Reader.Outside
  | .entering | .selecting _ => isFalse id
  | .checking | .looking _ | .taking _ | .answering _ | .settling _ | .handling _ | .left =>
      isTrue trivial

/-- With the flag down, the reader is outside its `select!` and the actor has left its loop:
neither comes back to a future. -/
structure Retired (link : Link) : Prop where
  closed : link.isOpen = false
  reader : link.reader.Outside
  actor : ¬ link.actor.InLoop

/-- A call of `close` notifies with the flag down, and is past it with the waiters
notified; it has returned with the waiters notified or with nobody to notify. -/
def CloseStage.Hears (link : Link) : CloseStage → Prop
  | .notifying => link.isOpen = false
  | .clearing _ => 0 < link.shutdown.calls
  | .returned => 0 < link.shutdown.calls ∨ Retired link
  | .idle | .swapping => True

/-- Nobody is left with a future that a notification has missed, and each call of `close` has
what its stage presupposes. -/
structure Heard (link : Link) : Prop where
  reader : link.reader.Hears link.shutdown
  actor : link.actor.Hears link.shutdown
  closes : ∀ call, (link.closes call).Hears link
  closed : 0 < link.shutdown.calls → link.isOpen = false

/-- The actor is between two futures. -/
def Actor.Between : Actor → Prop
  | .looping | .writing _ => True
  | _ => False

instance : DecidablePred Actor.Between
  | .looping | .writing _ => isTrue trivial
  | .selecting _ | .leaving | .shutting | .gone => isFalse id

/-- The actor has been woken. -/
def Actor.Woken (notify : Notify) : Actor → Prop
  | .selecting future => notify.Wakes future
  | _ => False

instance (notify : Notify) : DecidablePred (Actor.Woken notify)
  | .selecting future => inferInstanceAs (Decidable (notify.Wakes future))
  | .looping | .writing _ | .leaving | .shutting | .gone => isFalse id

/-- A close notifies when neither task is between two futures; the actor takes no
command when it has been woken; and a close that finds the flag down finds the waiters
notified, or the reader outside its `select!` and the actor out of its loop. -/
def Heeds (link : Link) : Link.Event → Prop
  | .close _ .swap =>
      link.isOpen = true ∨ 0 < link.shutdown.calls ∨ link.reader.Outside ∧ ¬ link.actor.InLoop
  | .close _ .notify => link.reader ≠ .entering ∧ ¬ link.actor.Between
  | .actor .take => ¬ link.actor.Woken link.shutdown
  | _ => True

instance (link : Link) : DecidablePred (Heeds link)
  | .close _ .swap => inferInstanceAs (Decidable (_ ∨ _))
  | .close _ .notify => inferInstanceAs (Decidable (_ ∧ _))
  | .actor .take => inferInstanceAs (Decidable (¬ _))
  | .close _ .call | .close _ (.visit _) | .close _ .finish => isTrue trivial
  | .actor .proceed | .actor .hangUp | .actor .wake | .actor (.finish _) => isTrue trivial
  | .send _ _ | .reader _ | .sendPacket _ | .sendPublish _ | .allocate | .release => isTrue trivial

section Moves

variable {link next : Link} {event : Link.Event}

/-- The flag stays down. -/
theorem Moves.closed (moves : Moves link event next) (closed : link.isOpen = false) :
    next.isOpen = false := by
  cases moves with
  | send _ moves => cases moves <;> exact closed
  | close _ moves =>
      cases moves with
      | swapped => rfl
      | _ => exact closed
  | reader _ moves => cases moves <;> exact closed
  | actor moves =>
      cases moves with
      | stored => rfl
      | _ => exact closed
  | sendPacket | sendPublish | allocate | release => exact closed

/-- Notifications are not taken back. -/
theorem Moves.notified (moves : Moves link event next) (notified : 0 < link.shutdown.calls) :
    0 < next.shutdown.calls := by
  cases moves with
  | send _ moves => cases moves <;> exact notified
  | close _ moves =>
      cases moves with
      | notified => exact Nat.succ_pos _
      | _ => exact notified
  | reader _ moves => cases moves <;> exact notified
  | actor moves => cases moves <;> exact notified
  | sendPacket | sendPublish | allocate | release => exact notified

/-- Who has retired does not come back. -/
theorem Retired.step (retired : Retired link) (moves : Moves link event next) : Retired next := by
  have closed := moves.closed retired.closed
  have outside := retired.reader
  have stopped := retired.actor
  cases moves with
  | send _ moves => cases moves <;> exact ⟨closed, outside, stopped⟩
  | close _ moves => cases moves <;> exact ⟨closed, outside, stopped⟩
  | reader _ moves =>
      cases moves with
      | foundOpen _ isOpen => cases retired.closed.symm.trans isOpen
      | entered stage =>
          rw [stage] at outside
          exact outside.elim
      | _ => exact ⟨closed, trivial, stopped⟩
  | actor moves =>
      cases moves with
      | stored | ended => exact ⟨closed, outside, id⟩
      | entered stage | took stage | told stage | hungUp stage | woken stage | flushed stage
      | wrote stage | failed stage =>
          rw [stage] at stopped
          exact absurd trivial stopped
  | sendPacket | sendPublish | allocate | release => exact ⟨closed, outside, stopped⟩

/-- What a call of `close` relies on stays. -/
theorem CloseStage.Hears.step {stage : CloseStage} (hears : stage.Hears link)
    (moves : Moves link event next) : stage.Hears next := by
  cases stage with
  | notifying => exact moves.closed hears
  | clearing _ => exact moves.notified hears
  | returned => exact hears.imp moves.notified fun retired => retired.step moves
  | idle | swapping => trivial

end Moves

namespace Heard

variable {link next : Link}

/-- A move that leaves the flag, the notification and the three kinds of task alone. -/
theorem congr (heard : Heard link) {event : Link.Event} (moves : Moves link event next)
    (isOpen : next.isOpen = link.isOpen) (shutdown : next.shutdown = link.shutdown)
    (reader : next.reader = link.reader) (actor : next.actor = link.actor)
    (closes : next.closes = link.closes) : Heard next where
  reader := by rw [reader, shutdown]; exact heard.reader
  actor := by rw [actor, shutdown]; exact heard.actor
  closes call := by rw [closes]; exact (heard.closes call).step moves
  closed called := by
    rw [isOpen]
    exact heard.closed (shutdown ▸ called)

theorem close_step {call : CloseId} {move : Link.CloseMove} (heard : Heard link)
    (heeds : Heeds link (.close call move)) (live : link.released = false)
    (moves : CloseMoves link call move next) : Heard next := by
  have others := fun other => (heard.closes other).step (.close live moves)
  have hears := heard.closes call
  cases moves with
  | called stage =>
      exact ⟨heard.reader, heard.actor, each_close_update others trivial, heard.closed⟩
  | swapped stage isOpen =>
      exact ⟨heard.reader, heard.actor, each_close_update others rfl, fun _ => rfl⟩
  | alreadyClosed stage closed =>
      have excused := heeds.resolve_left (by simp [closed])
      refine ⟨heard.reader, heard.actor, each_close_update others ?_, heard.closed⟩
      exact excused.imp id fun ⟨outside, stopped⟩ => ⟨closed, outside, stopped⟩
  | notified stage =>
      obtain ⟨notEntering, notBetween⟩ := heeds
      rw [stage] at hears
      have reader := heard.reader
      have actor := heard.actor
      refine ⟨?_, ?_, each_close_update others (Nat.succ_pos _), fun _ => hears⟩
      · change link.reader.Hears link.shutdown.notifyWaiters
        cases position : link.reader with
        | entering => exact absurd position notEntering
        | selecting future =>
            rw [position] at reader
            exact .inl reader.notifyWaiters
        | _ => trivial
      · change link.actor.Hears link.shutdown.notifyWaiters
        cases position : link.actor with
        | looping | writing _ =>
            rw [position] at notBetween
            exact absurd trivial notBetween
        | selecting future =>
            rw [position] at actor
            exact .inl actor.notifyWaiters
        | _ => trivial
  | visited stage =>
      rw [stage] at hears
      exact ⟨heard.reader, heard.actor, each_close_update others hears, heard.closed⟩
  | finished stage _ =>
      rw [stage] at hears
      exact ⟨heard.reader, heard.actor, each_close_update others (.inl hears), heard.closed⟩

theorem reader_step {move : Link.ReaderMove} (heard : Heard link) (live : link.released = false)
    (moves : ReaderMoves link move next) : Heard next := by
  have closes := fun call => (heard.closes call).step (.reader live moves)
  have reader := heard.reader
  cases moves with
  | foundOpen stage isOpen =>
      have never : link.shutdown.calls = 0 := by
        rcases Nat.eq_zero_or_pos link.shutdown.calls with never | called
        · exact never
        · exact absurd (heard.closed called) (by simp [isOpen])
      exact ⟨never, heard.actor, closes, heard.closed⟩
  | entered stage =>
      rw [stage] at reader
      exact ⟨.inr ⟨rfl, reader⟩, heard.actor, closes, heard.closed⟩
  | _ => exact ⟨trivial, heard.actor, closes, heard.closed⟩

theorem actor_step {move : Link.ActorMove} (heard : Heard link)
    (heeds : Heeds link (.actor move)) (moves : ActorMoves link move next) : Heard next := by
  have closes := fun call => (heard.closes call).step (.actor moves)
  have actor := heard.actor
  cases moves with
  | entered stage =>
      rw [stage] at actor
      exact ⟨heard.reader, .inr ⟨rfl, actor⟩, closes, heard.closed⟩
  | took stage queue other =>
      have asleep : ¬ link.actor.Woken link.shutdown := heeds
      rw [stage] at actor asleep
      have never := (actor.resolve_left asleep).2
      exact ⟨heard.reader, never, closes, heard.closed⟩
  | flushed stage | wrote stage _ =>
      rw [stage] at actor
      exact ⟨heard.reader, actor, closes, heard.closed⟩
  | told _ _ | hungUp _ _ _ | woken _ _ | failed _ _ | ended _ =>
      exact ⟨heard.reader, trivial, closes, heard.closed⟩
  | stored stage => exact ⟨heard.reader, trivial, closes, fun _ => rfl⟩

end Heard

theorem preserves_heard : Preserves Link.step Heeds Heard := by
  intro link event next heard heeds moved
  cases Link.step_moves moved with
  | send _ moves =>
      cases moves <;> exact heard.congr (Link.step_moves moved) rfl rfl rfl rfl rfl
  | close live moves => exact heard.close_step heeds live moves
  | reader live moves => exact heard.reader_step live moves
  | actor moves => exact heard.actor_step heeds moves
  | sendPacket _ _ | sendPublish _ _ | allocate _ | release _ =>
      exact heard.congr (Link.step_moves moved) rfl rfl rfl rfl rfl

theorem heard_new (role : ProtocolRole) : Heard (.new role) where
  reader := trivial
  actor := rfl
  closes _ := trivial
  closed called := absurd called (Nat.lt_irrefl 0)

/-- In every run in which every close is heeded, once a call of `close` has returned,
a reader and an actor in their `select!` have been woken. -/
theorem close_wakes_both (role : ProtocolRole) {events : List Link.Event} {link : Link}
    (run : Run Link.step Heeds (.new role) events link) (call : CloseId)
    (returned : link.closes call = .returned) :
    (∀ future, link.reader = .selecting future → link.shutdown.Wakes future) ∧
      ∀ future, link.actor = .selecting future → link.shutdown.Wakes future := by
  have heard := run.invariant preserves_heard (heard_new role)
  have hears := heard.closes call
  have reader := heard.reader
  have actor := heard.actor
  rw [returned] at hears
  rcases hears with notified | retired
  · constructor
    · intro future selecting
      rw [selecting] at reader
      exact reader.wakes notified
    · intro future selecting
      rw [selecting] at actor
      exact actor.wakes notified
  · constructor
    · intro future selecting
      exact (selecting ▸ retired.reader : Reader.Outside (.selecting future)).elim
    · intro future selecting
      exact absurd (selecting ▸ trivial) retired.actor

/-- A call of `close` that finds nothing to drop. -/
def closesAtOnce : List Link.Event :=
  [.close 0 .call, .close 0 .swap, .close 0 .notify, .close 0 .finish]

theorem close_wakes_both_parked :
    let link := replay Link.step (.new .server)
      ([.actor .proceed, .reader .proceed, .reader .proceed] ++ closesAtOnce)
    link.closes 0 = .returned ∧ link.reader = .selecting ⟨0⟩ ∧ link.actor = .selecting ⟨0⟩ ∧
      link.shutdown.Wakes ⟨0⟩ := by
  refine ⟨by decide +kernel, by decide +kernel, by decide +kernel, ?_⟩
  exact (close_wakes_both .server (Follows.run (by decide +kernel)) 0 (by decide +kernel)).1 _
    (by decide +kernel)

/-- A write fails and the actor stops by itself, the reader finds its reply refused and
leaves; the close that follows notifies nobody, and there is nobody to notify. -/
example :
    Follows Link.step Heeds (.new .server)
      [.actor .proceed, .reader .proceed, .reader .proceed, .sendPacket .pingresp, .actor .take,
        .actor (.finish false), .actor .proceed, .actor .proceed,
        .reader (.handle [.pingresp]), .reader .proceed, .close 0 .call, .close 0 .swap] := by
  decide +kernel

/-- The reader has checked the flag and the actor is writing when the waiters are
notified.  Both then make a future that nothing wakes. -/
theorem close_missed_by_both :
    ∃ events link future, Run Link.step Any (.new .server) events link ∧
      link.closes 0 = .returned ∧ link.reader = .selecting future ∧
      link.actor = .selecting future ∧ ¬ link.shutdown.Wakes future := by
  refine ⟨[.actor .proceed, .sendPacket .pingresp, .actor .take, .reader .proceed] ++
      closesAtOnce ++ [.reader .proceed, .actor (.finish true), .actor .proceed],
    _, ⟨1⟩, Follows.run (by decide +kernel), by decide +kernel, by decide +kernel,
    by decide +kernel, by decide +kernel⟩

end HotaruMqtt.Channel
