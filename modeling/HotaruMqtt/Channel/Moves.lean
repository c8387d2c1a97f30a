import HotaruMqtt.Channel.Link

/-!
# What a move does

The moves of the tasks as relations, one constructor for each thing a task can do,
with what it found and the state it leaves.  The step function makes no other moves.
-/

namespace HotaruMqtt.Channel

open Exec Exec.Outcome

/-- What a call of the send path can do. -/
inductive SendMoves (link : Link) (call : SendId) : Link.SendMove → Link → Prop
  | called {request : MqttRequest} (unused : link.sends call = none) :
      SendMoves link call (.call request) (link.setSend call ⟨request, none, .allocating⟩)
  | unnumbered {send : Send} (found : link.sends call = some send)
      (stage : send.stage = .allocating) (awaits : send.request.awaits = none) :
      SendMoves link call .proceed
        (link.setSend call { send with stage := .enqueueing none (send.request.command 0) })
  | numbered {send : Send} {slot : AckSlot} (found : link.sends call = some send)
      (stage : send.stage = .allocating) (awaits : send.request.awaits = some slot) :
      SendMoves link call .proceed (link.allocatePacketId.setSend call
        { send with
          packetId := some link.nextId
          stage := .parking ⟨link.nextId, slot, call⟩ (some (send.request.command link.nextId)) })
  | parked {send : Send} {waiter : Waiter} {cmd : Option WriteCmd}
      (found : link.sends call = some send) (stage : send.stage = .parking waiter cmd) :
      SendMoves link call .proceed (({ link with
          pendingAcks := link.pendingAcks.park waiter
          log := link.log ++ [.parked waiter] } : Link).setSend call
        { send with stage := waiter.afterPark cmd })
  | accepted {send : Send} {waiter : Option Waiter} {cmd : WriteCmd}
      (found : link.sends call = some send) (stage : send.stage = .enqueueing waiter cmd)
      (alive : link.actor ≠ .gone) :
      SendMoves link call .proceed
        ((link.accept (some call) cmd).setSend call { send with stage := .afterAccept waiter })
  | rejected {send : Send} {waiter : Option Waiter} {cmd : WriteCmd}
      (found : link.sends call = some send) (stage : send.stage = .enqueueing waiter cmd)
      (gone : link.actor = .gone) :
      SendMoves link call .proceed
        (link.setSend call { send with stage := .returned (err .channelClosed) })
  | resumed {send : Send} {waiter : Waiter} {answer : Wake}
      (found : link.sends call = some send) (stage : send.stage = .awaiting waiter)
      (sent : link.pendingAcks.cells waiter = some (.sent answer)) :
      SendMoves link call .proceed
        (link.setSend call { send with stage := waiter.resume answer })
  | closed {send : Send} {waiter : Waiter} (found : link.sends call = some send)
      (stage : send.stage = .awaiting waiter)
      (closed : link.pendingAcks.cells waiter = some .closed) :
      SendMoves link call .proceed
        (link.setSend call { send with stage := .returned (err .channelClosed) })
  | elapsed {send : Send} {waiter : Waiter} (found : link.sends call = some send)
      (stage : send.stage = .awaiting waiter)
      (waiting : link.pendingAcks.cells waiter = some .waiting) :
      SendMoves link call .elapse (link.setSend call { send with stage := .cancelling waiter })
  | cancelled {send : Send} {waiter : Waiter} (found : link.sends call = some send)
      (stage : send.stage = .cancelling waiter) :
      SendMoves link call .proceed
        (({ link with pendingAcks := link.pendingAcks.discard waiter.id } : Link).setSend call
          { send with stage := .returned (err (.timeout .ack)) })

/-- What a call of `close` can do. -/
inductive CloseMoves (link : Link) (call : CloseId) : Link.CloseMove → Link → Prop
  | called (stage : link.closes call = .idle) :
      CloseMoves link call .call
        (({ link with log := link.log ++ [.closeCalled call] } : Link).setClose call .swapping)
  | swapped (stage : link.closes call = .swapping) (isOpen : link.isOpen = true) :
      CloseMoves link call .swap
        (({ link with isOpen := false } : Link).setClose call .notifying)
  | alreadyClosed (stage : link.closes call = .swapping) (closed : link.isOpen = false) :
      CloseMoves link call .swap (link.setClose call .returned)
  | notified (stage : link.closes call = .notifying) :
      CloseMoves link call .notify
        (({ link with shutdown := link.shutdown.notifyWaiters } : Link).setClose call
          (.clearing []))
  | visited {visited : List PacketId} {id : PacketId}
      (stage : link.closes call = .clearing visited) :
      CloseMoves link call (.visit id)
        (({ link with
            pendingAcks := link.pendingAcks.discard id
            log := link.log ++ [.swept id] } : Link).setClose call (.clearing (id :: visited)))
  | finished {visited : List PacketId} (stage : link.closes call = .clearing visited)
      (all : ∀ id ∈ link.pendingAcks.parked.keys, id ∈ visited) :
      CloseMoves link call .finish
        (({ link with log := link.log ++ [.abandoned] } : Link).setClose call .returned)

/-- What the reader can do. -/
inductive ReaderMoves (link : Link) : Link.ReaderMove → Link → Prop
  | foundOpen (stage : link.reader = .checking) (isOpen : link.isOpen = true) :
      ReaderMoves link .proceed { link with reader := .entering }
  | foundClosed (stage : link.reader = .checking) (closed : link.isOpen = false) :
      ReaderMoves link .proceed { link with reader := .left }
  | entered (stage : link.reader = .entering) :
      ReaderMoves link .proceed { link with reader := .selecting link.shutdown.notified }
  | read {future : Notified} {packet : Packet} {ack : Ack}
      (stage : link.reader = .selecting future)
      (handled : Ack.ofPacket link.role packet = some ack) :
      ReaderMoves link (.read packet) { link with reader := .looking ack }
  | handles {future : Notified} {replies : List Packet}
      (stage : link.reader = .selecting future) :
      ReaderMoves link (.handle replies) { link with reader := .handling replies }
  | leaves {future : Notified} (stage : link.reader = .selecting future) :
      ReaderMoves link .leave { link with reader := .left }
  | woken {future : Notified} (stage : link.reader = .selecting future)
      (wakes : link.shutdown.Wakes future) :
      ReaderMoves link .wake { link with reader := .left }
  | matched {ack : Ack} (stage : link.reader = .looking ack)
      (found : (link.pendingAcks.parked.lookup ack.id).map Waiter.slot = some ack.slot) :
      ReaderMoves link .proceed { link with reader := .taking ack }
  | missed {ack : Ack} (stage : link.reader = .looking ack)
      (mismatch : (link.pendingAcks.parked.lookup ack.id).map Waiter.slot ≠ some ack.slot) :
      ReaderMoves link .proceed
        { link with reader := .settling ack, log := link.log ++ [.consumed ack none] }
  | vanished {ack : Ack} (stage : link.reader = .taking ack)
      (nothing : link.pendingAcks.parked.lookup ack.id = none) :
      ReaderMoves link .proceed
        { link with reader := .settling ack, log := link.log ++ [.consumed ack none] }
  | took {ack : Ack} {waiter : Waiter} (stage : link.reader = .taking ack)
      (found : link.pendingAcks.parked.lookup ack.id = some waiter) :
      ReaderMoves link .proceed
        { link with reader := .answering ack, pendingAcks := link.pendingAcks.take ack.id }
  | answered {ack : Ack} {waiter : Waiter} (stage : link.reader = .answering ack)
      (taken : link.pendingAcks.hand = some waiter) (owns : ack.owns waiter.slot = true) :
      ReaderMoves link .proceed
        { link with
          reader := .settling ack
          pendingAcks := link.pendingAcks.answer ack.answer
          log := link.log ++ [.consumed ack (some waiter)] }
  | putBack {ack : Ack} {waiter : Waiter} (stage : link.reader = .answering ack)
      (taken : link.pendingAcks.hand = some waiter) (owns : ack.owns waiter.slot = false) :
      ReaderMoves link .proceed
        { link with
          reader := .settling ack
          pendingAcks := link.pendingAcks.putBack
          log := link.log ++ [.consumed ack none] }
  | released {ack : Ack} (stage : link.reader = .settling ack)
      (isPubrec : ack.slot = .publishAck .pubrec) (alive : link.actor ≠ .gone) :
      ReaderMoves link .proceed
        { link.accept none (.packet (.pubrel ack.id)) with reader := .checking }
  | settled {ack : Ack} (stage : link.reader = .settling ack)
      (other : ack.slot ≠ .publishAck .pubrec) :
      ReaderMoves link .proceed { link with reader := .checking }
  | replied {reply : Packet} {replies : List Packet}
      (stage : link.reader = .handling (reply :: replies)) (alive : link.actor ≠ .gone) :
      ReaderMoves link .proceed
        { link.accept none (.packet reply) with reader := .handling replies }
  | handled (stage : link.reader = .handling []) :
      ReaderMoves link .proceed { link with reader := .checking }
  | failed (stage : (∃ ack, link.reader = .settling ack) ∨
        ∃ replies, link.reader = .handling replies) (gone : link.actor = .gone) :
      ReaderMoves link .proceed { link with reader := .left }

/-- What the writer actor can do. -/
inductive ActorMoves (link : Link) : Link.ActorMove → Link → Prop
  | entered (stage : link.actor = .looping) :
      ActorMoves link .proceed { link with actor := .selecting link.shutdown.notified }
  | took {future : Notified} {cmd : WriteCmd} {rest : List WriteCmd}
      (stage : link.actor = .selecting future) (queue : link.queue = cmd :: rest)
      (other : cmd ≠ .shutdown) :
      ActorMoves link .take { link with actor := .writing cmd, queue := rest }
  | told {future : Notified} {rest : List WriteCmd} (stage : link.actor = .selecting future)
      (queue : link.queue = .shutdown :: rest) :
      ActorMoves link .take { link with actor := .leaving, queue := rest }
  | hungUp {future : Notified} (stage : link.actor = .selecting future)
      (queue : link.queue = []) (released : link.released = true) :
      ActorMoves link .hangUp { link with actor := .leaving }
  | woken {future : Notified} (stage : link.actor = .selecting future)
      (wakes : link.shutdown.Wakes future) :
      ActorMoves link .wake { link with actor := .leaving }
  | flushed {wrote : Bool} (stage : link.actor = .writing .flush) :
      ActorMoves link (.finish wrote) { link with actor := .looping }
  | wrote {cmd : WriteCmd} (stage : link.actor = .writing cmd) (other : cmd ≠ .flush) :
      ActorMoves link (.finish true)
        { link with actor := .looping, written := link.written ++ [cmd] }
  | failed {cmd : WriteCmd} (stage : link.actor = .writing cmd) (other : cmd ≠ .flush) :
      ActorMoves link (.finish false) { link with actor := .leaving }
  | stored (stage : link.actor = .leaving) :
      ActorMoves link .proceed { link with actor := .shutting, isOpen := false }
  | ended (stage : link.actor = .shutting) :
      ActorMoves link .proceed { link with actor := .gone }

/-- What can happen on a link. -/
inductive Moves (link : Link) : Link.Event → Link → Prop
  | send {call : SendId} {move : Link.SendMove} {next : Link} (live : link.released = false)
      (moves : SendMoves link call move next) : Moves link (.send call move) next
  | close {call : CloseId} {move : Link.CloseMove} {next : Link} (live : link.released = false)
      (moves : CloseMoves link call move next) : Moves link (.close call move) next
  | reader {move : Link.ReaderMove} {next : Link} (live : link.released = false)
      (moves : ReaderMoves link move next) : Moves link (.reader move) next
  | actor {move : Link.ActorMove} {next : Link}
      (moves : ActorMoves link move next) : Moves link (.actor move) next
  | sendPacket {packet : Packet} (live : link.released = false) (alive : link.actor ≠ .gone) :
      Moves link (.sendPacket packet) (link.accept none (.packet packet))
  | sendPublish {publish : PublishPacket} (live : link.released = false)
      (alive : link.actor ≠ .gone) :
      Moves link (.sendPublish publish) (link.accept none (.publish publish))
  | allocate (live : link.released = false) : Moves link .allocate link.allocatePacketId
  | release (live : link.released = false) : Moves link .release { link with released := true }

namespace Link

variable {link next : Link}

theorem offer_eq_some {sender : Option SendId} {cmd : WriteCmd}
    (offered : link.offer sender cmd = some next) :
    link.actor ≠ .gone ∧ next = link.accept sender cmd := by
  unfold offer at offered
  split at offered
  · cases offered
  · rename_i alive
    cases offered
    exact ⟨alive, rfl⟩

theorem offer_eq_none {sender : Option SendId} {cmd : WriteCmd}
    (refused : link.offer sender cmd = none) : link.actor = .gone := by
  unfold offer at refused
  split at refused
  · assumption
  · cases refused

theorem proceedSend_moves {call : SendId} {send : Send} (found : link.sends call = some send)
    (moved : link.proceedSend call send = some next) : SendMoves link call .proceed next := by
  unfold proceedSend at moved
  split at moved
  next stage =>
    split at moved
    next awaits =>
      cases moved
      exact .unnumbered found stage awaits
    next slot awaits =>
      cases moved
      exact .numbered found stage awaits
  next waiter cmd stage =>
    cases moved
    exact .parked found stage
  next waiter cmd stage =>
    split at moved
    next refused =>
      cases moved
      exact .rejected found stage (offer_eq_none refused)
    next taken offered =>
      cases moved
      obtain ⟨alive, rfl⟩ := offer_eq_some offered
      exact .accepted found stage alive
  next waiter stage =>
    split at moved
    next answer sent =>
      cases moved
      exact .resumed found stage sent
    next closed =>
      cases moved
      exact .closed found stage closed
    next => cases moved
  next waiter stage =>
    cases moved
    exact .cancelled found stage
  next => cases moved

theorem sendStep_moves {call : SendId} {move : SendMove}
    (moved : link.sendStep call move = some next) : SendMoves link call move next := by
  cases move with
  | call request =>
      simp only [sendStep] at moved
      split at moved
      next unused =>
        cases moved
        exact .called unused
      next => cases moved
  | proceed =>
      obtain ⟨send, found, proceeds⟩ := Option.bind_eq_some_iff.mp moved
      exact proceedSend_moves found proceeds
  | elapse =>
      obtain ⟨send, found, elapses⟩ := Option.bind_eq_some_iff.mp moved
      unfold elapse at elapses
      split at elapses
      next waiter stage =>
        split at elapses
        next waiting =>
          cases elapses
          exact .elapsed found stage waiting
        next => cases elapses
      next => cases elapses

theorem closeStep_moves {call : CloseId} {move : CloseMove}
    (moved : link.closeStep call move = some next) : CloseMoves link call move next := by
  unfold closeStep at moved
  split at moved
  next stage =>
    cases moved
    exact .called stage
  next stage =>
    split at moved
    next isOpen =>
      cases moved
      exact .swapped stage isOpen
    next closed =>
      cases moved
      exact .alreadyClosed stage (Bool.eq_false_iff.mpr closed)
  next stage =>
    cases moved
    exact .notified stage
  next visited id stage =>
    cases moved
    exact .visited stage
  next visited stage =>
    split at moved
    next all =>
      cases moved
      refine .finished stage fun id listed => ?_
      exact of_decide_eq_true (List.all_eq_true.mp all id listed)
    next => cases moved
  next => cases moved

theorem proceedReader_moves (moved : link.proceedReader = some next) :
    ReaderMoves link .proceed next := by
  unfold proceedReader at moved
  split at moved
  next stage =>
    split at moved
    next isOpen =>
      cases moved
      exact .foundOpen stage isOpen
    next closed =>
      cases moved
      exact .foundClosed stage (Bool.eq_false_iff.mpr closed)
  next stage =>
    cases moved
    exact .entered stage
  next ack stage =>
    split at moved
    next found =>
      cases moved
      exact .matched stage found
    next mismatch =>
      cases moved
      exact .missed stage mismatch
  next ack stage =>
    split at moved
    next nothing =>
      cases moved
      exact .vanished stage nothing
    next waiter found =>
      cases moved
      exact .took stage found
  next ack stage =>
    split at moved
    next => cases moved
    next waiter taken =>
      split at moved
      next owns =>
        cases moved
        exact .answered stage taken owns
      next owns =>
        cases moved
        exact .putBack stage taken (Bool.eq_false_iff.mpr owns)
  next ack stage =>
    split at moved
    next isPubrec =>
      split at moved
      next refused =>
        cases moved
        exact .failed (.inl ⟨ack, stage⟩) (offer_eq_none refused)
      next taken offered =>
        cases moved
        obtain ⟨alive, rfl⟩ := offer_eq_some offered
        exact .released stage isPubrec alive
    next other =>
      cases moved
      exact .settled stage other
  next stage =>
    cases moved
    exact .handled stage
  next reply replies stage =>
    split at moved
    next refused =>
      cases moved
      exact .failed (.inr ⟨_, stage⟩) (offer_eq_none refused)
    next taken offered =>
      cases moved
      obtain ⟨alive, rfl⟩ := offer_eq_some offered
      exact .replied stage alive
  next => cases moved
  next => cases moved

theorem readerStep_moves {move : ReaderMove} (moved : link.readerStep move = some next) :
    ReaderMoves link move next := by
  unfold readerStep at moved
  split at moved
  next => exact proceedReader_moves moved
  next packet future stage =>
    obtain ⟨ack, handled, rfl⟩ := Option.map_eq_some_iff.mp moved
    exact .read stage handled
  next replies future stage =>
    cases moved
    exact .handles stage
  next future stage =>
    cases moved
    exact .leaves stage
  next future stage =>
    split at moved
    next wakes =>
      cases moved
      exact .woken stage wakes
    next => cases moved
  next => cases moved

theorem actorStep_moves {move : ActorMove} (moved : link.actorStep move = some next) :
    ActorMoves link move next := by
  unfold actorStep at moved
  split at moved
  next stage =>
    cases moved
    exact .entered stage
  next stage =>
    cases moved
    exact .stored stage
  next stage =>
    cases moved
    exact .ended stage
  next future stage =>
    split at moved
    next => cases moved
    next rest queue =>
      cases moved
      exact .told stage queue
    next cmd rest other queue =>
      cases moved
      exact .took stage queue fun same => other (same ▸ rfl)
  next future stage =>
    split at moved
    next ended =>
      cases moved
      exact .hungUp stage ended.1 ended.2
    next => cases moved
  next future stage =>
    split at moved
    next wakes =>
      cases moved
      exact .woken stage wakes
    next => cases moved
  next stage =>
    cases moved
    exact .flushed stage
  next cmd other stage =>
    cases moved
    exact .wrote stage other
  next cmd other stage =>
    cases moved
    exact .failed stage other
  next => cases moved

theorem step_moves {event : Event} (moved : link.step event = some next) :
    Moves link event next := by
  cases event with
  | actor move => exact .actor (actorStep_moves moved)
  | send call move =>
      simp only [step] at moved
      split at moved
      next => cases moved
      next live => exact .send (Bool.eq_false_iff.mpr live) (sendStep_moves moved)
  | close call move =>
      simp only [step] at moved
      split at moved
      next => cases moved
      next live => exact .close (Bool.eq_false_iff.mpr live) (closeStep_moves moved)
  | reader move =>
      simp only [step] at moved
      split at moved
      next => cases moved
      next live => exact .reader (Bool.eq_false_iff.mpr live) (readerStep_moves moved)
  | sendPacket packet =>
      simp only [step] at moved
      split at moved
      next => cases moved
      next live =>
        obtain ⟨alive, rfl⟩ := offer_eq_some moved
        exact .sendPacket (Bool.eq_false_iff.mpr live) alive
  | sendPublish publish =>
      simp only [step] at moved
      split at moved
      next => cases moved
      next live =>
        obtain ⟨alive, rfl⟩ := offer_eq_some moved
        exact .sendPublish (Bool.eq_false_iff.mpr live) alive
  | allocate =>
      simp only [step] at moved
      split at moved
      next => cases moved
      next live =>
        cases moved
        exact .allocate (Bool.eq_false_iff.mpr live)
  | release =>
      simp only [step] at moved
      split at moved
      next => cases moved
      next live =>
        cases moved
        exact .release (Bool.eq_false_iff.mpr live)

end Link

/-! ## What the moves leave alone -/

section frames

variable {link next : Link}

theorem CloseMoves.sends_eq {call : CloseId} {move : Link.CloseMove}
    (moves : CloseMoves link call move next) : next.sends = link.sends := by
  cases moves <;> rfl

theorem ReaderMoves.sends_eq {move : Link.ReaderMove} (moves : ReaderMoves link move next) :
    next.sends = link.sends := by
  cases moves <;> rfl

theorem ActorMoves.sends_eq {move : Link.ActorMove} (moves : ActorMoves link move next) :
    next.sends = link.sends := by
  cases moves <;> rfl

/-- One call of `close` moves on and the others stay where they are. -/
theorem each_close_update {condition : CloseStage → Prop} {closes : CloseId → CloseStage}
    {call : CloseId} {stage : CloseStage} (others : ∀ call, condition (closes call))
    (moved : condition stage) (other : CloseId) :
    condition (Function.update closes call stage other) := by
  by_cases same : other = call
  · subst same
    rwa [Function.update_self]
  · rw [Function.update_of_ne same]
    exact others other

/-- Every call of the send path meets a condition on its record. -/
def Link.EachSend (link : Link) (condition : SendId → Send → Prop) : Prop :=
  ∀ call send, link.sends call = some send → condition call send

variable {condition : SendId → Send → Prop}

theorem Link.EachSend.of_sends_eq (each : link.EachSend condition)
    (same : next.sends = link.sends) : next.EachSend condition := by
  intro call send found
  exact each call send (same ▸ found)

theorem Link.EachSend.update {call : SendId} {send : Send} (each : link.EachSend condition)
    (sends : next.sends = Function.update link.sends call (some send))
    (new : condition call send) : next.EachSend condition := by
  intro other found at_
  rw [sends] at at_
  by_cases same : other = call
  · subst same
    rw [Function.update_self] at at_
    cases at_
    exact new
  · rw [Function.update_of_ne same] at at_
    exact each other found at_

/-- What holds of each call is kept by the calls' own moves and by all others. -/
theorem Link.EachSend.step {event : Link.Event} (each : link.EachSend condition)
    (sends : ∀ {call move}, SendMoves link call move next → next.EachSend condition)
    (moves : Moves link event next) : next.EachSend condition := by
  cases moves with
  | send _ moves => exact sends moves
  | close _ moves => exact each.of_sends_eq moves.sends_eq
  | reader _ moves => exact each.of_sends_eq moves.sends_eq
  | actor moves => exact each.of_sends_eq moves.sends_eq
  | sendPacket _ _ | sendPublish _ _ | allocate _ | release _ => exact each.of_sends_eq rfl

end frames

end HotaruMqtt.Channel
