import HotaruMqtt.Channel.Drain

/-!
# The methods of a channel as uninterrupted accesses

`Session.lean` has each method of the session and of the channel as one step.  Here a
link is read as such a channel, and the accesses of one task, made one after the other
with nobody in between, come to what the method does there.
-/

namespace HotaruMqtt.Channel

open Exec Exec.Outcome Exec.Transition

/-- The packet that a command brings to the wire. -/
def WriteCmd.wire : WriteCmd → Option Packet
  | .packet sent => some sent
  | .publish sent => some (.publish sent)
  | .flush | .shutdown => none

/-- What a link and a channel have in common apart from the waiters. -/
structure Fits (link : Link) (channel : MqttChannel) : Prop where
  counter : channel.session.pktCounter = link.pktCounter
  isOpen : channel.isOpen = link.isOpen
  alive : channel.writerAlive = decide (link.actor ≠ .gone)
  sent : channel.sent = (accepted link.log).filterMap WriteCmd.wire

/-- The channel of `Session.lean` that a link shows. -/
structure Shows (link : Link) (channel : MqttChannel) : Prop extends Fits link channel where
  pending : ∀ id, channel.session.pendingAcks.lookup id =
    (link.pendingAcks.parked.lookup id).map Waiter.slot

theorem shows_new (role : ProtocolRole) : Shows (.new role) .new where
  counter := rfl
  isOpen := rfl
  alive := rfl
  sent := rfl
  pending _ := rfl

section moves

variable {link next : Link} {channel : MqttChannel}

/-! ## Sending and counting -/

theorem shows_allocatePacketId (shows : Shows link channel) :
    channel.session.allocatePacketId.1 = link.nextId ∧
      Shows link.allocatePacketId
        (channel.withSession fun session => session.allocatePacketId.2) := by
  have counter := shows.counter
  constructor
  · rw [MqttSession.allocatePacketId, Link.nextId, counter]
  · exact ⟨⟨congrArg (· + 1) counter, shows.isOpen, shows.alive, shows.sent⟩, shows.pending⟩

/-- `send_packet` succeeds on the link exactly when it does on the channel. -/
theorem shows_sendPacket (shows : Shows link channel) (sender : Option SendId) (packet : Packet) :
    match link.offer sender (.packet packet) with
    | some next => (channel.sendPacket packet).1 = ok () ∧
        Shows next (channel.sendPacket packet).2
    | none => channel.sendPacket packet = (err .channelClosed, channel) := by
  have alive := shows.alive
  unfold Link.offer MqttChannel.sendPacket
  by_cases gone : link.actor = .gone
  · rw [if_pos gone, alive, if_neg (by simp [gone])]
  · rw [if_neg gone, if_pos (by simp [alive, gone])]
    refine ⟨rfl, ⟨shows.counter, shows.isOpen, shows.alive, ?_⟩, shows.pending⟩
    simp [Link.accept, Record.command, WriteCmd.wire, shows.sent]

/-! ## Waking -/

/-- The three accesses of a `wake_*` method, or the first alone when it finds nothing
for it. -/
theorem wake_uninterrupted {ack : Ack} (shows : Shows link channel)
    (live : link.released = false) (stage : link.reader = .looking ack)
    (empty : link.pendingAcks.hand = none) :
    ∃ count next, Run Link.step Any link (.replicate count (.reader .proceed)) next ∧
      next.reader = .settling ack ∧
      Shows next (channel.withSession fun session => session.wake ack.id ack.slot ack.answer) := by
  have slotHere := shows.pending ack.id
  by_cases matched : (link.pendingAcks.parked.lookup ack.id).map Waiter.slot = some ack.slot
  · obtain ⟨waiter, found, slot⟩ := Option.map_eq_some_iff.mp matched
    rw [matched] at slotHere
    have owns : ack.owns waiter.slot = true := slot ▸ ack.owns_slot
    have taken : (link.pendingAcks.take ack.id).hand = some waiter :=
      (link.pendingAcks.hand_take empty).trans found
    have looked : link.step (.reader .proceed) = some { link with reader := .taking ack } := by
      simp only [Link.step, live, Bool.false_eq_true, if_false, Link.readerStep,
        Link.proceedReader, stage, matched, if_true]
    have took : ({ link with reader := .taking ack } : Link).step (.reader .proceed) =
        some { link with
          reader := .answering ack
          pendingAcks := link.pendingAcks.take ack.id } := by
      simp only [Link.step, live, Bool.false_eq_true, if_false, Link.readerStep,
        Link.proceedReader, found]
    have answered : ({ link with
        reader := .answering ack
        pendingAcks := link.pendingAcks.take ack.id } : Link).step (.reader .proceed) =
          some { link with
            reader := .settling ack
            pendingAcks := (link.pendingAcks.take ack.id).answer ack.answer
            log := link.log ++ [.consumed ack (some waiter)] } := by
      simp only [Link.step, live, Bool.false_eq_true, if_false, Link.readerStep,
        Link.proceedReader, taken, owns, if_true]
    refine ⟨3, _, .cons trivial looked (.cons trivial took (.cons trivial answered (.nil _))),
      rfl, ?_⟩
    constructor
    · refine ⟨?_, shows.isOpen, shows.alive, ?_⟩
      · simp [MqttChannel.withSession, MqttSession.wake_of_parked slotHere, shows.counter]
      · simp [MqttChannel.withSession, Record.command, shows.sent]
    · intro id
      simp only [MqttChannel.withSession, MqttSession.wake_of_parked slotHere,
        Registry.parked_answer, link.pendingAcks.parked_take empty, Table.lookup_erase]
      split
      · rfl
      · exact shows.pending id
  · have missed : link.step (.reader .proceed) =
        some { link with reader := .settling ack, log := link.log ++ [.consumed ack none] } := by
      simp only [Link.step, live, Bool.false_eq_true, if_false, Link.readerStep,
        Link.proceedReader, stage, matched]
    have untouched : channel.session.wake ack.id ack.slot ack.answer = channel.session :=
      MqttSession.wake_of_not_parked (slotHere ▸ matched) _
    refine ⟨1, _, .cons trivial missed (.nil _), rfl, ?_⟩
    rw [MqttChannel.withSession, untouched]
    refine ⟨⟨shows.counter, shows.isOpen, shows.alive, ?_⟩, shows.pending⟩
    simp [Record.command, shows.sent]

/-! ## Closing -/

/-- `abandon` visits a list of keys. -/
theorem visits_uninterrupted (call : CloseId) (ids : List PacketId) {visited : List PacketId}
    (fits : Fits link channel) (live : link.released = false)
    (stage : link.closes call = .clearing visited) :
    ∃ next, Run Link.step Any link (ids.map fun id => .close call (.visit id)) next ∧
      Fits next channel ∧ next.released = false ∧
      next.closes call = .clearing (ids.reverse ++ visited) ∧
      ∀ id, id ∈ ids ∨ link.pendingAcks.parked.lookup id = none →
        next.pendingAcks.parked.lookup id = none := by
  induction ids generalizing link visited with
  | nil =>
      refine ⟨link, .nil _, fits, live, stage, fun id either => either.resolve_left ?_⟩
      exact List.not_mem_nil
  | cons first rest ih =>
      let visitedOne := ({ link with
          pendingAcks := link.pendingAcks.discard first
          log := link.log ++ [.swept first] } : Link).setClose call (.clearing (first :: visited))
      have moved : link.step (.close call (.visit first)) = some visitedOne := by
        simp only [Link.step, live, Bool.false_eq_true, if_false, Link.closeStep, stage, visitedOne]
      have fitsOne : Fits visitedOne channel :=
        ⟨fits.counter, fits.isOpen, fits.alive, by
          simpa [visitedOne, Link.setClose, Record.command] using fits.sent⟩
      obtain ⟨next, run, fitsNext, liveNext, stageNext, emptied⟩ :=
        ih fitsOne live (Function.update_self _ _ _)
      refine ⟨next, .cons trivial moved run, fitsNext, liveNext, by simp [stageNext], ?_⟩
      intro id either
      apply emptied
      rcases either with listed | nothing
      · rcases List.mem_cons.mp listed with rfl | listed
        · exact .inr (Table.lookup_erase.trans (if_pos rfl))
        · exact .inl listed
      · exact .inr (Table.lookup_erase_eq_none nothing)

/-- The sweep of `abandon`: every key that is there, and the end. -/
theorem abandon_uninterrupted (call : CloseId) (fits : Fits link channel)
    (live : link.released = false) (stage : link.closes call = .clearing []) :
    ∃ (moves : List Link.CloseMove) (next : Link),
      Run Link.step Any link (moves.map fun move => .close call move) next ∧
      next.closes call = .returned ∧ Fits next channel ∧
      ∀ id, next.pendingAcks.parked.lookup id = none := by
  let keys := link.pendingAcks.parked.keys
  obtain ⟨cleared, visits, fitsCleared, liveCleared, stageCleared, emptied⟩ :=
    visits_uninterrupted call keys fits live stage
  have empty : ∀ id, cleared.pendingAcks.parked.lookup id = none := by
    intro id
    apply emptied
    by_cases listed : id ∈ keys
    · exact .inl listed
    · exact .inr (AList.lookup_eq_none.mpr fun present => listed (AList.mem_keys.mpr present))
  have all : (cleared.pendingAcks.parked.keys.all fun id =>
      decide (id ∈ keys.reverse ++ [])) = true := by
    refine List.all_eq_true.mpr fun id listed => ?_
    exact absurd (AList.mem_keys.mp listed) (AList.lookup_eq_none.mp (empty id))
  let finished := ({ cleared with log := cleared.log ++ [.abandoned] } : Link).setClose call
    .returned
  have finishes : cleared.step (.close call .finish) = some finished := by
    simp only [Link.step, liveCleared, Bool.false_eq_true, if_false, Link.closeStep,
      stageCleared, all, if_true, finished]
  refine ⟨keys.map .visit ++ [.finish], finished, ?_, Function.update_self _ _ _, ?_, empty⟩
  · rw [List.map_append, List.map_map]
    exact visits.append (.cons trivial finishes (.nil _))
  · refine ⟨fitsCleared.counter, fitsCleared.isOpen, fitsCleared.alive, ?_⟩
    simpa [finished, Link.setClose, Record.command] using fitsCleared.sent

/-- The accesses of a call of `close`. -/
theorem close_uninterrupted (call : CloseId) (shows : Shows link channel)
    (live : link.released = false) (stage : link.closes call = .idle) :
    ∃ (moves : List Link.CloseMove) (next : Link),
      Run Link.step Any link (moves.map fun move => .close call move) next ∧
      next.closes call = .returned ∧ Shows next channel.close := by
  have sent := shows.sent
  let called := ({ link with log := link.log ++ [.closeCalled call] } : Link).setClose call
    .swapping
  have calls : link.step (.close call .call) = some called := by
    simp only [Link.step, live, Bool.false_eq_true, if_false, Link.closeStep, stage, called]
  cases isOpen : link.isOpen with
  | false =>
      have swaps : called.step (.close call .swap) = some (called.setClose call .returned) := by
        simp [Link.step, called, Link.setClose, live, Link.closeStep, isOpen]
      have unchanged : channel.close = channel := by
        rw [MqttChannel.close, shows.isOpen, isOpen]
        rfl
      refine ⟨[.call, .swap], _, .cons trivial calls (.cons trivial swaps (.nil _)),
        Function.update_self _ _ _, ?_⟩
      rw [unchanged]
      refine ⟨⟨shows.counter, shows.isOpen, shows.alive, ?_⟩, shows.pending⟩
      simpa [called, Link.setClose, Record.command] using sent
  | true =>
      let swapped := ({ called with isOpen := false } : Link).setClose call .notifying
      have swaps : called.step (.close call .swap) = some swapped := by
        simp [Link.step, called, swapped, Link.setClose, live, Link.closeStep, isOpen]
      let notified := ({ swapped with shutdown := swapped.shutdown.notifyWaiters } : Link).setClose
        call (.clearing [])
      have notifies : swapped.step (.close call .notify) = some notified := by
        simp [Link.step, called, swapped, notified, Link.setClose, live, Link.closeStep]
      have closed : channel.close =
          { channel with isOpen := false, session := channel.session.abandon } := by
        rw [MqttChannel.close, shows.isOpen, isOpen, if_pos rfl]
      have fits : Fits notified channel.close := by
        rw [closed]
        refine ⟨shows.counter, rfl, shows.alive, ?_⟩
        simpa [notified, swapped, called, Link.setClose, Record.command] using sent
      obtain ⟨moves, next, sweeps, returned, fitsNext, empty⟩ :=
        abandon_uninterrupted call fits live (Function.update_self _ _ _)
      refine ⟨[.call, .swap, .notify] ++ moves, next, ?_, returned, fitsNext, fun id => ?_⟩
      · rw [List.map_append]
        exact (Run.cons trivial calls (.cons trivial swaps (.cons trivial notifies
          (.nil _)))).append sweeps
      · rw [closed, empty id]
        rfl

end moves

end HotaruMqtt.Channel
