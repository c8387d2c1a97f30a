import HotaruMqtt.Channel.Flow

/-!
# Acknowledgements reach the call they belong to

As long as the packet-id counter has not wrapped, no two calls have the same
identifier.  Then what the reader finds under an identifier between its two lookups is
the same waiter or nothing, so it wakes exactly the waiter its acknowledgement is for.
-/

namespace HotaruMqtt.Channel

open Exec Exec.Outcome Exec.Transition
open scoped List

/-! ## Identifiers -/

/-- The counter counts the identifiers, and no two calls have the same one. -/
structure Numbered (link : Link) : Prop where
  counter : link.pktCounter.toNat = link.allocated
  below : link.EachSend fun _ send => ∀ id ∈ send.packetId, id.toNat ≤ link.allocated
  distinct : ∀ {first second send other id}, link.sends first = some send →
    link.sends second = some other → send.packetId = some id → other.packetId = some id →
    first = second

namespace Numbered

variable {link next : Link}

theorem nextId_toNat (numbered : Numbered link) (few : link.allocated + 1 ≤ 65535) :
    link.nextId.toNat = link.allocated + 1 := by
  have sum : (link.pktCounter + 1).toNat = link.allocated + 1 := by
    rw [UInt16.toNat_add, numbered.counter]
    exact Nat.mod_eq_of_lt (Nat.lt_succ_of_le few)
  unfold Link.nextId
  split
  · rename_i wrapped
    rw [wrapped] at sum
    exact absurd sum (Nat.succ_ne_zero _).symm
  · exact sum

theorem allocatePacketId (numbered : Numbered link) (few : link.allocated + 1 ≤ 65535) :
    Numbered link.allocatePacketId where
  counter := by
    have sum : (link.pktCounter + 1).toNat = (link.pktCounter.toNat + 1) % 65536 :=
      UInt16.toNat_add _ _
    rw [numbered.counter, Nat.mod_eq_of_lt (Nat.lt_succ_of_le few)] at sum
    exact sum
  below call send found id listed := Nat.le_succ_of_le (numbered.below call send found id listed)
  distinct := numbered.distinct

/-- The identifiers of the calls stay as they are. -/
theorem congr (numbered : Numbered link) (counter : next.pktCounter = link.pktCounter)
    (allocated : next.allocated = link.allocated)
    (sends : ∀ call send, next.sends call = some send → ∀ id, send.packetId = some id →
      ∃ before, link.sends call = some before ∧ before.packetId = some id) : Numbered next where
  counter := by rw [counter, allocated, numbered.counter]
  below call send found id listed := by
    obtain ⟨before, found, same⟩ := sends call send found id listed
    rw [allocated]
    exact numbered.below call before found id same
  distinct := by
    intro first second send other id found foundOther has otherHas
    obtain ⟨_, found, has⟩ := sends first send found id has
    obtain ⟨_, foundOther, otherHas⟩ := sends second other foundOther id otherHas
    exact numbered.distinct found foundOther has otherHas

theorem of_sends_eq (numbered : Numbered link) (counter : next.pktCounter = link.pktCounter)
    (allocated : next.allocated = link.allocated) (sends : next.sends = link.sends) :
    Numbered next :=
  numbered.congr counter allocated fun _ send found _ has => ⟨send, sends ▸ found, has⟩

/-- A call goes on with the identifier it has. -/
theorem restage (numbered : Numbered link) {call : SendId} {send after : Send}
    (counter : next.pktCounter = link.pktCounter) (allocated : next.allocated = link.allocated)
    (found : link.sends call = some send)
    (sends : next.sends = Function.update link.sends call (some after))
    (same : after.packetId = send.packetId) : Numbered next := by
  refine numbered.congr counter allocated fun other found' present id has => ?_
  rw [sends] at present
  by_cases mine : other = call
  · subst mine
    rw [Function.update_self] at present
    cases present
    exact ⟨send, found, same ▸ has⟩
  · rw [Function.update_of_ne mine] at present
    exact ⟨found', present, has⟩

theorem send_step (numbered : Numbered link) {call : SendId} {move : Link.SendMove}
    (few : next.allocated ≤ 65535) (moves : SendMoves link call move next) : Numbered next := by
  cases moves with
  | called unused =>
      refine numbered.congr rfl rfl fun other send found id has => ?_
      by_cases mine : other = call
      · subst mine
        cases (Link.sends_setSend_self _ _ _).symm.trans found
        cases has
      · exact ⟨send, (Link.sends_setSend_of_ne _ _ mine).symm.trans found, has⟩
  | numbered found stage awaits =>
      have counted := numbered.allocatePacketId few
      have new := numbered.nextId_toNat few
      have older : ∀ {other send}, link.sends other = some send →
          send.packetId ≠ some link.nextId := by
        intro other send at_ has
        have bound := numbered.below other send at_ _ has
        rw [new] at bound
        exact absurd bound (Nat.not_succ_le_self _)
      refine ⟨counted.counter, counted.below.update rfl ?_, ?_⟩
      · rintro id ⟨⟩
        exact new.le
      · intro first second send other id foundFirst foundSecond has otherHas
        by_cases isFirst : first = call <;> by_cases isSecond : second = call
        · rw [isFirst, isSecond]
        · subst isFirst
          cases (Link.sends_setSend_self _ _ _).symm.trans foundFirst
          cases has
          exact absurd otherHas
            (older ((Link.sends_setSend_of_ne _ _ isSecond).symm.trans foundSecond))
        · subst isSecond
          cases (Link.sends_setSend_self _ _ _).symm.trans foundSecond
          cases otherHas
          exact absurd has (older ((Link.sends_setSend_of_ne _ _ isFirst).symm.trans foundFirst))
        · exact numbered.distinct ((Link.sends_setSend_of_ne _ _ isFirst).symm.trans foundFirst)
            ((Link.sends_setSend_of_ne _ _ isSecond).symm.trans foundSecond) has otherHas
  | unnumbered found _ _ | parked found _ | accepted found _ _ | rejected found _ _
  | resumed found _ _ | closed found _ _ | elapsed found _ _ | cancelled found _ =>
      exact numbered.restage rfl rfl found rfl rfl

theorem step (numbered : Numbered link) {event : Link.Event} (few : next.allocated ≤ 65535)
    (moves : Moves link event next) : Numbered next := by
  cases moves with
  | send _ moves => exact numbered.send_step few moves
  | close _ moves => cases moves <;> exact numbered.of_sends_eq rfl rfl rfl
  | reader _ moves => cases moves <;> exact numbered.of_sends_eq rfl rfl rfl
  | actor moves => cases moves <;> exact numbered.of_sends_eq rfl rfl rfl
  | allocate _ => exact numbered.allocatePacketId few
  | sendPacket _ _ | sendPublish _ _ | release _ => exact numbered.of_sends_eq rfl rfl rfl

end Numbered

theorem Moves.allocated_le {link next : Link} {event : Link.Event}
    (moves : Moves link event next) : link.allocated ≤ next.allocated := by
  cases moves with
  | send _ moves =>
      cases moves with
      | numbered _ _ _ => exact Nat.le_succ _
      | _ => exact le_rfl
  | close _ moves => cases moves <;> exact le_rfl
  | reader _ moves => cases moves <;> exact le_rfl
  | actor moves => cases moves <;> exact le_rfl
  | allocate _ => exact Nat.le_succ _
  | sendPacket _ _ | sendPublish _ _ | release _ => exact le_rfl

/-! ## The reader -/

/-- What the reader has in its hand: nothing, or the waiter its acknowledgement is
for; and between the two lookups a waiter it is for has been there. -/
def Reader.Holds (cells : Waiter → Option (Oneshot Wake)) (hand : Option Waiter) : Reader → Prop
  | .taking ack => hand = none ∧ ∃ waiter, ack.waiter waiter.owner = waiter ∧
      (cells waiter = some .waiting ∨ cells waiter = some .closed)
  | .answering ack => ∃ waiter, hand = some waiter ∧ ack.waiter waiter.owner = waiter
  | _ => hand = none

/-- What holds of a link as long as no two calls share an identifier. -/
structure AckInv (link : Link) : Prop where
  numbered : Numbered link
  flow : Flow link
  reader : link.reader.Holds link.pendingAcks.cells link.pendingAcks.hand

/-- A waiter for PUBCOMP has come after its waiter for PUBREC was woken. -/
theorem Flow.pubrec_sent {link : Link} (flow : Flow link) {id : PacketId} {call : SendId}
    {cell : Oneshot Wake}
    (present : link.pendingAcks.cells ⟨id, .publishAck .pubcomp, call⟩ = some cell) :
    link.pendingAcks.cells ⟨id, .publishAck .pubrec, call⟩ = some (.sent (.publishAck id)) := by
  have records := flow.parked _ _ present
  rw [Waiter.preamble, if_pos rfl] at records
  refine flow.woken (.publishAck .pubrec id) _ (records.subset ?_)
  simp [acked, Ack.waiter, Ack.id, Ack.slot]

namespace AckInv

variable {link next : Link}

/-- Under one identifier there is at most one waiter that was not woken. -/
theorem unsent_unique (inv : AckInv link) {first second : Waiter} {cell other : Oneshot Wake}
    (present : link.pendingAcks.cells first = some cell) (unsent : ∀ answer, cell ≠ .sent answer)
    (present' : link.pendingAcks.cells second = some other)
    (unsent' : ∀ answer, other ≠ .sent answer) (sameId : first.id = second.id) :
    first = second := by
  obtain ⟨send, found, has, awaits⟩ := inv.flow.owned first cell present
  obtain ⟨send', found', has', awaits'⟩ := inv.flow.owned second other present'
  obtain ⟨id, slot, owner⟩ := first
  obtain ⟨id', slot', owner'⟩ := second
  obtain rfl : id = id' := sameId
  obtain rfl : owner = owner' := inv.numbered.distinct found found' has has'
  cases found.symm.trans found'
  rcases awaits with isFirst | ⟨isPubrec, rfl⟩ <;> rcases awaits' with isFirst' | ⟨isPubrec', rfl⟩
  · cases isFirst.symm.trans isFirst'
    rfl
  · cases isFirst.symm.trans isPubrec'
    cases present.symm.trans (inv.flow.pubrec_sent present')
    exact absurd rfl (unsent _)
  · cases isFirst'.symm.trans isPubrec
    cases present'.symm.trans (inv.flow.pubrec_sent present)
    exact absurd rfl (unsent' _)
  · rfl

/-- Who waits is in the table or in the hand of the reader. -/
theorem parked_of_waiting (inv : AckInv link) {waiter : Waiter}
    (waiting : link.pendingAcks.cells waiter = some .waiting)
    (other : ∀ ack, link.reader = .answering ack → ack.waiter waiter.owner ≠ waiter) :
    link.pendingAcks.parked.lookup waiter.id = some waiter := by
  refine ((link.pendingAcks.held waiter).mp waiting).resolve_right fun taken => ?_
  have holds := inv.reader
  cases stage : link.reader with
  | answering ack =>
      rw [stage, taken] at holds
      obtain ⟨_, ⟨⟩, isFor⟩ := holds
      exact other ack stage isFor
  | taking ack =>
      rw [stage, taken] at holds
      cases holds.1
  | _ =>
      rw [stage, taken] at holds
      cases holds

/-- What the second lookup finds is what the first has found. -/
theorem found_isFor (inv : AckInv link) {ack : Ack} {waiter : Waiter}
    (stage : link.reader = .taking ack)
    (found : link.pendingAcks.parked.lookup ack.id = some waiter) :
    ack.waiter waiter.owner = waiter := by
  have holds := inv.reader
  rw [stage] at holds
  obtain ⟨_, seen, isFor, cell⟩ := holds
  have sameId : seen.id = waiter.id := by
    rw [← isFor, link.pendingAcks.keyed found]
    rfl
  have waiting := link.pendingAcks.waiting_of_parked found
  have same : seen = waiter := by
    rcases cell with cell | cell
    · exact inv.unsent_unique cell (by simp) waiting (by simp) sameId
    · exact inv.unsent_unique cell (by simp) waiting (by simp) sameId
  exact same ▸ isFor

theorem hand_isFor (inv : AckInv link) {ack : Ack} {waiter : Waiter}
    (stage : link.reader = .answering ack) (taken : link.pendingAcks.hand = some waiter) :
    ack.waiter waiter.owner = waiter := by
  have holds := inv.reader
  rw [stage, taken] at holds
  obtain ⟨_, ⟨⟩, isFor⟩ := holds
  exact isFor

/-- The slot in the reader's hand is never put back. -/
theorem owns_hand (inv : AckInv link) {ack : Ack} {waiter : Waiter}
    (stage : link.reader = .answering ack) (taken : link.pendingAcks.hand = some waiter) :
    ack.owns waiter.slot = true := by
  rw [← inv.hand_isFor stage taken]
  exact ack.owns_slot

theorem reader_step (inv : AckInv link) {move : Link.ReaderMove}
    (moves : ReaderMoves link move next) :
    next.reader.Holds next.pendingAcks.cells next.pendingAcks.hand := by
  have holds := inv.reader
  cases moves with
  | matched stage found =>
      obtain ⟨waiter, found, slot⟩ := Option.map_eq_some_iff.mp found
      rw [stage] at holds
      refine ⟨holds, waiter, ?_, .inl (link.pendingAcks.waiting_of_parked found)⟩
      rw [Ack.waiter, ← slot, ← link.pendingAcks.keyed found]
  | took stage found =>
      have isFor := inv.found_isFor stage found
      rw [stage] at holds
      exact ⟨_, (link.pendingAcks.hand_take holds.1).trans found, isFor⟩
  | answered stage taken owns => exact link.pendingAcks.hand_answer _
  | putBack stage taken owns => exact link.pendingAcks.hand_putBack
  | vanished stage nothing =>
      rw [stage] at holds
      exact holds.1
  | failed stage gone =>
      rcases stage with ⟨ack, stage⟩ | ⟨replies, stage⟩
      · rw [stage] at holds
        exact holds
      · rw [stage] at holds
        exact holds
  | foundOpen stage _ | foundClosed stage _ | entered stage | read stage _ | handles stage
  | leaves stage | woken stage _ | missed stage _ | released stage _ _ | settled stage _
  | replied stage _ | handled stage =>
      rw [stage] at holds
      exact holds

/-- The reader stays where it is, and what it has seen does not come back. -/
theorem holds_of_goes {reader : Reader} {before after : Waiter → Option (Oneshot Wake)}
    {hand : Option Waiter} (holds : reader.Holds before hand)
    (ebbs : ∀ waiter cell, before waiter = some cell → after waiter = before waiter ∨
      before waiter = some .waiting ∧ after waiter = some .closed) : reader.Holds after hand := by
  cases reader with
  | taking ack =>
      obtain ⟨empty, waiter, isFor, cell⟩ := holds
      refine ⟨empty, waiter, isFor, ?_⟩
      rcases cell with waits | closed
      · exact (ebbs waiter _ waits).imp (fun same => same.trans waits) And.right
      · rcases ebbs waiter _ closed with same | ⟨waits, _⟩
        · exact .inr (same.trans closed)
        · cases closed.symm.trans waits
  | _ => exact holds

theorem send_holds (inv : AckInv link) {call : SendId} {move : Link.SendMove}
    (moves : SendMoves link call move next) :
    next.reader.Holds next.pendingAcks.cells next.pendingAcks.hand := by
  cases moves with
  | @parked send waiter cmd found stage =>
      obtain ⟨_, unparked, _, _⟩ := inv.flow.of_parking found stage
      have ebbs : ∀ other cell, link.pendingAcks.cells other = some cell →
          (link.pendingAcks.park waiter).cells other = link.pendingAcks.cells other ∨
            link.pendingAcks.cells other = some .waiting ∧
              (link.pendingAcks.park waiter).cells other = some .closed := by
        intro other cell present
        refine link.pendingAcks.cells_park_of_ne unparked ?_
        rintro rfl
        cases unparked.symm.trans present
      exact (link.pendingAcks.hand_park waiter).symm ▸ holds_of_goes inv.reader ebbs
  | @cancelled send waiter found stage =>
      exact holds_of_goes inv.reader fun other _ _ => link.pendingAcks.ebbs_discard waiter.id other
  | _ => exact inv.reader

theorem close_holds (inv : AckInv link) {call : CloseId} {move : Link.CloseMove}
    (moves : CloseMoves link call move next) :
    next.reader.Holds next.pendingAcks.cells next.pendingAcks.hand := by
  cases moves with
  | @visited visited id stage =>
      exact holds_of_goes inv.reader fun other _ _ => link.pendingAcks.ebbs_discard id other
  | _ => exact inv.reader

theorem step (inv : AckInv link) {event : Link.Event} (few : next.allocated ≤ 65535)
    (moves : Moves link event next) : AckInv next := by
  have numbered := inv.numbered.step few moves
  cases moves with
  | send _ moves => exact ⟨numbered, inv.flow.send_step moves, inv.send_holds moves⟩
  | close _ moves => exact ⟨numbered, inv.flow.close_step moves, inv.close_holds moves⟩
  | reader _ moves =>
      exact ⟨numbered, inv.flow.reader_step (fun _ _ => inv.hand_isFor) moves,
        inv.reader_step moves⟩
  | actor moves =>
      have flow := inv.flow.actor_step moves
      cases moves <;> exact ⟨numbered, flow, inv.reader⟩
  | sendPacket _ _ | sendPublish _ _ =>
      exact ⟨numbered, inv.flow.quiet rfl (.refl _) rfl rfl, inv.reader⟩
  | allocate _ | release _ =>
      exact ⟨numbered, inv.flow.quiet rfl (.refl _) (List.append_nil _).symm rfl, inv.reader⟩

end AckInv

theorem numbered_new (role : ProtocolRole) : Numbered (.new role) where
  counter := rfl
  below _ _ found := by cases found
  distinct found := by cases found

theorem ackInv_new (role : ProtocolRole) : AckInv (.new role) where
  numbered := numbered_new role
  flow := flow_new role
  reader := rfl

theorem preserves_ackInv {meets : Link → Link.Event → Prop} :
    Preserves Link.step meets fun link => link.allocated ≤ 65535 → AckInv link := by
  intro link event next inv _ moved few
  have moves := Link.step_moves moved
  exact (inv (moves.allocated_le.trans few)).step few moves

/-! ## Acknowledgements and calls -/

/-- What has happened for a call that succeeded: its request was taken, and its
acknowledgements were consumed, each after the waiter for it was parked. -/
def Settled (log : List Record) (call : SendId) (send : Send) (response : MqttResponse) : Prop :=
  match send.request.awaits with
  | none => response = .published .sent
  | some slot => ∃ id, send.packetId = some id ∧
      .accepted (some call) (send.request.command id) ∈ log ∧ Answered log call id slot response

theorem Flow.settled {link : Link} (flow : Flow link) {call : SendId} {send : Send}
    {response : MqttResponse} (found : link.sends call = some send)
    (returned : send.stage = .returned (ok response)) : Settled link.log call send response := by
  have stands := flow.stands call send found
  obtain ⟨request, packetId, _⟩ := send
  cases returned
  unfold Settled
  cases stands with
  | sent awaits => rw [awaits]
  | succeeded awaits accepted answered =>
      rw [awaits]
      exact ⟨_, rfl, accepted, answered⟩

/-- The acknowledgement that the reader is at. -/
def Reader.ack : Reader → Option Ack
  | .looking ack | .taking ack | .answering ack | .settling ack => some ack
  | _ => none

namespace AckInv

variable {link next : Link} {move : Link.ReaderMove}

/-- An acknowledgement that is consumed wakes the waiter it is for. -/
theorem wakes_waiter (inv : AckInv link) (moves : ReaderMoves link move next) {ack : Ack}
    {woken : Option Waiter} (log : next.log = link.log ++ [.consumed ack woken])
    {waiter : Waiter} (isFor : ack.waiter waiter.owner = waiter)
    (waiting : link.pendingAcks.cells waiter = some .waiting) :
    woken = some waiter ∧ next.pendingAcks.cells waiter = some (.sent ack.answer) := by
  have sameId : ack.id = waiter.id := congrArg Waiter.id isFor
  have sameSlot : ack.slot = waiter.slot := congrArg Waiter.slot isFor
  have parked := fun other => inv.parked_of_waiting waiting other
  cases moves with
  | missed stage mismatch =>
      cases List.append_cancel_left log
      have found := parked (by simp [stage])
      rw [← sameId] at found
      exact absurd (by rw [found, sameSlot]; rfl) mismatch
  | vanished stage nothing =>
      cases List.append_cancel_left log
      have found := parked (by simp [stage])
      rw [← sameId, nothing] at found
      cases found
  | @answered _ taken stage inHand owns =>
      cases List.append_cancel_left log
      have same : taken = waiter := by
        have held := (link.pendingAcks.held taken).mpr (.inr inHand)
        refine inv.unsent_unique held (by simp) waiting (by simp) ?_
        rw [← sameId, ← inv.hand_isFor stage inHand]
        rfl
      subst same
      exact ⟨rfl, (link.pendingAcks.cells_answer inHand _ taken).trans (if_pos rfl)⟩
  | putBack stage taken owns =>
      rw [inv.owns_hand stage taken] at owns
      cases owns
  | released _ _ _ | replied _ _ => cases List.append_cancel_left log
  | _ => exact absurd log (by simp)

/-- An acknowledgement of another identifier or kind leaves a waiter alone. -/
theorem spares_waiter (inv : AckInv link) (moves : ReaderMoves link move next) {waiter : Waiter}
    (other : ∀ ack, link.reader.ack = some ack → ack.waiter waiter.owner ≠ waiter)
    (waiting : link.pendingAcks.cells waiter = some .waiting) :
    next.pendingAcks.cells waiter = some .waiting ∧
      next.pendingAcks.parked.lookup waiter.id = some waiter := by
  have parked := inv.parked_of_waiting waiting fun ack stage => other ack (by rw [stage]; rfl)
  cases moves with
  | @took ack found stage foundAt =>
      have differs : waiter.id ≠ ack.id := by
        intro same
        rw [same, foundAt] at parked
        cases parked
        exact other ack (by rw [stage]; rfl) (inv.found_isFor stage foundAt)
      have empty : link.pendingAcks.hand = none := by
        have holds := inv.reader
        rw [stage] at holds
        exact holds.1
      constructor
      · rwa [Registry.cells_take]
      · rw [link.pendingAcks.parked_take empty, Table.lookup_erase, if_neg differs, parked]
  | @answered ack taken stage inHand owns =>
      constructor
      · rw [link.pendingAcks.cells_answer inHand, if_neg, waiting]
        rintro rfl
        exact other ack (by rw [stage]; rfl) (inv.hand_isFor stage inHand)
      · rwa [Registry.parked_answer]
  | putBack stage taken owns =>
      rw [inv.owns_hand stage taken] at owns
      cases owns
  | _ => exact ⟨waiting, parked⟩

end AckInv

/-- Acknowledgements reach the call they belong to.  In every run with at most 65535
packet ids: a call succeeds only with the acknowledgements of its own identifier and
kinds, each consumed after the waiter for it was parked; an acknowledgement that is
consumed while its waiter waits resolves it, and each waiter is resolved at most once;
and an acknowledgement of another identifier or kind leaves a waiter alone. -/
theorem acks_reach_their_call (role : ProtocolRole) {events : List Link.Event} {link : Link}
    (run : Run Link.step Any (.new role) events link) (few : link.allocated ≤ 65535) :
    (∀ call send response, link.sends call = some send → send.stage = .returned (ok response) →
      Settled link.log call send response) ∧
    (∀ move next ack woken waiter, link.step (.reader move) = some next →
      next.log = link.log ++ [.consumed ack woken] → ack.waiter waiter.owner = waiter →
      link.pendingAcks.cells waiter = some .waiting →
      woken = some waiter ∧ next.pendingAcks.cells waiter = some (.sent ack.answer)) ∧
    (link.log.filterMap Record.woken).Nodup ∧
    (∀ move next waiter, link.step (.reader move) = some next →
      (∀ ack, link.reader.ack = some ack → ack.waiter waiter.owner ≠ waiter) →
      link.pendingAcks.cells waiter = some .waiting →
      next.pendingAcks.cells waiter = some .waiting ∧
        next.pendingAcks.parked.lookup waiter.id = some waiter) := by
  have inv := run.invariant preserves_ackInv (fun _ => ackInv_new role) few
  have inverted : ∀ {move next}, link.step (.reader move) = some next →
      ReaderMoves link move next := by
    intro move next moved
    cases Link.step_moves moved with
    | reader _ moves => exact moves
  refine ⟨?_, ?_, inv.flow.once, ?_⟩
  · intro call send response found returned
    exact inv.flow.settled found returned
  · intro move next ack woken waiter moved log isFor waiting
    exact inv.wakes_waiter (inverted moved) log isFor waiting
  · intro move next waiter moved other waiting
    exact inv.spares_waiter (inverted moved) other waiting

/-- A publish at QoS 1 up to its parked waiter. -/
def parksPuback : List Link.Event :=
  [.send 0 (.call (.publish ⟨"t", [], .atLeastOnce, false⟩)), .send 0 .proceed, .send 0 .proceed]

/-- The reader gets a packet and wakes the waiter for it. -/
def readsAck (packet : Packet) : List Link.Event :=
  [.reader .proceed, .reader .proceed, .reader (.read packet), .reader .proceed,
    .reader .proceed, .reader .proceed]

theorem acks_reach_their_call_puback :
    let link := replay Link.step (.new .client)
      (parksPuback ++ [.send 0 .proceed] ++ readsAck (.puback 1) ++ [.send 0 .proceed])
    let publish : MqttRequest := .publish ⟨"t", [], .atLeastOnce, false⟩
    link.sends 0 = some ⟨publish, some 1, .returned (ok (.published (.acknowledged 1)))⟩ ∧
      Settled link.log 0 ⟨publish, some 1, .returned (ok (.published (.acknowledged 1)))⟩
        (.published (.acknowledged 1)) := by
  have returned : (replay Link.step (.new .client) (parksPuback ++ [.send 0 .proceed] ++
      readsAck (.puback 1) ++ [.send 0 .proceed])).sends 0 =
        some ⟨.publish ⟨"t", [], .atLeastOnce, false⟩, some 1,
          .returned (ok (.published (.acknowledged 1)))⟩ := by decide +kernel
  exact ⟨returned, (acks_reach_their_call .client (Follows.run (by decide +kernel))
    (by decide +kernel)).1 0 _ _ returned rfl⟩

/-- The PUBACK comes between the parking of the waiter and the sending of the PUBLISH:
the call succeeds, and after its PUBLISH was taken no PUBACK was consumed. -/
theorem early_puback_resolves_call :
    ∃ events link cmd, Run Link.step Any (.new .client) events link ∧ link.allocated ≤ 65535 ∧
      (link.sends 0).map Send.stage = some (.returned (ok (.published (.acknowledged 1)))) ∧
      .accepted (some 0) cmd ∈ link.log ∧
      ∀ woken, ¬ [.accepted (some 0) cmd, .consumed (.publishAck .puback 1) woken] <+ link.log := by
  refine ⟨parksPuback ++ readsAck (.puback 1) ++ [.send 0 .proceed, .send 0 .proceed], _,
    .publish ⟨"t", [], false, .atLeastOnce, false, some 1⟩, Follows.run (by decide +kernel),
    by decide +kernel, by decide +kernel, by decide +kernel, ?_⟩
  intro woken later
  have log : (replay Link.step (.new .client) (parksPuback ++ readsAck (.puback 1) ++
      [.send 0 .proceed, .send 0 .proceed])).log =
        [.parked ⟨1, .publishAck .puback, 0⟩,
          .consumed (.publishAck .puback 1) (some ⟨1, .publishAck .puback, 0⟩),
          .accepted (some 0) (.publish ⟨"t", [], false, .atLeastOnce, false, some 1⟩)] := by
    decide +kernel
  rw [log] at later
  cases later with
  | cons _ later =>
      cases later with
      | cons _ later =>
          cases later with
          | cons _ later => cases later
          | cons_cons _ later => cases later

end HotaruMqtt.Channel
