import HotaruMqtt.Channel.Link
import HotaruMqtt.Exec.Custody

/-!
# Every waiter is accounted for

`Session.lean` keeps of a slot in `pending_acks` only its kind.  Here the slots hold the
senders of the one-shot channels that the `park_*` methods make, and each waiter that has
ever been parked can be asked what its receiver finds.  The methods are whole operations: no
wake is under way between two of them.
-/

namespace HotaruMqtt.Channel

open Exec Exec.Outcome

/-! ## The waiters of a session -/

/-- `pending_acks` with its senders, and how many waiters have been parked.  A waiter is
named by the count at its parking. -/
structure Waiters where
  acks : Custody Waiter.id Wake
  made : Nat
  unmade : ∀ {waiter : Waiter}, made ≤ waiter.owner → acks.place waiter = none

namespace Waiters

/-- No waiter has been parked. -/
def new : Waiters where
  acks := .new
  made := 0
  unmade _ := rfl

variable (waiters : Waiters)

/-- The slot under an id. -/
def pending (id : PacketId) : Option Waiter :=
  waiters.acks.parked.lookup id

/-- What the receiver of a waiter finds, if the waiter has been parked. -/
def receiver (waiter : Waiter) : Option (Oneshot Wake) :=
  waiters.acks.receiver waiter

/-- A new channel is made and its sender parked.  The receiver is handed back. -/
def park (id : PacketId) (slot : AckSlot) : Waiter × Waiters :=
  let waiter : Waiter := ⟨id, slot, waiters.made⟩
  (waiter,
    { acks := waiters.acks.insert waiter
      made := waiters.made + 1
      unmade := by
        intro other unmade
        refine Custody.insert_unmade ?_ (waiters.unmade (Nat.le_of_succ_le unmade))
        rintro rfl
        exact Nat.not_succ_le_self _ unmade })

/-- `cancel_ack_waiter`: the slot is removed and dropped. -/
def cancel (id : PacketId) : Waiters where
  acks := waiters.acks.discard id
  made := waiters.made
  unmade unmade := Custody.release_unmade (waiters.unmade unmade)

/-- The first access of a `wake_*` method: a waiter of its kind is parked. -/
def Expects (ack : Ack) : Prop :=
  (waiters.pending ack.id).map Waiter.slot = some ack.slot

instance (ack : Ack) : Decidable (waiters.Expects ack) :=
  inferInstanceAs (Decidable (_ = _))

/-- The second access: the slot is removed. -/
def take (id : PacketId) : Waiters where
  acks := waiters.acks.take id
  made := waiters.made
  unmade unmade := Custody.release_unmade (waiters.unmade unmade)

/-- The last access: a removed slot of the right type is sent to, any other is put back. -/
def settle (ack : Ack) (waiter : Waiter) : Waiters :=
  if ack.owns waiter.slot then
    { acks := waiters.acks.use waiter ack.answer
      made := waiters.made
      unmade := fun unmade => Custody.use_unmade (waiters.unmade unmade) }
  else
    { acks := waiters.acks.putBack waiter
      made := waiters.made
      unmade := fun unmade => Custody.putBack_unmade (waiters.unmade unmade) }

/-- A `wake_*` method from its first access to its last. -/
def wake (ack : Ack) : Waiters :=
  if waiters.Expects ack then
    match waiters.pending ack.id with
    -- the slot cannot have gone since the first access
    | none => waiters
    | some waiter => (waiters.take ack.id).settle ack waiter
  else
    waiters

/-- What `abandon` does to the slots. -/
def abandon : Waiters where
  acks := waiters.acks.clear
  made := waiters.made
  unmade unmade := Custody.clear_unmade (waiters.unmade unmade)

variable {waiters} {ack : Ack} {waiter : Waiter} {id : PacketId}

/-- A removed slot of the kind that was looked for is sent to. -/
theorem acks_settle (waiters : Waiters) (slot : waiter.slot = ack.slot) :
    (waiters.settle ack waiter).acks = waiters.acks.use waiter ack.answer := by
  have owns : ack.owns waiter.slot = true := slot ▸ ack.owns_slot
  rw [settle, if_pos owns]

/-- A wake that finds a waiter of its kind sends to it, and otherwise does nothing. -/
theorem wake_of_expects (expects : waiters.Expects ack) :
    ∃ found, waiters.pending ack.id = some found ∧ found.slot = ack.slot ∧
      waiters.acks.place found = some .parked ∧
      (waiters.wake ack).acks = (waiters.acks.take ack.id).use found ack.answer := by
  obtain ⟨found, pending, slot⟩ := Option.map_eq_some_iff.mp expects
  refine ⟨found, pending, slot, (waiters.acks.stored.mp pending).2, ?_⟩
  simp only [wake, if_pos expects, pending, acks_settle _ slot, take]

theorem place_wake : (waiters.wake ack).acks.place waiter =
    if waiters.Expects ack ∧ waiters.pending ack.id = some waiter then some (.used ack.answer)
    else waiters.acks.place waiter := by
  by_cases expects : waiters.Expects ack
  · obtain ⟨found, pending, _, _, acks⟩ := wake_of_expects expects
    have taken : (waiters.acks.take ack.id).place found = some .taken := if_pos pending
    rw [acks, Custody.place_use taken, pending]
    by_cases same : waiter = found
    · rw [if_pos same, if_pos ⟨expects, congrArg some same.symm⟩]
    · have other : ¬ some found = some waiter := fun here => same (Option.some.inj here).symm
      rw [if_neg same, if_neg fun both => other both.2]
      exact if_neg fun here => other (pending.symm.trans here)
  · rw [wake, if_neg expects, if_neg fun both => expects both.1]

theorem pending_wake : (waiters.wake ack).pending id =
    if waiters.Expects ack ∧ id = ack.id then none else waiters.pending id := by
  by_cases expects : waiters.Expects ack
  · obtain ⟨found, _, _, _, acks⟩ := wake_of_expects expects
    rw [pending, acks, Custody.parked_use]
    simp only [expects, true_and]
    exact Table.lookup_erase
  · rw [wake, if_neg expects, if_neg fun both => expects both.1]

end Waiters

/-! ## Whole operations -/

/-- A call of a method of the session. -/
inductive Operation
  | parkPublishAckWaiter (id : PacketId) (kind : AckKind)
  | parkSubackWaiter (id : PacketId)
  | parkUnsubackWaiter (id : PacketId)
  | cancelAckWaiter (id : PacketId)
  | wakeAckWaiter (id : PacketId) (expected : AckKind)
  | wakeSubackWaiter (id : PacketId) (returnCodes : List SubackCode)
  | wakeUnsubackWaiter (id : PacketId)
  | stashQos2Publish (id : PacketId) (publish : IncomingPublish)
  | takeQos2Publish (id : PacketId)
  | trackOutboundInflight (id : PacketId) (publish : PublishPacket)
  | clearOutboundInflight (id : PacketId)
  | abandon

namespace Operation

/-- The id that an operation is about. -/
def id : Operation → Option PacketId
  | parkPublishAckWaiter id _ | parkSubackWaiter id | parkUnsubackWaiter id | cancelAckWaiter id
  | wakeAckWaiter id _ | wakeSubackWaiter id _ | wakeUnsubackWaiter id | stashQos2Publish id _
  | takeQos2Publish id | trackOutboundInflight id _ | clearOutboundInflight id => some id
  | abandon => none

/-- The kind of waiter that an operation parks. -/
def parks : Operation → Option AckSlot
  | parkPublishAckWaiter _ kind => some (.publishAck kind)
  | parkSubackWaiter _ => some .suback
  | parkUnsubackWaiter _ => some .unsuback
  | _ => none

/-- The acknowledgement that an operation wakes for. -/
def wakes : Operation → Option Ack
  | wakeAckWaiter id expected => some (.publishAck expected id)
  | wakeSubackWaiter id returnCodes => some (.suback id returnCodes)
  | wakeUnsubackWaiter id => some (.unsuback id)
  | _ => none

/-- The operation cancels the id, parks another waiter under it, or abandons the session. -/
def Closes (operation : Operation) (id : PacketId) : Prop :=
  operation = cancelAckWaiter id ∨ operation = abandon ∨
    operation.parks.isSome ∧ operation.id = some id

end Operation

/-- The methods on the session of `Session.lean`. -/
def sessionAfter (session : MqttSession) : Operation → MqttSession
  | .parkPublishAckWaiter id kind => session.parkPublishAckWaiter id kind
  | .parkSubackWaiter id => session.parkSubackWaiter id
  | .parkUnsubackWaiter id => session.parkUnsubackWaiter id
  | .cancelAckWaiter id => session.cancelAckWaiter id
  | .wakeAckWaiter id expected => session.wakeAckWaiter id expected
  | .wakeSubackWaiter id returnCodes => session.wakeSubackWaiter id returnCodes
  | .wakeUnsubackWaiter id => session.wakeUnsubackWaiter id
  | .stashQos2Publish id publish => session.stashQos2Publish id publish
  | .takeQos2Publish id => (session.takeQos2Publish id).2
  | .trackOutboundInflight id publish => session.trackOutboundInflight id publish
  | .clearOutboundInflight id => session.clearOutboundInflight id
  | .abandon => session.abandon

/-- The methods on the waiters. -/
def Waiters.after (waiters : Waiters) : Operation → Waiters
  | .parkPublishAckWaiter id kind => (waiters.park id (.publishAck kind)).2
  | .parkSubackWaiter id => (waiters.park id .suback).2
  | .parkUnsubackWaiter id => (waiters.park id .unsuback).2
  | .cancelAckWaiter id => waiters.cancel id
  | .wakeAckWaiter id expected => waiters.wake (.publishAck expected id)
  | .wakeSubackWaiter id returnCodes => waiters.wake (.suback id returnCodes)
  | .wakeUnsubackWaiter id => waiters.wake (.unsuback id)
  | .abandon => waiters.abandon
  | .stashQos2Publish _ _ | .takeQos2Publish _ | .trackOutboundInflight _ _
  | .clearOutboundInflight _ => waiters

/-- What an operation can do to the waiters. -/
inductive Waiters.Acts (waiters : Waiters) : Operation → Waiters → Prop
  | park {operation : Operation} {id : PacketId} {slot : AckSlot}
      (about : operation.id = some id) (parks : operation.parks = some slot) :
      Acts waiters operation (waiters.park id slot).2
  | cancel (id : PacketId) : Acts waiters (.cancelAckWaiter id) (waiters.cancel id)
  | wake {operation : Operation} {ack : Ack} (about : operation.id = some ack.id)
      (wakes : operation.wakes = some ack) : Acts waiters operation (waiters.wake ack)
  | abandon : Acts waiters .abandon waiters.abandon
  | nothing (operation : Operation) : Acts waiters operation waiters

theorem Waiters.acts_after (waiters : Waiters) (operation : Operation) :
    waiters.Acts operation (waiters.after operation) := by
  cases operation with
  | parkPublishAckWaiter | parkSubackWaiter | parkUnsubackWaiter => exact .park rfl rfl
  | cancelAckWaiter id => exact .cancel id
  | wakeAckWaiter | wakeSubackWaiter | wakeUnsubackWaiter => exact .wake rfl rfl
  | abandon => exact .abandon
  | stashQos2Publish | takeQos2Publish | trackOutboundInflight | clearOutboundInflight =>
      exact .nothing _

/-! ## Sessions with their waiters -/

/-- The session keeps of each slot its kind. -/
def Waiters.ShownBy (waiters : Waiters) (session : MqttSession) : Prop :=
  ∀ id, session.pendingAcks.lookup id = (waiters.pending id).map Waiter.slot

/-- No task holds a sender. -/
def Waiters.Settled (waiters : Waiters) : Prop :=
  ∀ waiter, waiters.acks.place waiter ≠ some .taken

section Lockstep

variable {waiters next : Waiters} {session : MqttSession} {operation : Operation}

theorem Waiters.ShownBy.park (shown : waiters.ShownBy session) (id : PacketId) (slot : AckSlot) :
    (waiters.park id slot).2.ShownBy (session.park id slot) := by
  intro other
  refine Table.lookup_insert.trans ?_
  refine .trans ?_ (congrArg (Option.map Waiter.slot) Table.lookup_insert.symm)
  split
  · rfl
  · exact shown other

theorem Waiters.ShownBy.cancel (shown : waiters.ShownBy session) (id : PacketId) :
    (waiters.cancel id).ShownBy (session.cancelAckWaiter id) := by
  intro other
  refine Table.lookup_erase.trans ?_
  refine .trans ?_ (congrArg (Option.map Waiter.slot) Table.lookup_erase.symm)
  split
  · rfl
  · exact shown other

theorem Waiters.ShownBy.wake (shown : waiters.ShownBy session) (ack : Ack) :
    (waiters.wake ack).ShownBy (session.wake ack.id ack.slot ack.answer) := by
  intro other
  by_cases expects : waiters.Expects ack
  · rw [MqttSession.wake_of_parked ((shown ack.id).trans expects), pending_wake]
    refine Table.lookup_erase.trans ?_
    by_cases here : other = ack.id
    · rw [if_pos here, if_pos ⟨expects, here⟩]
      rfl
    · rw [if_neg here, if_neg fun both => here both.2]
      exact shown other
  · have missing : session.pendingAcks.lookup ack.id ≠ some ack.slot :=
      fun parked => expects ((shown ack.id).symm.trans parked)
    rw [MqttSession.wake_of_not_parked missing, pending_wake, if_neg fun both => expects both.1]
    exact shown other

theorem Waiters.ShownBy.after (shown : waiters.ShownBy session) (operation : Operation) :
    (waiters.after operation).ShownBy (sessionAfter session operation) := by
  cases operation with
  | parkPublishAckWaiter id kind => exact shown.park id _
  | parkSubackWaiter id | parkUnsubackWaiter id => exact shown.park id _
  | cancelAckWaiter id => exact shown.cancel id
  | wakeAckWaiter id expected => exact shown.wake (.publishAck expected id)
  | wakeSubackWaiter id returnCodes => exact shown.wake (.suback id returnCodes)
  | wakeUnsubackWaiter id => exact shown.wake (.unsuback id)
  | stashQos2Publish | takeQos2Publish | trackOutboundInflight | clearOutboundInflight =>
      exact shown
  | abandon => exact fun _ => rfl

/-- What an operation can do to the sender of a waiter. -/
inductive Fate (operation : Operation) (waiter : Waiter) :
    Option (Place Wake) → Option (Place Wake) → Prop
  | same (place : Option (Place Wake)) : Fate operation waiter place place
  | parked (about : operation.id = some waiter.id) (parks : operation.parks = some waiter.slot) :
      Fate operation waiter none (some .parked)
  | delivered {ack : Ack} (wakes : operation.wakes = some ack) (id : ack.id = waiter.id)
      (slot : ack.slot = waiter.slot) :
      Fate operation waiter (some .parked) (some (.used ack.answer))
  | closed (closes : operation.Closes waiter.id) :
      Fate operation waiter (some .parked) (some .dropped)

/-- The sender under an id is dropped, and no other changes its place. -/
theorem Fate.of_dropped {id : PacketId} (closes : operation.Closes id) (waiter : Waiter) :
    Fate operation waiter (waiters.acks.place waiter)
      (if waiters.acks.parked.lookup id = some waiter then some .dropped
        else waiters.acks.place waiter) := by
  by_cases here : waiters.acks.parked.lookup id = some waiter
  · obtain ⟨rfl, parked⟩ := waiters.acks.stored.mp here
    rw [if_pos here, parked]
    exact .closed closes
  · rw [if_neg here]
    exact .same _

theorem Fate.of_park {id : PacketId} {slot : AckSlot} (about : operation.id = some id)
    (parks : operation.parks = some slot) (waiter : Waiter) :
    Fate operation waiter (waiters.acks.place waiter)
      ((waiters.park id slot).2.acks.place waiter) := by
  by_cases new : waiter = ⟨id, slot, waiters.made⟩
  · subst new
    -- the count has not been used as a name before
    have unmade : waiters.acks.place ⟨id, slot, waiters.made⟩ = none := waiters.unmade le_rfl
    have parked : (waiters.park id slot).2.acks.place ⟨id, slot, waiters.made⟩ =
        some .parked := if_pos rfl
    rw [unmade, parked]
    exact .parked about parks
  · have old : (waiters.park id slot).2.acks.place waiter =
        if waiters.acks.parked.lookup id = some waiter then some .dropped
        else waiters.acks.place waiter := if_neg new
    rw [old]
    exact .of_dropped (.inr (.inr ⟨parks ▸ rfl, about⟩)) waiter

theorem Fate.of_wake {ack : Ack} (wakes : operation.wakes = some ack) (waiter : Waiter) :
    Fate operation waiter (waiters.acks.place waiter)
      ((waiters.wake ack).acks.place waiter) := by
  rw [Waiters.place_wake]
  by_cases woken : waiters.Expects ack ∧ waiters.pending ack.id = some waiter
  · obtain ⟨expects, found⟩ := woken
    obtain ⟨id, parked⟩ := waiters.acks.stored.mp found
    have slot : some waiter.slot = some ack.slot := by
      rw [← expects, found]
      rfl
    rw [if_pos ⟨expects, found⟩, parked]
    exact .delivered wakes id.symm (Option.some.inj slot).symm
  · rw [if_neg woken]
    exact .same _

theorem Fate.of_abandon (waiter : Waiter) :
    Fate .abandon waiter (waiters.acks.place waiter) (waiters.abandon.acks.place waiter) := by
  have cleared : waiters.abandon.acks.place waiter =
      if waiters.acks.place waiter = some .parked then some .dropped
      else waiters.acks.place waiter := rfl
  rw [cleared]
  by_cases parked : waiters.acks.place waiter = some .parked
  · rw [if_pos parked, parked]
    exact .closed (.inr (.inl rfl))
  · rw [if_neg parked]
    exact .same _

theorem Waiters.Acts.fate (acts : waiters.Acts operation next) (waiter : Waiter) :
    Fate operation waiter (waiters.acks.place waiter) (next.acks.place waiter) := by
  cases acts with
  | park about parks => exact .of_park about parks waiter
  | cancel => exact .of_dropped (.inl rfl) waiter
  | wake _ wakes => exact .of_wake wakes waiter
  | abandon => exact .of_abandon waiter
  | nothing => exact .same _

theorem Waiters.Acts.settled (acts : waiters.Acts operation next) (settled : waiters.Settled) :
    next.Settled := by
  intro waiter taken
  have fate := acts.fate waiter
  rw [taken] at fate
  generalize before : waiters.acks.place waiter = place at fate
  cases fate
  exact settled waiter before

/-- An operation on another id leaves a slot alone. -/
theorem Waiters.Acts.pending_of_ne {id other : PacketId} (acts : waiters.Acts operation next)
    (about : operation.id = some id) (differs : other ≠ id) :
    next.pending other = waiters.pending other := by
  cases acts with
  | park aboutPark _ =>
      cases aboutPark.symm.trans about
      exact Table.lookup_insert.trans (if_neg differs)
  | cancel =>
      cases about
      exact Table.lookup_erase.trans (if_neg differs)
  | wake aboutWake _ =>
      cases aboutWake.symm.trans about
      rw [pending_wake, if_neg fun both => differs both.2]
  | abandon => cases about
  | nothing => rfl

end Lockstep

/-- A session with the waiters behind its slots, while no wake is under way. -/
structure Ledger where
  session : MqttSession
  waiters : Waiters
  shown : waiters.ShownBy session
  settled : waiters.Settled

namespace Ledger

/-- A new session. -/
def new : Ledger where
  session := .new
  waiters := .new
  shown _ := rfl
  settled _ := by simp [Waiters.new, Custody.new]

/-- One method of the session, on the session and on the waiters behind it alike. -/
def perform (ledger : Ledger) (operation : Operation) : Ledger where
  session := sessionAfter ledger.session operation
  waiters := ledger.waiters.after operation
  shown := ledger.shown.after operation
  settled := (ledger.waiters.acts_after operation).settled ledger.settled

/-- A run of methods. -/
def performAll (ledger : Ledger) : List Operation → Ledger
  | [] => ledger
  | operation :: rest => (ledger.perform operation).performAll rest

/-- What the receiver of a waiter finds, if the waiter has been parked. -/
def receiver (ledger : Ledger) (waiter : Waiter) : Option (Oneshot Wake) :=
  ledger.waiters.receiver waiter

variable {ledger : Ledger} {operation : Operation} {waiter : Waiter}

/-- Between operations a receiver waits exactly if its sender is in its slot. -/
theorem waiting_iff (ledger : Ledger) (waiter : Waiter) :
    ledger.receiver waiter = some .waiting ↔ ledger.waiters.pending waiter.id = some waiter := by
  have settled := ledger.settled waiter
  rw [Waiters.pending, ledger.waiters.acks.stored, receiver, Waiters.receiver, Custody.receiver]
  generalize ledger.waiters.acks.place waiter = place at settled
  rcases place with _ | _ | _ | _ | _
  case some.taken => exact absurd rfl settled
  all_goals simp [Place.oneshot]

/-- The receiver of a waiter goes with its sender. -/
theorem exists_fate (ledger : Ledger) (operation : Operation) (waiter : Waiter) :
    ∃ before after, Fate operation waiter before after ∧
      ledger.receiver waiter = before.map Place.oneshot ∧
      (ledger.perform operation).receiver waiter = after.map Place.oneshot :=
  ⟨_, _, (ledger.waiters.acts_after operation).fate waiter, rfl, rfl⟩

/-- Whoever has been told anything is told nothing else. -/
theorem receiver_performAll {cell : Oneshot Wake} (operations : List Operation)
    (told : ledger.receiver waiter = some cell) (resolved : cell ≠ .waiting) :
    (ledger.performAll operations).receiver waiter = some cell := by
  induction operations generalizing ledger with
  | nil => exact told
  | cons operation rest ih =>
      refine ih ?_
      obtain ⟨before, after, fate, now, next⟩ := ledger.exists_fate operation waiter
      rw [now] at told
      rw [next]
      cases fate with
      | same => exact told
      | parked => cases told
      | delivered | closed =>
          cases told
          exact absurd rfl resolved

/-- The slot, the stash and the record of an id are the same. -/
structure SameAt (before after : Ledger) (id : PacketId) : Prop where
  pending : after.waiters.pending id = before.waiters.pending id
  slot : after.session.pendingAcks.lookup id = before.session.pendingAcks.lookup id
  stash : after.session.qos2Recv.lookup id = before.session.qos2Recv.lookup id
  record : after.session.outboundInflight.lookup id = before.session.outboundInflight.lookup id

theorem sameAt_perform {id other : PacketId} (about : operation.id = some id)
    (differs : other ≠ id) : SameAt ledger (ledger.perform operation) other := by
  have pending := (ledger.waiters.acts_after operation).pending_of_ne about differs
  refine ⟨pending, ?_, ?_, ?_⟩
  · rw [(ledger.perform operation).shown, ledger.shown]
    exact congrArg (Option.map Waiter.slot) pending
  · cases operation with
    | stashQos2Publish =>
        cases about
        exact Table.lookup_insert.trans (if_neg differs)
    | takeQos2Publish =>
        cases about
        exact Table.lookup_erase.trans (if_neg differs)
    | wakeAckWaiter | wakeSubackWaiter | wakeUnsubackWaiter =>
        exact congrArg (AList.lookup other) (MqttSession.qos2Recv_wake ..)
    | abandon => cases about
    | _ => rfl
  · cases operation with
    | trackOutboundInflight =>
        cases about
        exact Table.lookup_insert.trans (if_neg differs)
    | clearOutboundInflight =>
        cases about
        exact Table.lookup_erase.trans (if_neg differs)
    | wakeAckWaiter | wakeSubackWaiter | wakeUnsubackWaiter =>
        exact congrArg (AList.lookup other) (MqttSession.outboundInflight_wake ..)
    | abandon => cases about
    | _ => rfl

/-- What is known of every waiter, and of every operation that may come next. -/
structure Accounted (ledger : Ledger) : Prop where
  pending : ∀ waiter,
    ledger.receiver waiter = some .waiting ↔ ledger.waiters.pending waiter.id = some waiter
  delivered : ∀ {operation waiter value}, ledger.receiver waiter ≠ some (.sent value) →
    (ledger.perform operation).receiver waiter = some (.sent value) →
    ledger.receiver waiter = some .waiting ∧ ∃ ack, operation.wakes = some ack ∧
      ack.id = waiter.id ∧ ack.slot = waiter.slot ∧ value = ack.answer
  closed : ∀ {operation waiter}, ledger.receiver waiter ≠ some .closed →
    (ledger.perform operation).receiver waiter = some .closed →
    ledger.receiver waiter = some .waiting ∧ operation.Closes waiter.id
  final : ∀ {waiter cell} (more : List Operation), ledger.receiver waiter = some cell →
    cell ≠ .waiting → (ledger.performAll more).receiver waiter = some cell
  others : ∀ {operation id other}, operation.id = some id → other ≠ id →
    SameAt ledger (ledger.perform operation) other

/-- After any operations on a new session every waiter is accounted for. -/
theorem waiters_accounted (operations : List Operation) :
    Accounted (Ledger.new.performAll operations) := by
  generalize Ledger.new.performAll operations = ledger
  refine ⟨ledger.waiting_iff, ?_, ?_, receiver_performAll, sameAt_perform⟩
  · intro operation waiter value unsent sent
    obtain ⟨before, after, fate, now, next⟩ := ledger.exists_fate operation waiter
    rw [next] at sent
    rw [now] at unsent ⊢
    cases fate with
    | same => exact absurd sent unsent
    | parked | closed => cases sent
    | delivered wakes id slot =>
        cases sent
        exact ⟨rfl, _, wakes, id, slot, rfl⟩
  · intro operation waiter unclosed closed
    obtain ⟨before, after, fate, now, next⟩ := ledger.exists_fate operation waiter
    rw [next] at closed
    rw [now] at unclosed ⊢
    cases fate with
    | same => exact absurd closed unclosed
    | parked | delivered => cases closed
    | closed closes => exact ⟨rfl, closes⟩

end Ledger

end HotaruMqtt.Channel
