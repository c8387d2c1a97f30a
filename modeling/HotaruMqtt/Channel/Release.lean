import HotaruMqtt.Channel.Moves
import HotaruMqtt.Exec.Transition

/-!
# Whether closing releases the waiters

`abandon` goes over `pending_acks` once, and a call of the send path looks at nothing
before it parks its waiter.  A waiter that is parked behind the sweep stays, and its
call waits although the channel is closed.  A call of `close` that finds the flag down
returns at once, whether or not anybody has swept; that does no harm where no waiter is
parked, as when the actor has stopped by itself on an idle channel.
-/

namespace HotaruMqtt.Channel

open Exec Exec.Outcome Exec.Transition

/-- The record of a call of `close` that has returned. -/
def Record.Returned (closes : CloseId → CloseStage) : Record → Prop
  | .closeCalled call => closes call = .returned
  | _ => False

instance (closes : CloseId → CloseStage) : DecidablePred (Record.Returned closes)
  | .closeCalled _ => inferInstanceAs (Decidable (_ = _))
  | .parked _ | .accepted _ _ | .consumed _ _ | .swept _ | .abandoned => isFalse not_false

/-- A call of `close` has returned. -/
def Link.Closed (link : Link) : Prop :=
  ∃ record ∈ link.log, record.Returned link.closes

instance (link : Link) : Decidable link.Closed :=
  inferInstanceAs (Decidable (∃ record ∈ link.log, record.Returned link.closes))

/-- The sweep has been over the place of this identifier, or is over. -/
def Link.Swept (link : Link) (id : PacketId) : Prop :=
  .swept id ∈ link.log ∨ link.Closed

instance (link : Link) (id : PacketId) : Decidable (link.Swept id) :=
  inferInstanceAs (Decidable (_ ∨ _))

/-- What a call of `close` has swept, and that nothing is parked once it has returned. -/
def CloseStage.Sweeps (link : Link) : CloseStage → Prop
  | .clearing visited => ∀ id ∈ visited, .swept id ∈ link.log
  | .returned => ∀ id, link.pendingAcks.parked.lookup id = none
  | .idle | .swapping | .notifying => True

/-- Nothing is parked behind the sweep, and the calls of `close` are recorded. -/
structure Cleared (link : Link) : Prop where
  empty : ∀ id, .swept id ∈ link.log → link.pendingAcks.parked.lookup id = none
  closes : ∀ call, (link.closes call).Sweeps link
  called : ∀ call, link.closes call ≠ .idle → .closeCalled call ∈ link.log

/-- The waiter that the reader is about to put back. -/
def Link.returning (link : Link) : Option Waiter :=
  match link.reader with
  | .answering ack => link.pendingAcks.hand.filter fun waiter => !ack.owns waiter.slot
  | _ => none

/-- The waiter that a call is about to park. -/
def Send.parks (send : Send) : Option Waiter :=
  match send.stage with
  | .parking waiter _ => some waiter
  | _ => none

/-- No waiter is put behind the sweep, and a close that finds the flag down finds no waiter
parked: somebody else has swept, or there is nothing to sweep. -/
def ParksAhead (link : Link) : Link.Event → Prop
  | .send call .proceed =>
      ∀ waiter ∈ (link.sends call).bind Send.parks, ¬ link.Swept waiter.id
  | .reader .proceed => ∀ waiter ∈ link.returning, ¬ link.Swept waiter.id
  | .close _ .swap => link.isOpen = true ∨ link.pendingAcks.parked.keys = []
  | _ => True

instance (link : Link) : DecidablePred (ParksAhead link)
  | .send call .proceed => inferInstanceAs (Decidable
      (∀ waiter ∈ (link.sends call).bind Send.parks, ¬ link.Swept waiter.id))
  | .reader .proceed =>
      inferInstanceAs (Decidable (∀ waiter ∈ link.returning, ¬ link.Swept waiter.id))
  | .close _ .swap =>
      decidable_of_iff (link.isOpen = true ∨ link.pendingAcks.parked.keys.isEmpty = true)
        (or_congr_right List.isEmpty_iff)
  | .send _ (.call _) | .send _ .elapse | .reader (.read _) | .reader (.handle _)
  | .reader .leave | .reader .wake | .close _ .call | .close _ .notify | .close _ (.visit _)
  | .close _ .finish | .actor _ | .sendPacket _ | .sendPublish _ | .allocate | .release =>
      isTrue trivial

theorem CloseStage.Sweeps.mono {link next : Link} {stage : CloseStage}
    (sweeps : stage.Sweeps link) (grows : link.log ⊆ next.log)
    (emptied : stage = .returned → ∀ id, link.pendingAcks.parked.lookup id = none →
      next.pendingAcks.parked.lookup id = none) : stage.Sweeps next := by
  cases stage with
  | clearing visited => exact fun id listed => grows (sweeps id listed)
  | returned => exact fun id => emptied rfl id (sweeps id)
  | idle | swapping | notifying => trivial

/-- A call of `close` that moves on has been recorded. -/
theorem called_update {log more : List Record} {closes : CloseId → CloseStage} {call : CloseId}
    {stage : CloseStage} (others : ∀ call, closes call ≠ .idle → .closeCalled call ∈ log)
    (grows : log ⊆ more) (listed : .closeCalled call ∈ more) (other : CloseId)
    (begun : Function.update closes call stage other ≠ .idle) : .closeCalled other ∈ more := by
  by_cases same : other = call
  · exact same ▸ listed
  · rw [Function.update_of_ne same] at begun
    exact grows (others other begun)

namespace Cleared

variable {link next : Link}

theorem listed (cleared : Cleared link) {call : CloseId} {stage : CloseStage}
    (at_ : link.closes call = stage) (begun : stage ≠ .idle) : .closeCalled call ∈ link.log :=
  cleared.called call (at_ ▸ begun)

/-- Once a call of `close` has returned, every place has been swept. -/
theorem swept_of_returned (cleared : Cleared link) {call : CloseId}
    (returned : link.closes call = .returned) (id : PacketId) : link.Swept id :=
  .inr ⟨_, cleared.listed returned (by simp), returned⟩

/-- A move of anything but the sweep. -/
theorem beside (cleared : Cleared link) (closes : next.closes = link.closes)
    (records : List Record) (plain : ∀ id, .swept id ∉ records)
    (log : next.log = link.log ++ records)
    (emptied : ∀ id, link.Swept id → link.pendingAcks.parked.lookup id = none →
      next.pendingAcks.parked.lookup id = none) : Cleared next := by
  have grows : link.log ⊆ next.log := log ▸ List.subset_append_left _ _
  constructor
  · intro id swept
    rw [log] at swept
    have before := (List.mem_append.mp swept).resolve_right (plain id)
    exact emptied id (.inl before) (cleared.empty id before)
  · intro call
    rw [closes]
    refine (cleared.closes call).mono grows fun returned id => ?_
    exact emptied id (cleared.swept_of_returned returned id)
  · intro call begun
    exact grows (cleared.called call (closes ▸ begun))

theorem send_step {call : SendId} {move : Link.SendMove} (cleared : Cleared link)
    (ahead : ParksAhead link (.send call move)) (moves : SendMoves link call move next) :
    Cleared next := by
  cases moves with
  | @parked send waiter cmd found stage =>
      have notSwept : ¬ link.Swept waiter.id :=
        ahead waiter (by simp [found, Send.parks, stage])
      refine cleared.beside rfl [.parked waiter] (by simp) rfl ?_
      intro id swept nothing
      have differs : id ≠ waiter.id := fun same => notSwept (same ▸ swept)
      exact (link.pendingAcks.lookup_park_of_ne differs).trans nothing
  | accepted found stage alive =>
      exact cleared.beside rfl [_] (by simp) rfl fun _ _ nothing => nothing
  | cancelled found stage =>
      refine cleared.beside rfl [] (by simp) (List.append_nil _).symm ?_
      intro id _ nothing
      exact Table.lookup_erase_eq_none nothing
  | _ =>
      exact cleared.beside rfl [] (by simp) (List.append_nil _).symm fun _ _ nothing => nothing

theorem reader_step {move : Link.ReaderMove} (cleared : Cleared link)
    (ahead : ParksAhead link (.reader move)) (moves : ReaderMoves link move next) :
    Cleared next := by
  cases moves with
  | took stage found =>
      refine cleared.beside rfl [] (by simp) (List.append_nil _).symm ?_
      exact fun id _ nothing => link.pendingAcks.lookup_take_eq_none nothing
  | answered stage taken owns =>
      refine cleared.beside rfl [_] (by simp) rfl ?_
      intro id _ nothing
      rwa [Registry.parked_answer]
  | @putBack ack waiter stage taken owns =>
      have notSwept : ¬ link.Swept waiter.id :=
        ahead waiter (by simp [Link.returning, stage, taken, owns])
      refine cleared.beside rfl [_] (by simp) rfl ?_
      intro id swept nothing
      have differs : id ≠ waiter.id := fun same => notSwept (same ▸ swept)
      exact (link.pendingAcks.lookup_putBack_of_ne taken differs).trans nothing
  | missed _ _ | vanished _ _ | released _ _ _ | replied _ _ =>
      exact cleared.beside rfl [_] (by simp) rfl fun _ _ nothing => nothing
  | _ =>
      exact cleared.beside rfl [] (by simp) (List.append_nil _).symm fun _ _ nothing => nothing

/-- A move of a call of `close` that has not swept anything. -/
theorem close_beside {call : CloseId} {stage : CloseStage} {records : List Record}
    (cleared : Cleared link) (plain : ∀ id, .swept id ∉ records)
    (closes : next.closes = Function.update link.closes call stage)
    (log : next.log = link.log ++ records)
    (parked : next.pendingAcks.parked = link.pendingAcks.parked)
    (listed : .closeCalled call ∈ next.log) (sweeps : stage.Sweeps next) : Cleared next := by
  have grows : link.log ⊆ next.log := log ▸ List.subset_append_left _ _
  constructor
  · intro id swept
    rw [log] at swept
    rw [parked]
    exact cleared.empty id ((List.mem_append.mp swept).resolve_right (plain id))
  · rw [closes]
    refine each_close_update (fun other => (cleared.closes other).mono grows ?_) sweeps
    rw [parked]
    exact fun _ _ nothing => nothing
  · rw [closes]
    exact called_update cleared.called grows listed

theorem close_step {call : CloseId} {move : Link.CloseMove} (cleared : Cleared link)
    (ahead : ParksAhead link (.close call move)) (moves : CloseMoves link call move next) :
    Cleared next := by
  have same : link.log = link.log ++ [] := (List.append_nil _).symm
  cases moves with
  | called stage =>
      exact cleared.close_beside (by simp) rfl rfl rfl
        (List.mem_append_right _ (List.mem_singleton_self _)) trivial
  | swapped stage isOpen =>
      exact cleared.close_beside (by simp) rfl same rfl (cleared.listed stage (by simp)) trivial
  | alreadyClosed stage closed =>
      have none : link.pendingAcks.parked.keys = [] := ahead.resolve_left (by simp [closed])
      refine cleared.close_beside (by simp) rfl same rfl (cleared.listed stage (by simp)) ?_
      intro id
      refine AList.lookup_eq_none.mpr fun present => ?_
      have listed : id ∈ link.pendingAcks.parked.keys := AList.mem_keys.mp present
      rw [none] at listed
      cases listed
  | notified stage =>
      refine cleared.close_beside (by simp) rfl same rfl (cleared.listed stage (by simp)) ?_
      simp [CloseStage.Sweeps]
  | @visited visited id stage =>
      have before := cleared.closes call
      rw [stage] at before
      have erased : ∀ other, link.pendingAcks.parked.lookup other = none →
          (link.pendingAcks.discard id).parked.lookup other = none :=
        fun other nothing => Table.lookup_erase_eq_none nothing
      have grows := List.subset_append_left link.log [.swept id]
      refine ⟨fun other swept => ?_, each_close_update
        (fun other => (cleared.closes other).mono grows fun _ => erased) ?_,
        called_update cleared.called grows (grows (cleared.listed stage (by simp)))⟩
      · rcases List.mem_append.mp swept with earlier | last
        · exact erased other (cleared.empty other earlier)
        · cases List.mem_singleton.mp last
          exact Table.lookup_erase.trans (if_pos rfl)
      · intro other listed
        rcases List.mem_cons.mp listed with rfl | listed
        · exact List.mem_append_right _ (List.mem_singleton_self _)
        · exact grows (before other listed)
  | @finished visited stage all =>
      have before := cleared.closes call
      rw [stage] at before
      refine cleared.close_beside (by simp) rfl rfl rfl
        (List.mem_append_left _ (cleared.listed stage (by simp))) fun id => ?_
      -- every key that is there has been visited, and nothing is under a visited one
      by_contra something
      have present : id ∈ link.pendingAcks.parked.keys :=
        AList.mem_keys.mpr (AList.lookup_isSome.mp (Option.isSome_iff_ne_none.mpr something))
      exact something (cleared.empty id (before id (all id present)))

end Cleared

theorem preserves_cleared : Preserves Link.step ParksAhead Cleared := by
  intro link event next cleared ahead moved
  cases Link.step_moves moved with
  | send _ moves => exact cleared.send_step ahead moves
  | close _ moves => exact cleared.close_step ahead moves
  | reader _ moves => exact cleared.reader_step ahead moves
  | actor moves =>
      cases moves <;>
        exact cleared.beside rfl [] (by simp) (List.append_nil _).symm fun _ _ nothing => nothing
  | sendPacket _ _ | sendPublish _ _ =>
      exact cleared.beside rfl [_] (by simp) rfl fun _ _ nothing => nothing
  | allocate _ | release _ =>
      exact cleared.beside rfl [] (by simp) (List.append_nil _).symm fun _ _ nothing => nothing

theorem cleared_new (role : ProtocolRole) : Cleared (.new role) where
  empty _ _ := AList.lookup_empty _
  closes _ := trivial
  called _ begun := absurd rfl begun

/-- A call awaits a waiter whose sender is held in `pending_acks`. -/
def AwaitsParked (link : Link) : Prop :=
  ∃ call send waiter, link.sends call = some send ∧ send.stage = .awaiting waiter ∧
    link.pendingAcks.parked.lookup waiter.id = some waiter

/-- In every run in which no waiter is parked behind the sweep, once a call of `close`
has returned no call awaits a waiter whose sender is held: a receiver that still waits
is being answered by the reader. -/
theorem close_releases_waiters (role : ProtocolRole) {events : List Link.Event} {link : Link}
    (run : Run Link.step ParksAhead (.new role) events link) (closing : CloseId)
    (returned : link.closes closing = .returned) :
    ¬ AwaitsParked link ∧ ∀ waiter, link.pendingAcks.cells waiter = some .waiting →
      link.pendingAcks.hand = some waiter := by
  have cleared := run.invariant preserves_cleared (cleared_new role)
  have nothing := cleared.closes closing
  rw [returned] at nothing
  constructor
  · rintro ⟨call, send, waiter, _, _, found⟩
    cases (nothing waiter.id).symm.trans found
  · intro waiter waiting
    refine ((link.pendingAcks.held waiter).mp waiting).resolve_left fun found => ?_
    cases (nothing waiter.id).symm.trans found

/-- A subscribe that awaits its SUBACK. -/
def subscribes : List Link.Event :=
  [.send 0 (.call (.subscribe [⟨"t", .atMostOnce⟩])), .send 0 .proceed, .send 0 .proceed,
    .send 0 .proceed]

/-- A call of `close` that finds the place of the first identifier. -/
def closesOver : List Link.Event :=
  [.close 0 .call, .close 0 .swap, .close 0 .notify, .close 0 (.visit 1), .close 0 .finish]

theorem close_releases_waiters_subscribe :
    let link := replay Link.step (.new .client) (subscribes ++ closesOver)
    link.closes 0 = .returned ∧ ¬ AwaitsParked link := by
  refine ⟨by decide +kernel, ?_⟩
  exact (close_releases_waiters .client (Follows.run (by decide +kernel)) 0
    (by decide +kernel)).1

/-- A write fails and the actor stops by itself; the close that follows finds the flag down
and nobody waiting. -/
example :
    Follows Link.step ParksAhead (.new .server)
      [.sendPacket .pingresp, .actor .proceed, .actor .take, .actor (.finish false),
        .actor .proceed, .close 0 .call, .close 0 .swap] := by
  decide +kernel

/-- A subscribe has its identifier when the channel is closed, and parks its waiter
after the sweep; the actor still takes the packet, and the call waits. -/
theorem close_strands_waiter :
    ∃ events link, Run Link.step Any (.new .client) events link ∧ link.closes 0 = .returned ∧
      AwaitsParked link := by
  refine ⟨subscribes.take 2 ++ closesOver ++ subscribes.drop 2, _, Follows.run (by decide +kernel),
    by decide +kernel, 0, _, ⟨1, .suback, 0⟩, rfl, by decide +kernel, by decide +kernel⟩

end HotaruMqtt.Channel
