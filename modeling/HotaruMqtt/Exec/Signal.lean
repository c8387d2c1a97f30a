import HotaruMqtt.Exec.Table

/-!
# Signals between tasks

A notification wakes the futures that exist when it is given and is not kept for
later ones.  A one-shot channel is seen from its receiver: it waits until its
sender is used or dropped.

A registry holds the senders of one-shot channels under keys, and one of them at
a time may be in the hand of the task that is about to use it.  Its fields say
that a receiver waits exactly as long as its sender is somewhere, so that no
operation can lose a sender without its receiver being told.
-/

namespace HotaruMqtt.Exec

universe u v w

/-! ## Notifications -/

/-- How often the waiters of a notification have been woken. -/
structure Notify where
  calls : Nat
  deriving DecidableEq, Repr

/-- A future that waits for a notification, with the calls before its creation. -/
structure Notified where
  createdAt : Nat
  deriving DecidableEq, Repr

namespace Notify

/-- The waiters have never been woken. -/
def new : Notify :=
  ⟨0⟩

/-- A future that only later calls wake. -/
def notified (notify : Notify) : Notified :=
  ⟨notify.calls⟩

/-- The futures that exist are woken. -/
def notifyWaiters (notify : Notify) : Notify :=
  ⟨notify.calls + 1⟩

/-- The future has been woken. -/
def Wakes (notify : Notify) (future : Notified) : Prop :=
  future.createdAt < notify.calls

instance (notify : Notify) (future : Notified) : Decidable (notify.Wakes future) :=
  inferInstanceAs (Decidable (_ < _))

theorem Wakes.notifyWaiters {notify : Notify} {future : Notified} (wakes : notify.Wakes future) :
    notify.notifyWaiters.Wakes future :=
  Nat.lt_succ_of_lt wakes

end Notify

/-! ## One-shot channels -/

/-- A one-shot channel as its receiver finds it. -/
inductive Oneshot (α : Type u)
  | waiting
  | sent (value : α)
  | closed
  deriving DecidableEq, Repr

/-- Senders of one-shot channels, parked under keys. -/
structure Registry {κ : Type u} {ι : Type v} [DecidableEq κ] (key : ι → κ) (α : Type w) where
  parked : Table κ ι
  /-- The sender that has been taken out and not been used yet. -/
  hand : Option ι
  /-- The receivers of the channels that have been made. -/
  cells : ι → Option (Oneshot α)
  keyed : ∀ {place sender}, parked.lookup place = some sender → key sender = place
  apart : ∀ {sender}, hand = some sender → parked.lookup (key sender) ≠ some sender
  held : ∀ sender, cells sender = some .waiting ↔
    parked.lookup (key sender) = some sender ∨ hand = some sender

namespace Registry

variable {κ : Type u} {ι : Type v} {α : Type w} [DecidableEq κ] [DecidableEq ι] {key : ι → κ}

/-- No channel has been made. -/
def new : Registry key α where
  parked := ∅
  hand := none
  cells _ := none
  keyed found := by simp at found
  apart taken := by simp at taken
  held sender := by simp

/-- Receivers after a sender, if there is one, has been dropped. -/
def dropSender (cells : ι → Option (Oneshot α)) : Option ι → ι → Option (Oneshot α)
  | none => cells
  | some sender => Function.update cells sender (some .closed)

theorem dropSender_apply (cells : ι → Option (Oneshot α)) (dropped : Option ι) (sender : ι) :
    dropSender cells dropped sender =
      if dropped = some sender then some .closed else cells sender := by
  cases dropped with
  | none => simp [dropSender]
  | some other =>
      by_cases same : sender = other
      · simp [dropSender, same]
      · simp [dropSender, same, Ne.symm same]

variable (registry : Registry key α)

omit [DecidableEq ι] in
theorem hand_ne_of_parked {place : κ} {sender : ι}
    (found : registry.parked.lookup place = some sender) : registry.hand ≠ some sender :=
  fun taken => registry.apart taken (registry.keyed found ▸ found)

omit [DecidableEq ι] in
/-- A sender that is not the one under a key stays where it is when the key is
freed. -/
theorem lookup_erase_iff {place : κ} {sender : ι}
    (other : registry.parked.lookup place ≠ some sender) :
    (registry.parked.erase place).lookup (key sender) = some sender ↔
      registry.parked.lookup (key sender) = some sender := by
  rw [Table.lookup_erase_eq_some]
  exact ⟨And.right, fun found => ⟨fun here => other (here ▸ found), found⟩⟩

omit [DecidableEq ι] in
theorem lookup_insert_iff {sender added : ι} (differs : sender ≠ added)
    (other : registry.parked.lookup (key added) ≠ some sender) :
    (registry.parked.insert (key added) added).lookup (key sender) = some sender ↔
      registry.parked.lookup (key sender) = some sender := by
  rw [Table.lookup_insert_eq_some]
  constructor
  · rintro (⟨_, rfl⟩ | ⟨_, found⟩)
    · exact absurd rfl differs
    · exact found
  · intro found
    exact .inr ⟨fun here => other (here ▸ found), found⟩

omit [DecidableEq ι] in
theorem keyed_insert {place : κ} {sender added : ι}
    (found : (registry.parked.insert (key added) added).lookup place = some sender) :
    key sender = place := by
  rcases Table.lookup_insert_eq_some.mp found with ⟨rfl, rfl⟩ | ⟨_, found⟩
  · rfl
  · exact registry.keyed found

/-- A sender is dropped from under its key, if there is one. -/
def discard (place : κ) : Registry key α where
  parked := registry.parked.erase place
  hand := registry.hand
  cells := dropSender registry.cells (registry.parked.lookup place)
  keyed found := registry.keyed (Table.lookup_erase_eq_some.mp found).2
  apart taken found := registry.apart taken (Table.lookup_erase_eq_some.mp found).2
  held sender := by
    rw [dropSender_apply]
    by_cases dropped : registry.parked.lookup place = some sender
    · have notInHand := registry.hand_ne_of_parked dropped
      obtain rfl := registry.keyed dropped
      simp [dropped, notInHand]
    · rw [if_neg dropped, registry.lookup_erase_iff dropped]
      exact registry.held sender

/-- The sender under a key is taken out to be used. -/
def take (place : κ) : Registry key α :=
  if empty : registry.hand = none then
    { parked := registry.parked.erase place
      hand := registry.parked.lookup place
      cells := registry.cells
      keyed := fun found => registry.keyed (Table.lookup_erase_eq_some.mp found).2
      apart := fun taken found =>
        (Table.lookup_erase_eq_some.mp found).1 (registry.keyed taken)
      held := by
        intro sender
        rw [registry.held, empty]
        by_cases taken : registry.parked.lookup place = some sender
        · obtain rfl := registry.keyed taken
          simp [taken]
        · simp [taken, registry.lookup_erase_iff taken] }
  else
    registry

/-- The sender in the hand is used. -/
def answer (value : α) : Registry key α :=
  match taken : registry.hand with
  | none => registry
  | some used =>
      { parked := registry.parked
        hand := none
        cells := Function.update registry.cells used (some (.sent value))
        keyed := registry.keyed
        apart := fun other => by cases other
        held := by
          intro sender
          by_cases same : sender = used
          · subst same
            simpa using registry.apart taken
          · simp [Function.update_of_ne same, registry.held, taken, Ne.symm same] }

/-- A new channel is made and its sender parked; a sender that was there is dropped. -/
def park (added : ι) : Registry key α :=
  if fresh : registry.cells added = none then
    { parked := registry.parked.insert (key added) added
      hand := registry.hand
      cells := Function.update
        (dropSender registry.cells (registry.parked.lookup (key added))) added (some .waiting)
      keyed := registry.keyed_insert
      apart := by
        intro sender taken found
        have waiting := (registry.held sender).mpr (.inr taken)
        rcases Table.lookup_insert_eq_some.mp found with ⟨_, rfl⟩ | ⟨_, found⟩
        · rw [fresh] at waiting
          cases waiting
        · exact registry.apart taken found
      held := by
        intro sender
        by_cases same : sender = added
        · subst same
          simp
        · rw [Function.update_of_ne same, dropSender_apply]
          by_cases replaced : registry.parked.lookup (key added) = some sender
          · have notInHand := registry.hand_ne_of_parked replaced
            have here := registry.keyed replaced
            rw [if_pos replaced, Table.lookup_insert_eq_some]
            simp [here, notInHand, Ne.symm same]
          · rw [if_neg replaced, registry.lookup_insert_iff same replaced]
            exact registry.held sender }
  else
    registry

/-- The sender in the hand is parked again; a sender that was there is dropped. -/
def putBack : Registry key α :=
  match taken : registry.hand with
  | none => registry
  | some added =>
      { parked := registry.parked.insert (key added) added
        hand := none
        cells := dropSender registry.cells (registry.parked.lookup (key added))
        keyed := registry.keyed_insert
        apart := fun other => by cases other
        held := by
          intro sender
          rw [dropSender_apply]
          by_cases same : sender = added
          · subst same
            simp [registry.apart taken, (registry.held sender).mpr (.inr taken)]
          · by_cases replaced : registry.parked.lookup (key added) = some sender
            · have here := registry.keyed replaced
              rw [if_pos replaced, Table.lookup_insert_eq_some]
              simp [here, Ne.symm same]
            · rw [if_neg replaced, registry.lookup_insert_iff same replaced, registry.held, taken]
              simp [Ne.symm same] }

/-! ## What the operations do -/

theorem cells_discard (place : κ) (sender : ι) :
    (registry.discard place).cells sender =
      if registry.parked.lookup place = some sender then some .closed
      else registry.cells sender :=
  dropSender_apply _ _ _

@[simp]
theorem cells_take (place : κ) : (registry.take place).cells = registry.cells := by
  unfold take
  split <;> rfl

theorem parked_take {place : κ} (empty : registry.hand = none) :
    (registry.take place).parked = registry.parked.erase place := by
  rw [take, dif_pos empty]

theorem lookup_take_eq_none {place other : κ} (nothing : registry.parked.lookup other = none) :
    (registry.take place).parked.lookup other = none := by
  unfold take
  split
  · exact Table.lookup_erase_eq_none nothing
  · exact nothing

theorem hand_take {place : κ} (empty : registry.hand = none) :
    (registry.take place).hand = registry.parked.lookup place := by
  rw [take, dif_pos empty]

@[simp]
theorem parked_answer (value : α) : (registry.answer value).parked = registry.parked := by
  unfold answer
  split <;> rfl

@[simp]
theorem hand_answer (value : α) : (registry.answer value).hand = none := by
  unfold answer
  split
  · assumption
  · rfl

theorem cells_answer {used : ι} (taken : registry.hand = some used) (value : α) (sender : ι) :
    (registry.answer value).cells sender =
      if sender = used then some (.sent value) else registry.cells sender := by
  unfold answer
  split
  · rename_i empty
    rw [empty] at taken
    cases taken
  · rename_i other found
    rw [found] at taken
    cases taken
    exact Function.update_apply _ _ _ _

@[simp]
theorem hand_park (added : ι) : (registry.park added).hand = registry.hand := by
  unfold park
  split <;> rfl

theorem lookup_park_of_ne {added : ι} {place : κ} (differs : place ≠ key added) :
    (registry.park added).parked.lookup place = registry.parked.lookup place := by
  unfold park
  split
  · exact Table.lookup_insert.trans (if_neg differs)
  · rfl

theorem cells_park {added : ι} (fresh : registry.cells added = none) (sender : ι) :
    (registry.park added).cells sender =
      if sender = added then some .waiting
      else if registry.parked.lookup (key added) = some sender then some .closed
      else registry.cells sender := by
  rw [park, dif_pos fresh]
  simp only [Function.update_apply, dropSender_apply]

@[simp]
theorem hand_putBack : registry.putBack.hand = none := by
  unfold putBack
  split
  · assumption
  · rfl

theorem parked_putBack {added : ι} (taken : registry.hand = some added) :
    registry.putBack.parked = registry.parked.insert (key added) added := by
  unfold putBack
  split
  · rename_i empty
    rw [empty] at taken
    cases taken
  · rename_i other found
    rw [found] at taken
    cases taken
    rfl

theorem lookup_putBack_of_ne {added : ι} {place : κ} (taken : registry.hand = some added)
    (differs : place ≠ key added) :
    registry.putBack.parked.lookup place = registry.parked.lookup place := by
  rw [registry.parked_putBack taken, Table.lookup_insert, if_neg differs]

theorem cells_putBack {added : ι} (taken : registry.hand = some added) (sender : ι) :
    registry.putBack.cells sender =
      if registry.parked.lookup (key added) = some sender then some .closed
      else registry.cells sender := by
  unfold putBack
  split
  · rename_i empty
    rw [empty] at taken
    cases taken
  · rename_i other found
    rw [found] at taken
    cases taken
    exact dropSender_apply _ _ _

/-! ## Receivers over time -/

/-- Receivers have at most learned that their senders are gone. -/
def Ebbs (before after : ι → Option (Oneshot α)) : Prop :=
  ∀ sender, after sender = before sender ∨
    before sender = some .waiting ∧ after sender = some .closed

omit [DecidableEq ι] in
theorem Ebbs.eq_sent_iff {before after : ι → Option (Oneshot α)} (ebbs : Ebbs before after)
    (sender : ι) (value : α) :
    after sender = some (.sent value) ↔ before sender = some (.sent value) := by
  rcases ebbs sender with same | ⟨waited, closed⟩
  · rw [same]
  · simp [waited, closed]

omit [DecidableEq κ] [DecidableEq ι] in
theorem Ebbs.waiting_before {before after : ι → Option (Oneshot α)} (ebbs : Ebbs before after)
    {sender : ι} (waiting : after sender = some .waiting) : before sender = some .waiting := by
  rcases ebbs sender with same | ⟨waited, _⟩
  · exact same.symm.trans waiting
  · exact waited

omit [DecidableEq κ] [DecidableEq ι] in
theorem Ebbs.refl (cells : ι → Option (Oneshot α)) : Ebbs cells cells :=
  fun _ => .inl rfl

omit [DecidableEq ι] in
theorem waiting_of_parked {place : κ} {sender : ι}
    (found : registry.parked.lookup place = some sender) :
    registry.cells sender = some .waiting :=
  (registry.held sender).mpr (.inl (registry.keyed found ▸ found))

theorem ebbs_discard (place : κ) : Ebbs registry.cells (registry.discard place).cells := by
  intro sender
  rw [cells_discard]
  by_cases dropped : registry.parked.lookup place = some sender
  · exact .inr ⟨registry.waiting_of_parked dropped, if_pos dropped⟩
  · exact .inl (if_neg dropped)

theorem ebbs_putBack : Ebbs registry.cells registry.putBack.cells := by
  cases taken : registry.hand with
  | none =>
      have same : registry.putBack = registry := by
        unfold putBack
        split
        · rfl
        · rename_i found
          rw [taken] at found
          cases found
      rw [same]
      exact .refl _
  | some added =>
      intro sender
      rw [registry.cells_putBack taken]
      by_cases replaced : registry.parked.lookup (key added) = some sender
      · exact .inr ⟨registry.waiting_of_parked replaced, if_pos replaced⟩
      · exact .inl (if_neg replaced)

/-- A new channel changes nothing for the other receivers but that one of them may
lose its sender. -/
theorem cells_park_of_ne {added sender : ι} (fresh : registry.cells added = none)
    (differs : sender ≠ added) :
    (registry.park added).cells sender = registry.cells sender ∨
      registry.cells sender = some .waiting ∧
        (registry.park added).cells sender = some .closed := by
  rw [registry.cells_park fresh, if_neg differs]
  by_cases replaced : registry.parked.lookup (key added) = some sender
  · exact .inr ⟨registry.waiting_of_parked replaced, if_pos replaced⟩
  · exact .inl (if_neg replaced)

theorem waiting_of_park {added sender : ι} (differs : sender ≠ added)
    (waiting : (registry.park added).cells sender = some .waiting) :
    registry.cells sender = some .waiting := by
  by_cases fresh : registry.cells added = none
  · rcases registry.cells_park_of_ne fresh differs with same | ⟨waited, _⟩
    · exact same.symm.trans waiting
    · exact waited
  · rwa [park, dif_neg fresh] at waiting

end Registry

end HotaruMqtt.Exec
