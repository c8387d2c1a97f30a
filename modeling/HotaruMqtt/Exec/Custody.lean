import HotaruMqtt.Exec.Signal

/-!
# Where senders are

A registry lets one task at a time take a sender out.  Here any number of tasks may.  The
sender of a one-shot channel is in one place at a time: parked under its key, taken out by
some task, used, or dropped.  What the receiver finds is read off the place, so that a
receiver waits exactly as long as its sender exists.

The one field of a custody that has to be kept says that the table holds the senders whose
place is there, each under its own key.
-/

namespace HotaruMqtt.Exec

universe u v w

/-- Where the sender of a one-shot channel is. -/
inductive Place (α : Type u)
  | parked
  | taken
  | used (value : α)
  | dropped
  deriving DecidableEq, Repr

/-- What the receiver of the channel finds. -/
def Place.oneshot {α : Type u} : Place α → Oneshot α
  | parked | taken => .waiting
  | used value => .sent value
  | dropped => .closed

/-- Senders of one-shot channels, some of them parked under keys. -/
structure Custody {κ : Type u} {ι : Type v} [DecidableEq κ] (key : ι → κ) (α : Type w) where
  parked : Table κ ι
  /-- The places of the senders that have been made. -/
  place : ι → Option (Place α)
  stored : ∀ {spot sender}, parked.lookup spot = some sender ↔
    key sender = spot ∧ place sender = some .parked

namespace Custody

variable {κ : Type u} {ι : Type v} {α : Type w} [DecidableEq κ] [DecidableEq ι] [DecidableEq α]
  {key : ι → κ}

/-- No sender has been made. -/
def new : Custody key α where
  parked := ∅
  place _ := none
  stored := by simp

variable (custody : Custody key α)

/-- What the receiver of a channel finds, if the channel has been made. -/
def receiver (sender : ι) : Option (Oneshot α) :=
  (custody.place sender).map Place.oneshot

/-- The sender under a key goes elsewhere, if there is one. -/
def release (spot : κ) (goal : Place α) (away : goal ≠ .parked) : Custody key α where
  parked := custody.parked.erase spot
  place sender := if custody.parked.lookup spot = some sender then some goal
    else custody.place sender
  stored {other sender} := by
    rw [Table.lookup_erase_eq_some, custody.stored]
    by_cases here : custody.parked.lookup spot = some sender
    · obtain ⟨rfl, _⟩ := custody.stored.mp here
      rw [if_pos here]
      constructor
      · rintro ⟨differs, same, _⟩
        exact absurd same.symm differs
      · rintro ⟨_, parked⟩
        exact absurd (Option.some.inj parked) away
    · rw [if_neg here]
      refine and_iff_right_of_imp fun found differs => here ?_
      exact custody.stored.mpr (differs ▸ found)

/-- The sender under a key is taken out to be used. -/
def take (spot : κ) : Custody key α :=
  custody.release spot .taken (by simp)

/-- The sender under a key is dropped. -/
def discard (spot : κ) : Custody key α :=
  custody.release spot .dropped (by simp)

/-- A sender is parked under its key; one that was there is dropped. -/
def insert (added : ι) : Custody key α where
  parked := custody.parked.insert (key added) added
  place sender :=
    if sender = added then some .parked
    else if custody.parked.lookup (key added) = some sender then some .dropped
    else custody.place sender
  stored {spot sender} := by
    rw [Table.lookup_insert_eq_some]
    by_cases same : sender = added
    · subst same
      rw [if_pos rfl]
      constructor
      · rintro (⟨rfl, _⟩ | ⟨_, found⟩)
        · exact ⟨rfl, rfl⟩
        · exact ⟨(custody.stored.mp found).1, rfl⟩
      · rintro ⟨rfl, _⟩
        exact .inl ⟨rfl, rfl⟩
    · rw [if_neg same]
      have others : spot = key added ∧ added = sender ∨
          spot ≠ key added ∧ custody.parked.lookup spot = some sender ↔
            spot ≠ key added ∧ custody.parked.lookup spot = some sender :=
        or_iff_right fun own => same own.2.symm
      rw [others]
      -- of the other senders only the one that was under the key moves
      by_cases replaced : custody.parked.lookup (key added) = some sender
      · obtain ⟨here, _⟩ := custody.stored.mp replaced
        rw [if_pos replaced, custody.stored, here]
        constructor
        · rintro ⟨differs, rfl, _⟩
          exact absurd rfl differs
        · rintro ⟨_, dropped⟩
          cases dropped
      · rw [if_neg replaced, custody.stored]
        refine and_iff_right_of_imp fun found differs => replaced ?_
        exact custody.stored.mpr (differs ▸ found)

/-- A sender that has been taken out is used. -/
def use (sender : ι) (value : α) : Custody key α :=
  if out : custody.place sender = some .taken then
    { parked := custody.parked
      place := Function.update custody.place sender (some (.used value))
      stored := by
        intro spot other
        rw [custody.stored]
        by_cases same : other = sender
        · subst same
          simp [out]
        · rw [Function.update_of_ne same] }
  else
    custody

/-- A sender that has been taken out is parked again; one that was there is dropped. -/
def putBack (sender : ι) : Custody key α :=
  if custody.place sender = some .taken then custody.insert sender else custody

/-- Every parked sender is dropped. -/
def clear : Custody key α where
  parked := ∅
  place sender :=
    if custody.place sender = some .parked then some .dropped else custody.place sender
  stored {spot sender} := by
    by_cases parked : custody.place sender = some .parked <;> simp [parked]

/-! ## What the operations do -/

variable {custody} {spot : κ} {sender added : ι} {value : α} {goal : Place α}

theorem place_use (out : custody.place sender = some .taken) (other : ι) :
    (custody.use sender value).place other =
      if other = sender then some (.used value) else custody.place other := by
  rw [use, dif_pos out]
  exact Function.update_apply _ _ _ _

theorem parked_use : (custody.use sender value).parked = custody.parked := by
  unfold use
  split <;> rfl

/-! ## Senders that have not been made -/

omit [DecidableEq α] in
theorem release_unmade {away : goal ≠ .parked} (unmade : custody.place sender = none) :
    (custody.release spot goal away).place sender = none := by
  refine (if_neg fun found => ?_).trans unmade
  cases unmade.symm.trans (custody.stored.mp found).2

omit [DecidableEq α] in
theorem insert_unmade (differs : sender ≠ added) (unmade : custody.place sender = none) :
    (custody.insert added).place sender = none := by
  refine (if_neg differs).trans ((if_neg fun found => ?_).trans unmade)
  cases unmade.symm.trans (custody.stored.mp found).2

omit [DecidableEq ι] [DecidableEq α] in
/-- Whoever has been taken out has been made. -/
theorem ne_of_taken {other : ι} (unmade : custody.place other = none)
    (out : custody.place sender = some .taken) : other ≠ sender := by
  rintro rfl
  cases unmade.symm.trans out

theorem use_unmade {other : ι} (unmade : custody.place other = none) :
    (custody.use sender value).place other = none := by
  by_cases out : custody.place sender = some .taken
  · rw [place_use out, if_neg (ne_of_taken unmade out), unmade]
  · rw [use, dif_neg out, unmade]

theorem putBack_unmade {other : ι} (unmade : custody.place other = none) :
    (custody.putBack sender).place other = none := by
  unfold putBack
  split
  · rename_i out
    exact insert_unmade (ne_of_taken unmade out) unmade
  · exact unmade

omit [DecidableEq ι] in
theorem clear_unmade (unmade : custody.place sender = none) :
    custody.clear.place sender = none := by
  simp [clear, unmade]

/-! ## Who is told a value -/

variable {other : ι} {told : α}

omit [DecidableEq α] in
theorem sent_of_release (away : goal ≠ .parked)
    (sent : (custody.release spot goal away).receiver other = some (.sent told)) :
    goal = .used told ∨ custody.receiver other = some (.sent told) := by
  simp only [receiver, release] at sent
  split at sent
  · cases goal <;> cases sent
    exact .inl rfl
  · exact .inr sent

omit [DecidableEq α] in
theorem sent_of_insert (sent : (custody.insert added).receiver other = some (.sent told)) :
    custody.receiver other = some (.sent told) := by
  simp only [receiver, insert] at sent
  split at sent
  · cases sent
  · split at sent
    · cases sent
    · exact sent

theorem sent_of_use (sent : (custody.use sender value).receiver other = some (.sent told)) :
    other = sender ∧ told = value ∨ custody.receiver other = some (.sent told) := by
  by_cases out : custody.place sender = some .taken
  · rw [receiver, place_use out] at sent
    split at sent
    · rename_i same
      cases sent
      exact .inl ⟨same, rfl⟩
    · exact .inr sent
  · rw [use, dif_neg out] at sent
    exact .inr sent

end Custody

end HotaruMqtt.Exec
