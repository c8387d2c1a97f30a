import Mathlib.Data.List.Basic

/-!
# Splitting at a separator

A list is split at every occurrence of a separator; the parts have none, and joining
them gives the list back.  Where an element stands in a list then says where it stands
in its part: what is before it in the list ends in what is before it in the part, and
the element opens its part exactly when it opens the list or follows a separator.
-/

namespace HotaruMqtt.Exec.Split

universe u

variable {α : Type u} [DecidableEq α] {sep : α} {text before after : List α}
  {front back : List (List α)} {left right : List α}

/-- A list that does not begin with the separator begins with its first part. -/
theorem splitOn_cons_of_ne {first : α} (differs : first ≠ sep)
    (split : text.splitOn sep = left :: back) :
    (first :: text).splitOn sep = (first :: left) :: back := by
  rw [List.splitOn_cons_eq_if_modifyHead, split, if_neg (by simpa using differs),
    List.modifyHead_cons]

theorem splitOn_cons_self (text : List α) :
    (sep :: text).splitOn sep = [] :: text.splitOn sep := by
  rw [List.splitOn_cons_eq_if_modifyHead, if_pos (beq_self_eq_true sep)]

theorem exists_first (sep : α) (text : List α) : ∃ left back, text.splitOn sep = left :: back :=
  List.exists_cons_of_ne_nil (List.splitOn_ne_nil sep text)

theorem exists_last (sep : α) (text : List α) :
    ∃ front left, text.splitOn sep = front ++ [left] := by
  have parts := List.dropLast_append_getLast (List.splitOn_ne_nil sep text)
  exact ⟨_, _, parts.symm⟩

/-- An element other than the separator is in a list when it is in one of the parts. -/
theorem mem_splitOn_iff {element : α} (differs : element ≠ sep) (text : List α) :
    (∃ part ∈ text.splitOn sep, element ∈ part) ↔ element ∈ text := by
  induction text with
  | nil => simp
  | cons first rest ih =>
      obtain ⟨left, back, split⟩ := exists_first sep rest
      rw [List.mem_cons, ← ih, split]
      by_cases same : first = sep
      · subst same
        rw [splitOn_cons_self, split]
        simp [differs]
      · rw [splitOn_cons_of_ne same split]
        simp only [List.mem_cons, exists_eq_or_imp]
        exact or_assoc

/-- No part has the separator. -/
theorem sep_not_mem {part : List α} (listed : part ∈ text.splitOn sep) : sep ∉ part := by
  induction text generalizing part with
  | nil =>
      cases List.mem_singleton.mp listed
      exact List.not_mem_nil
  | cons first rest ih =>
      obtain ⟨left, back, split⟩ := exists_first sep rest
      rw [split] at ih
      by_cases same : first = sep
      · subst same
        rw [splitOn_cons_self, split] at listed
        rcases List.mem_cons.mp listed with rfl | listed
        · exact List.not_mem_nil
        · exact ih listed
      · rw [splitOn_cons_of_ne same split] at listed
        rcases List.mem_cons.mp listed with rfl | listed
        · intro found
          rcases List.mem_cons.mp found with here | later
          · exact same here.symm
          · exact ih List.mem_cons_self later
        · exact ih (List.mem_cons_of_mem _ listed)

/-! ## Where an element stands -/

/-- What is around an element in a list is what is around it in its part, with the
parts before it and after it. -/
theorem splitOn_append_cons {element : α} (differs : element ≠ sep)
    (splitBefore : before.splitOn sep = front ++ [left])
    (splitAfter : after.splitOn sep = right :: back) :
    (before ++ element :: after).splitOn sep =
      front ++ (left ++ element :: right) :: back := by
  induction before generalizing front left with
  | nil =>
      have parts : front = [] ∧ left = [] := by
        cases front <;> simp_all
      rw [parts.1, parts.2]
      exact splitOn_cons_of_ne differs splitAfter
  | cons first before ih =>
      obtain ⟨front', left', split⟩ := exists_last sep before
      have inner := ih split
      by_cases same : first = sep
      · subst same
        rw [splitOn_cons_self, split, ← List.cons_append] at splitBefore
        obtain ⟨rfl, last⟩ := List.append_inj' splitBefore rfl
        cases last
        rw [List.cons_append, splitOn_cons_self, inner]
        rfl
      · cases front' with
        | nil =>
            have parts : [] ++ [first :: left'] = front ++ [left] :=
              (splitOn_cons_of_ne same split).symm.trans splitBefore
            obtain ⟨rfl, last⟩ := List.append_inj' parts rfl
            cases last
            exact splitOn_cons_of_ne same inner
        | cons part front' =>
            have parts : (first :: part) :: front' ++ [left'] = front ++ [left] :=
              (splitOn_cons_of_ne same split).symm.trans splitBefore
            obtain ⟨rfl, last⟩ := List.append_inj' parts rfl
            cases last
            exact splitOn_cons_of_ne same inner

/-- The element opens its part. -/
theorem last_eq_nil_iff (split : before.splitOn sep = front ++ [left]) :
    left = [] ↔ before = [] ∨ ∃ init, before = init ++ [sep] := by
  rcases List.eq_nil_or_concat before with rfl | ⟨init, last, rfl⟩
  · have parts : front = [] ∧ left = [] := by
      cases front <;> simp_all
    simp [parts.2]
  · obtain ⟨front', left', splitInit⟩ := exists_last sep init
    by_cases same : last = sep
    · subst same
      rw [List.concat_eq_append, List.splitOn_append_cons_self, List.splitOn_nil] at split
      cases (List.append_inj' split rfl).2
      simp
    · rw [List.concat_eq_append, splitOn_append_cons same splitInit (List.splitOn_nil sep)] at split
      cases (List.append_inj' split rfl).2
      simp [same]

/-- The element ends its part. -/
theorem first_eq_nil_iff (split : after.splitOn sep = right :: back) :
    right = [] ↔ after = [] ∨ ∃ rest, after = sep :: rest := by
  cases after with
  | nil =>
      cases split
      simp
  | cons first rest =>
      obtain ⟨left', back', splitRest⟩ := exists_first sep rest
      by_cases same : first = sep
      · subst same
        rw [splitOn_cons_self] at split
        cases split
        simp
      · rw [splitOn_cons_of_ne same splitRest] at split
        cases split
        simp [same]

/-- The element is the last of the list. -/
theorem only_nil_iff (split : after.splitOn sep = right :: back) :
    right = [] ∧ back = [] ↔ after = [] := by
  constructor
  · rintro ⟨rfl, rfl⟩
    have joined : [sep].intercalate (after.splitOn sep) = after := List.intercalate_splitOn sep
    rw [split] at joined
    exact joined.symm
  · rintro rfl
    cases split
    exact ⟨rfl, rfl⟩

/-- The parts around an element, read in the parts or in the list. -/
theorem splitOn_eq_around_iff {element : α} (differs : element ≠ sep) :
    text.splitOn sep = front ++ (left ++ element :: right) :: back ↔
      ∃ before after, text = before ++ element :: after ∧
        before.splitOn sep = front ++ [left] ∧ after.splitOn sep = right :: back := by
  constructor
  · intro split
    have clean : ∀ part ∈ front ++ (left ++ element :: right) :: back, sep ∉ part :=
      fun part listed => sep_not_mem (split ▸ listed)
    have middle := clean _ (List.mem_append_right _ List.mem_cons_self)
    have splitBefore : ([sep].intercalate (front ++ [left])).splitOn sep = front ++ [left] := by
      refine List.splitOn_intercalate sep (fun part listed => ?_) (by simp)
      rcases List.mem_append.mp listed with listed | listed
      · exact clean part (List.mem_append_left _ listed)
      · cases List.mem_singleton.mp listed
        exact fun found => middle (List.mem_append_left _ found)
    have splitAfter : ([sep].intercalate (right :: back)).splitOn sep = right :: back := by
      refine List.splitOn_intercalate sep (fun part listed => ?_) (by simp)
      rcases List.mem_cons.mp listed with rfl | listed
      · exact fun found => middle (List.mem_append_right _ (List.mem_cons_of_mem _ found))
      · exact clean part (List.mem_append_right _ (List.mem_cons_of_mem _ listed))
    refine ⟨_, _, ?_, splitBefore, splitAfter⟩
    -- both sides have the same parts
    have joined : [sep].intercalate (text.splitOn sep) = text := List.intercalate_splitOn sep
    rw [split, ← splitOn_append_cons differs splitBefore splitAfter,
      List.intercalate_splitOn] at joined
    exact joined.symm
  · rintro ⟨before, after, rfl, splitBefore, splitAfter⟩
    exact splitOn_append_cons differs splitBefore splitAfter

end HotaruMqtt.Exec.Split
