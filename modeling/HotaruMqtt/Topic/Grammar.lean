import HotaruMqtt.Topic

/-!
# The grammar of filters

`validate_subscribe_filter` decides segment by segment.  The grammar it decides is
about characters: a `+` has a slash or an end of the text on both sides, and a `#` is
the last character and has a slash or nothing before it.  Both say the same, since a
character stands at the edge of its segment exactly when it stands beside a slash or
at an end of the text.
-/

namespace HotaruMqtt.Topic

open Exec Exec.Outcome

/-! ## Segment by segment -/

/-- What the loop asks of a segment, given those after it. -/
structure SegmentValid (segment : List Char) (rest : List (List Char)) : Prop where
  plus : '+' ∈ segment → segment = ['+']
  hash : '#' ∈ segment → segment = ['#'] ∧ rest = []

theorem segmentValid_plus (rest : List (List Char)) : SegmentValid ['+'] rest :=
  ⟨fun _ => rfl, by simp⟩

theorem segmentValid_hash : SegmentValid ['#'] [] :=
  ⟨by simp, fun _ => ⟨rfl, rfl⟩⟩

theorem segmentValid_literal {segment : List Char} (literal : ¬ ('+' ∈ segment ∨ '#' ∈ segment))
    (rest : List (List Char)) : SegmentValid segment rest :=
  ⟨fun found => absurd (.inl found) literal, fun found => absurd (.inr found) literal⟩

/-- The loop accepts when each segment is valid where it stands. -/
theorem validateSegments_eq_ok_iff {split : List (List Char)} :
    validateSegments split = ok () ↔
      ∀ front segment rest, split = front ++ segment :: rest → SegmentValid segment rest := by
  induction split with
  | nil => simp [validateSegments]
  | cons segment rest ih =>
      have shift : (∀ front other later, segment :: rest = front ++ other :: later →
          SegmentValid other later) ↔
          SegmentValid segment rest ∧ validateSegments rest = ok () := by
        rw [ih]
        constructor
        · intro each
          exact ⟨each [] segment rest rfl, fun front other later split =>
            each (segment :: front) other later (congrArg _ split)⟩
        · rintro ⟨first, each⟩ front other later split
          cases front with
          | nil =>
              cases split
              exact first
          | cons head front =>
              cases split
              exact each front other later rfl
      rw [shift, validateSegments]
      split
      · rename_i same
        rw [same]
        exact (and_iff_right (segmentValid_plus rest)).symm
      · split
        · rename_i same
          rw [same]
          split
          · rename_i more
            simp only [reduceCtorEq, false_iff]
            rintro ⟨valid, _⟩
            exact more (valid.hash (List.mem_singleton_self _)).2
          · rename_i last
            cases of_not_not last
            exact (and_iff_right segmentValid_hash).symm
        · rename_i notPlus notHash
          split
          · rename_i mixed
            simp only [reduceCtorEq, false_iff]
            rintro ⟨valid, _⟩
            rcases mixed with found | found
            · exact notPlus (valid.plus found)
            · exact notHash (valid.hash found).1
          · rename_i literal
            exact (and_iff_right (segmentValid_literal literal rest)).symm

/-! ## Character by character -/

/-- What comes next opens a segment. -/
def OpensSegment (before : List Char) : Prop :=
  before = [] ∨ ∃ init, before = init ++ ['/']

/-- What came last closes a segment. -/
def ClosesSegment (after : List Char) : Prop :=
  after = [] ∨ ∃ rest, after = '/' :: rest

/-- The texts of the filter grammar. -/
structure FilterText (text : List Char) : Prop where
  plus : ∀ before after, text = before ++ '+' :: after →
    OpensSegment before ∧ ClosesSegment after
  hash : ∀ before after, text = before ++ '#' :: after → after = [] ∧ OpensSegment before

theorem filterText_of_validateSegments {text : List Char}
    (accepted : validateSegments (text.splitOn '/') = ok ()) : FilterText text := by
  have valid := validateSegments_eq_ok_iff.mp accepted
  constructor
  · rintro before after rfl
    obtain ⟨front, left, splitBefore⟩ := Split.exists_last '/' before
    obtain ⟨right, back, splitAfter⟩ := Split.exists_first '/' after
    have alone : left ++ '+' :: right = ['+'] :=
      (valid _ _ _ (Split.splitOn_append_cons (by decide) splitBefore splitAfter)).plus (by simp)
    have edges : left = [] ∧ right = [] := by simpa [List.append_eq_singleton_iff] using alone
    exact ⟨(Split.last_eq_nil_iff splitBefore).mp edges.1,
      (Split.first_eq_nil_iff splitAfter).mp edges.2⟩
  · rintro before after rfl
    obtain ⟨front, left, splitBefore⟩ := Split.exists_last '/' before
    obtain ⟨right, back, splitAfter⟩ := Split.exists_first '/' after
    obtain ⟨alone, last⟩ :=
      (valid _ _ _ (Split.splitOn_append_cons (by decide) splitBefore splitAfter)).hash (by simp)
    have edges : left = [] ∧ right = [] := by simpa [List.append_eq_singleton_iff] using alone
    exact ⟨(Split.only_nil_iff splitAfter).mp ⟨edges.2, last⟩,
      (Split.last_eq_nil_iff splitBefore).mp edges.1⟩

theorem validateSegments_of_filterText {text : List Char} (wellFormed : FilterText text) :
    validateSegments (text.splitOn '/') = ok () := by
  refine validateSegments_eq_ok_iff.mpr fun front segment rest split => ⟨?_, ?_⟩
  · intro found
    obtain ⟨left, right, rfl⟩ := List.append_of_mem found
    obtain ⟨before, after, place, splitBefore, splitAfter⟩ :=
      (Split.splitOn_eq_around_iff (by decide)).mp split
    obtain ⟨opens, closes⟩ := wellFormed.plus before after place
    rw [(Split.last_eq_nil_iff splitBefore).mpr opens,
      (Split.first_eq_nil_iff splitAfter).mpr closes]
    rfl
  · intro found
    obtain ⟨left, right, rfl⟩ := List.append_of_mem found
    obtain ⟨before, after, place, splitBefore, splitAfter⟩ :=
      (Split.splitOn_eq_around_iff (by decide)).mp split
    obtain ⟨last, opens⟩ := wellFormed.hash before after place
    obtain ⟨closes, nothing⟩ := (Split.only_nil_iff splitAfter).mpr last
    rw [(Split.last_eq_nil_iff splitBefore).mpr opens, closes]
    exact ⟨rfl, nothing⟩

/-- `validate_subscribe_filter` accepts exactly the filter grammar. -/
theorem validateSubscribeFilter_accepts_iff (filter : String) :
    validateSubscribeFilter filter = ok () ↔
      filter ≠ "" ∧ filter.utf8ByteSize ≤ maxTopicLen ∧ FilterText filter.toList := by
  rw [validateSubscribeFilter_eq, lengthChecked_eq_ok_iff]
  exact and_congr_right fun _ => and_congr_right fun _ =>
    ⟨filterText_of_validateSegments, validateSegments_of_filterText⟩

end HotaruMqtt.Topic
