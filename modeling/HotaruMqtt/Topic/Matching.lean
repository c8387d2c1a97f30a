import HotaruMqtt.Topic.Grammar
import Mathlib.Data.List.Forall2

/-!
# What a filter matches

The loop of `filter_matches` goes through the levels of a filter and of a topic side
by side.  For the filters that are accepted it decides the matching of MQTT 4.7: without
`#` the levels match one by one, and with a final `#` the levels before it match the
first levels of the topic, of which there may be no more.
-/

namespace HotaruMqtt.Topic

open Exec Exec.Outcome

/-- A level of a filter matches a level of a topic. -/
def LevelMatches (level name : List Char) : Prop :=
  level = ['+'] ∨ level = name

/-- Level by level, with as many on both sides. -/
def LevelsMatch : List (List Char) → List (List Char) → Prop :=
  List.Forall₂ LevelMatches

/-- The levels of a filter cover those of a topic. -/
def Covers (filter topic : List (List Char)) : Prop :=
  (∀ level ∈ filter, '#' ∉ level) ∧ LevelsMatch filter topic ∨
    ∃ parents, filter = parents ++ [['#']] ∧ parents.length ≤ topic.length ∧
      LevelsMatch parents (topic.take parents.length)

/-! ## The loop -/

theorem matchSegments_nil (topic : List (List Char)) :
    matchSegments [] topic = true ↔ topic = [] := by
  rw [matchSegments, List.isEmpty_iff]

theorem matchSegments_hash (filter topic : List (List Char)) :
    matchSegments (['#'] :: filter) topic = true := by
  unfold matchSegments
  rw [if_pos rfl]

/-- One pass over a level that is not `#`. -/
theorem matchSegments_cons {level : List Char} (notHash : level ≠ ['#'])
    (filter topic : List (List Char)) :
    matchSegments (level :: filter) topic = true ↔
      ∃ name rest, topic = name :: rest ∧ LevelMatches level name ∧
        matchSegments filter rest = true := by
  cases topic with
  | nil => by_cases plus : level = ['+'] <;> simp [matchSegments, notHash]
  | cons name rest =>
      by_cases plus : level = ['+'] <;> simp [matchSegments, LevelMatches, plus, notHash]

/-- The passes over the levels before a `#`. -/
theorem matchSegments_append {parents : List (List Char)}
    (noHash : ∀ level ∈ parents, level ≠ ['#']) (filter topic : List (List Char)) :
    matchSegments (parents ++ filter) topic = true ↔
      parents.length ≤ topic.length ∧ LevelsMatch parents (topic.take parents.length) ∧
        matchSegments filter (topic.drop parents.length) = true := by
  induction parents generalizing topic with
  | nil => simp [LevelsMatch]
  | cons level parents ih =>
      rw [List.cons_append, matchSegments_cons (noHash level List.mem_cons_self)]
      have inner := ih fun other listed => noHash other (List.mem_cons_of_mem _ listed)
      cases topic with
      | nil => simp
      | cons name rest =>
          simp only [List.cons.injEq, List.length_cons, Nat.add_le_add_iff_right,
            List.take_succ_cons, List.drop_succ_cons, LevelsMatch, List.forall₂_cons]
          constructor
          · rintro ⟨_, _, ⟨rfl, rfl⟩, here, later⟩
            obtain ⟨fits, matched, remaining⟩ := (inner rest).mp later
            exact ⟨fits, ⟨here, matched⟩, remaining⟩
          · rintro ⟨fits, ⟨here, matched⟩, remaining⟩
            exact ⟨name, rest, ⟨rfl, rfl⟩, here, (inner rest).mpr ⟨fits, matched, remaining⟩⟩

/-! ## Accepted filters -/

/-- An accepted filter has no `#`, or one that is its last level. -/
theorem hash_free_or_last {split : List (List Char)} (accepted : validateSegments split = ok ()) :
    (∀ level ∈ split, '#' ∉ level) ∨
      ∃ parents, split = parents ++ [['#']] ∧ ∀ level ∈ parents, '#' ∉ level := by
  have valid := validateSegments_eq_ok_iff.mp accepted
  by_cases free : ∀ level ∈ split, '#' ∉ level
  · exact .inl free
  · push Not at free
    obtain ⟨level, listed, found⟩ := free
    obtain ⟨parents, rest, rfl⟩ := List.append_of_mem listed
    obtain ⟨rfl, rfl⟩ := (valid parents level rest rfl).hash found
    refine .inr ⟨parents, rfl, fun parent parentListed parentFound => ?_⟩
    obtain ⟨front, between, rfl⟩ := List.append_of_mem parentListed
    have last := ((valid front parent (between ++ [['#']]) (by simp)).hash parentFound).2
    simp at last

theorem ne_hash_of_not_mem {level : List Char} (free : '#' ∉ level) : level ≠ ['#'] := by
  rintro rfl
  exact free (List.mem_singleton_self _)

/-- On accepted filters the loop decides whether the filter covers the topic. -/
theorem matchSegments_iff_covers {split : List (List Char)}
    (accepted : validateSegments split = ok ()) (topic : List (List Char)) :
    matchSegments split topic = true ↔ Covers split topic := by
  rcases hash_free_or_last accepted with free | ⟨parents, rfl, free⟩
  · have passes := matchSegments_append (fun level listed => ne_hash_of_not_mem (free level listed))
      [] topic
    rw [List.append_nil, matchSegments_nil, List.drop_eq_nil_iff] at passes
    rw [passes]
    constructor
    · rintro ⟨fits, matched, all⟩
      rw [List.take_of_length_le all] at matched
      exact .inl ⟨free, matched⟩
    · rintro (⟨_, matched⟩ | ⟨parents, rfl, _⟩)
      · have same : split.length = topic.length := List.Forall₂.length_eq matched
        rw [same, List.take_length]
        exact ⟨Nat.le_refl _, matched, Nat.le_refl _⟩
      · exact absurd (List.mem_singleton_self '#') (free ['#'] (by simp))
  · rw [matchSegments_append (fun level listed => ne_hash_of_not_mem (free level listed))]
    constructor
    · rintro ⟨fits, matched, _⟩
      exact .inr ⟨parents, rfl, fits, matched⟩
    · rintro (⟨none, _⟩ | ⟨others, same, fits, matched⟩)
      · exact absurd (List.mem_singleton_self '#') (none ['#'] (by simp))
      · obtain ⟨rfl, _⟩ := List.append_inj' same rfl
        exact ⟨fits, matched, matchSegments_hash [] _⟩

/-- `filter_matches` is the matching of MQTT 4.7 on every accepted filter: level by
level without `#`, and on the first levels with a final `#`. -/
theorem filterMatches_eq_true_iff {filter : String}
    (accepted : validateSubscribeFilter filter = ok ()) (topic : String) :
    filterMatches filter (segments topic) = true ↔
      '#' ∉ filter.toList ∧ LevelsMatch (segments filter) (segments topic) ∨
        ∃ parents, segments filter = parents ++ [['#']] ∧
          parents.length ≤ (segments topic).length ∧
          LevelsMatch parents ((segments topic).take parents.length) := by
  rw [validateSubscribeFilter_eq, lengthChecked_eq_ok_iff] at accepted
  have hashFree : '#' ∉ filter.toList ↔ ∀ level ∈ segments filter, '#' ∉ level := by
    rw [← Split.mem_splitOn_iff (show '#' ≠ '/' by decide)]
    simp only [not_exists, not_and, segments]
  rw [filterMatches, matchSegments_iff_covers accepted.2.2, Covers, hashFree]

/-- The parent level is matched by a filter that ends in `#`. -/
theorem filterMatches_eq_true_iff_parent :
    validateSubscribeFilter "a/#" = ok () ∧ filterMatches "a/#" (segments "a") = true := by
  refine ⟨by decide +kernel, (filterMatches_eq_true_iff (by decide +kernel) "a").mpr (.inr ?_)⟩
  exact ⟨[['a']], by decide +kernel, by decide +kernel, .cons (.inr (by decide +kernel)) .nil⟩

end HotaruMqtt.Topic
