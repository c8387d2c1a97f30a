import HotaruMqtt.Broker.Subscriptions
import HotaruMqtt.Topic.Matching

/-!
# Filters that begin with a wildcard

MQTT 4.7.2 keeps topics that begin with `$` from filters that begin with a wildcard.
`filter_matches` has no such exception: a leading `+` matches the first level of any
topic, and a leading `#` matches every topic.  So the subscriber of such filters is
spared a topic only where the levels after a leading `+` do not match.
-/

namespace HotaruMqtt.Broker

open Exec Exec.Outcome Topic

/-- The first level of a filter is a wildcard. -/
def StartsWild (filter : String) : Prop :=
  (segments filter).head? = some ['+'] ∨ (segments filter).head? = some ['#']

/-- The filter begins with `+`, and its other levels do not cover those of the topic. -/
def SparesTopic (filter topic : String) : Prop :=
  ∃ rest, segments filter = ['+'] :: rest ∧ ¬ Covers rest (segments topic).tail

/-- What an accepted filter that begins with a wildcard does not match. -/
theorem not_matches_iff_of_startsWild {filter topic : String}
    (accepted : validateSubscribeFilter filter = ok ()) (wild : StartsWild filter) :
    ¬ Matches filter topic ↔ SparesTopic filter topic := by
  rw [validateSubscribeFilter_eq, lengthChecked_eq_ok_iff] at accepted
  obtain ⟨first, rest, split⟩ := Split.exists_first '/' filter.toList
  obtain ⟨name, names, topicSplit⟩ := Split.exists_first '/' topic.toList
  have valid := accepted.2.2
  rw [segments, split] at valid
  rw [Matches, filterMatches, SparesTopic, segments, segments, split, topicSplit]
  rcases wild with plus | hash
  · rw [segments, split, List.head?_cons, Option.some.injEq] at plus
    subst plus
    have tailValid : validateSegments rest = ok () := by
      rw [validateSegments, if_pos rfl] at valid
      exact valid
    have passes : matchSegments (['+'] :: rest) (name :: names) = true ↔ Covers rest names := by
      rw [matchSegments_cons (by decide), ← matchSegments_iff_covers tailValid]
      simp [LevelMatches]
    rw [passes]
    simp
  · rw [segments, split, List.head?_cons, Option.some.injEq] at hash
    subst hash
    simp [matchSegments_hash]

namespace SubscriptionTree

/-- For any topic, one that begins with `$` included: an accepted filter that begins
with a wildcard does not match it exactly when it begins with `+` and does not cover the
topic behind the first level, and a client that holds only such filters is left out of
the snapshot exactly when that is so for each of them. -/
theorem wildcards_hide_topic_iff {tree : SubscriptionTree} {client : ClientId} (topic : String)
    (held : ∀ filter qos, tree.granted filter client = some qos →
      validateSubscribeFilter filter = ok () ∧ StartsWild filter) :
    (∀ filter, validateSubscribeFilter filter = ok () → StartsWild filter →
      (filterMatches filter (segments topic) = false ↔ SparesTopic filter topic)) ∧
    ((∀ qos, (client, qos) ∉ tree.matching topic) ↔
      ∀ filter qos, tree.granted filter client = some qos → SparesTopic filter topic) := by
  constructor
  · intro filter accepted wild
    rw [← not_matches_iff_of_startsWild accepted wild, Matches, Bool.not_eq_true]
  · simp only [mem_matching, not_exists, not_and]
    constructor
    · intro hidden filter qos granted
      obtain ⟨accepted, wild⟩ := held filter qos granted
      exact (not_matches_iff_of_startsWild accepted wild).mp
        fun matched => hidden qos filter matched granted
    · intro spared qos filter matched granted
      obtain ⟨accepted, wild⟩ := held filter qos granted
      exact (not_matches_iff_of_startsWild accepted wild).mpr (spared filter qos granted) matched

/-- A subscriber of `+/x` is spared `$SYS/y`. -/
theorem wildcards_hide_topic_iff_plus :
    validateSubscribeFilter "+/x" = ok () ∧ StartsWild "+/x" ∧
      ∀ qos, ("c", qos) ∉ (new.subscribe "c" "+/x" .atMostOnce).matching "$SYS/y" := by
  have held : ∀ filter qos, (new.subscribe "c" "+/x" .atMostOnce).granted filter "c" = some qos →
      filter = "+/x" := by
    intro filter qos granted
    have parts : filter = "+/x" ∧ QoS.atMostOnce = qos := by simpa using granted
    exact parts.1
  have wild : validateSubscribeFilter "+/x" = ok () ∧ StartsWild "+/x" :=
    ⟨by decide +kernel, .inl (by decide +kernel)⟩
  refine ⟨wild.1, wild.2, ((wildcards_hide_topic_iff "$SYS/y" fun filter qos granted => ?_).2).mpr
    fun filter qos granted => ?_⟩
  · rw [held filter qos granted]
    exact wild
  · rw [held filter qos granted]
    exact (not_matches_iff_of_startsWild wild.1 wild.2).mp (by decide +kernel)

/-- A subscriber of `#` and one of `+/b` are listed for topics that begin with `$`. -/
theorem wildcards_expose_dollar_topics :
    validateSubscribeFilter "#" = ok () ∧ validateSubscribeFilter "+/b" = ok () ∧
      StartsWild "#" ∧ StartsWild "+/b" ∧
      ("c", QoS.atMostOnce) ∈ (new.subscribe "c" "#" .atMostOnce).matching "$SYS/a" ∧
      ("c", QoS.atMostOnce) ∈ (new.subscribe "c" "+/b" .atMostOnce).matching "$SYS/b" := by
  refine ⟨by decide +kernel, by decide +kernel, .inr (by decide +kernel), .inl (by decide +kernel),
    by decide +kernel, by decide +kernel⟩

end SubscriptionTree

end HotaruMqtt.Broker
