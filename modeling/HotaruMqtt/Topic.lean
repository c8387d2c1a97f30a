import HotaruMqtt.Packet
import HotaruMqtt.Exec.Split

/-!
# Topics and filters

The validation of SUBSCRIBE filters and of PUBLISH topics in `topic.rs`, and the
matching loop of `broker.rs`.  A segment is the text between two slashes, as a list of
characters.
-/

namespace HotaruMqtt.Topic

open Exec Exec.Outcome

/-- `MAX_TOPIC_LEN`, in bytes. -/
def maxTopicLen : Nat := 65535

/-- `text.split('/')`; the empty text has one empty segment. -/
def segments (text : String) : List (List Char) :=
  text.toList.splitOn '/'

/-- The loop of `validate_subscribe_filter`; a segment is the last one when none
is left after it. -/
def validateSegments : List (List Char) → Outcome MqttError Unit
  | [] => ok ()
  | segment :: rest =>
      if segment = ['+'] then
        validateSegments rest
      else if segment = ['#'] then
        if rest ≠ [] then
          err (.protocol .hashWildcardNotTerminal)
        else
          validateSegments rest
      else if '+' ∈ segment ∨ '#' ∈ segment then
        err (.protocol .wildcardMixedWithLiteral)
      else
        validateSegments rest

/-- `validate_subscribe_filter`: the length is checked first, then the segments from left to
right. -/
def validateSubscribeFilter (filter : String) : Outcome MqttError Unit :=
  if filter.isEmpty then
    err (.protocol .emptyTopic)
  else if filter.utf8ByteSize > maxTopicLen then
    err (.protocol .topicTooLong)
  else
    validateSegments (segments filter)

/-- The loop of `validate_publish_topic`. -/
def validatePublishSegments : List (List Char) → Outcome MqttError Unit
  | [] => ok ()
  | segment :: rest =>
      if '+' ∈ segment ∨ '#' ∈ segment then
        err (.protocol .wildcardInPublishTopic)
      else
        validatePublishSegments rest

/-- `validate_publish_topic`: as for a filter, but no segment may hold a wildcard. -/
def validatePublishTopic (topic : String) : Outcome MqttError Unit :=
  if topic.isEmpty then
    err (.protocol .emptyTopic)
  else if topic.utf8ByteSize > maxTopicLen then
    err (.protocol .topicTooLong)
  else
    validatePublishSegments (segments topic)

/-- The two checks that all functions of `topic.rs` begin with. -/
def lengthChecked {α : Type} (text : String) (rest : Outcome MqttError α) :
    Outcome MqttError α :=
  if text.isEmpty then
    err (.protocol .emptyTopic)
  else if text.utf8ByteSize > maxTopicLen then
    err (.protocol .topicTooLong)
  else
    rest

theorem lengthChecked_eq_ok_iff {α : Type} {text : String} {rest : Outcome MqttError α}
    {value : α} :
    lengthChecked text rest = ok value ↔
      text ≠ "" ∧ text.utf8ByteSize ≤ maxTopicLen ∧ rest = ok value := by
  unfold lengthChecked
  split
  · rename_i empty
    simp [String.isEmpty_iff.mp empty]
  · rename_i filled
    have nonempty : text ≠ "" := fun same => filled (String.isEmpty_iff.mpr same)
    split
    · rename_i long
      simp only [reduceCtorEq, false_iff]
      rintro ⟨_, short, _⟩
      exact absurd short (Nat.not_le_of_gt long)
    · rename_i short
      exact ⟨fun accepted => ⟨nonempty, Nat.le_of_not_gt short, accepted⟩, fun all => all.2.2⟩

theorem validateSubscribeFilter_eq (filter : String) :
    validateSubscribeFilter filter = lengthChecked filter (validateSegments (segments filter)) :=
  rfl

theorem validatePublishTopic_eq (topic : String) :
    validatePublishTopic topic = lengthChecked topic (validatePublishSegments (segments topic)) :=
  rfl

theorem validatePublishSegments_eq_ok_iff {split : List (List Char)} :
    validatePublishSegments split = ok () ↔ ∀ segment ∈ split, '+' ∉ segment ∧ '#' ∉ segment := by
  induction split with
  | nil => simp [validatePublishSegments]
  | cons segment rest ih =>
      unfold validatePublishSegments
      split
      · rename_i wild
        simp only [reduceCtorEq, List.mem_cons, forall_eq_or_imp, false_iff]
        rintro ⟨⟨noPlus, noHash⟩, _⟩
        exact wild.elim noPlus noHash
      · rename_i literal
        rw [ih, List.forall_mem_cons, ← not_or]
        exact (and_iff_right literal).symm

/-- The loop of `filter_matches`, over what is left of the filter and of the
topic. -/
def matchSegments : List (List Char) → List (List Char) → Bool
  | [], topic => topic.isEmpty
  | segment :: filter, topic =>
      if segment = ['#'] then
        true
      else if segment = ['+'] then
        match topic with
        | [] => false
        | _ :: topic => matchSegments filter topic
      else
        match topic with
        | [] => false
        | name :: topic => if segment ≠ name then false else matchSegments filter topic

/-- `filter_matches`: the filter is split at each call, the topic once for all filters. -/
def filterMatches (filter : String) (topicSegments : List (List Char)) : Bool :=
  matchSegments (segments filter) topicSegments

/-- The filter matches the topic as a whole. -/
def Matches (filter topic : String) : Prop :=
  filterMatches filter (segments topic) = true

instance (filter topic : String) : Decidable (Matches filter topic) :=
  inferInstanceAs (Decidable (filterMatches filter (segments topic) = true))

end HotaruMqtt.Topic
