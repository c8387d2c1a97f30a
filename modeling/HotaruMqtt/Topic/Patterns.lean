import HotaruMqtt.Topic.Grammar

/-!
# Filters as path patterns

`parse_subscribe_filter` and `parse_publish_topic` check a text as the validators do and
turn each segment into a pattern of the router; `path_to_wire_filter` writes patterns
back.  The parsers are the validators followed by a translation of the segments, so a
validator and its parser give the same verdict on every text, and parsing inverts
writing on the patterns that come from some text.
-/

namespace HotaruMqtt.Topic

open Exec Exec.Outcome

/-- `PathPattern` of the router. -/
inductive PathPattern
  | literal (text : String)
  | any
  | regex (pattern : String)
  | anyPath
  deriving DecidableEq, Repr

/-! ## The functions -/

/-- The loop of `parse_subscribe_filter`. -/
def parseSegments (patterns : List PathPattern) :
    List (List Char) → Outcome MqttError (List PathPattern)
  | [] => ok patterns
  | segment :: rest =>
      if segment = ['+'] then
        parseSegments (patterns ++ [.any]) rest
      else if segment = ['#'] then
        if rest ≠ [] then
          err (.protocol .hashWildcardNotTerminal)
        else
          parseSegments (patterns ++ [.anyPath]) rest
      else if '+' ∈ segment ∨ '#' ∈ segment then
        err (.protocol .wildcardMixedWithLiteral)
      else
        parseSegments (patterns ++ [.literal (String.ofList segment)]) rest

/-- `parse_subscribe_filter`: the route pattern of a filter. -/
def parseSubscribeFilter (filter : String) : Outcome MqttError (List PathPattern) :=
  lengthChecked filter (parseSegments [] (segments filter))

/-- The loop of `parse_publish_topic`. -/
def parsePublishSegments (patterns : List PathPattern) :
    List (List Char) → Outcome MqttError (List PathPattern)
  | [] => ok patterns
  | segment :: rest =>
      if '+' ∈ segment ∨ '#' ∈ segment then
        err (.protocol .wildcardInPublishTopic)
      else
        parsePublishSegments (patterns ++ [.literal (String.ofList segment)]) rest

/-- `parse_publish_topic`: the route of a topic, all of it literal. -/
def parsePublishTopic (topic : String) : Outcome MqttError (List PathPattern) :=
  lengthChecked topic (parsePublishSegments [] (segments topic))

/-- How a pattern is written; a regular expression has no form of its own. -/
def PathPattern.wire : PathPattern → String
  | .literal text => text
  | .any | .regex _ => "+"
  | .anyPath => "#"

/-- A route pattern written as a filter. -/
def pathToWireFilter (path : List PathPattern) : String :=
  "/".intercalate (path.map PathPattern.wire)

/-! ## Parsing is validation and a translation -/

/-- The pattern of a segment of a filter. -/
def patternOf (segment : List Char) : PathPattern :=
  if segment = ['+'] then .any
  else if segment = ['#'] then .anyPath
  else .literal (String.ofList segment)

theorem parseSegments_eq (split : List (List Char)) (patterns : List PathPattern) :
    parseSegments patterns split =
      validateSegments split >>= fun _ => ok (patterns ++ split.map patternOf) := by
  induction split generalizing patterns with
  | nil => simp [parseSegments, validateSegments]
  | cons segment rest ih =>
      rw [parseSegments, validateSegments, List.map_cons, patternOf]
      split
      · rw [ih, List.append_assoc]
        rfl
      · split
        · split
          · rfl
          · rw [ih, List.append_assoc]
            rfl
        · split
          · rfl
          · rw [ih, List.append_assoc]
            rfl

theorem parsePublishSegments_eq (split : List (List Char)) (patterns : List PathPattern) :
    parsePublishSegments patterns split = validatePublishSegments split >>= fun _ =>
      ok (patterns ++ split.map fun segment => .literal (String.ofList segment)) := by
  induction split generalizing patterns with
  | nil => simp [parsePublishSegments, validatePublishSegments]
  | cons segment rest ih =>
      rw [parsePublishSegments, validatePublishSegments, List.map_cons]
      split
      · rfl
      · rw [ih, List.append_assoc]
        rfl

theorem parseSubscribeFilter_eq_ok {filter : String} {path : List PathPattern} :
    parseSubscribeFilter filter = ok path ↔
      validateSubscribeFilter filter = ok () ∧ path = (segments filter).map patternOf := by
  rw [parseSubscribeFilter, validateSubscribeFilter_eq, lengthChecked_eq_ok_iff,
    lengthChecked_eq_ok_iff, parseSegments_eq, bind_eq_ok_iff]
  constructor
  · rintro ⟨nonempty, short, _, valid, same⟩
    cases same
    exact ⟨⟨nonempty, short, valid⟩, rfl⟩
  · rintro ⟨⟨nonempty, short, valid⟩, rfl⟩
    exact ⟨nonempty, short, (), valid, rfl⟩

/-! ## The same verdict -/

/-- Both accept, or both refuse with the same violation. -/
def SameVerdict (checked : Outcome MqttError Unit)
    (parsed : Outcome MqttError (List PathPattern)) : Prop :=
  (checked = ok () ∧ ∃ path, parsed = ok path) ∨
    ∃ violation, checked = err (.protocol violation) ∧ parsed = err (.protocol violation)

/-- A loop that ends well or with a violation, followed by something that cannot fail. -/
theorem sameVerdict_bind {checked : Outcome MqttError Unit} (path : List PathPattern)
    (ends : checked = ok () ∨ ∃ violation, checked = err (.protocol violation)) :
    SameVerdict checked (checked >>= fun _ => ok path) := by
  rcases ends with accepted | ⟨violation, refused⟩
  · rw [accepted]
    exact .inl ⟨rfl, path, rfl⟩
  · rw [refused]
    exact .inr ⟨violation, rfl, rfl⟩

theorem sameVerdict_lengthChecked {checked : Outcome MqttError Unit}
    {parsed : Outcome MqttError (List PathPattern)} (text : String)
    (same : SameVerdict checked parsed) :
    SameVerdict (lengthChecked text checked) (lengthChecked text parsed) := by
  unfold lengthChecked
  split
  · exact .inr ⟨_, rfl, rfl⟩
  · split
    · exact .inr ⟨_, rfl, rfl⟩
    · exact same

theorem validateSegments_ends (split : List (List Char)) :
    validateSegments split = ok () ∨
      ∃ violation, validateSegments split = err (.protocol violation) := by
  induction split with
  | nil => exact .inl rfl
  | cons segment rest ih =>
      rw [validateSegments]
      split
      · exact ih
      · split
        · split
          · exact .inr ⟨_, rfl⟩
          · exact ih
        · split
          · exact .inr ⟨_, rfl⟩
          · exact ih

theorem validatePublishSegments_ends (split : List (List Char)) :
    validatePublishSegments split = ok () ∨
      ∃ violation, validatePublishSegments split = err (.protocol violation) := by
  induction split with
  | nil => exact .inl rfl
  | cons segment rest ih =>
      rw [validatePublishSegments]
      split
      · exact .inr ⟨_, rfl⟩
      · exact ih

theorem patternOf_eq_literal {segment : List Char} (noPlus : '+' ∉ segment)
    (noHash : '#' ∉ segment) : patternOf segment = .literal (String.ofList segment) := by
  have notPlus : segment ≠ ['+'] := fun same => noPlus (same ▸ List.mem_singleton_self _)
  have notHash : segment ≠ ['#'] := fun same => noHash (same ▸ List.mem_singleton_self _)
  rw [patternOf, if_neg notPlus, if_neg notHash]

/-- A text that is accepted as a topic is accepted as a filter, with the same patterns. -/
theorem parseSubscribeFilter_of_parsePublishTopic {text : String} {path : List PathPattern}
    (parsed : parsePublishTopic text = ok path) :
    parseSubscribeFilter text = ok path ∧
      path = (segments text).map fun segment => .literal (String.ofList segment) := by
  rw [parsePublishTopic, lengthChecked_eq_ok_iff, parsePublishSegments_eq, bind_eq_ok_iff]
    at parsed
  obtain ⟨nonempty, short, _, literal, same⟩ := parsed
  rw [validatePublishSegments_eq_ok_iff] at literal
  cases same
  refine ⟨parseSubscribeFilter_eq_ok.mpr ⟨?_, ?_⟩, rfl⟩
  · rw [validateSubscribeFilter_eq, lengthChecked_eq_ok_iff, validateSegments_eq_ok_iff]
    refine ⟨nonempty, short, fun front segment rest split => ?_⟩
    obtain ⟨noPlus, noHash⟩ := literal segment (by simp [split])
    exact segmentValid_literal (not_or.mpr ⟨noPlus, noHash⟩) rest
  · refine List.map_congr_left fun segment listed => ?_
    exact (patternOf_eq_literal (literal segment listed).1 (literal segment listed).2).symm

/-- The validators agree with the parsers on every text, and a topic is a filter with
the same patterns, all of them literal. -/
theorem validators_agree_with_parsers (text : String) :
    SameVerdict (validateSubscribeFilter text) (parseSubscribeFilter text) ∧
      SameVerdict (validatePublishTopic text) (parsePublishTopic text) ∧
      ∀ path, parsePublishTopic text = ok path →
        parseSubscribeFilter text = ok path ∧
          ∀ pattern ∈ path, ∃ name, pattern = .literal name := by
  refine ⟨?_, ?_, fun path parsed => ?_⟩
  · rw [validateSubscribeFilter_eq, parseSubscribeFilter, parseSegments_eq]
    exact sameVerdict_lengthChecked text (sameVerdict_bind _ (validateSegments_ends _))
  · rw [validatePublishTopic_eq, parsePublishTopic, parsePublishSegments_eq]
    exact sameVerdict_lengthChecked text (sameVerdict_bind _ (validatePublishSegments_ends _))
  · obtain ⟨accepted, literal⟩ := parseSubscribeFilter_of_parsePublishTopic parsed
    refine ⟨accepted, fun pattern listed => ?_⟩
    rw [literal] at listed
    obtain ⟨segment, _, rfl⟩ := List.mem_map.mp listed
    exact ⟨_, rfl⟩

/-! ## Writing and parsing -/

/-- The paths that a filter can be written as. -/
structure WirePath (path : List PathPattern) : Prop where
  nonempty : path ≠ []
  noRegex : ∀ pattern, .regex pattern ∉ path
  literals : ∀ text, .literal text ∈ path →
    '/' ∉ text.toList ∧ '+' ∉ text.toList ∧ '#' ∉ text.toList
  anyPathLast : ∀ front back, path = front ++ .anyPath :: back → back = []
  size : 1 ≤ (pathToWireFilter path).utf8ByteSize ∧
    (pathToWireFilter path).utf8ByteSize ≤ maxTopicLen

theorem wire_patternOf (segment : List Char) :
    (patternOf segment).wire = String.ofList segment := by
  unfold patternOf
  split
  · rename_i same
    rw [same]
    rfl
  · split
    · rename_i same
      rw [same]
      rfl
    · rfl

/-- Writing puts the segments of a filter together again. -/
theorem pathToWireFilter_patternOf (filter : String) :
    pathToWireFilter ((segments filter).map patternOf) = filter := by
  apply String.toList_injective
  rw [pathToWireFilter, String.toList_intercalate, List.map_map, List.map_map]
  have written : (String.toList ∘ PathPattern.wire) ∘ patternOf = id := by
    funext segment
    simp [wire_patternOf]
  rw [written, List.map_id]
  exact List.intercalate_splitOn '/'

theorem patternOf_ne_regex (segment : List Char) (pattern : String) :
    patternOf segment ≠ .regex pattern := by
  unfold patternOf
  split
  · simp
  · split <;> simp

theorem eq_of_patternOf_eq_literal {segment : List Char} {text : String}
    (same : patternOf segment = .literal text) :
    segment ≠ ['+'] ∧ segment ≠ ['#'] ∧ text.toList = segment := by
  unfold patternOf at same
  split at same
  · cases same
  · split at same
    · cases same
    · cases same
      exact ⟨‹_›, ‹_›, String.toList_ofList⟩

theorem eq_of_patternOf_eq_anyPath {segment : List Char} (same : patternOf segment = .anyPath) :
    segment = ['#'] := by
  unfold patternOf at same
  split at same
  · cases same
  · split at same
    · assumption
    · cases same

/-- What an accepted filter is parsed to is the path of a filter. -/
theorem wirePath_of_accepted {filter : String}
    (accepted : validateSubscribeFilter filter = ok ()) :
    WirePath ((segments filter).map patternOf) := by
  rw [validateSubscribeFilter_eq, lengthChecked_eq_ok_iff, validateSegments_eq_ok_iff] at accepted
  obtain ⟨nonempty, short, valid⟩ := accepted
  constructor
  · simp [segments]
  · intro pattern listed
    obtain ⟨segment, _, same⟩ := List.mem_map.mp listed
    exact patternOf_ne_regex segment pattern same
  · intro text listed
    obtain ⟨segment, segmentListed, same⟩ := List.mem_map.mp listed
    obtain ⟨notPlus, notHash, rfl⟩ := eq_of_patternOf_eq_literal same
    obtain ⟨front, rest, split⟩ := List.append_of_mem segmentListed
    have here := valid front _ rest split
    exact ⟨Split.sep_not_mem segmentListed, fun found => notPlus (here.plus found),
      fun found => notHash (here.hash found).1⟩
  · intro front back split
    obtain ⟨before, after, parts, rfl, rest⟩ := List.map_eq_append_iff.mp split
    obtain ⟨segment, later, rfl, same, rfl⟩ := List.map_eq_cons_iff.mp rest
    have hash := eq_of_patternOf_eq_anyPath same
    have last := ((valid before segment later parts).hash (by simp [hash])).2
    rw [last, List.map_nil]
  · rw [pathToWireFilter_patternOf]
    refine ⟨Nat.one_le_iff_ne_zero.mpr fun zero => nonempty ?_, short⟩
    exact String.utf8ByteSize_eq_zero_iff.mp zero

namespace WirePath

variable {path : List PathPattern}

theorem segments_eq (wirePath : WirePath path) :
    segments (pathToWireFilter path) = path.map fun pattern => pattern.wire.toList := by
  rw [segments, pathToWireFilter, String.toList_intercalate, List.map_map]
  refine List.splitOn_intercalate '/' (fun segment listed => ?_) (by simpa using wirePath.nonempty)
  obtain ⟨pattern, patternListed, rfl⟩ := List.mem_map.mp listed
  cases pattern with
  | literal text => exact (wirePath.literals text patternListed).1
  | any | regex _ | anyPath => simp [PathPattern.wire]

theorem patternOf_wire (wirePath : WirePath path) {pattern : PathPattern}
    (listed : pattern ∈ path) : patternOf pattern.wire.toList = pattern := by
  cases pattern with
  | literal text =>
      obtain ⟨_, noPlus, noHash⟩ := wirePath.literals text listed
      rw [PathPattern.wire, patternOf_eq_literal noPlus noHash, String.ofList_toList]
  | regex pattern => exact absurd listed (wirePath.noRegex pattern)
  | any | anyPath => rfl

theorem accepted (wirePath : WirePath path) :
    validateSubscribeFilter (pathToWireFilter path) = ok () := by
  rw [validateSubscribeFilter_eq, lengthChecked_eq_ok_iff, validateSegments_eq_ok_iff,
    wirePath.segments_eq]
  refine ⟨fun empty => ?_, wirePath.size.2, fun front segment rest split => ?_⟩
  · have size := wirePath.size.1
    rw [empty] at size
    exact absurd size (by decide)
  · obtain ⟨before, after, rfl, _, shown⟩ := List.map_eq_append_iff.mp split
    obtain ⟨pattern, later, rfl, rfl, rfl⟩ := List.map_eq_cons_iff.mp shown
    cases pattern with
    | literal text =>
        obtain ⟨_, noPlus, noHash⟩ := wirePath.literals text (by simp)
        exact segmentValid_literal (not_or.mpr ⟨noPlus, noHash⟩) _
    | regex pattern => exact absurd (by simp) (wirePath.noRegex pattern)
    | any => exact segmentValid_plus _
    | anyPath =>
        cases wirePath.anyPathLast before later rfl
        exact segmentValid_hash

end WirePath

/-- Filters and path patterns are inverse: a text is parsed to a path exactly when the
path is that of a filter and is written as the text. -/
theorem parseSubscribeFilter_eq_ok_iff {filter : String} {path : List PathPattern} :
    parseSubscribeFilter filter = ok path ↔ WirePath path ∧ pathToWireFilter path = filter := by
  rw [parseSubscribeFilter_eq_ok]
  constructor
  · rintro ⟨accepted, rfl⟩
    exact ⟨wirePath_of_accepted accepted, pathToWireFilter_patternOf filter⟩
  · rintro ⟨wirePath, rfl⟩
    refine ⟨wirePath.accepted, ?_⟩
    rw [wirePath.segments_eq, List.map_map]
    have fixed : ∀ pattern ∈ path,
        (patternOf ∘ fun pattern => pattern.wire.toList) pattern = id pattern :=
      fun pattern listed => wirePath.patternOf_wire listed
    rw [List.map_congr_left fixed, List.map_id]

/-- Empty levels are levels. -/
example : parseSubscribeFilter "/+//#" =
    ok [.literal "", .any, .literal "", .anyPath] := by
  decide +kernel

end HotaruMqtt.Topic
