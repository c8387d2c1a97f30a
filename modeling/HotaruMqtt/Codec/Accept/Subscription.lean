import HotaruMqtt.Codec.Decode
import HotaruMqtt.Codec.Encode
import HotaruMqtt.Framing.Entries

/-!
# What the subscription parsers accept

SUBSCRIBE, SUBACK, UNSUBSCRIBE and UNSUBACK bodies are accepted exactly when
they are the body the encoder writes for the packet returned.
-/

namespace HotaruMqtt.Codec

open Exec Exec.Outcome Framing

/-- A string field that fits its two-byte length. -/
def FitsField (bytes : Bytes) : Prop :=
  bytes.length ≤ maxFieldLength

instance (bytes : Bytes) : Decidable (FitsField bytes) :=
  inferInstanceAs (Decidable (_ ≤ _))

/-- A packet id and then entries: what the loop after the id accepts is the
whole body. -/
theorem idThenEntries_iff {α : Type} {body : Bytes}
    {pass : EntryState α → Outcome MqttError (Loop.Pass (EntryState α) (List α))}
    {bytes : α → Bytes} {fits : α → Prop} (entryLoop : EntryLoop body pass bytes fits)
    {id : PacketId} {cursor : Nat} {entries : List α} :
    (readU16 body 0 = ok (id, cursor) ∧
        Loop.exec pass (fun state => body.length - state.1) (cursor, []) = ok entries) ↔
      cursor = 2 ∧ body = toBeBytes id ++ entries.flatMap bytes ∧
        ∀ entry ∈ entries, fits entry := by
  rw [readU16_eq_ok_iff, entryLoop.exec_eq_ok_iff]
  constructor
  · rintro ⟨⟨rfl, idFound⟩, read, entriesEq, fit, found⟩
    rw [List.nil_append] at entriesEq
    subst entriesEq
    rw [found, List.drop_zero] at idFound
    exact ⟨rfl, idFound, fit⟩
  · rintro ⟨rfl, bodyEq, fit⟩
    have afterId : body.drop 2 = entries.flatMap bytes := by
      rw [bodyEq]
      rfl
    refine ⟨⟨rfl, ?_⟩, entries, rfl, fit, afterId⟩
    rw [List.drop_zero, afterId]
    exact bodyEq

/-! ## SUBSCRIBE -/

/-- One entry of a SUBSCRIBE body. -/
def subscriptionBytes (sub : TopicSubscription) : Bytes :=
  lengthPrefixed (asBytes sub.topic) ++ [sub.qos.asU8]

theorem writeSubscriptions_eq (out : Bytes) (subs : List TopicSubscription) :
    writeSubscriptions out subs = out ++ subs.flatMap subscriptionBytes := by
  induction subs generalizing out with
  | nil => simp [writeSubscriptions]
  | cons sub rest ih =>
      rw [writeSubscriptions, ih, List.flatMap_cons]
      simp [writeArcStr, subscriptionBytes]

theorem subscribePass_again_iff {body : Bytes} {cursor next : Nat}
    {entries nextEntries : List TopicSubscription} :
    subscribePass body (cursor, entries) = ok (.again (next, nextEntries)) ↔
      ∃ entry, nextEntries = entries ++ [entry] ∧ FitsField (asBytes entry.topic) ∧
        next = cursor + (subscriptionBytes entry).length ∧
        body.drop cursor = subscriptionBytes entry ++ body.drop next := by
  constructor
  · intro step
    simp only [subscribePass] at step
    split at step
    · obtain ⟨⟨topic, afterTopic⟩, topicRead, rest⟩ := bind_eq_ok_iff.mp step
      obtain ⟨fits, rfl, topicFound⟩ := readArcStr_eq_ok_iff.mp topicRead
      dsimp only at rest
      split at rest
      · contradiction
      · rename_i inside
        rw [Slice.index_of_lt (by omega), ok_bind] at rest
        obtain ⟨qos, qosRead, last⟩ := bind_eq_ok_iff.mp rest
        rw [okOr_eq_ok_iff, QoS.fromU8_eq_some_iff] at qosRead
        simp only [ok.injEq, Loop.Pass.again.injEq, Prod.mk.injEq] at last
        obtain ⟨rfl, rfl⟩ := last
        refine ⟨⟨topic, qos⟩, rfl, fits, ?_, ?_⟩
        · simp [subscriptionBytes]
          omega
        · rw [topicFound, List.drop_eq_getElem_cons (by omega), qosRead]
          simp [subscriptionBytes]
    · simp at step
  · rintro ⟨⟨topic, qos⟩, rfl, fits, rfl, found⟩
    have size : (subscriptionBytes ⟨topic, qos⟩).length = 2 + (asBytes topic).length + 1 := by
      simp [subscriptionBytes]
    have lengths := congrArg List.length found
    simp only [List.length_drop, List.length_append, size] at lengths
    have afterTopic : body.drop (cursor + 2 + (asBytes topic).length) =
        qos.asU8 :: body.drop (cursor + (subscriptionBytes ⟨topic, qos⟩).length) := by
      rw [Nat.add_assoc, ← List.drop_drop, found, subscriptionBytes]
      rw [List.append_assoc, ← length_lengthPrefixed, List.drop_left]
      rfl
    have topicRead : readArcStr body cursor =
        ok (topic, cursor + 2 + (asBytes topic).length) := by
      rw [readArcStr_eq_ok_iff]
      refine ⟨fits, rfl, ?_⟩
      rw [afterTopic, found, subscriptionBytes, List.append_assoc]
      rfl
    have qosIndex : Slice.index body (cursor + 2 + (asBytes topic).length) =
        (ok qos.asU8 : Outcome MqttError UInt8) := by
      rw [Slice.index_eq_ok_iff, ← List.head?_drop, afterTopic]
      rfl
    simp only [subscribePass]
    rw [if_pos (by omega), topicRead, ok_bind]
    dsimp only
    rw [if_neg (by omega), qosIndex, ok_bind, QoS.fromU8_eq_some_iff.mpr rfl]
    simp only [okOr_some, ok_bind, size, Nat.add_assoc]

theorem subscribePass_leave_iff {body : Bytes} {cursor : Nat}
    {entries result : List TopicSubscription} :
    subscribePass body (cursor, entries) = ok (.leave result) ↔
      body.length ≤ cursor ∧ result = entries := by
  apply EntryLoop.leave_iff_of_guard
  intro left leaves
  obtain ⟨⟨topic, afterTopic⟩, -, rest⟩ := bind_eq_ok_iff.mp leaves
  dsimp only at rest
  split at rest
  · contradiction
  · obtain ⟨code, -, rest⟩ := bind_eq_ok_iff.mp rest
    obtain ⟨qos, -, rest⟩ := bind_eq_ok_iff.mp rest
    simp at rest

theorem only_subscribePass (body : Bytes) (state : Nat × List TopicSubscription) :
    (subscribePass body state).Only MqttError.IsWire := by
  obtain ⟨cursor, entries⟩ := state
  simp only [subscribePass]
  split
  · apply (only_readArcStr body cursor).bind
    rintro ⟨topic, afterTopic⟩ -
    dsimp only
    split
    · exact only_err trivial
    · rename_i inside
      apply (Slice.only_index (by omega)).bind
      intro code _
      apply (only_okOr trivial _).bind
      intro qos _
      exact only_ok _
  · exact only_ok _

/-- The SUBSCRIBE loop reads subscription entries. -/
theorem subscribe_entryLoop (body : Bytes) :
    EntryLoop body (subscribePass body) subscriptionBytes
      fun sub => FitsField (asBytes sub.topic) where
  again_iff := subscribePass_again_iff
  leave_iff := subscribePass_leave_iff
  nonempty := by
    intro sub
    simp [subscriptionBytes]

/-- A SUBSCRIBE body is accepted exactly when it is the body of the packet
returned, which names at least one filter. -/
theorem parseSubscribe_eq_ok_iff {body : Bytes} {packet : Packet} :
    parseSubscribe body = ok packet ↔
      ∃ s : SubscribePacket, packet = .subscribe s ∧ body = subscribeBody s ∧
        s.subscriptions ≠ [] ∧
        ∀ sub ∈ s.subscriptions, FitsField (asBytes sub.topic) := by
  constructor
  · intro parsed
    unfold parseSubscribe at parsed
    split at parsed
    · contradiction
    · rename_i long
      obtain ⟨⟨packetId, cursor⟩, idRead, rest⟩ := bind_eq_ok_iff.mp parsed
      obtain ⟨subs, looped, packetEq⟩ := bind_eq_ok_iff.mp rest
      obtain ⟨-, bodyEq, fit⟩ := (idThenEntries_iff (subscribe_entryLoop body)).mp ⟨idRead, looped⟩
      cases packetEq
      refine ⟨⟨packetId, subs⟩, rfl, ?_, ?_, fit⟩
      · rw [subscribeBody, writeSubscriptions_eq]
        exact bodyEq
      · rintro rfl
        rw [bodyEq] at long
        simp at long
  · rintro ⟨⟨packetId, subs⟩, rfl, rfl, nonempty, fit⟩
    set body := subscribeBody ⟨packetId, subs⟩ with bodyEq
    rw [subscribeBody, writeSubscriptions_eq] at bodyEq
    have long : ¬ body.length < 5 := by
      obtain ⟨sub, rest, rfl⟩ := List.exists_cons_of_ne_nil nonempty
      rw [bodyEq]
      simp [subscriptionBytes]
      omega
    obtain ⟨idRead, looped⟩ := (idThenEntries_iff (subscribe_entryLoop body)).mpr ⟨rfl, bodyEq, fit⟩
    rw [parseSubscribe, if_neg long, idRead, ok_bind]
    dsimp only
    rw [subscribeLoop, looped]
    rfl

/-! ## UNSUBSCRIBE -/

/-- One entry of an UNSUBSCRIBE body. -/
def topicBytes (topic : String) : Bytes :=
  lengthPrefixed (asBytes topic)

theorem writeTopics_eq (out : Bytes) (topics : List String) :
    writeTopics out topics = out ++ topics.flatMap topicBytes := by
  induction topics generalizing out with
  | nil => simp [writeTopics]
  | cons topic rest ih =>
      rw [writeTopics, ih, List.flatMap_cons]
      simp [writeArcStr, topicBytes]

theorem unsubscribePass_again_iff {body : Bytes} {cursor next : Nat}
    {entries nextEntries : List String} :
    unsubscribePass body (cursor, entries) = ok (.again (next, nextEntries)) ↔
      ∃ entry, nextEntries = entries ++ [entry] ∧ FitsField (asBytes entry) ∧
        next = cursor + (topicBytes entry).length ∧
        body.drop cursor = topicBytes entry ++ body.drop next := by
  constructor
  · intro step
    simp only [unsubscribePass] at step
    split at step
    · obtain ⟨⟨topic, afterTopic⟩, topicRead, last⟩ := bind_eq_ok_iff.mp step
      obtain ⟨fits, rfl, topicFound⟩ := readArcStr_eq_ok_iff.mp topicRead
      simp only [ok.injEq, Loop.Pass.again.injEq, Prod.mk.injEq] at last
      obtain ⟨rfl, rfl⟩ := last
      refine ⟨topic, rfl, fits, ?_, topicFound⟩
      rw [topicBytes, length_lengthPrefixed, Nat.add_assoc]
    · simp at step
  · rintro ⟨topic, rfl, fits, rfl, found⟩
    have lengths := congrArg List.length found
    simp only [List.length_drop, List.length_append, topicBytes,
      length_lengthPrefixed] at lengths
    have topicRead : readArcStr body cursor =
        ok (topic, cursor + (topicBytes topic).length) := by
      rw [readArcStr_eq_ok_iff]
      refine ⟨fits, ?_, found⟩
      rw [topicBytes, length_lengthPrefixed, Nat.add_assoc]
    simp only [unsubscribePass]
    rw [if_pos (by omega), topicRead, ok_bind]

theorem unsubscribePass_leave_iff {body : Bytes} {cursor : Nat}
    {entries result : List String} :
    unsubscribePass body (cursor, entries) = ok (.leave result) ↔
      body.length ≤ cursor ∧ result = entries := by
  apply EntryLoop.leave_iff_of_guard
  intro left leaves
  obtain ⟨⟨topic, afterTopic⟩, -, last⟩ := bind_eq_ok_iff.mp leaves
  simp at last

theorem only_unsubscribePass (body : Bytes) (state : Nat × List String) :
    (unsubscribePass body state).Only MqttError.IsWire := by
  obtain ⟨cursor, entries⟩ := state
  simp only [unsubscribePass]
  split
  · apply (only_readArcStr body cursor).bind
    rintro ⟨topic, afterTopic⟩ -
    exact only_ok _
  · exact only_ok _

/-- The UNSUBSCRIBE loop reads topic filters. -/
theorem unsubscribe_entryLoop (body : Bytes) :
    EntryLoop body (unsubscribePass body) topicBytes
      fun topic => FitsField (asBytes topic) where
  again_iff := unsubscribePass_again_iff
  leave_iff := unsubscribePass_leave_iff
  nonempty := by
    intro topic
    rw [topicBytes, length_lengthPrefixed]
    omega

/-- An UNSUBSCRIBE body is accepted exactly when it is the body of the packet
returned, which names at least one filter. -/
theorem parseUnsubscribe_eq_ok_iff {body : Bytes} {packet : Packet} :
    parseUnsubscribe body = ok packet ↔
      ∃ u : UnsubscribePacket, packet = .unsubscribe u ∧ body = unsubscribeBody u ∧
        u.topics ≠ [] ∧ ∀ topic ∈ u.topics, FitsField (asBytes topic) := by
  constructor
  · intro parsed
    unfold parseUnsubscribe at parsed
    split at parsed
    · contradiction
    · rename_i long
      obtain ⟨⟨packetId, cursor⟩, idRead, rest⟩ := bind_eq_ok_iff.mp parsed
      obtain ⟨topics, looped, packetEq⟩ := bind_eq_ok_iff.mp rest
      obtain ⟨-, bodyEq, fit⟩ :=
        (idThenEntries_iff (unsubscribe_entryLoop body)).mp ⟨idRead, looped⟩
      cases packetEq
      refine ⟨⟨packetId, topics⟩, rfl, ?_, ?_, fit⟩
      · rw [unsubscribeBody, writeTopics_eq]
        exact bodyEq
      · rintro rfl
        rw [bodyEq] at long
        simp at long
  · rintro ⟨⟨packetId, topics⟩, rfl, rfl, nonempty, fit⟩
    set body := unsubscribeBody ⟨packetId, topics⟩ with bodyEq
    rw [unsubscribeBody, writeTopics_eq] at bodyEq
    have long : ¬ body.length < 4 := by
      obtain ⟨topic, rest, rfl⟩ := List.exists_cons_of_ne_nil nonempty
      rw [bodyEq]
      simp [topicBytes]
      omega
    obtain ⟨idRead, looped⟩ :=
      (idThenEntries_iff (unsubscribe_entryLoop body)).mpr ⟨rfl, bodyEq, fit⟩
    rw [parseUnsubscribe, if_neg long, idRead, ok_bind]
    dsimp only
    rw [unsubscribeLoop, looped]
    rfl

/-! ## SUBACK and UNSUBACK -/

/-- Two bytes are the bytes of one packet id. -/
theorem exists_eq_toBeBytes {bytes : Bytes} (two : bytes.length = 2) :
    ∃ id : PacketId, bytes = toBeBytes id := by
  obtain ⟨high, low, rfl⟩ := List.length_eq_two.mp two
  exact ⟨fromBeBytes high low, (toBeBytes_fromBeBytes high low).symm⟩

/-- Reading back the two bytes of a packet id. -/
theorem index_toBeBytes (id : PacketId) (rest : Bytes) :
    (Slice.index (toBeBytes id ++ rest) 0 : Outcome MqttError UInt8) =
        ok (id >>> 8).toUInt8 ∧
      (Slice.index (toBeBytes id ++ rest) 1 : Outcome MqttError UInt8) =
        ok id.toUInt8 :=
  ⟨Slice.index_eq_ok_iff.mpr rfl, Slice.index_eq_ok_iff.mpr rfl⟩

theorem map_fromU8_eq_iff {codes : Bytes} {answers : List SubackCode} :
    (codes.map fun code =>
        okOr (MqttError.codec (.invalidPacketType code)) (SubackCode.fromU8 code)) =
        answers.map ok ↔
      codes = answers.map SubackCode.asU8 := by
  induction codes generalizing answers with
  | nil => cases answers <;> simp
  | cons code rest ih =>
      cases answers with
      | nil => simp
      | cons answer others =>
          simp only [List.map_cons, List.cons.injEq, ih, okOr_eq_ok_iff,
            SubackCode.fromU8_eq_some_iff]

/-- A SUBACK body is accepted exactly when it is the body of the packet
returned, which carries at least one return code. -/
theorem parseSuback_eq_ok_iff {body : Bytes} {packet : Packet} :
    parseSuback body = ok packet ↔
      ∃ s : SubackPacket, packet = .suback s ∧ body = subackBody s ∧
        s.returnCodes ≠ [] := by
  constructor
  · intro parsed
    unfold parseSuback at parsed
    split at parsed
    · contradiction
    · rename_i long
      obtain ⟨id, idBytes⟩ := exists_eq_toBeBytes
        (show (body.take 2).length = 2 by rw [List.length_take]; omega)
      have bodyEq : body = toBeBytes id ++ body.drop 2 := by
        rw [← idBytes, List.take_append_drop]
      obtain ⟨high, low⟩ := index_toBeBytes id (body.drop 2)
      rw [← bodyEq] at high low
      rw [high, ok_bind, low, ok_bind, Slice.rangeFrom_of_le (by omega), ok_bind,
        fromBeBytes_toBeBytes] at parsed
      obtain ⟨codes, collected, packetEq⟩ := bind_eq_ok_iff.mp parsed
      rw [collect_eq_ok_iff, map_fromU8_eq_iff] at collected
      cases packetEq
      refine ⟨⟨id, codes⟩, rfl, ?_, ?_⟩
      · rw [subackBody, ← collected]
        exact bodyEq
      · rintro rfl
        have lengths := congrArg List.length collected
        simp only [List.length_drop, List.map_nil, List.length_nil] at lengths
        omega
  · rintro ⟨⟨id, codes⟩, rfl, rfl, nonempty⟩
    obtain ⟨high, low⟩ := index_toBeBytes id (codes.map SubackCode.asU8)
    have long : ¬ (subackBody ⟨id, codes⟩).length < 3 := by
      have positive : 0 < codes.length := List.length_pos_of_ne_nil nonempty
      simp only [subackBody, List.length_append, length_toBeBytes, List.length_map]
      omega
    have collected : collect ((codes.map SubackCode.asU8).map fun code =>
        okOr (MqttError.codec (.invalidPacketType code)) (SubackCode.fromU8 code)) =
          ok codes := by
      rw [collect_eq_ok_iff, map_fromU8_eq_iff]
    rw [parseSuback, if_neg long, subackBody, high, ok_bind, low, ok_bind,
      Slice.rangeFrom_of_le (by simp), ok_bind, fromBeBytes_toBeBytes]
    change (collect ((codes.map SubackCode.asU8).map _) >>= _) = _
    rw [collected]
    rfl

theorem parseUnsuback_eq_ok_iff {body : Bytes} {packet : Packet} :
    parseUnsuback body.length body = ok packet ↔
      ∃ id, packet = .unsuback id ∧ body = toBeBytes id := by
  constructor
  · intro parsed
    unfold parseUnsuback at parsed
    split at parsed
    · contradiction
    · rename_i two
      obtain ⟨id, rfl⟩ := exists_eq_toBeBytes (not_not.mp two)
      obtain ⟨high, low⟩ := index_toBeBytes id []
      rw [List.append_nil] at high low
      rw [high, ok_bind, low, ok_bind, fromBeBytes_toBeBytes] at parsed
      cases parsed
      exact ⟨id, rfl, rfl⟩
  · rintro ⟨id, rfl, rfl⟩
    obtain ⟨high, low⟩ := index_toBeBytes id []
    rw [List.append_nil] at high low
    rw [parseUnsuback, if_neg (by simp), high, ok_bind, low, ok_bind,
      fromBeBytes_toBeBytes]

end HotaruMqtt.Codec
