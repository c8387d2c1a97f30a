import HotaruMqtt.Codec.RoundTrip

/-!
# When the bytes that are written are sound

Only PUBLISH is validated before it is written.  The other kinds write whatever
they hold: a field of 65536 bytes gets the length 0, an empty list is written
as an empty list, and a body of any size gets a length field of any size.  The
packets for which the written bytes are nevertheless sound are described by
their own fields.
-/

namespace HotaruMqtt.Codec

open Exec Exec.Outcome

/-! ## Segments of a body -/

/-- A stretch of a body: bytes as they are, or a field behind its length. -/
inductive Segment
  | raw (bytes : Bytes)
  | field (content : Bytes)

namespace Segment

/-- The bytes of a segment. -/
def wire : Segment → Bytes
  | raw bytes => bytes
  | field content => lengthPrefixed content

end Segment

/-- The body of a packet, with its length-prefixed fields marked. -/
def segments : Packet → List Segment
  | .connect conn =>
      .raw (protocolHeader ++ connectFlags conn :: toBeBytes conn.keepAlive) ::
        .field (asBytes conn.clientId) ::
        (conn.will.elim [] (fun will =>
            [.field (asBytes will.topic), .field will.payload]) ++
          (conn.username.elim [] (fun username => [.field (asBytes username)]) ++
            conn.password.elim [] fun password => [.field password]))
  | .publish publish =>
      [.field (asBytes publish.topic),
        .raw ((wireId publish).elim [] toBeBytes ++ publish.payload)]
  | .subscribe subscribe =>
      .raw (toBeBytes subscribe.packetId) ::
        subscribe.subscriptions.flatMap fun sub =>
          [.field (asBytes sub.topic), .raw [sub.qos.asU8]]
  | .unsubscribe unsubscribe =>
      .raw (toBeBytes unsubscribe.packetId) ::
        unsubscribe.topics.map fun topic => .field (asBytes topic)
  | packet => [.raw (wireBody packet)]

/-- The segments make up the body. -/
theorem wireBody_eq_flatMap_segments (packet : Packet) :
    wireBody packet = (segments packet).flatMap Segment.wire := by
  cases packet with
  | connect conn =>
      rw [wireBody, connectBody_eq, connectFields]
      rcases conn with ⟨clientId, clean, keepAlive, username, password, will⟩
      cases will <;> cases username <;> cases password <;>
        simp [segments, Segment.wire, topicBytes, willBytes]
  | publish publish =>
      rw [wireBody, publishBody_eq]
      simp [segments, Segment.wire]
  | subscribe subscribe =>
      rw [wireBody, subscribeBody, writeSubscriptions_eq, segments, List.flatMap_cons,
        List.flatMap_assoc]
      congr 1
  | unsubscribe unsubscribe =>
      rw [wireBody, unsubscribeBody, writeTopics_eq, segments, List.flatMap_cons,
        List.flatMap_map]
      rfl
  | _ => simp [segments, Segment.wire]

/-- The fields that must fit are the marked segments. -/
theorem fieldsFit_iff (packet : Packet) :
    FieldsFit packet ↔ ∀ content, .field content ∈ segments packet → FitsField content := by
  cases packet with
  | connect conn =>
      rcases conn with ⟨clientId, clean, keepAlive, username, password, will⟩
      constructor
      · rintro ⟨idFits, willFits, nameFits, wordFits⟩ content marked
        simp only [segments, List.mem_cons, List.mem_append, reduceCtorEq, false_or,
          Segment.field.injEq] at marked
        rcases marked with rfl | marked | marked | marked
        · exact idFits
        · cases will with
          | none => simp at marked
          | some will =>
              obtain ⟨topicFits, payloadFits⟩ := willFits will rfl
              simp only [Option.elim_some, List.mem_cons, Segment.field.injEq,
                List.not_mem_nil, or_false] at marked
              rcases marked with rfl | rfl
              · exact topicFits
              · exact payloadFits
        · cases username with
          | none => simp at marked
          | some username =>
              obtain rfl : content = asBytes username := by simpa using marked
              exact nameFits username rfl
        · cases password with
          | none => simp at marked
          | some password =>
              obtain rfl : content = password := by simpa using marked
              exact wordFits content rfl
      · intro fits
        refine ⟨fits _ (by simp [segments]), ?_, ?_, ?_⟩
        · rintro will ⟨⟩
          exact ⟨fits _ (by simp [segments]), fits _ (by simp [segments])⟩
        · rintro username ⟨⟩
          exact fits _ (by simp [segments])
        · rintro password ⟨⟩
          exact fits _ (by simp [segments])
  | publish publish => simp [FieldsFit, segments]
  | subscribe subscribe =>
      simp only [FieldsFit, segments, List.mem_cons, reduceCtorEq, List.mem_flatMap,
        Segment.field.injEq, List.not_mem_nil, or_false, false_or]
      constructor
      · rintro fits content ⟨sub, listed, rfl⟩
        exact fits sub listed
      · intro fits sub listed
        exact fits _ ⟨sub, listed, rfl⟩
  | unsubscribe unsubscribe => simp [FieldsFit, segments]
  | _ => simp [FieldsFit, segments]

/-! ## Sound bytes -/

/-- The offset of the body in the bytes written for a packet. -/
def bodyOffset (packet : Packet) : Nat :=
  1 + (encodeRemainingLength (wireBody packet).length).length

/-- What the wire format asks of the bytes written for a packet. -/
structure WireSound (packet : Packet) (bytes : Bytes) : Prop where
  /-- At each field, the two bytes before its content are its length. -/
  prefixes : ∀ before content after, segments packet = before ++ .field content :: after →
    ∃ high low behind,
      bytes.drop (bodyOffset packet + (before.flatMap Segment.wire).length) =
        high :: low :: (content ++ behind) ∧
      (fromBeBytes high low).toNat = content.length
  /-- The length field has at most four bytes and counts the bytes after it. -/
  framed : ∃ frame : Frame, bytes = frame.bytes
  lists : ListsNonempty packet
  accepted : ∃ decoded,
    decodePacketFromBytes mqttSpecMaxPacketSize bytes = (ok (some decoded), [])

/-- What stands at a field of the written bytes. -/
theorem drop_frameBytes {packet : Packet} {before after : List Segment} {content : Bytes}
    (split : segments packet = before ++ .field content :: after) :
    (frameBytes (firstByte packet) (wireBody packet)).drop
        (bodyOffset packet + (before.flatMap Segment.wire).length) =
      lengthPrefixed content ++ after.flatMap Segment.wire := by
  have header : frameBytes (firstByte packet) (wireBody packet) =
      (firstByte packet :: encodeRemainingLength (wireBody packet).length) ++
        wireBody packet := rfl
  have offset : bodyOffset packet =
      (firstByte packet :: encodeRemainingLength (wireBody packet).length).length := by
    rw [bodyOffset, List.length_cons, Nat.add_comm]
  rw [← List.drop_drop, offset, header, List.drop_left, wireBody_eq_flatMap_segments, split,
    List.flatMap_append, List.drop_left]
  rfl

/-- The length before a field is right exactly when the field fits. -/
theorem prefix_true_iff (content behind : Bytes) :
    (∃ high low rest, lengthPrefixed content ++ behind = high :: low :: (content ++ rest) ∧
      (fromBeBytes high low).toNat = content.length) ↔ FitsField content := by
  have spelled : lengthPrefixed content ++ behind =
      (UInt16.ofNat content.length >>> 8).toUInt8 ::
        (UInt16.ofNat content.length).toUInt8 :: (content ++ behind) := by
    simp [lengthPrefixed, toBeBytes]
  rw [spelled]
  constructor
  · rintro ⟨high, low, rest, same, length⟩
    have bound := (fromBeBytes high low).toNat_lt
    rw [FitsField, maxFieldLength]
    omega
  · intro fits
    refine ⟨_, _, behind, rfl, ?_⟩
    rw [fromBeBytes_toBeBytes, toNat_ofNat_length fits]

theorem prefixes_iff_fieldsFit (packet : Packet) :
    (∀ before content after, segments packet = before ++ .field content :: after →
      ∃ high low behind,
        (frameBytes (firstByte packet) (wireBody packet)).drop
            (bodyOffset packet + (before.flatMap Segment.wire).length) =
          high :: low :: (content ++ behind) ∧
        (fromBeBytes high low).toNat = content.length) ↔ FieldsFit packet := by
  rw [fieldsFit_iff]
  constructor
  · intro prefixes content marked
    obtain ⟨before, after, split⟩ := List.append_of_mem marked
    obtain ⟨high, low, behind, found, length⟩ := prefixes before content after split
    rw [drop_frameBytes split] at found
    exact (prefix_true_iff _ _).mp ⟨high, low, behind, found, length⟩
  · intro fits before content after split
    rw [drop_frameBytes split]
    exact (prefix_true_iff _ _).mpr (fits content (by simp [split]))

/-- The written bytes are a frame exactly when four bytes can count the body. -/
theorem framed_iff (first : UInt8) (body : Bytes) :
    (∃ frame : Frame, frameBytes first body = frame.bytes) ↔
      body.length ≤ mqttSpecMaxPacketSize := by
  constructor
  · rintro ⟨frame, same⟩
    have lengths := congrArg List.length same
    have fieldSize := frame.complete.length_le
    have bodySize := frame.body_bounded
    have four := length_encodeRemainingLength_le_iff 4 body.length (by decide)
    simp only [frameBytes, Frame.bytes, List.length_cons, List.cons_append,
      List.length_append] at lengths
    rw [mqttSpecMaxPacketSize] at bodySize ⊢
    omega
  · intro bounded
    exact ⟨Frame.encoded first body bounded, rfl⟩

/-! ## The packets that are written soundly -/

/-- Bytes a list of filters takes, each behind its length and before `extra` bytes. -/
def filtersSize (extra : Nat) (filters : List String) : Nat :=
  (filters.map fun filter => 2 + (asBytes filter).length + extra).sum

/-- The packets the encoder would have to refuse otherwise: oversized fields,
empty lists, and lists that outgrow the largest body. -/
def EncodeSafe : Packet → Prop
  | .connect conn => ConnectFits conn
  | .subscribe subscribe =>
      subscribe.subscriptions ≠ [] ∧
        (∀ sub ∈ subscribe.subscriptions, FitsField (asBytes sub.topic)) ∧
        2 + filtersSize 1 (subscribe.subscriptions.map TopicSubscription.topic) ≤
          mqttSpecMaxPacketSize
  | .suback suback =>
      suback.returnCodes ≠ [] ∧ 2 + suback.returnCodes.length ≤ mqttSpecMaxPacketSize
  | .unsubscribe unsubscribe =>
      unsubscribe.topics ≠ [] ∧
        (∀ topic ∈ unsubscribe.topics, FitsField (asBytes topic)) ∧
        2 + filtersSize 0 unsubscribe.topics ≤ mqttSpecMaxPacketSize
  | _ => True

theorem length_subscribeBody (subscribe : SubscribePacket) :
    (subscribeBody subscribe).length =
      2 + filtersSize 1 (subscribe.subscriptions.map TopicSubscription.topic) := by
  rw [subscribeBody, writeSubscriptions_eq, List.length_append, length_toBeBytes,
    List.length_flatMap, filtersSize, List.map_map]
  congr 2
  apply List.map_congr_left
  intro sub _
  simp [subscriptionBytes]

theorem length_unsubscribeBody (unsubscribe : UnsubscribePacket) :
    (unsubscribeBody unsubscribe).length = 2 + filtersSize 0 unsubscribe.topics := by
  rw [unsubscribeBody, writeTopics_eq, List.length_append, length_toBeBytes,
    List.length_flatMap, filtersSize]
  congr 2
  apply List.map_congr_left
  intro topic _
  simp [topicBytes]

theorem length_subackBody (suback : SubackPacket) :
    (subackBody suback).length = 2 + suback.returnCodes.length := by
  simp [subackBody]

theorem FitsField.length_lengthPrefixed_le {content : Bytes} (fits : FitsField content) :
    (lengthPrefixed content).length ≤ 65537 := by
  rw [FitsField, maxFieldLength] at fits
  rw [length_lengthPrefixed]
  omega

theorem length_elim_le {α : Type} {value : Option α} {bytes : α → Bytes} {bound : Nat}
    (fits : ∀ present ∈ value, (bytes present).length ≤ bound) :
    (value.elim [] bytes).length ≤ bound := by
  cases value with
  | none => simp
  | some present => exact fits present rfl

/-- A CONNECT whose fields fit is far from the largest body. -/
theorem length_connectBody_le {conn : ConnectPacket} (fits : ConnectFits conn) :
    (connectBody conn).length ≤ mqttSpecMaxPacketSize := by
  have idSize : (topicBytes conn.clientId).length ≤ 65537 :=
    fits.clientId.length_lengthPrefixed_le
  have willSize : (conn.will.elim [] willBytes).length ≤ 131074 := by
    apply length_elim_le
    intro will present
    obtain ⟨topicFits, payloadFits⟩ := fits.will will present
    rw [willBytes, topicBytes, List.length_append]
    exact Nat.add_le_add topicFits.length_lengthPrefixed_le
      payloadFits.length_lengthPrefixed_le
  have nameSize : (conn.username.elim [] topicBytes).length ≤ 65537 := by
    apply length_elim_le
    intro username present
    exact (fits.username username present).length_lengthPrefixed_le
  have wordSize : (conn.password.elim [] lengthPrefixed).length ≤ 65537 := by
    apply length_elim_le
    intro password present
    exact (fits.password password present).length_lengthPrefixed_le
  have header : protocolHeader.length = 7 := rfl
  rw [connectBody_eq, connectFields, mqttSpecMaxPacketSize]
  simp only [List.length_append, List.length_cons, length_toBeBytes, header]
  omega

/-- Of the packets that are encoded, the safe ones are those with fields that
fit, lists that are not empty, and a body four bytes can count. -/
theorem encodeSafe_iff {packet : Packet} (encodable : Encodable packet) :
    EncodeSafe packet ↔
      FieldsFit packet ∧ ListsNonempty packet ∧
        (wireBody packet).length ≤ mqttSpecMaxPacketSize := by
  cases packet with
  | connect conn =>
      simp only [EncodeSafe, FieldsFit, ListsNonempty, wireBody, true_and]
      exact ⟨fun fits => ⟨fits, length_connectBody_le fits⟩, And.left⟩
  | publish publish =>
      obtain ⟨fits, -, bounded⟩ := encodable
      simp only [EncodeSafe, FieldsFit, ListsNonempty, fits, bounded, and_self]
  | subscribe subscribe =>
      simp only [EncodeSafe, FieldsFit, ListsNonempty, wireBody, length_subscribeBody]
      exact and_left_comm
  | suback suback =>
      simp only [EncodeSafe, FieldsFit, ListsNonempty, wireBody, length_subackBody, true_and]
  | unsubscribe unsubscribe =>
      simp only [EncodeSafe, FieldsFit, ListsNonempty, wireBody, length_unsubscribeBody]
      exact and_left_comm
  | _ =>
      simp [EncodeSafe, FieldsFit, ListsNonempty, wireBody, mqttSpecMaxPacketSize]

/-- Whatever is written for a packet is sound exactly when the packet is safe. -/
theorem encode_wireSound_iff (packet : Packet) :
    (∀ bytes, encodePacket packet = ok bytes → WireSound packet bytes) ↔
      EncodeSafe packet := by
  by_cases encodable : Encodable packet
  · have written : encodePacket packet =
        ok (frameBytes (firstByte packet) (wireBody packet)) :=
      encodePacket_eq_ok_iff.mpr ⟨encodable, rfl⟩
    rw [encodeSafe_iff encodable]
    constructor
    · intro sound
      obtain ⟨prefixes, framed, lists, -⟩ := sound _ written
      exact ⟨(prefixes_iff_fieldsFit packet).mp prefixes, lists, (framed_iff _ _).mp framed⟩
    · rintro ⟨fields, lists, bounded⟩ bytes encoded
      obtain ⟨-, rfl⟩ := encodePacket_eq_ok_iff.mp encoded
      have idLegal : IdLegal packet := by
        cases packet with
        | publish publish => exact encodable.2.1
        | _ => trivial
      refine ⟨(prefixes_iff_fieldsFit packet).mpr fields, (framed_iff _ _).mpr bounded, lists,
        asDecoded packet, ?_⟩
      have decoded := decode_frameBytes ⟨fields, lists, idLegal, bounded⟩ bounded []
      rwa [List.append_nil] at decoded
  · have safe : EncodeSafe packet := by
      cases packet with
      | publish publish => trivial
      | _ => exact absurd trivial encodable
    refine ⟨fun _ => safe, fun _ bytes encoded => ?_⟩
    exact absurd (encodePacket_eq_ok_iff.mp encoded).1 encodable

/-- A password of 65536 bytes is written with the length 0, and a SUBSCRIBE
without filters is written although the decoder refuses it. -/
theorem encode_truncates_password_and_writes_empty_subscribe :
    (∃ bytes, encodePacket (.connect ⟨"", true, 0, none,
          some (List.replicate 65536 0), none⟩) = ok bytes ∧
        ¬ WireSound (.connect ⟨"", true, 0, none,
          some (List.replicate 65536 0), none⟩) bytes) ∧
      encodePacket (.subscribe ⟨1, []⟩) = ok [0x82, 0x02, 0x00, 0x01] ∧
      decodePacketFromBytes 268435455 [0x82, 0x02, 0x00, 0x01] =
        (err (.codec .unexpectedEof), []) := by
  refine ⟨⟨_, rfl, ?_⟩, by decide, by decide⟩
  intro sound
  have fits : ConnectFits ⟨"", true, 0, none, some (List.replicate 65536 0), none⟩ :=
    (prefixes_iff_fieldsFit (.connect ⟨"", true, 0, none,
      some (List.replicate 65536 0), none⟩)).mp sound.prefixes
  have tooLong := fits.password _ rfl
  rw [FitsField, List.length_replicate, maxFieldLength] at tooLong
  omega

end HotaruMqtt.Codec
