import HotaruMqtt.Codec.Accept.Subscription

/-!
# What the PUBLISH and acknowledgement parsers accept

These parsers look at the low nibble of the first byte as well as at the body,
and both are determined by the packet returned.
-/

namespace HotaruMqtt.Codec

open Exec Exec.Outcome

/-! ## PUBACK, PUBREC, PUBREL and PUBCOMP -/

/-- The low nibble an acknowledgement must carry. -/
def ackNibble (packetType : PacketType) : UInt8 :=
  if packetType = .pubrel then 0x02 else 0x00

/-- The packet an acknowledgement of this type and id parses to. -/
def ackPacket (packetType : PacketType) (id : PacketId) : Packet :=
  match packetType with
  | .puback => .puback id
  | .pubrec => .pubrec id
  | .pubrel => .pubrel id
  | _ => .pubcomp id

/-- On two bytes, only the nibble decides. -/
theorem parseAckPacket_toBeBytes (first : UInt8) (packetType : PacketType) (id : PacketId) :
    parseAckPacket first packetType (toBeBytes id).length (toBeBytes id) =
      if first &&& 0x0F ≠ ackNibble packetType then err (.codec .reservedFlagSet)
      else ok (ackPacket packetType id) := by
  obtain ⟨high, low⟩ := index_toBeBytes id []
  rw [List.append_nil] at high low
  rw [parseAckPacket, if_neg (by simp), high, ok_bind, low, ok_bind,
    fromBeBytes_toBeBytes]
  rfl

theorem parseAckPacket_eq_ok_iff {first : UInt8} {packetType : PacketType}
    {body : Bytes} {packet : Packet} :
    parseAckPacket first packetType body.length body = ok packet ↔
      ∃ id, packet = ackPacket packetType id ∧ body = toBeBytes id ∧
        first &&& 0x0F = ackNibble packetType := by
  constructor
  · intro parsed
    by_cases two : body.length = 2
    · obtain ⟨id, rfl⟩ := exists_eq_toBeBytes two
      rw [parseAckPacket_toBeBytes] at parsed
      by_cases nibble : first &&& 0x0F = ackNibble packetType
      · rw [if_neg (not_not.mpr nibble)] at parsed
        cases parsed
        exact ⟨id, rfl, rfl, nibble⟩
      · rw [if_pos nibble] at parsed
        contradiction
    · rw [parseAckPacket, if_pos two] at parsed
      contradiction
  · rintro ⟨id, rfl, rfl, nibble⟩
    rw [parseAckPacket_toBeBytes, if_neg (not_not.mpr nibble)]

/-! ## The PUBLISH flags -/

theorem fromBits_low_nibble (first : UInt8) :
    FixedHeaderFlags.fromBits (first &&& 0x0F) = some (first &&& 0x0F) := by
  rw [FixedHeaderFlags.fromBits, if_pos]
  rw [UInt8.and_assoc]
  exact UInt8.and_zero

/-- The flags read from a nibble pack back to that nibble. -/
theorem packPublishFlags_of_nibble {publish : PublishPacket} {nibble : UInt8}
    (inNibble : nibble &&& 0x0F = nibble)
    (dup : publish.dup = containsFlag nibble FixedHeaderFlags.dup)
    (retain : publish.retain = containsFlag nibble FixedHeaderFlags.retain)
    (qos : (nibble &&& FixedHeaderFlags.qos) >>> 1 = publish.qos.asU8) :
    packPublishFlags publish = nibble := by
  rw [packPublishFlags, dup, retain, ← qos]
  clear dup retain qos
  revert nibble
  decide +kernel

/-- Packed flags read back as the fields they were packed from. -/
theorem nibble_of_packPublishFlags (publish : PublishPacket) :
    containsFlag (packPublishFlags publish) FixedHeaderFlags.dup = publish.dup ∧
      containsFlag (packPublishFlags publish) FixedHeaderFlags.retain = publish.retain ∧
      (packPublishFlags publish &&& FixedHeaderFlags.qos) >>> 1 = publish.qos.asU8 := by
  rcases publish with ⟨topic, payload, dup, qos, retain, id⟩
  cases dup <;> cases qos <;> cases retain <;>
    simp only [packPublishFlags, reduceIte, Bool.false_eq_true] <;> decide

/-! ## PUBLISH -/

/-- A packet id is on the wire exactly above QoS 0. -/
def IdMatchesQos (publish : PublishPacket) : Prop :=
  publish.packetId.isSome ↔ publish.qos ≠ .atMostOnce

theorem publishBody_eq (publish : PublishPacket) (packetId : Option PacketId) :
    publishBody publish packetId =
      lengthPrefixed (asBytes publish.topic) ++
        (packetId.elim [] toBeBytes ++ publish.payload) := by
  cases packetId <;> simp [publishBody, lengthPrefixed]

theorem readPublishId_eq_ok_iff {qos : QoS} {body : Bytes} {cursor after : Nat}
    {packetId : Option PacketId} :
    readPublishId qos body cursor = ok (packetId, after) ↔
      (packetId.isSome ↔ qos ≠ .atMostOnce) ∧
        after = cursor + (packetId.elim [] toBeBytes).length ∧
        body.drop cursor = packetId.elim [] toBeBytes ++ body.drop after := by
  unfold readPublishId
  split
  · rename_i above
    rw [bind_eq_ok_iff]
    constructor
    · rintro ⟨⟨id, next⟩, idRead, last⟩
      obtain ⟨rfl, idFound⟩ := readU16_eq_ok_iff.mp idRead
      cases last
      exact ⟨by simp [above], rfl, idFound⟩
    · rintro ⟨present, rfl, found⟩
      obtain ⟨id, rfl⟩ := Option.isSome_iff_exists.mp (present.mpr above)
      exact ⟨(id, cursor + 2), readU16_eq_ok_iff.mpr ⟨rfl, found⟩, rfl⟩
  · rename_i zero
    simp only [ok.injEq, Prod.mk.injEq]
    constructor
    · rintro ⟨rfl, rfl⟩
      exact ⟨by simpa using zero, rfl, rfl⟩
    · rintro ⟨present, rfl, -⟩
      have absent : packetId = none := by
        rw [← Option.not_isSome_iff_eq_none, present]
        exact zero
      subst absent
      exact ⟨rfl, rfl⟩

/-- Every nibble has named bits only, so `from_bits` never refuses. -/
theorem parsePublish_eq (first : UInt8) (body : Bytes) :
    parsePublish first body =
      if body.length < 2 then
        err (.codec .unexpectedEof)
      else
        okOr (.codec (.qosInvalid (((first &&& 0x0F) &&& FixedHeaderFlags.qos) >>> 1)))
            (QoS.fromU8 (((first &&& 0x0F) &&& FixedHeaderFlags.qos) >>> 1)) >>= fun qos =>
          readArcStr body 0 >>= fun (topic, cursor) =>
            readPublishId qos body cursor >>= fun (packetId, cursor) =>
              Slice.rangeFrom body cursor >>= fun payload =>
                ok (.publish
                  ⟨topic, payload, containsFlag (first &&& 0x0F) FixedHeaderFlags.dup, qos,
                    containsFlag (first &&& 0x0F) FixedHeaderFlags.retain, packetId⟩) := by
  unfold parsePublish
  simp only [fromBits_low_nibble, okOr_some, ok_bind]

/-- A PUBLISH is accepted exactly when its low nibble and body are those of the
packet returned.  The id is not compared with zero. -/
theorem parsePublish_eq_ok_iff {first : UInt8} {body : Bytes} {packet : Packet} :
    parsePublish first body = ok packet ↔
      ∃ p : PublishPacket, packet = .publish p ∧
        first &&& 0x0F = packPublishFlags p ∧ IdMatchesQos p ∧
        FitsField (asBytes p.topic) ∧ body = publishBody p p.packetId := by
  rw [parsePublish_eq]
  constructor
  · intro parsed
    split at parsed
    · contradiction
    · obtain ⟨qos, qosRead, rest⟩ := bind_eq_ok_iff.mp parsed
      rw [okOr_eq_ok_iff, QoS.fromU8_eq_some_iff] at qosRead
      obtain ⟨⟨topic, afterTopic⟩, topicRead, rest⟩ := bind_eq_ok_iff.mp rest
      obtain ⟨fits, -, topicFound⟩ := readArcStr_eq_ok_iff.mp topicRead
      obtain ⟨⟨packetId, afterId⟩, idRead, rest⟩ := bind_eq_ok_iff.mp rest
      obtain ⟨idMatches, -, idFound⟩ := readPublishId_eq_ok_iff.mp idRead
      obtain ⟨payload, payloadRead, packetEq⟩ := bind_eq_ok_iff.mp rest
      obtain ⟨-, payloadEq⟩ := Slice.rangeFrom_eq_ok_iff.mp payloadRead
      cases packetEq
      refine ⟨_, rfl, ?_, idMatches, fits, ?_⟩
      · refine (packPublishFlags_of_nibble ?_ rfl rfl qosRead).symm
        rw [UInt8.and_assoc]
        rfl
      · rw [publishBody_eq, payloadEq, ← idFound, ← topicFound, List.drop_zero]
  · rintro ⟨⟨topic, payload, dup, qos, retain, packetId⟩, rfl, nibble, idMatches, fits, rfl⟩
    obtain ⟨dupRead, retainRead, qosRead⟩ := nibble_of_packPublishFlags
      ⟨topic, payload, dup, qos, retain, packetId⟩
    rw [nibble, dupRead, retainRead, qosRead, QoS.fromU8_eq_some_iff.mpr rfl]
    set body := publishBody ⟨topic, payload, dup, qos, retain, packetId⟩ packetId with bodyEq
    rw [publishBody_eq] at bodyEq
    have afterTopic : body.drop (2 + (asBytes topic).length) =
        packetId.elim [] toBeBytes ++ payload := by
      rw [bodyEq, ← length_lengthPrefixed, List.drop_left]
    have afterId : body.drop
        (2 + (asBytes topic).length + (packetId.elim [] toBeBytes).length) = payload := by
      rw [← List.drop_drop, afterTopic, List.drop_left]
    have lengths := congrArg List.length bodyEq
    simp only [List.length_append, length_lengthPrefixed] at lengths
    have topicRead : readArcStr body 0 = ok (topic, 2 + (asBytes topic).length) := by
      rw [readArcStr_eq_ok_iff, afterTopic, Nat.zero_add]
      exact ⟨fits, rfl, bodyEq⟩
    have idRead : readPublishId qos body (2 + (asBytes topic).length) =
        ok (packetId,
          2 + (asBytes topic).length + (packetId.elim [] toBeBytes).length) := by
      rw [readPublishId_eq_ok_iff, afterId]
      exact ⟨idMatches, rfl, afterTopic⟩
    rw [if_neg (by omega), okOr_some, ok_bind, topicRead, ok_bind]
    dsimp only
    rw [idRead, ok_bind]
    dsimp only
    rw [Slice.rangeFrom_of_le (by omega), ok_bind, afterId]

end HotaruMqtt.Codec
