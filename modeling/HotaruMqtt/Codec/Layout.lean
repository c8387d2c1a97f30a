import HotaruMqtt.Codec.Shape

/-!
# The wire layout of a packet

For each packet its type, its first byte and its body, the packets that are
legal on the wire, and two characterisations: what the encoder writes, and
which frames the decoder takes for the packet.  Every theorem about the codec
as a whole compares these two.
-/

namespace HotaruMqtt.Codec

open Exec Exec.Outcome

/-! ## Layout -/

/-- The type that goes into the first byte. -/
def packetTypeOf : Packet → PacketType
  | .connect _ => .connect
  | .connack _ => .connack
  | .publish _ => .publish
  | .puback _ => .puback
  | .pubrec _ => .pubrec
  | .pubrel _ => .pubrel
  | .pubcomp _ => .pubcomp
  | .subscribe _ => .subscribe
  | .suback _ => .suback
  | .unsubscribe _ => .unsubscribe
  | .unsuback _ => .unsuback
  | .pingreq => .pingreq
  | .pingresp => .pingresp
  | .disconnect => .disconnect

/-- The low nibble of the first byte. -/
def lowNibble : Packet → UInt8
  | .publish publish => packPublishFlags publish
  | .pubrel _ | .subscribe _ | .unsubscribe _ => 0x02
  | _ => 0x00

/-- The first byte that is written for a packet. -/
def firstByte (packet : Packet) : UInt8 :=
  ((packetTypeOf packet).asU8 <<< 4) ||| lowNibble packet

/-- The packet id a PUBLISH carries on the wire: none at QoS 0. -/
def wireId (publish : PublishPacket) : Option PacketId :=
  if publish.qos = .atMostOnce then none else publish.packetId

/-- The body that is written for a packet. -/
def wireBody : Packet → Bytes
  | .connect connect => connectBody connect
  | .connack connack =>
      [if connack.sessionPresent then 0x01 else 0x00, connack.returnCode.asU8]
  | .publish publish => publishBody publish (wireId publish)
  | .puback id | .pubrec id | .pubrel id | .pubcomp id | .unsuback id => toBeBytes id
  | .subscribe subscribe => subscribeBody subscribe
  | .suback suback => subackBody suback
  | .unsubscribe unsubscribe => unsubscribeBody unsubscribe
  | .pingreq | .pingresp | .disconnect => []

/-! ## Legal packets -/

/-- Every field with a two-byte length fits that length. -/
def FieldsFit : Packet → Prop
  | .connect connect => ConnectFits connect
  | .publish publish => FitsField (asBytes publish.topic)
  | .subscribe subscribe =>
      ∀ sub ∈ subscribe.subscriptions, FitsField (asBytes sub.topic)
  | .unsubscribe unsubscribe => ∀ topic ∈ unsubscribe.topics, FitsField (asBytes topic)
  | _ => True

/-- The lists of SUBSCRIBE, SUBACK and UNSUBSCRIBE have an element. -/
def ListsNonempty : Packet → Prop
  | .subscribe subscribe => subscribe.subscriptions ≠ []
  | .suback suback => suback.returnCodes ≠ []
  | .unsubscribe unsubscribe => unsubscribe.topics ≠ []
  | _ => True

/-- A PUBLISH above QoS 0 has a packet id that is not zero. -/
def IdLegal : Packet → Prop
  | .publish publish =>
      publish.qos ≠ .atMostOnce → ∃ id, publish.packetId = some id ∧ id ≠ 0
  | _ => True

/-- The packets the wire format can carry. -/
structure Legal (packet : Packet) : Prop where
  fields : FieldsFit packet
  lists : ListsNonempty packet
  id : IdLegal packet
  bounded : (wireBody packet).length ≤ mqttSpecMaxPacketSize

/-- A packet as it comes back: at QoS 0 a PUBLISH has no packet id. -/
def asDecoded : Packet → Packet
  | .publish publish => .publish { publish with packetId := wireId publish }
  | packet => packet

/-! ## What the encoder writes -/

/-- What the encoder checks: PUBLISH, and nothing else. -/
def Encodable : Packet → Prop
  | .publish publish =>
      FitsField (asBytes publish.topic) ∧ IdLegal (.publish publish) ∧
        (wireBody (.publish publish)).length ≤ mqttSpecMaxPacketSize
  | _ => True

theorem Legal.encodable {packet : Packet} (legal : Legal packet) : Encodable packet := by
  cases packet with
  | publish publish => exact ⟨legal.fields, legal.id, legal.bounded⟩
  | _ => trivial

theorem validatePublishForEncode_eq_ok_iff {publish : PublishPacket}
    {packetId : Option PacketId} :
    validatePublishForEncode publish = ok packetId ↔
      FitsField (asBytes publish.topic) ∧ IdLegal (.publish publish) ∧
        packetId = wireId publish := by
  rcases publish with ⟨topic, payload, dup, qos, retain, id⟩
  simp only [validatePublishForEncode, FitsField, IdLegal, wireId, maxFieldLength]
  by_cases long : (asBytes topic).length > 65535
  · rw [if_pos long]
    simp only [reduceCtorEq, false_iff, not_and]
    intro fits
    omega
  · rw [if_neg long]
    have fits : (asBytes topic).length ≤ 65535 := by omega
    simp only [fits, true_and]
    by_cases zero : qos = .atMostOnce
    · simp only [zero, reduceIte, ne_eq, not_true_eq_false, false_implies, true_and, ok.injEq]
      exact eq_comm
    · simp only [zero, reduceIte, ne_eq, not_false_eq_true, forall_const]
      cases id with
      | none => simp
      | some id =>
          by_cases idZero : id = 0
          · simp [idZero]
          · simp only [idZero, reduceIte, ok.injEq]
            constructor
            · rintro rfl
              exact ⟨⟨id, rfl, idZero⟩, rfl⟩
            · rintro ⟨-, rfl⟩
              rfl

/-- The bodies of fixed size, with the length byte spelled out. -/
theorem frameBytes_two (first high low : UInt8) :
    frameBytes first [high, low] = [first, 0x02, high, low] := by
  have two : encodeRemainingLength 2 = [0x02] := by decide
  simp only [frameBytes, List.length_cons, List.length_nil, Nat.zero_add, Nat.reduceAdd, two]
  rfl

theorem frameBytes_nil (first : UInt8) : frameBytes first [] = [first, 0x00] := by
  have zero : encodeRemainingLength 0 = [0x00] := by decide
  simp only [frameBytes, List.length_nil, zero]
  rfl

theorem encodeId_eq (first : UInt8) (id : PacketId) :
    encodeId first id = frameBytes first (toBeBytes id) := by
  have low : (id &&& 0xFF).toUInt8 = id.toUInt8 := by
    apply UInt8.toNat_inj.mp
    rw [UInt16.toNat_toUInt8, UInt16.toNat_toUInt8, UInt16.toNat_and]
    exact (Nat.and_two_pow_sub_one_eq_mod _ 8).symm ▸ Nat.mod_mod _ _
  rw [encodeId, low, toBeBytes, frameBytes_two]

theorem firstByte_of_lowNibble {packet : Packet} (zero : lowNibble packet = 0x00) :
    firstByte packet = (packetTypeOf packet).asU8 <<< 4 := by
  rw [firstByte, zero]
  exact UInt8.or_zero

/-- The bytes of each packet the encoder does not validate. -/
theorem encodePacket_of_not_publish {packet : Packet}
    (other : packetTypeOf packet ≠ .publish) :
    encodePacket packet = ok (frameBytes (firstByte packet) (wireBody packet)) := by
  cases packet with
  | publish publish => exact absurd rfl other
  | connack connack =>
      rw [firstByte_of_lowNibble rfl, wireBody, frameBytes_two]
      rfl
  | connect connect =>
      rw [firstByte_of_lowNibble rfl]
      rfl
  | suback suback =>
      rw [firstByte_of_lowNibble rfl]
      rfl
  | subscribe subscribe => rfl
  | unsubscribe unsubscribe => rfl
  | pingreq | pingresp | disconnect =>
      simp only [wireBody, frameBytes_nil, encodePacket, firstByte, packetTypeOf, lowNibble]
      decide
  | puback id | pubrec id | pubrel id | pubcomp id | unsuback id =>
      rw [encodePacket, encodeId_eq, wireBody]
      congr 2
      simp only [firstByte, packetTypeOf, lowNibble]
      decide

/-- The encoder writes the layout of every packet it does not refuse. -/
theorem encodePacket_eq_ok_iff {packet : Packet} {bytes : Bytes} :
    encodePacket packet = ok bytes ↔
      Encodable packet ∧ bytes = frameBytes (firstByte packet) (wireBody packet) := by
  by_cases other : packetTypeOf packet ≠ .publish
  · have encodable : Encodable packet := by
      cases packet with
      | publish publish => exact absurd rfl other
      | _ => trivial
    rw [encodePacket_of_not_publish other, ok.injEq, eq_comm]
    simp only [encodable, true_and]
  · cases packet with
    | publish publish =>
        simp only [encodePacket, encodePublish, bind_eq_ok_iff,
          validatePublishForEncode_eq_ok_iff]
        constructor
        · rintro ⟨packetId, ⟨fits, idLegal, rfl⟩, written⟩
          split at written
          · contradiction
          · rename_i bounded
            cases written
            exact ⟨⟨fits, idLegal, not_lt.mp bounded⟩, rfl⟩
        · rintro ⟨⟨fits, idLegal, bounded⟩, rfl⟩
          refine ⟨wireId publish, ⟨fits, idLegal, rfl⟩, ?_⟩
          rw [wireBody] at bounded
          rw [if_neg (not_lt.mpr bounded)]
          rfl
    | _ => simp [packetTypeOf] at other

/-! ## What the decoder accepts -/

/-- A frame's first byte and body that are taken for the packet.  Kinds that do
not mention the first byte do not look at its low nibble. -/
def Accepts (first : UInt8) (body : Bytes) : Packet → Prop
  | .connect conn => ∃ (flags : UInt8) (stray : Bytes),
      body = protocolHeader ++
        flags :: (toBeBytes conn.keepAlive ++ (connectFields conn ++ stray)) ∧
      FlagsDescribe flags conn
  | .connack ack => ∃ (flags : UInt8) (stray : Bytes),
      body = flags :: ack.returnCode.asU8 :: stray ∧
      ack.sessionPresent = decide (flags &&& 0x01 ≠ 0)
  | .publish publish =>
      first &&& 0x0F = packPublishFlags publish ∧ IdMatchesQos publish ∧
        FitsField (asBytes publish.topic) ∧ body = publishBody publish publish.packetId
  | .puback id | .pubrec id | .pubcomp id => body = toBeBytes id ∧ first &&& 0x0F = 0x00
  | .pubrel id => body = toBeBytes id ∧ first &&& 0x0F = 0x02
  | .subscribe subscribe =>
      body = subscribeBody subscribe ∧ subscribe.subscriptions ≠ [] ∧
        ∀ sub ∈ subscribe.subscriptions, FitsField (asBytes sub.topic)
  | .suback suback => body = subackBody suback ∧ suback.returnCodes ≠ []
  | .unsubscribe unsubscribe =>
      body = unsubscribeBody unsubscribe ∧ unsubscribe.topics ≠ [] ∧
        ∀ topic ∈ unsubscribe.topics, FitsField (asBytes topic)
  | .unsuback id => body = toBeBytes id
  | .pingreq | .pingresp | .disconnect => body = []

theorem requireEmptyBody_bind_eq_ok_iff {body : Bytes} {answer packet : Packet} :
    (requireEmptyBody body.length >>= fun _ => ok answer) = ok packet ↔
      packet = answer ∧ body = [] := by
  cases body with
  | nil => simp [requireEmptyBody, eq_comm]
  | cons byte rest => simp [requireEmptyBody]

theorem accepts_of_parsePacket {first : UInt8} {packetType : PacketType} {body : Bytes}
    {packet : Packet} (parsed : parsePacket first packetType body.length body = ok packet) :
    packetTypeOf packet = packetType ∧ Accepts first body packet := by
  cases packetType with
  | connect =>
      obtain ⟨conn, flags, stray, rfl, accepted⟩ := parseConnect_eq_ok_iff.mp parsed
      exact ⟨rfl, flags, stray, accepted⟩
  | connack =>
      obtain ⟨ack, flags, stray, rfl, accepted⟩ := parseConnack_eq_ok_iff.mp parsed
      exact ⟨rfl, flags, stray, accepted⟩
  | publish =>
      obtain ⟨publish, rfl, accepted⟩ := parsePublish_eq_ok_iff.mp parsed
      exact ⟨rfl, accepted⟩
  | puback | pubrec | pubrel | pubcomp =>
      obtain ⟨id, rfl, accepted⟩ := parseAckPacket_eq_ok_iff.mp parsed
      exact ⟨rfl, accepted⟩
  | subscribe =>
      obtain ⟨subscribe, rfl, accepted⟩ := parseSubscribe_eq_ok_iff.mp parsed
      exact ⟨rfl, accepted⟩
  | suback =>
      obtain ⟨suback, rfl, accepted⟩ := parseSuback_eq_ok_iff.mp parsed
      exact ⟨rfl, accepted⟩
  | unsubscribe =>
      obtain ⟨unsubscribe, rfl, accepted⟩ := parseUnsubscribe_eq_ok_iff.mp parsed
      exact ⟨rfl, accepted⟩
  | unsuback =>
      obtain ⟨id, rfl, accepted⟩ := parseUnsuback_eq_ok_iff.mp parsed
      exact ⟨rfl, accepted⟩
  | pingreq | pingresp | disconnect =>
      obtain ⟨rfl, accepted⟩ := requireEmptyBody_bind_eq_ok_iff.mp parsed
      exact ⟨rfl, accepted⟩

theorem parsePacket_of_accepts {first : UInt8} {body : Bytes} {packet : Packet}
    (accepted : Accepts first body packet) :
    parsePacket first (packetTypeOf packet) body.length body = ok packet := by
  cases packet with
  | connect conn =>
      obtain ⟨flags, stray, accepted⟩ := accepted
      exact parseConnect_eq_ok_iff.mpr ⟨conn, flags, stray, rfl, accepted⟩
  | connack ack =>
      obtain ⟨flags, stray, accepted⟩ := accepted
      exact parseConnack_eq_ok_iff.mpr ⟨ack, flags, stray, rfl, accepted⟩
  | publish publish => exact parsePublish_eq_ok_iff.mpr ⟨publish, rfl, accepted⟩
  | puback id | pubrec id | pubrel id | pubcomp id =>
      exact parseAckPacket_eq_ok_iff.mpr ⟨id, rfl, accepted⟩
  | subscribe subscribe => exact parseSubscribe_eq_ok_iff.mpr ⟨subscribe, rfl, accepted⟩
  | suback suback => exact parseSuback_eq_ok_iff.mpr ⟨suback, rfl, accepted⟩
  | unsubscribe unsubscribe =>
      exact parseUnsubscribe_eq_ok_iff.mpr ⟨unsubscribe, rfl, accepted⟩
  | unsuback id => exact parseUnsuback_eq_ok_iff.mpr ⟨id, rfl, accepted⟩
  | pingreq | pingresp | disconnect =>
      exact requireEmptyBody_bind_eq_ok_iff.mpr ⟨rfl, accepted⟩

/-- A frame is taken for a packet exactly when its high nibble is the packet's
type and the parser of that type accepts it. -/
theorem Frame.parse_eq_ok_iff {frame : Frame} {packet : Packet} :
    frame.parse = ok packet ↔
      frame.first >>> 4 = (packetTypeOf packet).asU8 ∧
        Accepts frame.first frame.body packet := by
  rw [Frame.parse, bind_eq_ok_iff]
  constructor
  · rintro ⟨packetType, known, parsed⟩
    rw [okOr_eq_ok_iff, PacketType.tryFrom_eq_some_iff] at known
    obtain ⟨rfl, accepted⟩ := accepts_of_parsePacket parsed
    exact ⟨known, accepted⟩
  · rintro ⟨known, accepted⟩
    refine ⟨packetTypeOf packet, ?_, parsePacket_of_accepts accepted⟩
    rw [okOr_eq_ok_iff, PacketType.tryFrom_eq_some_iff]
    exact known

/-! ## The first byte -/

theorem lowNibble_and (packet : Packet) : lowNibble packet &&& 0x0F = lowNibble packet := by
  cases packet with
  | publish publish =>
      rcases publish with ⟨topic, payload, dup, qos, retain, id⟩
      cases dup <;> cases qos <;> cases retain <;>
        simp only [lowNibble, packPublishFlags, reduceIte, Bool.false_eq_true] <;> decide
  | _ =>
      simp only [lowNibble]
      decide

/-- The two nibbles of a first byte. -/
theorem nibbles_eq_iff (first : UInt8) (packetType : PacketType) {nibble : UInt8}
    (inNibble : nibble &&& 0x0F = nibble) :
    first = (packetType.asU8 <<< 4) ||| nibble ↔
      first >>> 4 = packetType.asU8 ∧ first &&& 0x0F = nibble := by
  constructor
  · rintro rfl
    cases packetType <;> revert nibble <;> decide +kernel
  · rintro ⟨high, rfl⟩
    rw [← high]
    clear inNibble high packetType
    revert first
    decide +kernel

theorem eq_firstByte_iff {first : UInt8} {packet : Packet} :
    first = firstByte packet ↔
      first >>> 4 = (packetTypeOf packet).asU8 ∧ first &&& 0x0F = lowNibble packet :=
  nibbles_eq_iff first (packetTypeOf packet) (lowNibble_and packet)

end HotaruMqtt.Codec
