import HotaruMqtt.Codec.RoundTrip

/-!
# From accepted bytes back to written bytes

What the encoder writes for a packet that the decoder accepted.  Bodies other
than those of CONNECT and CONNACK come back byte for byte.  What the decoder
takes and the encoder does not write is described on the accepted bytes: the
zero packet id of a PUBLISH, the reserved nibbles of most first bytes, unused
flag bits, and bytes after the last field.
-/

namespace HotaruMqtt.Codec

open Exec Exec.Outcome

/-! ## Accepted packets -/

/-- An accepted PUBLISH has its id exactly where the wire has it. -/
theorem IdMatchesQos.wireId_eq {publish : PublishPacket} (idMatches : IdMatchesQos publish) :
    wireId publish = publish.packetId := by
  unfold wireId
  split
  · rename_i zero
    cases present : publish.packetId with
    | none => rfl
    | some id =>
        have above := idMatches.mp (by rw [present]; rfl)
        exact absurd zero above
  · rfl

theorem asDecoded_of_accepts {first : UInt8} {body : Bytes} {packet : Packet}
    (accepted : Accepts first body packet) : asDecoded packet = packet := by
  cases packet with
  | publish publish =>
      obtain ⟨-, idMatches, -, -⟩ := accepted
      rw [asDecoded, idMatches.wireId_eq]
  | _ => rfl

theorem fieldsFit_of_accepts {first : UInt8} {body : Bytes} {packet : Packet}
    (accepted : Accepts first body packet) : FieldsFit packet ∧ ListsNonempty packet := by
  cases packet with
  | connect conn =>
      obtain ⟨flags, stray, -, describes⟩ := accepted
      exact ⟨describes.fits, trivial⟩
  | publish publish => exact ⟨accepted.2.2.1, trivial⟩
  | subscribe subscribe => exact ⟨accepted.2.2, accepted.2.1⟩
  | suback suback => exact ⟨trivial, accepted.2⟩
  | unsubscribe unsubscribe => exact ⟨accepted.2.2, accepted.2.1⟩
  | _ => exact ⟨trivial, trivial⟩

/-- The kinds whose body is determined by the packet. -/
def BodyExact : Packet → Prop
  | .connect _ | .connack _ => False
  | _ => True

/-- The kinds whose first byte is checked completely. -/
def FirstExact : Packet → Prop
  | .publish _ | .puback _ | .pubrec _ | .pubrel _ | .pubcomp _ => True
  | _ => False

theorem wireBody_of_accepts {first : UInt8} {body : Bytes} {packet : Packet}
    (accepted : Accepts first body packet) (exact : BodyExact packet) :
    wireBody packet = body := by
  cases packet with
  | connect conn => exact exact.elim
  | connack ack => exact exact.elim
  | publish publish =>
      obtain ⟨-, idMatches, -, rfl⟩ := accepted
      rw [wireBody, idMatches.wireId_eq]
  | puback id | pubrec id | pubrel id | pubcomp id => exact accepted.1.symm
  | subscribe subscribe => exact accepted.1.symm
  | suback suback => exact accepted.1.symm
  | unsubscribe unsubscribe => exact accepted.1.symm
  | unsuback id => exact accepted.symm
  | pingreq | pingresp | disconnect => exact accepted.symm

/-- The body that is written is never longer than the one accepted. -/
theorem length_wireBody_le_of_accepts {first : UInt8} {body : Bytes} {packet : Packet}
    (accepted : Accepts first body packet) : (wireBody packet).length ≤ body.length := by
  by_cases exact : BodyExact packet
  · rw [wireBody_of_accepts accepted exact]
  · cases packet with
    | connect conn =>
        obtain ⟨flags, stray, rfl, -⟩ := accepted
        rw [wireBody, connectBody_eq]
        simp only [List.length_append, List.length_cons]
        omega
    | connack ack =>
        obtain ⟨flags, stray, rfl, -⟩ := accepted
        simp [wireBody]
    | _ => exact absurd trivial exact

theorem lowNibble_of_accepts {first : UInt8} {body : Bytes} {packet : Packet}
    (accepted : Accepts first body packet) (exact : FirstExact packet) :
    first &&& 0x0F = lowNibble packet := by
  cases packet with
  | publish publish => exact accepted.1
  | puback id | pubrec id | pubrel id | pubcomp id => exact accepted.2
  | _ => exact exact.elim

/-- For an accepted packet, only the id decides whether it can be written. -/
theorem encodable_iff_of_accepts {frame : Frame} {packet : Packet}
    (accepted : Accepts frame.first frame.body packet) :
    Encodable packet ↔ IdLegal packet := by
  have bounded := (length_wireBody_le_of_accepts accepted).trans frame.body_bounded
  cases packet with
  | publish publish =>
      constructor
      · exact fun encodable => encodable.2.1
      · exact fun idLegal => ⟨accepted.2.2.1, idLegal, bounded⟩
  | _ => exact Iff.rfl

/-! ## Bodies come back -/

/-- The frame of a decoded buffer and what was accepted of it. -/
theorem accepts_of_decode {maxSize : Nat} {frame : Frame} {rest : Bytes} {packet : Packet}
    (decoded : decodePacketFromBytes maxSize (frame.bytes ++ rest) = (ok (some packet), rest)) :
    frame.body.length ≤ maxSize ∧ frame.first >>> 4 = (packetTypeOf packet).asU8 ∧
      Accepts frame.first frame.body packet := by
  obtain ⟨found, same, admitted, parsed⟩ := decode_eq_some_iff.mp decoded
  obtain ⟨rfl, -⟩ := Frame.eq_of_append_eq same
  exact ⟨admitted, Frame.parse_eq_ok_iff.mp parsed⟩

/-- For every accepted frame of a packet other than CONNECT and CONNACK, the
bytes written for the packet have the accepted body, and for PUBLISH and its
acknowledgements the accepted first byte.  No other body is taken for the same
packet. -/
theorem encode_reproduces_body (maxSize : Nat) (frame : Frame) (rest : Bytes)
    (packet : Packet)
    (decoded : decodePacketFromBytes maxSize (frame.bytes ++ rest) = (ok (some packet), rest))
    (exact : BodyExact packet) :
    (∀ bytes, encodePacket packet = ok bytes →
      ∃ written : Frame, bytes = written.bytes ∧ written.body = frame.body ∧
        (FirstExact packet → written.first = frame.first)) ∧
      ∀ (otherMax : Nat) (other : Frame) (otherRest : Bytes),
        decodePacketFromBytes otherMax (other.bytes ++ otherRest) =
            (ok (some packet), otherRest) →
          other.body = frame.body := by
  obtain ⟨-, kind, accepted⟩ := accepts_of_decode decoded
  have body := wireBody_of_accepts accepted exact
  constructor
  · intro bytes written
    obtain ⟨-, rfl⟩ := encodePacket_eq_ok_iff.mp written
    refine ⟨Frame.encoded (firstByte packet) (wireBody packet)
      (body ▸ frame.body_bounded), rfl, body, ?_⟩
    intro firstExact
    exact (eq_firstByte_iff.mpr ⟨kind, lowNibble_of_accepts accepted firstExact⟩).symm
  · intro otherMax other otherRest otherDecoded
    obtain ⟨-, -, otherAccepted⟩ := accepts_of_decode otherDecoded
    rw [← body, wireBody_of_accepts otherAccepted exact]

/-- A PUBACK, whose frame is followed by another byte. -/
theorem encode_reproduces_body_puback :
    (∀ bytes, encodePacket (.puback 5) = ok bytes →
      ∃ written : Frame, bytes = written.bytes ∧
        written.body = (Frame.encoded 0x40 [0x00, 0x05] (by decide)).body ∧
        (FirstExact (.puback 5) →
          written.first = (Frame.encoded 0x40 [0x00, 0x05] (by decide)).first)) ∧
      ∀ (otherMax : Nat) (other : Frame) (otherRest : Bytes),
        decodePacketFromBytes otherMax (other.bytes ++ otherRest) =
            (ok (some (.puback 5)), otherRest) →
          other.body = (Frame.encoded 0x40 [0x00, 0x05] (by decide)).body :=
  encode_reproduces_body 2 (Frame.encoded 0x40 [0x00, 0x05] (by decide)) [0xC0] (.puback 5)
    (by decide) trivial

/-! ## The zero packet id -/

/-- The sixteen-bit number at an offset, read as zero past the end. -/
def wordAt (body : Bytes) (offset : Nat) : UInt16 :=
  fromBeBytes (body.getD offset 0) (body.getD (offset + 1) 0)

/-- Where a length-prefixed field that starts at an offset ends. -/
def fieldEnd (body : Bytes) (offset : Nat) : Nat :=
  offset + 2 + (wordAt body offset).toNat

theorem wordAt_of_drop_eq {body rest : Bytes} {offset : Nat} {value : UInt16}
    (found : body.drop offset = toBeBytes value ++ rest) : wordAt body offset = value := by
  have high : body[offset]? = some (value >>> 8).toUInt8 := by
    rw [← List.head?_drop, found]
    rfl
  have low : body[offset + 1]? = some value.toUInt8 := by
    rw [← List.getElem?_drop, found]
    rfl
  rw [wordAt, List.getD_eq_getElem?_getD, List.getD_eq_getElem?_getD, high, low]
  exact fromBeBytes_toBeBytes value

theorem fieldEnd_of_drop_eq {body rest content : Bytes} {offset : Nat}
    (fits : FitsField content) (found : body.drop offset = lengthPrefixed content ++ rest) :
    fieldEnd body offset = offset + (lengthPrefixed content).length := by
  rw [lengthPrefixed, List.append_assoc] at found
  rw [fieldEnd, wordAt_of_drop_eq found, toNat_ofNat_length fits, length_lengthPrefixed,
    Nat.add_assoc]

/-- The body of the frame at the front of a buffer: what follows the first byte
and the bytes up to the first one without a continuation bit. -/
def bodyOf (buffer : Bytes) : Bytes :=
  ((buffer.drop 1).dropWhile fun byte => byte &&& 0x80 ≠ 0).drop 1

/-- A PUBLISH above QoS 0 whose two bytes after the topic are zero. -/
def ZeroIdPublish (first : UInt8) (body : Bytes) : Prop :=
  first >>> 4 = PacketType.publish.asU8 ∧ first &&& FixedHeaderFlags.qos ≠ 0 ∧
    wordAt body (fieldEnd body 0) = 0

instance (first : UInt8) (body : Bytes) : Decidable (ZeroIdPublish first body) :=
  inferInstanceAs (Decidable (_ ∧ _ ∧ _))

theorem dropWhile_lengthField {limit : Nat} {field : Bytes} (complete : LengthField limit field)
    (data : Bytes) :
    ((field ++ data).dropWhile fun byte => byte &&& 0x80 ≠ 0).drop 1 = data := by
  induction limit generalizing field with
  | zero => exact complete.elim
  | succ limit ih =>
      rcases field with _ | ⟨byte, rest⟩
      · exact complete.elim
      · simp only [LengthField] at complete
        by_cases last : byte &&& 0x80 = 0
        · rw [if_pos last] at complete
          subst complete
          simp [last]
        · rw [if_neg last] at complete
          rw [List.cons_append, List.dropWhile_cons_of_pos (by simp [last])]
          exact ih complete

theorem bodyOf_frame (frame : Frame) (rest : Bytes) :
    bodyOf (frame.bytes ++ rest) = frame.body ++ rest := by
  have split : (frame.bytes ++ rest).drop 1 =
      frame.lengthField ++ (frame.body ++ rest) := by
    simp [Frame.bytes]
  rw [bodyOf, split, dropWhile_lengthField frame.complete]

theorem qos_bits_ne_zero_iff {first : UInt8} {publish : PublishPacket}
    (nibble : first &&& 0x0F = packPublishFlags publish) :
    first &&& FixedHeaderFlags.qos ≠ 0 ↔ publish.qos ≠ .atMostOnce := by
  have masked : first &&& FixedHeaderFlags.qos =
      packPublishFlags publish &&& FixedHeaderFlags.qos := by
    rw [← nibble, UInt8.and_assoc]
    rfl
  rw [masked]
  rcases publish with ⟨topic, payload, dup, qos, retain, id⟩
  cases dup <;> cases qos <;> cases retain <;>
    simp only [packPublishFlags, reduceIte, Bool.false_eq_true] <;> decide

/-- An accepted packet has an illegal id exactly when its bytes are those of a
PUBLISH with a zero id, whatever follows them. -/
theorem idLegal_iff_of_accepts {first : UInt8} {body : Bytes} {packet : Packet}
    (kind : first >>> 4 = (packetTypeOf packet).asU8) (accepted : Accepts first body packet)
    (rest : Bytes) :
    IdLegal packet ↔ ¬ ZeroIdPublish first (body ++ rest) := by
  by_cases other : packetTypeOf packet = .publish
  · cases packet with
    | publish publish =>
        obtain ⟨nibble, idMatches, fits, rfl⟩ := accepted
        have afterTopic : fieldEnd (publishBody publish publish.packetId ++ rest) 0 =
            (lengthPrefixed (asBytes publish.topic)).length := by
          rw [publishBody_eq, List.append_assoc]
          rw [fieldEnd_of_drop_eq fits (List.drop_zero), Nat.zero_add]
        simp only [ZeroIdPublish, IdLegal, kind, packetTypeOf, true_and,
          qos_bits_ne_zero_iff nibble, not_and]
        refine forall_congr' fun above => ?_
        obtain ⟨id, present⟩ := Option.isSome_iff_exists.mp (idMatches.mpr above)
        have word : wordAt (publishBody publish publish.packetId ++ rest)
            (fieldEnd (publishBody publish publish.packetId ++ rest) 0) = id := by
          rw [afterTopic, publishBody_eq, present, List.append_assoc]
          apply wordAt_of_drop_eq
          rw [List.drop_left, Option.elim_some, List.append_assoc]
        rw [word, present]
        simp
    | _ => simp [packetTypeOf] at other
  · have legal : IdLegal packet := by
      cases packet with
      | publish publish => exact absurd rfl other
      | _ => trivial
    refine iff_of_true legal ?_
    rintro ⟨publishKind, -, -⟩
    rw [kind] at publishKind
    revert publishKind other
    cases packetTypeOf packet <;> decide

/-- A decoded packet is encoded again, and decodes to itself with nothing left,
exactly when its bytes are not those of a PUBLISH above QoS 0 with packet id 0. -/
theorem reencode_iff_not_zeroId (maxSize : Nat) (buffer rest : Bytes) (packet : Packet)
    (decoded : decodePacketFromBytes maxSize buffer = (ok (some packet), rest)) :
    (∃ bytes, encodePacket packet = ok bytes ∧
        decodePacketFromBytes maxSize bytes = (ok (some packet), [])) ↔
      ¬ ZeroIdPublish (buffer.getD 0 0) (bodyOf buffer) := by
  obtain ⟨frame, rfl, -, -⟩ := decode_eq_some_iff.mp decoded
  obtain ⟨admitted, kind, accepted⟩ := accepts_of_decode decoded
  have bounded := (length_wireBody_le_of_accepts accepted).trans frame.body_bounded
  have front : (frame.bytes ++ rest).getD 0 0 = frame.first := rfl
  rw [front, bodyOf_frame, ← idLegal_iff_of_accepts kind accepted rest]
  constructor
  · rintro ⟨bytes, written, -⟩
    exact (encodable_iff_of_accepts accepted).mp (encodePacket_eq_ok_iff.mp written).1
  · intro idLegal
    obtain ⟨fields, lists⟩ := fieldsFit_of_accepts accepted
    have legal : Legal packet := ⟨fields, lists, idLegal, bounded⟩
    refine ⟨_, encodePacket_eq_ok_iff.mpr ⟨legal.encodable, rfl⟩, ?_⟩
    have again := decode_frameBytes legal
      ((length_wireBody_le_of_accepts accepted).trans admitted) []
    rwa [List.append_nil, asDecoded_of_accepts accepted] at again

/-- A QoS 1 PUBLISH to the topic `a` with packet id 7. -/
theorem reencode_iff_not_zeroId_publish :
    (∃ bytes, encodePacket (.publish ⟨"a", [], false, .atLeastOnce, false, some 7⟩) =
          ok bytes ∧
        decodePacketFromBytes 5 bytes =
          (ok (some (.publish ⟨"a", [], false, .atLeastOnce, false, some 7⟩)), [])) ↔
      ¬ ZeroIdPublish (([0x32, 0x05, 0x00, 0x01, 0x61, 0x00, 0x07] : Bytes).getD 0 0)
        (bodyOf [0x32, 0x05, 0x00, 0x01, 0x61, 0x00, 0x07]) :=
  reencode_iff_not_zeroId 5 [0x32, 0x05, 0x00, 0x01, 0x61, 0x00, 0x07] [] _
    (by decide)

/-- The same PUBLISH with packet id 0 is decoded, and its packet is refused by
the encoder. -/
theorem decode_accepts_zero_id_that_encode_refuses :
    decodePacketFromBytes 5 [0x32, 0x05, 0x00, 0x01, 0x61, 0x00, 0x00] =
        (ok (some (.publish ⟨"a", [], false, .atLeastOnce, false, some 0⟩)), []) ∧
      encodePacket (.publish ⟨"a", [], false, .atLeastOnce, false, some 0⟩) =
        err .zeroPacketId := by
  decide

end HotaruMqtt.Codec
