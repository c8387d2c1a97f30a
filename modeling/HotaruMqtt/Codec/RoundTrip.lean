import HotaruMqtt.Codec.Layout

/-!
# Legal packets come back

The layout of a legal packet is accepted for that packet, so encoding and then
decoding returns it, whatever follows it in the buffer.  The only change is
that a QoS 0 PUBLISH loses a packet id it should not have had.
-/

namespace HotaruMqtt.Codec

open Exec Exec.Outcome

theorem idMatchesQos_wireId {publish : PublishPacket} (idLegal : IdLegal (.publish publish)) :
    IdMatchesQos { publish with packetId := wireId publish } := by
  rw [IdMatchesQos, wireId]
  by_cases zero : publish.qos = .atMostOnce
  · simp [zero]
  · obtain ⟨id, present, -⟩ := idLegal zero
    simp [zero, present]

theorem decide_sessionPresent (present : Bool) :
    present = decide ((if present then 0x01 else 0x00 : UInt8) &&& 0x01 ≠ 0) := by
  cases present <;> decide

/-- The layout of a packet is accepted for it. -/
theorem accepts_wireBody {packet : Packet} (fields : FieldsFit packet)
    (lists : ListsNonempty packet) (idLegal : IdLegal packet) :
    Accepts (firstByte packet) (wireBody packet) (asDecoded packet) := by
  obtain ⟨-, nibble⟩ := eq_firstByte_iff.mp (Eq.refl (firstByte packet))
  cases packet with
  | connect conn =>
      refine ⟨connectFlags conn, [], ?_, flagsDescribe_connectFlags fields⟩
      rw [wireBody, connectBody_eq, List.append_nil]
  | connack ack => exact ⟨_, [], rfl, decide_sessionPresent ack.sessionPresent⟩
  | publish publish => exact ⟨nibble, idMatchesQos_wireId idLegal, fields, rfl⟩
  | puback id | pubrec id | pubrel id | pubcomp id => exact ⟨rfl, nibble⟩
  | subscribe subscribe => exact ⟨rfl, lists, fields⟩
  | suback suback => exact ⟨rfl, lists⟩
  | unsubscribe unsubscribe => exact ⟨rfl, lists, fields⟩
  | unsuback id => rfl
  | pingreq | pingresp | disconnect => rfl

theorem packetTypeOf_asDecoded (packet : Packet) :
    packetTypeOf (asDecoded packet) = packetTypeOf packet := by
  cases packet <;> rfl

/-- The layout of a legal packet decodes to the packet, whatever follows. -/
theorem decode_frameBytes {packet : Packet} {maxSize : Nat} (legal : Legal packet)
    (admitted : (wireBody packet).length ≤ maxSize) (rest : Bytes) :
    decodePacketFromBytes maxSize
        (frameBytes (firstByte packet) (wireBody packet) ++ rest) =
      (ok (some (asDecoded packet)), rest) := by
  rw [decode_eq_some_iff]
  refine ⟨Frame.encoded _ _ legal.bounded, rfl, admitted, ?_⟩
  rw [Frame.parse_eq_ok_iff, packetTypeOf_asDecoded]
  exact ⟨(eq_firstByte_iff.mp rfl).1, accepts_wireBody legal.fields legal.lists legal.id⟩

/-- Every legal packet is encoded as its layout, and its bytes decode to it and
leave exactly what followed them, under every limit that admits the body. -/
theorem decode_encode_of_legal (packet : Packet) (rest : Bytes) (maxSize : Nat)
    (legal : Legal packet) (admitted : (wireBody packet).length ≤ maxSize) :
    ∃ bytes, encodePacket packet = ok bytes ∧
      bytes = frameBytes (firstByte packet) (wireBody packet) ∧
      decodePacketFromBytes maxSize (bytes ++ rest) =
        (ok (some (asDecoded packet)), rest) := by
  refine ⟨_, encodePacket_eq_ok_iff.mpr ⟨legal.encodable, rfl⟩, rfl, ?_⟩
  exact decode_frameBytes legal admitted rest

/-- A QoS 1 PUBLISH with a payload, followed by the start of another packet. -/
theorem decode_encode_publish_before_partial :
    ∃ bytes, encodePacket (.publish ⟨"a/b", [1, 2, 3], false, .atLeastOnce, true, some 7⟩) =
        ok bytes ∧
      bytes = frameBytes
        (firstByte (.publish ⟨"a/b", [1, 2, 3], false, .atLeastOnce, true, some 7⟩))
        (wireBody (.publish ⟨"a/b", [1, 2, 3], false, .atLeastOnce, true, some 7⟩)) ∧
      decodePacketFromBytes 10 (bytes ++ [0xC0]) =
        (ok (some (asDecoded
          (.publish ⟨"a/b", [1, 2, 3], false, .atLeastOnce, true, some 7⟩))), [0xC0]) := by
  refine decode_encode_of_legal _ [0xC0] 10 ⟨?_, trivial, ?_, ?_⟩ ?_
  · rw [FieldsFit]
    decide
  · intro _
    exact ⟨7, rfl, by decide⟩
  · decide
  · decide

end HotaruMqtt.Codec
