import HotaruMqtt.Codec.Accept.Connect
import HotaruMqtt.Codec.Frame

/-!
# Frames

A frame is a first byte, a complete remaining-length field, and a body of the
length that field declares.  The buffered decoder is described by the frame at
the front of its buffer: it consumes that frame and nothing else.
-/

namespace HotaruMqtt.Codec

open Exec Exec.Outcome

/-- A first byte, a complete length field, and a body of the declared length. -/
structure Frame where
  first : UInt8
  lengthField : Bytes
  body : Bytes
  complete : LengthField 4 lengthField
  declared : lengthValue lengthField = body.length

namespace Frame

/-- The frame on the wire. -/
def bytes (frame : Frame) : Bytes :=
  frame.first :: (frame.lengthField ++ frame.body)

/-- A body that a four-byte length can declare, framed as the encoder does. -/
def encoded (first : UInt8) (body : Bytes) (bounded : body.length ≤ mqttSpecMaxPacketSize) :
    Frame where
  first := first
  lengthField := encodeRemainingLength body.length
  body := body
  complete := (lengthField_encodeRemainingLength_iff 4 body.length).mpr
    ⟨by decide, Nat.lt_succ_of_le bounded⟩
  declared := lengthValue_encodeRemainingLength body.length

@[simp]
theorem bytes_encoded (first : UInt8) (body : Bytes)
    (bounded : body.length ≤ mqttSpecMaxPacketSize) :
    (encoded first body bounded).bytes = frameBytes first body :=
  rfl

/-- A complete field declares less than `128 ^ 4`. -/
theorem body_bounded (frame : Frame) : frame.body.length ≤ mqttSpecMaxPacketSize := by
  have value := lengthValue_lt frame.lengthField
  have power : 128 ^ frame.lengthField.length ≤ 128 ^ 4 :=
    Nat.pow_le_pow_right (by decide) frame.complete.length_le
  rw [frame.declared] at value
  rw [mqttSpecMaxPacketSize]
  omega

/-- Two frames at the front of one buffer are one frame. -/
theorem eq_of_append_eq {left right : Frame} {leftRest rightRest : Bytes}
    (same : left.bytes ++ leftRest = right.bytes ++ rightRest) :
    left = right ∧ leftRest = rightRest := by
  rcases left with ⟨first, field, body, complete, declared⟩
  rcases right with ⟨first', field', body', complete', declared'⟩
  simp only [bytes, List.cons_append, List.append_assoc, List.cons.injEq] at same
  obtain ⟨rfl, same⟩ := same
  obtain ⟨rfl, sameTail⟩ := complete.eq_of_append_eq complete' same
  have sameLength : body.length = body'.length := declared.symm.trans declared'
  obtain ⟨rfl, rfl⟩ := List.append_inj sameTail sameLength
  exact ⟨rfl, rfl⟩

/-- What the body parser makes of a frame. -/
def parse (frame : Frame) : Outcome MqttError Packet :=
  okOr (.codec (.invalidPacketType (frame.first >>> 4)))
      (PacketType.tryFrom (frame.first >>> 4)) >>= fun packetType =>
    parsePacket frame.first packetType frame.body.length frame.body

end Frame

/-! ## The buffered decoder -/

theorem peekHeader_cons (first : UInt8) (tail : Bytes) :
    peekHeader (first :: tail) =
      okOr (.codec (.invalidPacketType (first >>> 4))) (PacketType.tryFrom (first >>> 4)) >>=
        fun packetType => decodeRemainingLengthFromSlice tail >>= fun decoded =>
          ok (first, packetType, decoded) := by
  have tailRead : (Slice.rangeFrom (first :: tail) 1 : Outcome MqttError Bytes) = ok tail :=
    Slice.rangeFrom_eq_ok_iff.mpr ⟨by simp, rfl⟩
  simp only [peekHeader, Slice.index_eq_ok_iff.mpr (show (first :: tail)[0]? = some first from rfl),
    ok_bind, tailRead]

/-- Fewer than two bytes are never looked at. -/
theorem decode_of_short {buffer : Bytes} (short : buffer.length < 2) (maxSize : Nat) :
    decodePacketFromBytes maxSize buffer = (ok none, buffer) := by
  rw [decodePacketFromBytes, if_pos short]

theorem decode_of_unknownType {first : UInt8} {tail : Bytes} (nonempty : tail ≠ [])
    (unknown : PacketType.tryFrom (first >>> 4) = none) (maxSize : Nat) :
    decodePacketFromBytes maxSize (first :: tail) =
      (err (.codec (.invalidPacketType (first >>> 4))), first :: tail) := by
  have positive := List.length_pos_of_ne_nil nonempty
  rw [decodePacketFromBytes, if_neg (by rw [List.length_cons]; omega), peekHeader_cons, unknown]
  rfl

theorem decode_of_malformedLength {first : UInt8} {packetType : PacketType} {tail : Bytes}
    {error : MqttError} (known : PacketType.tryFrom (first >>> 4) = some packetType)
    (malformed : decodeRemainingLengthFromSlice tail = err error) (maxSize : Nat) :
    decodePacketFromBytes maxSize (first :: tail) = (err error, first :: tail) := by
  have nonempty : tail ≠ [] := by
    rintro rfl
    simp [decodeRemainingLengthFromSlice] at malformed
  have positive := List.length_pos_of_ne_nil nonempty
  rw [decodePacketFromBytes, if_neg (by rw [List.length_cons]; omega), peekHeader_cons, known,
    okOr_some, ok_bind, malformed]
  rfl

theorem decode_of_partialLength {first : UInt8} {packetType : PacketType} {tail : Bytes}
    (known : PacketType.tryFrom (first >>> 4) = some packetType)
    (unfinished : decodeRemainingLengthFromSlice tail = ok none) (maxSize : Nat) :
    decodePacketFromBytes maxSize (first :: tail) = (ok none, first :: tail) := by
  by_cases short : (first :: tail).length < 2
  · exact decode_of_short short maxSize
  · rw [decodePacketFromBytes, if_neg short, peekHeader_cons, known, okOr_some, ok_bind,
      unfinished]
    rfl

/-- What a buffer begins with: too little, a refused header, a header whose length
field is unfinished, or a whole header. -/
inductive Front : Bytes → Prop
  | short {buffer : Bytes} (few : buffer.length < 2) : Front buffer
  | unknownType {first : UInt8} {tail : Bytes} (nonempty : tail ≠ [])
      (unknown : PacketType.tryFrom (first >>> 4) = none) : Front (first :: tail)
  | malformedLength {first : UInt8} {packetType : PacketType} {tail : Bytes}
      {error : MqttError} (known : PacketType.tryFrom (first >>> 4) = some packetType)
      (malformed : decodeRemainingLengthFromSlice tail = err error) : Front (first :: tail)
  | partialLength {first : UInt8} {packetType : PacketType} {tail : Bytes}
      (known : PacketType.tryFrom (first >>> 4) = some packetType)
      (unfinished : decodeRemainingLengthFromSlice tail = ok none) : Front (first :: tail)
  | header {first : UInt8} {packetType : PacketType} {field data : Bytes}
      (known : PacketType.tryFrom (first >>> 4) = some packetType)
      (complete : LengthField 4 field) : Front (first :: (field ++ data))

theorem front (buffer : Bytes) : Front buffer := by
  rcases buffer with _ | ⟨first, tail⟩
  · exact .short (by simp)
  cases known : PacketType.tryFrom (first >>> 4) with
  | none =>
      rcases eq_or_ne tail [] with rfl | nonempty
      · exact .short (by simp)
      · exact .unknownType nonempty known
  | some packetType =>
      cases length : decodeRemainingLengthFromSlice tail with
      | err error => exact .malformedLength known length
      | panic cause => exact absurd length ((only_sliceLengthFrom _ _ _).safe cause)
      | ok found =>
          rcases found with _ | ⟨value, count⟩
          · exact .partialLength known length
          · obtain ⟨field, data, rfl, complete, -, -⟩ :=
              decodeRemainingLengthFromSlice_eq_some_iff.mp length
            exact .header known complete

/-- What is dropped behind a header is dropped from what follows it. -/
theorem drop_header (first : UInt8) (field data : Bytes) (count : Nat) :
    (first :: (field ++ data)).drop (1 + field.length + count) = data.drop count := by
  rw [← List.cons_append, show 1 + field.length = (first :: field).length by
    simp [Nat.add_comm], List.drop_length_add_append]

/-- Behind a complete header, the declared length decides. -/
theorem decode_of_lengthField {first : UInt8} {packetType : PacketType} {field : Bytes}
    (known : PacketType.tryFrom (first >>> 4) = some packetType)
    (complete : LengthField 4 field) (maxSize : Nat) (data : Bytes) :
    decodePacketFromBytes maxSize (first :: (field ++ data)) =
      if lengthValue field > maxSize then
        (err (.protocol (.packetTooLarge (lengthValue field) maxSize)),
          first :: (field ++ data))
      else if data.length < lengthValue field then
        (ok none, first :: (field ++ data))
      else
        (parsePacket first packetType (lengthValue field) (data.take (lengthValue field)) >>=
            fun packet => ok (some packet),
          data.drop (lengthValue field)) := by
  have positive := complete.length_pos
  have header : peekHeader (first :: (field ++ data)) =
      ok (first, packetType, some (lengthValue field, field.length)) := by
    rw [peekHeader_cons, known, okOr_some, ok_bind,
      decodeRemainingLengthFromSlice_eq_some_iff.mpr ⟨field, data, rfl, complete, rfl, rfl⟩,
      ok_bind]
  have size : (first :: (field ++ data)).length = 1 + field.length + data.length := by
    simp only [List.length_cons, List.length_append]
    omega
  rw [decodePacketFromBytes, if_neg (by omega), header]
  dsimp only
  by_cases large : lengthValue field > maxSize
  · rw [if_pos large, if_pos large]
  · rw [if_neg large, if_neg large]
    by_cases short : data.length < lengthValue field
    · rw [if_pos short, if_pos (by omega)]
    · rw [if_neg short, if_neg (by omega), Slice.splitTo_of_le (by omega)]
      have taken : (first :: (field ++ data)).take (1 + field.length + lengthValue field) =
          (first :: field) ++ data.take (lengthValue field) := by
        rw [← List.cons_append, show 1 + field.length = (first :: field).length by
          simp [Nat.add_comm], List.take_length_add_append]
      dsimp only
      rw [taken, drop_header, Slice.rangeFrom_of_le (by simp; omega), ok_bind]
      rw [show 1 + field.length = (first :: field).length by simp [Nat.add_comm],
        List.drop_left]

/-- A whole frame is consumed, and what follows it is left. -/
theorem decode_frame (frame : Frame) {packetType : PacketType} {maxSize : Nat}
    (known : PacketType.tryFrom (frame.first >>> 4) = some packetType)
    (bounded : frame.body.length ≤ maxSize) (rest : Bytes) :
    decodePacketFromBytes maxSize (frame.bytes ++ rest) =
      (frame.parse >>= fun packet => ok (some packet), rest) := by
  have buffer : frame.bytes ++ rest =
      frame.first :: (frame.lengthField ++ (frame.body ++ rest)) := by
    simp [Frame.bytes]
  rw [buffer, decode_of_lengthField known frame.complete, frame.declared,
    if_neg (by omega), if_neg (by simp), List.take_left, List.drop_left, Frame.parse, known,
    okOr_some, ok_bind]

/-- A packet is returned exactly for the frame at the front of the buffer. -/
theorem decode_eq_some_iff {maxSize : Nat} {buffer rest : Bytes} {packet : Packet} :
    decodePacketFromBytes maxSize buffer = (ok (some packet), rest) ↔
      ∃ frame : Frame, buffer = frame.bytes ++ rest ∧ frame.body.length ≤ maxSize ∧
        frame.parse = ok packet := by
  constructor
  · intro decoded
    cases front buffer with
    | short few =>
        rw [decode_of_short few] at decoded
        simp at decoded
    | unknownType nonempty unknown =>
        rw [decode_of_unknownType nonempty unknown] at decoded
        simp at decoded
    | malformedLength known malformed =>
        rw [decode_of_malformedLength known malformed] at decoded
        simp at decoded
    | partialLength known unfinished =>
        rw [decode_of_partialLength known unfinished] at decoded
        simp at decoded
    | @header first packetType field data known complete =>
        rw [decode_of_lengthField known complete] at decoded
        split at decoded
        · simp at decoded
        · split at decoded
          · simp at decoded
          · rename_i bounded enough
            obtain ⟨parsed, rfl⟩ := Prod.mk.inj decoded
            obtain ⟨found, parsed, same⟩ := bind_eq_ok_iff.mp parsed
            cases same
            have taken : (data.take (lengthValue field)).length = lengthValue field := by
              rw [List.length_take]
              omega
            refine ⟨⟨first, field, data.take (lengthValue field), complete, taken.symm⟩,
              ?_, ?_, ?_⟩
            · simp [Frame.bytes]
            · dsimp only
              omega
            · rw [Frame.parse, known, okOr_some, ok_bind]
              dsimp only
              rw [taken]
              exact parsed
  · rintro ⟨frame, rfl, bounded, parsed⟩
    obtain ⟨packetType, known, -⟩ := bind_eq_ok_iff.mp parsed
    rw [decode_frame frame (okOr_eq_ok_iff.mp known) bounded, parsed]
    rfl

end HotaruMqtt.Codec
