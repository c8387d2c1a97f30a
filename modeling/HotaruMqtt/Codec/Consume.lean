import HotaruMqtt.Codec.Shape

/-!
# What the buffered decoder takes from its buffer

`decode_packet_from_bytes` looks at the header in place.  It takes bytes from the buffer
only once the header is well formed, within the size limit and followed by its whole body,
and then it takes that frame, also when the body is refused.  A declared length above the
limit is refused before the body is waited for.
-/

namespace HotaruMqtt.Codec

open Exec Exec.Outcome

/-- The buffer begins with a known packet type and a complete length field of `size` bytes
that declares `declared`. -/
def HasHeader (buffer : Bytes) (size declared : Nat) : Prop :=
  ∃ first packetType field data, buffer = first :: (field ++ data) ∧
    PacketType.tryFrom (first >>> 4) = some packetType ∧ LengthField 4 field ∧
    field.length = size ∧ lengthValue field = declared

/-- A frame that may be taken: its header is there, it declares no more than the limit, and
its whole body is there. -/
def HasFrame (maxSize : Nat) (buffer : Bytes) (size declared : Nat) : Prop :=
  HasHeader buffer size declared ∧ declared ≤ maxSize ∧ 1 + size + declared ≤ buffer.length

section Header

variable {first : UInt8} {packetType : PacketType} {tail field data : Bytes}
  {size declared : Nat}

theorem HasHeader.size_bounds {buffer : Bytes} (header : HasHeader buffer size declared) :
    1 ≤ size ∧ size ≤ 4 := by
  obtain ⟨_, _, field, _, _, _, complete, rfl, _⟩ := header
  exact ⟨complete.length_pos, complete.length_le⟩

/-- The header of a buffer, by what the decoder reads of it. -/
theorem hasHeader_cons_iff :
    HasHeader (first :: tail) size declared ↔
      (∃ packetType, PacketType.tryFrom (first >>> 4) = some packetType) ∧
        decodeRemainingLengthFromSlice tail = ok (some (declared, size)) := by
  rw [decodeRemainingLengthFromSlice_eq_some_iff]
  constructor
  · rintro ⟨_, packetType, field, data, same, known, complete, rfl, rfl⟩
    obtain ⟨rfl, rfl⟩ := List.cons.inj same
    exact ⟨⟨packetType, known⟩, field, data, rfl, complete, rfl, rfl⟩
  · rintro ⟨⟨packetType, known⟩, field, data, rfl, complete, rfl, rfl⟩
    exact ⟨first, packetType, field, data, rfl, known, complete, rfl, rfl⟩

theorem not_hasHeader_of_short {buffer : Bytes} (few : buffer.length < 2) :
    ¬ HasHeader buffer size declared := by
  rintro ⟨first, _, field, data, rfl, _, complete, _⟩
  have positive := complete.length_pos
  simp only [List.length_cons, List.length_append] at few
  omega

/-- Behind a complete field there is one header only. -/
theorem hasHeader_iff_of_lengthField
    (known : PacketType.tryFrom (first >>> 4) = some packetType)
    (complete : LengthField 4 field) :
    HasHeader (first :: (field ++ data)) size declared ↔
      lengthValue field = declared ∧ field.length = size := by
  have read : decodeRemainingLengthFromSlice (field ++ data) =
      ok (some (lengthValue field, field.length)) :=
    decodeRemainingLengthFromSlice_eq_some_iff.mpr ⟨field, data, rfl, complete, rfl, rfl⟩
  rw [hasHeader_cons_iff, read]
  simp [known]

end Header

/-- The slice loop refuses with one error only. -/
theorem eq_malformedLength_of_sliceLengthFrom {i : Nat} {acc : LengthAcc} {data : Bytes}
    {error : MqttError} (failed : sliceLengthFrom i acc data = err error) :
    error = .codec .malformedLength := by
  induction data generalizing i acc with
  | nil => simp at failed
  | cons byte tail ih =>
      rw [sliceLengthFrom_cons] at failed
      split at failed
      · contradiction
      · split at failed
        · exact (err.inj failed).symm
        · exact ih failed

/-- How the decoder ends when it takes nothing. -/
inductive Untaken (maxSize : Nat) (buffer : Bytes) : Outcome MqttError (Option Packet) → Prop
  | incomplete : Untaken maxSize buffer (ok none)
  | unknownType {first : UInt8} (leads : buffer.head? = some first)
      (unknown : PacketType.tryFrom (first >>> 4) = none) :
      Untaken maxSize buffer (err (.codec (.invalidPacketType (first >>> 4))))
  | malformedLength (malformed : decodeRemainingLengthFromSlice buffer.tail =
        err (.codec .malformedLength)) :
      Untaken maxSize buffer (err (.codec .malformedLength))
  | tooLarge {size declared : Nat} (header : HasHeader buffer size declared)
      (large : maxSize < declared) :
      Untaken maxSize buffer (err (.protocol (.packetTooLarge declared maxSize)))

/-- What a run of the decoder does with its buffer. -/
structure BufferEffect (maxSize : Nat) (buffer : Bytes)
    (outcome : Outcome MqttError (Option Packet)) (left : Bytes) : Prop where
  taken_iff : left ≠ buffer ↔ ∃ size declared, HasFrame maxSize buffer size declared
  taken : ∀ {size declared}, HasFrame maxSize buffer size declared →
    (1 ≤ size ∧ size ≤ 4) ∧ left = buffer.drop (1 + size + declared) ∧ outcome ≠ ok none
  untaken : left = buffer → Untaken maxSize buffer outcome
  tooLarge : ∀ {size declared}, HasHeader buffer size declared → maxSize < declared →
    outcome = err (.protocol (.packetTooLarge declared maxSize)) ∧ left = buffer

section Effect

variable {maxSize : Nat} {buffer : Bytes} {outcome : Outcome MqttError (Option Packet)}

/-- A decoder that takes nothing where there is no frame. -/
theorem bufferEffect_of_no_frame
    (frameless : ∀ size declared, ¬ HasFrame maxSize buffer size declared)
    (untaken : Untaken maxSize buffer outcome)
    (tooLarge : ∀ {size declared}, HasHeader buffer size declared → maxSize < declared →
      outcome = err (.protocol (.packetTooLarge declared maxSize))) :
    BufferEffect maxSize buffer outcome buffer where
  taken_iff := by
    refine iff_of_false (by simp) ?_
    rintro ⟨size, declared, frame⟩
    exact frameless size declared frame
  taken frame := absurd frame (frameless _ _)
  untaken _ := untaken
  tooLarge header large := ⟨tooLarge header large, rfl⟩

theorem bufferEffect_of_no_header (headless : ∀ size declared, ¬ HasHeader buffer size declared)
    (untaken : Untaken maxSize buffer outcome) : BufferEffect maxSize buffer outcome buffer :=
  bufferEffect_of_no_frame (fun size declared frame => headless size declared frame.1) untaken
    fun header => absurd header (headless _ _)

/-- Behind a complete header, a frame is there exactly when the limit and the bytes allow
it. -/
theorem hasFrame_iff_of_lengthField {first : UInt8} {packetType : PacketType}
    {field data : Bytes} {size declared : Nat}
    (known : PacketType.tryFrom (first >>> 4) = some packetType)
    (complete : LengthField 4 field) :
    HasFrame maxSize (first :: (field ++ data)) size declared ↔
      (lengthValue field = declared ∧ field.length = size) ∧
        lengthValue field ≤ maxSize ∧ lengthValue field ≤ data.length := by
  rw [HasFrame, hasHeader_iff_of_lengthField known complete]
  refine and_congr_right ?_
  rintro ⟨rfl, rfl⟩
  simp only [List.length_cons, List.length_append]
  omega

theorem bufferEffect_of_lengthField {first : UInt8} {packetType : PacketType} {field : Bytes}
    (known : PacketType.tryFrom (first >>> 4) = some packetType)
    (complete : LengthField 4 field) (maxSize : Nat) (data : Bytes) :
    BufferEffect maxSize (first :: (field ++ data))
      (decodePacketFromBytes maxSize (first :: (field ++ data))).1
      (decodePacketFromBytes maxSize (first :: (field ++ data))).2 := by
  have header : HasHeader (first :: (field ++ data)) field.length (lengthValue field) :=
    (hasHeader_iff_of_lengthField known complete).mpr ⟨rfl, rfl⟩
  have sole : ∀ {size declared}, HasHeader (first :: (field ++ data)) size declared →
      lengthValue field = declared := fun other =>
    ((hasHeader_iff_of_lengthField known complete).mp other).1
  rw [decode_of_lengthField known complete]
  by_cases large : lengthValue field > maxSize
  · rw [if_pos large]
    refine bufferEffect_of_no_frame (fun size declared frame => ?_) (.tooLarge header large)
      fun other _ => by rw [sole other]
    have bounded := ((hasFrame_iff_of_lengthField known complete).mp frame).2.1
    omega
  · rw [if_neg large]
    by_cases short : data.length < lengthValue field
    · rw [if_pos short]
      refine bufferEffect_of_no_frame (fun size declared frame => ?_) .incomplete
        fun other excess => absurd (sole other ▸ excess) large
      have enough := ((hasFrame_iff_of_lengthField known complete).mp frame).2.2
      omega
    · rw [if_neg short]
      have frame : HasFrame maxSize (first :: (field ++ data)) field.length (lengthValue field) :=
        (hasFrame_iff_of_lengthField known complete).mpr ⟨⟨rfl, rfl⟩, by omega, by omega⟩
      have shorter : data.drop (lengthValue field) ≠ first :: (field ++ data) := by
        intro same
        have lengths := congrArg List.length same
        simp only [List.length_drop, List.length_cons, List.length_append] at lengths
        omega
      refine ⟨iff_of_true shorter ⟨_, _, frame⟩, fun other => ?_, fun same => absurd same shorter,
        fun other excess => absurd (sole other ▸ excess) large⟩
      obtain ⟨⟨rfl, rfl⟩, _⟩ := (hasFrame_iff_of_lengthField known complete).mp other
      refine ⟨header.size_bounds, (drop_header first field data _).symm, fun nothing => ?_⟩
      obtain ⟨packet, _, absent⟩ := bind_eq_ok_iff.mp nothing
      cases absent

end Effect

/-- For every buffer and limit the decoder leaves the buffer as it is or takes the frame at
its front. -/
theorem decode_buffer_effect (maxSize : Nat) (buffer : Bytes) :
    BufferEffect maxSize buffer (decodePacketFromBytes maxSize buffer).1
      (decodePacketFromBytes maxSize buffer).2 := by
  cases front buffer with
  | short few =>
      rw [decode_of_short few]
      exact bufferEffect_of_no_header (fun _ _ => not_hasHeader_of_short few) .incomplete
  | unknownType nonempty unknown =>
      rw [decode_of_unknownType nonempty unknown]
      refine bufferEffect_of_no_header (fun size declared header => ?_) (.unknownType rfl unknown)
      obtain ⟨⟨packetType, known⟩, _⟩ := hasHeader_cons_iff.mp header
      rw [unknown] at known
      cases known
  | malformedLength known malformed =>
      obtain rfl := eq_malformedLength_of_sliceLengthFrom malformed
      rw [decode_of_malformedLength known malformed]
      refine bufferEffect_of_no_header (fun size declared header => ?_) (.malformedLength malformed)
      cases malformed.symm.trans (hasHeader_cons_iff.mp header).2
  | partialLength known unfinished =>
      rw [decode_of_partialLength known unfinished]
      refine bufferEffect_of_no_header (fun size declared header => ?_) .incomplete
      cases unfinished.symm.trans (hasHeader_cons_iff.mp header).2
  | header known complete => exact bufferEffect_of_lengthField known complete maxSize _

end HotaruMqtt.Codec
