import HotaruMqtt.Codec.Safety
import HotaruMqtt.Codec.Shape

/-!
# The streaming and the buffered decoder agree

The two decoders have their own length loops, their own size checks and their
own idea of the end of input.  On a reader that yields the buffer and then
end-of-file they return the same packet, fail with the same error, or are both
short of input.
-/

namespace HotaruMqtt.Codec

open Exec Exec.Outcome

/-- The reader's part after the type byte. -/
def readRest (maxSize : Nat) (first : UInt8) (packetType : PacketType) (remaining : Nat) :
    ReadFuture UInt8 MqttError Packet :=
  if remaining > maxSize then
    .ready (err (.protocol (.packetTooLarge remaining maxSize)))
  else do
    let body ← ReadFuture.read remaining
    .ready (parsePacket first packetType remaining body)

theorem poll_readPacket_cons (maxSize : Nat) (first : UInt8) (tail : Bytes) :
    (readPacket maxSize).poll (first :: tail) =
      match PacketType.tryFrom (first >>> 4) with
      | none => .ready (err (.codec (.invalidPacketType (first >>> 4)))) tail
      | some packetType =>
          (readRemainingLength >>= readRest maxSize first packetType).poll tail := by
  unfold readPacket
  rw [ReadFuture.read_bind, ReadFuture.poll_readExact_of_le (by simp),
    Slice.index_eq_ok_iff.mpr (show (List.take 1 (first :: tail))[0]? = some first from rfl),
    ReadFuture.ready_ok_bind]
  cases known : PacketType.tryFrom (first >>> 4) with
  | none =>
      dsimp only
      rw [known]
      rfl
  | some packetType =>
      dsimp only
      rw [known]
      rfl

/-- Behind a known type byte, the length is read first. -/
theorem poll_readPacket_known (maxSize : Nat) {first : UInt8} {packetType : PacketType}
    (tail : Bytes) (known : PacketType.tryFrom (first >>> 4) = some packetType) :
    (readPacket maxSize).poll (first :: tail) =
      ReadFuture.Poll.andThen (readRemainingLength.poll tail)
        (readRest maxSize first packetType) := by
  rw [poll_readPacket_cons, known]
  exact ReadFuture.poll_bind _ _ _

theorem poll_readRest (maxSize : Nat) (first : UInt8) (packetType : PacketType)
    (remaining : Nat) (data : Bytes) :
    (readRest maxSize first packetType remaining).poll data =
      if remaining > maxSize then
        .ready (err (.protocol (.packetTooLarge remaining maxSize))) data
      else if data.length < remaining then
        .pending (ReadFuture.read remaining >>= fun body =>
          .ready (parsePacket first packetType remaining body)) data
      else
        .ready (parsePacket first packetType remaining (data.take remaining))
          (data.drop remaining) := by
  unfold readRest
  split
  · rfl
  · rw [ReadFuture.read_bind]
    by_cases short : data.length < remaining
    · rw [if_pos short, ReadFuture.poll_readExact_of_lt short]
    · rw [if_neg short, ReadFuture.poll_readExact_of_le (by omega)]
      rfl

/-- The two decoders on one input: the same packet with the same bytes left, the
same error, or both short of input. -/
inductive Agree (maxSize : Nat) (buffer : Bytes) : Prop
  | packet (packet : Packet) (rest : Bytes)
      (buffered : decodePacketFromBytes maxSize buffer = (ok (some packet), rest))
      (streamed : (readPacket maxSize).poll buffer = .ready (ok packet) rest)
  | needMore (waiting : ReadFuture UInt8 MqttError Packet) (held : Bytes)
      (buffered : decodePacketFromBytes maxSize buffer = (ok none, buffer))
      (streamed : (readPacket maxSize).poll buffer = .pending waiting held)
  | failed (error : MqttError) (left unread : Bytes)
      (buffered : decodePacketFromBytes maxSize buffer = (err error, left))
      (streamed : (readPacket maxSize).poll buffer = .ready (err error) unread)

/-- How the reader's length loop ends, by the slice loop's answer. -/
theorem poll_readRemainingLength_of_lengthField {field : Bytes} (complete : LengthField 4 field)
    (data : Bytes) :
    readRemainingLength.poll (field ++ data) = .ready (ok (lengthValue field)) data := by
  have sliced : sliceLengthFrom 0 .start (field ++ data) =
      ok (some (lengthValue field, field.length)) :=
    decodeRemainingLengthFromSlice_eq_some_iff.mpr ⟨field, data, rfl, complete, rfl, rfl⟩
  have agreed := poll_readLengthLoop (show 0 + 3 = 3 from rfl) .start (field ++ data)
  rw [sliced] at agreed
  obtain ⟨rest, split, polled⟩ := agreed
  rw [Nat.sub_zero, List.take_left] at split
  obtain rfl := List.append_cancel_left split
  exact polled

theorem agree_of_two_le {buffer : Bytes} (long : 2 ≤ buffer.length) (maxSize : Nat) :
    Agree maxSize buffer := by
  cases front buffer with
  | short few => omega
  | @unknownType first tail nonempty unknown =>
      have streamed := poll_readPacket_cons maxSize first tail
      rw [unknown] at streamed
      exact .failed _ _ _ (decode_of_unknownType nonempty unknown maxSize) streamed
  | @malformedLength first packetType tail error known malformed =>
      have streamed := poll_readPacket_known maxSize tail known
      have agreed := poll_readLengthLoop (show 0 + 3 = 3 from rfl) .start tail
      rw [show sliceLengthFrom 0 .start tail = err error from malformed] at agreed
      obtain ⟨rest, polled⟩ := agreed
      rw [show readRemainingLength.poll tail = .ready (err error) rest from polled] at streamed
      exact .failed _ _ _ (decode_of_malformedLength known malformed maxSize) streamed
  | @partialLength first packetType tail known unfinished =>
      have streamed := poll_readPacket_known maxSize tail known
      have agreed := poll_readLengthLoop (show 0 + 3 = 3 from rfl) .start tail
      rw [show sliceLengthFrom 0 .start tail = ok none from unfinished] at agreed
      obtain ⟨waiting, held, polled⟩ := agreed
      rw [show readRemainingLength.poll tail = .pending waiting held from polled] at streamed
      exact .needMore _ _ (decode_of_partialLength known unfinished maxSize) streamed
  | @header first packetType field data known complete =>
      have streamed := poll_readPacket_known maxSize (field ++ data) known
      have buffered := decode_of_lengthField known complete maxSize data
      rw [poll_readRemainingLength_of_lengthField complete] at streamed
      change _ = (readRest maxSize first packetType (lengthValue field)).poll data at streamed
      rw [poll_readRest] at streamed
      by_cases large : lengthValue field > maxSize
      · rw [if_pos large] at streamed buffered
        exact .failed _ _ _ buffered streamed
      · rw [if_neg large] at streamed buffered
        by_cases short : data.length < lengthValue field
        · rw [if_pos short] at streamed buffered
          exact .needMore _ _ buffered streamed
        · rw [if_neg short] at streamed buffered
          have taken : (data.take (lengthValue field)).length = lengthValue field := by
            rw [List.length_take]
            omega
          have safe := (only_parsePacket first packetType (data.take (lengthValue field))).safe
          rw [taken] at safe
          cases parsed : parsePacket first packetType (lengthValue field)
              (data.take (lengthValue field)) with
          | ok packet =>
              rw [parsed] at streamed buffered
              exact .packet _ _ buffered streamed
          | err error =>
              rw [parsed] at streamed buffered
              exact .failed _ _ _ buffered streamed
          | panic cause => exact absurd parsed (safe cause)

/-- Reading from a stream that ends after the buffer. -/
def readPacketToEof (maxSize : Nat) (input : Bytes) : Outcome MqttError Packet × Bytes :=
  (readPacket maxSize).runToEof (.io .unexpectedEof) input

/-- On at least two bytes, both decoders return the same packet and leave the
same bytes, both are short of input, or both fail with the same error. -/
theorem readPacket_agrees_decode (maxSize : Nat) (input : Bytes) (long : 2 ≤ input.length) :
    (∀ packet rest, decodePacketFromBytes maxSize input = (ok (some packet), rest) ↔
        readPacketToEof maxSize input = (ok packet, rest)) ∧
      ((decodePacketFromBytes maxSize input).1 = ok none ↔
        (readPacketToEof maxSize input).1 = err (.io .unexpectedEof)) ∧
      ∀ error : MqttError, error.IsWire →
        ((decodePacketFromBytes maxSize input).1 = err error ↔
          (readPacketToEof maxSize input).1 = err error) := by
  have onlyWire := (only_decodePacketFromBytes maxSize input).error
  cases agree_of_two_le long maxSize with
  | packet packet rest buffered streamed =>
      have whole : readPacketToEof maxSize input = (ok packet, rest) := by
        rw [readPacketToEof, ReadFuture.runToEof, streamed]
      simp [buffered, whole]
  | needMore waiting held buffered streamed =>
      have whole : readPacketToEof maxSize input = (err (.io .unexpectedEof), []) := by
        rw [readPacketToEof, ReadFuture.runToEof, streamed]
      refine ⟨by simp [buffered, whole], by simp [buffered, whole], ?_⟩
      intro error wire
      rw [buffered, whole]
      -- End of file is not an error of the wire.
      refine ⟨by simp, ?_⟩
      rintro ⟨⟩
      exact wire.elim
  | failed error left unread buffered streamed =>
      have whole : readPacketToEof maxSize input = (err error, unread) := by
        rw [readPacketToEof, ReadFuture.runToEof, streamed]
      refine ⟨by simp [buffered, whole], ?_, by simp [buffered, whole]⟩
      rw [buffered, whole]
      refine ⟨by simp, ?_⟩
      rintro ⟨⟩
      have wire : (MqttError.io .unexpectedEof).IsWire := onlyWire _ (by rw [buffered])
      exact wire.elim

/-- A PINGREQ with one byte behind it. -/
theorem readPacket_agrees_decode_pingreq :
    (∀ packet rest, decodePacketFromBytes 0 [0xC0, 0x00, 0x30] = (ok (some packet), rest) ↔
        readPacketToEof 0 [0xC0, 0x00, 0x30] = (ok packet, rest)) ∧
      ((decodePacketFromBytes 0 [0xC0, 0x00, 0x30]).1 = ok none ↔
        (readPacketToEof 0 [0xC0, 0x00, 0x30]).1 = err (.io .unexpectedEof)) ∧
      ∀ error : MqttError, error.IsWire →
        ((decodePacketFromBytes 0 [0xC0, 0x00, 0x30]).1 = err error ↔
          (readPacketToEof 0 [0xC0, 0x00, 0x30]).1 = err error) :=
  readPacket_agrees_decode 0 [0xC0, 0x00, 0x30] (by decide)

end HotaruMqtt.Codec
