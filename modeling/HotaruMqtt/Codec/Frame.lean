import HotaruMqtt.Codec.Decode
import HotaruMqtt.Codec.Encode

/-!
# Framing

The entry points of `codec/mod.rs`: the buffered decoder, the streaming reader
and the streaming PUBLISH writer.
-/

namespace HotaruMqtt.Codec

open Exec Exec.Outcome

/-! ## The two decoders -/

/-- What the buffered decoder reads before it decides whether to wait: the
first byte, its packet type, and the remaining length with the size of its
field once the field is complete. -/
def peekHeader (buf : Bytes) :
    Outcome MqttError (UInt8 × PacketType × Option (Nat × Nat)) := do
  let first ← Slice.index buf 0
  let rawType := first >>> 4
  let packetType ←
    okOr (.codec (.invalidPacketType rawType)) (PacketType.tryFrom rawType)
  let decoded ← decodeRemainingLengthFromSlice (← Slice.rangeFrom buf 1)
  ok (first, packetType, decoded)

/-- `decode_packet_from_bytes`: the first packet of a buffer, or nothing while the buffer does
not hold one yet, with what is left of the buffer. -/
def decodePacketFromBytes (maxSize : Nat) (buf : Bytes) :
    Outcome MqttError (Option Packet) × Bytes :=
  if buf.length < 2 then
    (ok none, buf)
  else
    match peekHeader buf with
    | .err error => (err error, buf)
    | .panic cause => (.panic cause, buf)
    | .ok (_, _, none) => (ok none, buf)
    | .ok (first, packetType, some (remaining, rlBytes)) =>
        if remaining > maxSize then
          (err (.protocol (.packetTooLarge remaining maxSize)), buf)
        else
          let headerLen := 1 + rlBytes
          let total := headerLen + remaining
          if buf.length < total then
            (ok none, buf)
          else
            -- `split_to` removes the frame before the body is parsed, so a
            -- body that is refused is gone from the buffer as well.
            match Slice.splitTo buf total with
            | .err error => (err error, buf)
            | .panic cause => (.panic cause, buf)
            | .ok (packetBytes, buf) =>
                (do
                  let body ← Slice.rangeFrom packetBytes headerLen
                  let packet ← parsePacket first packetType remaining body
                  ok (some packet), buf)

/-- `read_packet`: a future that takes the header byte, the length and the body from a stream,
one read after the other. -/
def readPacket (maxSize : Nat) : ReadFuture UInt8 MqttError Packet := do
  let headerByte ← ReadFuture.read 1
  let first ← .ready (Slice.index headerByte 0)
  let rawType := first >>> 4
  let packetType ← .ready
    (okOr (.codec (.invalidPacketType rawType)) (PacketType.tryFrom rawType))
  let remaining ← readRemainingLength
  -- The size check stands before the body is allocated.
  if remaining > maxSize then
    .ready (err (.protocol (.packetTooLarge remaining maxSize)))
  else do
    let body ← ReadFuture.read remaining
    .ready (parsePacket first packetType remaining body)

end HotaruMqtt.Codec
