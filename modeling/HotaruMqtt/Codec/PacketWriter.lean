import HotaruMqtt.Codec.Agreement
import HotaruMqtt.Codec.PublishWriter
import HotaruMqtt.Codec.RoundTrip

/-!
# What the writer actor writes

`write_packet` of `codec/mod.rs` encodes a packet and writes it at once.  The writer actor
uses it for everything but PUBLISH, whose header and payload are written one after the
other.  In pieces or not, what is written is what the encoder returns, and a packet that
comes back from its own encoding comes back from the middle of a stream as well.
-/

namespace HotaruMqtt.Codec

open Exec Exec.Outcome

/-- `write_packet`: the packet is encoded first and then written as a whole. -/
def writePacket {ω : Type} (writer : Writer ω) (state : ω) (packet : Packet) :
    Outcome MqttError Unit × ω :=
  match encodePacket packet with
  | .err error => (err (.codec error), state)
  | .panic cause => (.panic cause, state)
  | .ok bytes => writer.writeAll state bytes

/-- The two branches of the writer actor that write a packet. -/
def writeQueued {ω : Type} (writer : Writer ω) (state : ω) : Packet → Outcome MqttError Unit × ω
  | .publish publish => writePublishPacket writer state publish
  | packet => writePacket writer state packet

/-- A writer that keeps apart what it is given. -/
def chunkWriter : Writer (List Bytes) where
  writeAll state bytes := (ok (), state ++ [bytes])
  written := List.flatten

theorem accepting_chunkWriter : chunkWriter.Accepting := by
  intro state bytes
  exact ⟨state ++ [bytes], rfl, by simp [chunkWriter]⟩

/-- What is written for a packet, one chunk for each `write_all`. -/
def chunks (packet : Packet) : Option (List Bytes) :=
  match writeQueued chunkWriter [] packet with
  | (.ok (), written) => some written
  | _ => none

theorem writePacket_eq_ok {ω : Type} {writer : Writer ω} (accepting : writer.Accepting)
    {state next : ω} {packet : Packet}
    (written : writePacket writer state packet = (ok (), next)) :
    ∃ bytes, encodePacket packet = ok bytes ∧
      writer.written next = writer.written state ++ bytes := by
  unfold writePacket at written
  split at written
  · simp at written
  · simp at written
  · rename_i bytes encoded
    obtain ⟨after, wrote, same⟩ := accepting state bytes
    rw [written, Prod.mk.injEq] at wrote
    exact ⟨bytes, encoded, wrote.2 ▸ same⟩

theorem writeQueued_eq_ok {ω : Type} {writer : Writer ω} (accepting : writer.Accepting)
    {state next : ω} {packet : Packet}
    (written : writeQueued writer state packet = (ok (), next)) :
    ∃ bytes, encodePacket packet = ok bytes ∧
      writer.written next = writer.written state ++ bytes := by
  cases packet with
  | publish publish =>
      have agreement := writePublishPacket_of_encodePublish accepting state publish
      have wrote : writePublishPacket writer state publish = (ok (), next) := written
      rw [wrote] at agreement
      have same : encodePacket (.publish publish) = encodePublish publish := rfl
      rw [same]
      cases encoded : encodePublish publish with
      | ok bytes =>
          rw [encoded] at agreement
          obtain ⟨after, moved, appended⟩ := agreement
          rw [Prod.mk.injEq] at moved
          exact ⟨bytes, rfl, moved.2 ▸ appended⟩
      | err error =>
          rw [encoded] at agreement
          simp at agreement
      | panic cause =>
          rw [encoded] at agreement
          exact agreement.elim
  | _ => exact writePacket_eq_ok accepting written

/-- The chunks of a packet are its encoding. -/
theorem encodePacket_of_chunks {packet : Packet} {pieces : List Bytes}
    (written : chunks packet = some pieces) : encodePacket packet = ok pieces.flatten := by
  unfold chunks at written
  split at written
  · rename_i found wrote
    cases written
    obtain ⟨bytes, encoded, same⟩ := writeQueued_eq_ok accepting_chunkWriter wrote
    have flattened : pieces.flatten = bytes := by simpa [chunkWriter] using same
    rw [flattened, encoded]
  · contradiction

/-- Unless the encoder refuses the packet, it comes back from what is written for it, at a
reader with this limit. -/
def Fits (limit : Nat) (packet : Packet) : Prop :=
  ∀ pieces ∈ chunks packet, decodePacketFromBytes limit pieces.flatten = (ok (some packet), [])

instance (limit : Nat) (packet : Packet) : Decidable (Fits limit packet) :=
  inferInstanceAs (Decidable (∀ pieces ∈ chunks packet,
    decodePacketFromBytes limit pieces.flatten = (ok (some packet), [])))

theorem fits_of_legal {limit : Nat} {packet : Packet} (legal : Legal packet)
    (admitted : (wireBody packet).length ≤ limit) (canonical : asDecoded packet = packet) :
    Fits limit packet := by
  intro pieces written
  have encoded := encodePacket_of_chunks written
  obtain ⟨-, same⟩ := encodePacket_eq_ok_iff.mp encoded
  have decoded := decode_frameBytes legal admitted []
  rw [List.append_nil, canonical, ← same] at decoded
  exact decoded

/-- The streaming reader returns what the buffered one decodes. -/
theorem poll_of_decode {limit : Nat} {input rest : Bytes} {packet : Packet}
    (decoded : decodePacketFromBytes limit input = (ok (some packet), rest)) :
    (readPacket limit).poll input = .ready (ok packet) rest := by
  have long : 2 ≤ input.length := by
    by_contra short
    rw [decodePacketFromBytes, if_pos (by omega)] at decoded
    simp at decoded
  cases agree_of_two_le long limit with
  | packet found left buffered streamed =>
      rw [decoded] at buffered
      cases buffered
      exact streamed
  | needMore waiting held buffered _ =>
      rw [decoded] at buffered
      simp at buffered
  | failed error left unread buffered _ =>
      rw [decoded] at buffered
      simp at buffered

/-- A packet that fits is read back from the front of a stream. -/
theorem poll_of_fits {limit : Nat} {packet : Packet} {pieces : List Bytes}
    (fits : Fits limit packet) (written : chunks packet = some pieces) (rest : Bytes) :
    (readPacket limit).poll (pieces.flatten ++ rest) = .ready (ok packet) rest :=
  ReadFuture.poll_append_of_ready (poll_of_decode (fits pieces written)) rest

end HotaruMqtt.Codec
