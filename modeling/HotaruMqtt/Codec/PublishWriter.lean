import HotaruMqtt.Codec.Encode

/-!
# The streaming PUBLISH writer

`write_publish_packet` of `codec/mod.rs` computes the body length instead of
building the body, and writes header and payload separately.  On a writer that
accepts every write it puts the same bytes on the wire as `encode_publish`, and
refuses the same packets before it has written anything.
-/

namespace HotaruMqtt.Codec

open Exec Exec.Outcome

/-- An asynchronous writer, with the bytes that have reached it. -/
structure Writer (ω : Type) where
  writeAll : ω → Bytes → Outcome MqttError Unit × ω
  written : ω → Bytes

/-- The writer takes every write in full. -/
def Writer.Accepting {ω : Type} (writer : Writer ω) : Prop :=
  ∀ state bytes, ∃ next, writer.writeAll state bytes = (ok (), next) ∧
    writer.written next = writer.written state ++ bytes

/-- The length of the topic and the packet id, computed without building them. -/
def varHeaderLen (publish : PublishPacket) (packetId : Option PacketId) : Nat :=
  let varHeaderLen := 2 + (asBytes publish.topic).length
  if packetId.isSome then varHeaderLen + 2 else varHeaderLen

/-- Everything that is written before the payload. -/
def publishHeader (publish : PublishPacket) (packetId : Option PacketId) (bodyLen : Nat) :
    Bytes :=
  let topicBytes := asBytes publish.topic
  let header := [(PacketType.publish.asU8 <<< 4) ||| packPublishFlags publish]
  let header := header ++ encodeRemainingLength bodyLen
  let header := header ++ toBeBytes (UInt16.ofNat topicBytes.length)
  let header := header ++ topicBytes
  match packetId with
  | some packetId => header ++ toBeBytes packetId
  | none => header

/-- `write_publish_packet`: header and payload are written apart, so that the payload is not
copied. -/
def writePublishPacket {ω : Type} (writer : Writer ω) (state : ω) (publish : PublishPacket) :
    Outcome MqttError Unit × ω :=
  match validatePublishForEncode publish with
  | .err error => (err (.codec error), state)
  | .panic cause => (.panic cause, state)
  | .ok packetId =>
      let bodyLen := varHeaderLen publish packetId + publish.payload.length
      if bodyLen > mqttSpecMaxPacketSize then
        (err (.codec (.bodyTooLong bodyLen mqttSpecMaxPacketSize)), state)
      else
        match writer.writeAll state (publishHeader publish packetId bodyLen) with
        | (.err error, state) => (err error, state)
        | (.panic cause, state) => (.panic cause, state)
        | (.ok (), state) => writer.writeAll state publish.payload

/-- The computed length is the length of the body that would be built. -/
theorem varHeaderLen_add (publish : PublishPacket) (packetId : Option PacketId) :
    varHeaderLen publish packetId + publish.payload.length =
      (publishBody publish packetId).length := by
  cases packetId <;> simp [varHeaderLen, publishBody, Nat.add_assoc]

/-- Header and payload are the frame of the body. -/
theorem publishHeader_append (publish : PublishPacket) (packetId : Option PacketId) :
    publishHeader publish packetId (publishBody publish packetId).length ++
        publish.payload =
      frameBytes (publishFirst publish) (publishBody publish packetId) := by
  cases packetId <;> simp [publishHeader, frameBytes, publishFirst, publishBody]

/-- Validation does not panic. -/
theorem safe_validatePublishForEncode (publish : PublishPacket) :
    (validatePublishForEncode publish).Safe := by
  unfold validatePublishForEncode
  dsimp only
  split
  · exact safe_err _
  · split
    · exact safe_ok _
    · split
      · exact safe_err _
      · split
        · exact safe_err _
        · exact safe_ok _

/-- What the writer does, by what the encoder returns. -/
theorem writePublishPacket_of_encodePublish {ω : Type} {writer : Writer ω}
    (accepting : writer.Accepting) (state : ω) (publish : PublishPacket) :
    match encodePublish publish with
    | .ok bytes => ∃ next, writePublishPacket writer state publish = (ok (), next) ∧
        writer.written next = writer.written state ++ bytes
    | .err error => writePublishPacket writer state publish = (err (.codec error), state)
    | .panic _ => False := by
  unfold encodePublish writePublishPacket
  cases validated : validatePublishForEncode publish with
  | err error => rfl
  | panic cause => exact safe_validatePublishForEncode publish cause validated
  | ok packetId =>
      simp only [ok_bind, varHeaderLen_add]
      by_cases long : (publishBody publish packetId).length > mqttSpecMaxPacketSize
      · simp only [if_pos long]
      · simp only [if_neg long]
        obtain ⟨middle, headerWrite, headerWritten⟩ := accepting state
          (publishHeader publish packetId (publishBody publish packetId).length)
        obtain ⟨next, payloadWrite, payloadWritten⟩ := accepting middle publish.payload
        refine ⟨next, ?_, ?_⟩
        · rw [headerWrite]
          exact payloadWrite
        · rw [payloadWritten, headerWritten, List.append_assoc, publishHeader_append]

/-- The two PUBLISH encoders agree: they succeed together and put the same bytes
on the wire, or refuse with the same error, and then nothing is written. -/
theorem writePublishPacket_agrees {ω : Type} (writer : Writer ω) (state : ω)
    (publish : PublishPacket) (accepting : writer.Accepting) :
    ((writePublishPacket writer state publish).1 = ok () ↔
        ∃ bytes, encodePublish publish = ok bytes) ∧
      (∀ bytes, encodePublish publish = ok bytes →
        writer.written (writePublishPacket writer state publish).2 =
          writer.written state ++ bytes) ∧
      (∀ error, (writePublishPacket writer state publish).1 = err (.codec error) ↔
        encodePublish publish = err error) ∧
      ((writePublishPacket writer state publish).1 ≠ ok () →
        (writePublishPacket writer state publish).2 = state) := by
  have agreement := writePublishPacket_of_encodePublish accepting state publish
  cases encoded : encodePublish publish with
  | ok bytes =>
      rw [encoded] at agreement
      obtain ⟨next, wrote, written⟩ := agreement
      simp [wrote, written]
  | err error =>
      rw [encoded] at agreement
      simp [agreement]
  | panic cause =>
      rw [encoded] at agreement
      exact agreement.elim

/-- A writer that keeps what it is given. -/
def bufferWriter : Writer Bytes where
  writeAll state bytes := (ok (), state ++ bytes)
  written := id

/-- A QoS 2 PUBLISH written after one byte. -/
theorem writePublishPacket_agrees_buffer :
    ((writePublishPacket bufferWriter [0xFF]
          ⟨"t", [1, 2], true, .exactlyOnce, false, some 9⟩).1 = ok () ↔
        ∃ bytes, encodePublish ⟨"t", [1, 2], true, .exactlyOnce, false, some 9⟩ = ok bytes) ∧
      (∀ bytes, encodePublish ⟨"t", [1, 2], true, .exactlyOnce, false, some 9⟩ = ok bytes →
        bufferWriter.written (writePublishPacket bufferWriter [0xFF]
            ⟨"t", [1, 2], true, .exactlyOnce, false, some 9⟩).2 =
          bufferWriter.written [0xFF] ++ bytes) ∧
      (∀ error, (writePublishPacket bufferWriter [0xFF]
            ⟨"t", [1, 2], true, .exactlyOnce, false, some 9⟩).1 = err (.codec error) ↔
        encodePublish ⟨"t", [1, 2], true, .exactlyOnce, false, some 9⟩ = err error) ∧
      ((writePublishPacket bufferWriter [0xFF]
            ⟨"t", [1, 2], true, .exactlyOnce, false, some 9⟩).1 ≠ ok () →
        (writePublishPacket bufferWriter [0xFF]
            ⟨"t", [1, 2], true, .exactlyOnce, false, some 9⟩).2 = [0xFF]) :=
  writePublishPacket_agrees bufferWriter [0xFF]
    ⟨"t", [1, 2], true, .exactlyOnce, false, some 9⟩ fun state bytes =>
      ⟨state ++ bytes, rfl, rfl⟩

end HotaruMqtt.Codec
