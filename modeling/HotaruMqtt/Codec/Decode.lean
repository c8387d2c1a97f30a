import HotaruMqtt.Codec.Primitives
import HotaruMqtt.Exec.Loop

/-!
# Packet-body parsers

The parsers of `codec/decode.rs`.  Every index and range is taken through the
panicking accessors, so a body that is shorter than a parser believes shows up
as a panic of the model.
-/

namespace HotaruMqtt.Codec

open Exec Exec.Outcome

/-- The check on PINGREQ, PINGRESP and DISCONNECT. -/
def requireEmptyBody (remaining : Nat) : Outcome MqttError Unit :=
  if remaining ≠ 0 then
    err (.codec (.payloadTooLong remaining 0))
  else
    ok ()

/-! ## CONNECT and CONNACK -/

/-- The optional will of a CONNECT, governed by its flag byte. -/
def parseWill (body : Bytes) (flagsByte : UInt8) (cursor : Nat) :
    Outcome MqttError (Option WillPacket × Nat) :=
  let connectFlags := ConnectFlags.fromBitsTruncate flagsByte
  if containsFlag connectFlags ConnectFlags.willFlag then do
    let (topic, cursor) ← readArcStr body cursor
    let (payload, cursor) ← readBytes body cursor
    let willQosBits := (flagsByte &&& ConnectFlags.willQoSMask) >>> 3
    let qos ← okOr (.codec (.qosInvalid willQosBits)) (QoS.fromU8 willQosBits)
    let retain := containsFlag connectFlags ConnectFlags.willRetain
    ok (some ⟨topic, payload, qos, retain⟩, cursor)
  else
    ok (none, cursor)

/-- A field that is present when its flag is. -/
def parseFlagged {α : Type} (flagsByte flag : UInt8)
    (read : Nat → Outcome MqttError (α × Nat)) (cursor : Nat) :
    Outcome MqttError (Option α × Nat) :=
  if containsFlag (ConnectFlags.fromBitsTruncate flagsByte) flag then do
    let (value, cursor) ← read cursor
    ok (some value, cursor)
  else
    ok (none, cursor)

/-- The length-prefixed fields of a CONNECT, which start at offset 10. -/
def parseConnectFields (body : Bytes) (flagsByte : UInt8) (keepAlive : UInt16) :
    Outcome MqttError Packet := do
  let (clientId, cursor) ← readArcStr body 10
  let (will, cursor) ← parseWill body flagsByte cursor
  let (username, cursor) ←
    parseFlagged flagsByte ConnectFlags.username (readArcStr body) cursor
  let (password, _) ←
    parseFlagged flagsByte ConnectFlags.password (readBytes body) cursor
  ok (.connect
    { clientId
      cleanSession :=
        containsFlag (ConnectFlags.fromBitsTruncate flagsByte) ConnectFlags.cleanSession
      keepAlive
      username
      password
      will })

/-- The body of a CONNECT: protocol name and level first, then the flag byte, the keep-alive,
and the fields that the flags announce. -/
def parseConnect (body : Bytes) : Outcome MqttError Packet :=
  if body.length < 10 then
    err (.codec .unexpectedEof)
  else do
    let protoNameLen := fromBeBytes (← Slice.index body 0) (← Slice.index body 1)
    if protoNameLen.toNat ≠ 4 ∨
        (← Slice.range body 2 6) ≠ [0x4D, 0x51, 0x54, 0x54] then
      err (.protocol .invalidProtocolName)
    else
      let level ← Slice.index body 6
      if level ≠ 0x04 then
        err (.protocol (.unsupportedProtocolLevel level))
      else
        let flagsByte ← Slice.index body 7
        let keepAlive := fromBeBytes (← Slice.index body 8) (← Slice.index body 9)
        parseConnectFields body flagsByte keepAlive

/-- The body of a CONNACK.  Of the first byte only its lowest bit is looked at. -/
def parseConnack (body : Bytes) : Outcome MqttError Packet :=
  if body.length < 2 then
    err (.codec .unexpectedEof)
  else do
    let sessionPresent := decide (((← Slice.index body 0) &&& 0x01) ≠ 0)
    let code ← Slice.index body 1
    let returnCode ← okOr (.codec (.invalidPacketType code)) (ConnackReturnCode.tryFrom code)
    ok (.connack ⟨sessionPresent, returnCode⟩)

/-! ## PUBLISH and its acknowledgements -/

/-- The packet id of a PUBLISH, which is there above QoS 0. -/
def readPublishId (qos : QoS) (body : Bytes) (cursor : Nat) :
    Outcome MqttError (Option PacketId × Nat) :=
  if qos ≠ .atMostOnce then do
    let (id, cursor) ← readU16 body cursor
    ok (some id, cursor)
  else
    ok (none, cursor)

/-- The body of a PUBLISH, whose flags are in the first byte; what is left after topic and
identifier is the payload. -/
def parsePublish (first : UInt8) (body : Bytes) : Outcome MqttError Packet :=
  if body.length < 2 then
    err (.codec .unexpectedEof)
  else do
    let rawFlags := first &&& 0x0F
    let headerFlags ← okOr (.codec .reservedFlagSet) (FixedHeaderFlags.fromBits rawFlags)
    let dup := containsFlag headerFlags FixedHeaderFlags.dup
    let retain := containsFlag headerFlags FixedHeaderFlags.retain
    let qosBits := (headerFlags &&& FixedHeaderFlags.qos) >>> 1
    let qos ← okOr (.codec (.qosInvalid qosBits)) (QoS.fromU8 qosBits)
    let (topic, cursor) ← readArcStr body 0
    let (packetId, cursor) ← readPublishId qos body cursor
    let payload ← Slice.rangeFrom body cursor
    ok (.publish ⟨topic, payload, dup, qos, retain, packetId⟩)

/-- The four acknowledgements of a publish flow; a PUBREL has its own flags. -/
def parseAckPacket (first : UInt8) (packetType : PacketType) (remaining : Nat)
    (body : Bytes) : Outcome MqttError Packet :=
  if remaining ≠ 2 then
    err (.codec (.payloadTooLong remaining 2))
  else
    let flags := first &&& 0x0F
    let expected := if packetType = .pubrel then 0x02 else 0x00
    if flags ≠ expected then
      err (.codec .reservedFlagSet)
    else do
      let id := fromBeBytes (← Slice.index body 0) (← Slice.index body 1)
      ok (match packetType with
        | .puback => .puback id
        | .pubrec => .pubrec id
        | .pubrel => .pubrel id
        | _ => .pubcomp id)

/-! ## Subscription packets -/

/-- One pass of the SUBSCRIBE loop over the cursor and the entries so far. -/
def subscribePass (body : Bytes) (state : Nat × List TopicSubscription) :
    Outcome MqttError
      (Loop.Pass (Nat × List TopicSubscription) (List TopicSubscription)) :=
  let (cursor, subscriptions) := state
  if cursor < body.length then do
    let (topic, cursor) ← readArcStr body cursor
    if cursor ≥ body.length then
      err (.codec .unexpectedEof)
    else
      let qosBits ← Slice.index body cursor
      let cursor := cursor + 1
      let qos ← okOr (.codec (.qosInvalid qosBits)) (QoS.fromU8 qosBits)
      ok (.again (cursor, subscriptions ++ [⟨topic, qos⟩]))
  else
    ok (.leave subscriptions)

/-- The SUBSCRIBE loop; every pass moves the cursor towards the end. -/
def subscribeLoop (body : Bytes) (cursor : Nat)
    (subscriptions : List TopicSubscription) :
    Outcome MqttError (List TopicSubscription) :=
  Loop.exec (subscribePass body) (fun state => body.length - state.1)
    (cursor, subscriptions)

/-- The body of a SUBSCRIBE. -/
def parseSubscribe (body : Bytes) : Outcome MqttError Packet :=
  if body.length < 5 then
    err (.codec .unexpectedEof)
  else do
    let (packetId, cursor) ← readU16 body 0
    let subscriptions ← subscribeLoop body cursor []
    ok (.subscribe ⟨packetId, subscriptions⟩)

/-- The body of a SUBACK: every byte after the identifier is a code. -/
def parseSuback (body : Bytes) : Outcome MqttError Packet :=
  if body.length < 3 then
    err (.codec .unexpectedEof)
  else do
    let packetId := fromBeBytes (← Slice.index body 0) (← Slice.index body 1)
    let returnCodes ← collect ((← Slice.rangeFrom body 2).map fun code =>
      okOr (.codec (.invalidPacketType code)) (SubackCode.fromU8 code))
    ok (.suback ⟨packetId, returnCodes⟩)

/-- One pass of the UNSUBSCRIBE loop over the cursor and the topics so far. -/
def unsubscribePass (body : Bytes) (state : Nat × List String) :
    Outcome MqttError (Loop.Pass (Nat × List String) (List String)) :=
  let (cursor, topics) := state
  if cursor < body.length then do
    let (topic, cursor) ← readArcStr body cursor
    ok (.again (cursor, topics ++ [topic]))
  else
    ok (.leave topics)

/-- The UNSUBSCRIBE loop; every pass moves the cursor towards the end. -/
def unsubscribeLoop (body : Bytes) (cursor : Nat) (topics : List String) :
    Outcome MqttError (List String) :=
  Loop.exec (unsubscribePass body) (fun state => body.length - state.1)
    (cursor, topics)

/-- The body of an UNSUBSCRIBE. -/
def parseUnsubscribe (body : Bytes) : Outcome MqttError Packet :=
  if body.length < 4 then
    err (.codec .unexpectedEof)
  else do
    let (packetId, cursor) ← readU16 body 0
    let topics ← unsubscribeLoop body cursor []
    ok (.unsubscribe ⟨packetId, topics⟩)

/-- The body of an UNSUBACK. -/
def parseUnsuback (remaining : Nat) (body : Bytes) : Outcome MqttError Packet :=
  if remaining ≠ 2 then
    err (.codec (.payloadTooLong remaining 2))
  else do
    ok (.unsuback (fromBeBytes (← Slice.index body 0) (← Slice.index body 1)))

/-! ## Any packet -/

/-- The body of a packet of any type. -/
def parsePacket (first : UInt8) (packetType : PacketType) (remaining : Nat)
    (body : Bytes) : Outcome MqttError Packet :=
  match packetType with
  | .connect => parseConnect body
  | .connack => parseConnack body
  | .publish => parsePublish first body
  | .puback | .pubrec | .pubrel | .pubcomp =>
      parseAckPacket first packetType remaining body
  | .subscribe => parseSubscribe body
  | .suback => parseSuback body
  | .unsubscribe => parseUnsubscribe body
  | .unsuback => parseUnsuback remaining body
  | .pingreq => do
      requireEmptyBody remaining
      ok .pingreq
  | .pingresp => do
      requireEmptyBody remaining
      ok .pingresp
  | .disconnect => do
      requireEmptyBody remaining
      ok .disconnect

end HotaruMqtt.Codec
