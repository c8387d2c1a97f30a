import HotaruMqtt.Codec.Primitives
import HotaruMqtt.Codec.Varint

/-!
# Packet encoders

The encoders of `codec/encode.rs` and `encode_packet` of `codec/mod.rs`.  Each
builds a body and puts a first byte and the remaining length before it.  Only
PUBLISH is validated; the other variants are written whatever they hold.
-/

namespace HotaruMqtt.Codec

open Exec Exec.Outcome

/-- A first byte, the remaining length of the body, and the body. -/
def frameBytes (first : UInt8) (body : Bytes) : Bytes :=
  first :: encodeRemainingLength body.length ++ body

/-! ## CONNECT and CONNACK -/

/-- The flag byte of a CONNECT. -/
def connectFlags (conn : ConnectPacket) : UInt8 :=
  let flags : UInt8 := 0
  let flags :=
    if conn.cleanSession then flags ||| ConnectFlags.cleanSession else flags
  let flags :=
    match conn.will with
    | some will =>
        let flags := flags ||| ConnectFlags.willFlag
        let flags := flags ||| ((will.qos.asU8 <<< 3) &&& ConnectFlags.willQoSMask)
        if will.retain then flags ||| ConnectFlags.willRetain else flags
    | none => flags
  let flags :=
    if conn.username.isSome then flags ||| ConnectFlags.username else flags
  if conn.password.isSome then flags ||| ConnectFlags.password else flags

/-- Protocol name and level. -/
def protocolHeader : Bytes :=
  [0x00, 0x04, 0x4D, 0x51, 0x54, 0x54, 0x04]

/-- The length-prefixed fields of a CONNECT. -/
def writeConnectFields (out : Bytes) (conn : ConnectPacket) : Bytes :=
  let out := writeArcStr out conn.clientId
  let out :=
    match conn.will with
    | some will => writeBytes (writeArcStr out will.topic) will.payload
    | none => out
  let out :=
    match conn.username with
    | some username => writeArcStr out username
    | none => out
  match conn.password with
  | some password => writeBytes out password
  | none => out

/-- The body of a CONNECT. -/
def connectBody (conn : ConnectPacket) : Bytes :=
  let body := protocolHeader ++ [connectFlags conn] ++ toBeBytes conn.keepAlive
  writeConnectFields body conn

/-- A CONNECT; nothing in it is refused. -/
def encodeConnect (conn : ConnectPacket) : Bytes :=
  frameBytes (PacketType.connect.asU8 <<< 4) (connectBody conn)

/-- A CONNACK, which always has the same length. -/
def encodeConnack (ack : ConnackPacket) : Bytes :=
  [PacketType.connack.asU8 <<< 4, 0x02,
    if ack.sessionPresent then 0x01 else 0x00,
    ack.returnCode.asU8]

/-! ## PUBLISH -/

/-- Everything both PUBLISH encoders refuse; otherwise the packet id to write,
which is absent at QoS 0. -/
def validatePublishForEncode (publish : PublishPacket) :
    Outcome CodecError (Option PacketId) :=
  let topicLength := (asBytes publish.topic).length
  if topicLength > 65535 then
    err (.topicTooLong topicLength 65535)
  else if publish.qos = .atMostOnce then
    ok none
  else
    match publish.packetId with
    | none => err .missingPacketId
    | some packetId =>
        if packetId = 0 then err .zeroPacketId else ok (some packetId)

/-- The low nibble of the first byte of a PUBLISH. -/
def packPublishFlags (publish : PublishPacket) : UInt8 :=
  let flags : UInt8 := 0
  let flags := if publish.dup then flags ||| FixedHeaderFlags.dup else flags
  let flags := if publish.retain then flags ||| FixedHeaderFlags.retain else flags
  flags ||| ((publish.qos.asU8 <<< 1) &&& FixedHeaderFlags.qos)

/-- The first byte of a PUBLISH. -/
def publishFirst (publish : PublishPacket) : UInt8 :=
  (PacketType.publish.asU8 <<< 4) ||| packPublishFlags publish

/-- The body of a PUBLISH that carries the given packet id. -/
def publishBody (publish : PublishPacket) (packetId : Option PacketId) : Bytes :=
  let topicBytes := asBytes publish.topic
  let body := toBeBytes (UInt16.ofNat topicBytes.length) ++ topicBytes
  let body :=
    match packetId with
    | some packetId => body ++ toBeBytes packetId
    | none => body
  body ++ publish.payload

/-- A PUBLISH, refused if its topic, its identifier or its size does not fit. -/
def encodePublish (publish : PublishPacket) : Outcome CodecError Bytes := do
  let packetId ← validatePublishForEncode publish
  let body := publishBody publish packetId
  if body.length > mqttSpecMaxPacketSize then
    err (.bodyTooLong body.length mqttSpecMaxPacketSize)
  else
    ok (frameBytes (publishFirst publish) body)

/-! ## Subscription packets -/

/-- Each filter with its level. -/
def writeSubscriptions (out : Bytes) : List TopicSubscription → Bytes
  | [] => out
  | sub :: rest => writeSubscriptions (writeArcStr out sub.topic ++ [sub.qos.asU8]) rest

/-- The body of a SUBSCRIBE. -/
def subscribeBody (packet : SubscribePacket) : Bytes :=
  writeSubscriptions (toBeBytes packet.packetId) packet.subscriptions

/-- A SUBSCRIBE; an empty one is written as well. -/
def encodeSubscribe (packet : SubscribePacket) : Bytes :=
  frameBytes ((PacketType.subscribe.asU8 <<< 4) ||| 0x02) (subscribeBody packet)

/-- The body of a SUBACK. -/
def subackBody (packet : SubackPacket) : Bytes :=
  toBeBytes packet.packetId ++ packet.returnCodes.map SubackCode.asU8

/-- A SUBACK; an empty one is written as well. -/
def encodeSuback (packet : SubackPacket) : Bytes :=
  frameBytes (PacketType.suback.asU8 <<< 4) (subackBody packet)

/-- The topics one after the other. -/
def writeTopics (out : Bytes) : List String → Bytes
  | [] => out
  | topic :: rest => writeTopics (writeArcStr out topic) rest

/-- The body of an UNSUBSCRIBE. -/
def unsubscribeBody (packet : UnsubscribePacket) : Bytes :=
  writeTopics (toBeBytes packet.packetId) packet.topics

/-- An UNSUBSCRIBE; an empty one is written as well. -/
def encodeUnsubscribe (packet : UnsubscribePacket) : Bytes :=
  frameBytes ((PacketType.unsubscribe.asU8 <<< 4) ||| 0x02) (unsubscribeBody packet)

/-! ## Any packet -/

/-- The four-byte packets that carry only an id. -/
def encodeId (first : UInt8) (id : PacketId) : Bytes :=
  [first, 0x02, (id >>> 8).toUInt8, (id &&& 0xFF).toUInt8]

/-- `encode_packet`: the bytes of a packet, unless it is a PUBLISH that is refused. -/
def encodePacket : Packet → Outcome CodecError Bytes
  | .connect connect => ok (encodeConnect connect)
  | .connack connack => ok (encodeConnack connack)
  | .publish publish => encodePublish publish
  | .puback id => ok (encodeId 0x40 id)
  | .pubrec id => ok (encodeId 0x50 id)
  | .pubrel id => ok (encodeId 0x62 id)
  | .pubcomp id => ok (encodeId 0x70 id)
  | .subscribe subscribe => ok (encodeSubscribe subscribe)
  | .suback suback => ok (encodeSuback suback)
  | .unsubscribe unsubscribe => ok (encodeUnsubscribe unsubscribe)
  | .unsuback id => ok (encodeId 0xB0 id)
  | .pingreq => ok [0xC0, 0x00]
  | .pingresp => ok [0xD0, 0x00]
  | .disconnect => ok [0xE0, 0x00]

end HotaruMqtt.Codec
