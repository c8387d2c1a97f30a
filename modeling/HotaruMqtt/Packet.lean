import HotaruMqtt.Exec.Bytes

/-!
# Packets, errors and the numeric tables of the wire format

The data types of `packet.rs`, `error.rs` and the parts of `request.rs` that
reach the wire.  Topics and identifiers are strings, payloads and passwords
are byte strings, and packet identifiers are sixteen-bit integers.

Each code table comes with the two facts the codec needs of it: reading a
written code gives the value back, and every code that is read is the one the
value is written as.
-/

namespace HotaruMqtt

open Exec

/-! ## Quality of service and acknowledgement codes -/

/-- MQTT Quality of Service level. -/
inductive QoS
  | atMostOnce
  | atLeastOnce
  | exactlyOnce
  deriving DecidableEq, Repr

namespace QoS

/-- The level as it goes into flag bits and SUBSCRIBE payloads. -/
def asU8 : QoS → UInt8
  | atMostOnce => 0
  | atLeastOnce => 1
  | exactlyOnce => 2

/-- The level that a number stands for, if it stands for one. -/
def fromU8 : UInt8 → Option QoS
  | 0 => some atMostOnce
  | 1 => some atLeastOnce
  | 2 => some exactlyOnce
  | _ => none

/-- The QoS table accepts exactly the codes it writes. -/
@[simp]
theorem fromU8_eq_some_iff {code : UInt8} {qos : QoS} :
    fromU8 code = some qos ↔ code = qos.asU8 := by
  constructor
  · intro read
    unfold fromU8 at read
    split at read <;> cases read <;> rfl
  · rintro rfl
    cases qos <;> rfl

/-- The place of a level in the derived order. -/
def rank : QoS → Nat
  | atMostOnce => 0
  | atLeastOnce => 1
  | exactlyOnce => 2

instance : LinearOrder QoS :=
  LinearOrder.lift' rank fun first second => by cases first <;> cases second <;> simp [rank]

end QoS

/-- Wire-level packet identifier. -/
abbrev PacketId := UInt16

/-- Per-filter answer of a SUBACK. -/
inductive SubackCode
  | granted (qos : QoS)
  | failure
  deriving DecidableEq, Repr

namespace SubackCode

/-- The code on the wire: the granted level, or 0x80. -/
def asU8 : SubackCode → UInt8
  | granted qos => qos.asU8
  | failure => 0x80

/-- The code that a byte stands for. -/
def fromU8 : UInt8 → Option SubackCode
  | 0 => some (granted .atMostOnce)
  | 1 => some (granted .atLeastOnce)
  | 2 => some (granted .exactlyOnce)
  | 0x80 => some failure
  | _ => none

/-- The SUBACK table accepts exactly the codes it writes. -/
@[simp]
theorem fromU8_eq_some_iff {code : UInt8} {answer : SubackCode} :
    fromU8 code = some answer ↔ code = answer.asU8 := by
  constructor
  · intro read
    unfold fromU8 at read
    split at read <;> cases read <;> rfl
  · rintro rfl
    rcases answer with ⟨_ | _ | _⟩ | _ <;> rfl

end SubackCode

/-- Answer of a CONNACK. -/
inductive ConnackReturnCode
  | accepted
  | unacceptableProtocolVersion
  | identifierRejected
  | serverUnavailable
  | badUsernameOrPassword
  | notAuthorized
  deriving DecidableEq, Repr

namespace ConnackReturnCode

/-- The code on the wire. -/
def asU8 : ConnackReturnCode → UInt8
  | accepted => 0
  | unacceptableProtocolVersion => 1
  | identifierRejected => 2
  | serverUnavailable => 3
  | badUsernameOrPassword => 4
  | notAuthorized => 5

/-- The code that a byte stands for. -/
def tryFrom : UInt8 → Option ConnackReturnCode
  | 0 => some accepted
  | 1 => some unacceptableProtocolVersion
  | 2 => some identifierRejected
  | 3 => some serverUnavailable
  | 4 => some badUsernameOrPassword
  | 5 => some notAuthorized
  | _ => none

/-- The CONNACK table accepts exactly the codes it writes. -/
@[simp]
theorem tryFrom_eq_some_iff {code : UInt8} {answer : ConnackReturnCode} :
    tryFrom code = some answer ↔ code = answer.asU8 := by
  constructor
  · intro read
    unfold tryFrom at read
    split at read <;> cases read <;> rfl
  · rintro rfl
    cases answer <;> rfl

end ConnackReturnCode

/-! ## Errors -/

/-- The kinds of I/O error the crate tells apart: a read cut short by
end-of-file, and everything else. -/
inductive IoErrorKind
  | unexpectedEof
  | other
  deriving DecidableEq, Repr

/-- What was waited for in vain. -/
inductive TimeoutKind
  | connack
  | connectReceive
  | ack
  deriving DecidableEq, Repr

/-- How a peer or a caller breaks the protocol. -/
inductive Violation
  | expectedConnack
  | expectedConnect
  | connectionRefused (code : ConnackReturnCode)
  | unexpectedPacket (expected got : String)
  | invalidProtocolName
  | unsupportedProtocolLevel (level : UInt8)
  | emptyTopic
  | topicTooLong
  | wildcardInPublishTopic
  | hashWildcardNotTerminal
  | wildcardMixedWithLiteral
  | sessionAlreadyBound
  /-- A fixed header declared a body larger than the configured cap. -/
  | packetTooLarge (len max : Nat)
  deriving DecidableEq, Repr

/-- Why bytes are no packet, or a packet cannot be written. -/
inductive CodecError
  | unexpectedEof
  | invalidPacketType (raw : UInt8)
  | malformedLength
  | invalidUtf8
  | payloadTooLong (len max : Nat)
  | qosInvalid (bits : UInt8)
  | reservedFlagSet
  | missingPacketId
  | zeroPacketId
  | topicTooLong (len max : Nat)
  | bodyTooLong (len max : Nat)
  deriving DecidableEq, Repr

/-- Every error that the crate returns. -/
inductive MqttError
  | io (kind : IoErrorKind)
  | channelClosed
  | ackTimeout
  | timeout (kind : TimeoutKind)
  | configuration (message : String)
  | notConnected (message : String)
  | protocol (violation : Violation)
  | codec (error : CodecError)
  | unsupported (message : String)
  deriving DecidableEq, Repr

/-- The errors that bytes can cause: codec and protocol errors. -/
def MqttError.IsWire : MqttError → Prop
  | .protocol _ | .codec _ => True
  | _ => False

/-! ## Packets -/

/-- The largest remaining length four bytes can encode. -/
def mqttSpecMaxPacketSize : Nat := 268435455

/-- A PUBLISH; the identifier is absent at QoS 0. -/
structure PublishPacket where
  topic : String
  payload : Bytes
  dup : Bool
  qos : QoS
  retain : Bool
  packetId : Option PacketId
  deriving DecidableEq, Repr

/-- The Will as a CONNECT carries it. -/
structure WillPacket where
  topic : String
  payload : Bytes
  qos : QoS
  retain : Bool
  deriving DecidableEq, Repr

/-- A CONNECT. -/
structure ConnectPacket where
  clientId : String
  cleanSession : Bool
  keepAlive : UInt16
  username : Option String
  password : Option Bytes
  will : Option WillPacket
  deriving DecidableEq, Repr

/-- A CONNACK. -/
structure ConnackPacket where
  sessionPresent : Bool
  returnCode : ConnackReturnCode
  deriving DecidableEq, Repr

/-- One entry of a SUBSCRIBE. -/
structure TopicSubscription where
  topic : String
  qos : QoS
  deriving DecidableEq, Repr

/-- A SUBSCRIBE. -/
structure SubscribePacket where
  packetId : PacketId
  subscriptions : List TopicSubscription
  deriving DecidableEq, Repr

/-- A SUBACK, with one code for each entry of its SUBSCRIBE. -/
structure SubackPacket where
  packetId : PacketId
  returnCodes : List SubackCode
  deriving DecidableEq, Repr

/-- An UNSUBSCRIBE. -/
structure UnsubscribePacket where
  packetId : PacketId
  topics : List String
  deriving DecidableEq, Repr

/-- The fourteen kinds of packet. -/
inductive Packet
  | connect (connect : ConnectPacket)
  | connack (connack : ConnackPacket)
  | publish (publish : PublishPacket)
  | puback (id : PacketId)
  | pubrec (id : PacketId)
  | pubrel (id : PacketId)
  | pubcomp (id : PacketId)
  | subscribe (subscribe : SubscribePacket)
  | suback (suback : SubackPacket)
  | unsubscribe (unsubscribe : UnsubscribePacket)
  | unsuback (id : PacketId)
  | pingreq
  | pingresp
  | disconnect
  deriving DecidableEq, Repr

/-! ## Packet types and flag bytes -/

/-- The kinds of packet as the first byte names them. -/
inductive PacketType
  | connect
  | connack
  | publish
  | puback
  | pubrec
  | pubrel
  | pubcomp
  | subscribe
  | suback
  | unsubscribe
  | unsuback
  | pingreq
  | pingresp
  | disconnect
  deriving DecidableEq, Repr

namespace PacketType

/-- The discriminant, as `packet_type as u8`. -/
def asU8 : PacketType → UInt8
  | connect => 1
  | connack => 2
  | publish => 3
  | puback => 4
  | pubrec => 5
  | pubrel => 6
  | pubcomp => 7
  | subscribe => 8
  | suback => 9
  | unsubscribe => 10
  | unsuback => 11
  | pingreq => 12
  | pingresp => 13
  | disconnect => 14

/-- The kind that a high nibble stands for; 0 and 15 stand for none. -/
def tryFrom : UInt8 → Option PacketType
  | 1 => some connect
  | 2 => some connack
  | 3 => some publish
  | 4 => some puback
  | 5 => some pubrec
  | 6 => some pubrel
  | 7 => some pubcomp
  | 8 => some subscribe
  | 9 => some suback
  | 10 => some unsubscribe
  | 11 => some unsuback
  | 12 => some pingreq
  | 13 => some pingresp
  | 14 => some disconnect
  | _ => none

/-- The type table accepts exactly the discriminants. -/
@[simp]
theorem tryFrom_eq_some_iff {raw : UInt8} {packetType : PacketType} :
    tryFrom raw = some packetType ↔ raw = packetType.asU8 := by
  constructor
  · intro read
    unfold tryFrom at read
    split at read <;> cases read <;> rfl
  · rintro rfl
    cases packetType <;> rfl

end PacketType

/-! The low nibble of a PUBLISH first byte. -/

namespace FixedHeaderFlags

/-- The message is to be retained. -/
def retain : UInt8 := 0b0000_0001

/-- The two bits of the level. -/
def qos : UInt8 := 0b0000_0110

/-- The message may have been sent before. -/
def dup : UInt8 := 0b0000_1000

/-- Every bit that has a name. -/
def all : UInt8 := retain ||| qos ||| dup

/-- `FixedHeaderFlags::from_bits`: refuse bits that have no name. -/
def fromBits (bits : UInt8) : Option UInt8 :=
  if bits &&& ~~~all = 0 then some bits else none

end FixedHeaderFlags

/-! The flag byte of a CONNECT. -/

namespace ConnectFlags

/-- A user name follows. -/
def username : UInt8 := 0b1000_0000

/-- A password follows. -/
def password : UInt8 := 0b0100_0000

/-- The Will is to be retained. -/
def willRetain : UInt8 := 0b0010_0000

/-- The two bits of the Will's level. -/
def willQoSMask : UInt8 := 0b0001_1000

/-- There is a Will. -/
def willFlag : UInt8 := 0b0000_0100

/-- The session starts clean. -/
def cleanSession : UInt8 := 0b0000_0010

/-- The bit that must be zero. -/
def reserved : UInt8 := 0b0000_0001

/-- Every bit that has a name. -/
def all : UInt8 :=
  username ||| password ||| willRetain ||| willQoSMask ||| willFlag |||
    cleanSession ||| reserved

/-- `ConnectFlags::from_bits_truncate`: drop bits that have no name. -/
def fromBitsTruncate (bits : UInt8) : UInt8 :=
  bits &&& all

end ConnectFlags

/-- `flags.contains(wanted)` of a bit set. -/
def containsFlag (flags wanted : UInt8) : Bool :=
  flags &&& wanted = wanted

end HotaruMqtt
