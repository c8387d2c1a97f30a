import HotaruMqtt.Packet
import Mathlib.Data.List.AList

/-!
# Sessions and channels

The tables of `session.rs`, and the sending half and the life cycle of
`channel.rs`.  Each method of the session is one step: the two lookups of the
`wake_*` methods are not interleaved with other tasks.  Waking a waiter is
recorded, since the waiter itself is another task.
-/

namespace HotaruMqtt

open Exec Exec.Outcome

/-- A publish as it is handed to handlers. -/
structure IncomingPublish where
  topic : String
  payload : Bytes
  qos : QoS
  retain : Bool
  dup : Bool
  packetId : Option PacketId
  deriving DecidableEq, Repr

/-- A PUBLISH as it is handed to handlers. -/
def incomingFromPacket (p : PublishPacket) : IncomingPublish :=
  { topic := p.topic
    payload := p.payload
    qos := p.qos
    retain := p.retain
    dup := p.dup
    packetId := p.packetId }

/-- Which acknowledgement of a publish flow a waiter expects. -/
inductive AckKind
  | puback
  | pubrec
  | pubcomp
  deriving DecidableEq, Repr

/-- A parked waiter, by what it waits for. -/
inductive AckSlot
  | publishAck (kind : AckKind)
  | suback
  | unsuback
  deriving DecidableEq, Repr

/-- What a woken waiter is given. -/
inductive Wake
  | publishAck (id : PacketId)
  | suback (id : PacketId) (returnCodes : List SubackCode)
  | unsuback (id : PacketId)
  deriving DecidableEq, Repr

/-- The session behind a channel: the counter of identifiers, the QoS 2 messages that wait for
their PUBREL, the parked waiters, and the copies kept to be sent again.  `woken` lists the
answers that were given, and nothing depends on it. -/
structure MqttSession where
  pktCounter : UInt16
  qos2Recv : AList fun _ : PacketId => IncomingPublish
  pendingAcks : AList fun _ : PacketId => AckSlot
  outboundInflight : AList fun _ : PacketId => PublishPacket
  woken : List Wake

namespace MqttSession

/-- A session in which nothing is in flight. -/
def new : MqttSession :=
  ⟨0, ∅, ∅, ∅, []⟩

/-- The counter wraps, and the identifier that would be zero is one. -/
def allocatePacketId (session : MqttSession) : PacketId × MqttSession :=
  let id := session.pktCounter + 1
  (if id = 0 then 1 else id, { session with pktCounter := session.pktCounter + 1 })

theorem allocatePacketId_ne_zero (session : MqttSession) : session.allocatePacketId.1 ≠ 0 := by
  unfold allocatePacketId
  dsimp only
  split
  · decide
  · assumption

/-- Park a waiter under `id`; one that was parked there is replaced. -/
def park (session : MqttSession) (id : PacketId) (slot : AckSlot) : MqttSession :=
  { session with pendingAcks := session.pendingAcks.insert id slot }

/-- Wait for an acknowledgement of a publish. -/
def parkPublishAckWaiter (session : MqttSession) (id : PacketId) (kind : AckKind) : MqttSession :=
  session.park id (.publishAck kind)

/-- Wait for a SUBACK. -/
def parkSubackWaiter (session : MqttSession) (id : PacketId) : MqttSession :=
  session.park id .suback

/-- Wait for an UNSUBACK. -/
def parkUnsubackWaiter (session : MqttSession) (id : PacketId) : MqttSession :=
  session.park id .unsuback

/-- Give up the waiter under `id`, of whatever kind it is. -/
def cancelAckWaiter (session : MqttSession) (id : PacketId) : MqttSession :=
  { session with pendingAcks := session.pendingAcks.erase id }

/-- Wake the waiter parked under `id` if it waits for this; a slot of any other
kind stays where it is. -/
def wake (session : MqttSession) (id : PacketId) (expected : AckSlot) (answer : Wake) :
    MqttSession :=
  match session.pendingAcks.lookup id with
  | none => session
  | some slot =>
      if slot ≠ expected then
        session
      else
        { session with
          pendingAcks := session.pendingAcks.erase id
          woken := session.woken ++ [answer] }

theorem wake_of_parked {session : MqttSession} {id : PacketId} {expected : AckSlot}
    (parked : session.pendingAcks.lookup id = some expected) (answer : Wake) :
    session.wake id expected answer =
      { session with
        pendingAcks := session.pendingAcks.erase id
        woken := session.woken ++ [answer] } := by
  rw [wake, parked]
  exact if_neg fun differs => differs rfl

theorem wake_of_not_parked {session : MqttSession} {id : PacketId} {expected : AckSlot}
    (missing : session.pendingAcks.lookup id ≠ some expected) (answer : Wake) :
    session.wake id expected answer = session := by
  unfold wake
  split
  · rfl
  · rename_i slot found
    refine if_pos ?_
    rintro rfl
    exact missing found

/-- Waking concerns the waiters alone. -/
@[simp]
theorem qos2Recv_wake (session : MqttSession) (id : PacketId) (expected : AckSlot)
    (answer : Wake) : (session.wake id expected answer).qos2Recv = session.qos2Recv := by
  by_cases parked : session.pendingAcks.lookup id = some expected
  · rw [wake_of_parked parked]
  · rw [wake_of_not_parked parked]

@[simp]
theorem outboundInflight_wake (session : MqttSession) (id : PacketId) (expected : AckSlot)
    (answer : Wake) :
    (session.wake id expected answer).outboundInflight = session.outboundInflight := by
  by_cases parked : session.pendingAcks.lookup id = some expected
  · rw [wake_of_parked parked]
  · rw [wake_of_not_parked parked]

/-- Wake a waiter for an acknowledgement of a publish, if it waits for one of this kind. -/
def wakeAckWaiter (session : MqttSession) (id : PacketId) (expected : AckKind) : MqttSession :=
  session.wake id (.publishAck expected) (.publishAck id)

/-- Wake a waiter for a SUBACK with its codes. -/
def wakeSubackWaiter (session : MqttSession) (id : PacketId) (returnCodes : List SubackCode) :
    MqttSession :=
  session.wake id .suback (.suback id returnCodes)

/-- Wake a waiter for an UNSUBACK. -/
def wakeUnsubackWaiter (session : MqttSession) (id : PacketId) : MqttSession :=
  session.wake id .unsuback (.unsuback id)

/-- The copy under `id` is not to be sent again. -/
def clearOutboundInflight (session : MqttSession) (id : PacketId) : MqttSession :=
  { session with outboundInflight := session.outboundInflight.erase id }

/-- Keep a message until its PUBREL; one that was kept under `id` is replaced. -/
def stashQos2Publish (session : MqttSession) (id : PacketId) (publish : IncomingPublish) :
    MqttSession :=
  { session with qos2Recv := session.qos2Recv.insert id publish }

/-- The message that a PUBREL releases, if one is kept. -/
def takeQos2Publish (session : MqttSession) (id : PacketId) :
    Option IncomingPublish × MqttSession :=
  (session.qos2Recv.lookup id, { session with qos2Recv := session.qos2Recv.erase id })

/-- Keep a copy to be sent again. -/
def trackOutboundInflight (session : MqttSession) (id : PacketId) (publish : PublishPacket) :
    MqttSession :=
  { session with outboundInflight := session.outboundInflight.insert id publish }

/-- Drop everything that is in flight. -/
def abandon (session : MqttSession) : MqttSession :=
  { session with pendingAcks := ∅, qos2Recv := ∅, outboundInflight := ∅ }

end MqttSession

/-- A channel: its session, the packets handed to the writer actor, whether the
actor still receives, and the open flag. -/
structure MqttChannel where
  session : MqttSession
  sent : List Packet
  writerAlive : Bool
  isOpen : Bool

namespace MqttChannel

/-- An open channel on which nothing has been sent. -/
def new : MqttChannel :=
  ⟨.new, [], true, true⟩

/-- `send_packet`: the packet goes to the writer actor, as long as that receives.  The open
flag is not looked at. -/
def sendPacket (channel : MqttChannel) (packet : Packet) : Outcome MqttError Unit × MqttChannel :=
  if channel.writerAlive then
    (ok (), { channel with sent := channel.sent ++ [packet] })
  else
    (err .channelClosed, channel)

/-- A PUBLISH goes to the writer actor as any packet does. -/
def sendPublish (channel : MqttChannel) (publish : PublishPacket) :
    Outcome MqttError Unit × MqttChannel :=
  channel.sendPacket (.publish publish)

/-- The first call flips the flag and abandons the session; later calls do
nothing. -/
def close (channel : MqttChannel) : MqttChannel :=
  if channel.isOpen then
    { channel with isOpen := false, session := channel.session.abandon }
  else
    channel

@[simp]
theorem sent_close (channel : MqttChannel) : channel.close.sent = channel.sent := by
  unfold close
  split <;> rfl

@[simp]
theorem writerAlive_close (channel : MqttChannel) :
    channel.close.writerAlive = channel.writerAlive := by
  unfold close
  split <;> rfl

@[simp]
theorem isOpen_close (channel : MqttChannel) : channel.close.isOpen = false := by
  unfold close
  split
  · rfl
  · rename_i closed
    exact Bool.eq_false_iff.mpr closed

/-- Change the session of a channel. -/
def withSession (channel : MqttChannel) (change : MqttSession → MqttSession) : MqttChannel :=
  { channel with session := change channel.session }

end MqttChannel

/-- Acknowledge a PUBLISH before its handlers run; at QoS 2 also keep it for
its PUBREL. -/
def ackInboundPublishPreChain (channel : MqttChannel) (publish : PublishPacket) :
    Outcome MqttError Unit × MqttChannel :=
  match publish.qos, publish.packetId with
  | .atMostOnce, _ => (ok (), channel)
  | .atLeastOnce, some id => channel.sendPacket (.puback id)
  | .exactlyOnce, some id =>
      (channel.withSession fun session =>
        session.stashQos2Publish id (incomingFromPacket publish)).sendPacket (.pubrec id)
  | _, none => (ok (), channel)

end HotaruMqtt
