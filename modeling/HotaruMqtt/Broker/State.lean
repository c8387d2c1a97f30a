import HotaruMqtt.Broker.Subscriptions
import HotaruMqtt.Session
import Mathlib.Logic.Function.Basic

/-!
# The broker's state and its single accesses

`Broker` of `broker.rs`.  A channel handle is the connection id of its channel:
all clones of a handle reach the one channel that `channels` keeps for it.

Two logs are kept for statements only.  `publications` lists the calls of
`Broker::publish`, and `deliveries` the copies that reached a writer's queue.
Both carry the origin of the packet, which the code does not record.
-/

namespace HotaruMqtt

open Exec Exec.Outcome

/-- The number a channel draws from the global counter when it is made. -/
abbrev ConnectionId := Nat

/-- The Will as the broker keeps it with a session. -/
structure WillMessage where
  topic : String
  payload : Bytes
  qos : QoS
  retain : Bool
  deriving DecidableEq, Repr

/-- A filter that is asked for, with the level asked for. -/
structure TopicFilter where
  filter : String
  qos : QoS
  deriving DecidableEq, Repr

namespace Broker

/-- The broker's record of a registered client. -/
structure SubscriberEntry where
  /-- The channel of the entry. -/
  connection : ConnectionId
  filters : Table String QoS
  will : Option WillMessage
  cleanSession : Bool

/-- Where a published packet comes from. -/
inductive Origin
  /-- A call of `Broker::publish` from outside. -/
  | direct
  /-- The message a connection's reader handed on as the one with this index. -/
  | message (connection : ConnectionId) (index : Nat)
  /-- The Will of a connection. -/
  | will (connection : ConnectionId)
  deriving DecidableEq, Repr

/-- A message that was published, with where it came from. -/
structure Publication where
  origin : Origin
  source : ClientId
  packet : PublishPacket
  deriving DecidableEq, Repr

/-- A copy that was handed to a writer, with where its message came from. -/
structure Delivery where
  origin : Origin
  target : ConnectionId
  packet : PublishPacket
  deriving DecidableEq, Repr

end Broker

open Broker

/-- The broker's two tables and the channels of the connections.  `publications` and
`deliveries` log what was published and sent, and nothing depends on them. -/
structure Broker where
  sessions : Table ClientId SubscriberEntry
  subscriptions : SubscriptionTree
  channels : ConnectionId → MqttChannel
  publications : List Publication
  deliveries : List Delivery

namespace Broker

/-- An empty broker among the given channels. -/
def new (channels : ConnectionId → MqttChannel) : Broker :=
  ⟨∅, .new, channels, [], []⟩

/-- Work on the channel of one connection. -/
def withChannel (broker : Broker) (connection : ConnectionId)
    (change : MqttChannel → MqttChannel) : Broker :=
  { broker with
    channels := Function.update broker.channels connection
      (change (broker.channels connection)) }

/-- `close` on the channel of one connection. -/
def closeChannel (broker : Broker) (connection : ConnectionId) : Broker :=
  broker.withChannel connection MqttChannel.close

/-- What a change keeps on its channel it keeps on every channel. -/
theorem proj_withChannel {α : Type} {field : MqttChannel → α} {change : MqttChannel → MqttChannel}
    (keeps : ∀ channel, field (change channel) = field channel) (broker : Broker)
    (changed connection : ConnectionId) :
    field ((broker.withChannel changed change).channels connection) =
      field (broker.channels connection) := by
  simp only [withChannel, Function.update_apply]
  split
  · rename_i same
    rw [same]
    exact keeps _
  · rfl

/-- The packet that a Will is published as. -/
def willPacket (will : WillMessage) : PublishPacket :=
  { topic := will.topic
    payload := will.payload
    dup := false
    qos := will.qos
    retain := will.retain
    packetId := none }

/-! ## One copy for one subscriber -/

/-- A copy above QoS 0 is numbered on the subscriber's session and tracked there. -/
def numberCopy (channel : MqttChannel) (packet : PublishPacket) (effective : QoS) :
    Option PacketId × MqttChannel :=
  if .atMostOnce < effective then
    let (id, session) := channel.session.allocatePacketId
    (some id, { channel with session := session.trackOutboundInflight id packet })
  else
    (none, channel)

/-- Numbering a copy touches nothing but the session, and not its stash. -/
theorem numberCopy_spec (channel : MqttChannel) (packet : PublishPacket) (effective : QoS) :
    ∃ packetId session, numberCopy channel packet effective =
        (packetId, { channel with session := session }) ∧
      session.qos2Recv = channel.session.qos2Recv ∧
      if .atMostOnce < effective then ∃ id, packetId = some id ∧ id ≠ 0
      else packetId = none := by
  unfold numberCopy
  split
  · exact ⟨_, _, rfl, rfl, _, rfl, channel.session.allocatePacketId_ne_zero⟩
  · exact ⟨none, channel.session, rfl, rfl, rfl⟩

/-- The copy for one subscriber: never a duplicate, never retained, at the level that is
left. -/
def adjusted (packet : PublishPacket) (effective : QoS) (packetId : Option PacketId) :
    PublishPacket :=
  { topic := packet.topic
    payload := packet.payload
    dup := false
    qos := effective
    retain := false
    packetId }

/-- The body of the fan-out loop once the subscriber's entry is found.  A failed
send is ignored. -/
def enqueue (broker : Broker) (origin : Origin) (packet : PublishPacket)
    (target : ConnectionId) (subQos : QoS) : Broker :=
  let effective := min packet.qos subQos
  let (packetId, channel) := numberCopy (broker.channels target) packet effective
  let copy := adjusted packet effective packetId
  match channel.sendPublish copy with
  | (.ok (), channel) =>
      { broker.withChannel target fun _ => channel with
        deliveries := broker.deliveries ++ [⟨origin, target, copy⟩] }
  | (_, channel) => broker.withChannel target fun _ => channel

/-- The channel that a copy is sent on, afterwards. -/
def withCopy (channel : MqttChannel) (packet : PublishPacket) (subQos : QoS) : MqttChannel :=
  let numbered := numberCopy channel packet (min packet.qos subQos)
  (numbered.2.sendPublish (adjusted packet (min packet.qos subQos) numbered.1)).2

theorem channels_enqueue (broker : Broker) (origin : Origin) (packet : PublishPacket)
    (target : ConnectionId) (subQos : QoS) :
    (broker.enqueue origin packet target subQos).channels =
      Function.update broker.channels target
        (withCopy (broker.channels target) packet subQos) := by
  simp only [enqueue, withCopy]
  split <;> rename_i happened <;> rw [happened] <;> rfl

/-- What a subscription held with `subQos` receives of a packet. -/
structure Copy (packet : PublishPacket) (subQos : QoS) (copy : PublishPacket) : Prop where
  topic : copy.topic = packet.topic
  payload : copy.payload = packet.payload
  qos : copy.qos = min packet.qos subQos
  dup : copy.dup = false
  retain : copy.retain = false
  packetId : if .atMostOnce < copy.qos then ∃ id, copy.packetId = some id ∧ id ≠ 0
    else copy.packetId = none

/-- Sending a copy: it reaches the writer if there is one, and what was stashed
stays. -/
theorem withCopy_spec (channel : MqttChannel) (packet : PublishPacket) (subQos : QoS) :
    ∃ copy, Copy packet subQos copy ∧
      (withCopy channel packet subQos).sent =
        channel.sent ++ (if channel.writerAlive then [.publish copy] else []) ∧
      (withCopy channel packet subQos).session.qos2Recv = channel.session.qos2Recv := by
  rcases numberCopy_spec channel packet (min packet.qos subQos) with
    ⟨packetId, session, numbered, stash, numberedSome⟩
  refine ⟨adjusted packet (min packet.qos subQos) packetId, ⟨rfl, rfl, rfl, rfl, rfl, numberedSome⟩,
    ?_, ?_⟩
  all_goals
    simp only [withCopy, numbered, MqttChannel.sendPublish, MqttChannel.sendPacket]
    by_cases alive : channel.writerAlive <;> simp [alive, stash]

/-- Nothing but the contents of sessions and of writer queues has changed. -/
structure OnlySends (broker after : Broker) : Prop where
  sessions : after.sessions = broker.sessions
  subscriptions : after.subscriptions = broker.subscriptions
  publications : after.publications = broker.publications
  isOpen : ∀ connection, (after.channels connection).isOpen = (broker.channels connection).isOpen
  writerAlive : ∀ connection,
    (after.channels connection).writerAlive = (broker.channels connection).writerAlive

theorem OnlySends.refl (broker : Broker) : OnlySends broker broker :=
  ⟨rfl, rfl, rfl, fun _ => rfl, fun _ => rfl⟩

theorem OnlySends.trans {broker middle after : Broker} (first : OnlySends broker middle)
    (second : OnlySends middle after) : OnlySends broker after :=
  ⟨second.sessions.trans first.sessions, second.subscriptions.trans first.subscriptions,
    second.publications.trans first.publications,
    fun connection => (second.isOpen connection).trans (first.isOpen connection),
    fun connection => (second.writerAlive connection).trans (first.writerAlive connection)⟩

/-- What `enqueue` does: one copy, which reaches the target's writer if there
still is one. -/
structure Enqueued (broker : Broker) (origin : Origin) (packet : PublishPacket)
    (target : ConnectionId) (subQos : QoS) (after : Broker) : Prop extends
    OnlySends broker after where
  copied : ∃ copy, Copy packet subQos copy ∧
    (∀ connection, (after.channels connection).sent = (broker.channels connection).sent ++
      if connection = target ∧ (broker.channels target).writerAlive then
        [.publish copy] else []) ∧
    after.deliveries = broker.deliveries ++
      if (broker.channels target).writerAlive then [⟨origin, target, copy⟩] else []

theorem enqueued_enqueue (broker : Broker) (origin : Origin) (packet : PublishPacket)
    (target : ConnectionId) (subQos : QoS) :
    Enqueued broker origin packet target subQos
      (broker.enqueue origin packet target subQos) := by
  rcases numberCopy_spec (broker.channels target) packet (min packet.qos subQos) with
    ⟨packetId, session, numbered, -, numberedSome⟩
  have copy : Copy packet subQos (adjusted packet (min packet.qos subQos) packetId) :=
    ⟨rfl, rfl, rfl, rfl, rfl, numberedSome⟩
  simp only [enqueue, MqttChannel.sendPublish, MqttChannel.sendPacket, numbered]
  by_cases alive : (broker.channels target).writerAlive
  · rw [if_pos alive]
    refine ⟨⟨rfl, rfl, rfl, fun connection => ?_, fun connection => ?_⟩, _, copy,
      fun connection => ?_, by rw [if_pos alive]⟩ <;>
        by_cases same : connection = target <;> simp [withChannel, alive, same]
  · rw [if_neg alive]
    refine ⟨⟨rfl, rfl, rfl, fun connection => ?_, fun connection => ?_⟩, _, copy,
      fun connection => ?_, ?_⟩
    · by_cases same : connection = target <;> simp [withChannel, same]
    · by_cases same : connection = target <;> simp [withChannel, same]
    · by_cases same : connection = target <;> simp [withChannel, alive, same]
    · simp [withChannel, alive]

end Broker

end HotaruMqtt
