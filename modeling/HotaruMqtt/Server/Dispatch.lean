import HotaruMqtt.Broker.Operations

/-!
# Dispatch of inbound packets in the server

`dispatch_server_inbound` of `protocol/server.rs`.  Most packets concern the
reader's own channel and work queue alone; SUBSCRIBE and UNSUBSCRIBE call the
broker and answer when the call has returned.  The two parts are separate
functions, since between them other connections run.
-/

namespace HotaruMqtt.Server

open Exec Exec.Outcome Broker

/-- The unbounded queue from a connection's reader to its chain worker.  `handed`
lists everything the reader ever handed to it. -/
structure WorkQueue where
  pending : List PublishPacket
  handed : List PublishPacket
  /-- The worker still holds the receiving end. -/
  receiver : Bool
  deriving DecidableEq, Repr

namespace WorkQueue

/-- An empty queue whose worker receives. -/
def new : WorkQueue :=
  ⟨[], [], true⟩

/-- The reader hands a message to the worker; once the worker is gone this fails. -/
def send (queue : WorkQueue) (publish : PublishPacket) : Outcome MqttError Unit × WorkQueue :=
  if queue.receiver then
    (ok (), { queue with
      pending := queue.pending ++ [publish]
      handed := queue.handed ++ [publish] })
  else
    (err .channelClosed, queue)

end WorkQueue

/-- What the reader works on without the broker. -/
structure Reader where
  channel : MqttChannel
  queue : WorkQueue

/-- How far the reader gets with a packet on its own. -/
inductive Dispatched
  | done (outcome : Outcome MqttError Unit)
  | subscribe (packetId : PacketId) (filters : List TopicFilter)
  | unsubscribe (packetId : PacketId) (topics : List String)
  deriving DecidableEq, Repr

namespace Reader

/-- Work on the session of the channel. -/
def withSession (reader : Reader) (change : MqttSession → MqttSession) : Reader :=
  { reader with channel := reader.channel.withSession change }

/-- Send a packet; its failure is the reader's. -/
def reply (reader : Reader) (packet : Packet) : Dispatched × Reader :=
  let (outcome, channel) := reader.channel.sendPacket packet
  (.done outcome, { reader with channel })

/-- A message goes to the worker. -/
def handOn (reader : Reader) (publish : PublishPacket) : Outcome MqttError Unit × Reader :=
  let (outcome, queue) := reader.queue.send publish
  (outcome, { reader with queue })

end Reader

/-- The publish that a PUBREL releases. -/
def released (packetId : PacketId) (stored : IncomingPublish) : PublishPacket :=
  { topic := stored.topic
    payload := stored.payload
    dup := false
    qos := stored.qos
    retain := stored.retain
    packetId := some packetId }

/-- The reader's own part of `dispatch_server_inbound`. -/
def dispatchLocal (reader : Reader) : Packet → Dispatched × Reader
  | .publish publish =>
      match ackInboundPublishPreChain reader.channel publish with
      | (.ok (), channel) =>
          if publish.qos = .exactlyOnce then
            (.done (ok ()), { reader with channel })
          else
            let (outcome, reader) := { reader with channel }.handOn publish
            (.done outcome, reader)
      | (outcome, channel) => (.done outcome, { reader with channel })
  | .subscribe subscribe =>
      (.subscribe subscribe.packetId (subscribe.subscriptions.map fun wanted =>
        ⟨wanted.topic, wanted.qos⟩), reader)
  | .unsubscribe unsubscribe => (.unsubscribe unsubscribe.packetId unsubscribe.topics, reader)
  | .pingreq => reader.reply .pingresp
  | .puback id =>
      (.done (ok ()), reader.withSession fun session =>
        (session.wakeAckWaiter id .puback).clearOutboundInflight id)
  | .pubrec id =>
      (reader.withSession fun session => session.wakeAckWaiter id .pubrec).reply (.pubrel id)
  | .pubcomp id =>
      (.done (ok ()), reader.withSession fun session =>
        (session.wakeAckWaiter id .pubcomp).clearOutboundInflight id)
  | .pubrel id =>
      let (stored, session) := reader.channel.session.takeQos2Publish id
      let reader := reader.withSession fun _ => session
      match stored with
      | some stored =>
          match reader.handOn (released id stored) with
          | (.ok (), reader) => reader.reply (.pubcomp id)
          | (outcome, reader) => (.done outcome, reader)
      | none => reader.reply (.pubcomp id)
  | .connect _ => (.done (err (.protocol .sessionAlreadyBound)), reader)
  | _ => (.done (ok ()), reader)

/-- What a packet does to the work queue: at most one message is handed to it. -/
inductive WorkQueue.Grows (queue : WorkQueue) : WorkQueue → Prop
  | same : Grows queue queue
  | handed {publish : PublishPacket} (receiver : queue.receiver = true) :
      Grows queue { queue with
        pending := queue.pending ++ [publish]
        handed := queue.handed ++ [publish] }

theorem WorkQueue.grows_send (queue : WorkQueue) (publish : PublishPacket) :
    queue.Grows (queue.send publish).2 := by
  unfold send
  split
  · exact .handed ‹_›
  · exact .same

theorem grows_dispatchLocal (reader : Reader) (packet : Packet) :
    reader.queue.Grows (dispatchLocal reader packet).2.queue := by
  cases packet with
  | publish publish =>
      simp only [dispatchLocal]
      split
      · split
        · exact .same
        · exact WorkQueue.grows_send _ _
      · exact .same
  | pubrel id =>
      simp only [dispatchLocal]
      split
      · rename_i stored _
        have grows := reader.queue.grows_send (released id stored)
        split
        · rename_i handed
          rw [Reader.handOn, Prod.mk.injEq] at handed
          rw [← handed.2]
          exact grows
        · rename_i handed
          rw [Reader.handOn, Prod.mk.injEq] at handed
          rw [← handed.2]
          exact grows
      · exact .same
  | _ => exact .same

theorem grows_of_dispatched {channel : MqttChannel} {queue : WorkQueue} {packet : Packet}
    {dispatched : Dispatched} {reader : Reader}
    (happened : dispatchLocal ⟨channel, queue⟩ packet = (dispatched, reader)) :
    queue.Grows reader.queue := by
  have grows := grows_dispatchLocal ⟨channel, queue⟩ packet
  rw [happened] at grows
  exact grows

/-! ## What a packet does to the channel and the queue -/

/-- The packets a handler answers with, beside SUBACK. -/
inductive Reply : Packet → Prop
  | connack (connack : ConnackPacket) : Reply (.connack connack)
  | puback (id : PacketId) : Reply (.puback id)
  | pubrec (id : PacketId) : Reply (.pubrec id)
  | pubrel (id : PacketId) : Reply (.pubrel id)
  | pubcomp (id : PacketId) : Reply (.pubcomp id)
  | unsuback (id : PacketId) : Reply (.unsuback id)
  | pingresp : Reply .pingresp

/-- What handling a packet can do to a channel: replies are sent, records are
dropped, and only a PUBLISH is stashed. -/
structure Handled (packet : Packet) (channel after : MqttChannel) : Prop where
  replies : ∃ replies, after.sent = channel.sent ++ replies ∧ ∀ reply ∈ replies, Reply reply
  records : ∀ id record, after.session.outboundInflight.lookup id = some record →
    channel.session.outboundInflight.lookup id = some record
  stash : ∀ id stored, after.session.qos2Recv.lookup id = some stored →
    channel.session.qos2Recv.lookup id = some stored ∨
      ∃ publish, packet = .publish publish ∧ stored = incomingFromPacket publish

namespace Handled

variable {packet answer : Packet} {channel middle after : MqttChannel}

theorem refl (packet : Packet) (channel : MqttChannel) : Handled packet channel channel :=
  ⟨⟨[], (List.append_nil _).symm, by simp⟩, fun _ _ => id, fun _ _ => .inl⟩

/-- A reply is sent at the end. -/
theorem reply (handled : Handled packet channel middle) (isReply : Reply answer) :
    Handled packet channel (middle.sendPacket answer).2 := by
  unfold MqttChannel.sendPacket
  split
  · obtain ⟨replies, sent, allowed⟩ := handled.replies
    refine ⟨⟨replies ++ [answer], ?_, ?_⟩, handled.records, handled.stash⟩
    · rw [← List.append_assoc, ← sent]
    · intro other listed
      rcases List.mem_append.mp listed with before | last
      · exact allowed other before
      · rw [List.mem_singleton.mp last]
        exact isReply
  · exact handled

/-- The session alone is changed. -/
theorem withSession {change : MqttSession → MqttSession}
    (records : ∀ id record, (change channel.session).outboundInflight.lookup id = some record →
      channel.session.outboundInflight.lookup id = some record)
    (stash : ∀ id stored, (change channel.session).qos2Recv.lookup id = some stored →
      channel.session.qos2Recv.lookup id = some stored ∨
        ∃ publish, packet = .publish publish ∧ stored = incomingFromPacket publish) :
    Handled packet channel (channel.withSession change) :=
  ⟨⟨[], (List.append_nil _).symm, by simp⟩, records, stash⟩

end Handled

theorem handled_ackInboundPublishPreChain (channel : MqttChannel) (publish : PublishPacket) :
    Handled (.publish publish) channel (ackInboundPublishPreChain channel publish).2 := by
  unfold ackInboundPublishPreChain
  split
  · exact .refl _ _
  · exact (Handled.refl _ _).reply (.puback _)
  · refine Handled.reply (.withSession (fun _ _ => id) fun other stored found => ?_) (.pubrec _)
    rcases Table.lookup_insert_eq_some.mp found with ⟨_, same⟩ | ⟨_, before⟩
    · exact .inr ⟨publish, rfl, same.symm⟩
    · exact .inl before
  · exact .refl _ _

/-- Waking a waiter and dropping a record. -/
theorem handled_acknowledged (packet : Packet) (channel : MqttChannel) (id : PacketId)
    (kind : AckKind) :
    Handled packet channel (channel.withSession fun session =>
      (session.wakeAckWaiter id kind).clearOutboundInflight id) := by
  refine .withSession (fun other record found => ?_) fun other stored found => .inl ?_
  · simpa [MqttSession.wakeAckWaiter] using (Table.lookup_erase_eq_some.mp found).2
  · simpa [MqttSession.wakeAckWaiter, MqttSession.clearOutboundInflight] using found

theorem handled_dispatchLocal (reader : Reader) (packet : Packet) :
    Handled packet reader.channel (dispatchLocal reader packet).2.channel := by
  cases packet with
  | publish publish =>
      have acked := handled_ackInboundPublishPreChain reader.channel publish
      simp only [dispatchLocal]
      split <;> rename_i channel happened <;> rw [happened] at acked
      · split <;> exact acked
      · exact acked
  | puback id => exact handled_acknowledged _ _ id .puback
  | pubcomp id => exact handled_acknowledged _ _ id .pubcomp
  | pubrec id =>
      have woken : Handled (.pubrec id) reader.channel (reader.channel.withSession fun session =>
          session.wakeAckWaiter id .pubrec) :=
        .withSession (by simp [MqttSession.wakeAckWaiter])
          (by simp +contextual [MqttSession.wakeAckWaiter])
      exact woken.reply (.pubrel id)
  | pubrel id =>
      have taken : Handled (.pubrel id) reader.channel (reader.channel.withSession fun _ =>
          (reader.channel.session.takeQos2Publish id).2) :=
        .withSession (fun _ _ found => found)
          fun _ _ found => .inl (Table.lookup_erase_eq_some.mp found).2
      simp only [dispatchLocal]
      split
      · split
        · rename_i handed
          rw [Reader.handOn, Prod.mk.injEq] at handed
          rw [← handed.2]
          exact taken.reply (.pubcomp id)
        · rename_i handed
          rw [Reader.handOn, Prod.mk.injEq] at handed
          rw [← handed.2]
          exact taken
      · exact taken.reply (.pubcomp id)
  | pingreq => exact (Handled.refl _ _).reply .pingresp
  | connect _ | connack _ | subscribe _ | suback _ | unsubscribe _ | unsuback _ | pingresp
  | disconnect => exact .refl _ _

theorem WorkQueue.mem_pending_send {queue : WorkQueue} {publish other : PublishPacket}
    (listed : other ∈ (queue.send publish).2.pending) :
    other ∈ queue.pending ∨ other = publish := by
  unfold send at listed
  split at listed
  · simpa using listed
  · exact .inl listed

/-- What a packet adds to the work: the PUBLISH itself, or one that was stashed. -/
theorem pending_dispatchLocal {reader : Reader} {packet : Packet} {publish : PublishPacket}
    (listed : publish ∈ (dispatchLocal reader packet).2.queue.pending) :
    publish ∈ reader.queue.pending ∨ packet = .publish publish ∨
      ∃ id stored, reader.channel.session.qos2Recv.lookup id = some stored ∧
        publish = released id stored := by
  cases packet with
  | publish received =>
      simp only [dispatchLocal] at listed
      split at listed
      · split at listed
        · exact .inl listed
        · rcases WorkQueue.mem_pending_send listed with before | rfl
          · exact .inl before
          · exact .inr (.inl rfl)
      · exact .inl listed
  | pubrel id =>
      simp only [dispatchLocal] at listed
      split at listed
      · rename_i stored found
        have sent : publish ∈ (reader.queue.send (released id stored)).2.pending := by
          split at listed
          · rename_i handed
            rw [Reader.handOn, Prod.mk.injEq] at handed
            rw [← handed.2] at listed
            exact listed
          · rename_i handed
            rw [Reader.handOn, Prod.mk.injEq] at handed
            rw [← handed.2] at listed
            exact listed
        rcases WorkQueue.mem_pending_send sent with before | rfl
        · exact .inl before
        · exact .inr (.inr ⟨id, stored, found, rfl⟩)
      · exact .inl listed
  | connect _ | connack _ | puback _ | pubrec _ | pubcomp _ | subscribe _ | suback _
  | unsubscribe _ | unsuback _ | pingreq | pingresp | disconnect => exact .inl listed

/-- Only a SUBSCRIBE is passed on as one. -/
theorem dispatchLocal_subscribe {reader after : Reader} {packet : Packet} {packetId : PacketId}
    {filters : List TopicFilter}
    (dispatched : dispatchLocal reader packet = (.subscribe packetId filters, after)) :
    ∃ subscribe, packet = .subscribe subscribe ∧ packetId = subscribe.packetId ∧
      filters.length = subscribe.subscriptions.length := by
  cases packet with
  | subscribe subscribe =>
      cases dispatched
      exact ⟨subscribe, rfl, rfl, List.length_map _⟩
  | publish publish =>
      simp only [dispatchLocal] at dispatched
      split at dispatched
      · split at dispatched <;> simp at dispatched
      · simp at dispatched
  | pubrel id =>
      simp only [dispatchLocal] at dispatched
      split at dispatched
      · split at dispatched <;> simp [Reader.reply] at dispatched
      · simp [Reader.reply] at dispatched
  | connect _ | connack _ | puback _ | pubrec _ | pubcomp _ | suback _ | unsubscribe _
  | unsuback _ | pingreq | pingresp | disconnect => simp [dispatchLocal, Reader.reply] at dispatched

/-- The broker with the reader's view of the connection's channel put back. -/
def putChannel (broker : Broker) (connection : ConnectionId) (channel : MqttChannel) : Broker :=
  broker.withChannel connection fun _ => channel

@[simp]
theorem putChannel_self (broker : Broker) (connection : ConnectionId) (channel : MqttChannel) :
    (putChannel broker connection channel).channels connection = channel :=
  Function.update_self _ _ _

@[simp]
theorem putChannel_eq_self (broker : Broker) (connection : ConnectionId) :
    putChannel broker connection (broker.channels connection) = broker := by
  rw [putChannel, withChannel, Function.update_eq_self]

/-- Send a packet on a connection's channel. -/
def sendOn (broker : Broker) (connection : ConnectionId) (packet : Packet) :
    Outcome MqttError Unit × Broker :=
  let (outcome, channel) := (broker.channels connection).sendPacket packet
  (outcome, putChannel broker connection channel)

/-- One inbound packet, start to end. -/
def dispatchServerInbound (broker : Broker) (queue : WorkQueue) (client : ClientId)
    (connection : ConnectionId) (packet : Packet) :
    Outcome MqttError Unit × Broker × WorkQueue :=
  match dispatchLocal ⟨broker.channels connection, queue⟩ packet with
  | (.done outcome, reader) => (outcome, putChannel broker connection reader.channel, reader.queue)
  | (.subscribe packetId filters, reader) =>
      let broker := putChannel broker connection reader.channel
      let (codes, broker) := broker.subscribe client connection filters
      let (outcome, broker) := sendOn broker connection (.suback ⟨packetId, codes⟩)
      (outcome, broker, reader.queue)
  | (.unsubscribe packetId topics, reader) =>
      let broker := putChannel broker connection reader.channel
      let broker := broker.unsubscribe client connection topics
      let (outcome, broker) := sendOn broker connection (.unsuback packetId)
      (outcome, broker, reader.queue)

end HotaruMqtt.Server
