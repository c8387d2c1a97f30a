import HotaruMqtt.Network.Flow

/-!
# The two ends as parties

What the dispatch of either role does with a packet, in the terms of the publish flows.
While its sends succeed, an end hears every packet: it answers as the flows demand,
keeps and hands on as they demand, and changes nothing else they depend on.
-/

namespace HotaruMqtt.Network

open Exec Exec.Outcome Inbound Broker

/-- The messages that a channel's session keeps for their PUBREL. -/
def stashOf (channel : MqttChannel) : PacketId → Option Message :=
  fun id => (channel.session.qos2Recv.lookup id).map .ofIncoming

/-- The identifiers that a channel's session keeps a record for. -/
def trackedOf (channel : MqttChannel) : PacketId → Bool :=
  fun id => (channel.session.outboundInflight.lookup id).isSome

/-- An end with its channel and what it has handed on. -/
def Party.of (channel : MqttChannel) (handed : List Message) : Party where
  sent := channel.sent
  stash := stashOf channel
  handed := handed
  tracked := trackedOf channel

/-- The end of a client, which hands on to its handlers. -/
def Party.ofClient (connection : Client.Connection) : Party :=
  .of connection.channel (connection.handed.map .ofIncoming)

/-- The end of the server, which hands on to the worker's queue. -/
def Party.ofServer (channel : MqttChannel) (queue : Server.WorkQueue) : Party :=
  .of channel (queue.handed.map .ofPublish)

theorem Party.ext {first second : Party} (sent : first.sent = second.sent)
    (stash : first.stash = second.stash) (handed : first.handed = second.handed)
    (tracked : first.tracked = second.tracked) : first = second := by
  obtain ⟨_, _, _, _⟩ := first
  obtain ⟨_, _, _, _⟩ := second
  subst sent stash handed tracked
  rfl

@[simp]
theorem Party.adds_nil (party : Party) : party.adds [] = party := by
  simp [Party.adds]

theorem neutral_singleton {packet : Packet} (forth : forthOf packet = none)
    (back : backOf packet = none) : ∀ other ∈ [packet], Neutral other := by
  simpa using ⟨forth, back⟩

/-- The flags of a channel: whether its writer takes packets, and whether it is open. -/
def flags (channel : MqttChannel) : Bool × Bool :=
  (channel.writerAlive, channel.isOpen)

/-- The flags and the counter of identifiers, which neither sending nor handling a packet
changes. -/
def standing (channel : MqttChannel) : (Bool × Bool) × UInt16 :=
  (flags channel, channel.session.pktCounter)

@[simp]
theorem standing_sendPacket (channel : MqttChannel) (packet : Packet) :
    standing (channel.sendPacket packet).2 = standing channel := by
  unfold MqttChannel.sendPacket
  split <;> rfl

@[simp]
theorem flags_sendPacket (channel : MqttChannel) (packet : Packet) :
    flags (channel.sendPacket packet).2 = flags channel :=
  congrArg Prod.fst (standing_sendPacket channel packet)

@[simp]
theorem standing_wake (channel : MqttChannel) (id : PacketId) (slot : AckSlot) (answer : Wake) :
    standing (channel.withSession fun session => session.wake id slot answer) =
      standing channel := by
  simp only [standing, MqttChannel.withSession]
  by_cases parked : channel.session.pendingAcks.lookup id = some slot
  · rw [MqttSession.wake_of_parked parked]
    rfl
  · rw [MqttSession.wake_of_not_parked parked]

theorem standing_ackInboundPublishPreChain (channel : MqttChannel) (publish : PublishPacket) :
    standing (ackInboundPublishPreChain channel publish).2 = standing channel := by
  unfold ackInboundPublishPreChain
  split
  · rfl
  · exact standing_sendPacket _ _
  · exact standing_sendPacket _ _
  · rfl

/-! ## One packet on one channel -/

theorem stashOf_insert (channel : MqttChannel) (id : PacketId) (publish : PublishPacket) :
    stashOf (channel.withSession fun session =>
        session.stashQos2Publish id (incomingFromPacket publish)) =
      Function.update (stashOf channel) id (some (.ofPublish publish)) := by
  funext other
  simp only [stashOf, MqttChannel.withSession, MqttSession.stashQos2Publish, Table.lookup_insert,
    Function.update_apply]
  split <;> rfl

theorem stashOf_take (channel : MqttChannel) (id : PacketId) :
    stashOf { channel with session := (channel.session.takeQos2Publish id).2 } =
      Function.update (stashOf channel) id none := by
  funext other
  simp only [stashOf, MqttSession.takeQos2Publish, Table.lookup_erase, Function.update_apply]
  split <;> rfl

theorem trackedOf_settle (channel : MqttChannel) (id : PacketId) (kind : AckKind) :
    trackedOf (channel.withSession fun session =>
        (session.wakeAckWaiter id kind).clearOutboundInflight id) =
      Function.update (trackedOf channel) id false := by
  funext other
  simp only [trackedOf, MqttChannel.withSession, MqttSession.clearOutboundInflight,
    Table.lookup_erase, Function.update_apply, MqttSession.wakeAckWaiter,
    MqttSession.outboundInflight_wake]
  split <;> rfl

/-- Only what was sent has changed. -/
theorem Party.of_congr {channel after : MqttChannel} {packets : List Packet}
    {handed : List Message} (sent : after.sent = channel.sent ++ packets)
    (stash : after.session.qos2Recv = channel.session.qos2Recv)
    (records : after.session.outboundInflight = channel.session.outboundInflight) :
    Party.of after handed = (Party.of channel handed).adds packets := by
  refine Party.ext sent ?_ rfl ?_
  · funext id
    exact congrArg (fun table => (AList.lookup id table).map Message.ofIncoming) stash
  · funext id
    exact congrArg (fun table => (AList.lookup id table).isSome) records

theorem Party.hears_of {party after : Party} {packet : Packet}
    (same : after = (party.keeps packet).adds (flowReplies packet)) :
    party.Hears packet after :=
  ⟨[], List.forall_mem_nil _, by rw [same, List.append_nil]⟩

/-- The shared acknowledgement, and what is handed on at once. -/
theorem hears_ack {channel : MqttChannel} (alive : channel.writerAlive = true)
    (publish : PublishPacket) :
    ∃ after, ackInboundPublishPreChain channel publish = (ok (), after) ∧
      after.writerAlive = true ∧ ∀ handed, (Party.of channel handed).Hears (.publish publish)
        (.of after
          (handed ++ if publish.qos = .exactlyOnce then [] else [.ofPublish publish])) := by
  cases level : publish.qos with
  | atMostOnce =>
      refine ⟨channel, by simp [ackInboundPublishPreChain, level], alive, fun handed => ?_⟩
      refine Party.hears_of ?_
      simp [Party.keeps, flowReplies, level, Party.of]
  | atLeastOnce =>
      cases numbered : publish.packetId with
      | none =>
          refine ⟨channel, by simp [ackInboundPublishPreChain, level, numbered], alive,
            fun handed => Party.hears_of ?_⟩
          simp [Party.keeps, flowReplies, level, numbered, Party.of]
      | some id =>
          refine ⟨{ channel with sent := channel.sent ++ [.puback id] }, ?_, alive,
            fun handed => Party.hears_of ?_⟩
          · simp only [ackInboundPublishPreChain, level, numbered]
            exact sendPacket_of_alive alive _
          · simp only [Party.keeps, flowReplies, level, numbered]
            rfl
  | exactlyOnce =>
      cases numbered : publish.packetId with
      | none =>
          refine ⟨channel, by simp [ackInboundPublishPreChain, level, numbered], alive,
            fun handed => Party.hears_of ?_⟩
          simp [Party.keeps, flowReplies, level, numbered]
      | some id =>
          let stashed := channel.withSession fun session =>
            session.stashQos2Publish id (incomingFromPacket publish)
          have stashedAlive : stashed.writerAlive = true := alive
          refine ⟨{ stashed with sent := stashed.sent ++ [.pubrec id] }, ?_, alive,
            fun handed => Party.hears_of ?_⟩
          · simp only [ackInboundPublishPreChain, level, numbered]
            exact sendPacket_of_alive stashedAlive _
          · simp only [Party.keeps, flowReplies, level, numbered, if_true, List.append_nil]
            exact Party.ext rfl (stashOf_insert channel id publish) rfl rfl

/-- The release of what was kept. -/
theorem hears_release (channel : MqttChannel) (handed : List Message) (id : PacketId) :
    (Party.of channel handed).Hears (.pubrel id)
      (.of { channel with
        session := (channel.session.takeQos2Publish id).2
        sent := channel.sent ++ [.pubcomp id] } (handed ++ (stashOf channel id).toList)) :=
  Party.hears_of (Party.ext rfl (stashOf_take channel id) rfl rfl)

/-- An acknowledgement that ends a flow. -/
theorem hears_settle (channel : MqttChannel) (handed : List Message) (id : PacketId)
    (kind : AckKind) {packet : Packet} (ends : packet = .puback id ∨ packet = .pubcomp id) :
    (Party.of channel handed).Hears packet
      (.of (channel.withSession fun session =>
        (session.wakeAckWaiter id kind).clearOutboundInflight id) handed) := by
  have stash : stashOf (channel.withSession fun session =>
      (session.wakeAckWaiter id kind).clearOutboundInflight id) = stashOf channel := by
    funext other
    simp [stashOf, MqttChannel.withSession, MqttSession.clearOutboundInflight,
      MqttSession.wakeAckWaiter]
  rcases ends with rfl | rfl <;>
    exact Party.hears_of (Party.ext (List.append_nil _).symm stash rfl
      (trackedOf_settle channel id kind))

/-- Waking a waiter is nothing to the flows. -/
theorem party_wake (channel : MqttChannel) (handed : List Message) (id : PacketId)
    (slot : AckSlot) (answer : Wake) :
    Party.of (channel.withSession fun session => session.wake id slot answer) handed =
      Party.of channel handed := by
  have same : Party.of (channel.withSession fun session => session.wake id slot answer) handed =
      (Party.of channel handed).adds [] :=
    Party.of_congr (List.append_nil _).symm (MqttSession.qos2Recv_wake _ _ _ _)
      (MqttSession.outboundInflight_wake _ _ _ _)
  rwa [Party.adds_nil] at same

/-! ## The dispatch of either role -/

/-- The dispatch of the client, while its writer takes what it sends. -/
theorem hears_dispatchClientInbound {connection : Client.Connection}
    (alive : connection.channel.writerAlive = true) (packet : Packet) :
    ∃ after, Client.dispatchClientInbound connection packet =
        (ok (decide (packet = .disconnect)), after) ∧
      (Party.ofClient connection).Hears packet (.ofClient after) := by
  cases packet with
  | publish publish =>
      obtain ⟨channel, acked, _, hears⟩ := hears_ack alive publish
      have heard := hears (connection.handed.map .ofIncoming)
      have dispatched : Client.dispatchClientInbound connection (.publish publish) =
          if publish.qos = .exactlyOnce then (ok false, { connection with channel })
          else (ok false, { connection with channel }.handOn (incomingFromPacket publish)) := by
        rw [Client.dispatchClientInbound, Client.ackInboundPublishPreChain, acked]
        rfl
      by_cases level : publish.qos = .exactlyOnce
      · rw [if_pos level] at dispatched heard
        rw [List.append_nil] at heard
        exact ⟨_, dispatched, heard⟩
      · rw [if_neg level] at dispatched heard
        refine ⟨_, dispatched, ?_⟩
        simp only [Party.ofClient, Client.Connection.handOn, List.map_append]
        exact heard
  | pubrel id =>
      have dispatched : Client.dispatchClientInbound connection (.pubrel id) = (ok false,
          ⟨{ connection.channel with
            session := (connection.channel.session.takeQos2Publish id).2
            sent := connection.channel.sent ++ [.pubcomp id] },
          connection.handed ++ (connection.channel.session.qos2Recv.lookup id).toList⟩) := by
        simp only [Client.dispatchClientInbound, MqttSession.takeQos2Publish]
        cases connection.channel.session.qos2Recv.lookup id with
        | none =>
            refine (client_send_of_alive _ ?_ _ _).trans ?_
            · exact alive
            · rw [Option.toList_none, List.append_nil]
              rfl
        | some stored =>
            refine (client_send_of_alive _ ?_ _ _).trans rfl
            exact alive
      refine ⟨_, dispatched, ?_⟩
      rw [Party.ofClient, Party.ofClient, List.map_append, ← Option.toList_map]
      exact hears_release _ _ id
  | pubrec id =>
      have dispatched := client_send_of_alive
        (connection.withSession fun session => session.wakeAckWaiter id .pubrec) alive
        (.pubrel id) fun connection => (ok false, connection)
      refine ⟨_, dispatched, Party.hears_of ?_⟩
      exact congrArg (Party.adds · [.pubrel id]) (party_wake connection.channel _ id _ _)
  | puback id => exact ⟨_, rfl, hears_settle _ _ id .puback (.inl rfl)⟩
  | pubcomp id => exact ⟨_, rfl, hears_settle _ _ id .pubcomp (.inr rfl)⟩
  | suback suback | unsuback id =>
      refine ⟨_, rfl, Party.hears_of ?_⟩
      exact (party_wake connection.channel _ _ _ _).trans (Party.adds_nil _).symm
  | connect _ | connack _ | subscribe _ | unsubscribe _ | pingreq | pingresp | disconnect =>
      exact ⟨connection, rfl, Party.hears_of (Party.adds_nil _).symm⟩

/-- The reader's own part of the server's dispatch, while the writer takes what it sends
and the worker receives. -/
theorem hears_dispatchLocal {reader : Server.Reader} (alive : reader.channel.writerAlive = true)
    (receiver : reader.queue.receiver = true) (packet : Packet) :
    (Party.ofServer reader.channel reader.queue).Hears packet
      (.ofServer (Server.dispatchLocal reader packet).2.channel
        (Server.dispatchLocal reader packet).2.queue) := by
  cases packet with
  | publish publish =>
      obtain ⟨channel, acked, _, hears⟩ := hears_ack alive publish
      have heard := hears (reader.queue.handed.map .ofPublish)
      by_cases level : publish.qos = .exactlyOnce
      · simp only [Server.dispatchLocal, acked, if_pos level]
        rw [if_pos level, List.append_nil] at heard
        exact heard
      · simp only [Server.dispatchLocal, acked, if_neg level]
        have handed := reader_handOn_of_receiver ⟨channel, reader.queue⟩ receiver publish
        rw [if_neg level] at heard
        rw [handed, Party.ofServer, Party.ofServer, List.map_append]
        exact heard
  | pubrel id =>
      obtain ⟨queue, dispatched, _, handed⟩ := dispatchLocal_pubrel reader alive receiver id
      rw [dispatched, Party.ofServer, Party.ofServer, handed, List.map_append, ← Option.toList_map,
        Option.map_map]
      exact hears_release _ _ id
  | pubrec id =>
      have dispatched : Server.dispatchLocal reader (.pubrec id) = _ :=
        reader_reply_of_alive (reader.withSession fun session =>
          session.wakeAckWaiter id .pubrec) alive (.pubrel id)
      rw [dispatched]
      refine Party.hears_of ?_
      exact congrArg (Party.adds · [.pubrel id]) (party_wake reader.channel _ id _ _)
  | puback id => exact hears_settle _ _ id .puback (.inl rfl)
  | pubcomp id => exact hears_settle _ _ id .pubcomp (.inr rfl)
  | pingreq =>
      have dispatched : Server.dispatchLocal reader .pingreq = _ :=
        reader_reply_of_alive reader alive .pingresp
      rw [dispatched]
      exact ⟨[.pingresp], neutral_singleton rfl rfl, rfl⟩
  | connect _ | connack _ | subscribe _ | suback _ | unsubscribe _ | unsuback _ | pingresp
  | disconnect => exact Party.hears_of (Party.adds_nil _).symm

end HotaruMqtt.Network
