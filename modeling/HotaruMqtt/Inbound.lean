import HotaruMqtt.Client.Dispatch
import HotaruMqtt.Codec.Layout
import HotaruMqtt.Codec.Shape
import HotaruMqtt.Server.Dispatch

/-!
# Inbound QoS 2 in both roles

What a connection hands on, told from the packets it has received alone: a PUBREL
hands on the most recent QoS 2 PUBLISH with its identifier since the previous
PUBREL of that identifier.  The two roles release a publish by separate code.
Each is described once, packet by packet, by what it does to the stash; that a
whole sequence is handled as told follows for both at once.
-/

namespace HotaruMqtt.Inbound

open Exec Exec.Outcome Codec

/-- What handlers see of a publish, whichever role hands it on. -/
structure Message where
  topic : String
  payload : Bytes
  qos : QoS
  retain : Bool
  deriving DecidableEq, Repr

/-- The message in a PUBLISH. -/
def Message.ofPublish (publish : PublishPacket) : Message :=
  ⟨publish.topic, publish.payload, publish.qos, publish.retain⟩

/-- The message in what handlers are given. -/
def Message.ofIncoming (incoming : IncomingPublish) : Message :=
  ⟨incoming.topic, incoming.payload, incoming.qos, incoming.retain⟩

/-- Some buffer decodes to the packet. -/
def FromWire (packet : Packet) : Prop :=
  ∃ maxSize buffer rest, decodePacketFromBytes maxSize buffer = (ok (some packet), rest)

theorem FromWire.idMatchesQos {publish : PublishPacket}
    (fromWire : FromWire (.publish publish)) : IdMatchesQos publish := by
  rcases fromWire with ⟨maxSize, buffer, rest, decoded⟩
  rcases decode_eq_some_iff.mp decoded with ⟨frame, _, _, parsed⟩
  exact (Frame.parse_eq_ok_iff.mp parsed).2.2.1

/-- Neither CONNECT nor DISCONNECT. -/
def Plain : Packet → Prop
  | .connect _ | .disconnect => False
  | _ => True

instance : DecidablePred Plain
  | .connect _ | .disconnect => inferInstanceAs (Decidable False)
  | .connack _ | .publish _ | .puback _ | .pubrec _ | .pubrel _ | .pubcomp _ | .subscribe _
  | .suback _ | .unsubscribe _ | .unsuback _ | .pingreq | .pingresp =>
      inferInstanceAs (Decidable True)

/-! ## What is to be handed on -/

/-- The most recent QoS 2 PUBLISH with the identifier since its last PUBREL; the
packets are listed latest first. -/
def awaiting (id : PacketId) : List Packet → Option PublishPacket
  | [] => none
  | .publish publish :: earlier =>
      if publish.qos = .exactlyOnce ∧ publish.packetId = some id then
        some publish
      else
        awaiting id earlier
  | .pubrel other :: earlier => if other = id then none else awaiting id earlier
  | _ :: earlier => awaiting id earlier

/-- What a packet hands on after the earlier ones. -/
def handsOn (earlier : List Packet) : Packet → Option Message
  | .publish publish =>
      if publish.qos = .exactlyOnce then none else some (.ofPublish publish)
  | .pubrel id => (awaiting id earlier).map .ofPublish
  | _ => none

/-- What a sequence of packets hands on after the earlier ones. -/
def handedOn : (earlier packets : List Packet) → List Message
  | _, [] => []
  | earlier, packet :: packets =>
      (handsOn earlier packet).toList ++ handedOn (packet :: earlier) packets

/-- The answers of the QoS 2 handshake. -/
def IsAnswer : Packet → Bool
  | .pubrec _ | .pubcomp _ => true
  | _ => false

/-- The answer that is due to a packet. -/
def answer : Packet → List Packet
  | .publish publish =>
      if publish.qos = .exactlyOnce then (publish.packetId.map .pubrec).toList else []
  | .pubrel id => [.pubcomp id]
  | _ => []

/-! ## What a role does with a packet -/

/-- A role of the protocol, as far as inbound packets go. -/
structure Role (σ : Type) where
  process : σ → Packet → Outcome MqttError Unit × σ
  stash : σ → PacketId → Option IncomingPublish
  handed : σ → List Message
  sent : σ → List Packet
  /-- Whatever the role sends is taken. -/
  Ready : σ → Prop

/-- The stash after a packet. -/
def stashAfter (stash : PacketId → Option IncomingPublish) :
    Packet → PacketId → Option IncomingPublish
  | .publish publish =>
      if publish.qos = .exactlyOnce then
        match publish.packetId with
        | some id => Function.update stash id (some (incomingFromPacket publish))
        | none => stash
      else
        stash
  | .pubrel id => Function.update stash id none
  | _ => stash

/-- What a packet hands on, told from the stash. -/
def handsOnFrom (stash : PacketId → Option IncomingPublish) : Packet → Option Message
  | .publish publish =>
      if publish.qos = .exactlyOnce then none else some (.ofPublish publish)
  | .pubrel id => (stash id).map .ofIncoming
  | _ => none

/-- The role has handled a packet. -/
structure Role.Handles {σ : Type} (role : Role σ) (state : σ) (packet : Packet) (after : σ) :
    Prop where
  process : role.process state packet = (ok (), after)
  ready : role.Ready after
  stash : role.stash after = stashAfter (role.stash state) packet
  handed : role.handed after = role.handed state ++ (handsOnFrom (role.stash state) packet).toList
  answers : (role.sent after).filter IsAnswer =
    (role.sent state).filter IsAnswer ++ answer packet

/-- The role handles every plain packet from the wire while its sends succeed. -/
def Role.Sound {σ : Type} (role : Role σ) : Prop :=
  ∀ state packet, role.Ready state → FromWire packet → Plain packet →
    ∃ after, role.Handles state packet after

/-- Process packets in turn, up to the first failure. -/
def Role.processAll {σ : Type} (role : Role σ) : σ → List Packet → Outcome MqttError Unit × σ
  | state, [] => (ok (), state)
  | state, packet :: packets =>
      match role.process state packet with
      | (.ok (), state) => role.processAll state packets
      | (outcome, state) => (outcome, state)

/-- The stash holds what is awaited. -/
def Stashed (stash : PacketId → Option IncomingPublish) (earlier : List Packet) : Prop :=
  ∀ id, stash id = (awaiting id earlier).map incomingFromPacket

theorem Stashed.after {stash : PacketId → Option IncomingPublish} {earlier : List Packet}
    (stashed : Stashed stash earlier) {packet : Packet} (fromWire : FromWire packet) :
    Stashed (stashAfter stash packet) (packet :: earlier) := by
  intro other
  cases packet with
  | publish publish =>
      rw [stashAfter, awaiting]
      by_cases releasable : publish.qos = .exactlyOnce
      · have numbered : publish.packetId.isSome := fromWire.idMatchesQos.mpr (by simp [releasable])
        rcases Option.isSome_iff_exists.mp numbered with ⟨id, numbered⟩
        simp only [releasable, numbered, if_true, Function.update_apply, true_and,
          Option.some.injEq, eq_comm (a := id)]
        split
        · rfl
        · exact stashed other
      · simp only [releasable, false_and, if_false]
        exact stashed other
  | pubrel id =>
      rw [stashAfter, awaiting, Function.update_apply]
      by_cases same : other = id
      · simp [same]
      · rw [if_neg same, if_neg (Ne.symm same)]
        exact stashed other
  | _ => exact stashed other

theorem Stashed.handsOn {stash : PacketId → Option IncomingPublish} {earlier : List Packet}
    (stashed : Stashed stash earlier) (packet : Packet) :
    handsOnFrom stash packet = Inbound.handsOn earlier packet := by
  cases packet with
  | pubrel id =>
      rw [handsOnFrom, stashed id, Option.map_map]
      rfl
  | _ => rfl

/-- A sound role hands on what a sequence of packets is to hand on, and answers
each packet as it is due. -/
theorem Role.Sound.processAll {σ : Type} {role : Role σ} (sound : role.Sound)
    (packets earlier : List Packet) (state : σ) (ready : role.Ready state)
    (stashed : Stashed (role.stash state) earlier) (fromWire : ∀ packet ∈ packets, FromWire packet)
    (plain : ∀ packet ∈ packets, Plain packet) :
    ∃ after, role.processAll state packets = (ok (), after) ∧
      role.handed after = role.handed state ++ handedOn earlier packets ∧
      (role.sent after).filter IsAnswer =
        (role.sent state).filter IsAnswer ++ packets.flatMap answer := by
  induction packets generalizing state earlier with
  | nil => exact ⟨state, rfl, by simp [handedOn], by simp⟩
  | cons packet packets ih =>
      rcases List.forall_mem_cons.mp fromWire with ⟨wire, wireRest⟩
      rcases List.forall_mem_cons.mp plain with ⟨plainHead, plainRest⟩
      rcases sound state packet ready wire plainHead with ⟨next, handles⟩
      have nextStashed : Stashed (role.stash next) (packet :: earlier) := by
        rw [handles.stash]
        exact stashed.after wire
      rcases ih (packet :: earlier) next handles.ready nextStashed wireRest plainRest with
        ⟨after, processed, handed, answers⟩
      refine ⟨after, ?_, ?_, ?_⟩
      · rw [Role.processAll, handles.process]
        exact processed
      · rw [handed, handles.handed, stashed.handsOn, handedOn, List.append_assoc]
      · rw [answers, handles.answers, List.flatMap_cons, List.append_assoc]

/-! ## The two roles -/

/-- The server's reader on one connection. -/
def serverRole (client : Broker.ClientId) (connection : ConnectionId) :
    Role (Broker × Server.WorkQueue) where
  process state packet :=
    Server.dispatchServerInbound state.1 state.2 client connection packet
  stash state id := (state.1.channels connection).session.qos2Recv.lookup id
  handed state := state.2.handed.map .ofPublish
  sent state := (state.1.channels connection).sent
  Ready state := (state.1.channels connection).writerAlive = true ∧ state.2.receiver = true

/-- The client's dispatch, which hands messages to its handlers. -/
def clientRole : Role Client.Connection where
  process state packet :=
    let (outcome, state) := Client.dispatchClientInbound state packet
    (outcome >>= fun _ => ok (), state)
  stash state id := state.channel.session.qos2Recv.lookup id
  handed state := state.handed.map .ofIncoming
  sent state := state.channel.sent
  Ready state := state.channel.writerAlive = true

theorem sendPacket_of_alive {channel : MqttChannel} (alive : channel.writerAlive = true)
    (packet : Packet) :
    channel.sendPacket packet = (ok (), { channel with sent := channel.sent ++ [packet] }) :=
  if_pos alive

/-- What handling a packet does to the channel, in either role. -/
structure ChannelHandles (channel : MqttChannel) (packet : Packet) (after : MqttChannel) :
    Prop where
  alive : after.writerAlive = true
  stash : (fun id => after.session.qos2Recv.lookup id) =
    stashAfter (fun id => channel.session.qos2Recv.lookup id) packet
  answers : after.sent.filter IsAnswer = channel.sent.filter IsAnswer ++ answer packet

/-- A packet outside the handshake: the stash is left alone and no answer sent. -/
theorem ChannelHandles.neutral {channel after : MqttChannel} {packet : Packet}
    {extra : List Packet} (keeps : ∀ stash, stashAfter stash packet = stash)
    (unanswered : answer packet = []) (alive : after.writerAlive = true)
    (stash : after.session.qos2Recv = channel.session.qos2Recv)
    (sent : after.sent = channel.sent ++ extra) (plainReplies : extra.filter IsAnswer = []) :
    ChannelHandles channel packet after := by
  refine ⟨alive, ?_, ?_⟩
  · rw [keeps, stash]
  · rw [sent, List.filter_append, plainReplies, unanswered]

/-- The acknowledgement of a PUBLISH from the wire. -/
theorem ackInboundPublishPreChain_spec {channel : MqttChannel}
    (alive : channel.writerAlive = true) {publish : PublishPacket}
    (idMatches : IdMatchesQos publish) :
    ∃ after, ackInboundPublishPreChain channel publish = (ok (), after) ∧
      ChannelHandles channel (.publish publish) after := by
  cases level : publish.qos with
  | atMostOnce =>
      refine ⟨channel, by simp [ackInboundPublishPreChain, level], ?_⟩
      exact .neutral (by simp [stashAfter, level]) (by simp [answer, level]) alive rfl
        (List.append_nil _).symm rfl
  | atLeastOnce =>
      have numbered : publish.packetId.isSome := idMatches.mpr (by simp [level])
      rcases Option.isSome_iff_exists.mp numbered with ⟨id, numbered⟩
      simp only [ackInboundPublishPreChain, level, numbered, sendPacket_of_alive alive]
      refine ⟨_, rfl, ?_⟩
      exact .neutral (by simp [stashAfter, level]) (by simp [answer, level]) alive rfl rfl rfl
  | exactlyOnce =>
      have numbered : publish.packetId.isSome := idMatches.mpr (by simp [level])
      rcases Option.isSome_iff_exists.mp numbered with ⟨id, numbered⟩
      have stashAlive : (channel.withSession fun session =>
          session.stashQos2Publish id (incomingFromPacket publish)).writerAlive = true := alive
      simp only [ackInboundPublishPreChain, level, numbered, sendPacket_of_alive stashAlive]
      refine ⟨_, rfl, alive, ?_, ?_⟩
      · funext other
        simp [stashAfter, level, numbered, Function.update_apply, MqttChannel.withSession,
          MqttSession.stashQos2Publish, Table.lookup_insert]
      · simp [answer, level, numbered, MqttChannel.withSession, IsAnswer]

/-- The channel after a PUBREL: the publish is taken, and PUBCOMP sent. -/
theorem channelHandles_pubrel {channel : MqttChannel} (alive : channel.writerAlive = true)
    (id : PacketId) :
    ChannelHandles channel (.pubrel id)
      { channel with
        session := (channel.session.takeQos2Publish id).2
        sent := channel.sent ++ [.pubcomp id] } := by
  refine ⟨alive, ?_, by simp [answer, IsAnswer]⟩
  funext other
  simp [stashAfter, Function.update_apply, MqttSession.takeQos2Publish, Table.lookup_erase]

/-! ## The client -/

theorem client_send_of_alive (connection : Client.Connection)
    (alive : connection.channel.writerAlive = true) (packet : Packet)
    (next : Client.Connection → Outcome MqttError Bool × Client.Connection) :
    connection.send packet next =
      next { connection with
        channel := { connection.channel with sent := connection.channel.sent ++ [packet] } } := by
  rw [Client.Connection.send, sendPacket_of_alive alive]
  rfl

theorem clientRole_handles {state after : Client.Connection} {packet : Packet} {leaves : Bool}
    (dispatched : Client.dispatchClientInbound state packet = (ok leaves, after))
    (channel : ChannelHandles state.channel packet after.channel)
    (handed : after.handed.map Message.ofIncoming = state.handed.map Message.ofIncoming ++
      (handsOnFrom (fun id => state.channel.session.qos2Recv.lookup id) packet).toList) :
    clientRole.Handles state packet after := by
  refine ⟨?_, channel.alive, channel.stash, handed, channel.answers⟩
  simp only [clientRole, dispatched, ok_bind]

theorem clientRole_sound : clientRole.Sound := by
  intro state packet ready fromWire plain
  have alive : state.channel.writerAlive = true := ready
  cases packet with
  | publish publish =>
      rcases ackInboundPublishPreChain_spec alive fromWire.idMatchesQos with
        ⟨after, acked, channel⟩
      have dispatched : Client.dispatchClientInbound state (.publish publish) =
          if publish.qos = .exactlyOnce then (ok false, { state with channel := after })
          else (ok false, { state with channel := after }.handOn (incomingFromPacket publish)) := by
        rw [Client.dispatchClientInbound, Client.ackInboundPublishPreChain, acked]
        rfl
      by_cases level : publish.qos = .exactlyOnce
      · rw [if_pos level] at dispatched
        refine ⟨_, clientRole_handles dispatched channel ?_⟩
        simp [handsOnFrom, level]
      · rw [if_neg level] at dispatched
        refine ⟨_, clientRole_handles dispatched channel ?_⟩
        rw [handsOnFrom, if_neg level, Client.Connection.handOn, List.map_append]
        rfl
  | pubrel id =>
      have dispatched : Client.dispatchClientInbound state (.pubrel id) = (ok false,
          ⟨{ state.channel with
            session := (state.channel.session.takeQos2Publish id).2
            sent := state.channel.sent ++ [.pubcomp id] },
          state.handed ++ (state.channel.session.qos2Recv.lookup id).toList⟩) := by
        simp only [Client.dispatchClientInbound, MqttSession.takeQos2Publish]
        cases state.channel.session.qos2Recv.lookup id with
        | none =>
            refine (client_send_of_alive _ ?_ _ _).trans ?_
            · exact alive
            · rw [Option.toList_none, List.append_nil]
              rfl
        | some stored =>
            refine (client_send_of_alive _ ?_ _ _).trans rfl
            exact alive
      refine ⟨_, clientRole_handles dispatched (channelHandles_pubrel alive id) ?_⟩
      simp [handsOnFrom, Option.toList_map]
  | pubrec id =>
      have dispatched := client_send_of_alive
        (state.withSession fun session => session.wakeAckWaiter id .pubrec) alive
        (.pubrel id) fun connection => (ok false, connection)
      refine ⟨_, clientRole_handles dispatched (.neutral (fun _ => rfl) rfl alive ?_ rfl rfl)
        (List.append_nil _).symm⟩
      exact MqttSession.qos2Recv_wake _ _ _ _
  | puback id | pubcomp id | suback suback | unsuback id =>
      refine ⟨_, clientRole_handles rfl (.neutral (fun _ => rfl) rfl alive ?_
        (List.append_nil _).symm rfl) (List.append_nil _).symm⟩
      exact MqttSession.qos2Recv_wake _ _ _ _
  | connect _ | disconnect => exact absurd plain id
  | connack _ | subscribe _ | unsubscribe _ | pingreq | pingresp =>
      exact ⟨state, clientRole_handles rfl (.neutral (fun _ => rfl) rfl alive rfl
        (List.append_nil _).symm rfl) (List.append_nil _).symm⟩

/-! ## The server -/

open Server in
theorem reader_reply_of_alive (reader : Reader) (alive : reader.channel.writerAlive = true)
    (packet : Packet) :
    reader.reply packet = (.done (ok ()), { reader with
      channel := { reader.channel with sent := reader.channel.sent ++ [packet] } }) := by
  rw [Reader.reply, sendPacket_of_alive alive]

open Server in
theorem reader_handOn_of_receiver (reader : Reader) (receiver : reader.queue.receiver = true)
    (publish : PublishPacket) :
    reader.handOn publish = (ok (), { reader with
      queue := { reader.queue with
        pending := reader.queue.pending ++ [publish]
        handed := reader.queue.handed ++ [publish] } }) := by
  rw [Reader.handOn, WorkQueue.send, if_pos receiver]

open Server in
/-- PUBREL hands on what was stashed under the id, if anything, and is answered. -/
theorem dispatchLocal_pubrel (reader : Reader) (alive : reader.channel.writerAlive = true)
    (receiver : reader.queue.receiver = true) (id : PacketId) :
    ∃ queue, dispatchLocal reader (.pubrel id) = (.done (ok ()), ⟨{ reader.channel with
        session := (reader.channel.session.takeQos2Publish id).2
        sent := reader.channel.sent ++ [.pubcomp id] }, queue⟩) ∧
      queue.receiver = true ∧ queue.handed = reader.queue.handed ++
        ((reader.channel.session.qos2Recv.lookup id).map (released id)).toList := by
  simp only [dispatchLocal, MqttSession.takeQos2Publish]
  cases reader.channel.session.qos2Recv.lookup id with
  | none =>
      refine ⟨reader.queue, ?_, receiver, (List.append_nil _).symm⟩
      refine (reader_reply_of_alive _ ?_ _).trans rfl
      exact alive
  | some stored =>
      have handed := reader_handOn_of_receiver (reader.withSession fun _ =>
        (reader.channel.session.takeQos2Publish id).2) receiver (released id stored)
      simp only [MqttSession.takeQos2Publish] at handed
      simp only [handed]
      refine ⟨_, (reader_reply_of_alive _ ?_ _).trans rfl, receiver, rfl⟩
      exact alive

open Server in
/-- A packet the reader handles without the broker. -/
theorem serverRole_handles_local {client : Broker.ClientId} {connection : ConnectionId}
    {broker : Broker} {queue : WorkQueue} {packet : Packet} {after : Reader}
    (dispatched : dispatchLocal ⟨broker.channels connection, queue⟩ packet = (.done (ok ()), after))
    (channel : ChannelHandles (broker.channels connection) packet after.channel)
    (receiver : after.queue.receiver = true)
    (handed : after.queue.handed.map Message.ofPublish = queue.handed.map Message.ofPublish ++
      (handsOnFrom (fun id => (broker.channels connection).session.qos2Recv.lookup id)
        packet).toList) :
    (serverRole client connection).Handles (broker, queue) packet
      (putChannel broker connection after.channel, after.queue) := by
  have here := putChannel_self broker connection after.channel
  refine ⟨?_, ⟨?_, receiver⟩, ?_, handed, ?_⟩
  · simp only [serverRole, dispatchServerInbound, dispatched]
  · rw [here]
    exact channel.alive
  · simp only [serverRole, here]
    exact channel.stash
  · simp only [serverRole, here]
    exact channel.answers

open Server in
/-- A packet that calls the broker: the tables change, and then one reply goes out
on the connection's channel. -/
theorem sendOn_of_onlyTables {broker middle : Broker} {connection : ConnectionId}
    (tables : Broker.OnlyTables broker middle)
    (alive : (broker.channels connection).writerAlive = true) (reply : Packet) :
    ∃ after, sendOn middle connection reply = (ok (), after) ∧
      after.channels connection = { broker.channels connection with
        sent := (broker.channels connection).sent ++ [reply] } := by
  have alive : (middle.channels connection).writerAlive = true := by rwa [tables.channels]
  rw [sendOn, sendPacket_of_alive alive]
  refine ⟨_, rfl, (putChannel_self _ _ _).trans ?_⟩
  rw [tables.channels]

open Server in
/-- A packet that is answered after a call of the broker. -/
theorem serverRole_handles_called {client : Broker.ClientId} {connection : ConnectionId}
    {broker after : Broker} {queue : WorkQueue} {packet reply : Packet}
    (dispatched : dispatchServerInbound broker queue client connection packet =
      (ok (), after, queue))
    (sent : after.channels connection = { broker.channels connection with
      sent := (broker.channels connection).sent ++ [reply] })
    (alive : (broker.channels connection).writerAlive = true) (receiver : queue.receiver = true)
    (keeps : ∀ stash, stashAfter stash packet = stash) (unanswered : answer packet = [])
    (silent : ∀ stash, handsOnFrom stash packet = none) (plainReply : IsAnswer reply = false) :
    (serverRole client connection).Handles (broker, queue) packet (after, queue) := by
  have channel : ChannelHandles (broker.channels connection) packet
      (after.channels connection) := by
    rw [sent]
    exact .neutral keeps unanswered alive rfl rfl (by simp [plainReply])
  refine ⟨dispatched, ⟨channel.alive, receiver⟩, channel.stash, ?_, channel.answers⟩
  rw [silent]
  exact (List.append_nil _).symm

open Server in
theorem serverRole_sound (client : Broker.ClientId) (connection : ConnectionId) :
    (serverRole client connection).Sound := by
  rintro ⟨broker, queue⟩ packet ready fromWire plain
  rcases ready with ⟨alive, receiver⟩
  dsimp only at alive receiver
  cases packet with
  | publish publish =>
      rcases ackInboundPublishPreChain_spec alive fromWire.idMatchesQos with
        ⟨after, acked, channel⟩
      by_cases level : publish.qos = .exactlyOnce
      · have dispatched : dispatchLocal ⟨broker.channels connection, queue⟩ (.publish publish) =
            (.done (ok ()), ⟨after, queue⟩) := by
          simp only [dispatchLocal, acked, if_pos level]
        exact ⟨_, serverRole_handles_local dispatched channel receiver
          (by simp [handsOnFrom, level])⟩
      · have dispatched : dispatchLocal ⟨broker.channels connection, queue⟩ (.publish publish) =
            (.done (ok ()), ⟨after, { queue with
              pending := queue.pending ++ [publish]
              handed := queue.handed ++ [publish] }⟩) := by
          simp only [dispatchLocal, acked, if_neg level]
          rw [reader_handOn_of_receiver _ receiver]
        refine ⟨_, serverRole_handles_local dispatched channel receiver ?_⟩
        simp [handsOnFrom, level]
  | pubrel id =>
      rcases dispatchLocal_pubrel ⟨broker.channels connection, queue⟩ alive receiver id with
        ⟨handedQueue, dispatched, stillReceives, handed⟩
      refine ⟨_, serverRole_handles_local dispatched (channelHandles_pubrel alive id)
        stillReceives ?_⟩
      simp only [handed, List.map_append, Option.toList_map, handsOnFrom]
      rw [List.map_map]
      rfl
  | pubrec id =>
      have dispatched : dispatchLocal ⟨broker.channels connection, queue⟩ (.pubrec id) = _ :=
        reader_reply_of_alive (Reader.withSession ⟨broker.channels connection, queue⟩
          fun session => session.wakeAckWaiter id .pubrec) alive (.pubrel id)
      refine ⟨_, serverRole_handles_local dispatched (.neutral (fun _ => rfl) rfl alive ?_ rfl rfl)
        receiver (List.append_nil _).symm⟩
      exact MqttSession.qos2Recv_wake _ _ _ _
  | puback id | pubcomp id =>
      refine ⟨_, serverRole_handles_local rfl (.neutral (fun _ => rfl) rfl alive ?_
        (List.append_nil _).symm rfl) receiver (List.append_nil _).symm⟩
      exact MqttSession.qos2Recv_wake _ _ _ _
  | pingreq =>
      have dispatched : dispatchLocal ⟨broker.channels connection, queue⟩ .pingreq = _ :=
        reader_reply_of_alive _ alive .pingresp
      exact ⟨_, serverRole_handles_local dispatched (.neutral (fun _ => rfl) rfl alive rfl rfl rfl)
        receiver (List.append_nil _).symm⟩
  | subscribe subscribe =>
      let filters : List TopicFilter :=
        subscribe.subscriptions.map fun wanted => ⟨wanted.topic, wanted.qos⟩
      have tables := Broker.onlyTables_subscribe broker client connection filters
      rcases sendOn_of_onlyTables tables alive (.suback ⟨subscribe.packetId,
        (broker.subscribe client connection filters).1⟩) with ⟨after, answered, sent⟩
      refine ⟨_, serverRole_handles_called ?_ sent alive receiver (fun _ => rfl) rfl (fun _ => rfl)
        rfl⟩
      dsimp only [filters] at answered
      simp only [dispatchServerInbound, dispatchLocal, putChannel_eq_self, answered]
  | unsubscribe unsubscribe =>
      have tables := Broker.onlyTables_unsubscribe broker client connection unsubscribe.topics
      rcases sendOn_of_onlyTables tables alive (.unsuback unsubscribe.packetId) with
        ⟨after, answered, sent⟩
      refine ⟨_, serverRole_handles_called ?_ sent alive receiver (fun _ => rfl) rfl (fun _ => rfl)
        rfl⟩
      simp only [dispatchServerInbound, dispatchLocal, putChannel_eq_self, answered]
  | connect _ | disconnect => exact absurd plain id
  | connack _ | suback _ | unsuback _ | pingresp =>
      exact ⟨_, serverRole_handles_local rfl (.neutral (fun _ => rfl) rfl alive rfl
        (List.append_nil _).symm rfl) receiver (List.append_nil _).symm⟩

/-! ## Exactly once -/

/-- In both roles, on a channel that starts with nothing in the stash and whose
sends succeed, every sequence of packets from the wire is processed without
failure.  It hands on exactly what it is to hand on, the same in both roles, and
each PUBREC and PUBCOMP that is due is sent once and in order. -/
theorem inbound_exactly_once (client : Broker.ClientId) (connection : ConnectionId)
    (packets : List Packet) (fromWire : ∀ packet ∈ packets, FromWire packet)
    (plain : ∀ packet ∈ packets, Plain packet) (broker : Broker) (queue : Server.WorkQueue)
    (serverAlive : (broker.channels connection).writerAlive = true)
    (serverReceives : queue.receiver = true)
    (serverFresh : (broker.channels connection).session.qos2Recv = ∅)
    (state : Client.Connection) (clientAlive : state.channel.writerAlive = true)
    (clientFresh : state.channel.session.qos2Recv = ∅) :
    (∃ after, (serverRole client connection).processAll (broker, queue) packets = (ok (), after) ∧
      after.2.handed.map Message.ofPublish =
        queue.handed.map Message.ofPublish ++ handedOn [] packets ∧
      (after.1.channels connection).sent.filter IsAnswer =
        (broker.channels connection).sent.filter IsAnswer ++ packets.flatMap answer) ∧
    (∃ after, clientRole.processAll state packets = (ok (), after) ∧
      after.handed.map Message.ofIncoming =
        state.handed.map Message.ofIncoming ++ handedOn [] packets ∧
      after.channel.sent.filter IsAnswer =
        state.channel.sent.filter IsAnswer ++ packets.flatMap answer) := by
  constructor
  · refine (serverRole_sound client connection).processAll packets [] (broker, queue)
      ⟨serverAlive, serverReceives⟩ (fun id => ?_) fromWire plain
    simp [serverRole, serverFresh, awaiting]
  · refine clientRole_sound.processAll packets [] state clientAlive (fun id => ?_) fromWire plain
    simp [clientRole, clientFresh, awaiting]

/-- A QoS 2 PUBLISH that is sent twice and released twice is handed on once. -/
theorem inbound_exactly_once_retransmitted :
    let publish : PublishPacket := ⟨"a", [7], false, .exactlyOnce, false, some 5⟩
    let packets : List Packet :=
      [.publish publish, .publish { publish with dup := true }, .pubrel 5, .pubrel 5]
    handedOn [] packets = [⟨"a", [7], .exactlyOnce, false⟩] ∧
      ∃ after, (serverRole "c" 1).processAll (Broker.new fun _ => .new, .new) packets =
          (ok (), after) ∧
        after.2.handed.map Message.ofPublish = handedOn [] packets := by
  refine ⟨by decide, ?_⟩
  have wire : ∀ packet ∈ ([.publish ⟨"a", [7], false, .exactlyOnce, false, some 5⟩,
      .publish ⟨"a", [7], true, .exactlyOnce, false, some 5⟩, .pubrel 5, .pubrel 5] : List Packet),
      FromWire packet := by
    simp only [List.forall_mem_cons, List.not_mem_nil, false_implies, implies_true, and_true]
    refine ⟨⟨6, [0x34, 6, 0, 1, 0x61, 0, 5, 7], [], by decide⟩,
      ⟨6, [0x3C, 6, 0, 1, 0x61, 0, 5, 7], [], by decide⟩, ?_, ?_⟩ <;>
      exact ⟨2, [0x62, 2, 0, 5], [], by decide⟩
  rcases (inbound_exactly_once "c" 1 _ wire (by decide) (Broker.new fun _ => .new) .new rfl rfl
    rfl .new rfl rfl).1 with ⟨after, processed, handed, _⟩
  exact ⟨after, processed, handed⟩

end HotaruMqtt.Inbound
