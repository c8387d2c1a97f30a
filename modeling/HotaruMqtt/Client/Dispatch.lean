import HotaruMqtt.Session

/-!
# Dispatch of inbound packets in the client

`dispatch_client_inbound` of `protocol/client.rs` with the acknowledgement it
sends first.  Handlers are other tasks: a publish that is dispatched to the
endpoints is recorded as handed on.
-/

namespace HotaruMqtt.Client

open Exec Exec.Outcome

/-- The connection as dispatch sees it. -/
structure Connection where
  channel : MqttChannel
  handed : List IncomingPublish

namespace Connection

/-- A connection on which nothing has been sent or handed on. -/
def new : Connection :=
  ⟨.new, []⟩

/-- Go on from a call on the channel, if it succeeded. -/
def andThen (connection : Connection) (called : Outcome MqttError Unit × MqttChannel)
    (next : Connection → Outcome MqttError Bool × Connection) :
    Outcome MqttError Bool × Connection :=
  match called with
  | (.ok (), channel) => next { connection with channel }
  | (.err error, channel) => (err error, { connection with channel })
  | (.panic cause, channel) => (.panic cause, { connection with channel })

/-- Send a packet, and go on only if the writer took it. -/
def send (connection : Connection) (packet : Packet)
    (next : Connection → Outcome MqttError Bool × Connection) :
    Outcome MqttError Bool × Connection :=
  connection.andThen (connection.channel.sendPacket packet) next

/-- Work on the session of the channel. -/
def withSession (connection : Connection) (change : MqttSession → MqttSession) : Connection :=
  { connection with channel := connection.channel.withSession change }

/-- A message goes to the handlers. -/
def handOn (connection : Connection) (incoming : IncomingPublish) : Connection :=
  { connection with handed := connection.handed ++ [incoming] }

end Connection

/-- The acknowledgement that both roles share, on the channel of the connection. -/
def ackInboundPublishPreChain (connection : Connection) (publish : PublishPacket)
    (next : Connection → Outcome MqttError Bool × Connection) :
    Outcome MqttError Bool × Connection :=
  connection.andThen (HotaruMqtt.ackInboundPublishPreChain connection.channel publish) next

/-- The outcome is true when the loop should end. -/
def dispatchClientInbound (connection : Connection) :
    Packet → Outcome MqttError Bool × Connection
  | .publish publish =>
      ackInboundPublishPreChain connection publish fun connection =>
        if publish.qos = .exactlyOnce then
          (ok false, connection)
        else
          (ok false, connection.handOn (incomingFromPacket publish))
  | .puback id =>
      (ok false, connection.withSession fun session =>
        (session.wakeAckWaiter id .puback).clearOutboundInflight id)
  | .pubrec id =>
      (connection.withSession fun session => session.wakeAckWaiter id .pubrec).send
        (.pubrel id) fun connection => (ok false, connection)
  | .pubcomp id =>
      (ok false, connection.withSession fun session =>
        (session.wakeAckWaiter id .pubcomp).clearOutboundInflight id)
  | .pubrel id =>
      let (stored, session) := connection.channel.session.takeQos2Publish id
      let connection := connection.withSession fun _ => session
      let connection :=
        match stored with
        | some publish => connection.handOn publish
        | none => connection
      connection.send (.pubcomp id) fun connection => (ok false, connection)
  | .suback suback =>
      (ok false, connection.withSession fun session =>
        session.wakeSubackWaiter suback.packetId suback.returnCodes)
  | .unsuback id =>
      (ok false, connection.withSession fun session => session.wakeUnsubackWaiter id)
  | .pingresp => (ok false, connection)
  | .disconnect => (ok true, connection)
  | .connect _ | .connack _ | .subscribe _ | .unsubscribe _ | .pingreq => (ok false, connection)

/-- The writer takes packets and the channel is open. -/
def Healthy (connection : Connection) : Prop :=
  connection.channel.writerAlive = true ∧ connection.channel.isOpen = true

theorem Healthy.withSession {connection : Connection} (healthy : Healthy connection)
    (change : MqttSession → MqttSession) : Healthy (connection.withSession change) :=
  healthy

theorem Healthy.handOn {connection : Connection} (healthy : Healthy connection)
    (incoming : IncomingPublish) : Healthy (connection.handOn incoming) :=
  healthy

theorem Healthy.send {connection : Connection} (healthy : Healthy connection) (packet : Packet)
    (next : Connection → Outcome MqttError Bool × Connection) :
    ∃ sent, Healthy sent ∧ connection.send packet next = next sent := by
  obtain ⟨alive, isOpen⟩ := healthy
  refine ⟨{ connection with channel :=
    { connection.channel with sent := connection.channel.sent ++ [packet] } },
    ⟨alive, isOpen⟩, ?_⟩
  rw [Connection.send, MqttChannel.sendPacket, if_pos alive]
  rfl

theorem Healthy.ackInboundPublishPreChain {connection : Connection} (healthy : Healthy connection)
    (publish : PublishPacket) (next : Connection → Outcome MqttError Bool × Connection) :
    ∃ acked, Healthy acked ∧
      Client.ackInboundPublishPreChain connection publish next = next acked := by
  unfold Client.ackInboundPublishPreChain HotaruMqtt.ackInboundPublishPreChain
  split
  · exact ⟨connection, healthy, rfl⟩
  · exact healthy.send (.puback _) next
  · exact (healthy.withSession fun session =>
      session.stashQos2Publish _ (incomingFromPacket publish)).send (.pubrec _) next
  · exact ⟨connection, healthy, rfl⟩

/-- While the writer lives, dispatch succeeds on every packet and ends the loop
exactly on DISCONNECT. -/
theorem dispatchClientInbound_healthy {connection : Connection} (healthy : Healthy connection)
    (packet : Packet) :
    ∃ next, Healthy next ∧ dispatchClientInbound connection packet =
      (ok (decide (packet = .disconnect)), next) := by
  cases packet with
  | publish publish =>
      rw [dispatchClientInbound]
      have finish : ∀ acked, Healthy acked → ∃ next, Healthy next ∧
          (if publish.qos = .exactlyOnce then (ok false, acked)
            else (ok false, acked.handOn (incomingFromPacket publish))) =
            ((ok (decide (Packet.publish publish = .disconnect)), next) :
              Outcome MqttError Bool × Connection) := by
        intro acked ackedHealthy
        split
        · exact ⟨acked, ackedHealthy, rfl⟩
        · exact ⟨_, ackedHealthy.handOn (incomingFromPacket publish), rfl⟩
      obtain ⟨acked, ackedHealthy, ackedEq⟩ := healthy.ackInboundPublishPreChain publish _
      rw [ackedEq]
      exact finish acked ackedHealthy
  | pubrec id =>
      obtain ⟨sent, sentHealthy, sentEq⟩ := (healthy.withSession fun session =>
        session.wakeAckWaiter id .pubrec).send (.pubrel id) fun acked => (ok false, acked)
      exact ⟨sent, sentHealthy, sentEq⟩
  | pubrel id =>
      rw [dispatchClientInbound]
      dsimp only
      have taken := healthy.withSession fun _ =>
        (connection.channel.session.takeQos2Publish id).2
      split
      · rename_i publish _
        obtain ⟨sent, sentHealthy, sentEq⟩ :=
          (taken.handOn publish).send (.pubcomp id) fun acked => (ok false, acked)
        exact ⟨sent, sentHealthy, sentEq⟩
      · obtain ⟨sent, sentHealthy, sentEq⟩ :=
          taken.send (.pubcomp id) fun acked => (ok false, acked)
        exact ⟨sent, sentHealthy, sentEq⟩
  | puback id | pubcomp id | suback suback | unsuback id =>
      exact ⟨_, healthy.withSession _, rfl⟩
  | connect _ | connack _ | subscribe _ | unsubscribe _ | pingreq | pingresp | disconnect =>
      exact ⟨connection, healthy, rfl⟩

end HotaruMqtt.Client
