import HotaruMqtt.Client.Session
import HotaruMqtt.Network.Parties

/-!
# The client's end

Every step of a client session that goes on is a step of its party: it hears the packet
it reads, it publishes the request that reaches the writer, and whatever else it sends
belongs to no flow.
-/

namespace HotaruMqtt.Network

open Exec Exec.Outcome Inbound

/-- A client's end of its connection. -/
def clientParty (session : Client.Session) : Party :=
  .ofClient session.connection

/-- The session is under way and its channel is open. -/
structure ClientUp (session : Client.Session) : Prop where
  alive : session.channel.writerAlive = true
  isOpen : session.channel.isOpen = true
  underWay : ∀ outcome, session.phase ≠ .returned outcome

/-- The PUBLISH of a request. -/
def requested (request : Channel.PublishRequest) (id : PacketId) : PublishPacket where
  topic := request.topic
  payload := request.payload
  dup := false
  qos := request.qos
  retain := request.retain
  packetId := if request.qos ≠ .atMostOnce then some id else none

/-- What a step of a session is to the flows. -/
inductive ClientShows (session : Client.Session) : Client.Action → Party → Prop
  | hears {packet : Packet} {after : Party} (hears : (clientParty session).Hears packet after) :
      ClientShows session (.read (.packet packet)) after
  | publishes {index : Nat} {request : Channel.PublishRequest} {id : PacketId}
      (listed : session.outgoing[index]? = some (.publish request, id)) :
      ClientShows session (.enqueue index)
        ((clientParty session).publishes (requested request id) (clientParty session).tracked)
  | adds {action : Client.Action} {packets : List Packet}
      (other : ∀ packet, action ≠ .read (.packet packet))
      (neutral : ∀ packet ∈ packets, Neutral packet) :
      ClientShows session action ((clientParty session).adds packets)

section Client

open Client

variable {config : MqttClientConfig} {session next : Client.Session} {action : Client.Action}

/-- The party of a session whose channel has sent more. -/
theorem clientParty_withChannel (session : Client.Session) {channel : MqttChannel}
    {packets : List Packet} (sent : channel.sent = session.channel.sent ++ packets)
    (stash : channel.session.qos2Recv = session.channel.session.qos2Recv)
    (records : channel.session.outboundInflight = session.channel.session.outboundInflight) :
    clientParty (session.withChannel channel) = (clientParty session).adds packets :=
  Party.of_congr sent stash records

theorem ClientShows.same (other : ∀ packet, action ≠ .read (.packet packet))
    (same : clientParty next = clientParty session) :
    ClientShows session action (clientParty next) := by
  have shows : ClientShows session action ((clientParty session).adds []) :=
    .adds other (List.forall_mem_nil _)
  rwa [Party.adds_nil, ← same] at shows

theorem standing_andThen {connection : Connection} {called : Outcome MqttError Unit × MqttChannel}
    {then_ : Connection → Outcome MqttError Bool × Connection}
    (kept : standing called.2 = standing connection.channel)
    (keeps : ∀ connection, standing (then_ connection).2.channel = standing connection.channel) :
    standing (connection.andThen called then_).2.channel = standing connection.channel := by
  unfold Connection.andThen
  split
  · exact (keeps _).trans kept
  · exact kept
  · exact kept

theorem standing_dispatchClientInbound (connection : Connection) (packet : Packet) :
    standing (dispatchClientInbound connection packet).2.channel = standing connection.channel := by
  cases packet with
  | publish publish =>
      refine standing_andThen (standing_ackInboundPublishPreChain _ _) fun connection => ?_
      split <;> rfl
  | pubrec id =>
      exact (standing_andThen (standing_sendPacket _ _) fun _ => rfl).trans (standing_wake _ _ _ _)
  | pubrel id =>
      rw [dispatchClientInbound]
      refine (standing_andThen (standing_sendPacket _ _) fun _ => rfl).trans ?_
      split <;> rfl
  | puback id | pubcomp id | suback suback | unsuback id => exact standing_wake _ _ _ _
  | connect _ | connack _ | subscribe _ | unsubscribe _ | pingreq | pingresp | disconnect => rfl

theorem ClientUp.of_flags (up : ClientUp next) (same : flags next.channel = flags session.channel)
    (underWay : ∀ outcome, session.phase ≠ .returned outcome) : ClientUp session where
  alive := (congrArg Prod.fst same).symm.trans up.alive
  isOpen := (congrArg Prod.snd same).symm.trans up.isOpen
  underWay := underWay

/-- The party after a packet that the writer took. -/
theorem clientParty_sent (session : Client.Session) (packet : Packet) :
    clientParty (session.withChannel
      { session.channel with sent := session.channel.sent ++ [packet] }) =
        (clientParty session).adds [packet] :=
  clientParty_withChannel session rfl rfl rfl

/-- A packet of no flow is handed to the writer. -/
theorem clientShows_sent {packet : Packet} {phase : Phase}
    (alive : session.channel.writerAlive = true) (other : ∀ packet, action ≠ .read (.packet packet))
    (neutral : Neutral packet) :
    ClientShows session action (clientParty
      ((session.withChannel (session.channel.sendPacket packet).2).enter phase)) := by
  rw [sendPacket_of_alive alive]
  exact (congrArg (ClientShows session action) (clientParty_sent session packet)).mpr
    (.adds other (List.forall_mem_singleton.mpr neutral))

theorem flags_handOver (session : Client.Session) (cmd : Channel.WriteCmd) :
    flags (session.handOver cmd).channel = flags session.channel ∧
      (session.handOver cmd).phase = session.phase := by
  cases cmd with
  | packet packet => exact ⟨flags_sendPacket _ _, rfl⟩
  | publish publish => exact ⟨flags_sendPacket _ _, rfl⟩
  | flush | shutdown => exact ⟨rfl, rfl⟩

/-- One request reaches the writer: a PUBLISH, or a packet of no flow. -/
theorem clientShows_enqueue {index : Nat} {request : Channel.MqttRequest} {id : PacketId}
    (listed : session.outgoing[index]? = some (request, id))
    (alive : session.channel.writerAlive = true) :
    ClientShows session (.enqueue index)
      (clientParty (Client.Session.handOver
        { session with outgoing := session.outgoing.eraseIdx index } (request.command id))) := by
  have sent : ∀ packet, clientParty (Client.Session.withChannel
      { session with outgoing := session.outgoing.eraseIdx index }
      (session.channel.sendPacket packet).2) = (clientParty session).adds [packet] := by
    intro packet
    rw [sendPacket_of_alive alive]
    exact clientParty_sent session packet
  cases request with
  | publish request =>
      exact (congrArg (ClientShows session _) (sent _)).mpr (.publishes listed)
  | subscribe filters | unsubscribe topics =>
      exact (congrArg (ClientShows session _) (sent _)).mpr
        (.adds (by simp) (neutral_singleton rfl rfl))

/-- Every step of a session that goes on is a step of its party. -/
theorem clientShows_of_step (stepped : session.step config action = some next)
    (up : ClientUp next) : ClientUp session ∧ ClientShows session action (clientParty next) := by
  cases Client.Session.steps_of_step stepped with
  | ended | parted | unsubscribed | disconnected | broken | panicked =>
      exact (up.underWay _ rfl).elim
  | connected at_ alive =>
      exact ⟨up.of_flags (flags_sendPacket _ _) (by simp [at_]),
        clientShows_sent alive (by simp) ⟨rfl, rfl⟩⟩
  | polled at_ => exact ⟨up.of_flags rfl (by simp [at_]), .same (by simp) rfl⟩
  | greeted at_ =>
      refine ⟨up.of_flags rfl (by simp [at_]), .hears ⟨[], List.forall_mem_nil _, ?_⟩⟩
      exact (Party.adds_nil _).symm
  | subscribed at_ _ _ alive =>
      refine ⟨up.of_flags (flags_sendPacket _ _) (by simp [at_]), ?_⟩
      have numbered : session.numbered.writerAlive = true := alive
      rw [sendPacket_of_alive numbered]
      exact .hears ⟨_, neutral_singleton rfl rfl, clientParty_withChannel session rfl rfl rfl⟩
  | @dispatched packet connection at_ dispatched =>
      have kept := congrArg Prod.fst (standing_dispatchClientInbound session.connection packet)
      rw [dispatched] at kept
      have before : ClientUp session := up.of_flags kept (by simp [at_])
      obtain ⟨after, same, hears⟩ := hears_dispatchClientInbound before.alive packet
      obtain rfl : connection = after := congrArg Prod.snd (dispatched.symm.trans same)
      exact ⟨before, .hears hears⟩
  | pinged at_ _ alive =>
      exact ⟨up.of_flags (flags_sendPacket _ _) (by simp [at_]),
        clientShows_sent alive (by simp) ⟨rfl, rfl⟩⟩
  | closed =>
      have closed := up.isOpen
      simp [Client.Session.withChannel, Client.Session.channel] at closed
  | exited =>
      have dead := up.alive
      simp [Client.Session.withChannel, Client.Session.channel] at dead
  | listed | parked | awaited | cancelled =>
      exact ⟨up.of_flags rfl up.underWay, .same (by simp) rfl⟩
  | @enqueued index request id listed =>
      obtain ⟨same, phase⟩ := flags_handOver
        { session with outgoing := session.outgoing.eraseIdx index } (request.command id)
      have before : ClientUp session := up.of_flags same (phase ▸ up.underWay)
      exact ⟨before, clientShows_enqueue listed before.alive⟩

end Client

end HotaruMqtt.Network
