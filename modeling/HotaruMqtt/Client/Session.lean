import HotaruMqtt.Channel.Link
import HotaruMqtt.Client.Dispatch

/-!
# A client session

`handle_client` from the CONNECT to its end, packet by packet, with the calls of the
send path that other tasks make over the same channel in the meantime.  Such a call
takes an identifier, parks its waiter and hands its command to the writer actor; calls
that run at the same time can reach the writer actor in another order than they took
their identifiers in, so the requests in between are kept apart.

Nothing keeps a call of the send path from reaching the writer before the CONNECT does:
the channel can be acquired as soon as it is open.
-/

namespace HotaruMqtt.Client

open Exec Exec.Outcome

/-! ## Configuration -/

/-- A user name with its password. -/
structure Credentials where
  username : String
  password : Bytes
  deriving DecidableEq, Repr

/-- The settings of a session that reach the wire. -/
structure MqttClientConfig where
  clientId : String
  cleanSession : Bool
  keepAliveSecs : UInt16
  credentials : Option Credentials
  initialSubscriptions : List TopicFilter
  will : Option WillMessage
  deriving DecidableEq, Repr

/-- The defaults: a clean session, a minute of keep-alive, and nothing else. -/
def MqttClientConfig.new (clientId : String) : MqttClientConfig where
  clientId := clientId
  cleanSession := true
  keepAliveSecs := 60
  credentials := none
  initialSubscriptions := []
  will := none

/-- The CONNECT that a configuration asks for. -/
def buildConnect (config : MqttClientConfig) : ConnectPacket where
  clientId := config.clientId
  cleanSession := config.cleanSession
  keepAlive := config.keepAliveSecs
  username := config.credentials.map Credentials.username
  password := config.credentials.map Credentials.password
  will := config.will.map fun will => ⟨will.topic, will.payload, will.qos, will.retain⟩

/-- The period of the ping timer in milliseconds; none for keep-alive 0. -/
def clientPingInterval (keepAlive : UInt16) : Option Nat :=
  if keepAlive = 0 then none else some (keepAlive.toNat * 1000)

/-- What the session is bound with once the CONNACK has come. -/
structure BindInfo where
  clientId : String
  keepAlive : UInt16
  deriving DecidableEq, Repr

/-! ## The session -/

/-- Why `handle_client` cannot begin. -/
inductive Unavailable
  | noConfig
  | readerTaken
  deriving DecidableEq, Repr

/-- The text of the configuration error. -/
def Unavailable.message : Unavailable → String
  | .noConfig => "MqttClientConfig not registered in runtime statics"
  | .readerTaken => "reader already taken"

/-- Where `handle_client` stands. -/
inductive Phase
  /-- The CONNECT is sent next. -/
  | starting
  /-- It waits for the CONNACK. -/
  | connecting
  /-- The head of the loop. -/
  | looping
  /-- It waits for a packet, the ping timer or the shutdown signal. -/
  | selecting
  | returned (outcome : Outcome MqttError Unit)
  deriving DecidableEq, Repr

/-- A client's session: where its handler stands, its connection, what it was bound with, and
the requests on their way to the writer actor. -/
structure Session where
  phase : Phase
  connection : Connection
  bind : Option BindInfo
  /-- Requests that have their identifier and whose commands the writer actor has not been
  handed yet. -/
  outgoing : List (Channel.MqttRequest × PacketId)

namespace Session

/-- A session before its CONNECT. -/
def new : Session :=
  ⟨.starting, .new, none, []⟩

/-- The channel of the connection. -/
def channel (session : Session) : MqttChannel :=
  session.connection.channel

/-- The session with another state of its channel. -/
def withChannel (session : Session) (channel : MqttChannel) : Session :=
  { session with connection := { session.connection with channel } }

/-- The handler gets to another place. -/
def enter (session : Session) (phase : Phase) : Session :=
  { session with phase }

/-- The handler returns. -/
def finish (session : Session) (outcome : Outcome MqttError Unit) : Session :=
  { session with phase := .returned outcome }

end Session

/-- How a read ends. -/
inductive ReadOutcome
  | packet (packet : Packet)
  | failed (error : MqttError)
  | elapsed
  deriving DecidableEq, Repr

/-- What happens to a client's session, by its handler or by the calls beside it. -/
inductive Action
  | unavailable (reason : Unavailable)
  /-- The handler takes a step that depends on nothing from outside. -/
  | proceed
  | read (outcome : ReadOutcome)
  | tick
  | shutdown
  /-- A call of `close`, as `MqttProtocol::handle` makes one at the end. -/
  | close
  | writerExit
  /-- A call of the send path takes its identifier and parks its waiter. -/
  | request (request : Channel.MqttRequest)
  /-- One of them hands its command to the writer actor. -/
  | enqueue (index : Nat)
  /-- A publish at QoS 2 parks its second waiter. -/
  | awaitPubcomp (id : PacketId)
  /-- A call gives up after its timeout. -/
  | cancel (id : PacketId)
  deriving DecidableEq

namespace Session

variable (config : MqttClientConfig) (session : Session)

/-- After the loop: a DISCONNECT whose failure is ignored. -/
def leave : Session :=
  (session.withChannel (session.channel.sendPacket .disconnect).2).finish (ok ())

/-- The initial SUBSCRIBE is sent and not awaited. -/
def subscribeInitially : Session :=
  if config.initialSubscriptions = [] then
    session.enter .looping
  else
    let (id, state) := session.channel.session.allocatePacketId
    let channel := { session.channel with session := state }
    match channel.sendPacket (.subscribe
        { packetId := id
          subscriptions := config.initialSubscriptions.map fun filter =>
            ⟨filter.filter, filter.qos⟩ }) with
    | (.ok (), channel) => (session.withChannel channel).enter .looping
    | (outcome, channel) => (session.withChannel channel).finish outcome

/-- The wait for the CONNACK is over. -/
def receiveConnack : ReadOutcome → Session
  | .elapsed => session.finish (err (.timeout .connack))
  | .failed error => session.finish (err error)
  | .packet (.connack connack) =>
      if connack.returnCode ≠ .accepted then
        session.finish (err (.protocol (.connectionRefused connack.returnCode)))
      else
        -- the first value set stays
        let bind := session.bind.getD ⟨config.clientId, config.keepAliveSecs⟩
        subscribeInitially config { session with bind := some bind }
  | .packet _ => session.finish (err (.protocol .expectedConnack))

/-- The read branch of the loop; it has no deadline. -/
def receive : ReadOutcome → Option Session
  | .packet packet =>
      let (outcome, connection) := dispatchClientInbound session.connection packet
      let session := { session with connection }
      match outcome with
      | .ok true => some session.leave
      | .ok false => some (session.enter .looping)
      | .err error => some (session.finish (err error))
      | .panic cause => some (session.finish (.panic cause))
  | .failed (.io _) => some session.leave
  | .failed error => some (session.finish (err error))
  | .elapsed => none

/-- The ping branch; a PINGREQ that cannot be sent ends the loop. -/
def ping : Option Session :=
  match clientPingInterval config.keepAliveSecs with
  | none => none
  | some _ =>
      match session.channel.sendPacket .pingreq with
      | (.ok (), channel) => some ((session.withChannel channel).enter .looping)
      | (_, channel) => some (session.withChannel channel).leave

/-- The steps of the handler that wait for nothing. -/
def proceed : Option Session :=
  match session.phase with
  | .starting =>
      match session.channel.sendPacket (.connect (buildConnect config)) with
      | (.ok (), channel) => some ((session.withChannel channel).enter .connecting)
      | (outcome, channel) => some ((session.withChannel channel).finish outcome)
  | .looping =>
      if session.channel.isOpen then some (session.enter .selecting) else some session.leave
  | _ => none

/-- A call of the send path up to the point where its command is ready.  At QoS 0 it takes
no identifier, and the one noted is not looked at. -/
def prepare (request : Channel.MqttRequest) : Session :=
  match request.awaits with
  | none => { session with outgoing := session.outgoing ++ [(request, 0)] }
  | some slot =>
      let (id, state) := session.channel.session.allocatePacketId
      let session := session.withChannel { session.channel with session := state.park id slot }
      { session with outgoing := session.outgoing ++ [(request, id)] }

/-- Hand a command to the writer actor; what the call does with a failure concerns itself
alone. -/
def handOver : Channel.WriteCmd → Session
  | .packet packet => session.withChannel (session.channel.sendPacket packet).2
  | .publish publish => session.withChannel (session.channel.sendPublish publish).2
  | .flush | .shutdown => session

/-- One action; one that the session is not at has no successor. -/
def step : Action → Option Session
  | .unavailable reason =>
      match session.phase with
      | .starting => some (session.finish (err (.configuration reason.message)))
      | _ => none
  | .proceed => proceed config session
  | .read outcome =>
      match session.phase with
      | .connecting => some (receiveConnack config session outcome)
      | .selecting => receive session outcome
      | _ => none
  | .tick =>
      match session.phase with
      | .selecting => ping config session
      | _ => none
  | .shutdown =>
      match session.phase with
      | .selecting => if session.channel.isOpen then none else some session.leave
      | _ => none
  | .close => some (session.withChannel session.channel.close)
  | .writerExit =>
      some (session.withChannel { session.channel with writerAlive := false, isOpen := false })
  | .request request => some (prepare session request)
  | .enqueue index =>
      match session.outgoing[index]? with
      | none => none
      | some (request, id) =>
          some (handOver { session with outgoing := session.outgoing.eraseIdx index }
            (request.command id))
  | .awaitPubcomp id =>
      some (session.withChannel (session.channel.withSession fun state =>
        state.parkPublishAckWaiter id .pubcomp))
  | .cancel id =>
      some (session.withChannel (session.channel.withSession fun state =>
        state.cancelAckWaiter id))

/-! ## What a step of a session is -/

/-- The session with its `BindInfo`; the first value set stays. -/
def bound : Session :=
  { session with bind := some (session.bind.getD ⟨config.clientId, config.keepAliveSecs⟩) }

/-- The channel after an identifier has been allocated. -/
def numbered : MqttChannel :=
  { session.channel with session := session.channel.session.allocatePacketId.2 }

/-- The initial SUBSCRIBE. -/
def initialSubscribe (id : PacketId) : SubscribePacket where
  packetId := id
  subscriptions := config.initialSubscriptions.map fun filter => ⟨filter.filter, filter.qos⟩

/-- Why `handle_client` returns without a DISCONNECT, and with what. -/
inductive Ends (session : Session) : Action → Outcome MqttError Unit → Prop
  | unavailable {reason : Unavailable} (at_ : session.phase = .starting) :
      Ends session (.unavailable reason) (err (.configuration reason.message))
  | unsent (at_ : session.phase = .starting) (dead : ¬ session.channel.writerAlive = true) :
      Ends session .proceed (err .channelClosed)
  | late (at_ : session.phase = .connecting) :
      Ends session (.read .elapsed) (err (.timeout .connack))
  | refused {connack : ConnackPacket} (at_ : session.phase = .connecting)
      (refused : connack.returnCode ≠ .accepted) :
      Ends session (.read (.packet (.connack connack)))
        (err (.protocol (.connectionRefused connack.returnCode)))
  | unexpected {packet : Packet} (at_ : session.phase = .connecting)
      (other : ∀ connack, packet ≠ .connack connack) :
      Ends session (.read (.packet packet)) (err (.protocol .expectedConnack))
  | failed {error : MqttError}
      (at_ : session.phase = .connecting ∨
        session.phase = .selecting ∧ ∀ kind, error ≠ .io kind) :
      Ends session (.read (.failed error)) (err error)

/-- Why the loop is left with a DISCONNECT. -/
inductive Parts (config : MqttClientConfig) (session : Session) : Action → Prop
  | noticed (at_ : session.phase = .looping) (closed : ¬ session.channel.isOpen = true) :
      Parts config session .proceed
  | woken (at_ : session.phase = .selecting) (closed : ¬ session.channel.isOpen = true) :
      Parts config session .shutdown
  | lost {kind : IoErrorKind} (at_ : session.phase = .selecting) :
      Parts config session (.read (.failed (.io kind)))
  | unpinged {period : Nat} (at_ : session.phase = .selecting)
      (timed : clientPingInterval config.keepAliveSecs = some period)
      (dead : ¬ session.channel.writerAlive = true) : Parts config session .tick

/-- The steps of a session: what each needs and what it changes. -/
inductive Steps (config : MqttClientConfig) (session : Session) : Action → Session → Prop
  | ended {action : Action} {outcome : Outcome MqttError Unit}
      (ends : Ends session action outcome) : Steps config session action (session.finish outcome)
  | parted {action : Action} (parts : Parts config session action) :
      Steps config session action session.leave
  /-- The CONNECT is sent. -/
  | connected (at_ : session.phase = .starting) (alive : session.channel.writerAlive = true) :
      Steps config session .proceed ((session.withChannel
        (session.channel.sendPacket (.connect (buildConnect config))).2).enter .connecting)
  | polled (at_ : session.phase = .looping) (isOpen : session.channel.isOpen = true) :
      Steps config session .proceed (session.enter .selecting)
  /-- The CONNACK accepts, and there is nothing to subscribe to. -/
  | greeted {connack : ConnackPacket} (at_ : session.phase = .connecting)
      (accepted : connack.returnCode = .accepted) (nothing : config.initialSubscriptions = []) :
      Steps config session (.read (.packet (.connack connack)))
        ((session.bound config).enter .looping)
  /-- The CONNACK accepts, and the initial SUBSCRIBE is sent. -/
  | subscribed {connack : ConnackPacket} (at_ : session.phase = .connecting)
      (accepted : connack.returnCode = .accepted) (wanted : config.initialSubscriptions ≠ [])
      (alive : session.channel.writerAlive = true) :
      Steps config session (.read (.packet (.connack connack)))
        (((session.bound config).withChannel (session.numbered.sendPacket (.subscribe
          (initialSubscribe config session.channel.session.allocatePacketId.1))).2).enter .looping)
  | unsubscribed {connack : ConnackPacket} (at_ : session.phase = .connecting)
      (accepted : connack.returnCode = .accepted) (wanted : config.initialSubscriptions ≠ [])
      (dead : ¬ session.channel.writerAlive = true) :
      Steps config session (.read (.packet (.connack connack)))
        (((session.bound config).withChannel session.numbered).finish (err .channelClosed))
  | dispatched {packet : Packet} {connection : Connection} (at_ : session.phase = .selecting)
      (dispatched : dispatchClientInbound session.connection packet = (ok false, connection)) :
      Steps config session (.read (.packet packet)) { session with connection, phase := .looping }
  | disconnected {packet : Packet} {connection : Connection} (at_ : session.phase = .selecting)
      (dispatched : dispatchClientInbound session.connection packet = (ok true, connection)) :
      Steps config session (.read (.packet packet)) (leave { session with connection })
  | broken {packet : Packet} {error : MqttError} {connection : Connection}
      (at_ : session.phase = .selecting)
      (dispatched : dispatchClientInbound session.connection packet = (err error, connection)) :
      Steps config session (.read (.packet packet))
        { session with connection, phase := .returned (err error) }
  | panicked {packet : Packet} {cause : Panic} {connection : Connection}
      (at_ : session.phase = .selecting)
      (dispatched : dispatchClientInbound session.connection packet = (.panic cause, connection)) :
      Steps config session (.read (.packet packet))
        { session with connection, phase := .returned (.panic cause) }
  | pinged {period : Nat} (at_ : session.phase = .selecting)
      (timed : clientPingInterval config.keepAliveSecs = some period)
      (alive : session.channel.writerAlive = true) :
      Steps config session .tick
        ((session.withChannel (session.channel.sendPacket .pingreq).2).enter .looping)
  | closed : Steps config session .close (session.withChannel session.channel.close)
  | exited :
      Steps config session .writerExit
        (session.withChannel { session.channel with writerAlive := false, isOpen := false })
  /-- A publish at QoS 0 awaits nothing and takes no identifier. -/
  | listed {request : Channel.MqttRequest} (plain : request.awaits = none) :
      Steps config session (.request request)
        { session with outgoing := session.outgoing ++ [(request, 0)] }
  | parked {request : Channel.MqttRequest} {slot : AckSlot} (awaits : request.awaits = some slot) :
      Steps config session (.request request)
        { session.withChannel (session.numbered.withSession fun state =>
            state.park session.channel.session.allocatePacketId.1 slot) with
          outgoing :=
            session.outgoing ++ [(request, session.channel.session.allocatePacketId.1)] }
  | enqueued {index : Nat} {request : Channel.MqttRequest} {id : PacketId}
      (listed : session.outgoing[index]? = some (request, id)) :
      Steps config session (.enqueue index)
        (handOver { session with outgoing := session.outgoing.eraseIdx index }
          (request.command id))
  | awaited {id : PacketId} :
      Steps config session (.awaitPubcomp id) (session.withChannel
        (session.channel.withSession fun state => state.parkPublishAckWaiter id .pubcomp))
  | cancelled {id : PacketId} :
      Steps config session (.cancel id) (session.withChannel
        (session.channel.withSession fun state => state.cancelAckWaiter id))

section Inversion

variable {config session} {next : Session} {action : Action} {outcome : ReadOutcome}

theorem steps_of_proceed (moved : proceed config session = some next) :
    Steps config session .proceed next := by
  unfold proceed at moved
  split at moved
  · rename_i starting
    by_cases alive : session.channel.writerAlive = true
    · have connected := @Steps.connected config session starting alive
      rw [MqttChannel.sendPacket, if_pos alive] at moved connected
      cases moved
      exact connected
    · rw [MqttChannel.sendPacket, if_neg alive] at moved
      cases moved
      exact .ended (.unsent starting alive)
  · rename_i looping
    split at moved <;> cases moved
    · exact .polled looping ‹_›
    · exact .parted (.noticed looping ‹_›)
  · contradiction

/-- The CONNACK has accepted. -/
theorem steps_of_subscribeInitially {connack : ConnackPacket}
    (at_ : session.phase = .connecting) (accepted : connack.returnCode = .accepted) :
    Steps config session (.read (.packet (.connack connack)))
      (subscribeInitially config (session.bound config)) := by
  by_cases nothing : config.initialSubscriptions = []
  · rw [subscribeInitially, if_pos nothing]
    exact .greeted at_ accepted nothing
  · have unfolded : subscribeInitially config (session.bound config) =
        match session.numbered.sendPacket (.subscribe
          (initialSubscribe config session.channel.session.allocatePacketId.1)) with
        | (.ok (), channel) => ((session.bound config).withChannel channel).enter .looping
        | (outcome, channel) => ((session.bound config).withChannel channel).finish outcome := by
      rw [subscribeInitially, if_neg nothing]
      rfl
    rw [unfolded]
    by_cases alive : session.channel.writerAlive = true
    · have subscribed := @Steps.subscribed config session connack at_ accepted nothing alive
      have sent : session.numbered.writerAlive = true := alive
      rw [MqttChannel.sendPacket, if_pos sent] at subscribed ⊢
      exact subscribed
    · have unsent : ¬ session.numbered.writerAlive = true := alive
      rw [MqttChannel.sendPacket, if_neg unsent]
      exact .unsubscribed at_ accepted nothing alive

theorem steps_of_receiveConnack (at_ : session.phase = .connecting) :
    Steps config session (.read outcome) (receiveConnack config session outcome) := by
  unfold receiveConnack
  split
  · exact .ended (.late at_)
  · exact .ended (.failed (.inl at_))
  · split
    · rename_i refused
      exact .ended (.refused at_ refused)
    · rename_i accepted
      exact steps_of_subscribeInitially at_ (not_not.mp accepted)
  · rename_i other
    exact .ended (.unexpected at_ other)

theorem steps_of_receive (at_ : session.phase = .selecting)
    (received : receive session outcome = some next) :
    Steps config session (.read outcome) next := by
  unfold receive at received
  split at received
  · rename_i packet
    cases dispatched : dispatchClientInbound session.connection packet with
    | mk result connection =>
        rw [dispatched] at received
        cases result with
        | ok ends =>
            cases ends <;> cases received
            · exact .dispatched at_ dispatched
            · exact .disconnected at_ dispatched
        | err error =>
            cases received
            exact .broken at_ dispatched
        | panic cause =>
            cases received
            exact .panicked at_ dispatched
  · cases received
    exact .parted (.lost at_)
  · rename_i other
    cases received
    exact .ended (.failed (.inr ⟨at_, other⟩))
  · contradiction

theorem steps_of_ping (at_ : session.phase = .selecting)
    (pinged : ping config session = some next) : Steps config session .tick next := by
  unfold ping at pinged
  split at pinged
  · contradiction
  · rename_i period timed
    by_cases alive : session.channel.writerAlive = true
    · have sent := @Steps.pinged config session period at_ timed alive
      rw [MqttChannel.sendPacket, if_pos alive] at pinged sent
      cases pinged
      exact sent
    · rw [MqttChannel.sendPacket, if_neg alive] at pinged
      cases pinged
      exact .parted (.unpinged at_ timed alive)

theorem steps_of_prepare (request : Channel.MqttRequest) :
    Steps config session (.request request) (prepare session request) := by
  unfold prepare
  split
  · exact .listed ‹_›
  · exact .parked ‹_›

theorem steps_of_step (stepped : step config session action = some next) :
    Steps config session action next := by
  cases action with
  | proceed => exact steps_of_proceed stepped
  | unavailable reason =>
      simp only [step] at stepped
      split at stepped <;> cases stepped
      exact .ended (.unavailable ‹_›)
  | read outcome =>
      simp only [step] at stepped
      split at stepped
      · cases stepped
        exact steps_of_receiveConnack ‹_›
      · exact steps_of_receive ‹_› stepped
      · contradiction
  | tick =>
      simp only [step] at stepped
      split at stepped
      · exact steps_of_ping ‹_› stepped
      · contradiction
  | shutdown =>
      simp only [step] at stepped
      split at stepped
      · split at stepped <;> cases stepped
        exact .parted (.woken ‹_› ‹_›)
      · contradiction
  | request request =>
      cases stepped
      exact steps_of_prepare request
  | enqueue index =>
      simp only [step] at stepped
      split at stepped <;> cases stepped
      exact .enqueued ‹_›
  | close =>
      cases stepped
      exact .closed
  | writerExit =>
      cases stepped
      exact .exited
  | awaitPubcomp id =>
      cases stepped
      exact .awaited
  | cancel id =>
      cases stepped
      exact .cancelled

end Inversion

end Session

end HotaruMqtt.Client
