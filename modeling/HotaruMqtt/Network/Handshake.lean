import HotaruMqtt.Network.Greeting

/-!
# The handshake

A client that goes on after its CONNACK is registered with the broker, and with what its
own configuration says; a client that is refused is not registered, and both handlers end
with the same code.  The client can be sure of this although it sees nothing but the
CONNACK, and although requests of its own may have reached the server before the CONNECT:
those are not a CONNECT, and end the connection.
-/

namespace HotaruMqtt.Network

open Exec Exec.Outcome Exec.Transition Broker

/-! ## The client -/

/-- The code of the refusal that a handler ends with. -/
def refusalOf : Outcome MqttError Unit → Option ConnackReturnCode
  | .err (.protocol (.connectionRefused code)) => some code
  | _ => none

section Client

open Client

variable {config : MqttClientConfig} {session next : Client.Session} {action : Client.Action}

/-- The code that a session has ended with, if it was refused. -/
def refusal : Client.Phase → Option ConnackReturnCode
  | .returned outcome => refusalOf outcome
  | _ => none

/-- What a step of a client learns of the handshake. -/
inductive Learns (config : MqttClientConfig) (session : Client.Session) :
    Client.Action → Option BindInfo → Client.Phase → Prop
  | nothing {action : Client.Action} {phase : Client.Phase}
      (same : phase = session.phase ∨ refusal phase = none) :
      Learns config session action session.bind phase
  | accepted {connack : ConnackPacket} {phase : Client.Phase}
      (accepted : connack.returnCode = .accepted) (unrefused : refusal phase = none) :
      Learns config session (.read (.packet (.connack connack)))
        (some (session.bind.getD ⟨config.clientId, config.keepAliveSecs⟩)) phase
  | refused {connack : ConnackPacket} (refused : connack.returnCode ≠ .accepted) :
      Learns config session (.read (.packet (.connack connack))) session.bind
        (.returned (err (.protocol (.connectionRefused connack.returnCode))))
  | failed {error : MqttError} :
      Learns config session (.read (.failed error)) session.bind (.returned (err error))

theorem error_of_sendPacket {channel : MqttChannel} {packet : Packet} {error : MqttError}
    (failed : (channel.sendPacket packet).1 = err error) : error = .channelClosed := by
  unfold MqttChannel.sendPacket at failed
  split at failed <;> cases failed
  rfl

theorem error_of_ack {channel : MqttChannel} {publish : PublishPacket} {error : MqttError}
    (failed : (HotaruMqtt.ackInboundPublishPreChain channel publish).1 = err error) :
    error = .channelClosed := by
  unfold HotaruMqtt.ackInboundPublishPreChain at failed
  split at failed
  · cases failed
  · exact error_of_sendPacket failed
  · exact error_of_sendPacket failed
  · cases failed

theorem error_of_andThen {connection : Connection} {called : Outcome MqttError Unit × MqttChannel}
    {then_ : Connection → Outcome MqttError Bool × Connection} {error : MqttError}
    (failed : (connection.andThen called then_).1 = err error)
    (continues : ∀ connection error, (then_ connection).1 ≠ err error) :
    called.1 = err error := by
  unfold Connection.andThen at failed
  split at failed
  · exact absurd failed (continues _ _)
  · cases failed
    rfl
  · cases failed

/-- Dispatch fails only when an answer cannot be sent. -/
theorem error_of_dispatchClientInbound {connection : Connection} {packet : Packet}
    {error : MqttError} (failed : (dispatchClientInbound connection packet).1 = err error) :
    error = .channelClosed := by
  cases packet with
  | publish publish =>
      refine error_of_ack (error_of_andThen failed fun connection error => ?_)
      split <;> simp
  | pubrec id => exact error_of_sendPacket (error_of_andThen failed (by simp))
  | pubrel id =>
      rw [dispatchClientInbound] at failed
      exact error_of_sendPacket (error_of_andThen failed (by simp))
  | _ => cases failed

theorem learns_of_step (stepped : session.step config action = some next) :
    Learns config session action next.bind next.phase := by
  cases Client.Session.steps_of_step stepped with
  | ended ends =>
      cases ends with
      | refused _ refused => exact .refused refused
      | failed => exact .failed
      | unavailable | unsent | late | unexpected => exact .nothing (.inr rfl)
  | greeted _ accepted | subscribed _ accepted | unsubscribed _ accepted =>
      exact .accepted accepted rfl
  | broken _ dispatched =>
      obtain rfl := error_of_dispatchClientInbound (congrArg Prod.fst dispatched)
      exact .nothing (.inr rfl)
  | @enqueued _ request =>
      cases request <;> exact .nothing (.inl rfl)
  | parted | connected | polled | dispatched | disconnected | panicked | pinged =>
      exact .nothing (.inr rfl)
  | closed | exited | listed | parked | awaited | cancelled => exact .nothing (.inl rfl)

end Client

/-! ## Both -/

namespace System

variable {config : Config} {system next : System} {event : Event} {connection : ConnectionId}

/-- The authenticator's verdict on a connection is made by one of its two constructors, a
read of the client does not fail as a refusal does, and nobody else uses the server's
channel. -/
def Sincere (connection : ConnectionId) (_ : System) : Event → Prop
  | .server (.environment used _) => used ≠ connection
  | .server (.act acting (.connect _ auth)) => acting = connection → auth.Built
  | .client acting (.read (.failed error)) =>
      acting = connection → refusalOf (err error) = none
  | _ => True

instance (auth : Server.AuthResult) : Decidable auth.Built :=
  decidable_of_iff (auth = .accept ∨ auth.accepted = false ∧ auth.returnCode ≠ .accepted)
    (or_congr_right ⟨fun ⟨rejected, isError⟩ => ⟨auth.returnCode, isError,
      congrArg (Server.AuthResult.mk · auth.returnCode) rejected⟩,
      fun ⟨_, isError, same⟩ => same ▸ ⟨rfl, isError⟩⟩)

instance (connection : ConnectionId) (system : System) :
    (event : Event) → Decidable (Sincere connection system event)
  | .server (.environment used _) => inferInstanceAs (Decidable (used ≠ connection))
  | .server (.act acting (.connect _ auth)) =>
      inferInstanceAs (Decidable (acting = connection → auth.Built))
  | .client acting (.read (.failed error)) =>
      inferInstanceAs (Decidable (acting = connection → refusalOf (err error) = none))
  | .server (.advance _ _) | .server (.act _ (.unavailable _)) | .server (.act _ (.read _))
  | .server (.act _ .shutdown) | .server (.act _ .proceed) | .server (.act _ .work)
  | .server (.act _ .crash) | .client _ (.unavailable _) | .client _ .proceed
  | .client _ (.read (.packet _)) | .client _ (.read .elapsed) | .client _ .tick
  | .client _ .shutdown | .client _ .close | .client _ .writerExit | .client _ (.request _)
  | .client _ (.enqueue _) | .client _ (.awaitPubcomp _) | .client _ (.cancel _) =>
      isTrue trivial

/-- The CONNECT that the server reads first on a connection. -/
def Readable (system : System) (connection : ConnectionId) (connect : ConnectPacket) : Prop :=
  (system.clients connection).channel.sent[0]? = some (.connect connect)

/-- What both ends of a connection know of the handshake. -/
structure Greets (config : Config) (connection : ConnectionId) (system : System) : Prop where
  responds : Responds system.host connection
  stands : Stands system.host connection (system.Readable connection)
    (system.host.conns connection).main
  unread : (system.host.conns connection).main = .waiting → system.serverRead connection = 0
  connects : ∀ connect, .connect connect ∈ (system.clients connection).channel.sent →
    connect = Client.buildConnect (config.clients connection)
  bound : ∀ info, (system.clients connection).bind = some info →
    info = ⟨(config.clients connection).clientId, (config.clients connection).keepAliveSecs⟩ ∧
      ∃ present, .connack ⟨present, .accepted⟩ ∈ (system.channel connection).sent
  refused : ∀ code, refusal (system.clients connection).phase = some code →
    code ≠ .accepted ∧ ∃ present, .connack ⟨present, code⟩ ∈ (system.channel connection).sent

section Server

open Server

variable {host : Host} {hostEvent : Server.Event}

/-- The host takes a step. -/
theorem Greets.server (greets : Greets config connection system)
    (moved : system.host.step config.server hostEvent = some host)
    (sincere : Sincere connection system (.server hostEvent)) {serverRead : ConnectionId → Nat}
    (unread : (host.conns connection).main = .waiting → serverRead connection = 0)
    (known : ∀ connect auth, hostEvent = .reads connection connect auth →
      system.Readable connection connect) :
    Greets config connection { system with host, serverRead } := by
  have undisturbed : ∀ channel, hostEvent ≠ .environment connection channel := by
    rintro channel rfl
    exact sincere rfl
  have first : ∀ read auth, hostEvent = .act connection (.connect read auth) →
      auth.Built ∧ ∀ connect, read = .packet (.connect connect) →
        system.Readable connection connect := by
    rintro read auth rfl
    refine ⟨sincere rfl, ?_⟩
    rintro connect rfl
    exact known connect auth rfl
  have sends := sends_of_step moved undisturbed
  exact {
    responds := responds_of_step moved greets.responds
    stands := stands_of_step greets.stands moved undisturbed greets.responds first
    unread := unread
    connects := greets.connects
    bound := fun info bound => (greets.bound info bound).imp_right
      fun ⟨present, sent⟩ => ⟨present, sends.subset sent⟩
    refused := fun code refused => (greets.refused code refused).imp_right
      fun ⟨present, sent⟩ => ⟨present, sends.subset sent⟩ }

end Server

/-- The client takes a step. -/
theorem Greets.client (greets : Greets config connection system) {action : Client.Action}
    {session : Client.Session}
    (moved : (system.clients connection).step (config.clients connection) action = some session)
    (sincere : Sincere connection system (.client connection action))
    (arrived : ∀ packet, action = .read (.packet packet) →
      packet ∈ (system.channel connection).sent) {clientRead : ConnectionId → Nat} :
    Greets config connection
      { system with
        clients := Function.update system.clients connection session
        clientRead } := by
  have sends := sends_of_clientStep moved
  have learns := learns_of_step moved
  refine ⟨greets.responds, greets.stands.mono fun connect read => ?_, greets.unread, ?_, ?_, ?_⟩
  · simp only [Readable, Function.update_self]
    exact sends.getElem? read
  · intro connect sent
    simp only [Function.update_self] at sent
    exact (sends.mem sent).elim (greets.connects connect) id
  · intro info bound
    simp only [Function.update_self] at bound
    generalize session.bind = bind at learns bound
    generalize session.phase = phase at learns
    cases learns with
    | nothing | refused | failed => exact greets.bound info bound
    | @accepted connack _ accepted _ =>
        cases bound
        refine ⟨?_, connack.sessionPresent, ?_⟩
        · cases before : (system.clients connection).bind with
          | none => rfl
          | some info => exact (greets.bound info before).1
        · rw [← accepted]
          exact arrived _ rfl
  · intro code refused
    simp only [Function.update_self] at refused
    generalize session.phase = phase at learns refused
    generalize session.bind = bind at learns
    cases learns with
    | nothing same =>
        rcases same with rfl | unrefused
        · exact greets.refused code refused
        · cases unrefused.symm.trans refused
    | accepted _ unrefused => cases unrefused.symm.trans refused
    | @refused connack isRefused =>
        cases refused
        exact ⟨isRefused, connack.sessionPresent, arrived _ rfl⟩
    | failed => cases (sincere rfl).symm.trans refused

/-- Another client takes a step. -/
theorem Greets.other (greets : Greets config connection system) {acting : ConnectionId}
    (differs : connection ≠ acting) (session : Client.Session)
    (clientRead : ConnectionId → Nat) :
    Greets config connection
      { system with
        clients := Function.update system.clients acting session
        clientRead } := by
  have same : Function.update system.clients acting session connection =
      system.clients connection := Function.update_of_ne differs _ _
  refine ⟨greets.responds, greets.stands.mono fun connect read => ?_, greets.unread, ?_, ?_, ?_⟩
    <;> simp only [Readable, same]
  exacts [read, greets.connects, greets.bound, greets.refused]

end System

end HotaruMqtt.Network
