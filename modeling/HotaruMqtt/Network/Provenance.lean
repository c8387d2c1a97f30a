import HotaruMqtt.Broker.Carried
import HotaruMqtt.Network.Delivery
import HotaruMqtt.Network.Sends
import HotaruMqtt.Server.Order

/-!
# Where messages come from

A message passes through many hands: the publisher's writer, the reader of its connection,
perhaps the stash of its session, the work queue, the chain, a call of the broker, the
channel of a subscriber, perhaps the stash of the subscriber.  None of them makes one up.
Whatever the handlers of a client are given is a copy of what the chain made of a PUBLISH
that some client sent, or of the Will in a CONNECT that some client sent; and this holds
whichever sessions are taken over, closed or crash in the meantime.
-/

namespace HotaruMqtt.Server

open Exec Exec.Outcome Exec.Transition Inbound Broker

/-- What the packets that have arrived offer for publication.  A PUBLISH that was kept for
its PUBREL comes to the chain without its DUP flag. -/
inductive Offered (config : Config) (arrived : ConnectionId → Packet → Prop) :
    PublishPacket → Prop
  | message {publisher : ConnectionId} {publish handed packet : PublishPacket}
      (read : arrived publisher (.publish publish))
      (same : Message.ofPublish handed = .ofPublish publish)
      (chained : config.chain handed = some packet) : Offered config arrived packet
  | will {publisher : ConnectionId} {connect : ConnectPacket} {will : WillPacket}
      (read : arrived publisher (.connect connect)) (given : connect.will = some will) :
      Offered config arrived (willPacket (willOf will))

/-- The message is that of a PUBLISH which has arrived. -/
def HasArrived (arrived : Packet → Prop) (message : Message) : Prop :=
  ∃ publish, arrived (.publish publish) ∧ message = .ofPublish publish

end HotaruMqtt.Server

namespace HotaruMqtt.Broker.Pool

open Exec Exec.Transition

variable {message : PublishPacket → Prop} {pool next : Pool} {task : Task}

theorem Carries.invoke {request : Request} (carries : pool.Carries message)
    (invoked : pool.invoke task request = some next) (asked : request.Carries message) :
    next.Carries message := by
  obtain ⟨call, idle, opened, rfl⟩ := Server.invoke_eq_some invoked
  refine carries.step (.invoke idle opened) ?_
  rintro _ _ ⟨⟩
  exact asked

theorem Carries.resume {response : Response} (carries : pool.Carries message)
    (resumed : Server.resume pool task = some (response, next)) : next.Carries message := by
  obtain ⟨request, running, rfl⟩ := Server.resume_eq_some resumed
  exact carries.step (.conclude running) (by simp)

end HotaruMqtt.Broker.Pool

namespace HotaruMqtt.Network

open Exec Exec.Outcome Exec.Transition Inbound Broker

/-! ## The server -/

section Server

open Server

variable {config : Server.Config} {arrived : ConnectionId → Packet → Prop} {host next : Host}
  {event : Server.Event} {connection : ConnectionId} {conn after : Conn} {pool : Pool}
  {action : Server.Action}

/-- All that the host has under way, and all that it has published, has arrived. -/
structure HostTraced (config : Server.Config) (arrived : ConnectionId → Packet → Prop)
    (host : Host) : Prop where
  responds : ∀ connection, Responds host connection
  stash : ∀ connection id stored,
    (host.pool.broker.channels connection).session.qos2Recv.lookup id = some stored →
      HasArrived (arrived connection) (.ofIncoming stored)
  queued : ∀ connection, ∀ publish ∈ (host.conns connection).queue.pending ++
    (host.conns connection).worker.inHand, HasArrived (arrived connection) (.ofPublish publish)
  carries : host.pool.Carries (Offered config arrived)
  sent : ∀ connection copy, .publish copy ∈ (host.pool.broker.channels connection).sent →
    ∃ packet subQos, Offered config arrived packet ∧ Copy packet subQos copy

theorem hostTraced_new : HostTraced config arrived (.new fun _ => .new) where
  responds _ := by simp [Responds, Host.new, Conn.new]
  stash _ _ _ found := by cases found
  queued _ _ listed := by cases listed
  carries := .new _
  sent _ _ sent := by cases sent

/-- What the reader hands on has arrived, now or before. -/
theorem hasArrived_of_acts {later : Pool}
    (acts : Acts config pool connection conn action after later)
    (reads : ∀ packet, takes (.act connection action) = some (connection, packet) →
      arrived connection packet)
    (stash : ∀ id stored, (pool.broker.channels connection).session.qos2Recv.lookup id =
      some stored → HasArrived (arrived connection) (.ofIncoming stored))
    (queued : ∀ publish ∈ conn.queue.pending ++ conn.worker.inHand,
      HasArrived (arrived connection) (.ofPublish publish)) :
    ∀ publish ∈ after.queue.pending ++ after.worker.inHand,
      HasArrived (arrived connection) (.ofPublish publish) := by
  intro publish listed
  cases acts with
  | @dispatched _ packet _ _ _ at_ dispatched =>
      rcases List.mem_append.mp listed with listed | inHand
      · have pending : publish ∈
            (dispatchLocal ⟨pool.broker.channels connection, conn.queue⟩ packet).2.queue.pending :=
          dispatched ▸ listed
        rcases pending_dispatchLocal pending with before | rfl | ⟨id, stored, stashed, rfl⟩
        · exact queued publish (List.mem_append_left _ before)
        · exact ⟨publish, reads _ rfl, rfl⟩
        · exact stash id stored stashed
      · exact queued publish (List.mem_append_right _ inHand)
  | took at_ idle pending =>
      refine queued publish (List.mem_append_left _ (pending ▸ ?_))
      rcases List.mem_append.mp listed with later | inHand
      · exact List.mem_cons_of_mem _ later
      · exact List.mem_singleton.mp inHand ▸ List.mem_cons_self
  | accepted | drained | fanned | suppressed | published =>
      have pending : publish ∈ conn.queue.pending := by simpa [Worker.inHand] using listed
      exact queued publish (List.mem_append_left _ pending)
  | crashed => contradiction
  | _ => exact queued publish listed

/-- What a connection asks the broker for is offered. -/
theorem carries_of_acts {later : Pool} (acts : Acts config pool connection conn action after later)
    (reads : ∀ packet, takes (.act connection action) = some (connection, packet) →
      arrived connection packet)
    (queued : ∀ publish ∈ conn.worker.inHand,
      HasArrived (arrived connection) (.ofPublish publish))
    (carries : pool.Carries (Offered config arrived)) :
    later.Carries (Offered config arrived) := by
  cases acts with
  | admitted at_ admitted invoked =>
      obtain ⟨connect, rfl, rfl, _⟩ := eq_of_admitted admitted
      refine carries.invoke invoked fun last found => ?_
      obtain ⟨will, present, rfl⟩ := Option.map_eq_some_iff.mp found
      exact .will (reads _ rfl) present
  | fanned at_ chaining chained invoked =>
      rename_i publish packet
      obtain ⟨read, hasArrived, same⟩ := queued publish (by simp [chaining, Worker.inHand])
      exact carries.invoke invoked (.message hasArrived same chained)
  | unanswered _ invoked | subscribe _ invoked | unsubscribe _ invoked | joined _ _ invoked =>
      exact carries.invoke invoked trivial
  | registered _ resumed | withdrawn _ resumed | subscribed _ resumed | unsubscribed _ resumed
  | unregistered _ resumed | published _ _ resumed => exact carries.resume resumed
  | refused | accepted | dispatched | responded | closed => exact ⟨carries.calls, carries.entries⟩
  | failed | polled | left | dropped | took | drained | suppressed | crashed => exact carries

theorem copy_copyOn (channel : MqttChannel) (copy : PendingCopy) :
    Copy copy.packet copy.subQos (copyOn channel copy) := by
  obtain ⟨packetId, session, numbered, _, numberedSome⟩ :=
    numberCopy_spec channel copy.packet (min copy.packet.qos copy.subQos)
  have carried : (copyOn channel copy).packetId = packetId :=
    congrArg Prod.fst numbered
  exact ⟨rfl, rfl, rfl, rfl, rfl, carried ▸ numberedSome⟩

theorem carries_of_copyOf {message : PublishPacket → Prop} {task : Task} {copy : PendingCopy}
    (carries : pool.Carries message) (copies : copyOf pool task = some copy) :
    message copy.packet := by
  unfold copyOf at copies
  split at copies
  · rename_i running
    cases copies
    exact (carries.calls running).1
  · contradiction

/-- Of PUBLISH packets, only copies go out. -/
theorem copy_of_outgoing {publish : PublishPacket} (responds : Responds host connection)
    (outgoing : Outgoing config host connection event (.publish publish)) :
    ∃ task choice copy, event = .advance task choice ∧ copyOf host.pool task = some copy ∧
      Copy copy.packet copy.subQos publish := by
  generalize same : Packet.publish publish = packet at outgoing
  cases outgoing with
  | @reaction packet reply reacts =>
      subst same
      rcases reacts with reply | reply
      · cases packet with
        | publish received =>
            simp only [flowReplies] at reply
            split at reply <;> simp at reply
        | pubrec id | pubrel id => simp [flowReplies] at reply
        | _ => contradiction
      · contradiction
  | refusal | acceptance => contradiction
  | response at_ =>
      rcases responds _ _ at_ with ⟨suback, rfl⟩ | ⟨id, rfl⟩ <;> contradiction
  | copy copies target =>
      cases same
      exact ⟨_, _, _, rfl, copies, copy_copyOn _ _⟩

/-- Whatever the host does with what has arrived, all of it can be traced. -/
theorem HostTraced.step (traced : HostTraced config arrived host)
    (stepped : host.step config event = some next)
    (undisturbed : ∀ connection channel, event ≠ .environment connection channel)
    (reads : ∀ connection packet, takes event = some (connection, packet) →
      arrived connection packet) : HostTraced config arrived next where
  responds connection := System.responds_of_step stepped (traced.responds connection)
  stash connection id stored found := by
    rcases (sends_of_step stepped (undisturbed connection)).stash id stored found with
      before | ⟨publish, rfl, rfl⟩
    · exact traced.stash connection id stored before
    · exact ⟨publish, reads _ _ rfl, rfl⟩
  queued connection := by
    rcases (Host.steps_of_step stepped).conns connection with same | ⟨action, rfl, acts⟩
    · rw [same]
      exact traced.queued connection
    · exact hasArrived_of_acts acts (reads connection) (traced.stash connection)
        (traced.queued connection)
  carries := by
    cases event with
    | act acting action =>
        obtain ⟨⟨result, pool⟩, acted, rfl⟩ := Option.map_eq_some_iff.mp stepped
        exact carries_of_acts (acts_of_act acted) (reads acting)
          (fun publish inHand => traced.queued acting publish (List.mem_append_right _ inHand))
          traced.carries
    | advance task choice =>
        obtain ⟨pool, advanced, rfl⟩ := Option.map_eq_some_iff.mp stepped
        have moves : host.pool.step (.advance task choice) = some pool := advanced
        exact traced.carries.step (Pool.steps_of_step moves) (by simp)
    | environment connection channel => exact absurd rfl (undisturbed connection channel)
  sent connection copy sent := by
    rcases (sends_of_step stepped (undisturbed connection)).mem sent with before | outgoing
    · exact traced.sent connection copy before
    · obtain ⟨task, choice, pending, _, copies, isCopy⟩ :=
        copy_of_outgoing (traced.responds connection) outgoing
      exact ⟨_, _, carries_of_copyOf traced.carries copies, isCopy⟩

end Server

/-! ## The client -/

section Client

open Client

variable {config : MqttClientConfig} {session next : Client.Session} {action : Client.Action}
  {incoming : IncomingPublish}

theorem handed_andThen {connection : Connection} {called : Outcome MqttError Unit × MqttChannel}
    {then_ : Connection → Outcome MqttError Bool × Connection}
    (handed : incoming ∈ (connection.andThen called then_).2.handed) :
    incoming ∈ connection.handed ∨
      ∃ channel, incoming ∈ (then_ { connection with channel }).2.handed := by
  unfold Connection.andThen at handed
  split at handed
  · exact .inr ⟨_, handed⟩
  · exact .inl handed
  · exact .inl handed

/-- A client hands on what it reads or what it has kept. -/
theorem handed_dispatchClientInbound {connection : Connection} {packet : Packet}
    (handed : incoming ∈ (dispatchClientInbound connection packet).2.handed) :
    incoming ∈ connection.handed ∨
      (∃ id, connection.channel.session.qos2Recv.lookup id = some incoming) ∨
      Keeps packet incoming := by
  cases packet with
  | publish publish =>
      rcases handed_andThen handed with before | ⟨channel, handed⟩
      · exact .inl before
      · split at handed
        · exact .inl handed
        · rcases List.mem_append.mp handed with before | last
          · exact .inl before
          · exact .inr (.inr ⟨publish, rfl, List.mem_singleton.mp last⟩)
  | pubrec id =>
      rcases handed_andThen handed with before | ⟨channel, before⟩ <;> exact .inl before
  | pubrel id =>
      have released : incoming ∈ connection.handed ++
          (connection.channel.session.qos2Recv.lookup id).toList := by
        rw [dispatchClientInbound] at handed
        simp only [MqttSession.takeQos2Publish] at handed
        cases stored : connection.channel.session.qos2Recv.lookup id with
        | none =>
            rw [stored] at handed
            rcases handed_andThen handed with before | ⟨channel, before⟩ <;>
              exact List.mem_append_left _ before
        | some publish =>
            rw [stored] at handed
            rcases handed_andThen handed with before | ⟨channel, before⟩ <;> exact before
      rcases List.mem_append.mp released with before | taken
      · exact .inl before
      · exact .inr (.inl ⟨id, Option.mem_toList.mp taken⟩)
  | puback id | pubcomp id | suback suback | unsuback id => exact .inl handed
  | connect _ | connack _ | subscribe _ | unsubscribe _ | pingreq | pingresp | disconnect =>
      exact .inl handed

theorem handed_of_clientStep (stepped : session.step config action = some next)
    (handed : incoming ∈ next.connection.handed) :
    incoming ∈ session.connection.handed ∨
      (∃ id, session.channel.session.qos2Recv.lookup id = some incoming) ∨
      KeptFor action incoming := by
  cases Client.Session.steps_of_step stepped with
  | dispatched _ dispatched | disconnected _ dispatched | broken _ dispatched
  | panicked _ dispatched =>
      have after := congrArg (·.2.handed) dispatched
      rcases handed_dispatchClientInbound (after.symm ▸ handed) with
        before | stashed | ⟨publish, rfl, same⟩
      · exact .inl before
      · exact .inr (.inl stashed)
      · exact .inr (.inr ⟨publish, rfl, same⟩)
  | @enqueued _ request =>
      cases request <;> exact .inl handed
  | ended | parted | connected | polled | greeted | subscribed | unsubscribed | pinged | closed
  | exited | listed | parked | awaited | cancelled => exact .inl handed

end Client

/-! ## All of them -/

namespace System

variable {config : Config} {system next : System} {event : Event} {events : List Event}
  {connection : ConnectionId}

/-- Nobody but the host uses its channels. -/
def Undisturbed (_ : System) : Event → Prop
  | .server (.environment _ _) => False
  | _ => True

instance (system : System) (event : Event) : Decidable (Undisturbed system event) :=
  match event with
  | .server (.environment _ _) => isFalse id
  | .server (.act _ _) | .server (.advance _ _) | .client _ _ => isTrue trivial

theorem Undisturbed.ne {event : Server.Event} (undisturbed : Undisturbed system (.server event))
    (connection : ConnectionId) (channel : MqttChannel) :
    event ≠ .environment connection channel := by
  rintro rfl
  exact undisturbed

/-- What is sent stays sent. -/
structure Grown (system later : System) : Prop where
  clients : ∀ connection,
    (system.clients connection).channel.sent <+: (later.clients connection).channel.sent
  channels : ∀ connection, (system.channel connection).sent <+: (later.channel connection).sent

theorem Grown.refl : Grown system system :=
  ⟨fun _ => List.prefix_refl _, fun _ => List.prefix_refl _⟩

theorem Grown.trans {later : System} (first : Grown system next) (second : Grown next later) :
    Grown system later :=
  ⟨fun connection => (first.clients connection).trans (second.clients connection),
    fun connection => (first.channels connection).trans (second.channels connection)⟩

/-- Whoever else uses a channel of the host only adds to what is sent on it. -/
def Extends (system : System) (event : Event) : Prop :=
  ∀ connection channel, event = .server (.environment connection channel) →
    (system.channel connection).sent <+: channel.sent

theorem Undisturbed.extends (undisturbed : Undisturbed system event) : Extends system event := by
  rintro connection channel rfl
  exact undisturbed.elim

theorem sent_grows_of_step {event : Server.Event} {host : Server.Host}
    (stepped : system.host.step config.server event = some host)
    (extends_ : Extends system (.server event)) (connection : ConnectionId) :
    (system.channel connection).sent <+: (host.pool.broker.channels connection).sent := by
  by_cases used : ∃ channel, event = .environment connection channel
  · obtain ⟨channel, rfl⟩ := used
    cases stepped
    simpa [Pool.environment, Broker.withChannel] using extends_ connection channel rfl
  · exact (sends_of_step stepped (not_exists.mp used)).sent_grows

theorem grown_of_step (stepped : system.step config event = some next)
    (extends_ : Extends system event) : Grown system next := by
  have acts : ∀ {acting : ConnectionId} {action : Client.Action} {session : Client.Session},
      (system.clients acting).step (config.clients acting) action = some session →
      ∀ connection, (system.clients connection).channel.sent <+:
        (Function.update system.clients acting session connection).channel.sent := by
    intro acting action session moved connection
    rcases eq_or_ne connection acting with rfl | differs
    · rw [Function.update_self]
      exact (sends_of_clientStep moved).sent_grows
    · rw [Function.update_of_ne differs]
  cases steps_of_step stepped with
  | serverRuns moved | serverReads moved =>
      exact ⟨fun _ => List.prefix_refl _, sent_grows_of_step moved extends_⟩
  | clientRuns moved | clientReads moved => exact ⟨acts moved, fun _ => List.prefix_refl _⟩

theorem grown_of_run {later : System} (run : Run (step config) Undisturbed system events later) :
    Grown system later := by
  have preserves : Preserves (step config) Undisturbed (Grown system) :=
    fun _ _ _ grown met moved => grown.trans (grown_of_step moved met.extends)
  exact run.invariant preserves .refl

/-- A client has sent the packet, or the server has sent it to a client. -/
def sentUp (system : System) (connection : ConnectionId) (packet : Packet) : Prop :=
  packet ∈ (system.clients connection).channel.sent

/-- The server has sent the packet on a connection. -/
def sentDown (system : System) (connection : ConnectionId) (packet : Packet) : Prop :=
  packet ∈ (system.channel connection).sent

/-- Whatever is read is among the packets that are sent in the end. -/
def ReadsFrom (final : System) (system : System) : Event → Prop
  | .server event => Undisturbed system (.server event) ∧
      ∀ connection packet, takes event = some (connection, packet) →
        final.sentUp connection packet
  | .client connection action => ∀ packet, fetches action = some packet →
      final.sentDown connection packet

theorem readsFrom_of_run {final : System}
    (run : Run (step config) Undisturbed system events final) :
    Run (step config) (ReadsFrom final) system events final := by
  refine run.mono_toward fun state event next rest met moved later => ?_
  have grown := (grown_of_step moved met.extends).trans (grown_of_run later)
  cases steps_of_step moved with
  | serverRuns _ other =>
      refine ⟨met, fun connection packet taken => ?_⟩
      rw [other] at taken
      contradiction
  | serverReads _ taken arrived =>
      refine ⟨met, fun connection packet found => ?_⟩
      cases taken.symm.trans found
      exact (grown.clients _).subset (List.mem_of_getElem? arrived)
  | clientRuns _ other =>
      intro packet fetched
      rw [other] at fetched
      contradiction
  | clientReads _ arrived =>
      intro packet fetched
      cases fetched
      exact (grown.channels _).subset (List.mem_of_getElem? arrived)

/-- The publish is one that has been sent to the client. -/
def Received (final : System) (connection : ConnectionId) (incoming : IncomingPublish) : Prop :=
  ∃ publish, final.sentDown connection (.publish publish) ∧ incoming = incomingFromPacket publish

/-- What the host and the clients hold can be traced. -/
structure Traced (config : Config) (final system : System) : Prop where
  host : HostTraced config.server final.sentUp system.host
  stash : ∀ connection id stored,
    (system.clients connection).channel.session.qos2Recv.lookup id = some stored →
      final.Received connection stored
  handed : ∀ connection, ∀ incoming ∈ (system.clients connection).connection.handed,
    final.Received connection incoming

theorem traced_new {final : System} : Traced config final new where
  host := hostTraced_new
  stash _ _ _ found := by cases found
  handed _ _ handed := by cases handed

theorem Traced.act {final : System} (traced : Traced config final system)
    {action : Client.Action} {session : Client.Session}
    (moved : (system.clients connection).step (config.clients connection) action = some session)
    (reads : ∀ packet, fetches action = some packet → final.sentDown connection packet) :
    (∀ id stored, session.channel.session.qos2Recv.lookup id = some stored →
        final.Received connection stored) ∧
      ∀ incoming ∈ session.connection.handed, final.Received connection incoming := by
  have kept : ∀ {stored}, KeptFor action stored → final.Received connection stored := by
    rintro stored ⟨publish, rfl, same⟩
    exact ⟨publish, reads _ rfl, same⟩
  constructor
  · intro id stored found
    rcases (sends_of_clientStep moved).stash id stored found with before | now
    · exact traced.stash connection id stored before
    · exact kept now
  · intro incoming handed
    rcases handed_of_clientStep moved handed with before | ⟨id, stashed⟩ | now
    · exact traced.handed connection incoming before
    · exact traced.stash connection id incoming stashed
    · exact kept now

theorem Traced.update {final : System} (traced : Traced config final system)
    {session : Client.Session}
    (acted : (∀ id stored, session.channel.session.qos2Recv.lookup id = some stored →
        final.Received connection stored) ∧
      ∀ incoming ∈ session.connection.handed, final.Received connection incoming)
    {later : System} (host : later.host = system.host)
    (clients : later.clients = Function.update system.clients connection session) :
    Traced config final later where
  host := host ▸ traced.host
  stash other id stored found := by
    rw [clients] at found
    rcases eq_or_ne other connection with rfl | differs
    · rw [Function.update_self] at found
      exact acted.1 id stored found
    · rw [Function.update_of_ne differs] at found
      exact traced.stash other id stored found
  handed other incoming handed := by
    rw [clients] at handed
    rcases eq_or_ne other connection with rfl | differs
    · rw [Function.update_self] at handed
      exact acted.2 incoming handed
    · rw [Function.update_of_ne differs] at handed
      exact traced.handed other incoming handed

theorem preserves_traced (config : Config) (final : System) :
    Preserves (step config) (ReadsFrom final) (Traced config final) := by
  intro system event next traced reads stepped
  cases steps_of_step stepped with
  | serverRuns moved | serverReads moved =>
      exact ⟨traced.host.step moved reads.1.ne reads.2, traced.stash, traced.handed⟩
  | clientRuns moved | clientReads moved =>
      exact traced.update (traced.act moved reads) rfl rfl

/-- Whatever a client hands to its handlers is a copy of what the chain made of a PUBLISH
that some client sent, or of the Will in a CONNECT that some client sent. -/
theorem no_message_invented (run : Run (step config) Undisturbed new events system)
    {incoming : IncomingPublish}
    (handed : incoming ∈ (system.clients connection).connection.handed) :
    ∃ packet subQos copy, Server.Offered config.server system.sentUp packet ∧
      Copy packet subQos copy ∧ incoming = incomingFromPacket copy := by
  have traced := (readsFrom_of_run run).invariant (preserves_traced config system) traced_new
  obtain ⟨copy, sent, same⟩ := traced.handed connection incoming handed
  obtain ⟨packet, subQos, offered, isCopy⟩ := traced.host.sent connection copy sent
  exact ⟨packet, subQos, copy, offered, isCopy, same⟩

/-- The message of the relay has a source. -/
theorem no_message_invented_relay :
    incomingFromPacket relayed ∈ (afterRelay.clients 1).connection.handed ∧
      ∃ packet subQos copy, Server.Offered relayConfig.server afterRelay.sentUp packet ∧
        Copy packet subQos copy ∧ incomingFromPacket relayed = incomingFromPacket copy := by
  have run : Run (step relayConfig) Undisturbed new relay afterRelay :=
    Follows.run (by decide +kernel)
  have handed : incomingFromPacket relayed ∈ (afterRelay.clients 1).connection.handed := by
    decide +kernel
  exact ⟨handed, no_message_invented run handed⟩

end System

end HotaruMqtt.Network
