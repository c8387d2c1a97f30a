import HotaruMqtt.Client.Framing
import HotaruMqtt.Codec.PacketWriter
import HotaruMqtt.Exec.Pipe
import HotaruMqtt.Network.Provenance

/-!
# The bytes below

The system again, with what lies between a writer actor and the reader at the other end:
packets are encoded, their bytes go out and arrive in pieces of any size, and `read_packet`
is polled with what has arrived.  A writer actor can stop in the middle of a packet, and a
ping of the client drops the read that is under way.

Such a system shows as the one in which packets are passed on whole: whatever an end reads
is the next packet that the other end has sent, and no read ends with an error other than
one of the transport.  This needs that the packets come back from their own encodings
within the limit of the reader, and that no ping comes while a packet is half read.
-/

namespace HotaruMqtt.Network

open Exec Exec.Outcome Exec.Transition Inbound Broker Codec

/-! ## Cables -/

/-- One direction of a connection. -/
abbrev Cable := Pipe UInt8 MqttError Packet

/-- A read ends with a packet. -/
def readsPacket (limit : Nat) (cable : Cable) (packet : Packet) : Option Cable :=
  match cable.yield (readPacket limit) with
  | some (found, next) => if found = packet then some next else none
  | none => none

/-- A read fails.  The transport can break at any moment; any other error is the one that
the reader returns. -/
def readFails (cable : Cable) : MqttError → Option Cable
  | .io _ => some cable
  | error => if cable.failure = some error then some cable else none

/-- What an action of the server does to the cable it reads from. -/
def serverHears (limit : Nat) (cable : Cable) : Server.Action → Option Cable
  | .connect (.packet packet) _ => readsPacket limit cable packet
  | .read (.packet packet) => readsPacket limit cable packet
  | .connect (.failed error) _ => readFails cable error
  | .read (.failed error) => readFails cable error
  | _ => some cable

/-- So for the client, whose ping timer can win over a read. -/
def clientHears (limit : Nat) (cable : Cable) : Client.Action → Option Cable
  | .read (.packet packet) => readsPacket limit cable packet
  | .read (.failed error) => readFails cable error
  | .tick => some (cable.abandon (readPacket limit))
  | _ => some cable

/-- What happens on a cable between its two ends. -/
inductive Transport
  /-- The writer actor takes the next packet. -/
  | take
  | write (count : Nat)
  /-- The writer actor leaves its loop. -/
  | stop
  | arrive (count : Nat)
  /-- The reader is polled and goes on waiting. -/
  | poll
  deriving DecidableEq, Repr

/-- What happens on a cable between a channel and a reader. -/
def transports (channel : MqttChannel) (reads : Bool) (cable : Cable) : Transport → Option Cable
  | .take => if channel.writerAlive then cable.take chunks channel.sent else none
  | .write count => if channel.writerAlive then cable.write count else none
  | .stop => some cable.stop
  | .arrive count => some (cable.arrive count)
  | .poll => if reads then cable.poll else none

/-! ## The system -/

/-- The configuration of the ends, with the `max_packet_size` of each reader. -/
structure WireConfig extends Config where
  serverLimit : Nat
  clientLimit : ConnectionId → Nat

/-- All clients and the server, with the bytes between them. -/
structure WireSystem where
  host : Server.Host
  clients : ConnectionId → Client.Session
  /-- From the clients to the server, and back. -/
  up : ConnectionId → Cable
  down : ConnectionId → Cable

/-- What happens over bytes: something at an end, or something on a cable. -/
inductive WireEvent
  | ends (event : Event)
  | carryUp (connection : ConnectionId) (transport : Transport)
  | carryDown (connection : ConnectionId) (transport : Transport)

/-- The handler of a connection is at a read. -/
def serverReads (host : Server.Host) (connection : ConnectionId) : Bool :=
  match (host.conns connection).main with
  | .waiting => true
  | .serving _ .selecting => true
  | _ => false

/-- The handler of a client is at a read. -/
def clientReads (session : Client.Session) : Bool :=
  match session.phase with
  | .connecting => true
  | .selecting => true
  | _ => false

namespace WireSystem

/-- Nobody has connected, and the cables are empty. -/
def new (config : WireConfig) : WireSystem where
  host := .new fun _ => .new
  clients := fun _ => .new
  up := fun _ => .new (readPacket config.serverLimit)
  down := fun connection => .new (readPacket (config.clientLimit connection))

/-- The server's channel of a connection. -/
def channel (system : WireSystem) (connection : ConnectionId) : MqttChannel :=
  system.host.pool.broker.channels connection

/-- One event.  An end that reads a packet must find its bytes on the cable. -/
def step (config : WireConfig) (system : WireSystem) : WireEvent → Option WireSystem
  | .ends (.server (.act connection action)) =>
      (system.host.step config.server (.act connection action)).bind fun host =>
        (serverHears config.serverLimit (system.up connection) action).map fun cable =>
          { system with host, up := Function.update system.up connection cable }
  | .ends (.server event) =>
      (system.host.step config.server event).map fun host => { system with host }
  | .ends (.client connection action) =>
      ((system.clients connection).step (config.clients connection) action).bind fun session =>
        (clientHears (config.clientLimit connection) (system.down connection) action).map
          fun cable =>
            { system with
              clients := Function.update system.clients connection session
              down := Function.update system.down connection cable }
  | .carryUp connection transport =>
      (transports (system.clients connection).channel (serverReads system.host connection)
        (system.up connection) transport).map fun cable =>
          { system with up := Function.update system.up connection cable }
  | .carryDown connection transport =>
      (transports (system.channel connection) (clientReads (system.clients connection))
        (system.down connection) transport).map fun cable =>
          { system with down := Function.update system.down connection cable }

/-- What is seen of the system when packets are passed on whole. -/
def packets (system : WireSystem) : System where
  host := system.host
  clients := system.clients
  serverRead connection := (system.up connection).read
  clientRead connection := (system.down connection).read

end WireSystem

/-- The steps of the ends. -/
def WireEvent.shown : WireEvent → Option Event
  | .ends event => some event
  | _ => none

/-- The error that ends a read. -/
def readError : Event → Option MqttError
  | .server (.act _ (.connect (.failed error) _)) => some error
  | .server (.act _ (.read (.failed error))) => some error
  | .client _ (.read (.failed error)) => some error
  | _ => none

/-- No read ends with an error other than one of the transport. -/
def Framed (event : Event) : Prop :=
  ∀ error, readError event = some error → ∃ kind, error = .io kind

/-- The packets that have been sent fit their readers, no ping drops a read that holds a
part of a packet, and whoever else uses a channel of the host only adds to what is sent
on it. -/
def Orderly (config : WireConfig) (system : WireSystem) : WireEvent → Prop
  | .ends (.server (.act connection _)) =>
      ∀ packet ∈ (system.clients connection).channel.sent, Fits config.serverLimit packet
  | .ends (.server (.environment connection channel)) =>
      (system.channel connection).sent <+: channel.sent
  | .ends (.client connection action) =>
      (∀ packet ∈ (system.channel connection).sent,
          Fits (config.clientLimit connection) packet) ∧
        (action = .tick → (system.down connection).reading.taken = [])
  | _ => True

instance (config : WireConfig) (system : WireSystem) :
    (event : WireEvent) → Decidable (Orderly config system event)
  | .ends (.server (.act connection _)) =>
      inferInstanceAs (Decidable (∀ packet ∈ (system.clients connection).channel.sent,
        Fits config.serverLimit packet))
  | .ends (.server (.environment connection channel)) =>
      inferInstanceAs (Decidable ((system.channel connection).sent <+: channel.sent))
  | .ends (.client connection action) =>
      inferInstanceAs (Decidable ((∀ packet ∈ (system.channel connection).sent,
          Fits (config.clientLimit connection) packet) ∧
        (action = .tick → (system.down connection).reading.taken = [])))
  | .ends (.server (.advance _ _)) => inferInstanceAs (Decidable True)
  | .carryUp _ _ => inferInstanceAs (Decidable True)
  | .carryDown _ _ => inferInstanceAs (Decidable True)

/-! ## What the cables carry -/

theorem asks_readPacket (limit : Nat) : Pipe.Asks (readPacket limit) :=
  Client.poll_readPacket_nil limit

theorem travels_of_fits {limit : Nat} {packet : Packet} (fits : Fits limit packet) :
    Pipe.Travels chunks (readPacket limit) packet :=
  fun _ written rest => poll_of_fits fits written rest

/-- The cable carries packets to a reader with this limit. -/
abbrev Bears (limit : Nat) (packets : List Packet) (cable : Cable) : Prop :=
  cable.Carries chunks (readPacket limit) packets

/-- At the end of a cable the next packet is read, or none is. -/
inductive Hears (limit : Nat) (packets : List Packet) (cable : Cable) :
    Option Packet → Cable → Prop
  | packet {packet : Packet} {next : Cable} (listed : packets[cable.read]? = some packet)
      (read : next.read = cable.read + 1) (bears : Bears limit packets next) :
      Hears limit packets cable (some packet) next
  | nothing {next : Cable} (read : next.read = cable.read) (bears : Bears limit packets next) :
      Hears limit packets cable none next

section Cable

variable {limit : Nat} {packets : List Packet} {cable next : Cable}

theorem Hears.bears {heard : Option Packet} (hears : Hears limit packets cable heard next) :
    Bears limit packets next := by
  cases hears with
  | packet _ _ bears => exact bears
  | nothing _ bears => exact bears

theorem hears_of_readsPacket {packet : Packet} (bears : Bears limit packets cable)
    (fits : ∀ packet ∈ packets, Fits limit packet)
    (read : readsPacket limit cable packet = some next) :
    Hears limit packets cable (some packet) next := by
  unfold readsPacket at read
  split at read
  · rename_i found after yielded
    split at read
    · rename_i same
      cases same
      cases read
      obtain ⟨listed, counted, later⟩ := bears.yield (asks_readPacket limit)
        (fun packet listed => travels_of_fits (fits packet listed)) yielded
      exact .packet listed counted later
    · contradiction
  · contradiction

theorem hears_of_readFails {error : MqttError} (bears : Bears limit packets cable)
    (fits : ∀ packet ∈ packets, Fits limit packet) (failed : readFails cable error = some next) :
    Hears limit packets cable none next ∧ ∃ kind, error = .io kind := by
  unfold readFails at failed
  split at failed
  · cases failed
    exact ⟨.nothing rfl bears, _, rfl⟩
  · rw [bears.failure_eq_none (asks_readPacket limit)
      fun packet listed => travels_of_fits (fits packet listed)] at failed
    simp at failed

/-- The packet that an action of the server takes from the wire. -/
def obtains : Server.Action → Option Packet
  | .connect (.packet packet) _ => some packet
  | .read (.packet packet) => some packet
  | _ => none

theorem takes_act (connection : ConnectionId) (action : Server.Action) :
    takes (.act connection action) = (obtains action).map fun packet => (connection, packet) := by
  unfold obtains
  split
  · rfl
  · rfl
  · rename_i connects reads
    unfold takes
    split
    · rename_i packet auth same
      cases same
      exact absurd rfl (connects _ _)
    · rename_i packet same
      cases same
      exact absurd rfl (reads _)
    · rfl

theorem framed_of_readError {event : Event} (none_ : readError event = none) : Framed event := by
  intro error found
  rw [none_] at found
  contradiction

theorem hears_of_serverHears {action : Server.Action} (connection : ConnectionId)
    (bears : Bears limit packets cable) (fits : ∀ packet ∈ packets, Fits limit packet)
    (heard : serverHears limit cable action = some next) :
    Hears limit packets cable (obtains action) next ∧
      Framed (.server (.act connection action)) := by
  have failing : ∀ error, readFails cable error = some next →
      readError (.server (.act connection action)) = some error →
      Hears limit packets cable none next ∧ Framed (.server (.act connection action)) := by
    intro error failed known
    obtain ⟨nothing, io⟩ := hears_of_readFails bears fits failed
    refine ⟨nothing, fun other found => ?_⟩
    cases known.symm.trans found
    exact io
  cases action with
  | connect read auth =>
      cases read with
      | packet packet =>
          exact ⟨hears_of_readsPacket bears fits heard, framed_of_readError rfl⟩
      | failed error => exact failing error heard rfl
      | elapsed =>
          cases heard
          exact ⟨.nothing rfl bears, framed_of_readError rfl⟩
  | read outcome =>
      cases outcome with
      | packet packet =>
          exact ⟨hears_of_readsPacket bears fits heard, framed_of_readError rfl⟩
      | failed error => exact failing error heard rfl
      | deadlineElapsed =>
          cases heard
          exact ⟨.nothing rfl bears, framed_of_readError rfl⟩
  | _ =>
      cases heard
      exact ⟨.nothing rfl bears, framed_of_readError rfl⟩

theorem hears_of_clientHears {action : Client.Action} (connection : ConnectionId)
    (bears : Bears limit packets cable) (fits : ∀ packet ∈ packets, Fits limit packet)
    (between : action = .tick → cable.reading.taken = [])
    (heard : clientHears limit cable action = some next) :
    Hears limit packets cable (fetches action) next ∧ Framed (.client connection action) := by
  cases action with
  | read outcome =>
      cases outcome with
      | packet packet =>
          exact ⟨hears_of_readsPacket bears fits heard, framed_of_readError rfl⟩
      | failed error =>
          obtain ⟨nothing, io⟩ := hears_of_readFails bears fits heard
          refine ⟨nothing, fun other found => ?_⟩
          cases found
          exact io
      | elapsed =>
          cases heard
          exact ⟨.nothing rfl bears, framed_of_readError rfl⟩
  | tick =>
      cases heard
      exact ⟨.nothing rfl (bears.abandon (asks_readPacket limit) (between rfl)),
        framed_of_readError rfl⟩
  | _ =>
      cases heard
      exact ⟨.nothing rfl bears, framed_of_readError rfl⟩

theorem bears_of_transports {channel : MqttChannel} {reads : Bool} {transport : Transport}
    (bears : Bears limit channel.sent cable)
    (carried : transports channel reads cable transport = some next) :
    Bears limit channel.sent next ∧ next.read = cable.read := by
  cases transport with
  | take =>
      obtain ⟨_, taken⟩ := Option.ite_none_right_eq_some.mp carried
      exact ⟨bears.take taken, Pipe.read_take taken⟩
  | write count =>
      obtain ⟨_, written⟩ := Option.ite_none_right_eq_some.mp carried
      exact ⟨bears.write written, Pipe.read_write written⟩
  | stop =>
      cases carried
      exact ⟨bears.stop, rfl⟩
  | arrive count =>
      cases carried
      exact ⟨bears.arrive count, rfl⟩
  | poll =>
      obtain ⟨_, polled⟩ := Option.ite_none_right_eq_some.mp carried
      exact ⟨bears.poll polled, Pipe.read_poll polled⟩

end Cable

/-! ## Whole packets -/

namespace WireSystem

variable {config : WireConfig} {system next : WireSystem} {connection : ConnectionId}

/-- Every cable carries what the channel at its beginning has sent. -/
structure Wired (config : WireConfig) (system : WireSystem) : Prop where
  up : ∀ connection,
    Bears config.serverLimit (system.clients connection).channel.sent (system.up connection)
  down : ∀ connection,
    Bears (config.clientLimit connection) (system.channel connection).sent
      (system.down connection)

theorem wired_new (config : WireConfig) : Wired config (new config) :=
  ⟨fun _ => Pipe.carries_new (asks_readPacket _), fun _ => Pipe.carries_new (asks_readPacket _)⟩

theorem read_update (cables : ConnectionId → Cable) (connection : ConnectionId) (cable : Cable) :
    (fun other => (Function.update cables connection cable other).read) =
      Function.update (fun other => (cables other).read) connection cable.read :=
  funext fun other => Function.apply_update (fun _ => Pipe.read) cables connection cable other

theorem read_update_of_eq {cables : ConnectionId → Cable} {cable : Cable}
    (same : cable.read = (cables connection).read) :
    (fun other => (Function.update cables connection cable other).read) =
      fun other => (cables other).read := by
  rw [read_update, same, Function.update_eq_self_iff]

/-- A step of the server on one of its connections, with whole packets. -/
theorem packets_serverHears {action : Server.Action} {host : Server.Host} {cable : Cable}
    (moved : system.host.step config.server (.act connection action) = some host)
    (hears : Hears config.serverLimit (system.clients connection).channel.sent
      (system.up connection) (obtains action) cable) :
    system.packets.step config.toConfig (.server (.act connection action)) =
      some (packets { system with host, up := Function.update system.up connection cable }) := by
  have serves : system.packets.step config.toConfig (.server (.act connection action)) =
      system.packets.serve (.act connection action) host :=
    congrArg (Option.bind · (system.packets.serve (.act connection action))) moved
  rw [serves, System.serve, takes_act]
  generalize obtains action = heard at hears
  cases hears with
  | packet listed read =>
      rw [Option.map_some]
      simp only [packets, listed, if_true, read_update, read]
  | nothing read =>
      rw [Option.map_none]
      simp only [packets, read_update_of_eq read]

/-- So for a client. -/
theorem packets_clientHears {action : Client.Action} {session : Client.Session} {cable : Cable}
    (moved : (system.clients connection).step (config.clients connection) action = some session)
    (hears : Hears (config.clientLimit connection) (system.channel connection).sent
      (system.down connection) (fetches action) cable) :
    system.packets.step config.toConfig (.client connection action) =
      some (packets { system with
        clients := Function.update system.clients connection session
        down := Function.update system.down connection cable }) := by
  have attends : system.packets.step config.toConfig (.client connection action) =
      system.packets.attend connection action session :=
    congrArg (Option.bind · (system.packets.attend connection action)) moved
  rw [attends, System.attend]
  generalize fetches action = heard at hears
  cases hears with
  | packet listed read =>
      simp only [packets, read_update, read]
      exact if_pos listed
  | nothing read => simp only [packets, read_update_of_eq read]

/-- The ends move on and one cable with them. -/
theorem Wired.of_update {cables : ConnectionId → Cable} {cable : Cable}
    {limit : ConnectionId → Nat} {sent after : ConnectionId → List Packet}
    (wired : ∀ other, Bears (limit other) (sent other) (cables other))
    (grown : ∀ other, sent other <+: after other)
    (bears : Bears (limit connection) (sent connection) cable) (other : ConnectionId) :
    Bears (limit other) (after other) (Function.update cables connection cable other) := by
  rcases eq_or_ne other connection with rfl | differs
  · rw [Function.update_self]
    exact bears.grow (grown other)
  · rw [Function.update_of_ne differs]
    exact (wired other).grow (grown other)

/-- What the server does beside its connections, with whole packets. -/
theorem packets_serverRuns {event : Server.Event} {host : Server.Host}
    (moved : system.host.step config.server event = some host) (other : takes event = none) :
    system.packets.step config.toConfig (.server event) = some (packets { system with host }) := by
  have serves : system.packets.step config.toConfig (.server event) =
      system.packets.serve event host :=
    congrArg (Option.bind · (system.packets.serve event)) moved
  rw [serves, System.serve, other]
  rfl

/-- The step of an end is one with whole packets, in which no reader loses track, and the
cables go on carrying what is sent. -/
structure Renders (config : WireConfig) (system : WireSystem) (event : Event)
    (next : WireSystem) : Prop where
  shown : system.packets.step config.toConfig event = some next.packets
  framed : Framed event
  wired : System.Grown system.packets next.packets → Wired config next

theorem renders_serverRuns {event : Server.Event} {host : Server.Host}
    (wired : Wired config system) (moved : system.host.step config.server event = some host)
    (other : takes event = none) (silent : readError (.server event) = none) :
    Renders config system (.server event) { system with host } := by
  refine ⟨packets_serverRuns moved other, framed_of_readError silent, fun grown => ?_⟩
  exact ⟨wired.up, fun connection => (wired.down connection).grow (grown.channels connection)⟩

theorem renders_of_step {event : Event} (wired : Wired config system)
    (orderly : Orderly config system (.ends event))
    (stepped : system.step config (.ends event) = some next) :
    Renders config system event next := by
  cases event with
  | server event =>
      cases event with
      | act connection action =>
          obtain ⟨host, moved, rest⟩ := Option.bind_eq_some_iff.mp stepped
          obtain ⟨cable, heard, rfl⟩ := Option.map_eq_some_iff.mp rest
          obtain ⟨hears, framed⟩ :=
            hears_of_serverHears connection (wired.up connection) orderly heard
          refine ⟨packets_serverHears moved hears, framed, fun grown => ?_⟩
          exact ⟨Wired.of_update wired.up grown.clients hears.bears,
            fun connection => (wired.down connection).grow (grown.channels connection)⟩
      | advance task choice =>
          obtain ⟨host, moved, rfl⟩ := Option.map_eq_some_iff.mp stepped
          exact renders_serverRuns wired moved rfl rfl
      | environment connection channel =>
          cases stepped
          exact renders_serverRuns wired rfl rfl rfl
  | client connection action =>
      obtain ⟨session, moved, rest⟩ := Option.bind_eq_some_iff.mp stepped
      obtain ⟨cable, heard, rfl⟩ := Option.map_eq_some_iff.mp rest
      obtain ⟨hears, framed⟩ :=
        hears_of_clientHears connection (wired.down connection) orderly.1 orderly.2 heard
      refine ⟨packets_clientHears moved hears, framed, fun grown => ?_⟩
      exact ⟨fun connection => (wired.up connection).grow (grown.clients connection),
        Wired.of_update wired.down grown.channels hears.bears⟩

theorem extends_of_orderly {event : Event} (orderly : Orderly config system (.ends event)) :
    System.Extends system.packets event := by
  rintro connection channel rfl
  exact orderly

/-- An orderly step whose part with whole packets meets a condition. -/
structure Refines (config : WireConfig) (meets : System → Event → Prop) (system : WireSystem)
    (event : WireEvent) : Prop where
  orderly : Orderly config system event
  meets : ∀ seen ∈ event.shown, meets system.packets seen

instance (config : WireConfig) (meets : System → Event → Prop)
    [∀ system event, Decidable (meets system event)] (system : WireSystem) (event : WireEvent) :
    Decidable (Refines config meets system event) :=
  decidable_of_iff (Orderly config system event ∧ ∀ seen ∈ event.shown, meets system.packets seen)
    ⟨fun both => ⟨both.1, both.2⟩, fun refines => ⟨refines.orderly, refines.meets⟩⟩

/-- A step is one with whole packets, or nothing of it is seen. -/
theorem wired_step {meets : System → Event → Prop} {event : WireEvent}
    (wired : Wired config system) (refines : Refines config meets system event)
    (stepped : system.step config event = some next) :
    Wired config next ∧
      Shows (System.step config.toConfig) (fun system event => meets system event ∧ Framed event)
        system.packets next.packets event.shown := by
  cases event with
  | carryUp connection transport =>
      obtain ⟨cable, carried, rfl⟩ := Option.map_eq_some_iff.mp stepped
      obtain ⟨bears, read⟩ := bears_of_transports (wired.up connection) carried
      refine ⟨⟨Wired.of_update wired.up (fun _ => List.prefix_refl _) bears, wired.down⟩, ?_⟩
      simp only [WireEvent.shown, Shows, packets, read_update_of_eq read]
  | carryDown connection transport =>
      obtain ⟨cable, carried, rfl⟩ := Option.map_eq_some_iff.mp stepped
      obtain ⟨bears, read⟩ := bears_of_transports (wired.down connection) carried
      refine ⟨⟨wired.up, Wired.of_update wired.down (fun _ => List.prefix_refl _) bears⟩, ?_⟩
      simp only [WireEvent.shown, Shows, packets, read_update_of_eq read]
  | ends event =>
      have renders := renders_of_step wired refines.orderly stepped
      have grown := System.grown_of_step renders.shown (extends_of_orderly refines.orderly)
      exact ⟨renders.wired grown, ⟨refines.meets event rfl, renders.framed⟩, renders.shown⟩

section Run

variable {events : List WireEvent} {final : WireSystem} {meets : System → Event → Prop}

/-- The run with whole packets that a run over bytes shows. -/
theorem shown_of_run (run : Run (step config) (Refines config meets) (new config) events final) :
    Run (System.step config.toConfig) (fun system event => meets system event ∧ Framed event)
      .new (events.filterMap WireEvent.shown) final.packets :=
  run.simulates (fun _ _ _ wired refines stepped => wired_step wired refines stepped)
    (wired_new config)

end Run

/-! ## A relay over bytes -/

/-- The relay's configuration with small limits. -/
def relayWire : WireConfig where
  toConfig := System.relayConfig
  serverLimit := 64
  clientLimit := fun _ => 64

/-- A packet goes over a cable in pieces, and the reader is polled in between. -/
def inPieces (packet : Packet) : List Transport :=
  [.take, .write 1, .write 64] ++
    (match packet with
      | .publish _ => [.write 64]
      | _ => []) ++
    [.arrive 1, .poll, .arrive 64]

/-- Every packet is carried to its reader just before it is read. -/
def overWire : Event → List WireEvent
  | .server event =>
      (match takes event with
        | some (connection, packet) => (inPieces packet).map (.carryUp connection)
        | none => []) ++ [.ends (.server event)]
  | .client connection action =>
      (match fetches action with
        | some packet => (inPieces packet).map (.carryDown connection)
        | none => []) ++ [.ends (.client connection action)]

/-- The relay over bytes. -/
def wireRelay : List WireEvent :=
  System.relay.flatMap overWire

/-- The system over bytes when the relay is over. -/
def afterWireRelay : WireSystem :=
  replay (step relayWire) (new relayWire) wireRelay

/-! ## The results -/

/-- What happens over bytes in an orderly run is a run of the system in which packets are
passed on whole, under whatever condition its steps meet, and in it no read ends with an error
other than one of the transport. -/
theorem bytes_show_packets {events : List WireEvent} {final : WireSystem}
    {meets : System → Event → Prop}
    (run : Run (step config) (Refines config meets) (new config) events final) :
    Run (System.step config.toConfig) (fun system event => meets system event ∧ Framed event)
      .new (events.filterMap WireEvent.shown) final.packets :=
  shown_of_run run

theorem bytes_show_packets_relay :
    Run (System.step relayWire.toConfig)
      (fun system event => System.Undisturbed system event ∧ Framed event)
      .new (wireRelay.filterMap WireEvent.shown) afterWireRelay.packets := by
  have run : Run (step relayWire) (Refines relayWire System.Undisturbed) (new relayWire)
      wireRelay afterWireRelay :=
    Follows.run (by decide +kernel)
  exact bytes_show_packets run

/-- All that has been sent fits the reader, has been written and has arrived. -/
structure CableDrained (limit : Nat) (packets : List Packet) (cable : Cable) : Prop where
  fits : ∀ packet ∈ packets, Fits limit packet
  running : cable.running = true
  taken : cable.taken = packets.length
  unwritten : cable.unwritten = []
  transit : cable.transit = []
  arrived : cable.arrived = []

/-- Both directions of a connection are drained. -/
def Drained (config : WireConfig) (system : WireSystem) (connection : ConnectionId) : Prop :=
  CableDrained config.serverLimit (system.clients connection).channel.sent
      (system.up connection) ∧
    CableDrained (config.clientLimit connection) (system.channel connection).sent
      (system.down connection)

end WireSystem

end HotaruMqtt.Network
