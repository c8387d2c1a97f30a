import HotaruMqtt.Network.ClientEnd
import HotaruMqtt.Network.ServerEnd

/-!
# Clients and their server

The host and one client session per connection.  What one end has handed to its writer
actor is what the other end reads, in the same order; a read can also fail or time out
at any moment.  All tasks of all ends interleave.

On a connection whose two ends go on, the publishes of either end reach the handlers of
the other once each, and in their order among those of the same kind: those at QoS 2,
and the others.
-/

namespace HotaruMqtt.Network

open Exec Exec.Outcome Exec.Transition Inbound Broker

/-- The configuration of the server and of every client. -/
structure Config where
  server : Server.Config
  clients : ConnectionId → Client.MqttClientConfig

/-- The host, the clients, and how many packets of the other each end of a connection has
read. -/
structure System where
  host : Server.Host
  clients : ConnectionId → Client.Session
  serverRead : ConnectionId → Nat
  clientRead : ConnectionId → Nat

/-- What happens in the system: something at the server, or something at the client of a
connection. -/
inductive Event
  | server (event : Server.Event)
  | client (connection : ConnectionId) (action : Client.Action)

/-- The packet that an action of a client takes from the wire. -/
def fetches : Client.Action → Option Packet
  | .read (.packet packet) => some packet
  | _ => none

namespace System

/-- Nobody has connected. -/
def new : System where
  host := .new fun _ => .new
  clients := fun _ => .new
  serverRead := fun _ => 0
  clientRead := fun _ => 0

/-- The server's channel of a connection. -/
def channel (system : System) (connection : ConnectionId) : MqttChannel :=
  system.host.pool.broker.channels connection

/-- A server that reads a packet reads the next one its client has sent. -/
def serve (system : System) (event : Server.Event) (host : Server.Host) : Option System :=
  match takes event with
  | none => some { system with host }
  | some (connection, packet) =>
      if (system.clients connection).channel.sent[system.serverRead connection]? =
          some packet then
        some { system with
          host
          serverRead := Function.update system.serverRead connection
            (system.serverRead connection + 1) }
      else
        none

/-- So does a client. -/
def attend (system : System) (connection : ConnectionId) (action : Client.Action)
    (session : Client.Session) : Option System :=
  let clients := Function.update system.clients connection session
  match fetches action with
  | none => some { system with clients }
  | some packet =>
      if (system.channel connection).sent[system.clientRead connection]? = some packet then
        some { system with
          clients
          clientRead := Function.update system.clientRead connection
            (system.clientRead connection + 1) }
      else
        none

/-- One event at one end.  A packet can be read only if the other end has sent it and it is
the next one. -/
def step (config : Config) (system : System) : Event → Option System
  | .server event => (system.host.step config.server event).bind (system.serve event)
  | .client connection action =>
      ((system.clients connection).step (config.clients connection) action).bind
        (system.attend connection action)

/-- The two ends of a connection. -/
def talk (system : System) (connection : ConnectionId) : Talk where
  client := clientParty (system.clients connection)
  server := serverParty system.host connection
  clientRead := system.clientRead connection
  serverRead := system.serverRead connection

/-- Neither end of a connection has closed, failed or returned. -/
structure Up (system : System) (connection : ConnectionId) : Prop where
  client : ClientUp (system.clients connection)
  server : ServerUp system.host connection

end System

/-! ## When the flows are kept apart -/

/-- The PUBLISH that a client sends on a connection. -/
def sendsUp (system : System) (connection : ConnectionId) : Event → Option PublishPacket
  | .client acting (.enqueue index) =>
      match (system.clients connection).outgoing[index]? with
      | some (.publish request, id) =>
          if acting = connection then some (requested request id) else none
      | _ => none
  | _ => none

/-- The one PUBLISH of a list. -/
def onlyPublish : List Packet → Option PublishPacket
  | [.publish publish] => some publish
  | _ => none

/-- The PUBLISH that is sent on the server's channel of a connection. -/
def sendsDown (system : System) (connection : ConnectionId) : Event → Option PublishPacket
  | .server (.advance task _) =>
      match Server.copyOf system.host.pool task with
      | some copy =>
          if copy.target = connection then some (copyOn (system.channel connection) copy)
          else none
      | none => none
  | .server (.environment used channel) =>
      if used = connection then
        onlyPublish (channel.sent.drop (system.channel connection).sent.length)
      else
        none
  | _ => none

/-- Somebody else has used the server's channel: the channel was open, the tables of the
flows are as they were, and what was sent is one PUBLISH or belongs to no flow. -/
structure Borrowed (channel used : MqttChannel) : Prop where
  open_ : flags channel = (true, true)
  stash : used.session.qos2Recv = channel.session.qos2Recv
  records : used.session.outboundInflight = channel.session.outboundInflight
  sent : used.sent = channel.sent ++ used.sent.drop channel.sent.length
  neutral : onlyPublish (used.sent.drop channel.sent.length) = none →
    ∀ packet ∈ used.sent.drop channel.sent.length, Neutral packet

/-- While both ends of a connection go on, no PUBLISH goes out under an identifier that its
direction still uses, and whoever else uses the server's channel keeps to the flows or
closes it. -/
structure Apart (connection : ConnectionId) (system : System) (event : Event) : Prop where
  up : system.Up connection → ∀ publish ∈ sendsUp system connection event,
    MayPublish (system.talk connection).uplink publish
  down : system.Up connection → ∀ publish ∈ sendsDown system connection event,
    MayPublish (system.talk connection).downlink publish
  borrowed : ∀ channel, event = .server (.environment connection channel) →
    flags channel = (true, true) → Borrowed (system.channel connection) channel

/-! ## What a step of the system is -/

namespace System

/-- The steps of the system. -/
inductive Steps (config : Config) (system : System) : Event → System → Prop
  | serverRuns {event : Server.Event} {host : Server.Host}
      (moved : system.host.step config.server event = some host) (other : takes event = none) :
      Steps config system (.server event) { system with host }
  | serverReads {event : Server.Event} {host : Server.Host} {connection : ConnectionId}
      {packet : Packet} (moved : system.host.step config.server event = some host)
      (taken : takes event = some (connection, packet))
      (next : (system.clients connection).channel.sent[system.serverRead connection]? =
        some packet) :
      Steps config system (.server event)
        { system with
          host
          serverRead := Function.update system.serverRead connection
            (system.serverRead connection + 1) }
  | clientRuns {connection : ConnectionId} {action : Client.Action} {session : Client.Session}
      (moved : (system.clients connection).step (config.clients connection) action =
        some session)
      (other : fetches action = none) :
      Steps config system (.client connection action)
        { system with clients := Function.update system.clients connection session }
  | clientReads {connection : ConnectionId} {packet : Packet} {session : Client.Session}
      (moved : (system.clients connection).step (config.clients connection)
        (.read (.packet packet)) = some session)
      (next : (system.channel connection).sent[system.clientRead connection]? = some packet) :
      Steps config system (.client connection (.read (.packet packet)))
        { system with
          clients := Function.update system.clients connection session
          clientRead := Function.update system.clientRead connection
            (system.clientRead connection + 1) }

variable {config : Config} {system next : System} {event : Event} {connection : ConnectionId}

theorem eq_of_fetches {action : Client.Action} {packet : Packet}
    (fetched : fetches action = some packet) : action = .read (.packet packet) := by
  unfold fetches at fetched
  split at fetched
  · rw [Option.some_inj.mp fetched]
  · contradiction

theorem steps_of_step (stepped : system.step config event = some next) :
    Steps config system event next := by
  cases event with
  | server event =>
      obtain ⟨host, moved, served⟩ := Option.bind_eq_some_iff.mp stepped
      unfold serve at served
      split at served
      · rename_i other
        cases served
        exact .serverRuns moved other
      · rename_i connection packet taken
        split at served
        · rename_i arrived
          cases served
          exact .serverReads moved taken arrived
        · contradiction
  | client connection action =>
      obtain ⟨session, moved, attended⟩ := Option.bind_eq_some_iff.mp stepped
      simp only [attend] at attended
      split at attended
      · rename_i other
        cases attended
        exact .clientRuns moved other
      · rename_i packet fetched
        cases eq_of_fetches fetched
        split at attended
        · rename_i arrived
          cases attended
          exact .clientReads moved arrived
        · contradiction

/-! ## The two ends move as the flows allow -/

/-- A move between the two ends of a connection, with no PUBLISH but the one that an event
sends. -/
def MovesBy (connection : ConnectionId) (system : System) (event : Event) (after : Talk) : Prop :=
  ∃ up down, (system.talk connection).Moves up down after ∧
    (∀ publish ∈ up, sendsUp system connection event = some publish) ∧
    ∀ publish ∈ down, sendsDown system connection event = some publish

theorem MovesBy.of_silent {after : Talk} (moves : (system.talk connection).Moves none none after) :
    MovesBy connection system event after :=
  ⟨none, none, moves, by simp, by simp⟩

theorem movesBy_of_clientRuns {action : Client.Action} {session : Client.Session}
    (moved : (system.clients connection).step (config.clients connection) action = some session)
    (other : fetches action = none) (up : ClientUp session)
    (serverUp : ServerUp system.host connection)
    (apart : Apart connection system (.client connection action)) :
    ClientUp (system.clients connection) ∧
      MovesBy connection system (.client connection action)
        { system.talk connection with client := clientParty session } := by
  obtain ⟨before, shows⟩ := clientShows_of_step moved up
  refine ⟨before, ?_⟩
  generalize clientParty session = party at shows
  cases shows with
  | hears => contradiction
  | @publishes index request id listed =>
      have sends : sendsUp system connection (.client connection (.enqueue index)) =
          some (requested request id) := by
        simp [sendsUp, listed]
      have fresh := apart.up ⟨before, serverUp⟩ _ sends
      refine ⟨some _, none, .clientPublishes fresh fun _ tracked => .inl tracked, ?_, by simp⟩
      rintro _ ⟨⟩
      exact sends
  | adds _ neutral => exact .of_silent (.clientAdds neutral)

theorem movesBy_of_clientReads {packet : Packet} {session : Client.Session}
    (moved : (system.clients connection).step (config.clients connection)
      (.read (.packet packet)) = some session)
    (next : (system.channel connection).sent[system.clientRead connection]? = some packet)
    (up : ClientUp session) :
    ClientUp (system.clients connection) ∧
      MovesBy connection system event
        { system.talk connection with
          client := clientParty session
          clientRead := system.clientRead connection + 1 } := by
  obtain ⟨before, shows⟩ := clientShows_of_step moved up
  refine ⟨before, .of_silent ?_⟩
  generalize clientParty session = party at shows
  cases shows with
  | hears hears => exact .clientHears next hears
  | adds other _ => exact absurd rfl (other packet)

/-- The identifier of a copy above QoS 0. -/
theorem flowId_copyOn {channel : MqttChannel} {copy : Server.PendingCopy}
    (above : .atMostOnce < min copy.packet.qos copy.subQos) :
    flowId (copyOn channel copy) = some channel.session.allocatePacketId.1 := by
  have numbered : (numberCopy channel copy.packet (min copy.packet.qos copy.subQos)).1 =
      some channel.session.allocatePacketId.1 := by
    rw [numberCopy, if_pos above]
  simp only [flowId, copyOn, adjusted, numbered, if_neg above.ne']

/-- Only a copy above QoS 0 is recorded, and under the identifier it is sent with. -/
theorem tracked_of_copy {channel : MqttChannel} {copy : Server.PendingCopy} {id : PacketId}
    (tracked : trackedOf (withCopy channel copy.packet copy.subQos) id = true) :
    trackedOf channel id = true ∨ flowId (copyOn channel copy) = some id := by
  simp only [trackedOf, Server.lookup_withCopy] at tracked
  split at tracked
  · rename_i recorded
    obtain ⟨above, rfl⟩ := recorded
    exact .inr (flowId_copyOn above)
  · exact .inl tracked

theorem movesBy_of_serverShows {event : Server.Event} {party : Party} {counter : UInt16}
    (shows : ServerShows system.host connection event party counter) (up : system.Up connection)
    (apart : Apart connection system (.server event))
    (other : ∀ packet, takes event ≠ some (connection, packet)) :
    MovesBy connection system (.server event)
      { system.talk connection with server := party } := by
  cases shows with
  | hears taken => exact absurd taken (other _)
  | @copies task choice copy copied target =>
      have sends : sendsDown system connection (.server (.advance task choice)) =
          some (copyOn (system.channel connection) copy) := by
        simp [sendsDown, copied, target]
      have fresh := apart.down up _ sends
      refine ⟨none, some _, .serverPublishes fresh fun _ tracked => tracked_of_copy tracked,
        by simp, ?_⟩
      rintro _ ⟨⟩
      exact sends
  | adds _ _ neutral => exact .of_silent (.serverAdds neutral)

theorem eq_of_onlyPublish {packets : List Packet} {publish : PublishPacket}
    (only : onlyPublish packets = some publish) : packets = [.publish publish] := by
  unfold onlyPublish at only
  split at only
  · rw [Option.some_inj.mp only]
  · contradiction

/-- Whoever else uses the server's channel adds to what is sent on it. -/
theorem movesBy_of_borrowed {used : MqttChannel} (up : system.Up connection)
    (apart : Apart connection system (.server (.environment connection used)))
    (borrowed : Borrowed (system.channel connection) used) :
    MovesBy connection system (.server (.environment connection used))
      { system.talk connection with
        server := .ofServer used (system.host.conns connection).queue } := by
  have party : Party.ofServer used (system.host.conns connection).queue =
      (serverParty system.host connection).adds (used.sent.drop _) :=
    Party.of_congr borrowed.sent borrowed.stash borrowed.records
  rw [party]
  cases only : onlyPublish (used.sent.drop (system.channel connection).sent.length) with
  | none => exact .of_silent (.serverAdds (borrowed.neutral only))
  | some publish =>
      have sends : sendsDown system connection (.server (.environment connection used)) =
          some publish := by
        simp only [sendsDown, if_true, only]
      rw [eq_of_onlyPublish only]
      refine ⟨none, some publish, .serverPublishes (apart.down up _ sends) fun _ tracked =>
        .inl tracked, by simp, ?_⟩
      rintro _ ⟨⟩
      exact sends

theorem movesBy_of_server {event : Server.Event} {host : Server.Host}
    (moved : system.host.step config.server event = some host) (up : ServerUp host connection)
    (clientUp : ClientUp (system.clients connection))
    (answers : Responds system.host connection)
    (apart : Apart connection system (.server event))
    (other : ∀ packet, takes event ≠ some (connection, packet)) :
    ServerUp system.host connection ∧
      MovesBy connection system (.server event)
        { system.talk connection with server := serverParty host connection } := by
  by_cases disturbed : ∃ channel, event = .environment connection channel
  · obtain ⟨channel, rfl⟩ := disturbed
    cases moved
    have flags := up.flags
    rw [Server.channels_environment_self] at flags
    have borrowed := apart.borrowed channel rfl flags
    have before : ServerUp system.host connection := ⟨borrowed.open_, up.receiver, up.underWay⟩
    refine ⟨before, ?_⟩
    rw [serverParty, Server.channels_environment_self]
    exact movesBy_of_borrowed ⟨clientUp, before⟩ apart borrowed
  · obtain ⟨before, shows⟩ := serverShows_of_step moved up answers
      fun channel same => disturbed ⟨channel, same⟩
    exact ⟨before, movesBy_of_serverShows shows ⟨clientUp, before⟩ apart other⟩

theorem undisturbed_of_takes {event : Server.Event} {packet : Packet}
    (taken : takes event = some (connection, packet)) (channel : MqttChannel) :
    event ≠ .environment connection channel := by
  rintro rfl
  contradiction

/-- Every step of the system is a move between the two ends of a connection that goes on. -/
theorem movesBy_of_step (stepped : system.step config event = some next)
    (up : next.Up connection) (answers : Responds system.host connection)
    (apart : Apart connection system event) :
    system.Up connection ∧ MovesBy connection system event (next.talk connection) := by
  obtain ⟨clientUp, serverUp⟩ := up
  cases steps_of_step stepped with
  | serverRuns moved other =>
      obtain ⟨before, moves⟩ := movesBy_of_server moved serverUp clientUp answers apart
        (by simp [other])
      exact ⟨⟨clientUp, before⟩, moves⟩
  | @serverReads _ host reading packet moved taken arrived =>
      rcases eq_or_ne connection reading with rfl | differs
      · obtain ⟨before, shows⟩ := serverShows_of_step moved serverUp answers
          (undisturbed_of_takes taken)
        refine ⟨⟨clientUp, before⟩, .of_silent ?_⟩
        simp only [talk, Function.update_self]
        generalize serverParty host connection = party at shows
        generalize serverCounter host connection = counter at shows
        cases shows with
        | hears heard hears =>
            cases heard.symm.trans taken
            exact .serverHears arrived hears
        | copies => contradiction
        | adds other _ _ => exact absurd taken (other packet)
      · obtain ⟨before, moves⟩ := movesBy_of_server moved serverUp clientUp answers apart
          (by simp [taken, differs.symm])
        refine ⟨⟨clientUp, before⟩, ?_⟩
        simp only [talk, Function.update_of_ne differs]
        exact moves
  | @clientRuns acting action session moved other =>
      rcases eq_or_ne connection acting with rfl | differs
      · simp only [Function.update_self] at clientUp
        obtain ⟨before, moves⟩ := movesBy_of_clientRuns moved other clientUp serverUp apart
        refine ⟨⟨before, serverUp⟩, ?_⟩
        simp only [talk, Function.update_self]
        exact moves
      · simp only [Function.update_of_ne differs] at clientUp
        refine ⟨⟨clientUp, serverUp⟩, .of_silent ?_⟩
        simp only [talk, Function.update_of_ne differs]
        exact .same
  | @clientReads acting packet session moved arrived =>
      rcases eq_or_ne connection acting with rfl | differs
      · simp only [Function.update_self] at clientUp
        obtain ⟨before, moves⟩ := movesBy_of_clientReads moved arrived clientUp
        refine ⟨⟨before, serverUp⟩, ?_⟩
        simp only [talk, Function.update_self]
        exact moves
      · simp only [Function.update_of_ne differs] at clientUp
        refine ⟨⟨clientUp, serverUp⟩, .of_silent ?_⟩
        simp only [talk, Function.update_of_ne differs]
        exact .same

/-! ## The invariant -/

/-- Only a SUBACK or an UNSUBACK is sent as an answer of the broker. -/
theorem responds_of_step {config : Server.Config} {host next : Server.Host}
    {event : Server.Event} (stepped : host.step config event = some next)
    (answers : Responds host connection) : Responds next connection := by
  have continues : ∀ {outcome : Outcome MqttError Unit} {phase : Server.Phase} {packet : Packet},
      Server.afterDispatch outcome = some phase → phase ≠ .responding packet := by
    rintro outcome phase packet after rfl
    cases outcome <;> cases after
  intro session packet at_
  rcases (Server.Host.steps_of_step stepped).conns connection with same | ⟨action, _, acts⟩
  · exact answers session packet (same ▸ at_)
  · generalize next.conns connection = conn at acts at_
    generalize next.pool = pool at acts
    cases acts with
    | subscribed =>
        cases at_
        exact .inl ⟨_, rfl⟩
    | unsubscribed =>
        cases at_
        exact .inr ⟨_, rfl⟩
    | dispatched _ _ after | responded _ after =>
        cases at_
        exact absurd rfl (continues after)
    | took | drained | fanned | suppressed | published | crashed =>
        exact answers session packet at_
    | _ => cases at_

/-- The flows of a connection are sound as long as both ends go on. -/
structure Carried (connection : ConnectionId) (system : System) : Prop where
  answers : Responds system.host connection
  sound : system.Up connection → (system.talk connection).Sound

theorem carried_new (connection : ConnectionId) : Carried connection new where
  answers := by rintro _ _ ⟨⟩
  sound _ := Talk.sound_of_silent rfl rfl rfl rfl

theorem preserves_carried (config : Config) (connection : ConnectionId) :
    Preserves (step config) (Apart connection) (Carried connection) := by
  intro system event next carried apart stepped
  refine ⟨?_, fun up => ?_⟩
  · cases steps_of_step stepped with
    | serverRuns moved | serverReads moved => exact responds_of_step moved carried.answers
    | clientRuns | clientReads => exact carried.answers
  · obtain ⟨before, _, _, moves, _⟩ := movesBy_of_step stepped up carried.answers apart
    exact moves.sound (carried.sound before)

end System

end HotaruMqtt.Network
