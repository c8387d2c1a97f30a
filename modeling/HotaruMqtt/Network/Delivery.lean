import HotaruMqtt.Network.Numbering

/-!
# What arrives

In whatever order the tasks of all clients and of the server run, what one end of a
connection publishes reaches the handlers of the other end.  Messages at QoS 2 come in
the order in which they were sent, and so do the others; a message at QoS 2 can be
overtaken by the others while it is kept for its PUBREL.  What a PUBACK or PUBCOMP
confirms has been handed on.  When neither end has anything left to read, every message
has been handed on, and nothing is kept for a PUBREL or for retransmission.
-/

namespace HotaruMqtt.Network

open Exec Exec.Outcome Exec.Transition Inbound Broker

/-- The messages that are kept for a PUBREL. -/
def atQos2 (messages : List Message) : List Message :=
  messages.filter heldBack

/-- The messages that are handed on when they come. -/
def belowQos2 (messages : List Message) : List Message :=
  messages.filter fun message => !heldBack message

/-- Of either kind, the messages handed on are the first of those published. -/
def HandedInOrder (published handed : List Message) : Prop :=
  atQos2 handed <+: atQos2 published ∧ belowQos2 handed <+: belowQos2 published

/-- Of either kind, they are those published, in the same order. -/
def AllHanded (published handed : List Message) : Prop :=
  atQos2 handed = atQos2 published ∧ belowQos2 handed = belowQos2 published

/-- Every message that was published under the identifier has been handed on, in its place
among those of its kind. -/
def HandedUnder (id : PacketId) (numbered : List (Option PacketId × Message))
    (handed : List Message) : Prop :=
  ∀ (place : Nat) (message : Message),
    ((Handover.entriesOf heldBack numbered)[place]? = some (some id, message) →
        (atQos2 handed)[place]? = some message) ∧
      ((Handover.entriesOf (fun message => !heldBack message) numbered)[place]? =
          some (some id, message) →
        (belowQos2 handed)[place]? = some message)

/-- The packet tells the sender that the flow of an identifier is over. -/
def Confirms (packet : Packet) (id : PacketId) : Prop :=
  packet = .puback id ∨ packet = .pubcomp id

namespace System

variable {config : Config} {system : System} {events : List Event} {connection : ConnectionId}

/-- Each end of a connection has read all that the other has sent. -/
def Settled (system : System) (connection : ConnectionId) : Prop :=
  system.serverRead connection = (system.clients connection).channel.sent.length ∧
    system.clientRead connection = (system.channel connection).sent.length

instance (system : System) (connection : ConnectionId) :
    Decidable (system.Settled connection) :=
  inferInstanceAs (Decidable (_ ∧ _))

/-- What a client has published, and what the server has published to it. -/
def publishedUp (system : System) (connection : ConnectionId) : List Message :=
  (system.clients connection).channel.sent.filterMap offeredBy

/-- What the server has published to the client of a connection. -/
def publishedDown (system : System) (connection : ConnectionId) : List Message :=
  (system.channel connection).sent.filterMap offeredBy

/-- The same with the identifiers. -/
def numberedUp (system : System) (connection : ConnectionId) : List (Option PacketId × Message) :=
  (system.clients connection).channel.sent.filterMap numberedBy

/-- So with the identifiers. -/
def numberedDown (system : System) (connection : ConnectionId) :
    List (Option PacketId × Message) :=
  (system.channel connection).sent.filterMap numberedBy

/-- What the server has handed to the worker of a connection, and what a client has handed
to its handlers. -/
def handedUp (system : System) (connection : ConnectionId) : List Message :=
  (system.host.conns connection).queue.handed.map .ofPublish

/-- What the client of a connection has given to its handlers. -/
def handedDown (system : System) (connection : ConnectionId) : List Message :=
  (system.clients connection).connection.handed.map .ofIncoming

theorem sound_of_run (run : Run (step config) (Apart connection) new events system)
    (up : system.Up connection) : (system.talk connection).Sound :=
  (run.invariant (preserves_carried config connection) (carried_new connection)).sound up

theorem Settled.quiet (settled : system.Settled connection) :
    (system.talk connection).uplink.Quiet ∧ (system.talk connection).downlink.Quiet := by
  obtain ⟨server, client⟩ := settled
  have up : (system.talk connection).client.sent.drop (system.serverRead connection) = [] :=
    List.drop_eq_nil_of_le server.ge
  have down : (system.talk connection).server.sent.drop (system.clientRead connection) = [] :=
    List.drop_eq_nil_of_le client.ge
  simp only [Handover.Quiet, Talk.uplink, Talk.downlink, carriage]
  exact ⟨⟨congrArg (List.filterMap forthOf) up, congrArg (List.filterMap backOf) down⟩,
    congrArg (List.filterMap forthOf) down, congrArg (List.filterMap backOf) up⟩

section Carriage

variable {sender receiver : Party} {read noted : Nat}

theorem handedInOrder_of_sound
    (sound : (carriage sender read receiver noted).Sound heldBack) :
    HandedInOrder (sender.sent.filterMap offeredBy) receiver.handed := by
  rw [← map_numberedBy]
  exact ⟨sound.held_prefix, sound.plain_prefix⟩

theorem allHanded_of_quiet (sound : (carriage sender read receiver noted).Sound heldBack)
    (quiet : (carriage sender read receiver noted).Quiet) :
    AllHanded (sender.sent.filterMap offeredBy) receiver.handed := by
  rw [← map_numberedBy]
  exact ⟨(sound.of_quiet quiet).1, (sound.of_quiet quiet).2.1⟩

theorem handedUnder_of_confirms {packet : Packet} {id : PacketId}
    (sound : (carriage sender read receiver noted).Sound heldBack)
    (next : receiver.sent[noted]? = some packet) (confirms : Confirms packet id) :
    HandedUnder id (sender.sent.filterMap numberedBy) receiver.handed := by
  have answers : ∃ item : Back PacketId, backOf packet = some item ∧ item.reported = none ∧
      item.id = id := by
    rcases confirms with rfl | rfl
    · exact ⟨.accepted id, rfl, rfl, rfl⟩
    · exact ⟨.completed id, rfl, rfl, rfl⟩
  obtain ⟨item, isBack, final, rfl⟩ := answers
  have answered : item ∈ (carriage sender read receiver noted).back := by
    rw [carriage, drop_of_next next, List.filterMap_cons_some isBack]
    exact List.mem_cons_self
  exact fun place message => sound.handed_of_answered answered final

end Carriage

theorem unstashed_of_quiet {channel : MqttChannel} {id : PacketId}
    (empty : stashOf channel id = none) : channel.session.qos2Recv.lookup id = none :=
  Option.map_eq_none_iff.mp empty

theorem untracked_of_quiet {party : Party} {link : Handover PacketId Message}
    (tracks : Tracks party link) (quiet : link.Quiet) (id : PacketId) :
    party.tracked id = false := by
  refine Bool.eq_false_iff.mpr fun tracked => ?_
  simpa [Handover.inUse, quiet.1, quiet.2] using tracks id tracked

/-! ## A relay -/

/-- A client that subscribes at QoS 2 and one that publishes. -/
def relayConfig : Config where
  server := ⟨.new, some⟩
  clients
    | 1 => { Client.MqttClientConfig.new "s" with initialSubscriptions := [⟨"t", .exactlyOnce⟩] }
    | _ => { Client.MqttClientConfig.new "p" with cleanSession := false }

/-- A client connects and is accepted. -/
def connects (connection : ConnectionId) (moves : Nat) : List Event :=
  [.client connection .proceed,
    .server (.act connection (.connect
      (.packet (.connect (Client.buildConnect (relayConfig.clients connection))))
      ⟨true, .accepted⟩))] ++
    (Server.Event.moves connection moves ++ Server.Event.proceeds connection 3).map .server ++
    [.client connection (.read (.packet (.connack ⟨false, .accepted⟩))),
      .client connection .proceed]

/-- Both connect, and the first has subscribed. -/
def subscribes : List Event :=
  connects 1 4 ++ [.server (.act 1 (.read (.packet (.subscribe ⟨1, [⟨"t", .exactlyOnce⟩]⟩))))] ++
    (Server.Event.moves 1 5 ++ Server.Event.proceeds 1 3).map .server ++
    [.client 1 (.read (.packet (.suback ⟨1, [.granted .exactlyOnce]⟩))), .client 1 .proceed] ++
    connects 2 2

/-- The message of the relay. -/
def relayed : PublishPacket :=
  ⟨"t", [], false, .exactlyOnce, false, some 1⟩

/-- The second client publishes at QoS 2, and its worker sends the copy. -/
def publishes : List Event :=
  [.client 2 (.request (.publish ⟨"t", [], .exactlyOnce, false⟩)), .client 2 (.enqueue 0),
    .server (.act 2 (.read (.packet (.publish relayed)))), .server (.act 2 .proceed),
    .client 2 (.read (.packet (.pubrec 1))), .client 2 .proceed,
    .server (.act 2 (.read (.packet (.pubrel 1)))), .server (.act 2 .proceed),
    .client 2 (.read (.packet (.pubcomp 1))), .client 2 .proceed,
    .server (.act 2 .work), .server (.act 2 .work),
    .server (.advance (.worker 2) (.listed [("s", .exactlyOnce)])),
    .server (.advance (.worker 2) .go), .server (.advance (.worker 2) .go)]

/-- The first client goes through the flow of the copy. -/
def receives : List Event :=
  [.client 1 (.read (.packet (.publish relayed))), .client 1 .proceed,
    .server (.act 1 (.read (.packet (.pubrec 1)))), .server (.act 1 .proceed),
    .client 1 (.read (.packet (.pubrel 1))), .client 1 .proceed,
    .server (.act 1 (.read (.packet (.pubcomp 1)))), .server (.act 1 .proceed)]

/-- One client subscribes, another publishes at QoS 2, and the copy is received. -/
def relay : List Event :=
  subscribes ++ publishes ++ receives

/-- The flags of both ends, and that neither has left its loop. -/
theorem up_of_selecting (client : (system.clients connection).phase = .selecting)
    (clientFlags : flags (system.clients connection).channel = (true, true))
    (server : (system.host.conns connection).main.dropped = false)
    (serverFlags : flags (system.channel connection) = (true, true))
    (receiver : (system.host.conns connection).queue.receiver = true) :
    system.Up connection := by
  refine ⟨⟨congrArg Prod.fst clientFlags, congrArg Prod.snd clientFlags, by simp [client]⟩,
    ⟨serverFlags, receiver, fun outcome returned => ?_⟩⟩
  rw [returned] at server
  contradiction

/-- The system when the relay is over. -/
def afterRelay : System :=
  replay (step relayConfig) new relay

/-! ## The results -/

/-- While the flows of a connection are kept apart and both its ends are up, what the client
publishes is handed to the worker of the connection, all of it once both ends have read
everything. -/
theorem client_publishes_arrive
    (run : Run (step config) (Apart connection) new events system) (up : system.Up connection) :
    HandedInOrder (system.publishedUp connection) (system.handedUp connection) ∧
      (system.Settled connection →
        AllHanded (system.publishedUp connection) (system.handedUp connection) ∧
          ∀ id, (system.channel connection).session.qos2Recv.lookup id = none) := by
  have sound := sound_of_run run up
  refine ⟨handedInOrder_of_sound sound.up, fun settled => ?_⟩
  have quiet := settled.quiet.1
  exact ⟨allHanded_of_quiet sound.up quiet,
    fun id => unstashed_of_quiet ((sound.up.of_quiet quiet).2.2 id)⟩

/-- The message of the relay has arrived at the server. -/
theorem client_publishes_arrive_relay :
    afterRelay.handedUp 2 = [.ofPublish relayed] ∧
      AllHanded (afterRelay.publishedUp 2) (afterRelay.handedUp 2) := by
  have run : Run (step relayConfig) (Unwrapped 2) new relay afterRelay :=
    Follows.run (by decide +kernel)
  have up : afterRelay.Up 2 :=
    up_of_selecting (by decide +kernel) (by decide +kernel) (by decide +kernel)
      (by decide +kernel) (by decide +kernel)
  have arrived := client_publishes_arrive (apart_of_run run) up
  exact ⟨by decide +kernel, (arrived.2 (by decide +kernel)).1⟩

/-- While the flows of a connection are kept apart and both its ends are up, what the server
publishes to the client is handed to the client's handlers, all of it once both ends have read
everything. -/
theorem server_copies_arrive
    (run : Run (step config) (Apart connection) new events system) (up : system.Up connection) :
    HandedInOrder (system.publishedDown connection) (system.handedDown connection) ∧
      (system.Settled connection →
        AllHanded (system.publishedDown connection) (system.handedDown connection) ∧
          ∀ id, (system.clients connection).channel.session.qos2Recv.lookup id = none ∧
            (system.channel connection).session.outboundInflight.lookup id = none) := by
  have sound := sound_of_run run up
  refine ⟨handedInOrder_of_sound sound.down, fun settled => ?_⟩
  have quiet := settled.quiet.2
  refine ⟨allHanded_of_quiet sound.down quiet, fun id => ⟨?_, ?_⟩⟩
  · exact unstashed_of_quiet ((sound.down.of_quiet quiet).2.2 id)
  · have untracked := untracked_of_quiet sound.serverTracks quiet id
    exact Option.isNone_iff_eq_none.mp (Option.isSome_eq_false_iff.mp untracked)

/-- The copy of the relay has arrived at the subscriber. -/
theorem server_copies_arrive_relay :
    afterRelay.handedDown 1 = [.ofPublish relayed] ∧
      AllHanded (afterRelay.publishedDown 1) (afterRelay.handedDown 1) := by
  have run : Run (step relayConfig) (Unwrapped 1) new relay afterRelay :=
    Follows.run (by decide +kernel)
  have up : afterRelay.Up 1 :=
    up_of_selecting (by decide +kernel) (by decide +kernel) (by decide +kernel)
      (by decide +kernel) (by decide +kernel)
  have arrived := server_copies_arrive (apart_of_run run) up
  exact ⟨by decide +kernel, (arrived.2 (by decide +kernel)).1⟩

/-- On a connection whose flows are kept apart and whose ends are both up: when an end reads
that a flow is over, what it published under the identifier has been handed on at the other
end.  A handler whose worker has gone acknowledges what it cannot hand on, so `up` is
needed. -/
theorem confirmed_is_handed {id : PacketId} {packet : Packet}
    (run : Run (step config) (Apart connection) new events system) (up : system.Up connection)
    (confirms : Confirms packet id) :
    ((system.channel connection).sent[system.clientRead connection]? = some packet →
        HandedUnder id (system.numberedUp connection) (system.handedUp connection)) ∧
      ((system.clients connection).channel.sent[system.serverRead connection]? = some packet →
        HandedUnder id (system.numberedDown connection) (system.handedDown connection)) := by
  have sound := sound_of_run run up
  exact ⟨fun next => handedUnder_of_confirms sound.up next confirms,
    fun next => handedUnder_of_confirms sound.down next confirms⟩

/-- The PUBCOMP of the relay is about to be read. -/
theorem confirmed_is_handed_relay :
    let system := replay (step relayConfig) new (subscribes ++ publishes.take 8)
    (system.channel 2).sent[system.clientRead 2]? = some (.pubcomp 1) ∧
      system.numberedUp 2 = [(some 1, .ofPublish relayed)] ∧
      (atQos2 (system.handedUp 2))[0]? = some (.ofPublish relayed) := by
  intro system
  have run : Run (step relayConfig) (Unwrapped 2) new _ system :=
    Follows.run (by decide +kernel)
  have up : system.Up 2 :=
    up_of_selecting (by decide +kernel) (by decide +kernel) (by decide +kernel)
      (by decide +kernel) (by decide +kernel)
  have next : (system.channel 2).sent[system.clientRead 2]? = some (.pubcomp 1) := by
    decide +kernel
  have handed := (confirmed_is_handed (apart_of_run run) up (.inr rfl)).1 next
  exact ⟨next, by decide +kernel, (handed 0 (.ofPublish relayed)).1 (by decide +kernel)⟩

/-- While both ends of a connection are up, neither of its counters has turned over and nobody
else uses the server's channel, no PUBLISH on it goes out under an identifier that a packet in
flight in its direction bears. -/
theorem publish_identifier_free {event : Event}
    (run : Run (step config) (Unwrapped connection) new events system)
    (up : system.Up connection) (unwrapped : Unwrapped connection system event) :
    (∀ publish ∈ sendsUp system connection event, ∀ id ∈ flowId publish,
        id ∉ (system.talk connection).uplink.inUse) ∧
      ∀ publish ∈ sendsDown system connection event, ∀ id ∈ flowId publish,
        id ∉ (system.talk connection).downlink.inUse := by
  have kept := run.invariant (preserves_kept config connection) (kept_new connection)
  have apart := apart_of_numbered kept.2 unwrapped
  exact ⟨fun publish sends => (apart.up up publish sends).2,
    fun publish sends => (apart.down up publish sends).2⟩

/-- The first flow of the relay is over when another message is sent. -/
theorem publish_identifier_free_again :
    let system := replay (step relayConfig) new
      (relay ++ [.client 2 (.request (.publish ⟨"t", [], .atLeastOnce, false⟩))])
    sendsUp system 2 (.client 2 (.enqueue 0)) =
        some ⟨"t", [], false, .atLeastOnce, false, some 2⟩ ∧
      2 ∉ (system.talk 2).uplink.inUse := by
  intro system
  have sends : sendsUp system 2 (.client 2 (.enqueue 0)) =
      some ⟨"t", [], false, .atLeastOnce, false, some 2⟩ := by decide +kernel
  have run : Run (step relayConfig) (Unwrapped 2) new _ system :=
    Follows.run (by decide +kernel)
  have up : system.Up 2 :=
    up_of_selecting (by decide +kernel) (by decide +kernel) (by decide +kernel)
      (by decide +kernel) (by decide +kernel)
  have unwrapped : Unwrapped 2 system (.client 2 (.enqueue 0)) := by decide +kernel
  exact ⟨sends, (publish_identifier_free run up unwrapped).1 _ sends _ rfl⟩

end System

end HotaruMqtt.Network
