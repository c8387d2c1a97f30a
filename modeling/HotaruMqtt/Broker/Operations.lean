import HotaruMqtt.Broker.State

/-!
# The broker's operations, each as a whole

`register_session`, `unregister_session`, `subscribe`, `unsubscribe` and
`publish` of `broker.rs`, run one at a time.  A snapshot lists its subscriptions
in the order in which the hash map iterates, which is not specified; each
operation that publishes is given that order.
-/

namespace HotaruMqtt.Broker

open Exec Exec.Outcome Topic

/-- The order in which a hash map happens to iterate. -/
structure IterationOrder where
  arrange : List (ClientId × QoS) → List (ClientId × QoS)
  perm : ∀ found, (arrange found).Perm found

/-- The order in which the model lists its tables. -/
def IterationOrder.listed : IterationOrder :=
  ⟨id, fun _ => .refl _⟩

/-! ## Publishing -/

/-- One pass of the fan-out loop. -/
def deliver (origin : Origin) (source : ClientId) (packet : PublishPacket) (broker : Broker)
    (sub : ClientId × QoS) : Broker :=
  if sub.1 = source then
    broker
  else
    match broker.sessions.lookup sub.1 with
    | none => broker
    | some entry => broker.enqueue origin packet entry.connection sub.2

/-- `publish` begins: the call is logged. -/
def announce (broker : Broker) (origin : Origin) (source : ClientId) (packet : PublishPacket) :
    Broker :=
  { broker with publications := broker.publications ++ [⟨origin, source, packet⟩] }

/-- `publish`: one snapshot of the matching subscriptions, then a copy for each of them in the
order the map is iterated. -/
def publish (broker : Broker) (order : IterationOrder) (origin : Origin) (source : ClientId)
    (packet : PublishPacket) : Broker :=
  let matching := order.arrange (broker.subscriptions.matching packet.topic)
  matching.foldl (deliver origin source packet) (broker.announce origin source packet)

/-- A Will has no source: the empty identifier stands for it. -/
def publishWill (broker : Broker) (order : IterationOrder) (connection : ConnectionId) :
    Option WillMessage → Broker
  | none => broker
  | some will => broker.publish order (.will connection) "" (willPacket will)

/-! ## Sessions -/

/-- The arguments of `register_session`. -/
structure Registration where
  client : ClientId
  connection : ConnectionId
  will : Option WillMessage
  cleanSession : Bool
  deriving DecidableEq, Repr

/-- The entry that `register_session` inserts; it starts without filters of its own. -/
def Registration.entry (registration : Registration) : SubscriberEntry :=
  ⟨registration.connection, ∅, registration.will, registration.cleanSession⟩

/-- `sessions.remove`: the entry of a client goes, whoever put it there. -/
def removeSession (broker : Broker) (client : ClientId) : Broker :=
  { broker with sessions := broker.sessions.erase client }

/-- `sessions.insert`: an entry that is there is replaced. -/
def insertSession (broker : Broker) (registration : Registration) : Broker :=
  { broker with sessions := broker.sessions.insert registration.client registration.entry }

/-- `remove_client`: the client is dropped from every filter of the tree. -/
def removeClient (broker : Broker) (client : ClientId) : Broker :=
  { broker with subscriptions := broker.subscriptions.removeClient client }

/-- The entry that `register_session` finds is ended: its channel is closed and its
Will published. -/
def takeOver (broker : Broker) (order : IterationOrder) : Option SubscriberEntry → Broker
  | some previous =>
      (broker.closeChannel previous.connection).publishWill order previous.connection
        previous.will
  | none => broker

/-- The answer is whether earlier state of the client was found and kept. -/
def registerSession (broker : Broker) (order : IterationOrder) (registration : Registration) :
    Bool × Broker :=
  let existing := broker.sessions.lookup registration.client
  let broker := broker.removeSession registration.client
  let sessionPresent := !registration.cleanSession && existing.isSome
  let broker := broker.takeOver order existing
  let broker :=
    if registration.cleanSession then broker.removeClient registration.client else broker
  (sessionPresent, broker.insertSession registration)

/-- The entry of a client, if it is the one of this connection. -/
def ownEntry (broker : Broker) (client : ClientId) (connection : ConnectionId) :
    Option SubscriberEntry :=
  (broker.sessions.lookup client).filter fun entry => entry.connection = connection

theorem ownEntry_eq_some {broker : Broker} {client : ClientId} {connection : ConnectionId}
    {entry : SubscriberEntry} :
    broker.ownEntry client connection = some entry ↔
      broker.sessions.lookup client = some entry ∧ entry.connection = connection := by
  simp [ownEntry, Option.filter_eq_some_iff]

/-- Only the registered connection finds the entry. -/
theorem ownEntry_eq_none {broker : Broker} {client : ClientId} {connection : ConnectionId} :
    broker.ownEntry client connection = none ↔
      (broker.sessions.lookup client).map SubscriberEntry.connection ≠ some connection := by
  unfold ownEntry
  cases broker.sessions.lookup client <;> simp

/-- `unregister_session`: only the entry of this very connection is removed; with it go the
client's subscriptions, and the Will is published unless the end was graceful. -/
def unregisterSession (broker : Broker) (order : IterationOrder) (client : ClientId)
    (connection : ConnectionId) (graceful : Bool) : Broker :=
  match broker.ownEntry client connection with
  | none => broker
  | some entry =>
      let broker := (broker.removeSession client).removeClient client
      if graceful then broker else broker.publishWill order connection entry.will

/-! ## Subscriptions -/

/-- Change the per-session filter table of the entry a call holds. -/
def withFilters (broker : Broker) (client : ClientId)
    (change : Table String QoS → Table String QoS) : Broker :=
  match broker.sessions.lookup client with
  | none => broker
  | some entry =>
      { broker with
        sessions := broker.sessions.insert client
          { entry with filters := change entry.filters } }

theorem subscriptions_withFilters (broker : Broker) (client : ClientId)
    (change : Table String QoS → Table String QoS) :
    (broker.withFilters client change).subscriptions = broker.subscriptions := by
  unfold withFilters
  split <;> rfl

/-- The tree's part of one granted filter. -/
def grant (broker : Broker) (client : ClientId) (wanted : TopicFilter) : Broker :=
  { broker with
    subscriptions := broker.subscriptions.subscribe client wanted.filter wanted.qos }

/-- The tree's part of one given-up filter. -/
def revoke (broker : Broker) (client : ClientId) (topic : String) : Broker :=
  { broker with subscriptions := broker.subscriptions.unsubscribe client topic }

/-- The loop of `subscribe`. -/
def grantAll (client : ClientId) : Broker → List TopicFilter → List SubackCode × Broker
  | broker, [] => ([], broker)
  | broker, wanted :: rest =>
      match validateSubscribeFilter wanted.filter with
      | .ok () =>
          let broker := broker.withFilters client fun filters =>
            filters.insert wanted.filter wanted.qos
          let (codes, broker) := grantAll client (broker.grant client wanted) rest
          (.granted wanted.qos :: codes, broker)
      | _ =>
          let (codes, broker) := grantAll client broker rest
          (.failure :: codes, broker)

/-- `subscribe`: a connection that no longer owns its client id is answered with failures
only, and changes nothing. -/
def subscribe (broker : Broker) (client : ClientId) (connection : ConnectionId)
    (filters : List TopicFilter) : List SubackCode × Broker :=
  match broker.ownEntry client connection with
  | none => (filters.map fun _ => .failure, broker)
  | some _ => grantAll client broker filters

/-- The loop of `unsubscribe`. -/
def revokeAll (client : ClientId) : Broker → List String → Broker
  | broker, [] => broker
  | broker, topic :: rest =>
      let broker := broker.withFilters client fun filters => filters.erase topic
      revokeAll client (broker.revoke client topic) rest

/-- `unsubscribe`: a connection that no longer owns its client id changes nothing. -/
def unsubscribe (broker : Broker) (client : ClientId) (connection : ConnectionId)
    (topics : List String) : Broker :=
  match broker.ownEntry client connection with
  | none => broker
  | some _ => revokeAll client broker topics

/-- What an operation returns. -/
inductive Response
  | registered (sessionPresent : Bool)
  | subscribed (codes : List SubackCode)
  | done
  deriving DecidableEq, Repr

/-! ## What the table accesses leave alone -/

/-- Only the two tables have changed. -/
structure OnlyTables (broker after : Broker) : Prop where
  channels : after.channels = broker.channels
  publications : after.publications = broker.publications
  deliveries : after.deliveries = broker.deliveries

theorem OnlyTables.trans {broker middle after : Broker} (first : OnlyTables broker middle)
    (second : OnlyTables middle after) : OnlyTables broker after :=
  ⟨second.channels.trans first.channels, second.publications.trans first.publications,
    second.deliveries.trans first.deliveries⟩

/-- After the takeover `register_session` changes only the tables. -/
theorem onlyTables_registerSession (broker : Broker) (order : IterationOrder)
    (registration : Registration) :
    OnlyTables ((broker.removeSession registration.client).takeOver order
        (broker.sessions.lookup registration.client))
      (broker.registerSession order registration).2 := by
  simp only [registerSession]
  split <;> exact ⟨rfl, rfl, rfl⟩

theorem onlyTables_withFilters (broker : Broker) (client : ClientId)
    (change : Table String QoS → Table String QoS) :
    OnlyTables broker (broker.withFilters client change) := by
  unfold withFilters
  split <;> exact ⟨rfl, rfl, rfl⟩

theorem onlyTables_grant (broker : Broker) (client : ClientId) (wanted : TopicFilter) :
    OnlyTables broker (broker.grant client wanted) :=
  ⟨rfl, rfl, rfl⟩

theorem onlyTables_revoke (broker : Broker) (client : ClientId) (topic : String) :
    OnlyTables broker (broker.revoke client topic) :=
  ⟨rfl, rfl, rfl⟩

theorem onlyTables_grantAll (client : ClientId) (filters : List TopicFilter) (broker : Broker) :
    OnlyTables broker (grantAll client broker filters).2 := by
  induction filters generalizing broker with
  | nil => exact ⟨rfl, rfl, rfl⟩
  | cons wanted rest ih =>
      unfold grantAll
      split
      · exact ((onlyTables_withFilters broker client _).trans
          (onlyTables_grant _ client wanted)).trans (ih _)
      · exact ih broker

theorem onlyTables_subscribe (broker : Broker) (client : ClientId) (connection : ConnectionId)
    (filters : List TopicFilter) :
    OnlyTables broker (broker.subscribe client connection filters).2 := by
  unfold subscribe
  split
  · exact ⟨rfl, rfl, rfl⟩
  · exact onlyTables_grantAll client filters broker

theorem onlyTables_revokeAll (client : ClientId) (topics : List String) (broker : Broker) :
    OnlyTables broker (revokeAll client broker topics) := by
  induction topics generalizing broker with
  | nil => exact ⟨rfl, rfl, rfl⟩
  | cons topic rest ih =>
      exact ((onlyTables_withFilters broker client _).trans
        (onlyTables_revoke _ client topic)).trans (ih _)

theorem onlyTables_unsubscribe (broker : Broker) (client : ClientId) (connection : ConnectionId)
    (topics : List String) : OnlyTables broker (broker.unsubscribe client connection topics) := by
  unfold unsubscribe
  split
  · exact ⟨rfl, rfl, rfl⟩
  · exact onlyTables_revokeAll client topics broker

end HotaruMqtt.Broker
