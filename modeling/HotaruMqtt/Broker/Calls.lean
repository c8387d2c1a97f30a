import HotaruMqtt.Broker.Operations

/-!
# Broker calls, access by access

The operations of the broker as they run beside each other.  A call is a program
counter with its local variables, and moves by one access of the shared maps at a
time.  `Access` says what a move does to the shared state, and `Call.step` which
move a call makes; it reads the shared state but changes it through the access
alone.

A hash map's `get` hands out a guard.  `subscribe` and `unsubscribe` hold the
guard of the session entry for their whole loop, and `publish` from the lookup of
a subscriber to the send.  A call `holds` that guard by where it stands, and while
it does, no call gets on that `needs` the place of the entry for itself.
-/

namespace HotaruMqtt.Broker

open Exec Exec.Outcome Topic

/-- The connection whose entry a client has. -/
def owner (broker : Broker) (client : ClientId) : Option ConnectionId :=
  (broker.sessions.lookup client).map SubscriberEntry.connection

/-- An entry that was inserted into `sessions`, with the subscriptions of the
client that it found and kept. -/
structure Stored where
  registration : Registration
  kept : List String
  deriving DecidableEq, Repr

/-- What the calls share.  `stored` lists the insertions into `sessions` and
`grants` the filters that were granted, both in their order; they are kept for
statements only. -/
structure Shared where
  broker : Broker
  stored : List Stored
  grants : List (ConnectionId × String)

/-! ## Accesses -/

/-- One access of the shared state. -/
inductive Access
  /-- Something is read, or nothing is accessed. -/
  | look
  /-- The entry of a client is removed from `sessions`. -/
  | take (client : ClientId)
  /-- An entry is inserted into `sessions`. -/
  | store (registration : Registration)
  | close (connection : ConnectionId)
  /-- `entry.filters.insert` and `entry.filters.remove`. -/
  | record (client : ClientId) (wanted : TopicFilter)
  | forget (client : ClientId) (topic : String)
  /-- The set of a filter is made. -/
  | openFilter (filter : String)
  /-- The client is put into the set of a filter. -/
  | link (client : ClientId) (connection : ConnectionId) (wanted : TopicFilter)
  /-- The client is dropped from the set of a filter. -/
  | unlink (client : ClientId) (filter : String)
  /-- `publish` takes its snapshot. -/
  | announce (publication : Publication)
  /-- A copy is sent. -/
  | deliver (publication : Publication) (target : ConnectionId) (subQos : QoS)

/-- The subscriptions that an insertion finds and keeps. -/
def Registration.keeps (registration : Registration) (tree : SubscriptionTree) : List String :=
  if registration.cleanSession then [] else tree.filtersOf registration.client

/-- What an access does to the shared state; `stored` and `grants` grow with the insertions
and the grants. -/
def Shared.apply (shared : Shared) : Access → Shared
  | .look => shared
  | .take client => { shared with broker := shared.broker.removeSession client }
  | .store registration =>
      { shared with
        broker := shared.broker.insertSession registration
        stored := shared.stored ++
          [⟨registration, registration.keeps shared.broker.subscriptions⟩] }
  | .close connection => { shared with broker := shared.broker.closeChannel connection }
  | .record client wanted =>
      { shared with
        broker := shared.broker.withFilters client fun filters =>
          filters.insert wanted.filter wanted.qos }
  | .forget client topic =>
      { shared with
        broker := shared.broker.withFilters client fun filters => filters.erase topic }
  | .openFilter filter =>
      { shared with
        broker := { shared.broker with
          subscriptions := shared.broker.subscriptions.openFilter filter } }
  | .link client connection wanted =>
      { shared with
        broker := shared.broker.grant client wanted
        grants := shared.grants ++ [(connection, wanted.filter)] }
  | .unlink client filter => { shared with broker := shared.broker.revoke client filter }
  | .announce publication =>
      { shared with
        broker := shared.broker.announce publication.origin publication.source
          publication.packet }
  | .deliver publication target subQos =>
      { shared with
        broker := shared.broker.enqueue publication.origin publication.packet target subQos }

/-! ## Calls -/

/-- What a call does after it has published, or after `remove_client`. -/
inductive Next
  /-- `register_session`: clear the subscriptions if the session is clean. -/
  | clear (registration : Registration) (present : Bool)
  /-- `register_session`: store the entry. -/
  | store (registration : Registration) (present : Bool)
  /-- `unregister_session`: publish the Will unless the end was graceful. -/
  | lastWill (connection : ConnectionId) (will : Option WillMessage) (graceful : Bool)
  /-- Nothing is left to do. -/
  | finish

/-- Where a call stands: the access it makes next, with its local variables. -/
inductive Call
  | remove (registration : Registration)
  | close (registration : Registration) (previous : SubscriberEntry)
  | wipe (client : ClientId) (next : Next)
  /-- `remove_client` is iterating: filters it has still to visit of those that
  were there at its start, and filters it has visited. -/
  | sweep (client : ClientId) (due seen : List String) (next : Next)
  | store (registration : Registration) (present : Bool)
  | removeIf (client : ClientId) (connection : ConnectionId) (graceful : Bool)
  | findSubscribe (client : ClientId) (connection : ConnectionId) (filters : List TopicFilter)
  | grant (client : ClientId) (connection : ConnectionId) (codes : List SubackCode)
      (rest : List TopicFilter)
  | openFilter (client : ClientId) (connection : ConnectionId) (codes : List SubackCode)
      (wanted : TopicFilter) (rest : List TopicFilter)
  | link (client : ClientId) (connection : ConnectionId) (codes : List SubackCode)
      (wanted : TopicFilter) (rest : List TopicFilter)
  | findUnsubscribe (client : ClientId) (connection : ConnectionId) (topics : List String)
  | revoke (client : ClientId) (connection : ConnectionId) (rest : List String)
  | unlink (client : ClientId) (connection : ConnectionId) (topic : String)
      (rest : List String)
  | snapshot (publication : Publication) (next : Next)
  | fanout (publication : Publication) (subs : List (ClientId × QoS)) (next : Next)
  | enqueue (publication : Publication) (client : ClientId) (target : ConnectionId)
      (subQos : QoS) (subs : List (ClientId × QoS)) (next : Next)
  | returned (response : Response)

/-- How a call goes on after it has published, or after `remove_client`. -/
def Next.resume : Next → Call
  | .clear registration present =>
      if registration.cleanSession then
        .wipe registration.client (.store registration present)
      else
        .store registration present
  | .store registration present => .store registration present
  | .lastWill connection (some will) false =>
      .snapshot ⟨.will connection, "", willPacket will⟩ .finish
  | .lastWill _ _ _ => .returned .done
  | .finish => .returned .done

/-- Publish a Will, if there is one, and go on. -/
def Call.publishWill (connection : ConnectionId) (next : Next) : Option WillMessage → Call
  | some will => .snapshot ⟨.will connection, "", willPacket will⟩ next
  | none => next.resume

/-- What is left open to a move: where an iteration goes next, and in which order
a snapshot lists what it found. -/
inductive Choice
  | go
  | visit (filter : String)
  | listed (subs : List (ClientId × QoS))
  deriving DecidableEq, Repr

/-- The client whose entry a call of `subscribe` or `unsubscribe` is working on. -/
def Call.edits : Call → Option ClientId
  | .grant client _ _ _ => some client
  | .openFilter client _ _ _ _ => some client
  | .link client _ _ _ _ => some client
  | .revoke client _ _ => some client
  | .unlink client _ _ _ => some client
  | _ => none

/-- The client whose subscriptions `remove_client` is dropping. -/
def Call.sweeps : Call → Option ClientId
  | .sweep client _ _ _ => some client
  | _ => none

/-- The registration whose entry a call is about to insert. -/
def Call.stores : Call → Option Registration
  | .store registration _ => some registration
  | _ => none

/-- The guard a call holds, by the client whose entry it is of. -/
def Call.holds : Call → Option ClientId
  | .enqueue _ client _ _ _ _ => some client
  | call => call.edits

/-- The place in `sessions` that a call's next move needs for itself. -/
def Call.needs : Call → Option ClientId
  | .remove registration => some registration.client
  | .store registration _ => some registration.client
  | .removeIf client _ _ => some client
  | _ => none

/-- The move of a call. -/
def Call.step (broker : Broker) : Call → Choice → Option (Access × Call)
  | .remove registration, .go =>
      match broker.sessions.lookup registration.client with
      | some previous => some (.take registration.client, .close registration previous)
      | none => some (.take registration.client, (Next.clear registration false).resume)
  | .close registration previous, .go =>
      some (.close previous.connection, .publishWill previous.connection
        (.clear registration !registration.cleanSession) previous.will)
  | .wipe client next, .go => some (.look, .sweep client broker.subscriptions.subs.keys [] next)
  | .sweep client due seen next, .visit filter =>
      if filter ∈ broker.subscriptions.subs.keys ∧ filter ∉ seen then
        some (.unlink client filter, .sweep client (due.erase filter) (filter :: seen) next)
      else
        none
  | .sweep _ [] _ next, .go => some (.look, next.resume)
  | .store registration present, .go =>
      some (.store registration, .returned (.registered present))
  | .removeIf client connection graceful, .go =>
      match broker.ownEntry client connection with
      | some entry => some (.take client, .wipe client (.lastWill connection entry.will graceful))
      | none => some (.look, .returned .done)
  | .findSubscribe client connection filters, .go =>
      match broker.ownEntry client connection with
      | some _ => some (.look, .grant client connection [] filters)
      | none => some (.look, .returned (.subscribed (filters.map fun _ => .failure)))
  | .grant client connection codes (wanted :: rest), .go =>
      match validateSubscribeFilter wanted.filter with
      | .ok () => some (.record client wanted, .openFilter client connection codes wanted rest)
      | _ => some (.look, .grant client connection (codes ++ [.failure]) rest)
  | .grant _ _ codes [], .go => some (.look, .returned (.subscribed codes))
  | .openFilter client connection codes wanted rest, .go =>
      some (.openFilter wanted.filter, .link client connection codes wanted rest)
  | .link client connection codes wanted rest, .go =>
      some (.link client connection wanted,
        .grant client connection (codes ++ [.granted wanted.qos]) rest)
  | .findUnsubscribe client connection topics, .go =>
      match broker.ownEntry client connection with
      | some _ => some (.look, .revoke client connection topics)
      | none => some (.look, .returned .done)
  | .revoke client connection (topic :: rest), .go =>
      some (.forget client topic, .unlink client connection topic rest)
  | .revoke _ _ [], .go => some (.look, .returned .done)
  | .unlink client connection topic rest, .go =>
      some (.unlink client topic, .revoke client connection rest)
  | .snapshot publication next, .listed subs =>
      if subs.Perm (broker.subscriptions.matching publication.packet.topic) then
        some (.announce publication, .fanout publication subs next)
      else
        none
  | .fanout publication (sub :: subs) next, .go =>
      if sub.1 = publication.source then
        some (.look, .fanout publication subs next)
      else
        match broker.sessions.lookup sub.1 with
        | some entry =>
            some (.look, .enqueue publication sub.1 entry.connection sub.2 subs next)
        | none => some (.look, .fanout publication subs next)
  | .fanout _ [] next, .go => some (.look, next.resume)
  | .enqueue publication _ target subQos subs next, .go =>
      some (.deliver publication target subQos, .fanout publication subs next)
  | _, _ => none

/-! ## What a move is -/

/-- The moves of calls, one constructor for each branch of `Call.step`. -/
inductive Call.Moves (broker : Broker) : Call → Access → Call → Prop
  | removeFound {registration : Registration} {previous : SubscriberEntry}
      (found : broker.sessions.lookup registration.client = some previous) :
      Moves broker (.remove registration) (.take registration.client)
        (.close registration previous)
  | removeVacant {registration : Registration}
      (vacant : broker.sessions.lookup registration.client = none) :
      Moves broker (.remove registration) (.take registration.client)
        (Next.clear registration false).resume
  | close {registration : Registration} {previous : SubscriberEntry} :
      Moves broker (.close registration previous) (.close previous.connection)
        (.publishWill previous.connection (.clear registration !registration.cleanSession)
          previous.will)
  | wipe {client : ClientId} {next : Next} :
      Moves broker (.wipe client next) .look
        (.sweep client broker.subscriptions.subs.keys [] next)
  | visit {client : ClientId} {due seen : List String} {next : Next} {filter : String} :
      Moves broker (.sweep client due seen next) (.unlink client filter)
        (.sweep client (due.erase filter) (filter :: seen) next)
  | swept {client : ClientId} {seen : List String} {next : Next} :
      Moves broker (.sweep client [] seen next) .look next.resume
  | store {registration : Registration} {present : Bool} :
      Moves broker (.store registration present) (.store registration)
        (.returned (.registered present))
  | removeOwn {client : ClientId} {connection : ConnectionId} {graceful : Bool}
      {entry : SubscriberEntry} (own : broker.ownEntry client connection = some entry) :
      Moves broker (.removeIf client connection graceful) (.take client)
        (.wipe client (.lastWill connection entry.will graceful))
  | removeNothing {client : ClientId} {connection : ConnectionId} {graceful : Bool}
      (foreign : broker.ownEntry client connection = none) :
      Moves broker (.removeIf client connection graceful) .look (.returned .done)
  | subscribeFound {client : ClientId} {connection : ConnectionId} {filters : List TopicFilter}
      {entry : SubscriberEntry} (own : broker.ownEntry client connection = some entry) :
      Moves broker (.findSubscribe client connection filters) .look
        (.grant client connection [] filters)
  | subscribeRefused {client : ClientId} {connection : ConnectionId} {filters : List TopicFilter}
      (foreign : broker.ownEntry client connection = none) :
      Moves broker (.findSubscribe client connection filters) .look
        (.returned (.subscribed (filters.map fun _ => .failure)))
  | grantValid {client : ClientId} {connection : ConnectionId} {codes : List SubackCode}
      {wanted : TopicFilter} {rest : List TopicFilter} :
      Moves broker (.grant client connection codes (wanted :: rest)) (.record client wanted)
        (.openFilter client connection codes wanted rest)
  | grantInvalid {client : ClientId} {connection : ConnectionId} {codes : List SubackCode}
      {wanted : TopicFilter} {rest : List TopicFilter} :
      Moves broker (.grant client connection codes (wanted :: rest)) .look
        (.grant client connection (codes ++ [.failure]) rest)
  | granted {client : ClientId} {connection : ConnectionId} {codes : List SubackCode} :
      Moves broker (.grant client connection codes []) .look (.returned (.subscribed codes))
  | openFilter {client : ClientId} {connection : ConnectionId} {codes : List SubackCode}
      {wanted : TopicFilter} {rest : List TopicFilter} :
      Moves broker (.openFilter client connection codes wanted rest) (.openFilter wanted.filter)
        (.link client connection codes wanted rest)
  | link {client : ClientId} {connection : ConnectionId} {codes : List SubackCode}
      {wanted : TopicFilter} {rest : List TopicFilter} :
      Moves broker (.link client connection codes wanted rest) (.link client connection wanted)
        (.grant client connection (codes ++ [.granted wanted.qos]) rest)
  | unsubscribeFound {client : ClientId} {connection : ConnectionId} {topics : List String}
      {entry : SubscriberEntry} (own : broker.ownEntry client connection = some entry) :
      Moves broker (.findUnsubscribe client connection topics) .look
        (.revoke client connection topics)
  | unsubscribeRefused {client : ClientId} {connection : ConnectionId} {topics : List String}
      (foreign : broker.ownEntry client connection = none) :
      Moves broker (.findUnsubscribe client connection topics) .look (.returned .done)
  | forget {client : ClientId} {connection : ConnectionId} {topic : String}
      {rest : List String} :
      Moves broker (.revoke client connection (topic :: rest)) (.forget client topic)
        (.unlink client connection topic rest)
  | revoked {client : ClientId} {connection : ConnectionId} :
      Moves broker (.revoke client connection []) .look (.returned .done)
  | unlink {client : ClientId} {connection : ConnectionId} {topic : String}
      {rest : List String} :
      Moves broker (.unlink client connection topic rest) (.unlink client topic)
        (.revoke client connection rest)
  | snapshot {publication : Publication} {subs : List (ClientId × QoS)} {next : Next}
      (listed : subs.Perm (broker.subscriptions.matching publication.packet.topic)) :
      Moves broker (.snapshot publication next) (.announce publication)
        (.fanout publication subs next)
  | skip {publication : Publication} {sub : ClientId × QoS} {subs : List (ClientId × QoS)}
      {next : Next}
      (skipped : sub.1 = publication.source ∨ broker.sessions.lookup sub.1 = none) :
      Moves broker (.fanout publication (sub :: subs) next) .look (.fanout publication subs next)
  | found {publication : Publication} {sub : ClientId × QoS} {subs : List (ClientId × QoS)}
      {next : Next} {entry : SubscriberEntry} (foreign : sub.1 ≠ publication.source)
      (found : broker.sessions.lookup sub.1 = some entry) :
      Moves broker (.fanout publication (sub :: subs) next) .look
        (.enqueue publication sub.1 entry.connection sub.2 subs next)
  | fanned {publication : Publication} {next : Next} :
      Moves broker (.fanout publication [] next) .look next.resume
  | enqueue {publication : Publication} {client : ClientId} {target : ConnectionId}
      {subQos : QoS} {subs : List (ClientId × QoS)} {next : Next} :
      Moves broker (.enqueue publication client target subQos subs next)
        (.deliver publication target subQos) (.fanout publication subs next)

variable {broker : Broker} {call next : Call} {access : Access} {choice : Choice}

theorem Call.moves_of_step (moved : call.step broker choice = some (access, next)) :
    Call.Moves broker call access next := by
  unfold Call.step at moved
  split at moved
  case h_1 =>
    split at moved <;> cases moved
    · exact .removeFound ‹_›
    · exact .removeVacant ‹_›
  case h_2 => cases moved; exact .close
  case h_3 => cases moved; exact .wipe
  case h_4 =>
    split at moved <;> cases moved
    exact .visit
  case h_5 => cases moved; exact .swept
  case h_6 => cases moved; exact .store
  case h_7 =>
    split at moved <;> cases moved
    · exact .removeOwn ‹_›
    · exact .removeNothing ‹_›
  case h_8 =>
    split at moved <;> cases moved
    · exact .subscribeFound ‹_›
    · exact .subscribeRefused ‹_›
  case h_9 =>
    split at moved <;> cases moved
    · exact .grantValid
    · exact .grantInvalid
  case h_10 => cases moved; exact .granted
  case h_11 => cases moved; exact .openFilter
  case h_12 => cases moved; exact .link
  case h_13 =>
    split at moved <;> cases moved
    · exact .unsubscribeFound ‹_›
    · exact .unsubscribeRefused ‹_›
  case h_14 => cases moved; exact .forget
  case h_15 => cases moved; exact .revoked
  case h_16 => cases moved; exact .unlink
  case h_17 =>
    split at moved <;> cases moved
    exact .snapshot ‹_›
  case h_18 =>
    split at moved
    · cases moved; exact .skip (.inl ‹_›)
    · split at moved <;> cases moved
      · exact .found ‹_› ‹_›
      · exact .skip (.inr ‹_›)
  case h_19 => cases moved; exact .fanned
  case h_20 => cases moved; exact .enqueue
  case h_21 => cases moved

/-! ## What an access changes -/

/-- The owners after an access. -/
def Access.onOwner (owner : ClientId → Option ConnectionId) :
    Access → ClientId → Option ConnectionId
  | .take client => Function.update owner client none
  | .store registration =>
      Function.update owner registration.client (some registration.connection)
  | _ => owner

/-- The granted subscriptions after an access. -/
def Access.onGranted (granted : String → ClientId → Option QoS) (filter : String)
    (client : ClientId) : Access → Option QoS
  | .link other _ wanted =>
      if filter = wanted.filter ∧ client = other then some wanted.qos else granted filter client
  | .unlink other dropped =>
      if filter = dropped ∧ client = other then none else granted filter client
  | _ => granted filter client

theorem owner_of_ownEntry {client : ClientId} {connection : ConnectionId}
    {entry : SubscriberEntry} (own : broker.ownEntry client connection = some entry) :
    broker.owner client = some connection := by
  rcases ownEntry_eq_some.mp own with ⟨found, rfl⟩
  rw [owner, found, Option.map_some]

theorem owner_withFilters (client : ClientId) (change : Table String QoS → Table String QoS) :
    (broker.withFilters client change).owner = broker.owner := by
  funext other
  unfold withFilters owner
  split
  · rfl
  · rename_i entry found
    simp only [Table.lookup_insert]
    split
    · rename_i same
      rw [same, found]
      rfl
    · rfl

theorem owner_eq_of_sessions {after : Broker} (same : after.sessions = broker.sessions) :
    after.owner = broker.owner := by
  funext client
  rw [owner, owner, same]

theorem owner_apply (shared : Shared) (access : Access) :
    (shared.apply access).broker.owner = access.onOwner shared.broker.owner := by
  cases access with
  | take client =>
      funext other
      simp only [Shared.apply, removeSession, owner, Table.lookup_erase, Access.onOwner,
        Function.update_apply]
      split <;> rfl
  | store registration =>
      funext other
      simp only [Shared.apply, insertSession, owner, Table.lookup_insert, Access.onOwner,
        Function.update_apply]
      split <;> rfl
  | record client _ | forget client _ => exact owner_withFilters client _
  | deliver publication target subQos =>
      exact owner_eq_of_sessions (enqueued_enqueue _ _ _ _ _).sessions
  | look | close | openFilter | link | unlink | announce => exact owner_eq_of_sessions rfl

theorem granted_apply (shared : Shared) (access : Access) (filter : String)
    (client : ClientId) :
    (shared.apply access).broker.subscriptions.granted filter client =
      access.onGranted shared.broker.subscriptions.granted filter client := by
  cases access with
  | record | forget => simp only [Shared.apply, subscriptions_withFilters, Access.onGranted]
  | openFilter visited =>
      simp only [Shared.apply, SubscriptionTree.granted_openFilter, Access.onGranted]
  | link other connection wanted =>
      simp only [Shared.apply, grant, SubscriptionTree.granted_subscribe, Access.onGranted]
  | unlink other dropped =>
      simp only [Shared.apply, revoke, SubscriptionTree.granted_unsubscribe, Access.onGranted]
  | deliver publication target subQos =>
      simp only [Shared.apply, Access.onGranted, (enqueued_enqueue _ _ _ _ _).subscriptions]
  | look | take | store | close | announce => rfl

/-- Which channels are open after an access. -/
def Access.onOpen (isOpen : ConnectionId → Bool) : Access → ConnectionId → Bool
  | .close connection => Function.update isOpen connection false
  | _ => isOpen

theorem isOpen_apply (shared : Shared) (access : Access) (connection : ConnectionId) :
    ((shared.apply access).broker.channels connection).isOpen =
      access.onOpen (fun connection => (shared.broker.channels connection).isOpen) connection := by
  cases access with
  | close closed =>
      simp only [Shared.apply, closeChannel, withChannel, Access.onOpen, Function.update_apply]
      split
      · exact MqttChannel.isOpen_close _
      · rfl
  | deliver publication target subQos => exact (enqueued_enqueue _ _ _ _ _).isOpen connection
  | record | forget =>
      simp only [Shared.apply, Access.onOpen, (onlyTables_withFilters _ _ _).channels]
  | look | take | store | openFilter | link | unlink | announce => rfl

/-- What an access does to a channel: close it, or send a copy on it. -/
theorem channel_apply (shared : Shared) (access : Access) (connection : ConnectionId) :
    (shared.apply access).broker.channels connection = shared.broker.channels connection ∨
      (access = .close connection ∧ (shared.apply access).broker.channels connection =
        (shared.broker.channels connection).close) ∨
      ∃ publication subQos, access = .deliver publication connection subQos ∧
        (shared.apply access).broker.channels connection =
          withCopy (shared.broker.channels connection) publication.packet subQos := by
  cases access with
  | close closed =>
      by_cases same : connection = closed
      · subst same
        exact .inr (.inl ⟨rfl, Function.update_self _ _ _⟩)
      · exact .inl (Function.update_of_ne same _ _)
  | deliver publication target subQos =>
      simp only [Shared.apply, channels_enqueue]
      by_cases same : connection = target
      · subst same
        exact .inr (.inr ⟨publication, subQos, rfl, Function.update_self _ _ _⟩)
      · exact .inl (Function.update_of_ne same _ _)
  | record | forget =>
      exact .inl (congrFun (onlyTables_withFilters _ _ _).channels connection)
  | look | take | store | openFilter | link | unlink | announce => exact .inl rfl

theorem mem_stored_apply {shared : Shared} {entry : Stored} :
    entry ∈ (shared.apply access).stored ↔ entry ∈ shared.stored ∨
      ∃ registration, access = .store registration ∧
        entry = ⟨registration, registration.keeps shared.broker.subscriptions⟩ := by
  cases access <;> simp [Shared.apply]

theorem mem_grants_apply {shared : Shared} {grant : ConnectionId × String} :
    grant ∈ (shared.apply access).grants ↔ grant ∈ shared.grants ∨
      ∃ client connection wanted, access = .link client connection wanted ∧
        grant = (connection, wanted.filter) := by
  cases access <;> simp [Shared.apply, eq_comm]

/-- What an access appends to the log of publications. -/
def Access.announced : Access → List Publication
  | .announce publication => [publication]
  | _ => []

theorem publications_apply (shared : Shared) (access : Access) :
    (shared.apply access).broker.publications =
      shared.broker.publications ++ access.announced := by
  cases access with
  | announce publication => rfl
  | deliver publication target subQos =>
      simp only [Shared.apply, Access.announced, List.append_nil,
        (enqueued_enqueue _ _ _ _ _).publications]
  | record | forget =>
      simp only [Shared.apply, Access.announced, List.append_nil,
        (onlyTables_withFilters _ _ _).publications]
  | look | take | store | close | openFilter | link | unlink =>
      exact (List.append_nil _).symm

/-- What an access appends to the log of deliveries. -/
theorem deliveries_apply (shared : Shared) (access : Access) :
    ∃ more, (shared.apply access).broker.deliveries = shared.broker.deliveries ++ more ∧
      ∀ delivery ∈ more, ∃ publication subQos,
        access = .deliver publication delivery.target subQos ∧
        delivery.origin = publication.origin ∧
        Copy publication.packet subQos delivery.packet := by
  cases access with
  | deliver publication target subQos =>
      rcases (enqueued_enqueue shared.broker publication.origin publication.packet target
        subQos).copied with ⟨copy, copies, -, deliveries⟩
      refine ⟨_, deliveries, fun delivery listed => ?_⟩
      split at listed
      · cases List.mem_singleton.mp listed
        exact ⟨publication, subQos, rfl, rfl, copies⟩
      · contradiction
  | record | forget =>
      refine ⟨[], ?_, nofun⟩
      simp only [Shared.apply, List.append_nil, (onlyTables_withFilters _ _ _).deliveries]
  | look | take | store | close | openFilter | link | unlink | announce =>
      exact ⟨[], (List.append_nil _).symm, nofun⟩

/-- A client gains an owner only by an insertion. -/
theorem Access.onOwner_eq_some {owner : ClientId → Option ConnectionId} {client : ClientId}
    {connection : ConnectionId} (owned : access.onOwner owner client = some connection) :
    owner client = some connection ∨ ∃ registration, access = .store registration ∧
      registration.client = client ∧ registration.connection = connection := by
  cases access with
  | take taken =>
      simp only [Access.onOwner, Function.update_apply] at owned
      split at owned
      · contradiction
      · exact .inl owned
  | store registration =>
      simp only [Access.onOwner, Function.update_apply] at owned
      split at owned
      · exact .inr ⟨registration, rfl, Eq.symm ‹_›, Option.some.inj owned⟩
      · exact .inl owned
  | look | close | record | forget | openFilter | link | unlink | announce | deliver =>
      exact .inl owned

/-- A move leaves the owner of a client alone whose place it does not need. -/
theorem Call.Moves.onOwner_of_needs_ne {owner : ClientId → Option ConnectionId}
    {client : ClientId} (moves : Call.Moves broker call access next)
    (elsewhere : call.needs ≠ some client) : access.onOwner owner client = owner client := by
  cases moves <;> simp only [Access.onOwner]
  all_goals
    apply Function.update_of_ne
    rintro rfl
    exact elsewhere rfl

/-- A call that works on an entry holds its guard. -/
theorem Call.holds_of_edits {client : ClientId} (edits : call.edits = some client) :
    call.holds = some client := by
  cases call <;> first | exact edits | contradiction

@[simp]
theorem Next.holds_resume (next : Next) : next.resume.holds = none := by
  unfold Next.resume
  split
  · split <;> rfl
  all_goals rfl

@[simp]
theorem Call.holds_publishWill (connection : ConnectionId) (next : Next)
    (will : Option WillMessage) : (Call.publishWill connection next will).holds = none := by
  cases will with
  | none => exact Next.holds_resume next
  | some _ => rfl

/-- A copy is about to be sent to the connection that owns the client. -/
theorem Call.Moves.enqueueing {publication : Publication} {client : ClientId}
    {target : ConnectionId} {subQos : QoS} {subs : List (ClientId × QoS)} {resumed : Next}
    (moves : Call.Moves broker call access next)
    (enqueues : next = .enqueue publication client target subQos subs resumed) :
    call = .fanout publication ((client, subQos) :: subs) resumed ∧ access = .look ∧
      client ≠ publication.source ∧ broker.owner client = some target := by
  have holds : next.holds = some client := by rw [enqueues]; rfl
  cases moves with
  | found foreign found =>
      cases enqueues
      exact ⟨rfl, rfl, foreign, by rw [owner, found, Option.map_some]⟩
  | removeVacant | close | swept | fanned => simp at holds
  | _ => contradiction

/-- A channel is about to be closed because its entry was found and removed. -/
theorem Call.Moves.closing {registration : Registration} {previous : SubscriberEntry}
    (moves : Call.Moves broker call access next) (closes : next = .close registration previous) :
    call = .remove registration ∧ access = .take registration.client ∧
      broker.owner registration.client = some previous.connection := by
  have resumes : ∀ resumed : Next, resumed.resume ≠ .close registration previous := by
    intro resumed
    unfold Next.resume
    split
    · split <;> simp
    all_goals simp
  cases moves with
  | removeFound found =>
      cases closes
      exact ⟨rfl, rfl, by rw [owner, found, Option.map_some]⟩
  | removeVacant | swept | fanned => exact absurd closes (resumes _)
  | close =>
      rename_i replaced earlier
      cases will : earlier.will with
      | none =>
          rw [will] at closes
          exact absurd closes (resumes (.clear replaced !replaced.cleanSession))
      | some _ =>
          rw [will] at closes
          contradiction
  | _ => contradiction

end HotaruMqtt.Broker
