import HotaruMqtt.Broker.Store

/-!
# The two copies of the subscriptions

Which filters a client holds is kept twice: in the subscription tree, and in the
filter table of the client's session entry.  `subscribe` and `unsubscribe` write
both and `unregister_session` clears both.  `register_session` makes an entry
with an empty table, but clears the tree only for a clean session.

So the copies agree along a run exactly when no session is registered without
`clean_session` while the tree still holds filters of its client.
-/

namespace HotaruMqtt.Broker

open Exec Exec.Outcome Topic

variable {broker after : Broker} {client other : ClientId} {filter : String}

/-- The tree and the session entries hold the same subscriptions. -/
def Mirrored (broker : Broker) : Prop :=
  ∀ client filter qos, broker.subscriptions.granted filter client = some qos ↔
    ∃ entry, broker.sessions.lookup client = some entry ∧ entry.filters.lookup filter = some qos

/-- What the session entries say. -/
def held (broker : Broker) (client : ClientId) (filter : String) : Option QoS :=
  (broker.sessions.lookup client).bind fun entry => entry.filters.lookup filter

theorem mirrored_iff :
    broker.Mirrored ↔
      ∀ client filter, broker.subscriptions.granted filter client = broker.held client filter := by
  constructor
  · intro mirrored client filter
    apply Option.ext
    intro qos
    rw [mirrored client filter qos, held, Option.bind_eq_some_iff]
  · intro same client filter qos
    rw [same client filter, held, Option.bind_eq_some_iff]

theorem mirrored_new (channels : ConnectionId → MqttChannel) : (new channels).Mirrored :=
  mirrored_iff.mpr fun _ _ => SubscriptionTree.granted_new

/-! ## Operations that write both copies -/

theorem lookup_withFilters {entry : SubscriberEntry}
    (found : broker.sessions.lookup client = some entry)
    (change : Table String QoS → Table String QoS) :
    (broker.withFilters client change).sessions.lookup other =
      if other = client then some { entry with filters := change entry.filters }
      else broker.sessions.lookup other := by
  simp only [withFilters, found, Table.lookup_insert]

/-- The copies still agree after a change that is made to both. -/
theorem Mirrored.change {entry : SubscriberEntry} (mirrored : broker.Mirrored)
    (found : broker.sessions.lookup client = some entry)
    {change : Table String QoS → Table String QoS}
    (sessions : after.sessions = (broker.withFilters client change).sessions)
    (granted : ∀ other filter, after.subscriptions.granted filter other =
      if other = client then (change entry.filters).lookup filter
      else broker.subscriptions.granted filter other) :
    after.Mirrored := by
  refine mirrored_iff.mpr fun other filter => ?_
  rw [granted, held, sessions, lookup_withFilters found]
  split
  · rfl
  · exact mirrored_iff.mp mirrored other filter

/-- The entry of a registered client holds what the tree grants. -/
theorem Mirrored.lookup_filters {entry : SubscriberEntry} (mirrored : broker.Mirrored)
    (found : broker.sessions.lookup client = some entry) (filter : String) :
    entry.filters.lookup filter = broker.subscriptions.granted filter client := by
  rw [mirrored_iff.mp mirrored, held, found]
  rfl

theorem Mirrored.grant {entry : SubscriberEntry} (mirrored : broker.Mirrored)
    (found : broker.sessions.lookup client = some entry) (wanted : TopicFilter) :
    ((broker.withFilters client fun filters =>
      filters.insert wanted.filter wanted.qos).grant client wanted).Mirrored := by
  refine mirrored.change found rfl fun other filter => ?_
  simp only [Broker.grant, SubscriptionTree.granted_subscribe, subscriptions_withFilters,
    Table.lookup_insert, mirrored.lookup_filters found]
  by_cases same : other = client <;> simp [same]

theorem Mirrored.revoke {entry : SubscriberEntry} (mirrored : broker.Mirrored)
    (found : broker.sessions.lookup client = some entry) (topic : String) :
    ((broker.withFilters client fun filters => filters.erase topic).revoke client
      topic).Mirrored := by
  refine mirrored.change found rfl fun other filter => ?_
  simp only [Broker.revoke, SubscriptionTree.granted_unsubscribe, subscriptions_withFilters,
    Table.lookup_erase, mirrored.lookup_filters found]
  by_cases same : other = client <;> simp [same]

theorem Mirrored.grantAll (filters : List TopicFilter) (broker : Broker)
    (registered : ∃ entry, broker.sessions.lookup client = some entry)
    (mirrored : broker.Mirrored) : (Broker.grantAll client broker filters).2.Mirrored := by
  induction filters generalizing broker with
  | nil => exact mirrored
  | cons wanted rest ih =>
      obtain ⟨entry, found⟩ := registered
      unfold Broker.grantAll
      split
      · exact ih _ ⟨_, (lookup_withFilters found _).trans (if_pos rfl)⟩
          (mirrored.grant found wanted)
      · exact ih broker ⟨entry, found⟩ mirrored

theorem Mirrored.revokeAll (topics : List String) (broker : Broker)
    (registered : ∃ entry, broker.sessions.lookup client = some entry)
    (mirrored : broker.Mirrored) : (Broker.revokeAll client broker topics).Mirrored := by
  induction topics generalizing broker with
  | nil => exact mirrored
  | cons topic rest ih =>
      obtain ⟨entry, found⟩ := registered
      exact ih _ ⟨_, (lookup_withFilters found _).trans (if_pos rfl)⟩
        (mirrored.revoke found topic)

theorem Mirrored.subscribe (mirrored : broker.Mirrored) (client : ClientId)
    (connection : ConnectionId) (filters : List TopicFilter) :
    (broker.subscribe client connection filters).2.Mirrored := by
  unfold Broker.subscribe
  split
  · exact mirrored
  · rename_i entry own
    exact mirrored.grantAll filters broker ⟨entry, (ownEntry_eq_some.mp own).1⟩

theorem Mirrored.unsubscribe (mirrored : broker.Mirrored) (client : ClientId)
    (connection : ConnectionId) (topics : List String) :
    (broker.unsubscribe client connection topics).Mirrored := by
  unfold Broker.unsubscribe
  split
  · exact mirrored
  · rename_i entry own
    exact mirrored.revokeAll topics broker ⟨entry, (ownEntry_eq_some.mp own).1⟩

/-! ## Operations that end or begin a session -/

theorem Mirrored.congr (mirrored : broker.Mirrored) (same : SameTables broker after) :
    after.Mirrored := by
  unfold Mirrored
  rw [same.sessions, same.subscriptions]
  exact mirrored

/-- Removing a client's session and its filters removes it from both copies. -/
theorem Mirrored.remove (mirrored : broker.Mirrored) (client : ClientId) :
    ((broker.removeSession client).removeClient client).Mirrored := by
  refine mirrored_iff.mpr fun other filter => ?_
  simp only [removeClient, removeSession, held, SubscriptionTree.granted_removeClient,
    Table.lookup_erase]
  split
  · rfl
  · exact mirrored_iff.mp mirrored other filter

theorem Mirrored.unregisterSession (mirrored : broker.Mirrored) (order : IterationOrder)
    (client : ClientId) (connection : ConnectionId) (graceful : Bool) :
    (broker.unregisterSession order client connection graceful).Mirrored := by
  unfold Broker.unregisterSession
  split
  · exact mirrored
  · have removed := mirrored.remove client
    split
    · exact removed
    · exact removed.congr (sameTables_publishWill _ order connection _)

/-- What a registration leaves in the tree. -/
theorem granted_registerSession (order : IterationOrder) (registration : Registration) :
    (broker.registerSession order registration).2.subscriptions.granted filter other =
      if other = registration.client ∧ registration.cleanSession = true then none
      else broker.subscriptions.granted filter other := by
  have ended : ((broker.removeSession registration.client).takeOver order
      (broker.sessions.lookup registration.client)).subscriptions = broker.subscriptions :=
    (sameTables_takeOver _ order _).subscriptions
  simp only [registerSession, insertSession]
  cases registration.cleanSession with
  | true => simp [removeClient, ended]
  | false => simp [ended]

/-- What a registration leaves in the entries: that of the client is empty. -/
theorem held_registerSession (order : IterationOrder) (registration : Registration) :
    (broker.registerSession order registration).2.held other filter =
      if other = registration.client then none else broker.held other filter := by
  have ended : ((broker.removeSession registration.client).takeOver order
      (broker.sessions.lookup registration.client)).sessions =
        broker.sessions.erase registration.client :=
    (sameTables_takeOver _ order _).sessions
  simp only [registerSession, insertSession, held, Table.lookup_insert]
  by_cases own : other = registration.client
  · simp [own, Registration.entry]
  · cases registration.cleanSession <;> simp [own, removeClient, ended]

/-- A session that is to be kept is registered when the tree holds nothing of its
client. -/
def FreshRegistration (broker : Broker) : Operation → Prop
  | .register _ registration =>
      registration.cleanSession = true ∨
        ∀ filter, broker.subscriptions.granted filter registration.client = none
  | _ => True

/-- Where the copies agree, a registration keeps them so exactly when it is fresh. -/
theorem Mirrored.registerSession_iff (mirrored : broker.Mirrored) (order : IterationOrder)
    (registration : Registration) :
    (broker.registerSession order registration).2.Mirrored ↔
      broker.FreshRegistration (.register order registration) := by
  rw [mirrored_iff]
  simp only [granted_registerSession, held_registerSession]
  constructor
  · intro agree
    refine or_iff_not_imp_left.mpr fun kept filter => ?_
    simpa [kept] using agree registration.client filter
  · rintro fresh other filter
    by_cases own : other = registration.client
    · rcases fresh with clean | nothing
      · simp [own, clean]
      · simp [own, nothing filter]
    · simp [own, mirrored_iff.mp mirrored other filter]

/-- One operation: only a registration can make the copies differ. -/
theorem Mirrored.perform_iff (mirrored : broker.Mirrored) (operation : Operation) :
    (broker.perform operation).2.Mirrored ↔ broker.FreshRegistration operation := by
  cases operation with
  | register order registration => exact mirrored.registerSession_iff order registration
  | unregister order client connection graceful =>
      exact iff_of_true (mirrored.unregisterSession order client connection graceful) trivial
  | subscribe client connection filters =>
      exact iff_of_true (mirrored.subscribe client connection filters) trivial
  | unsubscribe client connection topics =>
      exact iff_of_true (mirrored.unsubscribe client connection topics) trivial
  | publish order source packet =>
      exact iff_of_true (mirrored.congr (sameTables_publish broker order _ _ _)) trivial

/-! ## Whole runs -/

/-- The property holds in every broker that a run passes through. -/
def Throughout (property : Broker → Prop) (broker : Broker) : List Operation → Prop
  | [] => property broker
  | operation :: operations =>
      property broker ∧ Throughout property (broker.perform operation).2 operations

/-- Every operation of a run meets the condition in the broker it is called on. -/
def EachMeets (meets : Broker → Operation → Prop) (broker : Broker) : List Operation → Prop
  | [] => True
  | operation :: operations =>
      meets broker operation ∧ EachMeets meets (broker.perform operation).2 operations

/-- If a property holds at the start and an operation keeps it exactly when it meets the
condition, it holds throughout a run exactly when every operation meets the condition. -/
theorem throughout_iff_eachMeets {property : Broker → Prop} {meets : Broker → Operation → Prop}
    (keeps_iff : ∀ {broker : Broker}, property broker → ∀ operation,
      property (broker.perform operation).2 ↔ meets broker operation)
    (holds : property broker) (operations : List Operation) :
    Throughout property broker operations ↔ EachMeets meets broker operations := by
  induction operations generalizing broker with
  | nil => exact iff_of_true holds trivial
  | cons operation operations ih =>
      constructor
      · rintro ⟨_, later⟩
        have next : property (broker.perform operation).2 := by
          cases operations with
          | nil => exact later
          | cons _ _ => exact later.1
        exact ⟨(keeps_iff holds operation).mp next, (ih next).mp later⟩
      · rintro ⟨met, later⟩
        have next := (keeps_iff holds operation).mpr met
        exact ⟨holds, (ih next).mpr later⟩

/-- From an empty broker the two copies agree in every state of a run exactly when
no session is registered to be kept while the tree holds filters of its client. -/
theorem subscription_copies_agree_iff (channels : ConnectionId → MqttChannel)
    (operations : List Operation) :
    Throughout Mirrored (Broker.new channels) operations ↔
      EachMeets FreshRegistration (Broker.new channels) operations :=
  throughout_iff_eachMeets Mirrored.perform_iff (mirrored_new channels) operations

/-- A client subscribes and connects again without `clean_session`: the tree keeps
the filter, the new entry does not have it. -/
theorem takeover_empties_one_copy :
    ¬ Throughout Mirrored (Broker.new fun _ => .new)
      [.register .listed ⟨"a", 1, none, false⟩, .subscribe "a" 1 [⟨"t", .atMostOnce⟩],
        .register .listed ⟨"a", 2, none, false⟩] := by
  intro throughout
  have agree := mirrored_iff.mp throughout.2.2.2 "a" "t"
  exact absurd agree (by decide +kernel)

end HotaruMqtt.Broker
