import HotaruMqtt.Broker.Mirror

/-!
# SUBSCRIBE is decided filter by filter

The loop of `subscribe` validates each filter of its list and writes an accepted one into
both tables.  A later occurrence writes over an earlier one and a rejected filter writes
nothing, so each table ends with the QoS of the last occurrence and is otherwise as it was.
`unsubscribe` takes its topics out of both.
-/

namespace HotaruMqtt.Broker

open Exec Exec.Outcome Topic

variable {broker : Broker} {client other : ClientId} {connection : ConnectionId}
  {filter : String}

/-- What a filter is answered with. -/
def codeOf (wanted : TopicFilter) : SubackCode :=
  if validateSubscribeFilter wanted.filter = ok () then .granted wanted.qos else .failure

/-- One pass of the loop of `subscribe`. -/
def grantOne (client : ClientId) (broker : Broker) (wanted : TopicFilter) : Broker :=
  if validateSubscribeFilter wanted.filter = ok () then
    (broker.withFilters client fun filters =>
      filters.insert wanted.filter wanted.qos).grant client wanted
  else
    broker

/-- One pass of the loop of `unsubscribe`. -/
def revokeOne (client : ClientId) (broker : Broker) (topic : String) : Broker :=
  (broker.withFilters client fun filters => filters.erase topic).revoke client topic

theorem grantAll_eq (client : ClientId) (broker : Broker) (filters : List TopicFilter) :
    grantAll client broker filters =
      (filters.map codeOf, filters.foldl (grantOne client) broker) := by
  induction filters generalizing broker with
  | nil => rfl
  | cons wanted rest ih =>
      rw [grantAll, List.map_cons, List.foldl_cons, codeOf, grantOne]
      split
      · rename_i accepted
        rw [if_pos accepted, if_pos accepted]
        dsimp only
        rw [ih]
      · rename_i rejected
        rw [if_neg rejected, if_neg rejected, ih]

theorem revokeAll_eq (client : ClientId) (broker : Broker) (topics : List String) :
    revokeAll client broker topics = topics.foldl (revokeOne client) broker := by
  induction topics generalizing broker with
  | nil => rfl
  | cons topic rest ih => exact ih _

/-! ## The entry of the client stays -/

/-- Somebody is registered under the client id. -/
def HasEntry (broker : Broker) (client : ClientId) : Prop :=
  ∃ entry, broker.sessions.lookup client = some entry

theorem connection_withFilters (broker : Broker) (client : ClientId)
    (change : Table String QoS → Table String QoS) :
    ((broker.withFilters client change).sessions.lookup other).map SubscriberEntry.connection =
      (broker.sessions.lookup other).map SubscriberEntry.connection := by
  cases found : broker.sessions.lookup client with
  | none => simp only [withFilters, found]
  | some entry =>
      rw [lookup_withFilters found]
      split
      · rename_i same
        rw [same, found]
        rfl
      · rfl

theorem connection_grantOne (broker : Broker) (client : ClientId) (wanted : TopicFilter) :
    ((grantOne client broker wanted).sessions.lookup other).map SubscriberEntry.connection =
      (broker.sessions.lookup other).map SubscriberEntry.connection := by
  unfold grantOne
  split
  · exact connection_withFilters broker client _
  · rfl

theorem hasEntry_iff_connection :
    broker.HasEntry client ↔
      ((broker.sessions.lookup client).map SubscriberEntry.connection).isSome := by
  rw [HasEntry, Option.isSome_map, Option.isSome_iff_exists]

theorem connection_foldl_grantOne (filters : List TopicFilter) (broker : Broker) :
    ((filters.foldl (grantOne client) broker).sessions.lookup other).map
        SubscriberEntry.connection =
      (broker.sessions.lookup other).map SubscriberEntry.connection := by
  induction filters generalizing broker with
  | nil => rfl
  | cons wanted rest ih => exact (ih _).trans (connection_grantOne broker client wanted)

/-! ## The two tables -/

/-- One of the two tables of subscriptions, by how the passes of the loops write it. -/
structure TableReading (client : ClientId)
    (read : Broker → ClientId → String → Option QoS) : Prop where
  granted : ∀ {broker : Broker}, broker.HasEntry client → ∀ {wanted : TopicFilter},
    validateSubscribeFilter wanted.filter = ok () → ∀ other filter,
      read (grantOne client broker wanted) other filter =
        if other = client ∧ filter = wanted.filter then some wanted.qos
        else read broker other filter
  revoked : ∀ {broker : Broker}, broker.HasEntry client → ∀ topic other filter,
    read (revokeOne client broker topic) other filter =
      if other = client ∧ filter = topic then none else read broker other filter

theorem tableReading_tree (client : ClientId) :
    TableReading client fun broker other filter =>
      broker.subscriptions.granted filter other where
  granted _ wanted accepted other filter := by
    simp only [grantOne, if_pos accepted, Broker.grant, SubscriptionTree.granted_subscribe,
      subscriptions_withFilters, and_comm]
  revoked _ topic other filter := by
    simp only [revokeOne, Broker.revoke, SubscriptionTree.granted_unsubscribe,
      subscriptions_withFilters, and_comm]

/-- Changing the filters of an entry changes what is held under its client id. -/
theorem held_withFilters {entry : SubscriberEntry}
    (found : broker.sessions.lookup client = some entry)
    (change : Table String QoS → Table String QoS) :
    (broker.withFilters client change).held other filter =
      if other = client then (change entry.filters).lookup filter
      else broker.held other filter := by
  rw [held, lookup_withFilters found]
  split <;> rfl

theorem held_self {entry : SubscriberEntry}
    (found : broker.sessions.lookup client = some entry) (filter : String) :
    broker.held client filter = entry.filters.lookup filter := by
  rw [held, found]
  rfl

theorem tableReading_held (client : ClientId) : TableReading client Broker.held where
  granted registered wanted accepted other filter := by
    obtain ⟨entry, found⟩ := registered
    rw [grantOne, if_pos accepted]
    refine (held_withFilters found _).trans ?_
    by_cases same : other = client
    · subst same
      rw [if_pos rfl, Table.lookup_insert, held_self found]
      simp
    · simp [same]
  revoked registered topic other filter := by
    obtain ⟨entry, found⟩ := registered
    refine (held_withFilters found _).trans ?_
    by_cases same : other = client
    · subst same
      rw [if_pos rfl, Table.lookup_erase, held_self found]
      simp
    · simp [same]

/-! ## The loops -/

theorem HasEntry.grantOne (registered : broker.HasEntry client) (wanted : TopicFilter) :
    (grantOne client broker wanted).HasEntry client := by
  rwa [hasEntry_iff_connection, connection_grantOne, ← hasEntry_iff_connection]

theorem HasEntry.foldl_grantOne (registered : broker.HasEntry client)
    (filters : List TopicFilter) :
    (filters.foldl (Broker.grantOne client) broker).HasEntry client := by
  rwa [hasEntry_iff_connection, connection_foldl_grantOne, ← hasEntry_iff_connection]

theorem HasEntry.revokeOne (registered : broker.HasEntry client) (topic : String) :
    (revokeOne client broker topic).HasEntry client := by
  have kept : ((Broker.revokeOne client broker topic).sessions.lookup client).map
      SubscriberEntry.connection = _ := connection_withFilters broker client _
  rwa [hasEntry_iff_connection, kept, ← hasEntry_iff_connection]

namespace TableReading

variable {read : Broker → ClientId → String → Option QoS}

/-- A pair that no accepted filter of the list names is as it was. -/
theorem foldl_grantOne_of_other (reading : TableReading client read)
    (filters : List TopicFilter) (broker : Broker) (registered : broker.HasEntry client)
    (unnamed : ∀ wanted ∈ filters, validateSubscribeFilter wanted.filter = ok () →
      ¬ (other = client ∧ filter = wanted.filter)) :
    read (filters.foldl (grantOne client) broker) other filter = read broker other filter := by
  induction filters generalizing broker with
  | nil => rfl
  | cons wanted rest ih =>
      have later := ih _ (registered.grantOne wanted) fun other listed =>
        unnamed other (List.mem_cons_of_mem _ listed)
      refine later.trans ?_
      by_cases accepted : validateSubscribeFilter wanted.filter = ok ()
      · rw [reading.granted registered accepted,
          if_neg (unnamed wanted List.mem_cons_self accepted)]
      · rw [grantOne, if_neg accepted]

/-- The last occurrence of an accepted filter decides. -/
theorem foldl_grantOne_of_last (reading : TableReading client read)
    (registered : broker.HasEntry client) (front : List TopicFilter) {wanted : TopicFilter}
    (accepted : validateSubscribeFilter wanted.filter = ok ()) {back : List TopicFilter}
    (last : ∀ later ∈ back, later.filter ≠ wanted.filter) :
    read ((front ++ wanted :: back).foldl (grantOne client) broker) client wanted.filter =
      some wanted.qos := by
  have reached := registered.foldl_grantOne front
  rw [List.foldl_append, List.foldl_cons,
    reading.foldl_grantOne_of_other back _ (reached.grantOne wanted) fun later listed _ same =>
      last later listed same.2.symm,
    reading.granted reached accepted, if_pos ⟨rfl, rfl⟩]

theorem foldl_revokeOne (reading : TableReading client read) (topics : List String)
    (broker : Broker) (registered : broker.HasEntry client) :
    read (topics.foldl (revokeOne client) broker) other filter =
      if other = client ∧ filter ∈ topics then none else read broker other filter := by
  induction topics generalizing broker with
  | nil => simp
  | cons topic rest ih =>
      rw [List.foldl_cons, ih _ (registered.revokeOne topic), reading.revoked registered]
      by_cases same : other = client <;> by_cases named : filter ∈ rest <;>
        by_cases here : filter = topic <;> simp [same, named, here]

end TableReading

/-! ## The two operations -/

/-- What `subscribe` leaves in one of the two tables. -/
structure Subscribed (read : Broker → ClientId → String → Option QoS) (broker after : Broker)
    (client : ClientId) (filters : List TopicFilter) : Prop where
  /-- An accepted filter is held with the QoS of its last occurrence. -/
  last : ∀ {front wanted back}, filters = front ++ wanted :: back →
    (∀ later ∈ back, later.filter ≠ wanted.filter) →
    validateSubscribeFilter wanted.filter = ok () →
    read after client wanted.filter = some wanted.qos
  others : ∀ {other filter}, (other = client → ∀ wanted ∈ filters, wanted.filter = filter →
    validateSubscribeFilter filter ≠ ok ()) → read after other filter = read broker other filter

theorem subscribe_eq (own : (broker.sessions.lookup client).map SubscriberEntry.connection =
    some connection) (filters : List TopicFilter) :
    broker.subscribe client connection filters =
      (filters.map codeOf, filters.foldl (grantOne client) broker) := by
  obtain ⟨entry, found, same⟩ := Option.map_eq_some_iff.mp own
  rw [subscribe, ownEntry_eq_some.mpr ⟨found, same⟩, grantAll_eq]

theorem unsubscribe_eq (own : (broker.sessions.lookup client).map SubscriberEntry.connection =
    some connection) (topics : List String) :
    broker.unsubscribe client connection topics = topics.foldl (revokeOne client) broker := by
  obtain ⟨entry, found, same⟩ := Option.map_eq_some_iff.mp own
  rw [unsubscribe, ownEntry_eq_some.mpr ⟨found, same⟩, revokeAll_eq]

theorem TableReading.subscribed {read : Broker → ClientId → String → Option QoS}
    (reading : TableReading client read) (registered : broker.HasEntry client)
    (filters : List TopicFilter) :
    Subscribed read broker (filters.foldl (grantOne client) broker) client filters where
  last split last accepted := by
    rw [split]
    exact reading.foldl_grantOne_of_last registered _ accepted last
  others unnamed := by
    refine reading.foldl_grantOne_of_other filters broker registered ?_
    rintro wanted listed accepted ⟨same, rfl⟩
    exact unnamed same wanted listed rfl accepted

/-- In every broker, for the connection that is registered: the codes answer the filters in
order, the two tables hold the last QoS of each accepted filter and are otherwise as they
were, and `unsubscribe` takes the pairs of its topics out of both and nothing else. -/
theorem subscribe_decided_by_filter
    (own : (broker.sessions.lookup client).map SubscriberEntry.connection = some connection)
    (filters : List TopicFilter) :
    let answered := broker.subscribe client connection filters
    answered.1 = filters.map codeOf ∧
      Subscribed (fun broker other filter => broker.subscriptions.granted filter other)
        broker answered.2 client filters ∧
      Subscribed Broker.held broker answered.2 client filters ∧
      ∀ topics other filter,
        let later := answered.2.unsubscribe client connection topics
        later.subscriptions.granted filter other =
            (if other = client ∧ filter ∈ topics then none
              else answered.2.subscriptions.granted filter other) ∧
          later.held other filter =
            if other = client ∧ filter ∈ topics then none else answered.2.held other filter := by
  have registered : broker.HasEntry client :=
    hasEntry_iff_connection.mpr (by rw [own]; rfl)
  rw [subscribe_eq own]
  refine ⟨rfl, (tableReading_tree client).subscribed registered filters,
    (tableReading_held client).subscribed registered filters, fun topics other filter => ?_⟩
  have reached := registered.foldl_grantOne filters
  have owned : ((filters.foldl (grantOne client) broker).sessions.lookup client).map
      SubscriberEntry.connection = some connection :=
    (connection_foldl_grantOne filters broker).trans own
  rw [unsubscribe_eq owned]
  exact ⟨(tableReading_tree client).foldl_revokeOne topics _ reached,
    (tableReading_held client).foldl_revokeOne topics _ reached⟩

/-- A filter that comes twice around one that is rejected. -/
def wantedTwice : List TopicFilter :=
  [⟨"t", .atMostOnce⟩, ⟨"a/#/b", .atMostOnce⟩, ⟨"t", .exactlyOnce⟩]

theorem subscribe_decided_by_filter_twice :
    let broker := ((Broker.new fun _ => .new).registerSession .listed ⟨"c", 1, none, true⟩).2
    let answered := broker.subscribe "c" 1 wantedTwice
    answered.1 = [.granted .atMostOnce, .failure, .granted .exactlyOnce] ∧
      answered.2.subscriptions.granted "t" "c" = some .exactlyOnce ∧
      answered.2.held "c" "t" = some .exactlyOnce ∧
      answered.2.held "c" "a/#/b" = broker.held "c" "a/#/b" ∧
      (answered.2.unsubscribe "c" 1 ["t"]).held "c" "t" = none := by
  intro broker answered
  have own : (broker.sessions.lookup "c").map SubscriberEntry.connection = some 1 := rfl
  have accepted : validateSubscribeFilter "t" = ok () := by decide +kernel
  have rejected : validateSubscribeFilter "a/#/b" ≠ ok () := by decide +kernel
  have split : wantedTwice =
      [⟨"t", .atMostOnce⟩, ⟨"a/#/b", .atMostOnce⟩] ++ ⟨"t", .exactlyOnce⟩ :: [] := rfl
  obtain ⟨codes, tree, entries, later⟩ := subscribe_decided_by_filter own wantedTwice
  refine ⟨codes.trans (by decide +kernel), tree.last split (by simp) accepted,
    entries.last split (by simp) accepted, entries.others fun _ _ _ _ => rejected, ?_⟩
  exact (later ["t"] "c" "t").2.trans (if_pos ⟨rfl, by simp⟩)

end HotaruMqtt.Broker
