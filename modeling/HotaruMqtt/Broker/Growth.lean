import HotaruMqtt.Broker.Subscribing

/-!
# How the subscription tree grows

`subscribe` makes the set of clients of a filter when there is none.  `unsubscribe` and
`remove_client` take clients out of the sets and never drop a set, so a filter that has
been granted once is a key of the tree for good.  The keys stay bounded by the live
subscriptions along a run exactly when no operation takes the last subscriber of a filter.
-/

namespace HotaruMqtt.Broker

open Exec Exec.Outcome Topic

/-! ## The keys of the tree -/

namespace SubscriptionTree

variable {tree : SubscriptionTree} {client : ClientId} {filter visited : String} {qos : QoS}

theorem mem_subs_subscribe :
    filter ∈ (tree.subscribe client visited qos).subs ↔ filter = visited ∨ filter ∈ tree.subs :=
  AList.mem_insert _

/-- A set that loses its last client stays. -/
@[simp]
theorem mem_subs_unsubscribe :
    filter ∈ (tree.unsubscribe client visited).subs ↔ filter ∈ tree.subs := by
  unfold unsubscribe
  split
  · rename_i set found
    have present : visited ∈ tree.subs := AList.lookup_isSome.mp (by rw [found]; rfl)
    rw [AList.mem_insert]
    constructor
    · rintro (rfl | kept)
      · exact present
      · exact kept
    · exact .inr
  · rfl

@[simp]
theorem mem_subs_removeClient : filter ∈ (tree.removeClient client).subs ↔ filter ∈ tree.subs := by
  have visits : ∀ (filters : List String) (tree : SubscriptionTree),
      filter ∈ (filters.foldl (fun tree visited => tree.unsubscribe client visited) tree).subs ↔
        filter ∈ tree.subs := by
    intro filters
    induction filters with
    | nil => exact fun _ => Iff.rfl
    | cons visited rest ih => exact fun tree => (ih _).trans mem_subs_unsubscribe
  exact visits _ tree

end SubscriptionTree

variable {broker : Broker} {client : ClientId} {filter : String}

/-- The filter is the one that is wanted, and it is accepted. -/
def Grants (wanted : TopicFilter) (filter : String) : Prop :=
  wanted.filter = filter ∧ validateSubscribeFilter filter = ok ()

theorem grants_iff_of_accepted {wanted : TopicFilter}
    (accepted : validateSubscribeFilter wanted.filter = ok ()) :
    Grants wanted filter ↔ filter = wanted.filter := by
  constructor
  · exact fun grants => grants.1.symm
  · rintro rfl
    exact ⟨rfl, accepted⟩

theorem not_grants_of_rejected {wanted : TopicFilter}
    (rejected : validateSubscribeFilter wanted.filter ≠ ok ()) : ¬ Grants wanted filter := by
  rintro ⟨rfl, accepted⟩
  exact rejected accepted

theorem mem_subs_grantOne (broker : Broker) (wanted : TopicFilter) :
    filter ∈ (grantOne client broker wanted).subscriptions.subs ↔
      Grants wanted filter ∨ filter ∈ broker.subscriptions.subs := by
  unfold grantOne
  split
  · rename_i accepted
    rw [Broker.grant, SubscriptionTree.mem_subs_subscribe, subscriptions_withFilters,
      grants_iff_of_accepted accepted]
  · rename_i rejected
    exact (or_iff_right (not_grants_of_rejected rejected)).symm

theorem mem_subs_foldl_grantOne (filters : List TopicFilter) (broker : Broker) :
    filter ∈ (filters.foldl (grantOne client) broker).subscriptions.subs ↔
      (∃ wanted ∈ filters, Grants wanted filter) ∨ filter ∈ broker.subscriptions.subs := by
  induction filters generalizing broker with
  | nil => simp
  | cons wanted rest ih =>
      rw [List.foldl_cons, ih, mem_subs_grantOne, List.exists_mem_cons_iff, or_assoc,
        or_left_comm]

theorem mem_subs_foldl_revokeOne (topics : List String) (broker : Broker) :
    filter ∈ (topics.foldl (revokeOne client) broker).subscriptions.subs ↔
      filter ∈ broker.subscriptions.subs := by
  induction topics generalizing broker with
  | nil => exact Iff.rfl
  | cons topic rest ih =>
      rw [List.foldl_cons, ih, revokeOne, Broker.revoke, SubscriptionTree.mem_subs_unsubscribe,
        subscriptions_withFilters]

/-! ## Operations -/

/-- The filters that an operation granted, read off its answer. -/
def grantedBy : Operation × Response → List String
  | (.subscribe _ _ filters, .subscribed codes) =>
      (filters.zip codes).filterMap fun
        | (wanted, .granted _) => some wanted.filter
        | (_, .failure) => none
  | _ => []

theorem mem_grantedBy_subscribe {connection : ConnectionId} (filters : List TopicFilter) :
    filter ∈ grantedBy (.subscribe client connection filters, .subscribed (filters.map codeOf)) ↔
      ∃ wanted ∈ filters, Grants wanted filter := by
  induction filters with
  | nil => simp [grantedBy]
  | cons wanted rest ih =>
      rw [List.exists_mem_cons_iff, ← ih]
      by_cases accepted : validateSubscribeFilter wanted.filter = ok ()
      · have first : grantedBy (.subscribe client connection (wanted :: rest),
              .subscribed ((wanted :: rest).map codeOf)) =
            wanted.filter :: grantedBy (.subscribe client connection rest,
              .subscribed (rest.map codeOf)) := by
          simp [grantedBy, codeOf, accepted]
        rw [first, List.mem_cons, grants_iff_of_accepted accepted]
      · have skipped : grantedBy (.subscribe client connection (wanted :: rest),
              .subscribed ((wanted :: rest).map codeOf)) =
            grantedBy (.subscribe client connection rest, .subscribed (rest.map codeOf)) := by
          simp [grantedBy, codeOf, accepted]
        rw [skipped, or_iff_right (not_grants_of_rejected accepted)]

theorem grantedBy_failures {connection : ConnectionId} (filters : List TopicFilter) :
    grantedBy (.subscribe client connection filters,
      .subscribed (filters.map fun _ => .failure)) = [] := by
  induction filters with
  | nil => rfl
  | cons wanted rest ih => exact ih

/-- An operation adds the filters that it grants to the keys and removes none. -/
theorem mem_subs_perform (broker : Broker) (operation : Operation) :
    filter ∈ (broker.perform operation).2.subscriptions.subs ↔
      filter ∈ grantedBy (operation, (broker.perform operation).1) ∨
        filter ∈ broker.subscriptions.subs := by
  cases operation with
  | register order registration =>
      have ended : ((broker.removeSession registration.client).takeOver order
          (broker.sessions.lookup registration.client)).subscriptions = broker.subscriptions :=
        (sameTables_takeOver _ order _).subscriptions
      simp only [perform, registerSession, insertSession, grantedBy, List.not_mem_nil, false_or]
      split
      · rw [removeClient, SubscriptionTree.mem_subs_removeClient, ended]
      · rw [ended]
  | unregister order client connection graceful =>
      simp only [perform, unregisterSession, grantedBy, List.not_mem_nil, false_or]
      split
      · rfl
      · split
        · exact SubscriptionTree.mem_subs_removeClient
        · rw [(sameTables_publishWill _ order connection _).subscriptions]
          exact SubscriptionTree.mem_subs_removeClient
  | subscribe client connection filters =>
      by_cases own : (broker.sessions.lookup client).map SubscriberEntry.connection =
          some connection
      · simp only [perform, subscribe_eq own, mem_grantedBy_subscribe]
        exact mem_subs_foldl_grantOne filters broker
      · simp only [perform, subscribe, ownEntry_eq_none.mpr own, grantedBy_failures,
          List.not_mem_nil, false_or]
  | unsubscribe client connection topics =>
      simp only [perform, grantedBy, List.not_mem_nil, false_or]
      by_cases own : (broker.sessions.lookup client).map SubscriberEntry.connection =
          some connection
      · rw [unsubscribe_eq own]
        exact mem_subs_foldl_revokeOne topics broker
      · rw [unsubscribe, ownEntry_eq_none.mpr own]
  | publish order source packet =>
      simp only [perform, grantedBy, List.not_mem_nil, false_or]
      rw [(sameTables_publish broker order _ source packet).subscriptions]

/-! ## Who holds a filter -/

/-- The client holds the filter. -/
def SubscriptionTree.Holds (tree : SubscriptionTree) (filter : String) (client : ClientId) :
    Prop :=
  ∃ qos, tree.granted filter client = some qos

/-- Every filter of the tree has a subscriber. -/
def SubscriptionTree.Bounded (tree : SubscriptionTree) : Prop :=
  ∀ filter ∈ tree.subs, ∃ client qos, tree.granted filter client = some qos

/-- The operation takes the filter from the client, if the client holds it.  A clean
registration and the end of a session take every filter of the client, `unsubscribe` takes
those that it names; the last two do nothing for a connection that does not own the
session. -/
def Takes (broker : Broker) (operation : Operation) (client : ClientId) (filter : String) :
    Prop :=
  match operation with
  | .register _ registration => client = registration.client ∧ registration.cleanSession = true
  | .unregister _ leaving connection _ =>
      client = leaving ∧ (broker.ownEntry leaving connection).isSome
  | .unsubscribe leaving connection topics =>
      client = leaving ∧ filter ∈ topics ∧ (broker.ownEntry leaving connection).isSome
  | .subscribe .. | .publish .. => False

/-- The operation takes from nobody a filter that no other client holds. -/
def SparesLast (broker : Broker) (operation : Operation) : Prop :=
  ∀ client filter, broker.Takes operation client filter →
    broker.subscriptions.Holds filter client →
      ∃ other, other ≠ client ∧ broker.subscriptions.Holds filter other

namespace SubscriptionTree

variable {tree after : SubscriptionTree} {client other : ClientId} {filter : String}

theorem mem_subs_of_holds (holds : tree.Holds filter client) : filter ∈ tree.subs := by
  obtain ⟨qos, granted⟩ := holds
  by_contra missing
  rw [granted_eq_none_of_not_mem missing] at granted
  contradiction

/-- Who holds a filter in a tree that has lost subscriptions. -/
theorem holds_iff_of_granted {taken : Prop} [Decidable taken]
    (granted : after.granted filter client =
      if taken then none else tree.granted filter client) :
    after.Holds filter client ↔ tree.Holds filter client ∧ ¬ taken := by
  unfold Holds
  rw [granted]
  split
  · rename_i lost
    simp [lost]
  · rename_i kept
    simp [kept]

/-- A tree that loses subscriptions of one client and no key stays bounded exactly when
another client holds each filter that is lost. -/
theorem Bounded.loses_iff (bounded : tree.Bounded) {taken : ClientId → String → Prop}
    (sole : ∀ {first second filter}, taken first filter → taken second filter → first = second)
    (keys : ∀ filter, filter ∈ after.subs ↔ filter ∈ tree.subs)
    (holds : ∀ client filter,
      after.Holds filter client ↔ tree.Holds filter client ∧ ¬ taken client filter) :
    after.Bounded ↔ ∀ client filter, taken client filter → tree.Holds filter client →
      ∃ other, other ≠ client ∧ tree.Holds filter other := by
  constructor
  · intro stays client filter lost held
    obtain ⟨other, still⟩ := stays filter ((keys filter).mpr (mem_subs_of_holds held))
    obtain ⟨before, kept⟩ := (holds other filter).mp still
    refine ⟨other, ?_, before⟩
    rintro rfl
    exact kept lost
  · intro spared filter key
    obtain ⟨client, held⟩ := bounded filter ((keys filter).mp key)
    by_cases lost : taken client filter
    · obtain ⟨other, differs, before⟩ := spared client filter lost held
      exact ⟨other, (holds other filter).mpr ⟨before, fun also => differs (sole also lost)⟩⟩
    · exact ⟨client, (holds client filter).mpr ⟨held, lost⟩⟩

end SubscriptionTree

section Holders

variable {other : ClientId} {connection : ConnectionId} {operation : Operation}

theorem Takes.sole {first second : ClientId} (one : broker.Takes operation first filter)
    (also : broker.Takes operation second filter) : first = second := by
  cases operation with
  | register | unregister | unsubscribe => exact one.1.trans also.1.symm
  | subscribe | publish => exact one.elim

theorem holds_registerSession (order : IterationOrder) (registration : Registration) :
    (broker.registerSession order registration).2.subscriptions.Holds filter client ↔
      broker.subscriptions.Holds filter client ∧
        ¬ broker.Takes (.register order registration) client filter := by
  unfold Takes
  exact SubscriptionTree.holds_iff_of_granted (granted_registerSession order registration)

theorem holds_unregisterSession (order : IterationOrder) (leaving : ClientId)
    (connection : ConnectionId) (graceful : Bool) :
    (broker.unregisterSession order leaving connection graceful).subscriptions.Holds filter
        client ↔
      broker.subscriptions.Holds filter client ∧
        ¬ broker.Takes (.unregister order leaving connection graceful) client filter := by
  have removed : (broker.subscriptions.removeClient leaving).Holds filter client ↔
      broker.subscriptions.Holds filter client ∧ ¬ client = leaving :=
    SubscriptionTree.holds_iff_of_granted SubscriptionTree.granted_removeClient
  unfold unregisterSession
  split
  · rename_i stranger
    simp [Takes, stranger]
  · rename_i entry own
    simp only [Takes, own, Option.isSome_some, and_true]
    split
    · exact removed
    · rw [(sameTables_publishWill _ order connection _).subscriptions]
      exact removed

theorem holds_unsubscribe (leaving : ClientId) (connection : ConnectionId)
    (topics : List String) :
    (broker.unsubscribe leaving connection topics).subscriptions.Holds filter client ↔
      broker.subscriptions.Holds filter client ∧
        ¬ broker.Takes (.unsubscribe leaving connection topics) client filter := by
  unfold unsubscribe
  split
  · rename_i stranger
    simp [Takes, stranger]
  · rename_i entry own
    simp only [Takes, own, Option.isSome_some, and_true]
    rw [revokeAll_eq]
    have registered : broker.HasEntry leaving := ⟨entry, (ownEntry_eq_some.mp own).1⟩
    exact SubscriptionTree.holds_iff_of_granted
      ((tableReading_tree leaving).foldl_revokeOne topics broker registered)

theorem holds_grantOne (broker : Broker) (wanted : TopicFilter) :
    (grantOne client broker wanted).subscriptions.Holds filter other ↔
      Grants wanted filter ∧ other = client ∨ broker.subscriptions.Holds filter other := by
  unfold grantOne
  split
  · rename_i accepted
    rw [SubscriptionTree.Holds, Broker.grant, SubscriptionTree.granted_subscribe,
      subscriptions_withFilters, grants_iff_of_accepted accepted]
    split
    · rename_i granted
      simp [granted]
    · rename_i ungranted
      exact (or_iff_right ungranted).symm
  · rename_i rejected
    exact (or_iff_right fun granted => not_grants_of_rejected rejected granted.1).symm

theorem holds_foldl_grantOne (filters : List TopicFilter) (broker : Broker) :
    (filters.foldl (grantOne client) broker).subscriptions.Holds filter other ↔
      (∃ wanted ∈ filters, Grants wanted filter) ∧ other = client ∨
        broker.subscriptions.Holds filter other := by
  induction filters generalizing broker with
  | nil => simp
  | cons wanted rest ih =>
      rw [List.foldl_cons, ih, holds_grantOne, List.exists_mem_cons_iff, or_and_right, or_assoc,
        or_left_comm]

/-- `subscribe` gives each filter that it makes a key of to its own client. -/
theorem SubscriptionTree.Bounded.subscribe (bounded : broker.subscriptions.Bounded)
    (client : ClientId) (connection : ConnectionId) (filters : List TopicFilter) :
    (broker.subscribe client connection filters).2.subscriptions.Bounded := by
  unfold Broker.subscribe
  split
  · exact bounded
  · rw [grantAll_eq]
    intro filter key
    rcases (mem_subs_foldl_grantOne filters broker).mp key with granted | earlier
    · exact ⟨client, (holds_foldl_grantOne filters broker).mpr (.inl ⟨granted, rfl⟩)⟩
    · obtain ⟨other, held⟩ := bounded filter earlier
      exact ⟨other, (holds_foldl_grantOne filters broker).mpr (.inr held)⟩

end Holders

/-- Where every key has a subscriber, an operation keeps it so exactly when it spares the
last subscriber of each filter. -/
theorem SubscriptionTree.Bounded.perform_iff {broker : Broker}
    (bounded : broker.subscriptions.Bounded) (operation : Operation) :
    (broker.perform operation).2.subscriptions.Bounded ↔ broker.SparesLast operation := by
  have keys : grantedBy (operation, (broker.perform operation).1) = [] → ∀ filter,
      filter ∈ (broker.perform operation).2.subscriptions.subs ↔
        filter ∈ broker.subscriptions.subs := by
    intro nothing filter
    rw [mem_subs_perform, nothing]
    exact or_iff_right List.not_mem_nil
  cases operation with
  | register order registration =>
      exact bounded.loses_iff Takes.sole (keys rfl) fun _ _ =>
        holds_registerSession order registration
  | unregister order client connection graceful =>
      exact bounded.loses_iff Takes.sole (keys rfl) fun _ _ =>
        holds_unregisterSession order client connection graceful
  | unsubscribe client connection topics =>
      exact bounded.loses_iff Takes.sole (keys rfl) fun _ _ =>
        holds_unsubscribe client connection topics
  | subscribe client connection filters =>
      refine iff_of_true (bounded.subscribe client connection filters) ?_
      rintro _ _ ⟨⟩
  | publish order source packet =>
      have stays : (broker.perform (.publish order source packet)).2.subscriptions.Bounded := by
        rw [perform, (sameTables_publish broker order _ source packet).subscriptions]
        exact bounded
      refine iff_of_true stays ?_
      rintro _ _ ⟨⟩

/-! ## Whole runs -/

/-- The filters that were granted in the course of a run. -/
def everGranted (broker : Broker) (operations : List Operation) : List String :=
  (broker.transcript operations).flatMap grantedBy

theorem mem_subs_performAll (operations : List Operation) (broker : Broker) :
    filter ∈ (broker.performAll operations).subscriptions.subs ↔
      filter ∈ broker.everGranted operations ∨ filter ∈ broker.subscriptions.subs := by
  induction operations generalizing broker with
  | nil => simp [performAll, everGranted, transcript]
  | cons operation operations ih =>
      rw [performAll, ih, mem_subs_perform, everGranted, everGranted, transcript,
        List.flatMap_cons, List.mem_append, or_assoc, or_left_comm]

theorem bounded_new (channels : ConnectionId → MqttChannel) :
    (Broker.new channels).subscriptions.Bounded :=
  fun _ key => absurd key List.not_mem_nil

/-- From an empty broker, every key of the tree has a subscriber in every state of a run
exactly when no operation of the run takes a filter from the last client that holds it.
The keys are at all times the filters that were ever granted, so whatever the clients still
hold at the end the tree is empty exactly when none was ever granted. -/
theorem tree_bounded_iff (channels : ConnectionId → MqttChannel)
    (operations : List Operation) :
    let tree := ((Broker.new channels).performAll operations).subscriptions
    let granted := (Broker.new channels).everGranted operations
    (Throughout (fun broker => broker.subscriptions.Bounded) (Broker.new channels) operations ↔
        EachMeets SparesLast (Broker.new channels) operations) ∧
      (∀ filter, filter ∈ tree.subs ↔ filter ∈ granted) ∧
      (tree.subs.keys = [] ↔ granted = []) := by
  intro tree granted
  have keys : ∀ filter, filter ∈ tree.subs ↔ filter ∈ granted := by
    intro filter
    refine (mem_subs_performAll operations _).trans (or_iff_left ?_)
    exact List.not_mem_nil
  refine ⟨?_, keys, ?_⟩
  · exact throughout_iff_eachMeets SubscriptionTree.Bounded.perform_iff (bounded_new channels)
      operations
  · rw [List.eq_nil_iff_forall_not_mem, List.eq_nil_iff_forall_not_mem]
    exact forall_congr' fun filter => not_congr (keys filter)

-- a client may give up a filter that another one holds
example : EachMeets SparesLast (Broker.new fun _ => .new)
    [.register .listed ⟨"a", 1, none, false⟩, .subscribe "a" 1 [⟨"t", .atMostOnce⟩],
      .register .listed ⟨"b", 2, none, false⟩, .subscribe "b" 2 [⟨"t", .atMostOnce⟩],
      .unsubscribe "a" 1 ["t"]] := by
  refine ⟨?_, ?_, ?_, ?_, ?_, trivial⟩
  · rintro _ _ ⟨_, ⟨⟩⟩
  · rintro _ _ ⟨⟩
  · rintro _ _ ⟨_, ⟨⟩⟩
  · rintro _ _ ⟨⟩
  · rintro client filter ⟨rfl, named, _⟩ _
    obtain rfl := List.mem_singleton.mp named
    exact ⟨"b", by decide, .atMostOnce, by decide +kernel⟩

/-- A client that subscribes, unsubscribes and leaves leaves a filter behind that nobody
holds. -/
theorem unsubscribed_filter_stays :
    let tree := ((Broker.new fun _ => .new).performAll
      [.register .listed ⟨"c", 1, none, true⟩, .subscribe "c" 1 [⟨"t", .atMostOnce⟩],
        .unsubscribe "c" 1 ["t"], .unregister .listed "c" 1 true]).subscriptions
    "t" ∈ tree.subs ∧ (∀ client, tree.granted "t" client = none) ∧ ¬ tree.Bounded := by
  intro tree
  have present : "t" ∈ tree.subs := by decide +kernel
  have empty : tree.clients "t" = ∅ := AList.ext (by decide +kernel)
  have vacant : ∀ client, tree.granted "t" client = none := by
    intro client
    rw [SubscriptionTree.granted, empty]
    rfl
  refine ⟨present, vacant, fun bounded => ?_⟩
  obtain ⟨client, qos, held⟩ := bounded "t" present
  rw [vacant client] at held
  cases held

end HotaruMqtt.Broker
