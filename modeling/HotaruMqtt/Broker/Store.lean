import HotaruMqtt.Broker.Fanout

/-!
# The broker as a publish/subscribe store

What the broker is for, as an abstract store: which connection holds each client
id, and which filters are granted to each client id.  A run of whole operations
moves the store by the operation and its answer alone.  The broker refines it,
and what an operation sends is read off the store.
-/

namespace HotaruMqtt.Broker

open Exec Exec.Outcome Topic

/-- A call of one of the broker's operations. -/
inductive Operation
  | register (order : IterationOrder) (registration : Registration)
  | unregister (order : IterationOrder) (client : ClientId) (connection : ConnectionId)
      (graceful : Bool)
  | subscribe (client : ClientId) (connection : ConnectionId) (filters : List TopicFilter)
  | unsubscribe (client : ClientId) (connection : ConnectionId) (topics : List String)
  | publish (order : IterationOrder) (source : ClientId) (packet : PublishPacket)

/-- One operation on its own, without others beside it. -/
def perform (broker : Broker) : Operation → Response × Broker
  | .register order registration =>
      let (present, broker) := broker.registerSession order registration
      (.registered present, broker)
  | .unregister order client connection graceful =>
      (.done, broker.unregisterSession order client connection graceful)
  | .subscribe client connection filters =>
      let (codes, broker) := broker.subscribe client connection filters
      (.subscribed codes, broker)
  | .unsubscribe client connection topics =>
      (.done, broker.unsubscribe client connection topics)
  | .publish order source packet => (.done, broker.publish order .direct source packet)

/-- The broker after a run of operations. -/
def performAll (broker : Broker) : List Operation → Broker
  | [] => broker
  | operation :: operations => (broker.perform operation).2.performAll operations

/-- A run as it is seen from outside: each operation with its answer. -/
def transcript (broker : Broker) : List Operation → List (Operation × Response)
  | [] => []
  | operation :: operations =>
      (operation, (broker.perform operation).1) ::
        (broker.perform operation).2.transcript operations

/-- The connection that an operation registers. -/
def Operation.registers : Operation → Option ConnectionId
  | .register _ registration => some registration.connection
  | _ => none

/-- No connection registers twice. -/
def RegistersOnce (operations : List Operation) : Prop :=
  (operations.filterMap Operation.registers).Nodup

instance (operations : List Operation) : Decidable (RegistersOnce operations) :=
  inferInstanceAs (Decidable (List.Nodup _))

/-! ## The abstract store -/

/-- Who holds a client id: the connection, and the Will it registered with. -/
structure Holder where
  connection : ConnectionId
  will : Option WillMessage
  deriving DecidableEq, Repr

/-- What the broker is for: who holds each client id, and at which level each client is
subscribed to which filter. -/
structure Store where
  registered : ClientId → Option Holder
  granted : ClientId → String → Option QoS

namespace Store

/-- Nobody is registered or subscribed. -/
def empty : Store :=
  ⟨fun _ => none, fun _ _ => none⟩

/-- The connection holds the client id. -/
def Owns (store : Store) (client : ClientId) (connection : ConnectionId) : Prop :=
  (store.registered client).map Holder.connection = some connection

instance (store : Store) (client : ClientId) (connection : ConnectionId) :
    Decidable (store.Owns client connection) :=
  inferInstanceAs (Decidable (_ = _))

/-- Nobody holds the client id any more. -/
def vacate (store : Store) (client : ClientId) : Store :=
  { store with registered := Function.update store.registered client none }

/-- The client gives up all its filters. -/
def clear (store : Store) (client : ClientId) : Store :=
  { store with granted := Function.update store.granted client fun _ => none }

/-- Set the filters that were answered with a grant. -/
def answered (held : String → Option QoS) :
    List TopicFilter → List SubackCode → String → Option QoS
  | wanted :: rest, .granted qos :: codes =>
      answered (Function.update held wanted.filter (some qos)) rest codes
  | _ :: rest, .failure :: codes => answered held rest codes
  | _, _ => held

/-- A refused subscribe grants nothing. -/
theorem answered_failures (held : String → Option QoS) (filters : List TopicFilter) :
    answered held filters (filters.map fun _ => .failure) = held := by
  induction filters with
  | nil => rfl
  | cons wanted rest ih => exact ih

/-- The store moves by an operation and its answer. -/
def step (store : Store) : Operation × Response → Store
  | (.register _ registration, _) =>
      let store := if registration.cleanSession then store.clear registration.client else store
      { store with
        registered := Function.update store.registered registration.client
          (some ⟨registration.connection, registration.will⟩) }
  | (.unregister _ client connection _, _) =>
      if store.Owns client connection then (store.vacate client).clear client else store
  | (.subscribe client _ filters, .subscribed codes) =>
      { store with
        granted := Function.update store.granted client
          (answered (store.granted client) filters codes) }
  | (.unsubscribe client connection topics, _) =>
      if store.Owns client connection then
        { store with
          granted := Function.update store.granted client fun filter =>
            if filter ∈ topics then none else store.granted client filter }
      else
        store
  | _ => store

/-- The store after all of a transcript. -/
def run (store : Store) (transcript : List (Operation × Response)) : Store :=
  transcript.foldl step store

/-- A packet that is published, with the store it is published in. -/
structure Announcement where
  store : Store
  source : ClientId
  packet : PublishPacket

/-- What an operation publishes: its packet, or the Will of the connection it
ends.  A takeover publishes when the client id is vacant and nothing is cleared
yet; an unregistration when both are done. -/
def announces (store : Store) : Operation → Option Announcement
  | .register _ registration => do
      let holder ← store.registered registration.client
      let will ← holder.will
      return ⟨store.vacate registration.client, "", willPacket will⟩
  | .unregister _ client connection graceful => do
      let holder ← store.registered client
      let will ← holder.will
      if holder.connection = connection ∧ graceful = false then
        return ⟨(store.vacate client).clear client, "", willPacket will⟩
      else
        none
  | .publish _ source packet => some ⟨store, source, packet⟩
  | _ => none

/-- What a connection is to receive of an announced packet: one copy for each
matching filter of the client it holds, and nothing if it holds none or holds
the source. -/
structure Announcement.Offers (announcement : Announcement) (connection : ConnectionId)
    (offered : List PublishPacket) : Prop where
  copies : ∀ client, announcement.store.Owns client connection → client ≠ announcement.source →
    ∃ filters : List String, filters.Nodup ∧
      (∀ filter, filter ∈ filters ↔ (announcement.store.granted client filter).isSome ∧
        Matches filter announcement.packet.topic) ∧
      List.Forall₂ (fun filter copy => ∃ qos,
        announcement.store.granted client filter = some qos ∧
          Copy announcement.packet qos copy) filters offered
  elsewhere : (∀ client, announcement.store.Owns client connection →
    client = announcement.source) → offered = []

end Store

/-! ## Refinement -/

/-- What the store says of an entry. -/
def SubscriberEntry.holder (entry : SubscriberEntry) : Holder :=
  ⟨entry.connection, entry.will⟩

/-- The broker's tables hold what the store says. -/
structure Refines (broker : Broker) (store : Store) : Prop where
  registered : ∀ client,
    store.registered client = (broker.sessions.lookup client).map SubscriberEntry.holder
  granted : ∀ client filter,
    store.granted client filter = broker.subscriptions.granted filter client

namespace Refines

variable {broker after : Broker} {store : Store} {client : ClientId}

theorem congr (refines : Refines broker store) (same : SameTables broker after) :
    Refines after store :=
  ⟨same.sessions ▸ refines.registered, same.subscriptions ▸ refines.granted⟩

theorem owns_iff (refines : Refines broker store) {connection : ConnectionId} :
    store.Owns client connection ↔
      (broker.sessions.lookup client).map SubscriberEntry.connection = some connection := by
  rw [Store.Owns, refines.registered, Option.map_map]
  rfl

theorem ownEntry_eq_none (refines : Refines broker store) {connection : ConnectionId}
    (stale : ¬ store.Owns client connection) : broker.ownEntry client connection = none :=
  Broker.ownEntry_eq_none.mpr (mt refines.owns_iff.mpr stale)

theorem exists_ownEntry (refines : Refines broker store) {connection : ConnectionId}
    (owns : store.Owns client connection) :
    ∃ entry, broker.sessions.lookup client = some entry ∧ entry.connection = connection ∧
      broker.ownEntry client connection = some entry := by
  rcases Option.map_eq_some_iff.mp (refines.owns_iff.mp owns) with ⟨entry, found, own⟩
  exact ⟨entry, found, own, ownEntry_eq_some.mpr ⟨found, own⟩⟩

theorem removeSession (refines : Refines broker store) (client : ClientId) :
    Refines (broker.removeSession client) (store.vacate client) := by
  refine ⟨fun other => ?_, refines.granted⟩
  simp only [Store.vacate, Broker.removeSession, Function.update_apply, Table.lookup_erase]
  split
  · rfl
  · exact refines.registered other

theorem insertSession (refines : Refines broker store) (registration : Registration) :
    Refines (broker.insertSession registration)
      { store with
        registered := Function.update store.registered registration.client
          (some ⟨registration.connection, registration.will⟩) } := by
  refine ⟨fun other => ?_, refines.granted⟩
  simp only [Broker.insertSession, Function.update_apply, Table.lookup_insert]
  split
  · rfl
  · exact refines.registered other

theorem removeClient (refines : Refines broker store) (client : ClientId) :
    Refines (broker.removeClient client) (store.clear client) := by
  refine ⟨refines.registered, fun other filter => ?_⟩
  simp only [Store.clear, Broker.removeClient, Function.update_apply,
    SubscriptionTree.granted_removeClient]
  split
  · rfl
  · exact refines.granted other filter

theorem withFilters (refines : Refines broker store) (client : ClientId)
    (change : Table String QoS → Table String QoS) :
    Refines (broker.withFilters client change) store := by
  unfold Broker.withFilters
  split
  · exact refines
  · rename_i entry found
    refine ⟨fun other => ?_, refines.granted⟩
    rw [Table.lookup_insert, refines.registered]
    split
    · rename_i same
      rw [same, found]
      rfl
    · rfl

/-- Refinement after a change to the filters of one client. -/
theorem updateGranted (refines : Refines broker store) {held : String → Option QoS}
    (sessions : after.sessions = broker.sessions)
    (changed : ∀ other filter, after.subscriptions.granted filter other =
      if other = client then held filter else broker.subscriptions.granted filter other) :
    Refines after { store with granted := Function.update store.granted client held } := by
  refine ⟨sessions ▸ refines.registered, fun other filter => ?_⟩
  simp only [changed, Function.update_apply]
  split
  · rfl
  · exact refines.granted other filter

/-- The subscribe loop leaves the filters its answers grant. -/
theorem grantAll (client : ClientId) (filters : List TopicFilter) (broker : Broker)
    (store : Store) (refines : Refines broker store) :
    Refines (Broker.grantAll client broker filters).2
      { store with
        granted := Function.update store.granted client
          (Store.answered (store.granted client) filters
            (Broker.grantAll client broker filters).1) } := by
  induction filters generalizing broker store with
  | nil => simpa [Broker.grantAll, Store.answered] using refines
  | cons wanted rest ih =>
      unfold Broker.grantAll
      split
      · have recorded := refines.withFilters client fun filters =>
          filters.insert wanted.filter wanted.qos
        have held : Refines ((broker.withFilters client fun filters =>
              filters.insert wanted.filter wanted.qos).grant client wanted)
            { store with
              granted := Function.update store.granted client
                (Function.update (store.granted client) wanted.filter (some wanted.qos)) } := by
          refine recorded.updateGranted rfl fun other filter => ?_
          simp only [Broker.grant, SubscriptionTree.granted_subscribe, Function.update_apply,
            recorded.granted]
          by_cases same : other = client <;> by_cases sameFilter : filter = wanted.filter <;>
            simp [same, sameFilter]
        simpa [Store.answered] using ih _ _ held
      · simpa [Store.answered] using ih broker store refines

/-- The unsubscribe loop removes the named filters. -/
theorem revokeAll (client : ClientId) (topics : List String) (broker : Broker)
    (store : Store) (refines : Refines broker store) :
    Refines (Broker.revokeAll client broker topics)
      { store with
        granted := Function.update store.granted client fun filter =>
          if filter ∈ topics then none else store.granted client filter } := by
  induction topics generalizing broker store with
  | nil => simpa [Broker.revokeAll] using refines
  | cons topic rest ih =>
      unfold Broker.revokeAll
      have erased := refines.withFilters client fun filters => filters.erase topic
      have dropped : Refines ((broker.withFilters client fun filters =>
            filters.erase topic).revoke client topic)
          { store with
            granted := Function.update store.granted client fun filter =>
              if filter = topic then none else store.granted client filter } := by
        refine erased.updateGranted rfl fun other filter => ?_
        simp only [Broker.revoke, SubscriptionTree.granted_unsubscribe, erased.granted]
        by_cases same : other = client <;> by_cases sameTopic : filter = topic <;>
          simp [same, sameTopic]
      have rest := ih _ _ dropped
      simp only [Function.update_self, Function.update_idem] at rest
      convert rest using 4 with filter
      by_cases sameTopic : filter = topic <;> simp [sameTopic]

theorem registerSession (refines : Refines broker store) (order : IterationOrder)
    (registration : Registration) (response : Response) :
    Refines (broker.registerSession order registration).2
      (store.step (.register order registration, response)) := by
  have ended := (refines.removeSession registration.client).congr
    (sameTables_takeOver _ order (broker.sessions.lookup registration.client))
  simp only [Broker.registerSession, Store.step]
  by_cases clean : registration.cleanSession
  · simpa [clean, Store.vacate, Store.clear] using
      (ended.removeClient registration.client).insertSession registration
  · simpa [clean, Store.vacate] using ended.insertSession registration

theorem unregisterSession (refines : Refines broker store) (order : IterationOrder)
    (client : ClientId) (connection : ConnectionId) (graceful : Bool) (response : Response) :
    Refines (broker.unregisterSession order client connection graceful)
      (store.step (.unregister order client connection graceful, response)) := by
  simp only [Broker.unregisterSession, Store.step]
  by_cases owns : store.Owns client connection
  · rcases refines.exists_ownEntry owns with ⟨entry, _, _, own⟩
    have cleared := (refines.removeSession client).removeClient client
    rw [own, if_pos owns]
    dsimp only
    split
    · exact cleared
    · exact cleared.congr (sameTables_publishWill _ order _ _)
  · rw [refines.ownEntry_eq_none owns, if_neg owns]
    exact refines

theorem subscribe (refines : Refines broker store) (client : ClientId)
    (connection : ConnectionId) (filters : List TopicFilter) :
    Refines (broker.subscribe client connection filters).2
      (store.step (.subscribe client connection filters,
        .subscribed (broker.subscribe client connection filters).1)) := by
  simp only [Broker.subscribe, Store.step]
  by_cases owns : store.Owns client connection
  · rcases refines.exists_ownEntry owns with ⟨entry, _, _, own⟩
    rw [own]
    exact refines.grantAll client filters broker store
  · rw [refines.ownEntry_eq_none owns]
    simpa only [Store.answered_failures, Function.update_eq_self] using refines

theorem unsubscribe (refines : Refines broker store) (client : ClientId)
    (connection : ConnectionId) (topics : List String) (response : Response) :
    Refines (broker.unsubscribe client connection topics)
      (store.step (.unsubscribe client connection topics, response)) := by
  simp only [Broker.unsubscribe, Store.step]
  by_cases owns : store.Owns client connection
  · rcases refines.exists_ownEntry owns with ⟨entry, _, _, own⟩
    rw [own, if_pos owns]
    exact refines.revokeAll client topics broker store
  · rw [refines.ownEntry_eq_none owns, if_neg owns]
    exact refines

/-- A step of the broker is a step of the store. -/
theorem perform (refines : Refines broker store) (operation : Operation) :
    Refines (broker.perform operation).2
      (store.step (operation, (broker.perform operation).1)) := by
  cases operation with
  | register order registration => exact refines.registerSession order registration _
  | unregister order client connection graceful =>
      exact refines.unregisterSession order client connection graceful _
  | subscribe client connection filters => exact refines.subscribe client connection filters
  | unsubscribe client connection topics =>
      exact refines.unsubscribe client connection topics _
  | publish order source packet => exact refines.congr (sameTables_publish broker order _ _ _)

/-- A run of the broker is a run of the store. -/
theorem performAll (operations : List Operation) (broker : Broker) (store : Store)
    (refines : Refines broker store) :
    Refines (broker.performAll operations) (store.run (broker.transcript operations)) := by
  induction operations generalizing broker store with
  | nil => exact refines
  | cons operation operations ih => exact ih _ _ (refines.perform operation)

end Refines

theorem refines_new (channels : ConnectionId → MqttChannel) :
    Refines (Broker.new channels) Store.empty :=
  ⟨fun _ => rfl, fun _ _ => SubscriptionTree.granted_new.symm⟩

/-! ## One connection, one client -/

/-- No connection holds two client ids. -/
def Store.Exclusive (store : Store) : Prop :=
  ∀ ⦃client other connection⦄, store.Owns client connection → store.Owns other connection →
    client = other

/-- An operation gives a connection a client id only by registering it. -/
theorem Store.owns_step {store : Store} {operation : Operation} {response : Response}
    {client : ClientId} {connection : ConnectionId}
    (owns : (store.step (operation, response)).Owns client connection) :
    store.Owns client connection ∨ ∃ order registration,
      operation = .register order registration ∧ registration.client = client ∧
        registration.connection = connection := by
  cases operation with
  | register order registration =>
      simp only [step, Owns, Function.update_apply] at owns
      split at owns
      · rename_i same
        exact .inr ⟨order, registration, rfl, same.symm, by simpa using owns⟩
      · refine .inl ?_
        split at owns <;> exact owns
  | unregister order other holder graceful =>
      refine .inl ?_
      simp only [step] at owns
      split at owns
      · simp only [vacate, clear, Owns, Function.update_apply] at owns
        split at owns
        · simp at owns
        · exact owns
      · exact owns
  | subscribe other holder filters =>
      cases response <;> exact .inl owns
  | unsubscribe other holder topics =>
      refine .inl ?_
      simp only [step] at owns
      split at owns <;> exact owns
  | publish order source packet => exact .inl owns

/-- When no connection registers twice, none ever holds two client ids. -/
theorem Store.exclusive_run (operations : List Operation) (broker : Broker) (store : Store)
    (used : List ConnectionId) (known : ∀ ⦃client connection⦄, store.Owns client connection →
      connection ∈ used) (exclusive : store.Exclusive)
    (once : (used ++ operations.filterMap Operation.registers).Nodup) :
    (store.run (broker.transcript operations)).Exclusive := by
  induction operations generalizing broker store used with
  | nil => exact exclusive
  | cons operation operations ih =>
      refine ih _ _ (used ++ operation.registers.toList) ?_ ?_ ?_
      · intro client connection owns
        rcases owns_step owns with before | ⟨order, registration, rfl, _, rfl⟩
        · exact List.mem_append_left _ (known before)
        · simp [Operation.registers]
      · intro client other connection owns ownsOther
        rcases owns_step owns with before | ⟨order, registration, rfl, rfl, rfl⟩ <;>
          rcases owns_step ownsOther with beforeOther | ⟨_, _, same, rfl, fresh⟩
        · exact exclusive before beforeOther
        · subst same
          rw [List.nodup_append] at once
          exact absurd fresh.symm (once.2.2 _ (known before) _ (by simp [Operation.registers]))
        · rw [List.nodup_append] at once
          exact absurd rfl (once.2.2 _ (known beforeOther) _ (by simp [Operation.registers]))
        · cases same
          rfl
      · rw [List.append_assoc]
        cases registered : operation.registers with
        | none => simpa [registered] using once
        | some connection => simpa [registered] using once

/-! ## What an operation sends -/

/-- A publish offers each connection what the store says. -/
theorem Published.offers {broker after : Broker} {store : Store} {origin : Origin}
    {source : ClientId} {packet : PublishPacket}
    (published : Published broker origin source packet after)
    (refines : Refines broker store) (exclusive : store.Exclusive) (connection : ConnectionId) :
    ∃ offered, (Store.Announcement.mk store source packet).Offers connection offered ∧
      (after.channels connection).sent =
        (broker.channels connection).sent ++ taken (broker.channels connection) offered := by
  rcases published.fannedOut with ⟨subs, arranged, fannedOut⟩
  rcases fannedOut.offers connection with ⟨offered, copies, sent⟩
  have leads : ∀ sub : ClientId × QoS,
      LeadsTo (broker.announce origin source packet) source connection sub ↔
        sub.1 ≠ source ∧ store.Owns sub.1 connection :=
    fun sub => and_congr_right fun _ => refines.owns_iff.symm
  refine ⟨offered, ⟨fun client owns foreign => ?_, fun nowhere => ?_⟩, sent⟩
  · rcases SubscriptionTree.exists_filters_of_client arranged client with
      ⟨held, distinct, listed, own⟩
    -- the subscriptions that lead here are those of this one client
    have same : subs.filter (LeadsTo (broker.announce origin source packet) source connection) =
        subs.filter fun sub => sub.1 = client := by
      refine List.filter_congr fun sub _ => ?_
      rw [decide_eq_decide, leads]
      exact ⟨fun led => exclusive led.2 owns, fun own => own ▸ ⟨foreign, owns⟩⟩
    rw [same, own, List.forall₂_map_left_iff] at copies
    refine ⟨held.map Prod.fst, distinct, fun filter => ?_, ?_⟩
    · simp only [refines.granted, Option.isSome_iff_exists, List.mem_map, Prod.exists,
        exists_and_right, exists_eq_right, listed]
      exact ⟨fun ⟨qos, matched, granted⟩ => ⟨⟨qos, granted⟩, matched⟩,
        fun ⟨⟨qos, granted⟩, matched⟩ => ⟨qos, matched, granted⟩⟩
    · have granted : ∀ entry ∈ held, store.granted client entry.1 = some entry.2 :=
        fun entry entryListed =>
          (refines.granted client entry.1).trans ((listed entry.1 entry.2).mp entryListed).2
      rw [List.forall₂_map_left_iff]
      refine ((List.forall₂_and_left _ _).mpr ⟨granted, copies⟩).imp ?_
      rintro entry copy ⟨granted, isCopy⟩
      exact ⟨entry.2, granted, isCopy⟩
  · have none : subs.filter
        (LeadsTo (broker.announce origin source packet) source connection) = [] := by
      refine List.filter_eq_nil_iff.mpr fun sub _ led => ?_
      have led := (leads sub).mp (of_decide_eq_true led)
      exact led.1 (nowhere sub.1 led.2)
    rw [none] at copies
    cases copies
    rfl

/-- What a connection is to receive of an operation. -/
def Store.Sends (store : Store) (operation : Operation) (connection : ConnectionId)
    (offered : List PublishPacket) : Prop :=
  match store.announces operation with
  | some announcement => announcement.Offers connection offered
  | none => offered = []

/-- A connection's channel has been offered these packets. -/
def Offered (broker after : Broker) (connection : ConnectionId) (offered : List PublishPacket) :
    Prop :=
  (after.channels connection).sent =
    (broker.channels connection).sent ++ taken (broker.channels connection) offered

theorem Offered.nothing {broker after : Broker} {connection : ConnectionId}
    (same : (after.channels connection).sent = (broker.channels connection).sent) :
    Offered broker after connection [] := by
  simp [Offered, taken, same]

theorem Store.Exclusive.vacate {store : Store} (exclusive : store.Exclusive) (client : ClientId) :
    (store.vacate client).Exclusive := by
  have before : ∀ other connection, (store.vacate client).Owns other connection →
      store.Owns other connection := by
    intro other connection owns
    simp only [Store.vacate, Store.Owns, Function.update_apply] at owns
    split at owns
    · simp at owns
    · exact owns
  exact fun _ _ _ owns ownsOther => exclusive (before _ _ owns) (before _ _ ownsOther)

/-- A Will offers each connection what the store says; without a Will nothing is
sent. -/
theorem Refines.offers_publishWill {broker : Broker} {store : Store}
    (refines : Refines broker store) (exclusive : store.Exclusive) (order : IterationOrder)
    (ended : ConnectionId) (will : Option WillMessage) (connection : ConnectionId) :
    ∃ offered, (match will with
        | some will => (Store.Announcement.mk store "" (willPacket will)).Offers connection offered
        | none => offered = []) ∧
      Offered broker (broker.publishWill order ended will) connection offered := by
  cases will with
  | none => exact ⟨[], rfl, .nothing rfl⟩
  | some will =>
      exact (published_publish broker order (.will ended) "" (willPacket will)).offers refines
        exclusive connection

theorem Refines.sends_register {broker : Broker} {store : Store} (refines : Refines broker store)
    (exclusive : store.Exclusive) (order : IterationOrder) (registration : Registration)
    (connection : ConnectionId) :
    ∃ offered, store.Sends (.register order registration) connection offered ∧
      Offered broker (broker.registerSession order registration).2 connection offered := by
  have vacated := refines.removeSession registration.client
  simp only [Store.Sends, Store.announces, refines.registered, Offered,
    (onlyTables_registerSession broker order registration).channels]
  cases broker.sessions.lookup registration.client with
  | none => exact ⟨[], rfl, Offered.nothing rfl⟩
  | some previous =>
      have closed : Refines ((broker.removeSession registration.client).closeChannel
          previous.connection) (store.vacate registration.client) := vacated.congr ⟨rfl, rfl⟩
      rcases closed.offers_publishWill (exclusive.vacate registration.client) order
        previous.connection previous.will connection with ⟨offered, offers, sent⟩
      refine ⟨offered, ?_, ?_⟩
      · cases will : previous.will <;> simpa [SubscriberEntry.holder, will] using offers
      · rw [Offered, closeChannel, proj_withChannel MqttChannel.sent_close, taken,
          proj_withChannel MqttChannel.writerAlive_close] at sent
        exact sent

theorem Refines.sends_unregister {broker : Broker} {store : Store}
    (refines : Refines broker store) (exclusive : store.Exclusive) (order : IterationOrder)
    (client : ClientId) (ended : ConnectionId) (graceful : Bool) (connection : ConnectionId) :
    ∃ offered, store.Sends (.unregister order client ended graceful) connection offered ∧
      Offered broker (broker.unregisterSession order client ended graceful) connection
        offered := by
  by_cases owns : store.Owns client ended
  · rcases refines.exists_ownEntry owns with ⟨entry, found, own, ownEntry⟩
    have cleared := (refines.removeSession client).removeClient client
    simp only [Store.Sends, Store.announces, refines.registered, found,
      Broker.unregisterSession, ownEntry]
    cases graceful with
    | true =>
        refine ⟨[], ?_, .nothing rfl⟩
        cases will : entry.will <;> simp [SubscriberEntry.holder, will]
    | false =>
        rcases cleared.offers_publishWill (exclusive.vacate client) order ended entry.will
          connection with ⟨offered, offers, sent⟩
        refine ⟨offered, ?_, sent⟩
        cases will : entry.will <;> simpa [SubscriberEntry.holder, will, own] using offers
  · rw [Broker.unregisterSession, refines.ownEntry_eq_none owns]
    refine ⟨[], ?_, .nothing rfl⟩
    have stale : ∀ holder, store.registered client = some holder → holder.connection ≠ ended :=
      fun holder held same => owns (by simp [Store.Owns, held, same])
    simp only [Store.Sends, Store.announces]
    cases held : store.registered client with
    | none => simp
    | some holder => cases will : holder.will <;> simp [will, stale holder held]

/-- Every operation sends each connection what the store says. -/
theorem Refines.sends {broker : Broker} {store : Store} (refines : Refines broker store)
    (exclusive : store.Exclusive) (operation : Operation) (connection : ConnectionId) :
    ∃ offered, store.Sends operation connection offered ∧
      Offered broker (broker.perform operation).2 connection offered := by
  cases operation with
  | register order registration =>
      exact refines.sends_register exclusive order registration connection
  | unregister order client ended graceful =>
      exact refines.sends_unregister exclusive order client ended graceful connection
  | subscribe client holder filters =>
      refine ⟨[], rfl, .nothing ?_⟩
      exact congrArg (fun channels => (channels connection).sent)
        (onlyTables_subscribe broker client holder filters).channels
  | unsubscribe client holder topics =>
      refine ⟨[], rfl, .nothing ?_⟩
      exact congrArg (fun channels => (channels connection).sent)
        (onlyTables_unsubscribe broker client holder topics).channels
  | publish order source packet =>
      exact (published_publish broker order .direct source packet).offers refines exclusive
        connection

/-- The broker refines the store: after any run in which no connection registers
twice, every further operation offers each channel exactly what the store says.
A PUBLISH is offered once for each matching filter of each registered client but
the source, and nothing goes anywhere else. -/
theorem broker_refines_store (channels : ConnectionId → MqttChannel)
    (operations : List Operation) (once : RegistersOnce operations) (operation : Operation)
    (connection : ConnectionId) :
    ∃ offered,
      (Store.empty.run ((Broker.new channels).transcript operations)).Sends operation connection
        offered ∧
      Offered ((Broker.new channels).performAll operations)
        (((Broker.new channels).performAll operations).perform operation).2 connection
        offered := by
  have refines := (refines_new channels).performAll operations
  have exclusive : (Store.empty.run ((Broker.new channels).transcript operations)).Exclusive :=
    Store.exclusive_run operations _ _ [] (by simp [Store.Owns, Store.empty])
      (by simp [Store.Exclusive, Store.Owns, Store.empty]) once
  exact refines.sends exclusive operation connection

/-- Two overlapping filters of one client: the publish of another client reaches
its channel twice. -/
theorem broker_refines_store_overlap :
    let operations : List Operation :=
      [.register .listed ⟨"c", 1, none, true⟩,
        .subscribe "c" 1 [⟨"a/#", .atLeastOnce⟩, ⟨"a/+", .atMostOnce⟩]]
    let operation : Operation := .publish .listed "d" ⟨"a/b", [7], false, .exactlyOnce, true, none⟩
    let broker := (Broker.new fun _ => .new).performAll operations
    ((broker.perform operation).2.channels 1).sent.length = 2 ∧
      ∃ offered,
        (Store.empty.run ((Broker.new fun _ => .new).transcript operations)).Sends operation 1
          offered ∧
        Offered broker (broker.perform operation).2 1 offered :=
  ⟨by decide, broker_refines_store _ _ (by decide) _ 1⟩

end HotaruMqtt.Broker
