import HotaruMqtt.Broker.Mirror
import Mathlib.Data.Set.Basic

/-!
# What the answer of a registration says

`register_session` answers from the session map whether earlier state of the client
was found and kept, while that state is in the subscription tree.  The answer is right
because no filter outlives the session of its client: a filter is granted to
registered clients only, and `unregister_session` clears the tree with the entry.
-/

namespace HotaruMqtt.Broker

open Exec Topic

/-- The filters of a client in the tree, each with its QoS. -/
def SubscriptionTree.entriesOf (tree : SubscriptionTree) (client : ClientId) :
    Set (String × QoS) :=
  { entry | tree.granted entry.1 client = some entry.2 }

/-- No filter is granted to a client id that nobody holds. -/
def Store.Housed (store : Store) : Prop :=
  ∀ ⦃client⦄, store.registered client = none → ∀ filter, store.granted client filter = none

variable {broker : Broker} {store : Store} {client : ClientId}

namespace Store.Housed

theorem empty : Store.empty.Housed :=
  fun _ _ _ => rfl

theorem clear (housed : store.Housed) (client : ClientId) : (store.clear client).Housed := by
  intro other vacant filter
  simp only [Store.clear, Function.update_apply]
  split
  · rfl
  · exact housed vacant filter

/-- Whoever takes a client id may find filters granted to it. -/
theorem hold (housed : store.Housed) (client : ClientId) (holder : Holder) :
    { store with registered := Function.update store.registered client (some holder) }.Housed := by
  intro other vacant filter
  simp only [Function.update_apply] at vacant
  split at vacant
  · cases vacant
  · exact housed vacant filter

/-- Whoever leaves a client id takes its filters along. -/
theorem leave (housed : store.Housed) (client : ClientId) :
    ((store.vacate client).clear client).Housed := by
  intro other vacant filter
  simp only [Store.clear, vacate, Function.update_apply] at vacant ⊢
  split
  · rfl
  · rename_i distinct
    rw [if_neg distinct] at vacant
    exact housed vacant filter

/-- The holder of a client id may change its filters. -/
theorem regrant (housed : store.Housed) {connection : ConnectionId}
    (owns : store.Owns client connection) (filters : String → Option QoS) :
    { store with granted := Function.update store.granted client filters }.Housed := by
  intro other vacant filter
  have distinct : other ≠ client := by
    rintro rfl
    rw [Owns, vacant] at owns
    cases owns
  exact (congrFun (Function.update_of_ne distinct _ _) filter).trans (housed vacant filter)

end Store.Housed

/-- One operation of the broker leaves no filter without a holder. -/
theorem Refines.housed_step (refines : Refines broker store) (housed : store.Housed)
    (operation : Operation) :
    (store.step (operation, (broker.perform operation).1)).Housed := by
  cases operation with
  | register order registration =>
      simp only [Store.step]
      split
      · exact (housed.clear _).hold _ _
      · exact housed.hold _ _
  | unregister order client connection graceful =>
      simp only [Store.step]
      split
      · exact housed.leave client
      · exact housed
  | subscribe client connection filters =>
      by_cases owns : store.Owns client connection
      · exact housed.regrant owns _
      · -- the answer is a list of failures, which the store takes as no change
        have refused : (broker.subscribe client connection filters).1 =
            filters.map fun _ => .failure := by
          rw [Broker.subscribe, refines.ownEntry_eq_none owns]
        simpa only [Broker.perform, Store.step, refused, Store.answered_failures,
          Function.update_eq_self] using housed
  | unsubscribe client connection topics =>
      simp only [Store.step]
      split
      · rename_i owns
        exact housed.regrant owns _
      · exact housed
  | publish order source packet => exact housed

/-- No run of operations leaves a filter without a holder. -/
theorem Refines.housed_run (operations : List Operation) (broker : Broker) (store : Store)
    (refines : Refines broker store) (housed : store.Housed) :
    (store.run (broker.transcript operations)).Housed := by
  induction operations generalizing broker store with
  | nil => exact housed
  | cons operation operations ih =>
      exact ih _ _ (refines.perform operation) (refines.housed_step housed operation)

/-- In a reachable broker the tree holds filters of registered clients only. -/
theorem granted_eq_none_of_unregistered (channels : ConnectionId → MqttChannel)
    (operations : List Operation)
    (vacant : ((Broker.new channels).performAll operations).sessions.lookup client = none)
    (filter : String) :
    ((Broker.new channels).performAll operations).subscriptions.granted filter client = none := by
  have refines := Refines.performAll operations _ _ (refines_new channels)
  have housed := Refines.housed_run operations _ _ (refines_new channels) Store.Housed.empty
  rw [← refines.granted client filter]
  exact housed (by rw [refines.registered, vacant]; rfl) filter

/-- In every reachable broker, a registration that answers that a session was present
leaves the tree's entries of its client as they were, and one that answers that none
was leaves none. -/
theorem registered_entries_eq (channels : ConnectionId → MqttChannel)
    (operations : List Operation) (order : IterationOrder) (registration : Registration) :
    let broker := (Broker.new channels).performAll operations
    let registered := broker.registerSession order registration
    registered.2.subscriptions.entriesOf registration.client =
      if registered.1 then broker.subscriptions.entriesOf registration.client else ∅ := by
  intro broker registered
  have present : registered.1 =
      (!registration.cleanSession && (broker.sessions.lookup registration.client).isSome) := rfl
  ext ⟨filter, qos⟩
  rw [SubscriptionTree.entriesOf, Set.mem_ofPred_eq, granted_registerSession, present]
  cases registration.cleanSession with
  | true => simp
  | false =>
      cases found : broker.sessions.lookup registration.client with
      | some entry => simp [SubscriptionTree.entriesOf]
      | none =>
          have nothing := granted_eq_none_of_unregistered channels operations found filter
          simp [broker, nothing]

end HotaruMqtt.Broker
