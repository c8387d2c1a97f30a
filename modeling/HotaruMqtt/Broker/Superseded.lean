import HotaruMqtt.Broker.Store

/-!
# Calls of superseded connections

After a takeover the earlier connection may still call `subscribe`,
`unsubscribe` and `unregister_session` under the client id it has lost.  Such a
call finds an entry of another connection, or none, and changes nothing: a run
from which all of them are deleted ends in the same broker.
-/

namespace HotaruMqtt.Broker

open Exec Exec.Outcome Topic

/-- The call is made by a connection that is not the one registered for its client id. -/
def Superseded (broker : Broker) : Operation → Prop
  | .unregister _ client connection _ =>
      (broker.sessions.lookup client).map SubscriberEntry.connection ≠ some connection
  | .subscribe client connection _ =>
      (broker.sessions.lookup client).map SubscriberEntry.connection ≠ some connection
  | .unsubscribe client connection _ =>
      (broker.sessions.lookup client).map SubscriberEntry.connection ≠ some connection
  | .register _ _ => False
  | .publish _ _ _ => False

instance (broker : Broker) (operation : Operation) : Decidable (broker.Superseded operation) := by
  cases operation <;> unfold Superseded <;> infer_instance

/-- A run without the calls that were superseded when they were made. -/
def withoutSuperseded (broker : Broker) : List Operation → List Operation
  | [] => []
  | operation :: operations =>
      let rest := (broker.perform operation).2.withoutSuperseded operations
      if broker.Superseded operation then rest else operation :: rest

/-- A superseded call leaves the broker as it is. -/
theorem perform_superseded {broker : Broker} {operation : Operation}
    (superseded : broker.Superseded operation) : (broker.perform operation).2 = broker := by
  cases operation with
  | register order registration => exact superseded.elim
  | unregister order client connection graceful =>
      simp only [perform, unregisterSession, ownEntry_eq_none.mpr superseded]
  | subscribe client connection filters =>
      simp only [perform, subscribe, ownEntry_eq_none.mpr superseded]
  | unsubscribe client connection topics =>
      simp only [perform, unsubscribe, ownEntry_eq_none.mpr superseded]
  | publish order source packet => exact superseded.elim

/-- A superseded subscribe is refused filter by filter. -/
theorem subscribe_superseded {broker : Broker} {client : ClientId} {connection : ConnectionId}
    {filters : List TopicFilter}
    (superseded : broker.Superseded (.subscribe client connection filters)) :
    (broker.perform (.subscribe client connection filters)).1 =
      .subscribed (filters.map fun _ => .failure) := by
  simp only [perform, subscribe, ownEntry_eq_none.mpr superseded]

/-- Deleting the superseded calls does not change where a run ends. -/
theorem performAll_withoutSuperseded (broker : Broker) (operations : List Operation) :
    broker.performAll (broker.withoutSuperseded operations) = broker.performAll operations := by
  induction operations generalizing broker with
  | nil => rfl
  | cons operation operations ih =>
      simp only [withoutSuperseded]
      split
      · rename_i superseded
        rw [performAll, perform_superseded superseded]
        exact ih broker
      · exact ih _

/-- Superseded connections cannot interfere: without their calls a run ends with
the same sessions, the same subscriptions and the same packets on every channel,
and each of their subscribes was answered with one failure for each filter. -/
theorem superseded_calls_noninterfering (broker : Broker) (operations : List Operation) :
    let pruned := broker.performAll (broker.withoutSuperseded operations)
    let full := broker.performAll operations
    pruned.sessions = full.sessions ∧ pruned.subscriptions = full.subscriptions ∧
      (∀ connection, (pruned.channels connection).sent = (full.channels connection).sent) ∧
      ∀ before client connection filters after,
        operations = before ++ .subscribe client connection filters :: after →
        (broker.performAll before).Superseded (.subscribe client connection filters) →
        ((broker.performAll before).perform (.subscribe client connection filters)).1 =
          .subscribed (filters.map fun _ => .failure) := by
  intro pruned full
  have same : pruned = full := performAll_withoutSuperseded broker operations
  refine ⟨by rw [same], by rw [same], fun _ => by rw [same], ?_⟩
  intro before client connection filters after _ superseded
  exact subscribe_superseded superseded

/-- After a takeover the earlier connection's subscribe and teardown are the two
calls that go. -/
example :
    (withoutSuperseded (Broker.new fun _ => .new)
      [.register .listed ⟨"a", 1, none, false⟩, .register .listed ⟨"a", 2, none, false⟩,
        .subscribe "a" 1 [⟨"t", .atMostOnce⟩], .subscribe "a" 2 [⟨"t", .atMostOnce⟩],
        .unregister .listed "a" 1 false]).length = 3 := by
  decide +kernel

end HotaruMqtt.Broker
