import HotaruMqtt.Server.Order
import HotaruMqtt.Server.WellFormed

/-!
# A client does not hear itself

`publish` passes over the subscriptions of the publisher's own client identifier.  The
identifier is compared when a subscription of the snapshot is looked at, and the session
entry is looked up only then, so takeovers in between change which connection is sent the
copy but not whose it is.  No copy of a message ever goes to a connection of the client that
published it, not even to one that has taken the publisher over.
-/

namespace HotaruMqtt.Broker.Pool

open Exec Exec.Transition

/-- A copy that is about to be sent is for another client than the one that published, and
for a connection of that client. -/
def Foreign (pool : Pool) : Prop :=
  ∀ ⦃task running publication client target subQos subs next⦄,
    pool.calls.lookup task = some running →
    running.call = .enqueue publication client target subQos subs next →
    client ≠ publication.source ∧
      ∃ registration, pool.joined target = some registration ∧ registration.client = client

variable {pool next : Pool} {event : Event}

theorem Foreign.new (channels : ConnectionId → MqttChannel) : (Pool.new channels).Foreign :=
  fun _ _ _ _ _ _ _ _ found => by cases found

theorem Foreign.step (foreign : pool.Foreign) (consistent : pool.Consistent)
    (steps : Steps pool event next) : next.Foreign := by
  intro other running publication client target subQos subs after found enqueues
  have keeps : ∀ {connection registration}, pool.joined connection = some registration →
      next.joined connection = some registration := joined_step steps
  have kept : ∀ {running}, pool.calls.lookup other = some running →
      running.call = .enqueue publication client target subQos subs after →
      client ≠ publication.source ∧
        ∃ registration, next.joined target = some registration ∧ registration.client = client := by
    intro running found enqueues
    obtain ⟨differs, registration, joined, same⟩ := foreign found enqueues
    exact ⟨differs, registration, keeps joined, same⟩
  cases steps with
  | invoke idle opened =>
      rcases Table.lookup_insert_eq_some.mp found with ⟨rfl, rfl⟩ | ⟨_, found⟩
      · cases opens_of_opening opened <;> contradiction
      · exact kept found enqueues
  | advance calling unblocked stepped =>
      rcases Table.lookup_insert_eq_some.mp found with ⟨rfl, rfl⟩ | ⟨_, found⟩
      · obtain ⟨_, _, differs, owner⟩ := (Call.moves_of_step stepped).enqueueing enqueues
        obtain ⟨registration, joined, same⟩ := consistent.joined_of_owner owner
        exact ⟨differs, registration, keeps joined, same⟩
      · exact kept found enqueues
  | conclude => exact kept (Table.lookup_erase_eq_some.mp found).2 enqueues
  | environment => exact kept found enqueues

end HotaruMqtt.Broker.Pool

namespace HotaruMqtt.Server

open Exec Exec.Outcome Exec.Transition Broker

variable {config : Config} {host next : Host} {event : Event} {connection : ConnectionId}

/-- A worker publishes under the client identifier of its connection. -/
def Names (host : Host) : Prop :=
  ∀ ⦃connection publication⦄,
    asking host.pool (.worker connection) = some (.publish publication) →
      ∃ registration, host.pool.joined connection = some registration ∧
        registration.client = publication.source

theorem joined_kept (steps : Host.Steps config host event next) {registration : Registration}
    (joined : host.pool.joined connection = some registration) :
    next.pool.joined connection = some registration := by
  rcases steps.shown with same | ⟨shown, moved⟩
  · rw [same]
    exact joined
  · exact Pool.joined_step (Pool.steps_of_step moved) joined

theorem names_step (names : Names host) (busy : Busy host)
    (steps : Host.Steps config host event next) : Names next := by
  intro connection publication asked
  have before : asking host.pool (.worker connection) = some (.publish publication) →
      ∃ registration, next.pool.joined connection = some registration ∧
        registration.client = publication.source := by
    intro asked
    obtain ⟨registration, joined, same⟩ := names asked
    exact ⟨registration, joined_kept steps joined, same⟩
  cases steps with
  | act acts =>
      rename_i acting action conn pool
      by_cases same : connection = acting
      · subst same
        rcases acts.asked asked with earlier | ⟨session, phase, _, _, _, serving, _, _, rfl⟩
        · exact before earlier
        · have agrees := busy.agrees connection
          rw [serving] at agrees
          obtain ⟨⟨registration, joined, client⟩, _⟩ := agrees
          exact ⟨registration, joined_kept (.act acts) joined, client⟩
      · have others : asking pool (.worker connection) = asking host.pool (.worker connection) :=
          acts.touches.asking_eq same
        exact before (others.symm.trans asked)
  | advance moved =>
      exact before ((congrFun (asking_advance moved) _).symm.trans asked)
  | environment => exact before asked

/-- Both have registered, and under different client identifiers. -/
def Strangers (host : Host) (publisher target : ConnectionId) : Prop :=
  ∃ own other, host.pool.joined publisher = some own ∧ host.pool.joined target = some other ∧
    other.client ≠ own.client

/-- No copy of a message goes to the client that published it. -/
structure Unechoed (host : Host) : Prop extends Busy host where
  foreign : host.pool.Foreign
  names : Names host
  delivered : ∀ delivery ∈ host.pool.broker.deliveries, ∀ publisher index,
    delivery.origin = .message publisher index → Strangers host publisher delivery.target

namespace Unechoed

theorem new (channels : ConnectionId → MqttChannel) : Unechoed (.new channels) where
  toBusy := .new channels
  foreign := .new channels
  names _ _ asked := by cases asked
  delivered _ listed := by cases listed

/-- The copy that a step sends is for a stranger. -/
theorem strangers_of_deliver (unechoed : Unechoed host) {task : Task} {running : Running}
    {publication : Publication} {client : ClientId} {target publisher : ConnectionId}
    {subQos : QoS} {subs : List (ClientId × QoS)} {resumed : Next} {index : Nat}
    (found : host.pool.calls.lookup task = some running)
    (enqueues : running.call = .enqueue publication client target subQos subs resumed)
    (origin : publication.origin = .message publisher index) :
    Strangers host publisher target := by
  obtain ⟨differs, other, joined, same⟩ := unechoed.foreign found enqueues
  have announces : running.call.announces = some publication := by
    rw [enqueues]
    rfl
  obtain ⟨rfl, asked, _⟩ := unechoed.toBusy.of_announces found announces origin
  have asks : asking host.pool (.worker publisher) = some (.publish publication) := by
    rw [asking, found, Option.map_some, asked]
  obtain ⟨own, ownJoined, source⟩ := unechoed.names asks
  refine ⟨own, other, ownJoined, joined, ?_⟩
  rw [same, source]
  exact differs

theorem delivered_step (unechoed : Unechoed host) (steps : Host.Steps config host event next)
    {delivery : Delivery} (listed : delivery ∈ next.pool.broker.deliveries)
    {publisher : ConnectionId} {index : Nat}
    (origin : delivery.origin = .message publisher index) :
    Strangers host publisher delivery.target := by
  have before := unechoed.delivered delivery
  cases steps with
  | act acts =>
      refine before ?_ publisher index origin
      cases acts.touches <;> exact listed
  | advance moved =>
      cases Pool.steps_of_step moved with
      | advance running unblocked stepped =>
          rename_i request call following access
          obtain ⟨more, deliveries, added⟩ := deliveries_apply host.pool.shared access
          have listed : delivery ∈ (host.pool.shared.apply access).broker.deliveries := listed
          rw [deliveries] at listed
          rcases List.mem_append.mp listed with earlier | last
          · exact before earlier publisher index origin
          · obtain ⟨publication, subQos, rfl, same, _⟩ := added delivery last
            generalize delivery.target = target at stepped
            cases Call.moves_of_step stepped with
            | enqueue =>
                exact unechoed.strangers_of_deliver running rfl (same.symm.trans origin)
  | environment => exact before listed publisher index origin

theorem step (unechoed : Unechoed host) (steps : Host.Steps config host event next) :
    Unechoed next where
  toBusy := unechoed.toBusy.step steps
  foreign := by
    rcases steps.shown with same | ⟨shown, moved⟩
    · rw [same]
      exact unechoed.foreign
    · exact unechoed.foreign.step unechoed.consistent (Pool.steps_of_step moved)
  names := names_step unechoed.names unechoed.toBusy steps
  delivered delivery listed publisher index origin := by
    obtain ⟨own, other, ownJoined, otherJoined, differs⟩ :=
      unechoed.delivered_step steps listed origin
    exact ⟨own, other, joined_kept steps ownJoined, joined_kept steps otherJoined, differs⟩

end Unechoed

/-- In every run, whoever is sent a copy of a message has registered under another client
identifier than the connection that published it. -/
theorem no_echo (config : Config) (channels : ConnectionId → MqttChannel) {events : List Event}
    {host : Host} (run : Run (Host.step config) Any (.new channels) events host)
    {delivery : Delivery} (listed : delivery ∈ host.pool.broker.deliveries)
    {publisher : ConnectionId} {index : Nat}
    (origin : delivery.origin = .message publisher index) :
    Strangers host publisher delivery.target := by
  have preserves : Preserves (Host.step config) Any Unechoed :=
    fun _ _ _ unechoed _ moved => unechoed.step (Host.steps_of_step moved)
  exact (run.invariant preserves (.new channels)).delivered delivery listed publisher index origin

/-- A message from one client to another. -/
theorem no_echo_relayed :
    let host := replay (Host.step ⟨.new, some⟩) (.new fun _ => .new) (relays "t" "t")
    host.pool.broker.deliveries =
        [⟨.message 2 0, 1, ⟨"t", [1], false, .atMostOnce, false, none⟩⟩] ∧
      Strangers host 2 1 := by
  intro host
  have run : Run (Host.step ⟨.new, some⟩) Any (.new fun _ => .new) (relays "t" "t") host :=
    Follows.run (by decide +kernel)
  have sent : host.pool.broker.deliveries =
      [⟨.message 2 0, 1, ⟨"t", [1], false, .atMostOnce, false, none⟩⟩] := by decide +kernel
  refine ⟨sent, ?_⟩
  have listed : (⟨.message 2 0, 1, ⟨"t", [1], false, .atMostOnce, false, none⟩⟩ : Delivery) ∈
      host.pool.broker.deliveries := by
    rw [sent]
    exact List.mem_singleton_self _
  exact no_echo ⟨.new, some⟩ (fun _ => .new) run listed rfl

end HotaruMqtt.Server
