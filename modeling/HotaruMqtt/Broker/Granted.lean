import HotaruMqtt.Broker.Stages
import HotaruMqtt.Broker.Store

/-!
# Granted subscriptions among concurrent calls

What a connection was last told about its filters stands in the history of its
calls.  The subscription tree agrees with it as long as `remove_client` drops a
subscription of a client only while the client has no entry.
`unregister_session` does not see to that: it removes the entry if it is its own,
and then drops the subscriptions of the client, whoever has registered meanwhile.
-/

namespace HotaruMqtt.Broker

open Exec Exec.Transition

/-! ## What a connection was told -/

/-- Forget the listed filters. -/
def without (held : String → Option QoS) (filters : List String) (filter : String) : Option QoS :=
  if filter ∈ filters then none else held filter

/-- The filters that a request is about. -/
def Request.names : Request → List String
  | .subscribe filters => filters.map TopicFilter.filter
  | .unsubscribe topics => topics
  | _ => []

/-- What an occurrence says to a connection about its filters. -/
def note (connection : ConnectionId) (held : String → Option QoS) :
    Occurrence → String → Option QoS
  | .invoked task request =>
      if task = .handler connection then without held request.names else held
  | .returned task (.subscribe filters) (.subscribed codes) =>
      if task = .handler connection then Store.answered held filters codes else held
  | _ => held

/-- The filters that a subscribe call of the connection has returned as granted and
that the connection has not named in a later call. -/
def standing (history : List Occurrence) (connection : ConnectionId) : String → Option QoS :=
  history.foldl (note connection) fun _ => none

/-- The answers a subscribe call has collected. -/
def Call.codes : Call → List SubackCode
  | .grant _ _ codes _ => codes
  | .openFilter _ _ codes _ _ => codes
  | .link _ _ codes _ _ => codes
  | .returned (.subscribed codes) => codes
  | _ => []

/-- What stands, with what the running call of the connection has granted already. -/
def expected (pool : Pool) (connection : ConnectionId) : String → Option QoS :=
  match pool.calls.lookup (.handler connection) with
  | some ⟨.subscribe filters, call⟩ =>
      Store.answered (standing pool.history connection) filters call.codes
  | _ => standing pool.history connection

/-! ## Answers -/

theorem standing_append (history : List Occurrence) (occurrence : Occurrence)
    (connection : ConnectionId) :
    standing (history ++ [occurrence]) connection =
      note connection (standing history connection) occurrence := by
  simp [standing, List.foldl_append]

/-- Only the calls of its own handler tell a connection something. -/
theorem note_of_task_ne {connection : ConnectionId} {held : String → Option QoS}
    {occurrence : Occurrence} (other : occurrence.task ≠ .handler connection) :
    note connection held occurrence = held := by
  unfold note
  split <;> simp_all [Occurrence.task]

/-- A connection that has only begun to register has been told nothing. -/
theorem standing_eq_none {history : List Occurrence} {connection : ConnectionId}
    (quiet : ∀ occurrence ∈ history, occurrence.task = .handler connection →
      ∃ registration, occurrence = .invoked (.handler connection) (.register registration))
    (filter : String) : standing history connection filter = none := by
  induction history using List.reverseRecOn with
  | nil => rfl
  | append_singleton history occurrence ih =>
      have before := ih fun earlier listed => quiet earlier (List.mem_append_left _ listed)
      rw [standing_append]
      by_cases own : occurrence.task = .handler connection
      · rcases quiet occurrence (by simp) own with ⟨registration, rfl⟩
        simpa [note, without, Request.names] using before
      · rw [note_of_task_ne own]
        exact before

theorem without_eq_some {held : String → Option QoS} {filters : List String} {filter : String}
    {qos : QoS} (kept : without held filters filter = some qos) : held filter = some qos := by
  unfold without at kept
  split at kept
  · contradiction
  · exact kept

/-- Answers are about the filters that were asked for. -/
theorem answered_of_not_mem {filters : List TopicFilter} {filter : String}
    (other : filter ∉ filters.map TopicFilter.filter) (held : String → Option QoS)
    (codes : List SubackCode) : Store.answered held filters codes filter = held filter := by
  induction filters generalizing held codes with
  | nil => rfl
  | cons wanted rest ih =>
      rw [List.map_cons, List.mem_cons, not_or] at other
      rcases codes with - | ⟨_ | _, codes⟩
      · rfl
      · exact (ih other.2 _ codes).trans (Function.update_of_ne other.1 _ _)
      · exact ih other.2 held codes

theorem answered_nil (held : String → Option QoS) (filters : List TopicFilter) :
    Store.answered held filters [] = held := by
  cases filters <;> rfl

/-- One more grant. -/
theorem answered_granted {filters rest : List TopicFilter} {codes : List SubackCode}
    {wanted : TopicFilter} (held : String → Option QoS) (qos : QoS)
    (due : filters.drop codes.length = wanted :: rest) :
    Store.answered held filters (codes ++ [.granted qos]) =
      Function.update (Store.answered held filters codes) wanted.filter (some qos) := by
  induction codes generalizing filters held with
  | nil =>
      cases due
      simp [Store.answered, answered_nil]
  | cons code codes ih =>
      cases filters with
      | nil => simp at due
      | cons first filters => cases code <;> exact ih _ due

/-- One more failure. -/
theorem answered_failure {filters : List TopicFilter} {codes : List SubackCode}
    (held : String → Option QoS) :
    Store.answered held filters (codes ++ [.failure]) = Store.answered held filters codes := by
  induction codes generalizing filters held with
  | nil => cases filters <;> simp [Store.answered, answered_nil]
  | cons code codes ih =>
      cases filters with
      | nil => rfl
      | cons first filters => cases code <;> exact ih _

/-- A move of a subscribe call adds to its answers what it grants. -/
theorem Stage.answered_move {broker : Broker} {call after : Call} {access : Access}
    {registration : Registration} {filters : List TopicFilter} (held : String → Option QoS)
    (stage : Stage registration (.subscribe filters) call)
    (moves : Call.Moves broker call access after) :
    Store.answered held filters after.codes = Store.answered held filters call.codes ∨
      ∃ client connection wanted, access = .link client connection wanted := by
  cases stage with
  | findSubscribe =>
      cases moves with
      | subscribeFound => exact .inl rfl
      | subscribeRefused =>
          exact .inl ((Store.answered_failures held filters).trans (answered_nil held filters).symm)
  | grant due =>
      cases moves with
      | grantValid => exact .inl rfl
      | grantInvalid => exact .inl (answered_failure held)
      | granted => exact .inl rfl
  | openFilter due => cases moves; exact .inl rfl
  | link due => cases moves; exact .inr ⟨_, _, _, rfl⟩
  | subscribed => cases moves

/-! ## What is expected moves with the pool -/

section Expected

variable {pool next : Pool} {task : Task} {request : Request} {call after : Call}
  {access : Access} {connection : ConnectionId} {filter : String} {qos : QoS}

theorem expected_congr
    (calls : next.calls.lookup (.handler connection) = pool.calls.lookup (.handler connection))
    (stands : standing next.history connection = standing pool.history connection) :
    expected next connection = expected pool connection := by
  rw [expected, expected, calls, stands]

theorem expected_of_idle (idle : pool.calls.lookup (.handler connection) = none) :
    expected pool connection = standing pool.history connection := by
  rw [expected, idle]

theorem expected_of_subscribing {filters : List TopicFilter}
    (running : pool.calls.lookup (.handler connection) = some ⟨.subscribe filters, call⟩) :
    expected pool connection =
      Store.answered (standing pool.history connection) filters call.codes := by
  rw [expected, running]

/-- A call that begins only takes back what it names. -/
theorem expected_begun (idle : pool.calls.lookup task = none)
    (opened : pool.opening task request = some call)
    (holds : expected (pool.begun task request call) connection filter = some qos) :
    expected pool connection filter = some qos := by
  by_cases own : task = .handler connection
  · subst own
    rw [expected_of_idle idle]
    have calls : (pool.begun (.handler connection) request call).calls.lookup
        (.handler connection) = some ⟨request, call⟩ := AList.lookup_insert _
    rw [expected, calls] at holds
    simp only [Pool.begun, standing_append] at holds
    rw [note, if_pos rfl] at holds
    cases request with
    | subscribe filters =>
        rcases Option.map_eq_some_iff.mp opened with ⟨registration, -, rfl⟩
        simp only [Call.codes, answered_nil] at holds
        exact without_eq_some holds
    | register _ | unregister _ | unsubscribe _ | publish _ => exact without_eq_some holds
  · have same : expected (pool.begun task request call) connection = expected pool connection := by
      refine expected_congr (AList.lookup_insert_ne (Ne.symm own)) ?_
      exact (standing_append _ _ _).trans (note_of_task_ne own)
    rw [← same]
    exact holds

/-- When a call returns, its answers come to stand. -/
theorem expected_concluded {response : Response}
    (running : pool.calls.lookup task = some ⟨request, .returned response⟩)
    (ordered : pool.Ordered) :
    expected (pool.concluded task request response) connection = expected pool connection := by
  by_cases own : task = .handler connection
  · subst own
    have calls : (pool.concluded (.handler connection) request response).calls.lookup
        (.handler connection) = none := AList.lookup_erase _ _
    rw [expected_of_idle calls]
    simp only [Pool.concluded, standing_append]
    rcases ordered.stage running with ⟨registration, -, -, stage⟩
    cases stage with
    | subscribed =>
        rw [expected_of_subscribing running]
        simp [note, Call.codes]
    | registered | unregistered | unsubscribed =>
        rw [expected, running]
        rfl
    | takeOver publishes | lastWill publishes => cases publishes
  · refine expected_congr (AList.lookup_erase_ne (Ne.symm own)) ?_
    exact (standing_append _ _ _).trans (note_of_task_ne own)

/-- A move that grants nothing leaves alone what is expected. -/
theorem expected_moved (running : pool.calls.lookup task = some ⟨request, call⟩)
    (moves : Call.Moves pool.broker call access after) (ordered : pool.Ordered)
    (grantless : ∀ client granting wanted, access = .link client granting wanted →
      task ≠ .handler connection) :
    expected (pool.moved task request access after) connection = expected pool connection := by
  by_cases own : task = .handler connection
  · subst own
    have calls : (pool.moved (.handler connection) request access after).calls.lookup
        (.handler connection) = some ⟨request, after⟩ := AList.lookup_insert _
    rcases ordered.stage running with ⟨registration, -, -, stage⟩
    cases request with
    | subscribe filters =>
        rw [expected_of_subscribing calls, expected_of_subscribing running]
        rcases stage.answered_move (standing pool.history connection) moves with
          same | ⟨client, granting, wanted, links⟩
        · exact same
        · exact absurd rfl (grantless _ _ _ links)
    | register _ | unregister _ | unsubscribe _ | publish _ =>
        rw [expected, expected, calls, running]
        rfl
  · exact expected_congr (AList.lookup_insert_ne (Ne.symm own)) rfl

end Expected

/-! ## The invariant -/

/-- `remove_client` drops a subscription only while its client has no entry. -/
def SweepsVacant (pool : Pool) : Pool.Event → Prop
  | .advance task (.visit filter) =>
      ∀ running ∈ pool.calls.lookup task, ∀ client ∈ running.call.sweeps,
        pool.broker.subscriptions.granted filter client = none ∨
          pool.broker.owner client = none
  | _ => True

instance (pool : Pool) : (event : Pool.Event) → Decidable (SweepsVacant pool event)
  | .advance task (.visit filter) =>
      inferInstanceAs (Decidable (∀ running ∈ pool.calls.lookup task,
        ∀ client ∈ running.call.sweeps,
          pool.broker.subscriptions.granted filter client = none ∨
            pool.broker.owner client = none))
  | .advance _ .go => inferInstanceAs (Decidable True)
  | .advance _ (.listed _) => inferInstanceAs (Decidable True)
  | .invoke _ _ => inferInstanceAs (Decidable True)
  | .conclude _ => inferInstanceAs (Decidable True)
  | .environment _ _ => inferInstanceAs (Decidable True)

/-- What a connection may expect after its last answers still stands in the tree, as long as
it owns its client id. -/
structure Kept (pool : Pool) : Prop extends pool.Consistent where
  /-- Nothing stands of the filters that a running call is about. -/
  named : ∀ ⦃connection running⦄, pool.calls.lookup (.handler connection) = some running →
    ∀ filter ∈ running.request.names, standing pool.history connection filter = none
  kept : ∀ ⦃client connection⦄, pool.broker.owner client = some connection →
    ∀ ⦃filter qos⦄, expected pool connection filter = some qos →
    pool.broker.subscriptions.granted filter client = some qos

/-- Where `remove_client` drops a filter, it visits that filter. -/
theorem choice_of_sweeps {broker : Broker} {call after : Call} {choice : Choice}
    {client visited : ClientId} {filter : String} (sweeps : call.sweeps = some visited)
    (stepped : call.step broker choice = some (.unlink client filter, after)) :
    choice = .visit filter := by
  cases call <;> try contradiction
  rename_i due seen resumed
  cases sweeps
  cases choice with
  | visit chosen =>
      simp only [Call.step, Option.ite_none_right_eq_some, Option.some.injEq, Prod.mk.injEq,
        Access.unlink.injEq] at stepped
      rw [stepped.2.1.2]
  | go => cases due <;> simp [Call.step] at stepped
  | listed _ => simp [Call.step] at stepped

namespace Kept

variable {pool next : Pool} {event : Pool.Event} {task : Task} {request : Request}
  {call after : Call} {access : Access} {choice : Choice}

theorem new (channels : ConnectionId → MqttChannel) : Kept (.new channels) where
  toConsistent := .new channels
  named connection running found := by cases found
  kept client connection owned := by cases owned

theorem begun (keeps : Kept pool) (idle : pool.calls.lookup task = none)
    (opened : pool.opening task request = some call)
    (consistent : (pool.begun task request call).Consistent) :
    Kept (pool.begun task request call) where
  toConsistent := consistent
  named connection running found filter listed := by
    simp only [Pool.begun, standing_append]
    rcases Table.lookup_insert_eq_some.mp found with ⟨rfl, rfl⟩ | ⟨differs, before⟩
    · rw [note, if_pos rfl, without, if_pos listed]
    · rw [note_of_task_ne (Ne.symm differs)]
      exact keeps.named before filter listed
  kept client connection owned filter qos holds :=
    keeps.kept owned (expected_begun idle opened holds)

theorem concluded (keeps : Kept pool) {response : Response}
    (running : pool.calls.lookup task = some ⟨request, .returned response⟩)
    (consistent : (pool.concluded task request response).Consistent) :
    Kept (pool.concluded task request response) where
  toConsistent := consistent
  named connection current found filter listed := by
    rcases Table.lookup_erase_eq_some.mp found with ⟨differs, before⟩
    simp only [Pool.concluded, standing_append]
    rw [note_of_task_ne (Ne.symm differs)]
    exact keeps.named before filter listed
  kept client connection owned filter qos holds := by
    rw [expected_concluded running keeps.toOrdered] at holds
    exact keeps.kept owned holds

/-- The call that grants a filter is the one that the owner of the client expects
it from. -/
theorem granted_link (keeps : Kept pool) {client granted : ClientId}
    {connection granting : ConnectionId} {wanted : TopicFilter} {filter : String} {qos : QoS}
    (running : pool.calls.lookup task = some ⟨request, call⟩)
    (moves : Call.Moves pool.broker call (.link granted granting wanted) after)
    (owned : pool.broker.owner client = some connection)
    (holds : expected (pool.moved task request (.link granted granting wanted) after) connection
      filter = some qos) :
    (Access.link granted granting wanted).onGranted pool.broker.subscriptions.granted filter
      client = some qos := by
  rcases keeps.linking running moves with
    ⟨rfl, edits, ⟨registration, joined, rfl⟩, filters, codes, rest, rfl, rfl, due, rfl⟩
  have granter := keeps.guarded running edits
  by_cases same : connection = granting
  · subst same
    rcases keeps.joined_of_owner owned with ⟨registration', joined', rfl⟩
    cases joined.symm.trans joined'
    rw [expected_of_subscribing (AList.lookup_insert _)] at holds
    change Store.answered (standing pool.history connection) filters
      (codes ++ [.granted wanted.qos]) filter = some qos at holds
    rw [answered_granted _ _ due, Function.update_apply] at holds
    rw [Access.onGranted]
    by_cases sameFilter : filter = wanted.filter
    · rw [if_pos sameFilter] at holds
      rw [if_pos ⟨sameFilter, rfl⟩]
      exact holds
    · rw [if_neg sameFilter] at holds
      rw [if_neg fun both => sameFilter both.1]
      refine keeps.kept owned ?_
      rw [expected_of_subscribing running]
      exact holds
  · have differs : client ≠ registration.client := by
      rintro rfl
      exact same (Option.some.inj (owned.symm.trans granter))
    rw [expected_moved running moves keeps.toOrdered
      fun _ _ _ _ sameTask => same (Task.handler.inj sameTask).symm] at holds
    simp only [Access.onGranted]
    rw [if_neg fun both => differs both.2]
    exact keeps.kept owned holds

/-- A filter that the owner of a client may expect is not dropped. -/
theorem not_dropped (keeps : Kept pool) {client dropped : ClientId} {connection : ConnectionId}
    {filter visited : String} {qos : QoS}
    (running : pool.calls.lookup task = some ⟨request, call⟩)
    (met : SweepsVacant pool (.advance task choice))
    (stepped : call.step pool.broker choice = some (.unlink dropped visited, after))
    (owned : pool.broker.owner client = some connection)
    (holds : expected pool connection filter = some qos) :
    ¬(filter = visited ∧ client = dropped) := by
  rintro ⟨rfl, rfl⟩
  have held := keeps.kept owned holds
  rcases keeps.unlinking running (Call.moves_of_step stepped) with
    sweeps | ⟨edits, unsubscribing, topics, rfl, rfl, listed⟩
  · cases choice_of_sweeps sweeps stepped
    rcases met _ running _ sweeps with missing | vacant
    · rw [missing] at held
      contradiction
    · rw [vacant] at owned
      contradiction
  · cases (keeps.guarded running edits).symm.trans owned
    have nothing : expected pool connection filter = none := by
      rw [expected, running]
      exact keeps.named running filter listed
    rw [nothing] at holds
    contradiction

theorem moved (keeps : Kept pool) (running : pool.calls.lookup task = some ⟨request, call⟩)
    (met : SweepsVacant pool (.advance task choice))
    (stepped : call.step pool.broker choice = some (access, after))
    (consistent : (pool.moved task request access after).Consistent) :
    Kept (pool.moved task request access after) where
  toConsistent := consistent
  named connection current found filter listed := by
    rcases Table.lookup_insert_eq_some.mp found with ⟨rfl, rfl⟩ | ⟨-, before⟩
    · exact keeps.named running filter listed
    · exact keeps.named before filter listed
  kept client connection owned filter qos holds := by
    have moves := Call.moves_of_step stepped
    rw [Pool.broker, Pool.moved, owner_apply] at owned
    rw [Pool.broker, Pool.moved, granted_apply]
    cases access with
    | link granted granting wanted => exact keeps.granted_link running moves owned holds
    | unlink dropped visited =>
        rw [expected_moved running moves keeps.toOrdered fun _ _ _ => by simp] at holds
        simp only [Access.onGranted]
        rw [if_neg (keeps.not_dropped running met stepped owned holds)]
        exact keeps.kept owned holds
    | store registration =>
        rw [expected_moved running moves keeps.toOrdered fun _ _ _ => by simp] at holds
        rcases Access.onOwner_eq_some owned with owned | ⟨storing, same, rfl, rfl⟩
        · exact keeps.kept owned holds
        · -- Nothing stands yet of a connection whose entry is only now inserted.
          cases same
          exfalso
          rcases keeps.storing running moves with ⟨rfl, rfl, -, present, rfl, -⟩
          have quiet := keeps.registering ⟨registration, _, fun _ => by simp, running⟩
          have nothing : expected pool registration.connection filter = none := by
            rw [expected, running]
            exact standing_eq_none quiet.2 filter
          rw [nothing] at holds
          contradiction
    | _ =>
        rw [expected_moved running moves keeps.toOrdered fun _ _ _ => by simp] at holds
        rcases Access.onOwner_eq_some owned with owned | ⟨registration, stores, -⟩
        · exact keeps.kept owned holds
        · contradiction

theorem step (keeps : Kept pool) (met : SweepsVacant pool event)
    (moved : pool.step event = some next) : Kept next := by
  have steps := Pool.steps_of_step moved
  have consistent := keeps.toConsistent.step steps
  cases steps with
  | invoke idle opened => exact keeps.begun idle opened consistent
  | advance running unblocked stepped => exact keeps.moved running met stepped consistent
  | conclude running => exact keeps.concluded running consistent
  | environment => exact ⟨consistent, keeps.named, keeps.kept⟩

/-- What stands is expected, also while a call is about other filters. -/
theorem expected_of_standing (keeps : Kept pool) {connection : ConnectionId} {filter : String}
    {qos : QoS} (stands : standing pool.history connection filter = some qos) :
    expected pool connection filter = some qos := by
  cases running : pool.calls.lookup (.handler connection) with
  | none =>
      rw [expected_of_idle running]
      exact stands
  | some current =>
      rcases current with ⟨request, call⟩
      cases request with
      | subscribe filters =>
          rw [expected_of_subscribing running, answered_of_not_mem]
          · exact stands
          · intro listed
            rw [keeps.named running filter listed] at stands
            contradiction
      | register _ | unregister _ | unsubscribe _ | publish _ =>
          rw [expected, running]
          exact stands

end Kept

/-- A granted subscription stands in the tree for as long as its connection is the
registered one and does not call about the filter again, in every run in which
`remove_client` drops subscriptions only of clients without an entry. -/
theorem granted_kept (channels : ConnectionId → MqttChannel) (events : List Pool.Event)
    (pool : Pool) (run : Run Pool.step SweepsVacant (.new channels) events pool)
    (client : ClientId) (connection : ConnectionId)
    (registered : pool.broker.owner client = some connection) (filter : String) (qos : QoS)
    (told : standing pool.history connection filter = some qos) :
    pool.broker.subscriptions.granted filter client = some qos := by
  have keeps : Kept pool :=
    run.invariant (fun _ _ _ keeps met moved => keeps.step met moved) (.new channels)
  exact keeps.kept registered (keeps.expected_of_standing told)

/-- A connection that takes over and subscribes, with the earlier one unregistering
once the later one is done. -/
def calmTeardown : List Pool.Event :=
  Pool.callOf (.handler 1) (.register ⟨"c", 1, none, true⟩) 4 ++
    Pool.callOf (.handler 2) (.register ⟨"c", 2, none, true⟩) 5 ++
    Pool.callOf (.handler 2) (.subscribe [⟨"f", .atLeastOnce⟩]) 5 ++
    Pool.callOf (.handler 1) (.unregister true) 1

theorem granted_kept_takeover :
    let pool := replay Pool.step (.new fun _ => .new) calmTeardown
    pool.broker.subscriptions.granted "f" "c" = some .atLeastOnce :=
  granted_kept (fun _ => .new) calmTeardown _ (Follows.run (by decide +kernel)) "c" 2
    (by decide +kernel) "f" .atLeastOnce (by decide +kernel)

/-- The entry of the first connection is removed; the second registers and
subscribes; then the first goes on to drop the subscriptions of the client. -/
def lateTeardown : List Pool.Event :=
  Pool.callOf (.handler 1) (.register ⟨"c", 1, none, true⟩) 4 ++
    [.invoke (.handler 1) (.unregister true), .advance (.handler 1) .go] ++
    Pool.callOf (.handler 2) (.register ⟨"c", 2, none, true⟩) 4 ++
    Pool.callOf (.handler 2) (.subscribe [⟨"f", .atLeastOnce⟩]) 5 ++
    [.advance (.handler 1) .go, .advance (.handler 1) (.visit "f")]

/-- The teardown of an earlier connection takes a granted subscription from the
registered one. -/
theorem granted_lost :
    ∃ pool, Run Pool.step Any (.new fun _ => .new) lateTeardown pool ∧
      pool.broker.owner "c" = some 2 ∧
      standing pool.history 2 "f" = some .atLeastOnce ∧
      pool.broker.subscriptions.granted "f" "c" = none :=
  ⟨replay Pool.step (.new fun _ => .new) lateTeardown, Follows.run (by decide +kernel),
    by decide +kernel⟩

end HotaruMqtt.Broker
