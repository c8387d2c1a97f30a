import HotaruMqtt.Broker.Pool

/-!
# What holds in every pool

A call that serves a request passes through a few stages only.  From that follows
what the calls of a connection can do to the shared state: its entry is inserted
once, by its own registration, and a call that works on an entry keeps it in its
place.
-/

namespace HotaruMqtt.Broker

open Exec Exec.Transition

/-! ## The stages of a request -/

/-- A call is publishing, and goes on with `next`. -/
inductive Call.Publishes (publication : Publication) (next : Next) : Call → Prop
  | snapshot : Publishes publication next (.snapshot publication next)
  | fanout {subs : List (ClientId × QoS)} :
      Publishes publication next (.fanout publication subs next)
  | enqueue {client : ClientId} {target : ConnectionId} {subQos : QoS}
      {subs : List (ClientId × QoS)} :
      Publishes publication next (.enqueue publication client target subQos subs next)

/-- The calls that a request of a registered connection passes through. -/
inductive Stage (registration : Registration) : Request → Call → Prop
  | remove : Stage registration (.register registration) (.remove registration)
  | close {previous : SubscriberEntry} :
      Stage registration (.register registration) (.close registration previous)
  | takeOver {publication : Publication} {present : Bool} {call : Call}
      (publishes : call.Publishes publication (.clear registration present)) :
      Stage registration (.register registration) call
  | clear {present : Bool} :
      Stage registration (.register registration)
        (.wipe registration.client (.store registration present))
  | clearing {due seen : List String} {present : Bool} :
      Stage registration (.register registration)
        (.sweep registration.client due seen (.store registration present))
  | store {present : Bool} :
      Stage registration (.register registration) (.store registration present)
  | registered {present : Bool} :
      Stage registration (.register registration) (.returned (.registered present))
  | removeIf {graceful : Bool} :
      Stage registration (.unregister graceful)
        (.removeIf registration.client registration.connection graceful)
  | wipe {will : Option WillMessage} {graceful : Bool} :
      Stage registration (.unregister graceful)
        (.wipe registration.client (.lastWill registration.connection will graceful))
  | wiping {due seen : List String} {will : Option WillMessage} {graceful : Bool} :
      Stage registration (.unregister graceful)
        (.sweep registration.client due seen (.lastWill registration.connection will graceful))
  | lastWill {publication : Publication} {call : Call}
      (publishes : call.Publishes publication .finish)
      (own : publication.origin = .will registration.connection) :
      Stage registration (.unregister false) call
  | unregistered {graceful : Bool} :
      Stage registration (.unregister graceful) (.returned .done)
  | findSubscribe {filters : List TopicFilter} :
      Stage registration (.subscribe filters)
        (.findSubscribe registration.client registration.connection filters)
  | grant {filters rest : List TopicFilter} {codes : List SubackCode}
      (due : filters.drop codes.length = rest) :
      Stage registration (.subscribe filters)
        (.grant registration.client registration.connection codes rest)
  | openFilter {filters rest : List TopicFilter} {codes : List SubackCode} {wanted : TopicFilter}
      (due : filters.drop codes.length = wanted :: rest) :
      Stage registration (.subscribe filters)
        (.openFilter registration.client registration.connection codes wanted rest)
  | link {filters rest : List TopicFilter} {codes : List SubackCode} {wanted : TopicFilter}
      (due : filters.drop codes.length = wanted :: rest) :
      Stage registration (.subscribe filters)
        (.link registration.client registration.connection codes wanted rest)
  | subscribed {filters : List TopicFilter} {codes : List SubackCode} :
      Stage registration (.subscribe filters) (.returned (.subscribed codes))
  | findUnsubscribe {topics : List String} :
      Stage registration (.unsubscribe topics)
        (.findUnsubscribe registration.client registration.connection topics)
  | revoke {topics rest : List String} (due : rest ⊆ topics) :
      Stage registration (.unsubscribe topics)
        (.revoke registration.client registration.connection rest)
  | unlink {topics rest : List String} {topic : String} (due : topic :: rest ⊆ topics) :
      Stage registration (.unsubscribe topics)
        (.unlink registration.client registration.connection topic rest)
  | unsubscribed {topics : List String} :
      Stage registration (.unsubscribe topics) (.returned .done)

variable {broker : Broker} {call after : Call} {access : Access} {registration : Registration}
  {request : Request}

theorem Call.Publishes.move {publication : Publication} {next : Next}
    (publishes : call.Publishes publication next) (moves : Call.Moves broker call access after) :
    after.Publishes publication next ∨ after = next.resume := by
  cases publishes with
  | snapshot =>
      cases moves
      exact .inl .fanout
  | fanout =>
      cases moves with
      | skip => exact .inl .fanout
      | found => exact .inl .enqueue
      | fanned => exact .inr rfl
  | enqueue =>
      cases moves
      exact .inl .fanout

namespace Stage

theorem resume_clear (present : Bool) :
    Stage registration (.register registration) (Next.clear registration present).resume := by
  simp only [Next.resume]
  split
  · exact .clear
  · exact .store

theorem resume_lastWill (will : Option WillMessage) (graceful : Bool) :
    Stage registration (.unregister graceful)
      (Next.lastWill registration.connection will graceful).resume := by
  cases will with
  | none => exact .unregistered
  | some will =>
      cases graceful with
      | true => exact .unregistered
      | false => exact .lastWill .snapshot rfl

theorem publishWill (previous : SubscriberEntry) (present : Bool) :
    Stage registration (.register registration)
      (.publishWill previous.connection (.clear registration present) previous.will) := by
  cases previous.will with
  | none => exact resume_clear present
  | some will => exact .takeOver .snapshot

/-- The part of the list that is due after one more answer. -/
theorem drop_snoc {filters rest : List TopicFilter} {codes : List SubackCode}
    {wanted : TopicFilter} (due : filters.drop codes.length = wanted :: rest) (code : SubackCode) :
    filters.drop (codes ++ [code]).length = rest := by
  rw [List.length_append, List.length_singleton, ← List.drop_drop, due]
  rfl

theorem move (stage : Stage registration request call)
    (moves : Call.Moves broker call access after) : Stage registration request after := by
  cases stage with
  | remove =>
      cases moves with
      | removeFound => exact .close
      | removeVacant => exact resume_clear false
  | close =>
      cases moves
      exact publishWill _ _
  | takeOver publishes =>
      rcases publishes.move moves with publishes | rfl
      · exact .takeOver publishes
      · exact resume_clear _
  | clear => cases moves; exact .clearing
  | clearing =>
      cases moves with
      | visit => exact .clearing
      | swept => exact .store
  | store => cases moves; exact .registered
  | removeIf =>
      cases moves with
      | removeOwn => exact .wipe
      | removeNothing => exact .unregistered
  | wipe => cases moves; exact .wiping
  | wiping =>
      cases moves with
      | visit => exact .wiping
      | swept => exact resume_lastWill _ _
  | lastWill publishes own =>
      rcases publishes.move moves with publishes | rfl
      · exact .lastWill publishes own
      · exact .unregistered
  | findSubscribe =>
      cases moves with
      | subscribeFound => exact .grant rfl
      | subscribeRefused => exact .subscribed
  | grant due =>
      cases moves with
      | grantValid => exact .openFilter due
      | grantInvalid => exact .grant (drop_snoc due _)
      | granted => exact .subscribed
  | openFilter due => cases moves; exact .link due
  | link due => cases moves; exact .grant (drop_snoc due _)
  | findUnsubscribe =>
      cases moves with
      | unsubscribeFound => exact .revoke (List.Subset.refl _)
      | unsubscribeRefused => exact .unsubscribed
  | revoke due =>
      cases moves with
      | forget => exact .unlink due
      | revoked => exact .unsubscribed
  | unlink due => cases moves; exact .revoke (List.subset_of_cons_subset due)
  | registered | unregistered | subscribed | unsubscribed => cases moves

/-- A call comes to work on the entry of a client only if the entry is the
connection's own, and then leaves all entries where they are. -/
theorem edits_move {client : ClientId} (stage : Stage registration request call)
    (moves : Call.Moves broker call access after) (edits : after.edits = some client) :
    (call.edits = some client ∨ broker.owner client = some registration.connection) ∧
      access.onOwner broker.owner = broker.owner := by
  cases moves with
  | subscribeFound own =>
      cases edits
      cases stage with
      | findSubscribe => exact ⟨.inr (owner_of_ownEntry own), rfl⟩
      | takeOver publishes | lastWill publishes => cases publishes
  | unsubscribeFound own =>
      cases edits
      cases stage with
      | findUnsubscribe => exact ⟨.inr (owner_of_ownEntry own), rfl⟩
      | takeOver publishes | lastWill publishes => cases publishes
  | grantValid | grantInvalid | openFilter | link | forget | unlink => exact ⟨.inl edits, rfl⟩
  | removeVacant | close | swept | fanned => simpa using Call.holds_of_edits edits
  | _ => contradiction

/-- A registration returns when it has inserted its entry. -/
theorem storing_of_returned {response : Response}
    (stage : Stage registration (.register registration) call)
    (moves : Call.Moves broker call access (.returned response)) :
    access = .store registration := by
  generalize returned : Call.returned response = after at moves
  have unfinished : ∀ present, (Next.clear registration present).resume ≠ .returned response := by
    intro present
    rw [Next.resume]
    split <;> simp
  cases stage with
  | store =>
      cases moves
      rfl
  | remove =>
      cases moves with
      | removeFound => contradiction
      | removeVacant => exact absurd returned.symm (unfinished _)
  | close =>
      cases moves
      rename_i previous
      cases will : previous.will with
      | none => exact absurd (by rw [returned, will]; rfl) (unfinished _)
      | some _ => rw [will] at returned; contradiction
  | takeOver publishes =>
      rcases publishes.move moves with publishes | resumed
      · rw [← returned] at publishes
        cases publishes
      · exact absurd (resumed.symm.trans returned.symm) (unfinished _)
  | clear => cases moves; contradiction
  | clearing => cases moves <;> contradiction
  | registered => cases moves

end Stage

/-- The running call of a task serves a request that the task may make. -/
def Serving (joined : ConnectionId → Option Registration) : Task → Running → Prop
  | .handler connection, running =>
      ∃ registration, joined connection = some registration ∧
        registration.connection = connection ∧ Stage registration running.request running.call
  | .worker _, running =>
      ∃ publication, running.request = .publish publication ∧
        (running.call.Publishes publication .finish ∨ running.call = .returned .done)

namespace Serving

variable {joined joinedAfter : ConnectionId → Option Registration} {task : Task}
  {running : Running}

theorem mono (serving : Serving joined task running)
    (extends_ : ∀ connection registration, joined connection = some registration →
      joinedAfter connection = some registration) : Serving joinedAfter task running := by
  cases task with
  | handler connection =>
      rcases serving with ⟨registration, found, own, stage⟩
      exact ⟨registration, extends_ _ _ found, own, stage⟩
  | worker connection => exact serving

theorem move (serving : Serving joined task ⟨request, call⟩)
    (moves : Call.Moves broker call access after) : Serving joined task ⟨request, after⟩ := by
  cases task with
  | handler connection =>
      rcases serving with ⟨registration, found, own, stage⟩
      exact ⟨registration, found, own, stage.move moves⟩
  | worker connection =>
      rcases serving with ⟨publication, asked, publishes | rfl⟩
      · rcases publishes.move moves with publishes | rfl
        · exact ⟨publication, asked, .inl publishes⟩
        · exact ⟨publication, asked, .inr rfl⟩
      · cases moves

end Serving

namespace Pool

variable {pool next : Pool} {event : Event} {task : Task}

/-! ## Every running call serves a request -/

/-- What holds whatever the broker holds. -/
structure Ordered (pool : Pool) : Prop where
  served : ∀ ⦃task running⦄, pool.calls.lookup task = some running →
    Serving pool.joined task running
  own : ∀ ⦃connection registration⦄, pool.joined connection = some registration →
    registration.connection = connection

/-- Only a connection that has not joined yet may register. -/
theorem opening_register {registration : Registration}
    (opened : pool.opening task (.register registration) = some call) :
    task = .handler registration.connection ∧ pool.joined registration.connection = none ∧
      call = .remove registration := by
  cases task with
  | worker _ => simp [opening] at opened
  | handler connection =>
      simp only [opening] at opened
      split at opened
      · rename_i unused
        cases opened
        rcases unused with ⟨rfl, unused⟩
        exact ⟨rfl, unused, rfl⟩
      · contradiction

/-- A connection that has joined stays so, with what it joined with. -/
theorem joined_step {connection : ConnectionId} {registration : Registration}
    (steps : Steps pool event next) (found : pool.joined connection = some registration) :
    next.joined connection = some registration := by
  cases steps with
  | invoke idle opened =>
      rename_i task request call
      cases request with
      | register joining =>
          have differs : connection ≠ joining.connection := by
            rintro rfl
            rw [(opening_register opened).2.1] at found
            contradiction
          simpa [begun, joinedBy, Function.update_of_ne differs] using found
      | unregister _ | subscribe _ | unsubscribe _ | publish _ => exact found
  | advance | conclude | environment => exact found

namespace Ordered

theorem around (broker : Broker) : (Pool.around broker).Ordered where
  served task running found := by cases found
  own connection registration found := by cases found

theorem serving_opening (ordered : pool.Ordered)
    (opened : pool.opening task request = some call) :
    Serving (joinedBy pool.joined request) task ⟨request, call⟩ := by
  cases request with
  | register registration =>
      rcases opening_register opened with ⟨rfl, -, rfl⟩
      exact ⟨registration, by simp [joinedBy], rfl, .remove⟩
  | publish publication =>
      cases task <;> simp only [opening, reduceCtorEq, Option.some.injEq] at opened
      subst opened
      exact ⟨publication, rfl, .inl .snapshot⟩
  | unregister graceful =>
      cases task <;> simp only [opening, reduceCtorEq, Option.map_eq_some_iff] at opened
      rcases opened with ⟨registration, found, rfl⟩
      cases ordered.own found
      exact ⟨registration, found, rfl, .removeIf⟩
  | subscribe filters =>
      cases task <;> simp only [opening, reduceCtorEq, Option.map_eq_some_iff] at opened
      rcases opened with ⟨registration, found, rfl⟩
      cases ordered.own found
      exact ⟨registration, found, rfl, .findSubscribe⟩
  | unsubscribe topics =>
      cases task <;> simp only [opening, reduceCtorEq, Option.map_eq_some_iff] at opened
      rcases opened with ⟨registration, found, rfl⟩
      cases ordered.own found
      exact ⟨registration, found, rfl, .findUnsubscribe⟩

theorem own_joinedBy (ordered : pool.Ordered) {connection : ConnectionId}
    {registration : Registration}
    (found : joinedBy pool.joined request connection = some registration) :
    registration.connection = connection := by
  cases request with
  | register joining =>
      simp only [joinedBy, Function.update_apply] at found
      split at found
      · cases found
        exact Eq.symm ‹_›
      · exact ordered.own found
  | unregister _ | subscribe _ | unsubscribe _ | publish _ => exact ordered.own found

theorem step (ordered : pool.Ordered) (steps : Steps pool event next) : next.Ordered where
  served other running found := by
    have keeps := fun connection registration =>
      @joined_step _ _ _ connection registration steps
    cases steps with
    | invoke idle opened =>
        rcases Table.lookup_insert_eq_some.mp found with ⟨rfl, rfl⟩ | ⟨-, found⟩
        · exact ordered.serving_opening opened
        · exact (ordered.served found).mono keeps
    | advance calling unblocked stepped =>
        rcases Table.lookup_insert_eq_some.mp found with ⟨rfl, rfl⟩ | ⟨-, found⟩
        · exact (ordered.served calling).move (Call.moves_of_step stepped)
        · exact ordered.served found
    | conclude calling => exact ordered.served (Table.lookup_erase_eq_some.mp found).2
    | environment => exact ordered.served found
  own connection registration found := by
    cases steps with
    | invoke idle opened => exact ordered.own_joinedBy found
    | advance | conclude | environment => exact ordered.own found

/-- The stage of a handler's call. -/
theorem stage (ordered : pool.Ordered) {connection : ConnectionId} {running : Running}
    (found : pool.calls.lookup (.handler connection) = some running) :
    ∃ registration, pool.joined connection = some registration ∧
      registration.connection = connection ∧
      Stage registration running.request running.call :=
  ordered.served found

/-- A call that neither publishes nor has returned is one of a handler. -/
theorem handled (ordered : pool.Ordered)
    (running : pool.calls.lookup task = some ⟨request, call⟩)
    (silent : ∀ publication, ¬call.Publishes publication .finish)
    (unfinished : call ≠ .returned .done) :
    ∃ registration, task = .handler registration.connection ∧
      pool.joined registration.connection = some registration ∧
      Stage registration request call := by
  have serving := ordered.served running
  cases task with
  | worker _ =>
      rcases serving with ⟨publication, -, publishes | returned⟩
      · exact absurd publishes (silent publication)
      · exact absurd returned unfinished
  | handler connection =>
      rcases serving with ⟨registration, found, rfl, stage⟩
      exact ⟨registration, rfl, found, stage⟩

/-- An entry is inserted by the registration of its own connection. -/
theorem storing (ordered : pool.Ordered)
    (running : pool.calls.lookup task = some ⟨request, call⟩)
    (moves : Call.Moves pool.broker call (.store registration) after) :
    task = .handler registration.connection ∧ request = .register registration ∧
      pool.joined registration.connection = some registration ∧
      ∃ present, call = .store registration present ∧
        after = .returned (.registered present) := by
  cases moves with
  | store =>
      rcases ordered.handled running nofun nofun with ⟨joined, rfl, found, stage⟩
      cases stage with
      | store => exact ⟨rfl, rfl, found, _, rfl, rfl⟩
      | takeOver publishes | lastWill publishes => cases publishes

/-- An entry is removed for its own connection by the unregistration of that
connection, under the identifier it joined with. -/
theorem unregistering (ordered : pool.Ordered) {client : ClientId} {connection : ConnectionId}
    {graceful : Bool}
    (running : pool.calls.lookup task = some ⟨request, .removeIf client connection graceful⟩) :
    task = .handler connection ∧ request = .unregister graceful ∧
      ∃ registration, pool.joined connection = some registration ∧
        registration.client = client := by
  rcases ordered.handled running nofun nofun with ⟨joined, rfl, found, stage⟩
  cases stage with
  | removeIf => exact ⟨rfl, rfl, joined, found, rfl⟩
  | takeOver publishes | lastWill publishes => cases publishes

/-- A filter is granted by the subscribe call of a connection, to the client it
joined with. -/
theorem linking (ordered : pool.Ordered) {client : ClientId} {connection : ConnectionId}
    {wanted : TopicFilter} (running : pool.calls.lookup task = some ⟨request, call⟩)
    (moves : Call.Moves pool.broker call (.link client connection wanted) after) :
    task = .handler connection ∧ call.edits = some client ∧
      (∃ registration, pool.joined connection = some registration ∧
        registration.client = client) ∧
      ∃ filters codes rest, request = .subscribe filters ∧
        call = .link client connection codes wanted rest ∧
        filters.drop codes.length = wanted :: rest ∧
        after = .grant client connection (codes ++ [.granted wanted.qos]) rest := by
  cases moves with
  | link =>
      rcases ordered.handled running nofun nofun with ⟨joined, rfl, found, stage⟩
      cases stage with
      | link due => exact ⟨rfl, rfl, ⟨joined, found, rfl⟩, _, _, _, rfl, rfl, due, rfl⟩
      | takeOver publishes | lastWill publishes => cases publishes

/-- A filter is dropped by `remove_client`, or by the unsubscribe call of a
connection that names it. -/
theorem unlinking (ordered : pool.Ordered) {client : ClientId} {filter : String}
    (running : pool.calls.lookup task = some ⟨request, call⟩)
    (moves : Call.Moves pool.broker call (.unlink client filter) after) :
    call.sweeps = some client ∨ call.edits = some client ∧ ∃ connection topics,
      task = .handler connection ∧ request = .unsubscribe topics ∧ filter ∈ topics := by
  cases moves with
  | visit => exact .inl rfl
  | unlink =>
      rcases ordered.handled running nofun nofun with ⟨joined, rfl, found, stage⟩
      cases stage with
      | unlink due => exact .inr ⟨rfl, _, _, rfl, rfl, List.cons_subset.mp due |>.1⟩
      | takeOver publishes | lastWill publishes => cases publishes

end Ordered

/-! ## What holds of the broker -/

/-- The handler of a connection is in the middle of its registration. -/
def Registering (pool : Pool) (connection : ConnectionId) : Prop :=
  ∃ registration call, (∀ response, call ≠ .returned response) ∧
    pool.calls.lookup (.handler connection) = some ⟨.register registration, call⟩

/-! ## Registrations in progress -/

section Registering

variable {client : ClientId} {connection : ConnectionId}

theorem registering_of_moved (running : pool.calls.lookup task = some ⟨request, call⟩)
    (moves : Call.Moves pool.broker call access after)
    (busy : (pool.moved task request access after).Registering connection) :
    pool.Registering connection := by
  rcases busy with ⟨registration, current, unfinished, found⟩
  rcases Table.lookup_insert_eq_some.mp found with ⟨rfl, same⟩ | ⟨-, found⟩
  · cases same
    refine ⟨registration, call, ?_, running⟩
    rintro response rfl
    cases moves
  · exact ⟨registration, current, unfinished, found⟩

/-- A connection comes to own a client when its registration inserts its entry. -/
theorem owner_of_moved (running : pool.calls.lookup task = some ⟨request, call⟩)
    (moves : Call.Moves pool.broker call access after) (ordered : pool.Ordered)
    (owned : (pool.moved task request access after).broker.owner client = some connection) :
    pool.broker.owner client = some connection ∨ pool.Registering connection := by
  rw [Pool.broker, Pool.moved, owner_apply] at owned
  rcases Access.onOwner_eq_some owned with owned | ⟨registration, rfl, -, rfl⟩
  · exact .inl owned
  · rcases ordered.storing running moves with ⟨rfl, rfl, -, present, rfl, -⟩
    exact .inr ⟨registration, _, fun _ => by simp, running⟩

theorem registering_of_begun
    (busy : (pool.begun task request call).Registering connection) :
    pool.Registering connection ∨ task = .handler connection ∧
      ∃ registration, request = .register registration := by
  rcases busy with ⟨registration, current, unfinished, found⟩
  rcases Table.lookup_insert_eq_some.mp found with ⟨rfl, same⟩ | ⟨-, found⟩
  · cases same
    exact .inr ⟨rfl, registration, rfl⟩
  · exact .inl ⟨registration, current, unfinished, found⟩

theorem registering_of_concluded {response : Response}
    (busy : (pool.concluded task request response).Registering connection) :
    pool.Registering connection := by
  rcases busy with ⟨registration, current, unfinished, found⟩
  exact ⟨registration, current, unfinished, (Table.lookup_erase_eq_some.mp found).2⟩

end Registering

/-- What holds in every pool that began with an empty broker. -/
structure Consistent (pool : Pool) : Prop extends pool.Ordered where
  stored : ∀ ⦃entry⦄, entry ∈ pool.shared.stored →
    pool.joined entry.registration.connection = some entry.registration
  /-- Until its entry is inserted, a connection has called nothing else. -/
  registering : ∀ ⦃connection⦄, pool.Registering connection →
    (∀ entry ∈ pool.shared.stored, entry.registration.connection ≠ connection) ∧
      ∀ occurrence ∈ pool.history, occurrence.task = .handler connection →
        ∃ registration, occurrence = .invoked (.handler connection) (.register registration)
  silent : ∀ ⦃connection⦄, pool.joined connection = none →
    ∀ occurrence ∈ pool.history, occurrence.task ≠ .handler connection
  owned : ∀ ⦃client connection⦄, pool.broker.owner client = some connection →
    ∃ entry ∈ pool.shared.stored, entry.registration.client = client ∧
      entry.registration.connection = connection
  guarded : ∀ ⦃connection running client⦄,
    pool.calls.lookup (.handler connection) = some running →
    running.call.edits = some client → pool.broker.owner client = some connection

namespace Consistent

theorem new (channels : ConnectionId → MqttChannel) : (Pool.new channels).Consistent where
  toOrdered := .around _
  stored entry listed := by cases listed
  registering connection busy := by
    rcases busy with ⟨registration, call, -, found⟩
    cases found
  silent connection _ occurrence listed := by cases listed
  owned client connection owned := by cases owned
  guarded connection running client found := by cases found

theorem begun (consistent : pool.Consistent) (opened : pool.opening task request = some call)
    (ordered : (pool.begun task request call).Ordered)
    (keeps : ∀ ⦃connection registration⦄, pool.joined connection = some registration →
      (pool.begun task request call).joined connection = some registration) :
    (pool.begun task request call).Consistent where
  toOrdered := ordered
  stored entry listed := keeps (consistent.stored listed)
  registering connection busy := by
    rcases busy with ⟨registration, running, unfinished, found⟩
    rcases Table.lookup_insert_eq_some.mp found with ⟨rfl, asked⟩ | ⟨differs, found⟩
    · -- The connection joins now, so that nothing is recorded of it yet.
      cases asked
      rcases opening_register opened with ⟨own, unused, -⟩
      cases own
      constructor
      · intro entry listed sameConnection
        rw [← sameConnection, consistent.stored listed] at unused
        contradiction
      · intro occurrence listed byHandler
        rcases List.mem_append.mp listed with listed | listed
        · exact absurd byHandler (consistent.silent unused occurrence listed)
        · exact ⟨registration, List.mem_singleton.mp listed⟩
    · rcases consistent.registering ⟨registration, running, unfinished, found⟩ with
        ⟨unstored, quiet⟩
      refine ⟨unstored, fun occurrence listed byHandler => ?_⟩
      rcases List.mem_append.mp listed with listed | listed
      · exact quiet occurrence listed byHandler
      · cases List.mem_singleton.mp listed
        exact absurd byHandler.symm differs
  silent connection unused occurrence listed := by
    rcases List.mem_append.mp listed with listed | listed
    · exact consistent.silent (joined_eq_none_of_begun unused) occurrence listed
    · cases List.mem_singleton.mp listed
      rintro rfl
      rcases consistent.toOrdered.serving_opening opened with ⟨registration, joined, -⟩
      exact absurd (unused.symm.trans joined) (by simp)
  owned client connection owned := consistent.owned owned
  guarded connection running client found edits := by
    rcases Table.lookup_insert_eq_some.mp found with ⟨rfl, rfl⟩ | ⟨-, found⟩
    · cases opens_of_opening opened <;> contradiction
    · exact consistent.guarded found edits

theorem moved (consistent : pool.Consistent)
    (running : pool.calls.lookup task = some ⟨request, call⟩) (unblocked : pool.Unblocked call)
    (moves : Call.Moves pool.broker call access after)
    (ordered : (pool.moved task request access after).Ordered) :
    (pool.moved task request access after).Consistent where
  toOrdered := ordered
  stored entry listed := by
    rcases mem_stored_apply.mp listed with listed | ⟨registration, rfl, rfl⟩
    · exact consistent.stored listed
    · exact (consistent.toOrdered.storing running moves).2.2.1
  registering connection busy := by
    rcases consistent.registering (registering_of_moved running moves busy) with ⟨unstored, quiet⟩
    refine ⟨fun entry listed sameConnection => ?_, quiet⟩
    rcases mem_stored_apply.mp listed with listed | ⟨storing, rfl, rfl⟩
    · exact unstored entry listed sameConnection
    · -- The registration that inserts its entry is over with that.
      rcases consistent.toOrdered.storing running moves with ⟨rfl, -, -, present, -, rfl⟩
      cases sameConnection
      rcases busy with ⟨registration, current, unfinished, found⟩
      rcases Table.lookup_insert_eq_some.mp found with ⟨-, asked⟩ | ⟨differs, -⟩
      · cases asked
        exact unfinished _ rfl
      · exact differs rfl
  silent connection unused := consistent.silent unused
  owned client connection owned := by
    rw [Pool.broker, Pool.moved, owner_apply] at owned
    rcases Access.onOwner_eq_some owned with owned | ⟨registration, rfl, rfl, rfl⟩
    · rcases consistent.owned owned with ⟨entry, listed, same⟩
      exact ⟨entry, mem_stored_apply.mpr (.inl listed), same⟩
    · exact ⟨_, mem_stored_apply.mpr (.inr ⟨registration, rfl, rfl⟩), rfl, rfl⟩
  guarded connection current client found edits := by
    rw [Pool.broker, Pool.moved, owner_apply]
    rcases Table.lookup_insert_eq_some.mp found with ⟨rfl, rfl⟩ | ⟨-, found⟩
    · rcases consistent.stage running with ⟨registration, -, own, stage⟩
      rcases stage.edits_move moves edits with ⟨edited | owned, still⟩
      · rw [still]
        exact consistent.guarded running edited
      · rw [still, owned, own]
    · have owned := consistent.guarded found edits
      have elsewhere : call.needs ≠ some client := fun needs =>
        (unblocked client needs).holds_ne found (Call.holds_of_edits edits)
      rw [moves.onOwner_of_needs_ne elsewhere]
      exact owned

theorem concluded (consistent : pool.Consistent) {response : Response}
    (running : pool.calls.lookup task = some ⟨request, .returned response⟩)
    (ordered : (pool.concluded task request response).Ordered) :
    (pool.concluded task request response).Consistent where
  toOrdered := ordered
  stored entry listed := consistent.stored listed
  registering connection busy := by
    rcases busy with ⟨registration, current, unfinished, found⟩
    rcases Table.lookup_erase_eq_some.mp found with ⟨differs, found⟩
    rcases consistent.registering ⟨registration, current, unfinished, found⟩ with
      ⟨unstored, quiet⟩
    refine ⟨unstored, fun occurrence listed byHandler => ?_⟩
    rcases List.mem_append.mp listed with listed | listed
    · exact quiet occurrence listed byHandler
    · cases List.mem_singleton.mp listed
      exact absurd byHandler.symm differs
  silent connection unused occurrence listed := by
    rcases List.mem_append.mp listed with listed | listed
    · exact consistent.silent unused occurrence listed
    · cases List.mem_singleton.mp listed
      rintro rfl
      rcases consistent.stage running with ⟨registration, joined, -⟩
      exact absurd (unused.symm.trans joined) (by simp)
  owned client connection owned := consistent.owned owned
  guarded connection current client found edits :=
    consistent.guarded (Table.lookup_erase_eq_some.mp found).2 edits

theorem step (consistent : pool.Consistent) (steps : Steps pool event next) :
    next.Consistent := by
  have ordered := consistent.toOrdered.step steps
  have keeps := fun connection registration => @joined_step _ _ _ connection registration steps
  cases steps with
  | invoke idle opened => exact consistent.begun opened ordered keeps
  | advance running unblocked stepped =>
      exact consistent.moved running unblocked (Call.moves_of_step stepped) ordered
  | conclude running => exact consistent.concluded running ordered
  | environment => exact { consistent with toOrdered := ordered }

/-- The owner of a client joined with it. -/
theorem joined_of_owner (consistent : pool.Consistent) {client : ClientId}
    {connection : ConnectionId} (owned : pool.broker.owner client = some connection) :
    ∃ registration, pool.joined connection = some registration ∧
      registration.client = client := by
  rcases consistent.owned owned with ⟨entry, listed, rfl, rfl⟩
  exact ⟨entry.registration, consistent.stored listed, rfl⟩

end Consistent

end Pool

end HotaruMqtt.Broker
