import HotaruMqtt.Broker.Calls
import HotaruMqtt.Exec.Transition

/-!
# Calls beside each other

Any number of tasks call the broker.  A task makes one call at a time: the handler
of a connection registers once and then subscribes, unsubscribes and unregisters
under the identifier it registered with; a worker publishes.  The calls of
different tasks interleave access by access, and the channels may change between
any two accesses.

`joined` and `history` are kept for statements only.
-/

namespace HotaruMqtt.Broker

open Exec Exec.Transition

/-- The tasks that call the broker: the handler of a connection and its chain
worker. -/
inductive Task
  | handler (connection : ConnectionId)
  | worker (connection : ConnectionId)
  deriving DecidableEq, Repr

/-- What a task asks the broker for. -/
inductive Request
  | register (registration : Registration)
  | unregister (graceful : Bool)
  | subscribe (filters : List TopicFilter)
  | unsubscribe (topics : List String)
  | publish (publication : Publication)
  deriving DecidableEq, Repr

/-- A call that has not returned to its caller: what it was asked for and where it stands. -/
structure Running where
  request : Request
  call : Call

/-- What is seen of a call from outside. -/
inductive Occurrence
  | invoked (task : Task) (request : Request)
  | returned (task : Task) (request : Request) (response : Response)
  deriving DecidableEq, Repr

/-- The task that made the call. -/
def Occurrence.task : Occurrence → Task
  | .invoked task _ => task
  | .returned task _ _ => task

/-- The broker with the calls that are running in it, at most one for each task, and what has
been seen of them. -/
structure Pool where
  shared : Shared
  calls : Table Task Running
  /-- With what a connection has called `register_session`. -/
  joined : ConnectionId → Option Registration
  history : List Occurrence

namespace Pool

/-- Nobody calls the broker yet. -/
def around (broker : Broker) : Pool :=
  ⟨⟨broker, [], []⟩, ∅, fun _ => none, []⟩

/-- Nobody has called yet. -/
def new (channels : ConnectionId → MqttChannel) : Pool :=
  around (.new channels)

/-- The tables that all calls work on. -/
abbrev broker (pool : Pool) : Broker :=
  pool.shared.broker

/-- Where the call for a request begins, if the task may make it. -/
def opening (pool : Pool) : Task → Request → Option Call
  | .handler connection, .register registration =>
      if registration.connection = connection ∧ pool.joined connection = none then
        some (.remove registration)
      else
        none
  | .handler connection, .unregister graceful =>
      (pool.joined connection).map fun registration =>
        .removeIf registration.client connection graceful
  | .handler connection, .subscribe filters =>
      (pool.joined connection).map fun registration =>
        .findSubscribe registration.client connection filters
  | .handler connection, .unsubscribe topics =>
      (pool.joined connection).map fun registration =>
        .findUnsubscribe registration.client connection topics
  | .worker _, .publish publication => some (.snapshot publication .finish)
  | _, _ => none

/-- What a request adds to the record of who has called `register_session`. -/
def joinedBy (joined : ConnectionId → Option Registration) :
    Request → ConnectionId → Option Registration
  | .register registration => Function.update joined registration.connection (some registration)
  | _ => joined

/-- No guard of the client's entry is out. -/
def Free (pool : Pool) (client : ClientId) : Prop :=
  ∀ running ∈ pool.calls.entries, running.2.call.holds ≠ some client

instance (pool : Pool) (client : ClientId) : Decidable (pool.Free client) :=
  inferInstanceAs (Decidable (∀ running ∈ pool.calls.entries, running.2.call.holds ≠ some client))

/-- Nothing keeps the call from its next move. -/
def Unblocked (pool : Pool) (call : Call) : Prop :=
  ∀ client ∈ call.needs, pool.Free client

instance (pool : Pool) (call : Call) : Decidable (pool.Unblocked call) :=
  inferInstanceAs (Decidable (∀ client ∈ call.needs, pool.Free client))

/-- No task is calling. -/
def Idle (pool : Pool) : Prop :=
  pool.calls.keys = []

instance (pool : Pool) : Decidable pool.Idle :=
  inferInstanceAs (Decidable (pool.calls.keys = []))

/-- What happens in the broker, one access of one call at a time. -/
inductive Event
  | invoke (task : Task) (request : Request)
  | advance (task : Task) (choice : Choice)
  | conclude (task : Task)
  /-- The channel of a connection is used by others. -/
  | environment (connection : ConnectionId) (channel : MqttChannel)

/-- A task has begun a call. -/
def begun (pool : Pool) (task : Task) (request : Request) (call : Call) : Pool :=
  { pool with
    calls := pool.calls.insert task ⟨request, call⟩
    joined := joinedBy pool.joined request
    history := pool.history ++ [.invoked task request] }

/-- A task has made a move. -/
def moved (pool : Pool) (task : Task) (request : Request) (access : Access) (next : Call) : Pool :=
  { pool with
    shared := pool.shared.apply access
    calls := pool.calls.insert task ⟨request, next⟩ }

/-- The call of a task has returned. -/
def concluded (pool : Pool) (task : Task) (request : Request) (response : Response) : Pool :=
  { pool with
    calls := pool.calls.erase task
    history := pool.history ++ [.returned task request response] }

/-- A task that has no call running makes one. -/
def invoke (pool : Pool) (task : Task) (request : Request) : Option Pool :=
  match pool.calls.lookup task with
  | some _ => none
  | none => (pool.opening task request).map (pool.begun task request)

/-- A running call makes its next access, unless a guard of another call is in its way. -/
def advance (pool : Pool) (task : Task) (choice : Choice) : Option Pool :=
  match pool.calls.lookup task with
  | none => none
  | some running =>
      if pool.Unblocked running.call then
        (running.call.step pool.broker choice).map fun move =>
          pool.moved task running.request move.1 move.2
      else
        none

/-- A call that is at its end returns to its task. -/
def conclude (pool : Pool) (task : Task) : Option Pool :=
  match pool.calls.lookup task with
  | some ⟨request, .returned response⟩ => some (pool.concluded task request response)
  | _ => none

/-- Others leave the channel of a connection in some state. -/
def environment (pool : Pool) (connection : ConnectionId) (channel : MqttChannel) : Pool :=
  { pool with
    shared := { pool.shared with
      broker := pool.broker.withChannel connection fun _ => channel } }

/-- One event; one that cannot happen has no successor. -/
def step (pool : Pool) : Event → Option Pool
  | .invoke task request => pool.invoke task request
  | .advance task choice => pool.advance task choice
  | .conclude task => pool.conclude task
  | .environment connection channel => some (pool.environment connection channel)

/-- A task makes a call whose moves leave nothing open. -/
def callOf (task : Task) (request : Request) (moves : Nat) : List Event :=
  .invoke task request :: (List.replicate moves (.advance task .go) ++ [.conclude task])

/-! ## What a step is -/

/-- The steps of a pool, one constructor for each kind of event. -/
inductive Steps (pool : Pool) : Event → Pool → Prop
  | invoke {task : Task} {request : Request} {call : Call}
      (idle : pool.calls.lookup task = none) (opened : pool.opening task request = some call) :
      Steps pool (.invoke task request) (pool.begun task request call)
  | advance {task : Task} {choice : Choice} {request : Request} {call next : Call}
      {access : Access} (running : pool.calls.lookup task = some ⟨request, call⟩)
      (unblocked : pool.Unblocked call)
      (stepped : call.step pool.broker choice = some (access, next)) :
      Steps pool (.advance task choice) (pool.moved task request access next)
  | conclude {task : Task} {request : Request} {response : Response}
      (running : pool.calls.lookup task = some ⟨request, .returned response⟩) :
      Steps pool (.conclude task) (pool.concluded task request response)
  | environment {connection : ConnectionId} {channel : MqttChannel} :
      Steps pool (.environment connection channel) (pool.environment connection channel)

variable {pool next : Pool} {event : Event}

theorem steps_of_step (moved : pool.step event = some next) : Steps pool event next := by
  cases event with
  | invoke task request =>
      simp only [step, invoke] at moved
      split at moved
      · contradiction
      · rename_i idle
        rcases Option.map_eq_some_iff.mp moved with ⟨call, opened, rfl⟩
        exact .invoke idle opened
  | advance task choice =>
      simp only [step, advance] at moved
      split at moved
      · contradiction
      · rename_i running found
        split at moved
        · rename_i unblocked
          rcases Option.map_eq_some_iff.mp moved with ⟨⟨access, after⟩, stepped, rfl⟩
          exact .advance found unblocked stepped
        · contradiction
  | conclude task =>
      simp only [step, conclude] at moved
      split at moved
      · rename_i request response found
        cases moved
        exact .conclude found
      · contradiction
  | environment connection channel =>
      cases moved
      exact .environment

theorem Idle.lookup_eq_none (idle : pool.Idle) (task : Task) : pool.calls.lookup task = none := by
  rw [AList.lookup_eq_none, AList.mem_keys, idle]
  exact List.not_mem_nil

/-- A call takes back no registration. -/
theorem joined_eq_none_of_begun {task : Task} {request : Request} {call : Call}
    {connection : ConnectionId}
    (unused : (pool.begun task request call).joined connection = none) :
    pool.joined connection = none := by
  cases request with
  | register registration =>
      simp only [begun, joinedBy, Function.update_apply] at unused
      split at unused
      · contradiction
      · exact unused
  | unregister _ | subscribe _ | unsubscribe _ | publish _ => exact unused

/-- Where calls begin. -/
inductive Opens : Call → Prop
  | remove {registration : Registration} : Opens (.remove registration)
  | removeIf {client : ClientId} {connection : ConnectionId} {graceful : Bool} :
      Opens (.removeIf client connection graceful)
  | findSubscribe {client : ClientId} {connection : ConnectionId} {filters : List TopicFilter} :
      Opens (.findSubscribe client connection filters)
  | findUnsubscribe {client : ClientId} {connection : ConnectionId} {topics : List String} :
      Opens (.findUnsubscribe client connection topics)
  | snapshot {publication : Publication} : Opens (.snapshot publication .finish)

theorem opens_of_opening {task : Task} {request : Request} {call : Call}
    (opened : pool.opening task request = some call) : Opens call := by
  cases task with
  | worker connection =>
      cases request <;> simp only [opening, reduceCtorEq, Option.some.injEq] at opened
      subst opened
      exact .snapshot
  | handler connection =>
      cases request <;>
        simp only [opening, reduceCtorEq, Option.map_eq_some_iff, Option.ite_none_right_eq_some,
          Option.some.injEq] at opened
      case register registration =>
        rcases opened with ⟨-, rfl⟩
        exact .remove
      all_goals
        rcases opened with ⟨registration, -, rfl⟩
        constructor

/-- Only a worker begins by publishing, and it publishes what it is asked to. -/
theorem opening_snapshot {task : Task} {request : Request} {publication : Publication}
    {resumed : Next} (opened : pool.opening task request = some (.snapshot publication resumed)) :
    request = .publish publication ∧ ∃ connection, task = .worker connection := by
  cases task with
  | worker connection =>
      cases request <;> simp only [opening, reduceCtorEq, Option.some.injEq] at opened
      cases opened
      exact ⟨rfl, connection, rfl⟩
  | handler connection => cases request <;> simp [opening] at opened

/-- A call that moves needs no place that another call guards. -/
theorem Free.holds_ne {client : ClientId} (free : pool.Free client) {task : Task}
    {running : Running} (found : pool.calls.lookup task = some running) :
    running.call.holds ≠ some client :=
  free ⟨task, running⟩ (Table.mem_entries_iff.mpr found)

end Pool

end HotaruMqtt.Broker
