import HotaruMqtt.Server.System

/-!
# All connections together

The host keeps the pool and the connections.  Every step of it shows in the pool as
at most one step, so that what holds in every pool holds here.  Beside that, the
phase of a handler says which call of it is running.
-/

namespace HotaruMqtt.Server

open Exec Exec.Outcome Exec.Transition Broker

/-- The server: the broker with its calls, and the connections beside it. -/
structure Host where
  pool : Pool
  conns : ConnectionId → Conn

/-- What happens at the server. -/
inductive Event
  | act (connection : ConnectionId) (action : Action)
  | advance (task : Task) (choice : Choice)
  /-- The channel of a connection is used by others. -/
  | environment (connection : ConnectionId) (channel : MqttChannel)

/-- A client without credentials connects and is accepted. -/
def Event.connects (connection : ConnectionId) (client : ClientId) (cleanSession : Bool)
    (will : Option WillPacket) : Event :=
  .act connection (.connect (.packet (.connect ⟨client, cleanSession, 60, none, none, will⟩))
    ⟨true, .accepted⟩)

/-- The call of a handler moves on. -/
def Event.moves (connection : ConnectionId) (count : Nat) : List Event :=
  List.replicate count (.advance (.handler connection) .go)

/-- A handler goes through some of its own steps. -/
def Event.proceeds (connection : ConnectionId) (count : Nat) : List Event :=
  List.replicate count (.act connection .proceed)

/-- A client connects to an empty broker and subscribes to a topic. -/
def Event.subscribes (connection : ConnectionId) (client : ClientId) (topic : String) :
    List Event :=
  [.connects connection client true none] ++ Event.moves connection 4 ++
    Event.proceeds connection 3 ++
    [.act connection (.read (.packet (.subscribe ⟨7, [⟨topic, .atMostOnce⟩]⟩)))] ++
    Event.moves connection 5 ++ Event.proceeds connection 2

/-- A worker takes a message and publishes it to the one client that is subscribed. -/
def Event.worksOff (connection : ConnectionId) (subscriber : ClientId) : List Event :=
  [.act connection .work, .act connection .work,
    .advance (.worker connection) (.listed [(subscriber, .atMostOnce)]),
    .advance (.worker connection) .go, .advance (.worker connection) .go,
    .advance (.worker connection) .go, .act connection .work]

namespace Host

/-- No connection has been served. -/
def new (channels : ConnectionId → MqttChannel) : Host :=
  ⟨.new channels, fun _ => .new⟩

/-- A connection has taken a step. -/
def acted (host : Host) (connection : ConnectionId) (conn : Conn) (pool : Pool) : Host :=
  ⟨pool, Function.update host.conns connection conn⟩

@[simp]
theorem pool_acted (host : Host) (connection : ConnectionId) (conn : Conn) (pool : Pool) :
    (host.acted connection conn pool).pool = pool :=
  rfl

@[simp]
theorem conns_acted_self (host : Host) (connection : ConnectionId) (conn : Conn) (pool : Pool) :
    (host.acted connection conn pool).conns connection = conn :=
  Function.update_self _ _ _

theorem conns_acted_of_ne (host : Host) {connection other : ConnectionId} (conn : Conn)
    (pool : Pool) (differs : other ≠ connection) :
    (host.acted connection conn pool).conns other = host.conns other :=
  Function.update_of_ne differs _ _

/-- One event; one that cannot happen has no successor. -/
def step (config : Config) (host : Host) : Event → Option Host
  | .act connection action =>
      (act config host.pool connection (host.conns connection) action).map fun acted =>
        host.acted connection acted.1 acted.2
  | .advance task choice => (host.pool.advance task choice).map fun pool => { host with pool }
  | .environment connection channel =>
      some { host with pool := host.pool.environment connection channel }

/-- The steps of the host. -/
inductive Steps (config : Config) (host : Host) : Event → Host → Prop
  | act {connection : ConnectionId} {action : Action} {conn : Conn} {pool : Pool}
      (acts : Acts config host.pool connection (host.conns connection) action conn pool) :
      Steps config host (.act connection action) (host.acted connection conn pool)
  | advance {task : Task} {choice : Choice} {pool : Pool}
      (moved : host.pool.step (.advance task choice) = some pool) :
      Steps config host (.advance task choice) { host with pool }
  | environment {connection : ConnectionId} {channel : MqttChannel} :
      Steps config host (.environment connection channel)
        { host with pool := host.pool.environment connection channel }

variable {config : Config} {host next : Host} {event : Event}

theorem steps_of_step (moved : host.step config event = some next) :
    Steps config host event next := by
  cases event with
  | act connection action =>
      rcases Option.map_eq_some_iff.mp moved with ⟨⟨conn, pool⟩, acted, rfl⟩
      exact .act (acts_of_act acted)
  | advance task choice =>
      rcases Option.map_eq_some_iff.mp moved with ⟨pool, advanced, rfl⟩
      exact .advance advanced
  | environment connection channel =>
      cases moved
      exact .environment

end Host

/-! ## The pool behind a step -/

theorem invoke_eq_some {pool next : Pool} {task : Task} {request : Request}
    (invoked : pool.invoke task request = some next) :
    ∃ call, pool.calls.lookup task = none ∧ pool.opening task request = some call ∧
      next = pool.begun task request call := by
  unfold Pool.invoke at invoked
  split at invoked
  · contradiction
  · rcases Option.map_eq_some_iff.mp invoked with ⟨call, opened, rfl⟩
    exact ⟨call, ‹_›, opened, rfl⟩

theorem resume_eq_some {pool next : Pool} {task : Task} {response : Response}
    (resumed : resume pool task = some (response, next)) :
    ∃ request, pool.calls.lookup task = some ⟨request, .returned response⟩ ∧
      next = pool.concluded task request response := by
  unfold resume at resumed
  split at resumed
  · cases resumed
    exact ⟨_, ‹_›, rfl⟩
  · contradiction

/-- Beginning and ending a call leave the broker alone. -/
theorem broker_of_invoke {pool next : Pool} {task : Task} {request : Request}
    (invoked : pool.invoke task request = some next) : next.broker = pool.broker := by
  obtain ⟨call, _, _, rfl⟩ := invoke_eq_some invoked
  rfl

theorem broker_of_resume {pool next : Pool} {task : Task} {response : Response}
    (resumed : resume pool task = some (response, next)) : next.broker = pool.broker := by
  obtain ⟨request, _, rfl⟩ := resume_eq_some resumed
  rfl

@[simp]
theorem channels_environment_self (pool : Pool) (connection : ConnectionId)
    (channel : MqttChannel) :
    (pool.environment connection channel).broker.channels connection = channel :=
  Function.update_self _ _ _

/-- The connection that a task belongs to. -/
def taskConnection : Task → ConnectionId
  | .handler connection => connection
  | .worker connection => connection

/-- What a step of a connection does to the pool. -/
inductive Touches (pool : Pool) (connection : ConnectionId) : Pool → Prop
  | nothing : Touches pool connection pool
  | channel {channel : MqttChannel} :
      Touches pool connection (pool.environment connection channel)
  | begun {task : Task} {request : Request} {call : Call}
      (own : taskConnection task = connection)
      (message : ∀ publication, request = .publish publication →
        ∃ index, publication.origin = .message connection index)
      (idle : pool.calls.lookup task = none) (opened : pool.opening task request = some call) :
      Touches pool connection (pool.begun task request call)
  | concluded {task : Task} {request : Request} {response : Response}
      (own : taskConnection task = connection)
      (running : pool.calls.lookup task = some ⟨request, .returned response⟩) :
      Touches pool connection (pool.concluded task request response)

section Touches

variable {config : Config} {pool next : Pool} {connection : ConnectionId} {conn after : Conn}
  {action : Action} {task : Task} {request : Request} {response : Response}

theorem touches_of_invoke (own : taskConnection task = connection)
    (message : ∀ publication, request = .publish publication →
      ∃ index, publication.origin = .message connection index)
    (invoked : pool.invoke task request = some next) : Touches pool connection next := by
  rcases invoke_eq_some invoked with ⟨call, idle, opened, rfl⟩
  exact .begun own message idle opened

theorem touches_of_resume (own : taskConnection task = connection)
    (resumed : resume pool task = some (response, next)) : Touches pool connection next := by
  rcases resume_eq_some resumed with ⟨request, running, rfl⟩
  exact .concluded own running

theorem Acts.touches (acts : Acts config pool connection conn action after next) :
    Touches pool connection next := by
  cases acts with
  | admitted _ _ invoked | unanswered _ invoked | subscribe _ invoked | unsubscribe _ invoked
  | joined _ _ invoked => exact touches_of_invoke rfl (fun _ same => by cases same) invoked
  | fanned _ _ _ invoked =>
      refine touches_of_invoke rfl ?_ invoked
      rintro publication same
      cases same
      exact ⟨_, rfl⟩
  | registered _ resumed | withdrawn _ resumed | subscribed _ resumed | unsubscribed _ resumed
  | unregistered _ resumed | published _ _ resumed => exact touches_of_resume rfl resumed
  | refused | accepted | dispatched | responded | closed => exact .channel
  | failed | polled | left | dropped | took | drained | suppressed | crashed => exact .nothing

theorem Touches.shown (touches : Touches pool connection next) :
    next = pool ∨ ∃ event, pool.step event = some next := by
  cases touches with
  | nothing => exact .inl rfl
  | channel => exact .inr ⟨.environment _ _, rfl⟩
  | begun own message idle opened =>
      rename_i task request call
      refine .inr ⟨.invoke task request, ?_⟩
      rw [Pool.step, Pool.invoke, idle, opened]
      rfl
  | concluded own running =>
      rename_i task request response
      refine .inr ⟨.conclude task, ?_⟩
      rw [Pool.step, Pool.conclude, running]

end Touches

/-- A step changes a connection only if it is one of that connection. -/
theorem Host.Steps.conns {config : Config} {host next : Host} {event : Event}
    (steps : Host.Steps config host event next) (connection : ConnectionId) :
    next.conns connection = host.conns connection ∨ ∃ action, event = .act connection action ∧
      Acts config host.pool connection (host.conns connection) action (next.conns connection)
        next.pool := by
  cases steps with
  | act acts =>
      rename_i acting action conn pool
      by_cases same : connection = acting
      · subst same
        refine .inr ⟨action, rfl, ?_⟩
        rw [conns_acted_self]
        exact acts
      · exact .inl (conns_acted_of_ne _ _ _ same)
  | advance | environment => exact .inl rfl

/-- A step of the host is at most one step of its pool. -/
theorem Host.Steps.shown {config : Config} {host next : Host} {event : Event}
    (steps : Host.Steps config host event next) :
    next.pool = host.pool ∨ ∃ event, host.pool.step event = some next.pool := by
  cases steps with
  | act acts => exact acts.touches.shown
  | advance moved => exact .inr ⟨_, moved⟩
  | environment => exact .inr ⟨.environment _ _, rfl⟩

/-- Every run of the host is a run of its pool. -/
theorem Host.run_shows {config : Config} {meets : Host → Event → Prop} {host final : Host}
    {events : List Event} (run : Run (Host.step config) meets host events final) :
    ∃ shown, Run Pool.step Any host.pool shown final.pool :=
  run.project fun _ _ _ moved => (Host.steps_of_step moved).shown

theorem Host.Steps.consistent {config : Config} {host next : Host} {event : Event}
    (steps : Host.Steps config host event next) (consistent : host.pool.Consistent) :
    next.pool.Consistent := by
  rcases steps.shown with same | ⟨event, moved⟩
  · rw [same]
    exact consistent
  · exact consistent.step (Pool.steps_of_step moved)

/-! ## Which call is running -/

/-- The request of the running call of a task. -/
def asking (pool : Pool) (task : Task) : Option Request :=
  (pool.calls.lookup task).map Running.request

section Asking

variable {pool next : Pool} {task other : Task} {request : Request} {call : Call}

theorem asking_begun (pool : Pool) (task other : Task) (request : Request) (call : Call) :
    asking (pool.begun task request call) other =
      if other = task then some request else asking pool other := by
  simp only [asking, Pool.begun, Table.lookup_insert]
  split <;> rfl

theorem asking_concluded (pool : Pool) (task other : Task) (request : Request)
    (response : Response) :
    asking (pool.concluded task request response) other =
      if other = task then none else asking pool other := by
  simp only [asking, Pool.concluded, Table.lookup_erase]
  split <;> rfl

/-- A move is part of the call that is running. -/
theorem asking_advance {choice : Choice}
    (moved : pool.step (.advance task choice) = some next) : asking next = asking pool := by
  cases Pool.steps_of_step moved with
  | advance running unblocked stepped =>
      funext other
      simp only [asking, Pool.moved, Table.lookup_insert]
      split
      · rename_i same
        rw [same, running]
        rfl
      · rfl

end Asking

/-- Which call of the handler is running in a phase. -/
def Phase.Asks : Phase → Option Request → Prop
  | .registering, asked => ∃ registration, asked = some (.register registration)
  | .refusing _, asked => asked = some (.unregister false)
  | .subscribing _, asked => ∃ filters, asked = some (.subscribe filters)
  | .unsubscribing _, asked => ∃ topics, asked = some (.unsubscribe topics)
  | .unregistering exit, asked => asked = some (.unregister exit.graceful)
  | _, asked => asked = none

/-- What the pool knows of a connection, given where its handler stands. -/
def Main.Agrees (pool : Pool) (connection : ConnectionId) : Main → Prop
  | .waiting => pool.joined connection = none
  | .serving session phase =>
      (∃ registration, pool.joined connection = some registration ∧
        registration.client = session.client) ∧ phase.Asks (asking pool (.handler connection))
  | .returned _ => asking pool (.handler connection) = none ∧
      (pool.joined connection = none ∨ ∃ graceful response,
        .returned (.handler connection) (.unregister graceful) response ∈ pool.history)

namespace Main.Agrees

variable {config : Config} {pool next : Pool} {connection other : ConnectionId} {conn after : Conn}
  {action : Action} {main : Main} {session : Session} {phase : Phase} {task : Task}
  {request : Request} {call : Call} {response : Response}

theorem congr (agrees : main.Agrees pool connection)
    (joined : next.joined connection = pool.joined connection)
    (asks : asking next (.handler connection) = asking pool (.handler connection))
    (grows : ∀ occurrence ∈ pool.history, occurrence ∈ next.history) :
    main.Agrees next connection := by
  cases main with
  | waiting => exact joined.trans agrees
  | serving session phase =>
      rcases agrees with ⟨⟨registration, found, same⟩, asked⟩
      exact ⟨⟨registration, joined.trans found, same⟩, asks ▸ asked⟩
  | returned outcome =>
      rcases agrees with ⟨asked, unused | ⟨graceful, response, listed⟩⟩
      · exact ⟨asks.trans asked, .inl (joined.trans unused)⟩
      · exact ⟨asks.trans asked, .inr ⟨graceful, response, grows _ listed⟩⟩

/-- A call that begins concerns its own task alone. -/
theorem of_begun (agrees : main.Agrees pool connection)
    (opened : pool.opening task request = some call) (foreign : task ≠ .handler connection) :
    main.Agrees (pool.begun task request call) connection := by
  refine agrees.congr ?_ ?_ fun _ listed => List.mem_append_left _ listed
  · cases request with
    | register registration =>
        rcases Pool.opening_register opened with ⟨rfl, -⟩
        have differs : connection ≠ registration.connection := by
          rintro rfl
          exact foreign rfl
        simp [Pool.begun, Pool.joinedBy, differs]
    | unregister _ | subscribe _ | unsubscribe _ | publish _ => rfl
  · rw [asking_begun, if_neg (Ne.symm foreign)]

theorem of_concluded (agrees : main.Agrees pool connection) (foreign : task ≠ .handler connection) :
    main.Agrees (pool.concluded task request response) connection := by
  refine agrees.congr rfl ?_ fun _ listed => List.mem_append_left _ listed
  rw [asking_concluded, if_neg (Ne.symm foreign)]

theorem of_environment {channel : MqttChannel} (agrees : main.Agrees pool connection) :
    main.Agrees (pool.environment other channel) connection :=
  agrees.congr rfl rfl fun _ listed => listed

/-- What a connection does leaves the others where they are. -/
theorem of_touches (agrees : main.Agrees pool other) (touches : Touches pool connection next)
    (differs : other ≠ connection) : main.Agrees next other := by
  cases touches with
  | nothing => exact agrees
  | channel => exact agrees.of_environment
  | begun own message idle opened =>
      refine agrees.of_begun opened ?_
      rintro rfl
      exact differs own
  | concluded own running =>
      refine agrees.of_concluded ?_
      rintro rfl
      exact differs own

/-- The handler begins a call. -/
theorem enter_invoke (agrees : (Main.serving session phase).Agrees pool connection)
    (invoked : pool.invoke (.handler connection) request = some next)
    {entered : Phase} (asks : entered.Asks (some request)) :
    (Main.serving session entered).Agrees next connection := by
  rcases invoke_eq_some invoked with ⟨call, idle, opened, rfl⟩
  rcases agrees.1 with ⟨registration, found, same⟩
  refine ⟨⟨registration, Pool.joined_step (.invoke idle opened) found, same⟩, ?_⟩
  rw [asking_begun, if_pos rfl]
  exact asks

/-- A call of the handler has returned. -/
theorem enter_resume (agrees : (Main.serving session phase).Agrees pool connection)
    (resumed : resume pool (.handler connection) = some (response, next))
    {entered : Phase} (asks : entered.Asks none) :
    (Main.serving session entered).Agrees next connection := by
  rcases resume_eq_some resumed with ⟨request, running, rfl⟩
  refine ⟨agrees.1, ?_⟩
  rw [asking_concluded, if_pos rfl]
  exact asks

/-- The handler goes on without a call. -/
theorem enter (agrees : (Main.serving session phase).Agrees pool connection)
    (asked : phase.Asks = (· = none)) {entered : Phase} (asks : entered.Asks = (· = none)) :
    (Main.serving session entered).Agrees pool connection := by
  refine ⟨agrees.1, ?_⟩
  rw [asks, ← asked]
  exact agrees.2

/-- The handler returns from its last call. -/
theorem returns (agrees : (Main.serving session phase).Agrees pool connection)
    {graceful : Bool} (asked : phase.Asks = (· = some (.unregister graceful)))
    (resumed : resume pool (.handler connection) = some (response, next))
    (outcome : Outcome MqttError Unit) : (Main.returned outcome).Agrees next connection := by
  rcases resume_eq_some resumed with ⟨request, running, rfl⟩
  have same : request = .unregister graceful := by
    have asks := agrees.2
    rw [asked, asking, running] at asks
    exact Option.some.inj asks
  subst same
  constructor
  · rw [asking_concluded, if_pos rfl]
  · exact .inr ⟨graceful, response, by simp [Pool.concluded]⟩

theorem asks_afterDispatch {outcome : Outcome MqttError Unit}
    (continued : afterDispatch outcome = some phase) : phase.Asks = (· = none) := by
  cases outcome with
  | ok value =>
      cases continued
      rfl
  | err error =>
      cases continued
      rfl
  | panic cause => contradiction

end Main.Agrees

/-- A step of a connection takes its handler to where its calls say it is. -/
theorem Acts.agrees {config : Config} {pool next : Pool} {connection : ConnectionId}
    {conn after : Conn} {action : Action}
    (acts : Acts config pool connection conn action after next) (ordered : pool.Ordered)
    (agrees : conn.main.Agrees pool connection) : after.main.Agrees next connection := by
  have unasked : pool.joined connection = none → asking pool (.handler connection) = none := by
    intro unused
    cases found : pool.calls.lookup (.handler connection) with
    | none => rw [asking, found]; rfl
    | some running =>
        rcases ordered.stage found with ⟨registration, joined, -⟩
        rw [unused] at joined
        contradiction
  cases acts with
  | failed at_ =>
      rw [at_] at agrees
      exact ⟨unasked agrees, .inl agrees⟩
  | refused at_ =>
      rw [at_] at agrees
      exact ⟨unasked agrees, .inl agrees⟩
  | admitted at_ admitted invoked =>
      obtain ⟨connect, rfl, rfl, rfl, _⟩ := eq_of_admitted admitted
      rcases invoke_eq_some invoked with ⟨call, idle, opened, rfl⟩
      refine ⟨⟨registrationOf connection connect, ?_, rfl⟩, ?_⟩
      · exact Function.update_self _ _ _
      rw [asking_begun, if_pos rfl]
      exact ⟨_, rfl⟩
  | registered at_ resumed => exact (at_ ▸ agrees).enter_resume resumed rfl
  | accepted at_ => exact ((at_ ▸ agrees).enter rfl rfl).of_environment
  | unanswered at_ invoked => exact (at_ ▸ agrees).enter_invoke invoked rfl
  | withdrawn at_ resumed => exact (at_ ▸ agrees).returns rfl resumed _
  | polled at_ => exact (at_ ▸ agrees).enter rfl rfl
  | left at_ leaves =>
      rcases leaves.inLoop with rfl | rfl <;> exact (at_ ▸ agrees).enter rfl rfl
  | dispatched at_ dispatched continued =>
      exact ((at_ ▸ agrees).enter rfl (Main.Agrees.asks_afterDispatch continued)).of_environment
  | subscribe at_ invoked => exact (at_ ▸ agrees).enter_invoke invoked ⟨_, rfl⟩
  | subscribed at_ resumed => exact (at_ ▸ agrees).enter_resume resumed rfl
  | unsubscribe at_ invoked => exact (at_ ▸ agrees).enter_invoke invoked ⟨_, rfl⟩
  | unsubscribed at_ resumed => exact (at_ ▸ agrees).enter_resume resumed rfl
  | responded at_ continued =>
      exact ((at_ ▸ agrees).enter rfl (Main.Agrees.asks_afterDispatch continued)).of_environment
  | dropped at_ => exact (at_ ▸ agrees).enter rfl rfl
  | closed at_ => exact ((at_ ▸ agrees).enter rfl rfl).of_environment
  | joined at_ finished invoked => exact (at_ ▸ agrees).enter_invoke invoked rfl
  | unregistered at_ resumed => exact (at_ ▸ agrees).returns rfl resumed _
  | fanned at_ chaining chained invoked =>
      rcases invoke_eq_some invoked with ⟨call, idle, opened, rfl⟩
      exact agrees.of_begun opened (by simp)
  | published at_ publishing resumed =>
      rcases resume_eq_some resumed with ⟨request, running, rfl⟩
      exact agrees.of_concluded (by simp)
  | took | drained | suppressed | crashed => exact agrees

/-- What holds in every host. -/
structure Linked (host : Host) : Prop where
  consistent : host.pool.Consistent
  agrees : ∀ connection, (host.conns connection).main.Agrees host.pool connection

namespace Linked

variable {config : Config} {host next : Host} {event : Event}

theorem new (channels : ConnectionId → MqttChannel) : Linked (.new channels) :=
  ⟨.new channels, fun _ => rfl⟩

theorem step (linked : Linked host) (steps : Host.Steps config host event next) : Linked next where
  consistent := steps.consistent linked.consistent
  agrees other := by
    cases steps with
    | act acts =>
        rename_i connection action conn pool
        by_cases same : other = connection
        · subst same
          rw [Host.conns_acted_self]
          exact acts.agrees linked.consistent.toOrdered (linked.agrees other)
        · rw [Host.conns_acted_of_ne _ _ _ same]
          exact (linked.agrees other).of_touches acts.touches same
    | advance moved =>
        refine (linked.agrees other).congr ?_ (congrFun (asking_advance moved) _) ?_
        all_goals
          cases Pool.steps_of_step moved
          first
          | rfl
          | exact fun _ listed => listed
    | environment => exact (linked.agrees other).of_environment

end Linked

end HotaruMqtt.Server
