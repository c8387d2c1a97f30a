import HotaruMqtt.Server.Leak

/-!
# Readers, queues and workers

The reader of a connection hands messages to the work queue, and the worker takes
them in that order, one at a time.  The index of the message in the worker's hands
is the number of those it took before, and what is published under that index is
published by the call of this worker that is running.
-/

namespace HotaruMqtt.Broker

open Exec Exec.Transition

/-- The index of a message of the connection. -/
def Origin.index (connection : ConnectionId) : Origin → Option Nat
  | .message sender index => if sender = connection then some index else none
  | _ => none

@[simp]
theorem Origin.index_eq_some {connection : ConnectionId} {origin : Origin} {index : Nat} :
    origin.index connection = some index ↔ origin = .message connection index := by
  cases origin with
  | message sender other =>
      simp only [Origin.index, Option.ite_none_right_eq_some, Option.some.injEq,
        Origin.message.injEq]
  | direct | will => simp [Origin.index]

/-- What a call is publishing. -/
def Call.announces : Call → Option Publication
  | .snapshot publication _ | .fanout publication _ _ | .enqueue publication _ _ _ _ _ =>
      some publication
  | _ => none

section Announces

variable {broker : Broker} {call after : Call} {access : Access} {publication : Publication}

theorem Next.announces_resume {next : Next} (announces : next.resume.announces = some publication) :
    ∃ connection, publication.origin = .will connection := by
  unfold Next.resume at announces
  split at announces
  · split at announces <;> contradiction
  · contradiction
  · cases announces
    exact ⟨_, rfl⟩
  · contradiction
  · contradiction

/-- What a call comes to publish on the way is a Will. -/
theorem Call.Moves.announces (moves : Call.Moves broker call access after)
    (announces : after.announces = some publication) :
    call.announces = some publication ∨ ∃ connection, publication.origin = .will connection := by
  cases moves with
  | snapshot | skip | found | enqueue => exact .inl announces
  | removeVacant | swept | fanned => exact .inr (Next.announces_resume announces)
  | close =>
      rename_i registration previous
      cases will : previous.will with
      | none =>
          rw [will, Call.publishWill] at announces
          exact .inr (Next.announces_resume announces)
      | some _ =>
          rw [will] at announces
          cases announces
          exact .inr ⟨_, rfl⟩
  | _ => contradiction

end Announces

namespace Pool

variable {pool next : Pool} {event : Event}

/-- A call publishes a Will, or what it was asked to publish. -/
def Sourced (pool : Pool) : Prop :=
  ∀ ⦃task running publication⦄, pool.calls.lookup task = some running →
    running.call.announces = some publication →
    (∃ connection, publication.origin = .will connection) ∨ running.request = .publish publication

theorem Sourced.new (channels : ConnectionId → MqttChannel) : (Pool.new channels).Sourced :=
  fun _ _ _ found => by cases found

theorem Sourced.step (sourced : pool.Sourced) (steps : Steps pool event next) : next.Sourced := by
  intro other running publication found announces
  cases steps with
  | invoke idle opened =>
      rcases Table.lookup_insert_eq_some.mp found with ⟨rfl, rfl⟩ | ⟨-, found⟩
      · cases opens_of_opening opened with
        | snapshot =>
            cases announces
            exact .inr (opening_snapshot opened).1
        | remove | removeIf | findSubscribe | findUnsubscribe => contradiction
      · exact sourced found announces
  | advance calling unblocked stepped =>
      rcases Table.lookup_insert_eq_some.mp found with ⟨rfl, rfl⟩ | ⟨-, found⟩
      · rcases (Call.moves_of_step stepped).announces announces with before | will
        · have source := sourced calling before
          exact source
        · exact .inl will
      · exact sourced found announces
  | conclude => exact sourced (Table.lookup_erase_eq_some.mp found).2 announces
  | environment => exact sourced found announces

end Pool

end HotaruMqtt.Broker

namespace HotaruMqtt.Server

open Exec Exec.Outcome Exec.Transition Broker

/-! ## One connection -/

/-- The worker has not been spawned in this phase. -/
def Phase.early : Phase → Bool
  | .registering | .answering _ | .refusing _ => true
  | _ => false

/-- The handler is at a place before it spawns the worker. -/
def Main.early : Main → Bool
  | .waiting => true
  | .serving _ phase => phase.early
  | .returned _ => false

/-- The worker has been spawned and the handler has not returned. -/
def Main.late : Main → Bool
  | .serving _ phase => !phase.early
  | _ => false

/-- The index of the message in the worker's hands. -/
def Worker.index : Worker → Option Nat
  | .chaining index _ | .publishing index => some index
  | _ => none

/-- What holds between the handler, the queue and the worker of a connection. -/
structure Working (conn : Conn) : Prop where
  early : conn.main.early = true → conn.worker = .absent
  late : conn.main.late = true → conn.worker ≠ .absent
  unused : conn.worker = .absent → conn.queue.handed = []
  bounded : conn.queue.pending.length ≤ conn.queue.handed.length
  index : ∀ index ∈ conn.worker.index, index + 1 = conn.queue.taken
  finished : conn.worker = .finished → conn.queue.pending = [] ∧
    (conn.main.dropped = true ∨ conn.queue.receiver = false)
  joined : ∀ session exit, conn.main = .serving session (.unregistering exit) →
    conn.worker = .finished

namespace Working

variable {config : Config} {pool next : Pool} {connection : ConnectionId} {conn after : Conn}
  {action : Action} {main : Main} {session : Session} {phase : Phase}

theorem new : Working .new where
  early _ := rfl
  late := nofun
  unused _ := rfl
  bounded := Nat.le_refl 0
  index := nofun
  finished := nofun
  joined := nofun

/-- The handler takes a step that leaves the queue and the worker alone. -/
theorem handle (working : Working conn) (early : main.early = true → conn.main.early = true)
    (late : main.late = true → conn.main.late = true)
    (dropped : conn.main.dropped = true → main.dropped = true)
    (joined : ∀ session exit, main = .serving session (.unregistering exit) →
      conn.worker = .finished) : Working { conn with main } where
  early entered := working.early (early entered)
  late entered := working.late (late entered)
  unused := working.unused
  bounded := working.bounded
  index := working.index
  finished ended := (working.finished ended).imp_right (.imp_left dropped)
  joined := joined

theorem finish (working : Working conn) (outcome : Outcome MqttError Unit) :
    Working (conn.finish outcome) :=
  working.handle nofun nofun (fun _ => rfl) nofun

/-- The handler goes from one phase to another on the same side of the spawn. -/
theorem enter (working : Working conn) (at_ : conn.main = .serving session phase)
    {entered : Phase} (side : entered.early = phase.early)
    (dropped : conn.main.dropped = true → (Main.serving session entered).dropped = true)
    (joined : ∀ exit, entered = .unregistering exit → conn.worker = .finished) :
    Working (conn.enter session entered) := by
  refine working.handle ?_ ?_ dropped ?_
  · rw [at_, Main.early, Main.early, side]
    exact id
  · rw [at_, Main.late, Main.late, side]
    exact id
  · rintro session exit same
    cases same
    exact joined exit rfl

theorem of_afterDispatch {outcome : Outcome MqttError Unit}
    (continued : afterDispatch outcome = some phase) :
    phase.early = false ∧ ∀ exit, phase ≠ .unregistering exit := by
  cases outcome with
  | ok value => cases continued; exact ⟨rfl, nofun⟩
  | err error => cases continued; exact ⟨rfl, nofun⟩
  | panic cause => contradiction

/-- The reader has handled a packet, and handed at most one message on. -/
theorem dispatch (working : Working conn) (at_ : conn.main = .serving session .selecting)
    {queue : WorkQueue} (grows : conn.queue.Grows queue) (side : phase.early = false)
    (unjoined : ∀ exit, phase ≠ .unregistering exit) :
    Working { conn with main := .serving session phase, queue } := by
  have spawned : conn.worker ≠ .absent := working.late (by rw [at_]; rfl)
  cases grows with
  | same =>
      refine working.enter at_ side ?_ fun exit same => absurd same (unjoined exit)
      rw [at_]
      nofun
  | handed receiver =>
      refine ⟨?_, fun _ => spawned, fun absent => absurd absent spawned, ?_, ?_, ?_, ?_⟩
      · intro early
        rw [Main.early, side] at early
        contradiction
      · simpa using working.bounded
      · intro index held
        rw [working.index index held]
        simp [WorkQueue.taken]
      · intro ended
        rcases (working.finished ended).2 with dropped | closed
        · rw [at_] at dropped
          contradiction
        · rw [receiver] at closed
          contradiction
      · rintro session exit same
        cases same
        exact absurd rfl (unjoined exit)

/-- The worker takes a step that leaves the handler and the queue alone. -/
theorem work (working : Working conn) {worker : Worker} {chained : List PublishPacket}
    (busy : conn.worker ≠ .absent) (unfinished : conn.worker ≠ .finished)
    (spawned : worker ≠ .absent)
    (index : ∀ index ∈ worker.index, index + 1 = conn.queue.taken)
    (finished : worker = .finished → conn.queue.pending = [] ∧ conn.main.dropped = true) :
    Working { conn with chained, worker } where
  early entered := absurd (working.early entered) busy
  late _ := spawned
  unused absent := absurd absent spawned
  bounded := working.bounded
  index := index
  finished ended := (finished ended).imp_right .inl
  joined session exit same := absurd (working.joined session exit same) unfinished

end Working

theorem Acts.working {config : Config} {pool next : Pool} {connection : ConnectionId}
    {conn after : Conn} {action : Action}
    (acts : Acts config pool connection conn action after next) (working : Working conn) :
    Working after := by
  cases acts with
  | failed | refused | withdrawn | unregistered => exact working.finish _
  | admitted at_ =>
      refine working.handle ?_ nofun ?_ nofun
      · rw [at_]
        exact id
      · rw [at_]
        nofun
  | registered at_ | unanswered at_ | polled at_ | subscribe at_ | subscribed at_
  | unsubscribe at_ | unsubscribed at_ | dropped at_ | closed at_ =>
      refine working.enter at_ rfl ?_ nofun
      rw [at_]
      first
      | exact id
      | nofun
  | accepted at_ =>
      have absent : conn.worker = .absent := working.early (by rw [at_]; rfl)
      exact ⟨nofun, nofun, nofun, working.bounded, nofun, nofun, nofun⟩
  | left at_ leaves =>
      rcases leaves.inLoop with rfl | rfl
      all_goals
        refine working.enter at_ rfl ?_ nofun
        rw [at_]
        nofun
  | dispatched at_ dispatched continued =>
      rcases Working.of_afterDispatch continued with ⟨side, unjoined⟩
      exact working.dispatch at_ (grows_of_dispatched dispatched) side unjoined
  | responded at_ continued =>
      rcases Working.of_afterDispatch continued with ⟨side, unjoined⟩
      refine working.enter at_ side ?_ fun exit same => absurd same (unjoined exit)
      rw [at_]
      nofun
  | joined at_ finished =>
      refine working.enter at_ rfl ?_ fun _ _ => finished
      rw [at_]
      exact id
  | took at_ idle pending =>
      have bounded := working.bounded
      rw [pending, List.length_cons] at bounded
      refine ⟨?_, nofun, nofun, by simp only; omega, ?_, nofun, ?_⟩
      · intro early
        rw [working.early early] at idle
        contradiction
      · rintro index held
        cases held
        simp only [WorkQueue.taken, pending, List.length_cons]
        omega
      · intro session exit same
        rw [working.joined session exit same] at idle
        contradiction
  | drained at_ idle pending dropped =>
      refine working.work ?_ ?_ nofun nofun fun _ => ⟨pending, dropped⟩ <;> simp [idle]
  | fanned at_ chaining =>
      refine working.work ?_ ?_ nofun ?_ nofun
      · simp [chaining]
      · simp [chaining]
      · rintro index held
        exact working.index index (by rw [chaining]; exact held)
  | suppressed at_ chaining =>
      refine working.work ?_ ?_ nofun nofun nofun <;> simp [chaining]
  | published at_ publishing =>
      refine working.work ?_ ?_ nofun nofun nofun <;> simp [publishing]
  | crashed chaining =>
      refine ⟨?_, nofun, nofun, Nat.zero_le _, nofun, fun _ => ⟨rfl, .inr rfl⟩, fun _ _ _ => rfl⟩
      intro early
      rw [working.early early] at chaining
      contradiction

/-- The worker never takes a message back. -/
theorem Acts.taken_le {config : Config} {pool next : Pool} {connection : ConnectionId}
    {conn after : Conn} {action : Action}
    (acts : Acts config pool connection conn action after next) :
    conn.queue.taken ≤ after.queue.taken := by
  cases acts with
  | dispatched at_ dispatched continued =>
      have grows := grows_of_dispatched dispatched
      generalize ‹Reader›.queue = queue at grows
      cases grows with
      | same => exact Nat.le_refl _
      | handed => simp [WorkQueue.taken]
  | took at_ idle pending =>
      simp only [WorkQueue.taken, pending, List.length_cons]
      omega
  | crashed => simp [WorkQueue.taken]
  | _ => exact Nat.le_refl _

/-- The worker holds the message it held, or takes the next one. -/
theorem Acts.index {config : Config} {pool next : Pool} {connection : ConnectionId}
    {conn after : Conn} {action : Action} {index : Nat}
    (acts : Acts config pool connection conn action after next)
    (held : after.worker.index = some index) :
    conn.worker.index = some index ∨ index = conn.queue.taken := by
  cases acts with
  | took =>
      cases held
      exact .inr rfl
  | fanned at_ chaining =>
      rw [chaining]
      exact .inl held
  | accepted | drained | suppressed | published | crashed => contradiction
  | _ => exact .inl held

/-! ## The call of the worker -/

/-- Which call of the worker is running. -/
def Worker.Asks (connection : ConnectionId) : Worker → Option Request → Prop
  | .publishing index, asked => ∃ source packet,
      asked = some (.publish ⟨.message connection index, source, packet⟩)
  | _, asked => asked = none

section Asking

variable {config : Config} {pool next : Pool} {connection other : ConnectionId}
  {conn after : Conn} {action : Action} {task : Task} {request : Request} {response : Response}

/-- What a handler calls is no call of a worker. -/
theorem asking_worker_of_invoke (invoked : pool.invoke (.handler other) request = some next) :
    asking next (.worker connection) = asking pool (.worker connection) := by
  rcases invoke_eq_some invoked with ⟨call, -, -, rfl⟩
  rw [asking_begun, if_neg nofun]

theorem asking_worker_of_resume
    (resumed : resume pool (.handler other) = some (response, next)) :
    asking next (.worker connection) = asking pool (.worker connection) := by
  rcases resume_eq_some resumed with ⟨request, -, rfl⟩
  rw [asking_concluded, if_neg nofun]

/-- What a connection does is no call of another one. -/
theorem Touches.asking_eq (touches : Touches pool connection next)
    (differs : taskConnection task ≠ connection) : asking next task = asking pool task := by
  cases touches with
  | nothing | channel => rfl
  | begun own =>
      rw [asking_begun, if_neg]
      rintro rfl
      exact differs own
  | concluded own =>
      rw [asking_concluded, if_neg]
      rintro rfl
      exact differs own

theorem Acts.asks (acts : Acts config pool connection conn action after next)
    (working : Working conn)
    (asks : conn.worker.Asks connection (asking pool (.worker connection))) :
    after.worker.Asks connection (asking next (.worker connection)) := by
  cases acts with
  | admitted _ _ invoked | unanswered _ invoked | subscribe _ invoked | unsubscribe _ invoked
  | joined _ _ invoked =>
      rw [asking_worker_of_invoke invoked]
      exact asks
  | registered _ resumed | withdrawn _ resumed | subscribed _ resumed | unsubscribed _ resumed
  | unregistered _ resumed =>
      rw [asking_worker_of_resume resumed]
      exact asks
  | accepted at_ =>
      rw [working.early (by rw [at_]; rfl)] at asks
      exact asks
  | took at_ idle =>
      rw [idle] at asks
      exact asks
  | drained at_ idle =>
      rw [idle] at asks
      exact asks
  | fanned at_ chaining chained invoked =>
      rcases invoke_eq_some invoked with ⟨call, -, -, rfl⟩
      exact ⟨_, _, by rw [asking_begun, if_pos rfl]⟩
  | suppressed at_ chaining =>
      rw [chaining] at asks
      exact asks
  | published at_ publishing resumed =>
      rcases resume_eq_some resumed with ⟨request, -, rfl⟩
      exact (asking_concluded _ _ _ _ _).trans (if_pos rfl)
  | crashed chaining =>
      rw [chaining] at asks
      exact asks
  | failed | refused | polled | left | dispatched | responded | dropped | closed => exact asks

end Asking

/-! ## All connections -/

/-- What holds of the workers in every host. -/
structure Busy (host : Host) : Prop extends Linked host where
  working : ∀ connection, Working (host.conns connection)
  asks : ∀ connection, (host.conns connection).worker.Asks connection
    (asking host.pool (.worker connection))
  sourced : host.pool.Sourced

namespace Busy

variable {config : Config} {host next : Host} {event : Event} {connection : ConnectionId}

theorem new (channels : ConnectionId → MqttChannel) : Busy (.new channels) where
  toLinked := .new channels
  working _ := .new
  asks _ := rfl
  sourced := .new channels

theorem working_step (busy : Busy host) (steps : Host.Steps config host event next)
    (connection : ConnectionId) :
    Working (next.conns connection) ∧
      (host.conns connection).queue.taken ≤ (next.conns connection).queue.taken := by
  rcases steps.conns connection with same | ⟨action, -, acts⟩
  · rw [same]
    exact ⟨busy.working connection, Nat.le_refl _⟩
  · exact ⟨acts.working (busy.working connection), acts.taken_le⟩

theorem asks_step (busy : Busy host) (steps : Host.Steps config host event next)
    (connection : ConnectionId) :
    (next.conns connection).worker.Asks connection (asking next.pool (.worker connection)) := by
  have asks := busy.asks connection
  cases steps with
  | act acts =>
      rename_i acting action conn pool
      by_cases same : connection = acting
      · subst same
        rw [Host.conns_acted_self]
        exact acts.asks (busy.working connection) asks
      · rw [Host.conns_acted_of_ne _ _ _ same]
        have others : asking pool (.worker connection) = asking host.pool (.worker connection) :=
          acts.touches.asking_eq same
        rw [← others] at asks
        exact asks
  | advance moved =>
      rw [← asking_advance moved] at asks
      exact asks
  | environment => exact asks

theorem step (busy : Busy host) (steps : Host.Steps config host event next) : Busy next where
  toLinked := busy.toLinked.step steps
  working connection := (busy.working_step steps connection).1
  asks := busy.asks_step steps
  sourced := by
    rcases steps.shown with same | ⟨shown, moved⟩
    · rw [same]
      exact busy.sourced
    · exact busy.sourced.step (Pool.steps_of_step moved)

theorem run {meets : Host → Event → Prop} {events : List Event}
    (run : Run (Host.step config) meets host events next) (busy : Busy host) : Busy next :=
  run.invariant (fun _ _ _ busy _ moved => busy.step (Host.steps_of_step moved)) busy

/-- What a worker publishes is the message it holds. -/
theorem of_asking (busy : Busy host) {publication : Publication}
    (asked : asking host.pool (.worker connection) = some (.publish publication)) :
    ∃ index, (host.conns connection).worker = .publishing index ∧
      publication.origin = .message connection index := by
  have asks := busy.asks connection
  rw [asked] at asks
  cases worker : (host.conns connection).worker with
  | publishing index =>
      rw [worker] at asks
      rcases asks with ⟨source, packet, same⟩
      cases same
      exact ⟨index, rfl, rfl⟩
  | absent | idle | chaining | finished =>
      rw [worker] at asks
      contradiction

/-- A message of a connection is published by its worker, which holds just that
message. -/
theorem of_announces (busy : Busy host) {task : Task} {running : Running}
    {publication : Publication} {index : Nat}
    (found : host.pool.calls.lookup task = some running)
    (announces : running.call.announces = some publication)
    (origin : publication.origin = .message connection index) :
    task = .worker connection ∧ running.request = .publish publication ∧
      (host.conns connection).worker = .publishing index := by
  have asked : running.request = .publish publication := by
    rcases busy.sourced found announces with ⟨ended, will⟩ | asked
    · rw [will] at origin
      contradiction
    · exact asked
  have asking : asking host.pool task = some (.publish publication) := by
    rw [Server.asking, found, Option.map_some, asked]
  cases task with
  | handler owner =>
      rcases busy.consistent.stage found with ⟨registration, -, -, stage⟩
      rw [asked] at stage
      cases stage
  | worker sender =>
      rcases busy.of_asking asking with ⟨held, worker, same⟩
      rw [origin] at same
      cases same
      exact ⟨rfl, asked, worker⟩

/-- Whatever copies of messages a step sends, they are of the messages that the
workers hold. -/
theorem deliveries_step (busy : Busy host) (steps : Host.Steps config host event next) :
    ∃ more, next.pool.broker.deliveries = host.pool.broker.deliveries ++ more ∧
      ∀ delivery ∈ more, ∀ connection index, delivery.origin = .message connection index →
        (host.conns connection).worker = .publishing index ∧
          ∃ publication subQos, publication.origin = delivery.origin ∧
            asking host.pool (.worker connection) = some (.publish publication) ∧
            Copy publication.packet subQos delivery.packet := by
  cases steps with
  | act acts =>
      refine ⟨[], ?_, nofun⟩
      rw [List.append_nil]
      cases acts.touches <;> rfl
  | advance moved =>
      cases Pool.steps_of_step moved with
      | advance running unblocked stepped =>
          rename_i request call following access
          rcases deliveries_apply host.pool.shared access with ⟨more, deliveries, added⟩
          refine ⟨more, deliveries, fun delivery listed connection index origin => ?_⟩
          rcases added delivery listed with ⟨publication, subQos, rfl, same, copies⟩
          have announces : call.announces = some publication := by
            cases Call.moves_of_step stepped
            rfl
          rcases busy.of_announces running announces (same.symm.trans origin) with
            ⟨rfl, asked, publishing⟩
          have asked : request = .publish publication := asked
          refine ⟨publishing, publication, subQos, same.symm, ?_, copies⟩
          rw [asking, running, Option.map_some, asked]
  | environment => exact ⟨[], (List.append_nil _).symm, nofun⟩

end Busy

end HotaruMqtt.Server
