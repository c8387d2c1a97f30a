import HotaruMqtt.Server.Work

/-!
# Messages through the worker

Of what a reader has handed on, the first part has passed through the chain, then
comes the message the worker runs the chain over, then what is pending.  What has
passed the chain and was not suppressed has been published, in this order and once.
-/

namespace HotaruMqtt.Broker

open Exec Exec.Transition

/-- What was published of the messages of a connection. -/
def messagesOf (broker : Broker) (connection : ConnectionId) : List Publication :=
  broker.publications.filter fun publication => (publication.origin.index connection).isSome

/-- No copy of a message of the connection comes after a copy of a later one. -/
def InOrder (connection : ConnectionId) (deliveries : List Delivery) : Prop :=
  deliveries.Pairwise fun earlier later => ∀ first second,
    earlier.origin = .message connection first → later.origin = .message connection second →
      first ≤ second

/-- What the call publishes next, if it has not taken its snapshot yet. -/
def Call.due : Call → Option Publication
  | .snapshot publication _ => some publication
  | _ => none

/-- What the worker of a connection publishes next. -/
def Pool.due (pool : Pool) (connection : ConnectionId) : Option Publication :=
  (pool.calls.lookup (.worker connection)).bind fun running => running.call.due

/-- The messages of a connection with which `publish` has been called. -/
def Pool.logged (pool : Pool) (connection : ConnectionId) : List Publication :=
  pool.broker.messagesOf connection ++ (pool.due connection).toList

end HotaruMqtt.Broker

namespace HotaruMqtt.Server

open Exec Exec.Outcome Exec.Transition Broker

/-- Every chain returns. -/
def ChainsReturn (_ : Host) : Event → Prop
  | .act _ action => action ≠ .crash
  | _ => True

instance (host : Host) : (event : Event) → Decidable (ChainsReturn host event)
  | .act _ action => inferInstanceAs (Decidable (action ≠ .crash))
  | .advance _ _ => inferInstanceAs (Decidable True)
  | .environment _ _ => inferInstanceAs (Decidable True)

/-- The message the worker runs the chain over. -/
def Worker.inHand : Worker → List PublishPacket
  | .chaining _ publish => [publish]
  | _ => []

/-- What is to be published of a list of messages. -/
def fannedOut (config : Config) (connection : ConnectionId) (client : ClientId)
    (messages : List PublishPacket) : List Publication :=
  messages.zipIdx.filterMap fun message =>
    (config.chain message.1).map fun packet => ⟨.message connection message.2, client, packet⟩

/-- The handler is calling `unregister_session`. -/
def Phase.unregisters : Phase → Bool
  | .refusing _ | .unregistering _ => true
  | _ => false

section FannedOut

variable {config : Config} {connection : ConnectionId} {client : ClientId}
  {messages : List PublishPacket} {publish packet : PublishPacket}

theorem fannedOut_snoc (config : Config) (connection : ConnectionId) (client : ClientId)
    (messages : List PublishPacket) (publish : PublishPacket) :
    fannedOut config connection client (messages ++ [publish]) =
      fannedOut config connection client messages ++
        ((config.chain publish).map fun packet =>
          ⟨.message connection messages.length, client, packet⟩).toList := by
  rw [fannedOut, List.zipIdx_append, List.filterMap_append, ← fannedOut]
  cases chained : config.chain publish <;> simp [chained]

end FannedOut

/-! ## What `publish` is called with -/

section Logged

variable {config : Config} {host next : Host} {connection acting : ConnectionId}
  {pool after : Pool} {task : Task} {request : Request} {call : Call} {response : Response}

theorem logged_congr (broker : after.broker.publications = pool.broker.publications)
    (due : after.due connection = pool.due connection) :
    after.logged connection = pool.logged connection := by
  rw [Pool.logged, Pool.logged, messagesOf, messagesOf, broker, due]

theorem logged_begun (differs : task ≠ .worker connection) :
    (pool.begun task request call).logged connection = pool.logged connection := by
  refine logged_congr rfl ?_
  rw [Pool.due, Pool.due, Pool.begun, Table.lookup_insert, if_neg (Ne.symm differs)]

theorem logged_concluded (running : pool.calls.lookup task = some ⟨request, .returned response⟩) :
    (pool.concluded task request response).logged connection = pool.logged connection := by
  refine logged_congr rfl ?_
  rw [Pool.due, Pool.due, Pool.concluded, Table.lookup_erase]
  split
  · rename_i same
    rw [same, running]
    rfl
  · rfl

theorem logged_of_invoke (invoked : pool.invoke (.handler acting) request = some after) :
    after.logged connection = pool.logged connection := by
  rcases invoke_eq_some invoked with ⟨call, -, -, rfl⟩
  exact logged_begun nofun

theorem logged_of_resume (connection : ConnectionId)
    (resumed : resume pool task = some (response, after)) :
    after.logged connection = pool.logged connection ∧ after.joined = pool.joined := by
  rcases resume_eq_some resumed with ⟨request, running, rfl⟩
  exact ⟨logged_concluded running, rfl⟩

/-- The worker calls `publish`. -/
theorem logged_of_publish {publication : Publication}
    (invoked : pool.invoke (.worker connection) (.publish publication) = some after) :
    after.logged connection = pool.logged connection ++ [publication] ∧
      after.joined = pool.joined := by
  rcases invoke_eq_some invoked with ⟨call, idle, opened, rfl⟩
  cases opened
  refine ⟨?_, rfl⟩
  have before : pool.due connection = none := by
    rw [Pool.due, idle]
    rfl
  have due : (pool.begun (.worker connection) (.publish publication)
      (.snapshot publication .finish)).due connection = some publication := by
    rw [Pool.due, Pool.begun, Table.lookup_insert, if_pos rfl]
    rfl
  rw [Pool.logged, Pool.logged, before, due, Option.toList_none, List.append_nil]
  rfl

theorem Touches.frame (touches : Touches pool acting after) (differs : connection ≠ acting) :
    after.logged connection = pool.logged connection ∧
      after.joined connection = pool.joined connection := by
  cases touches with
  | nothing | channel => exact ⟨rfl, rfl⟩
  | begun own message idle opened =>
      rename_i task request call
      constructor
      · refine logged_begun ?_
        rintro rfl
        exact differs own
      · cases request with
        | register registration =>
            rcases Pool.opening_register opened with ⟨rfl, -⟩
            have other : connection ≠ registration.connection := fun same =>
              differs (same.trans own)
            simp [Pool.begun, Pool.joinedBy, other]
        | unregister _ | subscribe _ | unsubscribe _ | publish _ => rfl
  | concluded own running => exact ⟨logged_concluded running, rfl⟩

section Moved

variable {following : Call} {access : Access}

theorem messagesOf_moved :
    (pool.moved task request access following).broker.messagesOf connection =
      pool.broker.messagesOf connection ++ access.announced.filter fun publication =>
        (publication.origin.index connection).isSome := by
  simp only [messagesOf, Pool.broker, Pool.moved, publications_apply, List.filter_append]

/-- The worker's own call takes a message from what is due to what is published. -/
theorem Busy.logged_moved_self (busy : Busy host)
    (running : host.pool.calls.lookup (.worker connection) = some ⟨request, call⟩)
    (moves : Call.Moves host.pool.broker call access following) :
    (host.pool.moved (.worker connection) request access following).logged connection =
      host.pool.logged connection := by
  have before : host.pool.due connection = call.due := by
    rw [Pool.due, running]
    rfl
  have after : (host.pool.moved (.worker connection) request access following).due connection =
      following.due := by
    rw [Pool.due, Pool.moved, Table.lookup_insert, if_pos rfl]
    rfl
  rw [Pool.logged, Pool.logged, messagesOf_moved, before, after, List.append_assoc]
  congr 1
  rcases busy.consistent.served running with ⟨publication, asked, publishes | returned⟩
  · cases publishes with
    | snapshot =>
        cases moves
        have asked : request = .publish publication := asked
        have asks : asking host.pool (.worker connection) = some (.publish publication) := by
          rw [asking, running, Option.map_some, asked]
        rcases busy.of_asking asks with ⟨index, -, origin⟩
        simp [Access.announced, Call.due, origin, Origin.index]
    | fanout => cases moves <;> rfl
    | enqueue => cases moves; rfl
  · cases returned
    cases moves

/-- No other call publishes a message of the connection. -/
theorem Busy.logged_moved_other (busy : Busy host) (differs : task ≠ .worker connection)
    (running : host.pool.calls.lookup task = some ⟨request, call⟩)
    (moves : Call.Moves host.pool.broker call access following) :
    (host.pool.moved task request access following).logged connection =
      host.pool.logged connection := by
  have due : (host.pool.moved task request access following).due connection =
      host.pool.due connection := by
    rw [Pool.due, Pool.due, Pool.moved, Table.lookup_insert, if_neg (Ne.symm differs)]
  have foreign : access.announced.filter (fun publication =>
      (publication.origin.index connection).isSome) = [] := by
    rw [List.filter_eq_nil_iff]
    intro publication listed mine
    rcases Option.isSome_iff_exists.mp mine with ⟨index, origin⟩
    have announces : call.announces = some publication := by
      cases moves with
      | snapshot =>
          cases List.mem_singleton.mp listed
          rfl
      | _ => cases listed
    exact differs (busy.of_announces running announces (Origin.index_eq_some.mp origin)).1
  rw [Pool.logged, Pool.logged, messagesOf_moved, due, foreign, List.append_nil]

theorem Busy.logged_moved (busy : Busy host)
    (running : host.pool.calls.lookup task = some ⟨request, call⟩)
    (moves : Call.Moves host.pool.broker call access following) :
    (host.pool.moved task request access following).logged connection =
      host.pool.logged connection := by
  by_cases own : task = .worker connection
  · subst own
    exact busy.logged_moved_self running moves
  · exact busy.logged_moved_other own running moves

end Moved

end Logged

/-! ## One connection -/

section Acting

variable {config : Config} {pool next : Pool} {connection : ConnectionId} {conn after : Conn}
  {action : Action}

theorem Acts.handed_prefix (acts : Acts config pool connection conn action after next) :
    conn.queue.handed <+: after.queue.handed := by
  cases acts with
  | dispatched at_ dispatched continued =>
      have grows := grows_of_dispatched dispatched
      generalize ‹Reader›.queue = queue at grows
      cases grows with
      | same => exact List.prefix_refl _
      | handed => exact List.prefix_append _ _
  | _ => exact List.prefix_refl _

/-- What a step of a connection does to what `publish` is called with. -/
theorem Acts.logs (acts : Acts config pool connection conn action after next) :
    (after.chained = conn.chained ∧ next.logged connection = pool.logged connection ∧
        (next.joined = pool.joined ∨ conn.main = .waiting)) ∨
      ∃ session phase index publish, conn.main = .serving session phase ∧
        conn.worker = .chaining index publish ∧ after.chained = conn.chained ++ [publish] ∧
        next.joined = pool.joined ∧
        next.logged connection = pool.logged connection ++
          ((config.chain publish).map fun packet =>
            ⟨.message connection index, session.client, packet⟩).toList := by
  cases acts with
  | admitted at_ _ invoked => exact .inl ⟨rfl, logged_of_invoke invoked, .inr at_⟩
  | unanswered _ invoked | subscribe _ invoked | unsubscribe _ invoked | joined _ _ invoked =>
      refine .inl ⟨rfl, logged_of_invoke invoked, .inl ?_⟩
      rcases invoke_eq_some invoked with ⟨call, -, -, rfl⟩
      rfl
  | registered _ resumed | withdrawn _ resumed | subscribed _ resumed | unsubscribed _ resumed
  | unregistered _ resumed | published _ _ resumed =>
      rcases logged_of_resume connection resumed with ⟨logged, joined⟩
      exact .inl ⟨rfl, logged, .inl joined⟩
  | fanned at_ chaining chained invoked =>
      rcases logged_of_publish invoked with ⟨logged, joined⟩
      refine .inr ⟨_, _, _, _, at_, chaining, rfl, joined, ?_⟩
      rw [logged, chained]
      rfl
  | suppressed at_ chaining chained =>
      refine .inr ⟨_, _, _, _, at_, chaining, rfl, rfl, ?_⟩
      rw [chained]
      exact (List.append_nil _).symm
  | failed | refused | accepted | polled | left | dispatched | responded | dropped | closed | took
  | drained | crashed => exact .inl ⟨rfl, rfl, .inl rfl⟩

/-- What the worker's call publishes, it was already publishing, or has just come out
of the chain. -/
theorem Acts.asked (acts : Acts config pool connection conn action after next)
    {publication : Publication}
    (asked : asking next (.worker connection) = some (.publish publication)) :
    asking pool (.worker connection) = some (.publish publication) ∨
      ∃ session phase index publish packet, conn.main = .serving session phase ∧
        conn.worker = .chaining index publish ∧ config.chain publish = some packet ∧
        publication = ⟨.message connection index, session.client, packet⟩ := by
  cases acts with
  | admitted _ _ invoked | unanswered _ invoked | subscribe _ invoked | unsubscribe _ invoked
  | joined _ _ invoked =>
      rw [asking_worker_of_invoke invoked] at asked
      exact .inl asked
  | registered _ resumed | withdrawn _ resumed | subscribed _ resumed | unsubscribed _ resumed
  | unregistered _ resumed =>
      rw [asking_worker_of_resume resumed] at asked
      exact .inl asked
  | fanned at_ chaining chained invoked =>
      rcases invoke_eq_some invoked with ⟨call, -, -, rfl⟩
      rw [asking_begun, if_pos rfl] at asked
      cases asked
      exact .inr ⟨_, _, _, _, _, at_, chaining, chained, rfl⟩
  | published at_ publishing resumed =>
      rcases resume_eq_some resumed with ⟨request, -, rfl⟩
      rw [asking_concluded, if_pos rfl] at asked
      contradiction
  | failed | refused | accepted | polled | left | dispatched | responded | dropped | closed | took
  | drained | suppressed | crashed => exact .inl asked

/-- Messages stay in their order from the queue through the chain. -/
theorem Acts.flow (acts : Acts config pool connection conn action after next)
    (working : Working conn) (returns : action ≠ .crash)
    (flow : conn.queue.handed = conn.chained ++ conn.worker.inHand ++ conn.queue.pending) :
    after.queue.handed = after.chained ++ after.worker.inHand ++ after.queue.pending := by
  cases acts with
  | accepted at_ =>
      rw [working.early (by rw [at_]; rfl)] at flow
      exact flow
  | dispatched at_ dispatched continued =>
      have grows := grows_of_dispatched dispatched
      simp only
      generalize ‹Reader›.queue = queue at grows
      cases grows with
      | same => exact flow
      | handed =>
          simp only
          rw [flow, List.append_assoc]
  | took at_ idle pending =>
      rw [idle, pending] at flow
      simpa [Worker.inHand] using flow
  | drained at_ idle =>
      rw [idle] at flow
      exact flow
  | fanned at_ chaining =>
      rw [chaining] at flow
      simpa [Worker.inHand] using flow
  | suppressed at_ chaining =>
      rw [chaining] at flow
      simpa [Worker.inHand] using flow
  | published at_ publishing =>
      rw [publishing] at flow
      exact flow
  | crashed => exact absurd rfl returns
  | _ => exact flow

theorem Acts.absent (acts : Acts config pool connection conn action after next)
    (absent : after.worker = .absent) : conn.worker = .absent := by
  cases acts with
  | accepted | took | drained | fanned | suppressed | published | crashed => contradiction
  | _ => exact absent

end Acting

/-- The packet is what the chain made of the message with the index of the origin. -/
def Passed (config : Config) (connection : ConnectionId) (handed : List PublishPacket)
    (origin : Origin) (packet : PublishPacket) : Prop :=
  ∃ index publish, origin = .message connection index ∧ handed[index]? = some publish ∧
    config.chain publish = some packet

theorem Passed.mono {config : Config} {connection : ConnectionId}
    {handed more : List PublishPacket} {origin : Origin} {packet : PublishPacket}
    (passed : Passed config connection handed origin packet) (grows : handed <+: more) :
    Passed config connection more origin packet := by
  rcases passed with ⟨index, publish, same, found, chained⟩
  rcases grows with ⟨rest, rfl⟩
  refine ⟨index, publish, same, ?_, chained⟩
  rw [List.getElem?_append_left (List.getElem?_eq_some_iff.mp found).1, found]

/-- What is in the hands of a connection's worker has been handed to it, whatever its chains
do. -/
structure FromQueue (config : Config) (connection : ConnectionId) (pool : Pool) (conn : Conn) :
    Prop where
  pending : conn.queue.pending <:+ conn.queue.handed
  chaining : ∀ index publish, conn.worker = .chaining index publish →
    conn.queue.handed[index]? = some publish
  asked : ∀ publication, asking pool (.worker connection) = some (.publish publication) →
    Passed config connection conn.queue.handed publication.origin publication.packet

namespace FromQueue

variable {config : Config} {pool next : Pool} {connection : ConnectionId} {conn after : Conn}
  {action : Action}

theorem new (channels : ConnectionId → MqttChannel) :
    FromQueue config connection (.new channels) .new where
  pending := List.nil_suffix
  chaining _ _ held := by cases held
  asked _ found := by cases found

/-- Something happens that does not concern the connection. -/
theorem frame (fromQueue : FromQueue config connection pool conn)
    (asks : asking next (.worker connection) = asking pool (.worker connection)) :
    FromQueue config connection next conn :=
  { fromQueue with asked := fun publication found =>
      fromQueue.asked publication (asks.symm.trans found) }

theorem pending_act (fromQueue : FromQueue config connection pool conn)
    (acts : Acts config pool connection conn action after next) :
    after.queue.pending <:+ after.queue.handed := by
  have pending := fromQueue.pending
  cases acts with
  | dispatched at_ dispatched =>
      have grows := grows_of_dispatched dispatched
      generalize ‹Reader›.queue = queue at grows
      cases grows with
      | same => exact pending
      | handed =>
          obtain ⟨front, same⟩ := pending
          exact ⟨front, by rw [← List.append_assoc, same]⟩
  | took at_ idle listed =>
      rw [listed] at pending
      exact (List.suffix_cons _ _).trans pending
  | crashed => exact List.nil_suffix
  | _ => exact pending

/-- The message that the worker takes is the one with the index of how many it had taken. -/
theorem taken (fromQueue : FromQueue config connection pool conn) {publish : PublishPacket}
    {rest : List PublishPacket} (listed : conn.queue.pending = publish :: rest) :
    conn.queue.handed[conn.queue.taken]? = some publish := by
  obtain ⟨front, same⟩ := fromQueue.pending
  have position : conn.queue.taken = front.length := by
    rw [WorkQueue.taken, ← same, List.length_append, Nat.add_sub_cancel_right]
  rw [position, ← same, listed]
  simp

theorem chaining_act (fromQueue : FromQueue config connection pool conn)
    (acts : Acts config pool connection conn action after next) {index : Nat}
    {publish : PublishPacket} (held : after.worker = .chaining index publish) :
    after.queue.handed[index]? = some publish := by
  have kept : conn.worker = .chaining index publish →
      after.queue.handed[index]? = some publish := by
    intro before
    have found := fromQueue.chaining index publish before
    obtain ⟨more, grown⟩ := acts.handed_prefix
    rw [← grown, List.getElem?_append_left (List.getElem?_eq_some_iff.mp found).1]
    exact found
  cases acts with
  | took _ _ listed =>
      cases held
      exact fromQueue.taken listed
  | accepted | drained | fanned | suppressed | published | crashed => cases held
  | _ => exact kept held

theorem act (fromQueue : FromQueue config connection pool conn)
    (acts : Acts config pool connection conn action after next) :
    FromQueue config connection next after where
  pending := fromQueue.pending_act acts
  chaining _ _ := fromQueue.chaining_act acts
  asked publication found := by
    rcases acts.asked found with before |
      ⟨session, phase, index, publish, packet, _, held, chained, rfl⟩
    · exact (fromQueue.asked publication before).mono acts.handed_prefix
    · have passed : Passed config connection conn.queue.handed (.message connection index) packet :=
        ⟨index, publish, rfl, fromQueue.chaining index publish held, chained⟩
      exact passed.mono acts.handed_prefix

end FromQueue

/-- How far the messages of a connection have come. -/
structure Flow (config : Config) (connection : ConnectionId) (pool : Pool) (conn : Conn) :
    Prop where
  flow : conn.queue.handed = conn.chained ++ conn.worker.inHand ++ conn.queue.pending
  silent : conn.worker = .absent → pool.logged connection = []
  logged : ∀ registration, pool.joined connection = some registration →
    pool.logged connection = fannedOut config connection registration.client conn.chained

namespace Flow

variable {config : Config} {pool next : Pool} {connection : ConnectionId} {conn after : Conn}
  {action : Action}

theorem new (channels : ConnectionId → MqttChannel) :
    Flow config connection (.new channels) .new where
  flow := rfl
  silent _ := rfl
  logged _ found := by cases found

/-- Something happens that does not concern the connection. -/
theorem frame (flow : Flow config connection pool conn)
    (logged : next.logged connection = pool.logged connection)
    (joined : next.joined connection = pool.joined connection) :
    Flow config connection next conn where
  flow := flow.flow
  silent absent := logged.trans (flow.silent absent)
  logged registration found := logged.trans (flow.logged registration (joined.symm.trans found))

/-- The message in the worker's hands is the one after those that passed the chain. -/
theorem chaining (flow : Flow config connection pool conn) (working : Working conn)
    {index : Nat} {publish : PublishPacket} (held : conn.worker = .chaining index publish) :
    index = conn.chained.length := by
  have handed := flow.flow
  have next : index + 1 = conn.queue.taken := working.index index (by rw [held]; rfl)
  rw [held] at handed
  rw [WorkQueue.taken, handed] at next
  simp only [Worker.inHand, List.length_append, List.length_singleton] at next
  omega

theorem logged_act (flow : Flow config connection pool conn) (working : Working conn)
    (agrees : conn.main.Agrees pool connection)
    (acts : Acts config pool connection conn action after next) (registration : Registration)
    (found : next.joined connection = some registration) :
    next.logged connection = fannedOut config connection registration.client after.chained := by
  rcases acts.logs with ⟨chained, logged, joined | waiting⟩ |
    ⟨session, phase, index, publish, serving, held, chained, joined, logged⟩
  · rw [logged, chained]
    rw [joined] at found
    exact flow.logged registration found
  · -- Before the registration nothing has been handed on.
    have absent := working.early (by rw [waiting]; rfl)
    have nothing : conn.chained = [] := by
      have handed := flow.flow
      rw [working.unused absent, List.append_assoc] at handed
      exact (List.append_eq_nil_iff.mp handed.symm).1
    rw [logged, chained, flow.silent absent, nothing]
    rfl
  · rw [serving] at agrees
    rcases agrees.1 with ⟨known, knownJoined, client⟩
    rw [joined, knownJoined] at found
    cases found
    rw [logged, chained, fannedOut_snoc, flow.logged registration knownJoined, client,
      flow.chaining working held]

theorem act (flow : Flow config connection pool conn) (working : Working conn)
    (agrees : conn.main.Agrees pool connection)
    (acts : Acts config pool connection conn action after next) (returns : action ≠ .crash) :
    Flow config connection next after where
  flow := acts.flow working returns flow.flow
  silent absent := by
    have before := acts.absent absent
    rcases acts.logs with ⟨-, logged, -⟩ | ⟨session, phase, index, publish, -, held, -⟩
    · rw [logged]
      exact flow.silent before
    · rw [before] at held
      contradiction
  logged := flow.logged_act working agrees acts

end Flow

/-! ## Over whole runs -/

/-- What holds of the copies of a connection's messages, whatever its chains do. -/
structure Delivers (config : Config) (connection : ConnectionId) (host : Host) : Prop extends
    Busy host where
  fromQueue : FromQueue config connection host.pool (host.conns connection)
  delivered : ∀ delivery ∈ host.pool.broker.deliveries, ∀ index,
    delivery.origin = .message connection index →
      index < (host.conns connection).queue.taken ∧ ∃ packet subQos,
        Passed config connection (host.conns connection).queue.handed delivery.origin packet ∧
        Copy packet subQos delivery.packet

namespace Delivers

variable {config : Config} {host next : Host} {event : Event} {connection : ConnectionId}

theorem new (channels : ConnectionId → MqttChannel) :
    Delivers config connection (.new channels) where
  toBusy := .new channels
  fromQueue := .new channels
  delivered _ listed := by cases listed

theorem fromQueue_step (delivers : Delivers config connection host)
    (steps : Host.Steps config host event next) :
    FromQueue config connection next.pool (next.conns connection) ∧
      (host.conns connection).queue.handed <+: (next.conns connection).queue.handed := by
  have fromQueue := delivers.fromQueue
  cases steps with
  | act acts =>
      rename_i acting action conn pool
      by_cases same : connection = acting
      · subst same
        rw [Host.conns_acted_self]
        exact ⟨fromQueue.act acts, acts.handed_prefix⟩
      · rw [Host.conns_acted_of_ne _ _ _ same]
        exact ⟨fromQueue.frame (acts.touches.asking_eq same), List.prefix_refl _⟩
  | advance moved =>
      exact ⟨fromQueue.frame (congrFun (asking_advance moved) _), List.prefix_refl _⟩
  | environment => exact ⟨fromQueue.frame rfl, List.prefix_refl _⟩

/-- What a step sends is of the message with the greatest index so far. -/
theorem current (delivers : Delivers config connection host) {index : Nat}
    (publishing : (host.conns connection).worker = .publishing index) :
    index + 1 = (host.conns connection).queue.taken :=
  (delivers.working connection).index index (by rw [publishing]; rfl)

theorem step (delivers : Delivers config connection host)
    (steps : Host.Steps config host event next) : Delivers config connection next := by
  obtain ⟨fromQueue, handed⟩ := delivers.fromQueue_step steps
  obtain ⟨_, taken⟩ := delivers.toBusy.working_step steps connection
  obtain ⟨more, deliveries, held⟩ := delivers.toBusy.deliveries_step steps
  refine ⟨delivers.toBusy.step steps, fromQueue, fun delivery listed index origin => ?_⟩
  rw [deliveries] at listed
  rcases List.mem_append.mp listed with listed | listed
  · obtain ⟨below, packet, subQos, passed, copies⟩ :=
      delivers.delivered delivery listed index origin
    exact ⟨below.trans_le taken, packet, subQos, passed.mono handed, copies⟩
  · obtain ⟨publishing, publication, subQos, same, asked, copies⟩ :=
      held delivery listed connection index origin
    have passed := delivers.fromQueue.asked publication asked
    rw [same] at passed
    have below : index < (host.conns connection).queue.taken :=
      Nat.lt_of_succ_le (delivers.current publishing).le
    exact ⟨below.trans_le taken, publication.packet, subQos, passed.mono handed, copies⟩

end Delivers

/-- What holds of the messages of a connection while its chains return. -/
structure Flowing (config : Config) (connection : ConnectionId) (host : Host) : Prop extends
    Delivers config connection host where
  flow : Flow config connection host.pool (host.conns connection)
  sorted : InOrder connection host.pool.broker.deliveries

namespace Flowing

variable {config : Config} {host next : Host} {event : Event} {connection : ConnectionId}

theorem new (channels : ConnectionId → MqttChannel) :
    Flowing config connection (.new channels) where
  toDelivers := .new channels
  flow := .new channels
  sorted := .nil

theorem flow_step (flowing : Flowing config connection host) (returns : ChainsReturn host event)
    (steps : Host.Steps config host event next) :
    Flow config connection next.pool (next.conns connection) := by
  cases steps with
  | act acts =>
      rename_i acting action conn pool
      by_cases same : connection = acting
      · subst same
        rw [Host.conns_acted_self]
        exact flowing.flow.act (flowing.working connection) (flowing.agrees connection) acts
          returns
      · rw [Host.conns_acted_of_ne _ _ _ same]
        obtain ⟨logged, joined⟩ := acts.touches.frame same
        exact flowing.flow.frame logged joined
  | advance moved =>
      cases Pool.steps_of_step moved with
      | advance running unblocked stepped =>
          exact flowing.flow.frame
            (flowing.toBusy.logged_moved running (Call.moves_of_step stepped)) rfl
  | environment => exact flowing.flow.frame rfl rfl

/-- The copies that a step sends follow those that were sent before. -/
theorem sorted_step (flowing : Flowing config connection host)
    (steps : Host.Steps config host event next) :
    InOrder connection next.pool.broker.deliveries := by
  obtain ⟨more, deliveries, held⟩ := flowing.toBusy.deliveries_step steps
  have current : ∀ delivery ∈ more, ∀ index, delivery.origin = .message connection index →
      index + 1 = (host.conns connection).queue.taken := fun delivery listed index origin =>
    flowing.current (held delivery listed connection index origin).1
  rw [InOrder, deliveries, List.pairwise_append]
  refine ⟨flowing.sorted, List.pairwise_of_forall_mem_list ?_, ?_⟩
  · intro earlier first later second index other origin otherOrigin
    have same := (current earlier first index origin).trans
      (current later second other otherOrigin).symm
    exact (Nat.succ.inj same).le
  · intro earlier first later second index other origin otherOrigin
    have below := (flowing.delivered earlier first index origin).1
    rw [← current later second other otherOrigin] at below
    exact Nat.le_of_lt_succ below

theorem step (flowing : Flowing config connection host) (returns : ChainsReturn host event)
    (steps : Host.Steps config host event next) : Flowing config connection next :=
  ⟨flowing.toDelivers.step steps, flowing.flow_step returns steps, flowing.sorted_step steps⟩

/-- When the handler unregisters, everything that was handed on has passed. -/
theorem unregisters (flowing : Flowing config connection host) {session : Session}
    {phase : Phase} (serving : (host.conns connection).main = .serving session phase)
    (unregisters : phase.unregisters = true) :
    (host.conns connection).chained = (host.conns connection).queue.handed ∧
      host.pool.calls.lookup (.worker connection) = none := by
  have working := flowing.working connection
  have asks := flowing.asks connection
  have handed := flowing.flow.flow
  have idle : asking host.pool (.worker connection) = none →
      host.pool.calls.lookup (.worker connection) = none := Option.map_eq_none_iff.mp
  cases phase with
  | refusing error =>
      have absent := working.early (by rw [serving]; rfl)
      rw [absent] at asks
      have nothing := working.unused absent
      rw [nothing] at handed ⊢
      rw [List.append_assoc] at handed
      exact ⟨(List.append_eq_nil_iff.mp handed.symm).1, idle asks⟩
  | unregistering exit =>
      have finished := working.joined session exit serving
      rw [finished] at asks
      rw [finished, (working.finished finished).1] at handed
      exact ⟨by simpa [Worker.inHand] using handed.symm, idle asks⟩
  | _ => contradiction

end Flowing

/-- In every run in which chains return, copies of a connection's messages are sent in
the order in which its reader handed them on, each being a copy of what the chain made
of its message.  When the handler calls `unregister_session`, all messages have passed
the chain and those that it did not suppress have been published, in order and once. -/
theorem messages_in_order (config : Config) (channels : ConnectionId → MqttChannel)
    (events : List Event) (host : Host)
    (run : Run (Host.step config) ChainsReturn (.new channels) events host)
    (connection : ConnectionId) :
    InOrder connection host.pool.broker.deliveries ∧
    (∀ delivery ∈ host.pool.broker.deliveries, ∀ index,
      delivery.origin = .message connection index → ∃ packet subQos,
        Passed config connection (host.conns connection).queue.handed delivery.origin packet ∧
        Copy packet subQos delivery.packet) ∧
    ∀ session phase, (host.conns connection).main = .serving session phase →
      phase.unregisters = true →
        (host.conns connection).chained = (host.conns connection).queue.handed ∧
        host.pool.broker.messagesOf connection = fannedOut config connection session.client
          (host.conns connection).queue.handed ∧
        host.pool.calls.lookup (.worker connection) = none := by
  have flowing : Flowing config connection host :=
    run.invariant (fun _ _ _ flowing returns moved =>
      flowing.step returns (Host.steps_of_step moved)) (.new channels)
  refine ⟨flowing.sorted, fun delivery listed index origin =>
    (flowing.delivered delivery listed index origin).2, fun session phase serving calls => ?_⟩
  rcases flowing.unregisters serving calls with ⟨chained, idle⟩
  refine ⟨chained, ?_, idle⟩
  have agrees := flowing.agrees connection
  rw [serving] at agrees
  rcases agrees.1 with ⟨registration, joined, client⟩
  have logged := flowing.flow.logged registration joined
  rw [chained, client, Pool.logged, Pool.due, idle] at logged
  simpa using logged

/-- Chains that suppress one topic. -/
def quietChains : Config :=
  ⟨.new, fun publish => if publish.topic = "quiet" then none else some publish⟩

/-- A connection hands on three messages, the second on the quiet topic, and is lost;
its worker works them off. -/
def threeMessages : List Event :=
  Event.subscribes 3 "s" "t" ++
    [.connects 1 "c" false none] ++ Event.moves 1 2 ++ Event.proceeds 1 3 ++
    [.act 1 (.read (.packet (.publish ⟨"t", [1], false, .atMostOnce, false, none⟩)))] ++
    Event.proceeds 1 1 ++
    [.act 1 (.read (.packet (.publish ⟨"quiet", [], false, .atMostOnce, false, none⟩)))] ++
    Event.proceeds 1 1 ++ Event.worksOff 1 "s" ++
    [.act 1 (.read (.packet (.publish ⟨"t", [2], false, .atMostOnce, false, none⟩)))] ++
    Event.proceeds 1 1 ++ [.act 1 (.read .deadlineElapsed)] ++ Event.proceeds 1 2 ++
    [.act 1 .work, .act 1 .work] ++ Event.worksOff 1 "s" ++ [.act 1 .work] ++ Event.proceeds 1 1

theorem messages_in_order_three :
    let host := replay (Host.step quietChains) (.new fun _ => .new) threeMessages
    (host.conns 1).main = .serving ⟨"c", 60⟩ (.unregistering ⟨false, none⟩) ∧
      (host.pool.broker.deliveries.map fun delivery => (delivery.origin, delivery.target)) =
        [(.message 1 0, 3), (.message 1 2, 3)] ∧
      InOrder 1 host.pool.broker.deliveries ∧
      host.pool.broker.messagesOf 1 =
        fannedOut quietChains 1 "c" (host.conns 1).queue.handed := by
  have serving :
      ((replay (Host.step quietChains) (.new fun _ => .new) threeMessages).conns 1).main =
        .serving ⟨"c", 60⟩ (.unregistering ⟨false, none⟩) := by decide +kernel
  have ordered := messages_in_order quietChains (fun _ => .new) threeMessages _
    (Follows.run (by decide +kernel)) 1
  exact ⟨serving, by decide +kernel, ordered.1, (ordered.2.2 _ _ serving rfl).2.1⟩

end HotaruMqtt.Server
