import HotaruMqtt.Broker.Stages
import HotaruMqtt.Server.Admission
import HotaruMqtt.Server.Dispatch

/-!
# The server

Any number of connections, each served by `handle_server` and, once its CONNACK is
out, by `run_publish_chain_worker`.  A handler and a worker are program counters that
take one step at a time and call the broker through the pool; the steps of all
connections interleave.

Endpoint chains are a function from a publish to the packet that is fanned out, if
any.  A chain that does not return can only stop its worker.
-/

namespace HotaruMqtt.Server

open Exec Exec.Outcome Exec.Transition Broker

/-! ## Handlers and workers -/

/-- How the read loop was left. -/
structure Exit where
  graceful : Bool
  terminalError : Option MqttError
  deriving DecidableEq, Repr

/-- Where the handler of an admitted connection stands. -/
inductive Phase
  /-- `register_session` is running. -/
  | registering
  /-- The CONNACK is sent next. -/
  | answering (sessionPresent : Bool)
  /-- `unregister_session` is running because the CONNACK could not be sent. -/
  | refusing (error : MqttError)
  /-- The head of the loop. -/
  | looping
  /-- The handler waits for a packet or the shutdown signal. -/
  | selecting
  /-- `subscribe` is running, and then `unsubscribe`. -/
  | subscribing (packetId : PacketId)
  | unsubscribing (packetId : PacketId)
  /-- The answer to the call is sent next. -/
  | responding (packet : Packet)
  /-- The handler drops its end of the work queue. -/
  | dropping (exit : Exit)
  /-- It closes the channel. -/
  | closing (exit : Exit)
  /-- It waits for the worker. -/
  | joining (exit : Exit)
  /-- `unregister_session` is running. -/
  | unregistering (exit : Exit)
  deriving DecidableEq, Repr

/-- Where `handle_server` stands. -/
inductive Main
  /-- Nothing has been read yet. -/
  | waiting
  | serving (session : Session) (phase : Phase)
  | returned (outcome : Outcome MqttError Unit)
  deriving DecidableEq, Repr

/-- The handler no longer holds its end of the work queue. -/
def Main.dropped : Main → Bool
  | .serving _ (.closing _) => true
  | .serving _ (.joining _) => true
  | .serving _ (.unregistering _) => true
  | .returned _ => true
  | _ => false

/-- Where the worker of a connection stands. -/
inductive Worker
  /-- The worker has not been spawned. -/
  | absent
  | idle
  /-- The endpoint chain runs over the message with this index. -/
  | chaining (index : Nat) (publish : PublishPacket)
  /-- `publish` is running for the message with this index. -/
  | publishing (index : Nat)
  | finished
  deriving DecidableEq, Repr

/-- The state of one connection beside its channel.  `chained` lists what has passed
through the chain. -/
structure Conn where
  main : Main
  queue : WorkQueue
  worker : Worker
  chained : List PublishPacket
  deriving DecidableEq, Repr

namespace Conn

/-- A connection of which nothing has been read. -/
def new : Conn :=
  ⟨.waiting, .new, .absent, []⟩

/-- The handler gets to another place. -/
def enter (conn : Conn) (session : Session) (phase : Phase) : Conn :=
  { conn with main := .serving session phase }

/-- The handler returns. -/
def finish (conn : Conn) (outcome : Outcome MqttError Unit) : Conn :=
  { conn with main := .returned outcome }

end Conn

/-- How many messages the worker has received. -/
def WorkQueue.taken (queue : WorkQueue) : Nat :=
  queue.handed.length - queue.pending.length

/-- The limits on keep-alive, and the chain of endpoints as a function on messages. -/
structure Config where
  safety : MqttSafety
  chain : PublishPacket → Option PublishPacket

/-- What a read under the deadline ends as. -/
inductive ReadOutcome
  | packet (packet : Packet)
  | failed (error : MqttError)
  | deadlineElapsed
  deriving DecidableEq, Repr

/-- Why `handle_server` cannot begin. -/
inductive Unavailable
  | noBroker
  | readerTaken
  deriving DecidableEq, Repr

/-- The text of the configuration error. -/
def Unavailable.message : Unavailable → String
  | .noBroker => "Broker not registered"
  | .readerTaken => "reader already taken"

/-- What a connection does next. -/
inductive Action
  | unavailable (reason : Unavailable)
  | connect (read : FirstRead) (auth : AuthResult)
  | read (outcome : ReadOutcome)
  | shutdown
  /-- The handler takes a step that depends on nothing from outside. -/
  | proceed
  /-- The worker takes a step. -/
  | work
  /-- The chain panics. -/
  | crash
  deriving DecidableEq, Repr

/-! ## One step of a connection -/

/-- A call of the pool has returned. -/
def resume (pool : Pool) (task : Task) : Option (Response × Pool) :=
  match pool.calls.lookup task with
  | some ⟨request, .returned response⟩ => some (response, pool.concluded task request response)
  | _ => none

/-- Where the loop goes after a packet. -/
def afterDispatch : Outcome MqttError Unit → Option Phase
  | .ok () => some .looping
  | .err error => some (.dropping ⟨false, some error⟩)
  | .panic _ => none

/-- What `handle_server` returns in the end. -/
def Exit.outcome (exit : Exit) : Outcome MqttError Unit :=
  match exit.terminalError with
  | some error => err error
  | none => ok ()

section Act

variable (config : Config) (pool : Pool) (connection : ConnectionId) (conn : Conn)

/-- `handle_server` up to the registration. -/
def connect (read : FirstRead) (auth : AuthResult) : Option (Conn × Pool) :=
  match admission config.safety connection auth read with
  | .failed error => some (conn.finish (err error), pool)
  | .refused code =>
      let (_, channel) := (pool.broker.channels connection).sendPacket (.connack ⟨false, code⟩)
      some (conn.finish (err (.protocol (.connectionRefused code))),
        pool.environment connection channel)
  | .admitted session registration =>
      (pool.invoke (.handler connection) (.register registration)).map fun pool =>
        (conn.enter session .registering, pool)

/-- The read branch of the loop. -/
def receive (session : Session) : ReadOutcome → Option (Conn × Pool)
  | .deadlineElapsed =>
      if (serverReadDeadline session.keepAlive).isSome then
        some (conn.enter session (.dropping ⟨false, none⟩), pool)
      else
        none
  | .failed (.io _) => some (conn.enter session (.dropping ⟨false, none⟩), pool)
  | .failed error => some (conn.enter session (.dropping ⟨false, some error⟩), pool)
  | .packet .disconnect => some (conn.enter session (.dropping ⟨true, none⟩), pool)
  | .packet packet =>
      match dispatchLocal ⟨pool.broker.channels connection, conn.queue⟩ packet with
      | (.done outcome, reader) =>
          (afterDispatch outcome).map fun phase =>
            ({ conn with main := .serving session phase, queue := reader.queue },
              pool.environment connection reader.channel)
      | (.subscribe packetId filters, _) =>
          (pool.invoke (.handler connection) (.subscribe filters)).map fun pool =>
            (conn.enter session (.subscribing packetId), pool)
      | (.unsubscribe packetId topics, _) =>
          (pool.invoke (.handler connection) (.unsubscribe topics)).map fun pool =>
            (conn.enter session (.unsubscribing packetId), pool)

/-- The steps of the handler that wait for nothing. -/
def proceed (session : Session) : Phase → Option (Conn × Pool)
  | .registering =>
      match resume pool (.handler connection) with
      | some (.registered present, pool) => some (conn.enter session (.answering present), pool)
      | _ => none
  | .answering present =>
      match (pool.broker.channels connection).sendPacket (.connack ⟨present, .accepted⟩) with
      | (.ok (), channel) =>
          some ({ conn with main := .serving session .looping, worker := .idle },
            pool.environment connection channel)
      | (.err error, _) =>
          (pool.invoke (.handler connection) (.unregister false)).map fun pool =>
            (conn.enter session (.refusing error), pool)
      | _ => none
  | .refusing error =>
      (resume pool (.handler connection)).map fun resumed => (conn.finish (err error), resumed.2)
  | .looping =>
      if (pool.broker.channels connection).isOpen then
        some (conn.enter session .selecting, pool)
      else
        some (conn.enter session (.dropping ⟨false, none⟩), pool)
  | .selecting => none
  | .subscribing packetId =>
      match resume pool (.handler connection) with
      | some (.subscribed codes, pool) =>
          some (conn.enter session (.responding (.suback ⟨packetId, codes⟩)), pool)
      | _ => none
  | .unsubscribing packetId =>
      (resume pool (.handler connection)).map fun resumed =>
        (conn.enter session (.responding (.unsuback packetId)), resumed.2)
  | .responding packet =>
      let (outcome, channel) := (pool.broker.channels connection).sendPacket packet
      (afterDispatch outcome).map fun phase =>
        (conn.enter session phase, pool.environment connection channel)
  | .dropping exit => some (conn.enter session (.closing exit), pool)
  | .closing exit =>
      some (conn.enter session (.joining exit),
        pool.environment connection (pool.broker.channels connection).close)
  | .joining exit =>
      if conn.worker = .finished then
        (pool.invoke (.handler connection) (.unregister exit.graceful)).map fun pool =>
          (conn.enter session (.unregistering exit), pool)
      else
        none
  | .unregistering exit =>
      (resume pool (.handler connection)).map fun resumed =>
        (conn.finish exit.outcome, resumed.2)

/-- The loop of `run_publish_chain_worker`. -/
def work (session : Session) : Option (Conn × Pool) :=
  match conn.worker with
  | .idle =>
      match conn.queue.pending with
      | publish :: rest =>
          some ({ conn with
            queue := { conn.queue with pending := rest }
            worker := .chaining conn.queue.taken publish }, pool)
      | [] => if conn.main.dropped then some ({ conn with worker := .finished }, pool) else none
  | .chaining index publish =>
      let conn := { conn with chained := conn.chained ++ [publish] }
      match config.chain publish with
      | some packet =>
          (pool.invoke (.worker connection)
            (.publish ⟨.message connection index, session.client, packet⟩)).map fun pool =>
              ({ conn with worker := .publishing index }, pool)
      | none => some ({ conn with worker := .idle }, pool)
  | .publishing _ =>
      (resume pool (.worker connection)).map fun resumed =>
        ({ conn with worker := .idle }, resumed.2)
  | _ => none

/-- A worker that stops in the middle drops its end of the queue. -/
def crash : Option (Conn × Pool) :=
  match conn.worker with
  | .chaining _ _ =>
      some ({ conn with
        worker := .finished
        queue := { conn.queue with pending := [], receiver := false } }, pool)
  | _ => none

/-- One action of a connection, on its own state and on the broker; one that it is not at has
no successor. -/
def act : Action → Option (Conn × Pool)
  | .unavailable reason =>
      match conn.main with
      | .waiting => some (conn.finish (err (.configuration reason.message)), pool)
      | _ => none
  | .connect read auth =>
      match conn.main with
      | .waiting => connect config pool connection conn read auth
      | _ => none
  | .read outcome =>
      match conn.main with
      | .serving session .selecting => receive pool connection conn session outcome
      | _ => none
  | .shutdown =>
      match conn.main with
      | .serving session .selecting =>
          if (pool.broker.channels connection).isOpen then
            none
          else
            some (conn.enter session (.dropping ⟨false, none⟩), pool)
      | _ => none
  | .proceed =>
      match conn.main with
      | .serving session phase => proceed pool connection conn session phase
      | _ => none
  | .work =>
      match conn.main with
      | .serving session _ => work config pool connection conn session
      | _ => none
  | .crash => crash pool conn

end Act

/-! ## What a step of a connection is -/

/-- Why a handler fails before it has answered. -/
inductive Fails (safety : MqttSafety) (connection : ConnectionId) : Action → MqttError → Prop
  | unavailable {reason : Unavailable} :
      Fails safety connection (.unavailable reason) (.configuration reason.message)
  | unread {read : FirstRead} {auth : AuthResult} {error : MqttError}
      (failed : admission safety connection auth read = .failed error) :
      Fails safety connection (.connect read auth) error

/-- Why the loop is left in a phase, and what is noted for the end. -/
inductive Leaves (channel : MqttChannel) (session : Session) : Phase → Action → Exit → Prop
  | noticed (closed : channel.isOpen = false) :
      Leaves channel session .looping .proceed ⟨false, none⟩
  | woken (closed : channel.isOpen = false) :
      Leaves channel session .selecting .shutdown ⟨false, none⟩
  | elapsed (limited : (serverReadDeadline session.keepAlive).isSome = true) :
      Leaves channel session .selecting (.read .deadlineElapsed) ⟨false, none⟩
  | lost {kind : IoErrorKind} :
      Leaves channel session .selecting (.read (.failed (.io kind))) ⟨false, none⟩
  | failed {error : MqttError} (other : ∀ kind, error ≠ .io kind) :
      Leaves channel session .selecting (.read (.failed error)) ⟨false, some error⟩
  | disconnected :
      Leaves channel session .selecting (.read (.packet .disconnect)) ⟨true, none⟩

theorem Leaves.inLoop {channel : MqttChannel} {session : Session} {phase : Phase}
    {action : Action} {exit : Exit} (leaves : Leaves channel session phase action exit) :
    phase = .looping ∨ phase = .selecting := by
  cases leaves with
  | noticed => exact .inl rfl
  | woken | elapsed | lost | failed | disconnected => exact .inr rfl

/-- Only DISCONNECT is graceful. -/
theorem Leaves.graceful {channel : MqttChannel} {session : Session} {phase : Phase}
    {action : Action} {exit : Exit} (leaves : Leaves channel session phase action exit)
    (graceful : exit.graceful = true) : action = .read (.packet .disconnect) := by
  cases leaves with
  | disconnected => rfl
  | noticed | woken | elapsed | lost | failed => contradiction

/-- The steps of a connection: what each needs and what it changes. -/
inductive Acts (config : Config) (pool : Pool) (connection : ConnectionId) (conn : Conn) :
    Action → Conn → Pool → Prop
  | failed {action : Action} {error : MqttError} (at_ : conn.main = .waiting)
      (fails : Fails config.safety connection action error) :
      Acts config pool connection conn action (conn.finish (err error)) pool
  | refused {read : FirstRead} {auth : AuthResult} {code : ConnackReturnCode}
      (at_ : conn.main = .waiting)
      (refused : admission config.safety connection auth read = .refused code) :
      Acts config pool connection conn (.connect read auth)
        (conn.finish (err (.protocol (.connectionRefused code))))
        (pool.environment connection
          ((pool.broker.channels connection).sendPacket (.connack ⟨false, code⟩)).2)
  | admitted {read : FirstRead} {auth : AuthResult} {session : Session}
      {registration : Registration} {next : Pool} (at_ : conn.main = .waiting)
      (admitted : admission config.safety connection auth read = .admitted session registration)
      (invoked : pool.invoke (.handler connection) (.register registration) = some next) :
      Acts config pool connection conn (.connect read auth) (conn.enter session .registering) next
  | registered {session : Session} {present : Bool} {next : Pool}
      (at_ : conn.main = .serving session .registering)
      (resumed : resume pool (.handler connection) = some (.registered present, next)) :
      Acts config pool connection conn .proceed (conn.enter session (.answering present)) next
  | accepted {session : Session} {present : Bool} {channel : MqttChannel}
      (at_ : conn.main = .serving session (.answering present))
      (sent : (pool.broker.channels connection).sendPacket (.connack ⟨present, .accepted⟩) =
        (ok (), channel)) :
      Acts config pool connection conn .proceed
        { conn with main := .serving session .looping, worker := .idle }
        (pool.environment connection channel)
  | unanswered {session : Session} {present : Bool} {error : MqttError}
      {channel : MqttChannel} {next : Pool}
      (at_ : conn.main = .serving session (.answering present))
      (invoked : pool.invoke (.handler connection) (.unregister false) = some next)
      (unsent : (pool.broker.channels connection).sendPacket (.connack ⟨present, .accepted⟩) =
        (err error, channel)) :
      Acts config pool connection conn .proceed (conn.enter session (.refusing error)) next
  | withdrawn {session : Session} {error : MqttError} {response : Response} {next : Pool}
      (at_ : conn.main = .serving session (.refusing error))
      (resumed : resume pool (.handler connection) = some (response, next)) :
      Acts config pool connection conn .proceed (conn.finish (err error)) next
  | polled {session : Session} (at_ : conn.main = .serving session .looping)
      (isOpen : (pool.broker.channels connection).isOpen = true) :
      Acts config pool connection conn .proceed (conn.enter session .selecting) pool
  | left {action : Action} {session : Session} {phase : Phase} {exit : Exit}
      (at_ : conn.main = .serving session phase)
      (leaves : Leaves (pool.broker.channels connection) session phase action exit) :
      Acts config pool connection conn action (conn.enter session (.dropping exit)) pool
  | dispatched {session : Session} {packet : Packet} {outcome : Outcome MqttError Unit}
      {reader : Reader} {phase : Phase} (at_ : conn.main = .serving session .selecting)
      (dispatched : dispatchLocal ⟨pool.broker.channels connection, conn.queue⟩ packet =
        (.done outcome, reader))
      (after : afterDispatch outcome = some phase) (other : packet ≠ .disconnect) :
      Acts config pool connection conn (.read (.packet packet))
        { conn with main := .serving session phase, queue := reader.queue }
        (pool.environment connection reader.channel)
  | subscribe {session : Session} {packet : Packet} {packetId : PacketId}
      {filters : List TopicFilter} {reader : Reader} {next : Pool}
      (at_ : conn.main = .serving session .selecting)
      (invoked : pool.invoke (.handler connection) (.subscribe filters) = some next)
      (dispatched : dispatchLocal ⟨pool.broker.channels connection, conn.queue⟩ packet =
        (.subscribe packetId filters, reader)) :
      Acts config pool connection conn (.read (.packet packet))
        (conn.enter session (.subscribing packetId)) next
  | subscribed {session : Session} {packetId : PacketId} {codes : List SubackCode} {next : Pool}
      (at_ : conn.main = .serving session (.subscribing packetId))
      (resumed : resume pool (.handler connection) = some (.subscribed codes, next)) :
      Acts config pool connection conn .proceed
        (conn.enter session (.responding (.suback ⟨packetId, codes⟩))) next
  | unsubscribe {session : Session} {packet : Packet} {packetId : PacketId}
      {topics : List String} {reader : Reader} {next : Pool}
      (at_ : conn.main = .serving session .selecting)
      (invoked : pool.invoke (.handler connection) (.unsubscribe topics) = some next)
      (dispatched : dispatchLocal ⟨pool.broker.channels connection, conn.queue⟩ packet =
        (.unsubscribe packetId topics, reader)) :
      Acts config pool connection conn (.read (.packet packet))
        (conn.enter session (.unsubscribing packetId)) next
  | unsubscribed {session : Session} {packetId : PacketId} {response : Response} {next : Pool}
      (at_ : conn.main = .serving session (.unsubscribing packetId))
      (resumed : resume pool (.handler connection) = some (response, next)) :
      Acts config pool connection conn .proceed
        (conn.enter session (.responding (.unsuback packetId))) next
  | responded {session : Session} {packet : Packet} {outcome : Outcome MqttError Unit}
      {channel : MqttChannel} {phase : Phase}
      (at_ : conn.main = .serving session (.responding packet))
      (after : afterDispatch outcome = some phase)
      (sent : (pool.broker.channels connection).sendPacket packet = (outcome, channel)) :
      Acts config pool connection conn .proceed (conn.enter session phase)
        (pool.environment connection channel)
  | dropped {session : Session} {exit : Exit}
      (at_ : conn.main = .serving session (.dropping exit)) :
      Acts config pool connection conn .proceed (conn.enter session (.closing exit)) pool
  | closed {session : Session} {exit : Exit}
      (at_ : conn.main = .serving session (.closing exit)) :
      Acts config pool connection conn .proceed (conn.enter session (.joining exit))
        (pool.environment connection (pool.broker.channels connection).close)
  | joined {session : Session} {exit : Exit} {next : Pool}
      (at_ : conn.main = .serving session (.joining exit)) (finished : conn.worker = .finished)
      (invoked : pool.invoke (.handler connection) (.unregister exit.graceful) = some next) :
      Acts config pool connection conn .proceed (conn.enter session (.unregistering exit)) next
  | unregistered {session : Session} {exit : Exit} {response : Response} {next : Pool}
      (at_ : conn.main = .serving session (.unregistering exit))
      (resumed : resume pool (.handler connection) = some (response, next)) :
      Acts config pool connection conn .proceed (conn.finish exit.outcome) next
  | took {session : Session} {phase : Phase} {publish : PublishPacket}
      {rest : List PublishPacket} (at_ : conn.main = .serving session phase)
      (idle : conn.worker = .idle) (pending : conn.queue.pending = publish :: rest) :
      Acts config pool connection conn .work
        { conn with
          queue := { conn.queue with pending := rest }
          worker := .chaining conn.queue.taken publish } pool
  | drained {session : Session} {phase : Phase} (at_ : conn.main = .serving session phase)
      (idle : conn.worker = .idle) (pending : conn.queue.pending = [])
      (dropped : conn.main.dropped = true) :
      Acts config pool connection conn .work { conn with worker := .finished } pool
  | fanned {session : Session} {phase : Phase} {index : Nat} {publish packet : PublishPacket}
      {next : Pool} (at_ : conn.main = .serving session phase)
      (chaining : conn.worker = .chaining index publish)
      (chained : config.chain publish = some packet)
      (invoked : pool.invoke (.worker connection)
        (.publish ⟨.message connection index, session.client, packet⟩) = some next) :
      Acts config pool connection conn .work
        { conn with chained := conn.chained ++ [publish], worker := .publishing index } next
  | suppressed {session : Session} {phase : Phase} {index : Nat} {publish : PublishPacket}
      (at_ : conn.main = .serving session phase)
      (chaining : conn.worker = .chaining index publish) (chained : config.chain publish = none) :
      Acts config pool connection conn .work
        { conn with chained := conn.chained ++ [publish], worker := .idle } pool
  | published {session : Session} {phase : Phase} {index : Nat} {response : Response}
      {next : Pool} (at_ : conn.main = .serving session phase)
      (publishing : conn.worker = .publishing index)
      (resumed : resume pool (.worker connection) = some (response, next)) :
      Acts config pool connection conn .work { conn with worker := .idle } next
  | crashed {index : Nat} {publish : PublishPacket}
      (chaining : conn.worker = .chaining index publish) :
      Acts config pool connection conn .crash
        { conn with
          worker := .finished
          queue := { conn.queue with pending := [], receiver := false } } pool

section Inversion

variable {config : Config} {pool next : Pool} {connection : ConnectionId} {conn after : Conn}
  {action : Action} {session : Session} {phase : Phase}

theorem acts_of_connect {read : FirstRead} {auth : AuthResult} (at_ : conn.main = .waiting)
    (acted : connect config pool connection conn read auth = some (after, next)) :
    Acts config pool connection conn (.connect read auth) after next := by
  unfold connect at acted
  split at acted
  · cases acted
    exact .failed at_ (.unread ‹_›)
  · cases acted
    exact .refused at_ ‹_›
  · rename_i admitted
    rcases Option.map_eq_some_iff.mp acted with ⟨invoked, happened, same⟩
    cases same
    exact .admitted at_ admitted happened

theorem acts_of_receive {outcome : ReadOutcome} (at_ : conn.main = .serving session .selecting)
    (acted : receive pool connection conn session outcome = some (after, next)) :
    Acts config pool connection conn (.read outcome) after next := by
  unfold receive at acted
  split at acted
  · split at acted
    · cases acted
      exact .left at_ (.elapsed ‹_›)
    · contradiction
  · cases acted
    exact .left at_ .lost
  · rename_i other
    cases acted
    exact .left at_ (.failed other)
  · cases acted
    exact .left at_ .disconnected
  · rename_i other
    split at acted
    · rename_i outcome reader dispatched
      rcases Option.map_eq_some_iff.mp acted with ⟨phase, continued, same⟩
      cases same
      exact .dispatched at_ dispatched continued other
    · rename_i dispatched
      rcases Option.map_eq_some_iff.mp acted with ⟨invoked, happened, same⟩
      cases same
      exact .subscribe at_ happened dispatched
    · rename_i dispatched
      rcases Option.map_eq_some_iff.mp acted with ⟨invoked, happened, same⟩
      cases same
      exact .unsubscribe at_ happened dispatched

theorem acts_of_proceed (at_ : conn.main = .serving session phase)
    (acted : proceed pool connection conn session phase = some (after, next)) :
    Acts config pool connection conn .proceed after next := by
  cases phase with
  | registering =>
      simp only [proceed] at acted
      split at acted
      · cases acted
        exact .registered at_ ‹_›
      · contradiction
  | answering present =>
      simp only [proceed] at acted
      split at acted
      · cases acted
        exact .accepted at_ ‹_›
      · rcases Option.map_eq_some_iff.mp acted with ⟨invoked, happened, same⟩
        cases same
        exact .unanswered at_ happened ‹_›
      · contradiction
  | refusing error =>
      rcases Option.map_eq_some_iff.mp acted with ⟨resumed, happened, same⟩
      cases same
      exact .withdrawn at_ happened
  | looping =>
      simp only [proceed] at acted
      split at acted <;> rename_i isOpen <;> cases acted
      · exact .polled at_ isOpen
      · exact .left at_ (.noticed (Bool.not_eq_true _ ▸ isOpen))
  | selecting => contradiction
  | subscribing packetId =>
      simp only [proceed] at acted
      split at acted
      · cases acted
        exact .subscribed at_ ‹_›
      · contradiction
  | unsubscribing packetId =>
      rcases Option.map_eq_some_iff.mp acted with ⟨resumed, happened, same⟩
      cases same
      exact .unsubscribed at_ happened
  | responding packet =>
      rcases Option.map_eq_some_iff.mp acted with ⟨phase, continued, same⟩
      cases same
      exact .responded at_ continued rfl
  | dropping exit =>
      cases acted
      exact .dropped at_
  | closing exit =>
      cases acted
      exact .closed at_
  | joining exit =>
      simp only [proceed] at acted
      split at acted
      · rcases Option.map_eq_some_iff.mp acted with ⟨invoked, happened, same⟩
        cases same
        exact .joined at_ ‹_› happened
      · contradiction
  | unregistering exit =>
      rcases Option.map_eq_some_iff.mp acted with ⟨resumed, happened, same⟩
      cases same
      exact .unregistered at_ happened

theorem acts_of_work (at_ : conn.main = .serving session phase)
    (acted : work config pool connection conn session = some (after, next)) :
    Acts config pool connection conn .work after next := by
  unfold work at acted
  split at acted
  · rename_i idle
    split at acted
    · cases acted
      exact .took at_ idle ‹_›
    · split at acted
      · cases acted
        exact .drained at_ idle ‹_› ‹_›
      · contradiction
  · rename_i chaining
    simp only at acted
    split at acted
    · rename_i chained
      rcases Option.map_eq_some_iff.mp acted with ⟨invoked, happened, same⟩
      cases same
      exact .fanned at_ chaining chained happened
    · cases acted
      exact .suppressed at_ chaining ‹_›
  · rename_i publishing
    rcases Option.map_eq_some_iff.mp acted with ⟨resumed, happened, same⟩
    cases same
    exact .published at_ publishing happened
  · contradiction

theorem acts_of_act (acted : act config pool connection conn action = some (after, next)) :
    Acts config pool connection conn action after next := by
  unfold act at acted
  split at acted
  · split at acted
    · cases acted
      exact .failed ‹_› .unavailable
    · contradiction
  · split at acted
    · exact acts_of_connect ‹_› acted
    · contradiction
  · split at acted
    · exact acts_of_receive ‹_› acted
    · contradiction
  · split at acted
    · split at acted
      · contradiction
      · rename_i closed
        cases acted
        exact .left ‹_› (.woken (Bool.not_eq_true _ ▸ closed))
    · contradiction
  · split at acted
    · exact acts_of_proceed ‹_› acted
    · contradiction
  · split at acted
    · exact acts_of_work ‹_› acted
    · contradiction
  · unfold crash at acted
    split at acted
    · cases acted
      exact .crashed ‹_›
    · contradiction

end Inversion

end HotaruMqtt.Server
