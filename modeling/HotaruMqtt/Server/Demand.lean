import HotaruMqtt.Broker.Carried
import HotaruMqtt.Server.Host

/-!
# From what is read to what is sent

A message goes from a reader, perhaps through the stash of its session, over the
work queue and the chain to a call of the broker, and from there to the channels
of the subscribers.  A Will goes from the CONNECT over the session entry to the
call that publishes it.  So whatever the host sends can be traced to what its
connections have read: if all of that meets a demand, and the demand survives
each stage, then all that is sent meets it.

The demand is a parameter.  It is one on messages on their way to be published,
and one on the packets that are handed to writers.
-/

namespace HotaruMqtt.Server

open Exec Exec.Outcome Exec.Transition Broker

/-- What is asked of the messages on their way to be published, and of the packets handed to
writers. -/
structure Demand where
  message : PublishPacket → Prop
  packet : Packet → Prop

namespace Demand

variable (demand : Demand)

/-- Replies and copies of messages meet the demand, and the chain keeps it. -/
structure Sound (config : Config) : Prop where
  replies : ∀ packet, Reply packet → demand.packet packet
  copies : ∀ packet subQos copy, demand.message packet → Copy packet subQos copy →
    demand.packet (.publish copy)
  chain : ∀ publish packet, demand.message publish → config.chain publish = some packet →
    demand.message packet

/-- What is asked of a packet that is read, so that what it leads to meets the
demand. -/
def Admits : Packet → Prop
  | .publish publish =>
      demand.message publish ∧ ∀ id, demand.message (released id (incomingFromPacket publish))
  | .connect connect => ∀ will ∈ connect.will, demand.message (willPacket (willOf will))
  | .subscribe subscribe => ∀ codes : List SubackCode,
      codes.length = subscribe.subscriptions.length →
        demand.packet (.suback ⟨subscribe.packetId, codes⟩)
  | _ => True

/-- What an action reads is admitted. -/
def Allows : Action → Prop
  | .connect (.packet packet) _ => demand.Admits packet
  | .read (.packet packet) => demand.Admits packet
  | _ => True

/-- Others use a channel without sending on it or stashing anything. -/
structure Quiet (channel after : MqttChannel) : Prop where
  sent : after.sent = channel.sent
  stash : ∀ id stored, after.session.qos2Recv.lookup id = some stored →
    channel.session.qos2Recv.lookup id = some stored

/-- Everything that is read is admitted, and nobody else sends on a channel. -/
def Reads (host : Host) : Event → Prop
  | .act _ action => demand.Allows action
  | .environment connection channel => Quiet (host.pool.broker.channels connection) channel
  | .advance _ _ => True

/-! ## Channels -/

/-- What a channel has sent, and what it keeps for a PUBREL, meets the demand. -/
structure ChannelMeets (channel : MqttChannel) : Prop where
  sent : ∀ packet ∈ channel.sent, demand.packet packet
  stash : ∀ id stored, channel.session.qos2Recv.lookup id = some stored →
    demand.message (released id stored)

variable {demand} {config : Config} {channel after : MqttChannel} {packet : Packet}

namespace ChannelMeets

theorem new : demand.ChannelMeets .new :=
  ⟨by simp [MqttChannel.new], by simp [MqttChannel.new, MqttSession.new]⟩

theorem handled (meets : demand.ChannelMeets channel) (sound : demand.Sound config)
    (admits : demand.Admits packet) (handled : Handled packet channel after) :
    demand.ChannelMeets after := by
  obtain ⟨replies, sent, allowed⟩ := handled.replies
  constructor
  · intro other listed
    rw [sent] at listed
    rcases List.mem_append.mp listed with before | reply
    · exact meets.sent other before
    · exact sound.replies other (allowed other reply)
  · intro id stored found
    rcases handled.stash id stored found with before | ⟨publish, rfl, rfl⟩
    · exact meets.stash id stored before
    · exact admits.2 id

theorem sendPacket (meets : demand.ChannelMeets channel) (allowed : demand.packet packet) :
    demand.ChannelMeets (channel.sendPacket packet).2 := by
  unfold MqttChannel.sendPacket
  split
  · refine ⟨fun other listed => ?_, meets.stash⟩
    rcases List.mem_append.mp listed with before | last
    · exact meets.sent other before
    · rw [List.mem_singleton.mp last]
      exact allowed
  · exact meets

theorem close (meets : demand.ChannelMeets channel) : demand.ChannelMeets channel.close := by
  unfold MqttChannel.close
  split
  · exact ⟨meets.sent, by simp [MqttSession.abandon]⟩
  · exact meets

theorem quiet (meets : demand.ChannelMeets channel) (quiet : Quiet channel after) :
    demand.ChannelMeets after :=
  ⟨quiet.sent ▸ meets.sent, fun id stored found => meets.stash id stored (quiet.stash _ _ found)⟩

theorem withCopy (meets : demand.ChannelMeets channel) (sound : demand.Sound config)
    {publish : PublishPacket} {subQos : QoS} (message : demand.message publish) :
    demand.ChannelMeets (withCopy channel publish subQos) := by
  obtain ⟨copy, isCopy, sent, stash⟩ := withCopy_spec channel publish subQos
  constructor
  · intro packet listed
    rw [sent] at listed
    rcases List.mem_append.mp listed with before | last
    · exact meets.sent packet before
    · split at last
      · rw [List.mem_singleton.mp last]
        exact sound.copies publish subQos copy message isCopy
      · contradiction
  · rw [stash]
    exact meets.stash

end ChannelMeets

/-! ## Connections -/

/-- What the handler is about to answer meets the demand. -/
def MainMeets (demand : Demand) (pool : Pool) (connection : ConnectionId) : Main → Prop
  | .serving _ (.responding packet) => demand.packet packet
  | .serving _ (.subscribing packetId) => ∃ filters,
      asking pool (.handler connection) = some (.subscribe filters) ∧
        ∀ codes : List SubackCode, codes.length = filters.length →
          demand.packet (.suback ⟨packetId, codes⟩)
  | _ => True

/-- What a connection has queued, in its chain and to answer with meets the demand. -/
structure ConnMeets (demand : Demand) (pool : Pool) (connection : ConnectionId) (conn : Conn) :
    Prop where
  pending : ∀ publish ∈ conn.queue.pending, demand.message publish
  chaining : ∀ index publish, conn.worker = .chaining index publish → demand.message publish
  main : demand.MainMeets pool connection conn.main

/-- What a step of a connection does to the pool, with all that it brings in
meeting the demand. -/
inductive Moves (demand : Demand) (pool : Pool) (connection : ConnectionId) : Pool → Prop
  | nothing : Moves demand pool connection pool
  | channel {channel : MqttChannel} (meets : demand.ChannelMeets channel) :
      Moves demand pool connection (pool.environment connection channel)
  | invoke {task : Task} {request : Request} {next : Pool}
      (own : taskConnection task = connection) (invoked : pool.invoke task request = some next)
      (carries : request.Carries demand.message) : Moves demand pool connection next
  | resume {task : Task} {response : Response} {next : Pool}
      (own : taskConnection task = connection)
      (resumed : resume pool task = some (response, next)) : Moves demand pool connection next

variable {pool next : Pool} {connection : ConnectionId} {conn afterwards : Conn}
  {session : Session}

theorem MainMeets.congr {main : Main} (meets : demand.MainMeets pool connection main)
    (asks : asking next (.handler connection) = asking pool (.handler connection)) :
    demand.MainMeets next connection main := by
  cases main with
  | serving session phase =>
      cases phase with
      | subscribing packetId =>
          obtain ⟨filters, asked, allowed⟩ := meets
          exact ⟨filters, asks.trans asked, allowed⟩
      | _ => exact meets
  | _ => exact meets

/-- The handler goes on and leaves queue and worker alone. -/
theorem ConnMeets.enter (meets : demand.ConnMeets pool connection conn) {main : Main}
    (entered : demand.MainMeets next connection main) :
    demand.ConnMeets next connection { conn with main } :=
  ⟨meets.pending, meets.chaining, entered⟩

/-- A registration carries the Will of the CONNECT that was read. -/
theorem carries_of_admitted {read : FirstRead} {auth : AuthResult} {session : Session}
    {registration : Registration} (admits : demand.Allows (.connect read auth))
    (admitted : admission config.safety connection auth read = .admitted session registration) :
    (Request.register registration).Carries demand.message := by
  obtain ⟨connect, rfl, rfl, _⟩ := eq_of_admitted admitted
  intro last found
  obtain ⟨packet, given, rfl⟩ := Option.map_eq_some_iff.mp found
  exact admits packet given

theorem mainMeets_afterDispatch {outcome : Outcome MqttError Unit} {phase : Phase}
    (continued : afterDispatch outcome = some phase) :
    demand.MainMeets pool connection (.serving session phase) := by
  cases outcome with
  | ok value => cases continued; trivial
  | err error => cases continued; trivial
  | panic cause => contradiction

/-- What is handed to the worker for a packet that was read. -/
theorem pending_of_dispatched {outcome : Outcome MqttError Unit} {reader : Reader}
    (channel : demand.ChannelMeets (pool.broker.channels connection))
    (meets : demand.ConnMeets pool connection conn) (admits : demand.Admits packet)
    (dispatched : dispatchLocal ⟨pool.broker.channels connection, conn.queue⟩ packet =
      (.done outcome, reader)) {publish : PublishPacket} (listed : publish ∈ reader.queue.pending) :
    demand.message publish := by
  have source : publish ∈
      (dispatchLocal ⟨pool.broker.channels connection, conn.queue⟩ packet).2.queue.pending := by
    rw [dispatched]
    exact listed
  rcases pending_dispatchLocal source with before | rfl | ⟨id, stored, stashed, rfl⟩
  · exact meets.pending publish before
  · exact admits.1
  · exact channel.stash id stored stashed

/-- The codes of a SUBACK are as many as the filters that were asked for. -/
theorem length_of_resume {filters : List TopicFilter} {codes : List SubackCode}
    (answers : pool.AnswersEach)
    (asked : asking pool (.handler connection) = some (.subscribe filters))
    (resumed : resume pool (.handler connection) = some (.subscribed codes, next)) :
    codes.length = filters.length := by
  obtain ⟨request, running, -⟩ := resume_eq_some resumed
  rw [asking, running] at asked
  cases Option.some.inj asked
  exact Option.some.inj (answers running)

/-- A call of the worker is none of the handler. -/
theorem asking_invoke_worker {request : Request}
    (invoked : pool.invoke (.worker connection) request = some next) :
    asking next (.handler connection) = asking pool (.handler connection) := by
  obtain ⟨call, _, _, rfl⟩ := invoke_eq_some invoked
  rw [asking_begun, if_neg (by simp)]

theorem asking_resume_worker {response : Response}
    (resumed : resume pool (.worker connection) = some (response, next)) :
    asking next (.handler connection) = asking pool (.handler connection) := by
  obtain ⟨request, _, rfl⟩ := resume_eq_some resumed
  rw [asking_concluded, if_neg (by simp)]

/-- One step of a connection. -/
theorem meets_of_acts (sound : demand.Sound config) (answers : pool.AnswersEach)
    (channel : demand.ChannelMeets (pool.broker.channels connection))
    (meets : demand.ConnMeets pool connection conn) {action : Action}
    (allowed : demand.Allows action)
    (acts : Acts config pool connection conn action afterwards next) :
    demand.Moves pool connection next ∧ demand.ConnMeets next connection afterwards := by
  have main := meets.main
  cases acts with
  | failed | polled | left | dropped => exact ⟨.nothing, meets.enter trivial⟩
  | refused =>
      exact ⟨.channel (channel.sendPacket (sound.replies _ (.connack _))), meets.enter trivial⟩
  | admitted _ admitted invoked =>
      exact ⟨.invoke rfl invoked (carries_of_admitted allowed admitted), meets.enter trivial⟩
  | registered _ resumed | withdrawn _ resumed | unregistered _ resumed =>
      exact ⟨.resume rfl resumed, meets.enter trivial⟩
  | @accepted _ present _ _ sent =>
      have connack := channel.sendPacket (sound.replies _ (.connack ⟨present, .accepted⟩))
      rw [sent] at connack
      exact ⟨.channel connack, meets.pending, by simp, trivial⟩
  | unanswered _ invoked | unsubscribe _ invoked | joined _ _ invoked =>
      exact ⟨.invoke rfl invoked trivial, meets.enter trivial⟩
  | @dispatched _ packet _ _ _ _ dispatched continued =>
      have handled := handled_dispatchLocal ⟨pool.broker.channels connection, conn.queue⟩ packet
      rw [dispatched] at handled
      exact ⟨.channel (channel.handled sound allowed handled),
        fun _ => pending_of_dispatched channel meets allowed dispatched, meets.chaining,
        mainMeets_afterDispatch continued⟩
  | @subscribe _ _ _ filters _ _ _ invoked dispatched =>
      obtain ⟨subscribe, rfl, rfl, sameLength⟩ := dispatchLocal_subscribe dispatched
      refine ⟨.invoke rfl invoked trivial, meets.enter ⟨filters, ?_, ?_⟩⟩
      · obtain ⟨call, _, _, rfl⟩ := invoke_eq_some invoked
        rw [asking_begun, if_pos rfl]
      · intro codes count
        exact allowed codes (count.trans sameLength)
  | @subscribed _ _ codes _ at_ resumed =>
      rw [at_] at main
      obtain ⟨filters, asked, fits⟩ := main
      have count := length_of_resume answers asked resumed
      exact ⟨.resume rfl resumed, meets.enter (fits codes count)⟩
  | @unsubscribed _ packetId _ _ _ resumed =>
      exact ⟨.resume rfl resumed, meets.enter (sound.replies _ (.unsuback packetId))⟩
  | responded at_ continued sent =>
      rw [at_] at main
      have response := channel.sendPacket main
      rw [sent] at response
      exact ⟨.channel response, meets.enter (mainMeets_afterDispatch continued)⟩
  | closed => exact ⟨.channel channel.close, meets.enter trivial⟩
  | took _ _ pending =>
      have listed := meets.pending
      rw [pending] at listed
      refine ⟨.nothing, fun other later => listed other (List.mem_cons_of_mem _ later), ?_, main⟩
      rintro _ _ ⟨⟩
      exact listed _ List.mem_cons_self
  | drained | suppressed => exact ⟨.nothing, meets.pending, by simp, main⟩
  | fanned _ chaining chained invoked =>
      have message := meets.chaining _ _ chaining
      exact ⟨.invoke rfl invoked (sound.chain _ _ message chained), meets.pending, by simp,
        main.congr (asking_invoke_worker invoked)⟩
  | published _ _ resumed =>
      exact ⟨.resume rfl resumed, meets.pending, by simp,
        main.congr (asking_resume_worker resumed)⟩
  | crashed => exact ⟨.nothing, by simp, by simp, main⟩

/-! ## The host -/

/-- All that is under way and all that was sent meets the demand. -/
structure Meets (demand : Demand) (host : Host) : Prop where
  carries : host.pool.Carries demand.message
  answers : host.pool.AnswersEach
  channels : ∀ connection, demand.ChannelMeets (host.pool.broker.channels connection)
  conns : ∀ connection, demand.ConnMeets host.pool connection (host.conns connection)

theorem Meets.new : demand.Meets (.new fun _ => .new) where
  carries := .new _
  answers _ _ _ found := by cases found
  channels _ := .new
  conns _ := ⟨by simp [Host.new, Conn.new, WorkQueue.new], by simp [Host.new, Conn.new], trivial⟩

/-- Where the step shows in the pool. -/
theorem Moves.shown (moves : demand.Moves pool connection next) :
    next = pool ∨ ∃ event, Pool.Steps pool event next ∧
      (∀ task request, event = .invoke task request → request.Carries demand.message) := by
  cases moves with
  | nothing => exact .inl rfl
  | channel _ => exact .inr ⟨_, .environment, by simp⟩
  | invoke own invoked carries =>
      obtain ⟨call, idle, opened, rfl⟩ := invoke_eq_some invoked
      refine .inr ⟨_, .invoke idle opened, fun task request same => ?_⟩
      cases same
      exact carries
  | resume own resumed =>
      obtain ⟨request, running, rfl⟩ := resume_eq_some resumed
      exact .inr ⟨_, .conclude running, by simp⟩

/-- The channels of the others stay, and its own meets the demand. -/
theorem Moves.channels (moves : demand.Moves pool connection next)
    (channels : ∀ other, demand.ChannelMeets (pool.broker.channels other)) (other : ConnectionId) :
    demand.ChannelMeets (next.broker.channels other) := by
  cases moves with
  | nothing => exact channels other
  | channel meets =>
      simp only [Pool.environment, Pool.broker, withChannel, Function.update_apply]
      split
      · exact meets
      · exact channels other
  | invoke own invoked carries =>
      obtain ⟨call, _, _, rfl⟩ := invoke_eq_some invoked
      exact channels other
  | resume own resumed =>
      obtain ⟨request, _, rfl⟩ := resume_eq_some resumed
      exact channels other

/-- A step of one connection is no call of another's handler. -/
theorem Moves.asking (moves : demand.Moves pool connection next) {other : ConnectionId}
    (differs : other ≠ connection) :
    asking next (.handler other) = asking pool (.handler other) := by
  have foreign : ∀ {task}, taskConnection task = connection → .handler other ≠ task := by
    rintro task own rfl
    exact differs own
  cases moves with
  | nothing => rfl
  | channel _ => rfl
  | invoke own invoked carries =>
      obtain ⟨call, _, _, rfl⟩ := invoke_eq_some invoked
      rw [asking_begun, if_neg (foreign own)]
  | resume own resumed =>
      obtain ⟨request, _, rfl⟩ := resume_eq_some resumed
      rw [asking_concluded, if_neg (foreign own)]

theorem Meets.act {host : Host} {action : Action} (meets : demand.Meets host)
    (sound : demand.Sound config) (allowed : demand.Allows action)
    (acts : Acts config host.pool connection (host.conns connection) action afterwards next) :
    demand.Meets (host.acted connection afterwards next) := by
  obtain ⟨moves, own⟩ := meets_of_acts sound meets.answers (meets.channels connection)
    (meets.conns connection) allowed acts
  have poolMeets : next.Carries demand.message ∧ next.AnswersEach := by
    rcases moves.shown with rfl | ⟨event, steps, asked⟩
    · exact ⟨meets.carries, meets.answers⟩
    · exact ⟨meets.carries.step steps asked, meets.answers.step steps⟩
  refine ⟨poolMeets.1, poolMeets.2, moves.channels meets.channels, fun other => ?_⟩
  by_cases same : other = connection
  · subst same
    rw [Host.conns_acted_self]
    exact own
  · rw [Host.conns_acted_of_ne _ _ _ same]
    have before := meets.conns other
    exact ⟨before.pending, before.chaining, before.main.congr (moves.asking same)⟩

/-- A move of a call sends copies of what it carries. -/
theorem Meets.advance {host : Host} {task : Task} {choice : Choice} (meets : demand.Meets host)
    (sound : demand.Sound config)
    (moved : host.pool.step (.advance task choice) = some next) :
    demand.Meets { host with pool := next } := by
  have steps := Pool.steps_of_step moved
  refine ⟨meets.carries.step steps (by simp), meets.answers.step steps, fun other => ?_,
    fun other => ?_⟩
  · cases steps with
    | advance running unblocked stepped =>
        rename_i request call after access
        rcases channel_apply host.pool.shared access other with
          same | ⟨_, same⟩ | ⟨publication, subQos, rfl, same⟩
        · exact same ▸ meets.channels other
        · exact same ▸ (meets.channels other).close
        · have message := message_of_deliver (meets.carries.calls running)
            (Call.moves_of_step stepped)
          exact same ▸ (meets.channels other).withCopy sound message
  · have before := meets.conns other
    exact ⟨before.pending, before.chaining,
      before.main.congr (congrFun (asking_advance moved) _)⟩

theorem preserves_meets (sound : demand.Sound config) :
    Preserves (Host.step config) demand.Reads demand.Meets := by
  intro host event next meets reads moved
  cases event with
  | act connection action =>
      obtain ⟨⟨conn, pool⟩, acted, rfl⟩ := Option.map_eq_some_iff.mp moved
      exact meets.act sound reads (acts_of_act acted)
  | advance task choice =>
      obtain ⟨pool, advanced, rfl⟩ := Option.map_eq_some_iff.mp moved
      exact meets.advance sound advanced
  | environment connection channel =>
      cases moved
      have quiet := (meets.channels connection).quiet reads
      exact ⟨meets.carries.step .environment (by simp), meets.answers.step .environment,
        Moves.channels (.channel quiet) meets.channels, fun other =>
          ⟨(meets.conns other).pending, (meets.conns other).chaining, (meets.conns other).main⟩⟩

/-- Whatever is sent meets the demand, in every run in which all that is read is
admitted. -/
theorem sent_meets {events : List Event} {host : Host} (sound : demand.Sound config)
    (run : Run (Host.step config) demand.Reads (.new fun _ => .new) events host)
    (connection : ConnectionId) (packet : Packet)
    (sent : packet ∈ (host.pool.broker.channels connection).sent) : demand.packet packet := by
  have meets := run.invariant (preserves_meets sound) .new
  exact (meets.channels connection).sent packet sent

end Demand

end HotaruMqtt.Server
