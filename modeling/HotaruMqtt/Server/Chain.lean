import HotaruMqtt.Server.Order

/-!
# Endpoint chains

`run_server_chain_then_decide_fanout` runs the endpoints that its topic selects, one after
the other, over the message as the one before has left it.  An endpoint that fails or
suppresses the fan-out does not end the loop; it only decides that nothing goes out.

The endpoints are found by the routing table of the framework.  It is asked with the topic
the message came with, whatever the endpoints make of the topic on the way.
-/

namespace HotaruMqtt.Server

open Exec Exec.Outcome Exec.Transition Broker

/-! ## Endpoints -/

/-- What the loop sets and reads of a context. -/
structure MqttContext where
  incoming : Option IncomingPublish
  fanout : Bool
  deriving DecidableEq, Repr

namespace MqttContext

/-- A context before a message is set. -/
def default : MqttContext :=
  ⟨none, true⟩

/-- The message that the endpoint is given. -/
def setIncoming (context : MqttContext) (incoming : IncomingPublish) : MqttContext :=
  { context with incoming := some incoming }

/-- The endpoint lets the message go on. -/
def shouldFanout (context : MqttContext) : Bool :=
  context.fanout

/-- The endpoint keeps the message to itself. -/
def suppressFanout (context : MqttContext) : MqttContext :=
  { context with fanout := false }

end MqttContext

/-- The body of an endpoint. -/
abbrev Endpoint := MqttContext → Except MqttError MqttContext

/-- The endpoints that the routing table has for a topic, in the order of its cursor. -/
abbrev UrlRoot := String → List Endpoint

/-- The variables of the loop. -/
structure Chaining where
  fanout : Bool
  current : PublishPacket
  deriving DecidableEq, Repr

/-- The fields that an endpoint can change on the wire. -/
def rewritten (publish : PublishPacket) (incoming : IncomingPublish) : PublishPacket :=
  { publish with
    topic := incoming.topic
    payload := incoming.payload
    qos := incoming.qos
    retain := incoming.retain }

/-- The context that an endpoint is run with: a new one for each, with the current message. -/
def enteredWith (publish : PublishPacket) : MqttContext :=
  MqttContext.default.setIncoming (incomingFromPacket publish)

/-- One turn of the loop. -/
def visit (chaining : Chaining) (node : Endpoint) : Chaining :=
  match node (enteredWith chaining.current) with
  | .ok out =>
      let chaining := if out.shouldFanout then chaining else { chaining with fanout := false }
      match out.incoming with
      | some incoming => { chaining with current := rewritten chaining.current incoming }
      | none => chaining
  | .error _ => { chaining with fanout := false }

/-- `run_server_chain_then_decide_fanout`: every endpoint of the topic is run, also after one
has failed or suppressed; what they have made of the message is published unless one of them
has. -/
def runServerChainThenDecideFanout (root : UrlRoot) (publish : PublishPacket) :
    Option PublishPacket :=
  let chaining := (root publish.topic).foldl visit ⟨true, publish⟩
  if chaining.fanout then some chaining.current else none

/-! ## What passes -/

/-- Every endpoint returns and lets the message go on, each taking over what the one before
has made of it. -/
inductive Passes : List Endpoint → PublishPacket → PublishPacket → Prop
  | nil (publish : PublishPacket) : Passes [] publish publish
  | cons {node : Endpoint} {nodes : List Endpoint} {publish final : PublishPacket}
      {out : MqttContext} (ran : node (enteredWith publish) = .ok out)
      (lets : out.shouldFanout = true)
      (rest : Passes nodes (out.incoming.elim publish (rewritten publish)) final) :
      Passes (node :: nodes) publish final

variable {node : Endpoint} {nodes : List Endpoint} {publish packet : PublishPacket}
  {chaining : Chaining} {out : MqttContext}

theorem visit_of_lets (ran : node (enteredWith publish) = .ok out)
    (lets : out.shouldFanout = true) :
    visit ⟨true, publish⟩ node = ⟨true, out.incoming.elim publish (rewritten publish)⟩ := by
  unfold visit
  simp only [ran, lets, if_true]
  cases out.incoming <;> rfl

theorem fanout_visit_eq_true_iff :
    (visit chaining node).fanout = true ↔ chaining.fanout = true ∧
      ∃ out, node (enteredWith chaining.current) = .ok out ∧ out.shouldFanout = true := by
  unfold visit
  cases ran : node (enteredWith chaining.current) with
  | error error => simp
  | ok out =>
      cases lets : out.shouldFanout <;> cases given : out.incoming <;> simp [lets, given]

/-- Once something has decided against the fan-out, nothing decides for it again. -/
theorem fanout_of_foldl (passed : (nodes.foldl visit chaining).fanout = true) :
    chaining.fanout = true := by
  induction nodes generalizing chaining with
  | nil => exact passed
  | cons node nodes ih => exact (fanout_visit_eq_true_iff.mp (ih passed)).1

theorem foldl_visit_iff :
    (nodes.foldl visit ⟨true, publish⟩).fanout = true ∧
        (nodes.foldl visit ⟨true, publish⟩).current = packet ↔
      Passes nodes publish packet := by
  induction nodes generalizing publish with
  | nil =>
      constructor
      · rintro ⟨-, rfl⟩
        exact .nil _
      · rintro ⟨⟩
        exact ⟨rfl, rfl⟩
  | cons node nodes ih =>
      rw [List.foldl_cons]
      constructor
      · rintro ⟨passed, same⟩
        obtain ⟨-, out, ran, lets⟩ := fanout_visit_eq_true_iff.mp (fanout_of_foldl passed)
        rw [visit_of_lets ran lets] at passed same
        exact .cons ran lets (ih.mp ⟨passed, same⟩)
      · rintro (_ | ⟨ran, lets, rest⟩)
        rw [visit_of_lets ran lets]
        exact ih.mpr rest

/-- A message goes out just when every endpoint of its topic lets it pass. -/
theorem runServerChain_eq_some_iff {root : UrlRoot} :
    runServerChainThenDecideFanout root publish = some packet ↔
      Passes (root publish.topic) publish packet := by
  rw [← foldl_visit_iff, runServerChainThenDecideFanout, Option.ite_none_right_eq_some,
    Option.some_inj]

/-- Endpoints change neither the DUP flag nor the identifier. -/
theorem Passes.identity (passes : Passes nodes publish packet) :
    packet.dup = publish.dup ∧ packet.packetId = publish.packetId := by
  induction passes with
  | nil => exact ⟨rfl, rfl⟩
  | @cons node nodes publish final out ran lets rest ih =>
      cases given : out.incoming with
      | none =>
          rw [given] at ih
          exact ih
      | some incoming =>
          rw [given] at ih
          exact ih

/-! ## What is delivered -/

/-- In every run, panics of endpoints included, a copy that anybody is sent of a connection's
message has passed every endpoint that the topic of the message selects, and is a copy of
what they made of it. -/
theorem delivered_passed_endpoints (safety : MqttSafety) (root : UrlRoot)
    (channels : ConnectionId → MqttChannel) {events : List Event} {host : Host}
    (run : Run (Host.step ⟨safety, runServerChainThenDecideFanout root⟩) Any (.new channels)
      events host)
    {delivery : Delivery} (listed : delivery ∈ host.pool.broker.deliveries)
    {connection : ConnectionId} {index : Nat}
    (origin : delivery.origin = .message connection index) :
    ∃ publish packet subQos,
      (host.conns connection).queue.handed[index]? = some publish ∧
        Passes (root publish.topic) publish packet ∧
        packet.dup = publish.dup ∧ packet.packetId = publish.packetId ∧
        Copy packet subQos delivery.packet := by
  have delivers : Delivers ⟨safety, runServerChainThenDecideFanout root⟩ connection host :=
    run.invariant (fun _ _ _ delivers _ moved => delivers.step (Host.steps_of_step moved))
      (.new channels)
  obtain ⟨-, packet, subQos, ⟨place, publish, same, handed, chained⟩, copy⟩ :=
    delivers.delivered delivery listed index origin
  cases origin.symm.trans same
  have passes := runServerChain_eq_some_iff.mp chained
  exact ⟨publish, packet, subQos, handed, passes, passes.identity.1, passes.identity.2, copy⟩

/-- One endpoint marks what it gets, and another keeps a topic to itself. -/
def markingRoot : UrlRoot
  | "t" => [fun context => .ok { context with
      incoming := context.incoming.map fun incoming => { incoming with payload := [9] } }]
  | "quiet" => [fun context => .ok context.suppressFanout]
  | _ => []

theorem delivered_passed_endpoints_marked :
    let host := replay (Host.step ⟨.new, runServerChainThenDecideFanout markingRoot⟩)
      (.new fun _ => .new) threeMessages
    host.pool.broker.deliveries.map (fun delivery => (delivery.origin, delivery.packet.payload)) =
        [(.message 1 0, [9]), (.message 1 2, [9])] ∧
      ∀ delivery ∈ host.pool.broker.deliveries, delivery.origin = .message 1 0 →
        ∃ publish packet subQos, (host.conns 1).queue.handed[0]? = some publish ∧
          Passes (markingRoot publish.topic) publish packet ∧
          packet.dup = publish.dup ∧ packet.packetId = publish.packetId ∧
          Copy packet subQos delivery.packet := by
  intro host
  have run : Run (Host.step ⟨.new, runServerChainThenDecideFanout markingRoot⟩) Any
      (.new fun _ => .new) threeMessages host :=
    Follows.run (by decide +kernel)
  exact ⟨by decide +kernel, fun delivery listed origin =>
    delivered_passed_endpoints .new markingRoot (fun _ => .new) run listed origin⟩

end HotaruMqtt.Server
