import HotaruMqtt.Server.Work

/-!
# The Will after the messages

A handler joins its worker before it unregisters, so that a Will it publishes itself
comes after all the messages its reader handed on.  A takeover does not wait for the
worker of the connection it ends: the Will it publishes comes after the messages
only if the worker has none left.
-/

namespace HotaruMqtt.Server

open Exec Exec.Outcome Exec.Transition Broker

/-- The worker has nothing left of what the reader has handed on. -/
def Conn.Drained (conn : Conn) : Prop :=
  conn.queue.pending = [] ∧ conn.worker.index = none

instance (conn : Conn) : Decidable conn.Drained :=
  inferInstanceAs (Decidable (_ ∧ _))

/-- The call sends a copy of the Will of the connection next. -/
def sendsWill (connection : ConnectionId) : Call → Bool
  | .enqueue publication _ _ _ _ _ => publication.origin = .will connection
  | _ => false

/-- A takeover sends no copy of the connection's Will while its worker has messages
left. -/
def WillDrained (connection : ConnectionId) (host : Host) : Event → Prop
  | .advance task _ => ∀ running ∈ host.pool.calls.lookup task,
      sendsWill connection running.call = true → task ≠ .handler connection →
        (host.conns connection).Drained
  | _ => True

instance (connection : ConnectionId) (host : Host) :
    (event : Event) → Decidable (WillDrained connection host event)
  | .advance task _ => inferInstanceAs (Decidable (∀ running ∈ host.pool.calls.lookup task,
      sendsWill connection running.call = true → task ≠ .handler connection →
        (host.conns connection).Drained))
  | .act _ _ => inferInstanceAs (Decidable True)
  | .environment _ _ => inferInstanceAs (Decidable True)

variable {config : Config} {host next final : Host} {event : Event} {connection : ConnectionId}

/-! ## Where the Will is sent -/

theorem Working.drained_of_early {conn : Conn} (working : Working conn)
    (early : conn.main.early = true) : conn.Drained := by
  have absent := working.early early
  have bounded := working.bounded
  rw [working.unused absent, List.length_nil, Nat.le_zero] at bounded
  constructor
  · exact List.eq_nil_of_length_eq_zero bounded
  · rw [absent]
    rfl

/-- A handler that sends its own Will has no worker yet, or has joined it. -/
theorem Busy.drained_of_handler (busy : Busy host) {running : Running}
    (found : host.pool.calls.lookup (.handler connection) = some running)
    (sends : sendsWill connection running.call = true) : (host.conns connection).Drained := by
  have working := busy.working connection
  have agrees := busy.agrees connection
  have asked : asking host.pool (.handler connection) = some running.request := by
    rw [asking, found, Option.map_some]
  rcases busy.consistent.stage found with ⟨registration, joined, -, stage⟩
  cases main : (host.conns connection).main with
  | waiting => exact working.drained_of_early (by rw [main]; rfl)
  | returned outcome =>
      rw [main] at agrees
      rw [agrees.1] at asked
      contradiction
  | serving session phase =>
      rw [main] at agrees
      have asks := agrees.2
      rw [asked] at asks
      cases phase with
      | registering | answering | refusing => exact working.drained_of_early (by rw [main]; rfl)
      | unregistering exit =>
          have finished := working.joined session exit main
          exact ⟨(working.finished finished).1, by rw [finished]; rfl⟩
      | subscribing packetId =>
          rcases asks with ⟨filters, same⟩
          rw [Option.some.inj same] at stage
          generalize running.call = call at sends stage
          cases stage <;> contradiction
      | unsubscribing packetId =>
          rcases asks with ⟨topics, same⟩
          rw [Option.some.inj same] at stage
          generalize running.call = call at sends stage
          cases stage <;> contradiction
      | looping | selecting | responding | dropping | closing | joining => contradiction

/-- The worker of the connection has nothing left when a copy of the Will is sent. -/
theorem Busy.drained_of_sent (busy : Busy host) (met : WillDrained connection host event)
    (steps : Host.Steps config host event next) {delivery : Delivery}
    (sent : next.pool.broker.deliveries = host.pool.broker.deliveries ++ [delivery])
    (own : delivery.origin = .will connection) :
    (host.conns connection).Drained ∧ next.conns = host.conns := by
  have nothing : host.pool.broker.deliveries ≠ host.pool.broker.deliveries ++ [delivery] := by
    simp
  cases steps with
  | act acts =>
      refine absurd (Eq.trans ?_ sent) nothing
      cases acts.touches <;> rfl
  | environment => exact absurd sent nothing
  | advance moved =>
      cases Pool.steps_of_step moved with
      | advance running unblocked stepped =>
          rename_i task choice request call following access
          rcases deliveries_apply host.pool.shared access with ⟨more, deliveries, added⟩
          have only : more = [delivery] :=
            List.append_cancel_left (deliveries.symm.trans sent)
          rcases added delivery (by simp [only]) with ⟨publication, subQos, rfl, origin, -⟩
          have sends : sendsWill connection call = true := by
            cases Call.moves_of_step stepped
            exact decide_eq_true (origin.symm.trans own)
          by_cases self : task = .handler connection
          · subst self
            exact ⟨busy.drained_of_handler running sends, rfl⟩
          · exact ⟨met _ running sends self, rfl⟩

/-! ## What is sent afterwards -/

/-- The worker is past the first messages, as many as `count`. -/
structure Past (count : Nat) (conn : Conn) : Prop where
  taken : count ≤ conn.queue.taken
  index : ∀ index ∈ conn.worker.index, count ≤ index

theorem Conn.Drained.past {conn : Conn} (drained : conn.Drained) :
    Past conn.queue.handed.length conn where
  taken := by simp [WorkQueue.taken, drained.1]
  index index held := by
    rw [drained.2] at held
    contradiction

theorem Past.step {count : Nat} (past : Past count (host.conns connection))
    (steps : Host.Steps config host event next) : Past count (next.conns connection) := by
  rcases steps.conns connection with same | ⟨action, -, acts⟩
  · rw [same]
    exact past
  · refine ⟨past.taken.trans acts.taken_le, fun index held => ?_⟩
    rcases acts.index held with before | rfl
    · exact past.index index before
    · exact past.taken

/-- What is sent from a state on in which the worker is past some messages is not one
of them. -/
theorem Past.sent {count : Nat} {events : List Event} (busy : Busy host)
    (past : Past count (host.conns connection))
    (run : Run (Host.step config) Any host events final) :
    ∃ more, final.pool.broker.deliveries = host.pool.broker.deliveries ++ more ∧
      ∀ delivery ∈ more, ∀ index, delivery.origin = .message connection index →
        count ≤ index := by
  induction run with
  | nil state => exact ⟨[], (List.append_nil _).symm, nofun⟩
  | cons met moved rest ih =>
      have steps := Host.steps_of_step moved
      rcases busy.deliveries_step steps with ⟨first, deliveries, held⟩
      rcases ih (busy.step steps) (past.step steps) with ⟨later, rest, above⟩
      refine ⟨first ++ later, ?_, fun delivery listed index origin => ?_⟩
      · rw [rest, deliveries, List.append_assoc]
      · rcases List.mem_append.mp listed with listed | listed
        · refine past.index index ?_
          rw [(held delivery listed connection index origin).1]
          rfl
        · exact above delivery listed index origin

/-- A copy of a connection's Will is sent in a step that meets the condition.  No
message that the connection's reader had handed on by then is sent afterwards, to
whichever subscriber. -/
theorem will_after_messages (config : Config) (channels : ConnectionId → MqttChannel)
    (events later : List Event) (event : Event) (host next final : Host)
    (connection : ConnectionId) (will : Delivery)
    (run : Run (Host.step config) Any (.new channels) events host)
    (sends : Run (Host.step config) (WillDrained connection) host [event] next)
    (sent : next.pool.broker.deliveries = host.pool.broker.deliveries ++ [will])
    (own : will.origin = .will connection)
    (onwards : Run (Host.step config) Any next later final)
    (copy : Delivery)
    (listed : copy ∈ final.pool.broker.deliveries.drop next.pool.broker.deliveries.length)
    (index : Nat) (origin : copy.origin = .message connection index) :
    (host.conns connection).queue.handed.length ≤ index := by
  have busy : Busy host := .run run (.new channels)
  cases sends with
  | cons met moved rest =>
      cases rest
      have steps := Host.steps_of_step moved
      rcases busy.drained_of_sent met steps sent own with ⟨drained, conns⟩
      have past : Past (host.conns connection).queue.handed.length (next.conns connection) := by
        rw [conns]
        exact drained.past
      rcases past.sent (busy.step steps) onwards with ⟨more, deliveries, above⟩
      rw [deliveries, List.drop_left] at listed
      exact above copy listed index origin

/-- A subscriber of a topic, and a connection with a Will on it. -/
def subscribedAndConnected : List Event :=
  Event.subscribes 3 "s" "t" ++
    [.connects 1 "c" false (some ⟨"t", [], .atMostOnce, false⟩)] ++ Event.moves 1 2 ++
    Event.proceeds 1 3

/-- The connection's reader hands on a message. -/
def readsMessage : Event :=
  .act 1 (.read (.packet (.publish ⟨"t", [], false, .atMostOnce, false, none⟩)))

/-- The client connects again, up to the move that sends the Will. -/
def takeoverUpToWill : List Event :=
  [.connects 2 "c" false none] ++ Event.moves 2 2 ++
    [.advance (.handler 2) (.listed [("s", .atMostOnce)]), .advance (.handler 2) .go]

/-- The takeover finds the worker idle; a message that is handed on after the Will
comes after it. -/
theorem will_after_messages_drained :
    let config : Config := ⟨.new, some⟩
    let host := replay (Host.step config) (.new fun _ => .new) (subscribedAndConnected ++
      [readsMessage] ++ Event.proceeds 1 1 ++ Event.worksOff 1 "s" ++ takeoverUpToWill)
    let next := replay (Host.step config) host [.advance (.handler 2) .go]
    let final := replay (Host.step config) next (readsMessage :: Event.worksOff 1 "s")
    (final.pool.broker.deliveries.map Delivery.origin =
        [.message 1 0, .will 1, .message 1 1]) ∧
      ∀ copy ∈ final.pool.broker.deliveries.drop next.pool.broker.deliveries.length,
        ∀ index, copy.origin = .message 1 index →
          (host.conns 1).queue.handed.length ≤ index :=
  ⟨by decide +kernel, fun copy listed index origin =>
    will_after_messages ⟨.new, some⟩ (fun _ => .new) _ _ _ _ _ _ 1
      ⟨.will 1, 3, ⟨"t", [], false, .atMostOnce, false, none⟩⟩
      (Follows.run (by decide +kernel)) (Follows.run (by decide +kernel)) (by decide +kernel) rfl
      (Follows.run (by decide +kernel)) copy listed index origin⟩

/-- The takeover sends the Will while a message waits in the queue, and the message is
sent to the same subscriber after it. -/
theorem will_overtakes_message :
    let config : Config := ⟨.new, some⟩
    ∃ host next final,
      Run (Host.step config) Any (.new fun _ => .new)
        (subscribedAndConnected ++ [readsMessage] ++ takeoverUpToWill) host ∧
      Run (Host.step config) Any host [.advance (.handler 2) .go] next ∧
      Run (Host.step config) Any next (Event.worksOff 1 "s") final ∧
      (host.conns 1).queue.handed.length = 1 ∧
      next.pool.broker.deliveries = host.pool.broker.deliveries ++
        [⟨.will 1, 3, ⟨"t", [], false, .atMostOnce, false, none⟩⟩] ∧
      final.pool.broker.deliveries = next.pool.broker.deliveries ++
        [⟨.message 1 0, 3, ⟨"t", [], false, .atMostOnce, false, none⟩⟩] :=
  ⟨_, _, _, Follows.run (by decide +kernel), Follows.run (by decide +kernel),
    Follows.run (by decide +kernel), by decide +kernel, by decide +kernel, by decide +kernel⟩

end HotaruMqtt.Server
