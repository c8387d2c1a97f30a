import HotaruMqtt.Broker.Wills
import HotaruMqtt.Server.Leak

/-!
# DISCONNECT and the Will

A handler that has read DISCONNECT drops its Will only when it unregisters, and it
waits for its worker before that.  Until then the Will stays in the entry, where a
takeover finds it, and a takeover that has found it before goes on to publish it.
As long as neither happens, nothing is published of the Will after the DISCONNECT.
-/

namespace HotaruMqtt.Broker

open Exec Exec.Transition

/-- The copies sent of the Will of a connection. -/
def willCopies (broker : Broker) (connection : ConnectionId) : List Delivery :=
  broker.deliveries.filter fun delivery => delivery.origin = .will connection

/-! ## The Will in hand -/

/-- What is left to do includes the Will of the connection. -/
def Next.holdsWill (connection : ConnectionId) : Next → Bool
  | .lastWill ended (some _) false => ended = connection
  | _ => false

/-- The call has taken the Will of the connection from its entry, and is publishing
it or will do so. -/
def Call.holdsWill (connection : ConnectionId) : Call → Bool
  | .close _ previous => previous.connection = connection ∧ previous.will.isSome
  | .wipe _ next | .sweep _ _ _ next => next.holdsWill connection
  | .snapshot publication next | .fanout publication _ next
  | .enqueue publication _ _ _ _ next =>
      publication.origin = .will connection ∨ next.holdsWill connection
  | _ => false

/-- The entry that a call removes by a takeover. -/
def Call.takesOver (broker : Broker) : Call → Option SubscriberEntry
  | .remove registration => broker.sessions.lookup registration.client
  | _ => none

section HoldsWill

variable {broker : Broker} {call after : Call} {access : Access} {connection : ConnectionId}

@[simp]
theorem Next.holdsWill_resume (next : Next) :
    next.resume.holdsWill connection = next.holdsWill connection := by
  unfold Next.resume
  split
  · split <;> rfl
  · rfl
  · simp [Call.holdsWill, Next.holdsWill]
  · rename_i ended will graceful spent
    cases will with
    | none => rfl
    | some will =>
        cases graceful with
        | false => exact absurd rfl (spent will rfl)
        | true => rfl
  · rfl

theorem Call.holdsWill_publishWill {ended : ConnectionId} {next : Next}
    {will : Option WillMessage}
    (holds : (Call.publishWill ended next will).holdsWill connection = true) :
    (ended = connection ∧ will.isSome = true) ∨ next.holdsWill connection = true := by
  cases will with
  | none => exact .inr ((Next.holdsWill_resume next).symm.trans holds)
  | some will => simpa [Call.publishWill, Call.holdsWill] using holds

/-- How a call gets hold of a Will. -/
theorem Call.Moves.holdsWill (moves : Call.Moves broker call access after)
    (holds : after.holdsWill connection = true) :
    call.holdsWill connection = true ∨
      (∃ previous, call.takesOver broker = some previous ∧ previous.connection = connection ∧
        previous.will.isSome = true) ∨
      ∃ client, call = .removeIf client connection false := by
  cases moves with
  | removeFound found =>
      simp only [Call.holdsWill, decide_eq_true_eq] at holds
      exact .inr (.inl ⟨_, found, holds⟩)
  | close =>
      rcases Call.holdsWill_publishWill holds with own | other
      · exact .inl (decide_eq_true own)
      · contradiction
  | removeOwn own =>
      rename_i client ended graceful entry
      cases will : entry.will with
      | none => simp [Call.holdsWill, Next.holdsWill, will] at holds
      | some _ =>
          cases graceful with
          | true => simp [Call.holdsWill, Next.holdsWill, will] at holds
          | false =>
              simp only [Call.holdsWill, Next.holdsWill, will, decide_eq_true_eq] at holds
              subst holds
              exact .inr (.inr ⟨client, rfl⟩)
  | removeVacant => simp [Next.holdsWill] at holds
  | swept => exact .inl ((Next.holdsWill_resume _).symm.trans holds)
  | fanned =>
      rw [Next.holdsWill_resume] at holds
      exact .inl (by simp [Call.holdsWill, holds])
  | wipe | visit | snapshot | skip | found | enqueue => exact .inl holds
  | _ => contradiction

/-- A Will is published by a call that holds it. -/
theorem Call.Moves.announced {publication : Publication}
    (moves : Call.Moves broker call access after) (listed : publication ∈ access.announced)
    (own : publication.origin = .will connection) : call.holdsWill connection = true := by
  cases moves with
  | snapshot =>
      cases List.mem_singleton.mp listed
      simp [Call.holdsWill, own]
  | _ => cases listed

theorem Call.Moves.delivering {publication : Publication} {target : ConnectionId} {subQos : QoS}
    (moves : Call.Moves broker call (.deliver publication target subQos) after)
    (own : publication.origin = .will connection) : call.holdsWill connection = true := by
  cases moves
  simp [Call.holdsWill, own]

end HoldsWill

namespace Pool

variable {pool next : Pool} {event : Event} {task : Task} {request : Request}
  {call after : Call} {access : Access} {connection : ConnectionId}

/-- No call has the Will of the connection in hand. -/
def Unheld (pool : Pool) (connection : ConnectionId) : Prop :=
  ∀ ⦃task running⦄, pool.calls.lookup task = some running →
    running.call.holdsWill connection = false

/-- Whatever is published in a move, it is not a Will that nobody holds. -/
theorem Unheld.willsOf_moved (unheld : pool.Unheld connection)
    (running : pool.calls.lookup task = some ⟨request, call⟩)
    (moves : Call.Moves pool.broker call access after) :
    (pool.moved task request access after).broker.willsOf connection =
      pool.broker.willsOf connection := by
  have others : access.announced.filter (fun publication => publication.origin = .will connection)
      = [] := by
    rw [List.filter_eq_nil_iff]
    intro publication listed own
    have holds := moves.announced listed (of_decide_eq_true own)
    rw [unheld running] at holds
    contradiction
  simp only [willsOf, Pool.broker, moved, publications_apply, List.filter_append, others,
    List.append_nil]

theorem Unheld.willCopies_moved (unheld : pool.Unheld connection)
    (running : pool.calls.lookup task = some ⟨request, call⟩)
    (moves : Call.Moves pool.broker call access after) :
    (pool.moved task request access after).broker.willCopies connection =
      pool.broker.willCopies connection := by
  rcases deliveries_apply pool.shared access with ⟨more, deliveries, added⟩
  have others : more.filter (fun delivery => delivery.origin = .will connection) = [] := by
    rw [List.filter_eq_nil_iff]
    intro delivery listed own
    rcases added delivery listed with ⟨publication, subQos, rfl, origin, -⟩
    have holds := moves.delivering (origin.symm.trans (of_decide_eq_true own))
    rw [unheld running] at holds
    contradiction
  simp only [willCopies, Pool.broker, moved, deliveries, List.filter_append, others,
    List.append_nil]

/-- A call begins without a Will in hand, unless it is asked to publish it. -/
theorem holdsWill_opening (opened : pool.opening task request = some call)
    (foreign : ∀ publication, request = .publish publication →
      publication.origin ≠ .will connection) : call.holdsWill connection = false := by
  cases opens_of_opening opened with
  | snapshot =>
      have asked := foreign _ (opening_snapshot opened).1
      simp [Call.holdsWill, Next.holdsWill, asked]
  | remove | removeIf | findSubscribe | findUnsubscribe => rfl

end Pool

end HotaruMqtt.Broker

namespace HotaruMqtt.Server

open Exec Exec.Outcome Exec.Transition Broker

/-- How a handler that winds down left its loop. -/
def Phase.exit : Phase → Option Exit
  | .dropping exit | .closing exit | .joining exit | .unregistering exit => some exit
  | _ => none

/-- The handler has read DISCONNECT and has not returned yet. -/
def Main.disconnected : Main → Bool
  | .serving _ phase => phase.exit.any Exit.graceful
  | _ => false

/-- No takeover removes the entry of the connection with its Will after the
connection has read DISCONNECT, and none has its Will in hand when it does. -/
def WillGuarded (connection : ConnectionId) (host : Host) : Event → Prop
  | .advance task _ => ∀ running ∈ host.pool.calls.lookup task,
      ∀ previous ∈ running.call.takesOver host.pool.broker,
        previous.connection = connection → previous.will.isSome = true →
          (host.conns connection).main.disconnected = false
  | .act acting action => acting = connection → action = .read (.packet .disconnect) →
      ∀ running ∈ host.pool.calls.entries, running.2.call.holdsWill connection = false
  | .environment _ _ => True

instance (connection : ConnectionId) (host : Host) :
    (event : Event) → Decidable (WillGuarded connection host event)
  | .advance task _ => inferInstanceAs (Decidable (∀ running ∈ host.pool.calls.lookup task,
      ∀ previous ∈ running.call.takesOver host.pool.broker,
        previous.connection = connection → previous.will.isSome = true →
          (host.conns connection).main.disconnected = false))
  | .act acting action => inferInstanceAs (Decidable (acting = connection →
      action = .read (.packet .disconnect) →
        ∀ running ∈ host.pool.calls.entries, running.2.call.holdsWill connection = false))
  | .environment _ _ => inferInstanceAs (Decidable True)

variable {config : Config} {host next : Host} {event : Event} {connection : ConnectionId}
  {conn after : Conn} {action : Action} {pool nextPool : Pool}

/-- A handler that has read DISCONNECT winds down and returns. -/
theorem Acts.disconnected (acts : Acts config pool connection conn action after nextPool)
    (disconnected : conn.main.disconnected = true) :
    after.main.disconnected = true ∨ ∃ outcome, after.main = .returned outcome := by
  cases acts with
  | dropped at_ | closed at_ | joined at_ =>
      rw [at_] at disconnected
      exact .inl disconnected
  | unregistered => exact .inr ⟨_, rfl⟩
  | took | drained | fanned | suppressed | published | crashed => exact .inl disconnected
  | left at_ leaves =>
      rw [at_] at disconnected
      rcases leaves.inLoop with rfl | rfl <;> contradiction
  | failed at_ | refused at_ | admitted at_ | registered at_ | accepted at_ | unanswered at_
  | withdrawn at_ | polled at_ | dispatched at_ | subscribe at_ | subscribed at_
  | unsubscribe at_ | unsubscribed at_ | responded at_ =>
      rw [at_] at disconnected
      contradiction

/-- The connection has read DISCONNECT, and nobody has its Will in hand. -/
structure Discarded (connection : ConnectionId) (host : Host) : Prop extends Unleaked host where
  left : (host.conns connection).main.disconnected = true ∨
    ∃ outcome, (host.conns connection).main = .returned outcome
  unheld : host.pool.Unheld connection

namespace Discarded

theorem left_step (discarded : Discarded connection host)
    (steps : Host.Steps config host event next) :
    (next.conns connection).main.disconnected = true ∨
      ∃ outcome, (next.conns connection).main = .returned outcome := by
  rcases discarded.left with disconnected | ⟨outcome, returned⟩
  · rcases steps.conns connection with same | ⟨action, -, acts⟩
    · rw [same]
      exact .inl disconnected
    · exact acts.disconnected disconnected
  · exact .inr ⟨outcome, returned_step steps returned⟩

/-- The handler itself does not unregister for an abnormal end. -/
theorem not_abnormal (discarded : Discarded connection host) :
    asking host.pool (.handler connection) ≠ some (.unregister false) := by
  intro asked
  have agrees := discarded.agrees connection
  rcases discarded.left with disconnected | ⟨outcome, returned⟩
  · cases main : (host.conns connection).main with
    | waiting | returned => rw [main] at disconnected; contradiction
    | serving session phase =>
        rw [main] at agrees disconnected
        have asks := agrees.2
        rw [asked] at asks
        cases phase with
        | unregistering exit =>
            have graceful : exit.graceful = true := disconnected
            rw [Phase.Asks, graceful] at asks
            contradiction
        | dropping | closing | joining => contradiction
        | _ => contradiction
  · rw [returned] at agrees
    rw [agrees.1] at asked
    contradiction

theorem unheld_moved (discarded : Discarded connection host) {task : Task} {request : Request}
    {call following : Call} {access : Access}
    (running : host.pool.calls.lookup task = some ⟨request, call⟩)
    (moves : Call.Moves host.pool.broker call access following)
    (guarded : ∀ previous ∈ call.takesOver host.pool.broker, previous.connection = connection →
      previous.will.isSome = true → (host.conns connection).main.disconnected = false) :
    (host.pool.moved task request access following).Unheld connection := by
  intro other current found
  rcases Table.lookup_insert_eq_some.mp found with ⟨rfl, rfl⟩ | ⟨-, found⟩
  · rw [← Bool.not_eq_true]
    intro holds
    rcases moves.holdsWill holds with held | ⟨previous, taken, own, will⟩ | ⟨client, rfl⟩
    · rw [discarded.unheld running] at held
      contradiction
    · rcases discarded.left with disconnected | ⟨outcome, returned⟩
      · rw [guarded previous taken own will] at disconnected
        contradiction
      · -- The entry that is taken over would be one of a connection that has returned.
        cases call with
        | remove registration =>
            refine discarded.owner_ne returned registration.client ?_
            rw [owner, show host.pool.broker.sessions.lookup registration.client = some previous
              from taken, Option.map_some, own]
        | _ => contradiction
    · rcases discarded.consistent.unregistering running with ⟨rfl, rfl, -⟩
      refine discarded.not_abnormal ?_
      rw [asking, running]
      rfl
  · exact discarded.unheld found

theorem unheld_touches (discarded : Discarded connection host) {acting : ConnectionId}
    (touches : Touches host.pool acting nextPool) : nextPool.Unheld connection := by
  cases touches with
  | nothing | channel => exact discarded.unheld
  | begun own message idle opened =>
      intro other running found
      rcases Table.lookup_insert_eq_some.mp found with ⟨rfl, rfl⟩ | ⟨-, found⟩
      · refine Pool.holdsWill_opening opened fun publication asked same => ?_
        rcases message publication asked with ⟨index, origin⟩
        rw [origin] at same
        contradiction
      · exact discarded.unheld found
  | concluded own running =>
      intro other current found
      exact discarded.unheld (Table.lookup_erase_eq_some.mp found).2

theorem step (discarded : Discarded connection host)
    (guarded : WillGuarded connection host event) (steps : Host.Steps config host event next) :
    Discarded connection next where
  toUnleaked := discarded.toUnleaked.step steps
  left := discarded.left_step steps
  unheld := by
    cases steps with
    | act acts => exact discarded.unheld_touches acts.touches
    | advance moved =>
        cases Pool.steps_of_step moved with
        | advance running unblocked stepped =>
            exact discarded.unheld_moved running (Call.moves_of_step stepped)
              (guarded _ running)
    | environment => exact discarded.unheld

/-- No step shows anything of the Will. -/
theorem logs_step (discarded : Discarded connection host)
    (steps : Host.Steps config host event next) :
    next.pool.broker.willsOf connection = host.pool.broker.willsOf connection ∧
      next.pool.broker.willCopies connection = host.pool.broker.willCopies connection := by
  cases steps with
  | act acts => cases acts.touches <;> exact ⟨rfl, rfl⟩
  | advance moved =>
      cases Pool.steps_of_step moved with
      | advance running unblocked stepped =>
          have moves := Call.moves_of_step stepped
          exact ⟨discarded.unheld.willsOf_moved running moves,
            discarded.unheld.willCopies_moved running moves⟩
  | environment => exact ⟨rfl, rfl⟩

end Discarded

/-- DISCONNECT is read in the loop, and the loop is left. -/
theorem disconnect_eq_some
    (read : host.step config (.act connection (.read (.packet .disconnect))) = some next) :
    ∃ session, next = host.acted connection
      ((host.conns connection).enter session (.dropping ⟨true, none⟩)) host.pool := by
  rcases Option.map_eq_some_iff.mp read with ⟨⟨conn, pool⟩, acted, rfl⟩
  cases acts_of_act acted with
  | failed _ fails => cases fails
  | left _ leaves =>
      cases leaves
      exact ⟨_, rfl⟩
  | dispatched _ _ _ other => exact absurd rfl other
  | subscribe _ _ dispatched | unsubscribe _ _ dispatched => cases dispatched

theorem Discarded.of_read {events : List Event} {channels : ConnectionId → MqttChannel}
    (run : Run (Host.step config) Any (.new channels) events host)
    (guarded : WillGuarded connection host (.act connection (.read (.packet .disconnect))))
    (read : host.step config (.act connection (.read (.packet .disconnect))) = some next) :
    Discarded connection next := by
  refine ⟨(Unleaked.run run).step (Host.steps_of_step read), ?_, ?_⟩
  · rcases disconnect_eq_some read with ⟨session, rfl⟩
    rw [Host.conns_acted_self]
    exact .inl rfl
  · rcases disconnect_eq_some read with ⟨session, rfl⟩
    intro task running found
    exact guarded rfl rfl ⟨task, running⟩ (Table.mem_entries_iff.mpr found)

/-- A connection reads DISCONNECT.  In every run from there on in which its Will is
guarded, nothing more is published of its Will, and no copy of it is sent. -/
theorem disconnect_discards_will (config : Config) (channels : ConnectionId → MqttChannel)
    (events later : List Event) (host final : Host) (connection : ConnectionId)
    (run : Run (Host.step config) Any (.new channels) events host)
    (onwards : Run (Host.step config) (WillGuarded connection) host
      (.act connection (.read (.packet .disconnect)) :: later) final) :
    final.pool.broker.willsOf connection = host.pool.broker.willsOf connection ∧
      final.pool.broker.willCopies connection = host.pool.broker.willCopies connection := by
  have silent : Preserves (Host.step config) (WillGuarded connection) fun reached =>
      Discarded connection reached ∧
        reached.pool.broker.willsOf connection = host.pool.broker.willsOf connection ∧
        reached.pool.broker.willCopies connection = host.pool.broker.willCopies connection := by
    rintro reached event next ⟨discarded, wills, copies⟩ met moved
    have steps := Host.steps_of_step moved
    rcases discarded.logs_step steps with ⟨sameWills, sameCopies⟩
    exact ⟨discarded.step met steps, sameWills.trans wills, sameCopies.trans copies⟩
  cases onwards with
  | cons guarded read rest =>
      have discarded := Discarded.of_read run guarded read
      rcases disconnect_eq_some read with ⟨session, rfl⟩
      exact (rest.invariant silent ⟨discarded, rfl, rfl⟩).2

/-- A connection with a Will is accepted and waits for its first packet. -/
def connectedWithWill : List Event :=
  [.connects 1 "c" true (some ⟨"t", [], .atMostOnce, false⟩)] ++ Event.moves 1 4 ++
    Event.proceeds 1 3

/-- The connection reads DISCONNECT and winds down, and only then the client connects
again. -/
def disconnectThenReconnect : List Event :=
  .act 1 (.read (.packet .disconnect)) :: (Event.proceeds 1 2 ++ [.act 1 .work] ++
    Event.proceeds 1 1 ++ Event.moves 1 3 ++ Event.proceeds 1 1 ++
    [.connects 2 "c" true none] ++ Event.moves 2 4)

theorem disconnect_discards_will_in_turn :
    let config : Config := ⟨.new, some⟩
    let host := replay (Host.step config) (.new fun _ => .new) connectedWithWill
    let final := replay (Host.step config) host disconnectThenReconnect
    (host.conns 1).main.disconnected = false ∧ final.pool.broker.owner "c" = some 2 ∧
      final.pool.broker.willsOf 1 = host.pool.broker.willsOf 1 ∧
      final.pool.broker.willCopies 1 = host.pool.broker.willCopies 1 :=
  ⟨by decide +kernel, by decide +kernel,
    disconnect_discards_will ⟨.new, some⟩ (fun _ => .new) connectedWithWill
      disconnectThenReconnect.tail _ _ 1 (Follows.run (by decide +kernel))
      (Follows.run (by decide +kernel))⟩

/-- The connection reads DISCONNECT, and the client connects again before the
connection has unregistered. -/
def disconnectAndReconnect : List Event :=
  [.act 1 (.read (.packet .disconnect)), .connects 2 "c" true none] ++ Event.moves 2 2 ++
    [.advance (.handler 2) (.listed [])]

/-- The takeover publishes the Will of a connection that has read DISCONNECT. -/
theorem disconnected_will_published :
    let config : Config := ⟨.new, some⟩
    ∃ host final, Run (Host.step config) Any (.new fun _ => .new) connectedWithWill host ∧
      Run (Host.step config) Any host disconnectAndReconnect final ∧
      host.pool.broker.willsOf 1 = [] ∧
      final.pool.broker.willsOf 1 = [willPacket ⟨"t", [], .atMostOnce, false⟩] :=
  ⟨_, _, Follows.run (by decide +kernel), Follows.run (by decide +kernel), by decide +kernel,
    by decide +kernel⟩

end HotaruMqtt.Server
