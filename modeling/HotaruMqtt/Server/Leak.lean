import HotaruMqtt.Server.Host

/-!
# No session is leaked

A connection that has passed the removal in its `unregister_session` owns no entry,
and never will again, since its one registration is over.  Every way out of
`handle_server` after the registration goes through that call.
-/

namespace HotaruMqtt.Broker.Pool

open Exec Exec.Transition

/-- The unregistration of a connection is past the removal of its entry. -/
def HasLeft (pool : Pool) (connection : ConnectionId) : Prop :=
  (∃ graceful response,
      .returned (.handler connection) (.unregister graceful) response ∈ pool.history) ∨
    ∃ graceful call,
      pool.calls.lookup (.handler connection) = some ⟨.unregister graceful, call⟩ ∧
        ∀ client, call ≠ .removeIf client connection graceful

/-- A connection that has left owns no entry. -/
def Vacated (pool : Pool) : Prop :=
  ∀ ⦃connection⦄, pool.HasLeft connection → ∀ client, pool.broker.owner client ≠ some connection

variable {pool next : Pool} {event : Event} {task : Task} {request : Request}
  {call after : Call} {access : Access} {connection : ConnectionId}

theorem Consistent.not_registering (consistent : pool.Consistent)
    (left : pool.HasLeft connection) : ¬pool.Registering connection := by
  intro busy
  rcases left with ⟨graceful, response, listed⟩ | ⟨graceful, call, running, -⟩
  · rcases (consistent.registering busy).2 _ listed rfl with ⟨registration, same⟩
    contradiction
  · rcases busy with ⟨registration, current, -, found⟩
    rw [running] at found
    cases found

namespace Vacated

theorem new (channels : ConnectionId → MqttChannel) : (Pool.new channels).Vacated :=
  fun _ _ _ owned => by cases owned

/-- The removal leaves the connection without an entry. -/
theorem of_removeIf (consistent : pool.Consistent) {graceful : Bool} {client : ClientId}
    (running : pool.calls.lookup (.handler connection) =
      some ⟨.unregister graceful, .removeIf client connection graceful⟩)
    (moves : Call.Moves pool.broker (.removeIf client connection graceful) access after)
    (other : ClientId) :
    (pool.moved (.handler connection) (.unregister graceful) access after).broker.owner other ≠
      some connection := by
  intro owned
  rcases consistent.unregistering running with ⟨-, -, registration, joined, named⟩
  -- Whatever the connection owns, it owns under the identifier it joined with.
  have sameClient : pool.broker.owner other = some connection → other = client := by
    intro owned
    rcases consistent.joined_of_owner owned with ⟨earlier, found, rfl⟩
    rw [joined] at found
    cases found
    exact named
  rw [Pool.broker, Pool.moved, owner_apply] at owned
  cases moves with
  | removeOwn entry =>
      simp only [Access.onOwner, Function.update_apply] at owned
      split at owned
      · contradiction
      · exact absurd (sameClient owned) ‹_›
  | removeNothing foreign =>
      cases sameClient owned
      exact ownEntry_eq_none.mp foreign owned

theorem moved (vacated : pool.Vacated) (consistent : pool.Consistent)
    (running : pool.calls.lookup task = some ⟨request, call⟩)
    (moves : Call.Moves pool.broker call access after) :
    (pool.moved task request access after).Vacated := by
  intro connection left client owned
  have stays : pool.HasLeft connection → False := by
    intro before
    rcases owner_of_moved running moves consistent.toOrdered owned with owned | busy
    · exact vacated before client owned
    · exact consistent.not_registering before busy
  rcases left with listed | ⟨graceful, current, found, past⟩
  · exact stays (.inl listed)
  · rcases Table.lookup_insert_eq_some.mp found with ⟨rfl, same⟩ | ⟨-, found⟩
    · cases same
      by_cases removing : ∃ client, call = .removeIf client connection graceful
      · rcases removing with ⟨removed, rfl⟩
        exact of_removeIf consistent running moves client owned
      · exact stays (.inr ⟨graceful, call, running, fun client same => removing ⟨client, same⟩⟩)
    · exact stays (.inr ⟨graceful, current, found, past⟩)

theorem begun (vacated : pool.Vacated) (opened : pool.opening task request = some call) :
    (pool.begun task request call).Vacated := by
  intro connection left client owned
  refine vacated ?_ client owned
  rcases left with ⟨graceful, response, listed⟩ | ⟨graceful, current, found, past⟩
  · rcases List.mem_append.mp listed with listed | listed
    · exact .inl ⟨graceful, response, listed⟩
    · cases List.mem_singleton.mp listed
  · rcases Table.lookup_insert_eq_some.mp found with ⟨rfl, same⟩ | ⟨-, found⟩
    · cases same
      rcases Option.map_eq_some_iff.mp opened with ⟨registration, -, rfl⟩
      exact absurd rfl (past _)
    · exact .inr ⟨graceful, current, found, past⟩

theorem concluded (vacated : pool.Vacated) {response : Response}
    (running : pool.calls.lookup task = some ⟨request, .returned response⟩) :
    (pool.concluded task request response).Vacated := by
  intro connection left client owned
  refine vacated ?_ client owned
  rcases left with ⟨graceful, answer, listed⟩ | ⟨graceful, current, found, past⟩
  · rcases List.mem_append.mp listed with listed | listed
    · exact .inl ⟨graceful, answer, listed⟩
    · cases List.mem_singleton.mp listed
      exact .inr ⟨graceful, _, running, nofun⟩
  · exact .inr ⟨graceful, current, (Table.lookup_erase_eq_some.mp found).2, past⟩

theorem step (vacated : pool.Vacated) (consistent : pool.Consistent)
    (steps : Steps pool event next) : next.Vacated := by
  cases steps with
  | invoke idle opened => exact vacated.begun opened
  | advance running unblocked stepped =>
      exact vacated.moved consistent running (Call.moves_of_step stepped)
  | conclude running => exact vacated.concluded running
  | environment => exact vacated

end Vacated

end HotaruMqtt.Broker.Pool

namespace HotaruMqtt.Server

open Exec Exec.Outcome Exec.Transition Broker

variable {config : Config} {host next : Host} {event : Event} {connection : ConnectionId}
  {outcome : Outcome MqttError Unit}

/-- A handler that has returned does nothing more. -/
theorem Acts.returned {pool after : Pool} {conn left : Conn} {action : Action}
    (acts : Acts config pool connection conn action left after)
    (returned : conn.main = .returned outcome) : left.main = .returned outcome := by
  cases acts with
  | crashed => exact returned
  | failed at_ | refused at_ | admitted at_ | registered at_ | accepted at_ | unanswered at_
  | withdrawn at_ | polled at_ | left at_ | dispatched at_ | subscribe at_ | subscribed at_
  | unsubscribe at_ | unsubscribed at_ | responded at_ | dropped at_ | closed at_
  | joined at_ | unregistered at_ | took at_ | drained at_ | fanned at_ | suppressed at_
  | published at_ =>
      rw [returned] at at_
      contradiction

theorem returned_step (steps : Host.Steps config host event next)
    (returned : (host.conns connection).main = .returned outcome) :
    (next.conns connection).main = .returned outcome := by
  rcases steps.conns connection with same | ⟨action, -, acts⟩
  · rw [same]
    exact returned
  · exact acts.returned returned

/-- The host and what holds of its pool after a step. -/
structure Unleaked (host : Host) : Prop extends Linked host where
  vacated : host.pool.Vacated

theorem Unleaked.step (unleaked : Unleaked host) (steps : Host.Steps config host event next) :
    Unleaked next where
  toLinked := unleaked.toLinked.step steps
  vacated := by
    rcases steps.shown with same | ⟨shown, moved⟩
    · rw [same]
      exact unleaked.vacated
    · exact unleaked.vacated.step unleaked.consistent (Pool.steps_of_step moved)

theorem Unleaked.run {meets : Host → Event → Prop} {events : List Event}
    {channels : ConnectionId → MqttChannel}
    (run : Run (Host.step config) meets (.new channels) events host) : Unleaked host :=
  run.invariant (fun _ _ _ unleaked _ moved => unleaked.step (Host.steps_of_step moved))
    ⟨.new channels, .new channels⟩

/-- A connection whose handler has returned owns no entry. -/
theorem Unleaked.owner_ne (unleaked : Unleaked host)
    (returned : (host.conns connection).main = .returned outcome) (client : ClientId) :
    host.pool.broker.owner client ≠ some connection := by
  intro owned
  have agrees := unleaked.agrees connection
  rw [returned] at agrees
  rcases agrees with ⟨-, unused | left⟩
  · rcases unleaked.consistent.joined_of_owner owned with ⟨registration, joined, -⟩
    rw [unused] at joined
    contradiction
  · exact unleaked.vacated (.inl left) client owned

/-- Once `handle_server` has returned for a connection, no broker state reached from
then on holds an entry of that connection. -/
theorem no_session_leaked (config : Config) (channels : ConnectionId → MqttChannel)
    (events later : List Event) (host final : Host)
    (run : Run (Host.step config) Any (.new channels) events host)
    (connection : ConnectionId) (outcome : Outcome MqttError Unit)
    (returned : (host.conns connection).main = .returned outcome)
    (onwards : Run (Host.step config) Any host later final)
    (client : ClientId) (entry : SubscriberEntry)
    (found : final.pool.broker.sessions.lookup client = some entry) :
    entry.connection ≠ connection := by
  have unleaked : Unleaked final := .run (run.append onwards)
  have stillReturned : (final.conns connection).main = .returned outcome :=
    onwards.invariant
      (fun _ _ _ returned _ moved => returned_step (Host.steps_of_step moved) returned) returned
  rintro rfl
  apply unleaked.owner_ne stillReturned client
  rw [owner, found, Option.map_some]

/-- A connection sends a malformed packet and is torn down. -/
def malformedExit : List Event :=
  [.connects 1 "c" true none] ++ Event.moves 1 4 ++ Event.proceeds 1 3 ++
    [.act 1 (.read (.failed (.codec .malformedLength)))] ++ Event.proceeds 1 2 ++
    [.act 1 .work] ++ Event.proceeds 1 1 ++ Event.moves 1 3 ++ Event.proceeds 1 1

/-- The client connects again. -/
def reconnect : List Event :=
  [.connects 2 "c" true none] ++ Event.moves 2 4

theorem no_session_leaked_malformed :
    let config : Config := ⟨.new, some⟩
    let host := replay (Host.step config) (.new fun _ => .new) malformedExit
    let final := replay (Host.step config) host reconnect
    (host.conns 1).main = .returned (err (.codec .malformedLength)) ∧
      final.pool.broker.owner "c" = some 2 ∧
      ∀ client entry, final.pool.broker.sessions.lookup client = some entry →
        entry.connection ≠ 1 :=
  ⟨by decide +kernel, by decide +kernel, fun client entry found =>
    no_session_leaked ⟨.new, some⟩ (fun _ => .new) malformedExit reconnect _ _
      (Follows.run (by decide +kernel)) 1 (err (.codec .malformedLength)) (by decide +kernel)
      (Follows.run (by decide +kernel)) client entry found⟩

end HotaruMqtt.Server
