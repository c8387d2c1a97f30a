import HotaruMqtt.Server.Gate

/-!
# The identity of anonymous clients

A CONNECT without a client id is registered under a name that `handle_server` makes from
the connection id.  Made names differ from each other, since connection ids do.  But a
client may choose any name, also one that is made later for another connection, and nothing
keeps the two apart: the anonymous connection then takes that session over.  Nor does
anything ask whether the anonymous client wants a clean session.
-/

namespace HotaruMqtt.Server

open Exec Exec.Outcome Exec.Transition Broker

/-- The name that is made for a connection. -/
def autoId (connection : ConnectionId) : ClientId :=
  "hotaru-auto-" ++ toString connection

theorem autoId_injective {first second : ConnectionId} (same : autoId first = autoId second) :
    first = second := by
  have texts : toString first = toString second := (String.append_right_inj _).mp same
  rw [Nat.toString_eq_ofList_toDigits, Nat.toString_eq_ofList_toDigits] at texts
  have values := congrArg (Nat.ofDigitChars 10 · 0) (String.ofList_injective texts)
  simpa only [Nat.ofDigitChars_ten_toDigits] using values

theorem clientIdOf_anonymous (connection : ConnectionId) {connect : ConnectPacket}
    (anonymous : connect.clientId = "") : clientIdOf connection connect = autoId connection :=
  if_pos anonymous

theorem clientIdOf_chosen (connection : ConnectionId) {connect : ConnectPacket}
    (chosen : connect.clientId ≠ "") : clientIdOf connection connect = connect.clientId :=
  if_neg chosen

/-- The connection reads this CONNECT first. -/
def Event.reads (connection : ConnectionId) (connect : ConnectPacket) (auth : AuthResult) :
    Event :=
  .act connection (.connect (.packet (.connect connect)) auth)

/-! ## Where registrations come from -/

section Joined

variable {config : Config} {host next final : Host} {event : Event} {events : List Event}
  {meets : Host → Event → Prop} {connection : ConnectionId} {registration : Registration}

/-- A connection joins by the CONNECT that it reads. -/
theorem joined_of_step (moved : host.step config event = some next)
    (found : next.pool.joined connection = some registration) :
    host.pool.joined connection = some registration ∨
      ∃ connect auth, event = .reads connection connect auth ∧
        registration = registrationOf connection connect := by
  cases Host.steps_of_step moved with
  | advance advanced =>
      cases Pool.steps_of_step advanced
      exact .inl found
  | environment => exact .inl found
  | @act acting action conn pool acts =>
      cases acts with
      | admitted _ admitted invoked =>
          obtain ⟨connect, rfl, rfl, _⟩ := eq_of_admitted admitted
          obtain ⟨call, _, _, rfl⟩ := invoke_eq_some invoked
          simp only [Host.pool_acted, Pool.begun, Pool.joinedBy, Function.update_apply] at found
          split at found
          · rename_i same
            cases found
            obtain rfl : connection = acting := same
            exact .inr ⟨connect, _, rfl, rfl⟩
          · exact .inl found
      | unanswered _ invoked | subscribe _ invoked | unsubscribe _ invoked | joined _ _ invoked
      | fanned _ _ _ invoked =>
          obtain ⟨call, _, _, rfl⟩ := invoke_eq_some invoked
          exact .inl found
      | registered _ resumed | withdrawn _ resumed | subscribed _ resumed
      | unsubscribed _ resumed | unregistered _ resumed | published _ _ resumed =>
          obtain ⟨request, _, rfl⟩ := resume_eq_some resumed
          exact .inl found
      | refused | accepted | dispatched | responded | closed | failed | polled | left | dropped
      | took | drained | suppressed | crashed => exact .inl found

theorem joined_of_run (run : Run (Host.step config) meets host events final)
    (found : final.pool.joined connection = some registration) :
    host.pool.joined connection = some registration ∨
      ∃ connect auth, .reads connection connect auth ∈ events ∧
        registration = registrationOf connection connect := by
  induction run with
  | nil _ => exact .inl found
  | cons _ moved _ ih =>
      rcases ih found with earlier | ⟨connect, auth, listed, same⟩
      · rcases joined_of_step moved earlier with before | ⟨connect, auth, rfl, same⟩
        · exact .inl before
        · exact .inr ⟨connect, auth, List.mem_cons_self, same⟩
      · exact .inr ⟨connect, auth, List.mem_cons_of_mem _ listed, same⟩

end Joined

/-! ## Who may hold a made name -/

section Fresh

variable {config : Config} {channels : ConnectionId → MqttChannel} {host : Host}
  {events : List Event} {connection other : ConnectionId} {registration : Registration}

theorem consistent_of_run (run : Run (Host.step config) Any (.new channels) events host) :
    host.pool.Consistent :=
  run.invariant (fun _ _ _ consistent _ moved => (Host.steps_of_step moved).consistent consistent)
    (.new channels)

/-- The connection has sent a CONNECT with this client id. -/
def Chooses (events : List Event) (connection : ConnectionId) (client : ClientId) : Prop :=
  ∃ connect auth, .reads connection connect auth ∈ events ∧ connect.clientId = client

/-- While a connection registers, a session under the name made for it belongs to a
connection that has chosen the name. -/
theorem chooses_of_owner (run : Run (Host.step config) Any (.new channels) events host)
    (registering : host.pool.Registering connection)
    (owned : host.pool.broker.owner (autoId connection) = some other) :
    Chooses events other (autoId connection) := by
  have consistent := consistent_of_run run
  -- a connection has no entry of its own before it has inserted one
  have differs : other ≠ connection := by
    rintro rfl
    obtain ⟨entry, listed, _, own⟩ := consistent.owned owned
    exact (consistent.registering registering).1 entry listed own
  obtain ⟨registration, joined, named⟩ := consistent.joined_of_owner owned
  rcases joined_of_run run joined with initially | ⟨connect, auth, listed, rfl⟩
  · cases initially
  · by_cases anonymous : connect.clientId = ""
    · have made : autoId other = autoId connection :=
        (clientIdOf_anonymous other anonymous).symm.trans named
      exact absurd (autoId_injective made) differs
    · exact ⟨connect, auth, listed, (clientIdOf_chosen other anonymous).symm.trans named⟩

/-- A connection that has joined registers with what it joined with. -/
theorem registration_of_joined {joined : Registration} {call : Call}
    (consistent : host.pool.Consistent)
    (found : host.pool.joined connection = some joined)
    (running : host.pool.calls.lookup (.handler connection) =
      some ⟨.register registration, call⟩) : registration = joined := by
  obtain ⟨own, same, _, stage⟩ := consistent.stage running
  cases found.symm.trans same
  cases stage <;> rfl

theorem joined_begun (pool : Pool) (task : Task) (call : Call) :
    (pool.begun task (.register registration) call).joined registration.connection =
      some registration :=
  Function.update_self ..

theorem joined_of_pool_run {pool final : Pool} {shown : List Pool.Event}
    (run : Run Pool.step Any pool shown final)
    (found : pool.joined connection = some registration) :
    final.joined connection = some registration :=
  run.invariant (fun _ _ _ joined _ moved => Pool.joined_step (Pool.steps_of_step moved) joined)
    found

/-- The client asks for a clean session, and nobody is registered under its client id. -/
structure FreshIdentity (host : Host) (registration : Registration) : Prop where
  clean : registration.cleanSession = true
  unheld : host.pool.broker.owner registration.client = none

/-- In every reachable host, a connection whose CONNECT has no client id and is accepted
registers under the name made for it, whether or not it asks for a clean session.  At each
moment until its entry is inserted its identity is fresh exactly when it asks for one and no
registered connection has chosen its name. -/
theorem anonymous_identity_fresh_iff {before : List Event} {connect : ConnectPacket}
    {auth : AuthResult} (reached : Run (Host.step config) Any (.new channels) before host)
    (fresh : host.Fresh connection) (anonymous : connect.clientId = "")
    (accepted : Admissible config.safety auth (.packet (.connect connect))) :
    ∃ begun, host.step config (.reads connection connect auth) = some begun ∧
      Registers config begun connection (registrationOf connection connect) ∧
      (registrationOf connection connect).client = autoId connection ∧
      ∀ {after final registration call}, Run (Host.step config) Any begun after final →
        final.pool.calls.lookup (.handler connection) = some ⟨.register registration, call⟩ →
        (∀ response, call ≠ .returned response) →
        (FreshIdentity final registration ↔ connect.cleanSession = true ∧
          ∀ other, Chooses (before ++ .reads connection connect auth :: after) other
            (autoId connection) → final.pool.broker.owner (autoId connection) ≠ some other) := by
  have moved := fresh.step_admitted accepted
  refine ⟨_, moved, registers_of_begun (Table.lookup_insert.trans (if_pos rfl)),
    clientIdOf_anonymous connection anonymous, fun {after final registration call} run running
      unfinished => ?_⟩
  have whole := reached.append (.cons trivial moved run)
  have registering : final.pool.Registering connection :=
    ⟨registration, call, unfinished, running⟩
  obtain ⟨shown, shows⟩ := Host.run_shows run
  have joined := joined_of_pool_run shows (joined_begun host.pool (.handler connection) _)
  obtain rfl := registration_of_joined (consistent_of_run whole) joined running
  have named : (registrationOf connection connect).client = autoId connection :=
    clientIdOf_anonymous connection anonymous
  constructor
  · rintro ⟨clean, unheld⟩
    rw [named] at unheld
    exact ⟨clean, fun other _ owned => by rw [unheld] at owned; cases owned⟩
  · rintro ⟨clean, unchosen⟩
    refine ⟨clean, Option.eq_none_iff_forall_ne_some.mpr fun other owned => ?_⟩
    rw [named] at owned
    exact unchosen other (chooses_of_owner whole registering owned) owned

end Fresh

/-- A CONNECT without a client id. -/
def connectsAnonymously (cleanSession : Bool) : ConnectPacket :=
  ⟨"", cleanSession, 60, none, none, none⟩

theorem anonymous_identity_fresh_beside :
    let host := replay (Host.step ⟨.new, some⟩) (.new fun _ => .new) connectedClient
    ∃ begun, host.step ⟨.new, some⟩ (.reads 2 (connectsAnonymously true) .accept) = some begun ∧
      FreshIdentity begun (registrationOf 2 (connectsAnonymously true)) := by
  intro host
  have fresh : host.Fresh 2 := ⟨by decide +kernel, by decide +kernel, by decide +kernel⟩
  have accepted : Admissible .new .accept (.packet (.connect (connectsAnonymously true))) :=
    ⟨by decide, rfl⟩
  have reached : Run (Host.step ⟨.new, some⟩) Any (.new fun _ => .new) connectedClient host :=
    Follows.run (by decide +kernel)
  obtain ⟨begun, moved, _, _, freshWhen⟩ := anonymous_identity_fresh_iff reached fresh rfl accepted
  cases moved.symm.trans (fresh.step_admitted accepted)
  have unheld : host.pool.broker.owner (autoId 2) = none := by decide +kernel
  refine ⟨_, moved, (freshWhen (.nil _) (Table.lookup_insert.trans (if_pos rfl)) ?_).mpr
    ⟨rfl, ?_⟩⟩
  · rintro response ⟨⟩
  · intro other _ owned
    cases unheld.symm.trans owned

/-- A client chooses the name that is made for connection 2. -/
def choosesMadeName : List Event :=
  [.connects 1 "hotaru-auto-2" true none] ++ Event.moves 1 4 ++ Event.proceeds 1 3

/-- An anonymous client that does not ask for a clean session is accepted, and takes the
session over that a client with its name has. -/
theorem anonymous_takes_over :
    let config : Config := ⟨.new, some⟩
    ∃ host begun final,
      Run (Host.step config) Any (.new fun _ => .new) choosesMadeName host ∧
      Run (Host.step config) Any host [.reads 2 (connectsAnonymously false) .accept] begun ∧
      begun.pool.broker.owner (autoId 2) = some 1 ∧
      Run (Host.step config) Any begun (Event.moves 2 3) final ∧
      final.pool.broker.owner (autoId 2) = some 2 ∧
      (final.pool.broker.channels 1).isOpen = false :=
  ⟨_, _, _, Follows.run (by decide +kernel), Follows.run (by decide +kernel), by decide +kernel,
    Follows.run (by decide +kernel), by decide +kernel, by decide +kernel⟩

end HotaruMqtt.Server
