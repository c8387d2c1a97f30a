import HotaruMqtt.Broker.Alone
import HotaruMqtt.Server.Host

/-!
# Admission is all or nothing

`handle_server` refuses a connection at several points before it calls
`register_session`: the first packet, the keep-alive policy, the authenticator.  All of
them come before anything is done in the broker.  A refused connection leaves nothing
there, and on its own channel the CONNACK with the code of the refusal, if it has sent
a CONNECT at all.
-/

namespace HotaruMqtt.Server

open Exec Exec.Outcome Exec.Transition Broker

namespace AuthResult

/-- `AuthResult::accept`. -/
def accept : AuthResult :=
  ⟨true, .accepted⟩

/-- `AuthResult::reject`, which takes any code. -/
def reject (code : ConnackReturnCode) : AuthResult :=
  ⟨false, code⟩

/-- Made by one of the two constructors, and a rejection with a code that is one. -/
def Built (auth : AuthResult) : Prop :=
  auth = accept ∨ ∃ code, code ≠ .accepted ∧ auth = reject code

end AuthResult

/-- The keep-alive is within the policy: zero if that is allowed, and otherwise at most
the maximum. -/
def MqttSafety.Permits (safety : MqttSafety) (keepAlive : UInt16) : Prop :=
  if keepAlive = 0 then safety.allowsDisabledKeepAlive = true else keepAlive ≤ safety.maxKeepAlive

instance (safety : MqttSafety) (keepAlive : UInt16) : Decidable (safety.Permits keepAlive) :=
  inferInstanceAs (Decidable (if keepAlive = 0 then safety.allowsDisabledKeepAlive = true
    else keepAlive ≤ safety.maxKeepAlive))

theorem keepAliveRefused_eq_false_iff {safety : MqttSafety} {keepAlive : UInt16} :
    keepAliveRefused safety keepAlive = false ↔ safety.Permits keepAlive := by
  unfold keepAliveRefused MqttSafety.Permits
  split <;> simp

/-- A CONNECT within the policy that the authenticator accepts. -/
def Admissible (safety : MqttSafety) (auth : AuthResult) : FirstRead → Prop
  | .packet (.connect connect) => safety.Permits connect.keepAlive ∧ auth.accepted = true
  | _ => False

/-- What a refused connection is sent: one CONNACK for a CONNECT. -/
def FirstRead.answer (code : ConnackReturnCode) : FirstRead → List Packet
  | .packet (.connect _) => [.connack ⟨false, code⟩]
  | _ => []

section Admission

variable {safety : MqttSafety} (connection : ConnectionId) {auth : AuthResult}
  {connect : ConnectPacket} {read : FirstRead}

theorem admission_of_admissible (admissible : Admissible safety auth (.packet (.connect connect))) :
    admission safety connection auth (.packet (.connect connect)) =
      .admitted ⟨clientIdOf connection connect, connect.keepAlive⟩
        (registrationOf connection connect) := by
  have permitted := keepAliveRefused_eq_false_iff.mpr admissible.1
  simp [admission, permitted, admissible.2, registrationOf]

/-- A CONNECT that is not admissible is refused with a code that says so. -/
theorem admission_refused (built : auth.Built)
    (refused : ¬ Admissible safety auth (.packet (.connect connect))) :
    ∃ code, code ≠ .accepted ∧
      admission safety connection auth (.packet (.connect connect)) = .refused code := by
  cases policy : keepAliveRefused safety connect.keepAlive with
  | true => exact ⟨.serverUnavailable, by simp, by simp [admission, policy]⟩
  | false =>
      have permitted := keepAliveRefused_eq_false_iff.mp policy
      rcases built with rfl | ⟨code, isError, rfl⟩
      · exact absurd ⟨permitted, rfl⟩ refused
      · exact ⟨code, isError, by simp [admission, policy, AuthResult.reject]⟩

theorem admission_failed (safety : MqttSafety) (auth : AuthResult)
    (other : ∀ connect, read ≠ .packet (.connect connect)) :
    ∃ error, admission safety connection auth read = .failed error := by
  cases read with
  | elapsed | failed _ => exact ⟨_, rfl⟩
  | packet packet =>
      cases packet with
      | connect connect => exact absurd rfl (other connect)
      | _ => exact ⟨_, rfl⟩

end Admission

/-! ## Registrations -/

section Registers

variable {config : Config} {pool next : Pool} {connection : ConnectionId}
  {registration : Registration}

/-- An entry with this registration has been inserted. -/
def Inserted (pool : Pool) (registration : Registration) : Prop :=
  ∃ entry ∈ pool.shared.stored, entry.registration = registration

/-- The handler is in its registration, which inserts the entry before it returns, or
the entry has been inserted. -/
def Inserts (connection : ConnectionId) (registration : Registration) (pool : Pool) : Prop :=
  Inserted pool registration ∨ ∃ call,
    pool.calls.lookup (.handler connection) = some ⟨.register registration, call⟩ ∧
      Stage registration (.register registration) call ∧ ∀ response, call ≠ .returned response

theorem Inserted.apply {task : Task} {request : Request} {access : Access} {after : Call}
    (inserted : Inserted pool registration) :
    Inserted (pool.moved task request access after) registration := by
  obtain ⟨entry, listed, same⟩ := inserted
  exact ⟨entry, mem_stored_apply.mpr (.inl listed), same⟩

theorem preserves_inserts : Preserves Pool.step Any (Inserts connection registration) := by
  intro pool event next inserts _ moved
  rcases inserts with inserted | ⟨call, running, stage, unfinished⟩
  · refine .inl ?_
    cases Pool.steps_of_step moved with
    | advance => exact inserted.apply
    | invoke | conclude | environment => exact inserted
  · cases Pool.steps_of_step moved with
    | @invoke task request opening idle opened =>
        have other : Task.handler connection ≠ task := by
          rintro rfl
          rw [idle] at running
          cases running
        exact .inr ⟨call, Table.lookup_insert.trans ((if_neg other).trans running), stage,
          unfinished⟩
    | @advance task choice request moving after access current unblocked stepped =>
        by_cases own : Task.handler connection = task
        · subst own
          cases running.symm.trans current
          have moves := Call.moves_of_step stepped
          by_cases returns : ∃ response, after = .returned response
          · obtain ⟨response, rfl⟩ := returns
            obtain rfl := stage.storing_of_returned moves
            exact .inl ⟨_, mem_stored_apply.mpr (.inr ⟨registration, rfl, rfl⟩), rfl⟩
          · exact .inr ⟨after, Table.lookup_insert.trans (if_pos rfl), stage.move moves,
              fun response same => returns ⟨response, same⟩⟩
        · exact .inr ⟨call, Table.lookup_insert.trans ((if_neg own).trans running), stage,
            unfinished⟩
    | @conclude task request response current =>
        have other : Task.handler connection ≠ task := by
          rintro rfl
          cases running.symm.trans current
          exact unfinished _ rfl
        exact .inr ⟨call, Table.lookup_erase.trans ((if_neg other).trans running), stage,
          unfinished⟩
    | environment => exact .inr ⟨call, running, stage, unfinished⟩

/-- The moves of a call are steps of the host. -/
theorem Host.run_of_advances {task : Task} (choices : List Choice) {host : Host}
    (run : Run Pool.step Any host.pool (choices.map fun choice => .advance task choice) pool) :
    Run (Host.step config) Any host (choices.map fun choice => .advance task choice)
      { host with pool } := by
  induction choices generalizing host with
  | nil =>
      cases run
      exact .nil host
  | cons choice choices ih =>
      cases run with
      | @cons _ middle _ _ _ _ moved rest =>
          have moves : host.pool.advance task choice = some middle := moved
          have onwards := @ih { host with pool := middle } rest
          exact .cons trivial (by rw [Host.step, moves]; rfl) onwards

/-- The handler is registering with this registration: when its call returns the entry
has been inserted, whatever runs beside it, and when nothing does it can be carried
through. -/
structure Registers (config : Config) (host : Host) (connection : ConnectionId)
    (registration : Registration) : Prop where
  asks : asking host.pool (.handler connection) = some (.register registration)
  inserts : ∀ {events final response}, Run (Host.step config) Any host events final →
    final.pool.calls.lookup (.handler connection) =
      some ⟨.register registration, .returned response⟩ → Inserted final.pool registration
  completes : host.pool.Only (.handler connection) →
    ∃ (choices : List Choice) (final : Host) (present : Bool),
    Run (Host.step config) Any host
        (choices.map fun choice => .advance (.handler connection) choice) final ∧
      final.pool.calls.lookup (.handler connection) =
        some ⟨.register registration, .returned (.registered present)⟩ ∧
      final.pool.broker.sessions.lookup registration.client = some registration.entry

theorem lookup_registerSession (broker : Broker) (order : IterationOrder)
    (registration : Registration) :
    (broker.registerSession order registration).2.sessions.lookup registration.client =
      some registration.entry :=
  Table.lookup_insert.trans (if_pos rfl)

/-- A registration that has just begun. -/
theorem registers_of_begun {host : Host}
    (running : host.pool.calls.lookup (.handler connection) =
      some ⟨.register registration, .remove registration⟩) :
    Registers config host connection registration where
  asks := by rw [asking, running]; rfl
  inserts {events final response} run returned := by
    obtain ⟨shown, shows⟩ := Host.run_shows run
    have begun : Inserts connection registration host.pool :=
      .inr ⟨_, running, .remove, by simp⟩
    rcases shows.invariant preserves_inserts begun with inserted | ⟨call, found, _, unfinished⟩
    · exact inserted
    · cases returned.symm.trans found
      exact absurd rfl (unfinished response)
  completes only := by
    obtain ⟨choices, final, run, broker, _, history⟩ :=
      Pool.run_alone (alone_perform host.pool.shared (.register .listed registration)) only running
    obtain ⟨middle, before, last⟩ := run.exists_between
    cases last with
    | cons _ moved rest =>
        cases rest
        cases Pool.steps_of_step moved with
        | conclude current =>
            obtain ⟨_, same⟩ := List.append_inj' history rfl
            cases same
            refine ⟨choices, _, _, Host.run_of_advances choices before, current, ?_⟩
            refine (congrArg (fun broker : Broker => broker.sessions.lookup registration.client)
              broker).trans ?_
            exact lookup_registerSession _ _ _

end Registers

/-! ## Refusals -/

/-- Nothing has been done for the connection yet. -/
structure Host.Fresh (host : Host) (connection : ConnectionId) : Prop where
  waiting : (host.conns connection).main = .waiting
  unjoined : host.pool.joined connection = none
  idle : host.pool.calls.lookup (.handler connection) = none

/-- The handler has returned with an error, and nothing is left of the connection but
the answer to its CONNECT. -/
structure Refused (host next : Host) (connection : ConnectionId) (read : FirstRead) :
    Prop where
  returned : ∃ error, (next.conns connection).main = .returned (err error)
  sessions : next.pool.broker.sessions = host.pool.broker.sessions
  subscriptions : next.pool.broker.subscriptions = host.pool.broker.subscriptions
  publications : next.pool.broker.publications = host.pool.broker.publications
  deliveries : next.pool.broker.deliveries = host.pool.broker.deliveries
  calls : next.pool.calls = host.pool.calls
  others : ∀ other, other ≠ connection →
    next.pool.broker.channels other = host.pool.broker.channels other
  isOpen : (next.pool.broker.channels connection).isOpen =
    (host.pool.broker.channels connection).isOpen
  answered : ∃ code, code ≠ .accepted ∧ (next.pool.broker.channels connection).sent =
    (host.pool.broker.channels connection).sent ++
      if (host.pool.broker.channels connection).writerAlive then read.answer code else []

/-- The verdict on a first packet: the handler registers exactly when it is admissible,
with what the CONNECT says, and otherwise refuses. -/
structure AllOrNothing (config : Config) (host next : Host) (connection : ConnectionId)
    (read : FirstRead) (auth : AuthResult) : Prop where
  registers_iff : (∃ registration, Registers config next connection registration) ↔
    Admissible config.safety auth read
  registered : ∀ registration, Registers config next connection registration →
    ∃ connect, read = .packet (.connect connect) ∧
      registration = registrationOf connection connect
  refused : ¬ Admissible config.safety auth read → Refused host next connection read

section Gate

variable {config : Config} {host : Host} {connection : ConnectionId} {read : FirstRead}
  {auth : AuthResult}

/-- A fresh connection whose first read fails. -/
theorem refused_of_failed (error : MqttError)
    (other : ∀ connect, read ≠ .packet (.connect connect)) :
    Refused host (host.acted connection ((host.conns connection).finish (err error)) host.pool)
      connection read where
  returned := ⟨error, by rw [Host.conns_acted_self]; rfl⟩
  sessions := rfl
  subscriptions := rfl
  publications := rfl
  deliveries := rfl
  calls := rfl
  others _ _ := rfl
  isOpen := rfl
  answered := by
    refine ⟨.serverUnavailable, by simp, ?_⟩
    have nothing : read.answer .serverUnavailable = [] := by
      unfold FirstRead.answer
      split
      · exact absurd rfl (other _)
      · rfl
    rw [nothing, ite_self, List.append_nil]
    rfl

/-- A fresh connection whose CONNECT is answered with a code. -/
theorem refused_of_connack {connect : ConnectPacket} {code : ConnackReturnCode}
    (isError : code ≠ .accepted) :
    Refused host (host.acted connection
        ((host.conns connection).finish (err (.protocol (.connectionRefused code))))
        (host.pool.environment connection
          ((host.pool.broker.channels connection).sendPacket (.connack ⟨false, code⟩)).2))
      connection (.packet (.connect connect)) where
  returned := ⟨_, by rw [Host.conns_acted_self]; rfl⟩
  sessions := rfl
  subscriptions := rfl
  publications := rfl
  deliveries := rfl
  calls := rfl
  others _ differs := Function.update_of_ne differs _ _
  isOpen := by
    rw [Host.pool_acted, channels_environment_self]
    unfold MqttChannel.sendPacket
    split <;> rfl
  answered := by
    refine ⟨code, isError, ?_⟩
    rw [Host.pool_acted, channels_environment_self]
    unfold MqttChannel.sendPacket
    split
    · rfl
    · exact (List.append_nil _).symm

/-- An admissible CONNECT begins the registration. -/
theorem Host.Fresh.step_admitted (fresh : host.Fresh connection) {connect : ConnectPacket}
    (admissible : Admissible config.safety auth (.packet (.connect connect))) :
    host.step config (.act connection (.connect (.packet (.connect connect)) auth)) =
      some (host.acted connection
        ((host.conns connection).enter ⟨clientIdOf connection connect, connect.keepAlive⟩
          .registering)
        (host.pool.begun (.handler connection) (.register (registrationOf connection connect))
          (.remove (registrationOf connection connect)))) := by
  have opened : host.pool.opening (.handler connection)
      (.register (registrationOf connection connect)) =
        some (.remove (registrationOf connection connect)) :=
    if_pos ⟨rfl, fresh.unjoined⟩
  have invoked : host.pool.invoke (.handler connection)
      (.register (registrationOf connection connect)) =
        some (host.pool.begun (.handler connection)
          (.register (registrationOf connection connect))
          (.remove (registrationOf connection connect))) := by
    rw [Pool.invoke, fresh.idle, opened]
    rfl
  simp only [Host.step, act, fresh.waiting, Server.connect,
    admission_of_admissible connection admissible, invoked, Option.map_some]

theorem Registers.allOrNothing {next : Host} {connect : ConnectPacket}
    (registers : Registers config next connection (registrationOf connection connect))
    (admissible : Admissible config.safety auth (.packet (.connect connect))) :
    AllOrNothing config host next connection (.packet (.connect connect)) auth where
  registers_iff := iff_of_true ⟨_, registers⟩ admissible
  registered registration other := by
    cases other.asks.symm.trans registers.asks
    exact ⟨connect, rfl, rfl⟩
  refused inadmissible := absurd admissible inadmissible

theorem Refused.allOrNothing {next : Host} (refused : Refused host next connection read)
    (fresh : host.Fresh connection) (inadmissible : ¬ Admissible config.safety auth read) :
    AllOrNothing config host next connection read auth := by
  have unasked : asking next.pool (.handler connection) = none := by
    rw [asking, refused.calls, fresh.idle]
    rfl
  have nothing : ∀ registration, ¬ Registers config next connection registration := by
    intro registration registers
    cases registers.asks.symm.trans unasked
  refine ⟨iff_of_false ?_ inadmissible, ?_, fun _ => refused⟩
  · rintro ⟨registration, registers⟩
    exact nothing registration registers
  · exact fun registration registers => absurd registers (nothing registration)

/-- A connection for which nothing has been done, whatever the broker holds and whatever
runs beside it: with its first read the handler either registers it or leaves nothing of
it. -/
theorem admission_all_or_nothing (config : Config) (fresh : host.Fresh connection)
    (built : auth.Built) (read : FirstRead) :
    ∃ next, host.step config (.act connection (.connect read auth)) = some next ∧
      AllOrNothing config host next connection read auth := by
  by_cases isConnect : ∃ connect, read = .packet (.connect connect)
  · obtain ⟨connect, rfl⟩ := isConnect
    by_cases admissible : Admissible config.safety auth (.packet (.connect connect))
    · refine ⟨_, fresh.step_admitted admissible, Registers.allOrNothing ?_ admissible⟩
      exact registers_of_begun (Table.lookup_insert.trans (if_pos rfl))
    · obtain ⟨code, isError, refused⟩ := admission_refused connection built admissible
      refine ⟨_, ?_, (refused_of_connack isError).allOrNothing fresh admissible⟩
      simp only [Host.step, act, fresh.waiting, Server.connect, refused, Option.map_some]
  · have other : ∀ connect, read ≠ .packet (.connect connect) :=
      fun connect same => isConnect ⟨connect, same⟩
    have inadmissible : ¬ Admissible config.safety auth read := by
      unfold Admissible
      split
      · exact absurd rfl (other _)
      · exact id
    obtain ⟨error, failed⟩ := admission_failed connection config.safety auth other
    refine ⟨_, ?_, (refused_of_failed error other).allOrNothing fresh inadmissible⟩
    simp only [Host.step, act, fresh.waiting, Server.connect, failed, Option.map_some]

end Gate

/-- A client is connected, with a Will. -/
def connectedClient : List Event :=
  [.connects 1 "c" true (some ⟨"t", [1], .atMostOnce, false⟩)] ++ Event.moves 1 4 ++
    Event.proceeds 1 3

/-- A CONNECT with the same client id. -/
def connectsAgain : FirstRead :=
  .packet (.connect ⟨"c", true, 60, none, none, none⟩)

/-- A second connection with the same client id and wrong credentials is refused; with the
right ones it registers. -/
theorem admission_all_or_nothing_in_use :
    let host := replay (Host.step ⟨.new, some⟩) (.new fun _ => .new) connectedClient
    host.pool.broker.owner "c" = some 1 ∧ (∃ next, Refused host next 2 connectsAgain) ∧
      ∃ next, Registers ⟨.new, some⟩ next 2 ⟨"c", 2, none, true⟩ := by
  intro host
  have fresh : host.Fresh 2 := ⟨by decide +kernel, by decide +kernel, by decide +kernel⟩
  have wrong : (AuthResult.reject .badUsernameOrPassword).Built := .inr ⟨_, by simp, rfl⟩
  obtain ⟨refusing, _, verdict⟩ := admission_all_or_nothing ⟨.new, some⟩ fresh wrong connectsAgain
  obtain ⟨next, _, accepting⟩ := admission_all_or_nothing ⟨.new, some⟩ fresh (.inl rfl)
    connectsAgain
  have admissible : Admissible .new .accept connectsAgain := ⟨by decide, rfl⟩
  obtain ⟨registration, registers⟩ := accepting.registers_iff.mpr admissible
  obtain ⟨connect, same, rfl⟩ := accepting.registered registration registers
  cases same
  refine ⟨by decide +kernel, ⟨refusing, verdict.refused fun accepted => ?_⟩, next, registers⟩
  cases accepted.2

end HotaruMqtt.Server
