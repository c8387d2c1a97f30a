import HotaruMqtt.Broker.Store

/-!
# Wills over runs of whole operations

A connection's entry ends by a takeover or by its own unregistration.  Over any
run of whole operations its Will is published once if the ending calls for it,
and not at all otherwise.
-/

namespace HotaruMqtt.Broker

open Exec Exec.Outcome

/-- How the entry of a connection ends. -/
inductive Ending
  | takeover
  | unregistered (graceful : Bool)
  deriving DecidableEq, Repr

/-- The ending an operation brings to a connection. -/
def Store.endedBy (store : Store) (connection : ConnectionId) : Operation → Option Ending
  | .register _ registration =>
      if store.Owns registration.client connection then some .takeover else none
  | .unregister _ client caller graceful =>
      if caller = connection ∧ store.Owns client connection then
        some (.unregistered graceful)
      else
        none
  | _ => none

/-- The first ending a run brings to a connection. -/
def Store.ending (connection : ConnectionId) :
    Store → List (Operation × Response) → Option Ending
  | _, [] => none
  | store, answered :: rest =>
      (store.endedBy connection answered.1).or (ending connection (store.step answered) rest)

/-- What is published of a Will when the entry has ended so. -/
def discharged (will : Option WillMessage) : Option Ending → List PublishPacket
  | some .takeover | some (.unregistered false) => (will.map willPacket).toList
  | none | some (.unregistered true) => []

/-- The packets published as the Will of a connection. -/
def willsOf (broker : Broker) (connection : ConnectionId) : List PublishPacket :=
  (broker.publications.filter fun publication => publication.origin = .will connection).map
    Publication.packet

/-! ## What one operation publishes -/

/-- The publications an operation logs. -/
def Store.logs (store : Store) : Operation → List Publication
  | .register _ registration =>
      match store.registered registration.client with
      | some ⟨ended, some will⟩ => [⟨.will ended, "", willPacket will⟩]
      | _ => []
  | .unregister _ client connection graceful =>
      match store.registered client with
      | some ⟨ended, some will⟩ =>
          if ended = connection ∧ graceful = false then
            [⟨.will ended, "", willPacket will⟩]
          else
            []
      | _ => []
  | .publish _ source packet => [⟨.direct, source, packet⟩]
  | _ => []

theorem publications_publishWill (broker : Broker) (order : IterationOrder)
    (connection : ConnectionId) (will : Option WillMessage) :
    (broker.publishWill order connection will).publications = broker.publications ++
      (will.map fun will => ⟨.will connection, "", willPacket will⟩).toList := by
  cases will with
  | none => exact (List.append_nil _).symm
  | some will => exact (published_publish broker order _ _ _).publications

/-- Every operation logs what the store says. -/
theorem Refines.publications {broker : Broker} {store : Store} (refines : Refines broker store)
    (operation : Operation) :
    (broker.perform operation).2.publications = broker.publications ++ store.logs operation := by
  cases operation with
  | register order registration =>
      refine (onlyTables_registerSession broker order registration).publications.trans ?_
      simp only [Store.logs, refines.registered]
      cases broker.sessions.lookup registration.client with
      | none => simp [Broker.takeOver, Broker.removeSession]
      | some previous =>
          rw [Broker.takeOver, publications_publishWill]
          cases will : previous.will <;>
            simp [SubscriberEntry.holder, will, closeChannel, withChannel, Broker.removeSession]
  | unregister order client connection graceful =>
      simp only [Store.logs, Broker.perform, Broker.unregisterSession]
      by_cases owns : store.Owns client connection
      · rcases refines.exists_ownEntry owns with ⟨entry, found, own, ownEntry⟩
        rw [ownEntry, refines.registered, found]
        cases graceful <;> cases will : entry.will <;>
          simp [SubscriberEntry.holder, will, own, publications_publishWill, Broker.removeSession,
            Broker.removeClient]
      · rw [refines.ownEntry_eq_none owns]
        cases held : store.registered client with
        | none => simp
        | some holder =>
            have stale : holder.connection ≠ connection := fun same =>
              owns (by simp [Store.Owns, held, same])
            rcases holder with ⟨ended, _ | will⟩
            · simp
            · simp [show ended ≠ connection from stale]
  | subscribe client connection filters =>
      exact (onlyTables_subscribe broker client connection filters).publications.trans
        (List.append_nil _).symm
  | unsubscribe client connection topics =>
      exact (onlyTables_unsubscribe broker client connection topics).publications.trans
        (List.append_nil _).symm
  | publish order source packet => exact (published_publish broker order _ _ _).publications

/-- The part of the log that is a connection's Will. -/
theorem Refines.willsOf {broker : Broker} {store : Store} (refines : Refines broker store)
    (operation : Operation) (connection : ConnectionId) :
    (broker.perform operation).2.willsOf connection = broker.willsOf connection ++
      ((store.logs operation).filter fun publication =>
        publication.origin = .will connection).map Publication.packet := by
  simp only [Broker.willsOf, refines.publications operation, List.filter_append, List.map_append]

namespace Store

variable {store : Store} {connection : ConnectionId} {client : ClientId} {operation : Operation}

/-- The connection holds no client id. -/
def Absent (store : Store) (connection : ConnectionId) : Prop :=
  ∀ client, ¬ store.Owns client connection

/-- The connection holds this client id and no other. -/
structure Holds (store : Store) (client : ClientId) (connection : ConnectionId)
    (will : Option WillMessage) : Prop where
  held : store.registered client = some ⟨connection, will⟩
  only : ∀ other, store.Owns other connection → other = client

/-- The client id whose entry an operation can end. -/
def clientOf : Operation → Option ClientId
  | .register _ registration => some registration.client
  | .unregister _ client _ _ => some client
  | _ => none

/-- An operation on the entry of others ends nothing of a connection and publishes
nothing of its Will. -/
theorem quiet_of_foreign (store : Store) (connection : ConnectionId) (operation : Operation)
    (foreign : ∀ client, clientOf operation = some client → ¬ store.Owns client connection) :
    store.endedBy connection operation = none ∧
      (store.logs operation).filter (fun publication => publication.origin = .will connection) =
        [] := by
  have notOwn : ∀ client ended will, clientOf operation = some client →
      store.registered client = some ⟨ended, will⟩ → ended ≠ connection :=
    fun client ended will meant held same => foreign client meant (by simp [Owns, held, same])
  cases operation with
  | register order registration =>
      refine ⟨if_neg (foreign _ rfl), ?_⟩
      simp only [logs]
      split
      · rename_i ended will held
        simp [notOwn _ _ _ rfl held]
      · rfl
  | unregister order client caller graceful =>
      refine ⟨if_neg fun own => foreign _ rfl own.2, ?_⟩
      simp only [logs]
      split
      · rename_i ended will held
        split <;> simp [notOwn _ _ _ rfl held]
      · rfl
  | subscribe client caller filters => exact ⟨rfl, rfl⟩
  | unsubscribe client caller topics => exact ⟨rfl, rfl⟩
  | publish order source packet => exact ⟨rfl, by simp [logs]⟩

theorem Absent.quiet (absent : store.Absent connection) (operation : Operation) :
    store.endedBy connection operation = none ∧
      (store.logs operation).filter (fun publication => publication.origin = .will connection) =
        [] :=
  quiet_of_foreign store connection operation fun client _ => absent client

theorem Absent.step (absent : store.Absent connection)
    (fresh : operation.registers ≠ some connection) (response : Response) :
    (store.step (operation, response)).Absent connection := by
  intro client owns
  rcases owns_step owns with before | ⟨order, registration, rfl, _, rfl⟩
  · exact absent client before
  · exact fresh rfl

/-- What an operation publishes of the Will of a connection that is registered. -/
theorem Holds.discharges {will : Option WillMessage}
    (holds : store.Holds client connection will) (operation : Operation) :
    ((store.logs operation).filter fun publication =>
        publication.origin = .will connection).map Publication.packet =
      discharged will (store.endedBy connection operation) := by
  have owned : store.Owns client connection := by simp [Owns, holds.held]
  by_cases same : clientOf operation = some client
  · cases operation with
    | register order registration =>
        cases Option.some.inj same
        cases will <;> simp [logs, endedBy, holds.held, owned, discharged]
    | unregister order other caller graceful =>
        cases Option.some.inj same
        by_cases own : caller = connection
        · cases will <;> cases graceful <;>
            simp [logs, endedBy, holds.held, owned, own, discharged]
        · have stale : connection ≠ caller := Ne.symm own
          cases will <;> simp [logs, endedBy, holds.held, own, stale, discharged]
    | subscribe other caller filters => simp [clientOf] at same
    | unsubscribe other caller topics => simp [clientOf] at same
    | publish order source packet => simp [clientOf] at same
  · have quiet := quiet_of_foreign store connection operation fun other meant owns =>
      same (by rw [meant, holds.only other owns])
    rw [quiet.1, quiet.2]
    rfl

/-- A registration that is the first of its connection. -/
theorem Absent.step_register {registration : Registration}
    (absent : store.Absent registration.connection) (order : IterationOrder)
    (response : Response) :
    (store.step (.register order registration, response)).Holds registration.client
      registration.connection registration.will := by
  refine ⟨by simp [Store.step], fun other owns => ?_⟩
  rcases owns_step owns with before | ⟨_, _, same, named, _⟩
  · exact absurd before (absent other)
  · cases same
    exact named.symm

/-- An operation that does not end a connection leaves it registered. -/
theorem Holds.step {will : Option WillMessage} (holds : store.Holds client connection will)
    (fresh : operation.registers ≠ some connection)
    (going : store.endedBy connection operation = none) (response : Response) :
    (store.step (operation, response)).Holds client connection will := by
  have owned : store.Owns client connection := by simp [Owns, holds.held]
  refine ⟨?_, fun other owns => ?_⟩
  · cases operation with
    | register order registration =>
        have other : client ≠ registration.client := by
          rintro rfl
          simp [endedBy, owned] at going
        simp only [Store.step, Function.update_apply, if_neg other]
        split <;> exact holds.held
    | unregister order other caller graceful =>
        simp only [Store.step]
        split
        · rename_i owns
          have differs : client ≠ other := by
            rintro rfl
            have same : caller = connection := by simpa [Owns, holds.held, eq_comm] using owns
            simp [endedBy, owned, same] at going
          simpa [vacate, clear, Function.update_apply, differs] using holds.held
        · exact holds.held
    | subscribe other caller filters => cases response <;> exact holds.held
    | unsubscribe other caller topics =>
        simp only [Store.step]
        split <;> exact holds.held
    | publish order source packet => exact holds.held
  · rcases owns_step owns with before | ⟨order, registration, rfl, _, rfl⟩
    · exact holds.only other before
    · exact absurd rfl fresh

/-- An operation that ends a connection leaves it without a client id. -/
theorem Holds.step_ended {will : Option WillMessage} {ending : Ending}
    (holds : store.Holds client connection will)
    (fresh : operation.registers ≠ some connection)
    (ended : store.endedBy connection operation = some ending) (response : Response) :
    (store.step (operation, response)).Absent connection := by
  intro other owns
  have stillOwned : store.Owns other connection := by
    rcases owns_step owns with before | ⟨order, registration, rfl, _, rfl⟩
    · exact before
    · exact absurd rfl fresh
  have same := holds.only other stillOwned
  subst same
  cases operation with
  | register order registration =>
      simp only [endedBy] at ended
      split at ended
      · rename_i owned
        have same := holds.only _ owned
        refine fresh ?_
        simpa [Store.step, Owns, same, Operation.registers] using owns
      · simp at ended
  | unregister order client caller graceful =>
      simp only [endedBy] at ended
      split at ended
      · rename_i own
        have same := holds.only _ own.2
        subst same
        simp only [Store.step, own.1, if_pos own.2] at owns
        simp [vacate, clear, Owns] at owns
      · simp at ended
  | subscribe client caller filters => simp [endedBy] at ended
  | unsubscribe client caller topics => simp [endedBy] at ended
  | publish order source packet => simp [endedBy] at ended

end Store

/-! ## Runs -/

/-- The operations of a list do not register this connection. -/
def NeverRegisters (connection : ConnectionId) (operations : List Operation) : Prop :=
  ∀ operation ∈ operations, operation.registers ≠ some connection

theorem RegistersOnce.of_cons {operation : Operation} {operations : List Operation}
    (once : RegistersOnce (operation :: operations)) :
    RegistersOnce operations ∧ ∀ connection, operation.registers = some connection →
      NeverRegisters connection operations := by
  unfold RegistersOnce at once
  cases registered : operation.registers with
  | none =>
      rw [List.filterMap_cons_none registered] at once
      exact ⟨once, fun _ absent => absurd absent (by simp)⟩
  | some connection =>
      rw [List.filterMap_cons_some registered, List.nodup_cons] at once
      refine ⟨once.2, fun other same later listed again => once.1 ?_⟩
      cases same
      exact List.mem_filterMap.mpr ⟨later, listed, again⟩

/-- A connection that holds nothing and never registers has no Will published. -/
theorem Refines.absent_run (operations : List Operation) (broker : Broker) (store : Store)
    (refines : Refines broker store) {connection : ConnectionId}
    (absent : store.Absent connection) (never : NeverRegisters connection operations) :
    (broker.performAll operations).willsOf connection = broker.willsOf connection ∧
      store.ending connection (broker.transcript operations) = none ∧
      (store.run (broker.transcript operations)).Absent connection := by
  induction operations generalizing broker store with
  | nil => exact ⟨rfl, rfl, absent⟩
  | cons operation operations ih =>
      rcases List.forall_mem_cons.mp never with ⟨fresh, neverLater⟩
      rcases absent.quiet operation with ⟨going, silent⟩
      rcases ih _ _ (refines.perform operation) (absent.step fresh _) neverLater with
        ⟨wills, ending, still⟩
      refine ⟨?_, ?_, still⟩
      · rw [Broker.performAll, wills, refines.willsOf, silent]
        exact List.append_nil _
      · rw [transcript, Store.ending, going]
        exact ending

/-- A superseded or departed connection that unregisters changes nothing. -/
theorem Refines.unregister_absent {broker : Broker} {store : Store}
    (refines : Refines broker store) {connection : ConnectionId}
    (absent : store.Absent connection) (order : IterationOrder) (client : ClientId)
    (graceful : Bool) : broker.unregisterSession order client connection graceful = broker := by
  rw [Broker.unregisterSession, refines.ownEntry_eq_none (absent client)]

/-- What a run makes of a registration: its Will is published as the ending calls
for.  The connection holds its client id until the ending, and nothing after it. -/
structure Fate (broker : Broker) (store : Store) (operations : List Operation)
    (registration : Registration) : Prop where
  wills : (broker.performAll operations).willsOf registration.connection =
    broker.willsOf registration.connection ++ discharged registration.will
      (store.ending registration.connection (broker.transcript operations))
  stays : store.ending registration.connection (broker.transcript operations) = none →
    (store.run (broker.transcript operations)).Holds registration.client registration.connection
      registration.will
  leaves : store.ending registration.connection (broker.transcript operations) ≠ none →
    (store.run (broker.transcript operations)).Absent registration.connection

/-- An operation that neither ends a connection nor publishes its Will can be put
in front. -/
theorem Fate.cons {broker : Broker} {store : Store} {operations : List Operation}
    {registration : Registration} {operation : Operation} (refines : Refines broker store)
    (going : store.endedBy registration.connection operation = none)
    (silent : ((store.logs operation).filter fun publication =>
      publication.origin = .will registration.connection).map Publication.packet = [])
    (fate : Fate (broker.perform operation).2
      (store.step (operation, (broker.perform operation).1)) operations registration) :
    Fate broker store (operation :: operations) registration := by
  have sameEnding : store.ending registration.connection
      (broker.transcript (operation :: operations)) =
        Store.ending registration.connection
          (store.step (operation, (broker.perform operation).1))
          ((broker.perform operation).2.transcript operations) := by
    rw [transcript, Store.ending, going, Option.none_or]
  refine ⟨?_, ?_, ?_⟩ <;> rw [sameEnding]
  · rw [Broker.performAll, fate.wills, refines.willsOf, silent, List.append_nil]
  · exact fate.stays
  · exact fate.leaves

/-- The rest of the run once a connection is registered. -/
theorem Refines.fate_of_holds (operations : List Operation) (broker : Broker) (store : Store)
    (refines : Refines broker store) {registration : Registration}
    (holds : store.Holds registration.client registration.connection registration.will)
    (never : NeverRegisters registration.connection operations) :
    Fate broker store operations registration := by
  induction operations generalizing broker store with
  | nil => exact ⟨(List.append_nil _).symm, fun _ => holds, fun ended => absurd rfl ended⟩
  | cons operation operations ih =>
      rcases List.forall_mem_cons.mp never with ⟨fresh, neverLater⟩
      have next := refines.perform operation
      have publishes := holds.discharges operation
      cases going : store.endedBy registration.connection operation with
      | none =>
          rw [going] at publishes
          exact .cons refines going publishes (ih _ _ next (holds.step fresh going _) neverLater)
      | some ending =>
          rcases next.absent_run operations _ _ (holds.step_ended fresh going _) neverLater with
            ⟨wills, _, still⟩
          have ended : store.ending registration.connection
              (broker.transcript (operation :: operations)) = some ending := by
            rw [transcript, Store.ending, going, Option.some_or]
          refine ⟨?_, ?_, fun _ => still⟩ <;> rw [ended]
          · rw [Broker.performAll, wills, refines.willsOf, publishes, going]
          · exact fun never => absurd never (by simp)

/-- A whole run in which a connection registers. -/
theorem Refines.fate_of_absent (operations : List Operation) (broker : Broker) (store : Store)
    (refines : Refines broker store) {registration : Registration} {order : IterationOrder}
    (absent : store.Absent registration.connection) (once : RegistersOnce operations)
    (registers : .register order registration ∈ operations) :
    Fate broker store operations registration := by
  induction operations generalizing broker store with
  | nil => exact absurd registers List.not_mem_nil
  | cons operation operations ih =>
      have next := refines.perform operation
      rcases absent.quiet operation with ⟨going, silent⟩
      refine .cons refines going (by rw [silent]; rfl) ?_
      rcases once.of_cons with ⟨onceLater, neverAgain⟩
      rcases List.mem_cons.mp registers with rfl | later
      · exact next.fate_of_holds _ _ _ (absent.step_register order _) (neverAgain _ rfl)
      · have fresh : operation.registers ≠ some registration.connection := fun same =>
          neverAgain _ same _ later rfl
        exact ih _ _ next (absent.step fresh _) onceLater later

/-- The broker holds an entry of this connection. -/
def Registered (broker : Broker) (connection : ConnectionId) : Prop :=
  ∃ client entry, broker.sessions.lookup client = some entry ∧ entry.connection = connection

theorem Refines.registered_iff {broker : Broker} {store : Store} (refines : Refines broker store)
    {connection : ConnectionId} : broker.Registered connection ↔ ¬ store.Absent connection := by
  simp only [Registered, Store.Absent, not_forall, not_not, refines.owns_iff,
    Option.map_eq_some_iff]

/-- Over every run in which no connection registers twice, the Will of a
registration is published exactly as its ending calls for.  The entry is there
exactly while there is no ending, and a later unregistration by the connection
changes nothing. -/
theorem will_discharged_once (channels : ConnectionId → MqttChannel)
    (operations : List Operation) (once : RegistersOnce operations) (order : IterationOrder)
    (registration : Registration) (registers : .register order registration ∈ operations) :
    let broker := (Broker.new channels).performAll operations
    let ending := Store.empty.ending registration.connection
      ((Broker.new channels).transcript operations)
    broker.willsOf registration.connection = discharged registration.will ending ∧
      (broker.Registered registration.connection ↔ ending = none) ∧
      (ending ≠ none → ∀ order client graceful,
        broker.unregisterSession order client registration.connection graceful = broker) := by
  intro broker ending
  have absent : Store.empty.Absent registration.connection := by
    simp [Store.Absent, Store.Owns, Store.empty]
  have fate := (refines_new channels).fate_of_absent operations _ _ absent once registers
  have final := (refines_new channels).performAll operations
  refine ⟨fate.wills, ?_, fun ended order client graceful => ?_⟩
  · rw [final.registered_iff]
    constructor
    · intro present
      by_contra ended
      exact present (fate.leaves ended)
    · intro going absentNow
      exact absentNow registration.client (by simp [Store.Owns, (fate.stays going).held])
  · exact final.unregister_absent (fate.leaves ended) order client graceful

/-- A takeover publishes the Will of the earlier connection, whose own
unregistration then finds nothing. -/
theorem will_discharged_once_takeover :
    let will : WillMessage := ⟨"gone", [1], .atMostOnce, false⟩
    let operations : List Operation :=
      [.register .listed ⟨"c", 1, some will, true⟩, .register .listed ⟨"c", 2, none, true⟩,
        .unregister .listed "c" 1 false]
    ((Broker.new fun _ => .new).performAll operations).willsOf 1 = [willPacket will] :=
  (will_discharged_once (fun _ => .new) _ (by decide) .listed
    ⟨"c", 1, some ⟨"gone", [1], .atMostOnce, false⟩, true⟩ (by simp)).1.trans (by decide)

end HotaruMqtt.Broker
