import HotaruMqtt.Network.Sends
import HotaruMqtt.Network.System
import HotaruMqtt.Server.Anonymous

/-!
# The server's side of the handshake

A CONNACK on a channel says where the connection stands: one that accepts is sent after
the registration has inserted the entry of the CONNECT that was read first, one that
refuses is sent by a handler that ends with its code and has done nothing in the broker.
-/

namespace HotaruMqtt.Network

open Exec Exec.Outcome Exec.Transition Broker

section Server

open Server

variable {config : Server.Config} {host next : Host} {event : Server.Event}
  {connection : ConnectionId}
  {connack : ConnackPacket}

theorem not_reaction_connack {packet : Packet} : ¬ Reaction packet (.connack connack) := by
  rintro (reply | reply)
  · cases packet with
    | publish publish =>
        simp only [flowReplies] at reply
        split at reply <;> simp at reply
    | pubrec id | pubrel id => simp [flowReplies] at reply
    | _ => contradiction
  · contradiction

/-- A CONNACK is sent by the refusal of a CONNECT or by a handler that is about to accept. -/
theorem connack_of_step (stepped : host.step config event = some next)
    (undisturbed : ∀ channel, event ≠ .environment connection channel)
    (responds : Responds host connection)
    (sent : .connack connack ∈ (next.pool.broker.channels connection).sent) :
    .connack connack ∈ (host.pool.broker.channels connection).sent ∨
      (∃ session, (host.conns connection).main =
        .serving session (.answering connack.sessionPresent) ∧ connack.returnCode = .accepted) ∨
      ∃ read auth, event = .act connection (.connect read auth) ∧
        admission config.safety connection auth read = .refused connack.returnCode := by
  rcases (sends_of_step stepped undisturbed).mem sent with before | outgoing
  · exact .inl before
  · refine .inr ?_
    generalize same : Packet.connack connack = packet at outgoing
    cases outgoing with
    | reaction reacts => exact absurd (same ▸ reacts) not_reaction_connack
    | refusal refused =>
        cases same
        exact .inr ⟨_, _, rfl, refused⟩
    | @acceptance session present at_ =>
        cases same
        exact .inl ⟨session, at_, rfl⟩
    | @response session packet at_ =>
        subst same
        rcases responds session _ at_ with ⟨_, same⟩ | ⟨_, same⟩ <;> cases same
    | copy => cases same

/-- How a handler that serves goes on. -/
theorem main_of_acts {pool after : Pool} {conn result : Conn} {action : Server.Action}
    {session : Server.Session} {phase : Server.Phase}
    (acts : Acts config pool connection conn action result after)
    (at_ : conn.main = .serving session phase) :
    (∃ later, result.main = .serving session later ∧
        (phase = .registering → later = .registering ∨ ∃ present,
          resume pool (.handler connection) = some (.registered present, after))) ∨
      ∃ outcome, result.main = .returned outcome := by
  have continues : ∀ {outcome : Outcome MqttError Unit} {later : Server.Phase},
      afterDispatch outcome = some later → later ≠ .registering := by
    rintro outcome later after rfl
    cases outcome <;> cases after
  cases acts with
  | failed at' | refused at' | admitted at' =>
      rw [at'] at at_
      cases at_
  | withdrawn | unregistered => exact .inr ⟨_, rfl⟩
  | registered at' resumed =>
      rw [at'] at at_
      cases at_
      exact .inl ⟨_, rfl, fun _ => .inr ⟨_, resumed⟩⟩
  | took | drained | fanned | suppressed | published | crashed =>
      exact .inl ⟨phase, at_, fun registering => .inl registering⟩
  | left at' leaves =>
      rw [at'] at at_
      cases at_
      refine .inl ⟨_, rfl, ?_⟩
      rintro rfl
      rcases leaves.inLoop with same | same <;> cases same
  | accepted at' | unanswered at' | polled at' | dispatched at' | subscribe at' | subscribed at'
  | unsubscribe at' | unsubscribed at' | responded at' | dropped at' | closed at' | joined at' =>
      rw [at'] at at_
      cases at_
      exact .inl ⟨_, rfl, by simp⟩

/-- A handler that has returned stays so. -/
theorem main_of_returned {pool after : Pool} {conn result : Conn} {action : Server.Action}
    {outcome : Outcome MqttError Unit}
    (acts : Acts config pool connection conn action result after)
    (at_ : conn.main = .returned outcome) : result.main = .returned outcome := by
  cases acts with
  | crashed => exact at_
  | failed at' | refused at' | admitted at' | registered at' | accepted at' | unanswered at'
  | withdrawn at' | polled at' | left at' | dispatched at' | subscribe at' | subscribed at'
  | unsubscribe at' | unsubscribed at' | responded at' | dropped at' | closed at' | joined at'
  | unregistered at' | took at' | drained at' | fanned at' | suppressed at' | published at' =>
      rw [at'] at at_
      cases at_

/-- The connection was admitted with this CONNECT: it has joined with what the CONNECT
says, and is accepted once it is registered. -/
structure Welcomed (host : Host) (connection : ConnectionId) (connect : ConnectPacket) :
    Prop where
  joined : host.pool.joined connection = some (registrationOf connection connect)
  inserts : Inserts connection (registrationOf connection connect) host.pool
  answered : ∀ connack, .connack connack ∈ (host.pool.broker.channels connection).sent →
    connack.returnCode = .accepted ∧ Inserted host.pool (registrationOf connection connect)

/-- The connection was not admitted: it has not joined, and is told so at most. -/
structure Dismissed (host : Host) (connection : ConnectionId)
    (outcome : Outcome MqttError Unit) : Prop where
  unjoined : host.pool.joined connection = none
  answered : ∀ connack, .connack connack ∈ (host.pool.broker.channels connection).sent →
    connack.returnCode ≠ .accepted ∧
      outcome = err (.protocol (.connectionRefused connack.returnCode))

/-- What holds of a connection, given where its handler stands and which CONNECT it can
have read. -/
def Stands (host : Host) (connection : ConnectionId) (readable : ConnectPacket → Prop) :
    Main → Prop
  | .waiting => host.pool.joined connection = none ∧
      ∀ connack, .connack connack ∉ (host.pool.broker.channels connection).sent
  | .serving session phase => ∃ connect, readable connect ∧ Welcomed host connection connect ∧
      session = ⟨clientIdOf connection connect, connect.keepAlive⟩ ∧
      (phase ≠ .registering → Inserted host.pool (registrationOf connection connect))
  | .returned outcome => Dismissed host connection outcome ∨
      ∃ connect, readable connect ∧ Welcomed host connection connect

theorem Stands.mono {readable weaker : ConnectPacket → Prop} {main : Main}
    (stands : Stands host connection readable main)
    (implies : ∀ connect, readable connect → weaker connect) :
    Stands host connection weaker main := by
  cases main with
  | waiting => exact stands
  | serving session phase =>
      obtain ⟨connect, read, rest⟩ := stands
      exact ⟨connect, implies connect read, rest⟩
  | returned outcome =>
      refine stands.imp_right ?_
      rintro ⟨connect, read, welcomed⟩
      exact ⟨connect, implies connect read, welcomed⟩

theorem preserves_inserted {registration : Registration} :
    Preserves Pool.step Any (Inserted · registration) := by
  intro pool event after inserted _ moved
  cases Pool.steps_of_step moved with
  | advance => exact inserted.apply
  | invoke | conclude | environment => exact inserted

/-- What every step of the pool keeps, every step of the host keeps. -/
theorem kept_of_step {property : Pool → Prop} (preserves : Preserves Pool.step Any property)
    (stepped : host.step config event = some next) (before : property host.pool) :
    property next.pool := by
  rcases (Host.steps_of_step stepped).shown with same | ⟨shown, moved⟩
  · exact same ▸ before
  · exact preserves before trivial moved

theorem joined_kept {registration : Registration} :
    Preserves Pool.step Any fun pool => pool.joined connection = some registration :=
  fun _ _ _ found _ moved => Pool.joined_step (Pool.steps_of_step moved) found

/-- A handler reads the first packet while it is waiting. -/
theorem waiting_of_connect {read : FirstRead} {auth : AuthResult}
    (stepped : host.step config (.act connection (.connect read auth)) = some next) :
    (host.conns connection).main = .waiting := by
  obtain ⟨⟨result, after⟩, acted, _⟩ := Option.map_eq_some_iff.mp stepped
  cases acts_of_act acted with
  | failed at_ | refused at_ | admitted at_ => exact at_
  | left _ leaves => cases leaves

/-- A connection that was admitted stays so, and is accepted only once it is registered. -/
theorem Welcomed.step {connect : ConnectPacket} (welcomed : Welcomed host connection connect)
    (stepped : host.step config event = some next)
    (undisturbed : ∀ channel, event ≠ .environment connection channel)
    (responds : Responds host connection)
    (inserted : ∀ session present,
      (host.conns connection).main = .serving session (.answering present) →
        Inserted host.pool (registrationOf connection connect))
    (greeted : (host.conns connection).main ≠ .waiting) :
    Welcomed next connection connect where
  joined := kept_of_step joined_kept stepped welcomed.joined
  inserts := kept_of_step preserves_inserts stepped welcomed.inserts
  answered := by
    intro connack sent
    rcases connack_of_step stepped undisturbed responds sent with
      before | ⟨session, at_, accepted⟩ | ⟨read, auth, rfl, _⟩
    · exact (welcomed.answered connack before).imp_right
        (kept_of_step preserves_inserted stepped)
    · exact ⟨accepted, kept_of_step preserves_inserted stepped (inserted session _ at_)⟩
    · -- a handler reads the first packet once
      exact absurd (waiting_of_connect stepped) greeted

/-- A refusal bears a code that says so. -/
theorem code_of_refused {safety : MqttSafety} {auth : AuthResult} {read : FirstRead}
    {code : ConnackReturnCode} (built : auth.Built)
    (refused : admission safety connection auth read = .refused code) : code ≠ .accepted := by
  unfold admission at refused
  split at refused
  case h_3 =>
    split at refused
    · cases refused
      decide
    · split at refused
      · contradiction
      · rename_i rejected
        cases refused
        rcases built with rfl | ⟨code, isError, rfl⟩
        · exact absurd rfl rejected
        · exact isError
  all_goals contradiction

/-- A handler takes its first packet. -/
theorem stands_of_connect {readable : ConnectPacket → Prop} {read : FirstRead}
    {auth : AuthResult} (waiting : (host.conns connection).main = .waiting)
    (stands : Stands host connection readable .waiting)
    (stepped : host.step config (.act connection (.connect read auth)) = some next)
    (responds : Responds host connection) (built : auth.Built)
    (known : ∀ connect, read = .packet (.connect connect) → readable connect) :
    Stands next connection readable (next.conns connection).main := by
  obtain ⟨unjoined, silent⟩ := stands
  have sent : ∀ connack, .connack connack ∈ (next.pool.broker.channels connection).sent →
      admission config.safety connection auth read = .refused connack.returnCode := by
    intro connack mem
    rcases connack_of_step stepped (by simp) responds mem with
      before | ⟨session, at_, _⟩ | ⟨_, _, same, refused⟩
    · exact absurd before (silent connack)
    · rw [waiting] at at_
      cases at_
    · cases same
      exact refused
  obtain ⟨⟨result, after⟩, acted, rfl⟩ := Option.map_eq_some_iff.mp stepped
  rw [Host.conns_acted_self]
  cases acts_of_act acted with
  | failed _ fails =>
      cases fails with
      | unread failed =>
          refine .inl ⟨unjoined, fun connack mem => ?_⟩
          cases (sent connack mem).symm.trans failed
  | refused _ refused =>
      refine .inl ⟨unjoined, fun connack mem => ?_⟩
      cases (sent connack mem).symm.trans refused
      exact ⟨code_of_refused built refused, rfl⟩
  | admitted _ admitted invoked =>
      obtain ⟨connect, rfl, rfl, rfl, _⟩ := eq_of_admitted admitted
      obtain ⟨call, _, opened, rfl⟩ := invoke_eq_some invoked
      obtain ⟨_, _, rfl⟩ := Pool.opening_register opened
      refine ⟨connect, known connect rfl, ⟨?_, ?_, fun connack mem => ?_⟩, rfl,
        fun differs => absurd rfl differs⟩
      · exact Function.update_self _ _ _
      · exact .inr ⟨_, Table.lookup_insert.trans (if_pos rfl), .remove, by simp⟩
      · cases (sent connack mem).symm.trans admitted
  | left _ leaves => cases leaves

/-- Without a first packet nobody joins, and without a handler that serves no CONNACK is
sent. -/
theorem silent_of_step (stepped : host.step config event = some next)
    (undisturbed : ∀ channel, event ≠ .environment connection channel)
    (responds : Responds host connection)
    (idle : ∀ session phase, (host.conns connection).main ≠ .serving session phase)
    (other : ∀ read auth, event ≠ .act connection (.connect read auth)) :
    (host.pool.joined connection = none → next.pool.joined connection = none) ∧
      ∀ connack, .connack connack ∈ (next.pool.broker.channels connection).sent →
        .connack connack ∈ (host.pool.broker.channels connection).sent := by
  refine ⟨fun unjoined => ?_, fun connack sent => ?_⟩
  · refine Option.eq_none_iff_forall_ne_some.mpr fun registration joined => ?_
    rcases joined_of_step stepped joined with before | ⟨connect, auth, same, _⟩
    · rw [unjoined] at before
      cases before
    · exact other _ _ same
  · rcases connack_of_step stepped undisturbed responds sent with
      before | ⟨session, at_, _⟩ | ⟨read, auth, same, _⟩
    · exact before
    · exact absurd at_ (idle _ _)
    · exact absurd same (other _ _)

/-- How a handler that is waiting goes on without a first packet. -/
theorem main_of_waiting {pool after : Pool} {conn result : Conn} {action : Server.Action}
    (acts : Acts config pool connection conn action result after) (at_ : conn.main = .waiting)
    (other : ∀ read auth, action ≠ .connect read auth) :
    result.main = .waiting ∨ ∃ outcome, result.main = .returned outcome := by
  cases acts with
  | failed | refused => exact .inr ⟨_, rfl⟩
  | admitted => exact absurd rfl (other _ _)
  | crashed => exact .inl at_
  | registered at' | accepted at' | unanswered at' | withdrawn at' | polled at' | left at'
  | dispatched at' | subscribe at' | subscribed at' | unsubscribe at' | unsubscribed at'
  | responded at' | dropped at' | closed at' | joined at' | unregistered at' | took at'
  | drained at' | fanned at' | suppressed at' | published at' =>
      rw [at'] at at_
      cases at_

/-- A registration that has returned has inserted its entry. -/
theorem inserted_of_resume {registration : Registration} {response : Response} {after : Pool}
    (inserts : Inserts connection registration host.pool)
    (resumed : resume host.pool (.handler connection) = some (response, after)) :
    Inserted host.pool registration := by
  rcases inserts with inserted | ⟨call, running, _, unfinished⟩
  · exact inserted
  · obtain ⟨request, returned, _⟩ := resume_eq_some resumed
    cases running.symm.trans returned
    exact absurd rfl (unfinished _)

/-- Every step of the host leaves a connection where it can stand. -/
theorem stands_of_step {readable : ConnectPacket → Prop}
    (stands : Stands host connection readable (host.conns connection).main)
    (stepped : host.step config event = some next)
    (undisturbed : ∀ channel, event ≠ .environment connection channel)
    (responds : Responds host connection)
    (first : ∀ read auth, event = .act connection (.connect read auth) →
      auth.Built ∧ ∀ connect, read = .packet (.connect connect) → readable connect) :
    Stands next connection readable (next.conns connection).main := by
  have steps := (Host.steps_of_step stepped).conns connection
  cases at_ : (host.conns connection).main with
  | waiting =>
      rw [at_] at stands
      by_cases isFirst : ∃ read auth, event = .act connection (.connect read auth)
      · obtain ⟨read, auth, rfl⟩ := isFirst
        obtain ⟨built, known⟩ := first read auth rfl
        exact stands_of_connect at_ stands stepped responds built known
      · have other : ∀ read auth, event ≠ .act connection (.connect read auth) :=
          fun read auth same => isFirst ⟨read, auth, same⟩
        obtain ⟨unjoined, silent⟩ := silent_of_step stepped undisturbed responds
          (by simp [at_]) other
        have after : Stands next connection readable .waiting :=
          ⟨unjoined stands.1, fun connack sent => stands.2 connack (silent connack sent)⟩
        have main : (next.conns connection).main = .waiting ∨
            ∃ outcome, (next.conns connection).main = .returned outcome := by
          rcases steps with unchanged | ⟨action, rfl, acts⟩
          · exact .inl (unchanged ▸ at_)
          · refine main_of_waiting acts at_ ?_
            rintro read auth rfl
            exact other read auth rfl
        rcases main with main | ⟨outcome, main⟩ <;> rw [main]
        · exact after
        · exact .inl ⟨after.1, fun connack sent => absurd sent (after.2 connack)⟩
  | serving session phase =>
      rw [at_] at stands
      obtain ⟨connect, read, welcomed, same, inserted⟩ := stands
      have later : Welcomed next connection connect := by
        refine welcomed.step stepped undisturbed responds (fun session present answering => ?_)
          (by simp [at_])
        cases at_.symm.trans answering
        exact inserted (by simp)
      rcases steps with unchanged | ⟨action, rfl, acts⟩
      · rw [unchanged, at_]
        exact ⟨connect, read, later, same, fun registered =>
          kept_of_step preserves_inserted stepped (inserted registered)⟩
      · rcases main_of_acts acts at_ with ⟨phase', main, registers⟩ | ⟨outcome, main⟩
        · rw [main]
          refine ⟨connect, read, later, same, fun registered => ?_⟩
          refine kept_of_step preserves_inserted stepped ?_
          by_cases registering : phase = .registering
          · rcases registers registering with still | ⟨present, resumed⟩
            · exact absurd still registered
            · exact inserted_of_resume welcomed.inserts resumed
          · exact inserted registering
        · rw [main]
          exact .inr ⟨connect, read, later⟩
  | returned outcome =>
      rw [at_] at stands
      have other : ∀ read auth, event ≠ .act connection (.connect read auth) := by
        rintro read auth rfl
        rw [waiting_of_connect stepped] at at_
        cases at_
      have main : (next.conns connection).main = .returned outcome := by
        rcases steps with unchanged | ⟨action, _, acts⟩
        · exact unchanged ▸ at_
        · exact main_of_returned acts at_
      rw [main]
      rcases stands with dismissed | ⟨connect, read, welcomed⟩
      · obtain ⟨unjoined, silent⟩ := silent_of_step stepped undisturbed responds
          (by simp [at_]) other
        exact .inl ⟨unjoined dismissed.unjoined,
          fun connack sent => dismissed.answered connack (silent connack sent)⟩
      · exact .inr ⟨connect, read,
          welcomed.step stepped undisturbed responds (by simp [at_]) (by simp [at_])⟩

end Server

end HotaruMqtt.Network
