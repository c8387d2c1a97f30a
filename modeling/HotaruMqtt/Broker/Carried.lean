import HotaruMqtt.Broker.Stages

/-!
# What calls carry to be published

A packet is published by a call that was asked to, and a Will by the call that
ends its session: the one that unregisters it or the one that takes over from it.
If what calls are asked for meets a demand, then so does everything that is
published, since nothing else is ever carried along.

Beside that, a `subscribe` answers with one code for each filter.
-/

namespace HotaruMqtt.Broker

open Exec Exec.Transition

section Carries

variable (message : PublishPacket → Prop)

/-- The Will, if there is one, meets the demand. -/
def WillMeets (will : Option WillMessage) : Prop :=
  ∀ last ∈ will, message (willPacket last)

/-- The Will that a call still has to store or to publish meets the demand. -/
def Next.Carries : Next → Prop
  | .clear registration _ | .store registration _ => WillMeets message registration.will
  | .lastWill _ will _ => WillMeets message will
  | .finish => True

/-- Everything that a call may come to publish or to store meets the demand. -/
def Call.Carries : Call → Prop
  | .remove registration | .store registration _ => WillMeets message registration.will
  | .close registration previous =>
      WillMeets message registration.will ∧ WillMeets message previous.will
  | .wipe _ next | .sweep _ _ _ next => next.Carries message
  | .snapshot publication next | .fanout publication _ next
  | .enqueue publication _ _ _ _ next => message publication.packet ∧ next.Carries message
  | _ => True

/-- What a call is asked to publish, and the Will it is to register, meet the demand. -/
def Request.Carries : Request → Prop
  | .register registration => WillMeets message registration.will
  | .publish publication => message publication.packet
  | _ => True

/-- The Wills that the session entries keep meet the demand. -/
def EntriesCarry (sessions : Table ClientId SubscriberEntry) : Prop :=
  ∀ client entry, sessions.lookup client = some entry → WillMeets message entry.will

end Carries

variable {message : PublishPacket → Prop} {broker : Broker} {call after : Call} {access : Access}

/-! ## One move -/

theorem Next.Carries.resume {next : Next} (carries : next.Carries message) :
    next.resume.Carries message := by
  cases next with
  | clear registration present =>
      simp only [Next.resume]
      split <;> exact carries
  | store registration present => exact carries
  | lastWill connection will graceful =>
      cases will with
      | none => trivial
      | some last =>
          cases graceful with
          | true => trivial
          | false => exact ⟨carries last rfl, trivial⟩
  | finish => trivial

theorem Call.carries_publishWill {connection : ConnectionId} {next : Next}
    {will : Option WillMessage} (carries : next.Carries message)
    (meets : WillMeets message will) : (Call.publishWill connection next will).Carries message := by
  cases will with
  | none => exact carries.resume
  | some last => exact ⟨meets last rfl, carries⟩

/-- A move carries nothing new but the Will of an entry it takes. -/
theorem Call.Carries.move (carries : call.Carries message)
    (entries : EntriesCarry message broker.sessions)
    (moves : Call.Moves broker call access after) : after.Carries message := by
  cases moves with
  | removeFound found => exact ⟨carries, entries _ _ found⟩
  | removeVacant _ => exact Next.Carries.resume carries
  | close => exact Call.carries_publishWill carries.1 carries.2
  | wipe | visit => exact carries
  | swept => exact Next.Carries.resume carries
  | removeOwn own => exact entries _ _ (ownEntry_eq_some.mp own).1
  | snapshot _ | skip _ | found _ _ | enqueue => exact carries
  | fanned => exact Next.Carries.resume carries.2
  | store | removeNothing _ | subscribeFound _ | subscribeRefused _ | grantValid | grantInvalid
  | granted | openFilter | link | unsubscribeFound _ | unsubscribeRefused _ | forget | revoked
  | unlink => trivial

/-- What is stored and delivered is what the call carries. -/
theorem EntriesCarry.apply {shared : Shared} (carries : call.Carries message)
    (entries : EntriesCarry message shared.broker.sessions)
    (moves : Call.Moves shared.broker call access after) :
    EntriesCarry message (shared.apply access).broker.sessions := by
  intro client entry found
  have kept : ∀ changed change, (shared.broker.withFilters changed change).sessions.lookup client =
      some entry → WillMeets message entry.will := by
    intro changed change found
    unfold withFilters at found
    split at found
    · exact entries client entry found
    · rename_i previous held
      rcases Table.lookup_insert_eq_some.mp found with ⟨rfl, rfl⟩ | ⟨_, found⟩
      · exact entries _ previous held
      · exact entries client entry found
  cases moves with
  | removeFound | removeVacant | removeOwn =>
      exact entries client entry (Table.lookup_erase_eq_some.mp found).2
  | store =>
      rcases Table.lookup_insert_eq_some.mp found with ⟨_, rfl⟩ | ⟨_, found⟩
      · exact carries
      · exact entries client entry found
  | grantValid => exact kept _ _ found
  | forget => exact kept _ _ found
  | enqueue =>
      rw [Shared.apply, (enqueued_enqueue _ _ _ _ _).sessions] at found
      exact entries client entry found
  | _ => exact entries client entry found

theorem message_of_deliver {publication : Publication} {target : ConnectionId} {subQos : QoS}
    (carries : call.Carries message)
    (moves : Call.Moves broker call (.deliver publication target subQos) after) :
    message publication.packet := by
  cases moves
  exact carries.1

/-! ## How many codes a subscribe answers with -/

/-- The number of codes a call of `subscribe` returns in the end. -/
def Call.answers : Call → Option Nat
  | .findSubscribe _ _ filters => some filters.length
  | .grant _ _ codes rest => some (codes.length + rest.length)
  | .openFilter _ _ codes _ rest | .link _ _ codes _ rest =>
      some (codes.length + 1 + rest.length)
  | .returned (.subscribed codes) => some codes.length
  | _ => none

theorem Call.Moves.answers {count : Nat} (moves : Call.Moves broker call access after)
    (answers : call.answers = some count) : after.answers = some count := by
  cases moves <;> simp only [Call.answers, reduceCtorEq] at answers
  all_goals
    rw [← answers]
    simp [Call.answers]
    try omega

namespace Pool

variable {pool next : Pool} {event : Event}

/-- Every call of `subscribe` answers with one code for each filter. -/
def AnswersEach (pool : Pool) : Prop :=
  ∀ ⦃task filters call⦄, pool.calls.lookup task = some ⟨.subscribe filters, call⟩ →
    call.answers = some filters.length

theorem opening_subscribe {task : Task} {filters : List TopicFilter} {call : Call}
    (opened : pool.opening task (.subscribe filters) = some call) :
    call.answers = some filters.length := by
  cases task with
  | worker connection => simp [opening] at opened
  | handler connection =>
      obtain ⟨registration, _, rfl⟩ := Option.map_eq_some_iff.mp opened
      rfl

theorem AnswersEach.step (answers : pool.AnswersEach) (steps : Steps pool event next) :
    next.AnswersEach := by
  intro other filters call found
  cases steps with
  | invoke idle opened =>
      rcases Table.lookup_insert_eq_some.mp found with ⟨rfl, same⟩ | ⟨_, found⟩
      · cases same
        exact opening_subscribe opened
      · exact answers found
  | advance running unblocked stepped =>
      rcases Table.lookup_insert_eq_some.mp found with ⟨rfl, same⟩ | ⟨_, found⟩
      · cases same
        exact (Call.moves_of_step stepped).answers (answers running)
      · exact answers found
  | conclude => exact answers (Table.lookup_erase_eq_some.mp found).2
  | environment => exact answers found

/-! ## The whole pool -/

/-- All that is carried meets the demand. -/
structure Carries (message : PublishPacket → Prop) (pool : Pool) : Prop where
  calls : ∀ ⦃task running⦄, pool.calls.lookup task = some running → running.call.Carries message
  entries : EntriesCarry message pool.broker.sessions

theorem Carries.new (channels : ConnectionId → MqttChannel) :
    (Pool.new channels).Carries message where
  calls _ _ found := by cases found
  entries _ _ found := by cases found

theorem carries_opening {task : Task} {request : Request} {call : Call}
    (carries : request.Carries message) (opened : pool.opening task request = some call) :
    call.Carries message := by
  cases request with
  | register registration =>
      rcases opening_register opened with ⟨_, _, rfl⟩
      exact carries
  | publish publication =>
      cases task <;> simp only [opening, reduceCtorEq, Option.some.injEq] at opened
      subst opened
      exact ⟨carries, trivial⟩
  | unregister _ | subscribe _ | unsubscribe _ =>
      cases opens_of_opening opened with
      | snapshot => cases task <;> simp [opening] at opened
      | remove => cases task <;> simp [opening] at opened
      | removeIf | findSubscribe | findUnsubscribe => trivial

theorem Carries.step (carries : pool.Carries message) (steps : Steps pool event next)
    (asked : ∀ task request, event = .invoke task request → request.Carries message) :
    next.Carries message := by
  cases steps with
  | invoke idle opened =>
      refine ⟨fun other running found => ?_, carries.entries⟩
      rcases Table.lookup_insert_eq_some.mp found with ⟨rfl, rfl⟩ | ⟨_, found⟩
      · exact carries_opening (asked _ _ rfl) opened
      · exact carries.calls found
  | advance running unblocked stepped =>
      have moves := Call.moves_of_step stepped
      refine ⟨fun other running found => ?_, carries.entries.apply (carries.calls running) moves⟩
      rcases Table.lookup_insert_eq_some.mp found with ⟨rfl, rfl⟩ | ⟨_, found⟩
      · exact (carries.calls ‹_›).move carries.entries moves
      · exact carries.calls found
  | conclude =>
      exact ⟨fun other running found => carries.calls (Table.lookup_erase_eq_some.mp found).2,
        carries.entries⟩
  | environment => exact ⟨carries.calls, carries.entries⟩

end Pool

end HotaruMqtt.Broker
