import HotaruMqtt.Broker.Stages

/-!
# Overlapping takeovers

Any number of connections register under one client identifier, on channels that
are open and that the broker does not know yet.  A registration removes the entry
it finds, closes its channel, and later inserts its own.  Where two registrations
overlap, the second insertion replaces an entry that nobody has removed, and the
channel of that entry is closed by nobody.
-/

namespace HotaruMqtt.Broker

open Exec Exec.Transition

/-- The calls are registrations of the client, each on a channel that is open and
unknown to the broker at the start. -/
def Registers (broker : Broker) (client : ClientId) (_ : Pool) : Pool.Event → Prop
  | .invoke _ (.register registration) =>
      registration.client = client ∧ (broker.channels registration.connection).isOpen = true ∧
        ∀ other ∈ broker.sessions.keys, broker.owner other ≠ some registration.connection
  | .advance _ _ => True
  | .conclude _ => True
  | _ => False

instance (broker : Broker) (client : ClientId) (pool : Pool) :
    (event : Pool.Event) → Decidable (Registers broker client pool event)
  | .invoke _ (.register registration) =>
      inferInstanceAs (Decidable (registration.client = client ∧
        (broker.channels registration.connection).isOpen = true ∧
        ∀ other ∈ broker.sessions.keys, broker.owner other ≠ some registration.connection))
  | .invoke _ (.unregister _) => inferInstanceAs (Decidable False)
  | .invoke _ (.subscribe _) => inferInstanceAs (Decidable False)
  | .invoke _ (.unsubscribe _) => inferInstanceAs (Decidable False)
  | .invoke _ (.publish _) => inferInstanceAs (Decidable False)
  | .advance _ _ => inferInstanceAs (Decidable True)
  | .conclude _ => inferInstanceAs (Decidable True)
  | .environment _ _ => inferInstanceAs (Decidable False)

/-- An entry is inserted only where there is none. -/
def StoresVacant (pool : Pool) : Pool.Event → Prop
  | .advance task _ => ∀ running ∈ pool.calls.lookup task,
      ∀ registration ∈ running.call.stores, pool.broker.owner registration.client = none
  | _ => True

instance (pool : Pool) : (event : Pool.Event) → Decidable (StoresVacant pool event)
  | .advance task _ => inferInstanceAs (Decidable (∀ running ∈ pool.calls.lookup task,
      ∀ registration ∈ running.call.stores, pool.broker.owner registration.client = none))
  | .invoke _ _ => inferInstanceAs (Decidable True)
  | .conclude _ => inferInstanceAs (Decidable True)
  | .environment _ _ => inferInstanceAs (Decidable True)

namespace Pool

/-- A registration has removed the entry of the connection and closes its channel
next. -/
def Closing (pool : Pool) (connection : ConnectionId) : Prop :=
  ∃ task request registration previous, previous.connection = connection ∧
    pool.calls.lookup task = some ⟨request, .close registration previous⟩

/-- The channel of a connection is open. -/
def isOpen (pool : Pool) (connection : ConnectionId) : Bool :=
  (pool.broker.channels connection).isOpen

/-- The channel is the one that is stored for the client, or is closed. -/
def StoredOrClosed (pool : Pool) (client : ClientId) (connection : ConnectionId) : Prop :=
  pool.broker.owner client = some connection ∨ pool.isOpen connection = false

end Pool

/-- The broker at the start does not know the connection, whose channel is open. -/
def Fresh (broker : Broker) (connection : ConnectionId) : Prop :=
  (broker.channels connection).isOpen = true ∧ ∀ client, broker.owner client ≠ some connection

/-- What holds while registrations of one client run. -/
structure Overtaking (broker : Broker) (client : ClientId) (pool : Pool) : Prop extends
    pool.Ordered where
  asked : ∀ ⦃task running⦄, pool.calls.lookup task = some running →
    ∃ registration, running.request = .register registration
  fresh : ∀ ⦃connection registration⦄, pool.joined connection = some registration →
    registration.client = client ∧ Fresh broker connection
  unowned : ∀ ⦃connection⦄, pool.Registering connection →
    pool.broker.owner client ≠ some connection
  /-- Until its entry is removed, nobody closes the channel of a connection. -/
  live : ∀ ⦃connection⦄, Fresh broker connection →
    pool.joined connection = none ∨ pool.Registering connection ∨
      pool.broker.owner client = some connection →
    pool.isOpen connection = true ∧ ¬pool.Closing connection
  /-- The entry that was there at the start is there until a registration moves. -/
  known : ∀ ⦃connection⦄, pool.broker.owner client = some connection →
    pool.joined connection ≠ none ∨
      broker.owner client = some connection ∧
        ∀ task running, pool.calls.lookup task = some running →
          ∃ registration, running.call = .remove registration

variable {broker : Broker} {client : ClientId} {pool next : Pool} {event : Pool.Event}
  {task : Task} {request : Request} {call after : Call} {access : Access}
  {connection : ConnectionId} {registration : Registration}

/-- Every registration is one of the client. -/
theorem Overtaking.client_of_remove (overtaking : Overtaking broker client pool)
    (running : pool.calls.lookup task = some ⟨request, .remove registration⟩) :
    registration.client = client := by
  rcases overtaking.handled running nofun nofun with ⟨joined, rfl, found, stage⟩
  cases stage with
  | remove => exact (overtaking.fresh found).1
  | takeOver publishes | lastWill publishes => cases publishes

/-! ## What a move changes -/

section Moved

variable (running : pool.calls.lookup task = some ⟨request, call⟩)
  (moves : Call.Moves pool.broker call access after)

include running moves

/-- A channel comes to be closed when its entry is removed. -/
theorem closing_of_moved (overtaking : Overtaking broker client pool)
    (closing : (pool.moved task request access after).Closing connection) :
    pool.Closing connection ∨
      access = .take client ∧ pool.broker.owner client = some connection := by
  rcases closing with ⟨closer, asked, registration, previous, rfl, found⟩
  rcases Table.lookup_insert_eq_some.mp found with ⟨rfl, same⟩ | ⟨-, found⟩
  · cases same
    rcases moves.closing rfl with ⟨rfl, rfl, owned⟩
    cases overtaking.client_of_remove running
    exact .inr ⟨rfl, owned⟩
  · exact .inl ⟨closer, asked, registration, previous, rfl, found⟩

theorem isOpen_moved_of_not_closing (untouched : ¬pool.Closing connection) :
    (pool.moved task request access after).isOpen connection = pool.isOpen connection := by
  refine (isOpen_apply _ _ _).trans ?_
  cases access with
  | close closed =>
      cases moves
      rw [Access.onOpen, Function.update_of_ne]
      · rfl
      · rintro rfl
        exact untouched ⟨task, request, _, _, rfl, running⟩
  | _ => rfl

end Moved

/-! ## What a beginning or ending call changes -/

theorem closing_of_begun (opened : pool.opening task request = some call)
    (closing : (pool.begun task request call).Closing connection) : pool.Closing connection := by
  rcases closing with ⟨closer, asked, registration, previous, rfl, found⟩
  rcases Table.lookup_insert_eq_some.mp found with ⟨rfl, same⟩ | ⟨-, found⟩
  · cases same
    cases Pool.opens_of_opening opened
  · exact ⟨closer, asked, registration, previous, rfl, found⟩

theorem closing_of_concluded {response : Response}
    (closing : (pool.concluded task request response).Closing connection) :
    pool.Closing connection := by
  rcases closing with ⟨closer, asked, registration, previous, rfl, found⟩
  exact ⟨closer, asked, registration, previous, rfl, (Table.lookup_erase_eq_some.mp found).2⟩

namespace Overtaking

theorem around (broker : Broker) (client : ClientId) :
    Overtaking broker client (.around broker) where
  toOrdered := .around broker
  asked task running found := by cases found
  fresh connection registration found := by cases found
  unowned connection busy := by
    rcases busy with ⟨registration, call, -, found⟩
    cases found
  live connection fresh _ := by
    refine ⟨fresh.1, ?_⟩
    rintro ⟨task, request, registration, previous, -, found⟩
    cases found
  known connection owned := .inr ⟨owned, fun task running found => by cases found⟩

/-- Only a connection that is registering or has joined owns the client later. -/
theorem unowned_of_fresh (overtaking : Overtaking broker client pool)
    (unused : pool.joined connection = none) (fresh : Fresh broker connection) :
    pool.broker.owner client ≠ some connection := by
  intro owned
  rcases overtaking.known owned with joined | ⟨owned, -⟩
  · exact joined unused
  · exact fresh.2 client owned

theorem begun (overtaking : Overtaking broker client pool)
    (opened : pool.opening task (.register registration) = some call)
    (named : registration.client = client) (fresh : Fresh broker registration.connection)
    (ordered : (pool.begun task (.register registration) call).Ordered) :
    Overtaking broker client (pool.begun task (.register registration) call) := by
  rcases Pool.opening_register opened with ⟨rfl, unused, rfl⟩
  exact {
    toOrdered := ordered
    asked := fun other running found => by
      rcases Table.lookup_insert_eq_some.mp found with ⟨rfl, rfl⟩ | ⟨-, found⟩
      · exact ⟨registration, rfl⟩
      · exact overtaking.asked found
    fresh := fun connection joining found => by
      simp only [Pool.begun, Pool.joinedBy, Function.update_apply] at found
      split at found
      · rename_i same
        cases found
        rw [same]
        exact ⟨named, fresh⟩
      · exact overtaking.fresh found
    unowned := fun connection busy => by
      rcases Pool.registering_of_begun busy with busy | ⟨same, -⟩
      · exact overtaking.unowned busy
      · cases same
        exact overtaking.unowned_of_fresh unused fresh
    live := fun connection freshly state => by
      have before : pool.joined connection = none ∨ pool.Registering connection ∨
          pool.broker.owner client = some connection := by
        rcases state with unjoined | busy | owned
        · exact .inl (Pool.joined_eq_none_of_begun unjoined)
        · rcases Pool.registering_of_begun busy with busy | ⟨same, -⟩
          · exact .inr (.inl busy)
          · cases same
            exact .inl unused
        · exact .inr (.inr owned)
      rcases overtaking.live freshly before with ⟨isOpen, untouched⟩
      exact ⟨isOpen, fun closing => untouched (closing_of_begun opened closing)⟩
    known := fun connection owned => by
      rcases overtaking.known owned with joined | ⟨owned, unmoved⟩
      · exact .inl fun unjoined => joined (Pool.joined_eq_none_of_begun unjoined)
      · refine .inr ⟨owned, fun other running found => ?_⟩
        rcases Table.lookup_insert_eq_some.mp found with ⟨rfl, rfl⟩ | ⟨-, found⟩
        · exact ⟨registration, rfl⟩
        · exact unmoved other running found }

theorem moved (overtaking : Overtaking broker client pool)
    (running : pool.calls.lookup task = some ⟨request, call⟩)
    (moves : Call.Moves pool.broker call access after)
    (ordered : (pool.moved task request access after).Ordered) :
    Overtaking broker client (pool.moved task request access after) where
  toOrdered := ordered
  asked other current found := by
    rcases Table.lookup_insert_eq_some.mp found with ⟨rfl, rfl⟩ | ⟨-, found⟩
    · rcases overtaking.asked running with ⟨registration, same⟩
      exact ⟨registration, same⟩
    · exact overtaking.asked found
  fresh := overtaking.fresh
  unowned connection busy owned := by
    have before := overtaking.unowned (Pool.registering_of_moved running moves busy)
    rw [Pool.broker, Pool.moved, owner_apply] at owned
    rcases Access.onOwner_eq_some owned with owned | ⟨registration, rfl, -, rfl⟩
    · exact before owned
    · -- A registration that has inserted its entry is over.
      rcases overtaking.storing running moves with ⟨rfl, -, -, present, -, rfl⟩
      rcases busy with ⟨earlier, current, unfinished, found⟩
      rcases Table.lookup_insert_eq_some.mp found with ⟨-, same⟩ | ⟨differs, -⟩
      · cases same
        exact unfinished _ rfl
      · exact differs rfl
  live connection fresh state := by
    have before : pool.joined connection = none ∨ pool.Registering connection ∨
        pool.broker.owner client = some connection := by
      rcases state with unjoined | busy | owned
      · exact .inl unjoined
      · exact .inr (.inl (Pool.registering_of_moved running moves busy))
      · exact .inr (Pool.owner_of_moved running moves overtaking.toOrdered owned).symm
    rcases overtaking.live fresh before with ⟨isOpen, untouched⟩
    rw [isOpen_moved_of_not_closing running moves untouched]
    refine ⟨isOpen, fun closing => ?_⟩
    rcases closing_of_moved running moves overtaking closing with closing | ⟨rfl, owned⟩
    · exact untouched closing
    · rcases state with unjoined | busy | stillOwned
      · exact overtaking.unowned_of_fresh unjoined fresh owned
      · exact overtaking.unowned (Pool.registering_of_moved running moves busy) owned
      · rw [Pool.broker, Pool.moved, owner_apply, Access.onOwner,
          Function.update_self] at stillOwned
        contradiction
  known connection owned := by
    rcases Pool.owner_of_moved running moves overtaking.toOrdered owned with before | busy
    · rcases overtaking.known before with joined | ⟨-, unmoved⟩
      · exact .inl joined
      · -- The first move of a registration removes the entry.
        rcases unmoved _ _ running with ⟨registration, removes⟩
        cases removes
        cases overtaking.client_of_remove running
        have taken : access = .take registration.client := by cases moves <;> rfl
        rw [Pool.broker, Pool.moved, owner_apply, taken, Access.onOwner,
          Function.update_self] at owned
        contradiction
    · rcases busy with ⟨registration, current, -, found⟩
      rcases overtaking.stage found with ⟨joined, isJoined, -⟩
      refine .inl fun unjoined => ?_
      rw [Pool.moved, isJoined] at unjoined
      contradiction

theorem concluded (overtaking : Overtaking broker client pool) {response : Response}
    (ordered : (pool.concluded task request response).Ordered) :
    Overtaking broker client (pool.concluded task request response) where
  toOrdered := ordered
  asked _ _ found := overtaking.asked (Table.lookup_erase_eq_some.mp found).2
  fresh := overtaking.fresh
  unowned _ busy := overtaking.unowned (Pool.registering_of_concluded busy)
  live connection fresh state := by
    have before : pool.joined connection = none ∨ pool.Registering connection ∨
        pool.broker.owner client = some connection := by
      rcases state with unjoined | busy | owned
      · exact .inl unjoined
      · exact .inr (.inl (Pool.registering_of_concluded busy))
      · exact .inr (.inr owned)
    rcases overtaking.live fresh before with ⟨isOpen, untouched⟩
    exact ⟨isOpen, fun closing => untouched (closing_of_concluded closing)⟩
  known connection owned := by
    rcases overtaking.known owned with joined | ⟨owned, unmoved⟩
    · exact .inl joined
    · exact .inr ⟨owned, fun other running found =>
        unmoved other running (Table.lookup_erase_eq_some.mp found).2⟩

theorem fresh_of_registers
    (unknown : ∀ other ∈ broker.sessions.keys, broker.owner other ≠ some connection)
    (isOpen : (broker.channels connection).isOpen = true) : Fresh broker connection := by
  refine ⟨isOpen, fun other owned => ?_⟩
  refine unknown other ?_ owned
  by_contra missing
  rw [owner, AList.lookup_eq_none.mpr missing] at owned
  contradiction

theorem step (overtaking : Overtaking broker client pool)
    (met : Registers broker client pool event) (steps : Pool.Steps pool event next) :
    Overtaking broker client next := by
  have ordered := overtaking.toOrdered.step steps
  cases steps with
  | invoke idle opened =>
      rename_i task request call
      cases request with
      | register registration =>
          rcases met with ⟨named, isOpen, unknown⟩
          exact overtaking.begun opened named (fresh_of_registers unknown isOpen) ordered
      | unregister _ | subscribe _ | unsubscribe _ | publish _ => cases met
  | advance running unblocked stepped =>
      exact overtaking.moved running (Call.moves_of_step stepped) ordered
  | conclude running => exact overtaking.concluded ordered
  | environment => cases met

end Overtaking

/-! ## Where every insertion finds the place vacant -/

/-- Every connection that has joined is still registering, is stored, is closed, or
is about to be closed. -/
def Settled (client : ClientId) (pool : Pool) : Prop :=
  ∀ ⦃connection⦄, pool.joined connection ≠ none →
    pool.Registering connection ∨ pool.StoredOrClosed client connection ∨ pool.Closing connection

namespace Settled

theorem begun (settled : Settled client pool) (idle : pool.calls.lookup task = none)
    (opened : pool.opening task (.register registration) = some call) :
    Settled client (pool.begun task (.register registration) call) := by
  rcases Pool.opening_register opened with ⟨rfl, unused, rfl⟩
  intro connection joined
  by_cases same : connection = registration.connection
  · subst same
    exact .inl ⟨registration, .remove registration, nofun, AList.lookup_insert _⟩
  · have before : pool.joined connection ≠ none := by
      simpa [Pool.begun, Pool.joinedBy, same] using joined
    rcases settled before with ⟨earlier, current, unfinished, found⟩ | stored |
      ⟨closer, asked, closes, previous, own, found⟩
    · refine .inl ⟨earlier, current, unfinished, ?_⟩
      exact Table.lookup_insert_eq_some.mpr
        (.inr ⟨fun other => same (Task.handler.inj other), found⟩)
    · exact .inr (.inl stored)
    · refine .inr (.inr ⟨closer, asked, closes, previous, own, ?_⟩)
      refine Table.lookup_insert_eq_some.mpr (.inr ⟨?_, found⟩)
      rintro rfl
      rw [idle] at found
      contradiction

/-- A registration goes on, or has inserted its entry. -/
theorem registering_moved (ordered : pool.Ordered)
    (running : pool.calls.lookup task = some ⟨request, call⟩)
    (moves : Call.Moves pool.broker call access after)
    (fresh : ∀ ⦃registration⦄, pool.joined connection = some registration →
      registration.client = client)
    (busy : pool.Registering connection) :
    (pool.moved task request access after).Registering connection ∨
      (pool.moved task request access after).broker.owner client = some connection := by
  rcases busy with ⟨registration, current, unfinished, found⟩
  by_cases own : task = .handler connection
  · subst own
    rw [running] at found
    cases found
    by_cases finishes : ∃ response, after = .returned response
    · rcases finishes with ⟨response, rfl⟩
      rcases ordered.stage running with ⟨joined, isJoined, rfl, stage⟩
      have asked : registration = joined := by cases stage <;> rfl
      subst asked
      cases stage.storing_of_returned moves
      refine .inr ?_
      rw [Pool.broker, Pool.moved, owner_apply, Access.onOwner, ← fresh isJoined,
        Function.update_self]
    · exact .inl ⟨registration, after, fun response same => finishes ⟨response, same⟩,
        AList.lookup_insert _⟩
  · exact .inl ⟨registration, current, unfinished,
      Table.lookup_insert_eq_some.mpr (.inr ⟨Ne.symm own, found⟩)⟩

theorem closing_moved (running : pool.calls.lookup task = some ⟨request, call⟩)
    (moves : Call.Moves pool.broker call access after) (closing : pool.Closing connection) :
    (pool.moved task request access after).isOpen connection = false ∨
      (pool.moved task request access after).Closing connection := by
  rcases closing with ⟨closer, asked, registration, previous, rfl, found⟩
  by_cases own : closer = task
  · subst own
    rw [running] at found
    cases found
    cases moves
    refine .inl ((isOpen_apply _ _ _).trans ?_)
    rw [Access.onOpen, Function.update_self]
  · exact .inr ⟨closer, asked, registration, previous, rfl,
      Table.lookup_insert_eq_some.mpr (.inr ⟨own, found⟩)⟩

/-- The stored connection stays so, or its channel is closed next. -/
theorem owner_moved (overtaking : Overtaking broker client pool)
    (running : pool.calls.lookup task = some ⟨request, call⟩)
    (moves : Call.Moves pool.broker call access after)
    (vacant : ∀ registration, access = .store registration →
      pool.broker.owner registration.client = none)
    (owned : pool.broker.owner client = some connection) :
    (pool.moved task request access after).broker.owner client = some connection ∨
      (pool.moved task request access after).Closing connection := by
  by_cases needs : call.needs = some client
  · cases moves with
    | removeFound found =>
        cases needs
        rw [owner, found] at owned
        exact .inr ⟨task, request, _, _, Option.some.inj owned, AList.lookup_insert _⟩
    | removeVacant missing =>
        cases needs
        rw [owner, missing] at owned
        contradiction
    | store =>
        cases needs
        rw [vacant _ rfl] at owned
        contradiction
    | removeOwn | removeNothing =>
        -- Nobody unregisters here.
        rcases overtaking.asked running with ⟨registration, rfl⟩
        have asked := (overtaking.unregistering running).2.1
        contradiction
    | _ => contradiction
  · refine .inl ?_
    rw [Pool.broker, Pool.moved, owner_apply, moves.onOwner_of_needs_ne needs]
    exact owned

theorem moved (settled : Settled client pool) (overtaking : Overtaking broker client pool)
    (running : pool.calls.lookup task = some ⟨request, call⟩)
    (moves : Call.Moves pool.broker call access after)
    (vacant : ∀ registration, access = .store registration →
      pool.broker.owner registration.client = none) :
    Settled client (pool.moved task request access after) := by
  intro connection joined
  rcases settled joined with busy | (owned | closed) | closing
  · rcases registering_moved overtaking.toOrdered running moves
      (fun _ found => (overtaking.fresh found).1) busy with busy | owned
    · exact .inl busy
    · exact .inr (.inl (.inl owned))
  · rcases owner_moved overtaking running moves vacant owned with owned | closing
    · exact .inr (.inl (.inl owned))
    · exact .inr (.inr closing)
  · refine .inr (.inl (.inr ((isOpen_apply _ _ _).trans ?_)))
    cases access with
    | close other =>
        rw [Access.onOpen, Function.update_apply]
        split
        · rfl
        · exact closed
    | _ => exact closed
  · rcases closing_moved running moves closing with closed | closing
    · exact .inr (.inl (.inr closed))
    · exact .inr (.inr closing)

theorem concluded (settled : Settled client pool) {response : Response}
    (running : pool.calls.lookup task = some ⟨request, .returned response⟩) :
    Settled client (pool.concluded task request response) := by
  intro connection joined
  rcases settled joined with ⟨registration, current, unfinished, found⟩ | stored |
    ⟨closer, asked, registration, previous, own, found⟩
  · refine .inl ⟨registration, current, unfinished, Table.lookup_erase_eq_some.mpr ⟨?_, found⟩⟩
    rintro rfl
    rw [running] at found
    cases found
    exact unfinished _ rfl
  · exact .inr (.inl stored)
  · refine .inr (.inr ⟨closer, asked, registration, previous, own,
      Table.lookup_erase_eq_some.mpr ⟨?_, found⟩⟩)
    rintro rfl
    rw [running] at found
    cases found

theorem step (settled : Settled client pool) (overtaking : Overtaking broker client pool)
    (met : Registers broker client pool event) (vacant : StoresVacant pool event)
    (steps : Pool.Steps pool event next) : Settled client next := by
  cases steps with
  | invoke idle opened =>
      rename_i task request call
      cases request with
      | register registration => exact settled.begun idle opened
      | unregister _ | subscribe _ | unsubscribe _ | publish _ => cases met
  | advance running unblocked stepped =>
      have moves := Call.moves_of_step stepped
      refine settled.moved overtaking running moves ?_
      rintro registration rfl
      rcases overtaking.storing running moves with ⟨-, -, -, present, rfl, -⟩
      exact vacant _ running _ rfl
  | conclude running => exact settled.concluded running
  | environment => cases met

end Settled

/-! ## Where an insertion replaces an entry -/

/-- A connection that has registered and is neither stored nor closed, nor will be. -/
structure Lost (client : ClientId) (connection : ConnectionId) (pool : Pool) : Prop where
  joined : pool.joined connection ≠ none
  registered : ¬pool.Registering connection
  unowned : pool.broker.owner client ≠ some connection
  isOpen : pool.isOpen connection = true
  untouched : ¬pool.Closing connection

namespace Lost

theorem moved (lost : Lost client connection pool) (overtaking : Overtaking broker client pool)
    (running : pool.calls.lookup task = some ⟨request, call⟩)
    (moves : Call.Moves pool.broker call access after) :
    Lost client connection (pool.moved task request access after) where
  joined := lost.joined
  registered busy := lost.registered (Pool.registering_of_moved running moves busy)
  unowned owned := by
    rcases Pool.owner_of_moved running moves overtaking.toOrdered owned with owned | busy
    · exact lost.unowned owned
    · exact lost.registered busy
  isOpen := (isOpen_moved_of_not_closing running moves lost.untouched).trans lost.isOpen
  untouched closing := by
    rcases closing_of_moved running moves overtaking closing with closing | ⟨-, owned⟩
    · exact lost.untouched closing
    · exact lost.unowned owned

theorem step (lost : Lost client connection pool) (overtaking : Overtaking broker client pool)
    (met : Registers broker client pool event) (steps : Pool.Steps pool event next) :
    Lost client connection next := by
  cases steps with
  | invoke idle opened =>
      exact {
        joined := fun unused => lost.joined (Pool.joined_eq_none_of_begun unused)
        registered := fun busy => by
          rcases Pool.registering_of_begun busy with busy | ⟨rfl, registration, rfl⟩
          · exact lost.registered busy
          · -- A connection that has joined does not register again.
            rcases Pool.opening_register opened with ⟨same, unused, -⟩
            cases same
            exact lost.joined unused
        unowned := lost.unowned
        isOpen := lost.isOpen
        untouched := fun closing => lost.untouched (closing_of_begun opened closing) }
  | advance running unblocked stepped =>
      exact lost.moved overtaking running (Call.moves_of_step stepped)
  | conclude running =>
      exact ⟨lost.joined, fun busy => lost.registered (Pool.registering_of_concluded busy),
        lost.unowned, lost.isOpen, fun closing => lost.untouched (closing_of_concluded closing)⟩
  | environment => cases met

/-- An insertion that replaces an entry loses its connection. -/
theorem of_store (overtaking : Overtaking broker client pool) {present : Bool}
    (running : pool.calls.lookup task = some ⟨request, .store registration present⟩)
    (moves : Call.Moves pool.broker (.store registration present) access after)
    (owned : pool.broker.owner registration.client = some connection) :
    Lost client connection (pool.moved task request access after) := by
  have stores : access = .store registration := by cases moves; rfl
  subst stores
  rcases overtaking.storing running moves with ⟨rfl, rfl, found, -⟩
  rcases overtaking.fresh found with ⟨rfl, -⟩
  have storing : pool.Registering registration.connection :=
    ⟨registration, _, fun _ => by simp, running⟩
  have differs : connection ≠ registration.connection := by
    rintro rfl
    exact overtaking.unowned storing owned
  have joined : pool.joined connection ≠ none := by
    rcases overtaking.known owned with joined | ⟨-, unmoved⟩
    · exact joined
    · rcases unmoved _ _ running with ⟨earlier, removes⟩
      contradiction
  have fresh : Fresh broker connection := by
    rcases Option.ne_none_iff_exists'.mp joined with ⟨earlier, found⟩
    exact (overtaking.fresh found).2
  rcases overtaking.live fresh (.inr (.inr owned)) with ⟨isOpen, untouched⟩
  exact {
    joined := joined
    registered := fun busy =>
      overtaking.unowned (Pool.registering_of_moved running moves busy) owned
    unowned := fun stillOwned => by
      rw [Pool.broker, Pool.moved, owner_apply, Access.onOwner, Function.update_self] at stillOwned
      exact differs (Option.some.inj stillOwned).symm
    isOpen := (isOpen_moved_of_not_closing running moves untouched).trans isOpen
    untouched := fun closing => by
      rcases closing_of_moved running moves overtaking closing with closing | ⟨taken, -⟩
      · exact untouched closing
      · contradiction }

end Lost

/-- A run whose insertions do not all find the place vacant loses a connection. -/
theorem vacant_or_lost {events : List Pool.Event} {final : Pool}
    (run : Run Pool.step (Registers broker client) pool events final)
    (overtaking : Overtaking broker client pool) :
    Run Pool.step (fun pool event => Registers broker client pool event ∧ StoresVacant pool event)
        pool events final ∨
      ∃ connection, Lost client connection final := by
  induction run with
  | nil pool => exact .inl (.nil pool)
  | cons met moved rest ih =>
      rename_i pool middle final event events
      have steps := Pool.steps_of_step moved
      have later := overtaking.step met steps
      by_cases vacant : StoresVacant pool event
      · rcases ih later with run | lost
        · exact .inl (.cons ⟨met, vacant⟩ moved run)
        · exact .inr lost
      · -- The connection that is lost here stays lost to the end of the run.
        have lostHere : ∃ connection, Lost client connection middle := by
          cases steps with
          | advance running unblocked stepped =>
              simp only [StoresVacant, not_forall] at vacant
              rcases vacant with ⟨current, found, registration, stores, occupied⟩
              cases running.symm.trans found
              rcases Option.ne_none_iff_exists'.mp occupied with ⟨connection, owned⟩
              have moves := Call.moves_of_step stepped
              rename_i call after access
              cases call <;> try contradiction
              cases stores
              exact ⟨connection, .of_store overtaking running moves owned⟩
          | invoke | conclude | environment => exact absurd trivial vacant
        rcases lostHere with ⟨connection, lost⟩
        refine .inr ⟨connection, ?_⟩
        have stays : Preserves Pool.step (Registers broker client) fun pool =>
            Overtaking broker client pool ∧ Lost client connection pool := by
          intro pool event next holds met moved
          have steps := Pool.steps_of_step moved
          exact ⟨holds.1.step met steps, holds.2.step holds.1 met steps⟩
        exact (rest.invariant stays ⟨later, lost⟩).2

/-- Once all registrations of a client have returned, every channel but the stored
one is closed, exactly if every insertion found the place of the client vacant. -/
theorem takeover_closes_iff_storesVacant (broker : Broker) (client : ClientId)
    (events : List Pool.Event) (pool : Pool)
    (run : Run Pool.step (Registers broker client) (.around broker) events pool)
    (returned : pool.Idle) :
    (∀ connection, pool.joined connection ≠ none → pool.StoredOrClosed client connection) ↔
      Run Pool.step
        (fun pool event => Registers broker client pool event ∧ StoresVacant pool event)
        (.around broker) events pool := by
  have unregistering : ∀ connection, ¬pool.Registering connection := by
    rintro connection ⟨registration, call, -, found⟩
    rw [returned.lookup_eq_none] at found
    contradiction
  have unclosing : ∀ connection, ¬pool.Closing connection := by
    rintro connection ⟨task, request, registration, previous, -, found⟩
    rw [returned.lookup_eq_none] at found
    contradiction
  constructor
  · intro settled
    rcases vacant_or_lost run (.around broker client) with vacant | ⟨connection, lost⟩
    · exact vacant
    · rcases settled connection lost.joined with owned | closed
      · exact absurd owned lost.unowned
      · rw [lost.isOpen] at closed
        contradiction
  · intro vacant connection joined
    have stays : Preserves Pool.step
        (fun pool event => Registers broker client pool event ∧ StoresVacant pool event)
        fun pool => Overtaking broker client pool ∧ Settled client pool := by
      intro pool event next holds met moved
      have steps := Pool.steps_of_step moved
      exact ⟨holds.1.step met.1 steps, holds.2.step holds.1 met.1 met.2 steps⟩
    have settled := (vacant.invariant stays
      ⟨.around broker client, fun connection joined => absurd rfl joined⟩).2
    rcases settled joined with busy | stored | closing
    · exact absurd busy (unregistering connection)
    · exact stored
    · exact absurd closing (unclosing connection)

/-- Three registrations one after the other. -/
def takeoversInTurn : List Pool.Event :=
  Pool.callOf (.handler 1) (.register ⟨"c", 1, none, true⟩) 4 ++
    Pool.callOf (.handler 2) (.register ⟨"c", 2, none, false⟩) 3 ++
    Pool.callOf (.handler 3) (.register ⟨"c", 3, none, true⟩) 5

theorem takeover_closes_in_turn :
    let pool := replay Pool.step (.around (.new fun _ => .new)) takeoversInTurn
    pool.broker.owner "c" = some 3 ∧
      ∀ connection, pool.joined connection ≠ none → pool.StoredOrClosed "c" connection :=
  ⟨by decide +kernel,
    (takeover_closes_iff_storesVacant (.new fun _ => .new) "c" takeoversInTurn _
      (Follows.run (by decide +kernel)) (by decide +kernel)).mpr
      (Follows.run (by decide +kernel))⟩

/-- Two registrations: both remove before either inserts. -/
def takeoversAtOnce : List Pool.Event :=
  [.invoke (.handler 1) (.register ⟨"c", 1, none, false⟩), .advance (.handler 1) .go,
    .invoke (.handler 2) (.register ⟨"c", 2, none, false⟩), .advance (.handler 2) .go,
    .advance (.handler 1) .go, .conclude (.handler 1), .advance (.handler 2) .go,
    .conclude (.handler 2)]

/-- Both calls have returned, the second connection is stored, and the channel of the
first is open. -/
theorem takeover_leaves_channel_open :
    ∃ pool, Run Pool.step (Registers (.new fun _ => .new) "c") (.around (.new fun _ => .new))
        takeoversAtOnce pool ∧ pool.Idle ∧ pool.joined 1 ≠ none ∧
      pool.broker.owner "c" = some 2 ∧ pool.isOpen 1 = true :=
  ⟨replay Pool.step (.around (.new fun _ => .new)) takeoversAtOnce,
    Follows.run (by decide +kernel), by decide +kernel⟩

end HotaruMqtt.Broker
