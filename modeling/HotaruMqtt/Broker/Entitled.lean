import HotaruMqtt.Broker.Stages

/-!
# Who a publish reaches among concurrent calls

A connection may receive what matches a filter it was granted, or one that it took
over with the session.  `publish` works from a snapshot of client identifiers and
asks only later who owns them, so it depends on every insertion of an entry whether
what the snapshot lists still belongs to the owner.
-/

namespace HotaruMqtt.Broker

open Exec Exec.Transition Topic

/-- A connection that did not ask for a clean session found the subscription, which
had been granted to an earlier connection of the same client. -/
def Inherited (shared : Shared) (connection : ConnectionId) (filter : String) : Prop :=
  ∃ before entry after, shared.stored = before ++ entry :: after ∧
    entry.registration.connection = connection ∧ entry.registration.cleanSession = false ∧
    filter ∈ entry.kept ∧ ∃ earlier ∈ before,
      earlier.registration.client = entry.registration.client ∧
      (earlier.registration.connection, filter) ∈ shared.grants

/-- The connection has a claim on copies for the filter: it was granted the filter itself, or
it inherited it with the session. -/
def Entitled (shared : Shared) (connection : ConnectionId) (filter : String) : Prop :=
  (connection, filter) ∈ shared.grants ∨ Inherited shared connection filter

/-- The connection is entitled to messages of the topic. -/
def MayReceive (shared : Shared) (connection : ConnectionId) (topic : String) : Prop :=
  ∃ filter, Matches filter topic ∧ Entitled shared connection filter

/-- The topic a call is publishing to, with each client it has still to look up. -/
def Call.unresolved : Call → List (String × ClientId)
  | .fanout publication subs _ =>
      (subs.filter fun sub => sub.1 ≠ publication.source).map fun sub =>
        (publication.packet.topic, sub.1)
  | .enqueue publication _ _ _ subs _ =>
      (subs.filter fun sub => sub.1 ≠ publication.source).map fun sub =>
        (publication.packet.topic, sub.1)
  | _ => []

/-- The subscriptions that an insertion finds are kept by it, and whatever a publish
in progress has still to look up for the client matches one of them. -/
def Registration.Admissible (registration : Registration) (pool : Pool) : Prop :=
  (∀ filter ∈ pool.broker.subscriptions.filtersOf registration.client,
      filter ∈ registration.keeps pool.broker.subscriptions) ∧
    ∀ running ∈ pool.calls.entries, ∀ found ∈ running.2.call.unresolved,
      found.2 = registration.client →
        ∃ filter ∈ registration.keeps pool.broker.subscriptions, Matches filter found.1

instance (registration : Registration) (pool : Pool) :
    Decidable (registration.Admissible pool) :=
  inferInstanceAs (Decidable (_ ∧ _))

/-- Every insertion is admissible. -/
def StoresAdmissible (pool : Pool) : Pool.Event → Prop
  | .advance task _ => ∀ running ∈ pool.calls.lookup task,
      ∀ registration ∈ running.call.stores, registration.Admissible pool
  | _ => True

instance (pool : Pool) : (event : Pool.Event) → Decidable (StoresAdmissible pool event)
  | .advance task _ => inferInstanceAs (Decidable (∀ running ∈ pool.calls.lookup task,
      ∀ registration ∈ running.call.stores, registration.Admissible pool))
  | .invoke _ _ => inferInstanceAs (Decidable True)
  | .conclude _ => inferInstanceAs (Decidable True)
  | .environment _ _ => inferInstanceAs (Decidable True)

section Grows

variable {shared : Shared} {access : Access} {connection : ConnectionId}

theorem Inherited.apply {filter : String} (inherited : Inherited shared connection filter) :
    Inherited (shared.apply access) connection filter := by
  rcases inherited with ⟨before, entry, after, listed, own, unclean, kept, earlier, earlierListed,
    sameClient, granted⟩
  have grows : ∃ more, (shared.apply access).stored = shared.stored ++ more := by
    cases access <;> first | exact ⟨[], (List.append_nil _).symm⟩ | exact ⟨_, rfl⟩
  rcases grows with ⟨more, stored⟩
  refine ⟨before, entry, after ++ more, ?_, own, unclean, kept, earlier, earlierListed, sameClient,
    mem_grants_apply.mpr (.inl granted)⟩
  rw [stored, listed, List.append_assoc, List.cons_append]

/-- What a connection may receive it may receive from then on. -/
theorem MayReceive.apply {topic : String} (may : MayReceive shared connection topic) :
    MayReceive (shared.apply access) connection topic := by
  rcases may with ⟨filter, matched, granted | inherited⟩
  · exact ⟨filter, matched, .inl (mem_grants_apply.mpr (.inl granted))⟩
  · exact ⟨filter, matched, .inr inherited.apply⟩

/-- Where every session is clean, a connection may receive only what was granted to
itself. -/
theorem not_mayReceive_of_clean (clean : ∀ entry ∈ shared.stored,
      entry.registration.cleanSession = true)
    (ungranted : ∀ grant ∈ shared.grants, grant.1 ≠ connection) (topic : String) :
    ¬MayReceive shared connection topic := by
  rintro ⟨filter, -, granted | ⟨before, entry, after, listed, -, unclean, -⟩⟩
  · exact ungranted _ granted rfl
  · have member : entry ∈ shared.stored := by simp [listed]
    rw [clean entry member] at unclean
    contradiction

end Grows

/-! ## The invariant -/

/-- Every subscription in the tree has a grant behind it, and the owner of a client id is
entitled to all that the client is subscribed to. -/
structure Deserved (pool : Pool) : Prop extends pool.Consistent where
  /-- What stands in the tree was granted to a connection that was registered. -/
  granted : ∀ ⦃filter client qos⦄,
    pool.broker.subscriptions.granted filter client = some qos →
    ∃ entry ∈ pool.shared.stored, entry.registration.client = client ∧
      (entry.registration.connection, filter) ∈ pool.shared.grants
  held : ∀ ⦃client connection⦄, pool.broker.owner client = some connection →
    ∀ ⦃filter qos⦄, pool.broker.subscriptions.granted filter client = some qos →
    Entitled pool.shared connection filter
  unresolved : ∀ ⦃task running⦄, pool.calls.lookup task = some running →
    ∀ found ∈ running.call.unresolved, ∀ ⦃connection⦄,
    pool.broker.owner found.2 = some connection → MayReceive pool.shared connection found.1
  enqueueing : ∀ ⦃task request publication client target subQos subs next⦄,
    pool.calls.lookup task = some ⟨request, .enqueue publication client target subQos subs next⟩ →
    MayReceive pool.shared target publication.packet.topic
  delivered : ∀ delivery ∈ pool.broker.deliveries,
    MayReceive pool.shared delivery.target delivery.packet.topic

@[simp]
theorem Next.unresolved_resume (next : Next) : next.resume.unresolved = [] := by
  unfold Next.resume
  split
  · split <;> rfl
  all_goals rfl

@[simp]
theorem Call.unresolved_publishWill (connection : ConnectionId) (next : Next)
    (will : Option WillMessage) : (Call.publishWill connection next will).unresolved = [] := by
  cases will with
  | none => exact Next.unresolved_resume next
  | some _ => rfl

/-- A move leaves nothing more to look up, unless it takes the snapshot. -/
theorem Call.Moves.unresolved {broker : Broker} {call after : Call} {access : Access}
    (moves : Call.Moves broker call access after) {found : String × ClientId}
    (listed : found ∈ after.unresolved) :
    found ∈ call.unresolved ∨ ∃ publication, access = .announce publication ∧
      ∃ qos, (found.2, qos) ∈ broker.subscriptions.matching found.1 := by
  cases moves with
  | snapshot permuted =>
      simp only [Call.unresolved, List.mem_map, List.mem_filter] at listed
      rcases listed with ⟨sub, ⟨member, -⟩, rfl⟩
      exact .inr ⟨_, rfl, sub.2, permuted.mem_iff.mp member⟩
  | skip | found | enqueue =>
      refine .inl ?_
      simp only [Call.unresolved, List.mem_map, List.mem_filter, List.mem_cons] at listed ⊢
      rcases listed with ⟨sub, ⟨member, foreign⟩, rfl⟩
      first
      | exact ⟨sub, ⟨.inr member, foreign⟩, rfl⟩
      | exact ⟨sub, ⟨member, foreign⟩, rfl⟩
  | removeVacant | close | swept | fanned => simp at listed
  | _ => cases listed

namespace Deserved

variable {pool next : Pool} {event : Pool.Event} {task : Task} {request : Request}
  {call after : Call} {access : Access} {choice : Choice}

theorem new (channels : ConnectionId → MqttChannel) : Deserved (.new channels) where
  toConsistent := .new channels
  granted filter client qos held := by
    rw [show (Pool.new channels).broker.subscriptions = .new from rfl,
      SubscriptionTree.granted_new] at held
    contradiction
  held client connection owned := by cases owned
  unresolved task running found := by cases found
  enqueueing task request publication client target subQos subs next found := by cases found
  delivered delivery listed := by cases listed

/-- An insertion that is admissible keeps what it finds. -/
theorem entitled_store (deserved : Deserved pool) {registration : Registration}
    {filter : String} (kept : filter ∈ registration.keeps pool.broker.subscriptions) :
    Entitled (pool.shared.apply (.store registration)) registration.connection filter := by
  rw [Registration.keeps] at kept
  split at kept
  · contradiction
  · rename_i unclean
    rcases SubscriptionTree.mem_filtersOf.mp kept with ⟨qos, held⟩
    rcases deserved.granted held with ⟨earlier, listed, sameClient, granted⟩
    refine .inr ⟨pool.shared.stored, _, [], rfl, rfl, Bool.eq_false_iff.mpr unclean, ?_, earlier,
      listed, sameClient, granted⟩
    rw [Registration.keeps, if_neg unclean]
    exact kept

theorem granted_moved (deserved : Deserved pool)
    (running : pool.calls.lookup task = some ⟨request, call⟩)
    (moves : Call.Moves pool.broker call access after) {filter : String} {client : ClientId}
    {qos : QoS}
    (held : (pool.shared.apply access).broker.subscriptions.granted filter client = some qos) :
    ∃ entry ∈ (pool.shared.apply access).stored, entry.registration.client = client ∧
      (entry.registration.connection, filter) ∈ (pool.shared.apply access).grants := by
  rw [granted_apply] at held
  have before : pool.broker.subscriptions.granted filter client = some qos →
      ∃ entry ∈ (pool.shared.apply access).stored, entry.registration.client = client ∧
        (entry.registration.connection, filter) ∈ (pool.shared.apply access).grants := by
    intro held
    rcases deserved.granted held with ⟨entry, listed, same, granted⟩
    exact ⟨entry, mem_stored_apply.mpr (.inl listed), same, mem_grants_apply.mpr (.inl granted)⟩
  cases access with
  | link linked connection wanted =>
      rw [Access.onGranted] at held
      split at held
      · rename_i same
        rcases same with ⟨rfl, rfl⟩
        rcases deserved.linking running moves with ⟨rfl, edits, -⟩
        rcases deserved.owned (deserved.guarded running edits) with ⟨entry, listed, rfl, rfl⟩
        exact ⟨entry, listed, rfl, mem_grants_apply.mpr (.inr ⟨_, _, wanted, rfl, rfl⟩)⟩
      · exact before held
  | unlink dropped visited =>
      rw [Access.onGranted] at held
      split at held
      · contradiction
      · exact before held
  | _ => exact before held

/-- The owner of a client is entitled to what the tree has of the client. -/
theorem held_moved (deserved : Deserved pool)
    (running : pool.calls.lookup task = some ⟨request, call⟩)
    (moves : Call.Moves pool.broker call access after)
    (admissible : ∀ registration, access = .store registration → registration.Admissible pool)
    {client : ClientId} {connection : ConnectionId} {filter : String} {qos : QoS}
    (owned : (pool.shared.apply access).broker.owner client = some connection)
    (held : (pool.shared.apply access).broker.subscriptions.granted filter client = some qos) :
    Entitled (pool.shared.apply access) connection filter := by
  rw [owner_apply] at owned
  rw [granted_apply] at held
  have grows : Entitled pool.shared connection filter →
      Entitled (pool.shared.apply access) connection filter := by
    rintro (granted | inherited)
    · exact .inl (mem_grants_apply.mpr (.inl granted))
    · exact .inr inherited.apply
  cases access with
  | link linked granting wanted =>
      rw [Access.onGranted] at held
      split at held
      · rename_i same
        rcases same with ⟨rfl, rfl⟩
        rcases deserved.linking running moves with ⟨rfl, edits, -⟩
        cases (deserved.guarded running edits).symm.trans owned
        exact .inl (mem_grants_apply.mpr (.inr ⟨_, _, wanted, rfl, rfl⟩))
      · exact grows (deserved.held owned held)
  | unlink dropped visited =>
      rw [Access.onGranted] at held
      split at held
      · contradiction
      · exact grows (deserved.held owned held)
  | store registration =>
      rcases Access.onOwner_eq_some owned with owned | ⟨storing, same, rfl, rfl⟩
      · exact grows (deserved.held owned held)
      · cases same
        refine deserved.entitled_store ((admissible registration rfl).1 filter ?_)
        exact SubscriptionTree.mem_filtersOf.mpr ⟨qos, held⟩
  | _ =>
      rcases Access.onOwner_eq_some owned with owned | ⟨registration, stores, -⟩
      · exact grows (deserved.held owned held)
      · contradiction

/-- What was listed for a client still belongs to its owner. -/
theorem unresolved_moved (deserved : Deserved pool) {lister : Task} {listing : Running}
    (admissible : ∀ registration, access = .store registration → registration.Admissible pool)
    (running : pool.calls.lookup lister = some listing) {found : String × ClientId}
    (listed : found ∈ listing.call.unresolved) {connection : ConnectionId}
    (owned : (pool.shared.apply access).broker.owner found.2 = some connection) :
    MayReceive (pool.shared.apply access) connection found.1 := by
  rw [owner_apply] at owned
  rcases Access.onOwner_eq_some owned with owned | ⟨registration, rfl, same, rfl⟩
  · exact (deserved.unresolved running found listed owned).apply
  · rcases (admissible registration rfl).2 ⟨lister, listing⟩ (Table.mem_entries_iff.mpr running)
      found listed same.symm with ⟨filter, kept, matched⟩
    exact ⟨filter, matched, deserved.entitled_store kept⟩

theorem moved (deserved : Deserved pool)
    (running : pool.calls.lookup task = some ⟨request, call⟩)
    (moves : Call.Moves pool.broker call access after)
    (admissible : ∀ registration, access = .store registration → registration.Admissible pool)
    (consistent : (pool.moved task request access after).Consistent) :
    Deserved (pool.moved task request access after) where
  toConsistent := consistent
  granted _ _ _ held := deserved.granted_moved running moves held
  held _ _ owned _ _ held := deserved.held_moved running moves admissible owned held
  unresolved lister listing calling found listed connection owned := by
    rcases Table.lookup_insert_eq_some.mp calling with ⟨rfl, rfl⟩ | ⟨-, calling⟩
    · rcases moves.unresolved listed with listed | ⟨publication, rfl, qos, snapshotted⟩
      · exact deserved.unresolved_moved admissible running listed owned
      · rcases SubscriptionTree.mem_matching.mp snapshotted with ⟨filter, matched, held⟩
        exact ⟨filter, matched, deserved.held owned held⟩
    · exact deserved.unresolved_moved admissible calling listed owned
  enqueueing other asked publication client target subQos subs resumed calling := by
    rcases Table.lookup_insert_eq_some.mp calling with ⟨rfl, same⟩ | ⟨-, calling⟩
    · rcases moves.enqueueing (Running.mk.inj same).2 with ⟨rfl, rfl, foreign, owned⟩
      refine deserved.unresolved running (publication.packet.topic, client) ?_ owned
      simp [Call.unresolved, foreign]
    · exact (deserved.enqueueing calling).apply
  delivered delivery listed := by
    rcases deliveries_apply pool.shared access with ⟨more, deliveries, added⟩
    change delivery ∈ (pool.shared.apply access).broker.deliveries at listed
    rw [deliveries] at listed
    rcases List.mem_append.mp listed with listed | listed
    · exact (deserved.delivered delivery listed).apply
    · rcases added delivery listed with ⟨publication, subQos, rfl, -, copies⟩
      rw [copies.topic]
      cases moves with
      | enqueue => exact (deserved.enqueueing running).apply

theorem begun (deserved : Deserved pool) (opened : pool.opening task request = some call)
    (consistent : (pool.begun task request call).Consistent) :
    Deserved (pool.begun task request call) where
  toConsistent := consistent
  granted := deserved.granted
  held := deserved.held
  unresolved lister listing calling found listed connection owned := by
    rcases Table.lookup_insert_eq_some.mp calling with ⟨rfl, rfl⟩ | ⟨-, calling⟩
    · cases Pool.opens_of_opening opened <;> cases listed
    · exact deserved.unresolved calling found listed owned
  enqueueing other asked publication client target subQos subs resumed calling := by
    rcases Table.lookup_insert_eq_some.mp calling with ⟨rfl, same⟩ | ⟨-, calling⟩
    · cases Pool.opens_of_opening opened <;> cases same
    · exact deserved.enqueueing calling
  delivered := deserved.delivered

theorem concluded (deserved : Deserved pool) {response : Response}
    (consistent : (pool.concluded task request response).Consistent) :
    Deserved (pool.concluded task request response) where
  toConsistent := consistent
  granted := deserved.granted
  held := deserved.held
  unresolved _ _ calling := deserved.unresolved (Table.lookup_erase_eq_some.mp calling).2
  enqueueing _ _ _ _ _ _ _ _ calling :=
    deserved.enqueueing (Table.lookup_erase_eq_some.mp calling).2
  delivered := deserved.delivered

theorem step (deserved : Deserved pool) (met : StoresAdmissible pool event)
    (moved : pool.step event = some next) : Deserved next := by
  have steps := Pool.steps_of_step moved
  have consistent := deserved.toConsistent.step steps
  cases steps with
  | invoke idle opened => exact deserved.begun opened consistent
  | advance running unblocked stepped =>
      have moves := Call.moves_of_step stepped
      refine deserved.moved running moves ?_ consistent
      rintro registration rfl
      rcases deserved.storing running moves with ⟨-, -, -, present, rfl, -⟩
      exact met _ running _ rfl
  | conclude running => exact deserved.concluded consistent
  | environment =>
      exact ⟨consistent, deserved.granted, deserved.held, deserved.unresolved,
        deserved.enqueueing, deserved.delivered⟩

end Deserved

/-- Whatever is enqueued on a connection matches a filter that was granted to it, or
that it kept from an earlier connection of its client, in every run whose insertions
are admissible. -/
theorem delivered_entitled (channels : ConnectionId → MqttChannel) (events : List Pool.Event)
    (pool : Pool) (run : Run Pool.step StoresAdmissible (.new channels) events pool)
    (delivery : Delivery) (listed : delivery ∈ pool.broker.deliveries) :
    MayReceive pool.shared delivery.target delivery.packet.topic := by
  have deserved : Deserved pool :=
    run.invariant (fun _ _ _ deserved met moved => deserved.step met moved) (.new channels)
  exact deserved.delivered delivery listed

/-- A session is resumed by a second connection, which then receives what the first
had subscribed to. -/
def resumedSession : List Pool.Event :=
  Pool.callOf (.handler 1) (.register ⟨"c", 1, none, true⟩) 4 ++
    Pool.callOf (.handler 1) (.subscribe [⟨"f", .atMostOnce⟩]) 5 ++
    Pool.callOf (.handler 2) (.register ⟨"c", 2, none, false⟩) 3 ++
    [.invoke (.worker 3) (.publish ⟨.direct, "p", ⟨"f", [7], false, .atMostOnce, false, none⟩⟩),
      .advance (.worker 3) (.listed [("c", .atMostOnce)]), .advance (.worker 3) .go,
      .advance (.worker 3) .go]

theorem delivered_entitled_resumed :
    let pool := replay Pool.step (.new fun _ => .new) resumedSession
    pool.broker.deliveries.map Delivery.target = [2] ∧
      ∀ delivery ∈ pool.broker.deliveries,
        MayReceive pool.shared delivery.target delivery.packet.topic :=
  ⟨by decide +kernel, fun delivery listed =>
    delivered_entitled (fun _ => .new) resumedSession _ (Follows.run (by decide +kernel)) delivery
      listed⟩

/-- A publish takes its snapshot; a second connection takes over with a clean
session; then the publish looks the client up. -/
def staleSnapshot : List Pool.Event :=
  Pool.callOf (.handler 1) (.register ⟨"c", 1, none, true⟩) 4 ++
    Pool.callOf (.handler 1) (.subscribe [⟨"f", .atMostOnce⟩]) 5 ++
    [.invoke (.worker 3) (.publish ⟨.direct, "p", ⟨"f", [7], false, .atMostOnce, false, none⟩⟩),
      .advance (.worker 3) (.listed [("c", .atMostOnce)]),
      .invoke (.handler 2) (.register ⟨"c", 2, none, true⟩), .advance (.handler 2) .go,
      .advance (.handler 2) .go, .advance (.handler 2) .go, .advance (.handler 2) (.visit "f"),
      .advance (.handler 2) .go, .advance (.handler 2) .go, .conclude (.handler 2),
      .advance (.worker 3) .go, .advance (.worker 3) .go]

/-- A connection with a clean session receives what only the connection before it
had subscribed to. -/
theorem delivered_across_takeover :
    ∃ pool, Run Pool.step Any (.new fun _ => .new) staleSnapshot pool ∧
      ∃ delivery ∈ pool.broker.deliveries,
        ¬MayReceive pool.shared delivery.target delivery.packet.topic := by
  refine ⟨replay Pool.step (.new fun _ => .new) staleSnapshot, Follows.run (by decide +kernel),
    ⟨.direct, 2, ⟨"f", [7], false, .atMostOnce, false, none⟩⟩, by decide +kernel, ?_⟩
  exact not_mayReceive_of_clean (by decide +kernel) (by decide +kernel) _

end HotaruMqtt.Broker
