import HotaruMqtt.Broker.Pool
import HotaruMqtt.Broker.Store

/-!
# A call that nothing interrupts

The operations as a whole are the calls of the pool with nothing in between.  A call
that is alone moves from access to access until it returns, and leaves the broker
as the operation does; in a pool in which no other call is running, it can do so.
-/

namespace HotaruMqtt.Broker

open Exec Exec.Outcome Exec.Transition Topic

/-- A call goes on alone, and leaves this broker and this response. -/
inductive Alone : Shared → Call → Broker → Response → Prop
  | returned {shared : Shared} {response : Response} :
      Alone shared (.returned response) shared.broker response
  | move {shared : Shared} {call : Call} {broker : Broker} {response : Response}
      (choice : Choice) (access : Access) (next : Call)
      (stepped : call.step shared.broker choice = some (access, next))
      (rest : Alone (shared.apply access) next broker response) :
      Alone shared call broker response

/-- Where the call for an operation begins. -/
def Operation.opening : Operation → Call
  | .register _ registration => .remove registration
  | .unregister _ client connection graceful => .removeIf client connection graceful
  | .subscribe client connection filters => .findSubscribe client connection filters
  | .unsubscribe client connection topics => .findUnsubscribe client connection topics
  | .publish _ source packet => .snapshot ⟨.direct, source, packet⟩ .finish

namespace Alone

variable {shared : Shared} {broker : Broker} {response : Response} {client : ClientId}
  {connection : ConnectionId} {next : Next}

/-! ## Publishing -/

theorem fanout {publication : Publication} (subs : List (ClientId × QoS))
    (rest : ∀ after : Shared, after.broker = subs.foldl
        (deliver publication.origin publication.source publication.packet) shared.broker →
      Alone after next.resume broker response) :
    Alone shared (.fanout publication subs next) broker response := by
  induction subs generalizing shared with
  | nil => exact .move .go .look next.resume rfl (rest shared rfl)
  | cons sub subs ih =>
      rw [List.foldl_cons, deliver] at rest
      by_cases own : sub.1 = publication.source
      · rw [if_pos own] at rest
        exact .move .go .look (.fanout publication subs next) (by rw [Call.step, if_pos own])
          (ih rest)
      · rw [if_neg own] at rest
        cases found : shared.broker.sessions.lookup sub.1 with
        | none =>
            simp only [found] at rest
            exact .move .go .look (.fanout publication subs next)
              (by rw [Call.step, if_neg own, found]) (ih rest)
        | some entry =>
            simp only [found] at rest
            refine .move .go .look (.enqueue publication sub.1 entry.connection sub.2 subs next)
              (by rw [Call.step, if_neg own, found]) ?_
            exact .move .go (.deliver publication entry.connection sub.2)
              (.fanout publication subs next) rfl (ih rest)

theorem publish (order : IterationOrder) {publication : Publication}
    (rest : ∀ after : Shared, after.broker = shared.broker.publish order publication.origin
        publication.source publication.packet → Alone after next.resume broker response) :
    Alone shared (.snapshot publication next) broker response := by
  have listed := order.perm (shared.broker.subscriptions.matching publication.packet.topic)
  exact .move (.listed _) (.announce publication) (.fanout publication _ next)
    (by rw [Call.step, if_pos listed]) (fanout _ rest)

theorem publishWill (order : IterationOrder) (will : Option WillMessage)
    (rest : ∀ after : Shared, after.broker = shared.broker.publishWill order connection will →
      Alone after next.resume broker response) :
    Alone shared (.publishWill connection next will) broker response := by
  cases will with
  | none => exact rest shared rfl
  | some will => exact publish order rest

/-! ## Dropping the subscriptions of a client -/

theorem mem_keys_unsubscribe {tree : SubscriptionTree} {visited filter : String}
    (known : filter ∈ tree.subs.keys) : filter ∈ (tree.unsubscribe client visited).subs.keys := by
  unfold SubscriptionTree.unsubscribe
  split
  · rw [← AList.mem_keys] at known ⊢
    exact AList.mem_insert _ |>.mpr (.inr known)
  · exact known

/-- The iteration visits the filters that are due, one after the other. -/
theorem sweep (due seen : List String) (distinct : due.Nodup)
    (unseen : ∀ filter ∈ due, filter ∉ seen)
    (known : ∀ filter ∈ due, filter ∈ shared.broker.subscriptions.subs.keys)
    (rest : ∀ after : Shared, after.broker = { shared.broker with
        subscriptions := due.foldl (fun tree filter => tree.unsubscribe client filter)
          shared.broker.subscriptions } → Alone after next.resume broker response) :
    Alone shared (.sweep client due seen next) broker response := by
  induction due generalizing shared seen with
  | nil => exact .move .go .look next.resume rfl (rest shared rfl)
  | cons filter due ih =>
      have visited := List.nodup_cons.mp distinct
      have enabled : filter ∈ shared.broker.subscriptions.subs.keys ∧ filter ∉ seen :=
        ⟨known filter List.mem_cons_self, unseen filter List.mem_cons_self⟩
      refine .move (.visit filter) (.unlink client filter)
        (.sweep client ((filter :: due).erase filter) (filter :: seen) next)
        (by rw [Call.step, if_pos enabled]) ?_
      rw [List.erase_cons_head]
      refine ih (filter :: seen) visited.2 ?_ ?_ rest
      · intro other listed again
        rcases List.mem_cons.mp again with rfl | again
        · exact visited.1 listed
        · exact unseen other (List.mem_cons_of_mem _ listed) again
      · intro other listed
        exact mem_keys_unsubscribe (known other (List.mem_cons_of_mem _ listed))

theorem wipe (rest : ∀ after : Shared, after.broker = shared.broker.removeClient client →
      Alone after next.resume broker response) :
    Alone shared (.wipe client next) broker response :=
  .move .go .look (.sweep client shared.broker.subscriptions.subs.keys [] next) rfl
    (sweep _ _ shared.broker.subscriptions.subs.nodupKeys (fun _ _ => List.not_mem_nil)
      (fun _ listed => listed) rest)

/-! ## Subscribing -/

theorem openFilter_grant (broker : Broker) (client : ClientId) (wanted : TopicFilter) :
    ({ broker with subscriptions := broker.subscriptions.openFilter wanted.filter } : Broker).grant
      client wanted = broker.grant client wanted := by
  simp only [grant, SubscriptionTree.subscribe, SubscriptionTree.openFilter,
    SubscriptionTree.clients, Table.lookup_insert, if_pos, Option.getD_some, AList.insert_insert]

theorem grant (codes : List SubackCode) (rest : List TopicFilter) :
    Alone shared (.grant client connection codes rest) (grantAll client shared.broker rest).2
      (.subscribed (codes ++ (grantAll client shared.broker rest).1)) := by
  induction rest generalizing shared codes with
  | nil =>
      rw [grantAll, List.append_nil]
      exact .move .go .look (.returned (.subscribed codes)) rfl .returned
  | cons wanted rest ih =>
      rw [grantAll]
      split
      · rename_i valid
        refine .move .go (.record client wanted) (.openFilter client connection codes wanted rest)
          (by rw [Call.step, valid]) ?_
        refine .move .go (.openFilter wanted.filter) (.link client connection codes wanted rest)
          rfl ?_
        refine .move .go (.link client connection wanted)
          (.grant client connection (codes ++ [.granted wanted.qos]) rest) rfl ?_
        have granted := @ih (((shared.apply (.record client wanted)).apply
          (.openFilter wanted.filter)).apply (.link client connection wanted))
          (codes ++ [.granted wanted.qos])
        simpa [Shared.apply, openFilter_grant] using granted
      · rename_i invalid
        refine .move .go .look (.grant client connection (codes ++ [.failure]) rest) ?_ ?_
        · rw [Call.step]
          split
          · exact absurd ‹_› invalid
          · rfl
        · have refused := @ih (shared.apply .look) (codes ++ [.failure])
          rw [List.append_assoc] at refused
          exact refused

theorem revoke (rest : List String) :
    Alone shared (.revoke client connection rest) (revokeAll client shared.broker rest) .done := by
  induction rest generalizing shared with
  | nil => exact .move .go .look (.returned .done) rfl .returned
  | cons topic rest ih =>
      refine .move .go (.forget client topic) (.unlink client connection topic rest) rfl ?_
      exact .move .go (.unlink client topic) (.revoke client connection rest) rfl ih

/-! ## The operations -/

theorem store {registration : Registration} {present : Bool} :
    Alone shared (.store registration present) (shared.broker.insertSession registration)
      (.registered present) :=
  .move .go (.store registration) (.returned (.registered present)) rfl .returned

theorem clear {registration : Registration} {present : Bool} :
    Alone shared (Next.clear registration present).resume
      ((if registration.cleanSession then shared.broker.removeClient registration.client
        else shared.broker).insertSession registration) (.registered present) := by
  rw [Next.resume]
  split
  · refine wipe fun after same => ?_
    rw [← same]
    exact store
  · exact store

theorem lastWill (order : IterationOrder) (will : Option WillMessage) (graceful : Bool) :
    Alone shared (Next.lastWill connection will graceful).resume
      (if graceful then shared.broker else shared.broker.publishWill order connection will)
      .done := by
  cases will with
  | none => cases graceful <;> exact .returned
  | some will =>
      cases graceful with
      | true => exact .returned
      | false =>
          refine publish order fun after same => ?_
          rw [if_neg nofun]
          change Alone after _ (shared.broker.publish order _ _ _) _
          rw [← same]
          exact .returned

end Alone

/-- The call for an operation, when it is alone, does what the operation does. -/
theorem alone_perform (shared : Shared) (operation : Operation) :
    Alone shared operation.opening (shared.broker.perform operation).2
      (shared.broker.perform operation).1 := by
  cases operation with
  | register order registration =>
      cases found : shared.broker.sessions.lookup registration.client with
      | none =>
          refine .move .go (.take registration.client) (Next.clear registration false).resume
            (by rw [Operation.opening, Call.step, found]) ?_
          have cleared := @Alone.clear (shared.apply (.take registration.client)) registration false
          simpa [perform, registerSession, found, takeOver, Shared.apply] using cleared
      | some previous =>
          refine .move .go (.take registration.client) (.close registration previous)
            (by rw [Operation.opening, Call.step, found]) ?_
          refine .move .go (.close previous.connection) _ rfl
            (Alone.publishWill order previous.will fun after same => ?_)
          have cleared := @Alone.clear after registration !registration.cleanSession
          rw [same] at cleared
          simpa [perform, registerSession, found, takeOver, Shared.apply] using cleared
  | unregister order client connection graceful =>
      cases own : shared.broker.ownEntry client connection with
      | none =>
          refine .move .go .look (.returned .done) (by rw [Operation.opening, Call.step, own]) ?_
          simpa [perform, unregisterSession, own, Shared.apply] using
            @Alone.returned (shared.apply .look) .done
      | some entry =>
          refine .move .go (.take client) (.wipe client (.lastWill connection entry.will graceful))
            (by rw [Operation.opening, Call.step, own]) (Alone.wipe fun after same => ?_)
          have last := @Alone.lastWill after connection order entry.will graceful
          rw [same] at last
          simpa [perform, unregisterSession, own, Shared.apply] using last
  | subscribe client connection filters =>
      cases own : shared.broker.ownEntry client connection with
      | none =>
          refine .move .go .look (.returned (.subscribed (filters.map fun _ => .failure)))
            (by rw [Operation.opening, Call.step, own]) ?_
          simpa [perform, subscribe, own, Shared.apply] using @Alone.returned (shared.apply .look) _
      | some entry =>
          refine .move .go .look (.grant client connection [] filters)
            (by rw [Operation.opening, Call.step, own]) ?_
          simpa [perform, subscribe, own, Shared.apply] using
            @Alone.grant (shared.apply .look) client connection [] filters
  | unsubscribe client connection topics =>
      cases own : shared.broker.ownEntry client connection with
      | none =>
          refine .move .go .look (.returned .done) (by rw [Operation.opening, Call.step, own]) ?_
          simpa [perform, unsubscribe, own, Shared.apply] using
            @Alone.returned (shared.apply .look) .done
      | some entry =>
          refine .move .go .look (.revoke client connection topics)
            (by rw [Operation.opening, Call.step, own]) ?_
          simpa [perform, unsubscribe, own, Shared.apply] using
            @Alone.revoke (shared.apply .look) client connection topics
  | publish order source packet =>
      refine Alone.publish order fun after same => ?_
      have done := @Alone.returned after .done
      rw [same] at done
      exact done

/-! ## In the pool -/

namespace Pool

variable {pool : Pool} {task : Task} {request : Request} {call : Call} {broker : Broker}
  {response : Response}

/-- No task but this one is calling. -/
def Only (pool : Pool) (task : Task) : Prop :=
  ∀ other running, pool.calls.lookup other = some running → other = task

/-- A call does not guard the place it needs itself. -/
theorem Only.unblocked (only : pool.Only task)
    (running : pool.calls.lookup task = some ⟨request, call⟩) : pool.Unblocked call := by
  rintro client needed ⟨other, current⟩ listed held
  have found := Table.mem_entries_iff.mp listed
  cases only other current found
  rw [running] at found
  cases found
  cases call <;> contradiction

/-- What a call does alone, it does in a pool in which no other call is running. -/
theorem run_alone (alone : Alone pool.shared call broker response) (only : pool.Only task)
    (running : pool.calls.lookup task = some ⟨request, call⟩) :
    ∃ (choices : List Choice) (final : Pool), Run Pool.step Any pool
        ((choices.map fun choice => .advance task choice) ++ [.conclude task]) final ∧
      final.broker = broker ∧ final.Idle ∧
      final.history = pool.history ++ [.returned task request response] := by
  generalize begins : pool.shared = shared at alone
  induction alone generalizing pool with
  | returned =>
      subst begins
      refine ⟨[], pool.concluded task request _, .cons trivial ?_ (.nil _), rfl, ?_, rfl⟩
      · rw [Pool.step, Pool.conclude, running]
      · refine List.eq_nil_iff_forall_not_mem.mpr fun other listed => ?_
        rcases Option.isSome_iff_exists.mp (AList.lookup_isSome.mpr listed) with ⟨current, found⟩
        rcases Table.lookup_erase_eq_some.mp found with ⟨differs, found⟩
        exact differs (only other current found)
  | move choice access next stepped rest ih =>
      subst begins
      have stays : (pool.moved task request access next).Only task := by
        intro other current found
        rcases Table.lookup_insert_eq_some.mp found with ⟨same, -⟩ | ⟨-, found⟩
        · exact same
        · exact only other current found
      rcases ih stays (Table.lookup_insert_eq_some.mpr (.inl ⟨rfl, rfl⟩)) rfl with
        ⟨choices, final, onwards, same, idle, history⟩
      refine ⟨choice :: choices, final, .cons trivial ?_ onwards, same, idle, history⟩
      rw [Pool.step, Pool.advance, running]
      simp only [if_pos (only.unblocked running), stepped, Option.map_some]

/-- In an idle pool a task that may make the call for an operation can carry it through:
the broker is then as after the operation, and the call has returned its answer. -/
theorem idle_performs (idle : pool.Idle) (operation : Operation)
    (opened : pool.opening task request = some operation.opening) :
    ∃ (choices : List Choice) (final : Pool), Run Pool.step Any pool
        (.invoke task request ::
          ((choices.map fun choice => .advance task choice) ++ [.conclude task])) final ∧
      final.broker = (pool.broker.perform operation).2 ∧ final.Idle ∧
      final.history = pool.history ++ [.invoked task request,
        .returned task request (pool.broker.perform operation).1] := by
  have free := idle.lookup_eq_none
  have only : (pool.begun task request operation.opening).Only task := by
    intro other current found
    rcases Table.lookup_insert_eq_some.mp found with ⟨same, -⟩ | ⟨-, found⟩
    · exact same
    · rw [free] at found
      contradiction
  have alone : Alone (pool.begun task request operation.opening).shared operation.opening
    (pool.broker.perform operation).2 (pool.broker.perform operation).1 :=
      alone_perform pool.shared operation
  rcases run_alone alone only (Table.lookup_insert_eq_some.mpr (.inl ⟨rfl, rfl⟩)) with
    ⟨choices, final, onwards, same, stillIdle, history⟩
  refine ⟨choices, final, .cons trivial ?_ onwards, same, stillIdle, ?_⟩
  · rw [Pool.step, Pool.invoke, free, opened]
    rfl
  · rw [history, Pool.begun, List.append_assoc]
    rfl

end Pool

end HotaruMqtt.Broker
