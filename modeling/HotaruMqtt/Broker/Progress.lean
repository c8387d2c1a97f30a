import HotaruMqtt.Broker.Alone

/-!
# No call is stuck

A call can be kept from its next move by a guard that another call has out.  A call that has
a guard out needs no place for itself until it has given the guard back: a publish sends its
copy, and a `subscribe` or an `unsubscribe` comes to its end.  So whatever calls are under
way, they can all be brought to an end, the ones with guards first and then one after the
other.  None of the moves this takes is made beside a guard of another call, unless by a call
that holds one itself; so it does not matter how many entries a guard of the table locks.
-/

namespace HotaruMqtt.Broker

open Exec Exec.Transition

/-! ## One call -/

/-- What an iteration has still to visit, it can visit. -/
def Call.Sweepable (broker : Broker) : Call → Prop
  | .sweep _ due seen _ => due.Nodup ∧ (∀ filter ∈ due, filter ∉ seen) ∧
      ∀ filter ∈ due, filter ∈ broker.subscriptions.subs.keys
  | _ => True

section Sweepable

variable {broker : Broker} {shared : Shared} {call after : Call} {access : Access}

/-- No filter is ever dropped from the tree. -/
theorem mem_keys_apply {filter : String}
    (known : filter ∈ shared.broker.subscriptions.subs.keys) :
    filter ∈ (shared.apply access).broker.subscriptions.subs.keys := by
  cases access with
  | deliver publication target subQos =>
      rw [Shared.apply, (enqueued_enqueue _ _ _ _ _).subscriptions]
      exact known
  | openFilter visited =>
      rw [← AList.mem_keys] at known ⊢
      exact AList.mem_insert _ |>.mpr (.inr known)
  | link client connection wanted =>
      rw [← AList.mem_keys] at known ⊢
      exact AList.mem_insert _ |>.mpr (.inr known)
  | unlink client visited => exact Alone.mem_keys_unsubscribe known
  | record | forget =>
      simp only [Shared.apply, withFilters]
      split <;> exact known
  | look | take | store | close | announce => exact known

theorem Call.Sweepable.apply (sweepable : call.Sweepable shared.broker) :
    call.Sweepable (shared.apply access).broker := by
  cases call with
  | sweep client due seen next =>
      obtain ⟨distinct, unseen, known⟩ := sweepable
      exact ⟨distinct, unseen, fun filter listed => mem_keys_apply (known filter listed)⟩
  | _ => trivial

theorem Next.sweepable_resume (next : Next) : next.resume.Sweepable broker := by
  unfold Next.resume
  split
  · split <;> trivial
  all_goals trivial

theorem Call.sweepable_publishWill (connection : ConnectionId) (next : Next)
    (will : Option WillMessage) : (Call.publishWill connection next will).Sweepable broker := by
  cases will with
  | none => exact next.sweepable_resume
  | some _ => trivial

theorem Call.Moves.sweepable (moves : Call.Moves shared.broker call access after)
    (sweepable : call.Sweepable shared.broker) :
    after.Sweepable (shared.apply access).broker := by
  cases moves with
  | wipe =>
      exact ⟨shared.broker.subscriptions.subs.nodupKeys, fun _ _ => List.not_mem_nil,
        fun _ listed => listed⟩
  | @visit client due seen next filter =>
      obtain ⟨distinct, unseen, known⟩ := sweepable
      refine ⟨distinct.erase filter, fun other listed again => ?_, fun other listed =>
        mem_keys_apply (known other (List.mem_of_mem_erase listed))⟩
      rcases List.mem_cons.mp again with rfl | again
      · exact distinct.not_mem_erase listed
      · exact unseen other (List.mem_of_mem_erase listed) again
  | removeVacant | swept | fanned => exact Next.sweepable_resume _
  | close => exact Call.sweepable_publishWill _ _ _
  | _ => trivial

end Sweepable

/-- What a call that is alone still does when it comes to this. -/
def Next.outcome (broker : Broker) : Next → Broker × Response
  | .clear registration present =>
      ((if registration.cleanSession then broker.removeClient registration.client
        else broker).insertSession registration, .registered present)
  | .store registration present => (broker.insertSession registration, .registered present)
  | .lastWill connection will graceful =>
      (if graceful then broker else broker.publishWill .listed connection will, .done)
  | .finish => (broker, .done)

theorem alone_resume (shared : Shared) (next : Next) :
    Alone shared next.resume (next.outcome shared.broker).1 (next.outcome shared.broker).2 := by
  cases next with
  | clear registration present => exact .clear
  | store registration present => exact .store
  | lastWill connection will graceful => exact .lastWill .listed will graceful
  | finish => exact .returned

theorem alone_resume_of_eq {broker : Broker} (next : Next) {after : Shared}
    (same : after.broker = broker) :
    Alone after next.resume (next.outcome broker).1 (next.outcome broker).2 := by
  subst same
  exact alone_resume after next

/-- A call that is alone comes to its end. -/
theorem exists_alone {shared : Shared} {call : Call} (sweepable : call.Sweepable shared.broker) :
    ∃ broker response, Alone shared call broker response := by
  cases call with
  | remove registration => exact ⟨_, _, alone_perform shared (.register .listed registration)⟩
  | removeIf client connection graceful =>
      exact ⟨_, _, alone_perform shared (.unregister .listed client connection graceful)⟩
  | findSubscribe client connection filters =>
      exact ⟨_, _, alone_perform shared (.subscribe client connection filters)⟩
  | findUnsubscribe client connection topics =>
      exact ⟨_, _, alone_perform shared (.unsubscribe client connection topics)⟩
  | close registration previous =>
      exact ⟨_, _, .move .go (.close previous.connection) _ rfl
        (.publishWill .listed previous.will fun _ => alone_resume_of_eq _)⟩
  | wipe client next => exact ⟨_, _, .wipe fun _ => alone_resume_of_eq next⟩
  | sweep client due seen next =>
      obtain ⟨distinct, unseen, known⟩ := sweepable
      exact ⟨_, _, .sweep due seen distinct unseen known fun _ => alone_resume_of_eq next⟩
  | store registration present => exact ⟨_, _, .store⟩
  | grant client connection codes rest => exact ⟨_, _, .grant codes rest⟩
  | openFilter client connection codes wanted rest =>
      exact ⟨_, _, .move .go (.openFilter wanted.filter)
        (.link client connection codes wanted rest) rfl
        (.move .go (.link client connection wanted) _ rfl (.grant _ rest))⟩
  | link client connection codes wanted rest =>
      exact ⟨_, _, .move .go (.link client connection wanted) _ rfl (.grant _ rest)⟩
  | revoke client connection rest => exact ⟨_, _, .revoke rest⟩
  | unlink client connection topic rest =>
      exact ⟨_, _, .move .go (.unlink client topic) _ rfl (.revoke rest)⟩
  | snapshot publication next =>
      exact ⟨_, _, .publish .listed fun _ => alone_resume_of_eq next⟩
  | fanout publication subs next => exact ⟨_, _, .fanout subs fun _ => alone_resume_of_eq next⟩
  | enqueue publication client target subQos subs next =>
      exact ⟨_, _, .move .go (.deliver publication target subQos) _ rfl
        (.fanout subs fun _ => alone_resume_of_eq next)⟩
  | returned response => exact ⟨_, _, .returned⟩

/-! ## Among other calls -/

namespace Pool

variable {pool next final : Pool} {task other : Task} {request : Request} {call after : Call}
  {broker : Broker} {response : Response} {running : Running} {events : List Event}

/-- No other call has a guard out. -/
def Calm (pool : Pool) (task : Task) : Prop :=
  ∀ ⦃other running⦄, other ≠ task → pool.calls.lookup other = some running →
    running.call.holds = none

/-- A call moves while no other call has a guard out, or while it has one out itself. -/
def Uncontended (pool : Pool) : Event → Prop
  | .advance task _ => pool.Calm task ∨
      ∃ running, pool.calls.lookup task = some running ∧ running.call.holds.isSome
  | _ => True

theorem uncontended_of_calm (calm : pool.Calm task) (choice : Choice) :
    pool.Uncontended (.advance task choice) :=
  .inl calm

theorem uncontended_of_holds (running : pool.calls.lookup task = some ⟨request, call⟩)
    (holds : call.holds ≠ none) (choice : Choice) : pool.Uncontended (.advance task choice) :=
  .inr ⟨_, running, Option.isSome_iff_ne_none.mpr holds⟩

/-- The event brings a call that is under way nearer to its end. -/
def Event.finishes : Event → Bool
  | .advance _ _ | .conclude _ => true
  | .invoke _ _ | .environment _ _ => false

theorem needs_eq_none_of_holds (holds : call.holds ≠ none) : call.needs = none := by
  cases call <;> first | rfl | exact absurd rfl holds

theorem Calm.unblocked (calm : pool.Calm task)
    (running : pool.calls.lookup task = some ⟨request, call⟩) : pool.Unblocked call := by
  rintro client needed ⟨other, current⟩ listed held
  have found := Table.mem_entries_iff.mp listed
  by_cases same : other = task
  · subst same
    cases running.symm.trans found
    have holds : call.holds ≠ none := by simp [held]
    rw [needs_eq_none_of_holds holds] at needed
    contradiction
  · rw [calm same found] at held
    contradiction

theorem unblocked_of_holds (holds : call.holds ≠ none) : pool.Unblocked call := by
  intro client needed
  rw [needs_eq_none_of_holds holds] at needed
  contradiction

theorem step_advance {choice : Choice} {access : Access}
    (running : pool.calls.lookup task = some ⟨request, call⟩) (unblocked : pool.Unblocked call)
    (stepped : call.step pool.broker choice = some (access, after)) :
    pool.step (.advance task choice) = some (pool.moved task request access after) := by
  rw [step, advance, running]
  simp only [if_pos unblocked, stepped, Option.map_some]

/-- Some steps that bring calls nearer to their ends, with nobody in the way. -/
def Settles (pool : Pool) (events : List Event) (final : Pool) : Prop :=
  Run Pool.step Uncontended pool events final ∧ ∀ event ∈ events, event.finishes = true

namespace Settles

theorem refl (pool : Pool) : pool.Settles [] pool :=
  ⟨.nil pool, List.forall_mem_nil _⟩

theorem cons {event : Event} (met : pool.Uncontended event) (finishes : event.finishes = true)
    (moved : pool.step event = some next) (rest : next.Settles events final) :
    pool.Settles (event :: events) final :=
  ⟨.cons met moved rest.1, List.forall_mem_cons.mpr ⟨finishes, rest.2⟩⟩

theorem append {later : List Event} (first : pool.Settles events next)
    (second : next.Settles later final) : pool.Settles (events ++ later) final :=
  ⟨first.1.append second.1, List.forall_mem_append.mpr ⟨first.2, second.2⟩⟩

end Settles

/-- The calls of all tasks but this one are as before. -/
def Besides (pool : Pool) (task : Task) (final : Pool) : Prop :=
  ∀ other, other ≠ task → final.calls.lookup other = pool.calls.lookup other

theorem besides_moved (pool : Pool) (task : Task) (request : Request) (access : Access)
    (after : Call) : pool.Besides task (pool.moved task request access after) :=
  fun _ differs => Table.lookup_insert.trans (if_neg differs)

theorem Besides.trans (first : pool.Besides task next) (second : next.Besides task final) :
    pool.Besides task final :=
  fun other differs => (second other differs).trans (first other differs)

theorem Calm.moved (calm : pool.Calm task) {access : Access} :
    (pool.moved task request access after).Calm task := by
  intro other running differs found
  exact calm differs ((besides_moved _ _ _ _ _ other differs).symm.trans found)

theorem lookup_moved (pool : Pool) (task : Task) (request : Request) (access : Access)
    (after : Call) :
    (pool.moved task request access after).calls.lookup task = some ⟨request, after⟩ :=
  Table.lookup_insert.trans (if_pos rfl)

/-- Among calls without guards, a call comes to its end and returns. -/
theorem settles_returning (alone : Alone pool.shared call broker response)
    (calm : pool.Calm task) (running : pool.calls.lookup task = some ⟨request, call⟩) :
    ∃ events final, pool.Settles events final ∧ pool.Besides task final ∧
      final.calls.lookup task = none ∧
      final.history = pool.history ++ [.returned task request response] := by
  generalize begins : pool.shared = shared at alone
  induction alone generalizing pool with
  | @returned _ response =>
      subst begins
      have concludes : pool.step (.conclude task) =
          some (pool.concluded task request response) := by
        rw [step, conclude, running]
      have met : pool.Uncontended (.conclude task) := trivial
      refine ⟨_, _, .cons met rfl concludes (.refl _), fun other differs => ?_, ?_, rfl⟩
      · exact Table.lookup_erase.trans (if_neg differs)
      · exact Table.lookup_erase.trans (if_pos rfl)
  | move choice access after stepped rest ih =>
      subst begins
      obtain ⟨events, final, settles, besides, ended, history⟩ :=
        ih calm.moved (lookup_moved pool task request access after) rfl
      have moved := step_advance running (calm.unblocked running) stepped
      exact ⟨_, final, .cons (uncontended_of_calm calm choice) rfl moved settles,
        (besides_moved pool task request access after).trans besides, ended, history⟩

/-- A call of `subscribe` or `unsubscribe` keeps its guard until it returns. -/
theorem edits_or_returned {access : Access} (moves : Call.Moves broker call access after)
    (edits : call.edits ≠ none) : after.edits ≠ none ∨ ∃ response, after = .returned response := by
  cases moves with
  | granted | revoked => exact .inr ⟨_, rfl⟩
  | grantValid | grantInvalid | openFilter | link | forget | unlink =>
      exact .inl (by simp [Call.edits])
  | _ => exact absurd rfl edits

theorem holds_of_edits (edits : call.edits ≠ none) : call.holds ≠ none := by
  cases call <;> first | exact edits | exact absurd rfl edits

/-- A task has given its guard back and is still at the same request. -/
structure Released (pool : Pool) (task : Task) (request : Request) (final : Pool) : Prop where
  besides : pool.Besides task final
  released : ∃ call, final.calls.lookup task = some ⟨request, call⟩ ∧ call.holds = none
  history : final.history = pool.history

theorem settles_editing (alone : Alone pool.shared call broker response)
    (edits : call.edits ≠ none) (running : pool.calls.lookup task = some ⟨request, call⟩) :
    ∃ events final, pool.Settles events final ∧ pool.Released task request final := by
  generalize begins : pool.shared = shared at alone
  induction alone generalizing pool with
  | returned => exact absurd rfl edits
  | move choice access after stepped rest ih =>
      subst begins
      have holds := holds_of_edits edits
      have moved := step_advance running (unblocked_of_holds holds) stepped
      have met := uncontended_of_holds running holds choice
      have besides := besides_moved pool task request access after
      rcases edits_or_returned (Call.moves_of_step stepped) edits with stays | ⟨response, rfl⟩
      · obtain ⟨events, final, settles, released⟩ := ih stays (lookup_moved _ _ _ _ _) rfl
        exact ⟨_, final, .cons met rfl moved settles, besides.trans released.besides,
          released.released, released.history⟩
      · exact ⟨_, _, .cons met rfl moved (.refl _), besides,
          ⟨_, lookup_moved _ _ _ _ _, rfl⟩, rfl⟩

/-- Every call can give its guard back. -/
theorem settles_releasing (running : pool.calls.lookup task = some ⟨request, call⟩)
    (sweepable : call.Sweepable pool.broker) :
    ∃ events final, pool.Settles events final ∧ pool.Released task request final := by
  by_cases edits : call.edits = none
  · cases call with
    | enqueue publication client target subQos subs following =>
        have stepped : (Call.enqueue publication client target subQos subs following).step
            pool.broker .go = some (.deliver publication target subQos,
              .fanout publication subs following) := rfl
        have holds : (Call.enqueue publication client target subQos subs following).holds ≠
            none := by
          simp [Call.holds]
        have moved := step_advance running (unblocked_of_holds holds) stepped
        exact ⟨_, _, .cons (uncontended_of_holds running holds .go) rfl moved (.refl _),
          besides_moved pool task request _ _, ⟨_, lookup_moved _ _ _ _ _, rfl⟩, rfl⟩
    | _ => exact ⟨[], pool, .refl pool, fun _ _ => rfl, ⟨_, running, edits⟩, rfl⟩
  · obtain ⟨broker, response, alone⟩ := exists_alone sweepable
    exact settles_editing alone edits running

/-! ## All calls -/

/-- Every iteration that is under way can be carried on. -/
def Sweeps (pool : Pool) : Prop :=
  ∀ ⦃task running⦄, pool.calls.lookup task = some running → running.call.Sweepable pool.broker

theorem Sweeps.new (channels : ConnectionId → MqttChannel) : (Pool.new channels).Sweeps :=
  fun _ _ found => by cases found

theorem Sweeps.step {event : Event} (sweeps : pool.Sweeps) (steps : Steps pool event next) :
    next.Sweeps := by
  intro other running found
  cases steps with
  | invoke idle opened =>
      rcases Table.lookup_insert_eq_some.mp found with ⟨rfl, rfl⟩ | ⟨_, found⟩
      · cases opens_of_opening opened <;> trivial
      · exact sweeps found
  | advance calling unblocked stepped =>
      rcases Table.lookup_insert_eq_some.mp found with ⟨rfl, rfl⟩ | ⟨_, found⟩
      · exact (Call.moves_of_step stepped).sweepable (sweeps calling)
      · exact (sweeps found).apply
  | conclude => exact sweeps (Table.lookup_erase_eq_some.mp found).2
  | environment =>
      have before := sweeps found
      exact before

theorem Sweeps.run {meets : Pool → Event → Prop} (sweeps : pool.Sweeps)
    (run : Run Pool.step meets pool events final) : final.Sweeps := by
  have preserves : Preserves Pool.step meets Sweeps :=
    fun _ _ _ sweeps _ moved => sweeps.step (steps_of_step moved)
  exact run.invariant preserves sweeps

/-- The task is carrying out a request. -/
def At (pool : Pool) (task : Task) (request : Request) : Prop :=
  ∃ call, pool.calls.lookup task = some ⟨request, call⟩

theorem Released.at_iff (released : pool.Released task request final)
    (running : pool.At task request) (other : Task) (asked : Request) :
    final.At other asked ↔ pool.At other asked := by
  by_cases same : other = task
  · subst same
    obtain ⟨before, found⟩ := running
    obtain ⟨after, later, _⟩ := released.released
    simp [At, found, later]
  · rw [At, At, released.besides other same]

/-- One after the other, all calls give their guards back. -/
theorem settles_calm (tasks : List Task) (sweeps : pool.Sweeps) :
    ∃ events final, pool.Settles events final ∧
      (∀ task ∈ tasks, ∀ running, final.calls.lookup task = some running →
        running.call.holds = none) ∧
      (∀ task request, final.At task request ↔ pool.At task request) ∧
      final.history = pool.history := by
  induction tasks with
  | nil => exact ⟨[], pool, .refl pool, by simp, fun _ _ => Iff.rfl, rfl⟩
  | cons task tasks ih =>
      obtain ⟨events, middle, settles, released, same, history⟩ := ih
      cases found : middle.calls.lookup task with
      | none =>
          refine ⟨events, middle, settles, fun other listed running calling => ?_, same, history⟩
          rcases List.mem_cons.mp listed with rfl | listed
          · rw [found] at calling
            contradiction
          · exact released other listed running calling
      | some running =>
          obtain ⟨later, final, ending, gives⟩ :=
            settles_releasing found ((sweeps.run settles.1) found)
          refine ⟨_, final, settles.append ending, fun other listed running calling => ?_,
            fun other asked => (gives.at_iff ⟨_, found⟩ other asked).trans (same other asked),
            gives.history.trans history⟩
          by_cases own : other = task
          · subst own
            obtain ⟨call, now, free⟩ := gives.released
            cases now.symm.trans calling
            exact free
          · refine released other ((List.mem_cons.mp listed).resolve_left own) running ?_
            exact (gives.besides other own).symm.trans calling

/-- Then, one after the other, they return. -/
theorem settles_idle (tasks : List Task) (sweeps : pool.Sweeps)
    (calm : ∀ task running, pool.calls.lookup task = some running → running.call.holds = none)
    (all : ∀ task request, pool.At task request → task ∈ tasks) :
    ∃ events final ended, pool.Settles events final ∧ (∀ task, final.calls.lookup task = none) ∧
      final.history = pool.history ++ ended ∧
      ∀ task request, pool.At task request →
        ∃ response, .returned task request response ∈ ended := by
  induction tasks generalizing pool with
  | nil =>
      refine ⟨[], pool, [], .refl pool, fun task => ?_, by simp, fun task request at_ => ?_⟩
      · refine Option.eq_none_iff_forall_ne_some.mpr fun running found => ?_
        exact List.not_mem_nil (all task running.request ⟨running.call, found⟩)
      · exact absurd (all task request at_) List.not_mem_nil
  | cons task tasks ih =>
      cases found : pool.calls.lookup task with
      | none =>
          refine ih sweeps calm fun other request at_ => ?_
          refine (List.mem_cons.mp (all other request at_)).resolve_left ?_
          rintro rfl
          obtain ⟨call, calling⟩ := at_
          rw [found] at calling
          contradiction
      | some running =>
          obtain ⟨broker, response, alone⟩ := exists_alone (sweeps found)
          have others : pool.Calm task := fun other running _ calling => calm other running calling
          obtain ⟨events, middle, settles, besides, gone, history⟩ :=
            settles_returning alone others found
          have kept : ∀ other current, middle.calls.lookup other = some current →
              other ≠ task ∧ pool.calls.lookup other = some current := by
            intro other current calling
            have differs : other ≠ task := by
              rintro rfl
              rw [gone] at calling
              contradiction
            exact ⟨differs, (besides other differs).symm.trans calling⟩
          obtain ⟨later, final, ended, ending, idle, grown, returned⟩ := ih (sweeps.run settles.1)
            (fun other current calling => calm other current (kept other current calling).2)
            (fun other request at_ => by
              obtain ⟨call, calling⟩ := at_
              obtain ⟨differs, before⟩ := kept other _ calling
              exact (List.mem_cons.mp (all other request ⟨call, before⟩)).resolve_left differs)
          refine ⟨_, final, .returned task running.request response :: ended,
            settles.append ending, idle, by simp [grown, history], fun other request at_ => ?_⟩
          obtain ⟨call, calling⟩ := at_
          by_cases own : other = task
          · subst own
            cases found.symm.trans calling
            exact ⟨response, List.mem_cons_self⟩
          · obtain ⟨answer, listed⟩ :=
              returned other request ⟨call, (besides other own).trans calling⟩
            exact ⟨answer, List.mem_cons_of_mem _ listed⟩

/-- Whatever calls are under way, they can all be brought to an end: each returns, and no
move on the way is made beside the guard of another call, unless by one that holds a guard
itself. -/
theorem calls_can_finish (channels : ConnectionId → MqttChannel)
    (run : Run Pool.step Any (.new channels) events pool) :
    ∃ later final ended, Run Pool.step Uncontended pool later final ∧
      (∀ event ∈ later, event.finishes = true) ∧ final.Idle ∧
      final.history = pool.history ++ ended ∧
      ∀ task request, pool.At task request →
        ∃ response, .returned task request response ∈ ended := by
  have sweeps := (Sweeps.new channels).run run
  obtain ⟨first, middle, settles, calm, same, history⟩ := settles_calm pool.calls.keys sweeps
  have listed : ∀ task running, middle.calls.lookup task = some running →
      task ∈ pool.calls.keys := by
    intro task running found
    obtain ⟨call, before⟩ := (same task running.request).mp ⟨running.call, found⟩
    exact AList.mem_keys.mp (AList.lookup_isSome.mp (by simp [before]))
  obtain ⟨second, final, ended, ending, idle, grown, returned⟩ :=
    settles_idle pool.calls.keys (sweeps.run settles.1)
      (fun task running found => calm task (listed task running found) running found)
      (fun task request at_ => by
        obtain ⟨call, found⟩ := at_
        exact listed task _ found)
  obtain ⟨run, finishes⟩ := settles.append ending
  refine ⟨_, final, ended, run, finishes, ?_, grown.trans (by rw [history]),
    fun task request at_ => returned task request ((same task request).mpr at_)⟩
  refine List.eq_nil_iff_forall_not_mem.mpr fun task listed => ?_
  have found := AList.lookup_isSome.mpr (AList.mem_keys.mpr listed)
  rw [idle task] at found
  contradiction

/-- A publish has looked the client up and holds its entry; a second connection of the
client waits for that entry. -/
def heldEntry : List Event :=
  callOf (.handler 1) (.register ⟨"c", 1, none, true⟩) 4 ++
    callOf (.handler 1) (.subscribe [⟨"f", .atMostOnce⟩]) 5 ++
    [.invoke (.worker 3) (.publish ⟨.direct, "p", ⟨"f", [7], false, .atMostOnce, false, none⟩⟩),
      .advance (.worker 3) (.listed [("c", .atMostOnce)]), .advance (.worker 3) .go,
      .invoke (.handler 2) (.register ⟨"c", 2, none, false⟩)]

theorem calls_can_finish_held :
    let pool := replay Pool.step (.new fun _ => .new) heldEntry
    pool.step (.advance (.handler 2) .go) = none ∧
      ∃ later final ended, Run Pool.step Uncontended pool later final ∧
        (∀ event ∈ later, event.finishes = true) ∧ final.Idle ∧
        final.history = pool.history ++ ended ∧
        ∀ task request, pool.At task request →
          ∃ response, .returned task request response ∈ ended := by
  refine ⟨?_, calls_can_finish (fun _ => .new) (Follows.run (by decide +kernel))⟩
  refine Option.isNone_iff_eq_none.mp ?_
  decide +kernel

end Pool

end HotaruMqtt.Broker
