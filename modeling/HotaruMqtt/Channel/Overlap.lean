import HotaruMqtt.Channel.Ledger
import HotaruMqtt.Exec.Transition

/-!
# Overlapping wakes

A `wake_*` method makes three accesses: it looks at the kind of the slot, removes the slot,
and sends to what it has removed or puts it back.  Here any number of calls of the methods
of one session make their accesses in any order.

What a wake removes need not be what it has looked at.  `wake_ack_waiter` then sends to a
waiter for another step of a publish flow, since after the removal it no longer asks for
the kind; and a slot that is put back replaces one that has been parked in the meantime.
Both need that the kind of the slot changes between the first two accesses of a wake, and
as long as it never does, wakes are safe.
-/

namespace HotaruMqtt.Channel

open Exec Exec.Transition

/-- Names a task that calls a `wake_*` method. -/
abbrev TaskId := Nat

/-- Where a wake stands after its first access: before the removal, or with the slot that it
has removed. -/
inductive Waking
  | taking (ack : Ack)
  | settling (ack : Ack) (waiter : Waiter)
  deriving DecidableEq

/-- The acknowledgement that a wake is for. -/
def Waking.ack : Waking → Ack
  | taking ack | settling ack _ => ack

/-- The waiters of a session and the wakes that are under way. -/
structure Overlap where
  waiters : Waiters
  calls : TaskId → Option Waking

namespace Overlap

/-- The methods that park and cancel make one access each. -/
inductive Event
  | park (id : PacketId) (slot : AckSlot)
  | cancel (id : PacketId)
  | wake (task : TaskId) (ack : Ack)
  | proceed (task : TaskId)

/-- A new session, and no wake under way. -/
def new : Overlap :=
  ⟨.new, fun _ => none⟩

variable (state : Overlap)

/-- One access of one method. -/
def step : Event → Option Overlap
  | .park id slot => some { state with waiters := (state.waiters.park id slot).2 }
  | .cancel id => some { state with waiters := state.waiters.cancel id }
  | .wake task ack =>
      match state.calls task with
      | some _ => none
      | none =>
          if state.waiters.Expects ack then
            some { state with calls := Function.update state.calls task (some (.taking ack)) }
          else
            some state
  | .proceed task =>
      match state.calls task with
      | none => none
      | some (.taking ack) =>
          match state.waiters.pending ack.id with
          -- raced with another waker
          | none => some { state with calls := Function.update state.calls task none }
          | some waiter =>
              some
                { waiters := state.waiters.take ack.id
                  calls := Function.update state.calls task (some (.settling ack waiter)) }
      | some (.settling ack waiter) =>
          some
            { waiters := state.waiters.settle ack waiter
              calls := Function.update state.calls task none }

/-- What a step can do. -/
inductive Steps : Event → Overlap → Prop
  | park (id : PacketId) (slot : AckSlot) :
      Steps (.park id slot) { state with waiters := (state.waiters.park id slot).2 }
  | cancel (id : PacketId) :
      Steps (.cancel id) { state with waiters := state.waiters.cancel id }
  | expected {task : TaskId} {ack : Ack} (idle : state.calls task = none)
      (expects : state.waiters.Expects ack) :
      Steps (.wake task ack)
        { state with calls := Function.update state.calls task (some (.taking ack)) }
  | unexpected {task : TaskId} {ack : Ack} : Steps (.wake task ack) state
  | raced {task : TaskId} {ack : Ack} (stage : state.calls task = some (.taking ack))
      (missing : state.waiters.pending ack.id = none) :
      Steps (.proceed task) { state with calls := Function.update state.calls task none }
  | took {task : TaskId} {ack : Ack} {waiter : Waiter}
      (stage : state.calls task = some (.taking ack))
      (found : state.waiters.pending ack.id = some waiter) :
      Steps (.proceed task)
        { waiters := state.waiters.take ack.id
          calls := Function.update state.calls task (some (.settling ack waiter)) }
  | settled {task : TaskId} {ack : Ack} {waiter : Waiter}
      (stage : state.calls task = some (.settling ack waiter)) :
      Steps (.proceed task)
        { waiters := state.waiters.settle ack waiter
          calls := Function.update state.calls task none }

variable {state} {next : Overlap} {event : Event}

theorem steps_of_step (moved : state.step event = some next) : state.Steps event next := by
  cases event with
  | park id slot =>
      cases moved
      exact .park id slot
  | cancel id =>
      cases moved
      exact .cancel id
  | wake task ack =>
      simp only [step] at moved
      split at moved
      · cases moved
      · rename_i idle
        split at moved
        · rename_i expects
          cases moved
          exact .expected idle expects
        · cases moved
          exact .unexpected
  | proceed task =>
      simp only [step] at moved
      split at moved
      · cases moved
      · rename_i ack stage
        split at moved
        · rename_i missing
          cases moved
          exact .raced stage missing
        · rename_i waiter found
          cases moved
          exact .took stage found
      · rename_i ack waiter stage
        cases moved
        exact .settled stage

/-! ## Safety -/

/-- A wake for this acknowledgement is meant for the waiter. -/
def Satisfies (ack : Ack) (waiter : Waiter) : Prop :=
  ack.id = waiter.id ∧ ack.slot = waiter.slot

/-- The acknowledgement of the wake that makes the step. -/
def waking (state : Overlap) : Event → Option Ack
  | .park _ _ | .cancel _ => none
  | .wake _ ack => some ack
  | .proceed task => (state.calls task).map Waking.ack

/-- With this step a waiter is told a value only by a wake that is meant for it, and a wake
that is not meant for a parked waiter leaves it parked. -/
structure KindSafe (state : Overlap) (event : Event) : Prop where
  resolves : ∀ {next waiter value}, state.step event = some next →
    state.waiters.receiver waiter ≠ some (.sent value) →
    next.waiters.receiver waiter = some (.sent value) →
    ∃ ack, state.waking event = some ack ∧ Satisfies ack waiter ∧ value = ack.answer
  spares : ∀ {next ack waiter}, state.step event = some next →
    state.waking event = some ack → ¬ Satisfies ack waiter →
    state.waiters.pending waiter.id = some waiter → next.waiters.pending waiter.id = some waiter

/-- A wake that removes a slot finds one of the kind that it has looked for. -/
def Steady (state : Overlap) (event : Event) : Prop :=
  ∀ ⦃task ack waiter⦄, event = .proceed task → state.calls task = some (.taking ack) →
    state.waiters.pending ack.id = some waiter → waiter.slot = ack.slot

/-- Every wake holds a slot that it is meant for. -/
def HoldsOwn (state : Overlap) : Prop :=
  ∀ ⦃task ack waiter⦄, state.calls task = some (.settling ack waiter) → Satisfies ack waiter

theorem step_expected {task : TaskId} {ack : Ack} (idle : state.calls task = none)
    (expects : state.waiters.Expects ack) :
    state.step (.wake task ack) = some
      { state with calls := Function.update state.calls task (some (.taking ack)) } := by
  simp only [step, idle, if_pos expects]

theorem step_unexpected {task : TaskId} {ack : Ack} (idle : state.calls task = none)
    (unexpected : ¬ state.waiters.Expects ack) : state.step (.wake task ack) = some state := by
  simp only [step, idle, if_neg unexpected]

theorem step_took {task : TaskId} {ack : Ack} {waiter : Waiter}
    (stage : state.calls task = some (.taking ack))
    (found : state.waiters.pending ack.id = some waiter) :
    state.step (.proceed task) = some
      { waiters := state.waiters.take ack.id
        calls := Function.update state.calls task (some (.settling ack waiter)) } := by
  simp only [step, stage, found]

theorem step_settled {task : TaskId} {ack : Ack} {waiter : Waiter}
    (stage : state.calls task = some (.settling ack waiter)) :
    state.step (.proceed task) = some
      { waiters := state.waiters.settle ack waiter
        calls := Function.update state.calls task none } := by
  simp only [step, stage]

theorem pending_take (waiters : Waiters) (id other : PacketId) :
    (waiters.take id).pending other = if other = id then none else waiters.pending other :=
  Table.lookup_erase

/-- A wake that removes a slot of another kind is not safe. -/
theorem KindSafe.steady (safe : KindSafe state event) : Steady state event := by
  rintro task ack waiter rfl stage found
  by_contra differs
  obtain ⟨here, _⟩ := state.waiters.acks.stored.mp found
  -- the removal itself takes a waiter out that the wake is not meant for
  have kept := safe.spares (step_took stage found) (by simp [waking, stage, Waking.ack])
    (fun satisfied => differs satisfied.2.symm) (here ▸ found)
  rw [pending_take, if_pos here] at kept
  cases kept

theorem HoldsOwn.update (own : state.HoldsOwn) (waiters : Waiters) (task : TaskId)
    {call : Option Waking}
    (fits : ∀ {ack waiter}, call = some (.settling ack waiter) → Satisfies ack waiter) :
    HoldsOwn ⟨waiters, Function.update state.calls task call⟩ := by
  intro other ack waiter stage
  by_cases same : other = task
  · subst same
    exact fits ((Function.update_self other call state.calls).symm.trans stage)
  · exact own ((Function.update_of_ne same call state.calls).symm.trans stage)

theorem preserves_holdsOwn : Preserves step Steady HoldsOwn := by
  intro state event next own steady moved
  cases steps_of_step moved with
  | park | cancel | unexpected => exact own
  | expected | raced | settled => exact own.update _ _ (by simp)
  | @took task ack waiter stage found =>
      have here := (state.waiters.acks.stored.mp found).1
      have kind := steady rfl stage found
      refine own.update _ _ ?_
      rintro _ _ ⟨⟩
      exact ⟨here.symm, kind.symm⟩

theorem resolves_of_steady (own : state.HoldsOwn) (steps : state.Steps event next)
    {waiter : Waiter} {value : Wake}
    (unsent : state.waiters.receiver waiter ≠ some (.sent value))
    (sent : next.waiters.receiver waiter = some (.sent value)) :
    ∃ ack, state.waking event = some ack ∧ Satisfies ack waiter ∧ value = ack.answer := by
  cases steps with
  | park => exact absurd (Custody.sent_of_insert sent) unsent
  | cancel | took =>
      rcases Custody.sent_of_release (by simp) sent with told | before
      · cases told
      · exact absurd before unsent
  | expected | unexpected | raced => exact absurd sent unsent
  | @settled task ack held stage =>
      -- only here a value is sent, and the hand holds what the wake is meant for
      have satisfies := own stage
      rw [Waiters.receiver, state.waiters.acks_settle satisfies.2.symm] at sent
      rcases Custody.sent_of_use sent with ⟨rfl, rfl⟩ | before
      · exact ⟨ack, by simp [waking, stage, Waking.ack], satisfies, rfl⟩
      · exact absurd before unsent

theorem spares_of_steady (own : state.HoldsOwn) (steady : Steady state event)
    (steps : state.Steps event next) {ack : Ack} {waiter : Waiter}
    (wakes : state.waking event = some ack) (unmeant : ¬ Satisfies ack waiter)
    (parked : state.waiters.pending waiter.id = some waiter) :
    next.waiters.pending waiter.id = some waiter := by
  cases steps with
  | park | cancel => cases wakes
  | expected | unexpected | raced => exact parked
  | @took task looked found stage here =>
      have same : looked = ack := by simpa [waking, stage, Waking.ack] using wakes
      subst same
      -- a waiter parked under the id of the wake is the one it finds, which has its kind
      have elsewhere : waiter.id ≠ looked.id := by
        intro same
        cases here.symm.trans (same ▸ parked)
        exact unmeant ⟨same.symm, (steady rfl stage here).symm⟩
      rw [pending_take, if_neg elsewhere, parked]
  | @settled task held taken stage =>
      rw [Waiters.pending, state.waiters.acks_settle (own stage).2.symm, Custody.parked_use]
      exact parked

theorem Steady.kindSafe (own : state.HoldsOwn) (steady : Steady state event) :
    KindSafe state event where
  resolves moved := resolves_of_steady own (steps_of_step moved)
  spares moved := spares_of_steady own steady (steps_of_step moved)

/-- However the accesses of the calls are interleaved, every step is safe exactly if every
wake that removes a slot finds one of the kind that it has looked for. -/
theorem wakes_kind_safe_iff (events : List Event) (final : Overlap) :
    Run step KindSafe .new events final ↔ Run step Steady .new events final := by
  constructor
  · exact fun run => run.mono fun _ _ safe => safe.steady
  · intro run
    refine run.mono_of_invariant preserves_holdsOwn ?_ fun _ _ own steady => steady.kindSafe own
    intro task ack waiter stage
    cases stage

/-- PUBREC comes twice, and two tasks look at the slot before one of them removes it.  The
flow goes on to wait for PUBCOMP, and the second task removes that slot. -/
def repeatedPubrec : List Event :=
  [.park 7 (.publishAck .pubrec), .wake 1 (.publishAck .pubrec 7), .wake 2 (.publishAck .pubrec 7),
    .proceed 1, .proceed 1, .park 7 (.publishAck .pubcomp), .proceed 2, .proceed 2]

/-- A SUBACK looks at the slot, the slot is replaced and the new one removed, and the id is
used again before the removed slot is put back. -/
def replacedSuback : List Event :=
  [.park 7 .suback, .wake 1 (.suback 7 []), .park 7 (.publishAck .puback), .proceed 1,
    .park 7 .unsuback]

/-- PUBREC tells a waiter for PUBCOMP that its flow is complete, and SUBACK drops a waiter
for UNSUBACK. -/
theorem overlapping_wakes_unsafe :
    (∃ final, Run step Any .new repeatedPubrec final ∧
      final.waiters.receiver ⟨7, .publishAck .pubcomp, 1⟩ = some (.sent (.publishAck 7))) ∧
    ∃ before after, Run step Any .new replacedSuback before ∧
      before.waiters.receiver ⟨7, .unsuback, 2⟩ = some .waiting ∧
      before.waking (.proceed 1) = some (.suback 7 []) ∧
      Run step Any before [.proceed 1] after ∧
      after.waiters.receiver ⟨7, .unsuback, 2⟩ = some .closed :=
  ⟨⟨_, Follows.run (by decide +kernel), by decide +kernel⟩,
    ⟨_, _, Follows.run (by decide +kernel), by decide +kernel, by decide +kernel,
      Follows.run (by decide +kernel), by decide +kernel⟩⟩

/-! ## Wakes that run alone -/

/-- A wake whose accesses follow each other is the whole operation. -/
theorem wake_alone {task : TaskId} (idle : state.calls task = none) (ack : Ack) :
    ∃ count final,
      Run step Steady state (.wake task ack :: .replicate count (.proceed task)) final ∧
      final.waiters = state.waiters.wake ack ∧ final.calls = state.calls := by
  have steadyWake : Steady state (.wake task ack) := by
    rintro _ _ _ ⟨⟩
  by_cases expects : state.waiters.Expects ack
  · obtain ⟨waiter, found, slot⟩ := Option.map_eq_some_iff.mp expects
    let looking : Overlap := ⟨state.waiters, Function.update state.calls task (some (.taking ack))⟩
    have stage : looking.calls task = some (.taking ack) := Function.update_self ..
    have steadyTake : Steady looking (.proceed task) := by
      rintro _ _ _ ⟨⟩ taking here
      cases stage.symm.trans taking
      cases found.symm.trans here
      exact slot
    let holding : Overlap :=
      ⟨state.waiters.take ack.id, Function.update looking.calls task (some (.settling ack waiter))⟩
    have holds : holding.calls task = some (.settling ack waiter) := Function.update_self ..
    have steadySettle : Steady holding (.proceed task) := by
      rintro _ _ _ ⟨⟩ taking
      cases holds.symm.trans taking
    refine ⟨2, _, .cons steadyWake (step_expected idle expects) (.cons steadyTake
      (step_took stage found) (.cons steadySettle (step_settled holds) (.nil _))), ?_, ?_⟩
    · simp only [Waiters.wake, if_pos expects, found]
    · rw [Function.update_idem, Function.update_idem]
      exact Function.update_eq_self_iff.mpr idle.symm
  · refine ⟨0, state, .cons steadyWake (step_unexpected idle expects) (.nil _), ?_, rfl⟩
    rw [Waiters.wake, if_neg expects]

end Overlap

end HotaruMqtt.Channel
