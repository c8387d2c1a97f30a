import HotaruMqtt.Exec.Outcome
import Mathlib.Logic.Relation

/-!
# Loops over fallible bodies

A loop body either goes round again with a new state or leaves with a result.
The executable loop takes its fuel from a measure of the starting state; once
the measure is known to drop on every pass, the fuel disappears from view and
the loop obeys the equation one would write for it by hand.
-/

namespace HotaruMqtt.Exec.Loop

open Outcome

universe u v w

/-- How one pass through a loop body ends. -/
inductive Pass (σ : Type v) (ρ : Type v)
  | again (state : σ)
  | leave (result : ρ)
  deriving DecidableEq, Repr

variable {ε : Type u} {σ ρ : Type v}

/-- Run a loop for at most `fuel` passes. -/
def run (body : σ → Outcome ε (Pass σ ρ)) : Nat → σ → Outcome ε ρ
  | 0, _ => .panic .stillRunning
  | fuel + 1, state =>
      body state >>= fun
        | .again next => run body fuel next
        | .leave result => ok result

/-- Run a loop with the fuel its measure allows. -/
def exec (body : σ → Outcome ε (Pass σ ρ)) (measure : σ → Nat)
    (state : σ) : Outcome ε ρ :=
  run body (measure state + 1) state

/-- Every pass that goes round again lowers the measure. -/
def Decreases (body : σ → Outcome ε (Pass σ ρ)) (measure : σ → Nat) : Prop :=
  ∀ ⦃state next⦄, body state = ok (.again next) → measure next < measure state

/-- The states a loop passes through from a given start. -/
def Reaches (body : σ → Outcome ε (Pass σ ρ)) : σ → σ → Prop :=
  Relation.ReflTransGen fun state next => body state = ok (.again next)

variable {body : σ → Outcome ε (Pass σ ρ)} {measure : σ → Nat}

/-- Fuel beyond the measure is never used. -/
theorem run_eq_run_of_lt (decreases : Decreases body measure)
    {first second : Nat} {state : σ}
    (firstEnough : measure state < first)
    (secondEnough : measure state < second) :
    run body first state = run body second state := by
  induction first generalizing second state with
  | zero => exact absurd firstEnough (Nat.not_lt_zero _)
  | succ first ih =>
      cases second with
      | zero => exact absurd secondEnough (Nat.not_lt_zero _)
      | succ second =>
          -- Both sides make the same pass; only the fuel left over differs.
          rw [run, run]
          cases pass : body state with
          | err error => rfl
          | panic cause => rfl
          | ok step =>
              cases step with
              | leave result => rfl
              | again next =>
                  have lower := decreases pass
                  exact ih (by omega) (by omega)

/-- A loop with a decreasing measure satisfies its own unfolding equation. -/
theorem exec_eq (decreases : Decreases body measure) (state : σ) :
    exec body measure state =
      body state >>= fun
        | .again next => exec body measure next
        | .leave result => ok result := by
  rw [exec, run]
  cases pass : body state with
  | err error => rfl
  | panic cause => rfl
  | ok step =>
      cases step with
      | leave result => rfl
      | again next =>
          have lower := decreases pass
          exact run_eq_run_of_lt decreases lower (Nat.lt_succ_self _)

/-- Induction along the passes of a loop with a decreasing measure. -/
theorem Decreases.induction (decreases : Decreases body measure)
    {motive : σ → Prop}
    (pass : ∀ state,
      (∀ next, body state = ok (.again next) → motive next) → motive state)
    (state : σ) : motive state := by
  induction size : measure state using Nat.strongRecOn
    generalizing state with
  | ind size ih =>
      apply pass state
      intro next step
      have lower := decreases step
      exact ih (measure next) (by omega) next rfl

/-- A loop whose passes stay within the allowed errors does so as a whole; in
particular it ends. -/
theorem exec_only {allowed : ε → Prop} (decreases : Decreases body measure) (state : σ)
    (bodyOnly : ∀ reached, Reaches body state reached → (body reached).Only allowed) :
    (exec body measure state).Only allowed := by
  induction state using decreases.induction with
  | pass state ih =>
      rw [exec_eq decreases]
      apply (bodyOnly state .refl).bind
      intro step stepEq
      cases step with
      | leave result => exact only_ok result
      | again next =>
          apply ih next stepEq
          intro reached path
          exact bodyOnly reached (.head stepEq path)

/-- A property kept by every pass holds in every state a loop passes through. -/
theorem Reaches.invariant {start reached : σ} (path : Reaches body start reached)
    {invariant : σ → Prop} (initial : invariant start)
    (kept : ∀ ⦃state next⦄, invariant state →
      body state = ok (.again next) → invariant next) :
    invariant reached := by
  induction path with
  | refl => exact initial
  | tail _ step holds => exact kept holds step

end HotaruMqtt.Exec.Loop
