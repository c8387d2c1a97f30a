import Mathlib.Data.List.Basic

/-!
# Outcomes of fallible code

A call either returns a value, returns an error, or stops the thread.  Keeping
the third case in the type lets an executable model fail at an out-of-range
index instead of silently reading a default, so panic-freedom is a statement
about the model rather than an assumption built into it.

The question-mark operator is `bind`: errors and panics both leave the
computation, but only errors are values that a caller may inspect.
-/

namespace HotaruMqtt.Exec

universe u v w

/-- Why a thread stopped without returning. -/
inductive Panic
  | indexOutOfBounds
  | unreachableCode
  /-- A loop model ran out of fuel before its loop was left. -/
  | stillRunning
  deriving DecidableEq, Repr

/-- What one call ends as. -/
inductive Outcome (ε : Type u) (α : Type v)
  | ok (value : α)
  | err (error : ε)
  | panic (cause : Panic)
  deriving DecidableEq, Repr

namespace Outcome

variable {ε : Type u} {α : Type v} {β : Type w}

/-- Sequencing, as the question-mark operator does it. -/
protected def bind : Outcome ε α → (α → Outcome ε β) → Outcome ε β
  | ok value, next => next value
  | err error, _ => err error
  | panic cause, _ => panic cause

instance : Monad (Outcome ε) where
  pure := ok
  bind := Outcome.bind

@[simp]
theorem pure_eq_ok (value : α) : (pure value : Outcome ε α) = ok value :=
  rfl

@[simp]
theorem ok_bind {β : Type v} (value : α) (next : α → Outcome ε β) :
    (ok value >>= next) = next value :=
  rfl

@[simp]
theorem err_bind {β : Type v} (error : ε) (next : α → Outcome ε β) :
    ((err error : Outcome ε α) >>= next) = err error :=
  rfl

@[simp]
theorem panic_bind {β : Type v} (cause : Panic) (next : α → Outcome ε β) :
    ((panic cause : Outcome ε α) >>= next) = panic cause :=
  rfl

/-- A sequence returns exactly when both halves do. -/
theorem bind_eq_ok_iff {β : Type v} {first : Outcome ε α}
    {next : α → Outcome ε β} {result : β} :
    (first >>= next) = ok result ↔
      ∃ value, first = ok value ∧ next value = ok result := by
  cases first <;> simp

/-- Turn an absent value into an error. -/
def okOr (error : ε) : Option α → Outcome ε α
  | some value => ok value
  | none => err error

@[simp]
theorem okOr_some (error : ε) (value : α) :
    okOr error (some value) = ok value :=
  rfl

@[simp]
theorem okOr_none (error : ε) : okOr error (none : Option α) = err error :=
  rfl

@[simp]
theorem okOr_eq_ok_iff {error : ε} {value : α} {found : Option α} :
    okOr error found = ok value ↔ found = some value := by
  cases found <;> simp

/-- Collect the values of a sequence of calls, stopping at the first that
returns none. -/
def collect : List (Outcome ε α) → Outcome ε (List α)
  | [] => ok []
  | first :: rest => do
      let value ← first
      let values ← collect rest
      ok (value :: values)

/-- Collecting succeeds exactly when every call does. -/
theorem collect_eq_ok_iff {calls : List (Outcome ε α)} {values : List α} :
    collect calls = ok values ↔ calls = values.map ok := by
  induction calls generalizing values with
  | nil => cases values <;> simp [collect]
  | cons first rest ih =>
      cases values with
      | nil => simp [collect, bind_eq_ok_iff]
      | cons value values => simp [collect, bind_eq_ok_iff, ih]

/-- The call does not stop its thread. -/
def Safe (outcome : Outcome ε α) : Prop :=
  ∀ cause, outcome ≠ panic cause

@[simp]
theorem safe_ok (value : α) : (ok value : Outcome ε α).Safe := by
  intro cause
  simp

@[simp]
theorem safe_err (error : ε) : (err error : Outcome ε α).Safe := by
  intro cause
  simp

@[simp]
theorem safe_okOr (error : ε) (found : Option α) : (okOr error found).Safe := by
  cases found <;> simp

/-- The outcome is not a panic, and an error is one of the allowed ones. -/
structure Only (allowed : ε → Prop) (outcome : Outcome ε α) : Prop where
  safe : outcome.Safe
  error : ∀ error, outcome = err error → allowed error

section Only

variable {allowed : ε → Prop}

theorem only_ok (value : α) : (ok value : Outcome ε α).Only allowed :=
  ⟨safe_ok value, by simp⟩

theorem only_err {error : ε} (permitted : allowed error) :
    (err error : Outcome ε α).Only allowed := by
  refine ⟨safe_err error, ?_⟩
  rintro other ⟨⟩
  exact permitted

theorem only_okOr {error : ε} (permitted : allowed error) (found : Option α) :
    (okOr error found).Only allowed := by
  cases found with
  | none => exact only_err permitted
  | some value => exact only_ok value

/-- A sequence stays within the allowed errors when both halves do. -/
theorem Only.bind {β : Type v} {first : Outcome ε α} {next : α → Outcome ε β}
    (firstOnly : first.Only allowed)
    (nextOnly : ∀ value, first = ok value → (next value).Only allowed) :
    (first >>= next).Only allowed := by
  cases first with
  | ok value => exact nextOnly value rfl
  | err error => exact only_err (firstOnly.error error rfl)
  | panic cause => exact absurd rfl (firstOnly.safe cause)

/-- Collecting stays within the allowed errors when every call does. -/
theorem only_collect {calls : List (Outcome ε α)}
    (callsOnly : ∀ call ∈ calls, call.Only allowed) : (collect calls).Only allowed := by
  induction calls with
  | nil => exact only_ok _
  | cons first rest ih =>
      apply (callsOnly first List.mem_cons_self).bind
      intro value _
      apply (ih fun call member => callsOnly call (List.mem_cons_of_mem _ member)).bind
      intro values _
      exact only_ok _

end Only

end Outcome

end HotaruMqtt.Exec
