import Mathlib.Data.Option.Basic
import Mathlib.Logic.Relation

/-!
# Runs of partial steps

A system moves by events, and an event that is not enabled has no successor.
A run carries a condition that each of its steps meets in the state it starts
from, so that "every run whose steps are all of this kind" is one predicate.

`replay` and `Follows` are the executable side: a list of events is played from
a state, and that each is enabled and meets the condition can be evaluated.
-/

namespace HotaruMqtt.Exec.Transition

universe u v

variable {σ τ : Type u} {ε δ : Type v}

/-- The run of a list of events, each of which meets the condition. -/
inductive Run (step : σ → ε → Option σ) (meets : σ → ε → Prop) : σ → List ε → σ → Prop
  | nil (state : σ) : Run step meets state [] state
  | cons {state middle final : σ} {event : ε} {events : List ε}
      (met : meets state event) (moved : step state event = some middle)
      (rest : Run step meets middle events final) : Run step meets state (event :: events) final

/-- No condition on the steps. -/
def Any (_ : σ) (_ : ε) : Prop := True

instance (state : σ) (event : ε) : Decidable (Any state event) :=
  inferInstanceAs (Decidable True)

/-- One step keeps the property, whenever it meets the condition. -/
def Preserves (step : σ → ε → Option σ) (meets : σ → ε → Prop) (property : σ → Prop) : Prop :=
  ∀ ⦃state event next⦄, property state → meets state event → step state event = some next →
    property next

/-- What is shown of a step: nothing has changed, or a step has been made that meets the
condition. -/
def Shows (step : σ → ε → Option σ) (meets : σ → ε → Prop) (state next : σ) : Option ε → Prop
  | none => next = state
  | some event => meets state event ∧ step state event = some next

variable {step : σ → ε → Option σ} {meets : σ → ε → Prop} {state middle final : σ}
  {events first second : List ε}

namespace Run

theorem append (before : Run step meets state first middle)
    (after : Run step meets middle second final) :
    Run step meets state (first ++ second) final := by
  induction before with
  | nil _ => exact after
  | cons met moved _ ih => exact .cons met moved (ih after)

/-- A run passes through a state between any two of its parts. -/
theorem exists_between (run : Run step meets state (first ++ second) final) :
    ∃ middle, Run step meets state first middle ∧ Run step meets middle second final := by
  induction first generalizing state with
  | nil => exact ⟨state, .nil state, run⟩
  | cons event first ih =>
      cases run with
      | cons met moved rest =>
          obtain ⟨middle, before, after⟩ := ih rest
          exact ⟨middle, .cons met moved before, after⟩

/-- What every step keeps holds at the end if it holds at the start. -/
theorem invariant {property : σ → Prop} (run : Run step meets state events final)
    (preserves : Preserves step meets property) (initially : property state) :
    property final := by
  induction run with
  | nil _ => exact initially
  | cons met moved _ ih => exact ih (preserves initially met moved)

/-- A run whose steps meet more. -/
theorem mono {weaker : σ → ε → Prop} (run : Run step meets state events final)
    (implies : ∀ ⦃state event⦄, meets state event → weaker state event) :
    Run step weaker state events final := by
  induction run with
  | nil state => exact .nil state
  | cons met moved _ ih => exact .cons (implies met) moved ih

/-- A run whose steps meet more, in the states that the run can reach. -/
theorem mono_of_invariant {property : σ → Prop} {weaker : σ → ε → Prop}
    (run : Run step meets state events final) (preserves : Preserves step meets property)
    (initially : property state)
    (implies : ∀ ⦃state event⦄, property state → meets state event → weaker state event) :
    Run step weaker state events final := by
  induction run with
  | nil state => exact .nil state
  | cons met moved _ ih =>
      exact .cons (implies initially met) moved (ih (preserves initially met moved))

/-- A run whose steps meet more, told from where they lead. -/
theorem mono_toward {weaker : σ → ε → Prop} (run : Run step meets state events final)
    (implies : ∀ ⦃state event next rest⦄, meets state event → step state event = some next →
      Run step meets next rest final → weaker state event) :
    Run step weaker state events final := by
  induction run with
  | nil state => exact .nil state
  | cons met moved rest ih => exact .cons (implies met moved rest) moved (ih implies)

/-- Each step of a system shows as at most one step of another, so that its runs
show as runs of the other. -/
theorem project {other : τ → δ → Option τ} {view : σ → τ}
    (steps : ∀ ⦃state event next⦄, step state event = some next →
      view next = view state ∨ ∃ shown, other (view state) shown = some (view next))
    (run : Run step meets state events final) :
    ∃ shown, Run other Any (view state) shown (view final) := by
  induction run with
  | nil state => exact ⟨[], .nil _⟩
  | cons _ moved _ ih =>
      obtain ⟨shown, rest⟩ := ih
      rcases steps moved with same | ⟨event, shownStep⟩
      · exact ⟨shown, same ▸ rest⟩
      · exact ⟨event :: shown, .cons trivial shownStep rest⟩

/-- A system whose steps show as steps of another, or not at all, has its runs shown as
runs of the other. -/
theorem simulates {other : τ → δ → Option τ} {otherMeets : τ → δ → Prop} {view : σ → τ}
    {shown : ε → Option δ} {property : σ → Prop}
    (steps : ∀ ⦃state event next⦄, property state → meets state event →
      step state event = some next →
      property next ∧ Shows other otherMeets (view state) (view next) (shown event))
    (initially : property state) (run : Run step meets state events final) :
    Run other otherMeets (view state) (events.filterMap shown) (view final) := by
  induction run with
  | nil state => exact .nil _
  | @cons _ _ _ event _ met moved _ ih =>
      obtain ⟨later, shows⟩ := steps initially met moved
      have rest := ih later
      cases seen : shown event with
      | none =>
          rw [seen] at shows
          rw [List.filterMap_cons_none seen, ← shows]
          exact rest
      | some event =>
          rw [seen] at shows
          rw [List.filterMap_cons_some seen]
          exact .cons shows.1 shows.2 rest

end Run

/-! ## Playing a list of events -/

/-- The state after a list of events; one that is not enabled changes nothing. -/
def replay (step : σ → ε → Option σ) : σ → List ε → σ
  | state, [] => state
  | state, event :: events => replay step ((step state event).getD state) events

/-- Every event is enabled in its turn and meets the condition. -/
def Follows (step : σ → ε → Option σ) (meets : σ → ε → Prop) : σ → List ε → Prop
  | _, [] => True
  | state, event :: events =>
      meets state event ∧ (step state event).isSome ∧
        Follows step meets ((step state event).getD state) events

instance Follows.decidable (step : σ → ε → Option σ) (meets : σ → ε → Prop)
    [meetsDecidable : ∀ state event, Decidable (meets state event)] :
    (state : σ) → (events : List ε) → Decidable (Follows step meets state events)
  | _, [] => inferInstanceAs (Decidable True)
  | state, event :: events =>
      have := Follows.decidable step meets ((step state event).getD state) events
      inferInstanceAs (Decidable (meets state event ∧ (step state event).isSome ∧
        Follows step meets ((step state event).getD state) events))

/-- A list of events that follows is a run to the state it is played to. -/
theorem Follows.run (follows : Follows step meets state events) :
    Run step meets state events (replay step state events) := by
  induction events generalizing state with
  | nil => exact .nil state
  | cons event events ih =>
      obtain ⟨met, enabled, rest⟩ := follows
      obtain ⟨next, moved⟩ := Option.isSome_iff_exists.mp enabled
      rw [moved, Option.getD_some] at rest
      rw [replay, moved, Option.getD_some]
      exact .cons met moved (ih rest)

end HotaruMqtt.Exec.Transition
