import HotaruMqtt.Exec.Loop

/-!
# Loops that read a buffer entry by entry

A common parsing loop keeps a cursor into a buffer and a list of entries, and
at each pass reads one self-delimiting entry at the cursor until the cursor
reaches the end.  Described by the bytes of one entry, such a loop accepts
exactly the concatenations of entries, consumes the whole buffer, and ends.
-/

namespace HotaruMqtt.Framing

open Exec Exec.Outcome

universe u

/-- The state of an entry loop: the cursor and the entries so far. -/
abbrev EntryState (α : Type u) := Nat × List α

/-- `pass` reads one entry of the buffer at the cursor: the entry is laid out
as `bytes`, satisfies `fits`, and is appended to the entries so far. -/
structure EntryLoop {α β ε : Type} (buffer : List β)
    (pass : EntryState α → Outcome ε (Loop.Pass (EntryState α) (List α)))
    (bytes : α → List β) (fits : α → Prop) : Prop where
  again_iff : ∀ {cursor entries next nextEntries},
    pass (cursor, entries) = ok (.again (next, nextEntries)) ↔
      ∃ entry, nextEntries = entries ++ [entry] ∧ fits entry ∧
        next = cursor + (bytes entry).length ∧
        buffer.drop cursor = bytes entry ++ buffer.drop next
  leave_iff : ∀ {cursor entries result},
    pass (cursor, entries) = ok (.leave result) ↔
      buffer.length ≤ cursor ∧ result = entries
  nonempty : ∀ entry, 0 < (bytes entry).length

namespace EntryLoop

variable {α β ε : Type} {buffer : List β}
  {pass : EntryState α → Outcome ε (Loop.Pass (EntryState α) (List α))}
  {bytes : α → List β} {fits : α → Prop}

/-- Each pass moves the cursor towards the end of the buffer. -/
theorem decreases (entryLoop : EntryLoop buffer pass bytes fits) :
    Loop.Decreases pass fun state => buffer.length - state.1 := by
  rintro ⟨cursor, entries⟩ ⟨next, nextEntries⟩ step
  obtain ⟨entry, -, -, rfl, found⟩ := entryLoop.again_iff.mp step
  have positive := entryLoop.nonempty entry
  have lengths := congrArg List.length found
  simp only [List.length_drop, List.length_append] at lengths
  dsimp only
  omega

/-- The loop accepts exactly the concatenations of fitting entries. -/
theorem exec_eq_ok_iff (entryLoop : EntryLoop buffer pass bytes fits)
    {cursor : Nat} {entries result : List α} :
    Loop.exec pass (fun state => buffer.length - state.1) (cursor, entries) = ok result ↔
      ∃ read, result = entries ++ read ∧ (∀ entry ∈ read, fits entry) ∧
        buffer.drop cursor = read.flatMap bytes := by
  constructor
  · intro finished
    -- Induction along the passes; the entries so far grow at each one.
    have along : ∀ state : EntryState α,
        Loop.exec pass (fun state => buffer.length - state.1) state = ok result →
          ∃ read, result = state.2 ++ read ∧ (∀ entry ∈ read, fits entry) ∧
            buffer.drop state.1 = read.flatMap bytes := by
      intro state
      induction state using entryLoop.decreases.induction with
      | pass state ih =>
          obtain ⟨cursor, entries⟩ := state
          intro finished
          rw [Loop.exec_eq entryLoop.decreases] at finished
          obtain ⟨step, stepEq, rest⟩ := bind_eq_ok_iff.mp finished
          cases step with
          | leave left =>
              cases rest
              obtain ⟨atEnd, rfl⟩ := entryLoop.leave_iff.mp stepEq
              refine ⟨[], by simp, by simp, ?_⟩
              exact List.drop_of_length_le atEnd
          | again next =>
              obtain ⟨nextCursor, nextEntries⟩ := next
              obtain ⟨read, resultEq, readFit, readBytes⟩ := ih _ stepEq rest
              obtain ⟨entry, rfl, entryFits, rfl, found⟩ := entryLoop.again_iff.mp stepEq
              refine ⟨entry :: read, ?_, ?_, ?_⟩
              · rw [resultEq, List.append_assoc]
                rfl
              · simpa using ⟨entryFits, readFit⟩
              · rw [found, readBytes, List.flatMap_cons]
    exact along (cursor, entries) finished
  · rintro ⟨read, rfl, readFit, readBytes⟩
    induction read generalizing cursor entries with
    | nil =>
        have atEnd : buffer.length ≤ cursor := List.drop_eq_nil_iff.mp readBytes
        rw [Loop.exec_eq entryLoop.decreases, entryLoop.leave_iff.mpr ⟨atEnd, rfl⟩]
        simp
    | cons entry read ih =>
        rw [List.flatMap_cons] at readBytes
        have tail : buffer.drop (cursor + (bytes entry).length) = read.flatMap bytes := by
          rw [← List.drop_drop, readBytes, List.drop_left]
        have step : pass (cursor, entries) =
            ok (.again (cursor + (bytes entry).length, entries ++ [entry])) := by
          rw [entryLoop.again_iff]
          refine ⟨entry, rfl, readFit entry List.mem_cons_self, rfl, ?_⟩
          rw [tail, readBytes]
        rw [Loop.exec_eq entryLoop.decreases, step, ok_bind]
        dsimp only
        rw [ih (fun other member => readFit other (List.mem_cons_of_mem _ member)) tail,
          List.append_assoc]
        rfl

/-- A pass that is guarded by the end of the buffer leaves the loop there only. -/
theorem leave_iff_of_guard {cursor : Nat} {entries result : List α}
    {inside : Outcome ε (Loop.Pass (EntryState α) (List α))}
    (stays : ∀ left, inside ≠ ok (.leave left)) :
    (if cursor < buffer.length then inside else ok (.leave entries)) = ok (.leave result) ↔
      buffer.length ≤ cursor ∧ result = entries := by
  split
  · rename_i before
    constructor
    · intro left
      exact absurd left (stays result)
    · rintro ⟨atEnd, -⟩
      omega
  · rename_i atEnd
    simp only [ok.injEq, Loop.Pass.leave.injEq]
    constructor
    · rintro rfl
      exact ⟨Nat.not_lt.mp atEnd, rfl⟩
    · rintro ⟨-, rfl⟩
      rfl

/-- An entry loop ends, and stays within the errors of its passes. -/
theorem exec_only {allowed : ε → Prop} (entryLoop : EntryLoop buffer pass bytes fits)
    (passOnly : ∀ state, (pass state).Only allowed) (state : EntryState α) :
    (Loop.exec pass (fun state => buffer.length - state.1) state).Only allowed :=
  Loop.exec_only entryLoop.decreases state fun reached _ => passOnly reached

end EntryLoop

end HotaruMqtt.Framing
