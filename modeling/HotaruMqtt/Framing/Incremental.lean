import HotaruMqtt.Exec.Loop

/-!
# Incremental decoding

A buffered decoder takes at most one item off the front of a buffer and hands
back the buffer it leaves.  The driver appends each chunk that arrives and
calls the decoder until it asks for more input or fails.

A decoder is *incremental* when its verdict, once given, survives whatever
follows in the buffer.  For such a decoder the driver's items and final
verdict depend on the bytes that arrived and not on how they were cut up.
-/

namespace HotaruMqtt.Framing

open Exec Exec.Outcome

universe u

/-- A decoder on a mutable buffer: its answer, and the buffer afterwards. -/
abbrev Decoder (α ε π : Type u) :=
  List α → Outcome ε (Option π) × List α

/-- The verdict a driver has reached: it waits with a buffer, or it failed. -/
inductive Verdict (α ε : Type u)
  | needMore (buffer : List α)
  | failed (error : ε)
  deriving DecidableEq, Repr

/-- The driver between two chunks: the items so far and the verdict. -/
structure Driver (α ε π : Type u) where
  items : List π
  verdict : Verdict α ε
  deriving DecidableEq, Repr

/-- The driver before anything has arrived. -/
def Driver.start (α ε π : Type u) : Driver α ε π :=
  ⟨[], .needMore []⟩

section

variable {α ε π : Type u}

/-- One call of the decoder inside the driver's loop. -/
def drainPass (decode : Decoder α ε π) (state : List π × List α) :
    Outcome ε (Loop.Pass (List π × List α) (Driver α ε π)) :=
  match decode state.2 with
  | (.ok none, rest) => ok (.leave ⟨state.1, .needMore rest⟩)
  | (.ok (some item), rest) => ok (.again (state.1 ++ [item], rest))
  | (.err error, _) => ok (.leave ⟨state.1, .failed error⟩)
  | (.panic cause, _) => .panic cause

/-- Call the decoder until it returns no item. -/
def drain (decode : Decoder α ε π) (items : List π) (buffer : List α) :
    Outcome ε (Driver α ε π) :=
  Loop.exec (drainPass decode) (fun state => state.2.length) (items, buffer)

/-- Append one chunk and drain; a driver that has failed stays failed. -/
def feed (decode : Decoder α ε π) (driver : Driver α ε π) (chunk : List α) :
    Outcome ε (Driver α ε π) :=
  match driver.verdict with
  | .needMore buffer => drain decode driver.items (buffer ++ chunk)
  | .failed _ => ok driver

/-- Feed the chunks in order. -/
def feedAll (decode : Decoder α ε π) :
    Driver α ε π → List (List α) → Outcome ε (Driver α ε π)
  | driver, [] => ok driver
  | driver, chunk :: chunks => do
      let next ← feed decode driver chunk
      feedAll decode next chunks

/-- The verdicts of the decoder survive whatever follows in the buffer. -/
structure Incremental (decode : Decoder α ε π) : Prop where
  nil : decode [] = (ok none, [])
  none_keeps : ∀ {buffer rest},
    decode buffer = (ok none, rest) → rest = buffer
  some_append : ∀ {buffer item rest}, decode buffer = (ok (some item), rest) →
    ∀ more, decode (buffer ++ more) = (ok (some item), rest ++ more)
  err_append : ∀ {buffer error rest}, decode buffer = (err error, rest) →
    ∀ more, decode (buffer ++ more) = (err error, rest ++ more)
  some_shrinks : ∀ {buffer item rest}, decode buffer = (ok (some item), rest) →
    rest.length < buffer.length
  safe : ∀ buffer, (decode buffer).1.Safe

namespace Incremental

variable {decode : Decoder α ε π} (incremental : Incremental decode)
include incremental

theorem drainPass_decreases :
    Loop.Decreases (drainPass decode) fun state => state.2.length := by
  rintro ⟨items, buffer⟩ next step
  unfold drainPass at step
  split at step
  · simp at step
  · rename_i item rest decoded
    simp only [ok.injEq, Loop.Pass.again.injEq] at step
    subst next
    exact incremental.some_shrinks decoded
  · simp at step
  · simp at step

/-- Draining follows the decoder's verdict on the buffer. -/
theorem drain_eq (items : List π) (buffer : List α) :
    drain decode items buffer =
      match decode buffer with
      | (.ok none, rest) => ok ⟨items, .needMore rest⟩
      | (.ok (some item), rest) => drain decode (items ++ [item]) rest
      | (.err error, _) => ok ⟨items, .failed error⟩
      | (.panic cause, _) => .panic cause := by
  unfold drain
  rw [Loop.exec_eq incremental.drainPass_decreases]
  unfold drainPass
  dsimp only
  rcases decode buffer with ⟨⟨_ | item⟩ | error | cause, rest⟩ <;> rfl

/-- Strong induction on the length of the buffer, through the items taken. -/
theorem buffer_induction {motive : List π → List α → Prop}
    (step : ∀ items buffer,
      (∀ item rest, decode buffer = (ok (some item), rest) →
        motive (items ++ [item]) rest) → motive items buffer)
    (items : List π) (buffer : List α) : motive items buffer := by
  induction size : buffer.length using Nat.strongRecOn
    generalizing items buffer with
  | ind size ih =>
      apply step
      intro item rest decoded
      have shorter := incremental.some_shrinks decoded
      exact ih rest.length (by omega) _ _ rfl

/-- Draining always ends with a verdict. -/
theorem drain_ok (items : List π) (buffer : List α) :
    ∃ driver, drain decode items buffer = ok driver := by
  induction items, buffer using incremental.buffer_induction with
  | step items buffer ih =>
      rw [incremental.drain_eq]
      cases decoded : decode buffer with
      | mk answer rest =>
          cases answer with
          | ok found =>
              cases found with
              | none => exact ⟨_, rfl⟩
              | some item => exact ih item rest decoded
          | err error => exact ⟨_, rfl⟩
          | panic cause =>
              have safe := incremental.safe buffer cause
              rw [decoded] at safe
              exact absurd rfl safe

/-- Draining a longer buffer is draining the shorter one and then feeding it
the rest. -/
theorem drain_append (items : List π) (buffer more : List α) :
    drain decode items (buffer ++ more) =
      drain decode items buffer >>= fun driver => feed decode driver more := by
  induction items, buffer using incremental.buffer_induction with
  | step items buffer ih =>
      rw [incremental.drain_eq items buffer]
      cases decoded : decode buffer with
      | mk answer rest =>
          cases answer with
          | ok found =>
              cases found with
              | none =>
                  have kept := incremental.none_keeps decoded
                  subst rest
                  rfl
              | some item =>
                  rw [incremental.drain_eq,
                    incremental.some_append decoded more]
                  exact ih item rest decoded
          | err error =>
              rw [incremental.drain_eq, incremental.err_append decoded more]
              rfl
          | panic cause =>
              have safe := incremental.safe buffer cause
              rw [decoded] at safe
              exact absurd rfl safe

/-- Feeding two chunks is feeding their concatenation. -/
theorem feed_append (driver : Driver α ε π) (first second : List α) :
    feed decode driver (first ++ second) =
      feed decode driver first >>= fun next => feed decode next second := by
  rcases driver with ⟨items, buffer | error⟩
  · simp only [feed]
    rw [← List.append_assoc]
    exact incremental.drain_append items (buffer ++ first) second
  · rfl

/-- A waiting driver whose buffer the decoder cannot use gains nothing from an
empty chunk. -/
theorem feed_nil_start : feed decode (Driver.start α ε π) [] =
    ok (Driver.start α ε π) := by
  change drain decode [] [] = _
  rw [incremental.drain_eq, incremental.nil]
  rfl

/-- The driver's answer does not depend on how its input was cut up. -/
theorem feedAll_eq_feed_flatten (driver : Driver α ε π)
    (first : List α) (chunks : List (List α)) :
    feedAll decode driver (first :: chunks) =
      feed decode driver (first ++ chunks.flatten) := by
  induction chunks generalizing driver first with
  | nil =>
      simp only [feedAll, List.flatten_nil, List.append_nil]
      cases feed decode driver first <;> rfl
  | cons second chunks ih =>
      rw [feedAll, List.flatten_cons, incremental.feed_append]
      apply congrArg (feed decode driver first >>= ·)
      funext next
      exact ih next second

/-- From the start, every chunking of a stream gives the verdict of the stream
in one piece. -/
theorem feedAll_start (chunks : List (List α)) :
    feedAll decode (Driver.start α ε π) chunks =
      feed decode (Driver.start α ε π) chunks.flatten := by
  cases chunks with
  | nil => exact incremental.feed_nil_start.symm
  | cons first chunks => exact incremental.feedAll_eq_feed_flatten _ first chunks

end Incremental

end

end HotaruMqtt.Framing
