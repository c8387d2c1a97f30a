import HotaruMqtt.Exec.Outcome

/-!
# Futures that read exact counts

An asynchronous function whose only awaits are `read_exact` calls is a tree of
requests: it is either finished, or it asks the reader for a fixed count and
resumes with exactly that many items.  Polling feeds it whatever has arrived;
items that do not complete a request stay in the buffer the future owns, so
they leave the reader even though the future has not finished.

The main fact is that polling twice is polling once on the concatenation, as
long as the future is kept between the polls.
-/

namespace HotaruMqtt.Exec

open Outcome

universe u v w

/-- A computation that draws exact counts of items from a reader. -/
inductive ReadFuture (β : Type u) (ε : Type v) (α : Type w)
  | ready (outcome : Outcome ε α)
  | readExact (count : Nat) (resume : List β → ReadFuture β ε α)

/-- What one poll of a read future ends as.  A pending future keeps the items
it holds for its unfinished request. -/
inductive Poll (β : Type u) (ε : Type v) (α : Type w)
  | ready (outcome : Outcome ε α) (unread : List β)
  | pending (future : ReadFuture β ε α) (held : List β)

namespace ReadFuture

variable {β : Type u} {ε : Type v} {α γ : Type w}

/-- Sequencing of read futures. -/
protected def bind : ReadFuture β ε α → (α → ReadFuture β ε γ) → ReadFuture β ε γ
  | ready (ok value), next => next value
  | ready (err error), _ => ready (err error)
  | ready (.panic cause), _ => ready (.panic cause)
  | readExact count resume, next =>
      readExact count fun items => (resume items).bind next

instance : Monad (ReadFuture β ε) where
  pure value := ready (ok value)
  bind := ReadFuture.bind

/-- Await one `read_exact` of `count` items. -/
def read {β : Type w} (count : Nat) : ReadFuture β ε (List β) :=
  readExact count fun items => ready (ok items)

@[simp]
theorem read_bind {β : Type w} (count : Nat)
    (next : List β → ReadFuture β ε γ) :
    ((read count : ReadFuture β ε (List β)) >>= next) = readExact count next :=
  rfl

@[simp]
theorem ready_ok_bind (value : α) (next : α → ReadFuture β ε γ) :
    ((ready (ok value) : ReadFuture β ε α) >>= next) = next value :=
  rfl

@[simp]
theorem ready_err_bind (error : ε) (next : α → ReadFuture β ε γ) :
    ((ready (err error) : ReadFuture β ε α) >>= next) = ready (err error) :=
  rfl

@[simp]
theorem readExact_bind (count : Nat) (resume : List β → ReadFuture β ε α)
    (next : α → ReadFuture β ε γ) :
    (readExact count resume >>= next) =
      readExact count fun items => resume items >>= next :=
  rfl

/-- Poll a future against the items it holds followed by those available. -/
def poll : ReadFuture β ε α → List β → Poll β ε α
  | ready outcome, available => .ready outcome available
  | readExact count resume, available =>
      if count ≤ available.length then
        poll (resume (available.take count)) (available.drop count)
      else
        .pending (readExact count resume) available

@[simp]
theorem poll_ready (outcome : Outcome ε α) (available : List β) :
    poll (ready outcome) available = .ready outcome available :=
  rfl

theorem poll_readExact_of_le {count : Nat} {resume : List β → ReadFuture β ε α}
    {available : List β} (enough : count ≤ available.length) :
    poll (readExact count resume) available =
      poll (resume (available.take count)) (available.drop count) := by
  rw [poll, if_pos enough]

theorem poll_readExact_of_lt {count : Nat} {resume : List β → ReadFuture β ε α}
    {available : List β} (short : available.length < count) :
    poll (readExact count resume) available =
      .pending (readExact count resume) available := by
  rw [poll, if_neg (Nat.not_le.mpr short)]

/-- Continue a poll of the first part of a sequence with the second part. -/
def Poll.andThen (first : Poll β ε α) (next : α → ReadFuture β ε γ) : Poll β ε γ :=
  match first with
  | .ready (.ok value) unread => poll (next value) unread
  | .ready (.err error) unread => .ready (err error) unread
  | .ready (.panic cause) unread => .ready (.panic cause) unread
  | .pending future held => .pending (future >>= next) held

/-- Polling a sequence polls its parts in order. -/
theorem poll_bind (future : ReadFuture β ε α) (next : α → ReadFuture β ε γ)
    (available : List β) :
    poll (future >>= next) available = Poll.andThen (poll future available) next := by
  induction future generalizing available with
  | ready outcome => cases outcome <;> rfl
  | readExact count resume ih =>
      rw [readExact_bind]
      by_cases enough : count ≤ available.length
      · rw [poll_readExact_of_le enough, poll_readExact_of_le enough]
        exact ih _ _
      · rw [poll_readExact_of_lt (by omega), poll_readExact_of_lt (by omega)]
        rfl

/-- Run a future on a reader that yields `input` and then end-of-file.  A
request that end-of-file cuts short fails with `eof` and has taken what was
left. -/
def runToEof (eof : ε) (future : ReadFuture β ε α) (input : List β) :
    Outcome ε α × List β :=
  match poll future input with
  | .ready outcome unread => (outcome, unread)
  | .pending _ _ => (err eof, [])

/-- A finished poll does not look past the items it used. -/
theorem poll_append_of_ready {future : ReadFuture β ε α} {input : List β}
    {outcome : Outcome ε α} {unread : List β}
    (finished : poll future input = .ready outcome unread) (more : List β) :
    poll future (input ++ more) = .ready outcome (unread ++ more) := by
  induction future generalizing input with
  | ready result =>
      cases finished
      rfl
  | readExact count resume ih =>
      by_cases enough : count ≤ input.length
      · rw [poll_readExact_of_le enough] at finished
        rw [poll_readExact_of_le (by simp; omega),
          List.take_append_of_le_length enough,
          List.drop_append_of_le_length enough]
        exact ih _ finished
      · rw [poll_readExact_of_lt (by omega)] at finished
        contradiction

/-- A pending future resumes where it stopped: polling it later is polling the
original future on everything that has arrived. -/
theorem poll_append_of_pending {future : ReadFuture β ε α} {input : List β}
    {waiting : ReadFuture β ε α} {held : List β}
    (unfinished : poll future input = .pending waiting held) (more : List β) :
    poll future (input ++ more) = poll waiting (held ++ more) := by
  induction future generalizing input with
  | ready result => contradiction
  | readExact count resume ih =>
      by_cases enough : count ≤ input.length
      · rw [poll_readExact_of_le enough] at unfinished
        rw [poll_readExact_of_le (by simp; omega),
          List.take_append_of_le_length enough,
          List.drop_append_of_le_length enough]
        exact ih _ unfinished
      · rw [poll_readExact_of_lt (by omega)] at unfinished
        cases unfinished
        rfl

/-- A poll leaves no more than it was given. -/
theorem length_unread_le {future : ReadFuture β ε α} {input : List β}
    {outcome : Outcome ε α} {unread : List β}
    (finished : poll future input = .ready outcome unread) :
    unread.length ≤ input.length := by
  induction future generalizing input with
  | ready result =>
      cases finished
      exact Nat.le_refl _
  | readExact count resume ih =>
      by_cases enough : count ≤ input.length
      · rw [poll_readExact_of_le enough] at finished
        have shorter := ih _ finished
        rw [List.length_drop] at shorter
        omega
      · rw [poll_readExact_of_lt (by omega)] at finished
        contradiction

/-- No way of answering the requests of a future makes it panic. -/
def Safe : ReadFuture β ε α → Prop
  | ready outcome => outcome.Safe
  | readExact count resume =>
      ∀ items : List β, items.length = count → (resume items).Safe

/-- Safe futures compose. -/
theorem Safe.bind {future : ReadFuture β ε α} (safe : future.Safe)
    {next : α → ReadFuture β ε γ} (nextSafe : ∀ value, (next value).Safe) :
    (future >>= next).Safe := by
  induction future with
  | ready outcome =>
      cases outcome with
      | ok value => exact nextSafe value
      | err error => exact safe_err error
      | panic cause => exact absurd rfl (safe cause)
  | readExact count resume ih =>
      intro items exactly
      exact ih items (safe items exactly)

/-- A safe future finishes without a panic. -/
theorem Safe.of_poll_ready {future : ReadFuture β ε α} (safe : future.Safe)
    {input : List β} {outcome : Outcome ε α} {unread : List β}
    (finished : poll future input = .ready outcome unread) : outcome.Safe := by
  induction future generalizing input with
  | ready result =>
      cases finished
      exact safe
  | readExact count resume ih =>
      by_cases enough : count ≤ input.length
      · rw [poll_readExact_of_le enough] at finished
        exact ih _ (safe _ (List.length_take_of_le enough)) finished
      · rw [poll_readExact_of_lt (by omega)] at finished
        contradiction

/-- Run to end-of-file, a safe future does not panic. -/
theorem Safe.runToEof {future : ReadFuture β ε α} (safe : future.Safe)
    (eof : ε) (input : List β) : (future.runToEof eof input).1.Safe := by
  unfold ReadFuture.runToEof
  cases polled : poll future input with
  | ready outcome unread => exact safe.of_poll_ready polled
  | pending waiting held => exact safe_err eof

end ReadFuture

/-! ## Suspended reads -/

/-- A read future between two polls, with the items it has taken from the
reader since it was created.  Dropping it drops them. -/
structure Reading (β : Type u) (ε : Type v) (α : Type w) where
  future : ReadFuture β ε α
  held : List β
  taken : List β

namespace Reading

variable {β : Type u} {ε : Type v} {α : Type w}

/-- A future that has not been polled yet. -/
def fresh (future : ReadFuture β ε α) : Reading β ε α :=
  ⟨future, [], []⟩

/-- The suspended read is what `start` has become after taking `taken`. -/
def From (start : ReadFuture β ε α) (reading : Reading β ε α) : Prop :=
  ∀ more, start.poll (reading.taken ++ more) =
    reading.future.poll (reading.held ++ more)

theorem fresh_from (future : ReadFuture β ε α) : (fresh future).From future := by
  intro more
  rfl

/-- A poll that leaves the future pending has taken everything available. -/
theorem From.pending {start : ReadFuture β ε α} {reading : Reading β ε α}
    (origin : reading.From start) {available : List β}
    {waiting : ReadFuture β ε α} {held : List β}
    (unfinished : reading.future.poll (reading.held ++ available) =
      .pending waiting held) :
    (⟨waiting, held, reading.taken ++ available⟩ : Reading β ε α).From start := by
  intro more
  have whole : start.poll (reading.taken ++ available) = .pending waiting held :=
    (origin available).trans unfinished
  exact ReadFuture.poll_append_of_pending whole more

end Reading

end HotaruMqtt.Exec
