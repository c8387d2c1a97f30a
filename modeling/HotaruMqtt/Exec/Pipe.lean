import HotaruMqtt.Exec.Read

/-!
# Frames through a pipe

A writer takes items from a queue one at a time, turns each into a few chunks, and writes
the chunks out in pieces of any size.  The pieces arrive at the other end in pieces of any
size, where a read future is polled with what has arrived.  The writer can stop at any
moment, in the middle of a chunk as well.

The reader gets the items of the queue in their order and nothing else, if the future reads
back the chunks of each item and is never dropped while it holds a part of a frame.
-/

namespace HotaruMqtt.Exec

open Outcome

universe u v w

/-- A pipe, from the writer's queue to the reader. -/
structure Pipe (β : Type u) (ε : Type v) (α : Type w) where
  /-- How many items the writer has taken. -/
  taken : Nat
  /-- What it has still to write of the last of them. -/
  unwritten : List (List β)
  running : Bool
  /-- Written, and not arrived yet. -/
  transit : List β
  /-- Arrived, and not taken by a read yet. -/
  arrived : List β
  reading : Reading β ε α
  /-- How many items have been read. -/
  read : Nat

namespace Pipe

variable {β : Type u} {ε : Type v} {α : Type w}

/-- A pipe that has carried nothing. -/
def new (start : ReadFuture β ε α) : Pipe β ε α :=
  ⟨0, [], true, [], [], .fresh start, 0⟩

/-- The writer leaves its loop. -/
def stop (pipe : Pipe β ε α) : Pipe β ε α :=
  { pipe with unwritten := [], running := false }

/-- The writer has the next item to write. -/
def taking (chunks : List (List β)) (pipe : Pipe β ε α) : Pipe β ε α :=
  { pipe with taken := pipe.taken + 1, unwritten := chunks }

/-- The writer takes the next item; one that has no encoding stops it. -/
def take (encode : α → Option (List (List β))) (items : List α) (pipe : Pipe β ε α) :
    Option (Pipe β ε α) :=
  match pipe.running, pipe.unwritten with
  | true, [] =>
      items[pipe.taken]?.map fun item =>
        match encode item with
        | some chunks => pipe.taking chunks
        | none => pipe.stop
  | _, _ => none

/-- Some of the current chunk goes out, at most all of it. -/
def write (count : Nat) (pipe : Pipe β ε α) : Option (Pipe β ε α) :=
  match pipe.unwritten with
  | [] => none
  | chunk :: chunks =>
      if count < chunk.length then
        some { pipe with
          unwritten := chunk.drop count :: chunks
          transit := pipe.transit ++ chunk.take count }
      else
        some { pipe with unwritten := chunks, transit := pipe.transit ++ chunk }

/-- Some of what was written reaches the reader's side. -/
def arrive (count : Nat) (pipe : Pipe β ε α) : Pipe β ε α :=
  { pipe with
    transit := pipe.transit.drop count
    arrived := pipe.arrived ++ pipe.transit.take count }

/-- A poll that leaves the future pending. -/
def poll (pipe : Pipe β ε α) : Option (Pipe β ε α) :=
  match pipe.reading.future.poll (pipe.reading.held ++ pipe.arrived) with
  | .pending future held =>
      some { pipe with
        arrived := []
        reading := ⟨future, held, pipe.reading.taken ++ pipe.arrived⟩ }
  | .ready _ _ => none

/-- An item has been read; the next read begins with a new future. -/
def yielding (start : ReadFuture β ε α) (unread : List β) (pipe : Pipe β ε α) : Pipe β ε α :=
  { pipe with arrived := unread, reading := .fresh start, read := pipe.read + 1 }

/-- A poll that ends with an item. -/
def yield (start : ReadFuture β ε α) (pipe : Pipe β ε α) : Option (α × Pipe β ε α) :=
  match pipe.reading.future.poll (pipe.reading.held ++ pipe.arrived) with
  | .ready (.ok item) unread => some (item, pipe.yielding start unread)
  | _ => none

/-- The error that a poll ends with. -/
def failure (pipe : Pipe β ε α) : Option ε :=
  match pipe.reading.future.poll (pipe.reading.held ++ pipe.arrived) with
  | .ready (.err error) _ => some error
  | _ => none

/-- The future is dropped, and with it what it has taken. -/
def abandon (start : ReadFuture β ε α) (pipe : Pipe β ε α) : Pipe β ε α :=
  { pipe with reading := .fresh start }

section Read

variable {pipe next : Pipe β ε α}

theorem read_take {encode : α → Option (List (List β))} {items : List α}
    (taken : pipe.take encode items = some next) : next.read = pipe.read := by
  unfold Pipe.take at taken
  split at taken
  · obtain ⟨item, _, rfl⟩ := Option.map_eq_some_iff.mp taken
    split <;> rfl
  · contradiction

theorem read_write {count : Nat} (written : pipe.write count = some next) :
    next.read = pipe.read := by
  unfold Pipe.write at written
  split at written
  · contradiction
  · split at written <;> cases written <;> rfl

theorem read_poll (polled : pipe.poll = some next) : next.read = pipe.read := by
  unfold Pipe.poll at polled
  split at polled
  · cases polled
    rfl
  · contradiction

end Read

/-- What is between the queue and the items that have been read. -/
def content (pipe : Pipe β ε α) : List β :=
  pipe.reading.taken ++ pipe.arrived ++ pipe.transit ++ pipe.unwritten.flatten

/-! ## What a pipe carries -/

section Carries

variable (encode : α → Option (List (List β))) (start : ReadFuture β ε α)

/-- What is written for an item; nothing if it has no encoding. -/
def frame (item : α) : List β :=
  ((encode item).getD []).flatten

/-- What is written for items one after the other. -/
def frames (items : List α) : List β :=
  items.flatMap (frame encode)

/-- The items that the writer has taken and the reader has not got. -/
def between (items : List α) (pipe : Pipe β ε α) : List α :=
  (items.take pipe.taken).drop pipe.read

/-- The future reads back what is written for the item, whatever follows. -/
def Travels (item : α) : Prop :=
  ∀ chunks, encode item = some chunks →
    ∀ rest, start.poll (chunks.flatten ++ rest) = .ready (ok item) rest

/-- The pipe holds the frames of the items between its ends, up to where the writer has
stopped. -/
structure Carries (items : List α) (pipe : Pipe β ε α) : Prop where
  origin : pipe.reading.From start
  waits : ∃ future held, pipe.reading.future.poll pipe.reading.held = .pending future held
  read_le : pipe.read ≤ pipe.taken
  taken_le : pipe.taken ≤ items.length
  encodes : ∀ item ∈ items.take pipe.taken, (encode item).isSome
  content : pipe.content <+: frames encode (pipe.between items)
  whole : pipe.running = true → pipe.content = frames encode (pipe.between items)

end Carries

variable {encode : α → Option (List (List β))} {start : ReadFuture β ε α} {items more : List α}
  {pipe next : Pipe β ε α} {item : α}

theorem frames_cons (item : α) (items : List α) :
    frames encode (item :: items) = frame encode item ++ frames encode items :=
  List.flatMap_cons

theorem frames_append (items more : List α) :
    frames encode (items ++ more) = frames encode items ++ frames encode more :=
  List.flatMap_append

theorem frame_of_encode {chunks : List (List β)} (encoded : encode item = some chunks) :
    frame encode item = chunks.flatten := by
  rw [frame, encoded, Option.getD_some]

/-- The reader asks for something before it returns. -/
def Asks (start : ReadFuture β ε α) : Prop :=
  ∃ future held, start.poll [] = .pending future held

theorem carries_new (asks : Asks start) : (new start).Carries encode start items where
  origin := Reading.fresh_from start
  waits := asks
  read_le := Nat.le_refl 0
  taken_le := Nat.zero_le _
  encodes := by simp [new]
  content := by simp [new, Pipe.content, Reading.fresh]
  whole _ := by simp [new, Pipe.content, Reading.fresh, between, frames]

namespace Carries

/-- More items in the queue. -/
theorem grow (carries : pipe.Carries encode start items) (grown : items <+: more) :
    pipe.Carries encode start more := by
  obtain ⟨later, rfl⟩ := grown
  have same : (items ++ later).take pipe.taken = items.take pipe.taken :=
    List.take_append_of_le_length carries.taken_le
  have between : pipe.between (items ++ later) = pipe.between items := congrArg _ same
  constructor
  · exact carries.origin
  · exact carries.waits
  · exact carries.read_le
  · exact Nat.le_trans carries.taken_le (by simp)
  · rw [same]
    exact carries.encodes
  · rw [between]
    exact carries.content
  · rw [between]
    exact carries.whole

theorem stop (carries : pipe.Carries encode start items) :
    pipe.stop.Carries encode start items := by
  have shorter : pipe.stop.content <+: pipe.content := ⟨pipe.unwritten.flatten, by
    simp [Pipe.stop, Pipe.content]⟩
  refine { carries with content := shorter.trans carries.content, whole := ?_ }
  intro running
  contradiction

theorem between_taking (carries : pipe.Carries encode start items) (chunks : List (List β))
    (found : items[pipe.taken]? = some item) :
    (pipe.taking chunks).between items = pipe.between items ++ [item] := by
  have bound : pipe.read ≤ (items.take pipe.taken).length := by
    rw [List.length_take]
    exact Nat.le_min.mpr ⟨carries.read_le, Nat.le_trans carries.read_le carries.taken_le⟩
  rw [between, taking, List.take_add_one, found, Option.toList_some,
    List.drop_append_of_le_length bound, between]

theorem content_taking (carries : pipe.Carries encode start items) {chunks : List (List β)}
    (running : pipe.running = true) (empty : pipe.unwritten = [])
    (found : items[pipe.taken]? = some item) (encoded : encode item = some chunks) :
    (pipe.taking chunks).content = frames encode ((pipe.taking chunks).between items) := by
  rw [carries.between_taking chunks found, frames_append, ← carries.whole running, frames_cons,
    frame_of_encode encoded]
  simp [Pipe.content, taking, empty, frames]

theorem take (carries : pipe.Carries encode start items)
    (taken : pipe.take encode items = some next) : next.Carries encode start items := by
  unfold Pipe.take at taken
  split at taken
  · rename_i running empty
    obtain ⟨item, found, rfl⟩ := Option.map_eq_some_iff.mp taken
    split
    · rename_i chunks encoded
      have content := carries.content_taking running empty found encoded
      constructor
      · exact carries.origin
      · exact carries.waits
      · exact Nat.le_trans carries.read_le (Nat.le_succ _)
      · exact (List.getElem?_eq_some_iff.mp found).1
      · intro other listed
        rw [taking, List.take_add_one, found, Option.toList_some] at listed
        rcases List.mem_append.mp listed with before | last
        · exact carries.encodes other before
        · rw [List.mem_singleton.mp last, encoded]
          rfl
      · exact content ▸ List.prefix_refl _
      · intro _
        exact content
    · exact carries.stop
  · contradiction

/-- What moves within the pipe stays in it. -/
theorem of_content_eq (carries : pipe.Carries encode start items)
    (same : next.content = pipe.content) (reading : next.reading = pipe.reading)
    (taken : next.taken = pipe.taken) (read : next.read = pipe.read)
    (running : next.running = pipe.running) : next.Carries encode start items where
  origin := reading ▸ carries.origin
  waits := reading ▸ carries.waits
  read_le := by rw [taken, read]; exact carries.read_le
  taken_le := taken ▸ carries.taken_le
  encodes := taken ▸ carries.encodes
  content := by rw [same, between, taken, read]; exact carries.content
  whole := by rw [running, same, between, taken, read]; exact carries.whole

theorem write {count : Nat} (carries : pipe.Carries encode start items)
    (written : pipe.write count = some next) : next.Carries encode start items := by
  unfold Pipe.write at written
  split at written
  · contradiction
  · rename_i chunk chunks unwritten
    split at written
    · cases written
      refine carries.of_content_eq ?_ rfl rfl rfl rfl
      have split := List.take_append_drop count chunk
      simp only [Pipe.content, unwritten, List.flatten_cons, List.append_assoc]
      rw [← List.append_assoc (chunk.take count), split]
    · cases written
      refine carries.of_content_eq ?_ rfl rfl rfl rfl
      simp [Pipe.content, unwritten]

theorem arrive (carries : pipe.Carries encode start items) (count : Nat) :
    (pipe.arrive count).Carries encode start items := by
  refine carries.of_content_eq ?_ rfl rfl rfl rfl
  have split := List.take_append_drop count pipe.transit
  simp only [Pipe.content, Pipe.arrive, List.append_assoc]
  rw [← List.append_assoc (pipe.transit.take count), split]

theorem poll (carries : pipe.Carries encode start items) (polled : pipe.poll = some next) :
    next.Carries encode start items := by
  unfold Pipe.poll at polled
  split at polled
  · rename_i future held pending
    cases polled
    have content : ({ pipe with
        arrived := []
        reading := ⟨future, held, pipe.reading.taken ++ pipe.arrived⟩ } :
        Pipe β ε α).content = pipe.content := by
      simp [Pipe.content]
    refine { carries with origin := carries.origin.pending pending, waits := ?_, content := ?_,
                          whole := ?_ }
    · -- what is pending has taken everything, so a further poll changes nothing
      have again := ReadFuture.poll_append_of_pending pending []
      rw [List.append_nil, List.append_nil, pending] at again
      exact ⟨future, held, again.symm⟩
    · rw [content]
      exact carries.content
    · rw [content]
      exact carries.whole
  · contradiction

/-- A future may be dropped as long as it has taken nothing. -/
theorem abandon (carries : pipe.Carries encode start items) (asks : Asks start)
    (nothing : pipe.reading.taken = []) : (pipe.abandon start).Carries encode start items := by
  have content : (pipe.abandon start).content = pipe.content := by
    simp [Pipe.content, Pipe.abandon, Reading.fresh, nothing]
  refine { carries with origin := Reading.fresh_from start, waits := asks, content := ?_,
                        whole := ?_ }
  · rw [content]
    exact carries.content
  · rw [content]
    exact carries.whole

/-- A poll that ends has read the first item between the ends and nothing beyond its
frame. -/
theorem ready (carries : pipe.Carries encode start items) (asks : Asks start)
    (travels : ∀ item ∈ items, Travels encode start item) {outcome : Outcome ε α}
    {unread : List β}
    (ends : pipe.reading.future.poll (pipe.reading.held ++ pipe.arrived) =
      .ready outcome unread) :
    ∃ item rest, pipe.between items = item :: rest ∧ outcome = ok item ∧
      ∀ later, pipe.content ++ later = frames encode (pipe.between items) →
        (pipe.yielding start unread).content ++ later = frames encode rest := by
  have polled := carries.origin pipe.arrived
  rw [ends] at polled
  -- the poll would have ended in the same way with the rest of the pipe behind
  have extends_ : ∀ later, start.poll (pipe.content ++ later) =
      .ready outcome ((pipe.yielding start unread).content ++ later) := by
    intro later
    have more := ReadFuture.poll_append_of_ready polled
      (pipe.transit ++ pipe.unwritten.flatten ++ later)
    simpa [Pipe.content, yielding, Reading.fresh] using more
  obtain ⟨tail, filled⟩ := carries.content
  rcases todo : pipe.between items with _ | ⟨item, rest⟩
  · obtain ⟨future, held, pending⟩ := asks
    have whole := extends_ tail
    rw [filled, todo, frames, List.flatMap_nil, pending] at whole
    contradiction
  · have listed : item ∈ items.take pipe.taken := by
      have first : item ∈ pipe.between items := todo ▸ List.mem_cons_self
      exact List.mem_of_mem_drop first
    obtain ⟨chunks, encoded⟩ := Option.isSome_iff_exists.mp (carries.encodes item listed)
    have reads := travels item (List.mem_of_mem_take listed) chunks encoded (frames encode rest)
    have ended : ∀ later, pipe.content ++ later = frames encode (item :: rest) →
        ok item = outcome ∧
          frames encode rest = (pipe.yielding start unread).content ++ later := by
      intro later all
      have whole := extends_ later
      rw [all, frames_cons, frame_of_encode encoded, reads] at whole
      simpa only [Poll.ready.injEq] using whole
    refine ⟨item, rest, rfl, (ended tail (todo ▸ filled)).1.symm, fun later all => ?_⟩
    exact (ended later all).2.symm

theorem failure_eq_none (carries : pipe.Carries encode start items) (asks : Asks start)
    (travels : ∀ item ∈ items, Travels encode start item) : pipe.failure = none := by
  unfold Pipe.failure
  split
  · rename_i error unread ends
    obtain ⟨_, _, _, impossible, _⟩ := carries.ready asks travels ends
    contradiction
  · rfl

/-- The item that is read is the next one of the queue. -/
theorem yield (carries : pipe.Carries encode start items) (asks : Asks start)
    (travels : ∀ item ∈ items, Travels encode start item)
    (yielded : pipe.yield start = some (item, next)) :
    items[pipe.read]? = some item ∧ next.read = pipe.read + 1 ∧
      next.Carries encode start items := by
  unfold Pipe.yield at yielded
  split at yielded
  · rename_i found unread ends
    cases yielded
    obtain ⟨_, rest, todo, same, remaining⟩ := carries.ready asks travels ends
    cases same
    have here : (items.take pipe.taken)[pipe.read]? = some item := by
      rw [← List.head?_drop]
      exact congrArg List.head? todo
    have after : (pipe.yielding start unread).between items = rest := by
      rw [between, yielding, ← List.drop_drop]
      exact congrArg (List.drop 1) todo
    rw [List.getElem?_take] at here
    split at here
    · rename_i bound
      refine ⟨here, rfl, Reading.fresh_from start, asks, bound, carries.taken_le,
        carries.encodes, ?_, ?_⟩
      · obtain ⟨tail, filled⟩ := carries.content
        rw [after]
        exact ⟨tail, remaining tail filled⟩
      · intro running
        have all := remaining [] (by rw [List.append_nil]; exact carries.whole running)
        rw [after, ← all, List.append_nil]
    · contradiction
  · contradiction

end Carries

end Pipe

end HotaruMqtt.Exec
