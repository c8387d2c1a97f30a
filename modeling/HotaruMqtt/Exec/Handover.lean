import Mathlib.Data.List.Nodup
import Mathlib.Data.List.Perm.Basic
import Mathlib.Logic.Function.Basic
import HotaruMqtt.Exec.Transition

/-!
# Handing messages over two pipes

A sender offers messages, a receiver hands them on, and two pipes that keep the
order join them.  A message that is not held is handed on as it arrives, and
accepted if it bears an identifier.  A message that is held is put aside under
its identifier and reported; the sender answers the report with a release, and
only the release hands the message on and is completed.

An identifier that is in use is the identifier of exactly one item of the two
pipes.  As long as no message is offered under an identifier in use, the
messages of each kind are handed on once each and in the order in which they
were offered, a message that is accepted or completed has been handed on, and
nothing is left aside when the pipes are empty.
-/

namespace HotaruMqtt.Exec

universe u v

/-- What the sender puts into its pipe. -/
inductive Forth (κ : Type u) (α : Type v)
  | message (id : Option κ) (body : α)
  | release (id : κ)

/-- What the receiver puts into its pipe. -/
inductive Back (κ : Type u)
  | accepted (id : κ)
  | received (id : κ)
  | completed (id : κ)

namespace Forth

variable {κ : Type u} {α : Type v}

/-- The identifier an item bears. -/
def id : Forth κ α → Option κ
  | .message id _ => id
  | .release id => some id

/-- The identifier an item releases. -/
def released : Forth κ α → Option κ
  | .message _ _ => none
  | .release id => some id

/-- The message an item carries with its identifier, if it is of the kind asked for. -/
def entry (kind : α → Bool) : Forth κ α → Option (Option κ × α)
  | .message id body => if kind body then some (id, body) else none
  | .release _ => none

end Forth

namespace Back

variable {κ : Type u}

/-- The identifier an item bears. -/
def id : Back κ → κ
  | .accepted id => id
  | .received id => id
  | .completed id => id

/-- The identifier of a message that is reported as put aside. -/
def reported : Back κ → Option κ
  | .received id => some id
  | .accepted _ => none
  | .completed _ => none

end Back

/-- The two ends, the two pipes, and the logs of what was offered, with its identifiers,
and handed on. -/
structure Handover (κ : Type u) (α : Type v) where
  offered : List (Option κ × α)
  forth : List (Forth κ α)
  stash : κ → Option α
  handed : List α
  back : List (Back κ)

namespace Handover

variable {κ : Type u} {α : Type v} [DecidableEq κ] {held : α → Bool} {state next : Handover κ α}

/-- The moves of the two ends. -/
inductive Move (κ : Type u) (α : Type v)
  | offer (id : Option κ) (body : α)
  | deliver
  | answer

/-- Nothing has been offered. -/
def new : Handover κ α where
  offered := []
  forth := []
  stash := fun _ => none
  handed := []
  back := []

/-- The sender puts a message into the pipe. -/
def offer (state : Handover κ α) (id : Option κ) (body : α) : Handover κ α :=
  { state with
    offered := state.offered ++ [(id, body)]
    forth := state.forth ++ [.message id body] }

/-- The receiver takes one item.  A held message without an identifier is lost. -/
def receive (held : α → Bool) (state : Handover κ α) : Forth κ α → Handover κ α
  | .message id body =>
      if held body then
        match id with
        | some id =>
            { state with
              stash := Function.update state.stash id (some body)
              back := state.back ++ [.received id] }
        | none => state
      else
        { state with
          handed := state.handed ++ [body]
          back := state.back ++ (id.map .accepted).toList }
  | .release id =>
      { state with
        stash := Function.update state.stash id none
        handed := state.handed ++ (state.stash id).toList
        back := state.back ++ [.completed id] }

/-- The sender takes one item. -/
def learn (state : Handover κ α) : Back κ → Handover κ α
  | .received id => { state with forth := state.forth ++ [.release id] }
  | .accepted _ => state
  | .completed _ => state

/-- One move; an end whose pipe is empty has nothing to take. -/
def step (held : α → Bool) (state : Handover κ α) : Move κ α → Option (Handover κ α)
  | .offer id body => some (state.offer id body)
  | .deliver =>
      match state.forth with
      | [] => none
      | item :: rest => some (receive held { state with forth := rest } item)
  | .answer =>
      match state.back with
      | [] => none
      | item :: rest => some (learn { state with back := rest } item)

/-- The identifiers that the items of the two pipes bear. -/
def inUse (state : Handover κ α) : List κ :=
  state.forth.filterMap Forth.id ++ state.back.map Back.id

/-- The identifiers of the messages put aside, those to be released first at the front. -/
def waiting (state : Handover κ α) : List κ :=
  state.forth.filterMap Forth.released ++ state.back.filterMap Back.reported

/-- A message is offered under an identifier that is not in use, and a held one
is offered under an identifier. -/
def Fresh (held : α → Bool) (state : Handover κ α) : Move κ α → Prop
  | .offer id body => (held body → id.isSome) ∧ ∀ used ∈ id, used ∉ state.inUse
  | .deliver => True
  | .answer => True

/-- Neither pipe holds an item. -/
def Quiet (state : Handover κ α) : Prop :=
  state.forth = [] ∧ state.back = []

/-! ## Messages that are accounted for -/

/-- Of the messages offered, the first have been handed on and the others are pending. -/
def Accounts (offered : List (Option κ × α)) (handed : List α)
    (pending : List (Option κ × α)) : Prop :=
  ∃ done, offered = done ++ pending ∧ done.map Prod.snd = handed

namespace Accounts

omit [DecidableEq κ]

variable {offered pending : List (Option κ × α)} {handed : List α} {entry : Option κ × α}

theorem offer (accounts : Accounts offered handed pending) (entry : Option κ × α) :
    Accounts (offered ++ [entry]) handed (pending ++ [entry]) := by
  obtain ⟨done, rfl, same⟩ := accounts
  exact ⟨done, List.append_assoc _ _ _, same⟩

theorem hand (accounts : Accounts offered handed (entry :: pending)) :
    Accounts offered (handed ++ [entry.2]) pending := by
  obtain ⟨done, rfl, rfl⟩ := accounts
  exact ⟨done ++ [entry], by simp, by simp⟩

theorem handed_prefix (accounts : Accounts offered handed pending) :
    handed <+: offered.map Prod.snd := by
  obtain ⟨done, rfl, rfl⟩ := accounts
  exact ⟨pending.map Prod.snd, List.map_append.symm⟩

theorem handed_eq (accounts : Accounts offered handed []) : handed = offered.map Prod.snd := by
  obtain ⟨done, rfl, rfl⟩ := accounts
  rw [List.append_nil]

/-- What is not pending has been handed on, in its place. -/
theorem getElem? (accounts : Accounts offered handed pending) {place : Nat}
    (found : offered[place]? = some entry) (absent : entry ∉ pending) :
    handed[place]? = some entry.2 := by
  obtain ⟨done, rfl, rfl⟩ := accounts
  rw [List.getElem?_append] at found
  split at found
  · rw [List.getElem?_map, found, Option.map_some]
  · exact absurd (List.mem_of_getElem? found) absent

end Accounts

/-! ## The invariant -/

/-- A message put aside, with its identifier. -/
def keptUnder (stash : κ → Option α) (id : κ) : Option (Option κ × α) :=
  (stash id).map fun body => (some id, body)

/-- The messages of a kind, with their identifiers. -/
def entriesOf (kind : α → Bool) (entries : List (Option κ × α)) : List (Option κ × α) :=
  entries.filter fun entry => kind entry.2

/-- Where every message offered is, and what every identifier in use stands for. -/
structure Sound (held : α → Bool) (state : Handover κ α) : Prop where
  plain : Accounts (entriesOf (fun body => !held body) state.offered)
    (state.handed.filter fun body => !held body)
    (state.forth.filterMap (Forth.entry fun body => !held body))
  inOrder : Accounts (entriesOf held state.offered) (state.handed.filter held)
    (state.waiting.filterMap (keptUnder state.stash) ++
      state.forth.filterMap (Forth.entry held))
  stashed : ∀ id body, state.stash id = some body → held body ∧ id ∈ state.waiting
  kept : ∀ id ∈ state.waiting, (state.stash id).isSome
  single : state.inUse.Nodup
  named : ∀ id body, .message id body ∈ state.forth → held body → id.isSome

omit [DecidableEq κ] in
theorem sound_new : Sound held (new : Handover κ α) where
  plain := ⟨[], rfl, rfl⟩
  inOrder := ⟨[], rfl, rfl⟩
  stashed := by simp [new]
  kept := by simp [new, waiting]
  single := by simp [new, inUse]
  named := by simp [new]

/-- Leaving a value out of a list of results where it was taken before. -/
theorem filterMap_sublist_filterMap {β γ : Type*} {first second : β → Option γ}
    (weaker : ∀ item, first item = none ∨ first item = second item) (items : List β) :
    (items.filterMap first).Sublist (items.filterMap second) := by
  induction items with
  | nil => exact .refl _
  | cons item items ih =>
      rcases weaker item with dropped | same
      · rw [List.filterMap_cons_none dropped]
        exact ih.trans (by cases taken : second item <;> simp [taken])
      · cases taken : second item with
        | none => simpa [List.filterMap_cons, same, taken] using ih
        | some value => simpa [List.filterMap_cons, same, taken] using ih

omit [DecidableEq κ] in
/-- A message put aside has its identifier in use. -/
theorem waiting_sublist_inUse (state : Handover κ α) : state.waiting.Sublist state.inUse := by
  refine .append (filterMap_sublist_filterMap ?_ _) ?_
  · rintro (⟨_, _⟩ | _)
    · exact .inl rfl
    · exact .inr rfl
  · rw [← List.filterMap_eq_map]
    refine filterMap_sublist_filterMap ?_ _
    rintro (_ | _ | _)
    · exact .inl rfl
    · exact .inr rfl
    · exact .inl rfl

/-- Changing what is put aside at a place that a list does not name. -/
theorem filterMap_keptUnder_update {id : κ} {ids : List κ} (absent : id ∉ ids)
    (stash : κ → Option α) (value : Option α) :
    ids.filterMap (keptUnder (Function.update stash id value)) =
      ids.filterMap (keptUnder stash) := by
  refine List.filterMap_congr ?_
  intro other mem
  have differs : other ≠ id := fun same => absent (same ▸ mem)
  rw [keptUnder, keptUnder, Function.update_of_ne differs]

namespace Sound

omit [DecidableEq κ] in
theorem offer (sound : Sound held state) {id : Option κ} {body : α}
    (fits : held body → id.isSome) (fresh : ∀ used ∈ id, used ∉ state.inUse) :
    Sound held (state.offer id body) where
  plain := by
    cases isHeld : held body with
    | true => simpa [Handover.offer, entriesOf, Forth.entry, isHeld] using sound.plain
    | false =>
        simpa [Handover.offer, entriesOf, Forth.entry, isHeld] using sound.plain.offer (id, body)
  inOrder := by
    cases isHeld : held body with
    | true =>
        simpa [Handover.offer, entriesOf, waiting, List.filterMap_cons, Forth.entry, Forth.released,
          isHeld] using sound.inOrder.offer (id, body)
    | false =>
        simpa [Handover.offer, entriesOf, waiting, List.filterMap_cons, Forth.entry, Forth.released,
          isHeld] using sound.inOrder
  stashed := by
    simpa [Handover.offer, waiting, Forth.released] using sound.stashed
  kept := by
    simpa [Handover.offer, waiting, Forth.released] using sound.kept
  single := by
    cases id with
    | none => simpa [Handover.offer, inUse, List.filterMap_cons, Forth.id] using sound.single
    | some id =>
        have perm : (state.offer (some id) body).inUse.Perm (id :: state.inUse) := by
          simp [Handover.offer, inUse, Forth.id]
        exact perm.nodup_iff.mpr (List.nodup_cons.mpr ⟨fresh id rfl, sound.single⟩)
  named := by
    intro used other mem isHeld
    rcases List.mem_append.mp mem with before | new
    · exact sound.named used other before isHeld
    · simp only [List.mem_singleton, Forth.message.injEq] at new
      exact new.1 ▸ fits (new.2 ▸ isHeld)

/-- A message that is not held leaves the pipe and is handed on. -/
theorem receive_plain {id : Option κ} {body : α} {rest : List (Forth κ α)}
    (sound : Sound held { state with forth := .message id body :: rest })
    (notHeld : held body = false) :
    Sound held (receive held { state with forth := rest } (.message id body)) := by
  simp only [receive, notHeld, Bool.false_eq_true, if_false]
  exact {
    plain := by
      have pending : Accounts (entriesOf (fun body => !held body) state.offered)
          (state.handed.filter fun body => !held body)
          ((id, body) :: rest.filterMap (Forth.entry fun body => !held body)) := by
        simpa [Forth.entry, notHeld] using sound.plain
      simpa [notHeld] using pending.hand
    inOrder := by
      cases id <;>
        simpa [waiting, List.filterMap_cons, Forth.entry, Forth.released, Back.reported, notHeld]
          using sound.inOrder
    stashed := by
      cases id <;>
        simpa [waiting, List.filterMap_cons, Forth.released, Back.reported] using sound.stashed
    kept := by
      cases id <;>
        simpa [waiting, List.filterMap_cons, Forth.released, Back.reported] using sound.kept
    single := by
      cases id with
      | none => simpa [inUse, List.filterMap_cons, Forth.id] using sound.single
      | some id =>
          refine (List.Perm.nodup_iff ?_).mp sound.single
          simp only [inUse, List.filterMap_cons, Forth.id, List.map_append, Option.map_some,
            Option.toList_some, List.map_cons, List.map_nil, Back.id, ← List.append_assoc]
          exact (List.perm_append_singleton _ _).symm
    named := fun used other mem => sound.named used other (List.mem_cons_of_mem _ mem) }

/-- A held message leaves the pipe and is put aside behind those put aside before. -/
theorem receive_held {id : κ} {body : α} {rest : List (Forth κ α)}
    (sound : Sound held { state with forth := .message (some id) body :: rest })
    (isHeld : held body = true) :
    Sound held (receive held { state with forth := rest } (.message (some id) body)) := by
  simp only [receive, isHeld, if_true]
  have single : id ∉ inUse { state with forth := rest } ∧
      (inUse { state with forth := rest }).Nodup := by
    simpa [inUse, List.filterMap_cons, Forth.id] using sound.single
  -- the identifier is not that of a message put aside before, so no message is overwritten
  have fresh : id ∉ waiting { state with forth := rest } :=
    fun mem => single.1 ((waiting_sublist_inUse _).subset mem)
  have aside : waiting { state with
      forth := rest
      stash := Function.update state.stash id (some body)
      back := state.back ++ [.received id] } = waiting { state with forth := rest } ++ [id] := by
    simp [waiting, Back.reported]
  exact {
    plain := by simpa [Forth.entry, isHeld] using sound.plain
    inOrder := by
      rw [aside, List.filterMap_append, filterMap_keptUnder_update fresh]
      simpa [waiting, List.filterMap_cons, Forth.entry, Forth.released, keptUnder, isHeld] using
        sound.inOrder
    stashed := by
      intro other found stashed
      dsimp only at stashed
      rw [aside, List.mem_append, List.mem_singleton]
      by_cases same : other = id
      · subst other
        rw [Function.update_self, Option.some_inj] at stashed
        exact ⟨stashed ▸ isHeld, .inr rfl⟩
      · rw [Function.update_of_ne same] at stashed
        exact (sound.stashed other found stashed).imp_right .inl
    kept := by
      intro other mem
      rw [aside, List.mem_append, List.mem_singleton] at mem
      dsimp only
      by_cases same : other = id
      · simp [same]
      · rw [Function.update_of_ne same]
        exact sound.kept other (mem.resolve_right same)
    single := by
      refine (List.Perm.nodup_iff ?_).mp (List.nodup_cons.mpr single)
      simp only [inUse, List.map_append, List.map_cons, List.map_nil, Back.id,
        ← List.append_assoc]
      exact (List.perm_append_singleton _ _).symm
    named := fun used other mem => sound.named used other (List.mem_cons_of_mem _ mem) }

/-- A release leaves the pipe, and what was put aside first is handed on. -/
theorem receive_release {id : κ} {rest : List (Forth κ α)}
    (sound : Sound held { state with forth := .release id :: rest }) :
    Sound held (receive held { state with forth := rest } (.release id)) := by
  simp only [receive]
  have first : waiting { state with forth := .release id :: rest } =
      id :: waiting { state with forth := rest } := by
    simp [waiting, Forth.released]
  obtain ⟨body, found⟩ := Option.isSome_iff_exists.mp (sound.kept id (by simp [first]))
  have isHeld : held body = true := (sound.stashed id body found).1
  have single : (id :: inUse { state with forth := rest }).Nodup := by
    simpa [inUse, List.filterMap_cons, Forth.id] using sound.single
  have gone : id ∉ waiting { state with forth := rest } :=
    fun mem => (List.nodup_cons.mp single).1 ((waiting_sublist_inUse _).subset mem)
  have aside : waiting { state with
      forth := rest
      stash := Function.update state.stash id none
      handed := state.handed ++ (state.stash id).toList
      back := state.back ++ [.completed id] } = waiting { state with forth := rest } := by
    simp [waiting, List.filterMap_cons, Back.reported]
  change state.stash id = some body at found
  exact {
    plain := by simpa [List.filterMap_cons, Forth.entry, found, isHeld] using sound.plain
    inOrder := by
      have kept : keptUnder state.stash id = some (some id, body) := by
        rw [keptUnder, found, Option.map_some]
      have before := sound.inOrder
      rw [first, List.filterMap_cons_some kept] at before
      rw [aside, filterMap_keptUnder_update gone]
      simpa [found, isHeld, List.filterMap_cons, Forth.entry] using before.hand
    stashed := by
      intro other kept stashed
      dsimp only at stashed
      rw [aside]
      by_cases same : other = id
      · simp [same] at stashed
      · rw [Function.update_of_ne same] at stashed
        obtain ⟨isHeld, mem⟩ := sound.stashed other kept stashed
        rw [first] at mem
        exact ⟨isHeld, List.mem_of_ne_of_mem same mem⟩
    kept := by
      intro other mem
      rw [aside] at mem
      have differs : other ≠ id := fun same => gone (same ▸ mem)
      dsimp only
      rw [Function.update_of_ne differs]
      exact sound.kept other (first ▸ List.mem_cons_of_mem _ mem)
    single := by
      refine (List.Perm.nodup_iff ?_).mp single
      simp only [inUse, List.map_append, List.map_cons, List.map_nil, Back.id,
        ← List.append_assoc]
      exact (List.perm_append_singleton _ _).symm
    named := fun used other mem => sound.named used other (List.mem_cons_of_mem _ mem) }

omit [DecidableEq κ] in
/-- A report leaves the pipe and its release joins the other one; any other item
just frees its identifier. -/
theorem learn {item : Back κ} {rest : List (Back κ)}
    (sound : Sound held { state with back := item :: rest }) :
    Sound held (Handover.learn { state with back := rest } item) := by
  cases item with
  | accepted id | completed id =>
      exact {
        plain := sound.plain
        inOrder := by
          simpa [Handover.learn, waiting, List.filterMap_cons, Back.reported] using sound.inOrder
        stashed := by
          simpa [Handover.learn, waiting, List.filterMap_cons, Back.reported] using sound.stashed
        kept := by
          simpa [Handover.learn, waiting, List.filterMap_cons, Back.reported] using sound.kept
        single := sound.single.sublist (by simp [Handover.learn, inUse])
        named := sound.named }
  | received id =>
      exact {
        plain := by
          simpa [Handover.learn, List.filterMap_cons, Forth.entry] using sound.plain
        inOrder := by
          simpa [Handover.learn, waiting, List.filterMap_cons, Back.reported, Forth.released,
            Forth.entry] using sound.inOrder
        stashed := by
          simpa [Handover.learn, waiting, List.filterMap_cons, Back.reported, Forth.released]
            using sound.stashed
        kept := by
          simpa [Handover.learn, waiting, List.filterMap_cons, Back.reported, Forth.released]
            using sound.kept
        single := by
          simpa [Handover.learn, inUse, List.filterMap_cons, Forth.id, Back.id] using sound.single
        named := by
          intro used body mem
          simp only [Handover.learn, List.mem_append, List.mem_singleton, reduceCtorEq,
            or_false] at mem
          exact sound.named used body mem }

end Sound

/-- No move that keeps the identifiers apart breaks the invariant. -/
theorem preserves_sound : Transition.Preserves (step held) (Fresh held) (Sound (κ := κ) held) := by
  intro state move next sound fresh moved
  cases move with
  | offer id body =>
      obtain rfl := Option.some_inj.mp moved
      exact sound.offer fresh.1 fresh.2
  | deliver =>
      obtain ⟨offered, forth, stash, handed, back⟩ := state
      cases forth with
      | nil => simp [step] at moved
      | cons item rest =>
          obtain rfl := Option.some_inj.mp moved
          cases item with
          | release id => exact sound.receive_release
          | message id body =>
              cases isHeld : held body with
              | false => exact sound.receive_plain isHeld
              | true =>
                  obtain ⟨id, rfl⟩ :=
                    Option.isSome_iff_exists.mp (sound.named id body (by simp) isHeld)
                  exact sound.receive_held isHeld
  | answer =>
      obtain ⟨offered, forth, stash, handed, back⟩ := state
      cases back with
      | nil => simp [step] at moved
      | cons item rest =>
          obtain rfl := Option.some_inj.mp moved
          exact sound.learn

/-! ## Identifiers in use -/

omit [DecidableEq κ] in
theorem mem_inUse_offer {id : Option κ} {body : α} {used : κ} :
    used ∈ (state.offer id body).inUse ↔ used ∈ state.inUse ∨ id = some used := by
  cases id with
  | none => simp [inUse, offer, List.filterMap_cons, Forth.id]
  | some id =>
      simp only [inUse, offer, List.filterMap_append, List.filterMap_cons, Forth.id,
        List.filterMap_nil, List.mem_append, List.mem_singleton, Option.some.injEq,
        eq_comm (a := used)]
      tauto

/-- A delivery passes the identifier on to the answer. -/
theorem mem_inUse_deliver {used : κ} (moved : step held state .deliver = some next) :
    used ∈ next.inUse ↔ used ∈ state.inUse := by
  obtain ⟨offered, forth, stash, handed, back⟩ := state
  cases forth with
  | nil => simp [step] at moved
  | cons item rest =>
      obtain rfl := Option.some_inj.mp moved
      cases item with
      | release id =>
          simp only [inUse, receive, List.filterMap_cons, Forth.id, List.map_append,
            List.mem_append, List.mem_cons, List.map_cons, List.map_nil, Back.id,
            List.not_mem_nil, or_false]
          tauto
      | message id body =>
          cases id with
          | none => cases isHeld : held body <;> simp [receive, isHeld, inUse, Forth.id]
          | some id =>
              cases isHeld : held body <;>
                simp only [receive, isHeld, Bool.false_eq_true, if_false, if_true, inUse,
                  List.filterMap_cons, Forth.id, List.map_append, Option.map_some,
                  Option.toList_some, List.map_cons, List.map_nil, Back.id, List.mem_append,
                  List.mem_cons, List.not_mem_nil, or_false] <;>
                tauto

omit [DecidableEq κ] in
/-- An answer brings no identifier into use but its own. -/
theorem mem_inUse_learn {item : Back κ} {used : κ} (mem : used ∈ (state.learn item).inUse) :
    used = item.id ∨ used ∈ state.inUse := by
  cases item with
  | accepted id | completed id => exact .inr mem
  | received id =>
      simp only [inUse, learn, List.filterMap_append, List.filterMap_cons, Forth.id,
        List.filterMap_nil, List.mem_append, List.mem_singleton] at mem ⊢
      simp only [Back.id]
      tauto

omit [DecidableEq κ] in
/-- An answer frees its own identifier, unless it is a report. -/
theorem mem_inUse_of_learn {item : Back κ} {used : κ} (mem : used = item.id ∨ used ∈ state.inUse) :
    used ∈ (state.learn item).inUse ∨ item.reported = none ∧ used = item.id := by
  cases item with
  | accepted id | completed id =>
      rcases mem with same | before
      · exact .inr ⟨rfl, same⟩
      · exact .inl before
  | received id =>
      refine .inl ?_
      simp only [inUse, learn, List.filterMap_append, List.filterMap_cons, Forth.id,
        List.filterMap_nil, List.mem_append, List.mem_singleton] at mem ⊢
      simp only [Back.id] at mem
      tauto

/-! ## What the invariant says about the logs -/

omit [DecidableEq κ] in
theorem map_entriesOf (kind : α → Bool) (entries : List (Option κ × α)) :
    (entriesOf kind entries).map Prod.snd = (entries.map Prod.snd).filter kind :=
  List.filter_map.symm

namespace Sound

omit [DecidableEq κ]

/-- The held messages are handed on in the order in which they were offered. -/
theorem held_prefix (sound : Sound held state) :
    state.handed.filter held <+: (state.offered.map Prod.snd).filter held :=
  map_entriesOf held state.offered ▸ sound.inOrder.handed_prefix

/-- So are the other messages. -/
theorem plain_prefix (sound : Sound held state) :
    state.handed.filter (fun body => !held body) <+:
      (state.offered.map Prod.snd).filter fun body => !held body :=
  map_entriesOf (fun body => !held body) state.offered ▸ sound.plain.handed_prefix

/-- With both pipes empty, every message was handed on and none is put aside. -/
theorem of_quiet (sound : Sound held state) (quiet : state.Quiet) :
    state.handed.filter held = (state.offered.map Prod.snd).filter held ∧
      state.handed.filter (fun body => !held body) =
        (state.offered.map Prod.snd).filter (fun body => !held body) ∧
      ∀ id, state.stash id = none := by
  obtain ⟨forth, back⟩ := quiet
  have nothing : state.waiting = [] := by simp [waiting, forth, back]
  have inOrder := sound.inOrder
  have plain := sound.plain
  rw [nothing, forth] at inOrder
  rw [forth] at plain
  rw [← map_entriesOf, ← map_entriesOf]
  refine ⟨inOrder.handed_eq, plain.handed_eq, fun id => ?_⟩
  cases found : state.stash id with
  | none => rfl
  | some body => simpa [nothing] using (sound.stashed id body found).2

/-- A message that bears the identifier of an item of the pipe is not behind its answer. -/
theorem notMem_of_answered (sound : Sound held state) {item : Back κ}
    (answered : item ∈ state.back) (final : item.reported = none) :
    item.id ∉ state.forth.filterMap Forth.id ∧ item.id ∉ state.waiting := by
  have single := sound.single
  rw [inUse, List.nodup_append] at single
  obtain ⟨-, once, apart⟩ := single
  have absent : item.id ∉ state.forth.filterMap Forth.id :=
    fun mem => apart _ mem _ (List.mem_map_of_mem answered) rfl
  refine ⟨absent, fun mem => ?_⟩
  rcases List.mem_append.mp mem with released | reported
  · obtain ⟨other, listed, releases⟩ := List.mem_filterMap.mp released
    refine absent (List.mem_filterMap.mpr ⟨other, listed, ?_⟩)
    cases other with
    | message => contradiction
    | release id => exact releases
  · -- another answer under the same identifier would be the same one
    obtain ⟨other, listed, reports⟩ := List.mem_filterMap.mp reported
    have sameId : other.id = item.id := by
      cases other with
      | received id => exact Option.some_inj.mp reports
      | accepted | completed => contradiction
    obtain rfl := List.inj_on_of_nodup_map once listed answered sameId
    rw [final] at reports
    contradiction

theorem mem_ids_of_entry {kind : α → Bool} {id : κ} {body : α}
    (listed : (some id, body) ∈ state.forth.filterMap (Forth.entry kind)) :
    id ∈ state.forth.filterMap Forth.id := by
  obtain ⟨item, mem, carried⟩ := List.mem_filterMap.mp listed
  refine List.mem_filterMap.mpr ⟨item, mem, ?_⟩
  cases item with
  | release => contradiction
  | message used other =>
      simp only [Forth.entry, Option.ite_none_right_eq_some, Option.some.injEq,
        Prod.mk.injEq] at carried
      exact carried.2.1

/-- A message whose identifier is accepted or completed has been handed on. -/
theorem handed_of_answered (sound : Sound held state) {item : Back κ}
    (answered : item ∈ state.back) (final : item.reported = none) {place : Nat} {body : α} :
    ((entriesOf held state.offered)[place]? = some (some item.id, body) →
        (state.handed.filter held)[place]? = some body) ∧
      ((entriesOf (fun body => !held body) state.offered)[place]? = some (some item.id, body) →
        (state.handed.filter fun body => !held body)[place]? = some body) := by
  obtain ⟨passed, released⟩ := sound.notMem_of_answered answered final
  refine ⟨fun found => sound.inOrder.getElem? found fun pending => ?_,
    fun found => sound.plain.getElem? found fun pending => passed (mem_ids_of_entry pending)⟩
  rcases List.mem_append.mp pending with aside | underway
  · obtain ⟨id, mem, kept⟩ := List.mem_filterMap.mp aside
    obtain ⟨_, _, same⟩ := Option.map_eq_some_iff.mp kept
    rw [Prod.mk.injEq, Option.some_inj] at same
    exact released (same.1 ▸ mem)
  · exact passed (mem_ids_of_entry underway)

end Sound

end Handover

end HotaruMqtt.Exec
