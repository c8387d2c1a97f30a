import HotaruMqtt.Channel.Moves
import HotaruMqtt.Exec.Transition

/-!
# What a returning call leaves in `pending_acks`

Each call of the send path parks one or two waiters.  A call that times out cancels
the one it waits for; one that is answered, or told that the channel is closed, has
none left.  But between the parking and the waiting stands the hand-over to the writer
actor, and a call whose command is refused there returns without cancelling.
-/

namespace HotaruMqtt.Channel

open Exec Exec.Outcome Exec.Transition

/-- The waiter that a stage names. -/
def Stage.waiter : Stage → Option Waiter
  | .parking waiter _ | .awaiting waiter | .cancelling waiter => some waiter
  | .enqueueing waiter _ => waiter
  | .allocating | .returned _ => none

/-- The waiter that a call has parked and not heard of yet. -/
def Stage.parked : Stage → Option Waiter
  | .enqueueing waiter _ => waiter
  | .awaiting waiter | .cancelling waiter => some waiter
  | .allocating | .parking _ _ | .returned _ => none

/-- A waiter is known to its call, or the call is over. -/
def Stage.Accounts (waiter : Waiter) (stage : Stage) : Prop :=
  stage.parked = some waiter ∨ ∃ result, stage = .returned result

/-- Each call names only waiters of its own. -/
def Link.NamesOwn (link : Link) : Prop :=
  link.EachSend fun call send => ∀ waiter ∈ send.stage.waiter, waiter.owner = call

/-- The call has parked nothing yet, as before it begins. -/
structure Link.Unparked (link : Link) (call : SendId) : Prop where
  cells : ∀ waiter, waiter.owner = call → link.pendingAcks.cells waiter = none
  own : link.NamesOwn

/-- A slot that the call parked is held. -/
def Link.HoldsSlotOf (link : Link) (call : SendId) : Prop :=
  ∃ id waiter, link.pendingAcks.parked.lookup id = some waiter ∧ waiter.owner = call

/-- The call hands its command to an actor that is gone, with its slot still parked. -/
def Link.RefusedWhileParked (link : Link) (call : SendId) : Prop :=
  ∃ send waiter cmd, link.sends call = some send ∧
    send.stage = .enqueueing (some waiter) cmd ∧ link.actor = .gone ∧
    link.pendingAcks.parked.lookup waiter.id = some waiter

/-- Every waiter of the call that still waits is known to it. -/
structure KnownSlots (call : SendId) (link : Link) : Prop where
  own : link.NamesOwn
  accounts : ∀ waiter, waiter.owner = call → link.pendingAcks.cells waiter = some .waiting →
    ∃ send, link.sends call = some send ∧ send.stage.Accounts waiter

variable {link next : Link} {call : SendId} {waiter : Waiter}

/-! ## Names -/

theorem Waiter.owner_resume (answer : Wake) :
    ∀ other ∈ (waiter.resume answer).waiter, other.owner = waiter.owner := by
  obtain ⟨id, slot, owner⟩ := waiter
  cases answer <;> rcases slot with (_ | _ | _) | _ | _ <;> simp [Waiter.resume, Stage.waiter]

theorem Link.NamesOwn.owner_eq (own : link.NamesOwn) {send : Send}
    (found : link.sends call = some send) {stage : Stage} (at_ : send.stage = stage)
    (named : stage.waiter = some waiter) : waiter.owner = call :=
  own call send found waiter (at_ ▸ named)

theorem Link.NamesOwn.send_step {move : Link.SendMove} (own : link.NamesOwn)
    (moves : SendMoves link call move next) : next.NamesOwn := by
  cases moves with
  | called _ => exact own.update rfl (by simp [Stage.waiter])
  | unnumbered _ _ _ => exact own.update rfl (by simp [Stage.waiter])
  | numbered _ _ _ => exact own.update rfl (by simp [Stage.waiter])
  | @parked send waiter cmd found stage =>
      have mine := own.owner_eq found stage rfl
      refine own.update rfl ?_
      cases cmd <;> simp [Waiter.afterPark, Stage.waiter, mine]
  | @accepted send waiter cmd found stage alive =>
      refine own.update rfl ?_
      cases waiter with
      | none => simp [Stage.afterAccept, Stage.waiter]
      | some waiter => simp [Stage.afterAccept, Stage.waiter, own.owner_eq found stage rfl]
  | rejected _ _ _ | closed _ _ _ | cancelled _ _ => exact own.update rfl (by simp [Stage.waiter])
  | @resumed send waiter answer found stage sent =>
      have mine := own.owner_eq found stage rfl
      exact own.update rfl fun other named => (Waiter.owner_resume answer other named).trans mine
  | elapsed found stage waiting =>
      exact own.update rfl (by simp [Stage.waiter, own.owner_eq found stage rfl])

theorem Link.NamesOwn.step {event : Link.Event} (own : link.NamesOwn)
    (moves : Moves link event next) : next.NamesOwn :=
  Link.EachSend.step own own.send_step moves

/-! ## Which receivers wait -/

/-- A call has just parked the waiter. -/
def Parks (link next : Link) (waiter : Waiter) : Prop :=
  ∃ call send after, link.sends call = some send ∧ send.stage.waiter = some waiter ∧
    next.sends call = some after ∧ after.stage.parked = some waiter

/-- A receiver that waits has waited before, unless its call has just parked it. -/
theorem Moves.waiting_before {event : Link.Event} (moves : Moves link event next)
    (waiting : next.pendingAcks.cells waiter = some .waiting) :
    link.pendingAcks.cells waiter = some .waiting ∨ Parks link next waiter := by
  cases moves with
  | @send call _ _ _ moves =>
      cases moves with
      | @parked send added cmd found stage =>
          by_cases same : waiter = added
          · subst same
            refine .inr ⟨call, send, _, found, by simp [stage, Stage.waiter],
              Link.sends_setSend_self _ _ _, ?_⟩
            cases cmd <;> rfl
          · exact .inl (link.pendingAcks.waiting_of_park same waiting)
      | cancelled _ _ =>
          exact .inl ((link.pendingAcks.ebbs_discard _).waiting_before waiting)
      | _ => exact .inl waiting
  | close _ moves =>
      cases moves with
      | visited _ => exact .inl ((link.pendingAcks.ebbs_discard _).waiting_before waiting)
      | _ => exact .inl waiting
  | reader _ moves =>
      cases moves with
      | took _ _ =>
          rw [Registry.cells_take] at waiting
          exact .inl waiting
      | answered _ taken _ =>
          rw [link.pendingAcks.cells_answer taken] at waiting
          split at waiting
          · cases waiting
          · exact .inl waiting
      | putBack _ _ _ => exact .inl (link.pendingAcks.ebbs_putBack.waiting_before waiting)
      | _ => exact .inl waiting
  | actor moves => cases moves <;> exact .inl waiting
  | sendPacket _ _ | sendPublish _ _ | allocate _ | release _ => exact .inl waiting

/-- A call does not lose sight of a waiter that still waits. -/
theorem SendMoves.accounts {move : Link.SendMove} (moves : SendMoves link call move next)
    {send : Send} (before : link.sends call = some send) (accounts : send.stage.Accounts waiter)
    (waiting : link.pendingAcks.cells waiter = some .waiting) :
    ∃ after, next.sends call = some after ∧ after.stage.Accounts waiter := by
  cases moves with
  | called unused =>
      rw [unused] at before
      cases before
  | unnumbered found stage awaits | numbered found stage awaits | parked found stage =>
      cases before.symm.trans found
      simp [Stage.Accounts, Stage.parked, stage] at accounts
  | @accepted _ parked cmd found stage alive =>
      cases before.symm.trans found
      obtain rfl : parked = some waiter := by
        simpa [Stage.Accounts, Stage.parked, stage] using accounts
      exact ⟨_, Link.sends_setSend_self _ _ _, .inl rfl⟩
  | rejected found stage gone => exact ⟨_, Link.sends_setSend_self _ _ _, .inr ⟨_, rfl⟩⟩
  | @resumed _ parked answer found stage sent =>
      cases before.symm.trans found
      obtain rfl : parked = waiter := by
        simpa [Stage.Accounts, Stage.parked, stage] using accounts
      rw [sent] at waiting
      cases waiting
  | closed found stage closed => exact ⟨_, Link.sends_setSend_self _ _ _, .inr ⟨_, rfl⟩⟩
  | @elapsed _ parked found stage _ =>
      cases before.symm.trans found
      obtain rfl : parked = waiter := by
        simpa [Stage.Accounts, Stage.parked, stage] using accounts
      exact ⟨_, Link.sends_setSend_self _ _ _, .inl rfl⟩
  | cancelled found stage => exact ⟨_, Link.sends_setSend_self _ _ _, .inr ⟨_, rfl⟩⟩

/-- A call is left as it is by all moves but its own. -/
theorem Moves.sends_eq_or {event : Link.Event} (moves : Moves link event next) (call : SendId) :
    next.sends call = link.sends call ∨ ∃ move, SendMoves link call move next := by
  cases moves with
  | @send other move _ _ moves =>
      by_cases same : call = other
      · exact .inr ⟨move, same ▸ moves⟩
      · refine .inl ?_
        cases moves <;> exact Function.update_of_ne same _ _
  | close _ moves => exact .inl (congrFun moves.sends_eq call)
  | reader _ moves => exact .inl (congrFun moves.sends_eq call)
  | actor moves => exact .inl (congrFun moves.sends_eq call)
  | sendPacket _ _ | sendPublish _ _ | allocate _ | release _ => exact .inl rfl

/-! ## Runs -/

theorem preserves_knownSlots (call : SendId) : Preserves Link.step Any (KnownSlots call) := by
  intro link event next known _ moved
  have moves := Link.step_moves moved
  refine ⟨known.own.step moves, fun waiter mine waiting => ?_⟩
  rcases moves.waiting_before waiting with before | ⟨other, send, after, found, named, now, parked⟩
  · obtain ⟨send, found, accounts⟩ := known.accounts waiter mine before
    rcases moves.sends_eq_or call with same | ⟨move, moves⟩
    · exact ⟨send, same.trans found, accounts⟩
    · exact moves.accounts found accounts before
  · obtain rfl : call = other := mine.symm.trans (known.own.owner_eq found rfl named)
    exact ⟨after, now, .inl parked⟩

theorem Link.Unparked.knownSlots (unparked : link.Unparked call) : KnownSlots call link where
  own := unparked.own
  accounts waiter mine waiting := by
    rw [unparked.cells waiter mine] at waiting
    cases waiting

theorem Stage.waiter_of_parked {stage : Stage} (parked : stage.parked = some waiter) :
    stage.waiter = some waiter := by
  cases stage <;> first | exact parked | cases parked

/-- While a call is not over, the only slot it can have is that of its stage. -/
theorem KnownSlots.holdsSlotOf_iff (known : KnownSlots call link) {send : Send}
    (found : link.sends call = some send) (going : ∀ result, send.stage ≠ .returned result) :
    link.HoldsSlotOf call ↔ ∃ waiter, send.stage.parked = some waiter ∧
      link.pendingAcks.parked.lookup waiter.id = some waiter := by
  constructor
  · rintro ⟨id, waiter, held, mine⟩
    obtain ⟨other, at_, accounts⟩ :=
      known.accounts waiter mine (link.pendingAcks.waiting_of_parked held)
    cases found.symm.trans at_
    refine ⟨waiter, accounts.resolve_right fun ⟨result, ended⟩ => going result ended, ?_⟩
    rwa [link.pendingAcks.keyed held]
  · rintro ⟨waiter, parked, held⟩
    exact ⟨waiter.id, waiter, held,
      known.own.owner_eq found rfl (Stage.waiter_of_parked parked)⟩

/-- A call whose receiver has been told something has no slot. -/
theorem KnownSlots.not_holdsSlotOf (known : KnownSlots call link) {send : Send}
    (found : link.sends call = some send) (stage : send.stage = .awaiting waiter)
    (told : link.pendingAcks.cells waiter ≠ some .waiting) : ¬ link.HoldsSlotOf call := by
  rw [known.holdsSlotOf_iff found (by simp [stage]), stage]
  rintro ⟨other, parked, held⟩
  cases parked
  exact told (link.pendingAcks.waiting_of_parked held)

/-- A call that has discarded the slot of its stage has none. -/
theorem KnownSlots.not_holdsSlotOf_discard (known : KnownSlots call link) {send : Send}
    (found : link.sends call = some send) (stage : send.stage = .cancelling waiter)
    (id : PacketId) (other : Waiter) (mine : other.owner = call) :
    (link.pendingAcks.discard waiter.id).parked.lookup id ≠ some other := by
  intro held
  obtain ⟨differs, held⟩ := Table.lookup_erase_eq_some.mp held
  obtain ⟨_, at_, accounts⟩ :=
    known.accounts other mine (link.pendingAcks.waiting_of_parked held)
  cases found.symm.trans at_
  obtain rfl : waiter = other := by
    simpa [Stage.Accounts, Stage.parked, stage] using accounts
  exact differs (link.pendingAcks.keyed held).symm

theorem Link.not_refusedWhileParked {send : Send} (found : link.sends call = some send)
    (other : ∀ waiter cmd, send.stage ≠ .enqueueing (some waiter) cmd) :
    ¬ link.RefusedWhileParked call := by
  rintro ⟨_, waiter, cmd, at_, stage, _⟩
  cases found.symm.trans at_
  exact other waiter cmd stage

/-- From any link and through any run: a call that returns leaves a slot of its own in
`pending_acks` exactly when its command was refused while the slot was parked. -/
theorem returned_leaves_slot_iff {start link next : Link} {events : List Link.Event}
    {call : SendId} {move : Link.SendMove} {send : Send}
    {result : Outcome MqttError MqttResponse} (unparked : start.Unparked call)
    (run : Run Link.step Any start events link)
    (moved : link.step (.send call move) = some next) (found : next.sends call = some send)
    (returned : send.stage = .returned result) :
    next.HoldsSlotOf call ↔ link.RefusedWhileParked call := by
  have known := run.invariant (preserves_knownSlots call) unparked.knownSlots
  have after : ∀ {other : Send} {base : Link}, next = base.setSend call other →
      ∃ result, other.stage = .returned result := by
    rintro other base rfl
    cases found.symm.trans (base.sends_setSend_self call other)
    exact ⟨result, returned⟩
  cases Link.step_moves moved with
  | send _ moves =>
      cases moves with
      | called _ | unnumbered _ _ _ | numbered _ _ _ | elapsed _ _ _ =>
          obtain ⟨_, ended⟩ := after rfl
          cases ended
      | @parked _ _ cmd _ _ =>
          obtain ⟨_, ended⟩ := after rfl
          cases cmd <;> cases ended
      | @accepted before waiter cmd at_ stage alive =>
          obtain ⟨_, ended⟩ := after rfl
          cases waiter with
          | some waiter => cases ended
          | none =>
              have nothing : ¬ link.HoldsSlotOf call := by
                rw [known.holdsSlotOf_iff at_ (by simp [stage]), stage]
                simp [Stage.parked]
              exact iff_of_false nothing (Link.not_refusedWhileParked at_ (by simp [stage]))
      | @rejected before waiter cmd at_ stage gone =>
          refine (known.holdsSlotOf_iff at_ (by simp [stage])).trans ?_
          constructor
          · rintro ⟨waiter, parked, held⟩
            rw [stage] at parked
            cases parked
            exact ⟨before, waiter, cmd, at_, stage, gone, held⟩
          · rintro ⟨_, waiter, cmd, at', stage, _, held⟩
            cases at_.symm.trans at'
            exact ⟨waiter, by rw [stage]; rfl, held⟩
      | resumed at_ stage sent =>
          exact iff_of_false (known.not_holdsSlotOf at_ stage (by simp [sent]))
            (Link.not_refusedWhileParked at_ (by simp [stage]))
      | closed at_ stage closed =>
          exact iff_of_false (known.not_holdsSlotOf at_ stage (by simp [closed]))
            (Link.not_refusedWhileParked at_ (by simp [stage]))
      | cancelled at_ stage =>
          refine iff_of_false ?_ (Link.not_refusedWhileParked at_ (by simp [stage]))
          rintro ⟨id, waiter, held, mine⟩
          exact known.not_holdsSlotOf_discard at_ stage id waiter mine held

theorem unparked_new (role : ProtocolRole) (call : SendId) :
    (Link.new role).Unparked call where
  cells _ _ := rfl
  own _ _ found := by cases found

/-- A subscribe up to the hand-over of its packet. -/
def parksSuback : List Link.Event :=
  [.send 0 (.call (.subscribe [⟨"t", .atMostOnce⟩])), .send 0 .proceed, .send 0 .proceed]

/-- The writer actor fails to write and returns. -/
def actorFails : List Link.Event :=
  [.sendPacket .pingreq, .actor .proceed, .actor .take, .actor (.finish false),
    .actor .proceed, .actor .proceed]

/-- A subscribe that times out leaves nothing. -/
theorem returned_leaves_slot_iff_timeout :
    let link := replay Link.step (.new .client)
      (parksSuback ++ [.send 0 .proceed, .send 0 .elapse])
    ∃ next send, link.step (.send 0 .proceed) = some next ∧ next.sends 0 = some send ∧
      send.stage = .returned (err (.timeout .ack)) ∧ ¬ next.HoldsSlotOf 0 := by
  intro link
  have run : Run Link.step Any (.new .client) _ link := Follows.run (by decide +kernel)
  have moved : link.step (.send 0 .proceed) = some _ := rfl
  refine ⟨_, _, moved, rfl, rfl, fun holds => ?_⟩
  have refused := (returned_leaves_slot_iff (unparked_new .client 0) run moved rfl rfl).mp holds
  exact Link.not_refusedWhileParked rfl (by simp) refused

/-- A subscribe after the actor has returned parks its waiter, is refused, and leaves
the slot. -/
theorem refused_send_leaves_slot :
    ∃ link next send, Run Link.step Any (.new .client) (actorFails ++ parksSuback) link ∧
      link.step (.send 0 .proceed) = some next ∧ next.sends 0 = some send ∧
      send.stage = .returned (err .channelClosed) ∧ next.HoldsSlotOf 0 :=
  ⟨_, _, _, Follows.run (by decide +kernel), rfl, rfl, rfl, 1, ⟨1, .suback, 0⟩,
    by decide +kernel, rfl⟩

end HotaruMqtt.Channel
