import HotaruMqtt.Channel.Acks

/-!
# Whether PUBCOMP finds its waiter

At QoS 2 the reader wakes the waiter for PUBREC and sends the PUBREL; the call parks
its waiter for PUBCOMP only when it runs again.  A PUBCOMP that comes in between finds
nobody, and the call then waits for one that has been consumed.  With no call still to
park its waiter at the first lookup, and with nobody taking a waiter away, a PUBCOMP
reaches its call; the PUBCOMP of a copy that no call waits for is read past.
-/

namespace HotaruMqtt.Channel

open Exec Exec.Outcome Exec.Transition

/-! ## A peer that answers -/

/-- The PUBLISH of a QoS 2 flow. -/
def WriteCmd.StartsFlow (id : PacketId) : WriteCmd → Prop
  | .publish started => started.qos = .exactlyOnce ∧ started.packetId = some id
  | _ => False

instance (id : PacketId) : DecidablePred (WriteCmd.StartsFlow id)
  | .publish _ => inferInstanceAs (Decidable (_ ∧ _))
  | .packet _ | .flush | .shutdown => isFalse not_false

/-- An acknowledgement of this kind and identifier was consumed. -/
def Record.Consumes (kind : AckKind) (id : PacketId) : Record → Prop
  | .consumed ack _ => ack = .publishAck kind id
  | _ => False

instance (kind : AckKind) (id : PacketId) : DecidablePred (Record.Consumes kind id)
  | .consumed _ _ => inferInstanceAs (Decidable (_ = _))
  | .parked _ | .accepted _ _ | .closeCalled _ | .swept _ | .abandoned => isFalse not_false

/-- The peer answers each PUBLISH with one PUBREC and each PUBREL with one PUBCOMP, no
timeout elapses and nobody closes the channel. -/
def PeerAnswers (link : Link) : Link.Event → Prop
  | .send _ .elapse => False
  | .close _ _ => False
  | .reader (.read (.pubrec id)) =>
      link.log.countP (Record.Consumes .pubrec id) < link.written.countP (WriteCmd.StartsFlow id)
  | .reader (.read (.pubcomp id)) =>
      link.log.countP (Record.Consumes .pubcomp id) < link.written.count (.packet (.pubrel id))
  | _ => True

instance (link : Link) (event : Link.Event) : Decidable (PeerAnswers link event) := by
  unfold PeerAnswers
  split <;> infer_instance

/-- The call publishes at QoS 2 under this identifier. -/
def Link.HasFlow (link : Link) (call : SendId) (id : PacketId) : Prop :=
  ∃ send ∈ link.sends call, send.packetId = some id ∧
    send.request.awaits = some (.publishAck .pubrec)

instance (link : Link) (call : SendId) (id : PacketId) : Decidable (link.HasFlow call id) :=
  inferInstanceAs (Decidable (∃ send ∈ link.sends call, _))

/-- A call that publishes at QoS 2 under this identifier has not parked its waiter for
PUBCOMP. -/
def Link.Unready (link : Link) (id : PacketId) : Prop :=
  ∃ call, link.HasFlow call id ∧
    link.pendingAcks.cells ⟨id, .publishAck .pubcomp, call⟩ = none

/-- When the reader looks for the waiter of a PUBCOMP, no call is still to park it; and a
publish at QoS 2 takes no identifier under which a PUBCOMP has been consumed. -/
def PubcompParked (link : Link) : Link.Event → Prop
  | .reader .proceed =>
      ∀ id, link.reader = .looking (.publishAck .pubcomp id) → ¬ link.Unready id
  | .send call .proceed =>
      ∀ send ∈ link.sends call, send.stage = .allocating →
        send.request.awaits = some (.publishAck .pubrec) →
        ∀ record ∈ link.log, ¬ record.Consumes .pubcomp link.nextId
  | _ => True

/-! ## The invariant -/

/-- What holds while the peer answers and every PUBCOMP is looked up in time. -/
structure PubcompInv (link : Link) : Prop where
  /-- No call gives up its waiter. -/
  steady : link.EachSend fun _ send => ∀ waiter, send.stage ≠ .cancelling waiter
  /-- No receiver has lost its sender. -/
  unclosed : ∀ waiter, link.pendingAcks.cells waiter ≠ some .closed
  /-- Of the PUBCOMPs of a call one has woken its waiter. -/
  woken : ∀ call id woken, link.HasFlow call id →
    .consumed (.publishAck .pubcomp id) woken ∈ link.log →
    .consumed (.publishAck .pubcomp id) (some ⟨id, .publishAck .pubcomp, call⟩) ∈ link.log

namespace AckInv

variable {link : Link}

/-- Where there is a waiter for PUBCOMP, the call it belongs to is the only one. -/
theorem ready_of_present (acks : AckInv link) {id : PacketId} {owner : SendId}
    {cell : Oneshot Wake}
    (present : link.pendingAcks.cells ⟨id, .publishAck .pubcomp, owner⟩ = some cell) :
    ¬ link.Unready id := by
  rintro ⟨call, ⟨send, found, has, _⟩, nothing⟩
  obtain ⟨other, found', has', _⟩ := acks.flow.owned _ _ present
  obtain rfl : call = owner := acks.numbered.distinct found found' has has'
  cases nothing.symm.trans present

/-- A waiter that is about to be parked finds its place free. -/
theorem lookup_of_parking (acks : AckInv link) {call : SendId} {send : Send} {waiter : Waiter}
    {cmd : Option WriteCmd} (found : link.sends call = some send)
    (stage : send.stage = .parking waiter cmd) :
    link.pendingAcks.parked.lookup waiter.id = none := by
  by_contra something
  obtain ⟨other, there⟩ := Option.ne_none_iff_exists'.mp something
  have waiting := link.pendingAcks.waiting_of_parked there
  obtain ⟨owner, found', has', _⟩ := acks.flow.owned other _ waiting
  rw [link.pendingAcks.keyed there] at has'
  obtain ⟨_, _, owns, _⟩ := acks.flow.of_parking found stage
  have mine : other.owner = call := acks.numbered.distinct found' found has' owns.1
  have stands := acks.flow.stands call send found
  obtain ⟨request, packetId, _⟩ := send
  cases stage
  cases stands with
  | parkingFirst awaits fresh => cases (fresh other mine).symm.trans waiting
  | parkingSecond awaits only answered accepted =>
      rw [only other mine (by simp [waiting])] at waiting
      cases answered.symm.trans waiting

end AckInv

/-- What has a flow had it before, or is just being given its identifier. -/
theorem Moves.hasFlow {link next : Link} {event : Link.Event} (moves : Moves link event next)
    {call : SendId} {id : PacketId} (has : next.HasFlow call id) :
    link.HasFlow call id ∨ next.log = link.log ∧ ∃ send, event = .send call .proceed ∧
      link.sends call = some send ∧ send.stage = .allocating ∧
      send.request.awaits = some (.publishAck .pubrec) ∧ id = link.nextId := by
  obtain ⟨after, found, has, awaits⟩ := has
  cases moves with
  | @send mover _ _ _ moves =>
      by_cases mine : call = mover
      · subst mine
        cases moves with
        | called unused =>
            cases (Link.sends_setSend_self _ _ _).symm.trans found
            cases has
        | @numbered send slot before stage _ =>
            cases (Link.sends_setSend_self _ _ _).symm.trans found
            cases has
            exact .inr ⟨rfl, send, rfl, before, stage, awaits, rfl⟩
        | @unnumbered send before _ _ | @parked send _ _ before _ | @accepted send _ _ before _ _
        | @rejected send _ _ before _ _ | @resumed send _ _ before _ _ | @closed send _ before _ _
        | @elapsed send _ before _ _ | @cancelled send _ before _ =>
            cases (Link.sends_setSend_self _ _ _).symm.trans found
            exact .inl ⟨send, before, has, awaits⟩
      · have before : link.sends call = some after := by
          cases moves <;> exact (Link.sends_setSend_of_ne _ _ mine).symm.trans found
        exact .inl ⟨after, before, has, awaits⟩
  | close _ moves => cases moves <;> exact .inl ⟨after, found, has, awaits⟩
  | reader _ moves => exact .inl ⟨after, moves.sends_eq ▸ found, has, awaits⟩
  | actor moves => exact .inl ⟨after, moves.sends_eq ▸ found, has, awaits⟩
  | sendPacket | sendPublish | allocate | release => exact .inl ⟨after, found, has, awaits⟩

/-- A move adds to the log, and only the reader adds that an acknowledgement has been
consumed. -/
theorem Moves.records {link next : Link} {event : Link.Event} (moves : Moves link event next) :
    ∃ records, next.log = link.log ++ records ∧ ∀ ack woken, .consumed ack woken ∈ records →
      ∃ move, event = .reader move ∧ records = [.consumed ack woken] := by
  have silent : ∀ {log : List Record}, log = link.log →
      ∃ records, log = link.log ++ records ∧ ∀ ack woken, .consumed ack woken ∈ records →
        ∃ move, event = .reader move ∧ records = [.consumed ack woken] :=
    fun same => ⟨[], by simp [same], by simp⟩
  cases moves with
  | reader _ moves =>
      cases moves with
      | missed | vanished | answered | putBack => exact ⟨_, rfl, by simp⟩
      | released | replied => exact ⟨_, rfl, by simp⟩
      | _ => exact silent rfl
  | send _ moves =>
      cases moves with
      | parked | accepted => exact ⟨_, rfl, by simp⟩
      | _ => exact silent rfl
  | close _ moves =>
      cases moves with
      | called | visited | finished => exact ⟨_, rfl, by simp⟩
      | _ => exact silent rfl
  | actor moves => cases moves <;> exact silent rfl
  | sendPacket | sendPublish => exact ⟨_, rfl, by simp⟩
  | allocate | release => exact silent rfl

namespace PubcompInv

variable {link next : Link}

theorem resume_ne_cancelling (waiter other : Waiter) (answer : Wake) :
    waiter.resume answer ≠ .cancelling other := by
  unfold Waiter.resume
  split
  · split <;> simp
  · simp
  · simp

theorem steady_step (inv : PubcompInv link) {event : Link.Event}
    (answers : PeerAnswers link event) (moves : Moves link event next) :
    next.EachSend fun _ send => ∀ waiter, send.stage ≠ .cancelling waiter := by
  cases moves with
  | send _ moves =>
      cases moves with
      | elapsed found stage waiting => exact answers.elim
      | parked found stage =>
          refine inv.steady.update rfl ?_
          unfold Waiter.afterPark
          split <;> simp
      | accepted found stage alive =>
          refine inv.steady.update rfl ?_
          unfold Stage.afterAccept
          split <;> simp
      | resumed found stage sent =>
          exact inv.steady.update rfl fun other => resume_ne_cancelling _ other _
      | _ => exact inv.steady.update rfl (by simp)
  | close _ moves => exact answers.elim
  | reader _ moves => exact inv.steady.of_sends_eq moves.sends_eq
  | actor moves => exact inv.steady.of_sends_eq moves.sends_eq
  | sendPacket _ _ | sendPublish _ _ | allocate _ | release _ => exact inv.steady

theorem unclosed_step (inv : PubcompInv link) (acks : AckInv link) {event : Link.Event}
    (answers : PeerAnswers link event) (moves : Moves link event next) :
    ∀ waiter, next.pendingAcks.cells waiter ≠ some .closed := by
  cases moves with
  | send _ moves =>
      cases moves with
      | @parked send waiter cmd found stage =>
          intro other
          obtain ⟨_, unparked, _, _⟩ := acks.flow.of_parking found stage
          change (link.pendingAcks.park waiter).cells other ≠ some .closed
          rw [link.pendingAcks.cells_park unparked, acks.lookup_of_parking found stage]
          split
          · simp
          · simpa using inv.unclosed other
      | cancelled found stage => exact absurd stage (inv.steady _ _ found _)
      | _ => exact inv.unclosed
  | close _ moves => exact answers.elim
  | reader _ moves =>
      cases moves with
      | took =>
          rw [Registry.cells_take]
          exact inv.unclosed
      | answered stage taken owns =>
          intro other
          rw [link.pendingAcks.cells_answer taken]
          split
          · simp
          · exact inv.unclosed other
      | putBack stage taken owns => cases (acks.owns_hand stage taken).symm.trans owns
      | _ => exact inv.unclosed
  | actor moves => cases moves <;> exact inv.unclosed
  | sendPacket _ _ | sendPublish _ _ | allocate _ | release _ => exact inv.unclosed

/-- A PUBCOMP that is consumed when no call is still to park its waiter has woken the
waiter, now or before. -/
theorem woken_of_consumed (inv : PubcompInv link) (acks : AckInv link) {move : Link.ReaderMove}
    (moves : ReaderMoves link move next) {call : SendId} {id : PacketId} {woken : Option Waiter}
    (log : next.log = link.log ++ [.consumed (.publishAck .pubcomp id) woken])
    (has : link.HasFlow call id) (ready : ¬ link.Unready id) :
    .consumed (.publishAck .pubcomp id) (some ⟨id, .publishAck .pubcomp, call⟩) ∈ next.log := by
  rw [log]
  cases cell : link.pendingAcks.cells ⟨id, .publishAck .pubcomp, call⟩ with
  | none => exact absurd ⟨call, has, cell⟩ ready
  | some cell' =>
      cases cell' with
      | waiting =>
          obtain ⟨rfl, _⟩ := acks.wakes_waiter moves log rfl cell
          exact List.mem_append_right _ (List.mem_singleton_self _)
      | sent answer =>
          obtain ⟨ack, same, _, records⟩ := acks.flow.answered _ _ cell
          obtain rfl := Ack.eq_of_waiter same
          exact List.mem_append_left _ (records.subset (by simp))
      | closed => exact absurd cell (inv.unclosed _)

/-- What the reader consumes as a PUBCOMP, no call was still to park a waiter for. -/
theorem ready_of_consumed (acks : AckInv link) {move : Link.ReaderMove}
    (parked : PubcompParked link (.reader move)) (moves : ReaderMoves link move next)
    {id : PacketId} {woken : Option Waiter}
    (log : next.log = link.log ++ [.consumed (.publishAck .pubcomp id) woken]) :
    ¬ link.Unready id := by
  have holds := acks.reader
  cases moves with
  | missed stage mismatch =>
      cases List.append_cancel_left log
      exact parked id stage
  | vanished stage nothing =>
      cases List.append_cancel_left log
      rw [stage] at holds
      obtain ⟨_, waiter, isFor, waits | closed⟩ := holds
      · exact acks.ready_of_present (isFor ▸ waits)
      · exact acks.ready_of_present (isFor ▸ closed)
  | @answered _ waiter stage taken owns =>
      cases List.append_cancel_left log
      have waiting := (link.pendingAcks.held waiter).mpr (.inr taken)
      rw [← acks.hand_isFor stage taken] at waiting
      exact acks.ready_of_present waiting
  | putBack stage taken owns => cases (acks.owns_hand stage taken).symm.trans owns
  | released _ _ _ | replied _ _ => cases List.append_cancel_left log
  | _ => exact absurd log (by simp)

theorem woken_step (inv : PubcompInv link) (acks : AckInv link) {event : Link.Event}
    (parked : PubcompParked link event) (moves : Moves link event next) :
    ∀ call id woken, next.HasFlow call id →
      .consumed (.publishAck .pubcomp id) woken ∈ next.log →
      .consumed (.publishAck .pubcomp id) (some ⟨id, .publishAck .pubcomp, call⟩) ∈ next.log := by
  intro call id woken has listed
  obtain ⟨records, log, only⟩ := moves.records
  rcases moves.hasFlow has with had | ⟨same, send, rfl, found, stage, awaits, rfl⟩
  · rw [log] at listed
    rcases List.mem_append.mp listed with before | last
    · rw [log]
      exact List.mem_append_left _ (inv.woken call id woken had before)
    · obtain ⟨move, rfl, rfl⟩ := only _ _ last
      cases moves with
      | reader _ moves =>
          exact inv.woken_of_consumed acks moves log had (ready_of_consumed acks parked moves log)
  · rw [same] at listed
    exact absurd rfl (parked send found stage awaits _ listed)

end PubcompInv

theorem pubcompInv_new (role : ProtocolRole) : PubcompInv (.new role) where
  steady _ _ found := by cases found
  unclosed _ := by simp [Link.new, Registry.new]
  woken _ _ _ _ listed := by cases listed

theorem preserves_pubcompInv :
    Preserves Link.step (fun link event => PeerAnswers link event ∧ PubcompParked link event)
      fun link => link.allocated ≤ 65535 → AckInv link ∧ PubcompInv link := by
  rintro link event next invs ⟨answers, parked⟩ moved few
  have moves := Link.step_moves moved
  obtain ⟨acks, inv⟩ := invs (moves.allocated_le.trans few)
  exact ⟨acks.step few moves, inv.steady_step answers moves, inv.unclosed_step acks answers moves,
    inv.woken_step acks parked moves⟩

/-! ## The result -/

/-- The PUBCOMP of a QoS 2 publish has been consumed, and the call has neither completed
nor had its waiter for it resolved. -/
def PubcompLost (link : Link) (call : SendId) : Prop :=
  ∃ send id woken, link.sends call = some send ∧
    send.request.awaits = some (.publishAck .pubrec) ∧ send.packetId = some id ∧
    .consumed (.publishAck .pubcomp id) woken ∈ link.log ∧
    send.stage ≠ .returned (ok (.published (.completed id))) ∧
    ∀ answer, link.pendingAcks.cells ⟨id, .publishAck .pubcomp, call⟩ ≠ some (.sent answer)

/-- In every run in which no PUBCOMP is looked up before its call has parked the waiter for
it, no call loses its PUBCOMP. -/
theorem pubcomp_not_lost (role : ProtocolRole) {events : List Link.Event} {link : Link}
    (run : Run Link.step (fun link event => PeerAnswers link event ∧ PubcompParked link event)
      (.new role) events link) (few : link.allocated ≤ 65535) (call : SendId) :
    ¬ PubcompLost link call := by
  rintro ⟨send, id, woken, found, awaits, has, listed, _, unresolved⟩
  obtain ⟨acks, inv⟩ := run.invariant preserves_pubcompInv
    (fun _ => ⟨ackInv_new role, pubcompInv_new role⟩) few
  have woke := inv.woken call id woken ⟨send, found, has, awaits⟩ listed
  exact unresolved _ (acks.flow.woken _ _ woke)

/-- The condition where no calls but these are made, so that it can be evaluated. -/
def ParkedAmong (calls : List SendId) (link : Link) : Link.Event → Prop
  | .send call (.call _) => call ∈ calls
  | .send call .proceed =>
      ∀ send ∈ link.sends call, send.stage = .allocating →
        send.request.awaits = some (.publishAck .pubrec) →
        ∀ record ∈ link.log, ¬ record.Consumes .pubcomp link.nextId
  | .reader .proceed =>
      match link.reader with
      | .looking (.publishAck .pubcomp id) => ∀ call ∈ calls, link.HasFlow call id →
          link.pendingAcks.cells ⟨id, .publishAck .pubcomp, call⟩ ≠ none
      | _ => True
  | _ => True

instance (calls : List SendId) (link : Link) (event : Link.Event) :
    Decidable (ParkedAmong calls link event) := by
  unfold ParkedAmong
  split
  · infer_instance
  · infer_instance
  · split <;> infer_instance
  · infer_instance

theorem preserves_among (calls : List SendId) :
    Preserves Link.step (fun link event => PeerAnswers link event ∧ ParkedAmong calls link event)
      fun link => ∀ call, call ∉ calls → link.sends call = none := by
  rintro link event next unused ⟨_, among⟩ moved call outside
  cases Link.step_moves moved with
  | @send mover _ _ _ moves =>
      have other : call ≠ mover := by
        rintro rfl
        cases moves with
        | called _ => exact outside among
        | unnumbered found _ _ | numbered found _ _ | parked found _ | accepted found _ _
        | rejected found _ _ | resumed found _ _ | closed found _ _ | elapsed found _ _
        | cancelled found _ => cases (unused call outside).symm.trans found
      cases moves <;> exact (Link.sends_setSend_of_ne _ _ other).trans (unused call outside)
  | close _ moves => exact moves.sends_eq ▸ unused call outside
  | reader _ moves => exact moves.sends_eq ▸ unused call outside
  | actor moves => exact moves.sends_eq ▸ unused call outside
  | sendPacket | sendPublish | allocate | release => exact unused call outside

/-- A run in which no calls but these are made is told by what these are at. -/
theorem run_of_among (calls : List SendId) {role : ProtocolRole} {events : List Link.Event}
    {link : Link}
    (run : Run Link.step (fun link event => PeerAnswers link event ∧ ParkedAmong calls link event)
      (.new role) events link) :
    Run Link.step (fun link event => PeerAnswers link event ∧ PubcompParked link event)
      (.new role) events link := by
  refine run.mono_of_invariant (preserves_among calls) (fun _ _ => rfl) ?_
  rintro link event unused ⟨answers, among⟩
  refine ⟨answers, ?_⟩
  unfold PubcompParked
  split
  · rintro id looking ⟨call, has, nothing⟩
    simp only [ParkedAmong, looking] at among
    obtain ⟨send, found, flow⟩ := has
    by_cases listed : call ∈ calls
    · exact among call listed ⟨send, found, flow⟩ nothing
    · cases (unused call listed).symm.trans found
  · exact among
  · trivial

/-- A publish at QoS 2, written to the wire and answered with PUBREC, whose PUBREL is
written too.  The call itself has not run since. -/
def releasesQos2 : List Link.Event :=
  [.send 0 (.call (.publish ⟨"t", [], .exactlyOnce, false⟩)), .send 0 .proceed, .send 0 .proceed,
    .send 0 .proceed, .actor .proceed, .actor .take, .actor (.finish true)] ++
  readsAck (.pubrec 1) ++
  [.reader .proceed, .actor .proceed, .actor .take, .actor (.finish true)]

theorem pubcomp_not_lost_parked :
    let link := replay Link.step (.new .server)
      (releasesQos2 ++ [.send 0 .proceed, .send 0 .proceed] ++ readsAck (.pubcomp 1))
    .consumed (.publishAck .pubcomp 1) (some ⟨1, .publishAck .pubcomp, 0⟩) ∈ link.log ∧
      ¬ PubcompLost link 0 := by
  refine ⟨by decide +kernel, ?_⟩
  exact pubcomp_not_lost .server (run_of_among [0] (Follows.run (by decide +kernel)))
    (by decide +kernel) 0

/-- A copy that the broker fans out at QoS 2 has nobody waiting for it, and its PUBCOMP is
read past. -/
example :
    Follows Link.step (fun link event => PeerAnswers link event ∧ ParkedAmong [] link event)
      (.new .server)
      [.allocate, .sendPublish ⟨"t", [], false, .exactlyOnce, false, some 1⟩, .actor .proceed,
        .actor .take, .actor (.finish true), .reader .proceed, .reader .proceed,
        .reader (.read (.pubrec 1)), .reader .proceed, .reader .proceed, .actor .proceed,
        .actor .take, .actor (.finish true), .reader .proceed, .reader .proceed,
        .reader (.read (.pubcomp 1)), .reader .proceed] := by
  decide +kernel

/-- The PUBCOMP comes before the call has parked its waiter for it. -/
def overtakesParking : List Link.Event :=
  releasesQos2 ++ [.reader .proceed, .reader .proceed, .reader (.read (.pubcomp 1)),
    .reader .proceed]

theorem pubcompLost_overtakesParking (role : ProtocolRole) :
    ∃ link, Run Link.step PeerAnswers (.new role) overtakesParking link ∧ link.allocated = 1 ∧
      PubcompLost link 0 := by
  have played : Follows Link.step PeerAnswers (.new role) overtakesParking := by
    cases role <;> decide +kernel
  have standing : (replay Link.step (.new role) overtakesParking).sends 0 =
      some ⟨.publish ⟨"t", [], .exactlyOnce, false⟩, some 1,
        .awaiting ⟨1, .publishAck .pubrec, 0⟩⟩ := by
    cases role <;> decide +kernel
  have consumed : .consumed (.publishAck .pubcomp 1) none ∈
      (replay Link.step (.new role) overtakesParking).log := by
    cases role <;> decide +kernel
  have unparked : (replay Link.step (.new role) overtakesParking).pendingAcks.cells
      ⟨1, .publishAck .pubcomp, 0⟩ = none := by
    cases role <;> decide +kernel
  refine ⟨_, played.run, ?_, _, 1, none, standing, rfl, rfl, consumed, by simp, ?_⟩
  · cases role <;> decide +kernel
  · intro answer
    rw [unparked]
    simp

/-- In either role a call loses its PUBCOMP when it has not run since its PUBREC. -/
theorem pubcomp_overtakes_parking :
    (∃ link, Run Link.step PeerAnswers (.new .client) overtakesParking link ∧
      link.allocated = 1 ∧ PubcompLost link 0) ∧
    ∃ link, Run Link.step PeerAnswers (.new .server) overtakesParking link ∧
      link.allocated = 1 ∧ PubcompLost link 0 :=
  ⟨pubcompLost_overtakesParking .client, pubcompLost_overtakesParking .server⟩

end HotaruMqtt.Channel
