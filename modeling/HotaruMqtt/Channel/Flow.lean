import HotaruMqtt.Channel.Moves
import HotaruMqtt.Exec.Transition

/-!
# What a call of the send path has behind it

Every receiver belongs to the call that made it, and what the log says about its
waiter is in order: parked, then woken once by an acknowledgement of its own
identifier and kind, and the waiter for PUBCOMP parked only after the one for PUBREC
was woken.  From this the stage of a call tells what has happened to its waiters.
-/

namespace HotaruMqtt.Channel

open Exec Exec.Outcome Exec.Transition
open scoped List

/-! ## Records of a call -/

/-- The waiter of a call that an acknowledgement is for. -/
def Ack.waiter (ack : Ack) (call : SendId) : Waiter :=
  ⟨ack.id, ack.slot, call⟩

/-- For each acknowledgement, that its waiter was parked and then woken by it. -/
def acked (call : SendId) (acks : List Ack) : List Record :=
  acks.flatMap fun ack => [.parked (ack.waiter call), .consumed ack (some (ack.waiter call))]

/-- What is recorded when a waiter is parked: for PUBCOMP this is the second phase. -/
def Waiter.preamble (waiter : Waiter) : List Record :=
  if waiter.slot = .publishAck .pubcomp then
    acked waiter.owner [.publishAck .pubrec waiter.id] ++ [.parked waiter]
  else
    [.parked waiter]

/-- The waiter that was woken. -/
def Record.woken : Record → Option Waiter
  | .consumed _ woken => woken
  | _ => none

/-- The acknowledgements behind the response to a request, by what it first waits
for. -/
def Answered (log : List Record) (call : SendId) (id : PacketId) : AckSlot → MqttResponse → Prop
  | .publishAck .puback, response =>
      response = .published (.acknowledged id) ∧ acked call [.publishAck .puback id] <+ log
  | .publishAck .pubrec, response =>
      response = .published (.completed id) ∧
        acked call [.publishAck .pubrec id, .publishAck .pubcomp id] <+ log
  | .publishAck .pubcomp, _ => False
  | .suback, response =>
      ∃ returnCodes, response = .subscribed returnCodes ∧
        acked call [.suback id returnCodes] <+ log
  | .unsuback, response => response = .unsubscribed ∧ acked call [.unsuback id] <+ log

theorem Answered.mono {log more : List Record} {call : SendId} {id : PacketId} {slot : AckSlot}
    {response : MqttResponse} (answered : Answered log call id slot response)
    (grows : log <+ more) : Answered more call id slot response := by
  cases slot with
  | publishAck kind =>
      cases kind with
      | puback | pubrec => exact ⟨answered.1, answered.2.trans grows⟩
      | pubcomp => exact answered
  | suback =>
      obtain ⟨returnCodes, same, records⟩ := answered
      exact ⟨returnCodes, same, records.trans grows⟩
  | unsuback => exact ⟨answered.1, answered.2.trans grows⟩

/-! ## Stages -/

/-- A receiver stays what it is, except that one that waits may be told something. -/
def Goes (before after : Option (Oneshot Wake)) : Prop :=
  (after = none ↔ before = none) ∧
    ∀ answer, before = some (.sent answer) → after = some (.sent answer)

theorem Goes.of_ebbs {before after : Option (Oneshot Wake)}
    (ebbs : after = before ∨ before = some .waiting ∧ after = some .closed) :
    Goes before after := by
  rcases ebbs with rfl | ⟨rfl, rfl⟩
  · exact ⟨.rfl, fun _ => id⟩
  · simp [Goes]

/-- No receiver comes from nowhere. -/
theorem Goes.exists_before {before after : Option (Oneshot Wake)} {cell : Oneshot Wake}
    (goes : Goes before after) (present : after = some cell) : ∃ cell, before = some cell := by
  refine Option.ne_none_iff_exists'.mp fun nothing => ?_
  rw [goes.1.mpr nothing] at present
  cases present

/-- All that a call has parked is this one waiter. -/
def Only (cells : Waiter → Option (Oneshot Wake)) (waiter : Waiter) : Prop :=
  ∀ other, other.owner = waiter.owner → cells other ≠ none → other = waiter

/-- What the stage of a call says about its request, its identifier, its receivers
and the log. -/
inductive Stands (cells : Waiter → Option (Oneshot Wake)) (log : List Record) (call : SendId) :
    Send → Prop
  | allocating {request : MqttRequest} : Stands cells log call ⟨request, none, .allocating⟩
  | unnumbered {request : MqttRequest} {cmd : WriteCmd} (awaits : request.awaits = none) :
      Stands cells log call ⟨request, none, .enqueueing none cmd⟩
  | sent {request : MqttRequest} (awaits : request.awaits = none) :
      Stands cells log call ⟨request, none, .returned (ok (.published .sent))⟩
  | parkingFirst {request : MqttRequest} {id : PacketId} {slot : AckSlot}
      (awaits : request.awaits = some slot)
      (fresh : ∀ other, other.owner = call → cells other = none) :
      Stands cells log call
        ⟨request, some id, .parking ⟨id, slot, call⟩ (some (request.command id))⟩
  | enqueueing {request : MqttRequest} {id : PacketId} {slot : AckSlot}
      (awaits : request.awaits = some slot) (only : Only cells ⟨id, slot, call⟩) :
      Stands cells log call
        ⟨request, some id, .enqueueing (some ⟨id, slot, call⟩) (request.command id)⟩
  | awaitingFirst {request : MqttRequest} {id : PacketId} {slot : AckSlot}
      (awaits : request.awaits = some slot) (only : Only cells ⟨id, slot, call⟩)
      (accepted : .accepted (some call) (request.command id) ∈ log) :
      Stands cells log call ⟨request, some id, .awaiting ⟨id, slot, call⟩⟩
  | parkingSecond {request : MqttRequest} {id : PacketId} {answer : Wake}
      (awaits : request.awaits = some (.publishAck .pubrec))
      (only : Only cells ⟨id, .publishAck .pubrec, call⟩)
      (answered : cells ⟨id, .publishAck .pubrec, call⟩ = some (.sent answer))
      (accepted : .accepted (some call) (request.command id) ∈ log) :
      Stands cells log call ⟨request, some id, .parking ⟨id, .publishAck .pubcomp, call⟩ none⟩
  | awaitingSecond {request : MqttRequest} {id : PacketId}
      (awaits : request.awaits = some (.publishAck .pubrec))
      (accepted : .accepted (some call) (request.command id) ∈ log) :
      Stands cells log call ⟨request, some id, .awaiting ⟨id, .publishAck .pubcomp, call⟩⟩
  | cancelling {request : MqttRequest} {id : PacketId} {waiter : Waiter} :
      Stands cells log call ⟨request, some id, .cancelling waiter⟩
  | failed {request : MqttRequest} {id : Option PacketId} {error : MqttError} :
      Stands cells log call ⟨request, id, .returned (err error)⟩
  | succeeded {request : MqttRequest} {id : PacketId} {slot : AckSlot} {response : MqttResponse}
      (awaits : request.awaits = some slot)
      (accepted : .accepted (some call) (request.command id) ∈ log)
      (answered : Answered log call id slot response) :
      Stands cells log call ⟨request, some id, .returned (ok response)⟩

theorem Only.goes {before after : Waiter → Option (Oneshot Wake)} {waiter : Waiter}
    (only : Only before waiter)
    (goes : ∀ other, other.owner = waiter.owner → Goes (before other) (after other)) :
    Only after waiter := by
  intro other owner present
  exact only other owner fun nothing => present ((goes other owner).1.mpr nothing)

theorem Stands.mono {before after : Waiter → Option (Oneshot Wake)} {log more : List Record}
    {call : SendId} {send : Send} (stands : Stands before log call send)
    (goes : ∀ waiter, waiter.owner = call → Goes (before waiter) (after waiter))
    (grows : log <+ more) : Stands after more call send := by
  cases stands with
  | allocating => exact .allocating
  | unnumbered awaits => exact .unnumbered awaits
  | sent awaits => exact .sent awaits
  | parkingFirst awaits fresh =>
      exact .parkingFirst awaits fun other owner => (goes other owner).1.mpr (fresh other owner)
  | enqueueing awaits only => exact .enqueueing awaits (only.goes goes)
  | awaitingFirst awaits only accepted =>
      exact .awaitingFirst awaits (only.goes goes) (grows.subset accepted)
  | parkingSecond awaits only answered accepted =>
      exact .parkingSecond awaits (only.goes goes) ((goes _ rfl).2 _ answered)
        (grows.subset accepted)
  | awaitingSecond awaits accepted => exact .awaitingSecond awaits (grows.subset accepted)
  | cancelling => exact .cancelling
  | failed => exact .failed
  | succeeded awaits accepted answered =>
      exact .succeeded awaits (grows.subset accepted) (answered.mono grows)

/-! ## The invariant -/

/-- A waiter is one of those that a call parks. -/
def Send.Owns (send : Send) (waiter : Waiter) : Prop :=
  send.packetId = some waiter.id ∧ (send.request.awaits = some waiter.slot ∨
    send.request.awaits = some (.publishAck .pubrec) ∧ waiter.slot = .publishAck .pubcomp)

theorem awaits_ne_pubcomp (request : MqttRequest) :
    request.awaits ≠ some (.publishAck .pubcomp) := by
  unfold MqttRequest.awaits
  split
  · split <;> simp
  · simp
  · simp

/-- Who knows the identifier, the kind and the call knows the acknowledgement of a
publish flow. -/
theorem Ack.eq_of_waiter {ack : Ack} {id : PacketId} {kind : AckKind} {call owner : SendId}
    (same : ack.waiter owner = ⟨id, .publishAck kind, call⟩) : ack = .publishAck kind id := by
  cases ack with
  | publishAck other place =>
      cases same
      rfl
  | suback place returnCodes => cases same
  | unsuback place => cases same

/-- Receivers, calls and log fit together: each receiver has its call, its parking and its
answer on record, and each stage of a call has the records it presupposes. -/
structure Flow (link : Link) : Prop where
  owned : ∀ waiter cell, link.pendingAcks.cells waiter = some cell →
    ∃ send, link.sends waiter.owner = some send ∧ send.Owns waiter
  parked : ∀ waiter cell, link.pendingAcks.cells waiter = some cell →
    waiter.preamble <+ link.log
  answered : ∀ waiter answer, link.pendingAcks.cells waiter = some (.sent answer) →
    ∃ ack : Ack, ack.waiter waiter.owner = waiter ∧ ack.answer = answer ∧
      waiter.preamble ++ [.consumed ack (some waiter)] <+ link.log
  woken : ∀ ack waiter, .consumed ack (some waiter) ∈ link.log →
    link.pendingAcks.cells waiter = some (.sent ack.answer)
  once : (link.log.filterMap Record.woken).Nodup
  stands : link.EachSend (Stands link.pendingAcks.cells link.log)

theorem flow_new (role : ProtocolRole) : Flow (.new role) where
  owned _ _ found := by cases found
  parked _ _ found := by cases found
  answered _ _ found := by cases found
  woken _ _ listed := by cases listed
  once := List.nodup_nil
  stands _ _ found := by cases found

namespace Flow

variable {link next : Link}

theorem mem_of_plain {log records : List Record} (plain : records.filterMap Record.woken = [])
    {ack : Ack} {waiter : Waiter} (listed : .consumed ack (some waiter) ∈ log ++ records) :
    .consumed ack (some waiter) ∈ log := by
  refine (List.mem_append.mp listed).resolve_right fun last => ?_
  have woken : waiter ∈ records.filterMap Record.woken :=
    List.mem_filterMap.mpr ⟨_, last, rfl⟩
  rw [plain] at woken
  cases woken

theorem nodup_of_plain {log records : List Record} (once : (log.filterMap Record.woken).Nodup)
    (plain : records.filterMap Record.woken = []) :
    ((log ++ records).filterMap Record.woken).Nodup := by
  rwa [List.filterMap_append, plain, List.append_nil]

/-- The calls stay where they are, receivers at most lose their senders, and no waiter
is woken. -/
theorem quiet (flow : Flow link) (sends : next.sends = link.sends)
    (ebbs : Registry.Ebbs link.pendingAcks.cells next.pendingAcks.cells)
    {records : List Record} (log : next.log = link.log ++ records)
    (plain : records.filterMap Record.woken = []) : Flow next := by
  have grows : link.log <+ next.log := log ▸ List.sublist_append_left _ _
  have goes : ∀ waiter, Goes (link.pendingAcks.cells waiter) (next.pendingAcks.cells waiter) :=
    fun waiter => .of_ebbs (ebbs waiter)
  constructor
  · intro waiter cell found
    obtain ⟨before, found⟩ := (goes waiter).exists_before found
    rw [sends]
    exact flow.owned waiter before found
  · intro waiter cell found
    obtain ⟨before, found⟩ := (goes waiter).exists_before found
    exact (flow.parked waiter before found).trans grows
  · intro waiter answer found
    obtain ⟨ack, same, answers, records⟩ :=
      flow.answered waiter answer ((ebbs.eq_sent_iff waiter answer).mp found)
    exact ⟨ack, same, answers, records.trans grows⟩
  · intro ack waiter listed
    rw [log] at listed
    exact (ebbs.eq_sent_iff _ _).mpr (flow.woken ack waiter (mem_of_plain plain listed))
  · rw [log]
    exact nodup_of_plain flow.once plain
  · intro call send found
    have stands := flow.stands call send (sends ▸ found)
    exact stands.mono (fun waiter _ => goes waiter) grows

/-- One call is set to a stage it stands at; its receivers remain its own. -/
theorem setSend (flow : Flow link) {call : SendId} {send : Send}
    (stands : Stands link.pendingAcks.cells link.log call send)
    (owns : ∀ waiter cell, waiter.owner = call → link.pendingAcks.cells waiter = some cell →
      send.Owns waiter) : Flow (link.setSend call send) where
  owned waiter cell found := by
    by_cases same : waiter.owner = call
    · exact ⟨send, same ▸ Link.sends_setSend_self _ _ _, owns waiter cell same found⟩
    · obtain ⟨other, found, owned⟩ := flow.owned waiter cell found
      exact ⟨other, (Link.sends_setSend_of_ne _ _ same).trans found, owned⟩
  parked := flow.parked
  answered := flow.answered
  woken := flow.woken
  once := flow.once
  stands := flow.stands.update rfl stands

/-- One call moves to its next stage. -/
theorem restage (flow : Flow link) {call : SendId} {send : Send} {stage : Stage}
    (found : link.sends call = some send)
    (stands : Stands link.pendingAcks.cells link.log call { send with stage }) :
    Flow (link.setSend call { send with stage }) := by
  refine flow.setSend stands fun waiter cell owner present => ?_
  obtain ⟨other, at_, owns⟩ := flow.owned waiter cell present
  rw [owner, found] at at_
  cases at_
  exact owns

/-- A call that is about to park a waiter has not parked it yet, and for PUBCOMP its
waiter for PUBREC was woken. -/
theorem of_parking (flow : Flow link) {call : SendId} {send : Send} {waiter : Waiter}
    {cmd : Option WriteCmd} (found : link.sends call = some send)
    (stage : send.stage = .parking waiter cmd) :
    waiter.owner = call ∧ link.pendingAcks.cells waiter = none ∧ send.Owns waiter ∧
      waiter.preamble <+ link.log ++ [.parked waiter] := by
  have stands := flow.stands call send found
  obtain ⟨request, packetId, _⟩ := send
  cases stage
  cases stands with
  | @parkingFirst _ id slot awaits fresh =>
      refine ⟨rfl, fresh _ rfl, ⟨rfl, .inl awaits⟩, ?_⟩
      have notPubcomp : slot ≠ .publishAck .pubcomp :=
        fun same => awaits_ne_pubcomp request (same ▸ awaits)
      rw [Waiter.preamble, if_neg notPubcomp]
      exact List.sublist_append_right _ _
  | @parkingSecond _ id answer awaits only answered accepted =>
      refine ⟨rfl, ?_, ⟨rfl, .inr ⟨awaits, rfl⟩⟩, ?_⟩
      · by_contra present
        have same : Waiter.mk id (.publishAck .pubcomp) call = _ := only _ rfl present
        cases same
      · obtain ⟨ack, same, _, records⟩ := flow.answered _ _ answered
        obtain rfl := Ack.eq_of_waiter same
        rw [Waiter.preamble, if_pos rfl]
        exact records.append (List.Sublist.refl _)

/-- The stage after a waiter has been parked. -/
theorem stands_afterPark (flow : Flow link) {call : SendId} {send : Send} {waiter : Waiter}
    {cmd : Option WriteCmd} (found : link.sends call = some send)
    (stage : send.stage = .parking waiter cmd) :
    Stands (link.pendingAcks.park waiter).cells (link.log ++ [.parked waiter]) call
      { send with stage := waiter.afterPark cmd } := by
  obtain ⟨owner, unparked, _, _⟩ := flow.of_parking found stage
  have stands := flow.stands call send found
  obtain ⟨request, packetId, _⟩ := send
  cases stage
  cases stands with
  | @parkingFirst _ id slot awaits fresh =>
      refine .enqueueing awaits fun other owner present => ?_
      by_contra differs
      have goes := Goes.of_ebbs (link.pendingAcks.cells_park_of_ne unparked differs)
      exact present (goes.1.mpr (fresh other owner))
  | parkingSecond awaits only answered accepted =>
      exact .awaitingSecond awaits (List.mem_append_left _ accepted)

theorem park (flow : Flow link) {call : SendId} {send : Send} {waiter : Waiter}
    {cmd : Option WriteCmd} (found : link.sends call = some send)
    (stage : send.stage = .parking waiter cmd) :
    Flow (({ link with
        pendingAcks := link.pendingAcks.park waiter
        log := link.log ++ [.parked waiter] } : Link).setSend call
      { send with stage := waiter.afterPark cmd }) := by
  obtain ⟨rfl, unparked, owns, preamble⟩ := flow.of_parking found stage
  have others : ∀ {other}, other ≠ waiter →
      Goes (link.pendingAcks.cells other) ((link.pendingAcks.park waiter).cells other) :=
    fun differs => .of_ebbs (link.pendingAcks.cells_park_of_ne unparked differs)
  have grows : link.log <+ link.log ++ [.parked waiter] := List.sublist_append_left _ _
  have parkedNow : (link.pendingAcks.park waiter).cells waiter = some .waiting := by
    rw [link.pendingAcks.cells_park unparked, if_pos rfl]
  constructor
  · intro other cell present
    by_cases same : other = waiter
    · subst same
      exact ⟨_, Link.sends_setSend_self _ _ _, owns⟩
    · obtain ⟨cell, present⟩ := (others same).exists_before present
      obtain ⟨owner, at_, owned⟩ := flow.owned other cell present
      by_cases mine : other.owner = waiter.owner
      · rw [mine, found] at at_
        cases at_
        exact ⟨{ send with stage := waiter.afterPark cmd },
          mine ▸ Link.sends_setSend_self _ _ _, owned⟩
      · exact ⟨owner, (Link.sends_setSend_of_ne _ _ mine).trans at_, owned⟩
  · intro other cell present
    by_cases same : other = waiter
    · exact same ▸ preamble
    · obtain ⟨cell, present⟩ := (others same).exists_before present
      exact (flow.parked other cell present).trans grows
  · intro other answer present
    have differs : other ≠ waiter := by
      rintro rfl
      cases parkedNow.symm.trans present
    have sent : link.pendingAcks.cells other = some (.sent answer) := by
      rcases link.pendingAcks.cells_park_of_ne unparked differs with same | ⟨_, closed⟩
      · exact same ▸ present
      · cases closed.symm.trans present
    obtain ⟨ack, same, answers, records⟩ := flow.answered other answer sent
    exact ⟨ack, same, answers, records.trans grows⟩
  · intro ack other listed
    have sent := flow.woken ack other (mem_of_plain rfl listed)
    have differs : other ≠ waiter := by
      rintro rfl
      cases unparked.symm.trans sent
    exact (others differs).2 _ sent
  · exact nodup_of_plain flow.once rfl
  · intro call at_ present
    by_cases same : call = waiter.owner
    · subst same
      cases (Link.sends_setSend_self _ _ _).symm.trans present
      exact flow.stands_afterPark found stage
    · have stands := flow.stands call at_ ((Link.sends_setSend_of_ne _ _ same).symm.trans present)
      refine stands.mono (fun other owner => others ?_) grows
      rintro rfl
      exact same owner.symm

/-- Who is waiting has not been woken. -/
theorem not_woken (flow : Flow link) {waiter : Waiter}
    (waiting : link.pendingAcks.cells waiter = some .waiting) :
    waiter ∉ link.log.filterMap Record.woken := by
  intro listed
  obtain ⟨record, listed, woken⟩ := List.mem_filterMap.mp listed
  cases record with
  | consumed other target =>
      cases woken
      cases waiting.symm.trans (flow.woken other waiter listed)
  | _ => cases woken

/-- The waiter in the reader's hand is woken by an acknowledgement that is for it. -/
theorem answer (flow : Flow link) {ack : Ack} {waiter : Waiter} {reader : Reader}
    (taken : link.pendingAcks.hand = some waiter) (isFor : ack.waiter waiter.owner = waiter) :
    Flow { link with
      reader := reader
      pendingAcks := link.pendingAcks.answer ack.answer
      log := link.log ++ [.consumed ack (some waiter)] } := by
  have waiting : link.pendingAcks.cells waiter = some .waiting :=
    (link.pendingAcks.held waiter).mpr (.inr taken)
  have cells := link.pendingAcks.cells_answer taken ack.answer
  have goes : ∀ other, Goes (link.pendingAcks.cells other)
      ((link.pendingAcks.answer ack.answer).cells other) := by
    intro other
    rw [cells]
    by_cases same : other = waiter
    · simp [same, waiting, Goes]
    · rw [if_neg same]
      exact .of_ebbs (.inl rfl)
  have grows : link.log <+ link.log ++ [.consumed ack (some waiter)] :=
    List.sublist_append_left _ _
  constructor
  · intro other cell present
    obtain ⟨cell, present⟩ := (goes other).exists_before present
    exact flow.owned other cell present
  · intro other cell present
    obtain ⟨cell, present⟩ := (goes other).exists_before present
    exact (flow.parked other cell present).trans grows
  · intro other answer sent
    replace sent := (cells other).symm.trans sent
    by_cases same : other = waiter
    · subst same
      rw [if_pos rfl] at sent
      cases sent
      exact ⟨ack, isFor, rfl, (flow.parked other _ waiting).append (List.Sublist.refl _)⟩
    · rw [if_neg same] at sent
      obtain ⟨first, isFor, answers, records⟩ := flow.answered other answer sent
      exact ⟨first, isFor, answers, records.trans grows⟩
  · intro other woken listed
    rcases List.mem_append.mp listed with earlier | last
    · exact (goes woken).2 _ (flow.woken other woken earlier)
    · cases List.mem_singleton.mp last
      exact (cells waiter).trans (if_pos rfl)
  · have last : [Record.consumed ack (some waiter)].filterMap Record.woken = [waiter] := rfl
    rw [List.filterMap_append, last, ← List.concat_eq_append]
    exact flow.once.concat (flow.not_woken waiting)
  · intro call send found
    exact (flow.stands call send found).mono (fun other _ => goes other) grows

/-! ## The moves -/

/-- What a call does with an answer follows from what was recorded for its waiter. -/
theorem stands_resume (flow : Flow link) {call : SendId} {send : Send} {waiter : Waiter}
    {answer : Wake} (found : link.sends call = some send) (stage : send.stage = .awaiting waiter)
    (sent : link.pendingAcks.cells waiter = some (.sent answer)) :
    Stands link.pendingAcks.cells link.log call { send with stage := waiter.resume answer } := by
  have stands := flow.stands call send found
  obtain ⟨request, packetId, _⟩ := send
  cases stage
  obtain ⟨ack, isFor, rfl, records⟩ := flow.answered waiter answer sent
  cases stands with
  | @awaitingFirst _ id slot awaits only accepted =>
      cases slot with
      | publishAck kind =>
          obtain rfl := Ack.eq_of_waiter isFor
          cases kind with
          | puback => exact .succeeded awaits accepted ⟨rfl, records⟩
          | pubrec => exact .parkingSecond awaits only sent accepted
          | pubcomp => exact absurd awaits (awaits_ne_pubcomp request)
      | suback =>
          cases ack with
          | suback place returnCodes =>
              cases isFor
              exact .succeeded awaits accepted ⟨returnCodes, rfl, records⟩
          | _ => cases isFor
      | unsuback =>
          cases ack with
          | unsuback place =>
              cases isFor
              exact .succeeded awaits accepted ⟨rfl, records⟩
          | _ => cases isFor
  | @awaitingSecond _ id awaits accepted =>
      obtain rfl := Ack.eq_of_waiter isFor
      exact .succeeded awaits accepted ⟨rfl, records⟩

theorem send_step (flow : Flow link) {call : SendId} {move : Link.SendMove}
    (moves : SendMoves link call move next) : Flow next := by
  cases moves with
  | called unused =>
      refine flow.setSend .allocating fun waiter cell owner present => ?_
      obtain ⟨other, at_, _⟩ := flow.owned waiter cell present
      rw [owner, unused] at at_
      cases at_
  | @unnumbered send found stage awaits =>
      have stands := flow.stands call send found
      obtain ⟨request, packetId, _⟩ := send
      cases stage
      cases stands
      exact flow.restage found (.unnumbered awaits)
  | @numbered send slot found stage awaits =>
      have stands := flow.stands call send found
      obtain ⟨request, packetId, _⟩ := send
      cases stage
      cases stands
      have fresh : ∀ waiter, waiter.owner = call → link.pendingAcks.cells waiter = none := by
        intro waiter owner
        by_contra present
        obtain ⟨cell, present⟩ := Option.ne_none_iff_exists'.mp present
        obtain ⟨other, at_, owns⟩ := flow.owned waiter cell present
        rw [owner, found] at at_
        cases at_
        cases owns.1
      have counted : Flow link.allocatePacketId :=
        flow.quiet rfl (.refl _) (List.append_nil _).symm rfl
      refine counted.setSend (.parkingFirst awaits fresh) fun waiter cell owner present => ?_
      cases (fresh waiter owner).symm.trans present
  | parked found stage => exact flow.park found stage
  | @accepted send waiter cmd found stage alive =>
      have taken : Flow (link.accept (some call) cmd) := flow.quiet rfl (.refl _) rfl rfl
      have stands := taken.stands call send found
      obtain ⟨request, packetId, _⟩ := send
      cases stage
      refine taken.restage found ?_
      cases stands with
      | unnumbered awaits => exact .sent awaits
      | enqueueing awaits only =>
          exact .awaitingFirst awaits only (List.mem_append_right _ (List.mem_singleton_self _))
  | rejected found stage gone => exact flow.restage found .failed
  | resumed found stage sent => exact flow.restage found (flow.stands_resume found stage sent)
  | closed found stage closed => exact flow.restage found .failed
  | @elapsed send waiter found stage waiting =>
      have stands := flow.stands call send found
      obtain ⟨request, packetId, _⟩ := send
      cases stage
      refine flow.restage found ?_
      cases stands <;> exact .cancelling
  | @cancelled send waiter found stage =>
      have dropped : Flow { link with pendingAcks := link.pendingAcks.discard waiter.id } :=
        flow.quiet rfl (link.pendingAcks.ebbs_discard _) (List.append_nil _).symm rfl
      exact dropped.restage found .failed

theorem close_step (flow : Flow link) {call : CloseId} {move : Link.CloseMove}
    (moves : CloseMoves link call move next) : Flow next := by
  cases moves with
  | called _ | finished _ _ => exact flow.quiet rfl (.refl _) rfl rfl
  | swapped _ _ | alreadyClosed _ _ | notified _ =>
      exact flow.quiet rfl (.refl _) (List.append_nil _).symm rfl
  | visited stage => exact flow.quiet rfl (link.pendingAcks.ebbs_discard _) rfl rfl

theorem actor_step (flow : Flow link) {move : Link.ActorMove}
    (moves : ActorMoves link move next) : Flow next := by
  cases moves <;> exact flow.quiet rfl (.refl _) (List.append_nil _).symm rfl

/-- The reader's moves, as far as the waiter in its hand is the one its
acknowledgement is for. -/
theorem reader_step (flow : Flow link) {move : Link.ReaderMove}
    (isFor : ∀ ack waiter, link.reader = .answering ack → link.pendingAcks.hand = some waiter →
      ack.waiter waiter.owner = waiter) (moves : ReaderMoves link move next) : Flow next := by
  cases moves with
  | answered stage taken owns => exact flow.answer taken (isFor _ _ stage taken)
  | putBack stage taken owns => exact flow.quiet rfl link.pendingAcks.ebbs_putBack rfl rfl
  | took stage found =>
      refine flow.quiet rfl ?_ (List.append_nil _).symm rfl
      rw [Registry.cells_take]
      exact .refl _
  | missed _ _ | vanished _ _ | released _ _ _ | replied _ _ =>
      exact flow.quiet rfl (.refl _) rfl rfl
  | _ => exact flow.quiet rfl (.refl _) (List.append_nil _).symm rfl

end Flow

end HotaruMqtt.Channel
