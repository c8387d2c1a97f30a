import HotaruMqtt.Exec.Handover
import HotaruMqtt.Inbound

/-!
# A publish flow between two ends

Two ends talk over packets that arrive in the order in which they were sent.  What
one of them publishes to the other is a hand-over of messages: PUBLISH offers, PUBREL
releases, PUBACK, PUBREC and PUBCOMP answer.  Each end plays both parts at once, so
one packet that an end handles is a step of the hand-over in one direction and no
step in the other.
-/

namespace HotaruMqtt.Network

open Exec Inbound

/-- A message that is kept until its PUBREL. -/
def heldBack (message : Message) : Bool :=
  message.qos = .exactlyOnce

/-- What a PUBLISH offers.  At QoS 0 the identifier has no part in the flow. -/
def flowId (publish : PublishPacket) : Option PacketId :=
  if publish.qos = .atMostOnce then none else publish.packetId

/-- The message a packet offers. -/
def offeredBy : Packet → Option Message
  | .publish publish => some (.ofPublish publish)
  | _ => none

/-- The message with its identifier. -/
def numberedBy : Packet → Option (Option PacketId × Message)
  | .publish publish => some (flowId publish, .ofPublish publish)
  | _ => none

theorem map_numberedBy (packets : List Packet) :
    (packets.filterMap numberedBy).map Prod.snd = packets.filterMap offeredBy := by
  rw [List.map_filterMap]
  refine List.filterMap_congr fun packet _ => ?_
  cases packet <;> rfl

/-- A packet as an item from the end that publishes. -/
def forthOf : Packet → Option (Forth PacketId Message)
  | .publish publish => some (.message (flowId publish) (.ofPublish publish))
  | .pubrel id => some (.release id)
  | _ => none

/-- A packet as an item from the end that is published to. -/
def backOf : Packet → Option (Back PacketId)
  | .puback id => some (.accepted id)
  | .pubrec id => some (.received id)
  | .pubcomp id => some (.completed id)
  | _ => none

/-- The packets of the flows that dispatch answers a packet with. -/
def flowReplies : Packet → List Packet
  | .publish publish =>
      match publish.qos, publish.packetId with
      | .atLeastOnce, some id => [.puback id]
      | .exactlyOnce, some id => [.pubrec id]
      | _, _ => []
  | .pubrec id => [.pubrel id]
  | .pubrel id => [.pubcomp id]
  | _ => []

/-- A packet that belongs to no publish flow. -/
def Neutral (packet : Packet) : Prop :=
  forthOf packet = none ∧ backOf packet = none

/-! ## One end -/

/-- An end of a connection as far as the flows go: what it has sent, the messages it keeps
for their PUBREL, what it has handed to its handlers, and for which identifiers it keeps a
record to retransmit. -/
structure Party where
  sent : List Packet
  stash : PacketId → Option Message
  handed : List Message
  tracked : PacketId → Bool

namespace Party

/-- An end that has done nothing. -/
def silent : Party :=
  ⟨[], fun _ => none, [], fun _ => false⟩

/-- An end sends packets. -/
def adds (party : Party) (packets : List Packet) : Party :=
  { party with sent := party.sent ++ packets }

/-- What an end keeps and hands on when it handles a packet. -/
def keeps (party : Party) : Packet → Party
  | .publish publish =>
      if publish.qos = .exactlyOnce then
        match publish.packetId with
        | some id =>
            { party with stash := Function.update party.stash id (some (.ofPublish publish)) }
        | none => party
      else
        { party with handed := party.handed ++ [.ofPublish publish] }
  | .pubrel id =>
      { party with
        stash := Function.update party.stash id none
        handed := party.handed ++ (party.stash id).toList }
  | .puback id => { party with tracked := Function.update party.tracked id false }
  | .pubcomp id => { party with tracked := Function.update party.tracked id false }
  | _ => party

/-- The end publishes, and may record what it publishes. -/
def publishes (party : Party) (publish : PublishPacket) (tracked : PacketId → Bool) : Party :=
  { party with sent := party.sent ++ [.publish publish], tracked }

/-- The end has handled a packet: it answers as the flows demand, and whatever else it
sends belongs to none. -/
def Hears (party : Party) (packet : Packet) (after : Party) : Prop :=
  ∃ neutral, (∀ other ∈ neutral, Neutral other) ∧
    after = (party.keeps packet).adds (flowReplies packet ++ neutral)

end Party

/-! ## One direction -/

/-- The hand-over from one end to the other, of whose packets the other has read the
first `read`, and it the first `noted` of the other's. -/
def carriage (sender : Party) (read : Nat) (receiver : Party) (noted : Nat) :
    Handover PacketId Message where
  offered := sender.sent.filterMap numberedBy
  forth := (sender.sent.drop read).filterMap forthOf
  stash := receiver.stash
  handed := receiver.handed
  back := (receiver.sent.drop noted).filterMap backOf

/-- A PUBLISH may be sent: at QoS 2 it has an identifier, and an identifier above QoS 0
is not in use. -/
def MayPublish (link : Handover PacketId Message) (publish : PublishPacket) : Prop :=
  link.Fresh heldBack (.offer (flowId publish) (.ofPublish publish))

section Carriage

variable {sender receiver after : Party} {read noted : Nat} {packet : Packet}

theorem numberedBy_eq_none {packet : Packet} (notForth : forthOf packet = none) :
    numberedBy packet = none := by
  cases packet <;> first | rfl | simp [forthOf] at notForth

/-- The sender sends something else. -/
theorem carriage_sender_adds {packets : List Packet} (bound : read ≤ sender.sent.length)
    (others : ∀ other ∈ packets, forthOf other = none) :
    carriage (sender.adds packets) read receiver noted = carriage sender read receiver noted := by
  have noForth : packets.filterMap forthOf = [] := List.filterMap_eq_nil_iff.mpr others
  have noOffer : packets.filterMap numberedBy = [] :=
    List.filterMap_eq_nil_iff.mpr fun other mem => numberedBy_eq_none (others other mem)
  simp [carriage, Party.adds, List.drop_append_of_le_length bound, noForth, noOffer]

/-- The receiver sends something else. -/
theorem carriage_receiver_adds {packets : List Packet} (bound : noted ≤ receiver.sent.length)
    (others : ∀ other ∈ packets, backOf other = none) :
    carriage sender read (receiver.adds packets) noted = carriage sender read receiver noted := by
  have noBack : packets.filterMap backOf = [] := List.filterMap_eq_nil_iff.mpr others
  simp [carriage, Party.adds, List.drop_append_of_le_length bound, noBack]

/-- The sender publishes. -/
theorem carriage_sender_publishes {publish : PublishPacket} {tracked : PacketId → Bool}
    (bound : read ≤ sender.sent.length) :
    carriage (sender.publishes publish tracked) read receiver noted =
      (carriage sender read receiver noted).offer (flowId publish) (.ofPublish publish) := by
  simp [carriage, Party.publishes, Handover.offer, List.drop_append_of_le_length bound, forthOf,
    numberedBy]

/-- The receiver publishes, which is nothing to this direction. -/
theorem carriage_receiver_publishes {publish : PublishPacket} {tracked : PacketId → Bool}
    (bound : noted ≤ receiver.sent.length) :
    carriage sender read (receiver.publishes publish tracked) noted =
      carriage sender read receiver noted := by
  simp [carriage, Party.publishes, List.drop_append_of_le_length bound, backOf]

@[simp]
theorem sent_keeps (party : Party) (packet : Packet) : (party.keeps packet).sent = party.sent := by
  cases packet with
  | publish publish =>
      simp only [Party.keeps]
      split
      · split <;> rfl
      · rfl
  | _ => rfl

theorem drop_of_next {packets : List Packet} (next : packets[read]? = some packet) :
    packets.drop read = packet :: packets.drop (read + 1) := by
  obtain ⟨bound, rfl⟩ := List.getElem?_eq_some_iff.mp next
  exact List.drop_eq_getElem_cons bound

/-- No answer offers a message. -/
theorem numberedBy_flowReplies (packet : Packet) :
    ∀ other ∈ flowReplies packet, numberedBy other = none := by
  cases packet with
  | publish publish =>
      simp only [flowReplies]
      split <;> simp [numberedBy]
  | _ => simp [flowReplies, numberedBy]

/-- Only a PUBREC is answered with a packet of the publishing end. -/
theorem forthOf_flowReplies (packet : Packet) :
    (flowReplies packet).filterMap forthOf =
      ((backOf packet).bind Back.reported).toList.map .release := by
  cases packet with
  | publish publish =>
      simp only [flowReplies]
      split <;> rfl
  | _ => rfl

/-- The receiver reads the next packet of the sender: a delivery, or nothing to this
direction. -/
theorem carriage_receiver_hears (next : sender.sent[read]? = some packet)
    (bound : noted ≤ receiver.sent.length) (hears : receiver.Hears packet after) :
    carriage sender (read + 1) after noted = carriage sender read receiver noted ∨
      (carriage sender read receiver noted).step heldBack .deliver =
        some (carriage sender (read + 1) after noted) := by
  obtain ⟨neutral, isNeutral, rfl⟩ := hears
  have first := drop_of_next next
  have silent : neutral.filterMap backOf = [] :=
    List.filterMap_eq_nil_iff.mpr fun other mem => (isNeutral other mem).2
  cases packet with
  | publish publish =>
      refine .inr ?_
      cases level : publish.qos <;> cases numbered : publish.packetId <;>
        simp [carriage, Handover.step, Handover.receive, first, forthOf, flowId, Party.keeps,
          Party.adds, flowReplies, List.drop_append_of_le_length bound, backOf, silent, heldBack,
          Message.ofPublish, level, numbered]
  | pubrel id =>
      refine .inr ?_
      simp [carriage, Handover.step, Handover.receive, first, forthOf, Party.keeps, Party.adds,
        flowReplies, List.drop_append_of_le_length bound, backOf, silent]
  | pubrec id =>
      refine .inl ?_
      simp [carriage, first, List.filterMap_cons, forthOf, Party.keeps, Party.adds, flowReplies,
        List.drop_append_of_le_length bound, backOf, silent]
  | _ =>
      refine .inl ?_
      simp [carriage, first, List.filterMap_cons, forthOf, Party.keeps, Party.adds, flowReplies,
        List.drop_append_of_le_length bound, silent]

/-- The sender reads the next packet of the receiver: an answer, or nothing to this
direction. -/
theorem carriage_sender_hears (next : receiver.sent[noted]? = some packet)
    (bound : read ≤ sender.sent.length) (hears : sender.Hears packet after) :
    backOf packet = none ∧
        carriage after read receiver (noted + 1) = carriage sender read receiver noted ∨
      ∃ item, backOf packet = some item ∧
        carriage sender read receiver noted =
          { carriage sender read receiver (noted + 1) with
            back := item :: (carriage sender read receiver (noted + 1)).back } ∧
        carriage after read receiver (noted + 1) =
          (carriage sender read receiver (noted + 1)).learn item := by
  obtain ⟨neutral, isNeutral, rfl⟩ := hears
  have first := drop_of_next next
  have silent : neutral.filterMap forthOf = [] :=
    List.filterMap_eq_nil_iff.mpr fun other mem => (isNeutral other mem).1
  have noOffer : (flowReplies packet ++ neutral).filterMap numberedBy = [] := by
    refine List.filterMap_eq_nil_iff.mpr fun other mem => ?_
    rcases List.mem_append.mp mem with reply | extra
    · exact numberedBy_flowReplies packet other reply
    · exact numberedBy_eq_none (isNeutral other extra).1
  -- the answers join the pipe, whatever the sender itself kept of the packet
  have answered : carriage ((sender.keeps packet).adds (flowReplies packet ++ neutral)) read
      receiver (noted + 1) =
      { carriage sender read receiver (noted + 1) with
        forth := (sender.sent.drop read).filterMap forthOf ++
          ((backOf packet).bind Back.reported).toList.map .release } := by
    simp only [carriage, Party.adds, sent_keeps, List.drop_append_of_le_length bound,
      List.filterMap_append, ← forthOf_flowReplies, silent, List.append_nil]
    rw [← List.filterMap_append, noOffer, List.append_nil]
  rw [answered]
  cases kind : backOf packet with
  | none =>
      refine .inl ⟨rfl, ?_⟩
      simp [carriage, first, kind]
  | some item =>
      refine .inr ⟨item, rfl, ?_, ?_⟩
      · simp [carriage, first, kind]
      · cases item <;> simp [carriage, Handover.learn, Back.reported]

/-- A direction stays sound when its sender reads. -/
theorem sound_of_sender_hears (next : receiver.sent[noted]? = some packet)
    (bound : read ≤ sender.sent.length) (hears : sender.Hears packet after)
    (sound : (carriage sender read receiver noted).Sound heldBack) :
    (carriage after read receiver (noted + 1)).Sound heldBack := by
  rcases carriage_sender_hears next bound hears with ⟨_, same⟩ | ⟨item, _, before, learned⟩
  · rwa [same]
  · rw [learned]
    rw [before] at sound
    exact sound.learn

/-- A direction stays sound when its receiver reads. -/
theorem sound_of_receiver_hears (next : sender.sent[read]? = some packet)
    (bound : noted ≤ receiver.sent.length) (hears : receiver.Hears packet after)
    (sound : (carriage sender read receiver noted).Sound heldBack) :
    (carriage sender (read + 1) after noted).Sound heldBack := by
  rcases carriage_receiver_hears next bound hears with same | moved
  · rwa [same]
  · have fresh : (carriage sender read receiver noted).Fresh heldBack .deliver := trivial
    exact Handover.preserves_sound sound fresh moved

/-- Reading what the receiver answers brings no identifier into use. -/
theorem mem_inUse_of_sender_hears (next : receiver.sent[noted]? = some packet)
    (bound : read ≤ sender.sent.length) (hears : sender.Hears packet after) {id : PacketId}
    (mem : id ∈ (carriage after read receiver (noted + 1)).inUse) :
    id ∈ (carriage sender read receiver noted).inUse := by
  rcases carriage_sender_hears next bound hears with ⟨_, same⟩ | ⟨item, _, before, learned⟩
  · rwa [same] at mem
  · rw [learned] at mem
    rw [before]
    simpa [Handover.inUse, or_comm, or_assoc, or_left_comm] using Handover.mem_inUse_learn mem

/-- Neither does reading what the sender sent. -/
theorem mem_inUse_of_receiver_hears (next : sender.sent[read]? = some packet)
    (bound : noted ≤ receiver.sent.length) (hears : receiver.Hears packet after) {id : PacketId}
    (mem : id ∈ (carriage sender (read + 1) after noted).inUse) :
    id ∈ (carriage sender read receiver noted).inUse := by
  rcases carriage_receiver_hears next bound hears with same | moved
  · rwa [same] at mem
  · exact (Handover.mem_inUse_deliver moved).mp mem

/-! ## Records -/

/-- Every record is that of an identifier in use. -/
def Tracks (party : Party) (link : Handover PacketId Message) : Prop :=
  ∀ id, party.tracked id = true → id ∈ link.inUse

/-- Handling a packet adds no record, and drops that of an acknowledgement. -/
theorem tracked_of_hears (hears : sender.Hears packet after) {id : PacketId}
    (tracked : after.tracked id = true) :
    sender.tracked id = true ∧ packet ≠ .puback id ∧ packet ≠ .pubcomp id := by
  obtain ⟨neutral, _, rfl⟩ := hears
  cases packet with
  | publish publish =>
      simp only [Party.keeps] at tracked
      split at tracked
      · split at tracked <;> exact ⟨tracked, by simp, by simp⟩
      · exact ⟨tracked, by simp, by simp⟩
  | puback other | pubcomp other =>
      by_cases same : id = other
      · simp [Party.keeps, Party.adds, same] at tracked
      · simp only [Party.keeps, Party.adds, Function.update_of_ne same] at tracked
        exact ⟨tracked, by simp [Ne.symm same], by simp [Ne.symm same]⟩
  | _ => exact ⟨tracked, by simp, by simp⟩

theorem tracks_of_sender_hears (next : receiver.sent[noted]? = some packet)
    (bound : read ≤ sender.sent.length) (hears : sender.Hears packet after)
    (tracks : Tracks sender (carriage sender read receiver noted)) :
    Tracks after (carriage after read receiver (noted + 1)) := by
  intro id tracked
  obtain ⟨before, notPuback, notPubcomp⟩ := tracked_of_hears hears tracked
  have used := tracks id before
  rcases carriage_sender_hears next bound hears with ⟨_, same⟩ | ⟨item, kind, whole, learned⟩
  · rwa [same]
  · rw [learned]
    rw [whole] at used
    have mem : id = item.id ∨ id ∈ (carriage sender read receiver (noted + 1)).inUse := by
      simpa [Handover.inUse, or_comm, or_assoc, or_left_comm] using used
    rcases Handover.mem_inUse_of_learn mem with kept | ⟨final, same⟩
    · exact kept
    · -- the identifier is freed by the packet that drops the record
      cases packet with
      | puback other =>
          cases kind
          exact absurd (congrArg _ same.symm) notPuback
      | pubcomp other =>
          cases kind
          exact absurd (congrArg _ same.symm) notPubcomp
      | pubrec other =>
          cases kind
          contradiction
      | _ => contradiction

theorem tracks_of_receiver_hears (next : sender.sent[read]? = some packet)
    (bound : noted ≤ receiver.sent.length) (hears : receiver.Hears packet after)
    (tracks : Tracks sender (carriage sender read receiver noted)) :
    Tracks sender (carriage sender (read + 1) after noted) := by
  intro id tracked
  rcases carriage_receiver_hears next bound hears with same | moved
  · rw [same]
    exact tracks id tracked
  · exact (Handover.mem_inUse_deliver moved).mpr (tracks id tracked)

end Carriage

/-! ## Both directions -/

/-- A client and its server, and how many packets of the other each of them has read. -/
structure Talk where
  client : Party
  server : Party
  clientRead : Nat
  serverRead : Nat

namespace Talk

/-- From the client to the server. -/
def uplink (talk : Talk) : Handover PacketId Message :=
  carriage talk.client talk.serverRead talk.server talk.clientRead

/-- From the server to the client. -/
def downlink (talk : Talk) : Handover PacketId Message :=
  carriage talk.server talk.clientRead talk.client talk.serverRead

/-- What can happen between a client and its server, and which PUBLISH the one or the
other sends at that. -/
inductive Moves (talk : Talk) : Option PublishPacket → Option PublishPacket → Talk → Prop
  | same : Moves talk none none talk
  | clientHears {packet : Packet} {after : Party}
      (next : talk.server.sent[talk.clientRead]? = some packet)
      (hears : talk.client.Hears packet after) :
      Moves talk none none { talk with client := after, clientRead := talk.clientRead + 1 }
  | serverHears {packet : Packet} {after : Party}
      (next : talk.client.sent[talk.serverRead]? = some packet)
      (hears : talk.server.Hears packet after) :
      Moves talk none none { talk with server := after, serverRead := talk.serverRead + 1 }
  | clientAdds {packets : List Packet} (neutral : ∀ packet ∈ packets, Neutral packet) :
      Moves talk none none { talk with client := talk.client.adds packets }
  | serverAdds {packets : List Packet} (neutral : ∀ packet ∈ packets, Neutral packet) :
      Moves talk none none { talk with server := talk.server.adds packets }
  | clientPublishes {publish : PublishPacket} {tracked : PacketId → Bool}
      (fresh : MayPublish talk.uplink publish)
      (tracks : ∀ id, tracked id = true → talk.client.tracked id = true ∨
        flowId publish = some id) :
      Moves talk (some publish) none { talk with client := talk.client.publishes publish tracked }
  | serverPublishes {publish : PublishPacket} {tracked : PacketId → Bool}
      (fresh : MayPublish talk.downlink publish)
      (tracks : ∀ id, tracked id = true → talk.server.tracked id = true ∨
        flowId publish = some id) :
      Moves talk none (some publish) { talk with server := talk.server.publishes publish tracked }

/-- Both directions are sound, records are of identifiers in use, and nobody has read more
than was sent. -/
structure Sound (talk : Talk) : Prop where
  up : talk.uplink.Sound heldBack
  down : talk.downlink.Sound heldBack
  clientTracks : Tracks talk.client talk.uplink
  serverTracks : Tracks talk.server talk.downlink
  clientRead : talk.clientRead ≤ talk.server.sent.length
  serverRead : talk.serverRead ≤ talk.client.sent.length

theorem sound_of_silent {talk : Talk} (client : talk.client = .silent)
    (server : talk.server = .silent) (clientRead : talk.clientRead = 0)
    (serverRead : talk.serverRead = 0) : talk.Sound := by
  obtain ⟨_, _, _, _⟩ := talk
  subst client server clientRead serverRead
  exact ⟨Handover.sound_new, Handover.sound_new, by simp [Tracks, Party.silent],
    by simp [Tracks, Party.silent], le_rfl, le_rfl⟩

theorem length_le_adds (party : Party) (packets : List Packet) :
    party.sent.length ≤ (party.adds packets).sent.length := by
  simp [Party.adds]

theorem length_le_publishes (party : Party) (publish : PublishPacket)
    (tracked : PacketId → Bool) :
    party.sent.length ≤ (party.publishes publish tracked).sent.length := by
  simp [Party.publishes]

theorem length_le_of_hears {party after : Party} {packet : Packet}
    (hears : party.Hears packet after) : party.sent.length ≤ after.sent.length := by
  obtain ⟨neutral, _, rfl⟩ := hears
  simpa using length_le_adds (party.keeps packet) (flowReplies packet ++ neutral)

/-- Publishing in one direction. -/
theorem sound_of_publishes {sender receiver : Party} {read noted : Nat} {publish : PublishPacket}
    {tracked : PacketId → Bool} (bound : read ≤ sender.sent.length)
    (sound : (carriage sender read receiver noted).Sound heldBack)
    (before : Tracks sender (carriage sender read receiver noted))
    (fresh : MayPublish (carriage sender read receiver noted) publish)
    (tracks : ∀ id, tracked id = true → sender.tracked id = true ∨ flowId publish = some id) :
    (carriage (sender.publishes publish tracked) read receiver noted).Sound heldBack ∧
      Tracks (sender.publishes publish tracked)
        (carriage (sender.publishes publish tracked) read receiver noted) := by
  rw [carriage_sender_publishes bound]
  refine ⟨sound.offer fresh.1 fresh.2, ?_⟩
  intro id isTracked
  exact Handover.mem_inUse_offer.mpr ((tracks id isTracked).imp_left (before id))

variable {talk after : Talk} {up down : Option PublishPacket}

/-- Whatever happens between the two keeps both directions sound. -/
theorem Moves.sound (moves : Moves talk up down after) (sound : talk.Sound) : after.Sound := by
  obtain ⟨up, down, clientTracks, serverTracks, clientRead, serverRead⟩ := sound
  cases moves with
  | same => exact ⟨up, down, clientTracks, serverTracks, clientRead, serverRead⟩
  | clientHears next hears =>
      exact ⟨sound_of_sender_hears next serverRead hears up,
        sound_of_receiver_hears next serverRead hears down,
        tracks_of_sender_hears next serverRead hears clientTracks,
        tracks_of_receiver_hears next serverRead hears serverTracks,
        (List.getElem?_eq_some_iff.mp next).1, serverRead.trans (length_le_of_hears hears)⟩
  | serverHears next hears =>
      exact ⟨sound_of_receiver_hears next clientRead hears up,
        sound_of_sender_hears next clientRead hears down,
        tracks_of_receiver_hears next clientRead hears clientTracks,
        tracks_of_sender_hears next clientRead hears serverTracks,
        clientRead.trans (length_le_of_hears hears), (List.getElem?_eq_some_iff.mp next).1⟩
  | @clientAdds packets neutral =>
      have same : uplink { talk with client := talk.client.adds packets } = talk.uplink :=
        carriage_sender_adds serverRead fun other mem => (neutral other mem).1
      have other : downlink { talk with client := talk.client.adds packets } = talk.downlink :=
        carriage_receiver_adds serverRead fun other mem => (neutral other mem).2
      refine ⟨?_, ?_, ?_, ?_, clientRead, serverRead.trans (length_le_adds _ _)⟩ <;>
        simp only [same, other]
      exacts [up, down, clientTracks, serverTracks]
  | @serverAdds packets neutral =>
      have same : uplink { talk with server := talk.server.adds packets } = talk.uplink :=
        carriage_receiver_adds clientRead fun other mem => (neutral other mem).2
      have other : downlink { talk with server := talk.server.adds packets } = talk.downlink :=
        carriage_sender_adds clientRead fun other mem => (neutral other mem).1
      refine ⟨?_, ?_, ?_, ?_, clientRead.trans (length_le_adds _ _), serverRead⟩ <;>
        simp only [same, other]
      exacts [up, down, clientTracks, serverTracks]
  | @clientPublishes publish tracked fresh tracks =>
      have other : downlink { talk with client := talk.client.publishes publish tracked } =
          talk.downlink := carriage_receiver_publishes serverRead
      obtain ⟨sound, tracksAfter⟩ := sound_of_publishes serverRead up clientTracks fresh tracks
      exact ⟨sound, other ▸ down, tracksAfter, other ▸ serverTracks, clientRead,
        serverRead.trans (length_le_publishes _ _ _)⟩
  | @serverPublishes publish tracked fresh tracks =>
      have other : uplink { talk with server := talk.server.publishes publish tracked } =
          talk.uplink := carriage_receiver_publishes clientRead
      obtain ⟨sound, tracksAfter⟩ := sound_of_publishes clientRead down serverTracks fresh tracks
      exact ⟨other ▸ up, sound, other ▸ clientTracks, tracksAfter,
        clientRead.trans (length_le_publishes _ _ _), serverRead⟩

/-- Only a PUBLISH of the client brings an identifier into use on the way to the server. -/
theorem Moves.mem_uplink (moves : Moves talk up down after) (sound : talk.Sound) {id : PacketId}
    (mem : id ∈ after.uplink.inUse) :
    id ∈ talk.uplink.inUse ∨ ∃ publish ∈ up, flowId publish = some id := by
  obtain ⟨_, _, _, _, clientRead, serverRead⟩ := sound
  cases moves with
  | same => exact .inl mem
  | clientHears next hears => exact .inl (mem_inUse_of_sender_hears next serverRead hears mem)
  | serverHears next hears => exact .inl (mem_inUse_of_receiver_hears next clientRead hears mem)
  | @clientAdds packets neutral =>
      have same : uplink { talk with client := talk.client.adds packets } = talk.uplink :=
        carriage_sender_adds serverRead fun other mem => (neutral other mem).1
      exact .inl (same ▸ mem)
  | @serverAdds packets neutral =>
      have same : uplink { talk with server := talk.server.adds packets } = talk.uplink :=
        carriage_receiver_adds clientRead fun other mem => (neutral other mem).2
      exact .inl (same ▸ mem)
  | @clientPublishes publish tracked _ _ =>
      have offered : uplink { talk with client := talk.client.publishes publish tracked } =
          talk.uplink.offer (flowId publish) (.ofPublish publish) :=
        carriage_sender_publishes serverRead
      rw [offered] at mem
      exact (Handover.mem_inUse_offer.mp mem).imp_right fun named => ⟨publish, rfl, named⟩
  | @serverPublishes publish tracked _ _ =>
      have same : uplink { talk with server := talk.server.publishes publish tracked } =
          talk.uplink := carriage_receiver_publishes clientRead
      exact .inl (same ▸ mem)

/-- The same talk as the server sees it. -/
def swap (talk : Talk) : Talk where
  client := talk.server
  server := talk.client
  clientRead := talk.serverRead
  serverRead := talk.clientRead

theorem Moves.swap (moves : Moves talk up down after) : Moves talk.swap down up after.swap := by
  cases moves with
  | same => exact .same
  | clientHears next hears => exact @serverHears talk.swap _ _ next hears
  | serverHears next hears => exact @clientHears talk.swap _ _ next hears
  | clientAdds neutral => exact @serverAdds talk.swap _ neutral
  | serverAdds neutral => exact @clientAdds talk.swap _ neutral
  | clientPublishes fresh tracks => exact @serverPublishes talk.swap _ _ fresh tracks
  | serverPublishes fresh tracks => exact @clientPublishes talk.swap _ _ fresh tracks

theorem Sound.swap (sound : talk.Sound) : talk.swap.Sound :=
  ⟨sound.down, sound.up, sound.serverTracks, sound.clientTracks, sound.serverRead,
    sound.clientRead⟩

/-- Only a PUBLISH of the server brings one into use on the way to the client. -/
theorem Moves.mem_downlink (moves : Moves talk up down after) (sound : talk.Sound)
    {id : PacketId} (mem : id ∈ after.downlink.inUse) :
    id ∈ talk.downlink.inUse ∨ ∃ publish ∈ down, flowId publish = some id :=
  moves.swap.mem_uplink sound.swap mem

end Talk

end HotaruMqtt.Network
