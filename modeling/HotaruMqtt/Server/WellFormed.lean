import HotaruMqtt.Codec.Refusal
import HotaruMqtt.Inbound
import HotaruMqtt.Server.Demand

/-!
# Everything that is sent can be written

The server recomputes sizes, identifiers and QoS between reading a message and
sending its copies.  Here the demand is that of the wire: a message on its way fits
a PUBLISH of its own QoS, and so every copy fits too, since a copy has no higher
QoS and a fresh identifier.  Whatever packets come from the wire, everything that
is handed to a writer is encoded without an error and comes back from its bytes.
-/

namespace HotaruMqtt.Server

open Exec Exec.Outcome Exec.Transition Broker Codec Inbound

/-- The packet is encoded without an error and its bytes decode to it. -/
def RoundTrips (packet : Packet) : Prop :=
  ∃ bytes, encodePacket packet = ok bytes ∧
    decodePacketFromBytes mqttSpecMaxPacketSize bytes = (ok (some packet), [])

/-- Every packet that is read was decoded from the wire, and nobody but the host
sends on a channel. -/
def ReadsWire (host : Host) : Event → Prop
  | .act _ (.connect (.packet packet) _) => FromWire packet
  | .act _ (.read (.packet packet)) => FromWire packet
  | .environment connection channel =>
      Demand.Quiet (host.pool.broker.channels connection) channel
  | _ => True

/-! ## The demand of the wire -/

/-- The size of the body of a PUBLISH. -/
def publishSize (publish : PublishPacket) : Nat :=
  2 + (asBytes publish.topic).length + (if publish.qos = .atMostOnce then 0 else 2) +
    publish.payload.length

theorem publishSize_le (publish : PublishPacket) :
    publishSize publish ≤ 4 + (asBytes publish.topic).length + publish.payload.length := by
  unfold publishSize
  split <;> omega

/-- The message fits a PUBLISH. -/
def Publishable (publish : PublishPacket) : Prop :=
  FitsField (asBytes publish.topic) ∧ publishSize publish ≤ mqttSpecMaxPacketSize

/-- Messages can be published as they are, and packets come back from their encodings as they
are. -/
def wireDemand : Demand where
  message := Publishable
  packet packet := Legal packet ∧ asDecoded packet = packet

theorem RoundTrips.of_legal {packet : Packet} (legal : Legal packet)
    (same : asDecoded packet = packet) : RoundTrips packet := by
  refine ⟨_, encodePacket_eq_ok_iff.mpr ⟨legal.encodable, rfl⟩, ?_⟩
  have decoded := decode_frameBytes legal legal.bounded []
  rw [List.append_nil, same] at decoded
  exact decoded

theorem legal_reply {packet : Packet} (reply : Reply packet) : Legal packet := by
  cases reply with
  | connack _ | puback _ | pubrec _ | pubrel _ | pubcomp _ | unsuback _ | pingresp =>
      exact ⟨trivial, trivial, trivial, by simp [wireBody, mqttSpecMaxPacketSize]⟩

theorem length_publishBody (publish : PublishPacket) (packetId : Option PacketId) :
    (publishBody publish packetId).length =
      2 + (asBytes publish.topic).length + (if packetId.isSome then 2 else 0) +
        publish.payload.length := by
  rw [publishBody_eq, List.length_append, length_lengthPrefixed, List.length_append]
  cases packetId with
  | none => simp
  | some id => simp only [Option.elim_some, length_toBeBytes, Option.isSome_some, if_true]; omega

theorem QoS.eq_atMostOnce {qos : QoS} (low : ¬ .atMostOnce < qos) : qos = .atMostOnce := by
  cases qos with
  | atMostOnce => rfl
  | atLeastOnce => exact absurd (by decide) low
  | exactlyOnce => exact absurd (by decide) low

/-- A copy is no larger than the message. -/
theorem publishSize_copy_le {packet copy : PublishPacket} {subQos : QoS}
    (isCopy : Copy packet subQos copy) : publishSize copy ≤ publishSize packet := by
  have lower : packet.qos = .atMostOnce → copy.qos = .atMostOnce := by
    intro zero
    rw [isCopy.qos, zero]
    exact min_eq_left (by cases subQos <;> decide)
  unfold publishSize
  rw [isCopy.topic, isCopy.payload]
  by_cases zero : packet.qos = .atMostOnce
  · simp [zero, lower zero]
  · rw [if_neg zero]
    split <;> omega

/-- A copy of a message that fits a PUBLISH is legal on the wire. -/
theorem legal_copy {packet copy : PublishPacket} {subQos : QoS} (fits : Publishable packet)
    (isCopy : Copy packet subQos copy) :
    Legal (.publish copy) ∧ asDecoded (.publish copy) = .publish copy := by
  have field : FitsField (asBytes copy.topic) := isCopy.topic ▸ fits.1
  have size := (publishSize_copy_le isCopy).trans fits.2
  have numbered := isCopy.packetId
  by_cases above : .atMostOnce < copy.qos
  · rw [if_pos above] at numbered
    obtain ⟨id, present, nonzero⟩ := numbered
    have high : copy.qos ≠ .atMostOnce := ne_of_gt above
    have carried : wireId copy = copy.packetId := if_neg high
    refine ⟨⟨field, trivial, fun _ => ⟨id, present, nonzero⟩, ?_⟩, ?_⟩
    · rw [wireBody, length_publishBody, carried, present]
      simpa [publishSize, high] using size
    · rw [asDecoded, carried]
  · have low := QoS.eq_atMostOnce above
    rw [if_neg above] at numbered
    have carried : wireId copy = none := if_pos low
    refine ⟨⟨field, trivial, fun high => absurd low high, ?_⟩, ?_⟩
    · rw [wireBody, length_publishBody, carried]
      simpa [publishSize, low] using size
    · rw [asDecoded, carried, ← numbered]

/-- Replies and copies are legal, and the chain passes messages through. -/
theorem wireDemand_sound {config : Config} (passes : config.chain = some) :
    wireDemand.Sound config where
  replies packet reply := by
    refine ⟨legal_reply reply, ?_⟩
    cases reply <;> rfl
  copies packet subQos copy fits isCopy := legal_copy fits isCopy
  chain publish packet fits chained := by
    rw [passes] at chained
    cases chained
    exact fits

/-! ## What comes from the wire -/

theorem publishable_of_accepts {first : UInt8} {body : Bytes} {publish : PublishPacket}
    (accepted : Accepts first body (.publish publish))
    (bounded : body.length ≤ mqttSpecMaxPacketSize) : Publishable publish := by
  obtain ⟨_, idMatches, field, rfl⟩ := accepted
  refine ⟨field, ?_⟩
  rw [length_publishBody] at bounded
  unfold publishSize
  by_cases zero : publish.qos = .atMostOnce
  · rw [if_pos zero]
    omega
  · rw [if_pos (idMatches.mpr zero)] at bounded
    rw [if_neg zero]
    exact bounded

theorem publishable_will {connect : ConnectPacket} {will : WillPacket} (fits : ConnectFits connect)
    (present : will ∈ connect.will) : Publishable (willPacket (willOf will)) := by
  obtain ⟨topic, payload⟩ := fits.will will present
  refine ⟨topic, ?_⟩
  have small : (asBytes will.topic).length ≤ 65535 ∧ will.payload.length ≤ 65535 :=
    ⟨topic, payload⟩
  calc publishSize (willPacket (willOf will))
      ≤ 4 + (asBytes will.topic).length + will.payload.length := publishSize_le _
    _ ≤ mqttSpecMaxPacketSize := by rw [mqttSpecMaxPacketSize]; omega

theorem length_le_filtersSize (filters : List String) :
    filters.length ≤ filtersSize 1 filters := by
  induction filters with
  | nil => exact Nat.zero_le _
  | cons filter rest ih =>
      simp only [filtersSize, List.map_cons, List.sum_cons, List.length_cons] at ih ⊢
      omega

/-- The answer to a SUBSCRIBE from the wire is legal. -/
theorem legal_suback {first : UInt8} {body : Bytes} {subscribe : SubscribePacket}
    (accepted : Accepts first body (.subscribe subscribe))
    (bounded : body.length ≤ mqttSpecMaxPacketSize) {codes : List SubackCode}
    (each : codes.length = subscribe.subscriptions.length) :
    Legal (.suback ⟨subscribe.packetId, codes⟩) := by
  obtain ⟨rfl, nonempty, _⟩ := accepted
  rw [length_subscribeBody] at bounded
  have count := length_le_filtersSize (subscribe.subscriptions.map TopicSubscription.topic)
  rw [List.length_map] at count
  refine ⟨trivial, ?_, trivial, ?_⟩
  · rintro rfl
    exact nonempty (List.length_eq_zero_iff.mp each.symm)
  · rw [wireBody, length_subackBody]
    dsimp only
    omega

theorem admits_of_fromWire {packet : Packet} (fromWire : FromWire packet) :
    wireDemand.Admits packet := by
  obtain ⟨maxSize, buffer, rest, decoded⟩ := fromWire
  obtain ⟨frame, _, _, parsed⟩ := decode_eq_some_iff.mp decoded
  have accepted := (Frame.parse_eq_ok_iff.mp parsed).2
  cases packet with
  | publish publish =>
      have fits := publishable_of_accepts accepted frame.body_bounded
      exact ⟨fits, fun _ => fits⟩
  | connect connect =>
      obtain ⟨flags, stray, _, describes⟩ := accepted
      exact fun will present => publishable_will describes.fits present
  | subscribe subscribe =>
      exact fun codes each => ⟨legal_suback accepted frame.body_bounded each, rfl⟩
  | _ => trivial

theorem reads_of_readsWire {host : Host} {event : Event} (reads : ReadsWire host event) :
    wireDemand.Reads host event := by
  cases event with
  | act connection action =>
      cases action with
      | connect read auth =>
          cases read with
          | packet packet => exact admits_of_fromWire reads
          | _ => trivial
      | read outcome =>
          cases outcome with
          | packet packet => exact admits_of_fromWire reads
          | _ => trivial
      | _ => trivial
  | advance task choice => trivial
  | environment connection channel => exact reads

/-! ## Runs from the wire -/

instance (packet : Packet) : Decidable (RoundTrips packet) :=
  match encoded : encodePacket packet with
  | .ok bytes =>
      decidable_of_iff (decodePacketFromBytes mqttSpecMaxPacketSize bytes = (ok (some packet), []))
        ⟨fun decoded => ⟨bytes, encoded, decoded⟩, by
          rintro ⟨other, same, decoded⟩
          cases encoded.symm.trans same
          exact decoded⟩
  | .err _ => isFalse (by
      rintro ⟨bytes, same, _⟩
      cases encoded.symm.trans same)
  | .panic _ => isFalse (by
      rintro ⟨bytes, same, _⟩
      cases encoded.symm.trans same)

theorem RoundTrips.fromWire {packet : Packet} (roundTrips : RoundTrips packet) :
    FromWire packet := by
  obtain ⟨bytes, _, decoded⟩ := roundTrips
  exact ⟨mqttSpecMaxPacketSize, bytes, [], decoded⟩

/-- Every packet that is read is one that the encoder writes, and nobody else uses a
channel. -/
def ReadsWritten (_ : Host) : Event → Prop
  | .act _ (.connect (.packet packet) _) => RoundTrips packet
  | .act _ (.read (.packet packet)) => RoundTrips packet
  | .environment _ _ => False
  | _ => True

instance (host : Host) (event : Event) : Decidable (ReadsWritten host event) := by
  unfold ReadsWritten
  split <;> infer_instance

theorem readsWire_of_readsWritten {host : Host} {event : Event} (reads : ReadsWritten host event) :
    ReadsWire host event := by
  unfold ReadsWritten at reads
  unfold ReadsWire
  split at reads
  · exact reads.fromWire
  · exact reads.fromWire
  · exact reads.elim
  · trivial

/-- A client subscribes to a filter, and another one publishes on a topic. -/
def relays (filter topic : String) : List Event :=
  Event.subscribes 1 "s" filter ++
    [.connects 2 "p" false none] ++ Event.moves 2 2 ++ Event.proceeds 2 3 ++
    [.act 2 (.read (.packet (.publish ⟨topic, [1], false, .atLeastOnce, true, some 5⟩)))] ++
    Event.proceeds 2 1 ++ Event.worksOff 2 "s"

/-- Whatever comes from the wire, every packet that is handed to a writer is encoded
without an error and decodes to itself. -/
theorem sent_packets_round_trip (config : Config) (passes : config.chain = some)
    {events : List Event} {host : Host}
    (run : Run (Host.step config) ReadsWire (.new fun _ => .new) events host)
    (connection : ConnectionId) (packet : Packet)
    (sent : packet ∈ (host.pool.broker.channels connection).sent) : RoundTrips packet := by
  have reads : Run (Host.step config) wireDemand.Reads (.new fun _ => .new) events host :=
    run.mono fun _ _ => reads_of_readsWire
  obtain ⟨legal, same⟩ := Demand.sent_meets (wireDemand_sound passes) reads connection packet sent
  exact .of_legal legal same

/-- Two clients and a message between them, all from the wire. -/
theorem sent_packets_round_trip_relayed :
    let host := replay (Host.step ⟨.new, some⟩) (.new fun _ => .new) (relays "t" "t")
    (host.pool.broker.channels 1).sent =
        [.connack ⟨false, .accepted⟩, .suback ⟨7, [.granted .atMostOnce]⟩,
          .publish ⟨"t", [1], false, .atMostOnce, false, none⟩] ∧
      ∀ packet ∈ (host.pool.broker.channels 1).sent, RoundTrips packet := by
  have run : Run (Host.step ⟨.new, some⟩) ReadsWire (.new fun _ => .new) (relays "t" "t") _ :=
    (Follows.run (by decide +kernel)).mono fun _ _ => readsWire_of_readsWritten
  exact ⟨by decide +kernel, fun packet sent =>
    sent_packets_round_trip ⟨.new, some⟩ rfl run 1 packet sent⟩

end HotaruMqtt.Server
