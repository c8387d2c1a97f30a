import HotaruMqtt.Broker.Pool
import HotaruMqtt.Server.Dispatch

/-!
# Retransmit records

`publish` keeps a record of every copy above QoS 0 in the subscriber's session,
under the identifier it allocates there.  The record it stores is the packet it
was called with, and not the adjusted copy that it sends, so record and copy are
the same only where the adjustment changes nothing.

Calls of any tasks interleave here, and in between the channels are used by the
readers of their connections.
-/

namespace HotaruMqtt.Server

open Exec Exec.Outcome Exec.Transition Broker

/-- Every record is a PUBLISH above QoS 0 that was sent under the record's
identifier. -/
def RecordsSent (channel : MqttChannel) : Prop :=
  ∀ id record, channel.session.outboundInflight.lookup id = some record →
    .publish record ∈ channel.sent ∧ record.packetId = some id ∧ .atMostOnce < record.qos

/-- What is done with a channel beside the calls of the broker. -/
inductive Used (channel : MqttChannel) : MqttChannel → Prop
  /-- Its reader handles a packet. -/
  | inbound (queue : WorkQueue) (packet : Packet) :
      Used channel (dispatchLocal ⟨channel, queue⟩ packet).2.channel
  | sent (packet : Packet) : Used channel (channel.sendPacket packet).2
  | closed : Used channel channel.close
  | writerEnded : Used channel { channel with writerAlive := false, isOpen := false }

/-- The channels are used by their readers alone. -/
def OnlyUsed (pool : Pool) : Pool.Event → Prop
  | .environment connection channel => Used (pool.broker.channels connection) channel
  | .invoke _ _ | .advance _ _ | .conclude _ => True

noncomputable instance (pool : Pool) : DecidablePred (OnlyUsed pool)
  | .environment _ _ => Classical.propDecidable _
  | .invoke _ _ | .advance _ _ | .conclude _ => inferInstanceAs (Decidable True)

/-! ## Steps that make no record -/

theorem RecordsSent.mono {channel after : MqttChannel} (recorded : RecordsSent channel)
    (records : ∀ id record, after.session.outboundInflight.lookup id = some record →
      channel.session.outboundInflight.lookup id = some record)
    (sent : ∀ packet ∈ channel.sent, packet ∈ after.sent) : RecordsSent after := by
  intro id record found
  obtain ⟨listed, numbered, above⟩ := recorded id record (records id record found)
  exact ⟨sent _ listed, numbered, above⟩

theorem mem_sent_sendPacket {channel : MqttChannel} {packet other : Packet}
    (listed : other ∈ channel.sent) : other ∈ (channel.sendPacket packet).2.sent := by
  unfold MqttChannel.sendPacket
  split
  · exact List.mem_append_left _ listed
  · exact listed

theorem session_sendPacket (channel : MqttChannel) (packet : Packet) :
    (channel.sendPacket packet).2.session = channel.session := by
  unfold MqttChannel.sendPacket
  split <;> rfl

theorem RecordsSent.close {channel : MqttChannel} (recorded : RecordsSent channel) :
    RecordsSent channel.close := by
  unfold MqttChannel.close
  split
  · intro id record found
    exact absurd found (by simp [MqttSession.abandon])
  · exact recorded

theorem RecordsSent.used {channel after : MqttChannel} (recorded : RecordsSent channel)
    (used : Used channel after) : RecordsSent after := by
  cases used with
  | inbound queue packet =>
      have handled := handled_dispatchLocal ⟨channel, queue⟩ packet
      obtain ⟨replies, sent, _⟩ := handled.replies
      refine recorded.mono handled.records fun packet listed => ?_
      rw [sent]
      exact List.mem_append_left _ listed
  | sent packet =>
      refine recorded.mono ?_ fun _ => mem_sent_sendPacket
      rw [session_sendPacket]
      exact fun _ _ => id
  | closed => exact recorded.close
  | writerEnded => exact recorded

/-! ## The step that makes one -/

/-- A copy above QoS 0 is the published packet itself: it already has the flags,
the QoS and the identifier that the copy is given, and it is sent. -/
structure Verbatim (channel : MqttChannel) (packet : PublishPacket) (subQos : QoS) : Prop where
  qos : packet.qos ≤ subQos
  dup : packet.dup = false
  retain : packet.retain = false
  packetId : packet.packetId = some channel.session.allocatePacketId.1
  alive : channel.writerAlive = true

instance (channel : MqttChannel) (packet : PublishPacket) (subQos : QoS) :
    Decidable (Verbatim channel packet subQos) :=
  decidable_of_iff (packet.qos ≤ subQos ∧ packet.dup = false ∧ packet.retain = false ∧
      packet.packetId = some channel.session.allocatePacketId.1 ∧ channel.writerAlive = true)
    ⟨fun ⟨qos, dup, retain, packetId, alive⟩ => ⟨qos, dup, retain, packetId, alive⟩,
      fun same => ⟨same.qos, same.dup, same.retain, same.packetId, same.alive⟩⟩

theorem Verbatim.adjusted_eq {channel : MqttChannel} {packet : PublishPacket} {subQos : QoS}
    (verbatim : Verbatim channel packet subQos) :
    adjusted packet (min packet.qos subQos) (some channel.session.allocatePacketId.1) =
      packet := by
  obtain ⟨topic, payload, dup, qos, retain, packetId⟩ := packet
  have sameQos : min qos subQos = qos := min_eq_left verbatim.qos
  have sameDup : dup = false := verbatim.dup
  have sameRetain : retain = false := verbatim.retain
  have sameId : packetId = some channel.session.allocatePacketId.1 := verbatim.packetId
  rw [adjusted, sameQos, sameDup, sameRetain, sameId]

/-- A copy keeps the records right if it is the packet itself or has none. -/
theorem RecordsSent.withCopy {channel : MqttChannel} (recorded : RecordsSent channel)
    {packet : PublishPacket} {subQos : QoS}
    (verbatim : .atMostOnce < min packet.qos subQos → Verbatim channel packet subQos) :
    RecordsSent (withCopy channel packet subQos) := by
  unfold Broker.withCopy numberCopy
  split
  · rename_i above
    have same := verbatim above
    simp only [MqttChannel.sendPublish, MqttChannel.sendPacket, same.alive, if_true,
      same.adjusted_eq]
    intro id record found
    rcases Table.lookup_insert_eq_some.mp found with ⟨sameId, sameRecord⟩ | ⟨_, before⟩
    · subst sameId sameRecord
      rw [min_eq_left same.qos] at above
      exact ⟨List.mem_append_right _ (List.mem_singleton_self _), same.packetId, above⟩
    · obtain ⟨listed, numbered, aboveZero⟩ := recorded id record before
      exact ⟨List.mem_append_left _ listed, numbered, aboveZero⟩
  · exact recorded.used (.sent _)

/-! ## Steps of the pool -/

/-- A copy that is about to be sent. -/
structure PendingCopy where
  packet : PublishPacket
  target : ConnectionId
  subQos : QoS

/-- The copy that the next step of a task sends, if it is at one. -/
def copyOf (pool : Pool) (task : Task) : Option PendingCopy :=
  match pool.calls.lookup task with
  | some ⟨_, .enqueue publication _ target subQos _ _⟩ =>
      some ⟨publication.packet, target, subQos⟩
  | _ => none

/-- Above QoS 0 the copy is the published packet itself. -/
def PendingCopy.Same (pool : Pool) (copy : PendingCopy) : Prop :=
  .atMostOnce < min copy.packet.qos copy.subQos →
    Verbatim (pool.broker.channels copy.target) copy.packet copy.subQos

instance (pool : Pool) (copy : PendingCopy) : Decidable (copy.Same pool) :=
  inferInstanceAs (Decidable (_ → _))

/-- The channels are used by their readers alone, and every copy above QoS 0 is the
published packet itself. -/
def SendsVerbatim (pool : Pool) (event : Pool.Event) : Prop :=
  OnlyUsed pool event ∧ match event with
    | .advance task _ => ∀ copy ∈ copyOf pool task, copy.Same pool
    | _ => True

noncomputable instance (pool : Pool) (event : Pool.Event) :
    Decidable (SendsVerbatim pool event) := by
  unfold SendsVerbatim
  cases event <;> infer_instance

/-- All records of all channels. -/
def AllRecordsSent (broker : Broker) : Prop :=
  ∀ connection, RecordsSent (broker.channels connection)

theorem AllRecordsSent.update {broker after : Broker} {connection : ConnectionId}
    {channel : MqttChannel} (recorded : AllRecordsSent broker)
    (channels : after.channels = Function.update broker.channels connection channel)
    (changed : RecordsSent channel) : AllRecordsSent after := by
  intro other
  rw [channels, Function.update_apply]
  split
  · exact changed
  · exact recorded other

theorem AllRecordsSent.apply {shared : Shared} (recorded : AllRecordsSent shared.broker)
    (access : Access)
    (verbatim : ∀ publication target subQos, access = .deliver publication target subQos →
      .atMostOnce < min publication.packet.qos subQos →
        Verbatim (shared.broker.channels target) publication.packet subQos) :
    AllRecordsSent (shared.apply access).broker := by
  intro connection
  rcases channel_apply shared access connection with
    same | ⟨_, same⟩ | ⟨publication, subQos, delivers, same⟩ <;> rw [same]
  · exact recorded connection
  · exact (recorded connection).close
  · exact (recorded connection).withCopy (verbatim publication connection subQos delivers)

theorem preserves_allRecordsSent :
    Preserves Pool.step SendsVerbatim fun pool => AllRecordsSent pool.broker := by
  intro pool event next recorded meets moved
  cases Pool.steps_of_step moved with
  | invoke | conclude => exact recorded
  | environment =>
      rename_i connection channel
      exact recorded.update rfl ((recorded connection).used meets.1)
  | advance running unblocked stepped =>
      rename_i task choice request call after access
      refine AllRecordsSent.apply recorded access ?_
      rintro publication target subQos rfl above
      cases Call.moves_of_step stepped with
      | enqueue =>
          have copy : copyOf pool task = some ⟨publication.packet, target, subQos⟩ := by
            simp only [copyOf, running]
          exact meets.2 _ copy above

/-- In every run whose copies above QoS 0 are all the published packets themselves,
every retransmit record is a PUBLISH that was sent under its identifier. -/
theorem records_are_sent_packets {events : List Pool.Event} {pool : Pool}
    (run : Run Pool.step SendsVerbatim (.new fun _ => .new) events pool)
    (connection : ConnectionId) : RecordsSent (pool.broker.channels connection) := by
  refine run.invariant preserves_allRecordsSent ?_ connection
  intro other id record found
  exact absurd found (by simp [Pool.new, Pool.around, Broker.new, MqttChannel.new,
    MqttSession.new])

/-- A client subscribes at QoS 1 and a packet with this identifier is published to
it. -/
def publishesTo (packetId : PacketId) : List Pool.Event :=
  Pool.callOf (.handler 1) (.register ⟨"s", 1, none, true⟩) 4 ++
    Pool.callOf (.handler 1) (.subscribe [⟨"t", .atLeastOnce⟩]) 5 ++
    [.invoke (.worker 2) (.publish ⟨.direct, "p",
        ⟨"t", [], false, .atLeastOnce, false, some packetId⟩⟩),
      .advance (.worker 2) (.listed [("s", .atLeastOnce)]), .advance (.worker 2) .go,
      .advance (.worker 2) .go]

/-- The publisher's identifier happens to be the one the subscriber's session
allocates. -/
theorem records_are_sent_packets_same_id :
    RecordsSent ((replay Pool.step (.new fun _ => .new) (publishesTo 1)).broker.channels 1) ∧
      ((replay Pool.step (.new fun _ => .new) (publishesTo 1)).broker.channels
        1).session.outboundInflight.lookup 1 =
          some ⟨"t", [], false, .atLeastOnce, false, some 1⟩ :=
  ⟨records_are_sent_packets (Follows.run (by decide +kernel)) 1, by decide +kernel⟩

/-- The publisher's identifier is kept in a record under another one. -/
theorem record_keeps_the_publishers_id :
    ∃ pool, Run Pool.step OnlyUsed (.new fun _ => .new) (publishesTo 9) pool ∧
      ¬ RecordsSent (pool.broker.channels 1) := by
  refine ⟨_, Follows.run (by decide +kernel), fun recorded => ?_⟩
  have stored : ((replay Pool.step (.new fun _ => .new) (publishesTo 9)).broker.channels
      1).session.outboundInflight.lookup 1 =
        some ⟨"t", [], false, .atLeastOnce, false, some 9⟩ := by decide +kernel
  exact absurd (recorded 1 _ stored).2.1 (by decide)

end HotaruMqtt.Server
