import HotaruMqtt.Server.Host
import HotaruMqtt.Server.Records

/-!
# How long a QoS 2 message stays retransmittable

`publish` records a copy at QoS 2 under its identifier, and the record is to stay until
the PUBCOMP.  `clear_outbound_inflight` looks at the identifier alone, though, and the
PUBACK arm of the dispatch calls it as the PUBCOMP arm does: a PUBACK with the identifier
of a QoS 2 copy drops the record in the middle of its flow.  Nothing else does while the
channel is open.
-/

namespace HotaruMqtt.Server

open Exec Exec.Outcome Exec.Transition Broker

/-! ## What is done with a channel -/

/-- The open flag of a channel and its records. -/
def flight (channel : MqttChannel) : Bool × AList fun _ : PacketId => PublishPacket :=
  (channel.isOpen, channel.session.outboundInflight)

@[simp]
theorem flight_sendPacket (channel : MqttChannel) (packet : Packet) :
    flight (channel.sendPacket packet).2 = flight channel := by
  unfold MqttChannel.sendPacket
  split <;> rfl

/-- The identifier whose record a packet drops. -/
def settles : Packet → Option PacketId
  | .puback id | .pubcomp id => some id
  | _ => none

/-- The records after a packet. -/
def settled (records : AList fun _ : PacketId => PublishPacket) (packet : Packet) :
    AList fun _ : PacketId => PublishPacket :=
  match settles packet with
  | some id => records.erase id
  | none => records

theorem flight_ackInboundPublishPreChain (channel : MqttChannel) (publish : PublishPacket) :
    flight (ackInboundPublishPreChain channel publish).2 = flight channel := by
  unfold ackInboundPublishPreChain
  split
  · rfl
  · exact flight_sendPacket _ _
  · exact flight_sendPacket _ _
  · rfl

theorem flight_dispatchLocal (reader : Reader) (packet : Packet) :
    flight (dispatchLocal reader packet).2.channel =
      (reader.channel.isOpen, settled reader.channel.session.outboundInflight packet) := by
  cases packet with
  | publish publish =>
      have acked := flight_ackInboundPublishPreChain reader.channel publish
      simp only [dispatchLocal]
      split <;> rename_i channel happened <;> rw [happened] at acked
      · split <;> exact acked
      · exact acked
  | puback id | pubcomp id =>
      simp [dispatchLocal, Reader.withSession, MqttChannel.withSession, flight, settled, settles,
        MqttSession.wakeAckWaiter, MqttSession.clearOutboundInflight]
  | pubrec id =>
      refine (flight_sendPacket _ _).trans ?_
      simp [Reader.withSession, MqttChannel.withSession, flight, settled, settles,
        MqttSession.wakeAckWaiter]
  | pubrel id =>
      simp only [dispatchLocal]
      split
      · split
        · rename_i handed
          rw [Reader.handOn, Prod.mk.injEq] at handed
          rw [← handed.2]
          exact flight_sendPacket _ _
        · rename_i handed
          rw [Reader.handOn, Prod.mk.injEq] at handed
          rw [← handed.2]
          rfl
      · exact flight_sendPacket _ _
  | pingreq => exact flight_sendPacket _ _
  | connect _ | connack _ | subscribe _ | suback _ | unsubscribe _ | unsuback _ | pingresp
  | disconnect => rfl

/-- A packet that is passed on to the broker changes nothing before. -/
theorem eq_of_dispatchLocal {reader after : Reader} {packet : Packet} {dispatched : Dispatched}
    (happened : dispatchLocal reader packet = (dispatched, after))
    (asks : ∀ outcome, dispatched ≠ .done outcome) : after = reader := by
  cases packet with
  | subscribe _ | unsubscribe _ =>
      cases happened
      rfl
  | publish publish =>
      simp only [dispatchLocal] at happened
      split at happened
      · split at happened <;> exact absurd (Prod.mk.inj happened).1.symm (asks _)
      · exact absurd (Prod.mk.inj happened).1.symm (asks _)
  | pubrel id =>
      simp only [dispatchLocal] at happened
      split at happened
      · split at happened <;> exact absurd (Prod.mk.inj happened).1.symm (asks _)
      · exact absurd (Prod.mk.inj happened).1.symm (asks _)
  | connect _ | connack _ | puback _ | pubrec _ | pubcomp _ | suback _ | unsuback _ | pingreq
  | pingresp | disconnect => exact absurd (Prod.mk.inj happened).1.symm (asks _)

/-! ## What a step of a connection does to its channel -/

/-- What a step of a connection leaves its own channel as. -/
inductive OwnChannel (config : Config) (pool : Pool) (connection : ConnectionId) (conn : Conn) :
    Action → MqttChannel → Prop
  | same {action : Action} (unread : ∀ packet, action ≠ .read (.packet packet)) :
      OwnChannel config pool connection conn action (pool.broker.channels connection)
  | refusal {read : FirstRead} {auth : AuthResult} {code : ConnackReturnCode}
      (refused : admission config.safety connection auth read = .refused code) :
      OwnChannel config pool connection conn (.connect read auth)
        ((pool.broker.channels connection).sendPacket (.connack ⟨false, code⟩)).2
  | acceptance {session : Session} {present : Bool}
      (at_ : conn.main = .serving session (.answering present)) :
      OwnChannel config pool connection conn .proceed
        ((pool.broker.channels connection).sendPacket (.connack ⟨present, .accepted⟩)).2
  | response {session : Session} {packet : Packet}
      (at_ : conn.main = .serving session (.responding packet)) :
      OwnChannel config pool connection conn .proceed
        ((pool.broker.channels connection).sendPacket packet).2
  | closing {session : Session} {exit : Exit}
      (at_ : conn.main = .serving session (.closing exit)) :
      OwnChannel config pool connection conn .proceed (pool.broker.channels connection).close
  | reading {packet : Packet} :
      OwnChannel config pool connection conn (.read (.packet packet))
        (dispatchLocal ⟨pool.broker.channels connection, conn.queue⟩ packet).2.channel

section Act

variable {config : Config} {pool next : Pool} {connection : ConnectionId} {conn after : Conn}
  {action : Action} {packet : Packet} {dispatched : Dispatched} {reader : Reader}

/-- The broker is not called, or the call leaves the channels alone. -/
theorem OwnChannel.of_broker_eq (same : next.broker = pool.broker)
    (unread : ∀ packet, action ≠ .read (.packet packet)) :
    OwnChannel config pool connection conn action (next.broker.channels connection) := by
  rw [same]
  exact .same unread

/-- A packet that is passed on to the broker. -/
theorem OwnChannel.of_asks (same : next.broker = pool.broker)
    (happened : dispatchLocal ⟨pool.broker.channels connection, conn.queue⟩ packet =
      (dispatched, reader)) (asks : ∀ outcome, dispatched ≠ .done outcome) :
    OwnChannel config pool connection conn (.read (.packet packet))
      (next.broker.channels connection) := by
  have reading : OwnChannel config pool connection conn (.read (.packet packet)) _ := .reading
  rw [happened, eq_of_dispatchLocal happened asks] at reading
  rw [same]
  exact reading

theorem Acts.ownChannel (acts : Acts config pool connection conn action after next) :
    OwnChannel config pool connection conn action (next.broker.channels connection) := by
  cases acts with
  | failed _ fails => exact .same (by cases fails <;> simp)
  | refused _ refused =>
      rw [channels_environment_self]
      exact .refusal refused
  | admitted _ _ invoked | unanswered _ invoked | joined _ _ invoked | fanned _ _ _ invoked =>
      exact .of_broker_eq (broker_of_invoke invoked) (by simp)
  | registered _ resumed | withdrawn _ resumed | subscribed _ resumed | unsubscribed _ resumed
  | unregistered _ resumed | published _ _ resumed =>
      exact .of_broker_eq (broker_of_resume resumed) (by simp)
  | accepted at_ sent =>
      have acceptance : OwnChannel config pool connection conn .proceed _ := .acceptance at_
      rw [sent] at acceptance
      rw [channels_environment_self]
      exact acceptance
  | left _ leaves =>
      cases leaves with
      | disconnected => exact .reading
      | noticed | woken | elapsed | lost | failed => exact .same (by simp)
  | @dispatched _ packet _ _ _ _ dispatched =>
      have reading : OwnChannel config pool connection conn (.read (.packet packet)) _ := .reading
      rw [dispatched] at reading
      rw [channels_environment_self]
      exact reading
  | subscribe _ invoked dispatched | unsubscribe _ invoked dispatched =>
      exact .of_asks (broker_of_invoke invoked) dispatched (by simp)
  | responded at_ _ sent =>
      have response : OwnChannel config pool connection conn .proceed _ := .response at_
      rw [sent] at response
      rw [channels_environment_self]
      exact response
  | closed at_ =>
      rw [channels_environment_self]
      exact .closing at_
  | polled | dropped | took | drained | suppressed | crashed => exact .same (by simp)

/-- Whatever packet a handler reads, its channel is left as the dispatch leaves it. -/
theorem Acts.channel_of_read
    (acts : Acts config pool connection conn (.read (.packet packet)) after next) :
    next.broker.channels connection =
      (dispatchLocal ⟨pool.broker.channels connection, conn.queue⟩ packet).2.channel := by
  have own := acts.ownChannel
  generalize next.broker.channels connection = channel at own ⊢
  cases own with
  | same unread => exact absurd rfl (unread packet)
  | reading => rfl

/-- The queue of a connection after a packet that its handler reads. -/
theorem Acts.queue_of_read
    (acts : Acts config pool connection conn (.read (.packet packet)) after next) :
    after.queue =
      (dispatchLocal ⟨pool.broker.channels connection, conn.queue⟩ packet).2.queue := by
  cases acts with
  | failed _ fails => cases fails
  | left _ leaves =>
      cases leaves with
      | disconnected => rfl
  | dispatched _ dispatched => rw [dispatched]
  | subscribe _ _ dispatched | unsubscribe _ _ dispatched =>
      rw [dispatched, eq_of_dispatchLocal dispatched (by simp)]
      rfl

/-- A channel that keeps its flag and its records, or is closed. -/
def Closes (channel after : MqttChannel) : Prop :=
  flight after = flight channel ∨ after = channel.close

/-- Between packets the flag and the records are kept, or the channel is closed. -/
theorem OwnChannel.closes {channel : MqttChannel}
    (own : OwnChannel config pool connection conn action channel)
    (unread : ∀ packet, action ≠ .read (.packet packet)) :
    Closes (pool.broker.channels connection) channel := by
  cases own with
  | same => exact .inl rfl
  | refusal | acceptance | response => exact .inl (flight_sendPacket _ _)
  | closing => exact .inr rfl
  | reading => exact absurd rfl (unread _)

end Act

/-! ## What a step does to a channel -/

/-- What a step of the host does to the channel of a connection. -/
inductive Treats (host : Host) (connection : ConnectionId) : Event → MqttChannel → Prop
  | keeps {event : Event} {after : MqttChannel}
      (other : ∀ packet, event ≠ .act connection (.read (.packet packet)))
      (closes : Closes (host.pool.broker.channels connection) after) :
      Treats host connection event after
  | reads {packet : Packet} :
      Treats host connection (.act connection (.read (.packet packet)))
        (dispatchLocal ⟨host.pool.broker.channels connection, (host.conns connection).queue⟩
          packet).2.channel
  | copies {task : Task} {choice : Choice} {copy : PendingCopy}
      (sends : copyOf host.pool task = some copy) (target : copy.target = connection) :
      Treats host connection (.advance task choice)
        (withCopy (host.pool.broker.channels connection) copy.packet copy.subQos)
  | environment {channel : MqttChannel} :
      Treats host connection (.environment connection channel) channel

theorem Touches.channels_of_ne {pool next : Pool} {acting connection : ConnectionId}
    (touches : Touches pool acting next) (differs : connection ≠ acting) :
    next.broker.channels connection = pool.broker.channels connection := by
  cases touches with
  | channel => exact Function.update_of_ne differs _ _
  | nothing | begun | concluded => rfl

theorem Host.treats_of_step {config : Config} {host next : Host} {event : Event}
    (moved : host.step config event = some next) (connection : ConnectionId) :
    Treats host connection event (next.pool.broker.channels connection) := by
  cases event with
  | act acting action =>
      obtain ⟨⟨conn, pool⟩, acted, rfl⟩ := Option.map_eq_some_iff.mp moved
      have acts := acts_of_act acted
      rcases eq_or_ne acting connection with rfl | differs
      · by_cases reading : ∃ packet, action = .read (.packet packet)
        · obtain ⟨packet, rfl⟩ := reading
          rw [Host.pool_acted, acts.channel_of_read]
          exact .reads
        · have unread := not_exists.mp reading
          exact .keeps (by simpa using unread) (acts.ownChannel.closes unread)
      · have same := acts.touches.channels_of_ne (Ne.symm differs)
        exact .keeps (by simp [differs]) (.inl (congrArg flight same))
  | advance task choice =>
      obtain ⟨pool, advanced, rfl⟩ := Option.map_eq_some_iff.mp moved
      have moves : host.pool.step (.advance task choice) = some pool := advanced
      cases Pool.steps_of_step moves with
      | advance running unblocked stepped =>
          rename_i request call after access
          rcases channel_apply host.pool.shared access connection with
            same | ⟨_, closed⟩ | ⟨publication, subQos, rfl, copied⟩
          · exact .keeps (by simp) (.inl (congrArg flight same))
          · exact .keeps (by simp) (.inr closed)
          · cases Call.moves_of_step stepped with
            | enqueue =>
                have sends : copyOf host.pool task =
                    some ⟨publication.packet, connection, subQos⟩ := by
                  simp only [copyOf, running]
                have copies := @Treats.copies host connection task choice _ sends rfl
                exact (congrArg (Treats host connection _) copied).mpr copies
  | environment used channel =>
      cases moved
      rcases eq_or_ne used connection with rfl | own
      · rw [show ({ host with pool := host.pool.environment used channel } : Host).pool =
          host.pool.environment used channel from rfl, channels_environment_self]
        exact .environment
      · exact .keeps (by simp) (.inl (congrArg flight (Function.update_of_ne (Ne.symm own) _ _)))

/-! ## Records over time -/

theorem isOpen_withCopy (channel : MqttChannel) (packet : PublishPacket) (subQos : QoS) :
    (withCopy channel packet subQos).isOpen = channel.isOpen := by
  refine (congrArg Prod.fst (flight_sendPacket _ _)).trans ?_
  unfold numberCopy
  split <;> rfl

/-- A copy above QoS 0 is recorded under the next identifier. -/
theorem lookup_withCopy (channel : MqttChannel) (packet : PublishPacket) (subQos : QoS)
    (id : PacketId) :
    (withCopy channel packet subQos).session.outboundInflight.lookup id =
      if .atMostOnce < min packet.qos subQos ∧ id = channel.session.allocatePacketId.1 then
        some packet
      else
        channel.session.outboundInflight.lookup id := by
  simp only [withCopy, MqttChannel.sendPublish, session_sendPacket, numberCopy]
  by_cases above : .atMostOnce < min packet.qos subQos
  · simp only [above, true_and]
    exact Table.lookup_insert
  · simp only [above, false_and, if_false]

theorem mem_sent_withCopy {channel : MqttChannel} {packet : PublishPacket} {subQos : QoS}
    (qos : min packet.qos subQos = .exactlyOnce) (alive : channel.writerAlive = true) :
    .publish (adjusted packet .exactlyOnce (some channel.session.allocatePacketId.1)) ∈
      (withCopy channel packet subQos).sent := by
  have above : QoS.atMostOnce < .exactlyOnce := by decide
  simp [withCopy, numberCopy, MqttChannel.sendPublish, MqttChannel.sendPacket, qos, alive, above]

/-- The retransmit record of an identifier on a connection. -/
def Host.record (host : Host) (connection : ConnectionId) (id : PacketId) :
    Option PublishPacket :=
  (host.pool.broker.channels connection).session.outboundInflight.lookup id

/-- The open flag of a connection's channel. -/
def Host.isOpen (host : Host) (connection : ConnectionId) : Bool :=
  (host.pool.broker.channels connection).isOpen

/-- No PUBCOMP with the identifier is read on the connection, the broker does not
allocate the identifier there, and others leave its record alone unless they close
the channel. -/
def Undisturbed (connection : ConnectionId) (id : PacketId) (host : Host) : Event → Prop
  | .act acting (.read (.packet packet)) => acting = connection → packet ≠ .pubcomp id
  | .act _ _ => True
  | .advance task _ => ∀ copy ∈ copyOf host.pool task, copy.target = connection →
      .atMostOnce < min copy.packet.qos copy.subQos →
        (host.pool.broker.channels connection).session.allocatePacketId.1 ≠ id
  | .environment used channel => used = connection → channel.isOpen = true →
      host.isOpen connection = true ∧
        channel.session.outboundInflight.lookup id = host.record connection id

instance (connection : ConnectionId) (id : PacketId) (host : Host) :
    (event : Event) → Decidable (Undisturbed connection id host event)
  | .act acting (.read (.packet packet)) =>
      inferInstanceAs (Decidable (acting = connection → packet ≠ .pubcomp id))
  | .act _ (.read (.failed _)) | .act _ (.read .deadlineElapsed) | .act _ (.unavailable _)
  | .act _ (.connect _ _) | .act _ .shutdown | .act _ .proceed | .act _ .work
  | .act _ .crash => isTrue trivial
  | .advance _ _ => by
      unfold Undisturbed
      infer_instance
  | .environment _ _ => by
      unfold Undisturbed
      infer_instance

section Record

variable {config : Config} {host final : Host} {event : Event} {events : List Event}
  {connection : ConnectionId} {id : PacketId} {after : MqttChannel}

/-- The connection reads a PUBACK with the identifier. -/
def Event.readsPuback (connection : ConnectionId) (id : PacketId) : Event :=
  .act connection (.read (.packet (.puback id)))

theorem Treats.isOpen (treats : Treats host connection event after)
    (undisturbed : Undisturbed connection id host event) (isOpen : after.isOpen = true) :
    host.isOpen connection = true := by
  cases treats with
  | keeps other closes =>
      rcases closes with kept | rfl
      · exact (congrArg Prod.fst kept).symm.trans isOpen
      · simp at isOpen
  | reads =>
      exact (congrArg Prod.fst (flight_dispatchLocal _ _)).symm.trans isOpen
  | copies sends target => exact (isOpen_withCopy _ _ _).symm.trans isOpen
  | environment => exact (undisturbed rfl isOpen).1

theorem lookup_settled (records : AList fun _ : PacketId => PublishPacket) (packet : Packet) :
    (settled records packet).lookup id =
      if settles packet = some id then none else records.lookup id := by
  unfold settled
  cases found : settles packet with
  | none => simp
  | some other =>
      simp only [Option.some.injEq]
      exact Table.lookup_erase.trans (by simp only [eq_comm])

/-- While the channel stays open, only the PUBACK drops the record. -/
theorem Treats.lookup_of_ne (treats : Treats host connection event after)
    (undisturbed : Undisturbed connection id host event) (isOpen : after.isOpen = true)
    (other : event ≠ .readsPuback connection id) :
    after.session.outboundInflight.lookup id = host.record connection id := by
  cases treats with
  | keeps _ closes =>
      rcases closes with kept | rfl
      · exact congrArg (AList.lookup id) (congrArg Prod.snd kept)
      · simp at isOpen
  | @reads packet =>
      refine (congrArg (AList.lookup id)
        (congrArg Prod.snd (flight_dispatchLocal _ packet))).trans ?_
      refine (lookup_settled _ packet).trans (if_neg fun settled => ?_)
      cases packet with
      | puback acked =>
          cases settled
          exact other rfl
      | pubcomp acked =>
          cases settled
          exact undisturbed rfl rfl
      | _ => cases settled
  | @copies task choice copy sends target =>
      rw [lookup_withCopy,
        if_neg fun ⟨above, same⟩ => undisturbed copy sends target above same.symm]
      rfl
  | environment => exact (undisturbed rfl isOpen).2

theorem Treats.lookup_of_puback
    (treats : Treats host connection (.readsPuback connection id) after) :
    after.session.outboundInflight.lookup id = none := by
  cases treats with
  | keeps other _ => exact absurd rfl (other (.puback id))
  | reads =>
      refine (congrArg (AList.lookup id)
        (congrArg Prod.snd (flight_dispatchLocal _ (.puback id)))).trans ?_
      exact (lookup_settled _ (.puback id)).trans (if_pos rfl)

/-- Along a run that ends with the channel open. -/
theorem record_of_run (run : Run (Host.step config) (Undisturbed connection id) host events final)
    (isOpen : final.isOpen connection = true) :
    host.isOpen connection = true ∧
      (.readsPuback connection id ∉ events → final.record connection id =
        host.record connection id) ∧
      (.readsPuback connection id ∈ events → final.record connection id = none) := by
  induction run with
  | nil host => exact ⟨isOpen, fun _ => rfl, by simp⟩
  | @cons host middle final event events undisturbed moved rest ih =>
      obtain ⟨openMiddle, kept, dropped⟩ := ih isOpen
      have treats := Host.treats_of_step moved connection
      refine ⟨treats.isOpen undisturbed openMiddle, fun none => ?_, fun some => ?_⟩
      · rw [List.mem_cons, not_or] at none
        exact (kept none.2).trans (treats.lookup_of_ne undisturbed openMiddle (Ne.symm none.1))
      · by_cases later : .readsPuback connection id ∈ events
        · exact dropped later
        · obtain rfl := (List.mem_cons.mp some).resolve_right later
          exact (kept later).trans treats.lookup_of_puback

end Record

deriving instance DecidableEq for PendingCopy

/-- A task is about to send a copy at QoS 2 on the connection, with this identifier. -/
structure Host.SendsQos2 (host : Host) (task : Task) (connection : ConnectionId)
    (id : PacketId) (packet : PublishPacket) : Prop where
  copy : ∃ subQos, copyOf host.pool task = some ⟨packet, connection, subQos⟩ ∧
    min packet.qos subQos = .exactlyOnce
  alive : (host.pool.broker.channels connection).writerAlive = true
  numbered : (host.pool.broker.channels connection).session.allocatePacketId.1 = id

/-- A task at a copy sends it with its next step. -/
theorem channel_of_copy {pool next : Pool} {task : Task} {choice : Choice} {copy : PendingCopy}
    (sends : copyOf pool task = some copy)
    (moved : pool.step (.advance task choice) = some next) :
    next.broker.channels copy.target =
      withCopy (pool.broker.channels copy.target) copy.packet copy.subQos := by
  cases Pool.steps_of_step moved with
  | advance running unblocked stepped =>
      simp only [copyOf, running] at sends
      split at sends
      · rename_i found
        cases found
        cases sends
        cases Call.moves_of_step stepped with
        | enqueue =>
            exact (congrFun (channels_enqueue _ _ _ _ _) _).trans (Function.update_self _ _ _)
      · contradiction

/-- The copy is handed to the writer, and the packet recorded. -/
theorem Host.SendsQos2.sent_and_recorded {config : Config} {start host : Host} {task : Task}
    {choice : Choice} {connection : ConnectionId} {id : PacketId} {packet : PublishPacket}
    (sends : start.SendsQos2 task connection id packet)
    (moved : start.step config (.advance task choice) = some host) :
    .publish (adjusted packet .exactlyOnce (some id)) ∈
        (host.pool.broker.channels connection).sent ∧
      host.record connection id = some packet := by
  obtain ⟨⟨subQos, copyAt, qos⟩, alive, rfl⟩ := sends
  obtain ⟨pool, advanced, rfl⟩ := Option.map_eq_some_iff.mp moved
  have channel := channel_of_copy copyAt advanced
  have above : .atMostOnce < min packet.qos subQos := by
    rw [qos]
    decide
  rw [Host.record, channel]
  exact ⟨mem_sent_withCopy qos alive, (lookup_withCopy _ _ _ _).trans (if_pos ⟨above, rfl⟩)⟩

/-- Once a copy at QoS 2 is sent and recorded, and as long as no PUBCOMP for it is read,
its identifier is not allocated again and the channel is open: the record is there
exactly when no PUBACK with its identifier has been read. -/
theorem qos2_record_kept_iff {config : Config} {start host final : Host} {task : Task}
    {choice : Choice} {events : List Event} {connection : ConnectionId} {id : PacketId}
    {packet : PublishPacket} (sends : start.SendsQos2 task connection id packet)
    (moved : start.step config (.advance task choice) = some host)
    (run : Run (Host.step config) (Undisturbed connection id) host events final)
    (isOpen : final.isOpen connection = true) :
    .publish (adjusted packet .exactlyOnce (some id)) ∈
        (host.pool.broker.channels connection).sent ∧
      (final.record connection id = some packet ↔ .readsPuback connection id ∉ events) := by
  obtain ⟨sent, recorded⟩ := sends.sent_and_recorded moved
  obtain ⟨_, kept, dropped⟩ := record_of_run run isOpen
  refine ⟨sent, fun present acked => ?_, fun unacked => (kept unacked).trans recorded⟩
  rw [dropped acked] at present
  cases present

/-- A client connects to an empty broker and subscribes at QoS 2. -/
def subscribesQos2 : List Event :=
  [.connects 1 "s" true none] ++ Event.moves 1 4 ++ Event.proceeds 1 3 ++
    [.act 1 (.read (.packet (.subscribe ⟨7, [⟨"t", .exactlyOnce⟩]⟩)))] ++ Event.moves 1 5 ++
    Event.proceeds 1 3

/-- After that another client publishes at QoS 2, and its worker is about to send the
copy. -/
def publishesQos2 : List Event :=
  subscribesQos2 ++ [.connects 2 "p" false none] ++ Event.moves 2 2 ++ Event.proceeds 2 3 ++
    [.act 2 (.read (.packet (.publish ⟨"t", [], false, .exactlyOnce, false, some 5⟩))),
      .act 2 .proceed, .act 2 (.read (.packet (.pubrel 5))), .act 2 .work, .act 2 .work,
      .advance (.worker 2) (.listed [("s", .exactlyOnce)]), .advance (.worker 2) .go]

/-- The message as it comes to the broker. -/
def qos2Message : PublishPacket :=
  ⟨"t", [], false, .exactlyOnce, false, some 5⟩

/-- The host at the copy. -/
def atCopy : Host :=
  replay (Host.step ⟨.new, some⟩) (.new fun _ => .new) publishesQos2

/-- The host that has sent the copy. -/
def afterCopy : Host :=
  replay (Host.step ⟨.new, some⟩) atCopy [.advance (.worker 2) .go]

theorem sendsQos2_atCopy : atCopy.SendsQos2 (.worker 2) 1 1 qos2Message :=
  ⟨⟨.exactlyOnce, by decide +kernel, rfl⟩, by decide +kernel, by decide +kernel⟩

theorem step_atCopy : atCopy.step ⟨.new, some⟩ (.advance (.worker 2) .go) = some afterCopy := by
  have enabled : (atCopy.step ⟨.new, some⟩ (.advance (.worker 2) .go)).isSome := by
    decide +kernel
  obtain ⟨next, moved⟩ := Option.isSome_iff_exists.mp enabled
  rw [afterCopy, replay, moved]
  rfl

/-- After the PUBREC the record is still there. -/
theorem qos2_record_kept_iff_pubrec :
    let final := replay (Host.step ⟨.new, some⟩) afterCopy [.act 1 (.read (.packet (.pubrec 1)))]
    final.isOpen 1 = true ∧ final.record 1 1 = some qos2Message := by
  intro final
  have isOpen : final.isOpen 1 = true := by decide +kernel
  have kept := qos2_record_kept_iff sendsQos2_atCopy step_atCopy
    (Follows.run (by decide +kernel)) isOpen
  exact ⟨isOpen, kept.2.mpr (by simp [Event.readsPuback])⟩

/-- A PUBACK for the copy drops the record, with the channel open and no PUBCOMP read. -/
theorem puback_drops_qos2_record :
    ∃ final, Run (Host.step ⟨.new, some⟩) Any (.new fun _ => .new) publishesQos2 atCopy ∧
      atCopy.SendsQos2 (.worker 2) 1 1 qos2Message ∧
      atCopy.step ⟨.new, some⟩ (.advance (.worker 2) .go) = some afterCopy ∧
      Run (Host.step ⟨.new, some⟩) (Undisturbed 1 1) afterCopy [.readsPuback 1 1] final ∧
      final.isOpen 1 = true ∧ final.record 1 1 = none :=
  ⟨_, Follows.run (by decide +kernel), sendsQos2_atCopy, step_atCopy,
    Follows.run (by decide +kernel), by decide +kernel, by decide +kernel⟩

end HotaruMqtt.Server
