import HotaruMqtt.Network.ServerEnd
import HotaruMqtt.Network.ClientEnd

/-!
# What goes out

Every step of the host or of a client only adds to what has been sent on a channel.  What
a step can add is said here once, whether or not the connection goes on: answers to the
packet that is read, the verdict on a CONNECT, the answer of the broker, a copy, and on
the client's side its CONNECT and its requests.
-/

namespace HotaruMqtt.Network

open Exec Exec.Outcome Inbound Broker

/-- Some more packets have been sent, all of them allowed. -/
def Adds (allowed : Packet → Prop) (sent after : List Packet) : Prop :=
  ∃ more, after = sent ++ more ∧ ∀ packet ∈ more, allowed packet

namespace Adds

variable {allowed : Packet → Prop} {channel : MqttChannel} {sent middle after : List Packet}
  {packet : Packet}

theorem of_eq (same : after = sent) : Adds allowed sent after :=
  ⟨[], same.trans (List.append_nil _).symm, List.forall_mem_nil _⟩

theorem sendPacket (same : channel.sent = sent) (isAllowed : allowed packet) :
    Adds allowed sent (channel.sendPacket packet).2.sent := by
  unfold MqttChannel.sendPacket
  split
  · exact ⟨[packet], congrArg (· ++ [packet]) same, List.forall_mem_singleton.mpr isAllowed⟩
  · exact of_eq same

theorem trans (first : Adds allowed sent middle) (second : Adds allowed middle after) :
    Adds allowed sent after := by
  obtain ⟨more, rfl, isAllowed⟩ := first
  obtain ⟨later, rfl, alsoAllowed⟩ := second
  refine ⟨more ++ later, List.append_assoc _ _ _, fun packet mem => ?_⟩
  exact (List.mem_append.mp mem).elim (isAllowed packet) (alsoAllowed packet)

theorem mono {weaker : Packet → Prop} (adds : Adds allowed sent after)
    (implies : ∀ packet, allowed packet → weaker packet) : Adds weaker sent after := by
  obtain ⟨more, grown, isAllowed⟩ := adds
  exact ⟨more, grown, fun packet mem => implies packet (isAllowed packet mem)⟩

end Adds

/-- A channel has sent some more packets, all of them allowed, and keeps for a PUBREL what
it kept before or what it may keep. -/
structure Sends (allowed : Packet → Prop) (kept : IncomingPublish → Prop)
    (channel after : MqttChannel) : Prop where
  adds : Adds allowed channel.sent after.sent
  stash : ∀ id stored, after.session.qos2Recv.lookup id = some stored →
    channel.session.qos2Recv.lookup id = some stored ∨ kept stored

namespace Sends

variable {allowed : Packet → Prop} {kept : IncomingPublish → Prop}
  {channel middle after : MqttChannel} {packet : Packet}

theorem refl : Sends allowed kept channel channel :=
  ⟨.of_eq rfl, fun _ _ => .inl⟩

theorem of_eq (same : after = channel) : Sends allowed kept channel after :=
  same ▸ refl

/-- Neither what was sent nor what is kept changes. -/
theorem of_stash_eq (sent : after.sent = channel.sent)
    (stash : after.session.qos2Recv = channel.session.qos2Recv) :
    Sends allowed kept channel after :=
  ⟨.of_eq sent, fun _ _ found => .inl (stash ▸ found)⟩

theorem trans (first : Sends allowed kept channel middle)
    (second : Sends allowed kept middle after) : Sends allowed kept channel after :=
  ⟨first.adds.trans second.adds, fun id stored found =>
    (second.stash id stored found).elim (first.stash id stored) .inr⟩

theorem sendPacket (isAllowed : allowed packet) :
    Sends allowed kept channel (channel.sendPacket packet).2 := by
  refine ⟨.sendPacket rfl isAllowed, fun id stored found => .inl ?_⟩
  unfold MqttChannel.sendPacket at found
  split at found <;> exact found

theorem close : Sends allowed kept channel channel.close := by
  refine ⟨.of_eq (MqttChannel.sent_close _), fun id stored found => .inl ?_⟩
  unfold MqttChannel.close at found
  split at found
  · simp [MqttSession.abandon] at found
  · exact found

theorem mono {weaker : Packet → Prop} {wider : IncomingPublish → Prop}
    (sends : Sends allowed kept channel after)
    (implies : ∀ packet, allowed packet → weaker packet)
    (keeps : ∀ stored, kept stored → wider stored) : Sends weaker wider channel after :=
  ⟨sends.adds.mono implies, fun id stored found =>
    (sends.stash id stored found).imp_right (keeps stored)⟩

/-- What is sent afterwards was sent before or is allowed. -/
theorem mem (sends : Sends allowed kept channel after) (sent : packet ∈ after.sent) :
    packet ∈ channel.sent ∨ allowed packet := by
  obtain ⟨more, grown, isAllowed⟩ := sends.adds
  rw [grown] at sent
  exact (List.mem_append.mp sent).imp_right (isAllowed packet)

theorem sent_grows (sends : Sends allowed kept channel after) : channel.sent <+: after.sent := by
  obtain ⟨more, grown, _⟩ := sends.adds
  exact ⟨more, grown.symm⟩

theorem subset (sends : Sends allowed kept channel after) (sent : packet ∈ channel.sent) :
    packet ∈ after.sent :=
  sends.sent_grows.subset sent

/-- What was sent stays where it is. -/
theorem getElem? (sends : Sends allowed kept channel after) {index : Nat}
    (found : channel.sent[index]? = some packet) : after.sent[index]? = some packet := by
  obtain ⟨more, grown, _⟩ := sends.adds
  rw [grown, List.getElem?_append_left (List.getElem?_eq_some_iff.mp found).1]
  exact found

end Sends

/-- The packets that handling one can send. -/
def Reaction (packet : Packet) (reply : Packet) : Prop :=
  reply ∈ flowReplies packet ∨ reply = .pingresp

/-- What handling a packet can keep. -/
def Keeps (packet : Packet) (stored : IncomingPublish) : Prop :=
  ∃ publish, packet = .publish publish ∧ stored = incomingFromPacket publish

theorem adds_ack (channel : MqttChannel) (publish : PublishPacket) :
    Adds (Reaction (.publish publish)) channel.sent
      (HotaruMqtt.ackInboundPublishPreChain channel publish).2.sent := by
  unfold HotaruMqtt.ackInboundPublishPreChain
  split <;> rename_i level numbered
  · exact .of_eq rfl
  · exact .sendPacket rfl (.inl (by simp [flowReplies, level, numbered]))
  · exact .sendPacket rfl (.inl (by simp [flowReplies, level, numbered]))
  · exact .of_eq rfl

/-- The acknowledgement that both roles share. -/
theorem sends_ack (channel : MqttChannel) (publish : PublishPacket) :
    Sends (Reaction (.publish publish)) (Keeps (.publish publish)) channel
      (HotaruMqtt.ackInboundPublishPreChain channel publish).2 :=
  ⟨adds_ack channel publish, (Server.handled_ackInboundPublishPreChain channel publish).stash⟩

/-! ## The server -/

section Server

open Server

variable {config : Config} {host next : Host} {event : Server.Event} {connection : ConnectionId}
  {pool after : Pool} {conn result : Conn} {session : Server.Session} {phase : Server.Phase}

theorem sends_dispatchLocal (reader : Reader) (packet : Packet) :
    Sends (Reaction packet) (Keeps packet) reader.channel
      (dispatchLocal reader packet).2.channel := by
  refine ⟨?_, (handled_dispatchLocal reader packet).stash⟩
  cases packet with
  | publish publish =>
      have acked := adds_ack reader.channel publish
      simp only [dispatchLocal]
      split <;> rename_i channel happened <;> rw [happened] at acked
      · split <;> exact acked
      · exact acked
  | pubrec id => exact .sendPacket rfl (.inl (by simp [flowReplies]))
  | pubrel id =>
      have completes : Reaction (.pubrel id) (.pubcomp id) := .inl (by simp [flowReplies])
      simp only [dispatchLocal]
      split
      · split
        · rename_i handed
          rw [Reader.handOn, Prod.mk.injEq] at handed
          rw [← handed.2]
          exact .sendPacket rfl completes
        · rename_i handed
          rw [Reader.handOn, Prod.mk.injEq] at handed
          rw [← handed.2]
          exact .of_eq rfl
      · exact .sendPacket rfl completes
  | pingreq => exact .sendPacket rfl (.inr rfl)
  | puback id | pubcomp id => exact .of_eq rfl
  | connect _ | connack _ | subscribe _ | suback _ | unsubscribe _ | unsuback _ | pingresp
  | disconnect => exact .of_eq rfl

/-- The packets that a step of the host can send on a connection. -/
inductive Outgoing (config : Config) (host : Host) (connection : ConnectionId) :
    Server.Event → Packet → Prop
  | reaction {packet reply : Packet} (reacts : Reaction packet reply) :
      Outgoing config host connection (.act connection (.read (.packet packet))) reply
  | refusal {read : FirstRead} {auth : AuthResult} {code : ConnackReturnCode}
      (refused : admission config.safety connection auth read = .refused code) :
      Outgoing config host connection (.act connection (.connect read auth))
        (.connack ⟨false, code⟩)
  | acceptance {session : Server.Session} {present : Bool}
      (at_ : (host.conns connection).main = .serving session (.answering present)) :
      Outgoing config host connection (.act connection .proceed)
        (.connack ⟨present, .accepted⟩)
  | response {session : Server.Session} {packet : Packet}
      (at_ : (host.conns connection).main = .serving session (.responding packet)) :
      Outgoing config host connection (.act connection .proceed) packet
  | copy {task : Task} {choice : Choice} {copy : PendingCopy}
      (sends : copyOf host.pool task = some copy) (target : copy.target = connection) :
      Outgoing config host connection (.advance task choice)
        (.publish (copyOn (host.pool.broker.channels connection) copy))

/-- What a step of the host can keep on a connection for a PUBREL. -/
def KeptBy (connection : ConnectionId) (event : Server.Event) (stored : IncomingPublish) : Prop :=
  ∃ publish, event = .act connection (.read (.packet (.publish publish))) ∧
    stored = incomingFromPacket publish

/-- A step of a connection sends what its handler answers. -/
theorem sends_of_acts {action : Server.Action}
    (acts : Acts config host.pool connection (host.conns connection) action result after) :
    Sends (Outgoing config host connection (.act connection action))
      (KeptBy connection (.act connection action))
      (host.pool.broker.channels connection) (after.broker.channels connection) := by
  have own := acts.ownChannel
  generalize after.broker.channels connection = channel at own
  cases own with
  | same => exact .refl
  | refusal refused => exact .sendPacket (.refusal refused)
  | acceptance at_ => exact .sendPacket (.acceptance at_)
  | response at_ => exact .sendPacket (.response at_)
  | closing => exact .close
  | @reading packet =>
      refine (sends_dispatchLocal ⟨_, (host.conns connection).queue⟩ packet).mono
        (fun reply => .reaction) ?_
      rintro stored ⟨publish, rfl, kept⟩
      exact ⟨publish, rfl, kept⟩

/-- A step of the host sends on a connection what it can, unless others use the channel. -/
theorem sends_of_step (stepped : host.step config event = some next)
    (undisturbed : ∀ channel, event ≠ .environment connection channel) :
    Sends (Outgoing config host connection event) (KeptBy connection event)
      (host.pool.broker.channels connection)
      (next.pool.broker.channels connection) := by
  cases event with
  | act acting action =>
      obtain ⟨⟨result, after⟩, acted, rfl⟩ := Option.map_eq_some_iff.mp stepped
      have acts := acts_of_act acted
      rcases eq_or_ne connection acting with rfl | differs
      · exact sends_of_acts acts
      · exact .of_eq (acts.touches.channels_of_ne differs)
  | advance task choice =>
      obtain ⟨pool, advanced, rfl⟩ := Option.map_eq_some_iff.mp stepped
      have moves : host.pool.step (.advance task choice) = some pool := advanced
      cases Pool.steps_of_step moves with
      | advance running unblocked moved =>
          rename_i request call after access
          rcases channel_apply host.pool.shared access connection with
            same | ⟨_, closed⟩ | ⟨publication, subQos, rfl, copied⟩
          · exact .of_eq same
          · exact closed ▸ .close
          · cases Call.moves_of_step moved with
            | enqueue =>
                have found : copyOf host.pool task =
                    some ⟨publication.packet, connection, subQos⟩ := by
                  simp only [copyOf, running]
                have stash : (withCopy (host.pool.broker.channels connection) publication.packet
                    subQos).session.qos2Recv =
                    (host.pool.broker.channels connection).session.qos2Recv := by
                  obtain ⟨_, _, _, stash⟩ := withCopy_spec
                    (host.pool.broker.channels connection) publication.packet subQos
                  exact stash
                refine (congrArg (Sends _ _ _) copied).mpr ⟨?_, fun _ _ kept => .inl (stash ▸ kept)⟩
                obtain ⟨packetId, session, numbered, _, _⟩ := numberCopy_spec
                  (host.pool.broker.channels connection) publication.packet
                  (min publication.packet.qos subQos)
                refine .sendPacket ?_ (.copy found rfl)
                rw [numbered]
  | environment used channel =>
      cases stepped
      have differs : connection ≠ used := by
        rintro rfl
        exact undisturbed channel rfl
      exact .of_eq (Function.update_of_ne differs _ _)

end Server

/-! ## The client -/

section Client

open Client

variable {config : MqttClientConfig} {session next : Client.Session} {action : Client.Action}
  {kept : IncomingPublish → Prop}

theorem sends_andThen {allowed : Packet → Prop} {kept : IncomingPublish → Prop}
    {channel : MqttChannel} {connection : Connection}
    {called : Outcome MqttError Unit × MqttChannel}
    {then_ : Connection → Outcome MqttError Bool × Connection}
    (sends : Sends allowed kept channel called.2)
    (keeps : ∀ connection, (then_ connection).2.channel = connection.channel) :
    Sends allowed kept channel (connection.andThen called then_).2.channel := by
  unfold Connection.andThen
  split
  · rw [keeps]
    exact sends
  · exact sends
  · exact sends

theorem sends_dispatchClientInbound (connection : Connection) (packet : Packet) :
    Sends (Reaction packet) (Keeps packet) connection.channel
      (dispatchClientInbound connection packet).2.channel := by
  cases packet with
  | publish publish =>
      refine sends_andThen (sends_ack connection.channel publish) fun connection => ?_
      split <;> rfl
  | pubrec id =>
      have woken : Sends (Reaction (.pubrec id)) (Keeps (.pubrec id)) connection.channel
          (connection.withSession fun session => session.wakeAckWaiter id .pubrec).channel :=
        .of_stash_eq rfl (MqttSession.qos2Recv_wake _ _ _ _)
      exact sends_andThen (woken.trans (.sendPacket (.inl (by simp [flowReplies])))) fun _ => rfl
  | pubrel id =>
      have taken : Sends (Reaction (.pubrel id)) (Keeps (.pubrel id)) connection.channel
          (connection.withSession fun _ =>
            (connection.channel.session.takeQos2Publish id).2).channel :=
        ⟨.of_eq rfl, fun _ _ found => .inl (Table.lookup_erase_eq_some.mp found).2⟩
      rw [dispatchClientInbound]
      refine sends_andThen (.trans ?_ (.sendPacket (.inl (by simp [flowReplies])))) fun _ => rfl
      split <;> exact taken
  | puback id | pubcomp id | suback suback | unsuback id =>
      exact .of_stash_eq rfl (MqttSession.qos2Recv_wake _ _ _ _)
  | connect _ | connack _ | subscribe _ | unsubscribe _ | pingreq | pingresp | disconnect =>
      exact .refl

/-- Of CONNECT packets, a client sends its own. -/
def OwnConnect (config : MqttClientConfig) : Packet → Prop
  | .connect connect => connect = buildConnect config
  | _ => True

theorem ownConnect_of_reaction {packet reply : Packet} (reacts : Reaction packet reply) :
    OwnConnect config reply := by
  rcases reacts with reply | rfl
  · cases packet with
    | publish publish =>
        simp only [flowReplies] at reply
        split at reply
        · rw [List.mem_singleton.mp reply]
          trivial
        · rw [List.mem_singleton.mp reply]
          trivial
        · contradiction
    | pubrec id | pubrel id =>
        rw [List.mem_singleton.mp reply]
        trivial
    | _ => contradiction
  · trivial

theorem sends_leave (session : Client.Session) :
    Sends (OwnConnect config) kept session.channel session.leave.channel :=
  .sendPacket trivial

/-- What an action of a client can keep for a PUBREL. -/
def KeptFor (action : Client.Action) (stored : IncomingPublish) : Prop :=
  ∃ publish, action = .read (.packet (.publish publish)) ∧ stored = incomingFromPacket publish

theorem sends_dispatched {packet : Packet} {outcome : Outcome MqttError Bool}
    {connection : Connection}
    (dispatched : dispatchClientInbound session.connection packet = (outcome, connection)) :
    Sends (OwnConnect config) (KeptFor (.read (.packet packet))) session.channel
      connection.channel := by
  have sends := sends_dispatchClientInbound session.connection packet
  rw [dispatched] at sends
  refine sends.mono (fun _ => ownConnect_of_reaction) ?_
  rintro stored ⟨publish, rfl, same⟩
  exact ⟨publish, rfl, same⟩

theorem sends_handOver (session : Client.Session) (request : Channel.MqttRequest) (id : PacketId) :
    Sends (OwnConnect config) kept session.channel
      (session.handOver (request.command id)).channel := by
  cases request with
  | publish request | subscribe filters | unsubscribe topics => exact .sendPacket trivial

/-- A step of a client sends no CONNECT but its own. -/
theorem sends_of_clientStep (stepped : session.step config action = some next) :
    Sends (OwnConnect config) (KeptFor action) session.channel next.channel := by
  cases Client.Session.steps_of_step stepped with
  | ended | polled | greeted => exact .refl
  | parted => exact sends_leave session
  | connected => exact .sendPacket rfl
  | pinged => exact .sendPacket trivial
  | subscribed =>
      refine Sends.trans (?_ : Sends _ _ _ session.numbered) (.sendPacket trivial)
      exact .of_stash_eq rfl rfl
  | dispatched _ dispatched | broken _ dispatched | panicked _ dispatched =>
      exact sends_dispatched dispatched
  | @disconnected _ connection _ dispatched =>
      exact (sends_dispatched dispatched).trans (sends_leave { session with connection })
  | closed => exact .close
  | enqueued =>
      exact sends_handOver { session with outgoing := session.outgoing.eraseIdx _ } _ _
  | unsubscribed | exited | listed | parked | awaited | cancelled => exact .of_stash_eq rfl rfl

end Client

end HotaruMqtt.Network
