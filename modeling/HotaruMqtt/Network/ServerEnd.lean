import HotaruMqtt.Network.Parties
import HotaruMqtt.Server.Flight

/-!
# The server's end

Every step of the host is a step of the party of a connection that goes on: the handler
hears the packet it reads, a fan-out publishes a copy, and whatever else is sent belongs
to no flow.
-/

namespace HotaruMqtt.Network

open Exec Exec.Outcome Inbound Broker

/-- The server's end of a connection. -/
def serverParty (host : Server.Host) (connection : ConnectionId) : Party :=
  .ofServer (host.pool.broker.channels connection) (host.conns connection).queue

/-- The last identifier that was allocated on a connection. -/
def serverCounter (host : Server.Host) (connection : ConnectionId) : UInt16 :=
  (host.pool.broker.channels connection).session.pktCounter

/-- The handler has not returned, its worker receives and its channel is open. -/
structure ServerUp (host : Server.Host) (connection : ConnectionId) : Prop where
  flags : flags (host.pool.broker.channels connection) = (true, true)
  receiver : (host.conns connection).queue.receiver = true
  underWay : ∀ outcome, (host.conns connection).main ≠ .returned outcome

/-- A handler answers for the broker with a SUBACK or an UNSUBACK. -/
def Responds (host : Server.Host) (connection : ConnectionId) : Prop :=
  ∀ session packet, (host.conns connection).main = .serving session (.responding packet) →
    (∃ suback, packet = .suback suback) ∨ ∃ id, packet = .unsuback id

/-- The packet that an event takes from the wire of a connection. -/
def takes : Server.Event → Option (ConnectionId × Packet)
  | .act connection (.connect (.packet packet) _) => some (connection, packet)
  | .act connection (.read (.packet packet)) => some (connection, packet)
  | _ => none

/-- The copy that is about to be sent on a channel. -/
def copyOn (channel : MqttChannel) (copy : Server.PendingCopy) : PublishPacket :=
  adjusted copy.packet (min copy.packet.qos copy.subQos)
    (numberCopy channel copy.packet (min copy.packet.qos copy.subQos)).1

/-- What a step of the host is to the flows of a connection and to its counter. -/
inductive ServerShows (host : Server.Host) (connection : ConnectionId) :
    Server.Event → Party → UInt16 → Prop
  | hears {event : Server.Event} {packet : Packet} {after : Party}
      (taken : takes event = some (connection, packet))
      (hears : (serverParty host connection).Hears packet after) :
      ServerShows host connection event after (serverCounter host connection)
  | copies {task : Task} {choice : Choice} {copy : Server.PendingCopy}
      (sends : Server.copyOf host.pool task = some copy) (target : copy.target = connection) :
      ServerShows host connection (.advance task choice)
        ((serverParty host connection).publishes
          (copyOn (host.pool.broker.channels connection) copy)
          (trackedOf (withCopy (host.pool.broker.channels connection) copy.packet copy.subQos)))
        (withCopy (host.pool.broker.channels connection) copy.packet
          copy.subQos).session.pktCounter
  | adds {event : Server.Event} {packets : List Packet}
      (other : ∀ packet, takes event ≠ some (connection, packet))
      (silent : ∀ task choice, event = .advance task choice →
        ∀ copy ∈ Server.copyOf host.pool task, copy.target ≠ connection)
      (neutral : ∀ packet ∈ packets, Neutral packet) :
      ServerShows host connection event ((serverParty host connection).adds packets)
        (serverCounter host connection)

section Server

open Server

variable {config : Config} {host next : Host} {event : Server.Event} {connection : ConnectionId}
  {pool after : Pool} {conn result : Conn} {session : Server.Session} {phase : Server.Phase}

/-- What is done with a channel between packets. -/
inductive Uses (channel : MqttChannel) : MqttChannel → Prop
  | same : Uses channel channel
  | sends {packet : Packet} (neutral : Neutral packet) : Uses channel (channel.sendPacket packet).2
  | closes : Uses channel channel.close

/-- Used between packets and still open. -/
theorem Uses.party {channel used : MqttChannel} (uses : Uses channel used)
    (up : flags used = (true, true)) {queue later : WorkQueue}
    (handed : later.handed = queue.handed) :
    standing used = standing channel ∧ ∃ packets, (∀ packet ∈ packets, Neutral packet) ∧
      Party.ofServer used later = (Party.ofServer channel queue).adds packets := by
  cases uses with
  | same =>
      refine ⟨rfl, [], List.forall_mem_nil _, ?_⟩
      rw [Party.adds_nil, Party.ofServer, handed]
      rfl
  | sends neutral =>
      rw [flags_sendPacket] at up
      refine ⟨standing_sendPacket _ _, _, List.forall_mem_singleton.mpr neutral, ?_⟩
      rw [sendPacket_of_alive (congrArg Prod.fst up)]
      exact Party.ext rfl rfl (congrArg (List.map Message.ofPublish) handed) rfl
  | closes => simp [flags] at up

/-- Between packets a handler sends nothing that belongs to a flow. -/
theorem uses_of_own {action : Server.Action} {channel : MqttChannel}
    (own : OwnChannel config pool connection conn action channel)
    (unread : ∀ packet, action ≠ .read (.packet packet))
    (neutral : ∀ session packet, conn.main = .serving session (.responding packet) →
      Neutral packet) : Uses (pool.broker.channels connection) channel := by
  cases own with
  | same => exact .same
  | refusal | acceptance => exact .sends ⟨rfl, rfl⟩
  | response at_ => exact .sends (neutral _ _ at_)
  | closing => exact .closes
  | reading => exact absurd rfl (unread _)

/-- What a handler answers for the broker belongs to no flow. -/
theorem Responds.neutral {packet : Packet} (responds : Responds host connection)
    (at_ : (host.conns connection).main = .serving session (.responding packet)) :
    Neutral packet := by
  rcases responds session packet at_ with ⟨_, rfl⟩ | ⟨_, rfl⟩ <;> exact ⟨rfl, rfl⟩

theorem standing_dispatchLocal (reader : Reader) (packet : Packet) :
    standing (dispatchLocal reader packet).2.channel = standing reader.channel := by
  cases packet with
  | publish publish =>
      have acked := standing_ackInboundPublishPreChain reader.channel publish
      simp only [dispatchLocal]
      split <;> rename_i channel happened <;> rw [happened] at acked
      · split <;> exact acked
      · exact acked
  | pubrec id => exact (standing_sendPacket _ _).trans (standing_wake _ _ _ _)
  | pubrel id =>
      simp only [dispatchLocal]
      split
      · split
        · rename_i handed
          rw [Reader.handOn, Prod.mk.injEq] at handed
          rw [← handed.2]
          exact standing_sendPacket _ _
        · rename_i handed
          rw [Reader.handOn, Prod.mk.injEq] at handed
          rw [← handed.2]
          rfl
      · exact standing_sendPacket _ _
  | pingreq => exact standing_sendPacket _ _
  | puback id | pubcomp id => exact standing_wake _ _ _ _
  | connect _ | connack _ | subscribe _ | suback _ | unsubscribe _ | unsuback _ | pingresp
  | disconnect => rfl

theorem receiver_of_dispatchLocal {reader : Reader} {packet : Packet}
    (received : (dispatchLocal reader packet).2.queue.receiver = true) :
    reader.queue.receiver = true := by
  have grows := grows_dispatchLocal reader packet
  generalize (dispatchLocal reader packet).2.queue = queue at grows received
  cases grows with
  | same => exact received
  | handed receiver => exact receiver

theorem ServerUp.not_finish {outcome : Outcome MqttError Unit} :
    ¬ ServerUp (host.acted connection (conn.finish outcome) pool) connection := by
  intro up
  have underWay := up.underWay outcome
  rw [Host.conns_acted_self] at underWay
  exact underWay rfl

theorem serverParty_acted (host : Host) (connection : ConnectionId) (conn : Conn) (pool : Pool) :
    serverParty (host.acted connection conn pool) connection =
      .ofServer (pool.broker.channels connection) conn.queue := by
  rw [serverParty, Host.conns_acted_self, Host.pool_acted]

/-- A step of a connection between packets. -/
theorem serverUp_of_uses (up : ServerUp (host.acted connection result after) connection)
    (uses : Uses (host.pool.broker.channels connection) (after.broker.channels connection))
    (handed : result.queue.handed = (host.conns connection).queue.handed)
    (receiver : result.queue.receiver = (host.conns connection).queue.receiver)
    (underWay : ∀ outcome, (host.conns connection).main ≠ .returned outcome) :
    ServerUp host connection ∧
      serverCounter (host.acted connection result after) connection =
        serverCounter host connection ∧
      ∃ packets, (∀ packet ∈ packets, Neutral packet) ∧
        serverParty (host.acted connection result after) connection =
          (serverParty host connection).adds packets := by
  obtain ⟨kept, packets, neutral, party⟩ := uses.party up.flags handed
  refine ⟨⟨(congrArg Prod.fst kept).symm.trans up.flags, ?_, underWay⟩, congrArg Prod.snd kept,
    packets, neutral, (serverParty_acted _ _ _ _).trans party⟩
  have received := up.receiver
  rwa [Host.conns_acted_self, receiver] at received

theorem serverShows_of_uses {action : Server.Action}
    (up : ServerUp (host.acted connection result after) connection)
    (uses : Uses (host.pool.broker.channels connection) (after.broker.channels connection))
    (queue : result.queue.handed = (host.conns connection).queue.handed ∧
      result.queue.receiver = (host.conns connection).queue.receiver)
    (underWay : ∀ outcome, (host.conns connection).main ≠ .returned outcome)
    (other : ∀ packet, takes (.act connection action) ≠ some (connection, packet)) :
    ServerUp host connection ∧
      ServerShows host connection (.act connection action)
        (serverParty (host.acted connection result after) connection)
        (serverCounter (host.acted connection result after) connection) := by
  obtain ⟨before, counter, packets, neutral, party⟩ :=
    serverUp_of_uses up uses queue.1 queue.2 underWay
  rw [party, counter]
  exact ⟨before, .adds other (by simp) neutral⟩

/-- A handler reads in its loop. -/
theorem underWay_of_read {packet : Packet}
    (acts : Acts config pool connection conn (.read (.packet packet)) result after)
    (outcome : Outcome MqttError Unit) : conn.main ≠ .returned outcome := by
  cases acts with
  | failed _ fails => cases fails
  | left at_ | dispatched at_ | subscribe at_ | unsubscribe at_ => simp [at_]

/-- What a connection that goes on reads, it hears. -/
theorem serverShows_of_read {packet : Packet}
    (acts : Acts config host.pool connection (host.conns connection) (.read (.packet packet))
      result after)
    (up : ServerUp (host.acted connection result after) connection) :
    ServerUp host connection ∧
      serverCounter (host.acted connection result after) connection =
        serverCounter host connection ∧
      (serverParty host connection).Hears packet
        (serverParty (host.acted connection result after) connection) := by
  have channel := acts.channel_of_read
  have queue := acts.queue_of_read
  have kept := standing_dispatchLocal
    ⟨host.pool.broker.channels connection, (host.conns connection).queue⟩ packet
  have before : ServerUp host connection := by
    refine ⟨?_, ?_, underWay_of_read acts⟩
    · have flags := up.flags
      rw [Host.pool_acted, channel] at flags
      exact (congrArg Prod.fst kept).symm.trans flags
    · have received := up.receiver
      rw [Host.conns_acted_self, queue] at received
      exact receiver_of_dispatchLocal received
  have counter := congrArg Prod.snd kept
  rw [← channel] at counter
  refine ⟨before, counter, ?_⟩
  rw [serverParty_acted, channel, queue]
  exact hears_dispatchLocal (congrArg Prod.fst before.flags) before.receiver packet

/-- A step of a connection that goes on. -/
theorem serverShows_of_acts {action : Server.Action}
    (acts : Acts config host.pool connection (host.conns connection) action result after)
    (up : ServerUp (host.acted connection result after) connection)
    (responds : Responds host connection) :
    ServerUp host connection ∧
      ServerShows host connection (.act connection action)
        (serverParty (host.acted connection result after) connection)
        (serverCounter (host.acted connection result after) connection) := by
  by_cases reading : ∃ packet, action = .read (.packet packet)
  · obtain ⟨packet, rfl⟩ := reading
    obtain ⟨before, counter, hears⟩ := serverShows_of_read acts up
    rw [counter]
    exact ⟨before, .hears rfl hears⟩
  have unread := not_exists.mp reading
  have uses := uses_of_own acts.ownChannel unread fun _ _ => responds.neutral
  cases acts with
  | failed | refused | withdrawn | unregistered => exact absurd up ServerUp.not_finish
  | admitted at_ admitted =>
      obtain ⟨connect, rfl, _⟩ := eq_of_admitted admitted
      obtain ⟨before, counter, packets, neutral, party⟩ :=
        serverUp_of_uses up uses rfl rfl (by simp [at_])
      rw [counter]
      exact ⟨before, .hears rfl ⟨packets, neutral, party⟩⟩
  | dispatched | subscribe | unsubscribe => exact absurd rfl (unread _)
  | left at_ leaves =>
      cases leaves with
      | disconnected => exact absurd rfl (unread _)
      | noticed | woken | elapsed | lost | failed =>
          exact serverShows_of_uses up uses ⟨rfl, rfl⟩ (by simp [at_]) (by simp [takes])
  | crashed =>
      have received := up.receiver
      rw [Host.conns_acted_self] at received
      contradiction
  | registered at_ | accepted at_ | unanswered at_ | polled at_ | subscribed at_ | unsubscribed at_
  | responded at_ | dropped at_ | closed at_ | joined at_ | took at_ | drained at_ | fanned at_
  | suppressed at_ | published at_ =>
      exact serverShows_of_uses up uses ⟨rfl, rfl⟩ (by simp [at_]) (by simp [takes])

theorem takes_own {acting : ConnectionId} {action : Server.Action} {packet : Packet}
    (taken : takes (.act acting action) = some (connection, packet)) : acting = connection := by
  unfold takes at taken
  split at taken
  · rename_i same
    cases same
    exact congrArg Prod.fst (Option.some_inj.mp taken)
  · rename_i same
    cases same
    exact congrArg Prod.fst (Option.some_inj.mp taken)
  · contradiction

theorem flags_withCopy (channel : MqttChannel) (packet : PublishPacket) (subQos : QoS) :
    flags (withCopy channel packet subQos) = flags channel := by
  refine (flags_sendPacket _ _).trans ?_
  unfold numberCopy
  split <;> rfl

/-- A copy that the writer takes is a packet more, and may be a record more. -/
theorem ofServer_withCopy {channel used : MqttChannel} {packet : PublishPacket} {subQos : QoS}
    {target : ConnectionId} {queue : WorkQueue} (copied : used = withCopy channel packet subQos)
    (alive : channel.writerAlive = true) :
    Party.ofServer used queue =
      (Party.ofServer channel queue).publishes (copyOn channel ⟨packet, target, subQos⟩)
        (trackedOf (withCopy channel packet subQos)) := by
  subst copied
  obtain ⟨packetId, session, numbered, stash, _⟩ :=
    numberCopy_spec channel packet (min packet.qos subQos)
  have sent : (withCopy channel packet subQos).sent = channel.sent ++
      [.publish (adjusted packet (min packet.qos subQos) packetId)] := by
    simp only [withCopy, numbered, MqttChannel.sendPublish]
    have numberedAlive : { channel with session := session }.writerAlive = true := alive
    rw [sendPacket_of_alive numberedAlive]
  obtain ⟨_, _, _, kept⟩ := withCopy_spec channel packet subQos
  refine Party.ext ?_ ?_ rfl rfl
  · simp only [Party.publishes, copyOn, numbered]
    exact sent
  · funext id
    exact congrArg (fun table => (AList.lookup id table).map Message.ofIncoming) kept

/-- The step of a task that is at a copy. -/
theorem channel_of_copy {task : Task} {copy : PendingCopy} {request : Request} {call later : Call}
    {choice : Choice} {access : Access} (sends : copyOf pool task = some copy)
    (running : pool.calls.lookup task = some ⟨request, call⟩)
    (moved : call.step pool.broker choice = some (access, later)) :
    (pool.shared.apply access).broker.channels copy.target =
      withCopy (pool.broker.channels copy.target) copy.packet copy.subQos := by
  unfold copyOf at sends
  split at sends
  · rename_i publication _ target subQos _ _ found
    cases sends
    cases running.symm.trans found
    cases Call.moves_of_step moved with
    | enqueue =>
        simp only [Shared.apply, channels_enqueue]
        exact Function.update_self _ _ _
  · contradiction

/-- Every step of the host is a step of the party of a connection that goes on, unless
others use its channel. -/
theorem serverShows_of_step (stepped : host.step config event = some next)
    (up : ServerUp next connection) (answers : Responds host connection)
    (undisturbed : ∀ channel, event ≠ .environment connection channel) :
    ServerUp host connection ∧
      ServerShows host connection event (serverParty next connection)
        (serverCounter next connection) := by
  have untouched : next.conns connection = host.conns connection →
      next.pool.broker.channels connection = host.pool.broker.channels connection →
      (∀ packet, takes event ≠ some (connection, packet)) →
      (∀ task choice, event = .advance task choice →
        ∀ copy ∈ copyOf host.pool task, copy.target ≠ connection) →
      ServerUp host connection ∧
        ServerShows host connection event (serverParty next connection)
          (serverCounter next connection) := by
    intro conns channel other silent
    refine ⟨⟨channel ▸ up.flags, conns ▸ up.receiver, conns ▸ up.underWay⟩, ?_⟩
    have shows : ServerShows host connection event ((serverParty host connection).adds [])
        (serverCounter host connection) := .adds other silent (List.forall_mem_nil _)
    rw [Party.adds_nil] at shows
    rwa [serverParty, serverCounter, conns, channel]
  cases event with
  | act acting action =>
      obtain ⟨⟨result, after⟩, acted, rfl⟩ := Option.map_eq_some_iff.mp stepped
      have acts := acts_of_act acted
      rcases eq_or_ne connection acting with rfl | differs
      · exact serverShows_of_acts acts up answers
      · refine untouched (Host.conns_acted_of_ne _ _ _ differs)
          (acts.touches.channels_of_ne differs) ?_ (by simp)
        exact fun packet taken => differs (takes_own taken).symm
  | advance task choice =>
      obtain ⟨pool, advanced, rfl⟩ := Option.map_eq_some_iff.mp stepped
      have moves : host.pool.step (.advance task choice) = some pool := advanced
      cases Pool.steps_of_step moves with
      | advance running unblocked moved =>
          rename_i request call after access
          by_cases sends : ∃ copy, copyOf host.pool task = some copy ∧ copy.target = connection
          · obtain ⟨copy, sends, rfl⟩ := sends
            have copied := channel_of_copy sends running moved
            have kept : flags (host.pool.broker.channels copy.target) = (true, true) :=
              ((congrArg flags copied).trans (flags_withCopy _ _ _)).symm.trans up.flags
            refine ⟨⟨kept, up.receiver, up.underWay⟩, ?_⟩
            have copies := @ServerShows.copies host copy.target task choice _ sends rfl
            refine (congrArg₂ (ServerShows host copy.target _) ?_ ?_).mpr copies
            · exact ofServer_withCopy copied (congrArg Prod.fst kept)
            · exact congrArg (fun channel => channel.session.pktCounter) copied
          · rcases channel_apply host.pool.shared access connection with
              same | ⟨_, closed⟩ | ⟨publication, subQos, rfl, _⟩
            · refine untouched rfl same (by simp [takes]) ?_
              rintro _ _ ⟨⟩ copy mem target
              exact sends ⟨copy, mem, target⟩
            · have flags := up.flags.symm.trans (congrArg Network.flags closed)
              simp [Network.flags] at flags
            · cases Call.moves_of_step moved with
              | enqueue =>
                  have copied : copyOf host.pool task =
                      some ⟨publication.packet, connection, subQos⟩ := by
                    simp only [copyOf, running]
                  exact absurd ⟨_, copied, rfl⟩ sends
  | environment used channel =>
      cases stepped
      have differs : connection ≠ used := by
        rintro rfl
        exact undisturbed channel rfl
      exact untouched rfl (Function.update_of_ne differs _ _) (by simp [takes]) (by simp)

end Server

end HotaruMqtt.Network
