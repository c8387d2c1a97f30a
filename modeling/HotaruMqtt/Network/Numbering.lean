import HotaruMqtt.Network.System
import HotaruMqtt.PacketIds

/-!
# Identifiers in flight

Both ends number what they publish with a counter of 16 bits and never look whether an
identifier is still in use.  As long as no counter turns over this does no harm: what is
in flight bears numbers that the counter has passed, and the next one is larger.
-/

namespace HotaruMqtt.Network

open Exec Exec.Outcome Exec.Transition Inbound Broker

/-- The next identifier of a counter that does not turn over. -/
theorem toNat_next {session : MqttSession} (room : session.pktCounter ≠ 65535) :
    session.allocatePacketId.1.toNat = session.pktCounter.toNat + 1 ∧
      session.allocatePacketId.2.pktCounter.toNat = session.pktCounter.toNat + 1 := by
  have bound := session.pktCounter.toNat_lt
  have notLast : session.pktCounter.toNat ≠ 65535 := fun same =>
    room (UInt16.toNat_inj.mp same)
  have counter : session.allocatePacketId.2.pktCounter.toNat =
      (session.pktCounter.toNat + 1) % 65536 := UInt16.toNat_add _ _
  rw [MqttSession.toNat_allocatePacketId, MqttSession.idNumber, counter]
  split <;> omega

/-! ## The client's counter -/

/-- The last identifier that a client has given out. -/
def clientCounter (session : Client.Session) : UInt16 :=
  session.channel.session.pktCounter

/-- The identifier of a request that awaits the writer actor, if it is a publish above
QoS 0. -/
def heldId : Channel.MqttRequest × PacketId → Option PacketId
  | (.publish request, id) => flowId (requested request id)
  | _ => none

/-- What a step of a client does to its counter and to the requests it keeps. -/
inductive ClientCounts (session : Client.Session) :
    Client.Action → UInt16 → List (Channel.MqttRequest × PacketId) → Prop
  | keeps {action : Client.Action} (other : ∀ index, action ≠ .enqueue index) :
      ClientCounts session action (clientCounter session) session.outgoing
  | subscribes {connack : ConnackPacket} :
      ClientCounts session (.read (.packet (.connack connack)))
        session.channel.session.allocatePacketId.2.pktCounter session.outgoing
  | numbers {request : Channel.MqttRequest} :
      ClientCounts session (.request request)
        session.channel.session.allocatePacketId.2.pktCounter
        (session.outgoing ++ [(request, session.channel.session.allocatePacketId.1)])
  | lists {request : Channel.MqttRequest} (plain : heldId (request, 0) = none) :
      ClientCounts session (.request request) (clientCounter session)
        (session.outgoing ++ [(request, 0)])
  | takes {index : Nat} :
      ClientCounts session (.enqueue index) (clientCounter session)
        (session.outgoing.eraseIdx index)

section Client

open Client

variable {config : MqttClientConfig} {session next : Client.Session} {action : Client.Action}

/-- The counter and the requests that await the writer actor. -/
def books (session : Client.Session) : UInt16 × List (Channel.MqttRequest × PacketId) :=
  (clientCounter session, session.outgoing)

theorem ClientCounts.of_books_eq (same : books next = books session)
    (other : ∀ index, action ≠ .enqueue index) :
    ClientCounts session action (clientCounter next) next.outgoing := by
  obtain ⟨counter, outgoing⟩ := Prod.mk.inj same
  rw [counter, outgoing]
  exact .keeps other

theorem books_sent (session : Client.Session) (packet : Packet) :
    books (session.withChannel (session.channel.sendPacket packet).2) = books session := by
  have kept := congrArg Prod.snd (standing_sendPacket session.channel packet)
  exact congrArg (·, session.outgoing) kept

theorem pktCounter_close (channel : MqttChannel) :
    channel.close.session.pktCounter = channel.session.pktCounter := by
  unfold MqttChannel.close
  split <;> rfl

theorem books_leave (session : Client.Session) : books session.leave = books session :=
  books_sent session .disconnect

theorem books_dispatched {packet : Packet} {outcome : Outcome MqttError Bool}
    {connection : Connection}
    (dispatched : dispatchClientInbound session.connection packet = (outcome, connection))
    (phase : Phase) : books { session with connection, phase } = books session := by
  have kept := congrArg Prod.snd (standing_dispatchClientInbound session.connection packet)
  rw [dispatched] at kept
  exact congrArg (·, session.outgoing) kept

/-- A request that awaits nothing needs no identifier. -/
theorem heldId_of_plain {request : Channel.MqttRequest} (plain : request.awaits = none) :
    heldId (request, 0) = none := by
  cases request with
  | publish request =>
      cases level : request.qos <;> simp [Channel.MqttRequest.awaits, level] at plain
      simp [heldId, flowId, requested, level]
  | subscribe filters | unsubscribe topics => rfl

theorem books_handOver (session : Client.Session) (cmd : Channel.WriteCmd) :
    books (session.handOver cmd) = books session := by
  cases cmd with
  | packet packet | publish publish => exact books_sent session _
  | flush | shutdown => rfl

theorem clientCounts_of_step (stepped : session.step config action = some next) :
    ClientCounts session action (clientCounter next) next.outgoing := by
  cases Client.Session.steps_of_step stepped with
  | ended ends => exact .keeps (by cases ends <;> simp)
  | parted parts => exact .of_books_eq (books_leave session) (by cases parts <;> simp)
  | connected | pinged => exact .of_books_eq (books_sent session _) (by simp)
  | subscribed =>
      have kept := congrArg Prod.snd (standing_sendPacket session.numbered (.subscribe
        (Client.Session.initialSubscribe config session.channel.session.allocatePacketId.1)))
      exact (congrArg (ClientCounts session _ · _) kept).mpr .subscribes
  | unsubscribed => exact .subscribes
  | @dispatched _ _ _ dispatched | @broken _ _ _ _ dispatched | @panicked _ _ _ _ dispatched =>
      exact .of_books_eq (books_dispatched dispatched _) (by simp)
  | @disconnected _ _ _ dispatched =>
      exact .of_books_eq ((books_leave _).trans (books_dispatched dispatched session.phase))
        (by simp)
  | closed =>
      exact .of_books_eq (congrArg (·, session.outgoing) (pktCounter_close session.channel))
        (by simp)
  | polled | greeted | exited | awaited | cancelled => exact .keeps (by simp)
  | listed plain => exact .lists (heldId_of_plain plain)
  | parked => exact .numbers
  | @enqueued index request id _ =>
      obtain ⟨counter, outgoing⟩ := Prod.mk.inj (books_handOver
        { session with outgoing := session.outgoing.eraseIdx index } (request.command id))
      rw [counter, outgoing]
      exact .takes

/-- The identifiers in use and those of the requests still to be sent have all been
allocated, and no two of the latter nor one of each are the same. -/
structure Booked (counter : UInt16) (outgoing : List (Channel.MqttRequest × PacketId))
    (inUse : List PacketId) : Prop where
  used : ∀ id ∈ inUse, id.toNat ≤ counter.toNat
  listed : ∀ id ∈ outgoing.filterMap heldId, id.toNat ≤ counter.toNat ∧ id ∉ inUse
  distinct : (outgoing.filterMap heldId).Nodup

/-- An action that allocates an identifier. -/
def allocates : Client.Action → Bool
  | .request _ => true
  | .read (.packet (.connack _)) => true
  | _ => false

theorem heldId_eq_some {request : Channel.MqttRequest} {id held : PacketId}
    (found : heldId (request, id) = some held) : held = id := by
  cases request with
  | publish request =>
      by_cases level : request.qos = .atMostOnce
      · simp [heldId, flowId, level, requested] at found
      · simpa [heldId, flowId, level, requested, eq_comm] using found
  | subscribe filters | unsubscribe topics => contradiction

/-- What was taken out of a list without repetitions is not in it any more. -/
theorem notMem_eraseIdx {α β : Type*} {items : List α} {f : α → Option β} {index : Nat} {item : α}
    {value : β} (distinct : (items.filterMap f).Nodup) (listed : items[index]? = some item)
    (found : f item = some value) : value ∉ (items.eraseIdx index).filterMap f := by
  obtain ⟨bound, rfl⟩ := List.getElem?_eq_some_iff.mp listed
  have split : items = items.take index ++ items[index] :: items.drop (index + 1) := by
    rw [List.cons_getElem_drop_succ, List.take_append_drop]
  rw [split, List.filterMap_append, List.filterMap_cons_some found,
    List.nodup_middle, List.nodup_cons] at distinct
  rw [List.eraseIdx_eq_take_drop_succ, List.filterMap_append]
  exact distinct.1

section Booked

variable {counter larger : UInt16} {outgoing : List (Channel.MqttRequest × PacketId)}
  {inUse after : List PacketId}

theorem Booked.mono (booked : Booked counter outgoing inUse)
    (grown : counter.toNat ≤ larger.toNat) (kept : ∀ id ∈ after, id ∈ inUse) :
    Booked larger outgoing after where
  used id mem := (booked.used id (kept id mem)).trans grown
  listed id mem := (booked.listed id mem).imp (·.trans grown) fun fresh mem => fresh (kept id mem)
  distinct := booked.distinct

theorem Booked.lists (booked : Booked counter outgoing inUse) {request : Channel.MqttRequest}
    {id : PacketId} (fresh : counter.toNat < id.toNat) (bound : id.toNat ≤ larger.toNat) :
    Booked larger (outgoing ++ [(request, id)]) inUse := by
  have grown : counter.toNat ≤ larger.toNat := fresh.le.trans bound
  have new : ∀ other ∈ [(request, id)].filterMap heldId, other = id := by
    intro other mem
    obtain ⟨entry, listed, found⟩ := List.mem_filterMap.mp mem
    rw [List.mem_singleton.mp listed] at found
    exact heldId_eq_some found
  refine ⟨fun other mem => (booked.used other mem).trans grown, fun other mem => ?_, ?_⟩
  · rw [List.filterMap_append, List.mem_append] at mem
    rcases mem with before | added
    · exact (booked.listed other before).imp_left (·.trans grown)
    · obtain rfl := new other added
      exact ⟨bound, fun used => (booked.used other used).not_gt fresh⟩
  · rw [List.filterMap_append]
    refine List.Nodup.append booked.distinct ?_ fun other before added => ?_
    · cases found : heldId (request, id) <;> simp [found]
    · obtain rfl := new other added
      exact (booked.listed other before).1.not_gt fresh

/-- A step keeps the books if the only identifier it brings into use is that of the request
it takes out of the list. -/
theorem Booked.step (booked : Booked (clientCounter session) session.outgoing inUse)
    (counts : ClientCounts session action counter outgoing)
    (room : allocates action = true → clientCounter session ≠ 65535)
    (grows : ∀ id ∈ after, id ∈ inUse ∨ ∃ index entry, action = .enqueue index ∧
      session.outgoing[index]? = some entry ∧ heldId entry = some id) :
    Booked counter outgoing after := by
  have remain : (∀ index, action ≠ .enqueue index) → ∀ id ∈ after, id ∈ inUse := by
    intro other id mem
    rcases grows id mem with before | ⟨index, _, same, _⟩
    · exact before
    · exact absurd same (other index)
  cases counts with
  | keeps other => exact booked.mono le_rfl (remain other)
  | subscribes => exact booked.mono ((toNat_next (room rfl)).2 ▸ Nat.le_succ _) (remain (by simp))
  | numbers =>
      obtain ⟨next, larger⟩ := toNat_next (room rfl)
      exact (booked.mono le_rfl (remain (by simp))).lists (by simp [next, clientCounter]) (by omega)
  | @lists request plain =>
      have same : (session.outgoing ++ [(request, 0)]).filterMap heldId =
          session.outgoing.filterMap heldId := by
        simp [plain]
      have kept := booked.mono le_rfl (remain (by simp))
      exact ⟨kept.used, same ▸ kept.listed, same ▸ kept.distinct⟩
  | @takes index =>
      have fewer := (List.eraseIdx_sublist session.outgoing index).filterMap heldId
      refine ⟨fun id mem => ?_, fun id mem => ?_, booked.distinct.sublist fewer⟩
      · rcases grows id mem with before | ⟨_, entry, _, listed, found⟩
        · exact booked.used id before
        · have mem := List.mem_filterMap.mpr ⟨entry, List.mem_of_getElem? listed, found⟩
          exact (booked.listed id mem).1
      · obtain ⟨bound, fresh⟩ := booked.listed id (fewer.subset mem)
        refine ⟨bound, fun used => ?_⟩
        rcases grows id used with before | ⟨_, entry, same, listed, found⟩
        · exact fresh before
        · cases same
          exact notMem_eraseIdx booked.distinct listed found mem

end Booked

end Client

/-! ## Both counters -/

namespace System

variable {config : Config} {system next : System} {event : Event} {connection : ConnectionId}

/-- No identifier is allocated on a connection by a counter that turns over at that, and
nobody else uses the server's channel. -/
def Unwrapped (connection : ConnectionId) (system : System) : Event → Prop
  | .server (.advance task _) =>
      ∀ copy ∈ Server.copyOf system.host.pool task, copy.target = connection →
        .atMostOnce < min copy.packet.qos copy.subQos →
          serverCounter system.host connection ≠ 65535
  | .server (.environment used _) => used ≠ connection
  | .server (.act _ _) => True
  | .client acting action =>
      acting = connection → allocates action = true →
        clientCounter (system.clients connection) ≠ 65535

instance (connection : ConnectionId) (system : System) :
    (event : Event) → Decidable (Unwrapped connection system event)
  | .server (.advance task _) =>
      inferInstanceAs (Decidable (∀ copy ∈ Server.copyOf system.host.pool task,
        copy.target = connection → .atMostOnce < min copy.packet.qos copy.subQos →
          serverCounter system.host connection ≠ 65535))
  | .server (.environment used _) => inferInstanceAs (Decidable (used ≠ connection))
  | .server (.act _ _) => inferInstanceAs (Decidable True)
  | .client acting action =>
      inferInstanceAs (Decidable (acting = connection → allocates action = true →
        clientCounter (system.clients connection) ≠ 65535))

/-- Everything in flight on a connection was numbered before, and what the client has still
to send is numbered apart from it. -/
structure Numbered (connection : ConnectionId) (system : System) : Prop where
  down : ∀ id ∈ (system.talk connection).downlink.inUse,
    id.toNat ≤ (serverCounter system.host connection).toNat
  up : Booked (clientCounter (system.clients connection)) (system.clients connection).outgoing
    (system.talk connection).uplink.inUse

/-- The PUBLISH that a client sends is that of a request it has listed. -/
theorem listed_of_sendsUp {publish : PublishPacket}
    (sends : sendsUp system connection event = some publish) :
    ∃ index request id, event = .client connection (.enqueue index) ∧
      (system.clients connection).outgoing[index]? = some (.publish request, id) ∧
      publish = requested request id := by
  unfold sendsUp at sends
  split at sends
  · rename_i acting index
    split at sends
    · rename_i request id listed
      split at sends
      · rename_i same
        exact ⟨index, request, id, same ▸ rfl, listed, (Option.some_inj.mp sends).symm⟩
      · contradiction
    · contradiction
  · contradiction

/-- The PUBLISH that is sent on a server's channel that nobody else uses is a copy. -/
theorem copy_of_sendsDown {publish : PublishPacket}
    (unwrapped : Unwrapped connection system event)
    (sends : sendsDown system connection event = some publish) :
    ∃ task choice copy, event = .server (.advance task choice) ∧
      Server.copyOf system.host.pool task = some copy ∧ copy.target = connection ∧
      publish = copyOn (system.channel connection) copy := by
  unfold sendsDown at sends
  split at sends
  · rename_i task choice
    split at sends
    · rename_i copy found
      split at sends
      · rename_i same
        exact ⟨task, choice, copy, rfl, found, same, (Option.some_inj.mp sends).symm⟩
      · contradiction
    · contradiction
  · rw [if_neg unwrapped] at sends
    contradiction
  · contradiction

/-- A copy with an identifier is one above QoS 0. -/
theorem above_of_flowId {channel : MqttChannel} {copy : Server.PendingCopy} {id : PacketId}
    (found : flowId (copyOn channel copy) = some id) :
    .atMostOnce < min copy.packet.qos copy.subQos ∧ id = channel.session.allocatePacketId.1 := by
  by_cases above : .atMostOnce < min copy.packet.qos copy.subQos
  · rw [flowId_copyOn above] at found
    exact ⟨above, (Option.some_inj.mp found).symm⟩
  · simp only [flowId, copyOn, adjusted, numberCopy, if_neg above, ite_self] at found
    contradiction

theorem apart_of_numbered (numbered : system.Up connection → Numbered connection system)
    (unwrapped : Unwrapped connection system event) : Apart connection system event where
  up := by
    intro up publish sends
    obtain ⟨index, request, id, _, listed, rfl⟩ := listed_of_sendsUp sends
    refine ⟨fun isHeld => ?_, fun used found => ?_⟩
    · have level : request.qos = .exactlyOnce := of_decide_eq_true isHeld
      simp [flowId, requested, level]
    · refine ((numbered up).up.listed used ?_).2
      exact List.mem_filterMap.mpr ⟨_, List.mem_of_getElem? listed, found⟩
  down := by
    intro up publish sends
    obtain ⟨task, choice, copy, rfl, found, target, rfl⟩ := copy_of_sendsDown unwrapped sends
    refine ⟨fun isHeld => ?_, fun used named mem => ?_⟩
    · have level : min copy.packet.qos copy.subQos = .exactlyOnce := of_decide_eq_true isHeld
      rw [flowId_copyOn (by rw [level]; decide)]
      rfl
    · obtain ⟨above, rfl⟩ := above_of_flowId named
      have bound := (numbered up).down _ mem
      have next := (toNat_next (unwrapped copy found target above)).1
      have same : serverCounter system.host connection =
        (system.channel connection).session.pktCounter := rfl
      rw [same] at bound
      exact absurd (next ▸ bound) (Nat.not_succ_le_self _)
  borrowed := by
    rintro channel rfl
    exact absurd rfl unwrapped

theorem pktCounter_withCopy (channel : MqttChannel) (copy : Server.PendingCopy) :
    (withCopy channel copy.packet copy.subQos).session.pktCounter =
      if .atMostOnce < min copy.packet.qos copy.subQos then
        channel.session.allocatePacketId.2.pktCounter
      else
        channel.session.pktCounter := by
  simp only [withCopy, MqttChannel.sendPublish, Server.session_sendPacket, numberCopy]
  split <;> rfl

/-- The server's counter only grows, and has reached the identifier of a copy that is
sent. -/
theorem serverCounter_of_host {event : Server.Event} {host : Server.Host}
    (moved : system.host.step config.server event = some host) (up : ServerUp host connection)
    (answers : Responds system.host connection)
    (unwrapped : Unwrapped connection system (.server event)) :
    (serverCounter system.host connection).toNat ≤ (serverCounter host connection).toNat ∧
      ∀ publish ∈ sendsDown system connection (.server event), ∀ id ∈ flowId publish,
        id.toNat ≤ (serverCounter host connection).toNat := by
  have undisturbed : ∀ channel, event ≠ .environment connection channel := by
    rintro channel rfl
    exact unwrapped rfl
  obtain ⟨_, shows⟩ := serverShows_of_step moved up answers undisturbed
  generalize serverParty host connection = party at shows
  generalize serverCounter host connection = counter at shows
  cases shows with
  | hears taken =>
      refine ⟨le_rfl, fun publish sends => ?_⟩
      obtain ⟨_, _, _, same, _⟩ := copy_of_sendsDown unwrapped sends
      cases same
      contradiction
  | adds _ silent =>
      refine ⟨le_rfl, fun publish sends => ?_⟩
      obtain ⟨task, choice, copy, same, found, target, _⟩ := copy_of_sendsDown unwrapped sends
      cases same
      exact absurd target (silent task choice rfl copy found)
  | @copies task choice copy found target =>
      rw [pktCounter_withCopy]
      refine ⟨?_, fun publish sends id named => ?_⟩
      · split
        · rename_i above
          exact (toNat_next (unwrapped copy found target above)).2 ▸ Nat.le_succ _
        · exact le_rfl
      · obtain ⟨_, _, other, same, listed, _, rfl⟩ := copy_of_sendsDown unwrapped sends
        cases same
        cases found.symm.trans listed
        obtain ⟨above, rfl⟩ := above_of_flowId named
        obtain ⟨number, counter⟩ := toNat_next (unwrapped copy found target above)
        rw [if_pos above]
        exact (number.trans counter.symm).le

theorem down_of_step (stepped : system.step config event = some next)
    (up : next.Up connection) (answers : Responds system.host connection)
    (unwrapped : Unwrapped connection system event) :
    (serverCounter system.host connection).toNat ≤ (serverCounter next.host connection).toNat ∧
      ∀ publish ∈ sendsDown system connection event, ∀ id ∈ flowId publish,
        id.toNat ≤ (serverCounter next.host connection).toNat := by
  cases steps_of_step stepped with
  | serverRuns moved | serverReads moved =>
      exact serverCounter_of_host moved up.server answers unwrapped
  | clientRuns | clientReads => exact ⟨le_rfl, by simp [sendsDown]⟩

/-- The client's books after a step. -/
theorem up_of_step (stepped : system.step config event = some next)
    (unwrapped : Unwrapped connection system event)
    {inUse : List PacketId}
    (booked : Booked (clientCounter (system.clients connection))
      (system.clients connection).outgoing (system.talk connection).uplink.inUse)
    (grows : ∀ id ∈ inUse, id ∈ (system.talk connection).uplink.inUse ∨
      ∃ publish ∈ sendsUp system connection event, flowId publish = some id) :
    Booked (clientCounter (next.clients connection)) (next.clients connection).outgoing inUse := by
  have stays : sendsUp system connection event = none →
      next.clients connection = system.clients connection →
      Booked (clientCounter (next.clients connection)) (next.clients connection).outgoing
        inUse := by
    intro silent same
    rw [same]
    refine booked.mono le_rfl fun id mem => (grows id mem).resolve_right ?_
    simp [silent]
  have acts : ∀ action session, event = .client connection action →
      (system.clients connection).step (config.clients connection) action = some session →
      Booked (clientCounter session) session.outgoing inUse := by
    rintro action session rfl moved
    refine booked.step (clientCounts_of_step moved) (unwrapped rfl) fun id mem => ?_
    refine (grows id mem).imp_right ?_
    rintro ⟨publish, sends, named⟩
    obtain ⟨index, request, other, same, listed, rfl⟩ := listed_of_sendsUp sends
    cases same
    exact ⟨index, _, rfl, listed, named⟩
  have others : ∀ acting action, event = .client acting action → connection ≠ acting →
      sendsUp system connection event = none := by
    rintro acting action rfl differs
    refine Option.eq_none_iff_forall_ne_some.mpr fun publish sends => ?_
    obtain ⟨_, _, _, same, _⟩ := listed_of_sendsUp sends
    cases same
    exact differs rfl
  cases steps_of_step stepped with
  | serverRuns | serverReads => exact stays rfl rfl
  | @clientRuns acting action session moved _ | @clientReads acting packet session moved _ =>
      rcases eq_or_ne connection acting with rfl | differs
      · simp only [Function.update_self]
        exact acts _ _ rfl moved
      · exact stays (others _ _ rfl differs) (Function.update_of_ne differs _ _)

/-- The flows are sound and the numbers apart. -/
def Kept (connection : ConnectionId) (system : System) : Prop :=
  Carried connection system ∧ (system.Up connection → Numbered connection system)

theorem preserves_kept (config : Config) (connection : ConnectionId) :
    Preserves (step config) (Unwrapped connection) (Kept connection) := by
  rintro system event next ⟨carried, numbered⟩ unwrapped stepped
  have apart := apart_of_numbered numbered unwrapped
  refine ⟨preserves_carried config connection carried apart stepped, fun up => ?_⟩
  obtain ⟨before, ups, downs, moves, sendsUp, sendsDown⟩ :=
    movesBy_of_step stepped up carried.answers apart
  have sound := carried.sound before
  obtain ⟨down, booked⟩ := numbered before
  obtain ⟨grown, reached⟩ := down_of_step stepped up carried.answers unwrapped
  refine ⟨fun id mem => ?_, up_of_step stepped unwrapped booked fun id mem => ?_⟩
  · rcases moves.mem_downlink sound mem with old | ⟨publish, sent, named⟩
    · exact (down id old).trans grown
    · exact reached publish (sendsDown publish sent) id named
  · refine (moves.mem_uplink sound mem).imp_right ?_
    rintro ⟨publish, sent, named⟩
    exact ⟨publish, sendsUp publish sent, named⟩

theorem kept_new (connection : ConnectionId) : Kept connection new := by
  refine ⟨carried_new connection, fun _ => ⟨by rintro _ ⟨⟩, by rintro _ ⟨⟩, by rintro _ ⟨⟩, .nil⟩⟩

/-- A run in which no counter of a connection turns over keeps its flows apart. -/
theorem apart_of_run {events : List Event}
    (run : Run (step config) (Unwrapped connection) new events system) :
    Run (step config) (Apart connection) new events system :=
  run.mono_of_invariant (preserves_kept config connection) (kept_new connection)
    fun _ _ kept unwrapped => apart_of_numbered kept.2 unwrapped

end System

end HotaruMqtt.Network
