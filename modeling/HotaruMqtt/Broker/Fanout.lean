import HotaruMqtt.Broker.Operations

/-!
# What a publish sends

The fan-out loop of `publish` sends one copy for each listed subscription that
leads to a channel, in the order of the list.  Read per channel: the copies a
connection is offered are those of the subscriptions that lead to it.
-/

namespace HotaruMqtt.Broker

open Exec Exec.Outcome Topic

/-- A listed subscription leads to the connection: it is not the source's own,
and its client is registered with that connection. -/
def LeadsTo (broker : Broker) (source : ClientId) (connection : ConnectionId)
    (sub : ClientId × QoS) : Prop :=
  sub.1 ≠ source ∧
    (broker.sessions.lookup sub.1).map SubscriberEntry.connection = some connection

instance (broker : Broker) (source : ClientId) (connection : ConnectionId) :
    DecidablePred (LeadsTo broker source connection) :=
  fun _ => inferInstanceAs (Decidable (_ ∧ _))

/-- What is added to a channel's queue when packets are offered to it. -/
def taken (channel : MqttChannel) (offered : List PublishPacket) : List Packet :=
  if channel.writerAlive then offered.map .publish else []

theorem taken_append (channel : MqttChannel) (first second : List PublishPacket) :
    taken channel (first ++ second) = taken channel first ++ taken channel second := by
  unfold taken
  split
  · exact List.map_append
  · rfl

variable {broker : Broker} {origin : Origin} {source : ClientId} {packet : PublishPacket}

/-- The broker after a fan-out over a list of subscriptions: each channel is
offered the copies of those that lead to its connection. -/
structure FannedOut (broker : Broker) (source : ClientId) (packet : PublishPacket)
    (subs : List (ClientId × QoS)) (after : Broker) : Prop extends OnlySends broker after where
  offers : ∀ connection, ∃ offered,
    List.Forall₂ (fun sub copy => Copy packet sub.2 copy)
      (subs.filter (LeadsTo broker source connection)) offered ∧
    (after.channels connection).sent =
      (broker.channels connection).sent ++ taken (broker.channels connection) offered

/-- A pass over a subscription that leads nowhere. -/
theorem FannedOut.skip {sub : ClientId × QoS}
    (nowhere : ∀ connection, ¬ LeadsTo broker source connection sub) :
    FannedOut broker source packet [sub] broker := by
  refine ⟨.refl broker, fun connection => ⟨[], ?_, ?_⟩⟩
  · rw [List.filter_singleton, decide_eq_false (nowhere connection)]
    exact .nil
  · simp [taken]

/-- One pass offers one copy where the subscription leads, and nothing elsewhere. -/
theorem fannedOut_deliver (sub : ClientId × QoS) :
    FannedOut broker source packet [sub] (deliver origin source packet broker sub) := by
  unfold deliver
  split
  · rename_i own
    exact .skip fun _ leads => leads.1 own
  · rename_i foreign
    cases found : broker.sessions.lookup sub.1 with
    | none => exact .skip fun _ leads => by simp [LeadsTo, found] at leads
    | some entry =>
        have enqueued := enqueued_enqueue broker origin packet entry.connection sub.2
        rcases enqueued.copied with ⟨copy, isCopy, sent, _⟩
        refine ⟨enqueued.toOnlySends, fun connection => ?_⟩
        by_cases here : connection = entry.connection
        · refine ⟨[copy], ?_, ?_⟩
          · have leads : LeadsTo broker source connection sub := ⟨foreign, by simp [found, here]⟩
            rw [List.filter_singleton, decide_eq_true leads]
            exact .cons isCopy .nil
          · rw [sent connection, taken, here]
            simp
        · refine ⟨[], ?_, ?_⟩
          · have elsewhere : ¬ LeadsTo broker source connection sub := fun leads =>
              here (by simpa [found, eq_comm] using leads.2)
            rw [List.filter_singleton, decide_eq_false elsewhere]
            exact .nil
          · simp [sent connection, taken, here]

theorem FannedOut.append {middle after : Broker} {first second : List (ClientId × QoS)}
    (before : FannedOut broker source packet first middle)
    (next : FannedOut middle source packet second after) :
    FannedOut broker source packet (first ++ second) after := by
  refine ⟨before.toOnlySends.trans next.toOnlySends, fun connection => ?_⟩
  rcases before.offers connection with ⟨offeredFirst, copiesFirst, sentFirst⟩
  rcases next.offers connection with ⟨offeredSecond, copiesSecond, sentSecond⟩
  have sameLeads : LeadsTo middle source connection = LeadsTo broker source connection := by
    funext sub
    simp only [LeadsTo, before.sessions]
  refine ⟨offeredFirst ++ offeredSecond, ?_, ?_⟩
  · rw [List.filter_append]
    simp only [sameLeads] at copiesSecond
    exact List.rel_append copiesFirst copiesSecond
  · have sameTaken : taken (middle.channels connection) = taken (broker.channels connection) := by
      funext offered
      simp only [taken, before.writerAlive connection]
    rw [sentSecond, sentFirst, sameTaken, taken_append, List.append_assoc]

/-- The whole loop. -/
theorem fannedOut_foldl (broker : Broker) (origin : Origin) (source : ClientId)
    (packet : PublishPacket) (subs : List (ClientId × QoS)) :
    FannedOut broker source packet subs (subs.foldl (deliver origin source packet) broker) := by
  induction subs generalizing broker with
  | nil => exact ⟨.refl broker, fun _ => ⟨[], .nil, by simp [taken]⟩⟩
  | cons sub subs ih => exact (fannedOut_deliver sub).append (ih _)

/-! ## The whole publish -/

/-- After a publish only the log of publications and the channels differ, and each
channel is offered the copies of an arrangement of the snapshot. -/
structure Published (broker : Broker) (origin : Origin) (source : ClientId)
    (packet : PublishPacket) (after : Broker) : Prop where
  publications : after.publications = broker.publications ++ [⟨origin, source, packet⟩]
  fannedOut : ∃ subs : List (ClientId × QoS),
    subs.Perm (broker.subscriptions.matching packet.topic) ∧
      FannedOut (broker.announce origin source packet) source packet subs after

theorem published_publish (broker : Broker) (order : IterationOrder) (origin : Origin)
    (source : ClientId) (packet : PublishPacket) :
    Published broker origin source packet (broker.publish order origin source packet) := by
  have loop := fannedOut_foldl (broker.announce origin source packet) origin source packet
    (order.arrange (broker.subscriptions.matching packet.topic))
  exact ⟨loop.publications, _, order.perm _, loop⟩

/-! ## What publishing leaves alone -/

/-- Neither table has changed. -/
structure SameTables (broker after : Broker) : Prop where
  sessions : after.sessions = broker.sessions
  subscriptions : after.subscriptions = broker.subscriptions

theorem sameTables_publish (broker : Broker) (order : IterationOrder) (origin : Origin)
    (source : ClientId) (packet : PublishPacket) :
    SameTables broker (broker.publish order origin source packet) := by
  rcases (published_publish broker order origin source packet).fannedOut with
    ⟨subs, _, fannedOut⟩
  exact ⟨fannedOut.sessions, fannedOut.subscriptions⟩

theorem sameTables_publishWill (broker : Broker) (order : IterationOrder)
    (connection : ConnectionId) (will : Option WillMessage) :
    SameTables broker (broker.publishWill order connection will) := by
  cases will with
  | none => exact ⟨rfl, rfl⟩
  | some will => exact sameTables_publish broker order _ _ _

theorem sameTables_takeOver (broker : Broker) (order : IterationOrder)
    (existing : Option SubscriberEntry) :
    SameTables broker (broker.takeOver order existing) := by
  cases existing with
  | none => exact ⟨rfl, rfl⟩
  | some previous =>
      have published := sameTables_publishWill (broker.closeChannel previous.connection) order
        previous.connection previous.will
      exact ⟨published.sessions, published.subscriptions⟩

end HotaruMqtt.Broker
