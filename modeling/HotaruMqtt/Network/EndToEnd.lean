import HotaruMqtt.Network.Provenance

/-!
# From one client to another

What the handlers of a subscriber are given comes, in the order of its kind, from the log of
copies that the broker keeps.  A copy of a publisher's message bears the index under which
the publisher's reader handed the message on, and the messages of a kind are handed on in
the order in which they were published.  So the messages of one kind come through in the
order of their publisher, over two connections, the work queue and the fan-out.

A message can come more than once, since each subscription that matches its topic yields a
copy; so along what the subscriber sees the places in the publisher's order never decrease.
-/

namespace HotaruMqtt.Network

open Exec Exec.Outcome Exec.Transition Inbound Broker

/-! ## What is handed to the writers -/

section Server

open Server

variable {config : Server.Config} {host next : Host} {event : Server.Event}
  {connection : ConnectionId}

/-- The copies that the writer of a connection was handed. -/
def copiesTo (host : Host) (connection : ConnectionId) : List Delivery :=
  host.pool.broker.deliveries.filter fun delivery => delivery.target = connection

/-- The message of a copy. -/
def Delivery.message (delivery : Delivery) : Message :=
  .ofPublish delivery.packet

/-- Those of one kind. -/
def copiesOf (held : Bool) (host : Host) (connection : ConnectionId) : List Delivery :=
  (copiesTo host connection).filter fun copy => heldBack (Delivery.message copy) = held

theorem copiesOf_sublist (held : Bool) (host : Host) (connection : ConnectionId) :
    (copiesOf held host connection).Sublist host.pool.broker.deliveries :=
  List.filter_sublist.trans List.filter_sublist

/-- What is published on each channel is what the log says. -/
structure Logged (host : Host) : Prop where
  responds : ∀ connection, Responds host connection
  sent : ∀ connection, (host.pool.broker.channels connection).sent.filterMap offeredBy =
    (copiesTo host connection).map Delivery.message

theorem logged_new : Logged (.new fun _ => .new) where
  responds _ := by simp [Responds, Host.new, Conn.new]
  sent _ := rfl

/-- An action of a connection publishes nothing itself. -/
theorem offered_of_act {acting : ConnectionId} {action : Server.Action}
    (responds : Responds host connection)
    (stepped : host.step config (.act acting action) = some next) :
    (next.pool.broker.channels connection).sent.filterMap offeredBy =
      (host.pool.broker.channels connection).sent.filterMap offeredBy := by
  obtain ⟨more, grown, allowed⟩ := (sends_of_step stepped (by simp)).adds
  have silent : more.filterMap offeredBy = [] := by
    refine List.filterMap_eq_nil_iff.mpr fun packet listed => ?_
    have outgoing := allowed packet listed
    cases packet with
    | publish publish =>
        obtain ⟨_, _, _, other, _⟩ := copy_of_outgoing responds outgoing
        contradiction
    | _ => rfl
  rw [grown, List.filterMap_append, silent, List.append_nil]

theorem copiesTo_of_act {acting : ConnectionId} {action : Server.Action}
    (stepped : host.step config (.act acting action) = some next) :
    copiesTo next connection = copiesTo host connection := by
  obtain ⟨⟨result, pool⟩, acted, rfl⟩ := Option.map_eq_some_iff.mp stepped
  have deliveries : pool.broker.deliveries = host.pool.broker.deliveries := by
    cases (acts_of_act acted).touches <;> rfl
  exact congrArg (List.filter _) deliveries

/-- A copy is logged just when the writer of its target takes it. -/
theorem offered_apply (shared : Shared) (access : Access) (connection : ConnectionId)
    (logged : (shared.broker.channels connection).sent.filterMap offeredBy =
      (shared.broker.deliveries.filter fun delivery => delivery.target = connection).map
        Delivery.message) :
    ((shared.apply access).broker.channels connection).sent.filterMap offeredBy =
      ((shared.apply access).broker.deliveries.filter fun delivery =>
        delivery.target = connection).map Delivery.message := by
  cases access with
  | deliver publication target subQos =>
      obtain ⟨copy, _, sent, deliveries⟩ := (enqueued_enqueue shared.broker publication.origin
        publication.packet target subQos).copied
      rw [Shared.apply, sent connection, deliveries]
      by_cases alive : (shared.broker.channels target).writerAlive
      · by_cases same : connection = target
        · subst same
          simp [alive, logged, offeredBy, Delivery.message]
        · simp [same, Ne.symm same, alive, logged]
      · simp [alive, logged]
  | close closed =>
      have sent : ((shared.apply (.close closed)).broker.channels connection).sent =
          (shared.broker.channels connection).sent := by
        rcases channel_apply shared (.close closed) connection with
          same | ⟨_, isClosed⟩ | ⟨_, _, other, _⟩
        · rw [same]
        · rw [isClosed, MqttChannel.sent_close]
        · contradiction
      rw [sent]
      exact logged
  | record | forget =>
      simp only [Shared.apply, (onlyTables_withFilters _ _ _).channels,
        (onlyTables_withFilters _ _ _).deliveries]
      exact logged
  | look | take | store | openFilter | link | unlink | announce => exact logged

theorem Logged.step (logged : Logged host) (stepped : host.step config event = some next)
    (undisturbed : ∀ connection channel, event ≠ .environment connection channel) :
    Logged next where
  responds connection := System.responds_of_step stepped (logged.responds connection)
  sent connection := by
    have before := logged.sent connection
    cases event with
    | act acting action =>
        rw [offered_of_act (logged.responds connection) stepped, copiesTo_of_act stepped]
        exact before
    | advance task choice =>
        obtain ⟨pool, advanced, rfl⟩ := Option.map_eq_some_iff.mp stepped
        have moves : host.pool.step (.advance task choice) = some pool := advanced
        cases Pool.steps_of_step moves with
        | advance running unblocked moved =>
            exact offered_apply host.pool.shared _ connection before
    | environment used channel => exact absurd rfl (undisturbed used channel)

end Server

/-! ## Places in an order -/

/-- The messages of one kind. -/
def ofKind (held : Bool) (messages : List Message) : List Message :=
  messages.filter fun message => heldBack message = held

/-- The place of a message among those of a kind. -/
def rankOf (held : Bool) (messages : List Message) (index : Nat) : Nat :=
  (ofKind held (messages.take index)).length

theorem rankOf_mono {held : Bool} {messages : List Message} {first second : Nat}
    (le : first ≤ second) : rankOf held messages first ≤ rankOf held messages second :=
  ((List.take_prefix_take_left le).sublist.filter _).length_le

theorem getElem?_rankOf {messages : List Message} {index : Nat} {message : Message}
    (found : messages[index]? = some message) :
    (ofKind (heldBack message) messages)[rankOf (heldBack message) messages index]? =
      some message := by
  obtain ⟨inside, here⟩ := List.getElem?_eq_some_iff.mp found
  have split : messages = messages.take index ++ message :: messages.drop (index + 1) := by
    rw [← here, List.cons_getElem_drop_succ, List.take_append_drop]
  have parts : ofKind (heldBack message) messages =
      ofKind (heldBack message) (messages.take index) ++
        message :: ofKind (heldBack message) (messages.drop (index + 1)) := by
    conv_lhs => rw [split]
    simp [ofKind]
  rw [parts, rankOf, List.getElem?_append_right (Nat.le_refl _), Nat.sub_self]
  rfl

theorem ofKind_prefix {published handed : List Message} (inOrder : HandedInOrder published handed)
    (held : Bool) : ofKind held handed <+: ofKind held published := by
  cases held with
  | true => simpa [ofKind, atQos2] using inOrder.1
  | false => simpa [ofKind, belowQos2] using inOrder.2

/-! ## Both connections -/

namespace System

variable {config : Config} {system : System} {events : List Event}
  {publisher subscriber : ConnectionId}

/-- Every chain returns. -/
def Returns (system : System) : Event → Prop
  | .server event => Server.ChainsReturn system.host event
  | .client _ _ => True

instance (system : System) : (event : Event) → Decidable (Returns system event)
  | .server event => inferInstanceAs (Decidable (Server.ChainsReturn system.host event))
  | .client _ _ => inferInstanceAs (Decidable True)

/-- The flows of both connections are kept apart, nobody else uses a channel of the host,
and chains return. -/
structure Carrying (publisher subscriber : ConnectionId) (system : System) (event : Event) :
    Prop where
  publisher : Apart publisher system event
  subscriber : Apart subscriber system event
  undisturbed : Undisturbed system event
  returns : Returns system event

/-- A copy of a message of this kind that the reader of a connection handed on. -/
def isFrom (system : System) (publisher : ConnectionId) (held : Bool) (copy : Delivery) : Bool :=
  match (copy.origin.index publisher).bind fun index => (system.handedUp publisher)[index]? with
  | some message => heldBack message = held
  | none => false

theorem eq_of_isFrom {held : Bool} {copy : Delivery}
    (isFrom : system.isFrom publisher held copy = true) :
    ∃ index message, copy.origin = .message publisher index ∧
      (system.handedUp publisher)[index]? = some message ∧ heldBack message = held := by
  unfold System.isFrom at isFrom
  split at isFrom
  · rename_i message found
    obtain ⟨index, origin, listed⟩ := Option.bind_eq_some_iff.mp found
    exact ⟨index, message, Origin.index_eq_some.mp origin, listed, of_decide_eq_true isFrom⟩
  · contradiction

/-- The place of the message that is copied among those of its kind. -/
def placeOf (system : System) (publisher : ConnectionId) (held : Bool) (copy : Delivery) : Nat :=
  rankOf held (system.handedUp publisher) ((copy.origin.index publisher).getD 0)

theorem placeOf_eq {held : Bool} {copy : Delivery} {index : Nat}
    (origin : copy.origin = .message publisher index) :
    system.placeOf publisher held copy = rankOf held (system.handedUp publisher) index := by
  rw [placeOf, Origin.index_eq_some.mpr origin, Option.getD_some]

/-- What the log says about a system. -/
structure Recorded (config : Config) (publisher : ConnectionId) (system : System) : Prop where
  logged : Logged system.host
  flowing : Server.Flowing config.server publisher system.host

theorem recorded_new : Recorded config publisher new :=
  ⟨logged_new, .new _⟩

theorem preserves_recorded (config : Config) (publisher subscriber : ConnectionId) :
    Preserves (step config) (Carrying publisher subscriber) (Recorded config publisher) := by
  intro system event next recorded carrying stepped
  cases steps_of_step stepped with
  | serverRuns moved | serverReads moved =>
      exact ⟨recorded.logged.step moved carrying.undisturbed.ne,
        recorded.flowing.step carrying.returns (Server.Host.steps_of_step moved)⟩
  | clientRuns | clientReads => exact ⟨recorded.logged, recorded.flowing⟩

/-- Of either kind, the messages that a client was given are the first in the log. -/
theorem exists_arrived (logged : Logged system.host)
    (inOrder : HandedInOrder (system.publishedDown subscriber) (system.handedDown subscriber))
    (held : Bool) :
    ∃ arrived, arrived <+: copiesOf held system.host subscriber ∧
      arrived.map Delivery.message = ofKind held (system.handedDown subscriber) := by
  have published : system.publishedDown subscriber =
      (copiesTo system.host subscriber).map Delivery.message := logged.sent subscriber
  have first := ofKind_prefix inOrder held
  rw [published, ofKind, ofKind, List.filter_map] at first
  have taken := List.prefix_iff_eq_take.mp first
  rw [← List.map_take] at taken
  exact ⟨_, List.take_prefix _ _, taken.symm⟩

/-- A copy of a message of the publisher is one of the message with its place. -/
theorem source_of_isFrom {offered : Bool} {copy : Delivery}
    (flowing : Server.Flowing config.server publisher system.host)
    (inOrder : HandedInOrder (system.publishedUp publisher) (system.handedUp publisher))
    (listed : copy ∈ system.host.pool.broker.deliveries)
    (isFrom : system.isFrom publisher offered copy = true) :
    ∃ publish packet subQos,
      (ofKind offered (system.publishedUp publisher))[system.placeOf publisher offered copy]? =
        some (.ofPublish publish) ∧
      config.server.chain publish = some packet ∧ Copy packet subQos copy.packet := by
  obtain ⟨index, message, origin, handed, kind⟩ := eq_of_isFrom isFrom
  obtain ⟨_, packet, subQos, ⟨other, publish, same, found, chained⟩, isCopy⟩ :=
    flowing.delivered copy listed index origin
  cases origin.symm.trans same
  have isMessage : message = .ofPublish publish := by
    rw [handedUp, List.getElem?_map, found] at handed
    exact (Option.some.inj handed).symm
  refine ⟨publish, packet, subQos, ?_, chained, isCopy⟩
  rw [placeOf_eq origin, ← isMessage, ← kind]
  obtain ⟨later, grown⟩ := ofKind_prefix inOrder (heldBack message)
  have place := getElem?_rankOf handed
  rw [← grown, List.getElem?_append_left (List.getElem?_eq_some_iff.mp place).1]
  exact place

/-- Later copies are of later messages. -/
theorem placeOf_le {offered : Bool} {arrived : List Delivery}
    (inOrder : InOrder publisher arrived) :
    ((arrived.filter (system.isFrom publisher offered)).map
      (system.placeOf publisher offered)).Pairwise (· ≤ ·) := by
  rw [List.pairwise_map]
  refine ((List.Pairwise.sublist List.filter_sublist inOrder).imp_of_mem ?_)
  intro earlier later first second ordered
  obtain ⟨index, _, origin, _⟩ := eq_of_isFrom (List.mem_filter.mp first).2
  obtain ⟨other, _, otherOrigin, _⟩ := eq_of_isFrom (List.mem_filter.mp second).2
  rw [placeOf_eq origin, placeOf_eq otherOrigin]
  exact rankOf_mono (ordered index other origin otherOrigin)

/-- While two connections are up, their flows are kept apart, nobody else uses a channel of the
host and every chain returns: the messages of a kind that the subscriber's handlers are given
are the first copies of the kind in the log, and they follow the order in which the publisher
published: along the copies of its messages the places of these never decrease. -/
theorem end_to_end_order
    (run : Run (step config) (Carrying publisher subscriber) new events system)
    (publisherUp : system.Up publisher) (subscriberUp : system.Up subscriber)
    (held offered : Bool) :
    ∃ arrived, arrived <+: copiesOf held system.host subscriber ∧
      arrived.map Delivery.message = ofKind held (system.handedDown subscriber) ∧
        ∃ places : List Nat, places.Pairwise (· ≤ ·) ∧
          List.Forall₂ (fun place copy => ∃ publish packet subQos,
              (ofKind offered (system.publishedUp publisher))[place]? =
                some (Message.ofPublish publish) ∧
              config.server.chain publish = some packet ∧ Copy packet subQos copy.packet)
            places (arrived.filter (system.isFrom publisher offered)) := by
  have recorded := run.invariant (preserves_recorded config publisher subscriber) recorded_new
  have up := sound_of_run (run.mono fun _ _ => Carrying.publisher) publisherUp
  have down := sound_of_run (run.mono fun _ _ => Carrying.subscriber) subscriberUp
  obtain ⟨arrived, first, same⟩ :=
    exists_arrived recorded.logged (handedInOrder_of_sound down.down) held
  have sublist := first.sublist.trans (copiesOf_sublist held system.host subscriber)
  refine ⟨arrived, first, same,
    (arrived.filter (system.isFrom publisher offered)).map (system.placeOf publisher offered),
    placeOf_le (recorded.flowing.sorted.sublist sublist), ?_⟩
  rw [List.forall₂_map_left_iff, List.forall₂_same]
  intro copy listed
  obtain ⟨mem, isFrom⟩ := List.mem_filter.mp listed
  exact source_of_isFrom recorded.flowing (handedInOrder_of_sound up.up) (sublist.subset mem)
    isFrom

/-- The conditions can be evaluated. -/
theorem carrying_of_run (run : Run (step config) (fun system event =>
      Unwrapped publisher system event ∧ Unwrapped subscriber system event ∧
        Undisturbed system event ∧ Returns system event) new events system) :
    Run (step config) (Carrying publisher subscriber) new events system := by
  have preserves : Preserves (step config) (fun system event =>
      Unwrapped publisher system event ∧ Unwrapped subscriber system event ∧
        Undisturbed system event ∧ Returns system event)
      (fun system => Kept publisher system ∧ Kept subscriber system) :=
    fun system event next kept met stepped =>
      ⟨preserves_kept config publisher kept.1 met.1 stepped,
        preserves_kept config subscriber kept.2 met.2.1 stepped⟩
  refine run.mono_of_invariant preserves ⟨kept_new publisher, kept_new subscriber⟩ ?_
  rintro system event ⟨first, second⟩ ⟨publishes, subscribes, undisturbed, returns⟩
  exact ⟨apart_of_numbered first.2 publishes, apart_of_numbered second.2 subscribes, undisturbed,
    returns⟩

/-- The message of the relay is the first of its kind at both ends. -/
theorem end_to_end_order_relay :
    ofKind true (afterRelay.handedDown 1) = [.ofPublish relayed] ∧
      ∃ arrived, arrived <+: copiesOf true afterRelay.host 1 ∧
        arrived.map Delivery.message = ofKind true (afterRelay.handedDown 1) ∧
          ∃ places : List Nat, places.Pairwise (· ≤ ·) ∧
            List.Forall₂ (fun place copy => ∃ publish packet subQos,
                (ofKind true (afterRelay.publishedUp 2))[place]? =
                  some (Message.ofPublish publish) ∧
                relayConfig.server.chain publish = some packet ∧
                Copy packet subQos copy.packet)
              places (arrived.filter (afterRelay.isFrom 2 true)) := by
  have run : Run (step relayConfig) (fun system event =>
      Unwrapped 2 system event ∧ Unwrapped 1 system event ∧
        Undisturbed system event ∧ Returns system event) new relay afterRelay :=
    Follows.run (by decide +kernel)
  have up : afterRelay.Up 2 ∧ afterRelay.Up 1 := by
    constructor
    all_goals
      exact up_of_selecting (by decide +kernel) (by decide +kernel) (by decide +kernel)
        (by decide +kernel) (by decide +kernel)
  exact ⟨by decide +kernel, end_to_end_order (carrying_of_run run) up.1 up.2 true true⟩

end System

end HotaruMqtt.Network
