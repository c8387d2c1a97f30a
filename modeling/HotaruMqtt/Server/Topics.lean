import HotaruMqtt.Server.WellFormed

/-!
# The topics of what is fanned out

`validate_publish_topic` is called nowhere on the way of a message: neither the
decoder nor the dispatch nor `publish` looks at the topic of a PUBLISH or of a
Will.  So what is fanned out has a valid topic exactly as far as the clients send
valid ones.
-/

namespace HotaruMqtt.Server

open Exec Exec.Outcome Exec.Transition Broker Topic

/-- The topic that a packet brings in is valid: that of a PUBLISH, or that of the
Will of a CONNECT. -/
def TopicsValid : Packet → Prop
  | .publish publish => validatePublishTopic publish.topic = ok ()
  | .connect connect => ∀ will ∈ connect.will, validatePublishTopic will.topic = ok ()
  | _ => True

instance : DecidablePred TopicsValid := by
  intro packet
  unfold TopicsValid
  split <;> infer_instance

/-- Every packet that is read brings in valid topics only, and nobody but the host
sends on a channel. -/
def ReadsValidTopics (host : Host) : Event → Prop
  | .act _ (.connect (.packet packet) _) => TopicsValid packet
  | .act _ (.read (.packet packet)) => TopicsValid packet
  | .environment connection channel =>
      Demand.Quiet (host.pool.broker.channels connection) channel
  | _ => True

noncomputable instance (host : Host) : (event : Event) → Decidable (ReadsValidTopics host event)
  | .act _ (.connect (.packet packet) _) => inferInstanceAs (Decidable (TopicsValid packet))
  | .act _ (.read (.packet packet)) => inferInstanceAs (Decidable (TopicsValid packet))
  | .environment _ _ => Classical.propDecidable _
  | .act _ (.connect (.failed _) _) | .act _ (.connect .elapsed _) => isTrue trivial
  | .act _ (.read (.failed _)) | .act _ (.read .deadlineElapsed) => isTrue trivial
  | .act _ (.unavailable _) | .act _ .shutdown | .act _ .proceed | .act _ .work
  | .act _ .crash => isTrue trivial
  | .advance _ _ => isTrue trivial

/-- The topics of messages are valid, and so are those of the PUBLISH packets sent. -/
def topicDemand : Demand where
  message publish := validatePublishTopic publish.topic = ok ()
  packet packet := ∀ publish, packet = .publish publish →
    validatePublishTopic publish.topic = ok ()

theorem topicDemand_sound {config : Config}
    (unchanged : ∀ publish packet, config.chain publish = some packet →
      packet.topic = publish.topic) : topicDemand.Sound config where
  replies packet reply publish same := by
    subst same
    cases reply
  copies packet subQos copy valid isCopy publish same := by
    cases same
    exact isCopy.topic ▸ valid
  chain publish packet valid chained := by
    simp only [topicDemand, unchanged publish packet chained]
    exact valid

theorem admits_of_topicsValid {packet : Packet} (valid : TopicsValid packet) :
    topicDemand.Admits packet := by
  cases packet with
  | publish publish => exact ⟨valid, fun _ => valid⟩
  | connect connect => exact valid
  | subscribe subscribe => exact fun codes _ publish same => by cases same
  | _ => trivial

theorem reads_of_readsValidTopics {host : Host} {event : Event}
    (reads : ReadsValidTopics host event) : topicDemand.Reads host event := by
  cases event with
  | act connection action =>
      cases action with
      | connect read auth =>
          cases read with
          | packet packet => exact admits_of_topicsValid reads
          | _ => trivial
      | read outcome =>
          cases outcome with
          | packet packet => exact admits_of_topicsValid reads
          | _ => trivial
      | _ => trivial
  | advance task choice => trivial
  | environment connection channel => exact reads

/-- In every run in which each PUBLISH and each Will that is read has a valid topic,
every PUBLISH that is sent has one. -/
theorem fanned_out_topics_valid (config : Config)
    (unchanged : ∀ publish packet, config.chain publish = some packet →
      packet.topic = publish.topic) {events : List Event} {host : Host}
    (run : Run (Host.step config) ReadsValidTopics (.new fun _ => .new) events host)
    (connection : ConnectionId) (publish : PublishPacket)
    (sent : .publish publish ∈ (host.pool.broker.channels connection).sent) :
    validatePublishTopic publish.topic = ok () := by
  have reads : Run (Host.step config) topicDemand.Reads (.new fun _ => .new) events host :=
    run.mono fun _ _ => reads_of_readsValidTopics
  exact Demand.sent_meets (topicDemand_sound unchanged) reads connection _ sent publish rfl

theorem fanned_out_topics_valid_relayed :
    let host := replay (Host.step ⟨.new, some⟩) (.new fun _ => .new) (relays "#" "a/b")
    .publish ⟨"a/b", [1], false, .atMostOnce, false, none⟩ ∈
        (host.pool.broker.channels 1).sent ∧
      validatePublishTopic "a/b" = ok () := by
  have sent : Packet.publish ⟨"a/b", [1], false, .atMostOnce, false, none⟩ ∈
      ((replay (Host.step ⟨.new, some⟩) (.new fun _ => .new)
        (relays "#" "a/b")).pool.broker.channels 1).sent := by decide +kernel
  refine ⟨sent, fanned_out_topics_valid ⟨.new, some⟩ ?_ (Follows.run (by decide +kernel)) 1 _ sent⟩
  intro publish packet same
  cases same
  rfl

/-- A PUBLISH with this topic comes from the wire and is fanned out. -/
def FansOut (topic : String) : Prop :=
  ∃ host, Run (Host.step ⟨.new, some⟩) ReadsWire (.new fun _ => .new) (relays "#" topic) host ∧
    .publish ⟨topic, [1], false, .atMostOnce, false, none⟩ ∈ (host.pool.broker.channels 1).sent

theorem fansOut_of_follows {topic : String}
    (follows : Follows (Host.step ⟨.new, some⟩) ReadsWritten (.new fun _ => .new)
      (relays "#" topic))
    (sent : .publish ⟨topic, [1], false, .atMostOnce, false, none⟩ ∈
      ((replay (Host.step ⟨.new, some⟩) (.new fun _ => .new)
        (relays "#" topic)).pool.broker.channels 1).sent) : FansOut topic :=
  ⟨_, follows.run.mono fun _ _ => readsWire_of_readsWritten, sent⟩

/-- A topic with a wildcard and the empty topic are fanned out. -/
theorem invalid_topics_are_fanned_out :
    (FansOut "a/+" ∧ validatePublishTopic "a/+" ≠ ok ()) ∧
      FansOut "" ∧ validatePublishTopic "" ≠ ok () :=
  ⟨⟨fansOut_of_follows (by decide +kernel) (by decide +kernel), by decide +kernel⟩,
    fansOut_of_follows (by decide +kernel) (by decide +kernel), by decide +kernel⟩

end HotaruMqtt.Server
