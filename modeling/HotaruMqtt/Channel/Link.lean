import HotaruMqtt.Broker.State
import HotaruMqtt.Exec.Signal

/-!
# The tasks around one channel

A channel is shared by the task that reads from the wire, the writer actor, any
number of calls of `send.rs` that wait for an acknowledgement, and any number of
calls of `close`.  Here each of them moves by the accesses it makes to what they
share, and the moves interleave in any order: an access to the open flag, to the
shutdown notification, to the command queue or to `pending_acks` is one move, so
the two lookups of a `wake_*` method are two.

Of the session only the packet-id counter and `pending_acks` are kept; no waiter
depends on the other two tables that `abandon` clears.  The clearing of
`pending_acks` goes over the keys one after the other: it ends when every key that
is there has been visited.

The `log` records what happened in which order, and `allocated` counts the packet
ids that were given out.  No move depends on them.
-/

namespace HotaruMqtt.Channel

open Exec Exec.Outcome

/-! ## Requests and responses -/

/-- What `send_publish` is asked to send. -/
structure PublishRequest where
  topic : String
  payload : Bytes
  qos : QoS
  retain : Bool
  deriving DecidableEq, Repr

/-- What a call of the send path is asked for. -/
inductive MqttRequest
  | publish (request : PublishRequest)
  | subscribe (filters : List TopicFilter)
  | unsubscribe (topics : List String)
  deriving DecidableEq, Repr

/-- How a publish has ended, by its level. -/
inductive PublishAck
  | sent
  | acknowledged (id : PacketId)
  | completed (id : PacketId)
  deriving DecidableEq, Repr

/-- What a call of the send path returns when it succeeds. -/
inductive MqttResponse
  | published (ack : PublishAck)
  | subscribed (returnCodes : List SubackCode)
  | unsubscribed
  deriving DecidableEq, Repr

/-- Commands of the writer actor. -/
inductive WriteCmd
  | packet (packet : Packet)
  | publish (publish : PublishPacket)
  | flush
  | shutdown
  deriving DecidableEq, Repr

namespace MqttRequest

/-- What the first waiter of a call waits for; a publish at QoS 0 has none. -/
def awaits : MqttRequest → Option AckSlot
  | .publish request =>
      match request.qos with
      | .atMostOnce => none
      | .atLeastOnce => some (.publishAck .puback)
      | .exactlyOnce => some (.publishAck .pubrec)
  | .subscribe _ => some .suback
  | .unsubscribe _ => some .unsuback

/-- What a call hands to the writer actor. -/
def command (id : PacketId) : MqttRequest → WriteCmd
  | .publish request =>
      .publish
        { topic := request.topic
          payload := request.payload
          dup := false
          qos := request.qos
          retain := request.retain
          packetId := if request.qos ≠ .atMostOnce then some id else none }
  | .subscribe filters =>
      .packet (.subscribe
        { packetId := id
          subscriptions := filters.map fun filter => ⟨filter.filter, filter.qos⟩ })
  | .unsubscribe topics => .packet (.unsubscribe { packetId := id, topics })

end MqttRequest

/-! ## Calls of the send path -/

/-- Names a call of `send_publish`, `send_subscribe` or `send_unsubscribe`. -/
abbrev SendId := Nat

/-- Names the one-shot channel that a call makes when it parks a waiter. -/
structure Waiter where
  id : PacketId
  slot : AckSlot
  owner : SendId
  deriving DecidableEq, Repr

/-- Where a call stands: before it takes its packet id, before it parks a waiter
(with what it sends then), before it hands a command to the writer actor (with the
waiter it awaits then), at its receiver, after its timeout, at its end. -/
inductive Stage
  | allocating
  | parking (waiter : Waiter) (cmd : Option WriteCmd)
  | enqueueing (waiter : Option Waiter) (cmd : WriteCmd)
  | awaiting (waiter : Waiter)
  | cancelling (waiter : Waiter)
  | returned (result : Outcome MqttError MqttResponse)
  deriving DecidableEq

/-- A call of the send path: what it was asked for, its identifier once it has one, and where
it stands. -/
structure Send where
  request : MqttRequest
  packetId : Option PacketId
  stage : Stage
  deriving DecidableEq

/-- Once its waiter is parked, a call sends its command if it still has one. -/
def Waiter.afterPark (waiter : Waiter) : Option WriteCmd → Stage
  | some cmd => .enqueueing (some waiter) cmd
  | none => .awaiting waiter

/-- Once its command is taken, a call awaits its waiter if it has one. -/
def Stage.afterAccept : Option Waiter → Stage
  | some waiter => .awaiting waiter
  | none => .returned (ok (.published .sent))

/-- What a call does with the answer its receiver gives. -/
def Waiter.resume (waiter : Waiter) : Wake → Stage
  | .publishAck id =>
      match waiter.slot with
      -- the PUBREL is sent by the reader
      | .publishAck .pubrec => .parking { waiter with slot := .publishAck .pubcomp } none
      | .publishAck .pubcomp => .returned (ok (.published (.completed id)))
      | _ => .returned (ok (.published (.acknowledged id)))
  | .suback _ returnCodes => .returned (ok (.subscribed returnCodes))
  | .unsuback _ => .returned (ok .unsubscribed)

/-! ## Calls of `close` -/

/-- Names a call of `close`. -/
abbrev CloseId := Nat

/-- Where a call of `close` stands: before the swap of the flag, before it notifies,
in `abandon` with the keys it has visited, at its end. -/
inductive CloseStage
  | idle
  | swapping
  | notifying
  | clearing (visited : List PacketId)
  | returned
  deriving DecidableEq

/-! ## The reader -/

/-- Which of the two read loops the reader runs. -/
inductive ProtocolRole
  | client
  | server
  deriving DecidableEq, Repr

/-- An acknowledgement that comes in. -/
inductive Ack
  | publishAck (kind : AckKind) (id : PacketId)
  | suback (id : PacketId) (returnCodes : List SubackCode)
  | unsuback (id : PacketId)
  deriving DecidableEq, Repr

namespace Ack

/-- The identifier an acknowledgement bears. -/
def id : Ack → PacketId
  | publishAck _ id => id
  | suback id _ => id
  | unsuback id => id

/-- The kind of slot that its `wake_*` method looks for. -/
def slot : Ack → AckSlot
  | publishAck kind _ => .publishAck kind
  | suback _ _ => .suback
  | unsuback _ => .unsuback

/-- What its `wake_*` method sends to a waiter. -/
def answer : Ack → Wake
  | publishAck _ id => .publishAck id
  | suback id returnCodes => .suback id returnCodes
  | unsuback id => .unsuback id

/-- A removed slot is sent to if it is of the right type; of the three kinds of a
publish flow any is. -/
def owns : Ack → AckSlot → Bool
  | publishAck _ _, .publishAck _ => true
  | suback _ _, .suback => true
  | unsuback _, .unsuback => true
  | _, _ => false

theorem owns_slot (ack : Ack) : ack.owns ack.slot = true := by
  cases ack <;> rfl

/-- The acknowledgements that dispatch handles; the server has no arms for SUBACK
and UNSUBACK. -/
def ofPacket : ProtocolRole → Packet → Option Ack
  | _, .puback id => some (publishAck .puback id)
  | _, .pubrec id => some (publishAck .pubrec id)
  | _, .pubcomp id => some (publishAck .pubcomp id)
  | .client, .suback packet => some (suback packet.packetId packet.returnCodes)
  | .client, .unsuback id => some (unsuback id)
  | _, _ => none

end Ack

/-- Where the main loop stands: before the check of the flag, between the check and
`select!`, in `select!` with its shutdown future, at the three accesses of a wake,
after the wake, in the dispatch of anything else with what it is still to send, after
the loop. -/
inductive Reader
  | checking
  | entering
  | selecting (shutdown : Notified)
  | looking (ack : Ack)
  | taking (ack : Ack)
  | answering (ack : Ack)
  | settling (ack : Ack)
  | handling (replies : List Packet)
  | left
  deriving DecidableEq

/-! ## The writer actor -/

/-- Where the actor stands: before `select!`, in `select!` with its shutdown future,
writing a command, after the loop, shutting the writer down, at its end, where the
queue is dropped. -/
inductive Actor
  | looping
  | selecting (shutdown : Notified)
  | writing (cmd : WriteCmd)
  | leaving
  | shutting
  | gone
  deriving DecidableEq

/-- The actor has not left its loop. -/
def Actor.InLoop : Actor → Prop
  | .looping | .selecting _ | .writing _ => True
  | .leaving | .shutting | .gone => False

instance : DecidablePred Actor.InLoop
  | .looping | .selecting _ | .writing _ => isTrue trivial
  | .leaving | .shutting | .gone => isFalse id

/-! ## The state -/

/-- What the log records. -/
inductive Record
  /-- A waiter was parked. -/
  | parked (waiter : Waiter)
  /-- `send_packet` or `send_publish` returned `Ok`, for a call of the send path or
  for another task. -/
  | accepted (sender : Option SendId) (cmd : WriteCmd)
  /-- The reader is done with the wake for an acknowledgement. -/
  | consumed (ack : Ack) (woken : Option Waiter)
  | closeCalled (call : CloseId)
  /-- `abandon` has visited a key. -/
  | swept (id : PacketId)
  | abandoned
  deriving DecidableEq

/-- A channel with everything that works on it. -/
structure Link where
  role : ProtocolRole
  isOpen : Bool
  shutdown : Notify
  queue : List WriteCmd
  written : List WriteCmd
  actor : Actor
  reader : Reader
  pktCounter : UInt16
  pendingAcks : Registry Waiter.id Wake
  sends : SendId → Option Send
  closes : CloseId → CloseStage
  /-- All clones of the channel have been dropped. -/
  released : Bool
  allocated : Nat
  log : List Record

namespace Link

/-- A channel whose reader and actor are about to enter their loops. -/
def new (role : ProtocolRole) : Link where
  role := role
  isOpen := true
  shutdown := .new
  queue := []
  written := []
  actor := .looping
  reader := .checking
  pktCounter := 0
  pendingAcks := .new
  sends _ := none
  closes _ := .idle
  released := false
  allocated := 0
  log := []

/-- The counter wraps, and the identifier that would be zero is one. -/
def nextId (link : Link) : PacketId :=
  if link.pktCounter + 1 = 0 then 1 else link.pktCounter + 1

/-- An identifier is given out. -/
def allocatePacketId (link : Link) : Link :=
  { link with pktCounter := link.pktCounter + 1, allocated := link.allocated + 1 }

/-- The link after a command has been taken into the queue. -/
def accept (link : Link) (sender : Option SendId) (cmd : WriteCmd) : Link :=
  { link with
    queue := link.queue ++ [cmd]
    log := link.log ++ [.accepted sender cmd] }

/-- `send_packet` and `send_publish`: the queue takes commands until the actor has
returned. -/
def offer (link : Link) (sender : Option SendId) (cmd : WriteCmd) : Option Link :=
  if link.actor = .gone then
    none
  else
    some (link.accept sender cmd)

/-- A call of the send path gets where it is said to be. -/
def setSend (link : Link) (call : SendId) (send : Send) : Link :=
  { link with sends := Function.update link.sends call (some send) }

theorem sends_setSend_self (link : Link) (call : SendId) (send : Send) :
    (link.setSend call send).sends call = some send :=
  Function.update_self _ _ _

theorem sends_setSend_of_ne (link : Link) {call other : SendId} (send : Send)
    (differs : other ≠ call) : (link.setSend call send).sends other = link.sends other :=
  Function.update_of_ne differs _ _

/-- The next access of a call of the send path; a call whose receiver waits has
none. -/
def proceedSend (link : Link) (call : SendId) (send : Send) : Option Link :=
  match send.stage with
  | .allocating =>
      match send.request.awaits with
      -- a publish at QoS 0 has no identifier and no waiter
      | none =>
          some (link.setSend call { send with stage := .enqueueing none (send.request.command 0) })
      | some slot =>
          some (link.allocatePacketId.setSend call
            { send with
              packetId := some link.nextId
              stage :=
                .parking ⟨link.nextId, slot, call⟩ (some (send.request.command link.nextId)) })
  | .parking waiter cmd =>
      some (({ link with
          pendingAcks := link.pendingAcks.park waiter
          log := link.log ++ [.parked waiter] } : Link).setSend call
        { send with stage := waiter.afterPark cmd })
  | .enqueueing waiter cmd =>
      match link.offer (some call) cmd with
      | none => some (link.setSend call { send with stage := .returned (err .channelClosed) })
      | some link => some (link.setSend call { send with stage := .afterAccept waiter })
  | .awaiting waiter =>
      match link.pendingAcks.cells waiter with
      | some (.sent answer) => some (link.setSend call { send with stage := waiter.resume answer })
      | some .closed =>
          some (link.setSend call { send with stage := .returned (err .channelClosed) })
      | _ => none
  | .cancelling waiter =>
      some (({ link with pendingAcks := link.pendingAcks.discard waiter.id } : Link).setSend call
        { send with stage := .returned (err (.timeout .ack)) })
  | .returned _ => none

/-- The timeout of a call elapses; the timer is looked at after the receiver. -/
def elapse (link : Link) (call : SendId) (send : Send) : Option Link :=
  match send.stage with
  | .awaiting waiter =>
      if link.pendingAcks.cells waiter = some .waiting then
        some (link.setSend call { send with stage := .cancelling waiter })
      else
        none
  | _ => none

/-- What a call of the send path can be seen to do: it is made, it makes its next access, its
timeout elapses. -/
inductive SendMove
  | call (request : MqttRequest)
  | proceed
  | elapse
  deriving DecidableEq, Repr

/-- A move of a call of the send path, if it can be made. -/
def sendStep (link : Link) (call : SendId) : SendMove → Option Link
  | .call request =>
      match link.sends call with
      | none => some (link.setSend call ⟨request, none, .allocating⟩)
      | some _ => none
  | .proceed => (link.sends call).bind (link.proceedSend call)
  | .elapse => (link.sends call).bind (link.elapse call)

/-- A call of `close` gets where it is said to be. -/
def setClose (link : Link) (call : CloseId) (stage : CloseStage) : Link :=
  { link with closes := Function.update link.closes call stage }

/-- The accesses of a call of `close`: the swap of the flag, the notification, and the sweep,
key by key. -/
inductive CloseMove
  | call
  | swap
  | notify
  | visit (id : PacketId)
  | finish
  deriving DecidableEq, Repr

/-- A move of a call of `close`, if it can be made.  A call that finds the flag down returns
at once. -/
def closeStep (link : Link) (call : CloseId) (move : CloseMove) : Option Link :=
  match link.closes call, move with
  | .idle, .call =>
      some (({ link with log := link.log ++ [.closeCalled call] } : Link).setClose call .swapping)
  | .swapping, .swap =>
      if link.isOpen then
        some (({ link with isOpen := false } : Link).setClose call .notifying)
      else
        some (link.setClose call .returned)
  | .notifying, .notify =>
      some (({ link with shutdown := link.shutdown.notifyWaiters } : Link).setClose call
        (.clearing []))
  | .clearing visited, .visit id =>
      some (({ link with
          pendingAcks := link.pendingAcks.discard id
          log := link.log ++ [.swept id] } : Link).setClose call (.clearing (id :: visited)))
  | .clearing visited, .finish =>
      if link.pendingAcks.parked.keys.all fun id => id ∈ visited then
        some (({ link with log := link.log ++ [.abandoned] } : Link).setClose call .returned)
      else
        none
  | _, _ => none

/-- What the reader can do: the next access on its own, or one of the branches of
`select!`. -/
inductive ReaderMove
  | proceed
  /-- The read branch of `select!` gives a packet that is an acknowledgement. -/
  | read (packet : Packet)
  /-- Another packet, or a tick of the client's ping timer, with what is sent on
  this channel for it. -/
  | handle (replies : List Packet)
  /-- The wire is closed, the packet is an error or DISCONNECT, or a deadline has
  elapsed. -/
  | leave
  /-- The shutdown branch of `select!`. -/
  | wake
  deriving DecidableEq, Repr

/-- The next access of the reader outside `select!`. -/
def proceedReader (link : Link) : Option Link :=
  match link.reader with
  | .checking =>
      if link.isOpen then
        some { link with reader := .entering }
      else
        some { link with reader := .left }
  | .entering => some { link with reader := .selecting link.shutdown.notified }
  | .looking ack =>
      if (link.pendingAcks.parked.lookup ack.id).map Waiter.slot = some ack.slot then
        some { link with reader := .taking ack }
      else
        some { link with reader := .settling ack, log := link.log ++ [.consumed ack none] }
  | .taking ack =>
      match link.pendingAcks.parked.lookup ack.id with
      | none => some { link with reader := .settling ack, log := link.log ++ [.consumed ack none] }
      | some _ =>
          some { link with reader := .answering ack, pendingAcks := link.pendingAcks.take ack.id }
  | .answering ack =>
      match link.pendingAcks.hand with
      | none => none
      | some waiter =>
          if ack.owns waiter.slot then
            some { link with
              reader := .settling ack
              pendingAcks := link.pendingAcks.answer ack.answer
              log := link.log ++ [.consumed ack (some waiter)] }
          else
            some { link with
              reader := .settling ack
              pendingAcks := link.pendingAcks.putBack
              log := link.log ++ [.consumed ack none] }
  | .settling ack =>
      if ack.slot = .publishAck .pubrec then
        match link.offer none (.packet (.pubrel ack.id)) with
        | none => some { link with reader := .left }
        | some link => some { link with reader := .checking }
      else
        some { link with reader := .checking }
  | .handling [] => some { link with reader := .checking }
  | .handling (reply :: replies) =>
      match link.offer none (.packet reply) with
      | none => some { link with reader := .left }
      | some link => some { link with reader := .handling replies }
  | .selecting _ | .left => none

/-- A move of the reader, if it can be made. -/
def readerStep (link : Link) (move : ReaderMove) : Option Link :=
  match move, link.reader with
  | .proceed, _ => link.proceedReader
  | .read packet, .selecting _ =>
      (Ack.ofPacket link.role packet).map fun ack => { link with reader := .looking ack }
  | .handle replies, .selecting _ => some { link with reader := .handling replies }
  | .leave, .selecting _ => some { link with reader := .left }
  | .wake, .selecting future =>
      if link.shutdown.Wakes future then some { link with reader := .left } else none
  | _, _ => none

/-- What the writer actor can do. -/
inductive ActorMove
  | proceed
  /-- The command branch of `select!`. -/
  | take
  /-- The command branch of `select!` when the queue is at its end. -/
  | hangUp
  /-- The shutdown branch of `select!`. -/
  | wake
  /-- A write ends, well or with an error. -/
  | finish (wrote : Bool)
  deriving DecidableEq, Repr

/-- A move of the writer actor, if it can be made.  A write that fails ends its loop. -/
def actorStep (link : Link) (move : ActorMove) : Option Link :=
  match move, link.actor with
  | .proceed, .looping => some { link with actor := .selecting link.shutdown.notified }
  | .proceed, .leaving => some { link with actor := .shutting, isOpen := false }
  | .proceed, .shutting => some { link with actor := .gone }
  | .take, .selecting _ =>
      match link.queue with
      | [] => none
      | .shutdown :: rest => some { link with actor := .leaving, queue := rest }
      | cmd :: rest => some { link with actor := .writing cmd, queue := rest }
  | .hangUp, .selecting _ =>
      if link.queue = [] ∧ link.released = true then
        some { link with actor := .leaving }
      else
        none
  | .wake, .selecting future =>
      if link.shutdown.Wakes future then some { link with actor := .leaving } else none
  -- the outcome of a flush is ignored
  | .finish _, .writing .flush => some { link with actor := .looping }
  | .finish true, .writing cmd =>
      some { link with actor := .looping, written := link.written ++ [cmd] }
  | .finish false, .writing _ => some { link with actor := .leaving }
  | _, _ => none

/-- What happens on a link. -/
inductive Event
  | send (call : SendId) (move : SendMove)
  | close (call : CloseId) (move : CloseMove)
  | reader (move : ReaderMove)
  | actor (move : ActorMove)
  /-- Another task sends a packet, or a PUBLISH. -/
  | sendPacket (packet : Packet)
  | sendPublish (publish : PublishPacket)
  /-- Another task takes a packet id. -/
  | allocate
  /-- All clones of the channel are dropped. -/
  | release
  deriving DecidableEq, Repr

/-- One access of one task.  Once the clones are dropped only the actor is left. -/
def step (link : Link) : Event → Option Link
  | .actor move => link.actorStep move
  | event =>
      if link.released then
        none
      else
        match event with
        | .send call move => link.sendStep call move
        | .close call move => link.closeStep call move
        | .reader move => link.readerStep move
        | .sendPacket packet => link.offer none (.packet packet)
        | .sendPublish publish => link.offer none (.publish publish)
        | .allocate => some link.allocatePacketId
        | .release => some { link with released := true }
        | .actor _ => none

end Link

end HotaruMqtt.Channel
