import HotaruMqtt.Client.Dispatch
import HotaruMqtt.Codec.Frame

/-!
# The client's main loop

The `select!` loop of `handle_client`.  Each iteration creates a new
`read_packet` future.  When another branch wins, the future is dropped, and the
bytes it had taken from the reader are gone with it.

A schedule says what happens when: bytes arrive, the read branch is polled, the
ping timer fires, the channel is shut down, or the writer actor exits.  Which
branch wins a race is thereby left to the schedule.
-/

namespace HotaruMqtt.Client

open Exec Exec.Outcome Codec

/-- How the loop stands. -/
inductive Status
  | running
  | left
  | failed (error : MqttError)
  | panicked (cause : Panic)
  deriving DecidableEq, Repr

/-- The loop between two events, with the packets it has passed to dispatch. -/
structure ClientLoop where
  /-- Bytes that have arrived and that no future has taken. -/
  socket : Bytes
  reading : Reading UInt8 MqttError Packet
  connection : Connection
  dispatched : List Packet
  status : Status

/-- What the loop can meet: bytes arrive, the read is polled, the ping timer fires, the
shutdown signal comes, the writer actor ends. -/
inductive Event
  | arrive (chunk : Bytes)
  | pollRead
  | tick
  | shutdown
  | writerExit
  deriving DecidableEq, Repr

namespace ClientLoop

/-- The loop on entry to its first iteration, on a connection that is set up. -/
def start (maxSize : Nat) (connection : Connection) : ClientLoop :=
  ⟨[], .fresh (readPacket maxSize), connection, [], .running⟩

/-- After the loop: a DISCONNECT whose failure is ignored. -/
def leave (state : ClientLoop) : ClientLoop :=
  { state with
    connection := { state.connection with
      channel := (state.connection.channel.sendPacket .disconnect).2 }
    status := .left }

/-- The head of the loop: leave when the channel is closed, else read afresh. -/
def nextIteration (maxSize : Nat) (state : ClientLoop) : ClientLoop :=
  if state.connection.channel.isOpen then
    { state with reading := .fresh (readPacket maxSize) }
  else
    state.leave

/-- The body of the read branch. -/
def handleInbound (maxSize : Nat) (state : ClientLoop) :
    Outcome MqttError Packet → ClientLoop
  | .ok packet =>
      let (outcome, connection) := dispatchClientInbound state.connection packet
      let state :=
        { state with connection, dispatched := state.dispatched ++ [packet] }
      match outcome with
      | .ok true => state.leave
      | .ok false => state.nextIteration maxSize
      | .err error => { state with status := .failed error }
      | .panic cause => { state with status := .panicked cause }
  | .err (.io _) => state.leave
  | .err error => { state with status := .failed error }
  | .panic cause => { state with status := .panicked cause }

/-- Poll the read branch.  A future that stays pending has taken every byte; one
that is ready is used up before the branch runs. -/
def pollRead (maxSize : Nat) (state : ClientLoop) : ClientLoop :=
  match state.reading.future.poll (state.reading.held ++ state.socket) with
  | .pending future held =>
      { state with
        socket := []
        reading := ⟨future, held, state.reading.taken ++ state.socket⟩ }
  | .ready outcome unread =>
      handleInbound maxSize
        { state with socket := unread, reading := .fresh (readPacket maxSize) } outcome

/-- The timer branch wins: the read future is dropped and PINGREQ is sent. -/
def tick (maxSize : Nat) (state : ClientLoop) : ClientLoop :=
  match state.connection.channel.sendPacket .pingreq with
  | (.ok (), channel) =>
      nextIteration maxSize { state with connection := { state.connection with channel } }
  | (_, channel) => leave { state with connection := { state.connection with channel } }

/-- One event; a loop that has ended only sees bytes arrive and the actor end. -/
def step (maxSize : Nat) (state : ClientLoop) : Event → ClientLoop
  | .arrive chunk => { state with socket := state.socket ++ chunk }
  | .pollRead => if state.status = .running then state.pollRead maxSize else state
  | .tick => if state.status = .running then state.tick maxSize else state
  | .shutdown => if state.status = .running then state.leave else state
  | .writerExit =>
      { state with connection := { state.connection with
          channel := { state.connection.channel with writerAlive := false, isOpen := false } } }

/-- The loop after a schedule. -/
def run (maxSize : Nat) : ClientLoop → List Event → ClientLoop
  | state, [] => state
  | state, event :: events => run maxSize (state.step maxSize event) events

/-- Poll until everything that has arrived is read. -/
def settle (maxSize : Nat) (state : ClientLoop) : ClientLoop :=
  state.run maxSize
    (List.replicate (state.reading.taken.length + state.socket.length) .pollRead)

end ClientLoop

/-- The bytes a schedule brings. -/
def arrivals : List Event → Bytes
  | [] => []
  | .arrive chunk :: events => chunk ++ arrivals events
  | _ :: events => arrivals events

/-- Only arrivals, polls and timer ticks. -/
def Undisturbed (schedule : List Event) : Prop :=
  ∀ event ∈ schedule, event ≠ .shutdown ∧ event ≠ .writerExit

instance (schedule : List Event) : Decidable (Undisturbed schedule) :=
  inferInstanceAs (Decidable (∀ event ∈ schedule, event ≠ .shutdown ∧ event ≠ .writerExit))

/-- In the run of a schedule, the timer wins only while the current read future
has not taken a byte. -/
def TicksBetweenPackets (maxSize : Nat) : ClientLoop → List Event → Prop
  | _, [] => True
  | state, event :: events =>
      (event = .tick → state.reading.taken = []) ∧
        TicksBetweenPackets maxSize (state.step maxSize event) events

instance TicksBetweenPackets.decidable (maxSize : Nat) :
    (state : ClientLoop) → (events : List Event) →
      Decidable (TicksBetweenPackets maxSize state events)
  | _, [] => inferInstanceAs (Decidable True)
  | state, event :: events =>
      have := TicksBetweenPackets.decidable maxSize (state.step maxSize event) events
      inferInstanceAs (Decidable ((event = .tick → state.reading.taken = []) ∧
        TicksBetweenPackets maxSize (state.step maxSize event) events))

end HotaruMqtt.Client
