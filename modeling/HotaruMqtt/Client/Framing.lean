import HotaruMqtt.Client.Loop
import HotaruMqtt.Codec.Agreement
import HotaruMqtt.Codec.Reconstruct

/-!
# Framing in the client's main loop

A read future that is dropped takes its bytes with it.  So the loop passes
exactly the packets of its input to dispatch when the timer never wins while a
packet is half read, and not otherwise.

The first direction follows the run: what the current future holds, what waits
in the socket and what has yet to arrive are together the packets still to
come.  The other direction counts: no frame of a packet is shorter than the one
the encoder writes, so bytes that are lost are missing in the end.
-/

namespace HotaruMqtt.Client

open Exec Exec.Outcome Codec

/-! ## Streams of packets -/

/-- The bytes the encoder writes for a packet. -/
def encoded (packet : Packet) : Bytes :=
  frameBytes (firstByte packet) (wireBody packet)

/-- The encodings of packets, one after the other. -/
def stream (packets : List Packet) : Bytes :=
  packets.flatMap encoded

/-- A packet a server may send to this client in the middle of a session. -/
structure Expected (maxSize : Nat) (packet : Packet) : Prop where
  legal : Legal packet
  admitted : (wireBody packet).length ≤ maxSize
  notDisconnect : packet ≠ .disconnect

theorem two_le_length_encoded (packet : Packet) : 2 ≤ (encoded packet).length := by
  have positive := length_encodeRemainingLength_pos (wireBody packet).length
  simp only [encoded, frameBytes, List.cons_append, List.length_cons, List.length_append]
  omega

theorem encodePacket_of_legal {packet : Packet} (legal : Legal packet) :
    encodePacket packet = ok (encoded packet) :=
  encodePacket_eq_ok_iff.mpr ⟨legal.encodable, rfl⟩

theorem wireBody_asDecoded (packet : Packet) : wireBody (asDecoded packet) = wireBody packet := by
  cases packet with
  | publish publish =>
      rcases publish with ⟨topic, payload, dup, qos, retain, id⟩
      cases qos <;> rfl
  | _ => rfl

theorem length_encoded_asDecoded (packet : Packet) :
    (encoded (asDecoded packet)).length = (encoded packet).length := by
  simp only [encoded, frameBytes, wireBody_asDecoded, List.cons_append, List.length_cons]

theorem length_stream_map_asDecoded (packets : List Packet) :
    (stream (packets.map asDecoded)).length = (stream packets).length := by
  induction packets with
  | nil => rfl
  | cons packet rest ih =>
      simp only [stream, List.map_cons, List.flatMap_cons, List.length_append,
        length_encoded_asDecoded]
      exact congrArg _ ih

theorem asDecoded_ne_disconnect {packet : Packet} (other : packet ≠ .disconnect) :
    asDecoded packet ≠ .disconnect := by
  cases packet with
  | disconnect => exact absurd rfl other
  | _ => simp [asDecoded]

/-- The reader returns the packet at the front of its input. -/
theorem poll_encoded {maxSize : Nat} {packet : Packet} (expected : Expected maxSize packet)
    (rest : Bytes) :
    (readPacket maxSize).poll (encoded packet ++ rest) =
      .ready (ok (asDecoded packet)) rest := by
  have long := two_le_length_encoded packet
  have decoded : decodePacketFromBytes maxSize (encoded packet ++ rest) =
      (ok (some (asDecoded packet)), rest) :=
    decode_frameBytes expected.legal expected.admitted rest
  cases agree_of_two_le (show 2 ≤ (encoded packet ++ rest).length by
      rw [List.length_append]; omega) maxSize with
  | packet found left buffered streamed =>
      rw [decoded] at buffered
      cases buffered
      exact streamed
  | needMore waiting held buffered _ =>
      rw [decoded] at buffered
      simp at buffered
  | failed error left unread buffered _ =>
      rw [decoded] at buffered
      simp at buffered

theorem poll_readPacket_nil (maxSize : Nat) :
    ∃ waiting held, (readPacket maxSize).poll [] = .pending waiting held := by
  rw [readPacket, ReadFuture.read_bind, ReadFuture.poll_readExact_of_lt (by simp)]
  exact ⟨_, _, rfl⟩

theorem two_le_length_of_poll {maxSize : Nat} {input unread : Bytes} {packet : Packet}
    (finished : (readPacket maxSize).poll input = .ready (ok packet) unread) :
    2 ≤ input.length := by
  rcases input with _ | ⟨first, _ | ⟨second, rest⟩⟩
  · obtain ⟨waiting, held, pending⟩ := poll_readPacket_nil maxSize
    rw [pending] at finished
    contradiction
  · cases known : PacketType.tryFrom (first >>> 4) with
    | none =>
        rw [poll_readPacket_cons, known] at finished
        simp at finished
    | some packetType =>
        have pending : readRemainingLength.poll [] = .pending readRemainingLength [] :=
          ReadFuture.poll_readExact_of_lt (by simp)
        rw [poll_readPacket_known maxSize [] known, pending] at finished
        contradiction
  · simp

/-- No frame of a packet is shorter than the one the encoder writes. -/
theorem length_encoded_le_of_accepts {frame : Frame} {packet : Packet}
    (accepted : Accepts frame.first frame.body packet) :
    (encoded packet).length ≤ frame.bytes.length := by
  have body := length_wireBody_le_of_accepts accepted
  have value := lengthValue_lt frame.lengthField
  rw [frame.declared] at value
  have field := (length_encodeRemainingLength_le_iff frame.lengthField.length
    (wireBody packet).length frame.complete.length_pos).mpr (by omega)
  simp only [encoded, frameBytes, Frame.bytes, List.cons_append, List.length_cons,
    List.length_append]
  omega

/-- A packet that is read has used at least as many bytes as are written for it. -/
theorem length_encoded_le_of_poll {maxSize : Nat} {input unread : Bytes} {packet : Packet}
    (finished : (readPacket maxSize).poll input = .ready (ok packet) unread) :
    (encoded packet).length + unread.length ≤ input.length := by
  cases agree_of_two_le (two_le_length_of_poll finished) maxSize with
  | needMore waiting held _ streamed =>
      rw [finished] at streamed
      contradiction
  | failed error left rest _ streamed =>
      rw [finished] at streamed
      simp at streamed
  | packet found rest buffered streamed =>
      rw [finished] at streamed
      simp only [Poll.ready.injEq, ok.injEq] at streamed
      obtain ⟨rfl, rfl⟩ := streamed
      obtain ⟨frame, rfl, -, -⟩ := decode_eq_some_iff.mp buffered
      obtain ⟨-, -, accepted⟩ := accepts_of_decode buffered
      have written := length_encoded_le_of_accepts accepted
      rw [List.length_append]
      omega

/-! ## Runs in step with the stream -/

/-- The loop is running and has yet to pass on `todo`, whose bytes are what the
current future has taken, what waits in the socket, and what is still to come. -/
structure InSync (maxSize : Nat) (todo : List Packet) (later : Bytes) (state : ClientLoop) :
    Prop where
  running : state.status = .running
  healthy : Healthy state.connection
  origin : state.reading.From (readPacket maxSize)
  bytes : state.reading.taken ++ state.socket ++ later = stream todo

theorem inSync_start (maxSize : Nat) (packets : List Packet) {connection : Connection}
    (healthy : Healthy connection) :
    InSync maxSize packets (stream packets) (.start maxSize connection) :=
  ⟨rfl, healthy, Reading.fresh_from _, rfl⟩

/-- A packet that is not DISCONNECT is passed on, and the next one is awaited. -/
theorem handleInbound_ok (maxSize : Nat) (state : ClientLoop) {packet : Packet}
    (healthy : Healthy state.connection) (other : packet ≠ .disconnect) :
    ∃ connection, Healthy connection ∧
      state.handleInbound maxSize (ok packet) =
        { state with
          connection
          dispatched := state.dispatched ++ [packet]
          reading := .fresh (readPacket maxSize) } := by
  obtain ⟨connection, next, dispatch⟩ := dispatchClientInbound_healthy healthy packet
  refine ⟨connection, next, ?_⟩
  rw [decide_eq_false other] at dispatch
  simp only [ClientLoop.handleInbound, dispatch, ClientLoop.nextIteration, next.2, if_true]

/-- A poll either waits with everything that has arrived, or passes on the next
packet. -/
theorem InSync.pollRead {maxSize : Nat} {todo : List Packet} {later : Bytes}
    {state : ClientLoop} (sync : InSync maxSize todo later state)
    (expected : ∀ packet ∈ todo, Expected maxSize packet) :
    (InSync maxSize todo later (state.pollRead maxSize) ∧
        (state.pollRead maxSize).dispatched = state.dispatched ∧
        (later = [] → todo = [])) ∨
      ∃ packet rest, todo = packet :: rest ∧
        InSync maxSize rest later (state.pollRead maxSize) ∧
        (state.pollRead maxSize).dispatched = state.dispatched ++ [asDecoded packet] := by
  have polled := sync.origin state.socket
  cases answer : state.reading.future.poll (state.reading.held ++ state.socket) with
  | pending future held =>
      left
      have polledState : state.pollRead maxSize =
          { state with
            socket := []
            reading := ⟨future, held, state.reading.taken ++ state.socket⟩ } := by
        rw [ClientLoop.pollRead, answer]
      rw [polledState]
      refine ⟨⟨sync.running, sync.healthy, sync.origin.pending answer, ?_⟩, rfl, ?_⟩
      · simpa using sync.bytes
      · rintro rfl
        -- With every byte here, the next packet would have been complete.
        rcases todo with _ | ⟨packet, rest⟩
        · rfl
        · have whole := sync.bytes
          rw [List.append_nil, stream, List.flatMap_cons] at whole
          rw [answer, whole, poll_encoded (expected packet List.mem_cons_self)] at polled
          contradiction
  | ready outcome unread =>
      right
      rw [answer] at polled
      have more := ReadFuture.poll_append_of_ready polled later
      rw [sync.bytes] at more
      rcases todo with _ | ⟨packet, rest⟩
      · obtain ⟨waiting, held, pending⟩ := poll_readPacket_nil maxSize
        rw [stream, List.flatMap_nil, pending] at more
        contradiction
      · have next := expected packet List.mem_cons_self
        rw [stream, List.flatMap_cons, poll_encoded next] at more
        simp only [Poll.ready.injEq] at more
        obtain ⟨rfl, left⟩ := more
        obtain ⟨connection, healthy, handled⟩ := handleInbound_ok maxSize
          { state with socket := unread, reading := .fresh (readPacket maxSize) }
          sync.healthy (asDecoded_ne_disconnect next.notDisconnect)
        have polledState : state.pollRead maxSize =
            ClientLoop.handleInbound maxSize
              { state with socket := unread, reading := .fresh (readPacket maxSize) }
              (ok (asDecoded packet)) := by
          rw [ClientLoop.pollRead, answer]
        rw [polledState, handled]
        exact ⟨packet, rest, rfl,
          ⟨sync.running, healthy, Reading.fresh_from _, left.symm⟩, rfl⟩

/-- A tick between packets loses nothing. -/
theorem InSync.tick {maxSize : Nat} {todo : List Packet} {later : Bytes} {state : ClientLoop}
    (sync : InSync maxSize todo later state) (between : state.reading.taken = []) :
    InSync maxSize todo later (state.tick maxSize) ∧
      (state.tick maxSize).dispatched = state.dispatched := by
  obtain ⟨alive, isOpen⟩ := sync.healthy
  have bytes := sync.bytes
  rw [between] at bytes
  have ticked : state.tick maxSize =
      { state with
        connection := { state.connection with channel :=
          { state.connection.channel with sent := state.connection.channel.sent ++ [.pingreq] } }
        reading := .fresh (readPacket maxSize) } := by
    simp only [ClientLoop.tick, MqttChannel.sendPacket, alive, if_true,
      ClientLoop.nextIteration, isOpen]
  rw [ticked]
  exact ⟨⟨sync.running, ⟨alive, isOpen⟩, Reading.fresh_from _, bytes⟩, rfl⟩

/-- One event of an undisturbed schedule, with ticks only between packets. -/
theorem InSync.step {maxSize : Nat} {todo : List Packet} {later : Bytes} {state : ClientLoop}
    {event : Event} (sync : InSync maxSize todo (arrivals [event] ++ later) state)
    (expected : ∀ packet ∈ todo, Expected maxSize packet)
    (undisturbed : event ≠ .shutdown ∧ event ≠ .writerExit)
    (between : event = .tick → state.reading.taken = []) :
    ∃ done rest, todo = done ++ rest ∧ InSync maxSize rest later (state.step maxSize event) ∧
      (state.step maxSize event).dispatched = state.dispatched ++ done.map asDecoded := by
  cases event with
  | arrive chunk =>
      refine ⟨[], todo, rfl, ⟨sync.running, sync.healthy, sync.origin, ?_⟩, by
        simp [ClientLoop.step]⟩
      have bytes := sync.bytes
      simp only [arrivals, List.append_nil, ← List.append_assoc] at bytes
      simpa [ClientLoop.step] using bytes
  | pollRead =>
      rw [ClientLoop.step, if_pos sync.running]
      rcases sync.pollRead expected with ⟨next, same, -⟩ | ⟨packet, rest, rfl, next, passed⟩
      · exact ⟨[], todo, rfl, next, by simpa using same⟩
      · exact ⟨[packet], rest, rfl, next, by simpa using passed⟩
  | tick =>
      rw [ClientLoop.step, if_pos sync.running]
      obtain ⟨next, same⟩ := sync.tick (between rfl)
      exact ⟨[], todo, rfl, next, by simpa using same⟩
  | shutdown => exact absurd rfl undisturbed.1
  | writerExit => exact absurd rfl undisturbed.2

theorem arrivals_cons (event : Event) (events : List Event) :
    arrivals (event :: events) = arrivals [event] ++ arrivals events := by
  cases event <;> simp [arrivals]

theorem arrivals_append (first second : List Event) :
    arrivals (first ++ second) = arrivals first ++ arrivals second := by
  induction first with
  | nil => rfl
  | cons event events ih =>
      rw [List.cons_append, arrivals_cons, ih, arrivals_cons event events, List.append_assoc]

/-- Along an undisturbed run with ticks only between packets, what has been
passed on is the front of the stream. -/
theorem InSync.run {maxSize : Nat} {todo : List Packet} {later : Bytes} {state : ClientLoop}
    {events : List Event} (sync : InSync maxSize todo (arrivals events ++ later) state)
    (expected : ∀ packet ∈ todo, Expected maxSize packet) (undisturbed : Undisturbed events)
    (between : TicksBetweenPackets maxSize state events) :
    ∃ done rest, todo = done ++ rest ∧ InSync maxSize rest later (state.run maxSize events) ∧
      (state.run maxSize events).dispatched = state.dispatched ++ done.map asDecoded := by
  induction events generalizing todo state with
  | nil => exact ⟨[], todo, rfl, sync, by simp [ClientLoop.run]⟩
  | cons event events ih =>
      rw [arrivals_cons, List.append_assoc] at sync
      obtain ⟨done, rest, rfl, next, passed⟩ := sync.step expected
        (undisturbed event List.mem_cons_self) between.1
      obtain ⟨moreDone, moreRest, rfl, last, morePassed⟩ := ih next
        (fun packet listed => expected packet (List.mem_append_right done listed))
        (fun other listed => undisturbed other (List.mem_cons_of_mem event listed)) between.2
      refine ⟨done ++ moreDone, moreRest, by rw [List.append_assoc], last, ?_⟩
      rw [ClientLoop.run, morePassed, passed, List.map_append, List.append_assoc]

/-- When everything has arrived, enough polls pass on everything. -/
theorem InSync.settle {maxSize : Nat} {todo : List Packet} {state : ClientLoop} {polls : Nat}
    (sync : InSync maxSize todo [] state)
    (expected : ∀ packet ∈ todo, Expected maxSize packet)
    (enough : (stream todo).length ≤ polls) :
    (state.run maxSize (List.replicate polls .pollRead)).dispatched =
      state.dispatched ++ todo.map asDecoded := by
  induction polls generalizing todo state with
  | zero =>
      rcases todo with _ | ⟨packet, rest⟩
      · simp [ClientLoop.run]
      · have long := two_le_length_encoded packet
        rw [stream, List.flatMap_cons, List.length_append] at enough
        omega
  | succ polls ih =>
      rw [List.replicate_succ, ClientLoop.run, ClientLoop.step, if_pos sync.running]
      rcases sync.pollRead expected with ⟨next, same, finished⟩ | ⟨packet, rest, rfl, next, passed⟩
      · obtain rfl := finished rfl
        rw [ih next (by simp) (by simp [stream]), same]
      · have long := two_le_length_encoded packet
        rw [stream, List.flatMap_cons, List.length_append] at enough
        rw [ih next (fun other listed => expected other (List.mem_cons_of_mem packet listed))
          (by rw [stream]; omega), passed]
        simp

/-! ## Counting bytes -/

/-- The bytes a loop can account for: the encodings of what it has passed on,
what its future has taken, and what waits in the socket. -/
def accounted (state : ClientLoop) : Nat :=
  (stream state.dispatched).length + state.reading.taken.length + state.socket.length

theorem length_stream_append_singleton (packets : List Packet) (packet : Packet) :
    (stream (packets ++ [packet])).length =
      (stream packets).length + (encoded packet).length := by
  simp [stream]

theorem accounted_leave (state : ClientLoop) : accounted state.leave = accounted state :=
  rfl

/-- A new iteration drops what the last future had taken. -/
theorem accounted_nextIteration_le (maxSize : Nat) (state : ClientLoop) :
    accounted (state.nextIteration maxSize) ≤ accounted state := by
  unfold ClientLoop.nextIteration
  split
  · simp only [accounted, Reading.fresh, List.length_nil]
    omega
  · rw [accounted_leave]

theorem origin_nextIteration {maxSize : Nat} {state : ClientLoop}
    (origin : state.reading.From (readPacket maxSize)) :
    (state.nextIteration maxSize).reading.From (readPacket maxSize) := by
  unfold ClientLoop.nextIteration
  split
  · exact Reading.fresh_from _
  · exact origin

/-- The read branch accounts at most for the packet it is given. -/
theorem accounted_handleInbound_le (maxSize : Nat) (state : ClientLoop)
    (outcome : Outcome MqttError Packet) :
    accounted (state.handleInbound maxSize outcome) ≤
        accounted state + (match outcome with
          | .ok packet => (encoded packet).length
          | _ => 0) ∧
      (state.reading.From (readPacket maxSize) →
        (state.handleInbound maxSize outcome).reading.From (readPacket maxSize)) := by
  cases outcome with
  | ok packet =>
      simp only [ClientLoop.handleInbound]
      have passed : ∀ connection, accounted { state with
          connection, dispatched := state.dispatched ++ [packet] } =
            accounted state + (encoded packet).length := by
        intro connection
        simp only [accounted, length_stream_append_singleton]
        omega
      split
      · exact ⟨by rw [accounted_leave, passed], id⟩
      · refine ⟨(accounted_nextIteration_le maxSize _).trans (passed _).le, ?_⟩
        intro origin
        apply origin_nextIteration
        exact origin
      · exact ⟨(passed (dispatchClientInbound state.connection packet).2).le, id⟩
      · exact ⟨(passed (dispatchClientInbound state.connection packet).2).le, id⟩
  | err error =>
      cases error <;> exact ⟨Nat.le_refl _, id⟩
  | panic cause => exact ⟨Nat.le_refl _, id⟩

theorem accounted_pollRead_le {maxSize : Nat} {state : ClientLoop}
    (origin : state.reading.From (readPacket maxSize)) :
    accounted (state.pollRead maxSize) ≤ accounted state ∧
      (state.pollRead maxSize).reading.From (readPacket maxSize) := by
  unfold ClientLoop.pollRead
  have polled := origin state.socket
  cases answer : state.reading.future.poll (state.reading.held ++ state.socket) with
  | pending future held =>
      refine ⟨?_, origin.pending answer⟩
      simp only [accounted, List.length_append, List.length_nil]
      omega
  | ready outcome unread =>
      rw [answer] at polled
      obtain ⟨bound, kept⟩ := accounted_handleInbound_le maxSize
        { state with socket := unread, reading := .fresh (readPacket maxSize) } outcome
      refine ⟨bound.trans ?_, kept (Reading.fresh_from _)⟩
      cases outcome with
      | ok packet =>
          have used := length_encoded_le_of_poll polled
          rw [List.length_append] at used
          simp only [accounted, Reading.fresh, List.length_nil]
          omega
      | err error | panic cause =>
          have left := ReadFuture.length_unread_le polled
          rw [List.length_append] at left
          simp only [accounted, Reading.fresh, List.length_nil]
          omega

/-- Whatever happens, a loop accounts for no more than has arrived. -/
theorem accounted_step_le {maxSize : Nat} {state : ClientLoop}
    (origin : state.reading.From (readPacket maxSize)) (event : Event) :
    accounted (state.step maxSize event) ≤ accounted state + (arrivals [event]).length ∧
      (state.step maxSize event).reading.From (readPacket maxSize) := by
  cases event with
  | arrive chunk =>
      refine ⟨?_, origin⟩
      simp only [accounted, ClientLoop.step, arrivals, List.length_append, List.length_nil]
      omega
  | pollRead =>
      rw [ClientLoop.step]
      split
      · exact accounted_pollRead_le origin
      · exact ⟨Nat.le_refl _, origin⟩
  | tick =>
      rw [ClientLoop.step]
      split
      · unfold ClientLoop.tick
        split
        · exact ⟨accounted_nextIteration_le maxSize _, origin_nextIteration origin⟩
        · exact ⟨Nat.le_refl _, origin⟩
      · exact ⟨Nat.le_refl _, origin⟩
  | shutdown =>
      rw [ClientLoop.step]
      split
      · exact ⟨Nat.le_refl _, origin⟩
      · exact ⟨Nat.le_refl _, origin⟩
  | writerExit => exact ⟨Nat.le_refl _, origin⟩

theorem accounted_run_le {maxSize : Nat} {state : ClientLoop}
    (origin : state.reading.From (readPacket maxSize)) (events : List Event) :
    accounted (state.run maxSize events) ≤ accounted state + (arrivals events).length ∧
      (state.run maxSize events).reading.From (readPacket maxSize) := by
  induction events generalizing state with
  | nil => exact ⟨Nat.le_refl _, origin⟩
  | cons event events ih =>
      obtain ⟨bound, next⟩ := accounted_step_le origin event
      obtain ⟨rest, last⟩ := ih next
      refine ⟨?_, last⟩
      rw [ClientLoop.run, arrivals_cons, List.length_append]
      omega

/-- A tick while a packet is half read loses what was read of it. -/
theorem InSync.accounted_tick_lt {maxSize : Nat} {todo : List Packet} {later : Bytes}
    {state : ClientLoop} (sync : InSync maxSize todo later state)
    (torn : state.reading.taken ≠ []) :
    accounted (state.step maxSize .tick) < accounted state := by
  obtain ⟨alive, isOpen⟩ := sync.healthy
  have taken := List.length_pos_of_ne_nil torn
  rw [ClientLoop.step, if_pos sync.running]
  simp only [ClientLoop.tick, MqttChannel.sendPacket, alive, if_true,
    ClientLoop.nextIteration, isOpen, accounted, Reading.fresh, List.length_nil]
  omega

/-- The first such tick of a run is made up for by nothing after it. -/
theorem InSync.accounted_run_lt {maxSize : Nat} {todo : List Packet} {later : Bytes}
    {state : ClientLoop} {events : List Event}
    (sync : InSync maxSize todo (arrivals events ++ later) state)
    (expected : ∀ packet ∈ todo, Expected maxSize packet) (undisturbed : Undisturbed events)
    (torn : ¬ TicksBetweenPackets maxSize state events) :
    accounted (state.run maxSize events) < accounted state + (arrivals events).length := by
  induction events generalizing todo state with
  | nil => exact absurd trivial torn
  | cons event events ih =>
      obtain ⟨bound, origin⟩ := accounted_step_le sync.origin event
      rw [ClientLoop.run, arrivals_cons, List.length_append]
      by_cases between : event = .tick → state.reading.taken = []
      · rw [arrivals_cons, List.append_assoc] at sync
        obtain ⟨done, rest, rfl, next, -⟩ := sync.step expected
          (undisturbed event List.mem_cons_self) between
        have later := ih next
          (fun packet listed => expected packet (List.mem_append_right done listed))
          (fun other listed => undisturbed other (List.mem_cons_of_mem event listed))
          (fun rest => torn ⟨between, rest⟩)
        omega
      · obtain ⟨rfl, half⟩ := Classical.not_imp.mp between
        have lost := sync.accounted_tick_lt half
        have rest := (accounted_run_le origin events).1
        omega

/-! ## Whole runs -/

theorem TicksBetweenPackets.of_append {maxSize : Nat} {state : ClientLoop}
    {before after : List Event} (between : TicksBetweenPackets maxSize state (before ++ after)) :
    TicksBetweenPackets maxSize state before := by
  induction before generalizing state with
  | nil => trivial
  | cons event events ih => exact ⟨between.1, ih between.2⟩

theorem flatten_encodings {packets : List Packet} {encodings : List Bytes}
    (legal : ∀ packet ∈ packets, Legal packet)
    (written : packets.map encodePacket = encodings.map ok) :
    encodings.flatten = stream packets := by
  induction packets generalizing encodings with
  | nil =>
      obtain rfl : encodings = [] := List.map_eq_nil_iff.mp written.symm
      rfl
  | cons packet packets ih =>
      rcases encodings with _ | ⟨first, encodings⟩
      · simp at written
      · simp only [List.map_cons, List.cons.injEq,
          encodePacket_of_legal (legal packet List.mem_cons_self), ok.injEq] at written
        obtain ⟨rfl, written⟩ := written
        have rest := ih (fun other listed => legal other (List.mem_cons_of_mem packet listed))
          written
        rw [List.flatten_cons, rest, stream, stream, List.flatMap_cons]

theorem arrivals_replicate_pollRead (polls : Nat) :
    arrivals (List.replicate polls .pollRead) = [] := by
  induction polls with
  | zero => rfl
  | succ polls ih => simpa [List.replicate_succ, arrivals] using ih

/-- On a connection whose sends succeed, and for every chunking of the encodings
of legal packets and every placement of timer ticks, the loop passes on exactly
those packets if and only if no tick finds a packet half read.  And when none
does, what has been passed on is at every moment the front of that sequence. -/
theorem dispatched_eq_iff_ticksBetweenPackets (maxSize : Nat) (connection : Connection)
    (packets : List Packet) (encodings : List Bytes) (schedule : List Event)
    (healthy : Healthy connection)
    (expected : ∀ packet ∈ packets, Expected maxSize packet)
    (written : packets.map encodePacket = encodings.map ok)
    (arrived : arrivals schedule = encodings.flatten) (undisturbed : Undisturbed schedule) :
    ((((ClientLoop.start maxSize connection).run maxSize schedule).settle maxSize).dispatched =
        packets.map asDecoded ↔
      TicksBetweenPackets maxSize (.start maxSize connection) schedule) ∧
    (TicksBetweenPackets maxSize (.start maxSize connection) schedule →
      ∀ before after, schedule = before ++ after →
        ((ClientLoop.start maxSize connection).run maxSize before).dispatched <+:
          packets.map asDecoded) := by
  rw [flatten_encodings (fun packet listed => (expected packet listed).legal) written] at arrived
  have sync : InSync maxSize packets (arrivals schedule ++ []) (.start maxSize connection) := by
    rw [List.append_nil, arrived]
    exact inSync_start maxSize packets healthy
  refine ⟨⟨?_, ?_⟩, ?_⟩
  · -- A tick in mid-packet loses bytes, and so in the end a packet.
    intro passed
    by_contra torn
    have lost := sync.accounted_run_lt expected undisturbed torn
    have origin := (accounted_run_le sync.origin schedule).2
    have polled : accounted (((ClientLoop.start maxSize connection).run maxSize schedule).settle
        maxSize) ≤ _ := (accounted_run_le origin (List.replicate _ .pollRead)).1
    rw [arrivals_replicate_pollRead] at polled
    rw [arrived] at lost
    have total := length_stream_map_asDecoded packets
    rw [← passed] at total
    simp only [accounted, ClientLoop.start, Reading.fresh, stream, List.flatMap_nil,
      List.length_nil] at lost polled total
    omega
  · intro between
    obtain ⟨done, rest, rfl, last, passed⟩ := sync.run expected undisturbed between
    have waiting := last.bytes
    rw [List.append_nil] at waiting
    rw [ClientLoop.settle, last.settle
      (fun packet listed => expected packet (List.mem_append_right done listed))
      (by rw [← waiting, List.length_append]), passed, List.map_append]
    rfl
  · rintro between before after rfl
    rw [arrivals_append, List.append_assoc] at sync
    obtain ⟨done, rest, rfl, -, passed⟩ := sync.run expected
      (fun event listed => undisturbed event (List.mem_append_left after listed))
      between.of_append
    rw [passed, List.map_append]
    exact List.prefix_append _ _

/-- A PINGRESP in two chunks, with ticks before it and after it. -/
theorem dispatched_eq_pingresp_in_two_chunks :
    (((ClientLoop.start 16 .new).run 16
        [.tick, .arrive [0xD0], .pollRead, .arrive [0x00], .pollRead,
          .tick]).settle 16).dispatched =
      [.pingresp] := by
  refine (dispatched_eq_iff_ticksBetweenPackets 16 .new [.pingresp] [[0xD0, 0x00]] _
    ⟨rfl, rfl⟩ ?_ (by decide) (by decide) (by decide)).1.mpr (by decide)
  intro packet listed
  obtain rfl := List.mem_singleton.mp listed
  exact ⟨⟨trivial, trivial, trivial, by decide⟩, by decide, by decide⟩

/-- Two PINGRESPs, with a tick after the first byte.  The byte is lost, the loop
takes the second byte for a header, and nothing is passed on. -/
theorem tick_in_mid_packet_loses_framing :
    Healthy .new ∧ (∀ packet ∈ [Packet.pingresp, .pingresp], Expected 16 packet) ∧
    [Packet.pingresp, .pingresp].map encodePacket = [[0xD0, 0x00], [0xD0, 0x00]].map ok ∧
    arrivals [.arrive [0xD0], .pollRead, .tick, .arrive [0x00, 0xD0, 0x00]] =
      [[0xD0, 0x00], [0xD0, 0x00]].flatten ∧
    Undisturbed [.arrive [0xD0], .pollRead, .tick, .arrive [0x00, 0xD0, 0x00]] ∧
    (((ClientLoop.start 16 .new).run 16
        [.arrive [0xD0], .pollRead, .tick, .arrive [0x00, 0xD0, 0x00]]).settle 16).dispatched =
      [] ∧
    (((ClientLoop.start 16 .new).run 16
        [.arrive [0xD0], .pollRead, .tick, .arrive [0x00, 0xD0, 0x00]]).settle 16).status =
      .failed (.codec (.invalidPacketType 0)) := by
  refine ⟨⟨rfl, rfl⟩, ?_, by decide⟩
  intro packet listed
  obtain rfl : packet = .pingresp := by simpa using listed
  exact ⟨⟨trivial, trivial, trivial, by decide⟩, by decide, by decide⟩

end HotaruMqtt.Client
