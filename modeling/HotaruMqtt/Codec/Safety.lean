import HotaruMqtt.Codec.Accept.Connect
import HotaruMqtt.Codec.Frame

/-!
# The decoders do not panic

Every index and range of the parsers goes through an accessor that panics out
of bounds, every loop has a measure that would run out if it did not end, and
the code after the length loop is a panic.  None of these is reached, on any
bytes, in either decoder, and every error is a codec or a protocol error.
-/

namespace HotaruMqtt.Codec

open Exec Exec.Outcome

/-! ## Parsers -/

theorem only_parseWill (body : Bytes) (flags : UInt8) (cursor : Nat) :
    (parseWill body flags cursor).Only MqttError.IsWire := by
  unfold parseWill
  dsimp only
  split
  · apply (only_readArcStr body cursor).bind
    rintro ⟨topic, afterTopic⟩ -
    apply (only_readBytes body afterTopic).bind
    rintro ⟨payload, afterPayload⟩ -
    apply (only_okOr trivial _).bind
    intro qos _
    exact only_ok _
  · exact only_ok _

theorem only_parseFlagged {α : Type} (flags flag : UInt8)
    {read : Nat → Outcome MqttError (α × Nat)}
    (only : ∀ cursor, (read cursor).Only MqttError.IsWire)
    (cursor : Nat) : (parseFlagged flags flag read cursor).Only MqttError.IsWire := by
  unfold parseFlagged
  split
  · apply (only cursor).bind
    rintro ⟨value, after⟩ -
    exact only_ok _
  · exact only_ok _

theorem only_parseConnectFields (body : Bytes) (flags : UInt8) (keepAlive : UInt16) :
    (parseConnectFields body flags keepAlive).Only MqttError.IsWire := by
  apply (only_readArcStr body 10).bind
  rintro ⟨clientId, afterId⟩ -
  apply (only_parseWill body flags afterId).bind
  rintro ⟨will, afterWill⟩ -
  apply (only_parseFlagged flags _ (only_readArcStr body) afterWill).bind
  rintro ⟨username, afterName⟩ -
  apply (only_parseFlagged flags _ (only_readBytes body) afterName).bind
  rintro ⟨password, afterWord⟩ -
  exact only_ok _

/-- The ten fixed offsets are behind the length test. -/
theorem only_parseConnect (body : Bytes) : (parseConnect body).Only MqttError.IsWire := by
  unfold parseConnect
  split
  · exact only_err trivial
  · rename_i long
    apply (Slice.only_index (by omega)).bind
    intro high _
    apply (Slice.only_index (by omega)).bind
    intro low _
    rw [Slice.range_of_le (by omega) (by omega), ok_bind]
    split
    · exact only_err trivial
    · apply (Slice.only_index (by omega)).bind
      intro level _
      split
      · exact only_err trivial
      · apply (Slice.only_index (by omega)).bind
        intro flags _
        apply (Slice.only_index (by omega)).bind
        intro keepHigh _
        apply (Slice.only_index (by omega)).bind
        intro keepLow _
        exact only_parseConnectFields body flags _

theorem only_parseConnack (body : Bytes) : (parseConnack body).Only MqttError.IsWire := by
  unfold parseConnack
  split
  · exact only_err trivial
  · apply (Slice.only_index (by omega)).bind
    intro flags _
    apply (Slice.only_index (by omega)).bind
    intro code _
    apply (only_okOr trivial _).bind
    intro answer _
    exact only_ok _

theorem only_parsePublish (first : UInt8) (body : Bytes) :
    (parsePublish first body).Only MqttError.IsWire := by
  rw [parsePublish_eq]
  split
  · exact only_err trivial
  · apply (only_okOr trivial _).bind
    intro qos _
    apply (only_readArcStr body 0).bind
    rintro ⟨topic, afterTopic⟩ topicRead
    have onlyId : (readPublishId qos body afterTopic).Only MqttError.IsWire := by
      unfold readPublishId
      split
      · apply (only_readU16 body afterTopic).bind
        rintro ⟨id, after⟩ -
        exact only_ok _
      · exact only_ok _
    apply onlyId.bind
    rintro ⟨packetId, afterId⟩ idRead
    -- The cursor of the payload is where the id ended, which is inside the body.
    obtain ⟨-, rfl, topicFound⟩ := readArcStr_eq_ok_iff.mp topicRead
    obtain ⟨-, rfl, idFound⟩ := readPublishId_eq_ok_iff.mp idRead
    have topicLengths := congrArg List.length topicFound
    have idLengths := congrArg List.length idFound
    simp only [List.length_drop, List.length_append, length_lengthPrefixed]
      at topicLengths idLengths
    dsimp only
    rw [Slice.rangeFrom_of_le (by omega), ok_bind]
    exact only_ok _

theorem only_parseAckPacket (first : UInt8) (packetType : PacketType) (body : Bytes) :
    (parseAckPacket first packetType body.length body).Only MqttError.IsWire := by
  by_cases two : body.length = 2
  · obtain ⟨id, rfl⟩ := exists_eq_toBeBytes two
    rw [parseAckPacket_toBeBytes]
    split
    · exact only_err trivial
    · exact only_ok _
  · rw [parseAckPacket, if_pos two]
    exact only_err trivial

/-- The SUBSCRIBE loop ends, and stays inside the body. -/
theorem only_subscribeLoop (body : Bytes) (cursor : Nat) (subs : List TopicSubscription) :
    (subscribeLoop body cursor subs).Only MqttError.IsWire :=
  (subscribe_entryLoop body).exec_only (only_subscribePass body) _

/-- The UNSUBSCRIBE loop ends, and stays inside the body. -/
theorem only_unsubscribeLoop (body : Bytes) (cursor : Nat) (topics : List String) :
    (unsubscribeLoop body cursor topics).Only MqttError.IsWire :=
  (unsubscribe_entryLoop body).exec_only (only_unsubscribePass body) _

theorem only_parseSubscribe (body : Bytes) : (parseSubscribe body).Only MqttError.IsWire := by
  unfold parseSubscribe
  split
  · exact only_err trivial
  · apply (only_readU16 body 0).bind
    rintro ⟨packetId, cursor⟩ -
    apply (only_subscribeLoop body cursor []).bind
    intro subs _
    exact only_ok _

theorem only_parseUnsubscribe (body : Bytes) : (parseUnsubscribe body).Only MqttError.IsWire := by
  unfold parseUnsubscribe
  split
  · exact only_err trivial
  · apply (only_readU16 body 0).bind
    rintro ⟨packetId, cursor⟩ -
    apply (only_unsubscribeLoop body cursor []).bind
    intro topics _
    exact only_ok _

theorem only_parseSuback (body : Bytes) : (parseSuback body).Only MqttError.IsWire := by
  unfold parseSuback
  split
  · exact only_err trivial
  · apply (Slice.only_index (by omega)).bind
    intro high _
    apply (Slice.only_index (by omega)).bind
    intro low _
    rw [Slice.rangeFrom_of_le (by omega), ok_bind]
    apply Only.bind
    · apply only_collect
      intro call listed
      obtain ⟨code, -, rfl⟩ := List.mem_map.mp listed
      exact only_okOr trivial _
    · intro codes _
      exact only_ok _

theorem only_parseUnsuback (body : Bytes) :
    (parseUnsuback body.length body).Only MqttError.IsWire := by
  unfold parseUnsuback
  split
  · exact only_err trivial
  · rename_i two
    apply (Slice.only_index (by omega)).bind
    intro high _
    apply (Slice.only_index (by omega)).bind
    intro low _
    exact only_ok _

theorem only_requireEmptyBody (remaining : Nat) :
    (requireEmptyBody remaining).Only MqttError.IsWire := by
  unfold requireEmptyBody
  split
  · exact only_err trivial
  · exact only_ok _

/-- With the declared length equal to the length of the body, no parser panics. -/
theorem only_parsePacket (first : UInt8) (packetType : PacketType) (body : Bytes) :
    (parsePacket first packetType body.length body).Only MqttError.IsWire := by
  cases packetType with
  | connect => exact only_parseConnect body
  | connack => exact only_parseConnack body
  | publish => exact only_parsePublish first body
  | puback | pubrec | pubrel | pubcomp => exact only_parseAckPacket first _ body
  | subscribe => exact only_parseSubscribe body
  | suback => exact only_parseSuback body
  | unsubscribe => exact only_parseUnsubscribe body
  | unsuback => exact only_parseUnsuback body
  | pingreq | pingresp | disconnect =>
      apply (only_requireEmptyBody body.length).bind
      intro _ _
      exact only_ok _

/-! ## The two decoders -/

theorem only_peekHeader {buffer : Bytes} (long : ¬ buffer.length < 2) :
    (peekHeader buffer).Only MqttError.IsWire := by
  unfold peekHeader
  apply (Slice.only_index (by omega)).bind
  intro first _
  apply (only_okOr trivial _).bind
  intro packetType _
  rw [Slice.rangeFrom_of_le (by omega), ok_bind]
  apply (only_sliceLengthFrom _ _ _).bind
  intro decoded _
  exact only_ok _

theorem only_decodePacketFromBytes (maxSize : Nat) (buffer : Bytes) :
    (decodePacketFromBytes maxSize buffer).1.Only MqttError.IsWire := by
  unfold decodePacketFromBytes
  split
  · exact only_ok _
  · rename_i long
    have onlyHeader := only_peekHeader long
    split
    · rename_i error refused
      exact only_err (onlyHeader.error error refused)
    · rename_i cause panicked
      exact absurd panicked (onlyHeader.safe cause)
    · exact only_ok _
    · split
      · exact only_err trivial
      · dsimp only
        split
        · exact only_ok _
        · rename_i first packetType remaining rlBytes _ _ enough
          rw [Slice.splitTo_of_le (by omega)]
          have taken : (buffer.take (1 + rlBytes + remaining)).length =
              1 + rlBytes + remaining := by
            rw [List.length_take]
            omega
          have bodyLength :
              ((buffer.take (1 + rlBytes + remaining)).drop (1 + rlBytes)).length =
                remaining := by
            rw [List.length_drop, taken]
            omega
          dsimp only
          rw [Slice.rangeFrom_of_le (by omega), ok_bind]
          have onlyBody := only_parsePacket first packetType
            ((buffer.take (1 + rlBytes + remaining)).drop (1 + rlBytes))
          rw [bodyLength] at onlyBody
          apply onlyBody.bind
          intro packet _
          exact only_ok _

/-- Four iterations are enough, so the code after the loop is not reached. -/
theorem safe_readLengthLoop {left i : Nat} (count : i + left = 3) (acc : LengthAcc) :
    (readLengthLoop (left + 1) i acc).Safe := by
  induction left generalizing i acc with
  | zero =>
      intro bytes one
      obtain ⟨byte, rfl⟩ := List.length_eq_one_iff.mp one
      obtain rfl : i = 3 := by omega
      change (ReadFuture.bind (.ready (readLengthPass 3 acc byte)) _).Safe
      unfold readLengthPass
      dsimp only
      split
      · exact safe_ok _
      · exact safe_err _
  | succ left ih =>
      intro bytes one
      obtain ⟨byte, rfl⟩ := List.length_eq_one_iff.mp one
      change (ReadFuture.bind (.ready (readLengthPass i acc byte)) _).Safe
      unfold readLengthPass
      dsimp only
      split
      · exact safe_ok _
      · split
        · exact safe_err _
        · exact ih (by omega) (acc.push byte)

theorem safe_readPacket (maxSize : Nat) : (readPacket maxSize).Safe := by
  intro header one
  obtain ⟨first, rfl⟩ := List.length_eq_one_iff.mp one
  change ReadFuture.Safe (ReadFuture.ready (okOr _ (PacketType.tryFrom (first >>> 4))) >>= _)
  have typeSafe : (ReadFuture.ready (okOr
      (MqttError.codec (.invalidPacketType (first >>> 4)))
      (PacketType.tryFrom (first >>> 4))) : ReadFuture UInt8 MqttError PacketType).Safe :=
    safe_okOr _ _
  apply typeSafe.bind
  intro packetType
  have lengthSafe : readRemainingLength.Safe := safe_readLengthLoop (show 0 + 3 = 3 from rfl) _
  apply lengthSafe.bind
  intro remaining
  split
  · exact safe_err _
  · intro body exactly
    subst exactly
    exact (only_parsePacket first packetType body).safe

/-! ## The accumulator -/

/-- The accumulator after `i` groups. -/
structure AccBound (i : Nat) (acc : LengthAcc) : Prop where
  result : acc.result < 128 ^ i
  multiplier : acc.multiplier = 128 ^ i

theorem AccBound.start : AccBound 0 .start :=
  ⟨by decide, rfl⟩

theorem AccBound.push {i : Nat} {acc : LengthAcc} (bound : AccBound i acc) (byte : UInt8) :
    AccBound (i + 1) (acc.push byte) := by
  obtain ⟨result, multiplier⟩ := bound
  have group := toNat_low_seven_lt byte
  have weighted : (byte &&& 0x7F).toNat * 128 ^ i ≤ 127 * 128 ^ i :=
    Nat.mul_le_mul_right _ (Nat.le_of_lt_succ group)
  constructor
  · rw [LengthAcc.push, multiplier, Nat.pow_succ]
    dsimp only
    omega
  · rw [LengthAcc.push, multiplier, Nat.pow_succ]

/-- An accumulator that fits the largest remaining length. -/
def AccInRange (acc : LengthAcc) : Prop :=
  acc.result ≤ 268435455 ∧ acc.multiplier ≤ 2 ^ 28

theorem AccBound.inRange {i : Nat} {acc : LengthAcc} (bound : AccBound i acc)
    (early : i ≤ 4) : AccInRange acc := by
  have power : 128 ^ i ≤ 128 ^ 4 := Nat.pow_le_pow_right (by decide) early
  have result := bound.result
  have multiplier := bound.multiplier
  constructor <;> omega

/-- The slice loop before an iteration. -/
def SliceBounded (state : SliceLength) : Prop :=
  state.i ≤ 3 ∧ AccBound state.i state.acc

/-- An iteration of the slice loop keeps the accumulator at its group. -/
theorem SliceBounded.pass {state next : SliceLength} (bounded : SliceBounded state)
    (step : sliceLengthPass state = ok (.again next)) : SliceBounded next := by
  obtain ⟨early, bound⟩ := bounded
  unfold sliceLengthPass at step
  split at step
  · simp at step
  · split at step
    · simp at step
    · split at step
      · contradiction
      · rename_i byte rest _ _ notLast
        simp only [ok.injEq, Loop.Pass.again.injEq] at step
        subst next
        exact ⟨Nat.not_le.mp notLast, bound.push byte⟩

theorem sliceBounded_of_reaches {data : Bytes} {state : SliceLength}
    (reached : Loop.Reaches sliceLengthPass ⟨0, .start, data⟩ state) :
    SliceBounded state :=
  reached.invariant ⟨Nat.zero_le 3, .start⟩ fun _ _ => SliceBounded.pass

/-- One iteration of the reader's loop on some byte. -/
def ReaderStep (state next : Nat × LengthAcc) : Prop :=
  ∃ byte, readLengthPass state.1 state.2 byte = ok (.again next)

/-- The iterations of the reader's loop keep the accumulator at its group. -/
theorem accBound_of_readerSteps {state : Nat × LengthAcc}
    (reached : Relation.ReflTransGen ReaderStep (0, .start) state) :
    state.1 ≤ 3 ∧ AccBound state.1 state.2 := by
  induction reached with
  | refl => exact ⟨by decide, .start⟩
  | tail _ step ih =>
      obtain ⟨byte, step⟩ := step
      obtain ⟨early, bound⟩ := ih
      unfold readLengthPass at step
      dsimp only at step
      split at step
      · simp at step
      · split at step
        · contradiction
        · rename_i more notLast
          simp only [ok.injEq, Loop.Pass.again.injEq] at step
          subst step
          dsimp only
          exact ⟨by omega, bound.push byte⟩

/-- No bytes make either decoder panic: every index and range is inside the
body, every loop ends, the code after the length loop is not reached, and in
both length loops every accumulator, before and after the byte of its
iteration, is in range. -/
theorem decoders_never_panic (maxSize : Nat) :
    (∀ buffer, (decodePacketFromBytes maxSize buffer).1.Safe) ∧
      (readPacket maxSize).Safe ∧
      (∀ eof input, ((readPacket maxSize).runToEof eof input).1.Safe) ∧
      (∀ body cursor subs, (subscribeLoop body cursor subs).Safe) ∧
      (∀ body cursor topics, (unsubscribeLoop body cursor topics).Safe) ∧
      (∀ data state, Loop.Reaches sliceLengthPass ⟨0, .start, data⟩ state →
        AccInRange state.acc ∧ ∀ byte, AccInRange (state.acc.push byte)) ∧
      ∀ state, Relation.ReflTransGen ReaderStep (0, .start) state →
        AccInRange state.2 ∧ ∀ byte, AccInRange (state.2.push byte) := by
  refine ⟨fun buffer => (only_decodePacketFromBytes maxSize buffer).safe,
    safe_readPacket maxSize, (safe_readPacket maxSize).runToEof,
    fun body cursor subs => (only_subscribeLoop body cursor subs).safe,
    fun body cursor topics => (only_unsubscribeLoop body cursor topics).safe, ?_, ?_⟩
  · intro data state reached
    obtain ⟨early, bound⟩ := sliceBounded_of_reaches reached
    exact ⟨bound.inRange (by omega), fun byte => (bound.push byte).inRange (by omega)⟩
  · intro state reached
    obtain ⟨early, bound⟩ := accBound_of_readerSteps reached
    exact ⟨bound.inRange (by omega), fun byte => (bound.push byte).inRange (by omega)⟩

end HotaruMqtt.Codec
