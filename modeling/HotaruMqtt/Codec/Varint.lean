import HotaruMqtt.Packet
import HotaruMqtt.Exec.Loop
import HotaruMqtt.Exec.Read
import Mathlib.Tactic.Ring

/-!
# The remaining-length field

The variable-byte integer of `codec/varint.rs`: seven value bits a byte, least
significant group first, with the high bit set on every byte but the last, and
at most four bytes.

The crate reads the field in two places, once from a slice and once byte by
byte from an asynchronous reader.  Both loops are kept as they are written and
share only the accumulator they update; their agreement is proved, not built
in.
-/

namespace HotaruMqtt.Codec

open Exec Exec.Outcome

/-- The two variables both loops update: the value so far and the weight of
the next group. -/
structure LengthAcc where
  result : Nat
  multiplier : Nat
  deriving DecidableEq, Repr

namespace LengthAcc

/-- Nothing has been read. -/
def start : LengthAcc := ⟨0, 1⟩

/-- Add one byte's seven bits and raise the weight. -/
def push (acc : LengthAcc) (byte : UInt8) : LengthAcc :=
  { result := acc.result + (byte &&& 0x7F).toNat * acc.multiplier
    multiplier := acc.multiplier * 128 }

end LengthAcc

/-! ## Reading from a slice -/

/-- The loop variables of `decode_remaining_length_from_slice`, with the part
of the slice its iterator has not visited. -/
structure SliceLength where
  i : Nat
  acc : LengthAcc
  rest : Bytes
  deriving DecidableEq, Repr

/-- One iteration of the slice loop. -/
def sliceLengthPass (state : SliceLength) :
    Outcome MqttError (Loop.Pass SliceLength (Option (Nat × Nat))) :=
  match state.rest with
  | [] => ok (.leave none)
  | byte :: rest =>
      let acc := state.acc.push byte
      if byte &&& 0x80 = 0 then
        ok (.leave (some (acc.result, state.i + 1)))
      else if state.i ≥ 3 then
        err (.codec .malformedLength)
      else
        ok (.again ⟨state.i + 1, acc, rest⟩)

/-- The slice loop from an arbitrary iteration. -/
def sliceLengthFrom (i : Nat) (acc : LengthAcc) (data : Bytes) :
    Outcome MqttError (Option (Nat × Nat)) :=
  Loop.exec sliceLengthPass (fun state => state.rest.length) ⟨i, acc, data⟩

/-- The length field at the head of a slice, with its size, or nothing while the field is not
complete. -/
def decodeRemainingLengthFromSlice (data : Bytes) :
    Outcome MqttError (Option (Nat × Nat)) :=
  sliceLengthFrom 0 .start data

theorem sliceLengthPass_decreases :
    Loop.Decreases sliceLengthPass fun state => state.rest.length := by
  intro state next step
  unfold sliceLengthPass at step
  split at step
  · simp at step
  · rename_i byte rest restEq
    split at step
    · simp at step
    · split at step
      · contradiction
      · simp only [ok.injEq, Loop.Pass.again.injEq] at step
        subst next
        simp [restEq]

@[simp]
theorem sliceLengthFrom_nil (i : Nat) (acc : LengthAcc) :
    sliceLengthFrom i acc [] = ok none := by
  unfold sliceLengthFrom
  rw [Loop.exec_eq sliceLengthPass_decreases]
  rfl

theorem sliceLengthFrom_cons (i : Nat) (acc : LengthAcc) (byte : UInt8) (rest : Bytes) :
    sliceLengthFrom i acc (byte :: rest) =
      if byte &&& 0x80 = 0 then
        ok (some ((acc.push byte).result, i + 1))
      else if i ≥ 3 then
        err (.codec .malformedLength)
      else
        sliceLengthFrom (i + 1) (acc.push byte) rest := by
  unfold sliceLengthFrom
  rw [Loop.exec_eq sliceLengthPass_decreases, sliceLengthPass]
  dsimp only
  split
  · rfl
  · split <;> rfl

/-! ## Reading from a reader -/

/-- One iteration of `read_remaining_length`, after its byte has been read. -/
def readLengthPass (i : Nat) (acc : LengthAcc) (byte : UInt8) :
    Outcome MqttError (Loop.Pass (Nat × LengthAcc) Nat) :=
  let acc := acc.push byte
  if byte &&& 0x80 = 0 then
    ok (.leave acc.result)
  else if i = 3 then
    err (.codec .malformedLength)
  else
    ok (.again (i + 1, acc))

/-- The loop of `read_remaining_length` with `left` iterations to go.  Falling
off its end is the `unreachable!()` after it. -/
def readLengthLoop : Nat → Nat → LengthAcc → ReadFuture UInt8 MqttError Nat
  | 0, _, _ => .ready (.panic .unreachableCode)
  | left + 1, i, acc => do
      let bytes ← ReadFuture.read 1
      let byte ← .ready (Slice.index bytes 0)
      match ← ReadFuture.ready (readLengthPass i acc byte) with
      | .again (i, acc) => readLengthLoop left i acc
      | .leave result => .ready (ok result)

/-- The length field from a stream, byte by byte, at most four of them. -/
def readRemainingLength : ReadFuture UInt8 MqttError Nat :=
  readLengthLoop 4 0 .start

/-! ## Writing -/

/-- The loop of `encode_remaining_length`.  It divides the value at every
pass, so the value itself bounds the passes. -/
def encodeLengthLoop : Nat → Nat → Bytes → Bytes
  | 0, _, out => out
  | fuel + 1, value, out =>
      let byte := UInt8.ofNat (value % 128)
      let value := value / 128
      let byte := if value > 0 then byte ||| 0x80 else byte
      let out := out ++ [byte]
      if value = 0 then out else encodeLengthLoop fuel value out

/-- The length field of a body of this size. -/
def encodeRemainingLength (value : Nat) : Bytes :=
  encodeLengthLoop (value + 1) value []

/-! ## Complete fields -/

/-- The value of a sequence of seven-bit groups. -/
def lengthValue : Bytes → Nat
  | [] => 0
  | byte :: rest => (byte &&& 0x7F).toNat + 128 * lengthValue rest

/-- A complete field of at most `limit` bytes: the high bit is set on every
byte but the last. -/
def LengthField : Nat → Bytes → Prop
  | 0, _ => False
  | _ + 1, [] => False
  | limit + 1, byte :: rest =>
      if byte &&& 0x80 = 0 then rest = [] else LengthField limit rest

theorem LengthField.length_pos {limit : Nat} {field : Bytes}
    (complete : LengthField limit field) : 0 < field.length := by
  cases limit with
  | zero => exact complete.elim
  | succ limit =>
      cases field with
      | nil => exact complete.elim
      | cons byte rest => simp

theorem LengthField.length_le {limit : Nat} {field : Bytes}
    (complete : LengthField limit field) : field.length ≤ limit := by
  induction limit generalizing field with
  | zero => exact complete.elim
  | succ limit ih =>
      cases field with
      | nil => exact complete.elim
      | cons byte rest =>
          simp only [LengthField] at complete
          split at complete
          · subst rest
            simp
          · have shorter := ih complete
            simp
            omega

/-- A complete field at the front of a slice ends at the first byte or continues
behind it. -/
theorem LengthField.of_cons_eq_append {limit : Nat} {byte : UInt8} {tail field rest : Bytes}
    (complete : LengthField (limit + 1) field) (split : byte :: tail = field ++ rest) :
    if byte &&& 0x80 = 0 then field = [byte] ∧ rest = tail
    else ∃ more, field = byte :: more ∧ tail = more ++ rest ∧ LengthField limit more := by
  cases field with
  | nil => exact complete.elim
  | cons head more =>
      obtain ⟨rfl, rfl⟩ := List.cons.inj split
      simp only [LengthField] at complete
      split
      · rename_i last
        rw [if_pos last] at complete
        subst more
        exact ⟨rfl, rfl⟩
      · rename_i continued
        rw [if_neg continued] at complete
        exact ⟨more, rfl, rfl, complete⟩

/-- Seven bits are less than 128. -/
theorem toNat_low_seven_lt (byte : UInt8) : (byte &&& 0x7F).toNat < 128 := by
  rw [UInt8.toNat_and]
  exact Nat.lt_of_le_of_lt Nat.and_le_right (by decide)

theorem lengthValue_lt (field : Bytes) : lengthValue field < 128 ^ field.length := by
  induction field with
  | nil => simp [lengthValue]
  | cons byte rest ih =>
      have group := toNat_low_seven_lt byte
      rw [lengthValue, List.length_cons, Nat.pow_succ]
      omega

/-- The loop accepts exactly a complete field at the front of the slice. -/
theorem sliceLengthFrom_eq_some_iff {i : Nat} (early : i ≤ 3) {acc : LengthAcc}
    {data : Bytes} {value count : Nat} :
    sliceLengthFrom i acc data = ok (some (value, count)) ↔
      ∃ field rest, data = field ++ rest ∧ LengthField (4 - i) field ∧
        value = acc.result + acc.multiplier * lengthValue field ∧
        count = i + field.length := by
  induction data generalizing i acc with
  | nil =>
      simp only [sliceLengthFrom_nil, ok.injEq, reduceCtorEq, false_iff]
      rintro ⟨field, rest, nilEq, complete, -⟩
      have positive := complete.length_pos
      have lengths := congrArg List.length nilEq
      simp at lengths
      omega
  | cons byte tail ih =>
      rw [sliceLengthFrom_cons, show 4 - i = (3 - i) + 1 by omega]
      by_cases last : byte &&& 0x80 = 0
      · rw [if_pos last]
        simp only [ok.injEq, Option.some.injEq, Prod.mk.injEq]
        constructor
        · rintro ⟨rfl, rfl⟩
          refine ⟨[byte], tail, rfl, ?_, ?_, rfl⟩
          · simp [LengthField, last]
          · simp [LengthAcc.push, lengthValue, Nat.mul_comm]
        · rintro ⟨field, rest, split, complete, rfl, rfl⟩
          have shape := complete.of_cons_eq_append split
          rw [if_pos last] at shape
          obtain ⟨rfl, rfl⟩ := shape
          simp [LengthAcc.push, lengthValue, Nat.mul_comm]
      · rw [if_neg last]
        by_cases full : i ≥ 3
        · rw [if_pos full, show 3 - i = 0 by omega]
          simp only [reduceCtorEq, false_iff]
          rintro ⟨field, rest, split, complete, -⟩
          have shape := complete.of_cons_eq_append split
          rw [if_neg last] at shape
          obtain ⟨more, -, -, impossible⟩ := shape
          exact impossible.elim
        · rw [if_neg full, ih (by omega), show 3 - i = 4 - (i + 1) by omega]
          -- The group of this byte moves between the accumulator and the field.
          have moved : ∀ field, acc.result + acc.multiplier * lengthValue (byte :: field) =
              (acc.push byte).result + (acc.push byte).multiplier * lengthValue field := by
            intro field
            simp only [LengthAcc.push, lengthValue]
            ring
          constructor
          · rintro ⟨field, rest, rfl, complete, rfl, rfl⟩
            refine ⟨byte :: field, rest, rfl, ?_, (moved field).symm, ?_⟩
            · simpa [LengthField, last] using complete
            · rw [List.length_cons]
              omega
          · rintro ⟨field, rest, split, complete, rfl, rfl⟩
            have shape := complete.of_cons_eq_append split
            rw [if_neg last] at shape
            obtain ⟨more, rfl, rfl, moreComplete⟩ := shape
            refine ⟨more, rest, rfl, moreComplete, moved more, ?_⟩
            rw [List.length_cons]
            omega

theorem decodeRemainingLengthFromSlice_eq_some_iff {data : Bytes} {value count : Nat} :
    decodeRemainingLengthFromSlice data = ok (some (value, count)) ↔
      ∃ field rest, data = field ++ rest ∧ LengthField 4 field ∧
        value = lengthValue field ∧ count = field.length := by
  rw [decodeRemainingLengthFromSlice, sliceLengthFrom_eq_some_iff (by omega)]
  simp [LengthAcc.start]

/-- A complete field is the only one at the front of its bytes. -/
theorem LengthField.eq_of_append_eq {first second firstRest secondRest : Bytes}
    (firstComplete : LengthField 4 first) (secondComplete : LengthField 4 second)
    (same : first ++ firstRest = second ++ secondRest) :
    first = second ∧ firstRest = secondRest := by
  have firstRead := decodeRemainingLengthFromSlice_eq_some_iff.mpr
    ⟨first, firstRest, rfl, firstComplete, rfl, rfl⟩
  have secondRead := decodeRemainingLengthFromSlice_eq_some_iff.mpr
    ⟨second, secondRest, rfl, secondComplete, rfl, rfl⟩
  rw [same, secondRead] at firstRead
  simp only [ok.injEq, Option.some.injEq, Prod.mk.injEq] at firstRead
  exact List.append_inj same firstRead.2.symm

theorem sliceLengthFrom_append_of_err {i : Nat} {acc : LengthAcc} {data : Bytes}
    {error : MqttError} (failed : sliceLengthFrom i acc data = err error) (more : Bytes) :
    sliceLengthFrom i acc (data ++ more) = err error := by
  induction data generalizing i acc with
  | nil => simp at failed
  | cons byte tail ih =>
      rw [sliceLengthFrom_cons] at failed
      rw [List.cons_append, sliceLengthFrom_cons]
      split at failed
      · contradiction
      · rename_i continued
        rw [if_neg continued]
        split at failed
        · rename_i full
          rw [if_pos full]
          exact failed
        · rename_i notFull
          rw [if_neg notFull]
          exact ih failed

theorem only_sliceLengthFrom (i : Nat) (acc : LengthAcc) (data : Bytes) :
    (sliceLengthFrom i acc data).Only MqttError.IsWire := by
  induction data generalizing i acc with
  | nil =>
      rw [sliceLengthFrom_nil]
      exact only_ok _
  | cons byte tail ih =>
      rw [sliceLengthFrom_cons]
      split
      · exact only_ok _
      · split
        · exact only_err trivial
        · exact ih _ _

/-! ## The two readers agree -/

theorem readLengthLoop_succ (left i : Nat) (acc : LengthAcc) :
    readLengthLoop (left + 1) i acc =
      .readExact 1 fun bytes =>
        ReadFuture.ready (Slice.index bytes 0) >>= fun byte =>
          ReadFuture.ready (readLengthPass i acc byte) >>= fun
            | .again (i, acc) => readLengthLoop left i acc
            | .leave result => .ready (ok result) :=
  rfl

/-- Polled on at least one byte, the loop of `read_remaining_length` does what
the slice loop does with it. -/
theorem poll_readLengthLoop_cons (left i : Nat) (acc : LengthAcc) (byte : UInt8)
    (rest : Bytes) :
    (readLengthLoop (left + 1) i acc).poll (byte :: rest) =
      if byte &&& 0x80 = 0 then
        .ready (ok (acc.push byte).result) rest
      else if i = 3 then
        .ready (err (.codec .malformedLength)) rest
      else
        (readLengthLoop left (i + 1) (acc.push byte)).poll rest := by
  rw [readLengthLoop_succ, ReadFuture.poll_readExact_of_le (by simp)]
  simp only [List.take_succ_cons, List.take_zero, List.drop_succ_cons, List.drop_zero]
  rw [Slice.index_of_lt (by simp)]
  simp only [List.getElem_cons_zero, ReadFuture.ready_ok_bind, readLengthPass]
  split
  · rfl
  · split <;> rfl

/-- How the reader's loop ends, told by the slice loop on the same bytes. -/
theorem poll_readLengthLoop {i left : Nat} (count : i + left = 3) (acc : LengthAcc)
    (data : Bytes) :
    match sliceLengthFrom i acc data with
    | .ok (some (value, used)) =>
        ∃ rest, data = data.take (used - i) ++ rest ∧
          (readLengthLoop (left + 1) i acc).poll data = .ready (ok value) rest
    | .ok none => ∃ waiting held,
        (readLengthLoop (left + 1) i acc).poll data = .pending waiting held
    | .err error => ∃ rest,
        (readLengthLoop (left + 1) i acc).poll data = .ready (err error) rest
    | .panic _ => False := by
  induction data generalizing i left acc with
  | nil =>
      simp only [sliceLengthFrom_nil]
      exact ⟨_, _, ReadFuture.poll_readExact_of_lt (by simp)⟩
  | cons byte tail ih =>
      rw [sliceLengthFrom_cons, poll_readLengthLoop_cons]
      by_cases last : byte &&& 0x80 = 0
      · rw [if_pos last, if_pos last]
        exact ⟨tail, by simp, rfl⟩
      · rw [if_neg last, if_neg last]
        by_cases full : i = 3
        · rw [if_pos (by omega), if_pos full]
          exact ⟨tail, rfl⟩
        · rw [if_neg (by omega), if_neg full]
          cases left with
          | zero => omega
          | succ left =>
              have next := ih (show i + 1 + left = 3 by omega) (acc.push byte)
              cases sliced : sliceLengthFrom (i + 1) (acc.push byte) tail with
              | panic cause =>
                  rw [sliced] at next
                  exact next
              | err error =>
                  rw [sliced] at next
                  exact next
              | ok found =>
                  cases found with
                  | none =>
                      rw [sliced] at next
                      exact next
                  | some answer =>
                      obtain ⟨value, used⟩ := answer
                      rw [sliced] at next
                      obtain ⟨rest, split, polled⟩ := next
                      obtain ⟨field, _, _, complete, _, usedEq⟩ :=
                        (sliceLengthFrom_eq_some_iff (by omega)).mp sliced
                      have positive := complete.length_pos
                      refine ⟨rest, ?_, polled⟩
                      rw [show used - i = used - (i + 1) + 1 by omega, List.take_succ_cons,
                        List.cons_append, ← split]

/-! ## The field that is written -/

theorem encodeLengthLoop_eq_append (fuel value : Nat) (out : Bytes) :
    encodeLengthLoop fuel value out = out ++ encodeLengthLoop fuel value [] := by
  induction fuel generalizing value out with
  | zero => simp [encodeLengthLoop]
  | succ fuel ih =>
      simp only [encodeLengthLoop, List.nil_append]
      split
      · rfl
      · rw [ih, ih _ [_], List.append_assoc]

theorem encodeLengthLoop_eq_of_lt {first second value : Nat} (out : Bytes)
    (firstEnough : value < first) (secondEnough : value < second) :
    encodeLengthLoop first value out = encodeLengthLoop second value out := by
  induction first generalizing second value out with
  | zero => exact absurd firstEnough (Nat.not_lt_zero _)
  | succ first ih =>
      cases second with
      | zero => exact absurd secondEnough (Nat.not_lt_zero _)
      | succ second =>
          simp only [encodeLengthLoop]
          split
          · rfl
          · rename_i nonzero
            have smaller : value / 128 < value := Nat.div_lt_self (by omega) (by omega)
            exact ih _ (by omega) (by omega)

/-- The field is written one group at a time. -/
theorem encodeRemainingLength_eq (value : Nat) :
    encodeRemainingLength value =
      if value / 128 = 0 then
        [UInt8.ofNat (value % 128)]
      else
        (UInt8.ofNat (value % 128) ||| 0x80) :: encodeRemainingLength (value / 128) := by
  rw [encodeRemainingLength, encodeLengthLoop]
  by_cases final : value / 128 = 0
  · simp [final]
  · have smaller : value / 128 < value := Nat.div_lt_self (by omega) (by omega)
    rw [if_neg final, if_neg final, if_pos (by omega), encodeLengthLoop_eq_append,
      encodeLengthLoop_eq_of_lt [] smaller (Nat.lt_succ_self _)]
    rfl

/-- The bytes of a group, with and without the continuation bit. -/
theorem group_bits : ∀ group < 128,
    UInt8.ofNat group &&& 0x80 = 0 ∧ (UInt8.ofNat group ||| 0x80) &&& 0x80 ≠ 0 ∧
      (UInt8.ofNat group &&& 0x7F).toNat = group ∧
      ((UInt8.ofNat group ||| 0x80) &&& 0x7F).toNat = group := by
  decide +kernel

theorem lengthValue_encodeRemainingLength (value : Nat) :
    lengthValue (encodeRemainingLength value) = value := by
  induction value using Nat.strongRecOn with
  | ind value ih =>
      obtain ⟨-, -, plain, continued⟩ := group_bits (value % 128) (by omega)
      rw [encodeRemainingLength_eq]
      split
      · rw [lengthValue, plain, lengthValue]
        omega
      · rename_i nonzero
        rw [lengthValue, continued, ih (value / 128) (Nat.div_lt_self (by omega) (by omega))]
        omega

/-- The written field is complete within `limit` bytes exactly when the value
fits into that many groups. -/
theorem lengthField_encodeRemainingLength_iff (limit value : Nat) :
    LengthField limit (encodeRemainingLength value) ↔ 0 < limit ∧ value < 128 ^ limit := by
  induction limit generalizing value with
  | zero => simp [LengthField]
  | succ limit ih =>
      obtain ⟨plain, continued, -⟩ := group_bits (value % 128) (by omega)
      have power : 0 < 128 ^ limit := Nat.pow_pos (by omega)
      rw [encodeRemainingLength_eq, Nat.pow_succ]
      split
      · simp only [LengthField, if_pos plain, true_iff]
        omega
      · rename_i nonzero
        rw [LengthField, if_neg continued, ih]
        have scaled : value / 128 < 128 ^ limit ↔ value < 128 ^ limit * 128 :=
          Nat.div_lt_iff_lt_mul (by omega)
        rw [scaled]
        cases limit with
        | zero =>
            simp
            omega
        | succ limit => simp

theorem length_encodeRemainingLength_pos (value : Nat) :
    0 < (encodeRemainingLength value).length := by
  rw [encodeRemainingLength_eq]
  split <;> simp

theorem length_encodeRemainingLength_le_iff (limit value : Nat) (positive : 0 < limit) :
    (encodeRemainingLength value).length ≤ limit ↔ value < 128 ^ limit := by
  induction limit generalizing value with
  | zero => exact absurd positive (Nat.lt_irrefl 0)
  | succ limit ih =>
      rw [encodeRemainingLength_eq, Nat.pow_succ]
      have power : 0 < 128 ^ limit := Nat.pow_pos (by omega)
      split
      · simp
        omega
      · rename_i nonzero
        have scaled : value / 128 < 128 ^ limit ↔ value < 128 ^ limit * 128 :=
          Nat.div_lt_iff_lt_mul (by omega)
        rw [List.length_cons, Nat.succ_le_succ_iff, ← scaled]
        cases limit with
        | zero =>
            have positive := length_encodeRemainingLength_pos (value / 128)
            simp only [Nat.pow_zero]
            omega
        | succ limit => exact ih _ (Nat.succ_pos _)

end HotaruMqtt.Codec
