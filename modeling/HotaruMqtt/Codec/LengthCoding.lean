import HotaruMqtt.Codec.Varint

/-!
# Remaining lengths are coded exactly

`encode_remaining_length` divides and `decode_remaining_length_from_slice` multiplies.
What the first writes for a value of at most four groups the second reads back, whatever
follows it, and it waits on everything that is cut off before its end.  No shorter field
has the value.  A longer value makes a field that the decoder refuses at its fourth byte.
-/

namespace HotaruMqtt.Codec

open Exec Exec.Outcome

/-- A field that is cut off before its end is waited for. -/
theorem sliceLengthFrom_of_cut {limit i : Nat} {acc : LengthAcc} {front back : Bytes}
    (complete : LengthField limit (front ++ back)) (cut : back ≠ []) (room : i + limit ≤ 4) :
    sliceLengthFrom i acc front = ok none := by
  induction front generalizing limit i acc with
  | nil => exact sliceLengthFrom_nil i acc
  | cons byte front ih =>
      cases limit with
      | zero => exact complete.elim
      | succ limit =>
          rw [List.cons_append, LengthField] at complete
          split at complete
          · exact absurd (List.append_eq_nil_iff.mp complete).2 cut
          · rename_i continued
            -- what is missing is at least one byte, so this is not the fourth one
            have later := complete.length_pos.trans_le complete.length_le
            rw [sliceLengthFrom_cons, if_neg continued, if_neg (by omega)]
            exact ih complete (by omega)

/-- The field of a value of more groups than the decoder takes is refused. -/
theorem sliceLengthFrom_encode_of_large {left i value : Nat} (count : i + left = 3)
    (large : 128 ^ (left + 1) ≤ value) (acc : LengthAcc) (rest : Bytes) :
    sliceLengthFrom i acc (encodeRemainingLength value ++ rest) =
      err (.codec .malformedLength) := by
  induction left generalizing i value acc with
  | zero =>
      obtain ⟨-, continued, -⟩ := group_bits (value % 128) (by omega)
      rw [encodeRemainingLength_eq, if_neg (by omega), List.cons_append, sliceLengthFrom_cons,
        if_neg continued, if_pos (by omega)]
  | succ left ih =>
      obtain ⟨-, continued, -⟩ := group_bits (value % 128) (by omega)
      have power : 0 < 128 ^ (left + 1) := Nat.pow_pos (by omega)
      have shifted : 128 ^ (left + 1) ≤ value / 128 := by
        rw [Nat.le_div_iff_mul_le (by omega)]
        exact large
      rw [encodeRemainingLength_eq, if_neg (by omega), List.cons_append, sliceLengthFrom_cons,
        if_neg continued, if_neg (by omega)]
      exact ih (by omega) shifted _

/-- No field that is read as the value is shorter than the one that is written. -/
theorem length_encodeRemainingLength_le_of_decode {data : Bytes} {value count : Nat}
    (decoded : decodeRemainingLengthFromSlice data = ok (some (value, count))) :
    (encodeRemainingLength value).length ≤ count := by
  obtain ⟨field, rest, -, complete, rfl, rfl⟩ :=
    decodeRemainingLengthFromSlice_eq_some_iff.mp decoded
  rw [length_encodeRemainingLength_le_iff _ _ complete.length_pos]
  exact lengthValue_lt field

/-- A code for a value: one to four bytes, none of the codes of the value is shorter, it is
read back from the front of any bytes, and every proper beginning of it is waited for. -/
structure LengthCode (value : Nat) (code : Bytes) : Prop where
  nonempty : 1 ≤ code.length
  short : code.length ≤ 4
  shortest : ∀ {data count}, decodeRemainingLengthFromSlice data = ok (some (value, count)) →
    code.length ≤ count
  decoded : ∀ rest, decodeRemainingLengthFromSlice (code ++ rest) = ok (some (value, code.length))
  waiting : ∀ {front}, front <+: code → front ≠ code →
    decodeRemainingLengthFromSlice front = ok none

/-- What is written for a value that four groups hold is its code. -/
theorem lengthCode_encodeRemainingLength {value : Nat} (fits : value < 128 ^ 4) :
    LengthCode value (encodeRemainingLength value) := by
  have complete : LengthField 4 (encodeRemainingLength value) :=
    (lengthField_encodeRemainingLength_iff 4 value).mpr ⟨by decide, fits⟩
  refine ⟨complete.length_pos, complete.length_le, length_encodeRemainingLength_le_of_decode,
    fun rest => ?_, fun {front} leading proper => ?_⟩
  · exact decodeRemainingLengthFromSlice_eq_some_iff.mpr
      ⟨_, rest, rfl, complete, (lengthValue_encodeRemainingLength value).symm, rfl⟩
  · obtain ⟨back, joined⟩ := leading
    have cut : back ≠ [] := by
      rintro rfl
      exact proper (by simpa using joined)
    rw [← joined] at complete
    exact sliceLengthFrom_of_cut complete cut (by omega)

/-- Every value up to the largest that MQTT allows is coded exactly; a larger one gives
five bytes or more, and these are refused. -/
theorem remaining_length_coding_exact (value : Nat) :
    if value ≤ 268435455 then
      LengthCode value (encodeRemainingLength value)
    else
      5 ≤ (encodeRemainingLength value).length ∧
        ∀ rest, decodeRemainingLengthFromSlice (encodeRemainingLength value ++ rest) =
          err (.codec .malformedLength) := by
  split
  · exact lengthCode_encodeRemainingLength (by omega)
  · rename_i large
    constructor
    · have long := mt (length_encodeRemainingLength_le_iff 4 value (by decide)).mp (by omega)
      omega
    · exact sliceLengthFrom_encode_of_large (show 0 + 3 = 3 from rfl) (by omega) .start

end HotaruMqtt.Codec
