import HotaruMqtt.Exec.Outcome
import Mathlib.Data.Fintype.Basic
import Mathlib.Data.FinEnum

/-!
# Byte strings, indexing and text

Byte buffers are lists of `UInt8`.  Indexing and slicing panic outside the
buffer, sixteen-bit integers are written most significant byte first, and text
is `String`, whose values are exactly the valid UTF-8 byte strings.
-/

namespace HotaruMqtt.Exec

open Outcome

universe u v

/-- A buffer of bytes. -/
abbrev Bytes := List UInt8

/-! ## Panicking access -/

namespace Slice

variable {ε : Type u} {α : Type v}

/-- `slice[i]`. -/
def index (slice : List α) (i : Nat) : Outcome ε α :=
  match slice[i]? with
  | some item => ok item
  | none => .panic .indexOutOfBounds

/-- `slice[lower..upper]`. -/
def range (slice : List α) (lower upper : Nat) : Outcome ε (List α) :=
  if lower ≤ upper ∧ upper ≤ slice.length then
    ok ((slice.drop lower).take (upper - lower))
  else
    .panic .indexOutOfBounds

/-- `slice[lower..]`. -/
def rangeFrom (slice : List α) (lower : Nat) : Outcome ε (List α) :=
  range slice lower slice.length

/-- `buffer.split_to(count)`: the first `count` items, and what stays behind. -/
def splitTo (buffer : List α) (count : Nat) : Outcome ε (List α × List α) :=
  if count ≤ buffer.length then
    ok (buffer.take count, buffer.drop count)
  else
    .panic .indexOutOfBounds

theorem index_eq_ok_iff {slice : List α} {i : Nat} {item : α} :
    (index slice i : Outcome ε α) = ok item ↔ slice[i]? = some item := by
  unfold index
  cases slice[i]? <;> simp

theorem index_of_lt {slice : List α} {i : Nat} (inside : i < slice.length) :
    (index slice i : Outcome ε α) = ok slice[i] := by
  rw [index_eq_ok_iff]
  exact List.getElem?_eq_getElem inside

theorem only_index {allowed : ε → Prop} {slice : List α} {i : Nat}
    (inside : i < slice.length) : (index slice i : Outcome ε α).Only allowed := by
  rw [index_of_lt inside]
  exact only_ok _

theorem range_of_le {slice : List α} {lower upper : Nat}
    (ordered : lower ≤ upper) (inside : upper ≤ slice.length) :
    (range slice lower upper : Outcome ε (List α)) =
      ok ((slice.drop lower).take (upper - lower)) := by
  rw [range, if_pos ⟨ordered, inside⟩]

theorem rangeFrom_of_le {slice : List α} {lower : Nat}
    (inside : lower ≤ slice.length) :
    (rangeFrom slice lower : Outcome ε (List α)) = ok (slice.drop lower) := by
  rw [rangeFrom, range_of_le inside (Nat.le_refl _), List.take_of_length_le]
  simp

theorem rangeFrom_eq_ok_iff {slice items : List α} {lower : Nat} :
    (rangeFrom slice lower : Outcome ε (List α)) = ok items ↔
      lower ≤ slice.length ∧ items = slice.drop lower := by
  by_cases inside : lower ≤ slice.length
  · rw [rangeFrom_of_le inside]
    simp only [ok.injEq, inside, true_and]
    exact eq_comm
  · rw [rangeFrom, range, if_neg (fun bounds => inside bounds.1)]
    simp [inside]

theorem splitTo_of_le {buffer : List α} {count : Nat}
    (inside : count ≤ buffer.length) :
    (splitTo buffer count : Outcome ε (List α × List α)) =
      ok (buffer.take count, buffer.drop count) := by
  rw [splitTo, if_pos inside]

end Slice

/-! ## Sixteen-bit integers -/

/-- `u16::to_be_bytes`. -/
def toBeBytes (value : UInt16) : Bytes :=
  [(value >>> 8).toUInt8, value.toUInt8]

/-- `u16::from_be_bytes`. -/
def fromBeBytes (high low : UInt8) : UInt16 :=
  (high.toUInt16 <<< 8) ||| low.toUInt16

@[simp]
theorem length_toBeBytes (value : UInt16) : (toBeBytes value).length = 2 :=
  rfl

theorem toNat_fromBeBytes (high low : UInt8) :
    (fromBeBytes high low).toNat = high.toNat * 256 + low.toNat := by
  have highBound := high.toNat_lt
  have lowBound := low.toNat_lt
  have shifted : high.toNat <<< 8 = high.toNat * 256 :=
    Nat.shiftLeft_eq high.toNat 8
  simp only [fromBeBytes, UInt16.toNat_or, UInt16.toNat_shiftLeft,
    UInt8.toNat_toUInt16, UInt16.reduceToNat, Nat.reduceMod]
  rw [Nat.mod_eq_of_lt (by omega), ← Nat.shiftLeft_add_eq_or_of_lt lowBound,
    shifted]

theorem fromBeBytes_toBeBytes (value : UInt16) :
    fromBeBytes (value >>> 8).toUInt8 value.toUInt8 = value := by
  have bound := value.toNat_lt
  apply UInt16.toNat_inj.mp
  rw [toNat_fromBeBytes]
  simp only [UInt16.toNat_toUInt8, UInt16.toNat_shiftRight,
    UInt16.reduceToNat, Nat.shiftRight_eq_div_pow, Nat.reduceMod]
  omega

theorem toBeBytes_fromBeBytes (high low : UInt8) :
    toBeBytes (fromBeBytes high low) = [high, low] := by
  have highBound := high.toNat_lt
  have lowBound := low.toNat_lt
  have value := toNat_fromBeBytes high low
  simp only [toBeBytes, List.cons.injEq, and_true]
  constructor
  · apply UInt8.toNat_inj.mp
    simp only [UInt16.toNat_toUInt8, UInt16.toNat_shiftRight,
      UInt16.reduceToNat, Nat.shiftRight_eq_div_pow, Nat.reduceMod]
    omega
  · apply UInt8.toNat_inj.mp
    rw [UInt16.toNat_toUInt8]
    omega

/-! ## Text -/

/-- `str::as_bytes`. -/
def asBytes (text : String) : Bytes :=
  text.toByteArray.data.toList

/-- `str::from_utf8`, with its error read as absence. -/
def fromUtf8 (bytes : Bytes) : Option String :=
  String.fromUTF8? ⟨bytes.toArray⟩

/-- Decoding accepts exactly the bytes of the string it returns. -/
@[simp]
theorem fromUtf8_eq_some_iff {bytes : Bytes} {text : String} :
    fromUtf8 bytes = some text ↔ bytes = asBytes text := by
  constructor
  · intro decoded
    unfold fromUtf8 String.fromUTF8? at decoded
    split at decoded
    · rw [← Option.some.inj decoded]
      rfl
    · contradiction
  · rintro rfl
    unfold fromUtf8 String.fromUTF8? asBytes
    have valid := text.isValidUTF8
    rw [dif_pos (by simpa using valid)]
    apply congrArg some
    apply String.toByteArray_inj.mp
    simp [String.fromUTF8]

end HotaruMqtt.Exec
