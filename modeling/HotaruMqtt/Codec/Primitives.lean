import HotaruMqtt.Packet

/-!
# Length-prefixed strings and byte strings

The readers and writers of `codec/primitives.rs`.  A reader takes the body and
a cursor and hands back the value with the advanced cursor; a writer appends
the sixteen-bit length of the value and then its bytes.

Each reader is characterised by what it finds between the two cursors, which
is what both directions of the round trip use.
-/

namespace HotaruMqtt.Codec

open Exec Exec.Outcome

/-- Two bytes at the cursor, most significant first. -/
def readU16 (body : Bytes) (cursor : Nat) : Outcome MqttError (UInt16 × Nat) :=
  if cursor + 2 > body.length then
    err (.codec .unexpectedEof)
  else do
    let high ← Slice.index body cursor
    let low ← Slice.index body (cursor + 1)
    ok (fromBeBytes high low, cursor + 2)

/-- A string behind its length, which must be UTF-8. -/
def readArcStr (body : Bytes) (cursor : Nat) : Outcome MqttError (String × Nat) := do
  let (len, cursor) ← readU16 body cursor
  let len := len.toNat
  if cursor + len > body.length then
    err (.codec .unexpectedEof)
  else do
    let bytes ← Slice.range body cursor (cursor + len)
    let text ← okOr (.codec .invalidUtf8) (fromUtf8 bytes)
    ok (text, cursor + len)

/-- Bytes behind their length. -/
def readBytes (body : Bytes) (cursor : Nat) : Outcome MqttError (Bytes × Nat) := do
  let (len, cursor) ← readU16 body cursor
  let len := len.toNat
  if cursor + len > body.length then
    err (.codec .unexpectedEof)
  else do
    let bytes ← Slice.range body cursor (cursor + len)
    ok (bytes, cursor + len)

/-- The length as two bytes, then the bytes.  The length is truncated to
sixteen bits, as `as u16` does. -/
def lengthPrefixed (bytes : Bytes) : Bytes :=
  toBeBytes (UInt16.ofNat bytes.length) ++ bytes

/-- A string behind its length. -/
def writeArcStr (out : Bytes) (text : String) : Bytes :=
  out ++ lengthPrefixed (asBytes text)

/-- Bytes behind their length. -/
def writeBytes (out bytes : Bytes) : Bytes :=
  out ++ lengthPrefixed bytes

@[simp]
theorem length_lengthPrefixed (bytes : Bytes) :
    (lengthPrefixed bytes).length = 2 + bytes.length := by
  simp [lengthPrefixed]

/-- The longest field a two-byte length can describe. -/
def maxFieldLength : Nat := 65535

theorem toNat_ofNat_length {bytes : Bytes} (fits : bytes.length ≤ maxFieldLength) :
    (UInt16.ofNat bytes.length).toNat = bytes.length := by
  rw [UInt16.toNat_ofNat']
  exact Nat.mod_eq_of_lt (Nat.lt_succ_of_le fits)

/-! ## What the readers accept -/

/-- Past the end test, `read_u16` finds its two bytes. -/
theorem readU16_eq_ok_iff {body : Bytes} {cursor after : Nat} {value : UInt16} :
    readU16 body cursor = ok (value, after) ↔
      after = cursor + 2 ∧ body.drop cursor = toBeBytes value ++ body.drop after := by
  by_cases short : cursor + 2 > body.length
  · rw [readU16, if_pos short]
    simp only [reduceCtorEq, false_iff, not_and]
    rintro rfl split
    have lengths := congrArg List.length split
    simp only [List.length_drop, List.length_append, length_toBeBytes] at lengths
    omega
  · have firstInside : cursor < body.length := by omega
    have secondInside : cursor + 1 < body.length := by omega
    have split : body.drop cursor =
        [body[cursor], body[cursor + 1]] ++ body.drop (cursor + 2) := by
      rw [List.drop_eq_getElem_cons firstInside,
        List.drop_eq_getElem_cons secondInside]
      rfl
    rw [readU16, if_neg short, Slice.index_of_lt firstInside, ok_bind,
      Slice.index_of_lt secondInside, ok_bind]
    simp only [ok.injEq, Prod.mk.injEq]
    constructor
    · rintro ⟨rfl, rfl⟩
      refine ⟨rfl, ?_⟩
      rw [toBeBytes_fromBeBytes]
      exact split
    · rintro ⟨rfl, found⟩
      rw [split] at found
      have bytes := List.append_cancel_right found
      simp only [toBeBytes, List.cons.injEq, and_true] at bytes
      refine ⟨?_, rfl⟩
      rw [bytes.1, bytes.2, fromBeBytes_toBeBytes]

/-- `read_bytes` accepts exactly the length-prefixed form of what it returns. -/
theorem readBytes_eq_ok_iff {body bytes : Bytes} {cursor after : Nat} :
    readBytes body cursor = ok (bytes, after) ↔
      bytes.length ≤ maxFieldLength ∧ after = cursor + 2 + bytes.length ∧
        body.drop cursor = lengthPrefixed bytes ++ body.drop after := by
  constructor
  · intro read
    obtain ⟨⟨len, start⟩, lenRead, rest⟩ := bind_eq_ok_iff.mp read
    obtain ⟨rfl, prefixFound⟩ := readU16_eq_ok_iff.mp lenRead
    dsimp only at rest
    split at rest
    · contradiction
    · rename_i inside
      rw [Slice.range_of_le (by omega) (by omega), ok_bind] at rest
      simp only [ok.injEq, Prod.mk.injEq, Nat.add_sub_cancel_left] at rest
      obtain ⟨rfl, rfl⟩ := rest
      have lenBound := len.toNat_lt
      have length : ((body.drop (cursor + 2)).take len.toNat).length = len.toNat := by
        rw [List.length_take, List.length_drop]
        omega
      refine ⟨by rw [length, maxFieldLength]; omega, by rw [length], ?_⟩
      rw [lengthPrefixed, length, UInt16.ofNat_toNat, prefixFound,
        List.append_assoc, ← List.drop_drop (i := len.toNat), List.take_append_drop]
  · rintro ⟨fits, rfl, found⟩
    have lengths := congrArg List.length found
    simp only [List.length_drop, List.length_append, length_lengthPrefixed] at lengths
    have tail : body.drop (cursor + 2) =
        bytes ++ body.drop (cursor + 2 + bytes.length) := by
      rw [← List.drop_drop, found, lengthPrefixed, List.append_assoc]
      rfl
    have lenRead : readU16 body cursor =
        ok (UInt16.ofNat bytes.length, cursor + 2) := by
      rw [readU16_eq_ok_iff]
      refine ⟨rfl, ?_⟩
      rw [tail, found, lengthPrefixed, List.append_assoc]
    rw [readBytes, lenRead, ok_bind]
    simp only [toNat_ofNat_length fits]
    rw [if_neg (by omega), Slice.range_of_le (by omega) (by omega), ok_bind, tail]
    simp

/-- `read_arc_str` is `read_bytes` followed by the UTF-8 check. -/
theorem readArcStr_eq (body : Bytes) (cursor : Nat) :
    readArcStr body cursor =
      readBytes body cursor >>= fun (bytes, after) =>
        okOr (.codec .invalidUtf8) (fromUtf8 bytes) >>= fun text =>
          ok (text, after) := by
  unfold readArcStr readBytes
  rcases readU16 body cursor with ⟨len, start⟩ | error | cause
  · dsimp only [ok_bind]
    split
    · rfl
    · rename_i inside
      rw [Slice.range_of_le (by omega) (by omega)]
      rfl
  · rfl
  · rfl

/-- `read_arc_str` accepts exactly the length-prefixed bytes of the string it
returns. -/
theorem readArcStr_eq_ok_iff {body : Bytes} {cursor after : Nat} {text : String} :
    readArcStr body cursor = ok (text, after) ↔
      (asBytes text).length ≤ maxFieldLength ∧
        after = cursor + 2 + (asBytes text).length ∧
        body.drop cursor = lengthPrefixed (asBytes text) ++ body.drop after := by
  rw [readArcStr_eq, ← readBytes_eq_ok_iff, bind_eq_ok_iff]
  constructor
  · rintro ⟨⟨bytes, finish⟩, read, decoded⟩
    obtain ⟨found, utf8, same⟩ := bind_eq_ok_iff.mp decoded
    cases same
    rw [okOr_eq_ok_iff, fromUtf8_eq_some_iff] at utf8
    rw [← utf8]
    exact read
  · intro read
    refine ⟨_, read, ?_⟩
    have utf8 : fromUtf8 (asBytes text) = some text := fromUtf8_eq_some_iff.mpr rfl
    simp [utf8]

/-! ## Safety -/

theorem only_readU16 (body : Bytes) (cursor : Nat) :
    (readU16 body cursor).Only MqttError.IsWire := by
  unfold readU16
  split
  · exact only_err trivial
  · rename_i inside
    rw [Slice.index_of_lt (show cursor < body.length by omega), ok_bind,
      Slice.index_of_lt (show cursor + 1 < body.length by omega), ok_bind]
    exact only_ok _

theorem only_readBytes (body : Bytes) (cursor : Nat) :
    (readBytes body cursor).Only MqttError.IsWire := by
  apply (only_readU16 body cursor).bind
  rintro ⟨len, start⟩ -
  dsimp only
  split
  · exact only_err trivial
  · rename_i inside
    rw [Slice.range_of_le (by omega) (by omega), ok_bind]
    exact only_ok _

theorem only_readArcStr (body : Bytes) (cursor : Nat) :
    (readArcStr body cursor).Only MqttError.IsWire := by
  rw [readArcStr_eq]
  apply (only_readBytes body cursor).bind
  rintro ⟨bytes, after⟩ -
  apply (only_okOr trivial _).bind
  intro text _
  exact only_ok _

end HotaruMqtt.Codec
