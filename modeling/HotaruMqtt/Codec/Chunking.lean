import HotaruMqtt.Codec.Safety
import HotaruMqtt.Codec.Shape
import HotaruMqtt.Framing.Incremental

/-!
# Framing does not depend on arrival

The buffered decoder is incremental: a packet or an error that it reports on a
buffer, it reports on every longer buffer, and when it asks for more input it
has not touched the buffer.  The driver's independence of the chunking follows
from the general theory.
-/

namespace HotaruMqtt.Codec

open Exec Exec.Outcome Framing

/-- A refusal stands whatever follows. -/
theorem decode_err_append {maxSize : Nat} {buffer rest : Bytes} {error : MqttError}
    (failed : decodePacketFromBytes maxSize buffer = (err error, rest)) (more : Bytes) :
    decodePacketFromBytes maxSize (buffer ++ more) = (err error, rest ++ more) := by
  cases front buffer with
  | short few =>
      rw [decode_of_short few] at failed
      simp at failed
  | unknownType nonempty unknown =>
      rw [decode_of_unknownType nonempty unknown] at failed
      rw [List.cons_append, decode_of_unknownType (by simp [nonempty]) unknown]
      cases failed
      rfl
  | malformedLength known malformed =>
      rw [decode_of_malformedLength known malformed] at failed
      rw [List.cons_append,
        decode_of_malformedLength known (sliceLengthFrom_append_of_err malformed more)]
      cases failed
      rfl
  | partialLength known unfinished =>
      rw [decode_of_partialLength known unfinished] at failed
      simp at failed
  | header known complete =>
      rw [decode_of_lengthField known complete] at failed
      rw [List.cons_append, List.append_assoc, decode_of_lengthField known complete]
      split at failed
      · rename_i large
        rw [if_pos large]
        cases failed
        simp
      · rename_i admitted
        rw [if_neg admitted]
        split at failed
        · simp at failed
        · rename_i enough
          rw [if_neg (by rw [List.length_append]; omega),
            List.take_append_of_le_length (by omega),
            List.drop_append_of_le_length (by omega)]
          obtain ⟨parsed, rfl⟩ := Prod.mk.inj failed
          rw [parsed]

/-- Asking for more input leaves the buffer untouched. -/
theorem decode_none_keeps {maxSize : Nat} {buffer rest : Bytes}
    (waiting : decodePacketFromBytes maxSize buffer = (ok none, rest)) : rest = buffer := by
  cases front buffer with
  | short few =>
      rw [decode_of_short few] at waiting
      exact (Prod.mk.inj waiting).2.symm
  | unknownType nonempty unknown =>
      rw [decode_of_unknownType nonempty unknown] at waiting
      simp at waiting
  | malformedLength known malformed =>
      rw [decode_of_malformedLength known malformed] at waiting
      simp at waiting
  | partialLength known unfinished =>
      rw [decode_of_partialLength known unfinished] at waiting
      exact (Prod.mk.inj waiting).2.symm
  | header known complete =>
      rw [decode_of_lengthField known complete] at waiting
      split at waiting
      · simp at waiting
      · split at waiting
        · exact (Prod.mk.inj waiting).2.symm
        · obtain ⟨parsed, -⟩ := Prod.mk.inj waiting
          obtain ⟨packet, -, same⟩ := bind_eq_ok_iff.mp parsed
          simp at same

/-- The buffered decoder is incremental. -/
theorem decode_incremental (maxSize : Nat) : Incremental (decodePacketFromBytes maxSize) where
  nil := decode_of_short (by simp) maxSize
  none_keeps := decode_none_keeps
  some_append := by
    intro buffer packet rest decoded more
    obtain ⟨frame, rfl, bounded, parsed⟩ := decode_eq_some_iff.mp decoded
    rw [List.append_assoc]
    exact decode_eq_some_iff.mpr ⟨frame, rfl, bounded, parsed⟩
  err_append := decode_err_append
  some_shrinks := by
    intro buffer packet rest decoded
    obtain ⟨frame, rfl, -, -⟩ := decode_eq_some_iff.mp decoded
    simp only [Frame.bytes, List.length_append, List.length_cons]
    omega
  safe buffer := (only_decodePacketFromBytes maxSize buffer).safe

/-- The driver's packets and verdict depend on the bytes that arrived, not on
how they were cut up; it never gets stuck; and a verdict other than needing
more input survives whatever follows. -/
theorem feedAll_eq_feed_whole (maxSize : Nat) (chunks : List Bytes) :
    feedAll (decodePacketFromBytes maxSize) (.start _ _ _) chunks =
        feed (decodePacketFromBytes maxSize) (.start _ _ _) chunks.flatten ∧
      (∃ driver, feedAll (decodePacketFromBytes maxSize) (.start _ _ _) chunks =
        ok driver) ∧
      (∀ buffer rest, decodePacketFromBytes maxSize buffer = (ok none, rest) →
        rest = buffer) ∧
      (∀ buffer packet rest, decodePacketFromBytes maxSize buffer = (ok (some packet), rest) →
        ∀ more, decodePacketFromBytes maxSize (buffer ++ more) =
          (ok (some packet), rest ++ more)) ∧
      ∀ buffer error rest, decodePacketFromBytes maxSize buffer = (err error, rest) →
        ∀ more, decodePacketFromBytes maxSize (buffer ++ more) = (err error, rest ++ more) := by
  have incremental := decode_incremental maxSize
  have whole := incremental.feedAll_start chunks
  refine ⟨whole, ?_, fun _ _ => incremental.none_keeps, fun _ _ _ => incremental.some_append,
    fun _ _ _ => incremental.err_append⟩
  rw [whole]
  exact incremental.drain_ok _ _

end HotaruMqtt.Codec
