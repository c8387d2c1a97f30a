import HotaruMqtt.Session
import Mathlib.Data.List.Nodup

/-!
# Packet identifiers over time

`allocate_packet_id` increments a counter of 16 bits and returns its new value, or one
where that is zero.  The counter itself does not skip zero: it comes to one right after,
so that at every wrap the identifier one is returned twice in a row.  A full turn of
65535 allocations is then free of repetitions exactly when it leaves out one of the two.
-/

namespace HotaruMqtt.MqttSession

/-- A number of allocations one after the other: their identifiers, and the session
after them. -/
def allocations : Nat → MqttSession → List PacketId × MqttSession
  | 0, session => ([], session)
  | count + 1, session =>
      let (id, session) := session.allocatePacketId
      let (ids, session) := allocations count session
      (id :: ids, session)

theorem length_allocations (count : Nat) (session : MqttSession) :
    (allocations count session).1.length = count := by
  induction count generalizing session with
  | zero => rfl
  | succ count ih => exact congrArg Nat.succ (ih _)

theorem allocations_add (first second : Nat) (session : MqttSession) :
    (allocations (first + second) session).1 =
      (allocations first session).1 ++ (allocations second (allocations first session).2).1 := by
  induction first generalizing session with
  | zero => rw [Nat.zero_add]; rfl
  | succ first ih =>
      rw [Nat.succ_add]
      exact congrArg (List.cons _) (ih _)

theorem allocations_ne_zero (count : Nat) (session : MqttSession) :
    ∀ id ∈ (allocations count session).1, id ≠ 0 := by
  induction count generalizing session with
  | zero => exact fun _ listed => absurd listed List.not_mem_nil
  | succ count ih =>
      intro id listed
      rcases List.mem_cons.mp listed with rfl | listed
      · exact session.allocatePacketId_ne_zero
      · exact ih _ id listed

/-! ## The identifiers as numbers -/

/-- The identifier that is returned when the counter comes to a number. -/
def idNumber (reached : Nat) : Nat :=
  if reached % 65536 = 0 then 1 else reached % 65536

theorem toNat_allocatePacketId (session : MqttSession) :
    session.allocatePacketId.1.toNat = idNumber (session.pktCounter.toNat + 1) := by
  have counter : (session.pktCounter + 1).toNat = (session.pktCounter.toNat + 1) % 65536 :=
    UInt16.toNat_add _ _
  simp only [allocatePacketId, idNumber, ← counter, ← UInt16.toNat_inj, UInt16.toNat_zero]
  split <;> rfl

theorem idNumber_mod (reached offset : Nat) :
    idNumber (reached % 65536 + offset) = idNumber (reached + offset) := by
  unfold idNumber
  rw [Nat.mod_add_mod]

theorem map_toNat_allocations (count : Nat) (session : MqttSession) :
    (allocations count session).1.map UInt16.toNat =
      (List.range count).map fun offset => idNumber (session.pktCounter.toNat + 1 + offset) := by
  induction count generalizing session with
  | zero => rfl
  | succ count ih =>
      have counter : session.allocatePacketId.2.pktCounter.toNat =
          (session.pktCounter.toNat + 1) % 65536 := UInt16.toNat_add _ _
      rw [List.range_succ_eq_map, List.map_cons, List.map_map, allocations, List.map_cons,
        toNat_allocatePacketId, ih, counter]
      refine congrArg (List.cons _) (List.map_congr_left fun offset _ => ?_)
      rw [Nat.add_assoc, idNumber_mod, Function.comp_apply]
      congr 1
      omega

/-! ## A full turn -/

/-- In the turn after the counter stood at a number, the identifier one is returned
for the counter at zero and at one. -/
theorem idNumber_injective_iff {counter : Nat} (small : counter < 65536) :
    (∀ first ∈ List.range 65535, ∀ second ∈ List.range 65535,
      idNumber (counter + 1 + first) = idNumber (counter + 1 + second) → first = second) ↔
      counter = 0 ∨ counter = 1 := by
  simp only [List.mem_range]
  constructor
  · intro injective
    by_contra later
    have repeated : idNumber (counter + 1 + (65535 - counter)) =
        idNumber (counter + 1 + (65536 - counter)) := by
      have wrapped : counter + 1 + (65535 - counter) = 65536 := by omega
      have next : counter + 1 + (65536 - counter) = 65537 := by omega
      rw [wrapped, next]
      rfl
    have same := injective _ (by omega) _ (by omega) repeated
    omega
  · intro early first firstBound second secondBound same
    unfold idNumber at same
    split at same <;> split at same <;> omega

theorem nodup_allocations_iff (session : MqttSession) :
    (allocations 65535 session).1.Nodup ↔ session.pktCounter = 0 ∨ session.pktCounter = 1 := by
  have toNat : Function.Injective UInt16.toNat := fun _ _ => UInt16.toNat_inj.mp
  rw [← List.nodup_map_iff toNat, map_toNat_allocations, List.nodup_map_iff_inj_on List.nodup_range,
    idNumber_injective_iff session.pktCounter.toNat_lt, ← UInt16.toNat_inj, ← UInt16.toNat_inj]
  rfl

/-- No identifier is zero, and of 65535 consecutive ones no two are the same exactly
when the counter stood at zero or one before them. -/
theorem packet_ids_distinct_iff (session : MqttSession) (count : Nat) :
    (∀ id ∈ (allocations count session).1, id ≠ 0) ∧
      ∀ before window after, (allocations count session).1 = before ++ window ++ after →
        window.length = 65535 →
        (window.Nodup ↔ (allocations before.length session).2.pktCounter = 0 ∨
          (allocations before.length session).2.pktCounter = 1) := by
  refine ⟨allocations_ne_zero count session, fun before window after ids size => ?_⟩
  have total : count = before.length + (65535 + after.length) := by
    rw [← length_allocations count session, ids]
    simp only [List.length_append, size]
    omega
  rw [total, allocations_add, allocations_add, List.append_assoc] at ids
  have rest := (List.append_inj ids (length_allocations _ _)).2
  have turn := (List.append_inj rest ((length_allocations _ _).trans size.symm)).1
  rw [← turn]
  exact nodup_allocations_iff _

/-- From a new session the identifiers of a turn are distinct. -/
theorem packet_ids_distinct_iff_new : (allocations 65535 new).1.Nodup := by
  have turn := (packet_ids_distinct_iff new 65535).2 [] (allocations 65535 new).1 []
    (by rw [List.nil_append, List.append_nil]) (length_allocations _ _)
  exact turn.mpr (.inl rfl)

/-- After two allocations the turn runs over the wrap, and an identifier is repeated
in it. -/
theorem packet_ids_repeat_at_wrap :
    ∃ before window, (allocations 65537 new).1 = before ++ window ∧ window.length = 65535 ∧
      ¬ window.Nodup := by
  refine ⟨_, _, allocations_add 2 65535 new, length_allocations _ _, ?_⟩
  rw [nodup_allocations_iff]
  decide

end HotaruMqtt.MqttSession
