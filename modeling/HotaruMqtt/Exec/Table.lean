import Mathlib.Data.List.AList

/-!
# Tables

A hash map as a finite table whose values all have one type.  An update is read
back by comparing keys.
-/

namespace HotaruMqtt.Exec

universe u v

/-- A finite map from keys to values. -/
abbrev Table (κ : Type u) (α : Type v) :=
  AList fun _ : κ => α

namespace Table

variable {κ : Type u} {α : Type v} [DecidableEq κ] {table : Table κ α} {key other : κ} {value : α}

theorem lookup_insert :
    AList.lookup key (AList.insert other value table) =
      if key = other then some value else table.lookup key := by
  split
  · subst other
    exact AList.lookup_insert table
  · rename_i differs
    exact AList.lookup_insert_ne differs

theorem lookup_erase :
    AList.lookup key (AList.erase other table) =
      if key = other then none else table.lookup key := by
  split
  · subst other
    exact AList.lookup_erase _ _
  · rename_i differs
    exact AList.lookup_erase_ne differs

theorem lookup_insert_eq_some {found : α} :
    AList.lookup key (AList.insert other value table) = some found ↔
      key = other ∧ value = found ∨ key ≠ other ∧ table.lookup key = some found := by
  rw [lookup_insert]
  by_cases same : key = other <;> simp [same]

theorem lookup_erase_eq_some {found : α} :
    AList.lookup key (AList.erase other table) = some found ↔
      key ≠ other ∧ table.lookup key = some found := by
  rw [lookup_erase]
  by_cases same : key = other <;> simp [same]

theorem lookup_erase_eq_none (nothing : table.lookup key = none) :
    AList.lookup key (AList.erase other table) = none := by
  rw [lookup_erase, nothing, ite_self]

/-- An entry of the list behind a table is what lookup finds. -/
theorem mem_entries_iff {entry : Sigma fun _ : κ => α} :
    entry ∈ table.entries ↔ table.lookup entry.1 = some entry.2 :=
  AList.mem_lookup_iff.symm

end Table

end HotaruMqtt.Exec
