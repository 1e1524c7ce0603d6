import Mathlib.Data.List.Nodup
import Polyloom.Table

/-!
# Tables

A table is a list of keys and values.  Putting a value under a key changes the entry that the key is
looked up in, or adds one behind all others, so a table in which each key stands once stays one.
-/

namespace Polyloom

open List

variable {κ β : Type} [DecidableEq κ] {key other : κ} {value : β} {table : List (κ × β)}

theorem lookup_eq_some_iff_mem (h : (table.map Prod.fst).Nodup) :
    table.lookup key = some value ↔ (key, value) ∈ table := by
  induction table with
  | nil => simp
  | cons entry table ih =>
    obtain ⟨k, v⟩ := entry
    rw [map_cons, nodup_cons] at h
    by_cases hk : key = k
    · subst hk
      have hother : (key, value) ∉ table := fun hmem =>
        h.1 (mem_map.mpr ⟨_, hmem, rfl⟩)
      simp [hother, eq_comm]
    · simp [lookup_cons, beq_false_of_ne hk, ih h.2, hk]

theorem lookup_eq_none_iff_notMem : table.lookup key = none ↔ key ∉ table.map Prod.fst := by
  rw [lookup_eq_none_iff, mem_map]
  grind

theorem mem_of_lookup (h : table.lookup key = some value) : (key, value) ∈ table := by
  obtain ⟨front, back, rfl, -⟩ := lookup_eq_some_iff.mp h
  exact mem_append_right _ (mem_cons_self ..)

namespace Table

theorem lookup_put_self (key : κ) (value : β) (table : List (κ × β)) :
    (put key value table).lookup key = some value := by
  induction table with
  | nil => simp [put]
  | cons entry table ih =>
    obtain ⟨k, v⟩ := entry
    by_cases h : k = key
    · simp [put, h]
    · have hne : (key == k) = false := by simpa using Ne.symm h
      simp [put, h, lookup_cons, hne, ih]

theorem lookup_put_of_ne (h : other ≠ key) (value : β) (table : List (κ × β)) :
    (put key value table).lookup other = table.lookup other := by
  have hne : (other == key) = false := by simpa using h
  induction table with
  | nil => simp [put, lookup_cons, hne]
  | cons entry table ih =>
    obtain ⟨k, v⟩ := entry
    by_cases hk : k = key
    · simp [put, hk, lookup_cons, hne]
    · simp [put, hk, lookup_cons, ih]

theorem put_of_lookup (h : table.lookup key = some value) : put key value table = table := by
  induction table with
  | nil => cases h
  | cons entry table ih =>
    obtain ⟨k, v⟩ := entry
    by_cases hk : k = key
    · subst hk
      simp only [lookup_cons, beq_self_eq_true] at h
      rw [put, if_pos rfl, Option.some.inj h]
    · rw [lookup_cons, beq_false_of_ne (Ne.symm hk)] at h
      rw [put, if_neg hk, ih h]

theorem put_of_notMem (h : key ∉ table.map Prod.fst) (value : β) :
    put key value table = table ++ [(key, value)] := by
  induction table with
  | nil => rfl
  | cons entry table ih =>
    rw [map_cons, mem_cons, not_or] at h
    rw [put, if_neg (Ne.symm h.1), ih h.2, cons_append]

theorem eq_or_mem_of_mem_put {entry : κ × β} (h : entry ∈ put key value table) :
    entry = (key, value) ∨ entry ∈ table := by
  induction table with
  | nil => exact .inl (mem_singleton.mp h)
  | cons first table ih =>
    obtain ⟨k, v⟩ := first
    rw [put] at h
    split at h
    next hk =>
      subst hk
      obtain rfl | h := mem_cons.mp h
      · exact .inl rfl
      · exact .inr (mem_cons_of_mem _ h)
    next =>
      obtain rfl | h := mem_cons.mp h
      · exact .inr (mem_cons_self ..)
      · exact (ih h).imp_right (mem_cons_of_mem _)

theorem nodup_keys_put (h : (table.map Prod.fst).Nodup) (key : κ) (value : β) :
    ((put key value table).map Prod.fst).Nodup := by
  induction table with
  | nil => simp [put]
  | cons first table ih =>
    obtain ⟨k, v⟩ := first
    rw [map_cons, nodup_cons] at h
    rw [put]
    split
    next hk => exact nodup_cons.mpr h
    next hk =>
      refine nodup_cons.mpr ⟨fun hmem => ?_, ih h.2⟩
      obtain ⟨entry, hentry, hkey⟩ := mem_map.mp hmem
      obtain rfl | hentry := eq_or_mem_of_mem_put hentry
      · exact hk hkey.symm
      · exact h.1 (mem_map.mpr ⟨entry, hentry, hkey⟩)

end Table

end Polyloom
