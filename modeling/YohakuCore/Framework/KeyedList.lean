import Mathlib.Data.List.Find
import Mathlib.Data.List.Nodup

/-! # Lists with distinct keys -/

namespace YohakuCore.Framework

variable {α κ : Type*} {key : α → κ} {entries entries' : List α} {a : α} {k : κ}

theorem nodup_filter (hnodup : (entries.map key).Nodup) (p : α → Bool) :
    ((entries.filter p).map key).Nodup :=
  (List.filter_sublist.map key).nodup hnodup

theorem nodup_concat (hnodup : (entries.map key).Nodup) (hnew : ∀ b ∈ entries, key b ≠ key a) :
    ((entries ++ [a]).map key).Nodup := by
  rw [List.map_append, List.map_singleton, List.nodup_append]
  refine ⟨hnodup, List.nodup_singleton _, ?_⟩
  intro k hk l hl
  obtain ⟨b, hb, rfl⟩ := List.mem_map.mp hk
  rw [List.mem_singleton.mp hl]
  exact hnew b hb

variable [DecidableEq κ]

variable (key) in
/-- The first entry with the key. -/
def lookupKey (entries : List α) (k : κ) : Option α := entries.find? (fun a => key a = k)

theorem lookupKey_eq_none : lookupKey key entries k = none ↔ ∀ a ∈ entries, key a ≠ k := by
  simp [lookupKey]

theorem lookupKey_perm (h : entries.Perm entries') (hnodup : (entries.map key).Nodup) :
    lookupKey key entries k = lookupKey key entries' k := by
  apply List.find?_eq_find?_of_perm h
  rintro a ⟨ha, hka⟩ b ⟨hb, hkb⟩
  exact List.inj_on_of_nodup_map hnodup ha hb
    ((of_decide_eq_true hka).trans (of_decide_eq_true hkb).symm)

theorem lookupKey_filter_ne {k' : κ} :
    lookupKey key (entries.filter fun a => key a ≠ k') k =
      if k = k' then none else lookupKey key entries k := by
  by_cases hk : k = k'
  · rw [if_pos hk, lookupKey_eq_none]
    intro a hmem
    rw [hk]
    exact of_decide_eq_true (List.mem_filter.mp hmem).2
  · rw [if_neg hk, lookupKey, lookupKey, List.find?_filter]
    congr 1
    funext a
    by_cases ha : key a = k <;> simp [ha, hk]

theorem lookupKey_concat (hnew : ∀ b ∈ entries, key b ≠ key a) :
    lookupKey key (entries ++ [a]) k = if k = key a then some a else lookupKey key entries k := by
  rw [lookupKey, List.find?_append]
  by_cases hk : k = key a
  · have hnone : entries.find? (fun b => decide (key b = k)) = none :=
      lookupKey_eq_none.mpr (hk ▸ hnew)
    rw [hnone, Option.none_or, if_pos hk]
    simp [hk]
  · have hlast : [a].find? (fun b => decide (key b = k)) = none := by
      simp [Ne.symm hk]
    rw [hlast, Option.or_none, if_neg hk, lookupKey]

end YohakuCore.Framework
