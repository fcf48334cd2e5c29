import Mathlib.Data.List.Dedup
import Mathlib.Data.List.Nodup

/-! # Bounded lists of what came last -/

namespace YohakuCore.Framework

variable {α : Type*} [DecidableEq α] {limit : Nat}

def pushRecent (limit : Nat) (recent : List α) (a : α) : List α :=
  (a :: recent.filter (· ≠ a)).take limit

theorem dedup_concat (history : List α) (a : α) :
    (history ++ [a]).dedup = history.dedup.filter (· ≠ a) ++ [a] := by
  induction history with
  | nil => simp
  | cons b history ih =>
      rw [List.cons_append]
      by_cases hba : b = a
      · subst hba
        have hmem : b ∈ history ++ [b] := by simp
        rw [List.dedup_cons_of_mem hmem, ih]
        by_cases hold : b ∈ history
        · rw [List.dedup_cons_of_mem hold]
        · rw [List.dedup_cons_of_notMem hold]
          simp
      · by_cases hold : b ∈ history
        · have hmem : b ∈ history ++ [a] := List.mem_append_left _ hold
          rw [List.dedup_cons_of_mem hmem, List.dedup_cons_of_mem hold, ih]
        · have hmem : b ∉ history ++ [a] := by simp [hold, hba]
          rw [List.dedup_cons_of_notMem hmem, List.dedup_cons_of_notMem hold, ih]
          simp [hba]

theorem take_filter_take {l : List α} (hl : l.Nodup) (a : α) (n : Nat) :
    ((l.take (n + 1)).filter (· ≠ a)).take n = (l.filter (· ≠ a)).take n := by
  induction l generalizing n with
  | nil => simp
  | cons b l ih =>
      obtain ⟨hb, hl⟩ := List.nodup_cons.mp hl
      by_cases hba : b = a
      · subst hba
        have hothers : ∀ m, (l.take m).filter (· ≠ b) = l.take m := by
          intro m
          apply List.filter_eq_self.mpr
          intro c hc
          have hne : c ≠ b := fun h => hb (h ▸ List.mem_of_mem_take hc)
          simpa using hne
        have hall : l.filter (· ≠ b) = l := by simpa using hothers l.length
        rw [List.take_succ_cons, List.filter_cons_of_neg (by simp), hothers,
          List.filter_cons_of_neg (by simp), hall, List.take_take, Nat.min_self]
      · cases n with
        | zero => simp
        | succ n =>
            rw [List.take_succ_cons, List.filter_cons_of_pos (by simpa using hba),
              List.filter_cons_of_pos (by simpa using hba), List.take_succ_cons,
              List.take_succ_cons, ih hl n]

/-- The list is the front of the distinct values of the history, the last ones first. -/
theorem pushRecent_dedup (history : List α) (a : α) :
    pushRecent limit (history.dedup.reverse.take limit) a =
      (history ++ [a]).dedup.reverse.take limit := by
  have hdistinct : history.dedup.reverse.Nodup := List.nodup_reverse.mpr (List.nodup_dedup _)
  rw [dedup_concat, List.reverse_append, List.reverse_singleton, List.singleton_append,
    ← List.filter_reverse, pushRecent]
  cases limit with
  | zero => rfl
  | succ n => rw [List.take_succ_cons, List.take_succ_cons, take_filter_take hdistinct]

end YohakuCore.Framework
