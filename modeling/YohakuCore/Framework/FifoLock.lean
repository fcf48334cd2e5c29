import Mathlib.Data.List.Nodup
import Mathlib.Data.List.TakeWhile
import Mathlib.Logic.Function.Basic

/-!
# First-come first-served locks

The queue lists the owners in the order in which they asked; its head holds the lock. `ahead queue
k` are the owners `k` waits for.
-/

namespace YohakuCore.Framework

variable {α : Type*} [DecidableEq α]

/-- The owners in front of `k`; all of them while `k` has not asked. -/
def ahead (queue : List α) (k : α) : List α := queue.takeWhile (fun p => p ≠ k)

theorem ahead_of_notMem {queue : List α} {k : α} (h : k ∉ queue) : ahead queue k = queue := by
  refine List.takeWhile_eq_self_iff.mpr ?_
  intro p hp
  have hne : p ≠ k := fun heq => h (heq ▸ hp)
  exact decide_eq_true hne

@[simp] theorem ahead_cons_self (queue : List α) (k : α) : ahead (k :: queue) k = [] := by
  simp [ahead]

theorem mem_ahead_append {queue : List α} {k p : α} (h : p ∈ ahead queue k) (later : α) :
    p ∈ ahead (queue ++ [later]) k := by
  induction queue with
  | nil => exact absurd h List.not_mem_nil
  | cons q queue ih =>
      by_cases hq : q = k
      · rw [hq, ahead_cons_self] at h
        exact absurd h List.not_mem_nil
      · have hcons (rest : List α) : ahead (q :: rest) k = q :: ahead rest k :=
          List.takeWhile_cons_of_pos (decide_eq_true hq)
        rw [hcons] at h
        rw [List.cons_append, hcons]
        rcases List.mem_cons.mp h with rfl | h
        · exact List.mem_cons_self
        · exact List.mem_cons_of_mem _ (ih h)

theorem mem_ahead_release {holder : α} {queue : List α} {k p : α}
    (h : p ∈ ahead (holder :: queue) k) (hne : p ≠ holder) : p ∈ ahead queue k := by
  by_cases hk : holder = k
  · rw [hk, ahead_cons_self] at h
    exact absurd h List.not_mem_nil
  · have hcons : ahead (holder :: queue) k = holder :: ahead queue k :=
      List.takeWhile_cons_of_pos (decide_eq_true hk)
    rw [hcons] at h
    exact (List.mem_cons.mp h).resolve_left hne

theorem notMem_ahead_of_head {queue : List α} {k : α} (h : queue.head? = some k) (p : α) :
    p ∉ ahead queue k := by
  obtain ⟨rest, rfl⟩ := List.head?_eq_some_iff.mp h
  rw [ahead_cons_self]
  exact List.not_mem_nil

/-- Between two entries of one user there is nobody else. -/
def Contiguous (log : List α) : Prop :=
  ∀ (i j k : Nat) (x y : α), i < j → j < k →
    log[i]? = some x → log[j]? = some y → log[k]? = some x → y = x

omit [DecidableEq α] in
theorem contiguous_nil : Contiguous ([] : List α) := by
  intro i j k x y _ _ hi
  simp at hi

omit [DecidableEq α] in
theorem Contiguous.concat {log : List α} (h : Contiguous log) (left : α → Prop)
    (hleft : log.Pairwise (fun x y => x = y ∨ left x)) {x : α} (hx : ¬ left x) :
    Contiguous (log ++ [x]) := by
  intro i j k y z hij hjk hi hj hk
  have hlt {n : Nat} {u : α} (hn : (log ++ [x])[n]? = some u) : n ≤ log.length := by
    obtain ⟨hlen, -⟩ := List.getElem?_eq_some_iff.mp hn
    simp at hlen
    omega
  have hkle := hlt hk
  rw [List.getElem?_append_left (by omega)] at hi hj
  rcases Nat.lt_or_ge k log.length with hin | hout
  · rw [List.getElem?_append_left hin] at hk
    exact h i j k y z hij hjk hi hj hk
  · obtain rfl : k = log.length := by omega
    rw [List.getElem?_append_right (Nat.le_refl _), Nat.sub_self] at hk
    obtain rfl : x = y := Option.some.inj hk
    obtain ⟨hilt, hi⟩ := List.getElem?_eq_some_iff.mp hi
    obtain ⟨hjlt, hj⟩ := List.getElem?_eq_some_iff.mp hj
    rcases List.pairwise_iff_getElem.mp hleft i j hilt hjlt hij with heq | hgone
    · rw [← hj, ← heq, hi]
    · rw [hi] at hgone
      exact absurd hgone hx

/-- The queues of the locks `κ` against what the owners do: `asked` is the lock an owner waits for
or holds, and only a head may count as a holder. -/
structure LockInv {κ : Type*} (queue : κ → List Nat) (asked : Nat → Option κ)
    (holds : Nat → Prop) : Prop where
  mem : ∀ k id, id ∈ queue k ↔ asked id = some k
  nodup : ∀ k, (queue k).Nodup
  head : ∀ k id, holds id → asked id = some k → (queue k).head? = some id

variable {κ : Type*} {queue : κ → List Nat} {asked asked' : Nat → Option κ}
  {holds holds' : Nat → Prop}

/-- Two holders of one lock are the same. -/
theorem LockInv.holder_unique (h : LockInv queue asked holds) {k : κ} {i j : Nat}
    (hi : holds i) (hj : holds j) (hik : asked i = some k) (hjk : asked j = some k) : i = j :=
  Option.some.inj ((h.head k i hi hik).symm.trans (h.head k j hj hjk))

/-- A step of an owner that neither asks nor releases; it may become a holder at the head. -/
theorem LockInv.keep (h : LockInv queue asked holds) {id : Nat} (hasked : asked' = asked)
    (hother : ∀ j, j ≠ id → holds' j → holds j)
    (hhead : ∀ k, asked id = some k → holds' id → (queue k).head? = some id) :
    LockInv queue asked' holds' := by
  subst hasked
  refine ⟨h.mem, h.nodup, ?_⟩
  intro k j hj hjk
  by_cases hne : j = id
  · subst hne
    exact hhead k hjk hj
  · exact h.head k j (hother j hne hj) hjk

variable [DecidableEq κ]

theorem LockInv.ask (h : LockInv queue asked holds) {id : Nat} {k : κ} (hfree : asked id = none)
    (hasked : asked' = Function.update asked id (some k))
    (hother : ∀ j, holds' j → j ≠ id ∧ holds j) :
    LockInv (Function.update queue k (queue k ++ [id])) asked' holds' := by
  subst hasked
  have hnot : ∀ l, id ∉ queue l := by
    intro l hl
    rw [h.mem, hfree] at hl
    contradiction
  refine ⟨?_, ?_, ?_⟩
  · intro l j
    by_cases hj : j = id
    · subst hj
      rw [Function.update_self, Option.some.injEq]
      by_cases hl : l = k
      · subst hl
        simp
      · rw [Function.update_of_ne hl]
        exact ⟨fun hmem => absurd hmem (hnot l), fun heq => absurd heq.symm hl⟩
    · rw [Function.update_of_ne hj, ← h.mem]
      by_cases hl : l = k
      · subst hl
        rw [Function.update_self]
        simp [hj]
      · rw [Function.update_of_ne hl]
  · intro l
    by_cases hl : l = k
    · subst hl
      rw [Function.update_self]
      exact (h.nodup l).append (List.nodup_singleton id)
        (List.disjoint_singleton.mpr (hnot l))
    · rw [Function.update_of_ne hl]
      exact h.nodup l
  · intro l j hj hjl
    obtain ⟨hne, hold⟩ := hother j hj
    rw [Function.update_of_ne hne] at hjl
    have hhead := h.head l j hold hjl
    by_cases hl : l = k
    · subst hl
      rw [Function.update_self, List.head?_append, hhead]
      rfl
    · rw [Function.update_of_ne hl]
      exact hhead

theorem LockInv.release (h : LockInv queue asked holds) {id : Nat} {k : κ}
    (hhead : (queue k).head? = some id) (hasked : asked' = Function.update asked id none)
    (hholds : ∀ j, holds' j → j ≠ id → holds j) :
    LockInv (Function.update queue k (queue k).tail) asked' holds' := by
  subst hasked
  obtain ⟨rest, hrest⟩ := List.head?_eq_some_iff.mp hhead
  have hid : asked id = some k := (h.mem k id).mp (hrest ▸ List.mem_cons_self)
  have hnodup := h.nodup k
  rw [hrest] at hnodup
  have hnot : id ∉ rest := (List.nodup_cons.mp hnodup).1
  refine ⟨?_, ?_, ?_⟩
  · intro l j
    by_cases hj : j = id
    · subst hj
      rw [Function.update_self]
      refine iff_of_false ?_ (fun heq => nomatch heq)
      by_cases hl : l = k
      · subst hl
        rw [Function.update_self, hrest]
        exact hnot
      · rw [Function.update_of_ne hl, h.mem, hid]
        intro heq
        exact hl (Option.some.inj heq).symm
    · rw [Function.update_of_ne hj, ← h.mem]
      by_cases hl : l = k
      · subst hl
        rw [Function.update_self, hrest, List.tail_cons, List.mem_cons]
        exact ⟨Or.inr, fun hmem => hmem.resolve_left hj⟩
      · rw [Function.update_of_ne hl]
  · intro l
    by_cases hl : l = k
    · subst hl
      rw [Function.update_self]
      exact (h.nodup l).tail
    · rw [Function.update_of_ne hl]
      exact h.nodup l
  · intro l j hj hjl
    by_cases hne : j = id
    · rw [hne, Function.update_self] at hjl
      contradiction
    · rw [Function.update_of_ne hne] at hjl
      have hold := hholds j hj hne
      by_cases hl : l = k
      · subst hl
        have hj := h.head l j hold hjl
        exact absurd (Option.some.inj (hj.symm.trans hhead)) hne
      · rw [Function.update_of_ne hl]
        exact h.head l j hold hjl

end YohakuCore.Framework
