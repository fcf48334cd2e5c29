import Mathlib.Data.List.Sort

/-! # Stable sorting -/

namespace YohakuCore.Framework

variable {α : Type*} {r : α → α → Prop} [DecidableRel r]

private theorem filter_orderedInsert (p : α → Bool)
    (hp : ∀ a b, p a = true → p b = true → r a b) (a : α) (l : List α) :
    (l.orderedInsert r a).filter p = (a :: l).filter p := by
  induction l with
  | nil => rfl
  | cons b l ih =>
      rw [List.orderedInsert_cons]
      by_cases hab : r a b
      · rw [if_pos hab]
      · rw [if_neg hab, List.filter_cons, ih]
        by_cases ha : p a = true
        · have hb : ¬ p b = true := fun hb => hab (hp a b ha hb)
          simp [ha, hb]
        · simp [ha, List.filter_cons]

theorem filter_insertionSort (p : α → Bool) (hp : ∀ a b, p a = true → p b = true → r a b)
    (l : List α) : (l.insertionSort r).filter p = l.filter p := by
  induction l with
  | nil => rfl
  | cons a l ih =>
      rw [List.insertionSort_cons, filter_orderedInsert p hp, List.filter_cons,
        List.filter_cons, ih]

theorem find?_insertionSort (p : α → Bool) (hp : ∀ a b, p a = true → p b = true → r a b)
    (l : List α) : (l.insertionSort r).find? p = l.find? p := by
  rw [← List.head?_filter, ← List.head?_filter, filter_insertionSort p hp]

/-- Where no two different elements compare equal, the sorted list does not depend on the order of
the list. -/
theorem insertionSort_eq_of_perm [IsTrans α r] [Std.Total r] {l m : List α} (h : l.Perm m)
    (hr : ∀ a ∈ l, ∀ b ∈ l, r a b → r b a → a = b) : l.insertionSort r = m.insertionSort r := by
  have hperm := (List.perm_insertionSort r l).trans (h.trans (List.perm_insertionSort r m).symm)
  refine hperm.eq_of_pairwise ?_ (List.pairwise_insertionSort r l)
    (List.pairwise_insertionSort r m)
  intro a b ha hb
  rw [List.mem_insertionSort] at ha hb
  exact hr a ha b (h.mem_iff.mpr hb)

/-- The least element with property `p`, the first of those that tie. -/
def stableLeast (r : α → α → Prop) [DecidableRel r] (p : α → Bool) : List α → Option α
  | [] => none
  | a :: l =>
      if p a then
        match stableLeast r p l with
        | none => some a
        | some b => if r a b then some a else some b
      else stableLeast r p l

/-- `a` has property `p`, comes strictly before the elements with `p` that precede it in the list,
and not after those that follow it. -/
def IsStableLeast (r : α → α → Prop) (p : α → Prop) (l : List α) (a : α) : Prop :=
  p a ∧ ∃ before after, l = before ++ a :: after ∧ (∀ b ∈ before, p b → ¬ r b a) ∧
    ∀ b ∈ after, p b → r a b

theorem stableLeast_eq_none {p : α → Bool} {l : List α} :
    stableLeast r p l = none ↔ ∀ a ∈ l, p a = false := by
  induction l with
  | nil => simp [stableLeast]
  | cons a l ih =>
      rw [stableLeast]
      by_cases ha : p a = true
      · rw [if_pos ha]
        cases stableLeast r p l with
        | none => simp [ha]
        | some b => by_cases hab : r a b <;> simp [hab, ha]
      · rw [if_neg ha, ih]
        simp [ha]

theorem stableLeast_filter (p q : α → Bool) (l : List α) :
    stableLeast r p (l.filter q) = stableLeast r (fun a => p a && q a) l := by
  induction l with
  | nil => rfl
  | cons a l ih =>
      rw [List.filter_cons]
      by_cases hq : q a = true
      · rw [if_pos hq, stableLeast, stableLeast, ih]
        simp only [hq, Bool.and_true]
      · rw [if_neg hq, stableLeast, ih]
        simp only [hq, Bool.and_false, Bool.false_eq_true, if_false]

theorem stableLeast_concat_of_not {p : α → Bool} {a : α} (ha : p a = false) (l : List α) :
    stableLeast r p (l ++ [a]) = stableLeast r p l := by
  induction l with
  | nil => simp [stableLeast, ha]
  | cons b l ih => rw [List.cons_append, stableLeast, stableLeast, ih]

omit [DecidableRel r] in
theorem isStableLeast_concat {p : α → Prop} {l : List α} {a : α} (ha : a ∉ l) :
    IsStableLeast r p (l ++ [a]) a ↔ p a ∧ ∀ b ∈ l, p b → ¬ r b a := by
  constructor
  · rintro ⟨hp, before, after, hl, hbefore, -⟩
    refine ⟨hp, ?_⟩
    rcases List.eq_nil_or_concat after with rfl | ⟨after, c, rfl⟩
    · obtain ⟨rfl, -⟩ := List.append_inj' hl rfl
      exact hbefore
    · rw [List.concat_eq_append, ← List.cons_append, ← List.append_assoc] at hl
      obtain ⟨rfl, -⟩ := List.append_inj' hl rfl
      exact absurd (by simp) ha
  · rintro ⟨hp, hl⟩
    exact ⟨hp, l, [], rfl, hl, by simp⟩

section Sorted

variable [IsTrans α r]

private theorem find?_orderedInsert (p : α → Bool) (a : α) {l : List α} (hl : l.Pairwise r) :
    (l.orderedInsert r a).find? p =
      if p a then
        match l.find? p with
        | none => some a
        | some b => if r a b then some a else some b
      else l.find? p := by
  induction l with
  | nil => by_cases ha : p a = true <;> simp [ha]
  | cons b l ih =>
      obtain ⟨hb, hl⟩ := List.pairwise_cons.mp hl
      rw [List.orderedInsert_cons]
      by_cases hab : r a b
      · rw [if_pos hab, List.find?_cons]
        by_cases ha : p a = true
        · rw [if_pos ha]
          cases hfind : (b :: l).find? p with
          | none => simp [ha]
          | some c =>
              have hac : r a c := by
                rcases List.mem_cons.mp (List.mem_of_find?_eq_some hfind) with rfl | hc
                · exact hab
                · exact IsTrans.trans a b c hab (hb c hc)
              simp [ha, hac]
        · simp [ha]
      · rw [if_neg hab, List.find?_cons, List.find?_cons]
        by_cases hpb : p b = true
        · simp [hpb, hab]
        · simp only [hpb]
          exact ih hl

variable [Std.Total r]

/-- Looking an element up in the sorted list finds the least one, the first of those that tie. -/
theorem find?_insertionSort_eq (p : α → Bool) (l : List α) :
    (l.insertionSort r).find? p = stableLeast r p l := by
  induction l with
  | nil => rfl
  | cons a l ih =>
      rw [List.insertionSort_cons, find?_orderedInsert p a (List.pairwise_insertionSort r l), ih]
      rfl

omit [IsTrans α r] [Std.Total r] in
private theorem stableLeast_prop {p : α → Bool} {l : List α} {a : α}
    (h : stableLeast r p l = some a) : a ∈ l ∧ p a = true := by
  induction l with
  | nil => contradiction
  | cons b l ih =>
      rw [stableLeast] at h
      split at h
      · rename_i hb
        cases hrest : stableLeast r p l with
        | none =>
            rw [hrest] at h
            obtain rfl := Option.some.inj h
            exact ⟨List.mem_cons_self, hb⟩
        | some c =>
            rw [hrest] at h
            by_cases hbc : r b c
            · obtain rfl : b = a := by simpa [hbc] using h
              exact ⟨List.mem_cons_self, hb⟩
            · obtain rfl : c = a := by simpa [hbc] using h
              exact ⟨List.mem_cons_of_mem _ (ih hrest).1, (ih hrest).2⟩
      · exact ⟨List.mem_cons_of_mem _ (ih h).1, (ih h).2⟩

omit [DecidableRel r] [IsTrans α r] in
theorem IsStableLeast.rel {p : α → Prop} {l : List α} {a b : α} (h : IsStableLeast r p l a)
    (hb : b ∈ l) (hpb : p b) : r a b := by
  obtain ⟨-, before, after, rfl, hbefore, hafter⟩ := h
  rcases List.mem_append.mp hb with hb | hb
  · exact (Std.Total.total a b).resolve_right (hbefore b hb hpb)
  · rcases List.mem_cons.mp hb with rfl | hb
    · exact (Std.Total.total b b).elim id id
    · exact hafter b hb hpb

omit [DecidableRel r] [IsTrans α r] [Std.Total r] in
theorem IsStableLeast.cons {p : α → Prop} {l : List α} {a x : α} (h : IsStableLeast r p l a)
    (hx : p x → ¬ r x a) : IsStableLeast r p (x :: l) a := by
  obtain ⟨ha, before, after, rfl, hbefore, hafter⟩ := h
  refine ⟨ha, x :: before, after, rfl, ?_, hafter⟩
  intro b hb
  rcases List.mem_cons.mp hb with rfl | hb
  · exact hx
  · exact hbefore b hb

theorem stableLeast_eq_some {p : α → Prop} [DecidablePred p] {l : List α} {a : α} :
    stableLeast r (fun a => p a) l = some a ↔ IsStableLeast r p l a := by
  induction l generalizing a with
  | nil => simp [stableLeast, IsStableLeast]
  | cons x l ih =>
      constructor
      · intro h
        rw [stableLeast] at h
        split at h
        · rename_i hx
          have hx : p x := of_decide_eq_true hx
          cases hrest : stableLeast r (fun a => p a) l with
          | none =>
              rw [hrest] at h
              obtain rfl := Option.some.inj h
              refine ⟨hx, [], l, rfl, by simp, ?_⟩
              intro b hb hpb
              exact absurd hpb (of_decide_eq_false (stableLeast_eq_none.mp hrest b hb))
          | some c =>
              rw [hrest] at h
              have hc := ih.mp hrest
              by_cases hxc : r x c
              · obtain rfl : x = a := by simpa [hxc] using h
                refine ⟨hx, [], l, rfl, by simp, ?_⟩
                intro b hb hpb
                exact IsTrans.trans x c b hxc (hc.rel hb hpb)
              · obtain rfl : c = a := by simpa [hxc] using h
                exact hc.cons (fun _ => hxc)
        · rename_i hx
          exact (ih.mp h).cons (fun hpx => absurd (decide_eq_true hpx) hx)
      · rintro ⟨ha, before, after, hl, hbefore, hafter⟩
        cases before with
        | nil =>
            obtain ⟨rfl, rfl⟩ := List.cons.inj hl
            rw [stableLeast, if_pos (decide_eq_true ha)]
            cases hrest : stableLeast r (fun a => p a) l with
            | none => rfl
            | some b =>
                obtain ⟨hb, hpb⟩ := stableLeast_prop hrest
                simp [hafter b hb (of_decide_eq_true hpb)]
        | cons y before =>
            obtain ⟨rfl, rfl⟩ := List.cons.inj hl
            have hrest := ih.mpr ⟨ha, before, after, rfl,
              fun b hb => hbefore b (List.mem_cons_of_mem _ hb), hafter⟩
            rw [stableLeast, hrest]
            by_cases hx : p x
            · simp [hx, hbefore x List.mem_cons_self hx]
            · simp [hx]

theorem find?_insertionSort_eq_some {p : α → Prop} [DecidablePred p] {l : List α} {a : α} :
    (l.insertionSort r).find? (fun a => p a) = some a ↔ IsStableLeast r p l a := by
  rw [find?_insertionSort_eq, stableLeast_eq_some]

end Sorted

end YohakuCore.Framework
