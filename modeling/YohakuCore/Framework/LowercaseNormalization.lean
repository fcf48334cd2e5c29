import YohakuCore.Framework.Normalization
import Mathlib.Data.List.Count
import Mathlib.Data.List.Flatten

/-!
# The lowercase of a composed text

A capital letter may stay apart from a mark that its small letter composes with. `KeepsPace` says
that nothing of the kind happens.
-/

namespace YohakuCore.Framework

namespace UnicodeTables

variable (T : UnicodeTables)

/-- The first character of the lowercase; with few exceptions the only one. -/
def small (c : Char) : Char := (T.lowerChar c).headD c

def smallTail (c : Char) : List Char := (T.lowerChar c).tail

/-- What the canonical decompositions, the compositions and the lowercase mappings of the
character data have to do with each other. -/
structure Lawful : Prop where
  decomposition_ne_nil : ∀ c, T.decomposition c ≠ []
  decomposition_full : ∀ c, ∀ x ∈ T.decomposition c, T.decomposition x = [x]
  composite_decomposition : ∀ a b p, T.composite a b = some p →
    (T.decomposition p).Perm (T.decomposition a ++ T.decomposition b)
  lower_ne_nil : ∀ c, T.lowerChar c ≠ []
  lower_stable : ∀ c, ∀ x ∈ T.lowerChar c, T.lowerChar x = [x]
  lower_decomposed : ∀ c, T.decomposition c = [c] → T.lowerChar c = [T.small c] ∧
    T.combiningClass (T.small c) = T.combiningClass c ∧ T.decomposition (T.small c) = [T.small c]
  lower_decomposition : ∀ c,
    (T.lowerChar c).flatMap T.decomposition = (T.decomposition c).flatMap T.lowerChar
  lower_composite_starter : ∀ a b p, T.composite a b = some p → T.lowerChar a = [T.small a]
  lower_composite : ∀ a b p p', T.composite a b = some p →
    T.composite (T.small a) (T.small b) = some p' → T.lowerChar p = [p']
  -- The capital I with a dot above is the only such composite.
  lower_composite_apart : ∀ a b p, T.composite a b = some p →
    T.composite (T.small a) (T.small b) = none →
    T.lowerChar p = [T.small a, T.small b] ∧ T.combiningClass b ≠ 0
  capitalSigma : T.Inert 'Σ'
  finalSigma : T.Inert 'ς' ∧ T.lowerChar 'ς' = ['ς']
  smallSigma : T.Inert (T.small 'Σ') ∧ T.small 'Σ' ≠ 'Σ'

/-- While a text is composed, its lowercase composes along: where a character does not join the
starter, its small character does not join the small starter; and where it does, so do the small
ones, unless they come right after each other. -/
def KeepsPace (starter : Char) (kept : List Char) : List Char → Prop
  | [] => True
  | c :: rest =>
      match T.joined starter kept c with
      | some p =>
          (T.composite (T.small starter) (T.small c) = none → kept = []) ∧ KeepsPace p kept rest
      | none =>
          (T.unblocked (T.smallTail starter ++ kept) c →
            T.composite (T.small starter) (T.small c) = none) ∧
          if T.combiningClass c = 0 then KeepsPace c [] rest
          else KeepsPace starter (kept ++ [c]) rest

/-- The same of a whole text in decomposed order. -/
def TextKeepsPace : List Char → Prop
  | [] => True
  | c :: rest => if T.combiningClass c = 0 then T.KeepsPace c [] rest else TextKeepsPace rest

variable {T}

theorem unblocked_append {kept : List Char} {c d : Char} :
    T.unblocked (kept ++ [d]) c = true ↔
      T.unblocked kept c = true ∧ T.combiningClass d < T.combiningClass c := by
  simp [unblocked]

theorem joined_eq_some {starter c p : Char} {kept : List Char} :
    T.joined starter kept c = some p ↔
      T.unblocked kept c = true ∧ T.composite starter c = some p := by
  simp [joined]

section Steps

variable {starter c : Char} {kept text : List Char}

theorem composeFrom_of_some {p : Char} (hj : T.joined starter kept c = some p) :
    T.composeFrom starter kept (c :: text) = T.composeFrom p kept text := by
  simp [composeFrom, hj]

theorem composeFrom_of_none (hj : T.joined starter kept c = none) :
    T.composeFrom starter kept (c :: text) =
      if T.combiningClass c = 0 then starter :: (kept ++ T.composeFrom c [] text)
      else T.composeFrom starter (kept ++ [c]) text := by
  simp [composeFrom, hj]

theorem keepsPace_of_some {p : Char} (hj : T.joined starter kept c = some p) :
    T.KeepsPace starter kept (c :: text) ↔
      (T.composite (T.small starter) (T.small c) = none → kept = []) ∧
        T.KeepsPace p kept text := by
  simp [KeepsPace, hj]

theorem keepsPace_of_none (hj : T.joined starter kept c = none) :
    T.KeepsPace starter kept (c :: text) ↔
      (T.unblocked (T.smallTail starter ++ kept) c →
        T.composite (T.small starter) (T.small c) = none) ∧
        if T.combiningClass c = 0 then T.KeepsPace c [] text
        else T.KeepsPace starter (kept ++ [c]) text := by
  simp [KeepsPace, hj]

instance decidableKeepsPace : ∀ (starter : Char) (kept text : List Char),
    Decidable (T.KeepsPace starter kept text)
  | _, _, [] => .isTrue trivial
  | starter, kept, c :: rest =>
      have := fun s k => decidableKeepsPace s k rest
      match hj : T.joined starter kept c with
      | some _ => decidable_of_iff _ (keepsPace_of_some hj).symm
      | none => decidable_of_iff _ (keepsPace_of_none hj).symm

instance decidableTextKeepsPace : ∀ text : List Char, Decidable (T.TextKeepsPace text)
  | [] => .isTrue trivial
  | c :: rest =>
      have := decidableTextKeepsPace rest
      inferInstanceAs (Decidable
        (if T.combiningClass c = 0 then T.KeepsPace c [] rest else T.TextKeepsPace rest))

end Steps

section Head

/-- The first character that composition puts out has taken up some of the characters read, each
unblocked; when it has taken up none, everything kept comes behind it. -/
theorem Lawful.composeFrom_head (hT : T.Lawful) (starter : Char) (kept text : List Char) :
    ∃ h rest taken, T.composeFrom starter kept text = h :: rest ∧
      (T.decomposition h).Perm (T.decomposition starter ++ taken.flatMap T.decomposition) ∧
      (∀ m ∈ taken, m ∈ text ∧ T.unblocked kept m = true) ∧
      (taken = [] → h = starter ∧ kept <+: rest) := by
  induction text generalizing starter kept with
  | nil => exact ⟨starter, kept, [], by simp [composeFrom]⟩
  | cons c text ih =>
      simp only [composeFrom]
      cases hj : T.joined starter kept c with
      | some p =>
          obtain ⟨hopen, hp⟩ := joined_eq_some.mp hj
          obtain ⟨h, rest, taken, heq, hperm, htaken, -⟩ := ih p kept
          refine ⟨h, rest, c :: taken, heq, ?_, ?_, by simp⟩
          · have hpd := hT.composite_decomposition _ _ _ hp
            simpa using hperm.trans (hpd.append_right _)
          · intro m hm
            cases hm with
            | head => exact ⟨by simp, hopen⟩
            | tail _ hm => exact ⟨by simp [(htaken m hm).1], (htaken m hm).2⟩
      | none =>
          by_cases hc : T.combiningClass c = 0
          · exact ⟨starter, kept ++ T.composeFrom c [] text, [], by simp [hc]⟩
          · obtain ⟨h, rest, taken, heq, hperm, htaken, hnone⟩ := ih starter (kept ++ [c])
            refine ⟨h, rest, taken, by simpa [hc] using heq, hperm, ?_, ?_⟩
            · intro m hm
              obtain ⟨hmem, hopen⟩ := htaken m hm
              exact ⟨by simp [hmem], (unblocked_append.mp hopen).1⟩
            · intro h0
              exact ⟨(hnone h0).1, (List.prefix_append kept [c]).trans (hnone h0).2⟩

theorem flatMap_decomposition {text : List Char}
    (htext : ∀ c ∈ text, T.decomposition c = [c]) : text.flatMap T.decomposition = text := by
  induction text with
  | nil => rfl
  | cons c rest ih =>
      have hc := htext c (by simp)
      have hrest := ih (fun d hd => htext d (List.mem_cons_of_mem c hd))
      simp [hc, hrest]

end Head

section Lockstep

variable (T) in
/-- The small letter with the small marks composes to the lowercase of what the letter with its
marks composes to. -/
def LowersAlong (starter : Char) (kept text : List Char) : Prop :=
  T.composeFrom (T.small starter) (T.smallTail starter ++ kept.map T.small) (text.map T.small) =
    (T.composeFrom starter kept text).flatMap T.lowerChar

variable (hT : T.Lawful)
include hT

theorem Lawful.lowerChar_eq (c : Char) : T.lowerChar c = T.small c :: T.smallTail c := by
  have hne := hT.lower_ne_nil c
  cases hl : T.lowerChar c with
  | nil => exact absurd hl hne
  | cons x rest => simp [small, smallTail, hl]

theorem Lawful.flatMap_lowerChar {text : List Char}
    (htext : ∀ c ∈ text, T.decomposition c = [c]) :
    text.flatMap T.lowerChar = text.map T.small := by
  induction text with
  | nil => simp
  | cons c rest ih =>
      have hc := (hT.lower_decomposed c (htext c (by simp))).1
      have hrest := ih (fun d hd => htext d (List.mem_cons_of_mem c hd))
      simp [hc, hrest]

theorem Lawful.smallTail_decomposed {c : Char} (hc : T.decomposition c = [c]) :
    T.smallTail c = [] := by
  have hl := (hT.lower_decomposed c hc).1
  simp [smallTail, hl]

theorem Lawful.unblocked_small (tail : List Char) {kept : List Char} {c : Char}
    (hkept : ∀ k ∈ kept, T.decomposition k = [k]) (hc : T.decomposition c = [c]) :
    T.unblocked (tail ++ kept.map T.small) (T.small c) = T.unblocked (tail ++ kept) c := by
  have hcc := (hT.lower_decomposed c hc).2.1
  have hall : (kept.map T.small).all (fun d => T.combiningClass d < T.combiningClass c) =
      kept.all (fun d => T.combiningClass d < T.combiningClass c) := by
    induction kept with
    | nil => rfl
    | cons k rest ih =>
        have hk := (hT.lower_decomposed k (hkept k (by simp))).2.1
        have hrest := ih (fun d hd => hkept d (List.mem_cons_of_mem k hd))
        simp [hk] at hrest ⊢
        simp [hrest]
  simp [unblocked, List.all_append, hcc, hall]

theorem Lawful.smallTail_composite {a b p : Char} (hb : T.decomposition b = [b])
    (hp : T.composite a b = some p) : ∀ x ∈ T.smallTail p, T.decomposition x = [x] := by
  intro x hx
  cases hs : T.composite (T.small a) (T.small b) with
  | some p' => simp [smallTail, hT.lower_composite _ _ _ _ hp hs] at hx
  | none =>
      have hxb : x = T.small b := by
        simpa [smallTail, (hT.lower_composite_apart _ _ _ hp hs).1] using hx
      rw [hxb]
      exact (hT.lower_decomposed b hb).2.2

theorem Lawful.composite_of_smallTail {starter : Char} (htail : T.smallTail starter ≠ [])
    (c : Char) : T.composite starter c = none := by
  cases hp : T.composite starter c with
  | none => rfl
  | some p =>
      have hl := hT.lower_composite_starter _ _ _ hp
      simp [smallTail, hl] at htail

/-- The capital took the mark up, its small letter did not, and another mark lies between: then
the lowercase of the output has the two marks the other way round. -/
theorem Lawful.apart_ne {p starter c : Char} {kept : List Char} (text lowered : List Char)
    (hp : T.lowerChar p = [T.small starter, T.small c])
    (hkept : ∀ k ∈ kept, T.decomposition k = [k]) (hc : T.decomposition c = [c])
    (hopen : T.unblocked kept c = true) (hne : kept ≠ []) :
    T.composeFrom (T.small starter) (kept.map T.small ++ [T.small c]) lowered ≠
      (T.composeFrom p kept text).flatMap T.lowerChar := by
  intro heq
  have htail : T.smallTail p ≠ [] := by simp [smallTail, hp]
  have halone := hT.composite_of_smallTail htail
  rw [T.composeFrom_alone halone, List.flatMap_cons, hp] at heq
  obtain ⟨h, rest, taken, hout, hperm, -, hnone⟩ :=
    hT.composeFrom_head (T.small starter) (kept.map T.small ++ [T.small c]) lowered
  rw [hout] at heq
  simp only [List.cons_append, List.nil_append, List.cons.injEq] at heq
  obtain ⟨rfl, hrest⟩ := heq
  cases taken with
  | nil =>
      -- The small letter took up nothing, so the first mark kept follows it.
      have hfirst := (hnone rfl).2
      cases kept with
      | nil => exact hne rfl
      | cons k kept =>
          obtain ⟨t, ht⟩ := hfirst
          rw [hrest] at ht
          simp only [List.map_cons, List.cons_append, List.cons.injEq] at ht
          have hk := (hT.lower_decomposed k (hkept k (by simp))).2.1
          have hcc := (hT.lower_decomposed c hc).2.1
          have hlt : T.combiningClass k < T.combiningClass c := by
            simp [unblocked] at hopen
            exact hopen.1
          rw [ht.1] at hk
          omega
  | cons m taken =>
      -- It took up a mark, so its decomposition grew.
      have hlen := hperm.length_eq
      have hm := List.length_pos_iff.mpr (hT.decomposition_ne_nil m)
      simp only [List.flatMap_cons, List.length_append] at hlen
      omega

theorem Lawful.count_lower (x h : Char) :
    ((T.decomposition h).flatMap T.lowerChar).count x =
      (T.decomposition (T.small h)).count x +
        ((T.smallTail h).flatMap T.decomposition).count x := by
  rw [← hT.lower_decomposition, hT.lowerChar_eq, List.flatMap_cons, List.count_append]

theorem Lawful.count_lower_starter {starter c : Char} (hc : T.decomposition c = [c])
    (htail : ∀ x ∈ T.smallTail starter, T.decomposition x = [x])
    (hopen : T.unblocked (T.smallTail starter) c = true) :
    ((T.decomposition starter).flatMap T.lowerChar).count (T.small c) =
      (T.decomposition (T.small starter)).count (T.small c) := by
  have hclass := (hT.lower_decomposed c hc).2.1
  have hnot : T.small c ∉ T.smallTail starter := by
    intro hmem
    have hlt : T.combiningClass (T.small c) < T.combiningClass c := by
      simp [unblocked] at hopen
      exact hopen _ hmem
    omega
  rw [hT.count_lower, flatMap_decomposition htail]
  simp [List.count_eq_zero_of_not_mem hnot]

theorem Lawful.count_lt_of_composite {a b p h : Char} {kept text rest : List Char}
    (hb : T.decomposition b = [b]) (hp : T.composite a b = some p)
    (hout : T.composeFrom p kept text = h :: rest) :
    (T.decomposition a).count b < (T.decomposition h).count b := by
  obtain ⟨h', rest', taken, hout', hperm, -, -⟩ := hT.composeFrom_head p kept text
  rw [hout] at hout'
  simp only [List.cons.injEq] at hout'
  have hcount := hperm.count_eq b
  have hcount' := (hT.composite_decomposition _ _ _ hp).count_eq b
  rw [hb] at hcount'
  simp only [List.count_append, List.count_singleton_self] at hcount hcount'
  rw [hout'.1]
  omega

theorem Lawful.notMem_lower_taken {c : Char} {kept text taken : List Char}
    (hc : T.decomposition c = [c]) (htext : ∀ m ∈ text, T.decomposition m = [m])
    (htaken : ∀ m ∈ taken, m ∈ text ∧ T.unblocked (kept ++ [c]) m = true) :
    T.small c ∉ taken.flatMap T.lowerChar := by
  intro hmem
  obtain ⟨m, hm, hmem⟩ := List.mem_flatMap.mp hmem
  obtain ⟨hmtext, hmopen⟩ := htaken m hm
  obtain ⟨hlower, hmclass, -⟩ := hT.lower_decomposed m (htext m hmtext)
  have heq : T.small c = T.small m := by simpa [hlower] using hmem
  have hclass := (hT.lower_decomposed c hc).2.1
  have hbehind := (unblocked_append.mp hmopen).2
  rw [← heq] at hmclass
  omega

/-- The small letter takes the mark up and the capital does not: then the first character of the
lowercase of the output has the mark once less. -/
theorem Lawful.joins_ne {starter c p : Char} {kept text : List Char}
    (kept' lowered : List Char)
    (hc : T.decomposition c = [c]) (htext : ∀ m ∈ text, T.decomposition m = [m])
    (htail : ∀ x ∈ T.smallTail starter, T.decomposition x = [x])
    (hopen : T.unblocked (T.smallTail starter) c = true)
    (hnone : T.joined starter kept c = none)
    (hp : T.composite (T.small starter) (T.small c) = some p) :
    T.composeFrom p kept' lowered ≠
      (T.composeFrom starter kept (c :: text)).flatMap T.lowerChar := by
  intro heq
  have hsmall := (hT.lower_decomposed c hc).2.2
  have hstarter := hT.count_lower_starter hc htail hopen
  rw [composeFrom_of_none hnone] at heq
  by_cases h0 : T.combiningClass c = 0
  · rw [if_pos h0, List.flatMap_cons, hT.lowerChar_eq, List.cons_append] at heq
    have hlt := hT.count_lt_of_composite hsmall hp heq
    omega
  · obtain ⟨h, rest, taken, hout, hperm, htaken, -⟩ :=
      hT.composeFrom_head starter (kept ++ [c]) text
    rw [if_neg h0, hout, List.flatMap_cons, hT.lowerChar_eq, List.cons_append] at heq
    have hlt := hT.count_lt_of_composite hsmall hp heq
    have hnot := hT.notMem_lower_taken hc htext htaken
    rw [flatMap_decomposition (fun m hm => htext m (htaken m hm).1)] at hperm
    have hcount := (hperm.flatMap_right T.lowerChar).count_eq (T.small c)
    rw [List.flatMap_append, List.count_append, hstarter,
      List.count_eq_zero_of_not_mem hnot, hT.count_lower] at hcount
    omega

theorem Lawful.lowersAlong_of_some {starter c p : Char} {kept text : List Char}
    (hkept : ∀ k ∈ kept, T.decomposition k = [k]) (hc : T.decomposition c = [c])
    (hj : T.joined starter kept c = some p) :
    T.LowersAlong starter kept (c :: text) ↔
      (T.composite (T.small starter) (T.small c) = none → kept = []) ∧
        T.LowersAlong p kept text := by
  obtain ⟨hreach, hp⟩ := joined_eq_some.mp hj
  have hclass := (hT.lower_decomposed c hc).2.1
  have htail : T.smallTail starter = [] := by
    simp [smallTail, hT.lower_composite_starter _ _ _ hp]
  have hopen := hT.unblocked_small [] hkept hc
  rw [List.nil_append, List.nil_append, hreach] at hopen
  rw [LowersAlong, LowersAlong, htail, List.nil_append, List.map_cons, composeFrom_of_some hj]
  cases hs : T.composite (T.small starter) (T.small c) with
  | some p' =>
      have hlp := hT.lower_composite _ _ _ _ hp hs
      have hsp : T.small p = p' := by simp [small, hlp]
      have htp : T.smallTail p = [] := by simp [smallTail, hlp]
      rw [composeFrom_of_some (joined_eq_some.mpr ⟨hopen, hs⟩), hsp, htp]
      simp
  | none =>
      -- What the two compose to has the small letter and the small mark for its lowercase.
      obtain ⟨hlp, hc0⟩ := hT.lower_composite_apart _ _ _ hp hs
      have hsp : T.small p = T.small starter := by simp [small, hlp]
      have htp : T.smallTail p = [T.small c] := by simp [smallTail, hlp]
      rw [composeFrom_of_none (by simp [joined, hs]), if_neg (by omega), hsp, htp]
      by_cases hk : kept = []
      · simp [hk]
      · have hne := hT.apart_ne text (text.map T.small) hlp hkept hc hreach hk
        simp [hk, hne]

theorem Lawful.lowersAlong_of_none {starter c : Char} {kept text : List Char}
    (htail : ∀ x ∈ T.smallTail starter, T.decomposition x = [x])
    (hkept : ∀ k ∈ kept, T.decomposition k = [k]) (hc : T.decomposition c = [c])
    (htext : ∀ m ∈ text, T.decomposition m = [m]) (hj : T.joined starter kept c = none) :
    T.LowersAlong starter kept (c :: text) ↔
      (T.unblocked (T.smallTail starter ++ kept) c →
        T.composite (T.small starter) (T.small c) = none) ∧
        if T.combiningClass c = 0 then T.LowersAlong c [] text
        else T.LowersAlong starter (kept ++ [c]) text := by
  have hclass := (hT.lower_decomposed c hc).2.1
  have hopen := hT.unblocked_small (T.smallTail starter) hkept hc
  rw [LowersAlong, List.map_cons]
  cases hj' : T.joined (T.small starter) (T.smallTail starter ++ kept.map T.small)
      (T.small c) with
  | some p =>
      obtain ⟨hreach, hs⟩ := joined_eq_some.mp hj'
      rw [hopen] at hreach
      have hreach' : T.unblocked (T.smallTail starter) c = true := by
        simp [unblocked] at hreach ⊢
        tauto
      have hne := hT.joins_ne (T.smallTail starter ++ kept.map T.small) (text.map T.small) hc
        htext htail hreach' hj hs
      rw [composeFrom_of_some hj']
      simp [hs, hreach, hne]
  | none =>
      have hstays : T.unblocked (T.smallTail starter ++ kept) c = true →
          T.composite (T.small starter) (T.small c) = none := by
        intro hreach
        simpa [joined, hopen, hreach] using hj'
      rw [composeFrom_of_none hj, composeFrom_of_none hj', hclass, and_iff_right hstays]
      by_cases h0 : T.combiningClass c = 0
      · have htc := hT.smallTail_decomposed hc
        rw [if_pos h0, if_pos h0, if_pos h0, LowersAlong, htc, List.flatMap_cons,
          List.flatMap_append, hT.lowerChar_eq starter, hT.flatMap_lowerChar hkept]
        simp
      · rw [if_neg h0, if_neg h0, if_neg h0, LowersAlong]
        simp

/-- The lowercase of what composition puts out is composed exactly when the small letters keep
pace. -/
theorem Lawful.lowersAlong_iff (starter : Char) (kept : List Char) {text : List Char}
    (htail : ∀ x ∈ T.smallTail starter, T.decomposition x = [x])
    (hkept : ∀ k ∈ kept, T.decomposition k = [k])
    (htext : ∀ c ∈ text, T.decomposition c = [c]) :
    T.LowersAlong starter kept text ↔ T.KeepsPace starter kept text := by
  induction text generalizing starter kept with
  | nil =>
      simp [LowersAlong, composeFrom, KeepsPace, hT.lowerChar_eq starter,
        hT.flatMap_lowerChar hkept]
  | cons c text ih =>
      have hc := htext c (by simp)
      have hrest : ∀ d ∈ text, T.decomposition d = [d] :=
        fun d hd => htext d (List.mem_cons_of_mem c hd)
      cases hj : T.joined starter kept c with
      | some p =>
          have hp := hT.smallTail_composite hc (joined_eq_some.mp hj).2
          rw [hT.lowersAlong_of_some hkept hc hj, keepsPace_of_some hj, ih p kept hp hkept hrest]
      | none =>
          have hkept' : ∀ k ∈ kept ++ [c], T.decomposition k = [k] := by
            intro k hk
            rcases List.mem_append.mp hk with hk | hk
            · exact hkept k hk
            · rw [List.mem_singleton.mp hk, hc]
          rw [hT.lowersAlong_of_none htail hkept hc hrest hj, keepsPace_of_none hj,
            ih c [] (by simp [hT.smallTail_decomposed hc]) (by simp) hrest,
            ih starter (kept ++ [c]) htail hkept' hrest]

theorem Lawful.mem_nfd_decomposed (text : List Char) {x : Char} (hx : x ∈ T.nfd text) :
    T.decomposition x = [x] := by
  obtain ⟨c, -, hxc⟩ := T.mem_nfd.mp hx
  exact hT.decomposition_full c x hxc

theorem Lawful.compose_lower_iff {text : List Char}
    (htext : ∀ c ∈ text, T.decomposition c = [c]) :
    T.compose (text.map T.small) = (T.compose text).flatMap T.lowerChar ↔
      T.TextKeepsPace text := by
  induction text with
  | nil => simp [compose, TextKeepsPace]
  | cons c text ih =>
      have hc := htext c (by simp)
      have hrest : ∀ d ∈ text, T.decomposition d = [d] :=
        fun d hd => htext d (List.mem_cons_of_mem c hd)
      obtain ⟨hlower, hclass, -⟩ := hT.lower_decomposed c hc
      simp only [List.map_cons, compose, TextKeepsPace, hclass]
      by_cases h0 : T.combiningClass c = 0
      · have htc := hT.smallTail_decomposed hc
        have hfrom := hT.lowersAlong_iff c [] (by simp [htc]) (by simp) hrest
        simp only [LowersAlong, htc, List.map_nil, List.append_nil] at hfrom
        simp [h0, hfrom]
      · simp [h0, hlower, ih hrest]

theorem Lawful.nfd_lower (text : List Char) :
    T.nfd (text.flatMap T.lowerChar) = (T.nfd text).map T.small := by
  have hfull : ∀ x ∈ text.flatMap T.decomposition, T.decomposition x = [x] := by
    intro x hx
    obtain ⟨c, -, hxc⟩ := List.mem_flatMap.mp hx
    exact hT.decomposition_full c x hxc
  have hmap : (text.flatMap T.lowerChar).flatMap T.decomposition =
      (text.flatMap T.decomposition).map T.small := by
    rw [← hT.flatMap_lowerChar hfull, List.flatMap_assoc, List.flatMap_assoc]
    congr 1
    funext c
    exact hT.lower_decomposition c
  rw [nfd, hmap, nfd, T.reorder_map]
  intro x hx
  exact (hT.lower_decomposed x (hfull x hx)).2.1

/-- Mapped character by character, a composed text stays composed exactly when its small letters
keep pace. -/
theorem Lawful.nfc_flatMap_lower_iff {text : List Char} (hnfc : T.nfc text = text) :
    T.nfc (text.flatMap T.lowerChar) = text.flatMap T.lowerChar ↔
      T.TextKeepsPace (T.nfd text) := by
  have hcompose := hT.compose_lower_iff (fun _ => hT.mem_nfd_decomposed text)
  have hout : T.compose (T.nfd text) = text := hnfc
  rw [nfc, hT.nfd_lower, ← hcompose, hout]

end Lockstep

/-! ### The sigma at the end of a word

The capital and the final sigma compose with nothing, and neither do their small letters, so that
writing one for the other changes neither what is composed nor what keeps pace. -/

section Sigma

theorem keepsPace_alone {starter : Char} (hstarter : ∀ d, T.composite starter d = none)
    (hsmall : ∀ d, T.composite (T.small starter) d = none) (kept text : List Char) :
    T.KeepsPace starter kept text ↔ T.TextKeepsPace text := by
  induction text generalizing kept with
  | nil => simp [KeepsPace, TextKeepsPace]
  | cons d rest ih =>
      rw [keepsPace_of_none (by simp [joined, hstarter])]
      simp [TextKeepsPace, hsmall, ih]

variable {c : Char} (hc : T.Inert c) (hsmall : T.Inert (T.small c))
include hc hsmall

theorem Inert.keepsPace_cut (starter : Char) (kept before after : List Char) :
    T.KeepsPace starter kept (before ++ c :: after) ↔
      T.KeepsPace starter kept before ∧ T.TextKeepsPace after := by
  induction before generalizing starter kept with
  | nil =>
      rw [List.nil_append, keepsPace_of_none (hc.joined_right starter kept),
        keepsPace_alone hc.composite_left hsmall.composite_left]
      simp [KeepsPace, hc.combiningClass_eq, hsmall.composite_right]
  | cons d rest ih =>
      rw [List.cons_append]
      cases hj : T.joined starter kept d with
      | some p => rw [keepsPace_of_some hj, keepsPace_of_some hj, ih, and_assoc]
      | none =>
          rw [keepsPace_of_none hj, keepsPace_of_none hj]
          by_cases h0 : T.combiningClass d = 0
          · simp [h0, ih, and_assoc]
          · simp [h0, ih, and_assoc]

theorem Inert.textKeepsPace_cut (before after : List Char) :
    T.TextKeepsPace (before ++ c :: after) ↔
      T.TextKeepsPace before ∧ T.TextKeepsPace after := by
  induction before with
  | nil =>
      simp [TextKeepsPace, hc.combiningClass_eq,
        keepsPace_alone hc.composite_left hsmall.composite_left]
  | cons d rest ih =>
      simp only [List.cons_append, TextKeepsPace]
      by_cases h0 : T.combiningClass d = 0
      · simp [h0, hc.keepsPace_cut hsmall]
      · simp [h0, ih]

end Sigma

section FinalSigma

variable (hT : T.Lawful)
include hT

theorem Lawful.textKeepsPace_markFinalSigmas (before text behind : List Char) :
    T.TextKeepsPace (T.nfd (before ++ T.markFinalSigmas behind text)) ↔
      T.TextKeepsPace (T.nfd (before ++ text)) := by
  induction text generalizing before behind with
  | nil => simp [markFinalSigmas]
  | cons c rest ih =>
      simp only [markFinalSigmas]
      split
      next hfinal =>
        have hς : T.Inert (T.small 'ς') := by
          simpa [small, hT.finalSigma.2] using hT.finalSigma.1
        rw [hfinal.1, hT.finalSigma.1.nfd_cut, hT.capitalSigma.nfd_cut,
          hT.finalSigma.1.textKeepsPace_cut hς, hT.capitalSigma.textKeepsPace_cut hT.smallSigma.1]
        have hrest := ih [] (c :: behind)
        simp only [List.nil_append] at hrest
        rw [← hrest, hfinal.1]
      next => simpa using ih (before ++ [c]) (c :: behind)

theorem Lawful.nfc_markFinalSigmas (before behind : List Char) {text : List Char}
    (hparts : ∀ part, part <:+: before ++ text → T.nfc part = part) :
    T.nfc (before ++ T.markFinalSigmas behind text) =
      before ++ T.markFinalSigmas behind text := by
  induction text generalizing before behind with
  | nil => simpa [markFinalSigmas] using hparts before (by simp)
  | cons c rest ih =>
      simp only [markFinalSigmas]
      split
      next hfinal =>
        have hbefore := hparts before (List.prefix_append _ _).isInfix
        have hrest := ih [] (c :: behind)
          (fun part hpart => hparts part (hpart.trans
            ((List.suffix_cons c rest).trans (List.suffix_append before _)).isInfix))
        simp only [List.nil_append] at hrest
        rw [hT.finalSigma.1.nfc_cut, hbefore, hrest]
      next =>
        have hrest := ih (before ++ [c]) (c :: behind) (by simpa using hparts)
        simpa using hrest

/-- The lowercase of a composed text is composed exactly when the small letters keep pace. -/
theorem Lawful.nfc_lowercase_iff {text : List Char}
    (hparts : ∀ part, part <:+: text → T.nfc part = part) :
    T.nfc (T.lowercase text) = T.lowercase text ↔ T.TextKeepsPace (T.nfd text) := by
  have hmarked := hT.nfc_markFinalSigmas [] [] (by simpa using hparts)
  have hpace := hT.textKeepsPace_markFinalSigmas [] text []
  simp only [List.nil_append] at hmarked hpace
  rw [lowercase, hT.nfc_flatMap_lower_iff hmarked, hpace]

end FinalSigma

/-! ### Lowercase text

Text whose characters are their own lowercase; decomposing and composing keep it so. -/

section Stable

variable (T) in
def Stable (text : List Char) : Prop := ∀ x ∈ text, T.lowerChar x = [x]

variable (hT : T.Lawful)
include hT

theorem Lawful.stable_lowercase (text : List Char) : T.Stable (T.lowercase text) := by
  intro x hx
  obtain ⟨c, -, hxc⟩ := List.mem_flatMap.mp hx
  exact hT.lower_stable c x hxc

theorem Lawful.lowercase_of_stable {text : List Char} (hs : T.Stable text) :
    T.lowercase text = text := by
  have hlower : T.lowerChar 'Σ' = [T.small 'Σ'] :=
    (hT.lower_decomposed _ hT.capitalSigma.decomposition_eq).1
  have hmark : ∀ behind, T.markFinalSigmas behind text = text := by
    induction text with
    | nil => simp [markFinalSigmas]
    | cons c rest ih =>
        intro behind
        have hrest := ih (fun x hx => hs x (List.mem_cons_of_mem c hx))
        have hne : c ≠ 'Σ' := by
          intro heq
          have hself := hs c (by simp)
          rw [heq, hlower] at hself
          simp only [List.cons.injEq, and_true] at hself
          exact hT.smallSigma.2 hself
        simp [markFinalSigmas, hne, hrest]
  rw [lowercase, hmark]
  clear hmark
  induction text with
  | nil => rfl
  | cons c rest ih =>
      have hc := hs c (by simp)
      have hrest := ih (fun x hx => hs x (List.mem_cons_of_mem c hx))
      simp [hc, hrest]

theorem Lawful.stable_decomposition {c : Char} (hc : T.lowerChar c = [c]) :
    T.Stable (T.decomposition c) := by
  have hfull := hT.decomposition_full c
  have hlower := hT.lower_decomposition c
  rw [hT.flatMap_lowerChar hfull, hc] at hlower
  simp only [List.flatMap_cons, List.flatMap_nil, List.append_nil] at hlower
  intro x hx
  have hsmall : T.small x = x := by
    have hmap : (T.decomposition c).map T.small = (T.decomposition c).map id := by
      rw [← hlower, List.map_id]
    exact List.map_inj_left.mp hmap x hx
  rw [(hT.lower_decomposed x (hfull x hx)).1, hsmall]

theorem Lawful.stable_composite {a b p : Char} (ha : T.lowerChar a = [a])
    (hb : T.lowerChar b = [b]) (hp : T.composite a b = some p) : T.lowerChar p = [p] := by
  apply hT.lower_composite a b p p hp
  simpa [small, ha, hb] using hp

theorem Lawful.stable_composeFrom {starter : Char} (kept : List Char) {text : List Char}
    (hstarter : T.lowerChar starter = [starter]) (hkept : T.Stable kept)
    (htext : T.Stable text) : T.Stable (T.composeFrom starter kept text) := by
  induction text generalizing starter kept with
  | nil =>
      intro x hx
      cases hx with
      | head => exact hstarter
      | tail _ hx => exact hkept x hx
  | cons c rest ih =>
      have hc := htext c (by simp)
      have hrest : T.Stable rest := fun x hx => htext x (List.mem_cons_of_mem c hx)
      cases hj : T.joined starter kept c with
      | some p =>
          rw [composeFrom_of_some hj]
          exact ih kept (hT.stable_composite hstarter hc (joined_eq_some.mp hj).2) hkept hrest
      | none =>
          rw [composeFrom_of_none hj]
          split
          · have hfrom := ih [] hc (by simp [Stable]) hrest
            intro x hx
            simp only [List.mem_cons, List.mem_append] at hx
            rcases hx with rfl | hx | hx
            · exact hstarter
            · exact hkept x hx
            · exact hfrom x hx
          · apply ih (kept ++ [c]) hstarter _ hrest
            intro x hx
            simp only [List.mem_append, List.mem_singleton] at hx
            rcases hx with hx | rfl
            · exact hkept x hx
            · exact hc

theorem Lawful.stable_compose {text : List Char} (htext : T.Stable text) :
    T.Stable (T.compose text) := by
  induction text with
  | nil => simpa [compose] using htext
  | cons c rest ih =>
      have hc := htext c (by simp)
      have hrest : T.Stable rest := fun x hx => htext x (List.mem_cons_of_mem c hx)
      simp only [compose]
      split
      · exact hT.stable_composeFrom [] hc (by simp [Stable]) hrest
      · intro x hx
        cases hx with
        | head => exact hc
        | tail _ hx => exact ih hrest x hx

theorem Lawful.stable_nfc {text : List Char} (htext : T.Stable text) :
    T.Stable (T.nfc text) := by
  apply hT.stable_compose
  intro x hx
  obtain ⟨c, hc, hxc⟩ := T.mem_nfd.mp hx
  exact hT.stable_decomposition (htext c hc) x hxc

end Stable

end UnicodeTables

end YohakuCore.Framework
