import Mathlib.Data.List.Basic

/-! # Prefix codes -/

namespace YohakuCore.Framework

variable {α β : Type*}

def PrefixCode (encode : α → List β) : Prop :=
  ∀ a b s t, encode a ++ s = encode b ++ t → a = b ∧ s = t

/-- A left-to-right decoder that returns the unread rest. -/
theorem PrefixCode.of_decode {encode : α → List β} (decode : List β → Option (α × List β))
    (h : ∀ a s, decode (encode a ++ s) = some (a, s)) : PrefixCode encode := by
  intro a b s t hab
  have hd := h a s
  rw [hab, h b t] at hd
  simpa [eq_comm] using hd

theorem PrefixCode.of_prefix {encode : α → List β}
    (h : ∀ a b, encode a <+: encode b → a = b) : PrefixCode encode := by
  intro a b s t hab
  have hle : encode a <+: encode b ∨ encode b <+: encode a :=
    List.prefix_or_prefix_of_prefix ⟨s, rfl⟩ ⟨t, hab.symm⟩
  have heq : a = b := hle.elim (h a b) (fun hba => (h b a hba).symm)
  subst heq
  exact ⟨rfl, List.append_cancel_left hab⟩

theorem PrefixCode.flatMap_append_stop {encode : α → List β} (hcode : PrefixCode encode)
    (stop : β) (hstop : ∀ a s t, encode a ++ s ≠ stop :: t) :
    PrefixCode (fun l : List α => l.flatMap encode ++ [stop]) := by
  intro l
  induction l with
  | nil =>
      intro m s t h
      cases m with
      | nil => exact ⟨rfl, by simpa using h⟩
      | cons b m =>
          simp only [List.flatMap_nil, List.nil_append, List.flatMap_cons, List.append_assoc,
            List.singleton_append] at h
          exact absurd h.symm (hstop b _ _)
  | cons a l ih =>
      intro m s t h
      cases m with
      | nil =>
          simp only [List.flatMap_nil, List.nil_append, List.flatMap_cons, List.append_assoc,
            List.singleton_append] at h
          exact absurd h (hstop a _ _)
      | cons b m =>
          simp only [List.flatMap_cons, List.append_assoc] at h
          obtain ⟨hab, hrest⟩ := hcode _ _ _ _ h
          obtain ⟨hlm, hst⟩ := ih m s t (by simpa only [List.append_assoc] using hrest)
          exact ⟨by rw [hab, hlm], hst⟩

/-- Code words with a separator between them, as an emitting loop writes them. -/
def separated (sep : β) (encode : α → List β) : List α → List β
  | [] => []
  | a :: l => encode a ++ l.flatMap (fun b => sep :: encode b)

theorem PrefixCode.separated_append_stop {encode : α → List β} (hcode : PrefixCode encode)
    {sep stop : β} (hsep : sep ≠ stop) (hstop : ∀ a s t, encode a ++ s ≠ stop :: t) :
    PrefixCode (fun l : List α => separated sep encode l ++ [stop]) := by
  have htail : PrefixCode (fun l : List α => l.flatMap (fun b => sep :: encode b) ++ [stop]) := by
    apply PrefixCode.flatMap_append_stop
    · intro a b s t h
      exact hcode a b s t (List.cons.inj h).2
    · intro a s t h
      exact hsep (List.cons.inj h).1
  intro l m s t h
  cases l with
  | nil =>
      cases m with
      | nil => exact ⟨rfl, by simpa [separated] using h⟩
      | cons b m =>
          simp only [separated, List.nil_append, List.append_assoc, List.singleton_append] at h
          exact absurd h.symm (hstop b _ _)
  | cons a l =>
      cases m with
      | nil =>
          simp only [separated, List.nil_append, List.append_assoc, List.singleton_append] at h
          exact absurd h (hstop a _ _)
      | cons b m =>
          simp only [separated, List.append_assoc] at h
          obtain ⟨hab, hrest⟩ := hcode _ _ _ _ h
          obtain ⟨hlm, hst⟩ := htail l m s t (by simpa only [List.append_assoc] using hrest)
          exact ⟨by rw [hab, hlm], hst⟩

theorem append_sep_inj {x y s t : List β} {sep : β} (hx : sep ∉ x) (hy : sep ∉ y)
    (h : x ++ sep :: s = y ++ sep :: t) : x = y ∧ s = t := by
  induction x generalizing y with
  | nil =>
      cases y with
      | nil => exact ⟨rfl, List.tail_eq_of_cons_eq h⟩
      | cons c y =>
          obtain ⟨rfl, -⟩ := List.cons.inj h
          exact absurd List.mem_cons_self hy
  | cons c x ih =>
      cases y with
      | nil =>
          obtain ⟨rfl, -⟩ := List.cons.inj h
          exact absurd List.mem_cons_self hx
      | cons d y =>
          obtain ⟨rfl, htail⟩ := List.cons.inj h
          obtain ⟨rfl, rfl⟩ := ih (fun hmem => hx (List.mem_cons_of_mem _ hmem))
            (fun hmem => hy (List.mem_cons_of_mem _ hmem)) htail
          exact ⟨rfl, rfl⟩

theorem append_sep_inj_right {x y s t : List β} {sep : β} (hs : sep ∉ s) (ht : sep ∉ t)
    (h : x ++ sep :: s = y ++ sep :: t) : x = y ∧ s = t := by
  have hreverse : s.reverse ++ sep :: x.reverse = t.reverse ++ sep :: y.reverse := by
    simpa using congrArg List.reverse h
  obtain ⟨hback, hfront⟩ := append_sep_inj (by simpa using hs) (by simpa using ht) hreverse
  exact ⟨List.reverse_injective hfront, List.reverse_injective hback⟩

end YohakuCore.Framework
