import YohakuCore.Framework.Execution
import Mathlib.Data.Sum.Basic

/-!
# Coupled systems

A step of the first system may force one of the second, which is taken at the same instant.
-/

namespace YohakuCore.Framework

section

variable {σ τ ε φ : Type*} (first : σ → ε → Option σ) (second : τ → φ → Option τ)
  (forces : σ → ε → Option φ)

def coupledStep (s : σ × τ) : ε ⊕ φ → Option (σ × τ)
  | .inl e => (first s.1 e).bind fun s₁ =>
      (exec second s.2 (forces s.1 e).toList).map fun s₂ => (s₁, s₂)
  | .inr f => (second s.2 f).map fun s₂ => (s.1, s₂)

variable {first second forces}

theorem coupledStep_inl {s s' : σ × τ} {e : ε}
    (h : coupledStep first second forces s (.inl e) = some s') :
    first s.1 e = some s'.1 ∧ exec second s.2 (forces s.1 e).toList = some s'.2 := by
  obtain ⟨s₁, hfirst, hrest⟩ := Option.bind_eq_some_iff.mp h
  obtain ⟨s₂, hsecond, rfl⟩ := Option.map_eq_some_iff.mp hrest
  exact ⟨hfirst, hsecond⟩

theorem coupledStep_inr {s s' : σ × τ} {f : φ}
    (h : coupledStep first second forces s (.inr f) = some s') :
    s'.1 = s.1 ∧ second s.2 f = some s'.2 := by
  obtain ⟨s₂, hsecond, rfl⟩ := Option.map_eq_some_iff.mp h
  exact ⟨rfl, hsecond⟩

theorem exec_first {s s' : σ × τ} {es : List (ε ⊕ φ)}
    (h : exec (coupledStep first second forces) s es = some s') :
    exec first s.1 (es.filterMap Sum.getLeft?) = some s'.1 := by
  induction es generalizing s with
  | nil =>
      obtain rfl := Option.some.inj h
      rfl
  | cons e es ih =>
      obtain ⟨s₁, hstep, hrest⟩ := Option.bind_eq_some_iff.mp h
      have hlater := ih hrest
      cases e with
      | inl e =>
          obtain ⟨hfirst, -⟩ := coupledStep_inl hstep
          simpa [exec_cons, hfirst] using hlater
      | inr f =>
          obtain ⟨hsame, -⟩ := coupledStep_inr hstep
          rw [hsame] at hlater
          exact hlater

theorem exec_first_stepAt {s s' : σ × τ} {es : List (ε ⊕ φ)}
    (h : exec (coupledStep first second forces) s es = some s') {n : Nat} {s₁ s₂ : σ} {e : ε}
    (hat : StepAt first s.1 (es.filterMap Sum.getLeft?) n s₁ e s₂) :
    ∃ before after t, es = before ++ .inl e :: after ∧
      exec (coupledStep first second forces) s before = some (s₁, t) := by
  have hsplit : es.filterMap Sum.getLeft? = (es.filterMap Sum.getLeft?).take n ++
      e :: (es.filterMap Sum.getLeft?).drop (n + 1) := by
    obtain ⟨hlen, hget⟩ := List.getElem?_eq_some_iff.mp hat.event
    rw [← hget, List.getElem_cons_drop, List.take_append_drop]
  obtain ⟨front, back, rfl, hfront, hback⟩ := List.filterMap_eq_append_iff.mp hsplit
  obtain ⟨skipped, x, after, rfl, hskipped, hx, -⟩ := List.filterMap_eq_cons_iff.mp hback
  obtain rfl : x = .inl e := by
    cases x with
    | inl e' => rw [Option.some.inj hx]
    | inr f => contradiction
  rw [← List.append_assoc, exec_append_eq_some] at h
  obtain ⟨t, ht, -⟩ := h
  refine ⟨front ++ skipped, after, t.2, by simp, ?_⟩
  have hnone : skipped.filterMap Sum.getLeft? = [] := List.filterMap_eq_nil_iff.mpr hskipped
  have hfirst := exec_first ht
  rw [List.filterMap_append, hnone, List.append_nil, hfront, hat.before] at hfirst
  rw [ht, Option.some.inj hfirst]

/-- The second system runs on its own as well, through the same states. Of its events those that
are never forced are the ones of the pair. -/
theorem exec_second {s s' : σ × τ} {es : List (ε ⊕ φ)}
    (h : exec (coupledStep first second forces) s es = some s') {P : τ → Prop}
    (hall : Throughout (coupledStep first second forces) s es fun t => P t.2) :
    ∃ fs, exec second s.2 fs = some s'.2 ∧ Throughout second s.2 fs P ∧
      ∀ p : φ → Bool, (∀ t e f, forces t e = some f → p f = false) →
        fs.filter p = (es.filterMap Sum.getRight?).filter p := by
  refine exec_induction (P := fun es s' =>
    Throughout (coupledStep first second forces) s es (fun t => P t.2) →
      ∃ fs, exec second s.2 fs = some s'.2 ∧ Throughout second s.2 fs P ∧
        ∀ p : φ → Bool, (∀ t e f, forces t e = some f → p f = false) →
          fs.filter p = (es.filterMap Sum.getRight?).filter p) ?_ ?_ h hall
  · intro hall
    refine ⟨[], rfl, ?_, fun _ _ => rfl⟩
    intro n t ht
    rw [List.take_nil] at ht
    obtain rfl := Option.some.inj ht
    exact hall 0 s rfl
  · intro es s₁ e s₂ hs₁ ih hstep hall
    obtain ⟨fs, hfs, hP, hfilter⟩ := ih hall.append_left
    have hlast : P s₂.2 := hall.last (exec_concat_eq_some.mpr ⟨s₁, hs₁, hstep⟩)
    have hone {f : φ} (hf : second s₁.2 f = some s₂.2) :
        exec second s.2 (fs ++ [f]) = some s₂.2 ∧ Throughout second s.2 (fs ++ [f]) P := by
      refine ⟨exec_concat_eq_some.mpr ⟨_, hfs, hf⟩, hP.concat hfs ?_⟩
      intro t ht
      rw [hf] at ht
      obtain rfl := Option.some.inj ht
      exact hlast
    cases e with
    | inl e =>
        obtain ⟨-, hforced⟩ := coupledStep_inl hstep
        cases hforces : forces s₁.1 e with
        | none =>
            rw [hforces] at hforced
            obtain hsame : s₁.2 = s₂.2 := Option.some.inj hforced
            refine ⟨fs, hsame ▸ hfs, hP, ?_⟩
            intro p hp
            rw [List.filterMap_append, List.filter_append, hfilter p hp]
            exact (List.append_nil _).symm
        | some f =>
            rw [hforces, Option.toList_some, exec_singleton] at hforced
            obtain ⟨hrun, hthroughout⟩ := hone hforced
            refine ⟨fs ++ [f], hrun, hthroughout, ?_⟩
            intro p hp
            simp [hfilter p hp, hp s₁.1 e f hforces]
    | inr f =>
        obtain ⟨-, hsecond⟩ := coupledStep_inr hstep
        obtain ⟨hrun, hthroughout⟩ := hone hsecond
        refine ⟨fs ++ [f], hrun, hthroughout, ?_⟩
        intro p hp
        simp [List.filterMap_append, List.filter_append, hfilter p hp]

end

end YohakuCore.Framework
