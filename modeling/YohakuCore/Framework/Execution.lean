import Mathlib.Data.List.Induction
import Mathlib.Data.Nat.Find
import Mathlib.Data.Option.Basic

/-!
# Executions of event-driven systems

A system is a partial step function, and a run is a list of events. The rules carry facts from
single steps to runs.
-/

namespace YohakuCore.Framework

variable {σ ε : Type*} (step : σ → ε → Option σ)

/-- The state after a run, when every event of it was enabled in turn. -/
def exec (s : σ) : List ε → Option σ
  | [] => some s
  | e :: es => (step s e).bind (fun s' => exec s' es)

/-- At instant `n` of the run from `s`, the event `e` takes `s₁` to `s₂`. -/
structure StepAt (s : σ) (es : List ε) (n : Nat) (s₁ : σ) (e : ε) (s₂ : σ) : Prop where
  before : exec step s (es.take n) = some s₁
  event : es[n]? = some e
  step : step s₁ e = some s₂

/-- Every step of the run has the property `Q`. -/
def EveryStep (s : σ) (es : List ε) (Q : σ → ε → σ → Prop) : Prop :=
  ∀ n s₁ e s₂, StepAt step s es n s₁ e s₂ → Q s₁ e s₂

/-- Some step of the run has the property `Q`. -/
def Happened (s : σ) (es : List ε) (Q : σ → ε → σ → Prop) : Prop :=
  ∃ n s₁ e s₂, StepAt step s es n s₁ e s₂ ∧ Q s₁ e s₂

/-- Every state of the run has the property `P`, the first and the last included. -/
def Throughout (s : σ) (es : List ε) (P : σ → Prop) : Prop :=
  ∀ n s₁, exec step s (es.take n) = some s₁ → P s₁

variable {step}

@[simp] theorem exec_nil (s : σ) : exec step s [] = some s := rfl

theorem exec_cons (s : σ) (e : ε) (es : List ε) :
    exec step s (e :: es) = (step s e).bind (fun s' => exec step s' es) := rfl

theorem exec_singleton (s : σ) (e : ε) : exec step s [e] = step s e := by
  simp [exec_cons]

theorem exec_append (s : σ) (es fs : List ε) :
    exec step s (es ++ fs) = (exec step s es).bind (fun s' => exec step s' fs) := by
  induction es generalizing s with
  | nil => rfl
  | cons e es ih =>
      rw [List.cons_append, exec_cons, exec_cons, Option.bind_assoc]
      congr 1
      funext s'
      exact ih s'

theorem exec_append_eq_some {s s'' : σ} {es fs : List ε} :
    exec step s (es ++ fs) = some s'' ↔
      ∃ s', exec step s es = some s' ∧ exec step s' fs = some s'' := by
  rw [exec_append, Option.bind_eq_some_iff]

theorem exec_concat_eq_some {s s'' : σ} {es : List ε} {e : ε} :
    exec step s (es ++ [e]) = some s'' ↔
      ∃ s', exec step s es = some s' ∧ step s' e = some s'' := by
  rw [exec_append_eq_some]
  simp only [exec_cons, exec_nil, Option.bind_fun_some]

/-- Induction over a run from its end: the property may speak about the events so far. -/
theorem exec_induction {s : σ} {P : List ε → σ → Prop} (start : P [] s)
    (next : ∀ es s₁ e s₂, exec step s es = some s₁ → P es s₁ → step s₁ e = some s₂ →
      P (es ++ [e]) s₂)
    {es : List ε} {s' : σ} (h : exec step s es = some s') : P es s' := by
  induction es using List.reverseRecOn generalizing s' with
  | nil =>
      obtain rfl := Option.some.inj h
      exact start
  | append_singleton es e ih =>
      obtain ⟨s₁, hs₁, hstep⟩ := exec_concat_eq_some.mp h
      exact next es s₁ e s' hs₁ (ih hs₁) hstep

/-- What holds initially and is kept by every step holds after every run. -/
theorem exec_invariant {s : σ} {I : σ → Prop} (start : I s)
    (next : ∀ s₁ e s₂, I s₁ → step s₁ e = some s₂ → I s₂)
    {es : List ε} {s' : σ} (h : exec step s es = some s') : I s' :=
  exec_induction (P := fun _ => I) start (fun _ s₁ e s₂ _ => next s₁ e s₂) h

theorem StepAt.lt_length {s s₁ s₂ : σ} {es : List ε} {n : Nat} {e : ε}
    (h : StepAt step s es n s₁ e s₂) : n < es.length :=
  (List.getElem?_eq_some_iff.mp h.event).1

theorem StepAt.after {s s₁ s₂ : σ} {es : List ε} {n : Nat} {e : ε}
    (h : StepAt step s es n s₁ e s₂) : exec step s (es.take (n + 1)) = some s₂ := by
  rw [List.take_add_one, h.event, Option.toList_some, exec_concat_eq_some]
  exact ⟨s₁, h.before, h.step⟩

theorem stepAt_of_take_succ {s s₂ : σ} {es : List ε} {n : Nat} {e : ε}
    (h : exec step s (es.take (n + 1)) = some s₂) (he : es[n]? = some e) :
    ∃ s₁, StepAt step s es n s₁ e s₂ := by
  rw [List.take_add_one, he, Option.toList_some, exec_concat_eq_some] at h
  obtain ⟨s₁, hs₁, hstep⟩ := h
  exact ⟨s₁, hs₁, he, hstep⟩

theorem exec_stepAt {s s' : σ} {es : List ε} (h : exec step s es = some s') {n : Nat} {e : ε}
    (he : es[n]? = some e) : ∃ s₁ s₂, StepAt step s es n s₁ e s₂ := by
  have hsplit : es = es.take n ++ e :: es.drop (n + 1) := by
    obtain ⟨hlen, rfl⟩ := List.getElem?_eq_some_iff.mp he
    rw [List.getElem_cons_drop, List.take_append_drop]
  rw [hsplit, exec_append_eq_some] at h
  obtain ⟨s₁, hs₁, hrest⟩ := h
  rw [exec_cons, Option.bind_eq_some_iff] at hrest
  obtain ⟨s₂, hstep, -⟩ := hrest
  exact ⟨s₁, s₂, hs₁, he, hstep⟩

theorem StepAt.append_right {s s₁ s₂ : σ} {es : List ε} {n : Nat} {e : ε}
    (h : StepAt step s es n s₁ e s₂) (fs : List ε) : StepAt step s (es ++ fs) n s₁ e s₂ := by
  have hlen := h.lt_length
  refine ⟨?_, ?_, h.step⟩
  · rw [List.take_append_of_le_length (Nat.le_of_lt hlen)]
    exact h.before
  · rw [List.getElem?_append_left hlen]
    exact h.event

theorem StepAt.of_append_right {s s₁ s₂ : σ} {es fs : List ε} {n : Nat} {e : ε}
    (h : StepAt step s (es ++ fs) n s₁ e s₂) (hlen : n < es.length) :
    StepAt step s es n s₁ e s₂ := by
  refine ⟨?_, ?_, h.step⟩
  · have htake : (es ++ fs).take n = es.take n :=
      List.take_append_of_le_length (Nat.le_of_lt hlen)
    exact htake ▸ h.before
  · have hget : (es ++ fs)[n]? = es[n]? := List.getElem?_append_left hlen
    exact hget ▸ h.event

theorem StepAt.last {s s₁ s₂ : σ} {es : List ε} {e : ε} (hs : exec step s es = some s₁)
    (hstep : step s₁ e = some s₂) : StepAt step s (es ++ [e]) es.length s₁ e s₂ := by
  refine ⟨?_, ?_, hstep⟩
  · rw [List.take_left]
    exact hs
  · rw [List.getElem?_append_right (Nat.le_refl _), Nat.sub_self]
    rfl

theorem StepAt.concat_cases {s s₁ s₂ t₁ t₂ : σ} {es : List ε} {e f : ε} {n : Nat}
    (h : StepAt step s (es ++ [e]) n s₁ f s₂) (ht : exec step s es = some t₁)
    (hstep : step t₁ e = some t₂) :
    StepAt step s es n s₁ f s₂ ∨ (n = es.length ∧ s₁ = t₁ ∧ f = e ∧ s₂ = t₂) := by
  rcases Nat.lt_or_ge n es.length with hlt | hge
  · exact Or.inl (h.of_append_right hlt)
  · have hlen := h.lt_length
    rw [List.length_append, List.length_singleton] at hlen
    obtain rfl : n = es.length := by omega
    have hlast := StepAt.last ht hstep
    have hs₁ : s₁ = t₁ := Option.some.inj (h.before.symm.trans hlast.before)
    have hf : f = e := Option.some.inj (h.event.symm.trans hlast.event)
    have hs₂ : s₂ = t₂ := by
      have hstep₂ := h.step
      rw [hs₁, hf, hstep] at hstep₂
      exact (Option.some.inj hstep₂).symm
    exact Or.inr ⟨rfl, hs₁, hf, hs₂⟩

theorem StepAt.append_left {s s' s₁ s₂ : σ} {es fs : List ε} {n : Nat} {e : ε}
    (hs : exec step s es = some s') (h : StepAt step s' fs n s₁ e s₂) :
    StepAt step s (es ++ fs) (es.length + n) s₁ e s₂ := by
  refine ⟨?_, ?_, h.step⟩
  · rw [List.take_length_add_append, exec_append_eq_some]
    exact ⟨s', hs, h.before⟩
  · rw [List.getElem?_append_right (Nat.le_add_right _ _), Nat.add_sub_cancel_left]
    exact h.event

theorem StepAt.of_take {s s₁ s₂ : σ} {es : List ε} {m n : Nat} {e : ε}
    (h : StepAt step s (es.take m) n s₁ e s₂) : n < m ∧ StepAt step s es n s₁ e s₂ := by
  have hlen := h.lt_length
  rw [List.length_take] at hlen
  refine ⟨by omega, ?_⟩
  have hlong := h.append_right (es.drop m)
  rwa [List.take_append_drop] at hlong

/-- What does not hold initially and holds at the end has a last entry, and holds ever since. -/
theorem exec_entry {s s' : σ} {es : List ε} {P : σ → Prop} (h : exec step s es = some s')
    (hstart : ¬ P s) (hend : P s') :
    ∃ n s₁ e s₂, StepAt step s es n s₁ e s₂ ∧ ¬ P s₁ ∧ P s₂ ∧
      ∀ m s₃, n < m → exec step s (es.take m) = some s₃ → P s₃ := by
  have hrun : P s' → ∃ n s₁ e s₂, StepAt step s es n s₁ e s₂ ∧ ¬ P s₁ ∧ P s₂ ∧
      ∀ m s₃, n < m → exec step s (es.take m) = some s₃ → P s₃ := by
    refine exec_induction (P := fun es s' => P s' → ∃ n s₁ e s₂, StepAt step s es n s₁ e s₂ ∧
      ¬ P s₁ ∧ P s₂ ∧ ∀ m s₃, n < m → exec step s (es.take m) = some s₃ → P s₃) ?_ ?_ h
    · intro hP
      exact absurd hP hstart
    · intro es t₁ e t₂ ht₁ ih hstep hP
      have hlast := StepAt.last ht₁ hstep
      have hend {m : Nat} {s₃ : σ} (hm : es.length < m)
          (hs₃ : exec step s ((es ++ [e]).take m) = some s₃) : P s₃ := by
        have hle : (es ++ [e]).length ≤ m := by
          rw [List.length_append, List.length_singleton]
          omega
        rw [List.take_of_length_le hle, exec_concat_eq_some.mpr ⟨t₁, ht₁, hstep⟩] at hs₃
        exact Option.some.inj hs₃ ▸ hP
      by_cases hbefore : P t₁
      · obtain ⟨n, s₁, f, s₂, hat, hs₁, hs₂, hsince⟩ := ih hbefore
        refine ⟨n, s₁, f, s₂, hat.append_right [e], hs₁, hs₂, ?_⟩
        intro m s₃ hm hs₃
        rcases Nat.lt_or_ge es.length m with hlt | hle
        · exact hend hlt hs₃
        · rw [List.take_append_of_le_length hle] at hs₃
          exact hsince m s₃ hm hs₃
      · exact ⟨es.length, t₁, e, t₂, hlast, hbefore, hP, fun m s₃ hm hs₃ => hend hm hs₃⟩
  exact hrun hend

theorem EveryStep.append_left {s : σ} {es fs : List ε} {Q : σ → ε → σ → Prop}
    (h : EveryStep step s (es ++ fs) Q) : EveryStep step s es Q :=
  fun n s₁ e s₂ hat => h n s₁ e s₂ (hat.append_right fs)

theorem EveryStep.append_right {s s' : σ} {es fs : List ε} {Q : σ → ε → σ → Prop}
    (h : EveryStep step s (es ++ fs) Q) (hs : exec step s es = some s') :
    EveryStep step s' fs Q :=
  fun _ s₁ e s₂ hat => h _ s₁ e s₂ (StepAt.append_left hs hat)

theorem EveryStep.last {s s₁ s₂ : σ} {es : List ε} {e : ε} {Q : σ → ε → σ → Prop}
    (h : EveryStep step s (es ++ [e]) Q) (hs : exec step s es = some s₁)
    (hstep : step s₁ e = some s₂) : Q s₁ e s₂ :=
  h _ _ _ _ (StepAt.last hs hstep)

/-- A condition met by every step may be used to keep an invariant. -/
theorem EveryStep.invariant {s : σ} {Q : σ → ε → σ → Prop} {I : σ → Prop} (start : I s)
    (next : ∀ s₁ e s₂, I s₁ → Q s₁ e s₂ → step s₁ e = some s₂ → I s₂)
    {es : List ε} {s' : σ} (hall : EveryStep step s es Q) (h : exec step s es = some s') :
    I s' := by
  have hrun : EveryStep step s es Q → I s' := by
    refine exec_induction (P := fun es s₁ => EveryStep step s es Q → I s₁) ?_ ?_ h
    · intro _
      exact start
    · intro es s₁ e s₂ hs₁ ih hstep hall
      exact next s₁ e s₂ (ih hall.append_left) (hall.last hs₁ hstep) hstep
  exact hrun hall

theorem exec_take {s s' : σ} {es : List ε} (h : exec step s es = some s') (n : Nat) :
    ∃ s₁, exec step s (es.take n) = some s₁ ∧ exec step s₁ (es.drop n) = some s' := by
  rw [← List.take_append_drop n es] at h
  exact exec_append_eq_some.mp h

theorem EveryStep.of_since {s s₁ : σ} {es : List ε} {n : Nat} {Q : σ → ε → σ → Prop}
    (hs : exec step s (es.take n) = some s₁)
    (h : ∀ m t₁ e t₂, n ≤ m → StepAt step s es m t₁ e t₂ → Q t₁ e t₂) :
    EveryStep step s₁ (es.drop n) Q := by
  intro m t₁ e t₂ hat
  have hlen := hat.lt_length
  have hlong := StepAt.append_left hs hat
  rw [List.length_drop] at hlen
  rw [List.take_append_drop, List.length_take] at hlong
  exact h _ t₁ e t₂ (by omega) hlong

theorem Happened.append_right {s : σ} {es : List ε} {Q : σ → ε → σ → Prop}
    (h : Happened step s es Q) (fs : List ε) : Happened step s (es ++ fs) Q := by
  obtain ⟨n, s₁, e, s₂, hat, hq⟩ := h
  exact ⟨n, s₁, e, s₂, hat.append_right fs, hq⟩

theorem Happened.last {s s₁ s₂ : σ} {es : List ε} {e : ε} {Q : σ → ε → σ → Prop}
    (hs : exec step s es = some s₁) (hstep : step s₁ e = some s₂) (hq : Q s₁ e s₂) :
    Happened step s (es ++ [e]) Q :=
  ⟨_, _, _, _, StepAt.last hs hstep, hq⟩

theorem Happened.concat_iff {s s₁ s₂ : σ} {es : List ε} {e : ε} {Q : σ → ε → σ → Prop}
    (hs : exec step s es = some s₁) (hstep : step s₁ e = some s₂) :
    Happened step s (es ++ [e]) Q ↔ Happened step s es Q ∨ Q s₁ e s₂ := by
  constructor
  · rintro ⟨n, t₁, f, t₂, hat, hq⟩
    rcases hat.concat_cases hs hstep with hbefore | ⟨-, rfl, rfl, rfl⟩
    · exact Or.inl ⟨n, t₁, f, t₂, hbefore, hq⟩
    · exact Or.inr hq
  · rintro (hbefore | hq)
    · exact hbefore.append_right [e]
    · exact Happened.last hs hstep hq

theorem not_happened_nil {s : σ} {Q : σ → ε → σ → Prop} : ¬ Happened step s [] Q := by
  rintro ⟨n, s₁, e, s₂, hat, -⟩
  exact absurd hat.lt_length (Nat.not_lt_zero n)

theorem Throughout.append_left {s : σ} {es fs : List ε} {P : σ → Prop}
    (h : Throughout step s (es ++ fs) P) : Throughout step s es P := by
  intro n s₁ hs₁
  refine h (min n es.length) s₁ ?_
  rw [List.take_append_of_le_length (Nat.min_le_right _ _)]
  rcases Nat.le_total n es.length with hle | hle
  · rwa [Nat.min_eq_left hle]
  · rwa [Nat.min_eq_right hle, List.take_length, ← List.take_of_length_le hle]

theorem Throughout.last {s s₁ : σ} {es : List ε} {P : σ → Prop} (h : Throughout step s es P)
    (hs : exec step s es = some s₁) : P s₁ := by
  refine h es.length s₁ ?_
  rwa [List.take_length]

theorem Throughout.concat {s s₁ : σ} {es : List ε} {e : ε} {P : σ → Prop}
    (h : Throughout step s es P) (hs : exec step s es = some s₁)
    (hlast : ∀ s₂, step s₁ e = some s₂ → P s₂) : Throughout step s (es ++ [e]) P := by
  intro n s₂ hs₂
  rcases Nat.lt_or_ge es.length n with hlt | hle
  · have hlen : (es ++ [e]).length ≤ n := by
      rw [List.length_append, List.length_singleton]
      exact hlt
    rw [List.take_of_length_le hlen, exec_concat_eq_some] at hs₂
    obtain ⟨s₃, hs₃, hstep⟩ := hs₂
    rw [hs] at hs₃
    obtain rfl := Option.some.inj hs₃
    exact hlast s₂ hstep
  · rw [List.take_append_of_le_length hle] at hs₂
    exact h n s₂ hs₂

theorem Throughout.append_right {s s₁ : σ} {es fs : List ε} {P : σ → Prop}
    (h : Throughout step s (es ++ fs) P) (hs : exec step s es = some s₁) :
    Throughout step s₁ fs P := by
  intro n s₂ hs₂
  refine h (es.length + n) s₂ ?_
  rw [List.take_length_add_append, exec_append_eq_some]
  exact ⟨s₁, hs, hs₂⟩

theorem throughout_of_all {s₀ s : σ} {before es : List ε} {P : σ → Prop} [DecidablePred P]
    (hs : exec step s₀ before = some s)
    (h : ∀ n < es.length + 1, (exec step s₀ (before ++ es.take n)).all (fun t => P t) = true) :
    Throughout step s es P := by
  intro n t ht
  have hmin : es.take n = es.take (min n es.length) := List.take_eq_take_min
  have hall := h (min n es.length) (by omega)
  rw [exec_append, hs, Option.bind_some, ← hmin, ht, Option.all_some, decide_eq_true_eq] at hall
  exact hall

/-- A run that never ends: at every instant its event is enabled. -/
def Endless (step : σ → ε → Option σ) (run : Nat → σ) (events : Nat → ε) : Prop :=
  ∀ n, step (run n) (events n) = some (run (n + 1))

theorem Endless.since {run : Nat → σ} {events : Nat → ε} (h : Endless step run events)
    {P : σ → Prop} (hkeep : ∀ s e s', step s e = some s' → P s → P s') {m n : Nat} (hle : m ≤ n)
    (hm : P (run m)) : P (run n) := by
  induction n, hle using Nat.le_induction with
  | base => exact hm
  | succ n _ ih => exact hkeep _ _ _ (h n) ih

/-- What some instants lower and all others keep is lowered finitely often. -/
theorem exists_last_of_wellFounded {α : Type*} {r : α → α → Prop} (hwf : WellFounded r)
    (rank : Nat → α) (own : Nat → Prop) (hkeep : ∀ n, ¬ own n → rank (n + 1) = rank n)
    (hlower : ∀ n, own n → r (rank (n + 1)) (rank n)) : ∃ N, ∀ n, N ≤ n → ¬ own n := by
  classical
  have hfrom : ∀ a m, rank m = a → ∃ N, ∀ n, N ≤ n → ¬ own n := by
    intro a
    induction a using hwf.induction with
    | _ a ih =>
        intro m hm
        by_cases hever : ∃ n, m ≤ n ∧ own n
        · have hfirst := Nat.find_spec hever
          have hstill : ∀ n, m ≤ n → n ≤ Nat.find hever → rank n = a := by
            intro n hmn
            induction n, hmn using Nat.le_induction with
            | base => exact fun _ => hm
            | succ n hmn ihn =>
                intro hn
                have hnot : ¬ own n := fun hown => Nat.find_min hever hn ⟨hmn, hown⟩
                rw [hkeep n hnot]
                exact ihn (by omega)
          have hlow := hlower _ hfirst.2
          rw [hstill _ hfirst.1 (Nat.le_refl _)] at hlow
          exact ih _ hlow _ rfl
        · refine ⟨m, fun n hn hown => hever ⟨n, hn, hown⟩⟩
  exact hfrom (rank 0) 0 rfl

end YohakuCore.Framework
