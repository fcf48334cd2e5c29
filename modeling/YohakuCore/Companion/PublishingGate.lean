import YohakuCore.Companion.CoordinatorMoves

/-! # The publishing gate -/

namespace YohakuCore

open Framework

namespace Coordinator

/-- A configure is past its gate because it was, or because it has just read an enabled
connection. -/
def PastGateBefore (c : Coordinator) (e : CoordinatorEvent) (i : Nat)
    (task : Spawned ConfigurePc) : Prop :=
  (∃ before, c.configures i = some before ∧ before.generation = task.generation ∧
    before.pc.isPastGate = true) ∨
  ∃ connection, e = .configureGate i (some connection) ∧
    c.configures i = some ⟨task.generation, .gate⟩ ∧ connection.liveDeskEnabled = true

theorem step_pastGate {c c' : Coordinator} {e : CoordinatorEvent} (h : c.step e = some c')
    {i : Nat} {task : Spawned ConfigurePc} (htask : c'.configures i = some task)
    (hpast : task.pc.isPastGate = true) : c.PastGateBefore e i task := by
  cases step_configure h htask with
  | kept hbefore => exact Or.inl ⟨task, hbefore, rfl, hpast⟩
  | spawned hentry _ =>
      rw [hentry] at hpast
      contradiction
  | advanced pc hconfigure hadvances =>
      generalize hpc : task.pc = pc' at hpast hadvances
      cases hadvances with
      | entered => contradiction
      | stopped connection hoff => contradiction
      | passed connection henabled => exact Or.inr ⟨connection, rfl, hconfigure, henabled⟩
      | accepted connection token => exact Or.inl ⟨_, hconfigure, rfl, rfl⟩

/-- The configure of the current generation is past its gate. -/
def CurrentPastGate (c : Coordinator) : Prop :=
  ∃ i task, c.configures i = some task ∧ task.generation = c.inner.generation ∧
    task.pc.isPastGate = true

/-- A generation publishes because it did, or because its configure is past the gate. -/
def PublishesBefore (c c' : Coordinator) : Prop :=
  c'.inner.generation = c.inner.generation ∧ (c.inner.state.Publishing ∨ c.CurrentPastGate)

theorem Decides.pastGate {k k' : Control} {pc : ConfigurePc} {e : CoordinatorEvent}
    (h : Decides k pc e k') (hpublishing : k'.state.Publishing) : pc.isPastGate = true := by
  cases h with
  | refused id => rcases hpublishing with hactive | hdegraded <;> contradiction
  | invalidServer id connection token => rfl
  | updateRequired _ _ hpast => exact hpast
  | retrying _ _ task state hpast _ => exact hpast
  | available _ _ task hpast => exact hpast

theorem step_publishes {c c' : Coordinator} {e : CoordinatorEvent} (hinv : c.Inv)
    (h : c.step e = some c') (hpublishing : c'.inner.state.Publishing) :
    c.PublishesBefore c' := by
  have hkept {k : Control} (hcontrol : c'.control = k) (hgeneration : k.generation =
      c.inner.generation) (hstate : k.state = c.inner.state) : c.PublishesBefore c' := by
    refine ⟨(congrArg Control.generation hcontrol).trans hgeneration, Or.inl ?_⟩
    have hstate' : c'.inner.state = k.state := congrArg Control.state hcontrol
    rw [← hstate, ← hstate']
    exact hpublishing
  cases step_move h with
  | kept _ hcontrol => exact hkept hcontrol rfl rfl
  | started _ id heartbeats retries _ _ hcontrol =>
      have hstate : c'.inner.state = .connecting := congrArg Control.state hcontrol
      rw [hstate] at hpublishing
      rcases hpublishing with hactive | hdegraded <;> contradiction
  | ended _ state stopping heartbeats retries _ hstopped hcontrol =>
      have hstate : c'.inner.state = state := congrArg Control.state hcontrol
      rw [hstate] at hpublishing
      rcases hstopped with ⟨now, -, rfl, -⟩ | ⟨reason, -, rfl, -⟩ <;>
        rcases hpublishing with hactive | hdegraded <;> contradiction
  | released id hcontrol => exact hkept hcontrol rfl rfl
  | configured _ id gen pc pc' _ _ hcontrol => exact hkept hcontrol rfl rfl
  | outdated _ id gen pc _ _ hcontrol => exact hkept hcontrol rfl rfl
  | decided _ id pc hconfigure hdecides =>
      exact ⟨hdecides.generation, Or.inr ⟨id, _, hconfigure, rfl, hdecides.pastGate hpublishing⟩⟩
  | ticked id gen _ hcontrol => exact hkept hcontrol rfl rfl
  | beaten id gen aborted next _ _ hcontrol => exact hkept hcontrol rfl rfl
  | elapsed id gen _ hcontrol => exact hkept hcontrol rfl rfl
  | dropped id gen aborted _ _ hcontrol => exact hkept hcontrol rfl rfl
  | published id call response hloop hcontrol =>
      exact ⟨congrArg Control.generation hcontrol, Or.inl ((hinv.loops id _ hloop).2 rfl)⟩
  | failed id call task error hloop hcontrol =>
      exact ⟨congrArg Control.generation hcontrol, Or.inl ((hinv.loops id _ hloop).2 rfl)⟩

/-- Nothing publishes, and the configure of the current generation has not passed its gate. -/
structure Quiet (c : Coordinator) : Prop where
  state : ¬ c.inner.state.Publishing
  gate : ¬ c.CurrentPastGate

theorem quiet_of_disabled {c : Coordinator} (hinv : c.Inv) (h : c.inner.state = .disabled) :
    c.Quiet where
  state := by
    rw [h]
    rintro (hactive | hdegraded) <;> contradiction
  gate := by
    rintro ⟨i, task, htask, hgen, -⟩
    have hconnecting := (hinv.configures i task htask).2 hgen
    rw [h] at hconnecting
    contradiction

theorem quiet_shutdown {c : Coordinator} (hinv : c.Inv) (reason : ClearReason) :
    (c.shutdown reason).Quiet := by
  refine quiet_of_disabled (hinv.shutdown reason) ?_
  rw [shutdown]
  split
  · rename_i hstopping
    exact hinv.stopping hstopping
  · rfl

/-- The gate keeps a quiet coordinator quiet while no enabled connection is read. -/
theorem Quiet.step {c c' : Coordinator} {e : CoordinatorEvent} (h : c.Quiet) (hinv : c.Inv)
    (hstep : c.step e = some c')
    (hrefused : ∀ i connection, e = .configureGate i (some connection) →
      connection.liveDeskEnabled = false) : c'.Quiet where
  state := by
    intro hpublishing
    rcases (step_publishes hinv hstep hpublishing).2 with hbefore | hcurrent
    · exact h.state hbefore
    · exact h.gate hcurrent
  gate := by
    rintro ⟨i, task, htask, hgen, hpast⟩
    have hgenerations := (step_grows hstep).generation
    rcases step_pastGate hstep htask hpast with ⟨before, hbefore, hsame, hpastBefore⟩ |
        ⟨connection, he, -, henabled⟩
    · have hle := (hinv.configures i before hbefore).1
      exact h.gate ⟨i, before, hbefore, by omega, hpastBefore⟩
    · have hdisabled := hrefused i connection he
      rw [henabled] at hdisabled
      contradiction

end Coordinator

end YohakuCore
