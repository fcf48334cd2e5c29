import YohakuCore.Companion.CoordinatorInvariants
import YohakuCore.Companion.PresenceClientInvariants

/-! # The coordinator over its presence clients -/

namespace YohakuCore

open Framework

structure LiveDesk where
  coordinator : Coordinator
  writer : Writer

inductive LiveDeskEvent where
  | coordinator (e : CoordinatorEvent)
  | writer (e : WriterEvent)
  deriving DecidableEq

namespace LiveDesk

def new (backing : String → Option Int) : LiveDesk where
  coordinator := Coordinator.new
  writer := Writer.new backing

/-- A refresh loop goes on with the result of the call it awaits, and not before. -/
def answers (s : LiveDesk) : CoordinatorEvent → Bool
  | .loopPublished id result =>
      match s.coordinator.loops id with
      | some ⟨_, .publishing call⟩ =>
          (s.writer.mutations call).any (fun m => m.stage = .finished result)
      | _ => false
  | _ => true

def step (s : LiveDesk) : LiveDeskEvent → Option LiveDesk
  | .coordinator e =>
      if s.answers e then
        (s.coordinator.step e).map (fun c => { s with coordinator := c })
      else none
  | .writer e =>
      (s.writer.step s.coordinator.calls e).map (fun w => { s with writer := w })

theorem step_coordinator {s s' : LiveDesk} {e : CoordinatorEvent}
    (h : s.step (.coordinator e) = some s') :
    s.coordinator.step e = some s'.coordinator ∧ s'.writer = s.writer := by
  rw [step] at h
  split at h
  · obtain ⟨c, hc, rfl⟩ := Option.map_eq_some_iff.mp h
    exact ⟨hc, rfl⟩
  · contradiction

theorem step_writer {s s' : LiveDesk} {e : WriterEvent} (h : s.step (.writer e) = some s') :
    s.writer.step s.coordinator.calls e = some s'.writer ∧ s'.coordinator = s.coordinator := by
  obtain ⟨w, hw, rfl⟩ := Option.map_eq_some_iff.mp h
  exact ⟨hw, rfl⟩

structure Inv (s : LiveDesk) : Prop where
  coordinator : s.coordinator.Inv
  writer : s.writer.Inv s.coordinator.calls

theorem inv_new (backing : String → Option Int) : (new backing).Inv :=
  ⟨Coordinator.inv_new, Writer.inv_new _ _⟩

theorem Inv.step {s s' : LiveDesk} {e : LiveDeskEvent} (h : s.Inv) (hstep : s.step e = some s') :
    s'.Inv := by
  cases e with
  | coordinator e =>
      obtain ⟨hcoordinator, hwriter⟩ := step_coordinator hstep
      obtain ⟨later, -, hcalls⟩ := Coordinator.step_calls hcoordinator
      refine ⟨h.coordinator.step hcoordinator, ?_⟩
      rw [hwriter, hcalls]
      exact h.writer.append_calls later
  | writer e =>
      obtain ⟨hwriter, hcoordinator⟩ := step_writer hstep
      rw [← hcoordinator] at hwriter
      refine ⟨hcoordinator ▸ h.coordinator, ?_⟩
      exact Writer.Inv.step (hcoordinator ▸ h.writer) hwriter

theorem calls_grow {s s' : LiveDesk} {e : LiveDeskEvent} (h : s.step e = some s') :
    s.coordinator.calls <+: s'.coordinator.calls := by
  cases e with
  | coordinator e =>
      obtain ⟨later, -, hcalls⟩ := Coordinator.step_calls (step_coordinator h).1
      exact ⟨later, hcalls.symm⟩
  | writer e =>
      have hcoordinator := (step_writer h).2
      exact hcoordinator ▸ List.prefix_refl _

theorem calls_grow_run {s s' : LiveDesk} {es : List LiveDeskEvent}
    (h : exec LiveDesk.step s es = some s') : s.coordinator.calls <+: s'.coordinator.calls :=
  exec_induction (P := fun _ s' => s.coordinator.calls <+: s'.coordinator.calls)
    (List.prefix_refl _) (fun _ _ _ _ _ ih hstep => ih.trans (calls_grow hstep)) h

end LiveDesk

end YohakuCore
