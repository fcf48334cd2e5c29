import YohakuCore.Framework.RestartableLoop

/-!
# The suspend detector

Its thread samples the wall clock every five seconds and calls back on a gap. The callback may be
anything that returns or panics; it may stop the detector it runs in, as often as it likes.
-/

namespace YohakuCore

open Framework

/-- The cast of the threshold to a signed integer wraps. -/
def gapExceeds (gapMs : Int) (thresholdMs : UInt64) : Bool :=
  decide (thresholdMs.toInt64.toInt < gapMs)

/-- What is left of a pass of `sample_loop` after its check: the clock is read, or the callback is
running and will call `stop` so many times. -/
inductive SamplePass where
  | sampling (lastTick : Int)
  | callback (lastTick : Int) (stops : Nat)
  deriving DecidableEq

/-- The last tick is the time that was read, whether there was a gap or not. -/
def sampleWorks (gapThresholdMs : UInt64) : SamplePass → BodyOutcome Int SamplePass → Bool
  | .sampling lastTick, .goesOn (.callback now _) => gapExceeds (now - lastTick) gapThresholdMs
  | .sampling lastTick, .ends now => !gapExceeds (now - lastTick) gapThresholdMs
  | .callback lastTick 0, .ends lastTick' => lastTick' == lastTick
  | .callback _ _, .panics => true
  | _, _ => false

def sampleStops : SamplePass → Option SamplePass
  | .callback lastTick (stops + 1) => some (.callback lastTick stops)
  | _ => none

/-- The clock is read once, and every stop is one less to call. -/
def SamplePass.rank : SamplePass → Nat × Nat
  | .sampling _ => (1, 0)
  | .callback _ stops => (0, stops)

theorem sample_shortens (gapThresholdMs : UInt64) : WellFounded fun pass' pass =>
    sampleWorks gapThresholdMs pass (.goesOn pass') = true ∨ sampleStops pass = some pass' := by
  refine Subrelation.wf ?_
    (InvImage.wf SamplePass.rank (Prod.lex Nat.lt_wfRel Nat.lt_wfRel).wf)
  intro pass' pass h
  cases pass with
  | sampling lastTick =>
      cases pass' with
      | sampling now => simp [sampleWorks, sampleStops] at h
      | callback now stops => exact Prod.Lex.left _ _ Nat.zero_lt_one
  | callback lastTick stops =>
      cases stops with
      | zero => simp [sampleWorks, sampleStops] at h
      | succ stops =>
          have hpass : .callback lastTick stops = pass' := by
            simpa [sampleWorks, sampleStops] using h
          subst hpass
          exact Prod.Lex.right _ (Nat.lt_succ_self stops)

theorem sample_progress (gapThresholdMs : UInt64) (pass : SamplePass) :
    (∃ outcome, sampleWorks gapThresholdMs pass outcome = true) ∨
      (sampleStops pass).isSome = true := by
  cases pass with
  | sampling lastTick =>
      by_cases hgap : gapExceeds (0 - lastTick) gapThresholdMs = true
      · exact Or.inl ⟨.goesOn (.callback 0 0), hgap⟩
      · exact Or.inl ⟨.ends 0, by simpa [sampleWorks] using hgap⟩
  | callback lastTick stops => exact Or.inl ⟨.panics, by simp [sampleWorks]⟩

/-- The thread waits for its next sample before anything else. -/
def sampleLoop (gapThresholdMs : UInt64) : LoopBody Int SamplePass where
  checksFirst := true
  enter := .sampling
  works := sampleWorks gapThresholdMs
  stops := sampleStops
  shortens := sample_shortens gapThresholdMs
  progress := sample_progress gapThresholdMs

/-- The control with the threads it spawned, and the calls of `stop` from other threads. -/
abbrev SuspendDetector := Loops Int SamplePass

namespace SuspendDetector

def new : SuspendDetector := {}

/-- Nothing happens while there is a thread; the first tick is the time of the start. -/
def start (detector : SuspendDetector) (gapThresholdMs : UInt64) (seed : Int) : SuspendDetector :=
  Loops.start (sampleLoop gapThresholdMs) detector seed

/-- The locked part of `stop`, called by another thread. -/
def stop (detector : SuspendDetector) : SuspendDetector := Loops.stop detector

/-- The remaining steps are those of the threads, and of calls of `stop` that join one. -/
def step (gapThresholdMs : UInt64) (detector : SuspendDetector) :
    LoopEvent Int SamplePass → Option SuspendDetector
  | .start seed => some (detector.start gapThresholdMs seed)
  | .stop => some detector.stop
  | event => Loops.step (sampleLoop gapThresholdMs) detector event

theorem step_eq (gapThresholdMs : UInt64) :
    SuspendDetector.step gapThresholdMs = Loops.step (sampleLoop gapThresholdMs) := by
  funext detector event
  cases event <;> rfl

end SuspendDetector

end YohakuCore
