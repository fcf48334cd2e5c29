import YohakuCore.Companion.SendRate

/-!
# The longest wait

The head of the refresh loop compares the stamp of the last send with the wall clock, which may have
been set back since.
-/

namespace YohakuCore

open Framework

namespace Coordinator

/-- The head goes on to a sleep: its generation is current and a refresh was asked for. -/
structure Throttles (c : Coordinator) (e : CoordinatorEvent) (now : Int) : Prop where
  segment : ∃ id, e = .loopHead id now ∧ c.loops id = some ⟨c.inner.generation, .head⟩ ∧
    c.inner.refreshRequested = true

theorem Throttles.wait {c c' : Coordinator} {e : CoordinatorEvent} {now : Int}
    (h : c.Throttles e now) (hstep : c.step e = some c') :
    ∃ id, e = .loopHead id now ∧
      c'.loops id = some ⟨c.inner.generation, .throttled (c.waitMs now)⟩ := by
  obtain ⟨id, rfl, hloop, hrequested⟩ := h
  refine ⟨id, rfl, ?_⟩
  simp only [step, loopHead, hloop, hrequested] at hstep
  rw [if_neg (by simp)] at hstep
  obtain rfl := Option.some.inj hstep
  simp [setLoop, waitMs]

theorem throttles_of_wait {c c' : Coordinator} {id gen : Nat} {now wait : Int}
    (hstep : c.step (.loopHead id now) = some c')
    (hloop : c'.loops id = some ⟨gen, .throttled wait⟩) :
    c.Throttles (.loopHead id now) now ∧ wait = c.waitMs now := by
  obtain ⟨hhead, hwait⟩ := loopHead_wait hstep hloop
  refine ⟨⟨id, rfl, ?_⟩, hwait⟩
  simp only [step, loopHead, hhead] at hstep
  split at hstep
  · obtain rfl := Option.some.inj hstep
    simp [exitLoop] at hloop
  · rename_i hgoes
    rw [not_or, not_not, Bool.not_eq_false] at hgoes
    obtain ⟨rfl, hrequested⟩ := hgoes
    exact ⟨hhead, hrequested⟩

/-- In every run no wait is longer than its interval exactly when every head that goes on to sleep
reads the clock no earlier than the last send start before it did. -/
theorem throttle_wait_bounded_iff {es : List CoordinatorEvent} :
    (∀ n c id now c' gen wait, StepAt Coordinator.step new es n c (.loopHead id now) c' →
      c'.loops id = some ⟨gen, .throttled wait⟩ → wait ≤ c.inner.minSendIntervalMs) ↔
    ∀ n c e c' now stamp, StepAt Coordinator.step new es n c e c' → c.Throttles e now →
      LastStart es n stamp → stamp ≤ now := by
  constructor
  · intro h n c e c' now stamp hat hthrottles hlast
    obtain ⟨id, rfl, hloop⟩ := hthrottles.wait hat.step
    have hwait := h n c id now c' _ _ hat hloop
    have hstamp := hlast.unique (lastStart_take hat.lt_length.le hat.before)
    rw [waitMs, ← hstamp] at hwait
    omega
  · intro h n c id now c' gen wait hat hloop
    obtain ⟨hthrottles, rfl⟩ := throttles_of_wait hat.step hloop
    have hstamp := h n c _ c' now _ hat hthrottles (lastStart_take hat.lt_length.le hat.before)
    rw [waitMs]
    omega

/-- Between a publish and the next trigger the clock is set back by an hour. -/
def clockSetBack : List CoordinatorEvent :=
  [.start] ++ configuredBy 0 ++
    [.loopHead 2 10000000, .loopThrottled 2 10000000, .loopCheck 2 ⟨10000000, none, none⟩,
      .requestFreshSnapshot, .loopPublished 2 (.ok { acceptedSequence := 1 }), .loopHead 2 6400000]

/-- The loop sleeps for that hour and the interval, and keeps the flag that lets no other loop
start. -/
theorem throttle_wait_unbounded :
    ¬ ∀ (es : List CoordinatorEvent) n c id now c' gen wait,
      StepAt Coordinator.step new es n c (.loopHead id now) c' →
      c'.loops id = some ⟨gen, .throttled wait⟩ → wait ≤ c.inner.minSendIntervalMs := by
  intro h
  have hrun : (exec Coordinator.step new clockSetBack).map
      (fun c => (c.loops 2, c.inner.refreshLoopRunning)) =
      some (some ⟨1, .throttled 3602000⟩, true) := by
    decide +kernel
  obtain ⟨s, hs, hstate⟩ := Option.map_eq_some_iff.mp hrun
  have hevent : clockSetBack[10]? = some (.loopHead 2 6400000) := rfl
  obtain ⟨c, c', hat⟩ := exec_stepAt hs hevent
  obtain rfl : c' = s := Option.some.inj (hat.after.symm.trans hs)
  have hinterval : (exec Coordinator.step new (clockSetBack.take 10)).map
      (fun c => c.inner.minSendIntervalMs) = some 2000 := by
    decide +kernel
  rw [hat.before, Option.map_some, Option.some.injEq] at hinterval
  have hwait := h clockSetBack 10 c 2 6400000 c' 1 3602000 hat (Prod.mk.inj hstate).1
  rw [hinterval] at hwait
  contradiction

end Coordinator

end YohakuCore
