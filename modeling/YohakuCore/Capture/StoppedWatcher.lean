import YohakuCore.Capture.WatcherThreads

/-!
# A stopped watcher that is not silent

A stop cancels the pending delivery. A debounce thread past its check and a resolver that polls may
still call the listeners afterwards.
-/

namespace YohakuCore

open Framework

/-- Whether the last call was a stop that returned, or a start behind one with no change yet. -/
inductive WatchPhase where
  | other
  | stopped
  | restarted
  deriving DecidableEq

def WatchPhase.next : WatchPhase → WatcherEvent → WatchPhase
  | _, .stopReturned _ => .stopped
  | .stopped, .start => .restarted
  | .restarted, .sample _ .register => .other
  | phase, _ => phase

def phaseAfter (events : List WatcherEvent) : WatchPhase := events.foldl WatchPhase.next .other

variable (u : UnicodeData) (toUppercase : Char → String)

/-- No listener is called after a stop has returned and before the next start. -/
def SilentWhileStopped (events : List WatcherEvent) : Prop :=
  ∀ n w d w', StepAt (ForegroundWatcher.step u toUppercase) {} events n w (.call d) w' →
    phaseAfter (events.take n) ≠ .stopped

/-- The first pass after a start that follows a stop schedules a delivery of what it saw. -/
def ReemitsAfterRestart (events : List WatcherEvent) : Prop :=
  ∀ n w who w',
    StepAt (ForegroundWatcher.step u toUppercase) {} events n w (.sample who .register) w' →
    phaseAfter (events.take n) = .restarted →
    ∃ info, w.pollPlace who = some (.informed info) ∧
      w'.pollPlace who = some (.leaving (some ⟨w'.watch.debounceGeneration, info⟩))

/-- A debounce thread that is not between its check and its last call. -/
def DebounceThread.idle (thread : DebounceThread) : Bool :=
  thread.place == .sleeping || thread.place == .calling []

/-- When a stop returns, no debounce thread is still calling and no pass has set the key again; and
none sets it until the next start. -/
def NoneOutlivesStop (events : List WatcherEvent) : Prop :=
  ∀ n w e w', StepAt (ForegroundWatcher.step u toUppercase) {} events n w e w' →
    (∀ k, e = .stopReturned k → w.watch.lastKey = none ∧ w.debounces.all DebounceThread.idle) ∧
    ∀ who, e = .sample who .register → phaseAfter (events.take n) ≠ .stopped

theorem phaseAfter_concat (events : List WatcherEvent) (e : WatcherEvent) :
    phaseAfter (events ++ [e]) = (phaseAfter events).next e := by
  simp [phaseAfter]

namespace ForegroundWatcher

variable {u toUppercase}

/-- A delivery waits for its thread to be spawned or to wake. -/
def Awaits (w : ForegroundWatcher) (delivery : ChangeDelivery) : Prop :=
  ⟨delivery, .sleeping⟩ ∈ w.debounces ∨ ∃ who, w.pollPlace who = some (.leaving (some delivery))

/-- A delivery that awaits is of the current generation or older, and of an older one while the
change key is unset. -/
def Cancels (w : ForegroundWatcher) : Prop :=
  ∀ delivery, w.Awaits delivery → delivery.generation ≤ w.watch.debounceGeneration ∧
    (w.watch.lastKey = none → delivery.generation < w.watch.debounceGeneration)

theorem currentStep_watch {w w' : ForegroundWatcher} {place : CurrentPlace} {step : SampleStep}
    {outcome : BodyOutcome (Option ForegroundInfo) CurrentPlace}
    (h : w.currentStep u toUppercase place step = some (w', outcome)) :
    step ≠ .register ∧ w'.watch.lastKey = w.watch.lastKey ∧
      w'.watch.debounceGeneration = w.watch.debounceGeneration ∧ w'.debounces = w.debounces := by
  cases place <;> cases step <;> simp only [currentStep, Option.some.injEq, Prod.mk.injEq,
    reduceCtorEq] at h
  · obtain ⟨rfl, -⟩ := h
    simp
  · obtain ⟨rfl, -⟩ := h
    unfold claim
    split <;> simp
  · obtain ⟨rfl, -⟩ := h
    rename_i fresh
    cases fresh <;> simp [WatchState.keep]

theorem pollStep_watch {w w' : ForegroundWatcher} {who : Sampler} {place : PollPlace}
    {step : SampleStep} {outcome : BodyOutcome Unit PollPlace}
    (h : w.pollStep u toUppercase who place step = some (w', outcome)) :
    (step ≠ .register ∧ w'.watch.lastKey = w.watch.lastKey ∧
      w'.watch.debounceGeneration = w.watch.debounceGeneration ∧ w'.debounces = w.debounces ∧
      ∀ delivery, outcome ≠ .goesOn (.leaving delivery)) ∨
    (∃ info, step = .register ∧ place = .informed info ∧ w'.debounces = w.debounces ∧
      w'.watch = (w.watch.registerChangeKey (changeKey info)).1 ∧
      outcome = .goesOn (.leaving (if (w.watch.registerChangeKey (changeKey info)).2 then
        some ⟨w'.watch.debounceGeneration, info⟩ else none))) ∨
    ∃ delivery, step = .leave ∧ place = .leaving delivery ∧ w'.watch = w.watch ∧
      w'.debounces = w.debounces ++ (delivery.map fun delivery => ⟨delivery, .sleeping⟩).toList ∧
      outcome = .ends () := by
  cases place with
  | entering =>
      cases step <;> simp only [pollStep, Option.ite_none_right_eq_some, Option.some.injEq,
        Prod.mk.injEq, reduceCtorEq] at h
      obtain ⟨-, rfl, rfl⟩ := h
      exact Or.inl (by simp)
  | current place =>
      obtain ⟨⟨w₁, outcome₁⟩, hcurrent, hw⟩ := Option.map_eq_some_iff.mp h
      obtain ⟨hstep, hkey, hgeneration, hdebounces⟩ := currentStep_watch hcurrent
      refine Or.inl ⟨hstep, ?_⟩
      cases outcome₁ <;> obtain ⟨rfl, rfl⟩ := Prod.mk.inj hw <;>
        exact ⟨hkey, hgeneration, hdebounces, by simp⟩
  | informed info =>
      cases step <;> simp only [pollStep, Option.some.injEq, Prod.mk.injEq, reduceCtorEq] at h
      obtain ⟨rfl, rfl⟩ := h
      exact Or.inr (Or.inl ⟨info, rfl, rfl, rfl, rfl, rfl⟩)
  | leaving delivery =>
      cases step <;> simp only [pollStep, Option.some.injEq, Prod.mk.injEq, reduceCtorEq] at h
      obtain ⟨rfl, rfl⟩ := h
      exact Or.inr (Or.inr ⟨delivery, rfl, rfl, rfl, rfl, rfl⟩)

theorem mem_modify_place {debounces : List DebounceThread} {d : Nat} {place : DebouncePlace}
    {thread : DebounceThread}
    (h : thread ∈ debounces.modify d fun thread => { thread with place }) :
    thread ∈ debounces ∨ thread.place = place := by
  obtain ⟨i, hget⟩ := List.mem_iff_getElem?.mp h
  rw [List.getElem?_modify] at hget
  obtain ⟨old, hold, rfl⟩ := Option.map_eq_some_iff.mp hget
  split
  · exact Or.inr rfl
  · exact Or.inl (List.mem_of_getElem? hold)

theorem pollPlace_of_loops_step {w : ForegroundWatcher} (hw : w.PassSound)
    {f : LoopEvent Unit PollPlace} {loops : Loops Unit PollPlace}
    (h : w.loops.step pollLoop f = some loops) (hwork : ∀ i outcome, f ≠ .work i outcome)
    {who : Sampler} {place : PollPlace} (hne : place ≠ .entering)
    (hplace : ({ w with loops } : ForegroundWatcher).pollPlace who = some place) :
    w.pollPlace who = some place := by
  cases who with
  | loop i =>
      rw [pollPlace_loop] at hplace ⊢
      have hmoved : ∀ j p, p ≠ .working place →
          (w.loops.moveTo j p).place i = some (.working place) →
          w.loops.place i = some (.working place) := by
        intro j p hp hplace
        rcases Loops.place_moveTo j i p with hsame | ⟨-, hnew⟩
        · exact hsame ▸ hplace
        · exact absurd (Option.some.inj (hnew ▸ hplace)) hp
      cases Loops.moves_of_step h with
      | start data =>
          rcases Loops.place_start hplace with hold | hfirst
          · exact hold
          · obtain rfl : place = .entering := by simpa [LoopBody.firstPlace, pollLoop] using hfirst
            exact absurd rfl hne
      | stop | stopJoined => exact hplace
      | exits => exact hmoved _ _ (by simp) hplace
      | stays hget hstays timeout =>
          refine hmoved _ _ ?_ hplace
          cases timeout
          · simp
          · simpa [pollLoop] using hne.symm
      | works => exact absurd rfl (hwork _ _)
      | stopInside hget hstops => contradiction
      | joinedInside hget => exact absurd (Loops.place_eq_some.mpr ⟨_, hget⟩) (hw.joins _ _ _)
  | resolver r => exact hplace
  | capture c => contradiction

theorem pollPlace_of_moveResolver {w : ForegroundWatcher} {r : Nat} {place' : ResolverPlace}
    {who : Sampler} {place : PollPlace} (hne : place' ≠ .polling place)
    (hplace : (w.moveResolver r place').pollPlace who = some place) :
    w.pollPlace who = some place := by
  cases who with
  | loop i => exact hplace
  | resolver r' =>
      obtain ⟨key, fallback, hget⟩ := pollPlace_resolver.mp hplace
      rw [moveResolver, List.getElem?_modify] at hget
      obtain ⟨old, hold, heq⟩ := Option.map_eq_some_iff.mp hget
      refine pollPlace_resolver.mpr ⟨key, fallback, ?_⟩
      split at heq
      · simp only [Resolver.mk.injEq] at heq
        exact absurd heq.2.2 hne
      · rw [hold, heq]
  | capture c => contradiction

theorem awaits_of_step {w w' : ForegroundWatcher} (hw : w.PassSound) {e : WatcherEvent}
    (hstep : w.step u toUppercase e = some w') (hsample : ∀ who step, e ≠ .sample who step) :
    (∀ delivery, w'.Awaits delivery → w.Awaits delivery) ∧
      (w'.watch = w.watch ∨ w'.watch = w.watch.clear) := by
  have hloops : ∀ f loops, w.loops.step pollLoop f = some loops →
      (∀ i outcome, f ≠ .work i outcome) → ∀ delivery,
      ({ w with loops } : ForegroundWatcher).Awaits delivery → w.Awaits delivery := by
    intro f loops hf hwork delivery hawaits
    rcases hawaits with hsleeps | ⟨who, hplace⟩
    · exact Or.inl hsleeps
    · exact Or.inr ⟨who, pollPlace_of_loops_step hw hf hwork (by simp) hplace⟩
  have hplaces : ∀ {w₁ : ForegroundWatcher}, w₁.loops = w.loops → w₁.resolvers = w.resolvers →
      (∀ delivery, ⟨delivery, .sleeping⟩ ∈ w₁.debounces → ⟨delivery, .sleeping⟩ ∈ w.debounces) →
      ∀ delivery, w₁.Awaits delivery → w.Awaits delivery := by
    intro w₁ hloops hresolvers hdebounces delivery hawaits
    rcases hawaits with hsleeps | ⟨who, hplace⟩
    · exact Or.inl (hdebounces delivery hsleeps)
    · exact Or.inr ⟨who, pollPlace_congr hloops (Or.inl hresolvers) who ▸ hplace⟩
  have hdebounce : ∀ d place, place ≠ .sleeping → ∀ delivery,
      ⟨delivery, .sleeping⟩ ∈ (w.moveDebounce d place).debounces →
      ⟨delivery, .sleeping⟩ ∈ w.debounces := by
    intro d place hplace delivery hmem
    rcases mem_modify_place hmem with hold | hnew
    · exact hold
    · exact absurd hnew.symm hplace
  have hresolver : ∀ {w₁ : ForegroundWatcher} {r place}, w₁.loops = w.loops →
      w₁.resolvers = w.resolvers → w₁.debounces = w.debounces →
      (∀ delivery, place ≠ .polling (.leaving (some delivery))) → ∀ delivery,
      (w₁.moveResolver r place).Awaits delivery → w.Awaits delivery := by
    intro w₁ r place hloops hresolvers hdebounces hne delivery hawaits
    rcases hawaits with hsleeps | ⟨who, hplace⟩
    · exact Or.inl (hdebounces ▸ hsleeps)
    · have hold := pollPlace_of_moveResolver (hne delivery) hplace
      exact Or.inr ⟨who, pollPlace_congr hloops (Or.inl hresolvers) who ▸ hold⟩
  cases e with
  | start =>
      obtain rfl := Option.some.inj hstep
      exact ⟨hloops (.start ()) _ rfl (by simp), Or.inl rfl⟩
  | stop =>
      obtain rfl := Option.some.inj hstep
      exact ⟨hloops .stop _ rfl (by simp), Or.inl rfl⟩
  | stopJoined k | check i timeout =>
      obtain ⟨loops, hf, rfl⟩ := Option.map_eq_some_iff.mp hstep
      exact ⟨hloops _ loops hf (by simp), Or.inl rfl⟩
  | sample who step => exact absurd rfl (hsample who step)
  | stopCleared k =>
      obtain ⟨-, hstep⟩ := Option.ite_none_right_eq_some.mp hstep
      obtain rfl := Option.some.inj hstep
      exact ⟨hplaces rfl rfl fun _ h => h, Or.inr rfl⟩
  | stopReturned k =>
      obtain ⟨-, hstep⟩ := Option.ite_none_right_eq_some.mp hstep
      obtain rfl := Option.some.inj hstep
      exact ⟨hplaces rfl rfl fun _ h => h, Or.inl rfl⟩
  | capture | onChange | unsubscribe listener =>
      obtain rfl := Option.some.inj hstep
      exact ⟨hplaces rfl rfl fun _ h => h, Or.inl rfl⟩
  | resolved r resolution =>
      simp only [ForegroundWatcher.step, resolve] at hstep
      split at hstep
      · cases resolution <;> obtain rfl := Option.some.inj hstep <;>
          exact ⟨hresolver rfl rfl rfl (by simp), Or.inl rfl⟩
      · contradiction
  | forget r =>
      simp only [ForegroundWatcher.step] at hstep
      split at hstep
      · obtain rfl := Option.some.inj hstep
        exact ⟨hresolver rfl rfl rfl (by simp), Or.inl rfl⟩
      · contradiction
  | wake d =>
      simp only [ForegroundWatcher.step, wake] at hstep
      split at hstep
      · obtain rfl := Option.some.inj hstep
        refine ⟨hplaces rfl rfl (hdebounce d _ ?_), Or.inl rfl⟩
        split <;> simp
      · contradiction
  | snapshot d | call d =>
      simp only [ForegroundWatcher.step] at hstep
      split at hstep
      · obtain rfl := Option.some.inj hstep
        exact ⟨hplaces rfl rfl (hdebounce d _ (by simp)), Or.inl rfl⟩
      · contradiction

/-- Where a step of a pass leaves a delivery that awaits: at the thread that takes it, or as before. -/
theorem awaits_of_pollStep {w w₁ : ForegroundWatcher} {who : Sampler} {place : PollPlace}
    {step : SampleStep} {outcome : BodyOutcome Unit PollPlace}
    (hplace : w.pollPlace who = some place)
    (hpoll : w.pollStep u toUppercase who place step = some (w₁, outcome)) {delivery : ChangeDelivery}
    (hawaits : (w₁.moveTo who outcome).Awaits delivery) :
    ⟨delivery, .sleeping⟩ ∈ w₁.debounces ∨ outcome = .goesOn (.leaving (some delivery)) ∨
      w.Awaits delivery := by
  obtain ⟨hplaces, -⟩ := pollStep_pass hpoll
  rcases hawaits with hsleeps | ⟨other, hother⟩
  · have hdebounces : (w₁.moveTo who outcome).debounces = w₁.debounces := by
      cases who <;> cases outcome <;> rfl
    exact Or.inl (hdebounces ▸ hsleeps)
  · by_cases hwho : who = other
    · subst hwho
      rw [pollPlace_moveTo_self ((hplaces who).trans hplace)] at hother
      cases outcome with
      | goesOn place' => exact Or.inr (Or.inl (congrArg _ (Option.some.inj hother)))
      | ends data | panics => contradiction
    · rw [pollPlace_moveTo_of_ne hwho, hplaces other] at hother
      exact Or.inr (Or.inr (Or.inr ⟨other, hother⟩))

theorem watch_moveTo (w : ForegroundWatcher) (who : Sampler) (outcome : BodyOutcome Unit PollPlace) :
    (w.moveTo who outcome).watch = w.watch ∧ (w.moveTo who outcome).debounces = w.debounces := by
  cases who <;> cases outcome <;> exact ⟨rfl, rfl⟩

theorem Cancels.step {w w' : ForegroundWatcher} {e : WatcherEvent} (h : w.Cancels)
    (hpass : w.PassSound) (hstep : w.step u toUppercase e = some w') : w'.Cancels := by
  by_cases hsample : ∃ who step, e = .sample who step
  · obtain ⟨who, step, rfl⟩ := hsample
    rcases sampleStep_cases hstep with ⟨place, w₁, outcome, hplace, hpoll, rfl⟩ |
      ⟨c, place, w₁, outcome, rfl, -, hcurrent, captures, rfl⟩
    · intro delivery hawaits
      have hback := awaits_of_pollStep hplace hpoll hawaits
      rw [(watch_moveTo w₁ who outcome).1]
      rcases pollStep_watch hpoll with ⟨-, hkey, hgeneration, hdebounces, hout⟩ |
        ⟨info, -, -, hdebounces, hwatch, hout⟩ | ⟨scheduled, -, rfl, hwatch, hdebounces, hout⟩
      · rw [hkey, hgeneration]
        rcases hback with hsleeps | hleaves | hold
        · exact h delivery (Or.inl (hdebounces ▸ hsleeps))
        · exact absurd hleaves (hout _)
        · exact h delivery hold
      · have hold : w.Awaits delivery → delivery.generation ≤ w₁.watch.debounceGeneration ∧
            (w₁.watch.lastKey = none → delivery.generation < w₁.watch.debounceGeneration) := by
          intro hold
          have hbefore := h delivery hold
          rw [hwatch, WatchState.registerChangeKey]
          split
          · exact hbefore
          · dsimp only
            omega
        rcases hback with hsleeps | hleaves | hawaits
        · exact hold (Or.inl (hdebounces ▸ hsleeps))
        · rw [hout] at hleaves
          rw [hwatch, WatchState.registerChangeKey] at hleaves ⊢
          split at hleaves
          · simp at hleaves
          · rename_i hchanged
            obtain rfl : _ = delivery := by simpa using hleaves
            rw [if_neg hchanged]
            simp
        · exact hold hawaits
      · rw [hwatch]
        rcases hback with hsleeps | hleaves | hold
        · rw [hdebounces, List.mem_append] at hsleeps
          rcases hsleeps with hold | hnew
          · exact h delivery (Or.inl hold)
          · obtain rfl : scheduled = some delivery := by
              cases scheduled <;> simp_all
            exact h delivery (Or.inr ⟨who, hplace⟩)
        · rw [hout] at hleaves
          contradiction
        · exact h delivery hold
    · obtain ⟨-, hkey, hgeneration, hdebounces⟩ := currentStep_watch hcurrent
      intro delivery hawaits
      dsimp only
      rw [hkey, hgeneration]
      refine h delivery ?_
      rcases hawaits with hsleeps | ⟨other, hother⟩
      · exact Or.inl (hdebounces ▸ hsleeps)
      · have hplaces := (pollPlace_currentStep hcurrent other).1
        exact Or.inr ⟨other, hplaces ▸ pollPlace_congr rfl (Or.inl rfl) other ▸ hother⟩
  · have hnot : ∀ who step, e ≠ .sample who step := fun who step heq => hsample ⟨who, step, heq⟩
    obtain ⟨hback, hwatch⟩ := awaits_of_step hpass hstep hnot
    intro delivery hawaits
    have hold := h delivery (hback delivery hawaits)
    rcases hwatch with hsame | hclear
    · rw [hsame]
      exact hold
    · rw [hclear, WatchState.clear]
      dsimp only
      omega

theorem cancels_new : ({} : ForegroundWatcher).Cancels := by
  intro delivery hawaits
  rcases hawaits with hsleeps | ⟨who, hplace⟩
  · simp at hsleeps
  · cases who <;> simp [pollPlace, Loops.place] at hplace

def AllIdle (w : ForegroundWatcher) : Prop := ∀ thread ∈ w.debounces, thread.idle = true

theorem lastKey_step {w w' : ForegroundWatcher} (hpass : w.PassSound) {e : WatcherEvent}
    (hstep : w.step u toUppercase e = some w') (hregister : ∀ who, e ≠ .sample who .register)
    (hkey : w.watch.lastKey = none) : w'.watch.lastKey = none := by
  by_cases hsample : ∃ who step, e = .sample who step
  · obtain ⟨who, step, rfl⟩ := hsample
    rcases sampleStep_cases hstep with ⟨place, w₁, outcome, hplace, hpoll, rfl⟩ |
      ⟨c, place, w₁, outcome, rfl, -, hcurrent, captures, rfl⟩
    · rw [(watch_moveTo w₁ who outcome).1]
      rcases pollStep_watch hpoll with ⟨-, hsame, -⟩ | ⟨info, rfl, -⟩ | ⟨scheduled, -, -, hwatch, -⟩
      · rw [hsame, hkey]
      · exact absurd rfl (hregister who)
      · rw [hwatch, hkey]
    · obtain ⟨-, hsame, -⟩ := currentStep_watch hcurrent
      exact hsame.trans hkey
  · have hnot : ∀ who step, e ≠ .sample who step := fun who step heq => hsample ⟨who, step, heq⟩
    rcases (awaits_of_step hpass hstep hnot).2 with hsame | hclear
    · rw [hsame, hkey]
    · rw [hclear]
      rfl

theorem idle_moveDebounce {w : ForegroundWatcher} (hidle : w.AllIdle) (d : Nat)
    {place : DebouncePlace} (hplace : place = .sleeping ∨ place = .calling []) :
    (w.moveDebounce d place).AllIdle := by
  intro thread hmem
  rcases mem_modify_place hmem with hold | rfl
  · exact hidle thread hold
  · rcases hplace with hplace | hplace <;> simp [DebounceThread.idle, hplace]

/-- While the change key is unset every thread that wakes has been cancelled, and none of the idle
ones calls a listener. -/
theorem idle_step {w w' : ForegroundWatcher} (hcancels : w.Cancels) {e : WatcherEvent}
    (hstep : w.step u toUppercase e = some w') (hkey : w.watch.lastKey = none)
    (hidle : w.AllIdle) : w'.AllIdle ∧ ∀ d, e ≠ .call d := by
  cases e with
  | start | stop | capture | onChange | unsubscribe listener =>
      obtain rfl := Option.some.inj hstep
      exact ⟨hidle, by simp⟩
  | stopJoined k | check i timeout =>
      obtain ⟨loops, -, rfl⟩ := Option.map_eq_some_iff.mp hstep
      exact ⟨hidle, by simp⟩
  | stopCleared k | stopReturned k =>
      obtain ⟨-, hstep⟩ := Option.ite_none_right_eq_some.mp hstep
      obtain rfl := Option.some.inj hstep
      exact ⟨hidle, by simp⟩
  | sample who step =>
      refine ⟨?_, by simp⟩
      rcases sampleStep_cases hstep with ⟨place, w₁, outcome, hplace, hpoll, rfl⟩ |
        ⟨c, place, w₁, outcome, rfl, -, hcurrent, captures, rfl⟩
      · intro thread hmem
        rw [(watch_moveTo w₁ who outcome).2] at hmem
        rcases pollStep_watch hpoll with ⟨-, -, -, hsame, -⟩ | ⟨info, -, -, hsame, -⟩ |
          ⟨scheduled, -, -, -, hadded, -⟩
        · exact hidle thread (hsame ▸ hmem)
        · exact hidle thread (hsame ▸ hmem)
        · rw [hadded, List.mem_append] at hmem
          rcases hmem with hold | hnew
          · exact hidle thread hold
          · cases scheduled with
            | none => simp at hnew
            | some delivery =>
                obtain rfl : thread = ⟨delivery, .sleeping⟩ := by simpa using hnew
                rfl
      · obtain ⟨-, -, -, hsame⟩ := currentStep_watch hcurrent
        intro thread hmem
        exact hidle thread (hsame ▸ hmem)
  | resolved r resolution =>
      refine ⟨?_, by simp⟩
      simp only [ForegroundWatcher.step, resolve] at hstep
      split at hstep
      · cases resolution <;> obtain rfl := Option.some.inj hstep <;> exact hidle
      · contradiction
  | forget r =>
      refine ⟨?_, by simp⟩
      simp only [ForegroundWatcher.step] at hstep
      split at hstep
      · obtain rfl := Option.some.inj hstep
        exact hidle
      · contradiction
  | wake d =>
      refine ⟨?_, by simp⟩
      simp only [ForegroundWatcher.step, wake] at hstep
      split at hstep
      · rename_i delivery hget
        obtain rfl := Option.some.inj hstep
        have hold := (hcancels delivery (Or.inl (List.mem_of_getElem? hget))).2 hkey
        refine idle_moveDebounce hidle d (Or.inr (if_pos ?_))
        omega
      · contradiction
  | snapshot d =>
      simp only [ForegroundWatcher.step] at hstep
      split at hstep
      · rename_i delivery hget
        have hactive := hidle _ (List.mem_of_getElem? hget)
        simp [DebounceThread.idle] at hactive
      · contradiction
  | call d =>
      simp only [ForegroundWatcher.step] at hstep
      split at hstep
      · rename_i delivery listener listeners hget
        have hactive := hidle _ (List.mem_of_getElem? hget)
        simp [DebounceThread.idle] at hactive
      · contradiction

/-- What a stop leaves behind, by what was called last. -/
def PhaseSound (w : ForegroundWatcher) : WatchPhase → Prop
  | .stopped => w.watch.lastKey = none ∧ w.AllIdle
  | .restarted => w.watch.lastKey = none
  | .other => True

theorem PhaseSound.step {w w' : ForegroundWatcher} {phase : WatchPhase}
    (hphase : w.PhaseSound phase) (hpass : w.PassSound) (hcancels : w.Cancels) {e : WatcherEvent}
    (hstep : w.step u toUppercase e = some w')
    (hreturned : ∀ k, e = .stopReturned k → w.watch.lastKey = none ∧ w.AllIdle)
    (hregister : ∀ who, e = .sample who .register → phase ≠ .stopped) :
    w'.PhaseSound (phase.next e) := by
  by_cases hreturns : ∃ k, e = .stopReturned k
  · obtain ⟨k, rfl⟩ := hreturns
    obtain ⟨hkey, hidle⟩ := hreturned k rfl
    exact ⟨lastKey_step hpass hstep (by simp) hkey, (idle_step hcancels hstep hkey hidle).1⟩
  · cases phase with
    | other =>
        have hnext : WatchPhase.next .other e = .other := by
          unfold WatchPhase.next
          split <;> simp_all
        rw [hnext]
        trivial
    | stopped =>
        obtain ⟨hkey, hidle⟩ := hphase
        have hkey' := lastKey_step hpass hstep (fun who heq => hregister who heq rfl) hkey
        have hidle' := (idle_step hcancels hstep hkey hidle).1
        have hnext : WatchPhase.next .stopped e = .stopped ∨
            WatchPhase.next .stopped e = .restarted := by
          unfold WatchPhase.next
          split <;> simp_all
        rcases hnext with hnext | hnext <;> rw [hnext]
        · exact ⟨hkey', hidle'⟩
        · exact hkey'
    | restarted =>
        by_cases hregisters : ∃ who, e = .sample who .register
        · obtain ⟨who, rfl⟩ := hregisters
          trivial
        · have hkey' := lastKey_step hpass hstep (fun who heq => hregisters ⟨who, heq⟩) hphase
          have hnext : WatchPhase.next .restarted e = .restarted := by
            unfold WatchPhase.next
            split <;> simp_all
          rw [hnext]
          exact hkey'

theorem register_schedules {w w' : ForegroundWatcher} {who : Sampler}
    (hstep : w.step u toUppercase (.sample who .register) = some w')
    (hkey : w.watch.lastKey = none) :
    ∃ info, w.pollPlace who = some (.informed info) ∧
      w'.pollPlace who = some (.leaving (some ⟨w'.watch.debounceGeneration, info⟩)) := by
  rcases sampleStep_cases hstep with ⟨place, w₁, outcome, hplace, hpoll, rfl⟩ |
    ⟨c, place, w₁, outcome, rfl, -, hcurrent, captures, rfl⟩
  · rcases pollStep_watch hpoll with ⟨hne, -⟩ | ⟨info, -, rfl, -, hwatch, rfl⟩ | ⟨_, hleave, -⟩
    · exact absurd rfl hne
    · refine ⟨info, hplace, ?_⟩
      have hself := ((pollStep_pass hpoll).1 who).trans hplace
      rw [pollPlace_moveTo_self hself, (watch_moveTo w₁ who _).1]
      have hchanged : (w.watch.registerChangeKey (changeKey info)).2 = true := by
        simp [WatchState.registerChangeKey, hkey]
      simp [hchanged]
    · contradiction
  · exact absurd rfl (currentStep_watch hcurrent).1

end ForegroundWatcher

variable {u toUppercase}

theorem sound_of_noneOutlivesStop {events : List WatcherEvent}
    (h : NoneOutlivesStop u toUppercase events) (n : Nat) {w : ForegroundWatcher}
    (hrun : exec (ForegroundWatcher.step u toUppercase) {} (events.take n) = some w) :
    w.PassSound ∧ w.Cancels ∧ w.PhaseSound (phaseAfter (events.take n)) := by
  induction n generalizing w with
  | zero =>
      rw [List.take_zero] at hrun ⊢
      obtain rfl := Option.some.inj hrun
      exact ⟨ForegroundWatcher.passSound_new, ForegroundWatcher.cancels_new, trivial⟩
  | succ n ih =>
      cases hevent : events[n]? with
      | none =>
          have htake : events.take (n + 1) = events.take n := by
            rw [List.take_add_one, hevent, Option.toList_none, List.append_nil]
          rw [htake] at hrun ⊢
          exact ih hrun
      | some e =>
          obtain ⟨w₀, hat⟩ := stepAt_of_take_succ hrun hevent
          obtain ⟨hpass, hcancels, hphase⟩ := ih hat.before
          obtain ⟨hreturned, hregister⟩ := h n w₀ e w hat
          have htake : events.take (n + 1) = events.take n ++ [e] := by
            rw [List.take_add_one, hevent, Option.toList_some]
          rw [htake, phaseAfter_concat]
          refine ⟨hpass.step hat.step, hcancels.step hpass hat.step,
            hphase.step hpass hcancels hat.step ?_ hregister⟩
          intro k hk
          obtain ⟨hkey, hidle⟩ := hreturned k hk
          exact ⟨hkey, List.all_eq_true.mp hidle⟩

variable (u toUppercase)

/-- The condition on one step, as a check. -/
def outlivedByNone (w : ForegroundWatcher) (phase : WatchPhase) : WatcherEvent → Bool
  | .stopReturned _ => w.watch.lastKey.isNone && w.debounces.all DebounceThread.idle
  | .sample _ .register => phase != .stopped
  | _ => true

def everyStepOutlivedByNone (w : ForegroundWatcher) (phase : WatchPhase) :
    List WatcherEvent → Bool
  | [] => true
  | e :: es => outlivedByNone w phase e &&
      match w.step u toUppercase e with
      | some w' => everyStepOutlivedByNone w' (phase.next e) es
      | none => true

theorem outlivedByNone_of_everyStep {w : ForegroundWatcher} {phase : WatchPhase}
    {events : List WatcherEvent}
    (h : everyStepOutlivedByNone u toUppercase w phase events = true) {n : Nat}
    {w₁ w₂ : ForegroundWatcher} {e : WatcherEvent}
    (hat : StepAt (ForegroundWatcher.step u toUppercase) w events n w₁ e w₂) :
    outlivedByNone w₁ ((events.take n).foldl WatchPhase.next phase) e = true := by
  induction events generalizing w phase n with
  | nil => exact absurd hat.lt_length (Nat.not_lt_zero n)
  | cons e₀ es ih =>
      rw [everyStepOutlivedByNone, Bool.and_eq_true] at h
      cases n with
      | zero =>
          obtain rfl := Option.some.inj hat.before
          obtain rfl := Option.some.inj hat.event
          exact h.1
      | succ n =>
          have hbefore := hat.before
          rw [List.take_succ_cons, exec_cons, Option.bind_eq_some_iff] at hbefore
          obtain ⟨w', hw', hrest⟩ := hbefore
          rw [hw'] at h
          exact ih h.2 ⟨hrest, hat.event, hat.step⟩

theorem noneOutlivesStop_of_check {events : List WatcherEvent}
    (h : everyStepOutlivedByNone u toUppercase {} .other events = true) :
    NoneOutlivesStop u toUppercase events := by
  intro n w e w' hat
  have hmeets := outlivedByNone_of_everyStep u toUppercase h hat
  constructor
  · rintro k rfl
    simpa [outlivedByNone] using hmeets
  · rintro who rfl hphase
    have hne : phaseAfter (events.take n) ≠ .stopped := by
      simpa [outlivedByNone, phaseAfter] using hmeets
    exact hne hphase

/-- One pass, of a thread that finds the display name or has it resolved. -/
def passOf (who : Sampler) (raw : Option RawForegroundSample) (misses : Bool) :
    List WatcherEvent :=
  [.sample who .enter, .sample who (.sample (fun path => some path) raw)] ++
    (if misses then [.sample who .claim] else []) ++
    [.sample who .keep, .sample who .register, .sample who .leave]

def notepad : RawForegroundSample := ⟨none, some "notepad.exe"⟩

/-- The calls of `stop` until it returns, with the exit of the one poll thread between. -/
def stopWatcher : List WatcherEvent :=
  [.stop, .check 0 false, .stopJoined 0, .stopCleared 0, .stopReturned 0]

/-- In a run in which no delivery and no pass outlives a stop, a stopped watcher is silent, and a
restart emits the first change again. -/
theorem stopped_watcher_silent (events : List WatcherEvent)
    (h : NoneOutlivesStop u toUppercase events) :
    SilentWhileStopped u toUppercase events ∧ ReemitsAfterRestart u toUppercase events := by
  constructor
  · intro n w d w' hat hphase
    obtain ⟨-, hcancels, hsound⟩ := sound_of_noneOutlivesStop h n hat.before
    rw [hphase] at hsound
    exact (ForegroundWatcher.idle_step hcancels hat.step hsound.1 hsound.2).2 d rfl
  · intro n w who w' hat hphase
    obtain ⟨-, -, hsound⟩ := sound_of_noneOutlivesStop h n hat.before
    rw [hphase] at hsound
    exact ForegroundWatcher.register_schedules hat.step hsound

/-- A delivery that is cancelled in time, and the first change of the next start. -/
theorem stopped_watcher_silent_restarted :
    SilentWhileStopped .ascii Char.toString
      ([.onChange, .start] ++ passOf (.loop 0) none false ++ stopWatcher ++
        [.wake 0, .start] ++ passOf (.loop 1) none false) ∧
    ReemitsAfterRestart .ascii Char.toString
      ([.onChange, .start] ++ passOf (.loop 0) none false ++ stopWatcher ++
        [.wake 0, .start] ++ passOf (.loop 1) none false) :=
  stopped_watcher_silent _ _ _ (noneOutlivesStop_of_check _ _ (by decide +kernel))

/-- A debounce thread takes its listeners before the stop and calls the one after it. -/
def lateDelivery : List WatcherEvent :=
  [.onChange, .start] ++ passOf (.loop 0) none false ++ [.wake 0, .snapshot 0] ++ stopWatcher

/-- A name is resolved after the stop has returned, and the resolver polls. -/
def lateResolver : List WatcherEvent :=
  [.onChange, .start] ++ passOf (.loop 0) (some notepad) true ++ stopWatcher ++
    [.resolved 0 (.described "Notepad")] ++ passOf (.resolver 0) (some notepad) false

theorem not_silent {events : List WatcherEvent} {d : Nat} (hphase : phaseAfter events = .stopped)
    (hrun : (exec (ForegroundWatcher.step u toUppercase) {} (events ++ [.call d])).isSome) :
    ¬ SilentWhileStopped u toUppercase (events ++ [.call d]) := by
  intro h
  obtain ⟨w', hw'⟩ := Option.isSome_iff_exists.mp hrun
  obtain ⟨w, hw, hstep⟩ := exec_concat_eq_some.mp hw'
  refine h _ w d w' (StepAt.last hw hstep) ?_
  rw [List.take_left]
  exact hphase

theorem not_reemits {events : List WatcherEvent} {who : Sampler}
    (hphase : phaseAfter events = .restarted)
    (hrun : (exec (ForegroundWatcher.step u toUppercase) {}
      (events ++ [.sample who .register])).map (fun w => w.pollPlace who) =
        some (some (.leaving none))) :
    ¬ ReemitsAfterRestart u toUppercase (events ++ [.sample who .register]) := by
  intro h
  obtain ⟨w', hw', hplace⟩ := Option.map_eq_some_iff.mp hrun
  obtain ⟨w, hw, hstep⟩ := exec_concat_eq_some.mp hw'
  obtain ⟨info, -, hleaving⟩ := h _ w who w' (StepAt.last hw hstep) (by
    rw [List.take_left]
    exact hphase)
  rw [hplace] at hleaving
  simp at hleaving

/-- A listener is called after the stop has returned, by a debounce thread or on behalf of a
resolver; and the first pass of the next start schedules nothing. -/
theorem stopped_watcher_calls :
    ¬ SilentWhileStopped .ascii Char.toString (lateDelivery ++ [.call 0]) ∧
    ¬ SilentWhileStopped .ascii Char.toString
      (lateResolver ++ [.wake 1, .snapshot 1] ++ [.call 1]) ∧
    ¬ ReemitsAfterRestart .ascii Char.toString
      (lateResolver ++ [.start, .sample (.loop 1) .enter,
          .sample (.loop 1) (.sample (fun path => some path) (some notepad)),
          .sample (.loop 1) .keep] ++
        [.sample (.loop 1) .register]) := by
  refine ⟨not_silent _ _ (by decide) ?_, not_silent _ _ (by decide) ?_,
    not_reemits _ _ (by decide) ?_⟩
  · decide +kernel
  · decide +kernel
  · decide +kernel

end YohakuCore
