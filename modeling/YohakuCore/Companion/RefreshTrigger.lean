import YohakuCore.Companion.CoordinatorInvariants

/-!
# When a refresh trigger is served

The running flag is shared by all generations, while a loop only serves its own.
-/

namespace YohakuCore

open Framework

namespace Coordinator

/-- A live refresh loop of the current generation. -/
def CurrentLoop (c : Coordinator) : Prop :=
  ∃ id task, c.loops id = some task ∧ task.generation = c.inner.generation

/-- An active coordinator with a pending request has a loop that will reach its head. -/
def TriggerServed (c : Coordinator) : Prop :=
  c.inner.state = .active → c.inner.refreshRequested = true → c.CurrentLoop

/-- The steps that request a refresh and leave the coordinator active. -/
def Triggers (c : Coordinator) : CoordinatorEvent → Prop
  | .requestFreshSnapshot => c.inner.state = .active
  | .heartbeatFire id => c.inner.state = .active ∧
      ∃ aborted, c.heartbeats id = some ⟨c.inner.generation, .elapsed aborted⟩
  | .configureCapabilities id (some (.available _)) =>
      ∃ connection token, c.configures id =
        some ⟨c.inner.generation, .capabilities connection token⟩
  | _ => False

/-- The trigger finds the flag of a loop of an ended generation. -/
def MeetsDyingLoop (c : Coordinator) (e : CoordinatorEvent) : Prop :=
  c.Triggers e ∧ c.inner.refreshLoopRunning = true ∧ ¬ c.CurrentLoop

/-- The loop of the current generation finds its client discarded while a request is pending. -/
def LosesClient (c : Coordinator) (e : CoordinatorEvent) : Prop :=
  ∃ id now waitMs, e = .loopThrottled id now ∧
    c.loops id = some ⟨c.inner.generation, .throttled waitMs⟩ ∧ c.inner.client = none ∧
    c.inner.state = .active ∧ c.inner.refreshRequested = true

theorem TriggerServed.congr {c c' : Coordinator} (h : c.TriggerServed)
    (hgeneration : c'.inner.generation = c.inner.generation)
    (hstate : c'.inner.state = c.inner.state)
    (hrequested : c'.inner.refreshRequested = c.inner.refreshRequested)
    (hloops : c'.loops = c.loops) : c'.TriggerServed := by
  intro hactive hpending
  obtain ⟨id, task, htask, hgen⟩ := h (hstate ▸ hactive) (hrequested ▸ hpending)
  exact ⟨id, task, hloops ▸ htask, hgeneration ▸ hgen⟩

theorem triggerServed_of_state {c : Coordinator} (h : c.inner.state ≠ .active) :
    c.TriggerServed :=
  fun hactive => absurd hactive h

theorem triggerServed_of_not_requested {c : Coordinator}
    (h : c.inner.refreshRequested = false) : c.TriggerServed := by
  intro _ hpending
  rw [h] at hpending
  contradiction

theorem TriggerServed.startLocked {c : Coordinator} (h : c.TriggerServed) :
    c.startLocked.TriggerServed := by
  rw [Coordinator.startLocked]
  split
  · exact h
  · exact triggerServed_of_not_requested rfl

/-- A trigger of the current generation is served unless it meets a dying loop. -/
theorem triggerServed_triggerRefresh {c : Coordinator}
    (h : c.inner.refreshLoopRunning = true → c.CurrentLoop) :
    (c.triggerRefresh c.inner.generation).TriggerServed := by
  intro _ _
  rw [Coordinator.triggerRefresh]
  split
  · rename_i hrunning
    exact h hrunning
  · exact ⟨c.nextTask, _, Function.update_self _ _ _, rfl⟩

/-- The exit of a loop of an ended generation leaves no request behind: by single flight no other
loop served it. -/
theorem TriggerServed.exitStale {c : Coordinator} (h : c.TriggerServed) (hinv : c.Inv) {id : Nat}
    {task : Spawned LoopPc} (htask : c.loops id = some task)
    (hgen : task.generation ≠ c.inner.generation) : (c.exitLoop id).TriggerServed := by
  intro hactive hpending
  obtain ⟨j, u, hu, hugen⟩ := h hactive hpending
  obtain rfl := hinv.flight.eq_of_some htask hu
  rw [htask] at hu
  obtain rfl := Option.some.inj hu
  exact absurd hugen hgen

theorem TriggerServed.configureCapabilities {c c' : Coordinator} (h : c.TriggerServed) {id : Nat}
    {negotiation : Option PresenceNegotiation}
    (hmeets : ¬ c.MeetsDyingLoop (.configureCapabilities id negotiation))
    (hstep : c.configureCapabilities id negotiation = some c') : c'.TriggerServed := by
  rw [Coordinator.configureCapabilities] at hstep
  split at hstep
  · rename_i gen connection token htask
    dsimp only at hstep
    split at hstep
    · obtain rfl := Option.some.inj hstep
      exact h.congr rfl rfl rfl rfl
    · rename_i hgen
      obtain rfl : gen = c.inner.generation := not_not.mp hgen
      split at hstep
      · obtain rfl := Option.some.inj hstep
        exact triggerServed_of_state (fun hactive => by cases hactive)
      · obtain rfl := Option.some.inj hstep
        exact triggerServed_of_state (fun hactive => by cases hactive)
      · obtain rfl := Option.some.inj hstep
        exact triggerServed_of_state (fun hactive => by cases hactive)
      · obtain rfl := Option.some.inj hstep
        exact triggerServed_of_state (fun hactive => by cases hactive)
      · obtain rfl := Option.some.inj hstep
        exact triggerServed_of_state (fun hactive => by cases hactive)
      · obtain rfl := Option.some.inj hstep
        refine triggerServed_triggerRefresh (c := _) ?_
        intro hrunning
        by_contra hnone
        exact hmeets ⟨⟨connection, token, htask⟩, hrunning, hnone⟩
  · contradiction

theorem TriggerServed.loopHead {c c' : Coordinator} (h : c.TriggerServed) (hinv : c.Inv) {id : Nat}
    {now : Int} (hstep : c.loopHead id now = some c') : c'.TriggerServed := by
  rw [Coordinator.loopHead] at hstep
  split at hstep
  · rename_i gen htask
    split at hstep
    · rename_i hexit
      obtain rfl := Option.some.inj hstep
      rcases hexit with hgen | hrequested
      · exact h.exitStale hinv htask hgen
      · exact triggerServed_of_not_requested hrequested
    · obtain rfl := Option.some.inj hstep
      exact triggerServed_of_not_requested rfl
  · contradiction

theorem triggerServed_setLoop {c : Coordinator} {id : Nat} {task : Spawned LoopPc}
    (hgen : task.generation = c.inner.generation) : (c.setLoop id task).TriggerServed :=
  fun _ _ => ⟨id, task, Function.update_self _ _ _, hgen⟩

theorem TriggerServed.loopThrottled {c c' : Coordinator} (h : c.TriggerServed) (hinv : c.Inv)
    {id : Nat} {now : Int} (hclient : ¬ c.LosesClient (.loopThrottled id now))
    (hstep : c.loopThrottled id now = some c') : c'.TriggerServed := by
  rw [Coordinator.loopThrottled] at hstep
  split at hstep
  · rename_i gen waitMs htask
    split at hstep
    · rename_i hgen
      obtain rfl := Option.some.inj hstep
      exact h.exitStale hinv htask hgen
    · rename_i hgen
      obtain rfl := not_not.mp hgen
      split at hstep
      · rename_i hnone
        obtain rfl := Option.some.inj hstep
        intro hactive hpending
        exact absurd ⟨id, now, waitMs, rfl, htask, hnone, hactive, hpending⟩ hclient
      · rename_i client hsome
        obtain rfl := Option.some.inj hstep
        have hset : (c.setLoop id ⟨c.inner.generation,
            .capturing client c.inner.includeMedia⟩).TriggerServed := triggerServed_setLoop rfl
        exact hset.congr rfl rfl rfl rfl
  · contradiction

theorem TriggerServed.loopCheck {c c' : Coordinator} (h : c.TriggerServed) (hinv : c.Inv)
    {id : Nat} {snapshot : SanitizedPresenceSnapshot}
    (hstep : c.loopCheck id snapshot = some c') : c'.TriggerServed := by
  rw [Coordinator.loopCheck] at hstep
  split at hstep
  · rename_i gen client includeMedia htask
    split at hstep
    · rename_i hgen
      obtain rfl := Option.some.inj hstep
      exact h.exitStale hinv htask hgen
    · rename_i hgen
      obtain rfl := not_not.mp hgen
      obtain rfl := Option.some.inj hstep
      have hset : (c.setLoop id ⟨c.inner.generation,
          .publishing c.calls.length⟩).TriggerServed := triggerServed_setLoop rfl
      exact hset.congr rfl rfl rfl rfl
  · contradiction

theorem TriggerServed.loopPublished {c c' : Coordinator} (h : c.TriggerServed) (hinv : c.Inv)
    {id : Nat} {result : Except PresenceClientError MutationResponse}
    (hstep : c.loopPublished id result = some c') : c'.TriggerServed := by
  rw [Coordinator.loopPublished] at hstep
  split at hstep
  · rename_i gen call htask
    split at hstep
    · rename_i hgen
      obtain rfl := Option.some.inj hstep
      exact h.exitStale hinv htask hgen
    · rename_i hgen
      obtain rfl := not_not.mp hgen
      split at hstep
      · obtain rfl := Option.some.inj hstep
        exact fun _ _ => ⟨id, _, Function.update_self _ _ _, rfl⟩
      · split at hstep
        · obtain rfl := Option.some.inj hstep
          rw [Coordinator.startLocked]
          split
          · rename_i hstopping
            have hdisabled : c.inner.state = .disabled := hinv.stopping hstopping
            refine triggerServed_of_state (fun hactive => ?_)
            have hactive : c.inner.state = .active := hactive
            rw [hdisabled] at hactive
            contradiction
          · exact triggerServed_of_not_requested rfl
        · obtain rfl := Option.some.inj hstep
          exact triggerServed_of_state (fun hactive => by cases hactive)
  · contradiction

theorem Framed.triggerServed {c d : Coordinator} (hframe : c.Framed d) (h : c.TriggerServed) :
    d.TriggerServed := by
  intro hactive hpending
  obtain ⟨id, task, htask, hgen⟩ :=
    h (hframe.active hactive) (hframe.refreshRequested ▸ hpending)
  exact ⟨id, task, hframe.loops ▸ htask, hgen.trans hframe.generation.symm⟩

theorem Framed.triggerServed_asked {c d : Coordinator} (hframe : c.Framed d)
    {e : CoordinatorEvent} (hasks : c.Asks e) (hmeets : ¬ c.MeetsDyingLoop e) :
    (d.triggerRefresh d.inner.generation).TriggerServed := by
  by_cases hactive : d.inner.state = .active
  · have hactive : c.inner.state = .active := hframe.active hactive
    have htriggers : c.Triggers e := by
      cases hasks with
      | request => exact hactive
      | heartbeat id aborted helapsed => exact ⟨hactive, aborted, helapsed⟩
    refine triggerServed_triggerRefresh ?_
    intro hrunning
    have hloop : c.CurrentLoop := by
      by_contra hnone
      exact hmeets ⟨htriggers, hframe.refreshLoopRunning ▸ hrunning, hnone⟩
    obtain ⟨id, task, htask, hgen⟩ := hloop
    exact ⟨id, task, hframe.loops ▸ htask, hgen.trans hframe.generation.symm⟩
  · refine triggerServed_of_state ?_
    rw [triggerRefresh_state]
    exact hactive

theorem TriggerServed.handleSleepOrLock {c : Coordinator} (h : c.TriggerServed) (now : Int) :
    (c.handleSleepOrLock now).TriggerServed := by
  rw [Coordinator.handleSleepOrLock]
  split
  · exact h
  · dsimp only
    split <;> exact triggerServed_of_not_requested rfl

theorem TriggerServed.shutdown {c : Coordinator} (h : c.TriggerServed) (reason : ClearReason) :
    (c.shutdown reason).TriggerServed := by
  rw [Coordinator.shutdown]
  split
  · exact h
  · exact triggerServed_of_not_requested rfl

theorem TriggerServed.shutdownJoined {c c' : Coordinator} (h : c.TriggerServed) {id : Nat}
    {now : Int} (hstep : c.shutdownJoined id now = some c') : c'.TriggerServed := by
  rw [Coordinator.shutdownJoined] at hstep
  split at hstep
  · split at hstep
    · split at hstep
      · obtain rfl := Option.some.inj hstep
        exact h.congr rfl rfl rfl rfl
      · obtain rfl := Option.some.inj hstep
        exact h.congr rfl rfl rfl rfl
    · contradiction
  · contradiction

theorem TriggerServed.shutdownFinish {c c' : Coordinator} (h : c.TriggerServed) {id : Nat}
    (hstep : c.shutdownFinish id = some c') : c'.TriggerServed := by
  rw [Coordinator.shutdownFinish] at hstep
  split at hstep
  · split at hstep
    · obtain rfl := Option.some.inj hstep
      exact h.congr rfl rfl rfl rfl
    · contradiction
  · contradiction

theorem TriggerServed.step {c c' : Coordinator} {e : CoordinatorEvent} (h : c.TriggerServed)
    (hinv : c.Inv) (hmeets : ¬ c.MeetsDyingLoop e) (hclient : ¬ c.LosesClient e)
    (hstep : c.step e = some c') : c'.TriggerServed := by
  cases step_frame hstep with
  | framed _ hframe => exact hframe.triggerServed h
  | started _ d hframe hstarts => exact hstarts ▸ (hframe.triggerServed h).startLocked
  | triggered _ d hframe hasks htriggers =>
      exact htriggers ▸ hframe.triggerServed_asked hasks hmeets
  | slept now hsleeps => exact hsleeps ▸ h.handleSleepOrLock now
  | stopped reason hstops => exact hstops ▸ h.shutdown reason
  | discarded hdiscards => exact hdiscards ▸ h.congr rfl rfl rfl rfl
  | shutdownJoined id now hjoins => exact h.shutdownJoined hjoins
  | shutdownFinish id hfinishes => exact h.shutdownFinish hfinishes
  | configureCapabilities id negotiation hnegotiates =>
      exact h.configureCapabilities hmeets hnegotiates
  | loopHead id now hmoves => exact h.loopHead hinv hmoves
  | loopThrottled id now hmoves => exact h.loopThrottled hinv hclient hmoves
  | loopCheck id snapshot hmoves => exact h.loopCheck hinv hmoves
  | loopPublished id result hmoves => exact h.loopPublished hinv hmoves

/-- After a trigger that met a dying loop the coordinator is active, the request is pending and no
loop of the generation is live. -/
theorem not_triggerServed_of_meetsDyingLoop {c c' : Coordinator} {e : CoordinatorEvent}
    (hmeets : c.MeetsDyingLoop e) (hstep : c.step e = some c') : ¬ c'.TriggerServed := by
  obtain ⟨htriggers, hrunning, hnone⟩ := hmeets
  have hlost : c'.inner.state = .active ∧ c'.inner.refreshRequested = true ∧
      c'.loops = c.loops ∧ c'.inner.generation = c.inner.generation := by
    cases e with
    | requestFreshSnapshot =>
        have hactive : c.inner.state = .active := htriggers
        obtain rfl := Option.some.inj hstep
        rw [Coordinator.requestFreshSnapshot, if_pos (Or.inl hactive)]
        exact ⟨(triggerRefresh_state c _).trans hactive, triggerRefresh_refreshRequested c _,
          triggerRefresh_loops_of_running hrunning _, triggerRefresh_generation c _⟩
    | heartbeatFire id =>
        obtain ⟨hactive, aborted, htask⟩ := htriggers
        simp only [Coordinator.step, Coordinator.heartbeatFire, htask] at hstep
        rw [if_neg (not_not.mpr rfl)] at hstep
        obtain rfl := Option.some.inj hstep
        exact ⟨(triggerRefresh_state _ _).trans hactive, triggerRefresh_refreshRequested _ _,
          triggerRefresh_loops_of_running (by exact hrunning) _, triggerRefresh_generation _ _⟩
    | configureCapabilities id negotiation =>
        cases negotiation with
        | none => exact htriggers.elim
        | some outcome =>
            cases outcome with
            | available configuration =>
                obtain ⟨connection, token, htask⟩ := htriggers
                simp only [Coordinator.step, Coordinator.configureCapabilities, htask] at hstep
                rw [if_neg (fun hne => hne rfl)] at hstep
                obtain rfl := Option.some.inj hstep
                exact ⟨triggerRefresh_state _ _, triggerRefresh_refreshRequested _ _,
                  triggerRefresh_loops_of_running (by exact hrunning) _,
                  triggerRefresh_generation _ _⟩
            | clientUpdateRequired => exact htriggers.elim
            | schemaUnsupported => exact htriggers.elim
            | featureUnavailable => exact htriggers.elim
            | invalidCapabilities => exact htriggers.elim
    | _ => exact htriggers.elim
  obtain ⟨hactive, hpending, hloops, hgeneration⟩ := hlost
  intro hserved
  obtain ⟨id, task, htask, hgen⟩ := hserved hactive hpending
  exact hnone ⟨id, task, hloops ▸ htask, hgen.trans hgeneration⟩

theorem not_triggerServed_of_losesClient {c c' : Coordinator} {e : CoordinatorEvent}
    (hinv : c.Inv) (hclient : c.LosesClient e) (hstep : c.step e = some c') :
    ¬ c'.TriggerServed := by
  obtain ⟨id, now, waitMs, rfl, htask, hnone, hactive, hpending⟩ := hclient
  simp only [Coordinator.step, Coordinator.loopThrottled, htask, hnone] at hstep
  rw [if_neg (not_not.mpr rfl)] at hstep
  obtain rfl := Option.some.inj hstep
  intro hserved
  obtain ⟨j, task, hj, -⟩ := hserved hactive hpending
  have hexit := hinv.flight.exit htask
  have hgone : (c.exitLoop id).loops j = none := hexit.none_of_not_running j
  rw [hgone] at hj
  contradiction

/-- Over every run: no trigger is lost in any state exactly if no step lets a trigger meet a dying
loop or a loop with a pending request lose its client. -/
theorem triggersServed_iff (es : List CoordinatorEvent) :
    Throughout Coordinator.step new es TriggerServed ↔
      EveryStep Coordinator.step new es
        (fun c e _ => ¬ c.MeetsDyingLoop e ∧ ¬ c.LosesClient e) := by
  constructor
  · intro hserved n c₁ e c₂ hat
    have hinv : c₁.Inv := inv_run hat.before
    have hafter : c₂.TriggerServed := hserved (n + 1) c₂ hat.after
    exact ⟨fun hmeets => not_triggerServed_of_meetsDyingLoop hmeets hat.step hafter,
      fun hclient => not_triggerServed_of_losesClient hinv hclient hat.step hafter⟩
  · intro hkept n c₁ hc₁
    have htake : EveryStep Coordinator.step new (es.take n)
        (fun c e _ => ¬ c.MeetsDyingLoop e ∧ ¬ c.LosesClient e) := by
      rw [← List.take_append_drop n es] at hkept
      exact hkept.append_left
    have hboth : c₁.Inv ∧ c₁.TriggerServed := by
      refine EveryStep.invariant (I := fun c => c.Inv ∧ c.TriggerServed) ?_ ?_ htake hc₁
      · exact ⟨inv_new, triggerServed_of_state (fun hactive => by cases hactive)⟩
      · intro d e d' hd hcond hstep
        exact ⟨hd.1.step hstep, hd.2.step hd.1 hcond.1 hcond.2 hstep⟩
    exact hboth.2

/-- A start, its first loop in the throttle sleep, then lock and unlock: the configure of the third
generation succeeds while the loop of the first is still live. -/
def lockDuringThrottle : List CoordinatorEvent :=
  [.start] ++ configuredBy 0 ++
    [.loopHead 2 0, .handleSleepOrLock 10, .handleWakeOrUnlock, .joinDone 3, .wakeResume 4] ++
    configuredBy 5

/-- The trigger of the new generation is lost: active, requested, and only the old loop live. -/
theorem triggerServed_fails_lockDuringThrottle :
    ∃ c, exec Coordinator.step new lockDuringThrottle = some c ∧ ¬ c.TriggerServed := by
  have hrun : ∃ c, exec Coordinator.step new lockDuringThrottle = some c ∧
      c.inner.state = .active ∧ c.inner.refreshRequested = true ∧ c.inner.generation = 3 ∧
      c.loops 2 = some ⟨1, .throttled 2000⟩ := ⟨_, rfl, by decide, by decide, by decide, by decide⟩
  obtain ⟨c, hc, hactive, hpending, hgeneration, hold⟩ := hrun
  refine ⟨c, hc, ?_⟩
  intro hserved
  obtain ⟨id, task, htask, hgen⟩ := hserved hactive hpending
  obtain rfl := (inv_run hc).flight.eq_of_some hold htask
  rw [hold] at htask
  obtain rfl := Option.some.inj htask
  rw [hgeneration] at hgen
  contradiction

end Coordinator

end YohakuCore
