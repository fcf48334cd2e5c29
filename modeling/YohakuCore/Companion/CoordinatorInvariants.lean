import YohakuCore.Companion.Coordinator
import YohakuCore.Framework.Execution

/-! # What every coordinator state satisfies -/

namespace YohakuCore

open Framework

def RuntimeState.Publishing (state : RuntimeState) : Prop := state = .active ∨ state = .degraded

def RuntimeState.Retrying (state : RuntimeState) : Prop :=
  state.Publishing ∨ state = .serverFeatureUnavailable

namespace Coordinator

structure Inv (c : Coordinator) : Prop where
  configures : Fits c.configures c.inner.generation (c.inner.state = .connecting)
  uniqueConfigure : ∀ i j t u, c.configures i = some t → c.configures j = some u →
    t.generation = c.inner.generation → u.generation = c.inner.generation → i = j
  loops : Fits c.loops c.inner.generation c.inner.state.Publishing
  heartbeats : Fits c.heartbeats c.inner.generation c.inner.state.Publishing
  retries : Fits c.retries c.inner.generation c.inner.state.Retrying
  flight : SingleFlight c.loops c.inner.refreshLoopRunning
  stopping : c.inner.stopping = true → c.inner.state = .disabled

theorem inv_new : Inv new where
  configures _ _ h := nomatch h
  uniqueConfigure _ _ _ _ h := nomatch h
  loops _ _ h := nomatch h
  heartbeats _ _ h := nomatch h
  retries _ _ h := nomatch h
  flight := by
    refine ⟨fun _ _ h => (nomatch h), fun h => (nomatch h), ?_⟩
    rintro ⟨_, h⟩
    exact nomatch h
  stopping h := nomatch h

theorem fits_abortTimer {timers : Nat → Option (Spawned TimerPc)} {gen : Nat} {current : Prop}
    (h : Fits timers gen current) (handle : Option Nat) :
    Fits (abortTimer timers handle) gen current := by
  cases handle with
  | none => exact h
  | some id =>
      rw [abortTimer]
      cases htimer : timers id with
      | none => exact h.erase id
      | some task =>
          obtain ⟨taskGen, pc⟩ := task
          cases pc with
          | sleeping => exact h.erase id
          | elapsed aborted => exact h.advance htimer (.elapsed true)

theorem Inv.beginNewGeneration {c : Coordinator} (h : c.Inv) (state : RuntimeState)
    (hstate : c.inner.stopping = true → state = .disabled) :
    (c.beginNewGeneration state).Inv where
  configures := h.configures.succ _
  uniqueConfigure i j t u ht _ hgen := by
    have hle := (h.configures i t ht).1
    have heq : t.generation = c.inner.generation + 1 := hgen
    omega
  loops := h.loops.succ _
  heartbeats := (fits_abortTimer h.heartbeats _).succ _
  retries := (fits_abortTimer h.retries _).succ _
  flight := h.flight
  stopping := hstate

theorem Inv.spawnConfigure {c : Coordinator} (h : c.Inv)
    (hstate : c.inner.state = .connecting)
    (hnone : ∀ i t, c.configures i = some t → t.generation ≠ c.inner.generation) :
    c.spawnConfigure.Inv where
  configures := h.configures.set _ (le_refl _) (fun _ => hstate)
  uniqueConfigure i j t u ht hu hgen hgen' := by
    have honly : ∀ k (v : Spawned ConfigurePc), c.spawnConfigure.configures k = some v →
        v.generation = c.inner.generation → k = c.nextTask := by
      intro k v hv hvgen
      by_contra hne
      have hv : Function.update c.configures c.nextTask _ k = some v := hv
      rw [Function.update_of_ne hne] at hv
      exact hnone k v hv hvgen
    exact (honly i t ht hgen).trans (honly j u hu hgen').symm
  loops := h.loops
  heartbeats := h.heartbeats
  retries := h.retries
  flight := h.flight
  stopping := h.stopping

theorem Inv.startLocked {c : Coordinator} (h : c.Inv) : c.startLocked.Inv := by
  rw [Coordinator.startLocked]
  split
  · exact h
  · rename_i hstopping
    have hbegun := h.beginNewGeneration .connecting (fun hs => absurd hs hstopping)
    refine hbegun.spawnConfigure rfl ?_
    intro i t ht hgen
    have hle := (h.configures i t ht).1
    have heq : t.generation = c.inner.generation + 1 := hgen
    omega

theorem Inv.scheduleRetry {c : Coordinator} (h : c.Inv) {gen : Nat}
    (hgen : gen = c.inner.generation) (hstate : c.inner.state.Retrying) :
    (c.scheduleRetry gen).Inv where
  configures := h.configures
  uniqueConfigure := h.uniqueConfigure
  loops := h.loops
  heartbeats := h.heartbeats
  retries := (fits_abortTimer h.retries _).set _ hgen.le (fun _ => hstate)
  flight := h.flight
  stopping := h.stopping

theorem Inv.spawnHeartbeat {c : Coordinator} (h : c.Inv) {gen : Nat}
    (hgen : gen = c.inner.generation) (hstate : c.inner.state.Publishing) :
    (c.spawnHeartbeat gen).Inv where
  configures := h.configures
  uniqueConfigure := h.uniqueConfigure
  loops := h.loops
  heartbeats := (fits_abortTimer h.heartbeats _).set _ hgen.le (fun _ => hstate)
  retries := h.retries
  flight := h.flight
  stopping := h.stopping

theorem Inv.triggerRefresh {c : Coordinator} (h : c.Inv) {gen : Nat}
    (hgen : gen = c.inner.generation) (hstate : c.inner.state.Publishing) :
    (c.triggerRefresh gen).Inv := by
  rw [Coordinator.triggerRefresh]
  split
  · exact ⟨h.configures, h.uniqueConfigure, h.loops, h.heartbeats, h.retries, h.flight, h.stopping⟩
  · rename_i hrunning
    have hflight := h.flight
    rw [Bool.not_eq_true] at hrunning
    rw [hrunning] at hflight
    exact ⟨h.configures, h.uniqueConfigure, h.loops.set _ hgen.le (fun _ => hstate),
      h.heartbeats, h.retries, hflight.spawn _ _, h.stopping⟩

theorem Inv.exitLoop {c : Coordinator} (h : c.Inv) {id : Nat} {task : Spawned LoopPc}
    (htask : c.loops id = some task) : (c.exitLoop id).Inv where
  configures := h.configures
  uniqueConfigure := h.uniqueConfigure
  loops := h.loops.erase id
  heartbeats := h.heartbeats
  retries := h.retries
  flight := h.flight.exit htask
  stopping := h.stopping

theorem Inv.setLoop {c : Coordinator} (h : c.Inv) {id : Nat} {task : Spawned LoopPc}
    (htask : c.loops id = some task) (pc : LoopPc) :
    (c.setLoop id ⟨task.generation, pc⟩).Inv where
  configures := h.configures
  uniqueConfigure := h.uniqueConfigure
  loops := h.loops.advance htask pc
  heartbeats := h.heartbeats
  retries := h.retries
  flight := h.flight.advance htask _
  stopping := h.stopping

theorem Inv.setConfigure {c : Coordinator} (h : c.Inv) {id : Nat} {task : Spawned ConfigurePc}
    (htask : c.configures id = some task) (pc : ConfigurePc) :
    (c.setConfigure id (some ⟨task.generation, pc⟩)).Inv where
  configures := h.configures.advance htask pc
  uniqueConfigure i j t u ht hu hgen hgen' := by
    have hold : ∀ k (v : Spawned ConfigurePc),
        (c.setConfigure id (some ⟨task.generation, pc⟩)).configures k = some v →
        ∃ w, c.configures k = some w ∧ w.generation = v.generation := by
      intro k v hv
      have hv : Function.update c.configures id _ k = some v := hv
      rw [Function.update_apply] at hv
      split at hv
      · rename_i heq
        obtain rfl := Option.some.inj hv
        exact ⟨task, heq ▸ htask, rfl⟩
      · exact ⟨v, hv, rfl⟩
    obtain ⟨t', ht', htgen⟩ := hold i t ht
    obtain ⟨u', hu', hugen⟩ := hold j u hu
    exact h.uniqueConfigure i j t' u' ht' hu' (htgen.trans hgen) (hugen.trans hgen')
  loops := h.loops
  heartbeats := h.heartbeats
  retries := h.retries
  flight := h.flight
  stopping := h.stopping

theorem Inv.endConfigure {c : Coordinator} (h : c.Inv) (id : Nat) :
    (c.setConfigure id none).Inv where
  configures := h.configures.erase id
  uniqueConfigure i j t u ht hu := by
    have hold : ∀ k (v : Spawned ConfigurePc), (c.setConfigure id none).configures k = some v →
        c.configures k = some v := by
      intro k v hv
      have hv : Function.update c.configures id none k = some v := hv
      rw [Function.update_apply] at hv
      split at hv
      · contradiction
      · exact hv
    exact h.uniqueConfigure i j t u (hold i t ht) (hold j u hu)
  loops := h.loops
  heartbeats := h.heartbeats
  retries := h.retries
  flight := h.flight
  stopping := h.stopping

/-- The configure of the current generation ends in any state: it is the only task of its
generation. -/
theorem Inv.finishConfigure {c : Coordinator} (h : c.Inv) {id : Nat} {task : Spawned ConfigurePc}
    (htask : c.configures id = some task) (hgen : task.generation = c.inner.generation)
    (state : RuntimeState) : ((c.setConfigure id none).setState state).Inv := by
  have hconnecting := (h.configures id task htask).2 hgen
  have hnotPublishing : ¬ c.inner.state.Publishing := by
    rw [hconnecting]
    rintro (hactive | hdegraded) <;> contradiction
  have hnotRetrying : ¬ c.inner.state.Retrying := by
    rintro (hpublishing | hfeature)
    · exact hnotPublishing hpublishing
    · rw [hconnecting] at hfeature
      contradiction
  refine ⟨?_, (h.endConfigure id).uniqueConfigure, h.loops.mono (absurd · hnotPublishing),
    h.heartbeats.mono (absurd · hnotPublishing), h.retries.mono (absurd · hnotRetrying), h.flight,
    ?_⟩
  · intro i t ht
    have ht : Function.update c.configures id none i = some t := ht
    rw [Function.update_apply] at ht
    split at ht
    · contradiction
    · rename_i hne
      refine ⟨(h.configures i t ht).1, fun hcurrent => ?_⟩
      exact absurd (h.uniqueConfigure i id t task ht htask hcurrent hgen) hne
  · intro hstopping
    have hdisabled := h.stopping hstopping
    rw [hconnecting] at hdisabled
    contradiction

theorem Inv.setState {c : Coordinator} (h : c.Inv) (hpublishing : c.inner.state.Publishing)
    (state : RuntimeState) (hstate : state.Publishing) : (c.setState state).Inv where
  configures := by
    refine h.configures.mono ?_
    intro hconnecting
    rw [hconnecting] at hpublishing
    rcases hpublishing with hactive | hdegraded <;> contradiction
  uniqueConfigure := h.uniqueConfigure
  loops := h.loops.mono (fun _ => hstate)
  heartbeats := h.heartbeats.mono (fun _ => hstate)
  retries := h.retries.mono (fun _ => Or.inl hstate)
  flight := h.flight
  stopping hstopping := by
    have hdisabled := h.stopping hstopping
    rw [hdisabled] at hpublishing
    rcases hpublishing with hactive | hdegraded <;> contradiction

theorem Inv.congr {c c' : Coordinator} (h : c.Inv)
    (hgeneration : c'.inner.generation = c.inner.generation)
    (hstate : c'.inner.state = c.inner.state)
    (hrunning : c'.inner.refreshLoopRunning = c.inner.refreshLoopRunning)
    (hstopping : c'.inner.stopping = true → c.inner.stopping = true)
    (hconfigures : c'.configures = c.configures) (hloops : c'.loops = c.loops)
    (hheartbeats : c'.heartbeats = c.heartbeats) (hretries : c'.retries = c.retries) :
    c'.Inv := by
  refine ⟨?_, ?_, ?_, ?_, ?_, ?_, ?_⟩
  · rw [hconfigures, hgeneration, hstate]
    exact h.configures
  · rw [hconfigures, hgeneration]
    exact h.uniqueConfigure
  · rw [hloops, hgeneration, hstate]
    exact h.loops
  · rw [hheartbeats, hgeneration, hstate]
    exact h.heartbeats
  · rw [hretries, hgeneration, hstate]
    exact h.retries
  · rw [hloops, hrunning]
    exact h.flight
  · intro hstop
    rw [hstate]
    exact h.stopping (hstopping hstop)

theorem Inv.requestFreshSnapshot {c : Coordinator} (h : c.Inv) : c.requestFreshSnapshot.Inv := by
  rw [Coordinator.requestFreshSnapshot]
  split
  · rename_i hpublishing
    exact h.triggerRefresh rfl hpublishing
  · exact h

theorem Inv.handleSleepOrLock {c : Coordinator} (h : c.Inv) (now : Int) :
    (c.handleSleepOrLock now).Inv := by
  rw [Coordinator.handleSleepOrLock]
  split
  · exact h
  · rename_i hignored
    have hbegun := h.beginNewGeneration .suspended
      (fun hstopping => absurd (Or.inr hstopping) hignored)
    dsimp only
    split
    · exact hbegun.congr rfl rfl rfl id rfl rfl rfl rfl
    · exact hbegun

theorem Inv.handleWakeOrUnlock {c : Coordinator} (h : c.Inv) : c.handleWakeOrUnlock.Inv := by
  rw [Coordinator.handleWakeOrUnlock]
  split
  · exact h.congr rfl rfl rfl id rfl rfl rfl rfl
  · exact h

theorem Inv.shutdown {c : Coordinator} (h : c.Inv) (reason : ClearReason) :
    (c.shutdown reason).Inv := by
  rw [Coordinator.shutdown]
  split
  · exact h
  · have hbegun := h.beginNewGeneration .disabled (fun _ => rfl)
    exact ⟨hbegun.configures, hbegun.uniqueConfigure, hbegun.loops, hbegun.heartbeats,
      hbegun.retries, hbegun.flight, fun _ => rfl⟩

theorem Inv.wakeResume {c c' : Coordinator} (h : c.Inv) {id : Nat}
    (hstep : c.wakeResume id = some c') : c'.Inv := by
  rw [Coordinator.wakeResume] at hstep
  split at hstep
  · split at hstep
    · dsimp only at hstep
      have hremoved : Inv { c with wakes := Function.update c.wakes id none } :=
        h.congr rfl rfl rfl (fun hs => hs) rfl rfl rfl rfl
      split at hstep
      · obtain rfl := Option.some.inj hstep
        exact hremoved
      · obtain rfl := Option.some.inj hstep
        exact hremoved.startLocked
    · contradiction
  · contradiction

theorem Inv.shutdownJoined {c c' : Coordinator} (h : c.Inv) {id : Nat} {now : Int}
    (hstep : c.shutdownJoined id now = some c') : c'.Inv := by
  rw [Coordinator.shutdownJoined] at hstep
  split at hstep
  · split at hstep
    · split at hstep
      · obtain rfl := Option.some.inj hstep
        exact h.congr rfl rfl rfl (fun hs => hs) rfl rfl rfl rfl
      · obtain rfl := Option.some.inj hstep
        exact h.congr rfl rfl rfl (fun hs => hs) rfl rfl rfl rfl
    · contradiction
  · contradiction

theorem Inv.shutdownFinish {c c' : Coordinator} (h : c.Inv) {id : Nat}
    (hstep : c.shutdownFinish id = some c') : c'.Inv := by
  rw [Coordinator.shutdownFinish] at hstep
  split at hstep
  · split at hstep
    · obtain rfl := Option.some.inj hstep
      exact h.congr rfl rfl rfl (fun hs => (nomatch hs)) rfl rfl rfl rfl
    · contradiction
  · contradiction

theorem Inv.retryFire {c c' : Coordinator} (h : c.Inv) {id : Nat}
    (hstep : c.retryFire id = some c') : c'.Inv := by
  rw [Coordinator.retryFire] at hstep
  split at hstep
  · have hremoved : Inv { c with retries := Function.update c.retries id none } :=
      ⟨h.configures, h.uniqueConfigure, h.loops, h.heartbeats, h.retries.erase id, h.flight,
        h.stopping⟩
    dsimp only at hstep
    split at hstep
    · obtain rfl := Option.some.inj hstep
      exact hremoved
    · obtain rfl := Option.some.inj hstep
      exact hremoved.startLocked
  · contradiction

theorem Inv.heartbeatFire {c c' : Coordinator} (h : c.Inv) {id : Nat}
    (hstep : c.heartbeatFire id = some c') : c'.Inv := by
  rw [Coordinator.heartbeatFire] at hstep
  split at hstep
  · rename_i gen aborted htask
    split at hstep
    · obtain rfl := Option.some.inj hstep
      exact ⟨h.configures, h.uniqueConfigure, h.loops, h.heartbeats.erase id, h.retries, h.flight,
        h.stopping⟩
    · rename_i hgen
      rw [not_not] at hgen
      obtain rfl := Option.some.inj hstep
      have hpublishing := (h.heartbeats id _ htask).2 hgen
      have hnext : Fits (Function.update c.heartbeats id
          (if aborted = true then none else some ⟨gen, .sleeping⟩)) c.inner.generation
          c.inner.state.Publishing := by
        split
        · exact h.heartbeats.erase id
        · exact h.heartbeats.advance htask .sleeping
      refine Inv.triggerRefresh ?_ hgen hpublishing
      exact ⟨h.configures, h.uniqueConfigure, h.loops, hnext, h.retries, h.flight, h.stopping⟩
  · contradiction

theorem Inv.configureEntry {c c' : Coordinator} (h : c.Inv) {id : Nat}
    (hstep : c.configureEntry id = some c') : c'.Inv := by
  rw [Coordinator.configureEntry] at hstep
  split at hstep
  · rename_i gen htask
    split at hstep
    · obtain rfl := Option.some.inj hstep
      exact h.endConfigure id
    · obtain rfl := Option.some.inj hstep
      exact h.setConfigure htask .gate
  · contradiction

theorem Inv.configureGate {c c' : Coordinator} (h : c.Inv) {id : Nat}
    {connection : Option StoredConnection}
    (hstep : c.configureGate id connection = some c') : c'.Inv := by
  rw [Coordinator.configureGate] at hstep
  split at hstep
  · rename_i gen htask
    split at hstep
    · obtain rfl := Option.some.inj hstep
      exact h.setConfigure htask _
    · obtain rfl := Option.some.inj hstep
      exact h.setConfigure htask .refused
  · contradiction

theorem Inv.configureRefuse {c c' : Coordinator} (h : c.Inv) {id : Nat}
    (hstep : c.configureRefuse id = some c') : c'.Inv := by
  rw [Coordinator.configureRefuse] at hstep
  split at hstep
  · rename_i gen htask
    split at hstep
    · obtain rfl := Option.some.inj hstep
      exact h.endConfigure id
    · rename_i hgen
      obtain rfl := Option.some.inj hstep
      exact h.finishConfigure htask (not_not.mp hgen) .disabled
  · contradiction

theorem Inv.configureToken {c c' : Coordinator} (h : c.Inv) {id : Nat} {token : Option String}
    {serverAccepted : Bool} (hstep : c.configureToken id token serverAccepted = some c') :
    c'.Inv := by
  rw [Coordinator.configureToken] at hstep
  split at hstep
  · rename_i gen connection htask
    split at hstep
    · obtain rfl := Option.some.inj hstep
      exact h.endConfigure id
    · rename_i hgen
      rw [not_not] at hgen
      have hdegraded := h.finishConfigure htask hgen .degraded
      split at hstep
      · obtain rfl := Option.some.inj hstep
        exact hdegraded.scheduleRetry hgen (Or.inl (Or.inr rfl))
      · split at hstep
        · obtain rfl := Option.some.inj hstep
          exact h.setConfigure htask _
        · obtain rfl := Option.some.inj hstep
          exact hdegraded
  · contradiction

theorem Inv.configureCapabilities {c c' : Coordinator} (h : c.Inv) {id : Nat}
    {negotiation : Option PresenceNegotiation}
    (hstep : c.configureCapabilities id negotiation = some c') : c'.Inv := by
  rw [Coordinator.configureCapabilities] at hstep
  split at hstep
  · rename_i gen connection token htask
    dsimp only at hstep
    split at hstep
    · obtain rfl := Option.some.inj hstep
      exact h.endConfigure id
    · rename_i hgen
      have hgen : gen = c.inner.generation := not_not.mp hgen
      have hdone := h.finishConfigure htask hgen
      split at hstep
      · obtain rfl := Option.some.inj hstep
        exact (hdone .degraded).scheduleRetry hgen (Or.inl (Or.inr rfl))
      · obtain rfl := Option.some.inj hstep
        exact hdone .updateRequired
      · obtain rfl := Option.some.inj hstep
        exact (hdone .serverFeatureUnavailable).scheduleRetry hgen (Or.inr rfl)
      · obtain rfl := Option.some.inj hstep
        exact (hdone .serverFeatureUnavailable).scheduleRetry hgen (Or.inr rfl)
      · obtain rfl := Option.some.inj hstep
        exact (hdone .degraded).scheduleRetry hgen (Or.inl (Or.inr rfl))
      · rename_i configuration
        obtain rfl := Option.some.inj hstep
        have hactive : (((c.setConfigure id none).install connection token configuration).setState
            .active).Inv := (hdone .active).congr rfl rfl rfl (fun hs => hs) rfl rfl rfl rfl
        exact (hactive.spawnHeartbeat hgen (Or.inl rfl)).triggerRefresh hgen (Or.inl rfl)
  · contradiction

theorem Inv.loopHead {c c' : Coordinator} (h : c.Inv) {id : Nat} {now : Int}
    (hstep : c.loopHead id now = some c') : c'.Inv := by
  rw [Coordinator.loopHead] at hstep
  split at hstep
  · rename_i gen htask
    split at hstep
    · obtain rfl := Option.some.inj hstep
      exact h.exitLoop htask
    · obtain rfl := Option.some.inj hstep
      exact (h.setLoop htask _).congr rfl rfl rfl (fun hs => hs) rfl rfl rfl rfl
  · contradiction

theorem Inv.loopThrottled {c c' : Coordinator} (h : c.Inv) {id : Nat} {now : Int}
    (hstep : c.loopThrottled id now = some c') : c'.Inv := by
  rw [Coordinator.loopThrottled] at hstep
  split at hstep
  · rename_i gen waitMs htask
    split at hstep
    · obtain rfl := Option.some.inj hstep
      exact h.exitLoop htask
    · split at hstep
      · obtain rfl := Option.some.inj hstep
        exact h.exitLoop htask
      · obtain rfl := Option.some.inj hstep
        exact (h.setLoop htask _).congr rfl rfl rfl (fun hs => hs) rfl rfl rfl rfl
  · contradiction

theorem Inv.loopCheck {c c' : Coordinator} (h : c.Inv) {id : Nat}
    {snapshot : SanitizedPresenceSnapshot} (hstep : c.loopCheck id snapshot = some c') :
    c'.Inv := by
  rw [Coordinator.loopCheck] at hstep
  split at hstep
  · rename_i gen client includeMedia htask
    split at hstep
    · obtain rfl := Option.some.inj hstep
      exact h.exitLoop htask
    · obtain rfl := Option.some.inj hstep
      exact (h.setLoop htask _).congr rfl rfl rfl (fun hs => hs) rfl rfl rfl rfl
  · contradiction

theorem Inv.loopPublished {c c' : Coordinator} (h : c.Inv) {id : Nat}
    {result : Except PresenceClientError MutationResponse}
    (hstep : c.loopPublished id result = some c') : c'.Inv := by
  rw [Coordinator.loopPublished] at hstep
  split at hstep
  · rename_i gen call htask
    split at hstep
    · obtain rfl := Option.some.inj hstep
      exact h.exitLoop htask
    · rename_i hgen
      rw [not_not] at hgen
      have hpublishing := (h.loops id _ htask).2 hgen
      split at hstep
      · obtain rfl := Option.some.inj hstep
        exact (h.setLoop htask .head).setState hpublishing .active (Or.inl rfl)
      · split at hstep
        · obtain rfl := Option.some.inj hstep
          have hdiscarded : c.discardAuthority.Inv :=
            h.congr rfl rfl rfl (fun hs => hs) rfl rfl rfl rfl
          exact (hdiscarded.exitLoop htask).startLocked
        · obtain rfl := Option.some.inj hstep
          have hdegraded := (h.exitLoop htask).setState hpublishing .degraded (Or.inr rfl)
          exact hdegraded.scheduleRetry hgen (Or.inl (Or.inr rfl))
  · contradiction

theorem Inv.step {c c' : Coordinator} {e : CoordinatorEvent} (h : c.Inv)
    (hstep : c.step e = some c') : c'.Inv := by
  cases e with
  | start => exact Option.some.inj hstep ▸ h.startLocked
  | requestFreshSnapshot => exact Option.some.inj hstep ▸ h.requestFreshSnapshot
  | handleSleepOrLock now => exact Option.some.inj hstep ▸ h.handleSleepOrLock now
  | handleWakeOrUnlock => exact Option.some.inj hstep ▸ h.handleWakeOrUnlock
  | shutdown reason => exact Option.some.inj hstep ▸ h.shutdown reason
  | discardAuthority =>
      obtain rfl := Option.some.inj hstep
      exact h.congr rfl rfl rfl (fun hs => hs) rfl rfl rfl rfl
  | joinDone id =>
      simp only [Coordinator.step, joinDone] at hstep
      split at hstep
      · obtain rfl := Option.some.inj hstep
        exact h.congr rfl rfl rfl (fun hs => hs) rfl rfl rfl rfl
      · contradiction
  | wakeResume id => exact h.wakeResume hstep
  | shutdownJoined id now => exact h.shutdownJoined hstep
  | shutdownFinish id => exact h.shutdownFinish hstep
  | retryElapse id =>
      simp only [Coordinator.step, retryElapse] at hstep
      split at hstep
      · rename_i gen htask
        obtain rfl := Option.some.inj hstep
        exact ⟨h.configures, h.uniqueConfigure, h.loops, h.heartbeats,
          h.retries.advance htask _, h.flight, h.stopping⟩
      · contradiction
  | retryFire id => exact h.retryFire hstep
  | heartbeatTick id =>
      simp only [Coordinator.step, heartbeatTick] at hstep
      split at hstep
      · rename_i gen htask
        obtain rfl := Option.some.inj hstep
        exact ⟨h.configures, h.uniqueConfigure, h.loops, h.heartbeats.advance htask _, h.retries,
          h.flight, h.stopping⟩
      · contradiction
  | heartbeatFire id => exact h.heartbeatFire hstep
  | configureEntry id => exact h.configureEntry hstep
  | configureGate id connection => exact h.configureGate hstep
  | configureRefuse id => exact h.configureRefuse hstep
  | configureToken id token serverAccepted => exact h.configureToken hstep
  | configureCapabilities id negotiation => exact h.configureCapabilities hstep
  | loopHead id now => exact h.loopHead hstep
  | loopThrottled id now => exact h.loopThrottled hstep
  | loopCheck id snapshot => exact h.loopCheck hstep
  | loopPublished id result => exact h.loopPublished hstep

/-- Every reachable coordinator state satisfies the invariant. -/
theorem inv_run {es : List CoordinatorEvent} {c : Coordinator}
    (h : exec Coordinator.step new es = some c) : c.Inv :=
  exec_invariant inv_new (fun _ _ _ hinv hstep => hinv.step hstep) h

/-- What a segment leaves that calls nothing, ends no generation and moves no loop. -/
structure Framed (c d : Coordinator) : Prop where
  calls : d.calls = c.calls
  generation : d.inner.generation = c.inner.generation
  shutdowns : d.shutdowns = c.shutdowns
  loops : d.loops = c.loops
  client : d.inner.client = c.inner.client
  registry : d.inner.registry = c.inner.registry
  refreshRequested : d.inner.refreshRequested = c.inner.refreshRequested
  refreshLoopRunning : d.inner.refreshLoopRunning = c.inner.refreshLoopRunning
  active : d.inner.state = .active → c.inner.state = .active

/-- The triggers that come from outside a configure. -/
inductive Asks (c : Coordinator) : CoordinatorEvent → Prop
  | request : Asks c .requestFreshSnapshot
  | heartbeat (id : Nat) (aborted : Bool)
      (elapsed : c.heartbeats id = some ⟨c.inner.generation, .elapsed aborted⟩) :
      Asks c (.heartbeatFire id)

/-- A step leaves this frame, perhaps starts a generation or triggers a refresh after it; or it is
one of the segments that move the generation, the authority, a clear or a loop. -/
inductive StepFrame (c c' : Coordinator) : CoordinatorEvent → Prop
  | framed (e : CoordinatorEvent) (frame : c.Framed c') : StepFrame c c' e
  | started (e : CoordinatorEvent) (d : Coordinator) (frame : c.Framed d)
      (starts : c' = d.startLocked) : StepFrame c c' e
  | triggered (e : CoordinatorEvent) (d : Coordinator) (frame : c.Framed d) (asks : c.Asks e)
      (triggers : c' = d.triggerRefresh d.inner.generation) : StepFrame c c' e
  | slept (now : Int) (sleeps : c' = c.handleSleepOrLock now) :
      StepFrame c c' (.handleSleepOrLock now)
  | stopped (reason : ClearReason) (stops : c' = c.shutdown reason) :
      StepFrame c c' (.shutdown reason)
  | discarded (discards : c' = c.discardAuthority) : StepFrame c c' .discardAuthority
  | shutdownJoined (id : Nat) (now : Int) (joins : c.shutdownJoined id now = some c') :
      StepFrame c c' (.shutdownJoined id now)
  | shutdownFinish (id : Nat) (finishes : c.shutdownFinish id = some c') :
      StepFrame c c' (.shutdownFinish id)
  | configureCapabilities (id : Nat) (negotiation : Option PresenceNegotiation)
      (negotiates : c.configureCapabilities id negotiation = some c') :
      StepFrame c c' (.configureCapabilities id negotiation)
  | loopHead (id : Nat) (now : Int) (moves : c.loopHead id now = some c') :
      StepFrame c c' (.loopHead id now)
  | loopThrottled (id : Nat) (now : Int) (moves : c.loopThrottled id now = some c') :
      StepFrame c c' (.loopThrottled id now)
  | loopCheck (id : Nat) (snapshot : SanitizedPresenceSnapshot)
      (moves : c.loopCheck id snapshot = some c') : StepFrame c c' (.loopCheck id snapshot)
  | loopPublished (id : Nat) (result : Except PresenceClientError MutationResponse)
      (moves : c.loopPublished id result = some c') : StepFrame c c' (.loopPublished id result)

theorem framed_self (c : Coordinator) : c.Framed c :=
  ⟨rfl, rfl, rfl, rfl, rfl, rfl, rfl, rfl, id⟩

theorem framed_setConfigure (c : Coordinator) (id : Nat) (task : Option (Spawned ConfigurePc)) :
    c.Framed (c.setConfigure id task) :=
  ⟨rfl, rfl, rfl, rfl, rfl, rfl, rfl, rfl, fun hactive => hactive⟩

theorem framed_of_tasks (c : Coordinator) (heartbeats retries : Nat → Option (Spawned TimerPc))
    (joins : Nat → Option Nat) (wakes : Nat → Option (Option Nat)) :
    c.Framed { c with
      heartbeats := heartbeats, retries := retries, joins := joins, wakes := wakes } :=
  ⟨rfl, rfl, rfl, rfl, rfl, rfl, rfl, rfl, fun hactive => hactive⟩

theorem Framed.setState {c d : Coordinator} (h : c.Framed d) {state : RuntimeState}
    (hstate : state ≠ .active) : c.Framed (d.setState state) :=
  { h with active := fun hactive => absurd hactive hstate }

theorem Framed.scheduleRetry {c d : Coordinator} (h : c.Framed d) (gen : Nat) :
    c.Framed (d.scheduleRetry gen) :=
  { h with }

theorem wakeResume_frame {c c' : Coordinator} {id : Nat} (h : c.wakeResume id = some c') :
    StepFrame c c' (.wakeResume id) := by
  have hframe := framed_of_tasks c c.heartbeats c.retries c.joins
    (Function.update c.wakes id none)
  rw [wakeResume] at h
  split at h
  · split at h
    · dsimp only at h
      split at h
      · exact .framed _ (Option.some.inj h ▸ hframe)
      · exact .started _ _ hframe (Option.some.inj h).symm
    · contradiction
  · contradiction

theorem retryFire_frame {c c' : Coordinator} {id : Nat} (h : c.retryFire id = some c') :
    StepFrame c c' (.retryFire id) := by
  have hframe := framed_of_tasks c c.heartbeats (Function.update c.retries id none) c.joins c.wakes
  rw [retryFire] at h
  split at h
  · dsimp only at h
    split at h
    · exact .framed _ (Option.some.inj h ▸ hframe)
    · exact .started _ _ hframe (Option.some.inj h).symm
  · contradiction

theorem heartbeatFire_frame {c c' : Coordinator} {id : Nat} (h : c.heartbeatFire id = some c') :
    StepFrame c c' (.heartbeatFire id) := by
  rw [heartbeatFire] at h
  split at h
  · rename_i gen aborted hheartbeat
    split at h
    · obtain rfl := Option.some.inj h
      exact .framed _ (framed_of_tasks c _ c.retries c.joins c.wakes)
    · rename_i hgen
      obtain rfl : gen = c.inner.generation := not_not.mp hgen
      obtain rfl := Option.some.inj h
      exact .triggered _ _ (framed_of_tasks c _ c.retries c.joins c.wakes)
        (.heartbeat id aborted hheartbeat) rfl
  · contradiction

theorem configureToken_framed {c c' : Coordinator} {id : Nat} {token : Option String}
    {serverAccepted : Bool} (h : c.configureToken id token serverAccepted = some c') :
    c.Framed c' := by
  rw [configureToken] at h
  split at h
  · split at h
    · obtain rfl := Option.some.inj h
      exact framed_setConfigure c id _
    · split at h
      · obtain rfl := Option.some.inj h
        exact ((framed_setConfigure c id _).setState (by decide)).scheduleRetry _
      · split at h
        · obtain rfl := Option.some.inj h
          exact framed_setConfigure c id _
        · obtain rfl := Option.some.inj h
          exact (framed_setConfigure c id _).setState (by decide)
  · contradiction

theorem step_frame {c c' : Coordinator} {e : CoordinatorEvent} (h : c.step e = some c') :
    StepFrame c c' e := by
  cases e with
  | start => exact .started _ c (framed_self c) (Option.some.inj h).symm
  | requestFreshSnapshot =>
      obtain rfl := Option.some.inj h
      rw [requestFreshSnapshot]
      split
      · exact .triggered _ c (framed_self c) .request rfl
      · exact .framed _ (framed_self c)
  | handleSleepOrLock now => exact .slept now (Option.some.inj h).symm
  | handleWakeOrUnlock =>
      obtain rfl := Option.some.inj h
      rw [handleWakeOrUnlock]
      split
      · exact .framed _ ⟨rfl, rfl, rfl, rfl, rfl, rfl, rfl, rfl, fun hactive => hactive⟩
      · exact .framed _ (framed_self c)
  | shutdown reason => exact .stopped reason (Option.some.inj h).symm
  | discardAuthority => exact .discarded (Option.some.inj h).symm
  | joinDone id =>
      simp only [step, joinDone] at h
      split at h
      · obtain rfl := Option.some.inj h
        exact .framed _ (framed_of_tasks c c.heartbeats c.retries _ c.wakes)
      · contradiction
  | wakeResume id => exact wakeResume_frame h
  | shutdownJoined id now => exact .shutdownJoined id now h
  | shutdownFinish id => exact .shutdownFinish id h
  | retryElapse id =>
      simp only [step, retryElapse] at h
      split at h
      · obtain rfl := Option.some.inj h
        exact .framed _ (framed_of_tasks c c.heartbeats _ c.joins c.wakes)
      · contradiction
  | retryFire id => exact retryFire_frame h
  | heartbeatTick id =>
      simp only [step, heartbeatTick] at h
      split at h
      · obtain rfl := Option.some.inj h
        exact .framed _ (framed_of_tasks c _ c.retries c.joins c.wakes)
      · contradiction
  | heartbeatFire id => exact heartbeatFire_frame h
  | configureEntry id =>
      simp only [step, configureEntry] at h
      split at h
      · split at h
        · exact .framed _ (Option.some.inj h ▸ framed_setConfigure c id _)
        · exact .framed _ (Option.some.inj h ▸ framed_setConfigure c id _)
      · contradiction
  | configureGate id connection =>
      simp only [step, configureGate] at h
      split at h
      · split at h
        · exact .framed _ (Option.some.inj h ▸ framed_setConfigure c id _)
        · exact .framed _ (Option.some.inj h ▸ framed_setConfigure c id _)
      · contradiction
  | configureRefuse id =>
      simp only [step, configureRefuse] at h
      split at h
      · split at h
        · obtain rfl := Option.some.inj h
          exact .framed _ (framed_setConfigure c id none)
        · obtain rfl := Option.some.inj h
          exact .framed _ ((framed_setConfigure c id none).setState (by decide))
      · contradiction
  | configureToken id token serverAccepted => exact .framed _ (configureToken_framed h)
  | configureCapabilities id negotiation => exact .configureCapabilities id negotiation h
  | loopHead id now => exact .loopHead id now h
  | loopThrottled id now => exact .loopThrottled id now h
  | loopCheck id snapshot => exact .loopCheck id snapshot h
  | loopPublished id result => exact .loopPublished id result h

/-- A step calls at most one mutation: a publish past its check, the clear of a sleep, or the final
clear of a shutdown. -/
inductive Calls (c : Coordinator) : CoordinatorEvent → List PresenceCall → Prop where
  | none (e : CoordinatorEvent) : Calls c e []
  | publish (id : Nat) (snapshot : SanitizedPresenceSnapshot) (client : PresenceClient)
      (includeMedia : Bool)
      (capturing : c.loops id = some ⟨c.inner.generation, .capturing client includeMedia⟩) :
      Calls c (.loopCheck id snapshot)
        [.replacePresence c.inner.generation client snapshot c.inner.requestedLeaseSeconds]
  | sleep (now : Int) (client : PresenceClient) (held : c.inner.client = some client)
      (effective : ¬ (c.inner.state = .suspended ∨ c.inner.stopping = true)) :
      Calls c (.handleSleepOrLock now)
        [.clearPresence c.inner.generation client .sleep now]
  | shutdown (id : Nat) (now : Int) (reason : ClearReason) (ended : Nat)
      (client : PresenceClient) (pending : Option Nat)
      (joining : c.shutdowns id = some (.joining reason ended (some client) false pending)) :
      Calls c (.shutdownJoined id now) [.clearPresence ended client reason now]

/-- The calls that end the current generation: a sleep or a shutdown that is not ignored. -/
def EndsGeneration (c : Coordinator) : CoordinatorEvent → Prop
  | .handleSleepOrLock _ => ¬ (c.inner.state = .suspended ∨ c.inner.stopping = true)
  | .shutdown _ => c.inner.stopping = false
  | _ => False

/-- What every step respects: calls are only added, generations only rise, and a shutdown joins for
the generation it ended, with the client it found. -/
structure Grows (c : Coordinator) (e : CoordinatorEvent) (c' : Coordinator) : Prop where
  calls : ∃ later, c.Calls e later ∧ c'.calls = c.calls ++ later
  generation : c.inner.generation ≤ c'.inner.generation
  shutdowns : ∀ id reason ended client wasSuspended pending,
    c'.shutdowns id = some (.joining reason ended client wasSuspended pending) →
      c.shutdowns id = some (.joining reason ended client wasSuspended pending) ∨
        (c.EndsGeneration e ∧ ended = c.inner.generation ∧ client = c.inner.client)

@[simp] theorem startLocked_calls (c : Coordinator) : c.startLocked.calls = c.calls := by
  rw [startLocked]
  split <;> rfl

@[simp] theorem triggerRefresh_calls (c : Coordinator) (gen : Nat) :
    (c.triggerRefresh gen).calls = c.calls := by
  rw [triggerRefresh]
  split <;> rfl

theorem startLocked_generation (c : Coordinator) :
    c.inner.generation ≤ c.startLocked.inner.generation := by
  rw [startLocked]
  split
  · exact le_refl _
  · exact Nat.le_succ _

@[simp] theorem startLocked_shutdowns (c : Coordinator) :
    c.startLocked.shutdowns = c.shutdowns := by
  rw [startLocked]
  split <;> rfl

@[simp] theorem triggerRefresh_shutdowns (c : Coordinator) (gen : Nat) :
    (c.triggerRefresh gen).shutdowns = c.shutdowns := by
  rw [triggerRefresh]
  split <;> rfl

theorem Grows.startLocked {c d : Coordinator} {e : CoordinatorEvent} (h : c.Grows e d) :
    c.Grows e d.startLocked := by
  refine ⟨?_, h.generation.trans (startLocked_generation d), ?_⟩
  · rw [startLocked_calls]
    exact h.calls
  · rw [startLocked_shutdowns]
    exact h.shutdowns

theorem Grows.triggerRefresh {c d : Coordinator} {e : CoordinatorEvent} (h : c.Grows e d)
    (gen : Nat) : c.Grows e (d.triggerRefresh gen) := by
  refine ⟨?_, ?_, ?_⟩
  · rw [triggerRefresh_calls]
    exact h.calls
  · rw [triggerRefresh_generation]
    exact h.generation
  · rw [triggerRefresh_shutdowns]
    exact h.shutdowns

theorem handleSleepOrLock_calls (c : Coordinator) (now : Int) :
    ∃ later, c.Calls (.handleSleepOrLock now) later ∧
      (c.handleSleepOrLock now).calls = c.calls ++ later := by
  rw [handleSleepOrLock]
  split
  · exact ⟨[], .none _, (List.append_nil _).symm⟩
  · rename_i heffective
    dsimp only
    split
    · rename_i client hclient
      exact ⟨_, .sleep now client hclient heffective, rfl⟩
    · exact ⟨[], .none _, (List.append_nil _).symm⟩

theorem handleSleepOrLock_grows (c : Coordinator) (now : Int) :
    c.Grows (.handleSleepOrLock now) (c.handleSleepOrLock now) := by
  refine ⟨handleSleepOrLock_calls c now, ?_, ?_⟩
  · rw [handleSleepOrLock]
    split
    · exact le_refl _
    · dsimp only
      split <;> exact Nat.le_succ _
  · intro id reason ended client wasSuspended pending hjoining
    refine Or.inl ?_
    rw [handleSleepOrLock] at hjoining
    split at hjoining
    · exact hjoining
    · dsimp only at hjoining
      split at hjoining <;> exact hjoining

theorem shutdown_grows (c : Coordinator) (reason : ClearReason) :
    c.Grows (.shutdown reason) (c.shutdown reason) := by
  rw [shutdown]
  split
  · exact ⟨⟨[], .none _, (List.append_nil _).symm⟩, le_refl _, fun _ _ _ _ _ _ h => Or.inl h⟩
  · rename_i hstopping
    refine ⟨⟨[], .none _, (List.append_nil _).symm⟩, Nat.le_succ _, ?_⟩
    intro id reason' ended client wasSuspended pending hjoining
    have hjoining : Function.update c.shutdowns c.nextTask _ id =
        some (.joining reason' ended client wasSuspended pending) := hjoining
    rw [Function.update_apply] at hjoining
    split at hjoining
    · obtain ⟨-, rfl, rfl, -, -⟩ := ShutdownPc.joining.inj (Option.some.inj hjoining)
      exact Or.inr ⟨(Bool.not_eq_true _).mp hstopping, rfl, rfl⟩
    · exact Or.inl hjoining

theorem shutdownJoined_calls {c c' : Coordinator} {id : Nat} {now : Int}
    (h : c.shutdownJoined id now = some c') :
    ∃ later, c.Calls (.shutdownJoined id now) later ∧ c'.calls = c.calls ++ later := by
  rw [shutdownJoined] at h
  split at h
  · rename_i reason ended client wasSuspended pending hjoining
    split at h
    · split at h
      · rename_i client' hclient
        obtain rfl := Option.some.inj h
        cases wasSuspended with
        | true => contradiction
        | false =>
            obtain rfl : client = some client' := hclient
            exact ⟨_, .shutdown id now reason ended client' pending hjoining, rfl⟩
      · obtain rfl := Option.some.inj h
        exact ⟨[], .none _, (List.append_nil _).symm⟩
    · contradiction
  · contradiction

private theorem joining_of_update {shutdowns : Nat → Option ShutdownPc} {id j : Nat}
    {pc : Option ShutdownPc} {reason : ClearReason} {ended : Nat}
    {client : Option PresenceClient} {wasSuspended : Bool} {pending : Option Nat}
    (hpc : pc = none ∨ ∃ join, pc = some (.clearing join))
    (h : Function.update shutdowns id pc j =
      some (.joining reason ended client wasSuspended pending)) :
    shutdowns j = some (.joining reason ended client wasSuspended pending) := by
  rw [Function.update_apply] at h
  split at h
  · rcases hpc with rfl | ⟨join, rfl⟩
    · contradiction
    · exact nomatch Option.some.inj h
  · exact h

theorem shutdownJoined_grows {c c' : Coordinator} {id : Nat} {now : Int}
    (h : c.shutdownJoined id now = some c') : c.Grows (.shutdownJoined id now) c' := by
  have hcalls := shutdownJoined_calls h
  rw [shutdownJoined] at h
  split at h
  · split at h
    · split at h
      · obtain rfl := Option.some.inj h
        exact ⟨hcalls, le_refl _, fun _ _ _ _ _ _ hj =>
          Or.inl (joining_of_update (Or.inr ⟨_, rfl⟩) hj)⟩
      · obtain rfl := Option.some.inj h
        exact ⟨hcalls, le_refl _, fun _ _ _ _ _ _ hj =>
          Or.inl (joining_of_update (Or.inr ⟨_, rfl⟩) hj)⟩
    · contradiction
  · contradiction

theorem shutdownFinish_grows {c c' : Coordinator} {id : Nat}
    (h : c.shutdownFinish id = some c') : c.Grows (.shutdownFinish id) c' := by
  rw [shutdownFinish] at h
  split at h
  · split at h
    · obtain rfl := Option.some.inj h
      exact ⟨⟨[], .none _, (List.append_nil _).symm⟩, le_refl _, fun _ _ _ _ _ _ hj =>
        Or.inl (joining_of_update (Or.inl rfl) hj)⟩
    · contradiction
  · contradiction

theorem loopCheck_calls {c c' : Coordinator} {id : Nat} {snapshot : SanitizedPresenceSnapshot}
    (h : c.loopCheck id snapshot = some c') :
    ∃ later, c.Calls (.loopCheck id snapshot) later ∧ c'.calls = c.calls ++ later := by
  rw [loopCheck] at h
  split at h
  · rename_i gen client includeMedia htask
    split at h
    · obtain rfl := Option.some.inj h
      exact ⟨[], .none _, (List.append_nil _).symm⟩
    · rename_i hgen
      obtain rfl := not_not.mp hgen
      obtain rfl := Option.some.inj h
      exact ⟨_, .publish id snapshot client includeMedia htask, rfl⟩
  · contradiction

theorem grows_of_same {c d : Coordinator} (e : CoordinatorEvent) (hcalls : d.calls = c.calls)
    (hgeneration : d.inner.generation = c.inner.generation)
    (hshutdowns : d.shutdowns = c.shutdowns) : c.Grows e d :=
  ⟨⟨[], .none _, hcalls.trans (List.append_nil _).symm⟩, hgeneration.ge,
    fun _ _ _ _ _ _ hj => Or.inl (hshutdowns ▸ hj)⟩

theorem Framed.grows {c d : Coordinator} (h : c.Framed d) (e : CoordinatorEvent) : c.Grows e d :=
  grows_of_same e h.calls h.generation h.shutdowns

theorem configureCapabilities_grows {c c' : Coordinator} {id : Nat}
    {negotiation : Option PresenceNegotiation}
    (h : c.configureCapabilities id negotiation = some c') :
    c.Grows (.configureCapabilities id negotiation) c' := by
  rw [configureCapabilities] at h
  split at h
  · dsimp only at h
    split at h
    · obtain rfl := Option.some.inj h
      exact grows_of_same _ rfl rfl rfl
    · cases negotiation with
      | none =>
          obtain rfl := Option.some.inj h
          exact grows_of_same _ rfl rfl rfl
      | some outcome =>
          cases outcome with
          | available configuration =>
              obtain rfl := Option.some.inj h
              refine Grows.triggerRefresh ?_ _
              exact grows_of_same _ rfl rfl rfl
          | clientUpdateRequired | schemaUnsupported | featureUnavailable | invalidCapabilities =>
              obtain rfl := Option.some.inj h
              exact grows_of_same _ rfl rfl rfl
  · contradiction

theorem loopHead_grows {c c' : Coordinator} {id : Nat} {now : Int}
    (h : c.loopHead id now = some c') : c.Grows (.loopHead id now) c' := by
  rw [loopHead] at h
  split at h
  · split at h <;> obtain rfl := Option.some.inj h <;> exact grows_of_same _ rfl rfl rfl
  · contradiction

theorem loopThrottled_grows {c c' : Coordinator} {id : Nat} {now : Int}
    (h : c.loopThrottled id now = some c') : c.Grows (.loopThrottled id now) c' := by
  rw [loopThrottled] at h
  split at h
  · split at h
    · obtain rfl := Option.some.inj h
      exact grows_of_same _ rfl rfl rfl
    · split at h <;> obtain rfl := Option.some.inj h <;> exact grows_of_same _ rfl rfl rfl
  · contradiction

theorem loopCheck_grows {c c' : Coordinator} {id : Nat} {snapshot : SanitizedPresenceSnapshot}
    (h : c.loopCheck id snapshot = some c') : c.Grows (.loopCheck id snapshot) c' := by
  have hcalls := loopCheck_calls h
  rw [loopCheck] at h
  split at h
  · split at h
    · obtain rfl := Option.some.inj h
      exact ⟨hcalls, le_refl _, fun _ _ _ _ _ _ hj => Or.inl hj⟩
    · obtain rfl := Option.some.inj h
      exact ⟨hcalls, le_refl _, fun _ _ _ _ _ _ hj => Or.inl hj⟩
  · contradiction

theorem loopPublished_grows {c c' : Coordinator} {id : Nat}
    {result : Except PresenceClientError MutationResponse}
    (h : c.loopPublished id result = some c') : c.Grows (.loopPublished id result) c' := by
  rw [loopPublished] at h
  split at h
  · split at h
    · obtain rfl := Option.some.inj h
      exact grows_of_same _ rfl rfl rfl
    · split at h
      · obtain rfl := Option.some.inj h
        exact grows_of_same _ rfl rfl rfl
      · split at h
        · obtain rfl := Option.some.inj h
          exact Grows.startLocked (grows_of_same _ rfl rfl rfl)
        · obtain rfl := Option.some.inj h
          exact grows_of_same _ rfl rfl rfl
  · contradiction

theorem step_grows {c c' : Coordinator} {e : CoordinatorEvent} (h : c.step e = some c') :
    c.Grows e c' := by
  cases step_frame h with
  | framed _ hframe => exact hframe.grows e
  | started _ d hframe hstarts => exact hstarts ▸ (hframe.grows e).startLocked
  | triggered _ d hframe _ htriggers => exact htriggers ▸ (hframe.grows e).triggerRefresh _
  | slept now hsleeps => exact hsleeps ▸ handleSleepOrLock_grows c now
  | stopped reason hstops => exact hstops ▸ shutdown_grows c reason
  | discarded hdiscards => exact hdiscards ▸ grows_of_same _ rfl rfl rfl
  | shutdownJoined id now hjoins => exact shutdownJoined_grows hjoins
  | shutdownFinish id hfinishes => exact shutdownFinish_grows hfinishes
  | configureCapabilities id negotiation hnegotiates =>
      exact configureCapabilities_grows hnegotiates
  | loopHead id now hmoves => exact loopHead_grows hmoves
  | loopThrottled id now hmoves => exact loopThrottled_grows hmoves
  | loopCheck id snapshot hmoves => exact loopCheck_grows hmoves
  | loopPublished id result hmoves => exact loopPublished_grows hmoves

theorem step_calls {c c' : Coordinator} {e : CoordinatorEvent} (h : c.step e = some c') :
    ∃ later, c.Calls e later ∧ c'.calls = c.calls ++ later := (step_grows h).calls

def enabledConnection : StoredConnection where
  baseUrl := "https://example.org"
  deviceId := "device"
  deviceName := "desk"
  scopes := []
  pairingNextSequence := 1
  liveDeskEnabled := true

def negotiatedLimits : CapabilitiesLimits where
  presencePayloadBytes := 32768
  presenceRequestsPerMinute := 30
  presenceLeaseMinSeconds := 15
  presenceLeaseMaxSeconds := 300
  recommendedHeartbeatSeconds := 30
  maximumClockSkewSeconds := 60

def negotiatedConfiguration : NegotiatedPresenceConfiguration :=
  YohakuCore.negotiatedConfiguration true negotiatedLimits

theorem isNegotiated_negotiatedConfiguration : IsNegotiated negotiatedConfiguration :=
  ⟨true, negotiatedLimits, by decide, by decide, rfl⟩

/-- All segments of the configure task `id`, with the answers that make it succeed. -/
def configuredBy (id : Nat) : List CoordinatorEvent :=
  [.configureEntry id, .configureGate id (some enabledConnection),
    .configureToken id (some "token") true,
    .configureCapabilities id (some (.available negotiatedConfiguration))]

example : (exec Coordinator.step new (.start :: configuredBy 0)).map (·.inner.state) =
    some .active := by decide

end Coordinator

end YohakuCore
