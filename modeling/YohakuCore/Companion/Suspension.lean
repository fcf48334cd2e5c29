import YohakuCore.Companion.CoordinatorInvariants

/-!
# Leaving the suspended state

All segments check their generation but two: `start`, and the wake task, which only looks at the
state.
-/

namespace YohakuCore

open Framework

namespace Coordinator

/-- The calls that publish; the others are clears. -/
def publishes (c : Coordinator) : List PresenceCall :=
  c.calls.filter (fun call =>
    match call with
    | .replacePresence _ _ _ _ => true
    | .clearPresence _ _ _ _ => false)

/-- What a step must keep during a suspension: the state, the generation (nothing was started), no
new publish, and every configure is of an ended generation, so that the first locked segment after
its gate ends it. -/
structure KeepsSuspended (c : Coordinator) (e : CoordinatorEvent) (c' : Coordinator) : Prop where
  state : c'.inner.state = .suspended
  generation : c'.inner.generation = c.inner.generation
  published : c'.publishes = c.publishes
  stale : ∀ id task, c'.configures id = some task → task.generation < c'.inner.generation
  gate : ∀ id token serverAccepted, e = .configureToken id token serverAccepted →
    c'.configures id = none ∧ c'.inner = c.inner

/-- The calls that may end a suspension, as the source means it. -/
def CoordinatorEvent.EndsSuspension : CoordinatorEvent → Prop
  | .handleWakeOrUnlock => True
  | .shutdown _ => True
  | _ => False

/-- The steps that start without looking at the generation. -/
def CoordinatorEvent.Restarts : CoordinatorEvent → Prop
  | .start => True
  | .wakeResume _ => True
  | _ => False

/-- What a step must leave in place for the suspension to go on. -/
structure Suspended (c : Coordinator) : Prop where
  inv : c.Inv
  state : c.inner.state = .suspended
  running : c.inner.stopping = false

theorem Suspended.not_publishing {c : Coordinator} (h : c.Suspended) :
    ¬ c.inner.state.Publishing := by
  rw [h.state]
  rintro (hactive | hdegraded) <;> contradiction

theorem Suspended.configure_stale {c : Coordinator} (h : c.Suspended) {id : Nat}
    {task : Spawned ConfigurePc} (htask : c.configures id = some task) :
    task.generation ≠ c.inner.generation := by
  intro hgen
  have hconnecting := (h.inv.configures id task htask).2 hgen
  rw [h.state] at hconnecting
  contradiction

theorem Suspended.loop_stale {c : Coordinator} (h : c.Suspended) {id : Nat}
    {task : Spawned LoopPc} (htask : c.loops id = some task) :
    task.generation ≠ c.inner.generation :=
  fun hgen => h.not_publishing ((h.inv.loops id task htask).2 hgen)

theorem Suspended.heartbeat_stale {c : Coordinator} (h : c.Suspended) {id : Nat}
    {task : Spawned TimerPc} (htask : c.heartbeats id = some task) :
    task.generation ≠ c.inner.generation :=
  fun hgen => h.not_publishing ((h.inv.heartbeats id task htask).2 hgen)

theorem Suspended.retry_stale {c : Coordinator} (h : c.Suspended) {id : Nat}
    {task : Spawned TimerPc} (htask : c.retries id = some task) :
    task.generation ≠ c.inner.generation := by
  intro hgen
  rcases (h.inv.retries id task htask).2 hgen with hpublishing | hfeature
  · exact h.not_publishing hpublishing
  · rw [h.state] at hfeature
    contradiction

/-- The part of the coordinator that a suspension must not see changed. -/
def SameSuspension (c c' : Coordinator) : Prop :=
  c'.inner.state = c.inner.state ∧ c'.inner.generation = c.inner.generation ∧
    c'.inner.stopping = false ∧ c'.publishes = c.publishes

theorem Suspended.same {c : Coordinator} (h : c.Suspended) : c.SameSuspension c :=
  ⟨rfl, rfl, h.running, rfl⟩

theorem publishes_concat_clear {c : Coordinator} {calls : List PresenceCall} {ended : Nat}
    {client : PresenceClient} {reason : ClearReason} {now : Int}
    (h : c.calls = calls ++ [.clearPresence ended client reason now]) :
    c.publishes = calls.filter (fun call =>
      match call with
      | .replacePresence _ _ _ _ => true
      | .clearPresence _ _ _ _ => false) := by
  rw [publishes, h, List.filter_append]
  exact List.append_nil _

theorem Suspended.shutdownJoined {c c' : Coordinator} (h : c.Suspended) {id : Nat} {now : Int}
    (hstep : c.shutdownJoined id now = some c') : c.SameSuspension c' := by
  rw [Coordinator.shutdownJoined] at hstep
  split at hstep
  · split at hstep
    · split at hstep
      · obtain rfl := Option.some.inj hstep
        exact ⟨rfl, rfl, h.running, publishes_concat_clear rfl⟩
      · obtain rfl := Option.some.inj hstep
        exact ⟨rfl, rfl, h.running, rfl⟩
    · contradiction
  · contradiction

theorem Suspended.loop_exits {c c' : Coordinator} (h : c.Suspended) {e : CoordinatorEvent}
    {id : Nat} (he : (∃ now, e = .loopHead id now) ∨ (∃ now, e = .loopThrottled id now) ∨
      (∃ snapshot, e = .loopCheck id snapshot) ∨ ∃ result, e = .loopPublished id result)
    (hstep : c.step e = some c') : c' = c.exitLoop id := by
  rcases he with ⟨now, rfl⟩ | ⟨now, rfl⟩ | ⟨snapshot, rfl⟩ | ⟨result, rfl⟩
  · simp only [Coordinator.step, loopHead] at hstep
    split at hstep
    · rename_i gen htask
      rw [if_pos (Or.inl (h.loop_stale htask))] at hstep
      exact (Option.some.inj hstep).symm
    · contradiction
  · simp only [Coordinator.step, loopThrottled] at hstep
    split at hstep
    · rename_i gen waitMs htask
      rw [if_pos (h.loop_stale htask)] at hstep
      exact (Option.some.inj hstep).symm
    · contradiction
  · simp only [Coordinator.step, loopCheck] at hstep
    split at hstep
    · rename_i gen client includeMedia htask
      rw [if_pos (h.loop_stale htask)] at hstep
      exact (Option.some.inj hstep).symm
    · contradiction
  · simp only [Coordinator.step, loopPublished] at hstep
    split at hstep
    · rename_i gen call htask
      rw [if_pos (h.loop_stale htask)] at hstep
      exact (Option.some.inj hstep).symm
    · contradiction

/-- A configure segment of a suspended coordinator ends the task or moves it to or past the gate,
and never touches the lock's contents. -/
theorem Suspended.configure_inert {c c' : Coordinator} (h : c.Suspended) {e : CoordinatorEvent}
    {id : Nat} (he : e = .configureEntry id ∨ (∃ connection, e = .configureGate id connection) ∨
      e = .configureRefuse id ∨ (∃ token accepted, e = .configureToken id token accepted) ∨
      ∃ negotiation, e = .configureCapabilities id negotiation)
    (hstep : c.step e = some c') :
    ∃ task, c' = c.setConfigure id task ∧
      ((∀ connection, e ≠ .configureGate id connection) → task = none) := by
  rcases he with rfl | ⟨connection, rfl⟩ | rfl | ⟨token, accepted, rfl⟩ | ⟨negotiation, rfl⟩
  · simp only [Coordinator.step, configureEntry] at hstep
    split at hstep
    · rename_i gen htask
      rw [if_pos (h.configure_stale htask)] at hstep
      exact ⟨none, (Option.some.inj hstep).symm, fun _ => rfl⟩
    · contradiction
  · simp only [Coordinator.step, configureGate] at hstep
    split at hstep
    · split at hstep
      · exact ⟨_, (Option.some.inj hstep).symm, fun hne => absurd rfl (hne connection)⟩
      · exact ⟨_, (Option.some.inj hstep).symm, fun hne => absurd rfl (hne connection)⟩
    · contradiction
  · simp only [Coordinator.step, configureRefuse] at hstep
    split at hstep
    · rename_i gen htask
      rw [if_pos (h.configure_stale htask)] at hstep
      exact ⟨none, (Option.some.inj hstep).symm, fun _ => rfl⟩
    · contradiction
  · simp only [Coordinator.step, configureToken] at hstep
    split at hstep
    · rename_i gen connection htask
      rw [if_pos (h.configure_stale htask)] at hstep
      exact ⟨none, (Option.some.inj hstep).symm, fun _ => rfl⟩
    · contradiction
  · simp only [Coordinator.step, configureCapabilities] at hstep
    split at hstep
    · rename_i gen connection token htask
      have hstale : gen ≠ (c.setConfigure id none).inner.generation := h.configure_stale htask
      rw [if_pos hstale] at hstep
      exact ⟨none, (Option.some.inj hstep).symm, fun _ => rfl⟩
    · contradiction

/-- Neither a call that means to end the suspension nor a restart: the step changes nothing that
the suspension is about. -/
theorem Suspended.step_same {c c' : Coordinator} (h : c.Suspended) {e : CoordinatorEvent}
    (hends : ¬ CoordinatorEvent.EndsSuspension e) (hrestarts : ¬ CoordinatorEvent.Restarts e)
    (hstep : c.step e = some c') : c.SameSuspension c' := by
  have hconfigure : ∀ id, (∃ task, c' = c.setConfigure id task ∧
      ((∀ connection, e ≠ .configureGate id connection) → task = none)) →
      c.SameSuspension c' := by
    rintro id ⟨task, rfl, -⟩
    exact ⟨rfl, rfl, h.running, rfl⟩
  have hloop : ∀ id, c' = c.exitLoop id → c.SameSuspension c' := by
    rintro id rfl
    exact ⟨rfl, rfl, h.running, rfl⟩
  cases e with
  | start => exact absurd trivial hrestarts
  | wakeResume id => exact absurd trivial hrestarts
  | handleWakeOrUnlock => exact absurd trivial hends
  | shutdown reason => exact absurd trivial hends
  | requestFreshSnapshot =>
      obtain rfl := Option.some.inj hstep
      have hnot : ¬ (c.inner.state = .active ∨ c.inner.state = .degraded) := h.not_publishing
      rw [Coordinator.requestFreshSnapshot, if_neg hnot]
      exact h.same
  | handleSleepOrLock now =>
      obtain rfl := Option.some.inj hstep
      rw [Coordinator.handleSleepOrLock, if_pos (Or.inl h.state)]
      exact h.same
  | discardAuthority =>
      obtain rfl := Option.some.inj hstep
      exact ⟨rfl, rfl, h.running, rfl⟩
  | joinDone id =>
      simp only [Coordinator.step, joinDone] at hstep
      split at hstep
      · obtain rfl := Option.some.inj hstep
        exact ⟨rfl, rfl, h.running, rfl⟩
      · contradiction
  | shutdownJoined id now => exact h.shutdownJoined hstep
  | shutdownFinish id =>
      simp only [Coordinator.step, shutdownFinish] at hstep
      split at hstep
      · split at hstep
        · obtain rfl := Option.some.inj hstep
          exact ⟨rfl, rfl, rfl, rfl⟩
        · contradiction
      · contradiction
  | retryElapse id =>
      simp only [Coordinator.step, retryElapse] at hstep
      split at hstep
      · obtain rfl := Option.some.inj hstep
        exact ⟨rfl, rfl, h.running, rfl⟩
      · contradiction
  | retryFire id =>
      simp only [Coordinator.step, retryFire] at hstep
      split at hstep
      · rename_i gen aborted htask
        rw [if_pos (Or.inl (h.retry_stale htask))] at hstep
        obtain rfl := Option.some.inj hstep
        exact ⟨rfl, rfl, h.running, rfl⟩
      · contradiction
  | heartbeatTick id =>
      simp only [Coordinator.step, heartbeatTick] at hstep
      split at hstep
      · obtain rfl := Option.some.inj hstep
        exact ⟨rfl, rfl, h.running, rfl⟩
      · contradiction
  | heartbeatFire id =>
      simp only [Coordinator.step, heartbeatFire] at hstep
      split at hstep
      · rename_i gen aborted htask
        rw [if_pos (h.heartbeat_stale htask)] at hstep
        obtain rfl := Option.some.inj hstep
        exact ⟨rfl, rfl, h.running, rfl⟩
      · contradiction
  | configureEntry id => exact hconfigure id (h.configure_inert (Or.inl rfl) hstep)
  | configureGate id connection =>
      exact hconfigure id (h.configure_inert (Or.inr (Or.inl ⟨_, rfl⟩)) hstep)
  | configureRefuse id =>
      exact hconfigure id (h.configure_inert (Or.inr (Or.inr (Or.inl rfl))) hstep)
  | configureToken id token accepted =>
      exact hconfigure id
        (h.configure_inert (Or.inr (Or.inr (Or.inr (Or.inl ⟨_, _, rfl⟩)))) hstep)
  | configureCapabilities id negotiation =>
      exact hconfigure id
        (h.configure_inert (Or.inr (Or.inr (Or.inr (Or.inr ⟨_, rfl⟩)))) hstep)
  | loopHead id now => exact hloop id (h.loop_exits (Or.inl ⟨_, rfl⟩) hstep)
  | loopThrottled id now => exact hloop id (h.loop_exits (Or.inr (Or.inl ⟨_, rfl⟩)) hstep)
  | loopCheck id snapshot =>
      exact hloop id (h.loop_exits (Or.inr (Or.inr (Or.inl ⟨_, rfl⟩))) hstep)
  | loopPublished id result =>
      exact hloop id (h.loop_exits (Or.inr (Or.inr (Or.inr ⟨_, rfl⟩))) hstep)

theorem Suspended.step_keeps {c c' : Coordinator} (h : c.Suspended) {e : CoordinatorEvent}
    (hends : ¬ CoordinatorEvent.EndsSuspension e) (hrestarts : ¬ CoordinatorEvent.Restarts e)
    (hstep : c.step e = some c') : c'.Suspended ∧ KeepsSuspended c e c' := by
  obtain ⟨hstate, hgeneration, hrunning, hpublished⟩ := h.step_same hends hrestarts hstep
  have hafter : c'.Suspended := ⟨h.inv.step hstep, hstate.trans h.state, hrunning⟩
  refine ⟨hafter, hafter.state, hgeneration, hpublished, ?_, ?_⟩
  · intro id task htask
    exact lt_of_le_of_ne (hafter.inv.configures id task htask).1 (hafter.configure_stale htask)
  · rintro id token accepted rfl
    have hinert := h.configure_inert (Or.inr (Or.inr (Or.inr (Or.inl ⟨_, _, rfl⟩)))) hstep
    obtain ⟨task, rfl, hnone⟩ := hinert
    obtain rfl := hnone (fun _ hne => nomatch hne)
    exact ⟨Function.update_self _ _ _, rfl⟩

theorem Suspended.restart {c c' : Coordinator} (h : c.Suspended) {e : CoordinatorEvent}
    (hrestarts : CoordinatorEvent.Restarts e) (hstep : c.step e = some c') :
    c'.inner.generation = c.inner.generation + 1 := by
  have hnot : ¬ c.inner.stopping = true := by
    rw [h.running]
    exact Bool.false_ne_true
  cases e with
  | start =>
      obtain rfl := Option.some.inj hstep
      rw [Coordinator.start, startLocked, if_neg hnot]
      rfl
  | wakeResume id =>
      simp only [Coordinator.step, wakeResume] at hstep
      split at hstep
      · split at hstep
        · have hrestart : ¬ (c.inner.state ≠ .suspended ∨ c.inner.stopping = true) := by
            rintro (hstate | hstopping)
            · exact hstate h.state
            · exact hnot hstopping
          rw [if_neg hrestart] at hstep
          obtain rfl := Option.some.inj hstep
          rw [startLocked, if_neg hnot]
          rfl
        · contradiction
      · contradiction
  | _ => exact hrestarts.elim

theorem suspended_handleSleepOrLock {c : Coordinator} (hinv : c.Inv)
    (hrunning : c.inner.stopping = false) (now : Int) : (c.handleSleepOrLock now).Suspended := by
  refine ⟨hinv.handleSleepOrLock now, ?_, ?_⟩
  · rw [handleSleepOrLock]
    split
    · rename_i hignored
      rcases hignored with hsuspended | hstopping
      · exact hsuspended
      · rw [hrunning] at hstopping
        contradiction
    · dsimp only
      split <;> rfl
  · rw [handleSleepOrLock]
    split
    · exact hrunning
    · dsimp only
      split <;> exact hrunning

/-- A run without restarts keeps the suspension. -/
theorem Suspended.run {c c' : Coordinator} (h : c.Suspended) {es : List CoordinatorEvent}
    (hrun : exec Coordinator.step c es = some c')
    (hends : ∀ e ∈ es, ¬ CoordinatorEvent.EndsSuspension e)
    (hrestarts : ∀ e ∈ es, ¬ CoordinatorEvent.Restarts e) : c'.Suspended := by
  refine exec_induction (P := fun es c' => (∀ e ∈ es, ¬ CoordinatorEvent.EndsSuspension e) →
    (∀ e ∈ es, ¬ CoordinatorEvent.Restarts e) → c'.Suspended) ?_ ?_ hrun hends hrestarts
  · intro _ _
    exact h
  · intro es d e d' _ ih hstep hends hrestarts
    have hd : d.Suspended := ih (fun f hf => hends f (List.mem_append_left _ hf))
      (fun f hf => hrestarts f (List.mem_append_left _ hf))
    have hlast : e ∈ es ++ [e] := List.mem_append_right _ List.mem_cons_self
    exact (hd.step_keeps (hends e hlast) (hrestarts e hlast) hstep).1

/-- A run that keeps the suspension at every step has no restart: the first one would have begun a
generation. -/
theorem Suspended.no_restart {c c' : Coordinator} (h : c.Suspended) {es : List CoordinatorEvent}
    (hrun : exec Coordinator.step c es = some c')
    (hends : ∀ e ∈ es, ¬ CoordinatorEvent.EndsSuspension e)
    (hkept : EveryStep Coordinator.step c es KeepsSuspended) :
    ∀ e ∈ es, ¬ CoordinatorEvent.Restarts e := by
  refine exec_induction (P := fun es _ => (∀ e ∈ es, ¬ CoordinatorEvent.EndsSuspension e) →
    EveryStep Coordinator.step c es KeepsSuspended →
    ∀ e ∈ es, ¬ CoordinatorEvent.Restarts e) ?_ ?_ hrun hends hkept
  · intro _ _ e he
    contradiction
  · intro es d e d' hes ih hstep hends hkept
    have hendsBefore : ∀ f ∈ es, ¬ CoordinatorEvent.EndsSuspension f :=
      fun f hf => hends f (List.mem_append_left _ hf)
    have hbefore := ih hendsBefore hkept.append_left
    have hd : d.Suspended := h.run hes hendsBefore hbefore
    intro f hf hrestarts
    rcases List.mem_append.mp hf with hf | hf
    · exact hbefore f hf hrestarts
    · obtain rfl := List.mem_singleton.mp hf
      have hsame := (hkept.last hes hstep).generation
      rw [hd.restart hrestarts hstep] at hsame
      omega

/-- After a sleep call, and while neither a shutdown nor a wake is called: the suspension is kept at
every step exactly if no `start` is called in it and no wake task of before the call resumes. -/
theorem suspension_kept_iff {pre post : List CoordinatorEvent} {now : Int}
    {c₁ c₂ c₃ : Coordinator} (hpre : exec Coordinator.step new pre = some c₁)
    (hrunning : c₁.inner.stopping = false)
    (hsleep : c₁.step (.handleSleepOrLock now) = some c₂)
    (hpost : exec Coordinator.step c₂ post = some c₃)
    (hends : ∀ e ∈ post, ¬ CoordinatorEvent.EndsSuspension e) :
    EveryStep Coordinator.step c₂ post KeepsSuspended ↔
      ∀ e ∈ post, ¬ CoordinatorEvent.Restarts e := by
  obtain rfl := Option.some.inj hsleep
  have hstart : (c₁.handleSleepOrLock now).Suspended :=
    suspended_handleSleepOrLock (inv_run hpre) hrunning now
  constructor
  · intro hkept
    exact hstart.no_restart hpost hends hkept
  · intro hrestarts n c e c' hat
    have htake : ∀ f ∈ post.take n, f ∈ post := fun f hf => List.take_subset n post hf
    have hc : c.Suspended := hstart.run hat.before (fun f hf => hends f (htake f hf))
      (fun f hf => hrestarts f (htake f hf))
    have he : e ∈ post := List.mem_of_getElem? hat.event
    exact (hc.step_keeps (hends e he) (hrestarts e he) hat.step).2

/-- Active, then locked; the unlock's wake task waits for the clear when the next lock arrives. -/
def unlockBeforeLock : List CoordinatorEvent :=
  [.start] ++ configuredBy 0 ++ [.handleSleepOrLock 10, .handleWakeOrUnlock]

/-- The suspension of the second lock, up to the end of the bounded clear. -/
theorem suspension_kept_unlockBeforeLock :
    ∃ c₁ c₂ c₃, exec Coordinator.step new unlockBeforeLock = some c₁ ∧
      c₁.step (.handleSleepOrLock 20) = some c₂ ∧
      exec Coordinator.step c₂ [.joinDone 3] = some c₃ ∧
      EveryStep Coordinator.step c₂ [.joinDone 3] KeepsSuspended := by
  have hrun : ∃ c₁ c₂ c₃, exec Coordinator.step new unlockBeforeLock = some c₁ ∧
      c₁.inner.stopping = false ∧ c₁.step (.handleSleepOrLock 20) = some c₂ ∧
      exec Coordinator.step c₂ [.joinDone 3] = some c₃ := ⟨_, _, _, rfl, by decide, rfl, rfl⟩
  obtain ⟨c₁, c₂, c₃, hpre, hrunning, hsleep, hpost⟩ := hrun
  refine ⟨c₁, c₂, c₃, hpre, hsleep, hpost, ?_⟩
  refine (suspension_kept_iff hpre hrunning hsleep hpost ?_).mpr ?_
  · intro e he hends
    obtain rfl := List.mem_singleton.mp he
    exact hends
  · intro e he hrestarts
    obtain rfl := List.mem_singleton.mp he
    exact hrestarts

/-- The wake task of the first unlock then resumes and leaves `Suspended`, though it was called
before the second lock and nothing was called after it. -/
theorem suspension_left_unlockBeforeLock :
    ∃ c₁ c₂ c₃, exec Coordinator.step new unlockBeforeLock = some c₁ ∧
      c₁.inner.stopping = false ∧ c₁.step (.handleSleepOrLock 20) = some c₂ ∧
      c₂.inner.state = .suspended ∧
      exec Coordinator.step c₂ ([.joinDone 3, .wakeResume 4] ++ configuredBy 5) = some c₃ ∧
      c₃.inner.state = .active :=
  ⟨_, _, _, rfl, by decide, rfl, by decide, rfl, by decide⟩

end Coordinator

end YohakuCore
