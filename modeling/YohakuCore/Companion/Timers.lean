import YohakuCore.Companion.CoordinatorMoves

/-!
# What drives a coordinator on

A state that is not final has a task of the current generation that will leave it. The client
survives its generation, so a generation may publish through an older one.
-/

namespace YohakuCore

open Framework

namespace Control

def ConfigurePending (k : Control) : Prop :=
  ∃ id pc, k.configures id = some ⟨k.generation, pc⟩

/-- The heartbeat handle is of a task of the current generation that no abort has reached. -/
def HeartbeatLive (k : Control) : Prop :=
  ∃ id pc, k.heartbeatTask = some id ∧ k.heartbeats id = some ⟨k.generation, pc⟩ ∧
    pc ≠ .elapsed true

/-- The reconnect handle is of a task of the current generation that no abort has reached. -/
def RetryArmed (k : Control) : Prop :=
  ∃ id pc, k.reconnectTask = some id ∧ k.retries id = some ⟨k.generation, pc⟩ ∧
    pc ≠ .elapsed true

/-- Every state that waits for something has the task that will bring it. -/
structure Driven (k : Control) : Prop where
  connecting : k.state = .connecting → k.ConfigurePending
  active : k.state = .active → k.HeartbeatLive ∨ k.RetryArmed
  degraded : k.state = .degraded → k.HeartbeatLive ∨ k.RetryArmed
  unavailable : k.state = .serverFeatureUnavailable → k.RetryArmed

theorem driven_of_final {k : Control}
    (h : k.state = .disabled ∨ k.state = .suspended ∨ k.state = .updateRequired) : k.Driven := by
  constructor <;> intro hstate <;> rw [hstate] at h <;> simp at h

theorem driven_scheduleRetry {k : Control} {state : RuntimeState} (task : Nat)
    (h : state = .degraded ∨ state = .serverFeatureUnavailable) :
    ({ k with state := state }.scheduleRetry task).Driven := by
  have harmed : ({ k with state := state }.scheduleRetry task).RetryArmed :=
    ⟨task, .sleeping, rfl, Function.update_self _ _ _, by simp⟩
  constructor
  · intro hstate
    have hstate : state = .connecting := hstate
    rw [hstate] at h
    simp at h
  · exact fun _ => Or.inr harmed
  · exact fun _ => Or.inr harmed
  · exact fun _ => harmed

theorem driven_spawnHeartbeat (k : Control) (task : Nat) :
    ({ k with state := .active }.spawnHeartbeat task).Driven := by
  have hlive : ({ k with state := .active }.spawnHeartbeat task).HeartbeatLive :=
    ⟨task, .sleeping, rfl, Function.update_self _ _ _, by simp⟩
  constructor
  · exact fun hstate => nomatch hstate
  · exact fun _ => Or.inl hlive
  · exact fun _ => Or.inl hlive
  · exact fun hstate => nomatch hstate

theorem Driven.setConfigure {k : Control} (h : k.Driven) {id gen : Nat} {pc : ConfigurePc}
    (hconfigure : k.configures id = some ⟨gen, pc⟩) {next : Option (Spawned ConfigurePc)}
    (hnext : gen = k.generation → ∃ pc', next = some ⟨gen, pc'⟩) :
    (k.setConfigure id next).Driven := by
  refine ⟨?_, h.active, h.degraded, h.unavailable⟩
  intro hstate
  obtain ⟨j, pcj, hj⟩ := h.connecting hstate
  by_cases hid : j = id
  · subst hid
    rw [hconfigure] at hj
    obtain ⟨rfl, rfl⟩ := Spawned.mk.inj (Option.some.inj hj)
    obtain ⟨pc', rfl⟩ := hnext rfl
    exact ⟨j, pc', Function.update_self _ _ _⟩
  · exact ⟨j, pcj, (Function.update_of_ne hid _ _).trans hj⟩

theorem Driven.setHeartbeat {k : Control} (h : k.Driven) {id gen : Nat} {pc : TimerPc}
    (hheartbeat : k.heartbeats id = some ⟨gen, pc⟩) {next : Option (Spawned TimerPc)}
    (hnext : gen = k.generation → pc ≠ .elapsed true →
      ∃ pc', next = some ⟨gen, pc'⟩ ∧ pc' ≠ .elapsed true) :
    ({ k with heartbeats := Function.update k.heartbeats id next }).Driven := by
  have hlive (hlive : k.HeartbeatLive) :
      ({ k with heartbeats := Function.update k.heartbeats id next }).HeartbeatLive := by
    obtain ⟨j, pcj, hhandle, hj, hpc⟩ := hlive
    by_cases hid : j = id
    · subst hid
      rw [hheartbeat] at hj
      obtain ⟨rfl, rfl⟩ := Spawned.mk.inj (Option.some.inj hj)
      obtain ⟨pc', rfl, hpc'⟩ := hnext rfl hpc
      exact ⟨j, pc', hhandle, Function.update_self _ _ _, hpc'⟩
    · exact ⟨j, pcj, hhandle, (Function.update_of_ne hid _ _).trans hj, hpc⟩
  exact ⟨h.connecting, fun hstate => (h.active hstate).imp_left hlive,
    fun hstate => (h.degraded hstate).imp_left hlive, h.unavailable⟩

theorem Driven.setRetry {k : Control} (h : k.Driven) {id gen : Nat} {pc : TimerPc}
    (hretry : k.retries id = some ⟨gen, pc⟩) {next : Option (Spawned TimerPc)}
    (hnext : gen = k.generation → pc ≠ .elapsed true →
      ∃ pc', next = some ⟨gen, pc'⟩ ∧ pc' ≠ .elapsed true) :
    ({ k with retries := Function.update k.retries id next }).Driven := by
  have harmed (harmed : k.RetryArmed) :
      ({ k with retries := Function.update k.retries id next }).RetryArmed := by
    obtain ⟨j, pcj, hhandle, hj, hpc⟩ := harmed
    by_cases hid : j = id
    · subst hid
      rw [hretry] at hj
      obtain ⟨rfl, rfl⟩ := Spawned.mk.inj (Option.some.inj hj)
      obtain ⟨pc', rfl, hpc'⟩ := hnext rfl hpc
      exact ⟨j, pc', hhandle, Function.update_self _ _ _, hpc'⟩
    · exact ⟨j, pcj, hhandle, (Function.update_of_ne hid _ _).trans hj, hpc⟩
  exact ⟨h.connecting, fun hstate => (h.active hstate).imp_right harmed,
    fun hstate => (h.degraded hstate).imp_right harmed,
    fun hstate => harmed (h.unavailable hstate)⟩

end Control

namespace Coordinator

/-- The stored base URL is one that `CompanionServerConfiguration` accepts. -/
def AcceptsServer (e : CoordinatorEvent) : Prop :=
  ∀ id token, e ≠ .configureToken id (some token) false

theorem driven_step {c c' : Coordinator} {e : CoordinatorEvent} (h : c.control.Driven)
    (hinv : c.Inv) (haccepted : AcceptsServer e) (hstep : c.step e = some c') :
    c'.control.Driven := by
  cases step_move hstep with
  | kept _ hcontrol => exact hcontrol ▸ h
  | started _ id heartbeats retries _ _ hcontrol =>
      rw [hcontrol]
      refine ⟨fun _ => ⟨id, .entry, Function.update_self _ _ _⟩, ?_, ?_, ?_⟩ <;>
        exact fun hstate => nomatch hstate
  | ended _ state stopping heartbeats retries _ hstopped hcontrol =>
      rw [hcontrol]
      refine Control.driven_of_final ?_
      rcases hstopped with ⟨now, -, rfl, -⟩ | ⟨reason, -, rfl, -⟩
      · exact Or.inr (Or.inl rfl)
      · exact Or.inl rfl
  | released id hcontrol =>
      rw [hcontrol]
      exact ⟨h.connecting, h.active, h.degraded, h.unavailable⟩
  | configured _ id gen pc pc' hconfigure _ hcontrol =>
      rw [hcontrol]
      exact h.setConfigure hconfigure (fun _ => ⟨pc', rfl⟩)
  | outdated _ id gen pc hconfigure hold hcontrol =>
      rw [hcontrol]
      exact h.setConfigure hconfigure (fun hgen => absurd hgen hold)
  | decided _ id pc hconfigure hdecides =>
      generalize c'.control = k at hdecides
      cases hdecides with
      | refused id => exact Control.driven_of_final (Or.inl rfl)
      | invalidServer id connection token => exact absurd rfl (haccepted id token)
      | updateRequired => exact Control.driven_of_final (Or.inr (Or.inr rfl))
      | retrying _ _ task state _ hwaiting => exact Control.driven_scheduleRetry task hwaiting
      | available _ _ task => exact Control.driven_spawnHeartbeat _ task
  | ticked id gen hheartbeat hcontrol =>
      rw [hcontrol]
      exact h.setHeartbeat hheartbeat (fun _ _ => ⟨.elapsed false, rfl, by simp⟩)
  | beaten id gen aborted next hheartbeat hagain hcontrol =>
      rw [hcontrol]
      refine h.setHeartbeat hheartbeat ?_
      intro hgen hpc
      have hlive : aborted = false := by
        rw [← Bool.not_eq_true]
        rintro rfl
        exact hpc rfl
      exact ⟨.sleeping, hagain hgen hlive, by simp⟩
  | elapsed id gen hretry hcontrol =>
      rw [hcontrol]
      exact h.setRetry hretry (fun _ _ => ⟨.elapsed false, rfl, by simp⟩)
  | dropped id gen aborted hretry hidle hcontrol =>
      rw [hcontrol]
      rcases hidle with hold | hstopping
      · exact h.setRetry hretry (fun hgen => absurd hgen hold)
      · exact Control.driven_of_final (Or.inl (hinv.stopping hstopping))
  | published id call response hpublishing hcontrol =>
      rw [hcontrol]
      have hbefore : c.control.HeartbeatLive ∨ c.control.RetryArmed := by
        rcases (hinv.loops id _ hpublishing).2 rfl with hactive | hdegraded
        · exact h.active hactive
        · exact h.degraded hdegraded
      refine ⟨?_, fun _ => hbefore, fun _ => hbefore, ?_⟩ <;>
        exact fun hstate => nomatch hstate
  | failed id call task error hpublishing hcontrol =>
      rw [hcontrol]
      exact Control.driven_scheduleRetry task (Or.inl rfl)

/-- In the states that wait for nothing no timer is of the current generation. -/
structure Final (c : Coordinator) : Prop where
  heartbeats : ∀ id task, c.heartbeats id = some task → task.generation ≠ c.inner.generation
  retries : ∀ id task, c.retries id = some task → task.generation ≠ c.inner.generation

theorem Inv.final {c : Coordinator} (h : c.Inv)
    (hstate : c.inner.state = .disabled ∨ c.inner.state = .suspended ∨
      c.inner.state = .updateRequired) : c.Final := by
  have hnotRetrying : ¬ c.inner.state.Retrying := by
    rintro ((hactive | hdegraded) | hunavailable)
    · simp [hactive] at hstate
    · simp [hdegraded] at hstate
    · simp [hunavailable] at hstate
  constructor
  · intro id task htask hgen
    exact hnotRetrying (Or.inl ((h.heartbeats id task htask).2 hgen))
  · intro id task htask hgen
    exact hnotRetrying ((h.retries id task htask).2 hgen)

/-- Over every run whose stored base URL is accepted, each state has the task that will leave it,
and the final states have no timer. -/
theorem never_stuck {es : List CoordinatorEvent} {c : Coordinator}
    (hrun : exec Coordinator.step new es = some c)
    (haccepted : ∀ e ∈ es, AcceptsServer e) :
    c.control.Driven ∧
      (c.inner.state = .disabled ∨ c.inner.state = .suspended ∨
        c.inner.state = .updateRequired → c.Final) := by
  have hevery : EveryStep Coordinator.step new es (fun _ e _ => AcceptsServer e) :=
    fun n c₁ e c₂ hat => haccepted e (List.mem_of_getElem? hat.event)
  have hstart : new.Inv ∧ new.control.Driven :=
    ⟨inv_new, Control.driven_of_final (Or.inl rfl)⟩
  have hboth : c.Inv ∧ c.control.Driven := by
    refine EveryStep.invariant (I := fun c => c.Inv ∧ c.control.Driven) hstart ?_ hevery hrun
    intro c₁ e c₂ h hcond hstep
    exact ⟨h.1.step hstep, driven_step h.2 h.1 hcond hstep⟩
  exact ⟨hboth.2, hboth.1.final⟩

/-- A generation publishes, and the next one fails its negotiation. -/
def renegotiationFailed : List CoordinatorEvent :=
  [CoordinatorEvent.start] ++ configuredBy 0 ++
    [CoordinatorEvent.start, .configureEntry 3, .configureGate 3 (some enabledConnection),
      .configureToken 3 (some "token") true, .configureCapabilities 3 none]

theorem never_stuck_renegotiationFailed :
    ∃ c, exec Coordinator.step new renegotiationFailed = some c ∧ c.control.Driven ∧
      (c.inner.state = .disabled ∨ c.inner.state = .suspended ∨
        c.inner.state = .updateRequired → c.Final) := by
  have haccepted : ∀ e ∈ renegotiationFailed, AcceptsServer e := by
    intro e he id token
    rintro rfl
    simp [renegotiationFailed, configuredBy] at he
  exact ⟨_, rfl, never_stuck rfl haccepted⟩

def emptySnapshot : SanitizedPresenceSnapshot where
  observedAt := 0
  application := none
  media := none

/-- A whole iteration of the loop `id` that publishes. -/
def publishedBy (id : Nat) : List CoordinatorEvent :=
  [.loopHead id 0, .loopThrottled id 2000, .loopCheck id emptySnapshot,
    .loopPublished id (.ok { acceptedSequence := 1 })]

/-- The old loop exits, and a foreground change in the degraded state spawns another: it publishes
through the client of the old generation. -/
def staleClientPublish : List CoordinatorEvent :=
  renegotiationFailed ++ [CoordinatorEvent.loopHead 2 0, .requestFreshSnapshot] ++ publishedBy 5

/-- The generation is active, and no heartbeat is of it. -/
theorem active_without_heartbeat :
    ∃ c, exec Coordinator.step new staleClientPublish = some c ∧
      (∀ e ∈ staleClientPublish, AcceptsServer e) ∧ c.inner.state = .active ∧
      ∀ id, c.heartbeats id = none := by
  refine ⟨_, rfl, ?_, rfl, ?_⟩
  · intro e he id token
    rintro rfl
    simp [staleClientPublish, renegotiationFailed, configuredBy, publishedBy] at he
  · intro id
    have hone : ∀ heartbeat : Option (Spawned TimerPc),
        Function.update (Function.update (fun _ => none) 1 heartbeat) 1 none id = none := by
      intro heartbeat
      rw [Function.update_idem, Function.update_apply]
      split <;> rfl
    exact hone (some ⟨1, .sleeping⟩)

/-- A retry task of the current generation sleeps, or is about to take the lock. -/
def RetryPending (c : Coordinator) : Prop :=
  ∃ id pc, c.retries id = some ⟨c.inner.generation, pc⟩

/-- The events that may end an active generation: a sleep, a shutdown, an explicit start, and a
publish of the generation that failed or was rejected. -/
def EndsActive (c : Coordinator) : CoordinatorEvent → Prop
  | .handleSleepOrLock _ => True
  | .shutdown _ => True
  | .start => True
  | .loopPublished id (.error _) =>
      ∃ call, c.loops id = some ⟨c.inner.generation, .publishing call⟩
  | _ => False

/-- An active generation has no retry timer, and is not ended by anything else than it should. -/
structure Settled (c : Coordinator) : Prop where
  idle : c.inner.state = .active → ¬ c.RetryPending
  ends : c.inner.state = .active → ∀ e c', c.step e = some c' →
    c'.inner.generation ≠ c.inner.generation ∨ c'.inner.state ≠ .active → c.EndsActive e

/-- A publish of the current generation succeeds while a retry timer of it is armed. -/
def RecoversArmed (c : Coordinator) (e : CoordinatorEvent) : Prop :=
  ∃ id call response, e = .loopPublished id (.ok response) ∧
    c.loops id = some ⟨c.inner.generation, .publishing call⟩ ∧ c.RetryPending

theorem endsActive_of_idle {c c' : Coordinator} {e : CoordinatorEvent} (hinv : c.Inv)
    (hactive : c.inner.state = .active) (hidle : ¬ c.RetryPending) (hstep : c.step e = some c')
    (hends : c'.inner.generation ≠ c.inner.generation ∨ c'.inner.state ≠ .active) :
    c.EndsActive e := by
  have hkept (hgeneration : c'.control.generation = c.control.generation)
      (hstate : c'.control.state = c.control.state) : c.EndsActive e := by
    have hstate : c'.inner.state = .active := hstate.trans hactive
    rcases hends with hne | hne
    · exact absurd hgeneration hne
    · exact absurd hstate hne
  cases step_move hstep with
  | kept _ hcontrol => exact hkept (by rw [hcontrol]) (by rw [hcontrol])
  | started _ id heartbeats retries hstarts _ hcontrol =>
      cases hstarts with
      | start => exact trivial
      | wake id hsuspended =>
          rw [hactive] at hsuspended
          contradiction
      | retry id aborted harmed => exact absurd ⟨id, _, harmed⟩ hidle
      | renegotiate id call error hpublishing => exact ⟨call, hpublishing⟩
  | ended _ state stopping heartbeats retries _ hstopped hcontrol =>
      rcases hstopped with ⟨now, rfl, -⟩ | ⟨reason, rfl, -⟩ <;> exact trivial
  | released id hcontrol => exact hkept (by rw [hcontrol]) (by rw [hcontrol])
  | configured _ id gen pc pc' _ _ hcontrol =>
      exact hkept (by rw [hcontrol]; rfl) (by rw [hcontrol]; rfl)
  | outdated _ id gen pc _ _ hcontrol => exact hkept (by rw [hcontrol]; rfl) (by rw [hcontrol]; rfl)
  | decided _ id pc hconfigure _ =>
      have hconnecting := (hinv.configures id _ hconfigure).2 rfl
      rw [hactive] at hconnecting
      contradiction
  | ticked id gen _ hcontrol => exact hkept (by rw [hcontrol]) (by rw [hcontrol])
  | beaten id gen aborted next _ _ hcontrol => exact hkept (by rw [hcontrol]) (by rw [hcontrol])
  | elapsed id gen _ hcontrol => exact hkept (by rw [hcontrol]) (by rw [hcontrol])
  | dropped id gen aborted _ _ hcontrol => exact hkept (by rw [hcontrol]) (by rw [hcontrol])
  | published id call response _ hcontrol =>
      refine hkept (by rw [hcontrol]) ?_
      rw [hcontrol]
      exact hactive.symm
  | failed id call task error hpublishing hcontrol => exact ⟨call, hpublishing⟩

/-- A step that leaves the coordinator active leaves it without a retry timer if it found none. -/
theorem idle_step {c c' : Coordinator} {e : CoordinatorEvent} (hinv : c.Inv)
    (hidle : c.inner.state = .active → ¬ c.RetryPending) (hnot : ¬ c.RecoversArmed e)
    (hstep : c.step e = some c') (hactive : c'.inner.state = .active) : ¬ c'.RetryPending := by
  rintro ⟨j, pc, hj⟩
  have hactive : c'.control.state = .active := hactive
  have hj : c'.control.retries j = some ⟨c'.control.generation, pc⟩ := hj
  have hkept (hstate : c.control.state = .active)
      (hretry : ∃ pc, c.control.retries j = some ⟨c.control.generation, pc⟩) : False := by
    obtain ⟨pc, hretry⟩ := hretry
    exact hidle hstate ⟨j, pc, hretry⟩
  cases step_move hstep with
  | kept _ hcontrol =>
      rw [hcontrol] at hactive hj
      exact hkept hactive ⟨pc, hj⟩
  | started _ id heartbeats retries _ _ hcontrol =>
      rw [hcontrol] at hactive
      contradiction
  | ended _ state stopping heartbeats retries _ hstopped hcontrol =>
      rw [hcontrol] at hactive
      rcases hstopped with ⟨now, -, rfl, -⟩ | ⟨reason, -, rfl, -⟩ <;> contradiction
  | released id hcontrol =>
      rw [hcontrol] at hactive hj
      exact hkept hactive ⟨pc, hj⟩
  | configured _ id gen pc pc' _ _ hcontrol =>
      rw [hcontrol] at hactive hj
      exact hkept hactive ⟨_, hj⟩
  | outdated _ id gen pc _ _ hcontrol =>
      rw [hcontrol] at hactive hj
      exact hkept hactive ⟨_, hj⟩
  | decided _ id pc hconfigure hdecides =>
      generalize c'.control = k at hdecides hactive hj
      cases hdecides with
      | available _ _ task =>
          -- A connecting coordinator has no retry timer of its generation.
          have hconnecting := (hinv.configures id _ hconfigure).2 rfl
          have hretrying := (hinv.retries j _ hj).2 rfl
          rw [hconnecting] at hretrying
          rcases hretrying with (hstate | hstate) | hstate <;> contradiction
      | refused id => contradiction
      | invalidServer id connection token => contradiction
      | updateRequired => contradiction
      | retrying _ _ task state _ hwaiting =>
          have hstate : state = .active := hactive
          rw [hstate] at hwaiting
          rcases hwaiting with h | h <;> contradiction
  | ticked id gen _ hcontrol =>
      rw [hcontrol] at hactive hj
      exact hkept hactive ⟨pc, hj⟩
  | beaten id gen aborted next _ _ hcontrol =>
      rw [hcontrol] at hactive hj
      exact hkept hactive ⟨pc, hj⟩
  | elapsed id gen hretry hcontrol =>
      rw [hcontrol] at hactive hj
      dsimp only at hactive hj
      refine hkept hactive ?_
      rw [Function.update_apply] at hj
      split at hj
      · rename_i hid
        obtain ⟨rfl, -⟩ := Spawned.mk.inj (Option.some.inj hj)
        exact ⟨.sleeping, hid ▸ hretry⟩
      · exact ⟨pc, hj⟩
  | dropped id gen aborted hretry _ hcontrol =>
      rw [hcontrol] at hactive hj
      dsimp only at hactive hj
      refine hkept hactive ?_
      rw [Function.update_apply] at hj
      split at hj
      · contradiction
      · exact ⟨pc, hj⟩
  | published id call response hpublishing hcontrol =>
      rw [hcontrol] at hj
      exact hnot ⟨id, call, response, rfl, hpublishing, j, pc, hj⟩
  | failed id call task error _ hcontrol =>
      rw [hcontrol] at hactive
      contradiction

theorem not_settled_of_recoversArmed {c c' : Coordinator} {e : CoordinatorEvent}
    (hrecovers : c.RecoversArmed e) (hstep : c.step e = some c') : ¬ c'.Settled := by
  obtain ⟨id, call, response, rfl, hloop, j, pc, hretry⟩ := hrecovers
  simp only [step, loopPublished, hloop] at hstep
  rw [if_neg (not_not.mpr rfl)] at hstep
  obtain rfl := Option.some.inj hstep
  intro hsettled
  exact hsettled.idle rfl ⟨j, pc, hretry⟩

/-- Over every run: each active generation is without a retry timer, and ended by nothing else than
a sleep, a shutdown, an explicit start or a publish of its own that fails, exactly if no publish
succeeds while a retry timer of its generation is armed. -/
theorem settled_iff (es : List CoordinatorEvent) :
    Throughout Coordinator.step new es Settled ↔
      EveryStep Coordinator.step new es (fun c e _ => ¬ c.RecoversArmed e) := by
  constructor
  · intro hsettled n c₁ e c₂ hat hrecovers
    have hafter : c₂.Settled := hsettled (n + 1) c₂ hat.after
    exact not_settled_of_recoversArmed hrecovers hat.step hafter
  · intro hkept n c₁ hc₁
    have htake : EveryStep Coordinator.step new (es.take n)
        (fun c e _ => ¬ c.RecoversArmed e) := by
      rw [← List.take_append_drop n es] at hkept
      exact hkept.append_left
    have hboth : c₁.Inv ∧ (c₁.inner.state = .active → ¬ c₁.RetryPending) := by
      refine EveryStep.invariant
        (I := fun c => c.Inv ∧ (c.inner.state = .active → ¬ c.RetryPending)) ?_ ?_ htake hc₁
      · exact ⟨inv_new, fun hactive => nomatch hactive⟩
      · intro d e d' hd hcond hstep
        exact ⟨hd.1.step hstep, idle_step hd.1 hd.2 hcond hstep⟩
    exact ⟨hboth.2, fun hactive e c' hstep hends =>
      endsActive_of_idle hboth.1 hactive (hboth.2 hactive) hstep hends⟩

/-- A publish fails, and the heartbeat's publish succeeds. -/
def recoveredByHeartbeat : List CoordinatorEvent :=
  [CoordinatorEvent.start] ++ configuredBy 0 ++
    [CoordinatorEvent.loopHead 2 0, .loopThrottled 2 2000, .loopCheck 2 emptySnapshot,
      .loopPublished 2 (.error (.transport (.httpStatus 503))), .heartbeatTick 1,
      .heartbeatFire 1] ++ publishedBy 4

/-- The retry timer of the failure is still armed, and ends the recovered generation. -/
theorem recovered_torn_down :
    ∃ c c', exec Coordinator.step new recoveredByHeartbeat = some c ∧
      c.inner.state = .active ∧ c.RetryPending ∧
      exec Coordinator.step c [.retryElapse 3, .retryFire 3] = some c' ∧
      c'.inner.generation = c.inner.generation + 1 ∧ c'.inner.state = .connecting :=
  ⟨_, _, rfl, rfl, ⟨3, .sleeping, rfl⟩, rfl, rfl, rfl⟩

end Coordinator

end YohakuCore
