import YohakuCore.Companion.CoordinatorInvariants

/-! # What a step does to the state and its timers -/

namespace YohakuCore

open Framework

/-- The configure has read an enabled connection. -/
def ConfigurePc.isPastGate : ConfigurePc → Bool
  | token _ => true
  | capabilities _ _ => true
  | _ => false

/-- The state of the machine, and the tasks that may change it on their own. -/
structure Control where
  generation : Nat
  state : RuntimeState
  stopping : Bool
  heartbeatTask : Option Nat
  reconnectTask : Option Nat
  configures : Nat → Option (Spawned ConfigurePc)
  heartbeats : Nat → Option (Spawned TimerPc)
  retries : Nat → Option (Spawned TimerPc)

namespace Control

/-- The configure `id` goes to another stage, or ends. -/
def setConfigure (k : Control) (id : Nat) (task : Option (Spawned ConfigurePc)) : Control :=
  { k with configures := Function.update k.configures id task }

/-- A retry timer of the current generation, armed as task `id`. -/
def scheduleRetry (k : Control) (id : Nat) : Control :=
  { k with
    retries := Function.update (Coordinator.abortTimer k.retries k.reconnectTask) id
      (some ⟨k.generation, .sleeping⟩)
    reconnectTask := some id }

/-- A heartbeat of the current generation, spawned as task `id`. -/
def spawnHeartbeat (k : Control) (id : Nat) : Control :=
  { k with
    heartbeats := Function.update (Coordinator.abortTimer k.heartbeats k.heartbeatTask) id
      (some ⟨k.generation, .sleeping⟩)
    heartbeatTask := some id }

end Control

namespace Coordinator

def control (c : Coordinator) : Control where
  generation := c.inner.generation
  state := c.inner.state
  stopping := c.inner.stopping
  heartbeatTask := c.inner.heartbeatTask
  reconnectTask := c.inner.reconnectTask
  configures := c.configures
  heartbeats := c.heartbeats
  retries := c.retries

/-- The events that may start a new generation, with what they find. -/
inductive Starts (c : Coordinator) : CoordinatorEvent → Prop
  | start : Starts c .start
  | wake (id : Nat) (suspended : c.inner.state = .suspended) : Starts c (.wakeResume id)
  | retry (id : Nat) (aborted : Bool)
      (armed : c.retries id = some ⟨c.inner.generation, .elapsed aborted⟩) :
      Starts c (.retryFire id)
  | renegotiate (id call : Nat) (error : PresenceClientError)
      (publishing : c.loops id = some ⟨c.inner.generation, .publishing call⟩) :
      Starts c (.loopPublished id (.error error))

/-- How a configure goes on to its next stage. -/
inductive Advances (id : Nat) : CoordinatorEvent → ConfigurePc → ConfigurePc → Prop
  | entered : Advances id (.configureEntry id) .entry .gate
  | passed (connection : StoredConnection) (enabled : connection.liveDeskEnabled = true) :
      Advances id (.configureGate id (some connection)) .gate (.token connection)
  | stopped (connection : Option StoredConnection)
      (off : connection.filter (·.liveDeskEnabled) = none) :
      Advances id (.configureGate id connection) .gate .refused
  | accepted (connection : StoredConnection) (token : String) :
      Advances id (.configureToken id (some token) true) (.token connection)
        (.capabilities connection token)

/-- How the configure of the current generation may end. -/
inductive Decides (k : Control) : ConfigurePc → CoordinatorEvent → Control → Prop
  | refused (id : Nat) : Decides k .refused (.configureRefuse id) { k with state := .disabled }
  | invalidServer (id : Nat) (connection : StoredConnection) (token : String) :
      Decides k (.token connection) (.configureToken id (some token) false)
        { k with state := .degraded }
  | updateRequired (pc : ConfigurePc) (e : CoordinatorEvent) (past : pc.isPastGate = true) :
      Decides k pc e { k with state := .updateRequired }
  | retrying (pc : ConfigurePc) (e : CoordinatorEvent) (task : Nat) (state : RuntimeState)
      (past : pc.isPastGate = true)
      (waiting : state = .degraded ∨ state = .serverFeatureUnavailable) :
      Decides k pc e ({ k with state := state }.scheduleRetry task)
  | available (pc : ConfigurePc) (e : CoordinatorEvent) (task : Nat)
      (past : pc.isPastGate = true) :
      Decides k pc e ({ k with state := .active }.spawnHeartbeat task)

/-- What a step does to the control part. -/
inductive Move (c c' : Coordinator) : CoordinatorEvent → Prop
  | kept (e : CoordinatorEvent) (control : c'.control = c.control) : Move c c' e
  | started (e : CoordinatorEvent) (id : Nat) (heartbeats retries : Nat → Option (Spawned TimerPc))
      (starts : c.Starts e) (running : c.inner.stopping = false)
      (control : c'.control = { c.control with
        generation := c.inner.generation + 1
        state := .connecting
        heartbeatTask := none
        reconnectTask := none
        configures := Function.update c.configures id (some ⟨c.inner.generation + 1, .entry⟩)
        heartbeats := heartbeats
        retries := retries }) : Move c c' e
  | ended (e : CoordinatorEvent) (state : RuntimeState) (stopping : Bool)
      (heartbeats retries : Nat → Option (Spawned TimerPc))
      (ends : c.EndsGeneration e)
      (stopped : (∃ now, e = .handleSleepOrLock now ∧ state = .suspended ∧ stopping = false) ∨
        (∃ reason, e = .shutdown reason ∧ state = .disabled ∧ stopping = true))
      (control : c'.control = { c.control with
        generation := c.inner.generation + 1
        state := state
        stopping := stopping
        heartbeatTask := none
        reconnectTask := none
        heartbeats := heartbeats
        retries := retries }) : Move c c' e
  | released (id : Nat) (control : c'.control = { c.control with stopping := false }) :
      Move c c' (.shutdownFinish id)
  | configured (e : CoordinatorEvent) (id gen : Nat) (pc pc' : ConfigurePc)
      (configure : c.configures id = some ⟨gen, pc⟩) (advances : Advances id e pc pc')
      (control : c'.control = c.control.setConfigure id (some ⟨gen, pc'⟩)) : Move c c' e
  | outdated (e : CoordinatorEvent) (id gen : Nat) (pc : ConfigurePc)
      (configure : c.configures id = some ⟨gen, pc⟩) (old : gen ≠ c.inner.generation)
      (control : c'.control = c.control.setConfigure id none) : Move c c' e
  | decided (e : CoordinatorEvent) (id : Nat) (pc : ConfigurePc)
      (configure : c.configures id = some ⟨c.inner.generation, pc⟩)
      (decides : Decides (c.control.setConfigure id none) pc e c'.control) : Move c c' e
  | ticked (id gen : Nat)
      (heartbeat : c.heartbeats id = some ⟨gen, .sleeping⟩)
      (control : c'.control = { c.control with
        heartbeats := Function.update c.heartbeats id (some ⟨gen, .elapsed false⟩) }) :
      Move c c' (.heartbeatTick id)
  | beaten (id gen : Nat) (aborted : Bool) (next : Option (Spawned TimerPc))
      (heartbeat : c.heartbeats id = some ⟨gen, .elapsed aborted⟩)
      (again : gen = c.inner.generation → aborted = false → next = some ⟨gen, .sleeping⟩)
      (control : c'.control = { c.control with
        heartbeats := Function.update c.heartbeats id next }) : Move c c' (.heartbeatFire id)
  | elapsed (id gen : Nat)
      (retry : c.retries id = some ⟨gen, .sleeping⟩)
      (control : c'.control = { c.control with
        retries := Function.update c.retries id (some ⟨gen, .elapsed false⟩) }) :
      Move c c' (.retryElapse id)
  | dropped (id gen : Nat) (aborted : Bool)
      (retry : c.retries id = some ⟨gen, .elapsed aborted⟩)
      (idle : gen ≠ c.inner.generation ∨ c.inner.stopping = true)
      (control : c'.control = { c.control with
        retries := Function.update c.retries id none }) : Move c c' (.retryFire id)
  | published (id call : Nat) (response : MutationResponse)
      (publishing : c.loops id = some ⟨c.inner.generation, .publishing call⟩)
      (control : c'.control = { c.control with state := .active }) :
      Move c c' (.loopPublished id (.ok response))
  | failed (id call task : Nat) (error : PresenceClientError)
      (publishing : c.loops id = some ⟨c.inner.generation, .publishing call⟩)
      (control : c'.control = { c.control with state := .degraded }.scheduleRetry task) :
      Move c c' (.loopPublished id (.error error))

@[simp] theorem triggerRefresh_control (c : Coordinator) (gen : Nat) :
    (c.triggerRefresh gen).control = c.control := by
  rw [triggerRefresh]
  split <;> rfl

theorem startLocked_move {c d : Coordinator} {e : CoordinatorEvent} (hstarts : c.Starts e)
    (retries : Nat → Option (Spawned TimerPc))
    (hcontrol : d.control = { c.control with retries := retries })
    (hidle : c.inner.stopping = true → retries = c.retries) : Move c d.startLocked e := by
  have hstop : d.inner.stopping = c.inner.stopping := congrArg Control.stopping hcontrol
  rw [startLocked]
  split
  · rename_i hstopping
    rw [hstop] at hstopping
    rw [hidle hstopping] at hcontrol
    exact .kept e hcontrol
  · rename_i hrunning
    rw [hstop, Bool.not_eq_true] at hrunning
    have hgeneration : d.inner.generation = c.inner.generation :=
      congrArg Control.generation hcontrol
    have hconfigures : d.configures = c.configures := congrArg Control.configures hcontrol
    refine .started e d.nextTask (abortTimer d.heartbeats d.inner.heartbeatTask)
      (abortTimer d.retries d.inner.reconnectTask) hstarts hrunning ?_
    simp only [control, spawnConfigure, beginNewGeneration, hgeneration, hconfigures, hstop]

theorem handleSleepOrLock_move (c : Coordinator) (now : Int) :
    Move c (c.handleSleepOrLock now) (.handleSleepOrLock now) := by
  rw [handleSleepOrLock]
  split
  · exact .kept _ rfl
  · rename_i heffective
    have hrunning : c.inner.stopping = false := by
      rw [not_or, Bool.not_eq_true] at heffective
      exact heffective.2
    dsimp only
    split
    all_goals
      refine .ended _ .suspended false (abortTimer c.heartbeats c.inner.heartbeatTask)
        (abortTimer c.retries c.inner.reconnectTask) heffective (Or.inl ⟨now, rfl, rfl, rfl⟩) ?_
      rw [← hrunning]
      rfl

theorem shutdown_move (c : Coordinator) (reason : ClearReason) :
    Move c (c.shutdown reason) (.shutdown reason) := by
  rw [shutdown]
  split
  · exact .kept _ rfl
  · rename_i hrunning
    rw [Bool.not_eq_true] at hrunning
    exact .ended _ .disabled true _ _ hrunning (Or.inr ⟨reason, rfl, rfl, rfl⟩) rfl

theorem wakeResume_move {c c' : Coordinator} {id : Nat} (h : c.wakeResume id = some c') :
    Move c c' (.wakeResume id) := by
  rw [wakeResume] at h
  split at h
  · split at h
    · dsimp only at h
      split at h
      · obtain rfl := Option.some.inj h
        exact .kept _ rfl
      · rename_i hwakes
        rw [not_or, not_not] at hwakes
        obtain rfl := Option.some.inj h
        exact startLocked_move (.wake id hwakes.1) c.retries rfl (fun _ => rfl)
    · contradiction
  · contradiction

theorem shutdownJoined_move {c c' : Coordinator} {id : Nat} {now : Int}
    (h : c.shutdownJoined id now = some c') : Move c c' (.shutdownJoined id now) := by
  rw [shutdownJoined] at h
  split at h
  · split at h
    · split at h <;> obtain rfl := Option.some.inj h <;> exact .kept _ rfl
    · contradiction
  · contradiction

theorem shutdownFinish_move {c c' : Coordinator} {id : Nat} (h : c.shutdownFinish id = some c') :
    Move c c' (.shutdownFinish id) := by
  rw [shutdownFinish] at h
  split at h
  · split at h
    · obtain rfl := Option.some.inj h
      exact .released id rfl
    · contradiction
  · contradiction

theorem retryElapse_move {c c' : Coordinator} {id : Nat} (h : c.retryElapse id = some c') :
    Move c c' (.retryElapse id) := by
  rw [retryElapse] at h
  split at h
  · rename_i gen hretry
    obtain rfl := Option.some.inj h
    exact .elapsed id gen hretry rfl
  · contradiction

theorem retryFire_move {c c' : Coordinator} {id : Nat} (h : c.retryFire id = some c') :
    Move c c' (.retryFire id) := by
  rw [retryFire] at h
  split at h
  · rename_i gen aborted hretry
    dsimp only at h
    split at h
    · rename_i hidle
      obtain rfl := Option.some.inj h
      exact .dropped id gen aborted hretry hidle rfl
    · rename_i hfires
      rw [not_or, not_not] at hfires
      obtain ⟨rfl, hrunning⟩ := hfires
      obtain rfl := Option.some.inj h
      exact startLocked_move (.retry id aborted hretry) _ rfl
        (fun hstopping => absurd hstopping hrunning)
  · contradiction

theorem heartbeatTick_move {c c' : Coordinator} {id : Nat} (h : c.heartbeatTick id = some c') :
    Move c c' (.heartbeatTick id) := by
  rw [heartbeatTick] at h
  split at h
  · rename_i gen hheartbeat
    obtain rfl := Option.some.inj h
    exact .ticked id gen hheartbeat rfl
  · contradiction

theorem heartbeatFire_move {c c' : Coordinator} {id : Nat} (h : c.heartbeatFire id = some c') :
    Move c c' (.heartbeatFire id) := by
  rw [heartbeatFire] at h
  split at h
  · rename_i gen aborted hheartbeat
    split at h
    · rename_i hold
      obtain rfl := Option.some.inj h
      exact .beaten id gen aborted none hheartbeat (fun hgen => absurd hgen hold) rfl
    · dsimp only at h
      obtain rfl := Option.some.inj h
      refine .beaten id gen aborted (if aborted then none else some ⟨gen, .sleeping⟩) hheartbeat
        ?_ (triggerRefresh_control _ gen)
      intro _ hlive
      rw [hlive]
      rfl
  · contradiction

theorem configureEntry_move {c c' : Coordinator} {id : Nat} (h : c.configureEntry id = some c') :
    Move c c' (.configureEntry id) := by
  rw [configureEntry] at h
  split at h
  · rename_i gen hconfigure
    split at h
    · rename_i hold
      obtain rfl := Option.some.inj h
      exact .outdated _ id gen _ hconfigure hold rfl
    · obtain rfl := Option.some.inj h
      exact .configured _ id gen _ _ hconfigure .entered rfl
  · contradiction

theorem configureGate_move {c c' : Coordinator} {id : Nat} {connection : Option StoredConnection}
    (h : c.configureGate id connection = some c') : Move c c' (.configureGate id connection) := by
  rw [configureGate] at h
  split at h
  · rename_i gen hconfigure
    split at h
    · rename_i enabled hfilter
      obtain rfl := Option.some.inj h
      obtain ⟨rfl, henabled⟩ := Option.filter_eq_some_iff.mp hfilter
      exact .configured _ id gen _ _ hconfigure (.passed enabled henabled) rfl
    · rename_i hfilter
      obtain rfl := Option.some.inj h
      exact .configured _ id gen _ _ hconfigure (.stopped connection hfilter) rfl
  · contradiction

theorem configureRefuse_move {c c' : Coordinator} {id : Nat}
    (h : c.configureRefuse id = some c') : Move c c' (.configureRefuse id) := by
  rw [configureRefuse] at h
  split at h
  · rename_i gen hconfigure
    split at h
    · rename_i hold
      obtain rfl := Option.some.inj h
      exact .outdated _ id gen _ hconfigure hold rfl
    · rename_i hcurrent
      obtain rfl := not_not.mp hcurrent
      obtain rfl := Option.some.inj h
      exact .decided _ id _ hconfigure (.refused id)
  · contradiction

theorem configureToken_move {c c' : Coordinator} {id : Nat} {token : Option String}
    {serverAccepted : Bool} (h : c.configureToken id token serverAccepted = some c') :
    Move c c' (.configureToken id token serverAccepted) := by
  rw [configureToken] at h
  split at h
  · rename_i gen connection hconfigure
    split at h
    · rename_i hold
      obtain rfl := Option.some.inj h
      exact .outdated _ id gen _ hconfigure hold rfl
    · rename_i hcurrent
      obtain rfl := not_not.mp hcurrent
      cases token with
      | none =>
          obtain rfl := Option.some.inj h
          exact .decided _ id _ hconfigure (.retrying _ _ c.nextTask .degraded rfl (Or.inl rfl))
      | some token =>
          cases serverAccepted with
          | true =>
              obtain rfl := Option.some.inj h
              exact .configured _ id _ _ _ hconfigure (.accepted connection token) rfl
          | false =>
              obtain rfl := Option.some.inj h
              exact .decided _ id _ hconfigure (.invalidServer id connection token)
  · contradiction

theorem configureCapabilities_move {c c' : Coordinator} {id : Nat}
    {negotiation : Option PresenceNegotiation}
    (h : c.configureCapabilities id negotiation = some c') :
    Move c c' (.configureCapabilities id negotiation) := by
  rw [configureCapabilities] at h
  split at h
  · rename_i gen connection token hconfigure
    dsimp only at h
    split at h
    · rename_i hold
      obtain rfl := Option.some.inj h
      exact .outdated _ id gen _ hconfigure hold rfl
    · rename_i hcurrent
      obtain rfl : gen = c.inner.generation := not_not.mp hcurrent
      split at h
      · obtain rfl := Option.some.inj h
        exact .decided _ id _ hconfigure (.retrying _ _ c.nextTask .degraded rfl (Or.inl rfl))
      · obtain rfl := Option.some.inj h
        exact .decided _ id _ hconfigure (.updateRequired _ _ rfl)
      · obtain rfl := Option.some.inj h
        exact .decided _ id _ hconfigure
          (.retrying _ _ c.nextTask .serverFeatureUnavailable rfl (Or.inr rfl))
      · obtain rfl := Option.some.inj h
        exact .decided _ id _ hconfigure
          (.retrying _ _ c.nextTask .serverFeatureUnavailable rfl (Or.inr rfl))
      · obtain rfl := Option.some.inj h
        exact .decided _ id _ hconfigure (.retrying _ _ c.nextTask .degraded rfl (Or.inl rfl))
      · obtain rfl := Option.some.inj h
        refine .decided _ id _ hconfigure ?_
        rw [triggerRefresh_control]
        exact .available _ _ c.nextTask rfl
  · contradiction

theorem loopPublished_move {c c' : Coordinator} {id : Nat}
    {result : Except PresenceClientError MutationResponse}
    (h : c.loopPublished id result = some c') : Move c c' (.loopPublished id result) := by
  rw [loopPublished] at h
  split at h
  · rename_i gen call hloop
    split at h
    · obtain rfl := Option.some.inj h
      exact .kept _ rfl
    · rename_i hcurrent
      obtain rfl := not_not.mp hcurrent
      split at h
      · rename_i response
        obtain rfl := Option.some.inj h
        exact .published id call response hloop rfl
      · rename_i error
        split at h
        · obtain rfl := Option.some.inj h
          exact startLocked_move (.renegotiate id call error hloop) c.retries rfl
            (fun _ => rfl)
        · obtain rfl := Option.some.inj h
          exact .failed id call c.nextTask error hloop rfl
  · contradiction

theorem step_move {c c' : Coordinator} {e : CoordinatorEvent} (h : c.step e = some c') :
    Move c c' e := by
  cases e with
  | start =>
      obtain rfl := Option.some.inj h
      exact startLocked_move .start c.retries rfl (fun _ => rfl)
  | requestFreshSnapshot =>
      obtain rfl := Option.some.inj h
      refine .kept _ ?_
      rw [requestFreshSnapshot]
      split
      · exact triggerRefresh_control c _
      · rfl
  | handleSleepOrLock now =>
      obtain rfl := Option.some.inj h
      exact handleSleepOrLock_move c now
  | handleWakeOrUnlock =>
      obtain rfl := Option.some.inj h
      refine .kept _ ?_
      rw [handleWakeOrUnlock]
      split <;> rfl
  | shutdown reason =>
      obtain rfl := Option.some.inj h
      exact shutdown_move c reason
  | discardAuthority =>
      obtain rfl := Option.some.inj h
      exact .kept _ rfl
  | joinDone id =>
      simp only [step, joinDone] at h
      split at h
      · obtain rfl := Option.some.inj h
        exact .kept _ rfl
      · contradiction
  | wakeResume id => exact wakeResume_move h
  | shutdownJoined id now => exact shutdownJoined_move h
  | shutdownFinish id => exact shutdownFinish_move h
  | retryElapse id => exact retryElapse_move h
  | retryFire id => exact retryFire_move h
  | heartbeatTick id => exact heartbeatTick_move h
  | heartbeatFire id => exact heartbeatFire_move h
  | configureEntry id => exact configureEntry_move h
  | configureGate id connection => exact configureGate_move h
  | configureRefuse id => exact configureRefuse_move h
  | configureToken id token serverAccepted => exact configureToken_move h
  | configureCapabilities id negotiation => exact configureCapabilities_move h
  | loopHead id now =>
      simp only [step, loopHead] at h
      split at h
      · split at h <;> obtain rfl := Option.some.inj h <;> exact .kept _ rfl
      · contradiction
  | loopThrottled id now =>
      simp only [step, loopThrottled] at h
      split at h
      · split at h
        · obtain rfl := Option.some.inj h
          exact .kept _ rfl
        · split at h <;> obtain rfl := Option.some.inj h <;> exact .kept _ rfl
      · contradiction
  | loopCheck id snapshot =>
      simp only [step, loopCheck] at h
      split at h
      · split at h <;> obtain rfl := Option.some.inj h <;> exact .kept _ rfl
      · contradiction
  | loopPublished id result => exact loopPublished_move h

theorem Decides.configures {k k' : Control} {pc : ConfigurePc} {e : CoordinatorEvent}
    (h : Decides k pc e k') : k'.configures = k.configures := by
  cases h <;> rfl

theorem Decides.generation {k k' : Control} {pc : ConfigurePc} {e : CoordinatorEvent}
    (h : Decides k pc e k') : k'.generation = k.generation := by
  cases h <;> rfl

/-- What a step does to the configures. -/
inductive ConfigureMove (c c' : Coordinator) (e : CoordinatorEvent) : Prop
  | kept (configures : c'.configures = c.configures)
  | spawned (id : Nat) (generation : c'.inner.generation = c.inner.generation + 1)
      (configures : c'.configures = Function.update c.configures id
        (some ⟨c.inner.generation + 1, .entry⟩))
  | advanced (id gen : Nat) (pc pc' : ConfigurePc) (configure : c.configures id = some ⟨gen, pc⟩)
      (advances : Advances id e pc pc')
      (configures : c'.configures = Function.update c.configures id (some ⟨gen, pc'⟩))
  | ended (id : Nat) (configures : c'.configures = Function.update c.configures id none)

theorem step_configures {c c' : Coordinator} {e : CoordinatorEvent} (h : c.step e = some c') :
    ConfigureMove c c' e := by
  have hkept {k : Control} (hcontrol : c'.control = k) (hsame : k.configures = c.configures) :
      ConfigureMove c c' e := .kept ((congrArg Control.configures hcontrol).trans hsame)
  cases step_move h with
  | kept _ hcontrol => exact hkept hcontrol rfl
  | started _ id heartbeats retries _ _ hcontrol =>
      exact .spawned id (congrArg Control.generation hcontrol)
        (congrArg Control.configures hcontrol)
  | ended _ state stopping heartbeats retries _ _ hcontrol => exact hkept hcontrol rfl
  | released id hcontrol => exact hkept hcontrol rfl
  | configured _ id gen pc pc' hconfigure hadvances hcontrol =>
      exact .advanced id gen pc pc' hconfigure hadvances (congrArg Control.configures hcontrol)
  | outdated _ id gen pc _ _ hcontrol => exact .ended id (congrArg Control.configures hcontrol)
  | decided _ id pc _ hdecides => exact .ended id hdecides.configures
  | ticked id gen _ hcontrol => exact hkept hcontrol rfl
  | beaten id gen aborted next _ _ hcontrol => exact hkept hcontrol rfl
  | elapsed id gen _ hcontrol => exact hkept hcontrol rfl
  | dropped id gen aborted _ _ hcontrol => exact hkept hcontrol rfl
  | published id call response _ hcontrol => exact hkept hcontrol rfl
  | failed id call task error _ hcontrol => exact hkept hcontrol rfl

/-- Where a configure of the state after a step comes from. -/
inductive ConfigureOrigin (c : Coordinator) (e : CoordinatorEvent) (i : Nat)
    (task : Spawned ConfigurePc) : Prop
  | kept (before : c.configures i = some task)
  | spawned (entry : task.pc = .entry) (generation : task.generation = c.inner.generation + 1)
  | advanced (pc : ConfigurePc) (before : c.configures i = some ⟨task.generation, pc⟩)
      (advances : Advances i e pc task.pc)

theorem step_configure {c c' : Coordinator} {e : CoordinatorEvent} (h : c.step e = some c')
    {i : Nat} {task : Spawned ConfigurePc} (htask : c'.configures i = some task) :
    ConfigureOrigin c e i task := by
  cases step_configures h with
  | kept hconfigures => exact .kept (hconfigures ▸ htask)
  | spawned id _ hconfigures =>
      rw [hconfigures, Function.update_apply] at htask
      split at htask
      · rw [← Option.some.inj htask]
        exact .spawned rfl rfl
      · exact .kept htask
  | ended id hconfigures =>
      rw [hconfigures, Function.update_apply] at htask
      split at htask
      · contradiction
      · exact .kept htask
  | advanced id gen pc pc' hconfigure hadvances hconfigures =>
      rw [hconfigures, Function.update_apply] at htask
      split at htask
      · rename_i hid
        subst hid
        rw [← Option.some.inj htask]
        exact .advanced pc hconfigure hadvances
      · exact .kept htask

end Coordinator

end YohakuCore
