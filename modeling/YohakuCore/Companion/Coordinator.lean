import YohakuCore.Companion.Authority
import YohakuCore.Companion.Errors
import YohakuCore.Framework.Generations
import YohakuCore.Protocol.Capabilities

/-!
# Live Desk coordinator

The generation-based connect and publish machine. Every segment between two awaits runs under one
lock, so a step of the machine is one locked segment of one task, or one call of an entry point.
What a segment reads from outside (the stored connection, a token, the negotiated capabilities,
a capture, the outcome of a publish, the clock) is part of its event. Timers may fire at any
moment: their delays are not modelled. The media continuity reset happens in
`beginNewGeneration` and in no other place; the tracker it resets belongs to the capture service.
-/

namespace YohakuCore

open Framework

/-- A mutation handed to a client. A publish keeps the generation of its iteration, a clear the
generation it closes. -/
inductive PresenceCall where
  | replacePresence (generation : Nat) (client : PresenceClient)
      (snapshot : SanitizedPresenceSnapshot) (requestedLeaseSeconds : Int)
  | clearPresence (ended : Nat) (client : PresenceClient) (reason : ClearReason)
      (observedAt : Int)
  deriving DecidableEq

def PresenceCall.client : PresenceCall → PresenceClient
  | replacePresence _ client _ _ => client
  | clearPresence _ client _ _ => client

/-- The fields under the coordinator's lock; task handles are task identities. -/
structure Inner where
  generation : Nat
  state : RuntimeState
  stopping : Bool
  refreshRequested : Bool
  refreshLoopRunning : Bool
  heartbeatTask : Option Nat
  reconnectTask : Option Nat
  cleanupTask : Option Nat
  lastSendStartedAt : Int
  client : Option PresenceClient
  includeMedia : Bool
  requestedLeaseSeconds : Int
  minSendIntervalMs : Nat
  registry : AuthorityRegistry
  deriving DecidableEq

inductive ConfigurePc where
  | entry
  | gate
  | refused
  | token (connection : StoredConnection)
  | capabilities (connection : StoredConnection) (token : String)
  deriving DecidableEq

inductive LoopPc where
  | head
  | throttled (waitMs : Int)
  | capturing (client : PresenceClient) (includeMedia : Bool)
  | publishing (call : Nat)
  deriving DecidableEq

/-- A timer task sleeps, or has woken and is about to take the lock. An abort ends a sleeping
task; a woken one still runs its segment and ends at its next await. -/
inductive TimerPc where
  | sleeping
  | elapsed (aborted : Bool)
  deriving DecidableEq

inductive ShutdownPc where
  | joining (reason : ClearReason) (ended : Nat) (client : Option PresenceClient)
      (wasSuspended : Bool) (pending : Option Nat)
  | clearing (join : Option Nat)
  deriving DecidableEq

/-- The lock's contents, the live tasks by identity, and the mutations called so far. -/
structure Coordinator where
  inner : Inner
  configures : Nat → Option (Spawned ConfigurePc)
  loops : Nat → Option (Spawned LoopPc)
  heartbeats : Nat → Option (Spawned TimerPc)
  retries : Nat → Option (Spawned TimerPc)
  /-- Bounded joins of a clear, by the call they wait for. -/
  joins : Nat → Option Nat
  /-- Wake tasks, by the join they wait for. -/
  wakes : Nat → Option (Option Nat)
  shutdowns : Nat → Option ShutdownPc
  calls : List PresenceCall
  nextTask : Nat
  nextObject : Nat

def Coordinator.new : Coordinator where
  inner := {
    generation := 0
    state := .disabled
    stopping := false
    refreshRequested := false
    refreshLoopRunning := false
    heartbeatTask := none
    reconnectTask := none
    cleanupTask := none
    lastSendStartedAt := 0
    client := none
    includeMedia := false
    requestedLeaseSeconds := 90
    minSendIntervalMs := 2000
    registry := AuthorityRegistry.new }
  configures _ := none
  loops _ := none
  heartbeats _ := none
  retries _ := none
  joins _ := none
  wakes _ := none
  shutdowns _ := none
  calls := []
  nextTask := 0
  nextObject := 0

namespace Coordinator

/-! ### Locked helpers -/

def setState (c : Coordinator) (state : RuntimeState) : Coordinator :=
  { c with inner := { c.inner with state := state } }

/-- `JoinHandle::abort` through a stored handle. -/
def abortTimer (timers : Nat → Option (Spawned TimerPc)) :
    Option Nat → Nat → Option (Spawned TimerPc)
  | none => timers
  | some id => Function.update timers id ((timers id).bind (fun task =>
      match task.pc with
      | .sleeping => none
      | .elapsed _ => some { task with pc := .elapsed true }))

/-- Neither `client` nor `lastSendStartedAt` is touched. -/
def beginNewGeneration (c : Coordinator) (state : RuntimeState) : Coordinator :=
  { c with
    heartbeats := abortTimer c.heartbeats c.inner.heartbeatTask
    retries := abortTimer c.retries c.inner.reconnectTask
    inner := { c.inner with
      generation := c.inner.generation + 1
      heartbeatTask := none
      reconnectTask := none
      refreshRequested := false
      state := state } }

def spawnConfigure (c : Coordinator) : Coordinator :=
  { c with
    configures := Function.update c.configures c.nextTask (some ⟨c.inner.generation, .entry⟩)
    nextTask := c.nextTask + 1 }

def startLocked (c : Coordinator) : Coordinator :=
  if c.inner.stopping then c else (c.beginNewGeneration .connecting).spawnConfigure

def scheduleRetry (c : Coordinator) (gen : Nat) : Coordinator :=
  { c with
    retries := Function.update (abortTimer c.retries c.inner.reconnectTask) c.nextTask
      (some ⟨gen, .sleeping⟩)
    inner := { c.inner with reconnectTask := some c.nextTask }
    nextTask := c.nextTask + 1 }

/-- The single-flight check and set. -/
def triggerRefresh (c : Coordinator) (gen : Nat) : Coordinator :=
  if c.inner.refreshLoopRunning then
    { c with inner := { c.inner with refreshRequested := true } }
  else
    { c with
      inner := { c.inner with refreshRequested := true, refreshLoopRunning := true }
      loops := Function.update c.loops c.nextTask (some ⟨gen, .head⟩)
      nextTask := c.nextTask + 1 }

@[simp] theorem triggerRefresh_state (c : Coordinator) (gen : Nat) :
    (c.triggerRefresh gen).inner.state = c.inner.state := by
  rw [triggerRefresh]
  split <;> rfl

@[simp] theorem triggerRefresh_generation (c : Coordinator) (gen : Nat) :
    (c.triggerRefresh gen).inner.generation = c.inner.generation := by
  rw [triggerRefresh]
  split <;> rfl

@[simp] theorem triggerRefresh_refreshRequested (c : Coordinator) (gen : Nat) :
    (c.triggerRefresh gen).inner.refreshRequested = true := by
  rw [triggerRefresh]
  split <;> rfl

theorem triggerRefresh_loops_of_running {c : Coordinator}
    (h : c.inner.refreshLoopRunning = true) (gen : Nat) :
    (c.triggerRefresh gen).loops = c.loops := by
  rw [triggerRefresh, if_pos h]

def spawnHeartbeat (c : Coordinator) (gen : Nat) : Coordinator :=
  { c with
    heartbeats := Function.update (abortTimer c.heartbeats c.inner.heartbeatTask) c.nextTask
      (some ⟨gen, .sleeping⟩)
    inner := { c.inner with heartbeatTask := some c.nextTask }
    nextTask := c.nextTask + 1 }

/-- The detached clear is a call; the returned handle is its bounded join, spawned as task
`c.nextTask`. -/
def spawnClearBestEffort (c : Coordinator) (ended : Nat) (client : PresenceClient)
    (reason : ClearReason) (now : Int) : Coordinator :=
  { c with
    calls := c.calls ++ [.clearPresence ended client reason now]
    joins := Function.update c.joins c.nextTask (some c.calls.length)
    nextTask := c.nextTask + 1 }

/-- Awaiting a handle is over when its task is. -/
def joined (c : Coordinator) (pending : Option Nat) : Bool :=
  pending.all (fun id => (c.joins id).isNone)

/-! ### Entry points -/

def start (c : Coordinator) : Coordinator := c.startLocked

def requestFreshSnapshot (c : Coordinator) : Coordinator :=
  if c.inner.state = .active ∨ c.inner.state = .degraded then
    c.triggerRefresh c.inner.generation
  else c

def handleSleepOrLock (c : Coordinator) (now : Int) : Coordinator :=
  if c.inner.state = .suspended ∨ c.inner.stopping then c
  else
    let suspended := c.beginNewGeneration .suspended
    match c.inner.client with
    | some client =>
        let cleared := suspended.spawnClearBestEffort c.inner.generation client .sleep now
        { cleared with inner := { cleared.inner with cleanupTask := some suspended.nextTask } }
    | none => suspended

def handleWakeOrUnlock (c : Coordinator) : Coordinator :=
  if c.inner.state = .suspended then
    { c with
      wakes := Function.update c.wakes c.nextTask (some c.inner.cleanupTask)
      inner := { c.inner with cleanupTask := none }
      nextTask := c.nextTask + 1 }
  else c

/-- The first segment of a shutdown; it becomes task `c.nextTask` unless one is in flight. -/
def shutdown (c : Coordinator) (reason : ClearReason) : Coordinator :=
  if c.inner.stopping then c
  else
    let stopped := c.beginNewGeneration .disabled
    { stopped with
      inner := { stopped.inner with stopping := true, cleanupTask := none }
      shutdowns := Function.update c.shutdowns c.nextTask
        (some (.joining reason c.inner.generation c.inner.client
          (c.inner.state = .suspended) c.inner.cleanupTask))
      nextTask := c.nextTask + 1 }

def discardAuthority (c : Coordinator) : Coordinator :=
  { c with inner := { c.inner with registry := c.inner.registry.discard, client := none } }

/-! ### Segments of the spawned tasks -/

def joinDone (c : Coordinator) (id : Nat) : Option Coordinator :=
  match c.joins id with
  | some _ => some { c with joins := Function.update c.joins id none }
  | none => none

def wakeResume (c : Coordinator) (id : Nat) : Option Coordinator :=
  match c.wakes id with
  | some pending =>
      if c.joined pending then
        let c := { c with wakes := Function.update c.wakes id none }
        if c.inner.state ≠ .suspended ∨ c.inner.stopping then some c else some c.startLocked
      else none
  | none => none

def shutdownJoined (c : Coordinator) (id : Nat) (now : Int) : Option Coordinator :=
  match c.shutdowns id with
  | some (.joining reason ended client wasSuspended pending) =>
      if c.joined pending then
        match (if wasSuspended then none else client) with
        | some client =>
            let cleared := c.spawnClearBestEffort ended client reason now
            some { cleared with
              shutdowns := Function.update c.shutdowns id (some (.clearing (some c.nextTask))) }
        | none =>
            some { c with shutdowns := Function.update c.shutdowns id (some (.clearing none)) }
      else none
  | _ => none

def shutdownFinish (c : Coordinator) (id : Nat) : Option Coordinator :=
  match c.shutdowns id with
  | some (.clearing join) =>
      if c.joined join then
        some { c with
          shutdowns := Function.update c.shutdowns id none
          inner := { c.inner with client := none, stopping := false } }
      else none
  | _ => none

def retryElapse (c : Coordinator) (id : Nat) : Option Coordinator :=
  match c.retries id with
  | some ⟨gen, .sleeping⟩ =>
      some { c with retries := Function.update c.retries id (some ⟨gen, .elapsed false⟩) }
  | _ => none

def retryFire (c : Coordinator) (id : Nat) : Option Coordinator :=
  match c.retries id with
  | some ⟨gen, .elapsed _⟩ =>
      let c := { c with retries := Function.update c.retries id none }
      if gen ≠ c.inner.generation ∨ c.inner.stopping then some c else some c.startLocked
  | _ => none

def heartbeatTick (c : Coordinator) (id : Nat) : Option Coordinator :=
  match c.heartbeats id with
  | some ⟨gen, .sleeping⟩ =>
      some { c with heartbeats := Function.update c.heartbeats id (some ⟨gen, .elapsed false⟩) }
  | _ => none

/-- Only the generation is checked, not the state. -/
def heartbeatFire (c : Coordinator) (id : Nat) : Option Coordinator :=
  match c.heartbeats id with
  | some ⟨gen, .elapsed aborted⟩ =>
      if gen ≠ c.inner.generation then
        some { c with heartbeats := Function.update c.heartbeats id none }
      else
        let next := if aborted then none else some ⟨gen, .sleeping⟩
        some ({ c with heartbeats := Function.update c.heartbeats id next }.triggerRefresh gen)
  | _ => none

/-! ### configure -/

def setConfigure (c : Coordinator) (id : Nat) (task : Option (Spawned ConfigurePc)) :
    Coordinator :=
  { c with configures := Function.update c.configures id task }

def configureEntry (c : Coordinator) (id : Nat) : Option Coordinator :=
  match c.configures id with
  | some ⟨gen, .entry⟩ =>
      if gen ≠ c.inner.generation then some (c.setConfigure id none)
      else some (c.setConfigure id (some ⟨gen, .gate⟩))
  | _ => none

/-- The pairing gate reads the stored connection outside the lock. -/
def configureGate (c : Coordinator) (id : Nat) (connection : Option StoredConnection) :
    Option Coordinator :=
  match c.configures id with
  | some ⟨gen, .gate⟩ =>
      match connection.filter (·.liveDeskEnabled) with
      | some connection => some (c.setConfigure id (some ⟨gen, .token connection⟩))
      | none => some (c.setConfigure id (some ⟨gen, .refused⟩))
  | _ => none

def configureRefuse (c : Coordinator) (id : Nat) : Option Coordinator :=
  match c.configures id with
  | some ⟨gen, .refused⟩ =>
      if gen ≠ c.inner.generation then some (c.setConfigure id none)
      else some ((c.setConfigure id none).setState .disabled)
  | _ => none

/-- `serverAccepted` is whether `CompanionServerConfiguration::new` takes the base URL. -/
def configureToken (c : Coordinator) (id : Nat) (token : Option String) (serverAccepted : Bool) :
    Option Coordinator :=
  match c.configures id with
  | some ⟨gen, .token connection⟩ =>
      if gen ≠ c.inner.generation then some (c.setConfigure id none)
      else
        match token with
        | none => some (((c.setConfigure id none).setState .degraded).scheduleRetry gen)
        | some token =>
            if serverAccepted then
              some (c.setConfigure id (some ⟨gen, .capabilities connection token⟩))
            else some ((c.setConfigure id none).setState .degraded)
  | _ => none

/-- What a successful negotiation installs: the parameters, and a new client over the pairing's
sequencer. -/
def install (c : Coordinator) (connection : StoredConnection) (token : String)
    (configuration : NegotiatedPresenceConfiguration) : Coordinator :=
  let authority := c.inner.registry.resolve connection.baseUrl connection.deviceId {
    sequencer := {
      id := c.nextObject
      deviceId := connection.deviceId
      pairingNextSequence := connection.pairingNextSequence }
    client := none }
  let client : PresenceClient := {
    id := c.nextObject + 1
    baseUrl := connection.baseUrl
    credential := { deviceId := connection.deviceId, deviceToken := token }
    sequencer := authority.sequencer
    configuration := configuration }
  { c with
    inner := { c.inner with
      includeMedia := configuration.supportsMediaTimeline
      requestedLeaseSeconds :=
        min (max 90 configuration.leaseMinSeconds) configuration.leaseMaxSeconds
      minSendIntervalMs :=
        (60000 + configuration.requestsPerMinute - 1) / configuration.requestsPerMinute
      registry := AuthorityRegistry.install connection.baseUrl connection.deviceId authority
        client
      client := some client }
    nextObject := c.nextObject + 2 }

/-- `negotiation` is `none` when the capabilities request failed. -/
def configureCapabilities (c : Coordinator) (id : Nat)
    (negotiation : Option PresenceNegotiation) : Option Coordinator :=
  match c.configures id with
  | some ⟨gen, .capabilities connection token⟩ =>
      let c := c.setConfigure id none
      if gen ≠ c.inner.generation then some c
      else
        match negotiation with
        | none => some ((c.setState .degraded).scheduleRetry gen)
        | some .clientUpdateRequired => some (c.setState .updateRequired)
        | some .schemaUnsupported | some .featureUnavailable =>
            some ((c.setState .serverFeatureUnavailable).scheduleRetry gen)
        | some .invalidCapabilities => some ((c.setState .degraded).scheduleRetry gen)
        | some (.available configuration) =>
            some ((((c.install connection token configuration).setState .active).spawnHeartbeat
              gen).triggerRefresh gen)
  | _ => none

/-! ### The refresh loop -/

def setLoop (c : Coordinator) (id : Nat) (task : Spawned LoopPc) : Coordinator :=
  { c with loops := Function.update c.loops id (some task) }

/-- Every exit resets the single-flight flag in the same segment. -/
def exitLoop (c : Coordinator) (id : Nat) : Coordinator :=
  { c with
    loops := Function.update c.loops id none
    inner := { c.inner with refreshLoopRunning := false } }

def loopHead (c : Coordinator) (id : Nat) (now : Int) : Option Coordinator :=
  match c.loops id with
  | some ⟨gen, .head⟩ =>
      if gen ≠ c.inner.generation ∨ c.inner.refreshRequested = false then some (c.exitLoop id)
      else
        let waitMs := c.inner.lastSendStartedAt + c.inner.minSendIntervalMs - now
        let c := c.setLoop id ⟨gen, .throttled waitMs⟩
        some { c with inner := { c.inner with refreshRequested := false } }
  | _ => none

def loopThrottled (c : Coordinator) (id : Nat) (now : Int) : Option Coordinator :=
  match c.loops id with
  | some ⟨gen, .throttled _⟩ =>
      if gen ≠ c.inner.generation then some (c.exitLoop id)
      else
        match c.inner.client with
        | none => some (c.exitLoop id)
        | some client =>
            let c := c.setLoop id ⟨gen, .capturing client c.inner.includeMedia⟩
            some { c with inner := { c.inner with lastSendStartedAt := now } }
  | _ => none

/-- The check after the capture; past it the iteration publishes. -/
def loopCheck (c : Coordinator) (id : Nat) (snapshot : SanitizedPresenceSnapshot) :
    Option Coordinator :=
  match c.loops id with
  | some ⟨gen, .capturing client _⟩ =>
      if gen ≠ c.inner.generation then some (c.exitLoop id)
      else
        let call := .replacePresence gen client snapshot c.inner.requestedLeaseSeconds
        let c := c.setLoop id ⟨gen, .publishing c.calls.length⟩
        some { c with calls := c.calls ++ [call] }
  | _ => none

def loopPublished (c : Coordinator) (id : Nat)
    (result : Except PresenceClientError MutationResponse) : Option Coordinator :=
  match c.loops id with
  | some ⟨gen, .publishing _⟩ =>
      if gen ≠ c.inner.generation then some (c.exitLoop id)
      else
        match result with
        | .ok _ => some ((c.setLoop id ⟨gen, .head⟩).setState .active)
        | .error error =>
            if error.needsRenegotiation then some (c.discardAuthority.exitLoop id).startLocked
            else some (((c.exitLoop id).setState .degraded).scheduleRetry gen)
  | _ => none

end Coordinator

inductive CoordinatorEvent where
  | start
  | requestFreshSnapshot
  | handleSleepOrLock (now : Int)
  | handleWakeOrUnlock
  | shutdown (reason : ClearReason)
  | discardAuthority
  | joinDone (id : Nat)
  | wakeResume (id : Nat)
  | shutdownJoined (id : Nat) (now : Int)
  | shutdownFinish (id : Nat)
  | retryElapse (id : Nat)
  | retryFire (id : Nat)
  | heartbeatTick (id : Nat)
  | heartbeatFire (id : Nat)
  | configureEntry (id : Nat)
  | configureGate (id : Nat) (connection : Option StoredConnection)
  | configureRefuse (id : Nat)
  | configureToken (id : Nat) (token : Option String) (serverAccepted : Bool)
  | configureCapabilities (id : Nat) (negotiation : Option PresenceNegotiation)
  | loopHead (id : Nat) (now : Int)
  | loopThrottled (id : Nat) (now : Int)
  | loopCheck (id : Nat) (snapshot : SanitizedPresenceSnapshot)
  | loopPublished (id : Nat) (result : Except PresenceClientError MutationResponse)
  deriving DecidableEq

def Coordinator.step (c : Coordinator) : CoordinatorEvent → Option Coordinator
  | .start => some c.start
  | .requestFreshSnapshot => some c.requestFreshSnapshot
  | .handleSleepOrLock now => some (c.handleSleepOrLock now)
  | .handleWakeOrUnlock => some c.handleWakeOrUnlock
  | .shutdown reason => some (c.shutdown reason)
  | .discardAuthority => some c.discardAuthority
  | .joinDone id => c.joinDone id
  | .wakeResume id => c.wakeResume id
  | .shutdownJoined id now => c.shutdownJoined id now
  | .shutdownFinish id => c.shutdownFinish id
  | .retryElapse id => c.retryElapse id
  | .retryFire id => c.retryFire id
  | .heartbeatTick id => c.heartbeatTick id
  | .heartbeatFire id => c.heartbeatFire id
  | .configureEntry id => c.configureEntry id
  | .configureGate id connection => c.configureGate id connection
  | .configureRefuse id => c.configureRefuse id
  | .configureToken id token serverAccepted => c.configureToken id token serverAccepted
  | .configureCapabilities id negotiation => c.configureCapabilities id negotiation
  | .loopHead id now => c.loopHead id now
  | .loopThrottled id now => c.loopThrottled id now
  | .loopCheck id snapshot => c.loopCheck id snapshot
  | .loopPublished id result => c.loopPublished id result

end YohakuCore
