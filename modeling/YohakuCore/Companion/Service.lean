import YohakuCore.Companion.ConsentGate
import YohakuCore.Companion.LiveDesk
import YohakuCore.Privacy.Fingerprint
import YohakuCore.Privacy.CaptureService

/-!
# Companion service

The commands of the application over one configuration, one consent gate, one preview slot and one
coordinator. The configuration, the gate and the slot have a lock each, so a command is a sequence
of segments, each under one lock, and the segments of all commands interleave. What a segment meets
outside is part of its event: the raw world of a capture, the outcome of a write, the answer of a
claim.
-/

namespace YohakuCore

open Framework

structure PairingResult where
  deviceId : String
  deviceToken : String
  scopes : List String
  nextSequence : UInt64
  baseUrl : String
  deviceName : String
  deriving DecidableEq

/-- Pairing never enables publishing. -/
def PairingResult.connection (result : PairingResult) : StoredConnection where
  baseUrl := result.baseUrl
  deviceId := result.deviceId
  deviceName := result.deviceName
  scopes := result.scopes
  pairingNextSequence := result.nextSequence
  liveDeskEnabled := false

/-- The update closures of the enable and of the disables. -/
def CoreConfig.setLiveDesk (config : CoreConfig) (enabled : Bool) : CoreConfig :=
  { config with connection := config.connection.map (fun connection =>
      { connection with liveDeskEnabled := enabled }) }

inductive Command where
  | refreshPreview
  | confirmConsent (uiFingerprint : String)
  | disableLiveDesk
  | unpair
  | pair
  | policyMaybeChanged
  | start
  deriving DecidableEq

/-- The fingerprint that a click carries. -/
def Command.uiFingerprint : Command → Option String
  | confirmConsent uiFingerprint => some uiFingerprint
  | _ => none

/-- A capture under way, with the reads of the privacy configuration so far. -/
structure CaptureProgress where
  options : CaptureOptions
  reads : List PrivacyConfig
  deriving DecidableEq

/-- Who awaits a coordinator shutdown. -/
inductive AfterShutdown where
  | disabled
  | unpair (deviceId : String)
  | pair (result : PairingResult)
  deriving DecidableEq

def AfterShutdown.reason : AfterShutdown → ClearReason
  | disabled => .paused
  | unpair _ => .connectionRemoved
  | pair _ => .connectionRemoved

/-- Where a command stands: the segment it runs next. -/
inductive Stage where
  | previewOptions
  | previewCapture (capture : CaptureProgress)
  | previewRecord (snapshot : SanitizedPresenceSnapshot)
  | previewStore (preview : Preview)
  | confirmEntry
  | confirmSlot
  | confirmGate (preview : Option Preview)
  | beforeOptions (candidate : Confirmation)
  | beforeCapture (candidate : Confirmation) (capture : CaptureProgress)
  | beforeValidate (candidate : Confirmation) (before : SanitizedPresenceSnapshot)
  | enable (candidate : Confirmation)
  | afterOptions (candidate : Confirmation)
  | afterCapture (candidate : Confirmation) (capture : CaptureProgress)
  | afterFingerprint (candidate : Confirmation) (after : SanitizedPresenceSnapshot)
  | afterValidate (candidate : Confirmation) (after : SanitizedPresenceSnapshot)
      (fingerprintNow : String)
  | rollback
  | confirmStart
  | disable
  | shutdown (next : AfterShutdown)
  | shutdownWait (task : Nat) (next : AfterShutdown)
  | unpairEntry
  | unpairDisable (deviceId : String)
  | unpairDiscard (deviceId : String)
  | unpairDelete (deviceId : String)
  | unpairRemove (deviceId : String)
  | unpairForget
  | unpairGate
  | unpairSlot
  | pairCredentials
  | pairClaim
  | pairDiscard (result : PairingResult)
  | pairToken (result : PairingResult)
  | pairStore (result : PairingResult)
  | policyRead
  | policyGate (fingerprint : String)
  | policySlot
  | policyRefresh
  | startRead
  | startCoordinator
  | returned (result : Except IpcErrorCode (Option Preview))
  deriving DecidableEq

def Command.entry : Command → Stage
  | refreshPreview => .previewOptions
  | confirmConsent _ => .confirmEntry
  | disableLiveDesk => .disable
  | unpair => .unpairEntry
  | pair => .pairCredentials
  | policyMaybeChanged => .policyRead
  | start => .startRead

def Command.previews : Command → Bool
  | refreshPreview => true
  | confirmConsent _ => true
  | pair => true
  | _ => false

def AfterShutdown.command : AfterShutdown → Command
  | disabled => .disableLiveDesk
  | unpair _ => .unpair
  | pair _ => .pair

/-- Whether a command may stand at a stage. -/
def Stage.belongs (stage : Stage) (command : Command) : Bool :=
  match stage with
  | previewOptions | previewCapture _ | previewRecord _ | previewStore _ => command.previews
  | confirmEntry | confirmSlot | confirmGate _ | beforeOptions _ | beforeCapture _ _
  | beforeValidate _ _ | enable _ | afterOptions _ | afterCapture _ _ | afterFingerprint _ _
  | afterValidate _ _ _ | rollback | confirmStart => command.uiFingerprint.isSome
  | disable => command = .disableLiveDesk
  | shutdown next | shutdownWait _ next => command = next.command
  | unpairEntry | unpairDisable _ | unpairDiscard _ | unpairDelete _ | unpairRemove _
  | unpairForget | unpairGate | unpairSlot => command = .unpair
  | pairCredentials | pairClaim | pairDiscard _ | pairToken _ | pairStore _ => command = .pair
  | policyRead | policyGate _ | policySlot | policyRefresh => command = .policyMaybeChanged
  | startRead | startCoordinator => command = .start
  | returned _ => true

theorem Command.entry_belongs (command : Command) : command.entry.belongs command = true := by
  cases command <;> rfl

theorem Command.previews_of_uiFingerprint {command : Command}
    (h : command.uiFingerprint.isSome = true) : command.previews = true := by
  cases command with
  | confirmConsent ui => rfl
  | _ => contradiction

structure Task where
  command : Command
  stage : Stage
  deriving DecidableEq

/-- What a command waits for between two segments. -/
inductive Awaits where
  | segment
  | capture
  | write
  | claim
  deriving DecidableEq

def Stage.awaits : Stage → Option Awaits
  | previewCapture _ | beforeCapture _ _ | afterCapture _ _ => some .capture
  | enable _ | rollback | disable | unpairDisable _ | unpairDelete _ | unpairRemove _
  | unpairForget | pairCredentials | pairToken _ | pairStore _ => some .write
  | pairClaim => some .claim
  | returned _ => none
  | _ => some .segment

/-- What a command returns once its preview is stored: a rejected consent has refreshed the preview
for the next attempt. -/
def Command.afterPreview (command : Command) (preview : Preview) :
    Except IpcErrorCode (Option Preview) :=
  match command with
  | refreshPreview => .ok (some preview)
  | confirmConsent _ => .error .previewOutOfDate
  | _ => .ok none

def AfterShutdown.stage : AfterShutdown → Stage
  | disabled => .returned (.ok none)
  | unpair deviceId => .unpairDiscard deviceId
  | pair result => .pairDiscard result

theorem AfterShutdown.stage_belongs {next : AfterShutdown} {command : Command}
    (h : command = next.command) : next.stage.belongs command = true := by
  subst h
  cases next <;> rfl

structure Service where
  config : CoreConfig
  gate : ConsentGate
  preview : Option Preview
  tasks : Nat → Option Task
  desk : LiveDesk

inductive ServiceEvent where
  | called (id : Nat) (command : Command)
  | advance (id : Nat)
  | readPrivacy (id : Nat)
  | captured (id : Nat) (input : CaptureInput) (tracker : MediaSessionTracker)
  | completed (id : Nat) (succeeds : Bool)
  | claimed (id : Nat) (result : Except IpcErrorCode PairingResult)
  | updatePrivacy (privacy : PrivacyConfig)
  | desk (e : LiveDeskEvent)

/-- The command whose segment an event runs. -/
def ServiceEvent.task : ServiceEvent → Option Nat
  | called id _ => some id
  | advance id => some id
  | readPrivacy id => some id
  | captured id _ _ => some id
  | completed id _ => some id
  | claimed id _ => some id
  | updatePrivacy _ => none
  | desk _ => none

def ServiceEvent.serves : ServiceEvent → Option Awaits
  | advance _ => some .segment
  | readPrivacy _ => some .capture
  | captured _ _ _ => some .capture
  | completed _ _ => some .write
  | claimed _ _ => some .claim
  | _ => none

namespace Service

variable (u : UnicodeData) (sha256Hex : String → String)

/-- The gate is built with the fingerprint of the configuration found at construction. -/
def new (config : CoreConfig) (backing : String → Option Int) : Service where
  config := config
  gate := ConsentGate.new (policyFingerprint u sha256Hex config.privacy)
  preview := none
  tasks _ := none
  desk := LiveDesk.new backing

def goto (s : Service) (id : Nat) (command : Command) (stage : Stage) : Service :=
  { s with tasks := Function.update s.tasks id (some { command := command, stage := stage }) }

/-- The start of a capture: its options come from a read of their own. -/
def captureStart (s : Service) : CaptureProgress where
  options := { includeMedia := s.config.privacy.sources.media }
  reads := []

def withDesk (s : Service) (e : LiveDeskEvent) (next : LiveDesk → Service) : Option Service :=
  (s.desk.step e).map next

/-- The segments that meet nothing outside. -/
def advance (s : Service) (id : Nat) : Option Service :=
  match s.tasks id with
  | none => none
  | some { command, stage } =>
      match stage with
      | .previewOptions => some (s.goto id command (.previewCapture s.captureStart))
      | .previewRecord snapshot =>
          let projection := projectionOf snapshot
          let preview : Preview := {
            projection := projection
            policyFingerprint := s.gate.fingerprint
            observedAt := snapshot.observedAt }
          some ({ s with gate := s.gate.record projection }.goto id command
            (.previewStore preview))
      | .previewStore preview =>
          some ({ s with preview := some preview }.goto id command
            (.returned (command.afterPreview preview)))
      | .confirmEntry =>
          if s.config.connection = none then
            some (s.goto id command (.returned (.error .notPaired)))
          else some (s.goto id command .confirmSlot)
      | .confirmSlot => some (s.goto id command (.confirmGate s.preview))
      | .confirmGate preview =>
          match command.uiFingerprint, preview with
          | some uiFingerprint, some preview =>
              if uiFingerprint = s.gate.fingerprint then
                some (s.goto id command (.beforeOptions {
                  policyFingerprint := uiFingerprint
                  projection := preview.projection }))
              else some (s.goto id command .previewOptions)
          | _, _ => some (s.goto id command .previewOptions)
      | .beforeOptions candidate =>
          some (s.goto id command (.beforeCapture candidate s.captureStart))
      | .beforeValidate candidate before =>
          if s.gate.validates candidate (projectionOf before) then
            some (s.goto id command (.enable candidate))
          else some (s.goto id command .previewOptions)
      | .afterOptions candidate =>
          some (s.goto id command (.afterCapture candidate s.captureStart))
      | .afterFingerprint candidate after =>
          some (s.goto id command (.afterValidate candidate after
            (policyFingerprint u sha256Hex s.config.privacy)))
      | .afterValidate candidate after fingerprintNow =>
          if command.uiFingerprint ≠ some fingerprintNow ∨
              s.gate.validates candidate (projectionOf after) = false then
            some (s.goto id command .rollback)
          else some (s.goto id command .confirmStart)
      | .confirmStart =>
          s.withDesk (.coordinator .start) (fun desk =>
            { s with desk := desk }.goto id command (.returned (.ok none)))
      | .shutdown next =>
          -- A shutdown in flight makes this one return at once.
          let stage := if s.desk.coordinator.inner.stopping then next.stage
            else .shutdownWait s.desk.coordinator.nextTask next
          s.withDesk (.coordinator (.shutdown next.reason)) (fun desk =>
            { s with desk := desk }.goto id command stage)
      | .shutdownWait task next =>
          match s.desk.coordinator.shutdowns task with
          | none => some (s.goto id command next.stage)
          | some _ => none
      | .unpairEntry =>
          match s.config.connection with
          | none => some (s.goto id command (.returned (.ok none)))
          | some connection => some (s.goto id command (.unpairDisable connection.deviceId))
      | .unpairDiscard deviceId =>
          s.withDesk (.coordinator .discardAuthority) (fun desk =>
            { s with desk := desk }.goto id command (.unpairDelete deviceId))
      | .unpairGate =>
          some ({ s with gate := s.gate.clear }.goto id command .unpairSlot)
      | .unpairSlot =>
          some ({ s with preview := none }.goto id command (.returned (.ok none)))
      | .pairDiscard result =>
          s.withDesk (.coordinator .discardAuthority) (fun desk =>
            { s with desk := desk }.goto id command (.pairToken result))
      | .policyRead =>
          some (s.goto id command
            (.policyGate (policyFingerprint u sha256Hex s.config.privacy)))
      | .policyGate fingerprint =>
          if fingerprint = s.gate.fingerprint then
            some (s.goto id command (.returned (.ok none)))
          else
            some ({ s with gate := s.gate.policyDidChange fingerprint }.goto id command
              .policySlot)
      | .policySlot => some ({ s with preview := none }.goto id command .policyRefresh)
      | .policyRefresh =>
          s.withDesk (.coordinator .requestFreshSnapshot) (fun desk =>
            { s with desk := desk }.goto id command (.returned (.ok none)))
      | .startRead =>
          match s.config.connection.filter (·.liveDeskEnabled) with
          | some _ => some (s.goto id command .startCoordinator)
          | none => some (s.goto id command (.returned (.ok none)))
      | .startCoordinator =>
          s.withDesk (.coordinator .start) (fun desk =>
            { s with desk := desk }.goto id command (.returned (.ok none)))
      | _ => none

/-- A capture reads the privacy configuration. -/
def readPrivacy (s : Service) (id : Nat) : Option Service :=
  let more (capture : CaptureProgress) : CaptureProgress :=
    { capture with reads := capture.reads ++ [s.config.privacy] }
  match s.tasks id with
  | some { command, stage := .previewCapture capture } =>
      some (s.goto id command (.previewCapture (more capture)))
  | some { command, stage := .beforeCapture candidate capture } =>
      some (s.goto id command (.beforeCapture candidate (more capture)))
  | some { command, stage := .afterCapture candidate capture } =>
      some (s.goto id command (.afterCapture candidate (more capture)))
  | _ => none

/-- What a capture delivers from its reads and the raw world; `none` while reads are missing. -/
def CaptureProgress.delivers (capture : CaptureProgress) (input : CaptureInput)
    (tracker : MediaSessionTracker) : Option SanitizedPresenceSnapshot :=
  let delivered := captureForDelivery u capture.options input tracker
    (fun k => capture.reads.getD k defaultPrivacyConfig)
  if delivered.reads = capture.reads.length then some delivered.snapshot else none

def captured (s : Service) (id : Nat) (input : CaptureInput) (tracker : MediaSessionTracker) :
    Option Service :=
  match s.tasks id with
  | some { command, stage := .previewCapture capture } =>
      (CaptureProgress.delivers u capture input tracker).map (fun snapshot =>
        s.goto id command (.previewRecord snapshot))
  | some { command, stage := .beforeCapture candidate capture } =>
      (CaptureProgress.delivers u capture input tracker).map (fun snapshot =>
        s.goto id command (.beforeValidate candidate snapshot))
  | some { command, stage := .afterCapture candidate capture } =>
      (CaptureProgress.delivers u capture input tracker).map (fun snapshot =>
        s.goto id command (.afterFingerprint candidate snapshot))
  | _ => none

/-- The configuration a write installs when it succeeds, and where the command goes on. -/
def Stage.write (config : CoreConfig) : Stage → Option (CoreConfig × Stage)
  | .enable candidate => some (config.setLiveDesk true, .afterOptions candidate)
  | .rollback => some (config.setLiveDesk false, .previewOptions)
  | .disable => some (config.setLiveDesk false, .shutdown .disabled)
  | .unpairDisable deviceId => some (config.setLiveDesk false, .shutdown (.unpair deviceId))
  | .unpairForget => some ({ config with connection := none }, .unpairGate)
  | .pairToken result => some (config, .pairStore result)
  | .pairStore result => some ({ config with connection := some result.connection }, .previewOptions)
  | _ => none

/-- The end of a write to the configuration or to protected storage. -/
def completed (s : Service) (id : Nat) (succeeds : Bool) : Option Service :=
  match s.tasks id with
  | none => none
  | some { command, stage } =>
      match stage with
      | .pairCredentials =>
          if succeeds then some (s.goto id command .pairClaim)
          else some (s.goto id command (.returned (.error .credentialStoreUnavailable)))
      -- The credential's deletion is best effort.
      | .unpairDelete deviceId => some (s.goto id command (.unpairRemove deviceId))
      | .unpairRemove deviceId =>
          if succeeds then
            s.withDesk (.writer (.remove deviceId)) (fun desk =>
              { s with desk := desk }.goto id command .unpairForget)
          else some (s.goto id command (.returned (.error .internal)))
      | stage =>
          match Stage.write s.config stage with
          | some (config, next) =>
              if succeeds then some ({ s with config := config }.goto id command next)
              else some (s.goto id command (.returned (.error .internal)))
          | none => none

def claimed (s : Service) (id : Nat) (result : Except IpcErrorCode PairingResult) :
    Option Service :=
  match s.tasks id with
  | some { command, stage := .pairClaim } =>
      match result with
      | .ok result => some (s.goto id command (.shutdown (.pair result)))
      | .error error => some (s.goto id command (.returned (.error error)))
  | _ => none

/-- The coordinator's pairing gate reads the stored connection; an entry is removed by an unpair
only. -/
def permits (s : Service) : LiveDeskEvent → Bool
  | .coordinator (.configureGate _ connection) => connection = s.config.connection
  | .writer (.remove _) => false
  | _ => true

def step (s : Service) : ServiceEvent → Option Service
  | .called id command =>
      match s.tasks id with
      | none => some (s.goto id command command.entry)
      | some _ => none
  | .advance id => s.advance u sha256Hex id
  | .readPrivacy id => s.readPrivacy id
  | .captured id input tracker => s.captured u id input tracker
  | .completed id succeeds => s.completed id succeeds
  | .claimed id result => s.claimed id result
  | .updatePrivacy privacy => some { s with config := { s.config with privacy := privacy } }
  | .desk e =>
      if s.permits e then s.withDesk e (fun desk => { s with desk := desk }) else none

variable {u sha256Hex}

@[simp] theorem goto_gate (s : Service) (id : Nat) (command : Command) (stage : Stage) :
    (s.goto id command stage).gate = s.gate := rfl

@[simp] theorem goto_tasks_self (s : Service) (id : Nat) (command : Command) (stage : Stage) :
    (s.goto id command stage).tasks id = some { command := command, stage := stage } :=
  Function.update_self _ _ _

theorem goto_tasks_of_ne (s : Service) {id j : Nat} (hne : j ≠ id) (command : Command)
    (stage : Stage) : (s.goto id command stage).tasks j = s.tasks j :=
  Function.update_of_ne hne _ _

theorem withDesk_eq_some {s s' : Service} {e : LiveDeskEvent} {next : LiveDesk → Service} :
    s.withDesk e next = some s' ↔ ∃ desk, s.desk.step e = some desk ∧ next desk = s' :=
  Option.map_eq_some_iff

/-- The command `id` goes to another stage; the tasks of all others stay. -/
def Moves (s : Service) (id : Nat) (s' : Service) : Prop :=
  ∃ r command stage stage', s' = goto r id command stage' ∧ r.tasks = s.tasks ∧
    s.tasks id = some { command := command, stage := stage }

theorem Moves.tasks_of_ne {s s' : Service} {id j : Nat} (h : s.Moves id s') (hne : j ≠ id) :
    s'.tasks j = s.tasks j := by
  obtain ⟨r, command, stage, stage', rfl, hr, -⟩ := h
  rw [goto_tasks_of_ne _ hne, hr]

/-- The event of the desk that a segment between two awaits runs. -/
def Stage.runs : Stage → Option LiveDeskEvent
  | .confirmStart => some (.coordinator .start)
  | .startCoordinator => some (.coordinator .start)
  | .shutdown next => some (.coordinator (.shutdown next.reason))
  | .unpairDiscard _ => some (.coordinator .discardAuthority)
  | .pairDiscard _ => some (.coordinator .discardAuthority)
  | .policyRefresh => some (.coordinator .requestFreshSnapshot)
  | _ => none

/-- What an event leaves of the configuration, the gate, the slot and the desk. -/
inductive Leaves (s : Service) (e : ServiceEvent) : Service → Prop
  | same : Leaves s e s
  | recorded (id : Nat) (command : Command) (snapshot : SanitizedPresenceSnapshot)
      (event : e = .advance id)
      (task : s.tasks id = some { command := command, stage := .previewRecord snapshot }) :
      Leaves s e { s with gate := s.gate.record (projectionOf snapshot) }
  | stored (id : Nat) (command : Command) (preview : Preview) (event : e = .advance id)
      (task : s.tasks id = some { command := command, stage := .previewStore preview }) :
      Leaves s e { s with preview := some preview }
  | cleared (id : Nat) (command : Command) (event : e = .advance id)
      (task : s.tasks id = some { command := command, stage := .unpairGate }) :
      Leaves s e { s with gate := s.gate.clear }
  | dropped (id : Nat) (command : Command) (event : e = .advance id)
      (task : s.tasks id = some { command := command, stage := .unpairSlot } ∨
        s.tasks id = some { command := command, stage := .policySlot }) :
      Leaves s e { s with preview := none }
  | adopted (id : Nat) (command : Command) (fingerprint : String) (event : e = .advance id)
      (task : s.tasks id = some { command := command, stage := .policyGate fingerprint })
      (other : fingerprint ≠ s.gate.fingerprint) :
      Leaves s e { s with gate := s.gate.policyDidChange fingerprint }
  | ran (id : Nat) (command : Command) (stage : Stage) (f : LiveDeskEvent) (desk : LiveDesk)
      (event : e = .advance id)
      (task : s.tasks id = some { command := command, stage := stage })
      (runs : Stage.runs stage = some f) (step : s.desk.step f = some desk) :
      Leaves s e { s with desk := desk }
  | removed (id : Nat) (command : Command) (deviceId : String) (desk : LiveDesk)
      (event : e = .completed id true)
      (task : s.tasks id = some { command := command, stage := .unpairRemove deviceId })
      (step : s.desk.step (.writer (.remove deviceId)) = some desk) :
      Leaves s e { s with desk := desk }
  | written (id : Nat) (command : Command) (stage next : Stage) (config : CoreConfig)
      (event : e = .completed id true)
      (task : s.tasks id = some { command := command, stage := stage })
      (write : Stage.write s.config stage = some (config, next)) :
      Leaves s e { s with config := config }
  | settings (privacy : PrivacyConfig) (event : e = .updatePrivacy privacy) :
      Leaves s e { s with config := { s.config with privacy := privacy } }
  | own (f : LiveDeskEvent) (desk : LiveDesk) (event : e = .desk f)
      (permitted : s.permits f = true) (step : s.desk.step f = some desk) :
      Leaves s e { s with desk := desk }

theorem Leaves.tasks {s r : Service} {e : ServiceEvent} (h : Leaves s e r) :
    r.tasks = s.tasks := by
  cases h <;> rfl

/-- The event leaves a service with the command `id` at another stage. -/
def LeavesAt (s : Service) (e : ServiceEvent) (id : Nat) (s' : Service) : Prop :=
  ∃ r command stage stage', Leaves s e r ∧ s' = goto r id command stage' ∧
    s.tasks id = some { command := command, stage := stage }

theorem LeavesAt.moves {s s' : Service} {e : ServiceEvent} {id : Nat} (h : s.LeavesAt e id s') :
    s.Moves id s' := by
  obtain ⟨r, command, stage, stage', hleaves, hgoto, htask⟩ := h
  exact ⟨r, command, stage, stage', hgoto, hleaves.tasks, htask⟩

private theorem leavesAt_withDesk {s s' : Service} {id : Nat} {command : Command}
    {stage stage' : Stage} {f : LiveDeskEvent}
    (htask : s.tasks id = some { command := command, stage := stage })
    (hruns : Stage.runs stage = some f)
    (h : s.withDesk f (fun desk => { s with desk := desk }.goto id command stage') = some s') :
    s.LeavesAt (.advance id) id s' := by
  obtain ⟨desk, hdesk, rfl⟩ := withDesk_eq_some.mp h
  exact ⟨_, command, stage, stage', .ran id command stage f desk rfl htask hruns hdesk, rfl, htask⟩

theorem advance_leaves {s s' : Service} {id : Nat} (h : s.advance u sha256Hex id = some s') :
    s.LeavesAt (.advance id) id s' := by
  rw [advance] at h
  split at h
  · contradiction
  · rename_i command stage htask
    cases stage with
    | previewRecord snapshot =>
        obtain rfl := Option.some.inj h
        exact ⟨_, _, _, _, .recorded id command snapshot rfl htask, rfl, htask⟩
    | previewStore preview =>
        obtain rfl := Option.some.inj h
        exact ⟨_, _, _, _, .stored id command preview rfl htask, rfl, htask⟩
    | unpairGate =>
        obtain rfl := Option.some.inj h
        exact ⟨_, _, _, _, .cleared id command rfl htask, rfl, htask⟩
    | unpairSlot =>
        obtain rfl := Option.some.inj h
        exact ⟨_, _, _, _, .dropped id command rfl (Or.inl htask), rfl, htask⟩
    | policySlot =>
        obtain rfl := Option.some.inj h
        exact ⟨_, _, _, _, .dropped id command rfl (Or.inr htask), rfl, htask⟩
    | policyGate fingerprint =>
        dsimp only at h
        split at h
        · obtain rfl := Option.some.inj h
          exact ⟨_, _, _, _, .same, rfl, htask⟩
        · rename_i hother
          obtain rfl := Option.some.inj h
          exact ⟨_, _, _, _, .adopted id command fingerprint rfl htask hother, rfl, htask⟩
    | confirmStart => exact leavesAt_withDesk htask rfl h
    | shutdown next => exact leavesAt_withDesk htask rfl h
    | unpairDiscard deviceId => exact leavesAt_withDesk htask rfl h
    | pairDiscard result => exact leavesAt_withDesk htask rfl h
    | policyRefresh => exact leavesAt_withDesk htask rfl h
    | startCoordinator => exact leavesAt_withDesk htask rfl h
    | _ =>
        -- Every other segment moves its command only, some of them after a test.
        dsimp only at h
        first
          | contradiction
          | (obtain rfl := Option.some.inj h; exact ⟨_, _, _, _, .same, rfl, htask⟩)
          | (split at h
             all_goals first
               | contradiction
               | (obtain rfl := Option.some.inj h; exact ⟨_, _, _, _, .same, rfl, htask⟩)
               | (split at h
                  all_goals
                    obtain rfl := Option.some.inj h
                    exact ⟨_, _, _, _, .same, rfl, htask⟩))

theorem readPrivacy_leaves {s s' : Service} {id : Nat} (h : s.readPrivacy id = some s') :
    s.LeavesAt (.readPrivacy id) id s' := by
  rw [readPrivacy] at h
  dsimp only at h
  split at h
  all_goals first
    | contradiction
    | (obtain rfl := Option.some.inj h; exact ⟨_, _, _, _, .same, rfl, by assumption⟩)

theorem captured_leaves {s s' : Service} {id : Nat} {input : CaptureInput}
    {tracker : MediaSessionTracker} (h : s.captured u id input tracker = some s') :
    s.LeavesAt (.captured id input tracker) id s' := by
  rw [captured] at h
  split at h
  all_goals first
    | contradiction
    | (obtain ⟨snapshot, -, rfl⟩ := Option.map_eq_some_iff.mp h
       exact ⟨_, _, _, _, .same, rfl, by assumption⟩)

theorem completed_leaves {s s' : Service} {id : Nat} {succeeds : Bool}
    (h : s.completed id succeeds = some s') : s.LeavesAt (.completed id succeeds) id s' := by
  rw [completed] at h
  split at h
  · contradiction
  · rename_i command stage htask
    split at h
    · split at h <;> obtain rfl := Option.some.inj h <;> exact ⟨_, _, _, _, .same, rfl, htask⟩
    · obtain rfl := Option.some.inj h
      exact ⟨_, _, _, _, .same, rfl, htask⟩
    · split at h
      · rename_i hsucceeds
        obtain ⟨desk, hdesk, rfl⟩ := withDesk_eq_some.mp h
        exact ⟨_, _, _, _, .removed id command _ desk (by rw [hsucceeds]) htask hdesk, rfl, htask⟩
      · obtain rfl := Option.some.inj h
        exact ⟨_, _, _, _, .same, rfl, htask⟩
    · split at h
      · rename_i config next hwrite
        split at h
        · rename_i hsucceeds
          obtain rfl := Option.some.inj h
          have hdone : ServiceEvent.completed id succeeds = .completed id true := by rw [hsucceeds]
          exact ⟨_, _, _, _, .written id command _ next config hdone htask hwrite, rfl, htask⟩
        · obtain rfl := Option.some.inj h
          exact ⟨_, _, _, _, .same, rfl, htask⟩
      · contradiction

theorem claimed_leaves {s s' : Service} {id : Nat} {result : Except IpcErrorCode PairingResult}
    (h : s.claimed id result = some s') : s.LeavesAt (.claimed id result) id s' := by
  rw [claimed] at h
  split at h
  · split at h
    all_goals
      obtain rfl := Option.some.inj h
      exact ⟨_, _, _, _, .same, rfl, by assumption⟩
  · contradiction

theorem step_leaves {s s' : Service} {e : ServiceEvent} (h : s.step u sha256Hex e = some s') :
    ∃ r, Leaves s e r ∧ s'.config = r.config ∧ s'.gate = r.gate ∧ s'.preview = r.preview ∧
      s'.desk = r.desk := by
  have hat {id : Nat} (hleaves : s.LeavesAt e id s') : ∃ r, Leaves s e r ∧
      s'.config = r.config ∧ s'.gate = r.gate ∧ s'.preview = r.preview ∧ s'.desk = r.desk := by
    obtain ⟨r, command, stage, stage', hleaves, rfl, -⟩ := hleaves
    exact ⟨r, hleaves, rfl, rfl, rfl, rfl⟩
  cases e with
  | called id command =>
      simp only [step] at h
      split at h
      · obtain rfl := Option.some.inj h
        exact ⟨s, .same, rfl, rfl, rfl, rfl⟩
      · contradiction
  | advance id => exact hat (advance_leaves h)
  | readPrivacy id => exact hat (readPrivacy_leaves h)
  | captured id input tracker => exact hat (captured_leaves h)
  | completed id succeeds => exact hat (completed_leaves h)
  | claimed id result => exact hat (claimed_leaves h)
  | updatePrivacy privacy =>
      obtain rfl := Option.some.inj h
      exact ⟨_, .settings privacy rfl, rfl, rfl, rfl, rfl⟩
  | desk f =>
      simp only [step] at h
      split at h
      · rename_i hpermits
        obtain ⟨desk, hdesk, rfl⟩ := withDesk_eq_some.mp h
        exact ⟨_, .own f desk rfl hpermits hdesk, rfl, rfl, rfl, rfl⟩
      · contradiction

/-- What a step does to the tasks: nothing, a command appears, or the command of the event moves. -/
theorem step_moves {s s' : Service} {e : ServiceEvent} (h : s.step u sha256Hex e = some s') :
    (e.task = none ∧ s'.tasks = s.tasks) ∨
      (∃ id command, e = .called id command ∧ s.tasks id = none ∧
        s' = s.goto id command command.entry) ∨
      ∃ id, e.task = some id ∧ s.Moves id s' := by
  cases e with
  | called id command =>
      simp only [step] at h
      split at h
      · rename_i hnone
        obtain rfl := Option.some.inj h
        exact Or.inr (Or.inl ⟨id, command, rfl, hnone, rfl⟩)
      · contradiction
  | advance id => exact Or.inr (Or.inr ⟨id, rfl, (advance_leaves h).moves⟩)
  | readPrivacy id => exact Or.inr (Or.inr ⟨id, rfl, (readPrivacy_leaves h).moves⟩)
  | captured id input tracker => exact Or.inr (Or.inr ⟨id, rfl, (captured_leaves h).moves⟩)
  | completed id succeeds => exact Or.inr (Or.inr ⟨id, rfl, (completed_leaves h).moves⟩)
  | claimed id result => exact Or.inr (Or.inr ⟨id, rfl, (claimed_leaves h).moves⟩)
  | updatePrivacy privacy =>
      obtain rfl := Option.some.inj h
      exact Or.inl ⟨rfl, rfl⟩
  | desk f =>
      simp only [step] at h
      split at h
      · obtain ⟨desk, -, rfl⟩ := withDesk_eq_some.mp h
        exact Or.inl ⟨rfl, rfl⟩
      · contradiction

theorem step_tasks_of_ne {s s' : Service} {e : ServiceEvent}
    (h : s.step u sha256Hex e = some s') {j : Nat} (hne : e.task ≠ some j) :
    s'.tasks j = s.tasks j := by
  rcases step_moves h with ⟨-, htasks⟩ | ⟨id, command, rfl, -, rfl⟩ | ⟨id, hid, hmoves⟩
  · rw [htasks]
  · refine goto_tasks_of_ne s ?_ command command.entry
    rintro rfl
    exact hne rfl
  · refine hmoves.tasks_of_ne ?_
    rintro rfl
    exact hne hid

theorem step_task_before {s s' : Service} {e : ServiceEvent}
    (h : s.step u sha256Hex e = some s') {id : Nat} {command : Command} {stage' : Stage}
    (htask : s'.tasks id = some { command := command, stage := stage' }) :
    (s.tasks id = none ∧ stage' = command.entry) ∨
      ∃ stage, s.tasks id = some { command := command, stage := stage } := by
  by_cases hid : e.task = some id
  · rcases step_moves h with ⟨hnone, -⟩ | ⟨j, command', rfl, hnone, rfl⟩ | ⟨j, hj, hmoves⟩
    · rw [hnone] at hid
      contradiction
    · obtain rfl := Option.some.inj hid
      rw [goto_tasks_self] at htask
      obtain ⟨rfl, rfl⟩ := Task.mk.inj (Option.some.inj htask)
      exact Or.inl ⟨hnone, rfl⟩
    · obtain rfl := Option.some.inj (hj.symm.trans hid)
      obtain ⟨r, command', stage, stage'', rfl, -, hbefore⟩ := hmoves
      rw [goto_tasks_self] at htask
      obtain ⟨rfl, -⟩ := Task.mk.inj (Option.some.inj htask)
      exact Or.inr ⟨stage, hbefore⟩
  · rw [step_tasks_of_ne h hid] at htask
    exact Or.inr ⟨stage', htask⟩

theorem step_awaits {s s' : Service} {e : ServiceEvent} {id : Nat} {command : Command}
    {stage : Stage} (h : s.step u sha256Hex e = some s')
    (htask : s.tasks id = some { command := command, stage := stage })
    (hid : e.task = some id) : e.serves = stage.awaits ∧ stage.awaits ≠ none := by
  cases e with
  | called j command' =>
      obtain rfl := Option.some.inj hid
      simp [step, htask] at h
  | advance j =>
      obtain rfl := Option.some.inj hid
      simp only [step, advance, htask] at h
      cases stage <;> first | contradiction | simp [ServiceEvent.serves, Stage.awaits]
  | readPrivacy j =>
      obtain rfl := Option.some.inj hid
      simp only [step, readPrivacy, htask] at h
      cases stage <;> first | contradiction | simp [ServiceEvent.serves, Stage.awaits]
  | captured j input tracker =>
      obtain rfl := Option.some.inj hid
      simp only [step, captured, htask] at h
      cases stage <;> first | contradiction | simp [ServiceEvent.serves, Stage.awaits]
  | completed j succeeds =>
      obtain rfl := Option.some.inj hid
      simp only [step, completed, htask] at h
      cases stage <;> first | contradiction | simp [ServiceEvent.serves, Stage.awaits]
  | claimed j result =>
      obtain rfl := Option.some.inj hid
      simp only [step, claimed, htask] at h
      cases stage <;> first | contradiction | simp [ServiceEvent.serves, Stage.awaits]
  | updatePrivacy privacy => contradiction
  | desk e => contradiction

theorem step_returned {s s' : Service} {e : ServiceEvent} {id : Nat} {command : Command}
    {result : Except IpcErrorCode (Option Preview)} (h : s.step u sha256Hex e = some s')
    (htask : s.tasks id = some { command := command, stage := .returned result }) :
    s'.tasks id = some { command := command, stage := .returned result } := by
  have hid : e.task ≠ some id := by
    intro hid
    exact (step_awaits h htask hid).2 rfl
  exact (step_tasks_of_ne h hid).trans htask

theorem step_called {s s' : Service} {e : ServiceEvent} {id : Nat} {task : Task}
    (h : s.step u sha256Hex e = some s') (hbefore : s.tasks id = none)
    (htask : s'.tasks id = some task) : e = .called id task.command := by
  have hid : e.task = some id := by
    by_contra hne
    rw [step_tasks_of_ne h hne, hbefore] at htask
    contradiction
  rcases step_moves h with ⟨hnone, -⟩ | ⟨j, command, rfl, -, rfl⟩ | ⟨j, hj, hmoves⟩
  · rw [hnone] at hid
    contradiction
  · obtain rfl := Option.some.inj hid
    rw [goto_tasks_self] at htask
    rw [← Option.some.inj htask]
  · obtain rfl := Option.some.inj (hj.symm.trans hid)
    obtain ⟨r, command, stage, stage', -, -, hsome⟩ := hmoves
    rw [hbefore] at hsome
    contradiction

theorem step_segment {s s' : Service} {e : ServiceEvent} {id : Nat} {command : Command}
    {stage : Stage} (h : s.step u sha256Hex e = some s')
    (htask : s.tasks id = some { command := command, stage := stage })
    (hstage : stage.awaits = some .segment) :
    s'.tasks id = some { command := command, stage := stage } ∨
      s.advance u sha256Hex id = some s' := by
  by_cases hid : e.task = some id
  · have hserves := (step_awaits h htask hid).1
    rw [hstage] at hserves
    cases e with
    | advance j =>
        obtain rfl := Option.some.inj hid
        exact Or.inr h
    | _ => simp [ServiceEvent.serves] at hserves
  · exact Or.inl ((step_tasks_of_ne h hid).trans htask)

theorem step_write {s s' : Service} {e : ServiceEvent} {id : Nat} {command : Command}
    {stage : Stage} (h : s.step u sha256Hex e = some s')
    (htask : s.tasks id = some { command := command, stage := stage })
    (hstage : stage.awaits = some .write) :
    s'.tasks id = some { command := command, stage := stage } ∨
      ∃ succeeds, e = .completed id succeeds := by
  by_cases hid : e.task = some id
  · have hserves := (step_awaits h htask hid).1
    rw [hstage] at hserves
    cases e with
    | completed j succeeds =>
        obtain rfl := Option.some.inj hid
        exact Or.inr ⟨succeeds, rfl⟩
    | _ => simp [ServiceEvent.serves] at hserves
  · exact Or.inl ((step_tasks_of_ne h hid).trans htask)

theorem step_segment_or_write {s s' : Service} {e : ServiceEvent} {id : Nat} {command : Command}
    {stage : Stage} (h : s.step u sha256Hex e = some s')
    (htask : s.tasks id = some { command := command, stage := stage })
    (hstage : stage.awaits = none ∨ stage.awaits = some .segment ∨ stage.awaits = some .write) :
    s'.tasks id = some { command := command, stage := stage } ∨
      s.advance u sha256Hex id = some s' ∨ ∃ succeeds, s.completed id succeeds = some s' := by
  rcases hstage with hnone | hsegment | hwrite
  · left
    rw [step_tasks_of_ne h (fun hid => (step_awaits h htask hid).2 hnone)]
    exact htask
  · rcases step_segment h htask hsegment with hkept | hadvance
    · exact Or.inl hkept
    · exact Or.inr (Or.inl hadvance)
  · rcases step_write h htask hwrite with hkept | ⟨succeeds, rfl⟩
    · exact Or.inl hkept
    · exact Or.inr (Or.inr ⟨succeeds, h⟩)

def PlacedAt (s : Service) (id : Nat) : Prop :=
  ∀ command stage, s.tasks id = some { command := command, stage := stage } →
    stage.belongs command = true

/-- Every command is at a stage of its own. -/
def Placed (s : Service) : Prop := ∀ id, s.PlacedAt id

theorem placedAt_goto {r : Service} {id : Nat} {command : Command} {stage : Stage}
    (h : stage.belongs command = true) : (r.goto id command stage).PlacedAt id := by
  intro command' stage' htask
  rw [goto_tasks_self] at htask
  obtain ⟨rfl, rfl⟩ := Task.mk.inj (Option.some.inj htask)
  exact h

theorem placedAt_withDesk {s s' : Service} {id : Nat} {command : Command} {stage : Stage}
    {e : LiveDeskEvent} (hstage : stage.belongs command = true)
    (h : s.withDesk e (fun desk => { s with desk := desk }.goto id command stage) = some s') :
    s'.PlacedAt id := by
  obtain ⟨desk, -, rfl⟩ := withDesk_eq_some.mp h
  exact placedAt_goto hstage

theorem advance_placed {s s' : Service} {id : Nat} (hplaced : s.Placed)
    (h : s.advance u sha256Hex id = some s') : s'.PlacedAt id := by
  rw [advance] at h
  split at h
  · contradiction
  · rename_i command stage htask
    have hstage := hplaced id command stage htask
    cases stage with
    | shutdown next =>
        have hcommand : command = next.command := of_decide_eq_true hstage
        refine placedAt_withDesk ?_ h
        split
        · exact AfterShutdown.stage_belongs hcommand
        · exact hstage
    | shutdownWait task next =>
        have hcommand : command = next.command := of_decide_eq_true hstage
        dsimp only at h
        split at h
        · obtain rfl := Option.some.inj h
          exact placedAt_goto (AfterShutdown.stage_belongs hcommand)
        · contradiction
    | _ =>
        -- Within a group, from a consent to its preview, or to the end.
        dsimp only at h
        first
          | contradiction
          | exact placedAt_withDesk hstage h
          | exact placedAt_withDesk rfl h
          | (obtain rfl := Option.some.inj h
             first
               | exact placedAt_goto hstage
               | exact placedAt_goto rfl)
          | (split at h
             all_goals first
               | (obtain rfl := Option.some.inj h
                  first
                    | exact placedAt_goto hstage
                    | exact placedAt_goto (Command.previews_of_uiFingerprint hstage)
                    | exact placedAt_goto rfl)
               | (split at h
                  all_goals
                    obtain rfl := Option.some.inj h
                    first
                      | exact placedAt_goto hstage
                      | exact placedAt_goto (Command.previews_of_uiFingerprint hstage)))

theorem readPrivacy_placed {s s' : Service} {id : Nat} (hplaced : s.Placed)
    (h : s.readPrivacy id = some s') : s'.PlacedAt id := by
  rw [readPrivacy] at h
  dsimp only at h
  split at h
  · rename_i command capture htask
    obtain rfl := Option.some.inj h
    have hstage := hplaced id command _ htask
    exact placedAt_goto hstage
  · rename_i command candidate capture htask
    obtain rfl := Option.some.inj h
    have hstage := hplaced id command _ htask
    exact placedAt_goto hstage
  · rename_i command candidate capture htask
    obtain rfl := Option.some.inj h
    have hstage := hplaced id command _ htask
    exact placedAt_goto hstage
  · contradiction

theorem captured_placed {s s' : Service} {id : Nat} {input : CaptureInput}
    {tracker : MediaSessionTracker} (hplaced : s.Placed)
    (h : s.captured u id input tracker = some s') : s'.PlacedAt id := by
  rw [captured] at h
  split at h
  · rename_i command capture htask
    obtain ⟨snapshot, -, rfl⟩ := Option.map_eq_some_iff.mp h
    have hstage := hplaced id command _ htask
    exact placedAt_goto hstage
  · rename_i command candidate capture htask
    obtain ⟨snapshot, -, rfl⟩ := Option.map_eq_some_iff.mp h
    have hstage := hplaced id command _ htask
    exact placedAt_goto hstage
  · rename_i command candidate capture htask
    obtain ⟨snapshot, -, rfl⟩ := Option.map_eq_some_iff.mp h
    have hstage := hplaced id command _ htask
    exact placedAt_goto hstage
  · contradiction

theorem write_belongs {config config' : CoreConfig} {command : Command} {stage stage' : Stage}
    (hstage : stage.belongs command = true)
    (h : Stage.write config stage = some (config', stage')) : stage'.belongs command = true := by
  cases stage with
  | enable candidate =>
      obtain ⟨-, rfl⟩ := Prod.mk.inj (Option.some.inj h)
      exact hstage
  | rollback =>
      obtain ⟨-, rfl⟩ := Prod.mk.inj (Option.some.inj h)
      exact Command.previews_of_uiFingerprint hstage
  | disable =>
      obtain ⟨-, rfl⟩ := Prod.mk.inj (Option.some.inj h)
      exact hstage
  | unpairDisable deviceId =>
      obtain ⟨-, rfl⟩ := Prod.mk.inj (Option.some.inj h)
      exact hstage
  | unpairForget =>
      obtain ⟨-, rfl⟩ := Prod.mk.inj (Option.some.inj h)
      exact hstage
  | pairToken result =>
      obtain ⟨-, rfl⟩ := Prod.mk.inj (Option.some.inj h)
      exact hstage
  | pairStore result =>
      obtain ⟨-, rfl⟩ := Prod.mk.inj (Option.some.inj h)
      obtain rfl : command = .pair := of_decide_eq_true hstage
      rfl
  | _ => contradiction

theorem completed_placed {s s' : Service} {id : Nat} {succeeds : Bool} (hplaced : s.Placed)
    (h : s.completed id succeeds = some s') : s'.PlacedAt id := by
  rw [completed] at h
  split at h
  · contradiction
  · rename_i command stage htask
    have hstage := hplaced id command stage htask
    split at h
    · split at h
      · obtain rfl := Option.some.inj h
        exact placedAt_goto hstage
      · obtain rfl := Option.some.inj h
        exact placedAt_goto rfl
    · obtain rfl := Option.some.inj h
      have hnext : Stage.unpairForget.belongs command = true := hstage
      exact placedAt_goto hnext
    · split at h
      · have hnext : Stage.unpairForget.belongs command = true := hstage
        exact placedAt_withDesk hnext h
      · obtain rfl := Option.some.inj h
        exact placedAt_goto rfl
    · split at h
      · rename_i config next hwrite
        split at h
        · obtain rfl := Option.some.inj h
          exact placedAt_goto (write_belongs hstage hwrite)
        · obtain rfl := Option.some.inj h
          exact placedAt_goto rfl
      · contradiction

theorem claimed_placed {s s' : Service} {id : Nat} {result : Except IpcErrorCode PairingResult}
    (hplaced : s.Placed) (h : s.claimed id result = some s') : s'.PlacedAt id := by
  rw [claimed] at h
  split at h
  · rename_i command htask
    split at h
    · obtain rfl := Option.some.inj h
      have hstage := hplaced id command _ htask
      exact placedAt_goto hstage
    · obtain rfl := Option.some.inj h
      exact placedAt_goto rfl
  · contradiction

theorem Placed.step {s s' : Service} {e : ServiceEvent} (hplaced : s.Placed)
    (h : s.step u sha256Hex e = some s') : s'.Placed := by
  intro j
  by_cases hj : e.task = some j
  · cases e with
    | called id command =>
        obtain rfl := Option.some.inj hj
        simp only [Service.step] at h
        split at h
        · obtain rfl := Option.some.inj h
          exact placedAt_goto command.entry_belongs
        · contradiction
    | advance id =>
        obtain rfl := Option.some.inj hj
        exact advance_placed hplaced h
    | readPrivacy id =>
        obtain rfl := Option.some.inj hj
        exact readPrivacy_placed hplaced h
    | captured id input tracker =>
        obtain rfl := Option.some.inj hj
        exact captured_placed hplaced h
    | completed id succeeds =>
        obtain rfl := Option.some.inj hj
        exact completed_placed hplaced h
    | claimed id result =>
        obtain rfl := Option.some.inj hj
        exact claimed_placed hplaced h
    | updatePrivacy privacy => contradiction
    | desk e => contradiction
  · intro command stage htask
    rw [step_tasks_of_ne h hj] at htask
    exact hplaced j command stage htask

theorem placed_run {config : CoreConfig} {backing : String → Option Int}
    {es : List ServiceEvent} {s : Service}
    (h : exec (Service.step u sha256Hex) (new u sha256Hex config backing) es = some s) :
    s.Placed := by
  have hnew : (new u sha256Hex config backing).Placed := by
    intro id command stage htask
    exact nomatch htask
  exact exec_invariant hnew (fun _ _ _ hplaced hstep => hplaced.step hstep) h

end Service

end YohakuCore
