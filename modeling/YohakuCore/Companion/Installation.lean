import YohakuCore.Companion.FlagAgreement
import YohakuCore.Store.Config

/-!
# The service and what it leaves on the machine

An update of the configuration holds one lock while it writes a whole file, renames it over
config.json and swaps the configuration in memory. The process may end at any instant; the next
one starts from config.json, sequence.json and the protected storage as they are then. Tokens are
in the protected storage only, one for each device.
-/

namespace YohakuCore

open Framework

/-- The update of the configuration that a stage awaits; a pairing's token is written elsewhere. -/
def Service.Stage.update (config : CoreConfig) : Stage → Option CoreConfig
  | .pairToken _ => none
  | stage => (Stage.write config stage).map Prod.fst

/-- The update of the configuration that a command awaits. -/
def Service.updateOf (s : Service) (id : Nat) : Option CoreConfig :=
  (s.tasks id).bind (fun task => Stage.update s.config task.stage)

inductive Updater where
  | command (id : Nat)
  | settings
  deriving DecidableEq

structure Installation where
  service : Service
  /-- config.json, or `none` where it is missing, unreadable or corrupt. -/
  file : Option CoreConfig
  /-- The update that has renamed its file over config.json and has yet to swap memory. -/
  updating : Option (Updater × CoreConfig)
  credentials : String → Option String

inductive InstallationEvent where
  | renamed (id : Nat)
  | settingsRenamed (privacy : PrivacyConfig)
  | service (e : ServiceEvent)
  | restarted

namespace Installation

variable (u : UnicodeData) (sha256Hex : String → String)

/-- A process start. -/
def opened (file : Option CoreConfig) (backing : String → Option Int)
    (credentials : String → Option String) : Installation where
  service := Service.new u sha256Hex (file.getD defaultCoreConfig) backing
  file := file
  updating := none
  credentials := credentials

/-- The configuration that the next process start loads. -/
def loaded (s : Installation) : CoreConfig := s.file.getD defaultCoreConfig

/-- An update validates its whole configuration before it writes. -/
def rename (s : Installation) (updater : Updater) (config : CoreConfig) : Option Installation :=
  match s.updating, validateConfigSemantics config with
  | none, .ok () => some { s with file := some config, updating := some (updater, config) }
  | _, _ => none

/-- What a service event asks of the files: an update that ends well has renamed its file; one
that fails holds the lock and has not; a token is read from the protected storage, whose failures
read as no token. -/
def permits (s : Installation) : ServiceEvent → Bool
  | .completed id succeeds =>
      match s.service.updateOf id with
      | some config =>
          if succeeds then s.updating = some (.command id, config) else s.updating = none
      | none => true
  | .updatePrivacy privacy =>
      s.updating = some (.settings, { s.service.config with privacy := privacy })
  | .desk (.coordinator (.configureToken i (some token) _)) =>
      match s.service.desk.coordinator.configures i with
      | some { pc := .token connection, .. } => s.credentials connection.deviceId = some token
      | _ => true
  | _ => true

/-- The event swaps the configuration in memory. -/
def swaps (s : Installation) : ServiceEvent → Bool
  | .completed id succeeds => succeeds && (s.service.updateOf id).isSome
  | .updatePrivacy _ => true
  | _ => false

/-- The protected storage after a service event. -/
def stored (s : Installation) : ServiceEvent → String → Option String
  | .completed id true =>
      match s.service.tasks id with
      | some { stage := .pairToken result, .. } =>
          Function.update s.credentials result.deviceId (some result.deviceToken)
      | some { stage := .unpairDelete deviceId, .. } =>
          Function.update s.credentials deviceId none
      | _ => s.credentials
  | _ => s.credentials

def step (s : Installation) : InstallationEvent → Option Installation
  | .renamed id => (s.service.updateOf id).bind (fun config => s.rename (.command id) config)
  | .settingsRenamed privacy => s.rename .settings { s.service.config with privacy := privacy }
  | .service e =>
      if s.permits e then
        (s.service.step u sha256Hex e).map (fun service =>
          { s with
            service := service
            updating := if s.swaps e then none else s.updating
            credentials := s.stored e })
      else none
  | .restarted => some (opened u sha256Hex s.file s.service.desk.writer.backing s.credentials)

/-- The configuration as a value in memory with a durable copy. -/
def cell (s : Installation) : DurableCell CoreConfig where
  memory := s.service.config
  copy := s.file
  inFlight := s.updating.map Prod.snd

variable {u sha256Hex}

@[simp] theorem cell_load (s : Installation) : s.cell.load defaultCoreConfig = s.loaded := rfl

theorem rename_eq_some {s s' : Installation} {updater : Updater} {config : CoreConfig}
    (h : s.rename updater config = some s') : s.updating = none ∧
      s' = { s with file := some config, updating := some (updater, config) } := by
  rw [rename] at h
  split at h
  · rename_i hidle hvalid
    exact ⟨hidle, (Option.some.inj h).symm⟩
  · contradiction

theorem step_service {s s' : Installation} {e : ServiceEvent}
    (h : s.step u sha256Hex (.service e) = some s') : s.permits e = true ∧
      s.service.step u sha256Hex e = some s'.service ∧ s'.file = s.file ∧
      s'.updating = (if s.swaps e then none else s.updating) ∧ s'.credentials = s.stored e := by
  simp only [step] at h
  split at h
  · rename_i hpermits
    obtain ⟨service, hservice, rfl⟩ := Option.map_eq_some_iff.mp h
    exact ⟨hpermits, hservice, rfl, rfl, rfl⟩
  · contradiction

theorem updating_of_service {s s' : Installation} {e : ServiceEvent}
    {updating : Updater × CoreConfig} (h : s.step u sha256Hex (.service e) = some s')
    (hupdating : s'.updating = some updating) :
    s.swaps e = false ∧ s.updating = some updating := by
  obtain ⟨-, -, -, hafter, -⟩ := step_service h
  cases hswaps : s.swaps e with
  | true => simp [hafter, hswaps] at hupdating
  | false => exact ⟨rfl, by simpa [hafter, hswaps] using hupdating⟩

theorem step_renamed {s s' : Installation} {id : Nat}
    (h : s.step u sha256Hex (.renamed id) = some s') :
    ∃ config, s.service.updateOf id = some config ∧ s.updating = none ∧
      s' = { s with file := some config, updating := some (.command id, config) } := by
  obtain ⟨config, hupdate, hrename⟩ := Option.bind_eq_some_iff.mp h
  exact ⟨config, hupdate, rename_eq_some hrename⟩

/-- What holds at every start of the service and is kept by its steps holds in every process. -/
theorem service_run {I : Service → Prop}
    (start : ∀ config backing, I (Service.new u sha256Hex config backing))
    (next : ∀ s e s', I s → s.step u sha256Hex e = some s' → I s')
    {file : Option CoreConfig} {backing : String → Option Int}
    {credentials : String → Option String} {es : List InstallationEvent} {s : Installation}
    (h : exec (Installation.step u sha256Hex) (opened u sha256Hex file backing credentials) es =
      some s) : I s.service := by
  refine exec_invariant (I := fun s => I s.service) (start _ _) ?_ h
  intro s₁ e s₂ hs₁ hstep
  cases e with
  | renamed id =>
      obtain ⟨config, -, -, rfl⟩ := step_renamed hstep
      exact hs₁
  | settingsRenamed privacy =>
      obtain ⟨-, rfl⟩ := rename_eq_some hstep
      exact hs₁
  | service e => exact next _ e _ hs₁ (step_service hstep).2.1
  | restarted =>
      obtain rfl := Option.some.inj hstep
      exact start _ _

theorem placed_run {file : Option CoreConfig} {backing : String → Option Int}
    {credentials : String → Option String} {es : List InstallationEvent} {s : Installation}
    (h : exec (Installation.step u sha256Hex) (opened u sha256Hex file backing credentials) es =
      some s) : s.service.Placed :=
  service_run (I := Service.Placed) (fun _ _ => Service.placed_run (exec_nil _))
    (fun _ _ _ hs hstep => hs.step hstep) h

theorem desk_inv_run {file : Option CoreConfig} {backing : String → Option Int}
    {credentials : String → Option String} {es : List InstallationEvent} {s : Installation}
    (h : exec (Installation.step u sha256Hex) (opened u sha256Hex file backing credentials) es =
      some s) : s.service.desk.Inv :=
  service_run (I := fun s => s.desk.Inv) (fun _ backing => LiveDesk.inv_new backing)
    (fun _ _ _ hs hstep => Service.desk_inv_step hs hstep) h

theorem update_awaits {config config' : CoreConfig} {stage : Stage}
    (h : Service.Stage.update config stage = some config') : stage.awaits = some .write := by
  cases stage with
  | enable candidate => rfl
  | rollback => rfl
  | disable => rfl
  | unpairDisable deviceId => rfl
  | unpairForget => rfl
  | pairStore result => rfl
  | _ => contradiction

theorem updateOf_eq_some {s : Service} {id : Nat} {config : CoreConfig}
    (h : s.updateOf id = some config) :
    ∃ command stage next, s.tasks id = some { command := command, stage := stage } ∧
      Service.Stage.update s.config stage = some config ∧
      Service.Stage.write s.config stage = some (config, next) := by
  obtain ⟨⟨command, stage⟩, htask, hupdate⟩ := Option.bind_eq_some_iff.mp h
  have hfirst : (Service.Stage.write s.config stage).map Prod.fst = some config := by
    cases stage with
    | pairToken result => contradiction
    | _ => exact hupdate
  obtain ⟨⟨config', next⟩, hwrite, rfl⟩ := Option.map_eq_some_iff.mp hfirst
  exact ⟨command, stage, next, htask, hupdate, hwrite⟩

theorem step_swaps {s s' : Installation} {e : ServiceEvent}
    (h : s.step u sha256Hex (.service e) = some s') (hswaps : s.swaps e = true) :
    ∃ updater, s.updating = some (updater, s'.service.config) ∧
      (∀ id, updater = .command id → e = .completed id true) ∧
      (updater = .settings → e.task = none) := by
  obtain ⟨hpermits, hservice, -⟩ := step_service h
  cases e with
  | completed id succeeds =>
      rw [swaps, Bool.and_eq_true] at hswaps
      obtain ⟨rfl, hsome⟩ := hswaps
      obtain ⟨config, hupdate⟩ := Option.isSome_iff_exists.mp hsome
      obtain ⟨command, stage, next, htask, -, hwrite⟩ := updateOf_eq_some hupdate
      have hconfig : s'.service.config = config := by
        rw [Service.step_written hservice htask hwrite]
        rfl
      rw [permits, hupdate] at hpermits
      refine ⟨.command id, hconfig ▸ of_decide_eq_true hpermits, ?_, fun h => by contradiction⟩
      intro j hj
      rw [Updater.command.inj hj]
  | updatePrivacy privacy =>
      have hconfig : s'.service.config = { s.service.config with privacy := privacy } := by
        rw [← Option.some.inj hservice]
      exact ⟨.settings, hconfig ▸ of_decide_eq_true hpermits, fun _ h => by contradiction,
        fun _ => rfl⟩
  | _ => contradiction

theorem config_of_not_swaps {s s' : Installation} {e : ServiceEvent}
    (h : s.step u sha256Hex (.service e) = some s') (hkeeps : s.swaps e = false) :
    s'.service.config = s.service.config := by
  cases Service.step_config (step_service h).2.1 with
  | kept hconfig => exact hconfig
  | settings privacy he hconfig =>
      subst he
      contradiction
  | written id command stage next he htask hwrite =>
      subst he
      have hnone : s.service.updateOf id = none := by simpa [swaps] using hkeeps
      cases stage with
      | pairToken result => exact (Prod.mk.inj (Option.some.inj hwrite)).1.symm
      | _ => simp [Service.updateOf, htask, Service.Stage.update, hwrite] at hnone

theorem step_cell {s s' : Installation} {e : InstallationEvent}
    (h : s.step u sha256Hex e = some s') :
    DurableCell.Moves defaultCoreConfig s.cell s'.cell := by
  cases e with
  | renamed id =>
      obtain ⟨config, -, hidle, rfl⟩ := step_renamed h
      exact .replaced config (by simp [cell, hidle]) rfl
  | settingsRenamed privacy =>
      obtain ⟨hidle, rfl⟩ := rename_eq_some h
      exact .replaced _ (by simp [cell, hidle]) rfl
  | restarted =>
      obtain rfl := Option.some.inj h
      exact .restarted rfl
  | service e =>
      obtain ⟨-, -, hfile, hupdating, -⟩ := step_service h
      cases hswaps : s.swaps e with
      | true =>
          obtain ⟨updater, hbusy, -⟩ := step_swaps h hswaps
          refine .installed s'.service.config (by simp [cell, hbusy]) ?_
          simp [cell, DurableCell.install, hfile, hupdating, hswaps]
      | false =>
          refine .kept ?_
          simp [cell, hfile, hupdating, hswaps, config_of_not_swaps h hswaps]

/-- The file holds the configuration in memory or that of the update in flight, whose command
awaits it and whose connection, when it is the settings', is the one in memory. -/
structure Consistent (s : Installation) : Prop where
  synced : s.cell.Synced defaultCoreConfig
  command : ∀ id config, s.updating = some (.command id, config) →
    s.service.updateOf id = some config
  settings : ∀ config, s.updating = some (.settings, config) →
    config.connection = s.service.config.connection

theorem consistent_opened (file : Option CoreConfig) (backing : String → Option Int)
    (credentials : String → Option String) :
    (opened u sha256Hex file backing credentials).Consistent where
  synced := ⟨fun _ => rfl, fun _ h => by contradiction⟩
  command _ _ h := by contradiction
  settings _ h := by contradiction

theorem updateOf_step {s s' : Installation} {e : ServiceEvent} {id : Nat} {config : CoreConfig}
    (hupdate : s.service.updateOf id = some config) (hbusy : s.updating ≠ none)
    (h : s.step u sha256Hex (.service e) = some s') (hkeeps : s.swaps e = false) :
    s'.service.updateOf id = some config := by
  obtain ⟨hpermits, hservice, -⟩ := step_service h
  obtain ⟨command, stage, next, htask, hstage, -⟩ := updateOf_eq_some hupdate
  rcases Service.step_write hservice htask (update_awaits hstage) with hkept | ⟨succeeds, rfl⟩
  · rw [Service.updateOf, hkept, config_of_not_swaps h hkeeps]
    exact hstage
  · -- The end of this update swaps, and no failure is reported while it holds the lock.
    exfalso
    cases succeeds with
    | true => simp [swaps, hupdate] at hkeeps
    | false =>
        rw [permits, hupdate] at hpermits
        exact hbusy (of_decide_eq_true hpermits)

theorem Consistent.step {s s' : Installation} {e : InstallationEvent} (hs : s.Consistent)
    (h : s.step u sha256Hex e = some s') : s'.Consistent := by
  refine ⟨hs.synced.moves (step_cell h), ?_, ?_⟩
  · intro id config hupdating
    cases e with
    | renamed j =>
        obtain ⟨config', hupdate, -, rfl⟩ := step_renamed h
        obtain ⟨hj, rfl⟩ := Prod.mk.inj (Option.some.inj hupdating)
        obtain rfl := Updater.command.inj hj
        exact hupdate
    | settingsRenamed privacy =>
        obtain ⟨-, rfl⟩ := rename_eq_some h
        simp at hupdating
    | restarted =>
        obtain rfl := Option.some.inj h
        contradiction
    | service e =>
        obtain ⟨hswaps, hbefore⟩ := updating_of_service h hupdating
        exact updateOf_step (hs.command id config hbefore) (by simp [hbefore]) h hswaps
  · intro config hupdating
    cases e with
    | renamed j =>
        obtain ⟨config', -, -, rfl⟩ := step_renamed h
        simp at hupdating
    | settingsRenamed privacy =>
        obtain ⟨-, rfl⟩ := rename_eq_some h
        obtain ⟨-, rfl⟩ := Prod.mk.inj (Option.some.inj hupdating)
        rfl
    | restarted =>
        obtain rfl := Option.some.inj h
        contradiction
    | service e =>
        obtain ⟨hswaps, hbefore⟩ := updating_of_service h hupdating
        rw [config_of_not_swaps h hswaps]
        exact hs.settings config hbefore

theorem consistent_run {file : Option CoreConfig} {backing : String → Option Int}
    {credentials : String → Option String} {es : List InstallationEvent} {s : Installation}
    (h : exec (Installation.step u sha256Hex) (opened u sha256Hex file backing credentials) es =
      some s) : s.Consistent :=
  exec_invariant (consistent_opened file backing credentials)
    (fun _ _ _ hs hstep => hs.step hstep) h

/-- Unless a command's update is in flight, the next process start finds the stored connection of
memory. -/
theorem Consistent.connection {s : Installation} (hs : s.Consistent)
    (hnone : ∀ id config, s.updating ≠ some (.command id, config)) :
    s.loaded.connection = s.service.config.connection := by
  cases hupdating : s.updating with
  | none =>
      have hidle := hs.synced.idle (by simp [cell, hupdating])
      exact congrArg CoreConfig.connection hidle
  | some update =>
      obtain ⟨updater, config⟩ := update
      have hbusy := hs.synced.load_of_busy
        (show s.cell.inFlight = some config by simp [cell, hupdating])
      cases updater with
      | command id => exact absurd hupdating (hnone id config)
      | settings =>
          rw [← cell_load, hbusy]
          exact hs.settings config hupdating

/-- A run of the service alone. -/
def served (es : List ServiceEvent) : List InstallationEvent := es.map .service

end Installation

end YohakuCore
