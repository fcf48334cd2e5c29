import YohakuCore.Companion.Installation
import YohakuCore.Companion.ConsentPairing

/-!
# What a failed consent leaves behind

A consent persists the enabled flag before its second validation and takes it back in a write of its
own, which may fail or never come.
-/

namespace YohakuCore

open Framework

variable {u : UnicodeData} {sha256Hex : String → String}

theorem CoreConfig.not_disabled_setLiveDesk {config : CoreConfig} (h : config.connection ≠ none) :
    ¬ (config.setLiveDesk true).Disabled := by
  obtain ⟨connection, hconnection⟩ := Option.ne_none_iff_exists'.mp h
  intro hdisabled
  have henabled := hdisabled { connection with liveDeskEnabled := true } (by
    rw [setLiveDesk, hconnection]
    rfl)
  contradiction

/-- The commands that write the stored connection. -/
def Command.writesConnection : Command → Bool
  | confirmConsent _ | disableLiveDesk | unpair | pair => true
  | _ => false

/-- Every other command that writes the stored connection has returned. -/
def Service.Alone (s : Service) (id : Nat) : Prop :=
  ∀ j command stage, j ≠ id → s.tasks j = some { command := command, stage := stage } →
    command.writesConnection = true → ∃ result, stage = .returned result

theorem Service.update_disabled {config config' : CoreConfig} {stage : Stage}
    (h : Stage.update config stage = some config') (hnot : ∀ candidate, stage ≠ .enable candidate) :
    config'.Disabled := by
  have htoken (result : PairingResult) : stage ≠ .pairToken result := by
    rintro rfl
    contradiction
  have hfirst : (Stage.write config stage).map Prod.fst = some config' := by
    cases stage with
    | pairToken result => exact absurd rfl (htoken result)
    | _ => exact h
  obtain ⟨⟨written, next⟩, hwrite, rfl⟩ := Option.map_eq_some_iff.mp hfirst
  exact write_disabled hwrite hnot (fun result heq => absurd heq (htoken result))

theorem Service.writes_of_update {config config' : CoreConfig} {command : Command} {stage : Stage}
    (h : Stage.update config stage = some config') (hstage : stage.belongs command = true) :
    command.writesConnection = true := by
  cases stage with
  | enable candidate => cases command <;> first | rfl | contradiction
  | rollback => cases command <;> first | rfl | contradiction
  | disable => cases command <;> first | rfl | contradiction
  | unpairDisable deviceId => cases command <;> first | rfl | contradiction
  | unpairForget => cases command <;> first | rfl | contradiction
  | pairStore result => cases command <;> first | rfl | contradiction
  | _ => contradiction

theorem Service.Alone.step {s s' : Service} {e : ServiceEvent} {id : Nat} (h : s.Alone id)
    (hstep : s.step u sha256Hex e = some s')
    (hnot : ∀ j command, j ≠ id → e = .called j command → command.writesConnection = false) :
    s'.Alone id := by
  intro j command stage hne htask hwrites
  rcases step_task_before hstep htask with ⟨hnone, rfl⟩ | ⟨stage₀, hbefore⟩
  · have hcalled := step_called hstep hnone htask
    rw [hnot j command hne hcalled] at hwrites
    contradiction
  · obtain ⟨result, rfl⟩ := h j command stage₀ hne hbefore hwrites
    rw [step_returned hstep hbefore] at htask
    obtain ⟨-, rfl⟩ := Task.mk.inj (Option.some.inj htask)
    exact ⟨result, rfl⟩

namespace Installation

theorem eq_of_update {s : Installation} (hplaced : s.service.Placed) {id j : Nat}
    (halone : s.service.Alone id) {config : CoreConfig}
    (hupdate : s.service.updateOf j = some config) : j = id := by
  by_contra hne
  obtain ⟨command, stage, next, htask, hstage, -⟩ := updateOf_eq_some hupdate
  have hwrites := Service.writes_of_update hstage (hplaced j command stage htask)
  obtain ⟨result, rfl⟩ := halone j command stage hne htask hwrites
  contradiction

theorem alone_throughout {s : Installation} {es : List InstallationEvent} {id : Nat}
    (h : s.service.Alone id) (hprocess : ∀ e ∈ es, e ≠ .restarted)
    (hnot : ∀ j command, j ≠ id → .service (.called j command) ∈ es →
      command.writesConnection = false) :
    Throughout (Installation.step u sha256Hex) s es (fun s => s.service.Alone id) := by
  intro n s₁ hs₁
  have hmem {e : InstallationEvent} (he : e ∈ es.take n) : e ∈ es := List.mem_of_mem_take he
  refine EveryStep.invariant (I := fun s => s.service.Alone id) (Q := fun _ e _ => e ∈ es) h ?_ ?_
    hs₁
  · intro t e t' ht he hstep
    cases e with
    | renamed j =>
        obtain ⟨config, -, -, rfl⟩ := step_renamed hstep
        exact ht
    | settingsRenamed privacy =>
        obtain ⟨-, rfl⟩ := rename_eq_some hstep
        exact ht
    | restarted => exact absurd rfl (hprocess _ he)
    | service e =>
        refine ht.step (step_service hstep).2.1 ?_
        rintro j command hne rfl
        exact hnot j command hne he
  · intro m t₁ e t₂ hat
    exact hmem (List.mem_of_getElem? hat.event)

/-- The file of an enable comes to be config.json. -/
def RenamesEnable (s : Installation) (id : Nat) (e : InstallationEvent) : Prop :=
  e = .renamed id ∧ ∃ command candidate,
    s.service.tasks id = some { command := command, stage := .enable candidate }

/-- The file of a rollback comes to be config.json. -/
def RenamesRollback (s : Installation) (id : Nat) (e : InstallationEvent) : Prop :=
  e = .renamed id ∧ ∃ command,
    s.service.tasks id = some { command := command, stage := .rollback }

/-- The consent `id` under way in this process: whether the file says enabled is decided by which
of its two files has come to be config.json. -/
structure Consenting (id : Nat) (ui : String) (enabled rolledBack : Prop) (s : Installation) :
    Prop where
  consistent : s.Consistent
  placed : s.service.Placed
  file : s.loaded.Disabled ↔ (enabled → rolledBack)
  task : ∃ stage, s.service.tasks id = some { command := .confirmConsent ui, stage := stage } ∧
    (rolledBack → Stage.rollback.rank ≤ stage.rank) ∧
    (stage ≠ .confirmEntry → stage.rank ≤ Stage.rollback.rank →
      s.service.config.connection ≠ none)

theorem connected_step {s s' : Service} {e : ServiceEvent} {id : Nat} {ui : String} {stage : Stage}
    (hplaced : s.Placed) (halone : s.Alone id)
    (htask : s.tasks id = some { command := .confirmConsent ui, stage := stage })
    (hconnected : s.config.connection ≠ none) (h : s.step u sha256Hex e = some s') :
    s'.config.connection ≠ none := by
  cases Service.step_config h with
  | kept hconfig => rwa [hconfig]
  | settings privacy he hconfig => rwa [hconfig]
  | written j command stage' next he htask' hwrite =>
      cases stage' with
      | unpairForget =>
          have hcommand : command = .unpair := of_decide_eq_true (hplaced j command _ htask')
          have hne : j ≠ id := by
            rintro rfl
            rw [htask, hcommand] at htask'
            simp at htask'
          obtain ⟨result, hresult⟩ := halone j command _ hne htask' (by rw [hcommand]; rfl)
          contradiction
      | pairStore result =>
          obtain ⟨hconfig, -⟩ := Prod.mk.inj (Option.some.inj hwrite)
          simp [← hconfig]
      | pairToken result =>
          obtain ⟨hconfig, -⟩ := Prod.mk.inj (Option.some.inj hwrite)
          rwa [← hconfig]
      | enable candidate =>
          obtain ⟨hconfig, -⟩ := Prod.mk.inj (Option.some.inj hwrite)
          simpa [← hconfig, CoreConfig.setLiveDesk] using hconnected
      | rollback =>
          obtain ⟨hconfig, -⟩ := Prod.mk.inj (Option.some.inj hwrite)
          simpa [← hconfig, CoreConfig.setLiveDesk] using hconnected
      | disable =>
          obtain ⟨hconfig, -⟩ := Prod.mk.inj (Option.some.inj hwrite)
          simpa [← hconfig, CoreConfig.setLiveDesk] using hconnected
      | unpairDisable deviceId =>
          obtain ⟨hconfig, -⟩ := Prod.mk.inj (Option.some.inj hwrite)
          simpa [← hconfig, CoreConfig.setLiveDesk] using hconnected
      | _ => contradiction

theorem Consenting.task_step {s s' : Installation} {id : Nat} {ui : String}
    {enabled rolledBack : Prop} {e : ServiceEvent} (hc : Consenting id ui enabled rolledBack s)
    (halone : s.service.Alone id) (h : s.service.step u sha256Hex e = some s'.service) :
    ∃ stage, s'.service.tasks id = some { command := .confirmConsent ui, stage := stage } ∧
      (rolledBack → Stage.rollback.rank ≤ stage.rank) ∧
      (stage ≠ .confirmEntry → stage.rank ≤ Stage.rollback.rank →
        s'.service.config.connection ≠ none) := by
  obtain ⟨stage, htask, hback, hconnected⟩ := hc.task
  have hstage := hc.placed.ofConfirm htask
  rcases Service.step_confirm h htask hstage with hkept | ⟨stage', htask', hsegment⟩
  · refine ⟨stage, hkept, hback, ?_⟩
    intro hentered hrank
    exact connected_step hc.placed halone htask (hconnected hentered hrank) h
  · have hle := hsegment.rank_le hstage
    refine ⟨stage', htask', fun hrolled => le_trans (hback hrolled) hle, ?_⟩
    intro _ hrank
    by_cases hentry : stage = .confirmEntry
    · subst hentry
      cases hsegment with
      | entry =>
          obtain ⟨hsome, hconfig⟩ := Service.step_entry h htask htask'
          rwa [hconfig]
      | notPaired => simp [Stage.rank] at hrank
      | failed stage => simp [Stage.rank] at hrank
    · exact connected_step hc.placed halone htask (hconnected hentry (le_trans hle hrank)) h

/-- One step of the process while a consent runs alone. -/
theorem Consenting.step {s s' : Installation} {id : Nat} {ui : String}
    {enabled rolledBack : Prop} {e : InstallationEvent}
    (hc : Consenting id ui enabled rolledBack s) (halone : s.service.Alone id)
    (he : e ≠ .restarted) (h : s.step u sha256Hex e = some s') :
    Consenting id ui (enabled ∨ s.RenamesEnable id e) (rolledBack ∨ s.RenamesRollback id e) s' := by
  have hconsistent := hc.consistent.step h
  cases e with
  | restarted => contradiction
  | service e =>
      obtain ⟨-, hservice, hfile, -⟩ := step_service h
      have hloaded : s'.loaded = s.loaded := by rw [loaded, hfile, loaded]
      refine ⟨hconsistent, hc.placed.step hservice, ?_, ?_⟩
      · simpa [RenamesEnable, RenamesRollback, hloaded] using hc.file
      · simpa [RenamesRollback] using hc.task_step halone hservice
  | settingsRenamed privacy =>
      obtain ⟨hidle, rfl⟩ := rename_eq_some h
      refine ⟨hconsistent, hc.placed, ?_, ?_⟩
      · have hconnection : s.service.config.connection = s.loaded.connection :=
          (hc.consistent.connection (by simp [hidle])).symm
        have hsame : CoreConfig.Disabled { s.service.config with privacy := privacy } ↔
            s.loaded.Disabled := CoreConfig.disabled_congr hconnection
        simpa [RenamesEnable, RenamesRollback, loaded] using hsame.trans hc.file
      · simpa [RenamesRollback] using hc.task
  | renamed j =>
      obtain ⟨config, hupdate, hidle, rfl⟩ := step_renamed h
      obtain rfl := eq_of_update hc.placed halone hupdate
      obtain ⟨stage, htask, hback, hconnected⟩ := hc.task
      obtain ⟨command, stage', next, htask', hstage, -⟩ := updateOf_eq_some hupdate
      obtain ⟨rfl, rfl⟩ := Task.mk.inj (Option.some.inj (htask.symm.trans htask'))
      have hofConfirm := hc.placed.ofConfirm htask
      cases stage with
      | enable candidate =>
          obtain rfl := Option.some.inj hstage
          have hnot : ¬ rolledBack := by
            intro hrolled
            have hrank := hback hrolled
            simp [Stage.rank] at hrank
          have hon := CoreConfig.not_disabled_setLiveDesk
            (hconnected Stage.noConfusion (by simp [Stage.rank]))
          refine ⟨hconsistent, hc.placed, ?_, _, htask, ?_, hconnected⟩
          · simpa [RenamesEnable, RenamesRollback, htask, hnot, loaded] using hon
          · simp [RenamesRollback, htask, hnot]
      | rollback =>
          obtain rfl := Option.some.inj hstage
          have hoff := s.service.config.disabled_setLiveDesk
          refine ⟨hconsistent, hc.placed, ?_, _, htask, fun _ => le_refl _, hconnected⟩
          simpa [RenamesRollback, htask, loaded] using hoff
      | _ => contradiction

/-- Neither memory nor the file says enabled, and the coordinator is quiet. -/
structure Dormant (s : Installation) : Prop where
  consistent : s.Consistent
  desk : s.service.desk.Inv
  file : s.loaded.Disabled
  memory : s.service.FlagOff
  quiet : s.service.desk.coordinator.Quiet

theorem dormant_opened {file : Option CoreConfig} (backing : String → Option Int)
    (credentials : String → Option String) (hoff : (file.getD defaultCoreConfig).Disabled) :
    (opened u sha256Hex file backing credentials).Dormant where
  consistent := consistent_opened file backing credentials
  desk := LiveDesk.inv_new backing
  file := hoff
  memory := hoff
  quiet := Service.quiet_new _ backing

theorem Dormant.step {s s' : Installation} {e : InstallationEvent} (hs : s.Dormant)
    (hnot : ∀ id, ¬ s.RenamesEnable id e) (h : s.step u sha256Hex e = some s') : s'.Dormant := by
  have hconsistent := hs.consistent.step h
  cases e with
  | restarted =>
      obtain rfl := Option.some.inj h
      exact dormant_opened _ _ hs.file
  | settingsRenamed privacy =>
      obtain ⟨-, rfl⟩ := rename_eq_some h
      exact ⟨hconsistent, hs.desk, hs.memory, hs.memory, hs.quiet⟩
  | renamed id =>
      obtain ⟨config, hupdate, -, rfl⟩ := step_renamed h
      obtain ⟨command, stage, next, htask, hstage, -⟩ := updateOf_eq_some hupdate
      have hoff : config.Disabled := by
        refine Service.update_disabled hstage ?_
        rintro candidate rfl
        exact hnot id ⟨rfl, command, candidate, htask⟩
      exact ⟨hconsistent, hs.desk, hoff, hs.memory, hs.quiet⟩
  | service e =>
      obtain ⟨-, hservice, hfile, -⟩ := step_service h
      have hloaded : s'.loaded.Disabled := by
        rw [loaded, hfile]
        exact hs.file
      have hmemory : s'.service.FlagOff := by
        cases hswaps : s.swaps e with
        | true =>
            obtain ⟨updater, hbusy, -⟩ := step_swaps h hswaps
            have hsame : s.loaded = s'.service.config :=
              hs.consistent.synced.load_of_busy (by simp [cell, hbusy])
            rw [Service.FlagOff, ← hsame]
            exact hs.file
        | false =>
            rw [Service.FlagOff, config_of_not_swaps h hswaps]
            exact hs.memory
      exact ⟨hconsistent, Service.desk_inv_step hs.desk hservice, hloaded, hmemory,
        Service.quiet_step hs.quiet hs.desk hs.memory hservice⟩

theorem dormant_run {s s' : Installation} {es : List InstallationEvent} (hs : s.Dormant)
    (hnone : EveryStep (Installation.step u sha256Hex) s es
      (fun s e _ => ∀ id, ¬ s.RenamesEnable id e))
    (h : exec (Installation.step u sha256Hex) s es = some s') : s'.Dormant :=
  EveryStep.invariant (Q := fun s e _ => ∀ id, ¬ s.RenamesEnable id e) hs
    (fun _ _ _ hs hnot hstep => hs.step hnot hstep) hnone h

section

variable (u sha256Hex) (s₁ : Installation) (es : List InstallationEvent) (id : Nat)

/-- In the run `es`, the file of the enable has come to be config.json. -/
def EnableLands : Prop :=
  Happened (Installation.step u sha256Hex) s₁ es (fun s e _ => s.RenamesEnable id e)

/-- In the run `es`, the file of the rollback has come to be config.json. -/
def RollbackLands : Prop :=
  Happened (Installation.step u sha256Hex) s₁ es (fun s e _ => s.RenamesRollback id e)

/-- The consent `id` leaves no enable behind: the next process start loads a flag that is off, and
never publishes before a later enable's file comes to be config.json; and where the consent has
returned, the flag in memory is off. -/
structure LeavesDisabled (s : Installation) : Prop where
  file : s.loaded.Disabled
  memory : ∀ command result,
    s.service.tasks id = some { command := command, stage := .returned result } →
    s.service.FlagOff
  later : ∀ fs t, exec (Installation.step u sha256Hex) s (.restarted :: fs) = some t →
    EveryStep (Installation.step u sha256Hex) s (.restarted :: fs)
      (fun s e _ => ∀ j, ¬ s.RenamesEnable j e) →
    ¬ t.service.desk.coordinator.inner.state.Publishing

end

theorem consenting_run {s₁ s : Installation} {es : List InstallationEvent} {id : Nat} {ui : String}
    (hstart : Consenting id ui False False s₁)
    (hrun : exec (Installation.step u sha256Hex) s₁ es = some s)
    (hprocess : ∀ e ∈ es, e ≠ .restarted)
    (hsole : Throughout (Installation.step u sha256Hex) s₁ es (fun s => s.service.Alone id)) :
    Consenting id ui (EnableLands u sha256Hex s₁ es id) (RollbackLands u sha256Hex s₁ es id) s := by
  revert hprocess hsole
  refine exec_induction (P := fun es s => (∀ e ∈ es, e ≠ .restarted) →
    Throughout (Installation.step u sha256Hex) s₁ es (fun s => s.service.Alone id) →
    Consenting id ui (EnableLands u sha256Hex s₁ es id) (RollbackLands u sha256Hex s₁ es id) s)
    ?_ ?_ hrun
  · intro _ _
    simpa [EnableLands, RollbackLands, not_happened_nil] using hstart
  · intro es t e t' ht ih hstep hprocess hsole
    have hc := ih (fun e he => hprocess e (List.mem_append_left _ he)) hsole.append_left
    have halone := hsole.append_left.last ht
    have hnext := hc.step halone (hprocess e (by simp)) hstep
    have henable : EnableLands u sha256Hex s₁ (es ++ [e]) id ↔
        EnableLands u sha256Hex s₁ es id ∨ t.RenamesEnable id e :=
      Happened.concat_iff ht hstep
    have hrollback : RollbackLands u sha256Hex s₁ (es ++ [e]) id ↔
        RollbackLands u sha256Hex s₁ es id ∨ t.RenamesRollback id e :=
      Happened.concat_iff ht hstep
    rwa [henable, hrollback]

theorem consenting_call {s s' : Installation} {id : Nat} {ui : String} (hs : s.Consistent)
    (hplaced : s.service.Placed) (hoff : s.service.FlagOff) (halone : s'.service.Alone id)
    (h : s.step u sha256Hex (.service (.called id (.confirmConsent ui))) = some s') :
    Consenting id ui False False s' := by
  obtain ⟨-, hservice, -⟩ := step_service h
  have hconsistent := hs.step h
  have hplaced' := hplaced.step hservice
  have hcalled : s'.service = s.service.goto id (.confirmConsent ui) .confirmEntry := by
    simp only [Service.step] at hservice
    split at hservice
    · exact (Option.some.inj hservice).symm
    · contradiction
  have htask : s'.service.tasks id =
      some { command := .confirmConsent ui, stage := .confirmEntry } := by
    rw [hcalled]
    exact Service.goto_tasks_self _ _ _ _
  -- No other command's update is in flight, so the file has the connection of memory.
  have hidle : ∀ j config, s'.updating ≠ some (.command j, config) := by
    intro j config hbusy
    have hupdate := hconsistent.command j config hbusy
    obtain rfl := eq_of_update hplaced' halone hupdate
    simp [Service.updateOf, htask, Service.Stage.update, Service.Stage.write] at hupdate
  have hfile : s'.loaded.Disabled := by
    refine (CoreConfig.disabled_congr (hconsistent.connection hidle)).mpr ?_
    rw [hcalled]
    exact hoff
  refine ⟨hconsistent, hplaced', by simpa using hfile, _, htask, False.elim, ?_⟩
  intro hentered
  exact absurd rfl hentered

/-- For every consent that finds the flag off and runs alone, at every instant of its process from
its call on, so also where it has failed or where the process ends: it leaves no enable behind
exactly if the file of its enable has not come to be config.json, or that of its rollback has. -/
theorem failed_consent_iff {file : Option CoreConfig} {backing : String → Option Int}
    {credentials : String → Option String} {es₀ es : List InstallationEvent}
    {s₀ s₁ s : Installation} {id : Nat} {ui : String}
    (hbefore : exec (Installation.step u sha256Hex)
      (opened u sha256Hex file backing credentials) es₀ = some s₀)
    (hoff : s₀.service.FlagOff)
    (hcall : s₀.step u sha256Hex (.service (.called id (.confirmConsent ui))) = some s₁)
    (hrun : exec (Installation.step u sha256Hex) s₁ es = some s)
    (hprocess : ∀ e ∈ es, e ≠ .restarted)
    (hsole : Throughout (Installation.step u sha256Hex) s₁ es (fun s => s.service.Alone id)) :
    LeavesDisabled u sha256Hex id s ↔
      (EnableLands u sha256Hex s₁ es id → RollbackLands u sha256Hex s₁ es id) := by
  have hplaced : s₀.service.Placed := placed_run hbefore
  have halone : s₁.service.Alone id := hsole 0 s₁ rfl
  have hc := consenting_run
    (consenting_call (consistent_run hbefore) hplaced hoff halone hcall) hrun hprocess hsole
  constructor
  · intro hleaves
    exact hc.file.mp hleaves.file
  · intro hlands
    have hfile := hc.file.mpr hlands
    refine ⟨hfile, ?_, ?_⟩
    · intro command result hreturned
      have hidle : ∀ j config, s.updating ≠ some (.command j, config) := by
        intro j config hbusy
        have hupdate := hc.consistent.command j config hbusy
        obtain rfl := eq_of_update hc.placed (hsole.last hrun) hupdate
        simp [Service.updateOf, hreturned, Service.Stage.update, Service.Stage.write] at hupdate
      exact (CoreConfig.disabled_congr (hc.consistent.connection hidle)).mp hfile
    · intro fs t ht hnone hpublishing
      rw [exec_cons] at ht
      have hstart := @dormant_opened u sha256Hex _ s.service.desk.writer.backing s.credentials hfile
      have hnone : EveryStep _ _ ([InstallationEvent.restarted] ++ fs) _ := hnone
      exact (dormant_run hstart (hnone.append_right rfl) ht).quiet.state hpublishing

/-- The installation of the runs below, with its connection's token in the protected storage. -/
def pairedInstallation : Installation :=
  opened UnicodeData.ascii (fun _ => "digest") (some Service.pairedConfig) (fun _ => none)
    (fun _ => some "token")

def consentCalled : InstallationEvent := .service (.called 1 (.confirmConsent "digest"))

/-- A consent that has persisted its enable and finds another application in front. -/
def enabledThenDrifted : List InstallationEvent :=
  served ([ServiceEvent.advance 1, .advance 1, .advance 1] ++ Service.capturedBy 1 "editor") ++
    [InstallationEvent.renamed 1] ++
    served ([ServiceEvent.completed 1 true] ++ Service.capturedBy 1 "browser" ++
      [ServiceEvent.advance 1])

/-- The consent's rollback, and the preview that it refreshes. -/
def rolledBackBy : List InstallationEvent :=
  [InstallationEvent.renamed 1] ++
    served ([ServiceEvent.completed 1 true] ++ Service.capturedBy 1 "browser" ++
      [ServiceEvent.advance 1])

private theorem alone_consent {s₀ s₁ : Installation} {es : List InstallationEvent}
    (hbefore : exec (Installation.step UnicodeData.ascii (fun _ => "digest")) pairedInstallation
      (served (Service.previewedBy 0 "editor")) = some s₀)
    (hcall : s₀.step UnicodeData.ascii (fun _ => "digest") consentCalled = some s₁)
    (hprocess : ∀ e ∈ es, e ≠ .restarted)
    (hnot : ∀ j command, .service (.called j command) ∉ es) :
    Throughout (Installation.step UnicodeData.ascii (fun _ => "digest")) s₁ es
      (fun s => s.service.Alone 1) := by
  have hstart : pairedInstallation.service.Alone 1 := by
    intro j command stage _ htask
    cases htask
  have hcalled := exec_concat_eq_some.mpr ⟨s₀, hbefore, hcall⟩
  have hs₁ : s₁.service.Alone 1 := by
    refine (alone_throughout hstart ?_ ?_).last hcalled
    · simp [served, consentCalled, Service.previewedBy]
    · intro j command hne hmem
      simp [served, consentCalled, Service.previewedBy, hne] at hmem
      rw [hmem.2]
      rfl
  refine alone_throughout hs₁ hprocess ?_
  intro j command _ hmem
  exact absurd hmem (hnot j command)

theorem failed_consent_iff_rolledBack :
    ∃ s₀ s₁ s, exec (Installation.step UnicodeData.ascii (fun _ => "digest")) pairedInstallation
        (served (Service.previewedBy 0 "editor")) = some s₀ ∧
      s₀.step UnicodeData.ascii (fun _ => "digest") consentCalled = some s₁ ∧
      exec (Installation.step UnicodeData.ascii (fun _ => "digest")) s₁
        (enabledThenDrifted ++ rolledBackBy) = some s ∧
      s.service.tasks 1 = some {
        command := .confirmConsent "digest", stage := .returned (.error .previewOutOfDate) } ∧
      (LeavesDisabled UnicodeData.ascii (fun _ => "digest") 1 s ↔
        (EnableLands UnicodeData.ascii (fun _ => "digest") s₁
            (enabledThenDrifted ++ rolledBackBy) 1 →
          RollbackLands UnicodeData.ascii (fun _ => "digest") s₁
            (enabledThenDrifted ++ rolledBackBy) 1)) := by
  have hrun : ∃ s₀ s₁ s, exec (Installation.step UnicodeData.ascii (fun _ => "digest"))
        pairedInstallation (served (Service.previewedBy 0 "editor")) = some s₀ ∧
      s₀.service.config = Service.pairedConfig ∧
      s₀.step UnicodeData.ascii (fun _ => "digest") consentCalled = some s₁ ∧
      exec (Installation.step UnicodeData.ascii (fun _ => "digest")) s₁
        (enabledThenDrifted ++ rolledBackBy) = some s ∧
      s.service.tasks 1 = some {
        command := .confirmConsent "digest", stage := .returned (.error .previewOutOfDate) } :=
    ⟨_, _, _, rfl, rfl, rfl, rfl, rfl⟩
  obtain ⟨s₀, s₁, s, hbefore, hconfig, hcall, hafter, hreturned⟩ := hrun
  have hoff : s₀.service.FlagOff := by
    intro connection hconnection
    rw [hconfig] at hconnection
    obtain rfl := Option.some.inj hconnection
    rfl
  have hprocess : ∀ e ∈ enabledThenDrifted ++ rolledBackBy, e ≠ .restarted := by
    simp [enabledThenDrifted, rolledBackBy, served, Service.capturedBy]
  have hsole := alone_consent hbefore hcall hprocess (by
    simp [enabledThenDrifted, rolledBackBy, served, Service.capturedBy])
  exact ⟨s₀, s₁, s, hbefore, hcall, hafter, hreturned,
    failed_consent_iff hbefore hoff hcall hafter hprocess hsole⟩

/-- The rollback of a consent that found another application in front cannot write: the consent
returns an error and the flag stays on, in memory and in the file, so that the next process start
publishes. -/
theorem failed_consent_enables :
    ∃ s₀ s₁ s t, exec (Installation.step UnicodeData.ascii (fun _ => "digest")) pairedInstallation
        (served (Service.previewedBy 0 "editor")) = some s₀ ∧
      s₀.service.FlagOff ∧
      s₀.step UnicodeData.ascii (fun _ => "digest") consentCalled = some s₁ ∧
      exec (Installation.step UnicodeData.ascii (fun _ => "digest")) s₁
        (enabledThenDrifted ++ [.service (.completed 1 false)]) = some s ∧
      Throughout (Installation.step UnicodeData.ascii (fun _ => "digest")) s₁
        (enabledThenDrifted ++ [.service (.completed 1 false)]) (fun s => s.service.Alone 1) ∧
      s.service.tasks 1 = some {
        command := .confirmConsent "digest", stage := .returned (.error .internal) } ∧
      ¬ s.service.FlagOff ∧ ¬ s.loaded.Disabled ∧
      exec (Installation.step UnicodeData.ascii (fun _ => "digest")) s
        (.restarted :: served Service.startedByService) = some t ∧
      t.service.desk.coordinator.inner.state = .active := by
  have hrun : ∃ s₀ s₁ s t, exec (Installation.step UnicodeData.ascii (fun _ => "digest"))
        pairedInstallation (served (Service.previewedBy 0 "editor")) = some s₀ ∧
      s₀.service.config = Service.pairedConfig ∧
      s₀.step UnicodeData.ascii (fun _ => "digest") consentCalled = some s₁ ∧
      exec (Installation.step UnicodeData.ascii (fun _ => "digest")) s₁
        (enabledThenDrifted ++ [.service (.completed 1 false)]) = some s ∧
      s.service.tasks 1 = some {
        command := .confirmConsent "digest", stage := .returned (.error .internal) } ∧
      s.service.config.connection = some Coordinator.enabledConnection ∧
      s.loaded.connection = some Coordinator.enabledConnection ∧
      exec (Installation.step UnicodeData.ascii (fun _ => "digest")) s
        (.restarted :: served Service.startedByService) = some t ∧
      t.service.desk.coordinator.inner.state = .active :=
    ⟨_, _, _, _, rfl, rfl, rfl, rfl, rfl, rfl, rfl, rfl, rfl⟩
  obtain ⟨s₀, s₁, s, t, hbefore, hconfig, hcall, hafter, hreturned, hmemory, hfile, hlater,
    hactive⟩ := hrun
  have hoff : s₀.service.FlagOff := by
    intro connection hconnection
    rw [hconfig] at hconnection
    obtain rfl := Option.some.inj hconnection
    rfl
  have hsole := @alone_consent s₀ s₁ (enabledThenDrifted ++ [.service (.completed 1 false)])
    hbefore hcall (by simp [enabledThenDrifted, served, Service.capturedBy])
    (by simp [enabledThenDrifted, served, Service.capturedBy])
  refine ⟨s₀, s₁, s, t, hbefore, hoff, hcall, hafter, hsole, hreturned, ?_, ?_, hlater, hactive⟩
  · intro hdisabled
    cases hdisabled _ hmemory
  · intro hdisabled
    cases hdisabled _ hfile

end Installation

end YohakuCore
