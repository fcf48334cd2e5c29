import YohakuCore.Companion.Consent
import YohakuCore.Companion.PublishingGate

/-! # Disabling the live desk -/

namespace YohakuCore

open Framework

variable {u : UnicodeData} {sha256Hex : String → String}

/-- The stored connection, if there is one, is not enabled. -/
def CoreConfig.Disabled (config : CoreConfig) : Prop :=
  ∀ connection, config.connection = some connection → connection.liveDeskEnabled = false

theorem CoreConfig.disabled_congr {config config' : CoreConfig}
    (h : config'.connection = config.connection) : config'.Disabled ↔ config.Disabled := by
  rw [Disabled, Disabled, h]

theorem CoreConfig.disabled_setLiveDesk (config : CoreConfig) :
    (config.setLiveDesk false).Disabled := by
  intro connection hconnection
  obtain ⟨before, -, rfl⟩ := Option.map_eq_some_iff.mp hconnection
  rfl

namespace Service

/-- Where an event of the desk comes from: a segment of a command, the removal of an unpair, or the
desk's own tasks. -/
inductive DeskSource (s : Service) (e : ServiceEvent) (f : LiveDeskEvent) : Prop where
  | segment (id : Nat) (command : Command) (stage : Stage) (event : e = .advance id)
      (task : s.tasks id = some { command := command, stage := stage })
      (runs : Stage.runs stage = some f)
  | removal (id : Nat) (command : Command) (deviceId : String) (event : e = .completed id true)
      (task : s.tasks id = some { command := command, stage := .unpairRemove deviceId })
      (removes : f = .writer (.remove deviceId))
  | own (event : e = .desk f) (permitted : s.permits f = true)

/-- What a step does to the desk. -/
inductive DeskRun (s : Service) (e : ServiceEvent) (s' : Service) : Prop where
  | kept (desk : s'.desk = s.desk)
  | ran (f : LiveDeskEvent) (step : s.desk.step f = some s'.desk) (source : DeskSource s e f)

theorem step_deskRun {s s' : Service} {e : ServiceEvent} (h : s.step u sha256Hex e = some s') :
    DeskRun s e s' := by
  obtain ⟨r, hleaves, -, -, -, hdesk⟩ := step_leaves h
  cases hleaves with
  | ran id command stage f desk he htask hruns hstep =>
      exact .ran f (by rw [hstep, hdesk]) (.segment id command stage he htask hruns)
  | removed id command deviceId desk he htask hstep =>
      exact .ran _ (by rw [hstep, hdesk]) (.removal id command deviceId he htask rfl)
  | own f desk he hpermits hstep => exact .ran f (by rw [hstep, hdesk]) (.own he hpermits)
  | _ => exact .kept hdesk

/-- What a step does to the desk: the pairing gate alone reads the configuration. -/
inductive DeskMove (s : Service) (e : ServiceEvent) (s' : Service) : Prop where
  | kept (desk : s'.desk = s.desk)
  | moved (f : LiveDeskEvent) (step : s.desk.step f = some s'.desk)
      (gate : ∀ i connection, f = .coordinator (.configureGate i connection) →
        e = .desk f ∧ connection = s.config.connection)

theorem DeskSource.gate {s : Service} {e : ServiceEvent} {i : Nat}
    {connection : Option StoredConnection}
    (h : DeskSource s e (.coordinator (.configureGate i connection))) :
    e = .desk (.coordinator (.configureGate i connection)) ∧ connection = s.config.connection := by
  cases h with
  | segment id command stage _ _ hruns => cases stage <;> simp [Stage.runs] at hruns
  | removal id command deviceId _ _ hremoves => exact nomatch hremoves
  | own he hpermitted => exact ⟨he, of_decide_eq_true hpermitted⟩

theorem step_desk {s s' : Service} {e : ServiceEvent} (h : s.step u sha256Hex e = some s') :
    DeskMove s e s' := by
  cases step_deskRun h with
  | kept hdesk => exact .kept hdesk
  | ran f hdesk hsource =>
      refine .moved f hdesk ?_
      rintro i connection rfl
      exact hsource.gate

theorem desk_inv_step {s s' : Service} {e : ServiceEvent} (hinv : s.desk.Inv)
    (h : s.step u sha256Hex e = some s') : s'.desk.Inv := by
  cases step_desk h with
  | kept hdesk => exact hdesk ▸ hinv
  | moved f hstep _ => exact hinv.step hstep

theorem desk_inv_run {config : CoreConfig} {backing : String → Option Int}
    {es : List ServiceEvent} {s : Service}
    (h : exec (Service.step u sha256Hex) (new u sha256Hex config backing) es = some s) :
    s.desk.Inv :=
  exec_invariant (I := fun s => s.desk.Inv) (LiveDesk.inv_new backing)
    (fun _ _ _ hinv hstep => desk_inv_step hinv hstep) h

/-- The configure of the generation reads an enabled connection at its pairing gate. -/
def ReadsEnabled (s : Service) (e : ServiceEvent) (generation : Nat) : Prop :=
  ∃ i connection, e = .desk (.coordinator (.configureGate i (some connection))) ∧
    s.desk.coordinator.configures i = some ⟨generation, .gate⟩ ∧
    s.config.connection = some connection ∧ connection.liveDeskEnabled = true

/-- A refresh loop of the generation, back from its capture, finds the generation current. -/
def PassesCheck (s : Service) (e : ServiceEvent) (generation : Nat) : Prop :=
  ∃ id snapshot client includeMedia, e = .desk (.coordinator (.loopCheck id snapshot)) ∧
    s.desk.coordinator.loops id = some ⟨generation, .capturing client includeMedia⟩ ∧
    generation = s.desk.coordinator.inner.generation

theorem PassesCheck.publishing {s : Service} {e : ServiceEvent} {generation : Nat}
    (h : s.PassesCheck e generation) (hinv : s.desk.Inv) :
    s.desk.coordinator.inner.state.Publishing := by
  obtain ⟨id, snapshot, client, includeMedia, -, hloop, hcurrent⟩ := h
  exact (hinv.coordinator.loops id _ hloop).2 hcurrent

/-- Every generation that publishes, or whose configure is past the gate, has read an enabled
connection. -/
structure Gated (u : UnicodeData) (sha256Hex : String → String) (origin : Service)
    (es : List ServiceEvent) (s : Service) : Prop where
  publishing : s.desk.coordinator.inner.state.Publishing →
    Happened (Service.step u sha256Hex) origin es
      (fun s₁ e _ => s₁.ReadsEnabled e s.desk.coordinator.inner.generation)
  pastGate : ∀ i task, s.desk.coordinator.configures i = some task →
    task.pc.isPastGate = true →
    Happened (Service.step u sha256Hex) origin es
      (fun s₁ e _ => s₁.ReadsEnabled e task.generation)

theorem Gated.of_coordinator_eq {origin s s' : Service} {es : List ServiceEvent}
    (h : Gated u sha256Hex origin es s) (heq : s'.desk.coordinator = s.desk.coordinator)
    (e : ServiceEvent) : Gated u sha256Hex origin (es ++ [e]) s' where
  publishing hpublishing := by
    rw [heq] at hpublishing ⊢
    exact (h.publishing hpublishing).append_right [e]
  pastGate i task htask hpast := by
    rw [heq] at htask
    exact (h.pastGate i task htask hpast).append_right [e]

theorem Gated.coordinator {origin s s' : Service} {es : List ServiceEvent} {e : ServiceEvent}
    {f : CoordinatorEvent} (h : Gated u sha256Hex origin es s) (hinv : s.desk.Inv)
    (hs : exec (Service.step u sha256Hex) origin es = some s)
    (hstep : s.step u sha256Hex e = some s')
    (hf : s.desk.coordinator.step f = some s'.desk.coordinator)
    (hgate : ∀ i connection, f = .configureGate i connection →
      e = .desk (.coordinator f) ∧ connection = s.config.connection) :
    Gated u sha256Hex origin (es ++ [e]) s' where
  publishing hpublishing := by
    obtain ⟨hgeneration, hbefore | ⟨i, task, htask, hcurrent, hpast⟩⟩ :=
      Coordinator.step_publishes hinv.coordinator hf hpublishing
    · rw [hgeneration]
      exact (h.publishing hbefore).append_right [e]
    · rw [hgeneration, ← hcurrent]
      exact (h.pastGate i task htask hpast).append_right [e]
  pastGate i task htask hpast := by
    rcases Coordinator.step_pastGate hf htask hpast with ⟨before, hbefore, hsame, hpastBefore⟩ |
        ⟨connection, rfl, hbefore, henabled⟩
    · rw [← hsame]
      exact (h.pastGate i before hbefore hpastBefore).append_right [e]
    · obtain ⟨rfl, hconnection⟩ := hgate i (some connection) rfl
      exact Happened.last hs hstep ⟨i, connection, rfl, hbefore, hconnection.symm, henabled⟩

theorem gated_run {config : CoreConfig} {backing : String → Option Int}
    {es : List ServiceEvent} {s : Service}
    (h : exec (Service.step u sha256Hex) (new u sha256Hex config backing) es = some s) :
    Gated u sha256Hex (new u sha256Hex config backing) es s := by
  refine exec_induction (P := Gated u sha256Hex (new u sha256Hex config backing)) ?_ ?_ h
  · constructor
    · rintro (hactive | hdegraded) <;> contradiction
    · intro i task htask
      exact nomatch htask
  · intro es s₁ e s₂ hs₁ ih hstep
    have hinv := desk_inv_run hs₁
    cases step_desk hstep with
    | kept hdesk => exact ih.of_coordinator_eq (by rw [hdesk]) e
    | moved f hf hgate =>
        cases f with
        | writer f => exact ih.of_coordinator_eq (LiveDesk.step_writer hf).2 e
        | coordinator f =>
            refine ih.coordinator hinv hs₁ hstep (LiveDesk.step_coordinator hf).1 ?_
            rintro i connection rfl
            exact hgate i connection rfl

/-- No stored connection is enabled. -/
def FlagOff (s : Service) : Prop :=
  ∀ connection, s.config.connection = some connection → connection.liveDeskEnabled = false

/-- A consent persists the enabled flag. -/
def Enables (s : Service) (e : ServiceEvent) : Prop :=
  ∃ id ui candidate, e = .completed id true ∧
    s.tasks id = some { command := .confirmConsent ui, stage := .enable candidate } ∧
    s.config.connection ≠ none

theorem flagOff_setLiveDesk {s : Service} {config : CoreConfig}
    (h : s.config = config.setLiveDesk false) : s.FlagOff := by
  have hdisabled : s.config.Disabled := h ▸ config.disabled_setLiveDesk
  exact hdisabled

theorem write_disabled {config config' : CoreConfig} {stage next : Stage}
    (h : Stage.write config stage = some (config', next))
    (hnot : ∀ candidate, stage ≠ .enable candidate)
    (htoken : ∀ result, stage = .pairToken result → config.Disabled) : config'.Disabled := by
  cases stage with
  | enable candidate => exact absurd rfl (hnot candidate)
  | rollback => exact (Prod.mk.inj (Option.some.inj h)).1 ▸ config.disabled_setLiveDesk
  | disable => exact (Prod.mk.inj (Option.some.inj h)).1 ▸ config.disabled_setLiveDesk
  | unpairDisable deviceId =>
      exact (Prod.mk.inj (Option.some.inj h)).1 ▸ config.disabled_setLiveDesk
  | unpairForget =>
      obtain ⟨rfl, -⟩ := Prod.mk.inj (Option.some.inj h)
      intro connection hconnection
      contradiction
  | pairToken result => exact (Prod.mk.inj (Option.some.inj h)).1 ▸ htoken result rfl
  | pairStore result =>
      obtain ⟨rfl, -⟩ := Prod.mk.inj (Option.some.inj h)
      intro connection hconnection
      obtain rfl := Option.some.inj hconnection
      rfl
  | _ => contradiction

/-- What a step does to the stored connection: it is written at the end of a write only. -/
inductive ConnectionMove (s : Service) (e : ServiceEvent) (s' : Service) : Prop where
  | kept (connection : s'.config.connection = s.config.connection)
  | written (id : Nat) (command : Command) (stage next : Stage) (event : e = .completed id true)
      (task : s.tasks id = some { command := command, stage := stage })
      (write : Stage.write s.config stage = some (s'.config, next))

/-- What a step does to the configuration: it is written at the end of a write, or the settings
update its privacy part. -/
inductive ConfigMove (s : Service) (e : ServiceEvent) (s' : Service) : Prop where
  | kept (config : s'.config = s.config)
  | written (id : Nat) (command : Command) (stage next : Stage) (event : e = .completed id true)
      (task : s.tasks id = some { command := command, stage := stage })
      (write : Stage.write s.config stage = some (s'.config, next))
  | settings (privacy : PrivacyConfig) (event : e = .updatePrivacy privacy)
      (config : s'.config = { s.config with privacy := privacy })

theorem step_config {s s' : Service} {e : ServiceEvent}
    (h : s.step u sha256Hex e = some s') : ConfigMove s e s' := by
  obtain ⟨r, hleaves, hconfig, -, -, -⟩ := step_leaves h
  cases hleaves with
  | written id command stage next config he htask hwrite =>
      exact .written id command stage next he htask (by rw [hwrite, hconfig])
  | settings privacy he => exact .settings privacy he hconfig
  | _ => exact .kept hconfig

theorem advance_config {s s' : Service} {id : Nat} (h : s.advance u sha256Hex id = some s') :
    s'.config = s.config := by
  cases step_config (e := .advance id) h with
  | kept hconfig => exact hconfig
  | written _ _ _ _ he => contradiction
  | settings _ he => contradiction

theorem step_connection {s s' : Service} {e : ServiceEvent}
    (h : s.step u sha256Hex e = some s') : ConnectionMove s e s' := by
  cases step_config h with
  | kept hconfig => exact .kept (congrArg CoreConfig.connection hconfig)
  | written id command stage next he htask hwrite =>
      exact .written id command stage next he htask hwrite
  | settings privacy he hconfig => exact .kept (by rw [hconfig])

theorem FlagOff.step {s s' : Service} {e : ServiceEvent} (hoff : s.FlagOff) (hplaced : s.Placed)
    (h : s.step u sha256Hex e = some s') (hnot : ¬ s.Enables e) : s'.FlagOff := by
  cases step_connection h with
  | kept hconnection =>
      intro connection hsome
      rw [hconnection] at hsome
      exact hoff connection hsome
  | written id command stage next he htask hwrite =>
      by_cases henable : ∃ candidate, stage = .enable candidate
      · obtain ⟨candidate, rfl⟩ := henable
        have hstage := hplaced id command _ htask
        obtain ⟨hconfig, -⟩ := Prod.mk.inj (Option.some.inj hwrite)
        have hnone : s.config.connection = none := by
          by_contra hconnected
          cases command with
          | confirmConsent ui => exact hnot ⟨id, ui, candidate, he, htask, hconnected⟩
          | _ => contradiction
        intro connection hsome
        rw [← hconfig, CoreConfig.setLiveDesk, hnone] at hsome
        contradiction
      · exact write_disabled hwrite (fun candidate heq => henable ⟨candidate, heq⟩)
          (fun _ _ => hoff)

/-- The segments of a disable, with what each leaves. -/
inductive DisableSegment (s s' : Service) : Stage → Stage → Prop
  | written (config : s'.config = s.config.setLiveDesk false) :
      DisableSegment s s' .disable (.shutdown .disabled)
  | failed : DisableSegment s s' .disable (.returned (.error .internal))
  | joined (quiet : s.desk.step (.coordinator (.shutdown .paused)) = some s'.desk) :
      DisableSegment s s' (.shutdown .disabled) (.returned (.ok none))
  | shutdown (task : Nat)
      (quiet : s.desk.step (.coordinator (.shutdown .paused)) = some s'.desk) :
      DisableSegment s s' (.shutdown .disabled) (.shutdownWait task .disabled)
  | finished (task : Nat) :
      DisableSegment s s' (.shutdownWait task .disabled) (.returned (.ok none))

/-- The stages of a disable. -/
inductive OfDisable : Stage → Prop
  | disable : OfDisable .disable
  | shutdown : OfDisable (.shutdown .disabled)
  | shutdownWait (task : Nat) : OfDisable (.shutdownWait task .disabled)
  | returned (result : Except IpcErrorCode (Option Preview)) : OfDisable (.returned result)

theorem AfterShutdown.eq_disabled {next : AfterShutdown}
    (h : Command.disableLiveDesk = next.command) : next = .disabled := by
  cases next with
  | disabled => rfl
  | _ => contradiction

theorem Placed.ofDisable {s : Service} (h : s.Placed) {id : Nat} {stage : Stage}
    (htask : s.tasks id = some { command := .disableLiveDesk, stage := stage }) :
    OfDisable stage := by
  have hstage := h id _ stage htask
  cases stage with
  | disable => exact .disable
  | returned result => exact .returned result
  | shutdown next =>
      obtain rfl := AfterShutdown.eq_disabled (of_decide_eq_true hstage)
      exact .shutdown
  | shutdownWait task next =>
      obtain rfl := AfterShutdown.eq_disabled (of_decide_eq_true hstage)
      exact .shutdownWait task
  | _ => contradiction

/-- The disable `id` runs a segment of its own. -/
def DisableReaches (s s' : Service) (id : Nat) (stage : Stage) : Prop :=
  ∃ stage', s'.tasks id = some { command := .disableLiveDesk, stage := stage' } ∧
    DisableSegment s s' stage stage'

theorem advance_disable {s s' : Service} {id : Nat} {stage : Stage}
    (h : s.advance u sha256Hex id = some s')
    (htask : s.tasks id = some { command := .disableLiveDesk, stage := stage })
    (hstage : OfDisable stage) : DisableReaches s s' id stage := by
  rw [advance, htask] at h
  cases hstage with
  | disable => contradiction
  | returned result => contradiction
  | shutdown =>
      obtain ⟨desk, hdesk, rfl⟩ := withDesk_eq_some.mp h
      refine ⟨_, goto_tasks_self _ _ _ _, ?_⟩
      split
      · exact .joined hdesk
      · exact .shutdown _ hdesk
  | shutdownWait task =>
      dsimp only at h
      split at h
      · obtain rfl := Option.some.inj h
        exact ⟨_, goto_tasks_self _ _ _ _, .finished task⟩
      · contradiction

theorem completed_disable {s s' : Service} {id : Nat} {succeeds : Bool} {stage : Stage}
    (h : s.completed id succeeds = some s')
    (htask : s.tasks id = some { command := .disableLiveDesk, stage := stage })
    (hstage : OfDisable stage) : DisableReaches s s' id stage := by
  rw [completed, htask] at h
  cases hstage with
  | disable =>
      dsimp only [Stage.write] at h
      split at h
      · obtain rfl := Option.some.inj h
        exact ⟨_, goto_tasks_self _ _ _ _, .written rfl⟩
      · obtain rfl := Option.some.inj h
        exact ⟨_, goto_tasks_self _ _ _ _, .failed⟩
  | _ => contradiction

theorem OfDisable.awaits {stage : Stage} (h : OfDisable stage) :
    stage.awaits = none ∨ stage.awaits = some .segment ∨ stage.awaits = some .write := by
  cases h <;> simp [Stage.awaits]

/-- A disable stays, or runs one of its segments. -/
theorem step_disable {s s' : Service} {e : ServiceEvent} {id : Nat} {stage : Stage}
    (h : s.step u sha256Hex e = some s')
    (htask : s.tasks id = some { command := .disableLiveDesk, stage := stage })
    (hstage : OfDisable stage) :
    s'.tasks id = some { command := .disableLiveDesk, stage := stage } ∨
      DisableReaches s s' id stage := by
  rcases step_segment_or_write h htask hstage.awaits with
      hkept | hadvance | ⟨succeeds, hcompleted⟩
  · exact Or.inl hkept
  · exact Or.inr (advance_disable hadvance htask hstage)
  · exact Or.inr (completed_disable hcompleted htask hstage)

/-- At instant `n` the write of the disable `id` succeeds. -/
def DisablesAt (u : UnicodeData) (sha256Hex : String → String) (origin : Service)
    (es : List ServiceEvent) (id n : Nat) : Prop :=
  ∃ s₁ e s₂, StepAt (Service.step u sha256Hex) origin es n s₁ e s₂ ∧
    s₁.tasks id = some { command := .disableLiveDesk, stage := .disable } ∧
    s₂.tasks id = some { command := .disableLiveDesk, stage := .shutdown .disabled }

theorem DisablesAt.append_right {origin : Service} {es : List ServiceEvent} {id n : Nat}
    (h : DisablesAt u sha256Hex origin es id n) (fs : List ServiceEvent) :
    DisablesAt u sha256Hex origin (es ++ fs) id n := by
  obtain ⟨s₁, e, s₂, hat, hbefore, hafter⟩ := h
  exact ⟨s₁, e, s₂, hat.append_right fs, hbefore, hafter⟩

/-- The stages that a disable reaches through its write. -/
def HasDisabled (stage : Stage) : Prop :=
  stage = .shutdown .disabled ∨ (∃ task, stage = .shutdownWait task .disabled) ∨
    stage = .returned (.ok none)

theorem HasDisabled.of_segment {s s' : Service} {stage stage' : Stage}
    (h : DisableSegment s s' stage stage') (hafter : HasDisabled stage') :
    HasDisabled stage ∨ (stage = .disable ∧ stage' = .shutdown .disabled) := by
  cases h with
  | written => exact Or.inr ⟨rfl, rfl⟩
  | failed => rcases hafter with h | ⟨task, h⟩ | h <;> contradiction
  | joined => exact Or.inl (Or.inl rfl)
  | shutdown task => exact Or.inl (Or.inl rfl)
  | finished task => exact Or.inl (Or.inr (Or.inl ⟨task, rfl⟩))

theorem disablesAt_of_hasDisabled {config : CoreConfig} {backing : String → Option Int}
    {es : List ServiceEvent} {s : Service}
    (h : exec (Service.step u sha256Hex) (new u sha256Hex config backing) es = some s)
    {id : Nat} {stage : Stage}
    (htask : s.tasks id = some { command := .disableLiveDesk, stage := stage })
    (hafter : HasDisabled stage) :
    ∃ w, DisablesAt u sha256Hex (new u sha256Hex config backing) es id w := by
  revert stage
  refine exec_induction (P := fun es s => ∀ {stage : Stage},
    s.tasks id = some { command := .disableLiveDesk, stage := stage } → HasDisabled stage →
      ∃ w, DisablesAt u sha256Hex (new u sha256Hex config backing) es id w) ?_ ?_ h
  · intro stage htask
    exact nomatch htask
  · intro es s₁ e s₂ hs₁ ih hstep stage' htask' hafter
    rcases step_task_before hstep htask' with ⟨-, rfl⟩ | ⟨stage, htask⟩
    · rcases hafter with h | ⟨task, h⟩ | h <;> contradiction
    · have hstage := (placed_run hs₁).ofDisable htask
      rcases step_disable hstep htask hstage with hkept | ⟨stage'', htask'', hsegment⟩
      · rw [hkept] at htask'
        obtain ⟨-, rfl⟩ := Task.mk.inj (Option.some.inj htask')
        obtain ⟨w, hw⟩ := ih htask hafter
        exact ⟨w, hw.append_right [e]⟩
      · rw [htask''] at htask'
        obtain ⟨-, rfl⟩ := Task.mk.inj (Option.some.inj htask')
        rcases hafter.of_segment hsegment with hbefore | ⟨rfl, rfl⟩
        · obtain ⟨w, hw⟩ := ih htask hbefore
          exact ⟨w, hw.append_right [e]⟩
        · exact ⟨es.length, s₁, e, s₂, StepAt.last hs₁ hstep, htask, htask''⟩

/-- Since its write, the disable `id` has yet to shut the coordinator down, or the coordinator is
quiet. -/
structure Disabling (id : Nat) (s : Service) : Prop where
  placed : s.Placed
  desk : s.desk.Inv
  off : s.FlagOff
  quiet : s.tasks id = some { command := .disableLiveDesk, stage := .shutdown .disabled } ∨
    s.desk.coordinator.Quiet ∧ ∃ stage,
      s.tasks id = some { command := .disableLiveDesk, stage := stage } ∧
      stage ≠ .disable ∧ stage ≠ .shutdown .disabled

theorem quiet_step {s s' : Service} {e : ServiceEvent} (hquiet : s.desk.coordinator.Quiet)
    (hinv : s.desk.Inv) (hoff : s.FlagOff) (h : s.step u sha256Hex e = some s') :
    s'.desk.coordinator.Quiet := by
  cases step_desk h with
  | kept hdesk => exact hdesk ▸ hquiet
  | moved f hf hgate =>
      cases f with
      | writer f => exact (LiveDesk.step_writer hf).2 ▸ hquiet
      | coordinator f =>
          refine hquiet.step hinv.coordinator (LiveDesk.step_coordinator hf).1 ?_
          rintro i connection rfl
          exact hoff connection (hgate i _ rfl).2.symm

theorem quiet_of_shutdown {desk desk' : LiveDesk} {reason : ClearReason} (hinv : desk.Inv)
    (h : desk.step (.coordinator (.shutdown reason)) = some desk') :
    desk'.coordinator.Quiet := by
  have hstep := (LiveDesk.step_coordinator h).1
  rw [← Option.some.inj hstep]
  exact Coordinator.quiet_shutdown hinv.coordinator reason

theorem Disabling.step {s s' : Service} {e : ServiceEvent} {id : Nat} (hd : Disabling id s)
    (h : s.step u sha256Hex e = some s') (hnot : ¬ s.Enables e) : Disabling id s' where
  placed := hd.placed.step h
  desk := desk_inv_step hd.desk h
  off := hd.off.step hd.placed h hnot
  quiet := by
    rcases hd.quiet with htask | ⟨hquiet, stage, htask, hwritten, hshut⟩
    · rcases step_disable h htask .shutdown with hkept | ⟨stage', htask', hsegment⟩
      · exact Or.inl hkept
      · cases hsegment with
        | joined hdesk =>
            exact Or.inr ⟨quiet_of_shutdown hd.desk hdesk, _, htask', Stage.noConfusion,
              Stage.noConfusion⟩
        | shutdown task hdesk =>
            exact Or.inr ⟨quiet_of_shutdown hd.desk hdesk, _, htask', Stage.noConfusion,
              Stage.noConfusion⟩
    · refine Or.inr ⟨quiet_step hquiet hd.desk hd.off h, ?_⟩
      rcases step_disable h htask (hd.placed.ofDisable htask) with
          hkept | ⟨stage', htask', hsegment⟩
      · exact ⟨stage, hkept, hwritten, hshut⟩
      · cases hsegment with
        | finished task => exact ⟨_, htask', Stage.noConfusion, Stage.noConfusion⟩
        | _ => contradiction

theorem called_of_task {config : CoreConfig} {backing : String → Option Int}
    {es : List ServiceEvent} {s : Service}
    (h : exec (Service.step u sha256Hex) (new u sha256Hex config backing) es = some s) {id : Nat}
    {command : Command} {stage : Stage}
    (htask : s.tasks id = some { command := command, stage := stage }) :
    .called id command ∈ es := by
  revert stage
  refine exec_induction (P := fun es s => ∀ {stage : Stage},
    s.tasks id = some { command := command, stage := stage } →
      ServiceEvent.called id command ∈ es) ?_ ?_ h
  · intro stage htask
    exact nomatch htask
  · intro es s₁ e s₂ _ ih hstep stage htask
    rcases step_task_before hstep htask with ⟨hnone, -⟩ | ⟨stage', hbefore⟩
    · simp [step_called hstep hnone htask]
    · exact List.mem_append_left _ (ih hbefore)

/-- No consent persists the enabled flag after instant `w`. -/
def NoneEnablesAfter (u : UnicodeData) (sha256Hex : String → String) (origin : Service)
    (es : List ServiceEvent) (w : Nat) : Prop :=
  ∀ m s₁ e s₂, w < m → StepAt (Service.step u sha256Hex) origin es m s₁ e s₂ → ¬ s₁.Enables e

theorem disabling_since {config : CoreConfig} {backing : String → Option Int}
    {es : List ServiceEvent} {s : Service}
    (h : exec (Service.step u sha256Hex) (new u sha256Hex config backing) es = some s)
    {id w : Nat} (hw : DisablesAt u sha256Hex (new u sha256Hex config backing) es id w)
    (hnone : NoneEnablesAfter u sha256Hex (new u sha256Hex config backing) es w) :
    Disabling id s := by
  obtain ⟨s₁, e, s₂, hat, htask, htask'⟩ := hw
  have hafter := hat.after
  have hwritten : s₂.config = s₁.config.setLiveDesk false := by
    rcases step_disable hat.step htask .disable with hkept | ⟨stage', hto, hsegment⟩
    · rw [hkept] at htask'
      contradiction
    · rw [hto] at htask'
      obtain ⟨-, rfl⟩ := Task.mk.inj (Option.some.inj htask')
      cases hsegment with
      | written hconfig => exact hconfig
  have hstart : Disabling id s₂ :=
    ⟨placed_run hafter, desk_inv_run hafter, flagOff_setLiveDesk hwritten, Or.inl htask'⟩
  obtain ⟨t, ht, hrest⟩ := exec_take h (w + 1)
  obtain rfl : s₂ = t := Option.some.inj (hafter.symm.trans ht)
  refine EveryStep.invariant (Q := fun t f _ => ¬ t.Enables f) hstart
    (fun _ _ _ hd hnot hstep => hd.step hstep hnot) ?_ hrest
  refine EveryStep.of_since ht ?_
  intro m t₁ f t₂ hm hat
  exact hnone m t₁ f t₂ (by omega) hat

/-- Every loop that passes its check belongs to a generation whose configure has read an enabled
connection at its gate. And when a disable has returned `Ok`, its write took place at an instant
such that nothing publishes or passes the check unless a consent has enabled since. -/
theorem publishing_gated {config : CoreConfig} {backing : String → Option Int}
    {es : List ServiceEvent} {s : Service}
    (hrun : exec (Service.step u sha256Hex) (new u sha256Hex config backing) es = some s) :
    (∀ n s₁ e s₂ generation,
      StepAt (Service.step u sha256Hex) (new u sha256Hex config backing) es n s₁ e s₂ →
      s₁.PassesCheck e generation →
      ∃ m t₁ f t₂, m < n ∧
        StepAt (Service.step u sha256Hex) (new u sha256Hex config backing) es m t₁ f t₂ ∧
        t₁.ReadsEnabled f generation) ∧
    ∀ id, s.tasks id = some { command := .disableLiveDesk, stage := .returned (.ok none) } →
      ∃ w, DisablesAt u sha256Hex (new u sha256Hex config backing) es id w ∧
        (NoneEnablesAfter u sha256Hex (new u sha256Hex config backing) es w →
          ¬ s.desk.coordinator.inner.state.Publishing ∧
          ∀ e generation, ¬ s.PassesCheck e generation) := by
  refine ⟨?_, ?_⟩
  · intro n s₁ e s₂ generation hat hpasses
    have hpublishing := hpasses.publishing (desk_inv_run hat.before)
    obtain ⟨id, snapshot, client, includeMedia, -, -, rfl⟩ := hpasses
    obtain ⟨m, t₁, f, t₂, hm, hreads⟩ := (gated_run hat.before).publishing hpublishing
    obtain ⟨hlt, hm⟩ := hm.of_take
    exact ⟨m, t₁, f, t₂, hlt, hm, hreads⟩
  · intro id htask
    obtain ⟨w, hw⟩ := disablesAt_of_hasDisabled hrun htask (Or.inr (Or.inr rfl))
    refine ⟨w, hw, ?_⟩
    intro hnone
    have hd := disabling_since hrun hw hnone
    have hquiet : ¬ s.desk.coordinator.inner.state.Publishing := by
      rcases hd.quiet with hshut | ⟨hquiet, -⟩
      · rw [hshut] at htask
        contradiction
      · exact hquiet.state
    exact ⟨hquiet, fun e generation hpasses => hquiet (hpasses.publishing hd.desk)⟩

/-- A service that finds an enabled connection, and its start. -/
def enabledConfig : CoreConfig where
  privacy := defaultPrivacyConfig
  connection := some Coordinator.enabledConnection

def enabledService : Service :=
  new UnicodeData.ascii (fun _ => "digest") enabledConfig (fun _ => none)

def negotiatedBy (configure : Nat) : List ServiceEvent :=
  (Coordinator.configuredBy configure).map (fun e => .desk (.coordinator e))

def startedByService : List ServiceEvent :=
  [ServiceEvent.called 0 .start, .advance 0, .advance 0] ++ negotiatedBy 0

/-- An active service is disabled. Afterwards come a sleep, a wake and a trigger, and the configure
that the wake spawns. -/
def disabledWhileActive : List ServiceEvent :=
  startedByService ++
    [.called 1 .disableLiveDesk, .completed 1 true, .advance 1,
      .desk (.coordinator (.shutdownJoined 3 0)), .desk (.coordinator (.joinDone 4)),
      .desk (.coordinator (.shutdownFinish 3)), .advance 1,
      .desk (.coordinator (.handleSleepOrLock 5000)), .desk (.coordinator .handleWakeOrUnlock),
      .desk (.coordinator .requestFreshSnapshot), .desk (.coordinator (.wakeResume 5)),
      .desk (.coordinator (.loopHead 2 5000)), .desk (.coordinator (.configureEntry 6)),
      .desk (.coordinator (.configureGate 6
        (some { Coordinator.enabledConnection with liveDeskEnabled := false })))]

theorem publishing_gated_disabled :
    ∃ s₀ s w,
      exec (Service.step UnicodeData.ascii (fun _ => "digest")) enabledService
        startedByService = some s₀ ∧
      s₀.desk.coordinator.inner.state = .active ∧
      exec (Service.step UnicodeData.ascii (fun _ => "digest")) enabledService
        disabledWhileActive = some s ∧
      s.tasks 1 = some { command := .disableLiveDesk, stage := .returned (.ok none) } ∧
      DisablesAt UnicodeData.ascii (fun _ => "digest") enabledService disabledWhileActive 1 w ∧
      ¬ s.desk.coordinator.inner.state.Publishing ∧
      ∀ e generation, ¬ s.PassesCheck e generation := by
  obtain ⟨s₀, hs₀, hactive⟩ : ∃ s,
      exec (Service.step UnicodeData.ascii (fun _ => "digest")) enabledService
        startedByService = some s ∧
      s.desk.coordinator.inner.state = .active :=
    Option.map_eq_some_iff.mp (by decide +kernel)
  obtain ⟨s, hs, hok⟩ : ∃ s,
      exec (Service.step UnicodeData.ascii (fun _ => "digest")) enabledService
        disabledWhileActive = some s ∧
      s.tasks 1 = some { command := .disableLiveDesk, stage := .returned (.ok none) } :=
    Option.map_eq_some_iff.mp (by decide +kernel)
  obtain ⟨w, hw, hquiet⟩ := (publishing_gated hs).2 1 hok
  refine ⟨s₀, s, w, hs₀, hactive, hs, hok, hw, hquiet ?_⟩
  -- No consent is called in the run.
  rintro m s₁ e s₂ - hat ⟨id, ui, candidate, rfl, htask, -⟩
  have hmem := List.mem_of_mem_take (called_of_task hat.before htask)
  simp [disabledWhileActive, startedByService, negotiatedBy, Coordinator.configuredBy] at hmem

/-- A consent passes its first validation before the disable writes, and persists its flag between
that write and the shutdown. -/
def enabledDuringDisable : List ServiceEvent :=
  previewedBy 0 "editor" ++ clickedBy 1 "digest" ++ capturedBy 1 "editor" ++
    [.called 2 .disableLiveDesk, .completed 2 true, .completed 1 true, .advance 2,
      .desk (.coordinator (.shutdownJoined 0 0)), .desk (.coordinator (.shutdownFinish 0)),
      .advance 2]

/-- The consent goes on to its start, and the configure finds the flag. -/
def activeAfterDisable : List ServiceEvent :=
  capturedBy 1 "editor" ++ [.advance 1, .advance 1] ++
    (Coordinator.configuredBy 1).map (fun e => .desk (.coordinator e))

/-- The disable has returned `Ok`, no consent persists the flag afterwards, and the coordinator
becomes active. -/
theorem publishing_after_disable :
    ∃ s₁ s₂,
      exec (Service.step UnicodeData.ascii (fun _ => "digest")) paired enabledDuringDisable =
        some s₁ ∧
      s₁.tasks 2 = some { command := .disableLiveDesk, stage := .returned (.ok none) } ∧
      exec (Service.step UnicodeData.ascii (fun _ => "digest")) s₁ activeAfterDisable = some s₂ ∧
      s₂.desk.coordinator.inner.state = .active ∧
      EveryStep (Service.step UnicodeData.ascii (fun _ => "digest")) s₁ activeAfterDisable
        (fun t e _ => ¬ t.Enables e) := by
  obtain ⟨s₁, hs₁, hok⟩ : ∃ s,
      exec (Service.step UnicodeData.ascii (fun _ => "digest")) paired enabledDuringDisable =
        some s ∧
      s.tasks 2 = some { command := .disableLiveDesk, stage := .returned (.ok none) } :=
    Option.map_eq_some_iff.mp (by decide +kernel)
  obtain ⟨s₂, hs₂, hactive⟩ : ∃ s,
      exec (Service.step UnicodeData.ascii (fun _ => "digest")) paired
        (enabledDuringDisable ++ activeAfterDisable) = some s ∧
      s.desk.coordinator.inner.state = .active :=
    Option.map_eq_some_iff.mp (by decide +kernel)
  obtain ⟨t, ht, hrest⟩ := exec_append_eq_some.mp hs₂
  obtain rfl : t = s₁ := Option.some.inj (ht.symm.trans hs₁)
  refine ⟨t, s₂, hs₁, hok, hrest, hactive, ?_⟩
  rintro n t₁ e t₂ hat ⟨id, ui, candidate, rfl, -, -⟩
  have hmem := List.mem_of_getElem? hat.event
  simp [activeAfterDisable, capturedBy, Coordinator.configuredBy] at hmem

end Service

end YohakuCore
