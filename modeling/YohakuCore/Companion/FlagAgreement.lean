import YohakuCore.Companion.Disable

/-!
# The flag and the coordinator at rest

A consent's rollback, the connection of a new pairing and the end of an unpair turn the flag off
without a shutdown.
-/

namespace YohakuCore

open Framework

variable {u : UnicodeData} {sha256Hex : String → String}

namespace Service

def FlagOn (s : Service) : Prop :=
  ∃ connection, s.config.connection = some connection ∧ connection.liveDeskEnabled = true

theorem flagOff_of_not_flagOn {s : Service} (h : ¬ s.FlagOn) : s.FlagOff := by
  intro connection hconnection
  by_contra henabled
  rw [Bool.not_eq_false] at henabled
  exact h ⟨connection, hconnection, henabled⟩

theorem FlagOn.of_connection_eq {s s' : Service} (h : s.FlagOn)
    (hsame : s'.config.connection = s.config.connection) : s'.FlagOn := by
  obtain ⟨connection, hconnection, henabled⟩ := h
  exact ⟨connection, hsame ▸ hconnection, henabled⟩

theorem FlagOn.setLiveDesk {s s' : Service} (h : s.FlagOn)
    (hconfig : s'.config = s.config.setLiveDesk true) : s'.FlagOn := by
  obtain ⟨connection, hconnection, -⟩ := h
  refine ⟨{ connection with liveDeskEnabled := true }, ?_, rfl⟩
  rw [hconfig, CoreConfig.setLiveDesk, hconnection]
  rfl

theorem step_written {s s' : Service} {id : Nat} {command : Command} {stage next : Stage}
    {config : CoreConfig} (h : s.step u sha256Hex (.completed id true) = some s')
    (htask : s.tasks id = some { command := command, stage := stage })
    (hwrite : Stage.write s.config stage = some (config, next)) :
    s' = { s with config := config }.goto id command next := by
  simp only [step, completed, htask] at h
  cases stage with
  | pairCredentials => contradiction
  | unpairDelete deviceId => contradiction
  | unpairRemove deviceId => contradiction
  | _ =>
      dsimp only at h
      rw [hwrite] at h
      exact (Option.some.inj h).symm

theorem step_shutdown {s s' : Service} {e : ServiceEvent} {id : Nat} {command : Command}
    {next : AfterShutdown} (h : s.step u sha256Hex e = some s')
    (htask : s.tasks id = some { command := command, stage := .shutdown next }) :
    s'.tasks id = some { command := command, stage := .shutdown next } ∨
      s.desk.step (.coordinator (.shutdown next.reason)) = some s'.desk := by
  rcases step_segment h htask rfl with hkept | hadvance
  · exact Or.inl hkept
  · simp only [advance, htask] at hadvance
    obtain ⟨desk, hdesk, rfl⟩ := withDesk_eq_some.mp hadvance
    exact Or.inr hdesk

/-- Some command is about to shut the coordinator down. -/
def ShutdownPending (s : Service) : Prop :=
  ∃ id command next, s.tasks id = some { command := command, stage := .shutdown next }

/-- A coordinator that publishes, or is about to, is covered by the flag or by a pending
shutdown. -/
def Covered (s : Service) : Prop :=
  s.desk.coordinator.Quiet ∨ s.FlagOn ∨ s.ShutdownPending

/-- A consent's rollback, the connection of a new pairing or the end of an unpair turns the flag
off while the coordinator publishes, or its configure is past the gate. -/
def StrandsPublishing (s : Service) (e : ServiceEvent) : Prop :=
  ∃ id command stage, e = .completed id true ∧
    s.tasks id = some { command := command, stage := stage } ∧
    (stage = .rollback ∨ (∃ result, stage = .pairStore result) ∨ stage = .unpairForget) ∧
    s.FlagOn ∧ ¬ s.desk.coordinator.Quiet

theorem covered_of_pending {s s' : Service} {e : ServiceEvent} (hinv : s.desk.Inv)
    (hpending : s.ShutdownPending) (h : s.step u sha256Hex e = some s') : s'.Covered := by
  obtain ⟨id, command, next, htask⟩ := hpending
  rcases step_shutdown h htask with hkept | hdesk
  · exact Or.inr (Or.inr ⟨id, command, next, hkept⟩)
  · exact Or.inl (quiet_of_shutdown hinv hdesk)

/-- A write that turns the flag off is followed by a shutdown, or finds the coordinator quiet. -/
theorem covered_of_written {s s' : Service} {id : Nat} {command : Command} {stage next : Stage}
    (hon : s.FlagOn) (hkept : ¬ s.StrandsPublishing (.completed id true))
    (htask : s.tasks id = some { command := command, stage := stage })
    (hwrite : Stage.write s.config stage = some (s'.config, next))
    (h : s.step u sha256Hex (.completed id true) = some s') : s'.Covered := by
  have hs' := step_written h htask hwrite
  have hdesk : s'.desk = s.desk := by rw [hs']; rfl
  have hnext : s'.tasks id = some { command := command, stage := next } := by
    rw [hs']
    exact goto_tasks_self _ _ _ _
  have hquiet (hstage : stage = .rollback ∨ (∃ result, stage = .pairStore result) ∨
      stage = .unpairForget) : s'.Covered := by
    refine Or.inl ?_
    rw [hdesk]
    by_contra hnot
    exact hkept ⟨id, command, stage, rfl, htask, hstage, hon, hnot⟩
  cases stage with
  | rollback => exact hquiet (Or.inl rfl)
  | pairStore result => exact hquiet (Or.inr (Or.inl ⟨result, rfl⟩))
  | unpairForget => exact hquiet (Or.inr (Or.inr rfl))
  | enable candidate =>
      obtain ⟨hconfig, -⟩ := Prod.mk.inj (Option.some.inj hwrite)
      exact Or.inr (Or.inl (hon.setLiveDesk hconfig.symm))
  | pairToken result =>
      obtain ⟨hconfig, -⟩ := Prod.mk.inj (Option.some.inj hwrite)
      exact Or.inr (Or.inl (hon.of_connection_eq (by rw [hconfig])))
  | disable =>
      obtain ⟨-, rfl⟩ := Prod.mk.inj (Option.some.inj hwrite)
      exact Or.inr (Or.inr ⟨id, command, _, hnext⟩)
  | unpairDisable deviceId =>
      obtain ⟨-, rfl⟩ := Prod.mk.inj (Option.some.inj hwrite)
      exact Or.inr (Or.inr ⟨id, command, _, hnext⟩)
  | _ => contradiction

theorem Covered.step {s s' : Service} {e : ServiceEvent} (hcovered : s.Covered)
    (hinv : s.desk.Inv) (hkept : ¬ s.StrandsPublishing e)
    (h : s.step u sha256Hex e = some s') : s'.Covered := by
  by_cases hpending : s.ShutdownPending
  · exact covered_of_pending hinv hpending h
  by_cases hon : s.FlagOn
  · cases step_connection h with
    | kept hconnection => exact Or.inr (Or.inl (hon.of_connection_eq hconnection))
    | written id command stage next he htask hwrite =>
        subst he
        exact covered_of_written hon hkept htask hwrite h
  · have hquiet : s.desk.coordinator.Quiet := by
      rcases hcovered with hquiet | hon' | hpending'
      · exact hquiet
      · exact absurd hon' hon
      · exact absurd hpending' hpending
    exact Or.inl (quiet_step hquiet hinv (flagOff_of_not_flagOn hon) h)

/-- No command and no configure is in progress. -/
structure AtRest (s : Service) : Prop where
  commands : ∀ id command stage, s.tasks id = some { command := command, stage := stage } →
    ∃ result, stage = .returned result
  configures : ∀ i, s.desk.coordinator.configures i = none

theorem AtRest.not_pending {s : Service} (h : s.AtRest) : ¬ s.ShutdownPending := by
  rintro ⟨id, command, next, htask⟩
  obtain ⟨result, hresult⟩ := h.commands id command _ htask
  contradiction

theorem quiet_new (config : CoreConfig) (backing : String → Option Int) :
    (new u sha256Hex config backing).desk.coordinator.Quiet :=
  Coordinator.quiet_of_disabled Coordinator.inv_new rfl

/-- Over every run in which no such write strands a publishing coordinator: at rest, an active or
degraded coordinator has a stored connection with the flag. -/
theorem publishing_flagged_at_rest {config : CoreConfig} {backing : String → Option Int}
    {es : List ServiceEvent} {s : Service}
    (hrun : exec (Service.step u sha256Hex) (new u sha256Hex config backing) es = some s)
    (hkept : EveryStep (Service.step u sha256Hex) (new u sha256Hex config backing) es
      (fun s e _ => ¬ s.StrandsPublishing e))
    (hrest : s.AtRest) (hpublishing : s.desk.coordinator.inner.state.Publishing) : s.FlagOn := by
  have hall := EveryStep.invariant (I := fun s => s.desk.Inv ∧ s.Covered)
    ⟨LiveDesk.inv_new backing, Or.inl (quiet_new config backing)⟩ ?_ hkept hrun
  · rcases hall.2 with hquiet | hon | hpending
    · exact absurd hpublishing hquiet.state
    · exact hon
    · exact absurd hpending hrest.not_pending
  · rintro s₁ e s₂ ⟨hinv, hcovered⟩ hcond hstep
    exact ⟨desk_inv_step hinv hstep, hcovered.step hinv hcond hstep⟩

private theorem configure_ended (entry gate token capabilities : Option (Spawned ConfigurePc))
    (i : Nat) :
    Function.update (Function.update (Function.update (Function.update (Function.update
      (fun _ => none) 0 entry) 0 gate) 0 token) 0 capabilities) 0 none i = none := by
  simp only [Function.update_idem, Function.update_apply]
  split <;> rfl

theorem publishing_flagged_at_rest_started :
    ∃ s, exec (Service.step UnicodeData.ascii (fun _ => "digest"))
        (new UnicodeData.ascii (fun _ => "digest") enabledConfig (fun _ => none))
        startedByService = some s ∧
      s.AtRest ∧ s.desk.coordinator.inner.state = .active ∧ s.FlagOn := by
  have hrun : ∃ s, exec (Service.step UnicodeData.ascii (fun _ => "digest"))
      (new UnicodeData.ascii (fun _ => "digest") enabledConfig (fun _ => none))
      startedByService = some s ∧
      s.tasks 0 = some { command := .start, stage := .returned (.ok none) } ∧
      s.desk.coordinator.inner.state = .active ∧
      ∀ i, s.desk.coordinator.configures i = none :=
    ⟨_, rfl, rfl, rfl, fun i => configure_ended _ _ _ _ i⟩
  obtain ⟨s, hs, htask, hactive, hended⟩ := hrun
  have hrest : s.AtRest := by
    refine ⟨?_, hended⟩
    intro id command stage hid
    have hmem := called_of_task hs hid
    simp [startedByService, negotiatedBy, Coordinator.configuredBy] at hmem
    obtain ⟨rfl, -⟩ := hmem
    rw [htask] at hid
    obtain ⟨-, rfl⟩ := Task.mk.inj (Option.some.inj hid)
    exact ⟨_, rfl⟩
  refine ⟨s, hs, hrest, hactive, publishing_flagged_at_rest hs ?_ hrest (Or.inl hactive)⟩
  rintro n t₁ e t₂ hat ⟨id, command, stage, rfl, -⟩
  have hmem := List.mem_of_getElem? hat.event
  simp [startedByService, negotiatedBy, Coordinator.configuredBy] at hmem

/-- A consent enables publishing; while it is active a second one writes the flag again, finds
another application in front and rolls back. -/
def rolledBackWhileActive : List ServiceEvent :=
  previewedBy 0 "editor" ++ clickedBy 1 "digest" ++ capturedBy 1 "editor" ++
    enabledBy 1 "editor" ++ negotiatedBy 0 ++ clickedBy 2 "digest" ++ capturedBy 2 "editor" ++
    [ServiceEvent.completed 2 true] ++ capturedBy 2 "browser" ++
    [ServiceEvent.advance 2, .completed 2 true] ++ capturedBy 2 "browser" ++
    [ServiceEvent.advance 2]

/-- The second consent returns `PreviewOutOfDate`, nothing is in progress, the flag is off and the
coordinator is active. -/
theorem publishing_unflagged_rolledBack :
    ∃ s, exec (Service.step UnicodeData.ascii (fun _ => "digest")) paired
        rolledBackWhileActive = some s ∧
      s.tasks 2 = some {
        command := .confirmConsent "digest", stage := .returned (.error .previewOutOfDate) } ∧
      s.AtRest ∧ s.desk.coordinator.inner.state = .active ∧ ¬ s.FlagOn := by
  have hrun : ∃ s, exec (Service.step UnicodeData.ascii (fun _ => "digest")) paired
      rolledBackWhileActive = some s ∧
      (∃ preview, s.tasks 0 = some {
        command := .refreshPreview, stage := .returned (.ok (some preview)) }) ∧
      s.tasks 1 = some { command := .confirmConsent "digest", stage := .returned (.ok none) } ∧
      s.tasks 2 = some {
        command := .confirmConsent "digest", stage := .returned (.error .previewOutOfDate) } ∧
      s.desk.coordinator.inner.state = .active ∧ s.config = pairedConfig ∧
      ∀ i, s.desk.coordinator.configures i = none :=
    ⟨_, rfl, ⟨_, rfl⟩, rfl, rfl, rfl, rfl, fun i => configure_ended _ _ _ _ i⟩
  obtain ⟨s, hs, ⟨preview, hpreviewed⟩, hconsented, hrejected, hactive, hconfig, hended⟩ := hrun
  refine ⟨s, hs, hrejected, ⟨?_, hended⟩, hactive, ?_⟩
  · intro id command stage hid
    have hmem := called_of_task hs hid
    simp [rolledBackWhileActive, previewedBy, clickedBy, capturedBy, enabledBy, negotiatedBy,
      Coordinator.configuredBy] at hmem
    rcases hmem with ⟨rfl, -⟩ | ⟨rfl, -⟩ | ⟨rfl, -⟩
    · rw [hpreviewed] at hid
      obtain ⟨-, rfl⟩ := Task.mk.inj (Option.some.inj hid)
      exact ⟨_, rfl⟩
    · rw [hconsented] at hid
      obtain ⟨-, rfl⟩ := Task.mk.inj (Option.some.inj hid)
      exact ⟨_, rfl⟩
    · rw [hrejected] at hid
      obtain ⟨-, rfl⟩ := Task.mk.inj (Option.some.inj hid)
      exact ⟨_, rfl⟩
  · rintro ⟨connection, hconnection, henabled⟩
    rw [hconfig] at hconnection
    obtain rfl := Option.some.inj hconnection
    contradiction

end Service

end YohakuCore
