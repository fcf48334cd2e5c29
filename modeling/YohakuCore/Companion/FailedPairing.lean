import YohakuCore.Companion.Installation
import YohakuCore.Companion.ConsentPairing

/-!
# What a failed pairing leaves behind

A pairing claims its device and stops the old lifecycle before it writes, and starts nothing again
when a write fails.
-/

namespace YohakuCore

open Framework

variable {u : UnicodeData} {sha256Hex : String → String}

/-- A pairing at this stage has written the configuration. -/
def Stage.paired : Stage → Bool
  | previewOptions | previewCapture _ | previewRecord _ | previewStore _ => true
  | returned (.ok _) => true
  | _ => false

/-- The segments of the pairing `id`, with what each meets and leaves. -/
inductive PairSegment (id : Nat) (s : Service) (e : ServiceEvent) (s' : Service) :
    Stage → Stage → Prop
  | credentials (event : e = .completed id true) :
      PairSegment id s e s' .pairCredentials .pairClaim
  | unavailable (event : e = .completed id false) :
      PairSegment id s e s' .pairCredentials (.returned (.error .credentialStoreUnavailable))
  | claimed (result : PairingResult) (event : e = .claimed id (.ok result)) :
      PairSegment id s e s' .pairClaim (.shutdown (.pair result))
  | rejected (error : IpcErrorCode) (event : e = .claimed id (.error error)) :
      PairSegment id s e s' .pairClaim (.returned (.error error))
  | joined (result : PairingResult)
      (desk : s.desk.step (.coordinator (.shutdown .connectionRemoved)) = some s'.desk) :
      PairSegment id s e s' (.shutdown (.pair result)) (.pairDiscard result)
  | shutdown (result : PairingResult) (task : Nat)
      (desk : s.desk.step (.coordinator (.shutdown .connectionRemoved)) = some s'.desk) :
      PairSegment id s e s' (.shutdown (.pair result)) (.shutdownWait task (.pair result))
  | waited (result : PairingResult) (task : Nat) :
      PairSegment id s e s' (.shutdownWait task (.pair result)) (.pairDiscard result)
  | discarded (result : PairingResult)
      (desk : s.desk.step (.coordinator .discardAuthority) = some s'.desk) :
      PairSegment id s e s' (.pairDiscard result) (.pairToken result)
  | token (result : PairingResult) :
      PairSegment id s e s' (.pairToken result) (.pairStore result)
  | tokenFailed (result : PairingResult) :
      PairSegment id s e s' (.pairToken result) (.returned (.error .internal))
  | storeFailed (result : PairingResult) :
      PairSegment id s e s' (.pairStore result) (.returned (.error .internal))
  | stored (result : PairingResult) :
      PairSegment id s e s' (.pairStore result) .previewOptions
  | preview (stage stage' : Stage) (before : stage.paired = true) (after : stage'.paired = true) :
      PairSegment id s e s' stage stage'

namespace Service

/-- The pairing `id` runs a segment of its own. -/
def PairReaches (id : Nat) (s : Service) (e : ServiceEvent) (s' : Service) (stage : Stage) :
    Prop :=
  ∃ stage', s'.tasks id = some { command := .pair, stage := stage' } ∧
    PairSegment id s e s' stage stage'

theorem pairReaches_goto {s r : Service} {id : Nat} {e : ServiceEvent} {stage stage' : Stage}
    (h : PairSegment id s e (r.goto id .pair stage') stage stage') :
    PairReaches id s e (r.goto id .pair stage') stage :=
  ⟨stage', goto_tasks_self _ _ _ _, h⟩

theorem AfterShutdown.eq_pair {next : AfterShutdown} (h : Command.pair = next.command) :
    ∃ result, next = .pair result := by
  cases next with
  | pair result => exact ⟨result, rfl⟩
  | _ => contradiction

theorem advance_pair {s s' : Service} {id : Nat} {stage : Stage}
    (h : s.advance u sha256Hex id = some s')
    (htask : s.tasks id = some { command := .pair, stage := stage })
    (hstage : stage.belongs .pair = true) : PairReaches id s (.advance id) s' stage := by
  rw [advance, htask] at h
  cases stage with
  | previewOptions =>
      obtain rfl := Option.some.inj h
      exact pairReaches_goto (.preview _ _ rfl rfl)
  | previewRecord snapshot =>
      obtain rfl := Option.some.inj h
      exact pairReaches_goto (.preview _ _ rfl rfl)
  | previewStore preview =>
      obtain rfl := Option.some.inj h
      exact pairReaches_goto (.preview _ _ rfl rfl)
  | shutdown next =>
      obtain ⟨result, rfl⟩ := AfterShutdown.eq_pair (of_decide_eq_true hstage)
      obtain ⟨desk, hdesk, rfl⟩ := withDesk_eq_some.mp h
      refine ⟨_, goto_tasks_self _ _ _ _, ?_⟩
      split
      · exact .joined result hdesk
      · exact .shutdown result _ hdesk
  | shutdownWait task next =>
      obtain ⟨result, rfl⟩ := AfterShutdown.eq_pair (of_decide_eq_true hstage)
      dsimp only at h
      split at h
      · obtain rfl := Option.some.inj h
        exact pairReaches_goto (.waited result task)
      · contradiction
  | pairDiscard result =>
      obtain ⟨desk, hdesk, rfl⟩ := withDesk_eq_some.mp h
      exact ⟨_, goto_tasks_self _ _ _ _, .discarded result hdesk⟩
  | _ => contradiction

theorem readPrivacy_pair {s s' : Service} {id : Nat} {stage : Stage}
    (h : s.readPrivacy id = some s')
    (htask : s.tasks id = some { command := .pair, stage := stage })
    (hstage : stage.belongs .pair = true) : PairReaches id s (.readPrivacy id) s' stage := by
  rw [readPrivacy, htask] at h
  cases stage with
  | previewCapture capture =>
      obtain rfl := Option.some.inj h
      exact pairReaches_goto (.preview _ _ rfl rfl)
  | _ => contradiction

theorem captured_pair {s s' : Service} {id : Nat} {input : CaptureInput}
    {tracker : MediaSessionTracker} {stage : Stage} (h : s.captured u id input tracker = some s')
    (htask : s.tasks id = some { command := .pair, stage := stage })
    (hstage : stage.belongs .pair = true) :
    PairReaches id s (.captured id input tracker) s' stage := by
  rw [captured, htask] at h
  cases stage with
  | previewCapture capture =>
      obtain ⟨snapshot, -, rfl⟩ := Option.map_eq_some_iff.mp h
      exact pairReaches_goto (.preview _ _ rfl rfl)
  | _ => contradiction

theorem completed_pair {s s' : Service} {id : Nat} {succeeds : Bool} {stage : Stage}
    (h : s.completed id succeeds = some s')
    (htask : s.tasks id = some { command := .pair, stage := stage })
    (hstage : stage.belongs .pair = true) :
    PairReaches id s (.completed id succeeds) s' stage := by
  rw [completed, htask] at h
  cases stage with
  | pairCredentials =>
      dsimp only at h
      cases succeeds with
      | true =>
          obtain rfl := Option.some.inj h
          exact pairReaches_goto (.credentials rfl)
      | false =>
          obtain rfl := Option.some.inj h
          exact pairReaches_goto (.unavailable rfl)
  | pairToken result =>
      dsimp only [Stage.write] at h
      split at h
      · obtain rfl := Option.some.inj h
        exact pairReaches_goto (.token result)
      · obtain rfl := Option.some.inj h
        exact pairReaches_goto (.tokenFailed result)
  | pairStore result =>
      dsimp only [Stage.write] at h
      split at h
      · obtain rfl := Option.some.inj h
        exact pairReaches_goto (.stored result)
      · obtain rfl := Option.some.inj h
        exact pairReaches_goto (.storeFailed result)
  | _ => contradiction

theorem claimed_pair {s s' : Service} {id : Nat} {result : Except IpcErrorCode PairingResult}
    {stage : Stage} (h : s.claimed id result = some s')
    (htask : s.tasks id = some { command := .pair, stage := stage }) :
    PairReaches id s (.claimed id result) s' stage := by
  rw [claimed, htask] at h
  cases stage with
  | pairClaim =>
      dsimp only at h
      split at h
      · rename_i result
        obtain rfl := Option.some.inj h
        exact pairReaches_goto (.claimed result rfl)
      · rename_i error
        obtain rfl := Option.some.inj h
        exact pairReaches_goto (.rejected error rfl)
  | _ => contradiction

theorem step_pair {s s' : Service} {e : ServiceEvent} {id : Nat} {stage : Stage}
    (hplaced : s.Placed) (h : s.step u sha256Hex e = some s')
    (htask : s.tasks id = some { command := .pair, stage := stage }) (hid : e.task = some id) :
    PairReaches id s e s' stage := by
  have hstage := hplaced id _ stage htask
  cases e with
  | advance j =>
      obtain rfl := Option.some.inj hid
      exact advance_pair h htask hstage
  | readPrivacy j =>
      obtain rfl := Option.some.inj hid
      exact readPrivacy_pair h htask hstage
  | captured j input tracker =>
      obtain rfl := Option.some.inj hid
      exact captured_pair h htask hstage
  | completed j succeeds =>
      obtain rfl := Option.some.inj hid
      exact completed_pair h htask hstage
  | claimed j result =>
      obtain rfl := Option.some.inj hid
      exact claimed_pair h htask
  | called j command =>
      obtain rfl := Option.some.inj hid
      simp [step, htask] at h
  | updatePrivacy privacy => contradiction
  | desk f => contradiction

end Service

namespace Installation

/-- The events of the command `id`. -/
def OfCommand (id : Nat) (e : InstallationEvent) : Prop :=
  e = .renamed id ∨ ∃ f, e = .service f ∧ f.task = some id

/-- The pairing `id` stops the old lifecycle. -/
def StopsLifecycle (id : Nat) (s : Installation) (e : InstallationEvent) (s' : Installation) :
    Prop :=
  OfCommand id e ∧
    s.service.desk.step (.coordinator (.shutdown .connectionRemoved)) = some s'.service.desk

/-- The pairing `id` discards the old authority. -/
def DiscardsAuthority (id : Nat) (s : Installation) (e : InstallationEvent) (s' : Installation) :
    Prop :=
  OfCommand id e ∧ s.service.desk.step (.coordinator .discardAuthority) = some s'.service.desk

/-- What has happened in a pairing when it stands at a stage: the devices it has claimed, and
whether it has stopped the old lifecycle and discarded its authority. -/
inductive PairStands (claimed : PairingResult → Prop) (stopped discarded : Prop) : Stage → Prop
  | credentials (none : ∀ result, ¬ claimed result) :
      PairStands claimed stopped discarded .pairCredentials
  | claim (none : ∀ result, ¬ claimed result) : PairStands claimed stopped discarded .pairClaim
  | shutdown (result : PairingResult) (claim : claimed result) :
      PairStands claimed stopped discarded (.shutdown (.pair result))
  | wait (task : Nat) (result : PairingResult) (claim : claimed result) (stop : stopped) :
      PairStands claimed stopped discarded (.shutdownWait task (.pair result))
  | discard (result : PairingResult) (claim : claimed result) (stop : stopped) :
      PairStands claimed stopped discarded (.pairDiscard result)
  | token (result : PairingResult) (claim : claimed result) (stop : stopped)
      (discard : discarded) : PairStands claimed stopped discarded (.pairToken result)
  | store (result : PairingResult) (claim : claimed result) (stop : stopped)
      (discard : discarded) : PairStands claimed stopped discarded (.pairStore result)
  | failed (error : IpcErrorCode) (ended : (∀ result, ¬ claimed result) ∨ stopped ∧ discarded) :
      PairStands claimed stopped discarded (.returned (.error error))
  | paired (stage : Stage) (paired : stage.paired = true) :
      PairStands claimed stopped discarded stage

/-- A segment of the pairing takes it on, and adds what it does. -/
theorem PairStands.segment {claimed claimed' : PairingResult → Prop}
    {stopped discarded stopped' discarded' : Prop} {s s' : Installation} {id : Nat}
    {e : ServiceEvent} {stage stage' : Stage} (h : PairStands claimed stopped discarded stage)
    (hsegment : PairSegment id s.service e s'.service stage stage')
    (hid : e.task = some id)
    (hclaimed : ∀ result, claimed' result ↔ claimed result ∨ e = .claimed id (.ok result))
    (hstopped : stopped' ↔ stopped ∨ StopsLifecycle id s (.service e) s')
    (hdiscarded : discarded' ↔ discarded ∨ DiscardsAuthority id s (.service e) s') :
    PairStands claimed' stopped' discarded' stage' := by
  have hof : OfCommand id (.service e) := Or.inr ⟨e, rfl, hid⟩
  have claim {result : PairingResult} (hresult : claimed result) : claimed' result :=
    (hclaimed result).mpr (Or.inl hresult)
  have stop (hstop : stopped) : stopped' := hstopped.mpr (Or.inl hstop)
  have discard (hdiscard : discarded) : discarded' := hdiscarded.mpr (Or.inl hdiscard)
  have unclaimed (hnone : ∀ result, ¬ claimed result)
      (he : ∀ result, e ≠ .claimed id (.ok result)) (result : PairingResult) :
      ¬ claimed' result := by
    rw [hclaimed]
    rintro (hresult | hresult)
    · exact hnone result hresult
    · exact he result hresult
  cases hsegment with
  | preview _ _ _ hafter => exact .paired _ hafter
  | stored result => exact .paired _ rfl
  | credentials he =>
      cases h with
      | credentials hnone => exact .claim (unclaimed hnone (by simp [he]))
      | paired _ hpaired => contradiction
  | unavailable he =>
      cases h with
      | credentials hnone => exact .failed _ (Or.inl (unclaimed hnone (by simp [he])))
      | paired _ hpaired => contradiction
  | claimed result he => exact .shutdown result ((hclaimed result).mpr (Or.inr he))
  | rejected error he =>
      cases h with
      | claim hnone => exact .failed error (Or.inl (unclaimed hnone (by simp [he])))
      | paired _ hpaired => contradiction
  | joined result hdesk =>
      cases h with
      | shutdown _ hclaim =>
          exact .discard result (claim hclaim) (hstopped.mpr (Or.inr ⟨hof, hdesk⟩))
      | paired _ hpaired => contradiction
  | shutdown result task hdesk =>
      cases h with
      | shutdown _ hclaim =>
          exact .wait task result (claim hclaim) (hstopped.mpr (Or.inr ⟨hof, hdesk⟩))
      | paired _ hpaired => contradiction
  | waited result task =>
      cases h with
      | wait _ _ hclaim hstop => exact .discard result (claim hclaim) (stop hstop)
      | paired _ hpaired => contradiction
  | discarded result hdesk =>
      cases h with
      | discard _ hclaim hstop =>
          exact .token result (claim hclaim) (stop hstop) (hdiscarded.mpr (Or.inr ⟨hof, hdesk⟩))
      | paired _ hpaired => contradiction
  | token result =>
      cases h with
      | token _ hclaim hstop hdiscard =>
          exact .store result (claim hclaim) (stop hstop) (discard hdiscard)
      | paired _ hpaired => contradiction
  | tokenFailed result =>
      cases h with
      | token _ hclaim hstop hdiscard =>
          exact .failed _ (Or.inr ⟨stop hstop, discard hdiscard⟩)
      | paired _ hpaired => contradiction
  | storeFailed result =>
      cases h with
      | store _ hclaim hstop hdiscard =>
          exact .failed _ (Or.inr ⟨stop hstop, discard hdiscard⟩)
      | paired _ hpaired => contradiction

/-- Whatever another command does leaves the pairing where it stands. -/
theorem PairStands.mono {claimed claimed' : PairingResult → Prop}
    {stopped discarded stopped' discarded' : Prop} {stage : Stage}
    (h : PairStands claimed stopped discarded stage)
    (hclaimed : ∀ result, claimed' result ↔ claimed result)
    (hstopped : stopped → stopped') (hdiscarded : discarded → discarded') :
    PairStands claimed' stopped' discarded' stage := by
  have hsame : claimed' = claimed := funext fun result => propext (hclaimed result)
  subst hsame
  cases h with
  | credentials hnone => exact .credentials hnone
  | claim hnone => exact .claim hnone
  | shutdown result hclaim => exact .shutdown result hclaim
  | wait task result hclaim hstop => exact .wait task result hclaim (hstopped hstop)
  | discard result hclaim hstop => exact .discard result hclaim (hstopped hstop)
  | token result hclaim hstop hdiscard =>
      exact .token result hclaim (hstopped hstop) (hdiscarded hdiscard)
  | store result hclaim hstop hdiscard =>
      exact .store result hclaim (hstopped hstop) (hdiscarded hdiscard)
  | failed error hended => exact .failed error (hended.imp id (And.imp hstopped hdiscarded))
  | paired _ hpaired => exact .paired _ hpaired

/-- The pairing `id` under way in this process. -/
structure Pairing (id : Nat) (claimed : PairingResult → Prop) (stopped discarded : Prop)
    (s : Installation) : Prop where
  consistent : s.Consistent
  placed : s.service.Placed
  desk : s.service.desk.Inv
  stands : ∃ stage, s.service.tasks id = some { command := .pair, stage := stage } ∧
    PairStands claimed stopped discarded stage

theorem Pairing.step {s s' : Installation} {id : Nat} {claimed : PairingResult → Prop}
    {stopped discarded : Prop} {e : InstallationEvent} (hp : Pairing id claimed stopped discarded s)
    (he : e ≠ .restarted) (h : s.step u sha256Hex e = some s') :
    Pairing id (fun result => claimed result ∨ e = .service (.claimed id (.ok result)))
      (stopped ∨ StopsLifecycle id s e s') (discarded ∨ DiscardsAuthority id s e s') s' := by
  have hconsistent := hp.consistent.step h
  obtain ⟨stage, htask, hstands⟩ := hp.stands
  cases e with
  | restarted => contradiction
  | renamed j =>
      obtain ⟨config, -, -, rfl⟩ := step_renamed h
      exact ⟨hconsistent, hp.placed, hp.desk, stage, htask,
        hstands.mono (by simp) Or.inl Or.inl⟩
  | settingsRenamed privacy =>
      obtain ⟨-, rfl⟩ := rename_eq_some h
      exact ⟨hconsistent, hp.placed, hp.desk, stage, htask,
        hstands.mono (by simp) Or.inl Or.inl⟩
  | service e =>
      have hservice := (step_service h).2.1
      refine ⟨hconsistent, hp.placed.step hservice, Service.desk_inv_step hp.desk hservice, ?_⟩
      by_cases hid : e.task = some id
      · obtain ⟨stage', htask', hsegment⟩ := Service.step_pair hp.placed hservice htask hid
        exact ⟨stage', htask', hstands.segment hsegment hid (by simp) Iff.rfl Iff.rfl⟩
      · refine ⟨stage, (Service.step_tasks_of_ne hservice hid).trans htask,
          hstands.mono ?_ Or.inl Or.inl⟩
        intro result
        refine or_iff_left ?_
        intro hclaimed
        rw [InstallationEvent.service.inj hclaimed] at hid
        exact hid rfl

/-- The file of the pairing `id` is config.json, or its configuration is in memory too. -/
def PairCommitted (id : Nat) (s : Installation) : Prop :=
  (∃ config, s.updating = some (.command id, config)) ∨
    ∃ stage, s.service.tasks id = some { command := .pair, stage := stage } ∧ stage.paired = true

theorem PairCommitted.step {s s' : Installation} {id : Nat} {claimed : PairingResult → Prop}
    {stopped discarded : Prop} {e : InstallationEvent} (hc : s.PairCommitted id)
    (hp : Pairing id claimed stopped discarded s) (he : e ≠ .restarted)
    (h : s.step u sha256Hex e = some s') : s'.PairCommitted id := by
  obtain ⟨stage, htask, -⟩ := hp.stands
  cases e with
  | restarted => contradiction
  | renamed j =>
      obtain ⟨config, -, hidle, rfl⟩ := step_renamed h
      rcases hc with ⟨config', hbusy⟩ | hpaired
      · rw [hidle] at hbusy
        contradiction
      · exact Or.inr hpaired
  | settingsRenamed privacy =>
      obtain ⟨hidle, rfl⟩ := rename_eq_some h
      rcases hc with ⟨config', hbusy⟩ | hpaired
      · rw [hidle] at hbusy
        contradiction
      · exact Or.inr hpaired
  | service e =>
      obtain ⟨-, hservice, -, hafter, -⟩ := step_service h
      rcases hc with ⟨config, hbusy⟩ | ⟨stage', htask', hpaired⟩
      · cases hswaps : s.swaps e with
        | false => exact Or.inl ⟨config, by simp [hafter, hswaps, hbusy]⟩
        | true =>
            -- Only the pairing itself ends its update, and then it refreshes the preview.
            obtain ⟨command, stage', next, htask', hstage, hwrite⟩ :=
              updateOf_eq_some (hp.consistent.command id config hbusy)
            obtain ⟨rfl, rfl⟩ := Task.mk.inj (Option.some.inj (htask.symm.trans htask'))
            obtain ⟨updater, hupdating, hends, -⟩ := step_swaps h hswaps
            obtain ⟨hupdater, -⟩ := Prod.mk.inj (Option.some.inj (hbusy.symm.trans hupdating))
            obtain rfl := hends id hupdater.symm
            have hbelongs := hp.placed id _ stage htask
            cases stage with
            | pairStore result =>
                obtain ⟨-, rfl⟩ := Prod.mk.inj (Option.some.inj hwrite)
                refine Or.inr ⟨.previewOptions, ?_, rfl⟩
                rw [Service.step_written hservice htask hwrite]
                exact Service.goto_tasks_self _ _ _ _
            | _ => contradiction
      · by_cases hid : e.task = some id
        · obtain ⟨stage'', htask'', hsegment⟩ := Service.step_pair hp.placed hservice htask' hid
          have hpaired' : stage''.paired = true := by
            cases hsegment with
            | preview _ _ _ hafter => exact hafter
            | _ => contradiction
          exact Or.inr ⟨stage'', htask'', hpaired'⟩
        · exact Or.inr ⟨stage', (Service.step_tasks_of_ne hservice hid).trans htask', hpaired⟩

theorem PairCommitted.not_failed {s : Installation} {id : Nat} {error : IpcErrorCode}
    (hs : s.Consistent) (hc : s.PairCommitted id)
    (hfailed : s.service.tasks id = some { command := .pair, stage := .returned (.error error) }) :
    False := by
  rcases hc with ⟨config, hbusy⟩ | ⟨stage, htask, hpaired⟩
  · have hupdate := hs.command id config hbusy
    simp [Service.updateOf, hfailed, Service.Stage.update, Service.Stage.write] at hupdate
  · rw [hfailed] at htask
    obtain ⟨-, rfl⟩ := Task.mk.inj (Option.some.inj htask)
    contradiction

theorem Pairing.credentials {s s' : Installation} {id : Nat} {claimed : PairingResult → Prop}
    {stopped discarded : Prop} {e : ServiceEvent} (hp : Pairing id claimed stopped discarded s)
    (hid : e.task = some id) (h : s.step u sha256Hex (.service e) = some s') {deviceId : String}
    (hother : ∀ result, claimed result → result.deviceId ≠ deviceId) :
    s'.credentials deviceId = s.credentials deviceId := by
  obtain ⟨-, -, -, -, hcredentials⟩ := step_service h
  obtain ⟨stage, htask, hstands⟩ := hp.stands
  have hbelongs := hp.placed id _ stage htask
  rw [hcredentials]
  cases e with
  | completed j succeeds =>
      obtain rfl := Option.some.inj hid
      cases succeeds with
      | false => rfl
      | true =>
          rw [stored, htask]
          cases stage with
          | pairToken result =>
              cases hstands with
              | token _ hclaim => exact Function.update_of_ne (hother result hclaim).symm _ _
              | paired _ hpaired => contradiction
          | unpairDelete deviceId => contradiction
          | _ => rfl
  | _ => rfl

/-- A pairing leaves the desk as it is, except that it stops the old lifecycle and discards its
authority after its claim. -/
theorem Pairing.desk_step {s s' : Installation} {id : Nat} {claimed : PairingResult → Prop}
    {stopped discarded : Prop} {e : ServiceEvent} (hp : Pairing id claimed stopped discarded s)
    (hid : e.task = some id) (h : s.step u sha256Hex (.service e) = some s') :
    s'.service.desk = s.service.desk ∨ (∃ result, claimed result) ∧
      (StopsLifecycle id s (.service e) s' ∨ DiscardsAuthority id s (.service e) s') := by
  have hof : OfCommand id (.service e) := Or.inr ⟨e, rfl, hid⟩
  obtain ⟨stage, htask, hstands⟩ := hp.stands
  have hbelongs := hp.placed id _ stage htask
  cases Service.step_deskRun (step_service h).2.1 with
  | kept hdesk => exact Or.inl hdesk
  | ran f hdesk hsource =>
      refine Or.inr ?_
      cases hsource with
      | own he => simp [he, ServiceEvent.task] at hid
      | removal j command deviceId he htask' =>
          obtain rfl : j = id := by simpa [he, ServiceEvent.task] using hid
          obtain ⟨-, rfl⟩ := Task.mk.inj (Option.some.inj (htask.symm.trans htask'))
          contradiction
      | segment j command stage' he htask' hruns =>
          obtain rfl : j = id := by simpa [he, ServiceEvent.task] using hid
          obtain ⟨-, rfl⟩ := Task.mk.inj (Option.some.inj (htask.symm.trans htask'))
          cases hstands with
          | shutdown result hclaim =>
              obtain rfl := Option.some.inj hruns
              exact ⟨⟨result, hclaim⟩, Or.inl ⟨hof, hdesk⟩⟩
          | discard result hclaim =>
              obtain rfl := Option.some.inj hruns
              exact ⟨⟨result, hclaim⟩, Or.inr ⟨hof, hdesk⟩⟩
          | paired _ hpaired => cases stage <;> contradiction
          | _ => contradiction

section

variable (u sha256Hex) (id : Nat) (s₁ : Installation) (es : List InstallationEvent)

/-- The pairing `id` claims a device in the run. -/
def Claims (result : PairingResult) : Prop := .service (.claimed id (.ok result)) ∈ es

def HasStopped : Prop := Happened (Installation.step u sha256Hex) s₁ es (StopsLifecycle id)

def HasDiscarded : Prop := Happened (Installation.step u sha256Hex) s₁ es (DiscardsAuthority id)

/-- What a failed pairing does and does not do. The configuration, in memory and in the file, and
the tokens of all devices but the claimed one stay. Without a claim, so does the coordinator with
its presence clients. With one, the pairing has stopped the old lifecycle, which leaves the
coordinator quiet, and discarded its authority, and does nothing else to it: it does not start it
again. -/
structure PairLeaves : Prop where
  configuration : EveryStep (Installation.step u sha256Hex) s₁ es (fun t e t' =>
    OfCommand id e → t'.service.config = t.service.config ∧ t'.file = t.file)
  credentials : ∀ deviceId, (∀ result, Claims id es result → result.deviceId ≠ deviceId) →
    EveryStep (Installation.step u sha256Hex) s₁ es (fun t e t' =>
      OfCommand id e → t'.credentials deviceId = t.credentials deviceId)
  unclaimed : (∀ result, ¬ Claims id es result) →
    EveryStep (Installation.step u sha256Hex) s₁ es (fun t e t' =>
      OfCommand id e → t'.service.desk = t.service.desk)
  claimed : (∃ result, Claims id es result) →
    HasStopped u sha256Hex id s₁ es ∧ HasDiscarded u sha256Hex id s₁ es
  only : EveryStep (Installation.step u sha256Hex) s₁ es (fun t e t' =>
    OfCommand id e → t'.service.desk = t.service.desk ∨ StopsLifecycle id t e t' ∨
      DiscardsAuthority id t e t')
  quiet : EveryStep (Installation.step u sha256Hex) s₁ es (fun t e t' =>
    StopsLifecycle id t e t' → t'.service.desk.coordinator.Quiet)

end

theorem pairing_run {s₁ s : Installation} {es : List InstallationEvent} {id : Nat}
    (hstart : Pairing id (fun _ => False) False False s₁)
    (hrun : exec (Installation.step u sha256Hex) s₁ es = some s)
    (hprocess : ∀ e ∈ es, e ≠ .restarted) :
    Pairing id (Claims id es) (HasStopped u sha256Hex id s₁ es)
      (HasDiscarded u sha256Hex id s₁ es) s := by
  revert hprocess
  refine exec_induction (P := fun es s => (∀ e ∈ es, e ≠ .restarted) →
    Pairing id (Claims id es) (HasStopped u sha256Hex id s₁ es)
      (HasDiscarded u sha256Hex id s₁ es) s) ?_ ?_ hrun
  · intro _
    have hnone : Claims id [] = fun _ => False := by
      funext result
      simp [Claims]
    simpa [hnone, HasStopped, HasDiscarded, not_happened_nil] using hstart
  · intro es t e t' ht ih hstep hprocess
    have hp := ih (fun e he => hprocess e (List.mem_append_left _ he))
    have hnext := hp.step (hprocess e (by simp)) hstep
    have hclaims : Claims id (es ++ [e]) =
        fun result => Claims id es result ∨ e = .service (.claimed id (.ok result)) := by
      funext result
      simp [Claims, eq_comm]
    have hstopped : HasStopped u sha256Hex id s₁ (es ++ [e]) ↔
        HasStopped u sha256Hex id s₁ es ∨ StopsLifecycle id t e t' :=
      Happened.concat_iff ht hstep
    have hdiscarded : HasDiscarded u sha256Hex id s₁ (es ++ [e]) ↔
        HasDiscarded u sha256Hex id s₁ es ∨ DiscardsAuthority id t e t' :=
      Happened.concat_iff ht hstep
    rwa [hclaims, hstopped, hdiscarded]

theorem not_committed {s₁ s : Installation} {es : List InstallationEvent} {id : Nat}
    {claimed : PairingResult → Prop} {stopped discarded : Prop}
    (hp : Pairing id claimed stopped discarded s₁)
    (hrun : exec (Installation.step u sha256Hex) s₁ es = some s)
    (hprocess : ∀ e ∈ es, e ≠ .restarted) {error : IpcErrorCode}
    (hfailed : s.service.tasks id = some { command := .pair, stage := .returned (.error error) }) :
    ¬ s₁.PairCommitted id := by
  intro hc
  have hall := EveryStep.invariant (Q := fun _ e _ => e ≠ .restarted)
    (I := fun s => s.PairCommitted id ∧
      ∃ claimed stopped discarded, Pairing id claimed stopped discarded s)
    ⟨hc, claimed, stopped, discarded, hp⟩ ?_ ?_ hrun
  · obtain ⟨hc, claimed, stopped, discarded, hp⟩ := hall
    exact hc.not_failed hp.consistent hfailed
  · rintro t e t' ⟨hc, claimed, stopped, discarded, hp⟩ he hstep
    exact ⟨hc.step hp he hstep, _, _, _, hp.step he hstep⟩
  · intro n t e t' hat
    exact hprocess e (List.mem_of_getElem? hat.event)

theorem pairing_call {s s' : Installation} {id : Nat} (hs : s.Consistent)
    (hplaced : s.service.Placed) (hdesk : s.service.desk.Inv)
    (h : s.step u sha256Hex (.service (.called id .pair)) = some s') :
    Pairing id (fun _ => False) False False s' := by
  have hservice := (step_service h).2.1
  refine ⟨hs.step h, hplaced.step hservice, Service.desk_inv_step hdesk hservice,
    .pairCredentials, ?_, .credentials (fun _ => False.elim)⟩
  simp only [Service.step] at hservice
  split at hservice
  · rw [← Option.some.inj hservice]
    exact Service.goto_tasks_self _ _ _ _
  · contradiction

theorem settings_of_not_updating {s s' : Installation} {f : ServiceEvent} {id : Nat}
    (h : s.step u sha256Hex (.service f) = some s') (hid : f.task = some id)
    (hidle : ∀ config, s.updating ≠ some (.command id, config)) :
    s'.service.config = s.service.config ∧ s'.file = s.file := by
  refine ⟨?_, (step_service h).2.2.1⟩
  cases hswaps : s.swaps f with
  | false => exact config_of_not_swaps h hswaps
  | true =>
      obtain ⟨updater, hupdating, hends, hsettings⟩ := step_swaps h hswaps
      cases updater with
      | command j =>
          obtain rfl := hends j rfl
          obtain rfl := Option.some.inj hid
          exact absurd hupdating (hidle _)
      | settings =>
          rw [hsettings rfl] at hid
          contradiction

/-- For every pairing that returns an error, whatever else runs meanwhile and at whichever step it
fails. -/
theorem failed_pair_leaves {file : Option CoreConfig} {backing : String → Option Int}
    {credentials : String → Option String} {es₀ es : List InstallationEvent}
    {s₀ s₁ s : Installation} {id : Nat} {error : IpcErrorCode}
    (hbefore : exec (Installation.step u sha256Hex)
      (opened u sha256Hex file backing credentials) es₀ = some s₀)
    (hcall : s₀.step u sha256Hex (.service (.called id .pair)) = some s₁)
    (hrun : exec (Installation.step u sha256Hex) s₁ es = some s)
    (hprocess : ∀ e ∈ es, e ≠ .restarted)
    (hfailed : s.service.tasks id = some { command := .pair, stage := .returned (.error error) }) :
    PairLeaves u sha256Hex id s₁ es := by
  have hplaced : s₀.service.Placed := placed_run hbefore
  have hdesk : s₀.service.desk.Inv := desk_inv_run hbefore
  have hstart := pairing_call (consistent_run hbefore) hplaced hdesk hcall
  -- The pairing before each step, and the rest of the run after it.
  have hat {n : Nat} {t t' : Installation} {e : InstallationEvent}
      (hstep : StepAt (Installation.step u sha256Hex) s₁ es n t e t') :
      Pairing id (Claims id (es.take n)) (HasStopped u sha256Hex id s₁ (es.take n))
        (HasDiscarded u sha256Hex id s₁ (es.take n)) t :=
    pairing_run hstart hstep.before (fun e he => hprocess e (List.mem_of_mem_take he))
  have hopen {n : Nat} {t : Installation}
      (ht : exec (Installation.step u sha256Hex) s₁ (es.take n) = some t) :
      ¬ t.PairCommitted id := by
    obtain ⟨t', ht', hrest⟩ := exec_take hrun n
    obtain rfl : t = t' := Option.some.inj (ht.symm.trans ht')
    exact not_committed
      (pairing_run hstart ht (fun e he => hprocess e (List.mem_of_mem_take he))) hrest
      (fun e he => hprocess e (List.mem_of_mem_drop he)) hfailed
  have hclaims {n : Nat} {result : PairingResult} (h : Claims id (es.take n) result) :
      Claims id es result := List.mem_of_mem_take h
  have hrenames {n : Nat} {t t' : Installation}
      (hstep : StepAt (Installation.step u sha256Hex) s₁ es n t (.renamed id) t') : False := by
    refine hopen hstep.after (Or.inl ?_)
    obtain ⟨config, -, -, rfl⟩ := step_renamed hstep.step
    exact ⟨config, rfl⟩
  have hdeskStep {n : Nat} {t t' : Installation} {e : InstallationEvent}
      (hstep : StepAt (Installation.step u sha256Hex) s₁ es n t e t') (hof : OfCommand id e) :
      t'.service.desk = t.service.desk ∨ (∃ result, Claims id es result) ∧
        (StopsLifecycle id t e t' ∨ DiscardsAuthority id t e t') := by
    rcases hof with rfl | ⟨f, rfl, hid⟩
    · exact (hrenames hstep).elim
    · refine ((hat hstep).desk_step hid hstep.step).imp_right ?_
      rintro ⟨⟨result, hclaim⟩, hdone⟩
      exact ⟨⟨result, hclaims hclaim⟩, hdone⟩
  refine ⟨?_, ?_, ?_, ?_, ?_, ?_⟩
  · intro n t e t' hstep hof
    rcases hof with rfl | ⟨f, rfl, hid⟩
    · exact (hrenames hstep).elim
    · exact settings_of_not_updating hstep.step hid
        (fun config hupdating => hopen hstep.before (Or.inl ⟨config, hupdating⟩))
  · intro deviceId hother n t e t' hstep hof
    rcases hof with rfl | ⟨f, rfl, hid⟩
    · exact (hrenames hstep).elim
    · exact (hat hstep).credentials hid hstep.step (fun result h => hother result (hclaims h))
  · intro hnone n t e t' hstep hof
    rcases hdeskStep hstep hof with hsame | ⟨⟨result, hclaim⟩, -⟩
    · exact hsame
    · exact absurd hclaim (hnone result)
  · rintro ⟨result, hclaim⟩
    obtain ⟨stage, htask, hstands⟩ := (pairing_run hstart hrun hprocess).stands
    obtain ⟨-, rfl⟩ := Task.mk.inj (Option.some.inj (htask.symm.trans hfailed))
    cases hstands with
    | failed _ hended =>
        rcases hended with hnone | hdone
        · exact absurd hclaim (hnone result)
        · exact hdone
    | paired _ hpaired => contradiction
  · intro n t e t' hstep hof
    exact (hdeskStep hstep hof).imp_right And.right
  · intro n t e t' hstep hstops
    exact Service.quiet_of_shutdown (hat hstep).desk hstops.2

/-- An installation that finds an enabled connection, with its token in the protected storage. -/
def enabledInstallation : Installation :=
  opened UnicodeData.ascii (fun _ => "digest") (some Service.enabledConfig) (fun _ => none)
    (fun _ => some "token")

def pairCalled : InstallationEvent := .service (.called 1 .pair)

/-- A pairing with another server whose token cannot be written. -/
def tokenFails : List InstallationEvent :=
  served [.completed 1 true, .claimed 1 (.ok Service.otherPairing), .advance 1,
    .desk (.coordinator (.shutdownJoined 3 0)), .desk (.coordinator (.joinDone 4)),
    .desk (.coordinator (.shutdownFinish 3)), .advance 1, .advance 1, .completed 1 false]

theorem failed_pair_leaves_tokenFails :
    ∃ s₀ s₁ s, exec (Installation.step UnicodeData.ascii (fun _ => "digest")) enabledInstallation
        (served Service.startedByService) = some s₀ ∧
      s₀.step UnicodeData.ascii (fun _ => "digest") pairCalled = some s₁ ∧
      exec (Installation.step UnicodeData.ascii (fun _ => "digest")) s₁ tokenFails = some s ∧
      s.service.tasks 1 = some {
        command := .pair, stage := .returned (.error .internal) } ∧
      PairLeaves UnicodeData.ascii (fun _ => "digest") 1 s₁ tokenFails := by
  have hrun : ∃ s₀ s₁ s, exec (Installation.step UnicodeData.ascii (fun _ => "digest"))
        enabledInstallation (served Service.startedByService) = some s₀ ∧
      s₀.step UnicodeData.ascii (fun _ => "digest") pairCalled = some s₁ ∧
      exec (Installation.step UnicodeData.ascii (fun _ => "digest")) s₁ tokenFails = some s ∧
      s.service.tasks 1 = some { command := .pair, stage := .returned (.error .internal) } :=
    ⟨_, _, _, rfl, rfl, rfl, rfl⟩
  obtain ⟨s₀, s₁, s, hbefore, hcall, hafter, hfailed⟩ := hrun
  exact ⟨s₀, s₁, s, hbefore, hcall, hafter, hfailed,
    failed_pair_leaves hbefore hcall hafter (by simp [tokenFails, served]) hfailed⟩

/-- The live desk runs, the pairing fails at its token, and when it has returned the coordinator is
disabled with no shutdown in flight, while the stored connection is still the enabled one. -/
theorem failed_pair_stops :
    ∃ s₀ s₁ s, exec (Installation.step UnicodeData.ascii (fun _ => "digest")) enabledInstallation
        (served Service.startedByService) = some s₀ ∧
      s₀.service.desk.coordinator.inner.state = .active ∧
      s₀.step UnicodeData.ascii (fun _ => "digest") pairCalled = some s₁ ∧
      exec (Installation.step UnicodeData.ascii (fun _ => "digest")) s₁ tokenFails = some s ∧
      s.service.tasks 1 = some { command := .pair, stage := .returned (.error .internal) } ∧
      s.service.config = s₀.service.config ∧ s.service.FlagOn ∧
      s.service.desk.coordinator.inner.state = .disabled ∧
      s.service.desk.coordinator.inner.stopping = false ∧
      s.service.desk.coordinator.inner.client = none :=
  ⟨_, _, _, rfl, rfl, rfl, rfl, rfl, rfl, ⟨_, rfl, rfl⟩, rfl, rfl, rfl⟩

end Installation

end YohakuCore
