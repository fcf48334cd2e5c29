import YohakuCore.Companion.ConsentRun

/-!
# What a consent enables

A consent that returns `Ok` has validated one projection twice, under the policy fingerprint of the
click.
-/

namespace YohakuCore

open Framework

variable {u : UnicodeData} {sha256Hex : String → String}

namespace Service

/-- The segments that drop the recorded confirmation: an effective policy change, and the clear of
an unpair. -/
def Forgets (s : Service) (e : ServiceEvent) : Prop :=
  ∃ j command, e = .advance j ∧
    (s.tasks j = some { command := command, stage := .unpairGate } ∨
      ∃ fingerprint, s.tasks j = some { command := command, stage := .policyGate fingerprint } ∧
        fingerprint ≠ s.gate.fingerprint)

/-- The segment of a preview that records its projection. -/
def Records (s : Service) (e : ServiceEvent) (confirmation : Confirmation) : Prop :=
  ∃ j command snapshot, e = .advance j ∧
    s.tasks j = some { command := command, stage := .previewRecord snapshot } ∧
    confirmation = s.gate.recorded (projectionOf snapshot)

/-- What a step does to the gate. -/
inductive GateMove (s : Service) (e : ServiceEvent) (s' : Service) : Prop where
  | kept (gate : s'.gate = s.gate)
  | recorded (confirmation : Confirmation) (records : s.Records e confirmation)
      (gate : s'.gate = { s.gate with confirmation := some confirmation })
  | forgot (forgets : s.Forgets e) (confirmation : s'.gate.confirmation = none)

theorem step_gate {s s' : Service} {e : ServiceEvent} (h : s.step u sha256Hex e = some s') :
    GateMove s e s' := by
  obtain ⟨r, hleaves, -, hgate, -, -⟩ := step_leaves h
  cases hleaves with
  | recorded id command snapshot he htask =>
      exact .recorded _ ⟨id, command, snapshot, he, htask, rfl⟩ hgate
  | cleared id command he htask =>
      refine .forgot ⟨id, command, he, Or.inl htask⟩ ?_
      rw [hgate]
      rfl
  | adopted id command fingerprint he htask hother =>
      refine .forgot ⟨id, command, he, Or.inr ⟨fingerprint, htask, hother⟩⟩ ?_
      have hother : ¬ fingerprint = s.gate.currentFingerprint := hother
      rw [hgate]
      simp only [ConsentGate.policyDidChange, if_neg hother]
  | _ => exact .kept hgate

theorem Forgets.confirmation {s s' : Service} {e : ServiceEvent} (hforgets : s.Forgets e)
    (h : s.step u sha256Hex e = some s') : s'.gate.confirmation = none := by
  obtain ⟨j, command, rfl, htask | ⟨fingerprint, htask, hchanged⟩⟩ := hforgets
  · simp only [step, advance, htask] at h
    obtain rfl := Option.some.inj h
    rfl
  · have hchanged : ¬ fingerprint = s.gate.currentFingerprint := hchanged
    have hchanged' : ¬ fingerprint = s.gate.fingerprint := hchanged
    simp only [step, advance, htask, if_neg hchanged'] at h
    obtain rfl := Option.some.inj h
    rw [goto_gate]
    simp only [ConsentGate.policyDidChange, if_neg hchanged]

/-- At instant `n` the gate holds the confirmation under its own fingerprint: a preview has recorded
it before, and nothing has dropped it since. -/
structure GateHolds (u : UnicodeData) (sha256Hex : String → String) (origin : Service)
    (es : List ServiceEvent) (n : Nat) (confirmation : Confirmation) : Prop where
  held : ∃ s, exec (Service.step u sha256Hex) origin (es.take n) = some s ∧
    s.gate.confirmation = some confirmation ∧
    s.gate.fingerprint = confirmation.policyFingerprint
  recorded : ∃ r, r < n ∧
    (∃ s₁ e s₂, StepAt (Service.step u sha256Hex) origin es r s₁ e s₂ ∧
      s₁.Records e confirmation) ∧
    ∀ m s₁ e s₂, r < m → m < n → StepAt (Service.step u sha256Hex) origin es m s₁ e s₂ →
      ¬ s₁.Forgets e

theorem gateHolds_of_confirmation {config : CoreConfig} {backing : String → Option Int}
    {es : List ServiceEvent} {n : Nat} {s : Service} {confirmation : Confirmation}
    (hrun : exec (Service.step u sha256Hex) (new u sha256Hex config backing) (es.take n) = some s)
    (hheld : s.gate.confirmation = some confirmation)
    (hfingerprint : s.gate.fingerprint = confirmation.policyFingerprint) :
    GateHolds u sha256Hex (new u sha256Hex config backing) es n confirmation := by
  refine ⟨⟨s, hrun, hheld, hfingerprint⟩, ?_⟩
  obtain ⟨r, s₁, e, s₂, hat, hbefore, hafter, hsince⟩ := exec_entry
    (P := fun t => t.gate.confirmation = some confirmation) hrun (fun hnew => nomatch hnew) hheld
  obtain ⟨hlt, hat⟩ := hat.of_take
  have hrecords : s₁.Records e confirmation := by
    cases step_gate hat.step with
    | kept hgate => exact absurd (hgate ▸ hafter) hbefore
    | recorded confirmation' hrecords hgate =>
        rw [hgate] at hafter
        obtain rfl := Option.some.inj hafter
        exact hrecords
    | forgot _ hnone =>
        rw [hnone] at hafter
        contradiction
  refine ⟨r, hlt, ⟨s₁, e, s₂, hat, hrecords⟩, ?_⟩
  intro m t₁ f t₂ hrm hmn hm hforgets
  have hnone := hforgets.confirmation hm.step
  have hkept := hsince (m + 1) t₂ (by omega) (by
    rw [List.take_take, Nat.min_eq_left hmn]
    exact hm.after)
  rw [hnone] at hkept
  contradiction

def foregroundApp (name : String) : CaptureInput where
  now := 0
  provider := none
  foreground := some { appId := name, displayName := name, windowTitle := none }
  freshId := "session"

def pairedConfig : CoreConfig where
  privacy := defaultPrivacyConfig
  connection := some { Coordinator.enabledConnection with liveDeskEnabled := false }

/-- A whole preview, with the application in front. -/
def previewedBy (id : Nat) (app : String) : List ServiceEvent :=
  [.called id .refreshPreview, .advance id, .readPrivacy id,
    .captured id (foregroundApp app) ⟨none⟩, .advance id, .advance id]

/-- A consent up to the choice of its candidate. -/
def clickedBy (id : Nat) (ui : String) : List ServiceEvent :=
  [.called id (.confirmConsent ui), .advance id, .advance id, .advance id]

/-- A capture of a consent, and the segment after it. -/
def capturedBy (id : Nat) (app : String) : List ServiceEvent :=
  [.advance id, .readPrivacy id, .captured id (foregroundApp app) ⟨none⟩, .advance id]

/-- A consent from its write on. -/
def enabledBy (id : Nat) (app : String) : List ServiceEvent :=
  .completed id true :: capturedBy id app ++ [.advance id, .advance id]

/-- A whole unpair, with the coordinator's shutdown `0`. -/
def unpairedBy (id : Nat) : List ServiceEvent :=
  [.called id .unpair, .advance id, .completed id true, .advance id,
    .desk (.coordinator (.shutdownJoined 0 0)), .desk (.coordinator (.shutdownFinish 0)),
    .advance id, .advance id, .completed id true, .completed id true, .completed id true,
    .advance id, .advance id]

/-- The service of the runs below: one policy, so one digest. -/
def paired : Service :=
  new UnicodeData.ascii (fun _ => "digest") pairedConfig (fun _ => none)

section

variable (u sha256Hex) (origin : Service) (es : List ServiceEvent) (id : Nat) (ui : String)

/-- At instant `n` the click reads the preview from the slot. -/
def ReadsSlotAt (n : Nat) (slot : Preview) : Prop :=
  ∃ s₁ s₂, s₁.preview = some slot ∧
    GoesAt u sha256Hex origin es id (.confirmConsent ui) n s₁ .confirmSlot
      (.confirmGate (some slot)) s₂

/-- At instant `n` the consent's candidate passes the first or the second validation against the
snapshot of a fresh capture. -/
def ValidatesAt (n : Nat) (candidate : Confirmation) (snapshot : SanitizedPresenceSnapshot) :
    Prop :=
  ∃ s₁ s₂,
    GoesAt u sha256Hex origin es id (.confirmConsent ui) n s₁
      (.beforeValidate candidate snapshot) (.enable candidate) s₂ ∨
    GoesAt u sha256Hex origin es id (.confirmConsent ui) n s₁
      (.afterValidate candidate snapshot ui) .confirmStart s₂

/-- At instant `n` the consent's write succeeds. -/
def EnablesAt (n : Nat) : Prop :=
  ∃ s₁ s₂ candidate,
    GoesAt u sha256Hex origin es id (.confirmConsent ui) n s₁ (.enable candidate)
      (.afterOptions candidate) s₂

end

section

variable {config : CoreConfig} {backing : String → Option Int} {es : List ServiceEvent} {id : Nat}
  {ui : String}

theorem GoesAt.functional {origin s₁ s₂ t₁ t₂ : Service} {command : Command} {n : Nat}
    {stage₁ stage₁' stage₂ stage₂' : Stage}
    (h : GoesAt u sha256Hex origin es id command n s₁ stage₁ stage₁' s₂)
    (h' : GoesAt u sha256Hex origin es id command n t₁ stage₂ stage₂' t₂) :
    s₁ = t₁ ∧ s₂ = t₂ ∧ stage₁ = stage₂ := by
  obtain ⟨e, hat⟩ := h.step
  obtain ⟨f, hat'⟩ := h'.step
  obtain rfl : s₁ = t₁ := Option.some.inj (hat.before.symm.trans hat'.before)
  have hs₂ : s₂ = t₂ := Option.some.inj (hat.after.symm.trans hat'.after)
  have htask := h.before.symm.trans h'.before
  obtain ⟨-, hstage⟩ := Task.mk.inj (Option.some.inj htask)
  exact ⟨rfl, hs₂, hstage⟩

/-- All validations of a consent are of the candidate it chose, and against what it captured. -/
theorem ConfirmPath.validates {i : ConfirmInstants} {slot : Preview}
    {before after : SanitizedPresenceSnapshot}
    (h : ConfirmPath u sha256Hex (new u sha256Hex config backing) es id ui i slot before after)
    {n : Nat} {candidate : Confirmation} {snapshot : SanitizedPresenceSnapshot}
    (hvalidates : ValidatesAt u sha256Hex (new u sha256Hex config backing) es id ui n candidate
      snapshot) :
    candidate.projection = slot.projection ∧ projectionOf snapshot = slot.projection := by
  obtain ⟨s₁, s₂, hfirst | hsecond⟩ := hvalidates
  · obtain ⟨t₁, t₂, hvalid, hgoes⟩ := h.validated
    obtain rfl := hfirst.unique hgoes rfl (Nat.lt_succ_self _) (Nat.lt_succ_self _)
    obtain ⟨-, -, hstage⟩ := hfirst.functional hgoes
    obtain ⟨rfl, rfl⟩ := Stage.beforeValidate.inj hstage
    exact ⟨rfl, (ConsentGate.validates_iff.mp hvalid).2.2.symm⟩
  · obtain ⟨t₁, t₂, hvalid, hgoes⟩ := h.revalidated
    obtain rfl := hsecond.unique hgoes rfl (Nat.lt_succ_self _) (Nat.lt_succ_self _)
    obtain ⟨-, -, hstage⟩ := hsecond.functional hgoes
    obtain ⟨rfl, rfl, -⟩ := Stage.afterValidate.inj hstage
    exact ⟨rfl, (ConsentGate.validates_iff.mp hvalid).2.2.symm⟩

/-- A consent that returned `Ok` has read the preview slot once, and it has validated the projection
of a preview `p` if and only if the slot held a preview with this projection. -/
theorem consent_binds_seen_iff {s : Service}
    (hrun : exec (Service.step u sha256Hex) (new u sha256Hex config backing) es = some s)
    (hok : s.tasks id = some { command := .confirmConsent ui, stage := .returned (.ok none) })
    (p : Preview) :
    ∃ n slot, ReadsSlotAt u sha256Hex (new u sha256Hex config backing) es id ui n slot ∧
      (∀ n' slot', ReadsSlotAt u sha256Hex (new u sha256Hex config backing) es id ui n' slot' →
        n' = n ∧ slot' = slot) ∧
      ((∀ v candidate snapshot,
        ValidatesAt u sha256Hex (new u sha256Hex config backing) es id ui v candidate snapshot →
          candidate.projection = p.projection ∧ projectionOf snapshot = p.projection) ↔
        slot.projection = p.projection) := by
  obtain ⟨i, slot, before, after, hpath⟩ := confirm_path hrun hok
  refine ⟨i.slot, slot, hpath.slot, ?_, ?_, ?_⟩
  · rintro n' slot' ⟨s₁, s₂, hread, hgoes⟩
    obtain ⟨t₁, t₂, hread', hgoes'⟩ := hpath.slot
    obtain rfl := hgoes.unique hgoes' rfl (Nat.lt_succ_self _) (Nat.lt_succ_self _)
    obtain ⟨rfl, -, -⟩ := hgoes.functional hgoes'
    exact ⟨rfl, Option.some.inj (hread.symm.trans hread')⟩
  · intro hall
    obtain ⟨s₁, s₂, -, hgoes⟩ := hpath.validated
    exact (hall i.validated _ before ⟨s₁, s₂, Or.inl hgoes⟩).1
  · intro hsame v candidate snapshot hvalidates
    obtain ⟨hcandidate, hsnapshot⟩ := hpath.validates hvalidates
    exact ⟨hcandidate.trans hsame, hsnapshot.trans hsame⟩

/-- One preview, and a click on it. -/
theorem consent_binds_seen_onePreview :
    ∃ s p n slot,
      exec (Service.step UnicodeData.ascii (fun _ => "digest")) paired
        (previewedBy 0 "editor" ++ clickedBy 1 "digest" ++ capturedBy 1 "editor" ++
          enabledBy 1 "editor") = some s ∧
      s.tasks 0 = some { command := .refreshPreview, stage := .returned (.ok (some p)) } ∧
      ReadsSlotAt UnicodeData.ascii (fun _ => "digest") paired
        (previewedBy 0 "editor" ++ clickedBy 1 "digest" ++ capturedBy 1 "editor" ++
          enabledBy 1 "editor") 1 "digest" n slot ∧
      ((∀ v candidate snapshot,
        ValidatesAt UnicodeData.ascii (fun _ => "digest") paired
          (previewedBy 0 "editor" ++ clickedBy 1 "digest" ++ capturedBy 1 "editor" ++
            enabledBy 1 "editor") 1 "digest" v candidate snapshot →
          candidate.projection = p.projection ∧ projectionOf snapshot = p.projection) ↔
        slot.projection = p.projection) := by
  have hrun : ∃ s p,
      exec (Service.step UnicodeData.ascii (fun _ => "digest")) paired
        (previewedBy 0 "editor" ++ clickedBy 1 "digest" ++ capturedBy 1 "editor" ++
          enabledBy 1 "editor") = some s ∧
      s.tasks 0 = some { command := .refreshPreview, stage := .returned (.ok (some p)) } ∧
      s.tasks 1 = some { command := .confirmConsent "digest", stage := .returned (.ok none) } :=
    ⟨_, _, rfl, rfl, rfl⟩
  obtain ⟨s, p, hs, hpreview, hok⟩ := hrun
  obtain ⟨n, slot, hread, -, hiff⟩ := consent_binds_seen_iff hs hok p
  exact ⟨s, p, n, slot, hs, hpreview, hread, hiff⟩

/-- Another preview under the same policy replaces the slot before the click. -/
def replacedPreview : List ServiceEvent :=
  previewedBy 0 "editor" ++ previewedBy 1 "browser" ++ clickedBy 2 "digest" ++
    capturedBy 2 "browser" ++ enabledBy 2 "browser"

def snapshotOf (app : String) : SanitizedPresenceSnapshot where
  observedAt := 0
  application := some { displayName := app, windowTitle := none }
  media := none

def previewOf (app : String) : Preview :=
  { projection := projectionOf (snapshotOf app), policyFingerprint := "digest", observedAt := 0 }

def confirmationOf (app : String) : Confirmation :=
  { policyFingerprint := "digest", projection := projectionOf (snapshotOf app) }

/-- The click on the first preview enables what the second one recorded. -/
theorem consent_enables_unseen_replacedPreview :
    ∃ s₁ s₂ p,
      exec (Service.step UnicodeData.ascii (fun _ => "digest")) paired
        (replacedPreview.take 6) = some s₁ ∧
      s₁.tasks 0 = some { command := .refreshPreview, stage := .returned (.ok (some p)) } ∧
      exec (Service.step UnicodeData.ascii (fun _ => "digest")) paired replacedPreview =
        some s₂ ∧
      s₂.tasks 2 = some {
        command := .confirmConsent p.policyFingerprint, stage := .returned (.ok none) } ∧
      s₂.config.connection = some Coordinator.enabledConnection ∧
      ∃ v candidate snapshot,
        ValidatesAt UnicodeData.ascii (fun _ => "digest") paired replacedPreview 2
          p.policyFingerprint v candidate snapshot ∧
        candidate.projection ≠ p.projection := by
  obtain ⟨s₁, hs₁, hpreview⟩ : ∃ s,
      exec (Service.step UnicodeData.ascii (fun _ => "digest")) paired
        (replacedPreview.take 6) = some s ∧
      s.tasks 0 = some {
        command := .refreshPreview, stage := .returned (.ok (some (previewOf "editor"))) } :=
    Option.map_eq_some_iff.mp (by decide +kernel)
  obtain ⟨s₂, hs₂, hok⟩ : ∃ s,
      exec (Service.step UnicodeData.ascii (fun _ => "digest")) paired replacedPreview = some s ∧
      (s.tasks 2, s.config.connection) =
        (some { command := .confirmConsent "digest", stage := .returned (.ok none) },
          some Coordinator.enabledConnection) :=
    Option.map_eq_some_iff.mp (by decide +kernel)
  obtain ⟨t₁, ht₁, hbefore⟩ : ∃ s,
      exec (Service.step UnicodeData.ascii (fun _ => "digest")) paired
        (replacedPreview.take 19) = some s ∧
      s.tasks 2 = some {
        command := .confirmConsent "digest",
        stage := 
          .beforeValidate (confirmationOf "browser") (snapshotOf "browser") } :=
    Option.map_eq_some_iff.mp (by decide +kernel)
  obtain ⟨t₂, ht₂, hafter⟩ : ∃ s,
      exec (Service.step UnicodeData.ascii (fun _ => "digest")) paired
        (replacedPreview.take 19 ++ [.advance 2]) = some s ∧
      s.tasks 2 = some {
        command := .confirmConsent "digest", stage := .enable (confirmationOf "browser") } :=
    Option.map_eq_some_iff.mp (by decide +kernel)
  obtain ⟨t, ht, hstep⟩ := exec_concat_eq_some.mp ht₂
  obtain rfl : t = t₁ := Option.some.inj (ht.symm.trans ht₁)
  obtain ⟨hreturned, hconnection⟩ := Prod.mk.inj hok
  exact ⟨s₁, s₂, previewOf "editor", hs₁, hpreview, hs₂, hreturned, hconnection, 19,
    confirmationOf "browser",
    snapshotOf "browser", ⟨t, t₂, Or.inl ⟨⟨.advance 2, ht₁, rfl, hstep⟩, hbefore, hafter⟩⟩,
    by decide⟩

/-- What a consent that returned `Ok` promises about its write at instant `w`: something was
written, the click's policy was in force afterwards, and the projections of a capture before the
write and of one after it were both validated, equal, against a gate that held them. -/
structure ReallyValidated (u : UnicodeData) (sha256Hex : String → String) (origin : Service)
    (es : List ServiceEvent) (id : Nat) (ui : String) (w : Nat) : Prop where
  written : ∃ s connection,
    exec (Service.step u sha256Hex) origin (es.take (w + 1)) = some s ∧
    s.config.connection = some connection ∧ connection.liveDeskEnabled = true
  policy : ∃ n s, w < n ∧ exec (Service.step u sha256Hex) origin (es.take n) = some s ∧
    policyFingerprint u sha256Hex s.config.privacy = ui
  captured : ∃ start₁ done₁ before v₁ start₂ done₂ after v₂ candidate,
    Captures u sha256Hex origin es id (.confirmConsent ui) start₁ done₁ before ∧ start₁ < w ∧
    Captures u sha256Hex origin es id (.confirmConsent ui) start₂ done₂ after ∧ w < start₂ ∧
    projectionOf after = projectionOf before ∧
    ValidatesAt u sha256Hex origin es id ui v₁ candidate before ∧ v₁ < w ∧
    ValidatesAt u sha256Hex origin es id ui v₂ candidate after ∧ w < v₂ ∧
    candidate = { policyFingerprint := ui, projection := projectionOf before } ∧
    GateHolds u sha256Hex origin es v₁ candidate ∧ GateHolds u sha256Hex origin es v₂ candidate

/-- A consent that returned `Ok` has written once, and it was really validated if and only if the
write found a connection. -/
theorem consent_validated_iff {s : Service}
    (hrun : exec (Service.step u sha256Hex) (new u sha256Hex config backing) es = some s)
    (hok : s.tasks id = some { command := .confirmConsent ui, stage := .returned (.ok none) }) :
    ∃ w s₁, EnablesAt u sha256Hex (new u sha256Hex config backing) es id ui w ∧
      (∀ w', EnablesAt u sha256Hex (new u sha256Hex config backing) es id ui w' → w' = w) ∧
      exec (Service.step u sha256Hex) (new u sha256Hex config backing) (es.take w) = some s₁ ∧
      (ReallyValidated u sha256Hex (new u sha256Hex config backing) es id ui w ↔
        s₁.config.connection ≠ none) := by
  obtain ⟨i, slot, before, after, hpath⟩ := confirm_path hrun hok
  obtain ⟨s₁, s₂, hconfig, hgoes⟩ := hpath.written
  obtain ⟨e, hat⟩ := hgoes.step
  refine ⟨i.written, s₁, ⟨s₁, s₂, _, hgoes⟩, ?_, hat.before, ?_, ?_⟩
  · rintro w' ⟨t₁, t₂, candidate, hgoes'⟩
    exact hgoes'.unique hgoes rfl (Nat.lt_succ_self _) (Nat.lt_succ_self _)
  · rintro ⟨⟨t, connection, ht, hconnection, -⟩, -, -⟩ hnone
    obtain rfl : s₂ = t := Option.some.inj (hat.after.symm.trans ht)
    rw [hconfig, CoreConfig.setLiveDesk, hnone] at hconnection
    contradiction
  · intro hconnected
    obtain ⟨connection, hconnection⟩ := Option.ne_none_iff_exists'.mp hconnected
    obtain ⟨-, -, -, -, hvalidatedLt, hafterStartLt, hafterLt, hfingerprintLt, hrevalidatedLt⟩ :=
      hpath.order
    obtain ⟨-, -, hstartLt, hbeforeLt, -⟩ := hpath.order
    obtain ⟨b₁, b₂, hvalid, hbefore⟩ := hpath.validated
    obtain ⟨a₁, a₂, hvalid', hafter⟩ := hpath.revalidated
    obtain ⟨f, hf, hpolicy⟩ := hpath.fingerprint
    obtain ⟨hheld, hgate, hprojection⟩ := ConsentGate.validates_iff.mp hvalid
    obtain ⟨hheld', hgate', hprojection'⟩ := ConsentGate.validates_iff.mp hvalid'
    obtain ⟨_, hatBefore⟩ := hbefore.step
    obtain ⟨_, hatAfter⟩ := hafter.step
    refine ⟨⟨s₂, { connection with liveDeskEnabled := true }, hat.after, ?_, rfl⟩,
      ⟨i.fingerprint, f, by omega, hf, hpolicy⟩,
      ⟨i.beforeStart, i.before, before, i.validated, i.afterStart, i.after, after, i.revalidated,
        ⟨ui, slot.projection⟩, hpath.beforeCapture, by omega, hpath.afterCapture, hafterStartLt,
        hprojection'.symm.trans hprojection, ⟨b₁, b₂, Or.inl hbefore⟩, hvalidatedLt,
        ⟨a₁, a₂, Or.inr hafter⟩, by omega, ?_,
        gateHolds_of_confirmation hatBefore.before hheld hgate.symm,
        gateHolds_of_confirmation hatAfter.before hheld' hgate'.symm⟩⟩
    · rw [hconfig, CoreConfig.setLiveDesk, hconnection]
      rfl
    · rw [← hprojection]

/-- One preview, and a click on it that finds the connection. -/
theorem consent_validated_onePreview :
    ∃ s w s₁,
      exec (Service.step UnicodeData.ascii (fun _ => "digest")) paired
        (previewedBy 0 "editor" ++ clickedBy 1 "digest" ++ capturedBy 1 "editor" ++
          enabledBy 1 "editor") = some s ∧
      exec (Service.step UnicodeData.ascii (fun _ => "digest")) paired
        ((previewedBy 0 "editor" ++ clickedBy 1 "digest" ++ capturedBy 1 "editor" ++
          enabledBy 1 "editor").take w) = some s₁ ∧
      (ReallyValidated UnicodeData.ascii (fun _ => "digest") paired
        (previewedBy 0 "editor" ++ clickedBy 1 "digest" ++ capturedBy 1 "editor" ++
          enabledBy 1 "editor") 1 "digest" w ↔ s₁.config.connection ≠ none) := by
  have hrun : ∃ s,
      exec (Service.step UnicodeData.ascii (fun _ => "digest")) paired
        (previewedBy 0 "editor" ++ clickedBy 1 "digest" ++ capturedBy 1 "editor" ++
          enabledBy 1 "editor") = some s ∧
      s.tasks 1 = some { command := .confirmConsent "digest", stage := .returned (.ok none) } :=
    ⟨_, rfl, rfl⟩
  obtain ⟨s, hs, hok⟩ := hrun
  obtain ⟨w, s₁, -, -, hs₁, hiff⟩ := consent_validated_iff hs hok
  exact ⟨s, w, s₁, hs, hs₁, hiff⟩

/-- An unpair between the first validation and the write, and a preview like the first one after
it. -/
def unpairedDuringConsent : List ServiceEvent :=
  previewedBy 0 "editor" ++ clickedBy 1 "digest" ++ capturedBy 1 "editor" ++ unpairedBy 2 ++
    previewedBy 3 "editor" ++ enabledBy 1 "editor"

/-- The consent returns `Ok`, and publishing was enabled at no instant. -/
theorem consent_ok_nothingWritten_unpaired :
    ∃ s,
      exec (Service.step UnicodeData.ascii (fun _ => "digest")) paired unpairedDuringConsent =
        some s ∧
      s.tasks 1 = some { command := .confirmConsent "digest", stage := .returned (.ok none) } ∧
      (∀ n s₁ connection,
        exec (Service.step UnicodeData.ascii (fun _ => "digest")) paired
          (unpairedDuringConsent.take n) = some s₁ →
        s₁.config.connection = some connection → connection.liveDeskEnabled = false) ∧
      ∀ w, ¬ ReallyValidated UnicodeData.ascii (fun _ => "digest") paired unpairedDuringConsent 1
        "digest" w := by
  have hshort : ∀ n < 41,
      (exec (Service.step UnicodeData.ascii (fun _ => "digest")) paired
        (unpairedDuringConsent.take n)).all
          (fun s => s.config.connection.all (fun connection => !connection.liveDeskEnabled)) =
        true := by decide
  have hnever : ∀ n s₁ connection,
      exec (Service.step UnicodeData.ascii (fun _ => "digest")) paired
        (unpairedDuringConsent.take n) = some s₁ →
      s₁.config.connection = some connection → connection.liveDeskEnabled = false := by
    intro n s₁ connection hs₁ hconnection
    have htake : unpairedDuringConsent.take n = unpairedDuringConsent.take (min n 40) := by
      rcases Nat.le_total n 40 with hle | hle
      · rw [Nat.min_eq_left hle]
      · rw [Nat.min_eq_right hle, List.take_of_length_le hle]
        rfl
    have hall := hshort (min n 40) (by omega)
    rw [← htake, hs₁, Option.all_some, hconnection, Option.all_some] at hall
    exact Bool.not_eq_true' _ |>.mp hall
  refine ⟨_, rfl, rfl, hnever, ?_⟩
  rintro w ⟨⟨s₁, connection, hs₁, hconnection, henabled⟩, -, -⟩
  rw [hnever (w + 1) s₁ connection hs₁ hconnection] at henabled
  contradiction

end

end Service

end YohakuCore
