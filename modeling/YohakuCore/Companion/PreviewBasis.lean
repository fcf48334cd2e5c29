import YohakuCore.Companion.PolicyLag

/-!
# The policy of a preview

A preview reads the configuration twice and is recorded under the fingerprint that the gate has by
then. Nothing compares these readings.
-/

namespace YohakuCore

open Framework

variable {u : UnicodeData} {sha256Hex : String → String}

/-- The stages that hold something of a preview. -/
def Stage.holdsPreview : Stage → Bool
  | previewCapture _ | previewRecord _ | previewStore _ => true
  | returned (.ok (some _)) => true
  | _ => false

/-- The stages between the options of a preview and its record. -/
def Stage.beforeRecord : Stage → Bool
  | previewOptions | previewCapture _ | previewRecord _ => true
  | _ => false

namespace Service

/-- A capture whose reads all found one configuration delivers what a capture under this
configuration delivers. -/
theorem delivers_of_reads {capture : CaptureProgress} {input : CaptureInput}
    {tracker : MediaSessionTracker} {snapshot : SanitizedPresenceSnapshot}
    {privacy : PrivacyConfig} (hreads : ∀ config ∈ capture.reads, config = privacy)
    (h : CaptureProgress.delivers u capture input tracker = some snapshot) :
    snapshot =
      (captureForDelivery u capture.options input tracker (fun _ => privacy)).snapshot := by
  simp only [CaptureProgress.delivers] at h
  split at h
  · rename_i hcount
    rw [← Option.some.inj h]
    refine congrArg Capture.snapshot (captureForDelivery_congr ?_).symm
    intro k hk
    rw [hcount] at hk
    have hget : capture.reads.getD k defaultPrivacyConfig = capture.reads[k] := by simp [hk]
    rw [hget]
    exact (hreads _ (List.getElem_mem hk)).symm
  · contradiction

/-- The segments of a preview from its options on, with what each finds. -/
inductive PreviewSegment (u : UnicodeData) (s : Service) (e : ServiceEvent) (id : Nat) :
    Stage → Stage → Prop
  | options (event : e = .advance id) :
      PreviewSegment u s e id .previewOptions (.previewCapture s.captureStart)
  | read (capture : CaptureProgress) (event : e = .readPrivacy id) :
      PreviewSegment u s e id (.previewCapture capture)
        (.previewCapture { capture with reads := capture.reads ++ [s.config.privacy] })
  | delivered (capture : CaptureProgress) (input : CaptureInput) (tracker : MediaSessionTracker)
      (snapshot : SanitizedPresenceSnapshot) (event : e = .captured id input tracker)
      (delivers : CaptureProgress.delivers u capture input tracker = some snapshot) :
      PreviewSegment u s e id (.previewCapture capture) (.previewRecord snapshot)
  | recorded (snapshot : SanitizedPresenceSnapshot) (event : e = .advance id) :
      PreviewSegment u s e id (.previewRecord snapshot)
        (.previewStore {
          projection := projectionOf snapshot
          policyFingerprint := s.gate.fingerprint
          observedAt := snapshot.observedAt })
  | stored (preview : Preview) (event : e = .advance id) :
      PreviewSegment u s e id (.previewStore preview) (.returned (.ok (some preview)))

/-- A command goes to a stage that holds something of a preview by a segment of the preview. -/
def Previews (u : UnicodeData) (s s' : Service) (e : ServiceEvent) (id : Nat) (command : Command)
    (stage : Stage) : Prop :=
  ∀ stage', s'.tasks id = some { command := command, stage := stage' } →
    stage'.holdsPreview = true → PreviewSegment u s e id stage stage'

theorem previews_goto {s r : Service} {e : ServiceEvent} {id : Nat} {command : Command}
    {stage stage' : Stage}
    (h : stage'.holdsPreview = true → PreviewSegment u s e id stage stage') :
    Previews u s (r.goto id command stage') e id command stage := by
  intro stage'' htask hholds
  rw [goto_tasks_self] at htask
  obtain ⟨-, rfl⟩ := Task.mk.inj (Option.some.inj htask)
  exact h hholds

theorem previews_withDesk {s s' : Service} {e : ServiceEvent} {id : Nat} {command : Command}
    {stage stage' : Stage} {f : LiveDeskEvent}
    (h : s.withDesk f (fun desk => { s with desk := desk }.goto id command stage') = some s')
    (hnot : stage'.holdsPreview = false) : Previews u s s' e id command stage := by
  obtain ⟨desk, -, rfl⟩ := withDesk_eq_some.mp h
  apply previews_goto
  simp [hnot]

theorem advance_previews {s s' : Service} {id : Nat} {command : Command} {stage : Stage}
    (h : s.advance u sha256Hex id = some s')
    (htask : s.tasks id = some { command := command, stage := stage }) :
    Previews u s s' (.advance id) id command stage := by
  rw [advance, htask] at h
  cases stage with
  | previewOptions =>
      obtain rfl := Option.some.inj h
      exact previews_goto (fun _ => .options rfl)
  | previewRecord snapshot =>
      obtain rfl := Option.some.inj h
      exact previews_goto (fun _ => .recorded snapshot rfl)
  | previewStore preview =>
      obtain rfl := Option.some.inj h
      refine previews_goto (fun hholds => ?_)
      cases command with
      | refreshPreview => exact .stored preview rfl
      | _ => contradiction
  | shutdown next =>
      refine previews_withDesk h ?_
      split
      · cases next <;> rfl
      · rfl
  | shutdownWait task next =>
      dsimp only at h
      split at h
      · obtain rfl := Option.some.inj h
        apply previews_goto
        cases next <;> simp [AfterShutdown.stage, Stage.holdsPreview]
      · contradiction
  | _ =>
      -- No other segment goes on to a stage of a preview but its options.
      dsimp only at h
      first
        | contradiction
        | exact previews_withDesk h rfl
        | (obtain rfl := Option.some.inj h; exact previews_goto (fun hholds => by cases hholds))
        | (split at h
           all_goals first
             | (obtain rfl := Option.some.inj h
                exact previews_goto (fun hholds => by cases hholds))
             | (split at h
                all_goals
                  obtain rfl := Option.some.inj h
                  exact previews_goto (fun hholds => by cases hholds)))

theorem readPrivacy_previews {s s' : Service} {id : Nat} {command : Command} {stage : Stage}
    (h : s.readPrivacy id = some s')
    (htask : s.tasks id = some { command := command, stage := stage }) :
    Previews u s s' (.readPrivacy id) id command stage := by
  rw [readPrivacy, htask] at h
  cases stage with
  | previewCapture capture =>
      obtain rfl := Option.some.inj h
      exact previews_goto (fun _ => .read capture rfl)
  | beforeCapture candidate capture =>
      obtain rfl := Option.some.inj h
      exact previews_goto (fun hholds => by cases hholds)
  | afterCapture candidate capture =>
      obtain rfl := Option.some.inj h
      exact previews_goto (fun hholds => by cases hholds)
  | _ => contradiction

theorem captured_previews {s s' : Service} {id : Nat} {command : Command} {stage : Stage}
    {input : CaptureInput} {tracker : MediaSessionTracker}
    (h : s.captured u id input tracker = some s')
    (htask : s.tasks id = some { command := command, stage := stage }) :
    Previews u s s' (.captured id input tracker) id command stage := by
  rw [captured, htask] at h
  cases stage with
  | previewCapture capture =>
      obtain ⟨snapshot, hdelivers, rfl⟩ := Option.map_eq_some_iff.mp h
      exact previews_goto (fun _ => .delivered capture input tracker snapshot rfl hdelivers)
  | beforeCapture candidate capture =>
      obtain ⟨snapshot, -, rfl⟩ := Option.map_eq_some_iff.mp h
      exact previews_goto (fun hholds => by cases hholds)
  | afterCapture candidate capture =>
      obtain ⟨snapshot, -, rfl⟩ := Option.map_eq_some_iff.mp h
      exact previews_goto (fun hholds => by cases hholds)
  | _ => contradiction

theorem write_holdsPreview {config config' : CoreConfig} {stage next : Stage}
    (h : Stage.write config stage = some (config', next)) : next.holdsPreview = false := by
  cases stage with
  | enable _ | rollback | disable | unpairDisable _ | unpairForget | pairToken _ | pairStore _ =>
      obtain ⟨-, rfl⟩ := Prod.mk.inj (Option.some.inj h)
      rfl
  | _ => contradiction

theorem completed_previews {s s' : Service} {id : Nat} {succeeds : Bool} {command : Command}
    {stage : Stage} (h : s.completed id succeeds = some s')
    (htask : s.tasks id = some { command := command, stage := stage }) :
    Previews u s s' (.completed id succeeds) id command stage := by
  rw [completed, htask] at h
  dsimp only at h
  split at h
  · split at h
    all_goals
      obtain rfl := Option.some.inj h
      exact previews_goto (fun hholds => by cases hholds)
  · obtain rfl := Option.some.inj h
    exact previews_goto (fun hholds => by cases hholds)
  · split at h
    · exact previews_withDesk h rfl
    · obtain rfl := Option.some.inj h
      exact previews_goto (fun hholds => by cases hholds)
  · split at h
    · rename_i config next hwrite
      split at h
      · obtain rfl := Option.some.inj h
        apply previews_goto
        simp [write_holdsPreview hwrite]
      · obtain rfl := Option.some.inj h
        exact previews_goto (fun hholds => by cases hholds)
    · contradiction

theorem claimed_previews {s s' : Service} {id : Nat} {command : Command} {stage : Stage}
    {result : Except IpcErrorCode PairingResult} (h : s.claimed id result = some s')
    (htask : s.tasks id = some { command := command, stage := stage }) :
    Previews u s s' (.claimed id result) id command stage := by
  rw [claimed, htask] at h
  cases stage with
  | pairClaim =>
      dsimp only at h
      split at h
      all_goals
        obtain rfl := Option.some.inj h
        exact previews_goto (fun hholds => by cases hholds)
  | _ => contradiction

/-- A command that holds something of a preview held it before the step, or went there by a segment
of the preview. -/
theorem step_previews {s s' : Service} {e : ServiceEvent} {id : Nat} {command : Command}
    {stage' : Stage} (h : s.step u sha256Hex e = some s')
    (htask' : s'.tasks id = some { command := command, stage := stage' })
    (hholds : stage'.holdsPreview = true) :
    s.tasks id = some { command := command, stage := stage' } ∨
      ∃ stage, s.tasks id = some { command := command, stage := stage } ∧
        PreviewSegment u s e id stage stage' := by
  rcases step_task_before h htask' with ⟨-, rfl⟩ | ⟨stage, htask⟩
  · cases command <;> contradiction
  · by_cases hid : e.task = some id
    · have hpreviews : Previews u s s' e id command stage := by
        cases e with
        | called j command' =>
            obtain rfl := Option.some.inj hid
            simp [step, htask] at h
        | advance j =>
            obtain rfl := Option.some.inj hid
            exact advance_previews h htask
        | readPrivacy j =>
            obtain rfl := Option.some.inj hid
            exact readPrivacy_previews h htask
        | captured j input tracker =>
            obtain rfl := Option.some.inj hid
            exact captured_previews h htask
        | completed j succeeds =>
            obtain rfl := Option.some.inj hid
            exact completed_previews h htask
        | claimed j result =>
            obtain rfl := Option.some.inj hid
            exact claimed_previews h htask
        | updatePrivacy privacy => contradiction
        | desk f => contradiction
      exact Or.inr ⟨stage, htask, hpreviews stage' htask' hholds⟩
    · left
      rw [← step_tasks_of_ne h hid]
      exact htask'

/-- What a step does to the preview slot. -/
inductive SlotMove (s : Service) (e : ServiceEvent) (s' : Service) : Prop where
  | kept (slot : s'.preview = s.preview)
  | dropped (slot : s'.preview = none)
  | stored (id : Nat) (command : Command) (preview : Preview) (event : e = .advance id)
      (task : s.tasks id = some { command := command, stage := .previewStore preview })
      (slot : s'.preview = some preview)

theorem step_slot {s s' : Service} {e : ServiceEvent} (h : s.step u sha256Hex e = some s') :
    SlotMove s e s' := by
  obtain ⟨r, hleaves, -, -, hslot, -⟩ := step_leaves h
  cases hleaves with
  | stored id command preview he htask => exact .stored id command preview he htask hslot
  | dropped => exact .dropped hslot
  | _ => exact .kept hslot

section

variable (u sha256Hex) (origin : Service) (es : List ServiceEvent)

/-- At instant `n` the preview of the command takes its options from the configuration of `s`. -/
def OptionsReadAt (id n : Nat) (s : Service) : Prop :=
  ∃ command s', s.tasks id = some { command := command, stage := .previewOptions } ∧
    StepAt (Service.step u sha256Hex) origin es n s (.advance id) s'

/-- At instant `n` the capture of the command's preview reads the configuration of `s`. -/
def CaptureReadAt (id n : Nat) (s : Service) : Prop :=
  ∃ command capture s', s.tasks id =
      some { command := command, stage := .previewCapture capture } ∧
    StepAt (Service.step u sha256Hex) origin es n s (.readPrivacy id) s'

/-- At instant `n` the command's preview is recorded in the gate of `s`. -/
def RecordedAt (id n : Nat) (s : Service) : Prop :=
  ∃ command snapshot s', s.tasks id =
      some { command := command, stage := .previewRecord snapshot } ∧
    StepAt (Service.step u sha256Hex) origin es n s (.advance id) s'

/-- All reads of a preview's capture find one configuration, its options ask for media if this
configuration shares it, and at its record the gate has the fingerprint of this configuration. -/
structure FindsOnePolicy : Prop where
  reads : ∀ id m n t s, CaptureReadAt u sha256Hex origin es id m t →
    CaptureReadAt u sha256Hex origin es id n s → s.config.privacy = t.config.privacy
  options : ∀ id m n t s, CaptureReadAt u sha256Hex origin es id m t →
    OptionsReadAt u sha256Hex origin es id n s →
      t.config.privacy.sources.media = true → s.config.privacy.sources.media = true
  gate : ∀ id m n t s, CaptureReadAt u sha256Hex origin es id m t →
    RecordedAt u sha256Hex origin es id n s →
      s.gate.fingerprint = policyFingerprint u sha256Hex t.config.privacy

/-- A capture entirely under a configuration that a preview of the run has read shows the
projection, in the world that this preview met, and the fingerprint is the one of this
configuration. -/
def Paired (fingerprint : String) (projection : PreviewProjection) : Prop :=
  ∃ id n t input tracker, CaptureReadAt u sha256Hex origin es id n t ∧
    .captured id input tracker ∈ es ∧
    fingerprint = policyFingerprint u sha256Hex t.config.privacy ∧
    projection = projectionOf (captureForDelivery u
      { includeMedia := t.config.privacy.sources.media } input tracker
      (fun _ => t.config.privacy)).snapshot

/-- The confirmation of the gate and all previews stored, about to be stored or returned are
paired. -/
structure PreviewsPaired (s : Service) : Prop where
  confirmation : ∀ confirmation, s.gate.confirmation = some confirmation →
    Paired u sha256Hex origin es confirmation.policyFingerprint confirmation.projection
  slot : ∀ preview, s.preview = some preview →
    Paired u sha256Hex origin es preview.policyFingerprint preview.projection
  recorded : ∀ id command preview,
    s.tasks id = some { command := command, stage := .previewStore preview } →
      Paired u sha256Hex origin es preview.policyFingerprint preview.projection
  returned : ∀ id command preview,
    s.tasks id = some { command := command, stage := .returned (.ok (some preview)) } →
      Paired u sha256Hex origin es preview.policyFingerprint preview.projection

/-- What a command holds of a preview while it captures, and what its capture has delivered. -/
structure CapturesOnePolicy (s : Service) : Prop where
  options : ∀ id command capture,
    s.tasks id = some { command := command, stage := .previewCapture capture } →
      ∃ n t, OptionsReadAt u sha256Hex origin es id n t ∧
        capture.options.includeMedia = t.config.privacy.sources.media
  reads : ∀ id command capture,
    s.tasks id = some { command := command, stage := .previewCapture capture } →
      ∀ privacy ∈ capture.reads,
        ∃ n t, CaptureReadAt u sha256Hex origin es id n t ∧ privacy = t.config.privacy
  delivered : ∀ id command snapshot,
    s.tasks id = some { command := command, stage := .previewRecord snapshot } →
      ∃ n t input tracker, CaptureReadAt u sha256Hex origin es id n t ∧
        .captured id input tracker ∈ es ∧
        snapshot = (captureForDelivery u
          { includeMedia := t.config.privacy.sources.media } input tracker
          (fun _ => t.config.privacy)).snapshot

end

section

variable {origin : Service} {es : List ServiceEvent}

theorem OptionsReadAt.append_right {id n : Nat} {t : Service}
    (h : OptionsReadAt u sha256Hex origin es id n t) (fs : List ServiceEvent) :
    OptionsReadAt u sha256Hex origin (es ++ fs) id n t := by
  obtain ⟨command, t', htask, hat⟩ := h
  exact ⟨command, t', htask, hat.append_right fs⟩

theorem CaptureReadAt.append_right {id n : Nat} {t : Service}
    (h : CaptureReadAt u sha256Hex origin es id n t) (fs : List ServiceEvent) :
    CaptureReadAt u sha256Hex origin (es ++ fs) id n t := by
  obtain ⟨command, capture, t', htask, hat⟩ := h
  exact ⟨command, capture, t', htask, hat.append_right fs⟩

theorem RecordedAt.append_right {id n : Nat} {t : Service}
    (h : RecordedAt u sha256Hex origin es id n t) (fs : List ServiceEvent) :
    RecordedAt u sha256Hex origin (es ++ fs) id n t := by
  obtain ⟨command, snapshot, t', htask, hat⟩ := h
  exact ⟨command, snapshot, t', htask, hat.append_right fs⟩

theorem Paired.append_right {fingerprint : String} {projection : PreviewProjection}
    (h : Paired u sha256Hex origin es fingerprint projection) (fs : List ServiceEvent) :
    Paired u sha256Hex origin (es ++ fs) fingerprint projection := by
  obtain ⟨id, n, t, input, tracker, hread, hmem, hfingerprint, hprojection⟩ := h
  exact ⟨id, n, t, input, tracker, hread.append_right fs, List.mem_append_left _ hmem,
    hfingerprint, hprojection⟩

theorem FindsOnePolicy.append_left {fs : List ServiceEvent}
    (h : FindsOnePolicy u sha256Hex origin (es ++ fs)) :
    FindsOnePolicy u sha256Hex origin es where
  reads id m n t s hread hread' :=
    h.reads id m n t s (hread.append_right fs) (hread'.append_right fs)
  options id m n t s hread hoptions :=
    h.options id m n t s (hread.append_right fs) (hoptions.append_right fs)
  gate id m n t s hread hrecorded :=
    h.gate id m n t s (hread.append_right fs) (hrecorded.append_right fs)

theorem delivers_reads_ne_nil {capture : CaptureProgress} {input : CaptureInput}
    {tracker : MediaSessionTracker} {snapshot : SanitizedPresenceSnapshot}
    (h : CaptureProgress.delivers u capture input tracker = some snapshot) :
    capture.reads ≠ [] := by
  simp only [CaptureProgress.delivers] at h
  split at h
  · rename_i hcount
    have hpos := captureForDelivery_reads_pos (u := u) capture.options input tracker
      (fun k => capture.reads.getD k defaultPrivacyConfig)
    rw [hcount] at hpos
    exact List.ne_nil_of_length_pos hpos
  · contradiction

theorem CapturesOnePolicy.deliver {s : Service} {id : Nat} {command : Command}
    {capture : CaptureProgress} {input : CaptureInput} {tracker : MediaSessionTracker}
    {snapshot : SanitizedPresenceSnapshot} (h : CapturesOnePolicy u sha256Hex origin es s)
    (hone : FindsOnePolicy u sha256Hex origin es)
    (htask : s.tasks id = some { command := command, stage := .previewCapture capture })
    (hdelivers : CaptureProgress.delivers u capture input tracker = some snapshot) :
    ∃ n t, CaptureReadAt u sha256Hex origin es id n t ∧
      snapshot = (captureForDelivery u
        { includeMedia := t.config.privacy.sources.media } input tracker
        (fun _ => t.config.privacy)).snapshot := by
  obtain ⟨first, hfirst⟩ := List.exists_mem_of_ne_nil _ (delivers_reads_ne_nil hdelivers)
  obtain ⟨n, t, hread, -⟩ := h.reads id command capture htask first hfirst
  have hreads : ∀ privacy ∈ capture.reads, privacy = t.config.privacy := by
    intro privacy hmem
    obtain ⟨n', t', hread', rfl⟩ := h.reads id command capture htask privacy hmem
    exact hone.reads id n n' t t' hread hread'
  have hoptions : t.config.privacy.sources.media = true → capture.options.includeMedia = true := by
    intro hmedia
    obtain ⟨m, r, hoptions, hinclude⟩ := h.options id command capture htask
    rw [hinclude]
    exact hone.options id n m t r hread hoptions hmedia
  refine ⟨n, t, hread, ?_⟩
  rw [delivers_of_reads hreads hdelivers, captureForDelivery_options hoptions]

theorem CapturesOnePolicy.step {s s' : Service} {e : ServiceEvent}
    (h : CapturesOnePolicy u sha256Hex origin es s)
    (hs : exec (Service.step u sha256Hex) origin es = some s)
    (hstep : s.step u sha256Hex e = some s') (hone : FindsOnePolicy u sha256Hex origin es) :
    CapturesOnePolicy u sha256Hex origin (es ++ [e]) s' where
  options id command capture' htask' := by
    rcases step_previews hstep htask' rfl with htask | ⟨stage, htask, hsegment⟩
    · obtain ⟨n, t, hread, hinclude⟩ := h.options id command capture' htask
      exact ⟨n, t, hread.append_right [e], hinclude⟩
    · cases hsegment with
      | options he =>
          subst he
          exact ⟨es.length, s, ⟨command, s', htask, StepAt.last hs hstep⟩, rfl⟩
      | read capture he =>
          obtain ⟨n, t, hread, hinclude⟩ := h.options id command capture htask
          exact ⟨n, t, hread.append_right [e], hinclude⟩
  reads id command capture' htask' privacy hmem := by
    rcases step_previews hstep htask' rfl with htask | ⟨stage, htask, hsegment⟩
    · obtain ⟨n, t, hread, hprivacy⟩ := h.reads id command capture' htask privacy hmem
      exact ⟨n, t, hread.append_right [e], hprivacy⟩
    · cases hsegment with
      | options he => contradiction
      | read capture he =>
          rcases List.mem_append.mp hmem with hbefore | hlast
          · obtain ⟨n, t, hread, hprivacy⟩ := h.reads id command capture htask privacy hbefore
            exact ⟨n, t, hread.append_right [e], hprivacy⟩
          · subst he
            exact ⟨es.length, s, ⟨command, capture, s', htask, StepAt.last hs hstep⟩,
              List.mem_singleton.mp hlast⟩
  delivered id command snapshot htask' := by
    rcases step_previews hstep htask' rfl with htask | ⟨stage, htask, hsegment⟩
    · obtain ⟨n, t, input, tracker, hread, hmem, hsnapshot⟩ :=
        h.delivered id command snapshot htask
      exact ⟨n, t, input, tracker, hread.append_right [e], List.mem_append_left _ hmem, hsnapshot⟩
    · cases hsegment with
      | delivered capture input tracker _ he hdelivers =>
          obtain ⟨n, t, hread, hsnapshot⟩ := h.deliver hone htask hdelivers
          refine ⟨n, t, input, tracker, hread.append_right [e], ?_, hsnapshot⟩
          simp [he]

/-- A record that finds the fingerprint of its capture's configuration pairs the two. -/
theorem CapturesOnePolicy.paired {s s' : Service} {id : Nat} {command : Command}
    {snapshot : SanitizedPresenceSnapshot} (h : CapturesOnePolicy u sha256Hex origin es s)
    (hs : exec (Service.step u sha256Hex) origin es = some s)
    (hstep : s.step u sha256Hex (.advance id) = some s')
    (hone : FindsOnePolicy u sha256Hex origin (es ++ [.advance id]))
    (htask : s.tasks id = some { command := command, stage := .previewRecord snapshot }) :
    Paired u sha256Hex origin (es ++ [.advance id]) s.gate.fingerprint
      (projectionOf snapshot) := by
  obtain ⟨n, t, input, tracker, hread, hmem, rfl⟩ := h.delivered id command snapshot htask
  have hread := hread.append_right [.advance id]
  have hgate := hone.gate id n es.length t s hread
    ⟨command, _, s', htask, StepAt.last hs hstep⟩
  exact ⟨id, n, t, input, tracker, hread, List.mem_append_left _ hmem, hgate, rfl⟩

theorem PreviewsPaired.step {s s' : Service} {e : ServiceEvent}
    (h : PreviewsPaired u sha256Hex origin es s)
    (hcaptures : CapturesOnePolicy u sha256Hex origin es s)
    (hs : exec (Service.step u sha256Hex) origin es = some s)
    (hstep : s.step u sha256Hex e = some s')
    (hone : FindsOnePolicy u sha256Hex origin (es ++ [e])) :
    PreviewsPaired u sha256Hex origin (es ++ [e]) s' where
  confirmation confirmation hheld := by
    cases step_gate hstep with
    | kept hgate =>
        rw [hgate] at hheld
        exact (h.confirmation confirmation hheld).append_right [e]
    | recorded confirmation' hrecords hgate =>
        rw [hgate] at hheld
        obtain rfl := Option.some.inj hheld
        obtain ⟨id, command, snapshot, rfl, htask, rfl⟩ := hrecords
        exact hcaptures.paired hs hstep hone htask
    | forgot _ hnone =>
        rw [hnone] at hheld
        contradiction
  slot preview hstored := by
    cases step_slot hstep with
    | kept hslot =>
        rw [hslot] at hstored
        exact (h.slot preview hstored).append_right [e]
    | dropped hslot =>
        rw [hslot] at hstored
        contradiction
    | stored id command preview' he htask hslot =>
        rw [hslot] at hstored
        obtain rfl := Option.some.inj hstored
        exact (h.recorded id command preview' htask).append_right [e]
  recorded id command preview htask' := by
    rcases step_previews hstep htask' rfl with htask | ⟨stage, htask, hsegment⟩
    · exact (h.recorded id command preview htask).append_right [e]
    · cases hsegment with
      | recorded snapshot he =>
          subst he
          exact hcaptures.paired hs hstep hone htask
  returned id command preview htask' := by
    rcases step_previews hstep htask' rfl with htask | ⟨stage, htask, hsegment⟩
    · exact (h.returned id command preview htask).append_right [e]
    · cases hsegment with
      | stored _ he => exact (h.recorded id command preview htask).append_right [e]

end

/-- In a run whose previews find one policy each, every confirmation and every preview of every
state pairs a projection captured entirely under one configuration with its fingerprint. -/
theorem previews_paired {config : CoreConfig} {backing : String → Option Int}
    {es : List ServiceEvent}
    (hone : FindsOnePolicy u sha256Hex (new u sha256Hex config backing) es) (n : Nat) {s : Service}
    (hrun : exec (Service.step u sha256Hex) (new u sha256Hex config backing) (es.take n) =
      some s) :
    PreviewsPaired u sha256Hex (new u sha256Hex config backing) (es.take n) s := by
  have hone : FindsOnePolicy u sha256Hex (new u sha256Hex config backing) (es.take n) := by
    rw [← List.take_append_drop n es] at hone
    exact hone.append_left
  have hall : FindsOnePolicy u sha256Hex (new u sha256Hex config backing) (es.take n) →
      CapturesOnePolicy u sha256Hex (new u sha256Hex config backing) (es.take n) s ∧
        PreviewsPaired u sha256Hex (new u sha256Hex config backing) (es.take n) s := by
    refine exec_induction
      (P := fun es s => FindsOnePolicy u sha256Hex (new u sha256Hex config backing) es →
        CapturesOnePolicy u sha256Hex (new u sha256Hex config backing) es s ∧
          PreviewsPaired u sha256Hex (new u sha256Hex config backing) es s) ?_ ?_ hrun
    · intro _
      refine ⟨⟨?_, ?_, ?_⟩, ⟨?_, ?_, ?_, ?_⟩⟩ <;> intros <;> contradiction
    · intro es s₁ e s₂ hs₁ ih hstep hone
      obtain ⟨hcaptures, hpaired⟩ := ih hone.append_left
      exact ⟨hcaptures.step hs₁ hstep hone.append_left, hpaired.step hcaptures hs₁ hstep hone⟩
  exact (hall hone).2

/-- An update of the settings with its comparison, and a preview after it. -/
def previewAfterUpdate : List ServiceEvent :=
  updatedBy 0 withheldConfig ++ adoptedBy 0 ++ previewedBy 1 "editor"

theorem findsOnePolicy_of_throughout {origin : Service} {es : List ServiceEvent}
    (privacy : PrivacyConfig)
    (h : Throughout (Service.step u sha256Hex) origin es (fun s => ∀ id command stage,
      s.tasks id = some { command := command, stage := stage } →
        stage.beforeRecord = true →
          s.config.privacy = privacy ∧
            s.gate.fingerprint = policyFingerprint u sha256Hex privacy)) :
    FindsOnePolicy u sha256Hex origin es where
  reads := by
    rintro id m n t s ⟨command, capture, t', htask, hat⟩ ⟨command', capture', s', htask', hat'⟩
    rw [(h m t hat.before id command _ htask rfl).1, (h n s hat'.before id command' _ htask' rfl).1]
  options := by
    rintro id m n t s ⟨command, capture, t', htask, hat⟩ ⟨command', s', htask', hat'⟩ hmedia
    rw [(h m t hat.before id command _ htask rfl).1] at hmedia
    rw [(h n s hat'.before id command' _ htask' rfl).1]
    exact hmedia
  gate := by
    rintro id m n t s ⟨command, capture, t', htask, hat⟩ ⟨command', snapshot, s', htask', hat'⟩
    rw [(h m t hat.before id command _ htask rfl).1]
    exact (h n s hat'.before id command' _ htask' rfl).2

theorem previews_paired_afterUpdate :
    ∃ s,
      exec (Service.step UnicodeData.ascii (fun preimage => preimage)) pairedById
        (previewAfterUpdate.take 12) = some s ∧
      s.gate.confirmation ≠ none ∧
      PreviewsPaired UnicodeData.ascii (fun preimage => preimage) pairedById
        (previewAfterUpdate.take 12) s := by
  obtain ⟨s, hs, hheld⟩ : ∃ s,
      exec (Service.step UnicodeData.ascii (fun preimage => preimage)) pairedById
        (previewAfterUpdate.take 12) = some s ∧ s.gate.confirmation.isNone = false :=
    Option.map_eq_some_iff.mp (by decide +kernel)
  have hshort : ∀ n < 13,
      (exec (Service.step UnicodeData.ascii (fun preimage => preimage)) pairedById
        (previewAfterUpdate.take n)).all (fun s => [0, 1].all (fun id =>
          (s.tasks id).all (fun task => !task.stage.beforeRecord ||
            (s.config.privacy = withheldConfig && s.gate.fingerprint = policyFingerprint
              UnicodeData.ascii (fun preimage => preimage) withheldConfig)))) = true := by
    decide +kernel
  have hone : FindsOnePolicy UnicodeData.ascii (fun preimage => preimage) pairedById
      previewAfterUpdate := by
    apply findsOnePolicy_of_throughout withheldConfig
    intro n t ht id command stage htask hbefore
    have htake : previewAfterUpdate.take n = previewAfterUpdate.take (min n 12) := by
      rcases Nat.le_total n 12 with hle | hle
      · rw [Nat.min_eq_left hle]
      · rw [Nat.min_eq_right hle, List.take_of_length_le hle]
        rfl
    have hid : id ∈ [0, 1] := by
      have hmem := List.mem_of_mem_take (called_of_task ht htask)
      simp [previewAfterUpdate, updatedBy, adoptedBy, previewedBy] at hmem
      rcases hmem with ⟨rfl, -⟩ | ⟨rfl, -⟩ <;> decide
    have hall := hshort (min n 12) (by omega)
    rw [← htake, ht, Option.all_some, List.all_eq_true] at hall
    have hpolicy := hall id hid
    rw [htask, Option.all_some, hbefore] at hpolicy
    simpa using hpolicy
  refine ⟨s, hs, ?_, previews_paired hone 12 hs⟩
  intro hnone
  simp [hnone] at hheld

/-- A capture of the default settings, and an update with its comparison before it is recorded. -/
def updateBeforeRecord : List ServiceEvent :=
  (previewedBy 0 "editor").take 4 ++ updatedBy 1 withheldConfig ++ adoptedBy 1 ++
    [.advance 0, .advance 0]

/-- No policy with the recorded fingerprint shows the recorded projection, in whatever world. -/
theorem preview_mispaired_updateBeforeRecord :
    ∃ s preview,
      exec (Service.step UnicodeData.ascii (fun preimage => preimage)) pairedById
        updateBeforeRecord = some s ∧
      s.tasks 0 =
        some { command := .refreshPreview, stage := .returned (.ok (some preview)) } ∧
      s.gate.confirmation = some {
        policyFingerprint := preview.policyFingerprint, projection := preview.projection } ∧
      (∀ privacy options input tracker,
        policyFingerprint UnicodeData.ascii (fun preimage => preimage) privacy =
          preview.policyFingerprint →
        preview.projection ≠ projectionOf (captureForDelivery UnicodeData.ascii options input
          tracker (fun _ => privacy)).snapshot) ∧
      ¬ PreviewsPaired UnicodeData.ascii (fun preimage => preimage) pairedById
        updateBeforeRecord s := by
  obtain ⟨s, hs, hok⟩ : ∃ s,
      exec (Service.step UnicodeData.ascii (fun preimage => preimage)) pairedById
        updateBeforeRecord = some s ∧
      (s.tasks 0, s.gate.confirmation) =
        (some {
          command := .refreshPreview
          stage := .returned (.ok (some {
            projection := projectionOf (snapshotOf "editor")
            policyFingerprint :=
              policyFingerprint UnicodeData.ascii (fun preimage => preimage) withheldConfig
            observedAt := 0 })) },
          some {
            policyFingerprint :=
              policyFingerprint UnicodeData.ascii (fun preimage => preimage) withheldConfig
            projection := projectionOf (snapshotOf "editor") }) :=
    Option.map_eq_some_iff.mp (by decide +kernel)
  obtain ⟨hreturned, hheld⟩ := Prod.mk.inj hok
  have hmispaired (privacy : PrivacyConfig) (options : CaptureOptions) (input : CaptureInput)
      (tracker : MediaSessionTracker)
      (hsame : policyFingerprint UnicodeData.ascii (fun preimage => preimage) privacy =
        policyFingerprint UnicodeData.ascii (fun preimage => preimage) withheldConfig) :
      projectionOf (snapshotOf "editor") ≠ projectionOf (captureForDelivery UnicodeData.ascii
        options input tracker (fun _ => privacy)).snapshot := by
    intro hprojection
    obtain ⟨-, -, -, -, -, hsources⟩ := policyPreimage_eq hsame
    have hnone : captureApplication UnicodeData.ascii privacy input.foreground = none := by
      simp [captureApplication, hsources, withheldConfig]
    have happlication := congrArg PreviewProjection.application hprojection
    simp [projectionOf, snapshotOf, captureForDelivery_application, Capture.lastConfig, hnone]
      at happlication
  refine ⟨s, _, hs, hreturned, hheld, hmispaired, ?_⟩
  intro hpaired
  obtain ⟨id, n, t, input, tracker, -, -, hfingerprint, hprojection⟩ :=
    hpaired.confirmation _ hheld
  exact hmispaired _ _ input tracker hfingerprint.symm hprojection

end Service

end YohakuCore
