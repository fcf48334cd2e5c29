import YohakuCore.Companion.Service

/-! # The segments of a consent -/

namespace YohakuCore

open Framework

namespace Stage

/-- The place of a stage on the way of a consent. -/
def rank : Stage → Nat
  | confirmEntry => 0
  | confirmSlot => 1
  | confirmGate _ => 2
  | beforeOptions _ => 3
  | beforeCapture _ _ => 4
  | beforeValidate _ _ => 5
  | enable _ => 6
  | afterOptions _ => 7
  | afterCapture _ _ => 8
  | afterFingerprint _ _ => 9
  | afterValidate _ _ _ => 10
  | confirmStart => 11
  | rollback => 12
  | previewOptions => 13
  | previewCapture _ => 14
  | previewRecord _ => 15
  | previewStore _ => 16
  | returned _ => 17
  | _ => 18

/-- The stages a consent may be at. -/
def ofConfirm (stage : Stage) : Bool := stage.rank ≤ 17

def isCapturing : Stage → Bool
  | previewCapture _ => true
  | beforeCapture _ _ => true
  | afterCapture _ _ => true
  | _ => false

def startsCapture : Stage → Bool
  | previewOptions => true
  | beforeOptions _ => true
  | afterOptions _ => true
  | _ => false

/-- The snapshot that a capture has just delivered. -/
def delivered : Stage → Option SanitizedPresenceSnapshot
  | previewRecord snapshot => some snapshot
  | beforeValidate _ snapshot => some snapshot
  | afterFingerprint _ snapshot => some snapshot
  | _ => none

end Stage

section

variable (u : UnicodeData) (sha256Hex : String → String) (s s' : Service) (ui : String)

/-- The segments of a consent that has clicked `ui`, with what each finds or leaves. -/
inductive ConfirmSegment : Stage → Stage → Prop
  | notPaired : ConfirmSegment .confirmEntry (.returned (.error .notPaired))
  | entry : ConfirmSegment .confirmEntry .confirmSlot
  | slot : ConfirmSegment .confirmSlot (.confirmGate s.preview)
  | chosen (preview : Preview) (current : ui = s.gate.fingerprint) :
      ConfirmSegment (.confirmGate (some preview))
        (.beforeOptions { policyFingerprint := ui, projection := preview.projection })
  | outdated (preview : Option Preview) :
      ConfirmSegment (.confirmGate preview) .previewOptions
  | beforeStart (candidate : Confirmation) :
      ConfirmSegment (.beforeOptions candidate)
        (.beforeCapture candidate s.captureStart)
  | beforeRead (candidate : Confirmation) (capture capture' : CaptureProgress) :
      ConfirmSegment (.beforeCapture candidate capture)
        (.beforeCapture candidate capture')
  | before (candidate : Confirmation) (capture : CaptureProgress)
      (snapshot : SanitizedPresenceSnapshot) :
      ConfirmSegment (.beforeCapture candidate capture)
        (.beforeValidate candidate snapshot)
  | validated (candidate : Confirmation) (before : SanitizedPresenceSnapshot)
      (valid : s.gate.validates candidate (projectionOf before) = true) :
      ConfirmSegment (.beforeValidate candidate before) (.enable candidate)
  | rejected (candidate : Confirmation) (before : SanitizedPresenceSnapshot) :
      ConfirmSegment (.beforeValidate candidate before) .previewOptions
  | enabled (candidate : Confirmation) (written : s'.config = s.config.setLiveDesk true) :
      ConfirmSegment (.enable candidate) (.afterOptions candidate)
  | failed (stage : Stage) : ConfirmSegment stage (.returned (.error .internal))
  | afterStart (candidate : Confirmation) :
      ConfirmSegment (.afterOptions candidate)
        (.afterCapture candidate s.captureStart)
  | afterRead (candidate : Confirmation) (capture capture' : CaptureProgress) :
      ConfirmSegment (.afterCapture candidate capture)
        (.afterCapture candidate capture')
  | after (candidate : Confirmation) (capture : CaptureProgress)
      (snapshot : SanitizedPresenceSnapshot) :
      ConfirmSegment (.afterCapture candidate capture)
        (.afterFingerprint candidate snapshot)
  | fingerprint (candidate : Confirmation) (after : SanitizedPresenceSnapshot) :
      ConfirmSegment (.afterFingerprint candidate after)
        (.afterValidate candidate after (policyFingerprint u sha256Hex s.config.privacy))
  | revalidated (candidate : Confirmation) (after : SanitizedPresenceSnapshot)
      (valid : s.gate.validates candidate (projectionOf after) = true) :
      ConfirmSegment (.afterValidate candidate after ui) .confirmStart
  | drifted (candidate : Confirmation) (after : SanitizedPresenceSnapshot) (now : String) :
      ConfirmSegment (.afterValidate candidate after now) .rollback
  | rolledBack : ConfirmSegment .rollback .previewOptions
  | started : ConfirmSegment .confirmStart (.returned (.ok none))
  | previewStart : ConfirmSegment .previewOptions (.previewCapture s.captureStart)
  | previewRead (capture capture' : CaptureProgress) :
      ConfirmSegment (.previewCapture capture) (.previewCapture capture')
  | preview (capture : CaptureProgress) (snapshot : SanitizedPresenceSnapshot) :
      ConfirmSegment (.previewCapture capture) (.previewRecord snapshot)
  | record (snapshot : SanitizedPresenceSnapshot) (preview : Preview) :
      ConfirmSegment (.previewRecord snapshot) (.previewStore preview)
  | store (preview : Preview) :
      ConfirmSegment (.previewStore preview)
        (.returned (.error .previewOutOfDate))

end

variable {u : UnicodeData} {sha256Hex : String → String}

namespace Service

/-- The task `id` runs a segment of its own. -/
def Reaches (u : UnicodeData) (sha256Hex : String → String) (s s' : Service) (id : Nat)
    (ui : String) (stage : Stage) : Prop :=
  ∃ stage', s'.tasks id = some { command := .confirmConsent ui, stage := stage' } ∧
    ConfirmSegment u sha256Hex s s' ui stage stage'

theorem reaches_goto {s r : Service} {id : Nat} {ui : String} {stage stage' : Stage}
    (h : ConfirmSegment u sha256Hex s (r.goto id (.confirmConsent ui) stage') ui stage stage') :
    Reaches u sha256Hex s (r.goto id (.confirmConsent ui) stage') id ui stage :=
  ⟨stage', goto_tasks_self _ _ _ _, h⟩

theorem advance_confirm {s s' : Service} {id : Nat} {ui : String} {stage : Stage}
    (h : s.advance u sha256Hex id = some s')
    (htask : s.tasks id = some { command := .confirmConsent ui, stage := stage })
    (hstage : stage.ofConfirm = true) : Reaches u sha256Hex s s' id ui stage := by
  rw [advance, htask] at h
  cases stage with
  | previewOptions =>
      obtain rfl := Option.some.inj h
      exact reaches_goto .previewStart
  | previewRecord snapshot =>
      obtain rfl := Option.some.inj h
      exact reaches_goto (.record snapshot _)
  | previewStore preview =>
      obtain rfl := Option.some.inj h
      exact reaches_goto (.store preview)
  | confirmEntry =>
      dsimp only at h
      split at h
      · obtain rfl := Option.some.inj h
        exact reaches_goto .notPaired
      · obtain rfl := Option.some.inj h
        exact reaches_goto .entry
  | confirmSlot =>
      obtain rfl := Option.some.inj h
      exact reaches_goto .slot
  | confirmGate preview =>
      cases preview with
      | none =>
          obtain rfl := Option.some.inj h
          exact reaches_goto (.outdated none)
      | some preview =>
          dsimp only [Command.uiFingerprint] at h
          split at h
          · rename_i hcurrent
            obtain rfl := Option.some.inj h
            exact reaches_goto (.chosen preview hcurrent)
          · obtain rfl := Option.some.inj h
            exact reaches_goto (.outdated _)
  | beforeOptions candidate =>
      obtain rfl := Option.some.inj h
      exact reaches_goto (.beforeStart candidate)
  | beforeValidate candidate before =>
      dsimp only at h
      split at h
      · rename_i hvalid
        obtain rfl := Option.some.inj h
        exact reaches_goto (.validated candidate before hvalid)
      · obtain rfl := Option.some.inj h
        exact reaches_goto (.rejected candidate before)
  | afterOptions candidate =>
      obtain rfl := Option.some.inj h
      exact reaches_goto (.afterStart candidate)
  | afterFingerprint candidate after =>
      obtain rfl := Option.some.inj h
      exact reaches_goto (.fingerprint candidate after)
  | afterValidate candidate after fingerprintNow =>
      dsimp only at h
      split at h
      · obtain rfl := Option.some.inj h
        exact reaches_goto (.drifted candidate after fingerprintNow)
      · rename_i hpassed
        obtain rfl := Option.some.inj h
        rw [not_or, not_not, Bool.not_eq_false] at hpassed
        obtain ⟨hfingerprint, hvalid⟩ := hpassed
        obtain rfl : ui = fingerprintNow := Option.some.inj hfingerprint
        exact reaches_goto (.revalidated candidate after hvalid)
  | confirmStart =>
      obtain ⟨desk, -, rfl⟩ := withDesk_eq_some.mp h
      exact reaches_goto .started
  | _ => contradiction

theorem readPrivacy_confirm {s s' : Service} {id : Nat} {ui : String} {stage : Stage}
    (h : s.readPrivacy id = some s')
    (htask : s.tasks id = some { command := .confirmConsent ui, stage := stage }) :
    Reaches u sha256Hex s s' id ui stage := by
  rw [readPrivacy, htask] at h
  cases stage with
  | previewCapture capture =>
      obtain rfl := Option.some.inj h
      exact reaches_goto (.previewRead capture _)
  | beforeCapture candidate capture =>
      obtain rfl := Option.some.inj h
      exact reaches_goto (.beforeRead candidate capture _)
  | afterCapture candidate capture =>
      obtain rfl := Option.some.inj h
      exact reaches_goto (.afterRead candidate capture _)
  | _ => contradiction

theorem captured_confirm {s s' : Service} {id : Nat} {ui : String} {stage : Stage}
    {input : CaptureInput} {tracker : MediaSessionTracker}
    (h : s.captured u id input tracker = some s')
    (htask : s.tasks id = some { command := .confirmConsent ui, stage := stage }) :
    Reaches u sha256Hex s s' id ui stage := by
  rw [captured, htask] at h
  cases stage with
  | previewCapture capture =>
      obtain ⟨snapshot, -, rfl⟩ := Option.map_eq_some_iff.mp h
      exact reaches_goto (.preview capture snapshot)
  | beforeCapture candidate capture =>
      obtain ⟨snapshot, -, rfl⟩ := Option.map_eq_some_iff.mp h
      exact reaches_goto (.before candidate capture snapshot)
  | afterCapture candidate capture =>
      obtain ⟨snapshot, -, rfl⟩ := Option.map_eq_some_iff.mp h
      exact reaches_goto (.after candidate capture snapshot)
  | _ => contradiction

theorem completed_confirm {s s' : Service} {id : Nat} {ui : String} {stage : Stage}
    {succeeds : Bool} (h : s.completed id succeeds = some s')
    (htask : s.tasks id = some { command := .confirmConsent ui, stage := stage })
    (hstage : stage.ofConfirm = true) : Reaches u sha256Hex s s' id ui stage := by
  rw [completed, htask] at h
  cases stage with
  | enable candidate =>
      dsimp only [Stage.write] at h
      split at h
      · obtain rfl := Option.some.inj h
        exact reaches_goto (.enabled candidate rfl)
      · obtain rfl := Option.some.inj h
        exact reaches_goto (.failed _)
  | rollback =>
      dsimp only [Stage.write] at h
      split at h
      · obtain rfl := Option.some.inj h
        exact reaches_goto .rolledBack
      · obtain rfl := Option.some.inj h
        exact reaches_goto (.failed _)
  | _ => contradiction

/-- A consent stays, or runs one of its segments. -/
theorem step_confirm {s s' : Service} {e : ServiceEvent} {id : Nat} {ui : String} {stage : Stage}
    (h : s.step u sha256Hex e = some s')
    (htask : s.tasks id = some { command := .confirmConsent ui, stage := stage })
    (hstage : stage.ofConfirm = true) :
    s'.tasks id = some { command := .confirmConsent ui, stage := stage } ∨
      Reaches u sha256Hex s s' id ui stage := by
  by_cases hid : e.task = some id
  · cases e with
    | called j command =>
        obtain rfl := Option.some.inj hid
        simp only [step, htask] at h
        contradiction
    | advance j =>
        obtain rfl := Option.some.inj hid
        exact Or.inr (advance_confirm h htask hstage)
    | readPrivacy j =>
        obtain rfl := Option.some.inj hid
        exact Or.inr (readPrivacy_confirm h htask)
    | captured j input tracker =>
        obtain rfl := Option.some.inj hid
        exact Or.inr (captured_confirm h htask)
    | completed j succeeds =>
        obtain rfl := Option.some.inj hid
        exact Or.inr (completed_confirm h htask hstage)
    | claimed j result =>
        obtain rfl := Option.some.inj hid
        simp only [step, claimed, htask] at h
        cases stage <;> contradiction
    | updatePrivacy privacy => contradiction
    | desk e => contradiction
  · exact Or.inl ((step_tasks_of_ne h hid).trans htask)

end Service

theorem ConfirmSegment.rank_le {s s' : Service} {ui : String} {stage stage' : Stage}
    (h : ConfirmSegment u sha256Hex s s' ui stage stage') (hstage : stage.ofConfirm = true) :
    stage.rank ≤ stage'.rank := by
  cases h
  case failed => exact of_decide_eq_true hstage
  all_goals simp only [Stage.rank]; omega

theorem ConfirmSegment.to_afterValidate {s s' : Service} {ui now : String} {stage : Stage}
    {candidate : Confirmation} {after : SanitizedPresenceSnapshot}
    (h : ConfirmSegment u sha256Hex s s' ui stage (.afterValidate candidate after now)) :
    stage = .afterFingerprint candidate after ∧
      now = policyFingerprint u sha256Hex s.config.privacy := by
  cases h
  exact ⟨rfl, rfl⟩

theorem ConfirmSegment.to_confirmGate {s s' : Service} {ui : String} {stage : Stage}
    {preview : Option Preview}
    (h : ConfirmSegment u sha256Hex s s' ui stage (.confirmGate preview)) :
    stage = .confirmSlot ∧ preview = s.preview := by
  cases h
  exact ⟨rfl, rfl⟩

namespace Service

theorem Placed.ofConfirm {s : Service} (h : s.Placed) {id : Nat} {ui : String} {stage : Stage}
    (htask : s.tasks id = some { command := .confirmConsent ui, stage := stage }) :
    stage.ofConfirm = true := by
  have hstage := h id _ stage htask
  cases stage with
  | shutdown next => cases next <;> contradiction
  | shutdownWait task next => cases next <;> contradiction
  | _ => first | rfl | contradiction

theorem rank_run {s s' : Service} {es : List ServiceEvent} (hplaced : s.Placed)
    {id : Nat} {ui : String} {stage : Stage}
    (htask : s.tasks id = some { command := .confirmConsent ui, stage := stage })
    (h : exec (Service.step u sha256Hex) s es = some s') :
    ∃ stage', s'.tasks id = some { command := .confirmConsent ui, stage := stage' } ∧
      stage.rank ≤ stage'.rank := by
  have hinv := exec_invariant
    (I := fun t => t.Placed ∧
      ∃ stage', t.tasks id = some { command := .confirmConsent ui, stage := stage' } ∧
        stage.rank ≤ stage'.rank)
    ⟨hplaced, stage, htask, le_refl _⟩ ?_ h
  · exact hinv.2
  · rintro t e t' ⟨hplaced, stage', htask, hle⟩ hstep
    refine ⟨hplaced.step hstep, ?_⟩
    have hstage := hplaced.ofConfirm htask
    rcases step_confirm hstep htask hstage with hsame | ⟨stage'', hreached, hsegment⟩
    · exact ⟨stage', hsame, hle⟩
    · exact ⟨stage'', hreached, le_trans hle (hsegment.rank_le hstage)⟩

/-- At instant `n` of the run the command `id` goes from one stage to another. -/
structure GoesAt (u : UnicodeData) (sha256Hex : String → String) (start : Service)
    (es : List ServiceEvent) (id : Nat) (command : Command) (n : Nat) (s₁ : Service)
    (stage stage' : Stage) (s₂ : Service) : Prop where
  step : ∃ e, StepAt (Service.step u sha256Hex) start es n s₁ e s₂
  before : s₁.tasks id = some { command := command, stage := stage }
  after : s₂.tasks id = some { command := command, stage := stage' }

section

variable {config : CoreConfig} {backing : String → Option Int} {es : List ServiceEvent} {id : Nat}
  {ui : String}

/-- A consent that is at a stage of the kind `S` went there by a segment of its own, and has been at
such stages since. -/
theorem confirm_entry {s : Service} {S : Stage → Prop} {stage : Stage}
    (hrun : exec (Service.step u sha256Hex) (new u sha256Hex config backing) es = some s)
    (htask : s.tasks id = some { command := .confirmConsent ui, stage := stage })
    (hentry : ¬ S .confirmEntry) (hstage : S stage) :
    ∃ n s₁ s₂ stage₁ stage₂, n < es.length ∧
      GoesAt u sha256Hex (new u sha256Hex config backing) es id (.confirmConsent ui) n s₁ stage₁
        stage₂ s₂ ∧
      ¬ S stage₁ ∧ S stage₂ ∧ ConfirmSegment u sha256Hex s₁ s₂ ui stage₁ stage₂ ∧
      ∀ m s₃, n < m →
        exec (Service.step u sha256Hex) (new u sha256Hex config backing) (es.take m) = some s₃ →
        ∃ stage₃, s₃.tasks id = some { command := .confirmConsent ui, stage := stage₃ } ∧
          S stage₃ := by
  obtain ⟨n, s₁, e, s₂, hat, hbefore, ⟨stage₂, htask₂, hstage₂⟩, hsince⟩ := exec_entry
    (P := fun t => ∃ stage, t.tasks id = some { command := .confirmConsent ui, stage := stage } ∧
      S stage) hrun (fun hnew => nomatch hnew.choose_spec.1) ⟨stage, htask, hstage⟩
  rcases step_task_before hat.step htask₂ with ⟨-, rfl⟩ | ⟨stage₁, htask₁⟩
  · exact absurd hstage₂ hentry
  · have hstage₁ : ¬ S stage₁ := fun h => hbefore ⟨stage₁, htask₁, h⟩
    have hplaced := (placed_run hat.before).ofConfirm htask₁
    rcases step_confirm hat.step htask₁ hplaced with hsame | ⟨stage₃, hreached, hsegment⟩
    · rw [hsame] at htask₂
      obtain ⟨-, rfl⟩ := Task.mk.inj (Option.some.inj htask₂)
      exact absurd hstage₂ hstage₁
    · rw [hreached] at htask₂
      obtain ⟨-, rfl⟩ := Task.mk.inj (Option.some.inj htask₂)
      exact ⟨n, s₁, s₂, stage₁, stage₃, hat.lt_length, ⟨⟨e, hat⟩, htask₁, hreached⟩, hstage₁,
        hstage₂, hsegment, hsince⟩

theorem GoesAt.of_take {start s₁ s₂ : Service} {command : Command} {m n : Nat}
    {stage stage' : Stage}
    (h : GoesAt u sha256Hex start (es.take m) id command n s₁ stage stage' s₂) :
    n < m ∧ GoesAt u sha256Hex start es id command n s₁ stage stage' s₂ := by
  obtain ⟨e, hat⟩ := h.step
  obtain ⟨hlt, hat⟩ := hat.of_take
  exact ⟨hlt, ⟨e, hat⟩, h.before, h.after⟩

theorem GoesAt.append_right {start s₁ s₂ : Service} {command : Command} {n : Nat}
    {stage stage' : Stage} (h : GoesAt u sha256Hex start es id command n s₁ stage stage' s₂)
    (fs : List ServiceEvent) :
    GoesAt u sha256Hex start (es ++ fs) id command n s₁ stage stage' s₂ := by
  obtain ⟨e, hat⟩ := h.step
  exact ⟨⟨e, hat.append_right fs⟩, h.before, h.after⟩

theorem GoesAt.earlier_of {n : Nat} {s₁ s₂ : Service} {stage stage' : Stage}
    (h : GoesAt u sha256Hex (new u sha256Hex config backing) es id (.confirmConsent ui) n s₁ stage
      stage' s₂) {S : Stage → Prop} (hentry : ¬ S .confirmEntry) (hstage : S stage) :
    ∃ m t₁ t₂ stage₁ stage₂, m < n ∧
      GoesAt u sha256Hex (new u sha256Hex config backing) es id (.confirmConsent ui) m t₁ stage₁
        stage₂ t₂ ∧
      ¬ S stage₁ ∧ S stage₂ ∧ ConfirmSegment u sha256Hex t₁ t₂ ui stage₁ stage₂ ∧
      ∀ k t, m < k → k ≤ n →
        exec (Service.step u sha256Hex) (new u sha256Hex config backing) (es.take k) = some t →
        ∃ stage₃, t.tasks id = some { command := .confirmConsent ui, stage := stage₃ } ∧
          S stage₃ := by
  obtain ⟨e, hat⟩ := h.step
  obtain ⟨m, t₁, t₂, stage₁, stage₂, -, hgoes, hstage₁, hstage₂, hsegment, hsince⟩ :=
    confirm_entry hat.before h.before hentry hstage
  obtain ⟨hlt, hgoes⟩ := hgoes.of_take
  refine ⟨m, t₁, t₂, stage₁, stage₂, hlt, hgoes, hstage₁, hstage₂, hsegment, ?_⟩
  intro k t hmk hkn ht
  refine hsince k t hmk ?_
  rw [List.take_take, Nat.min_eq_left hkn]
  exact ht

theorem GoesAt.earlier {n : Nat} {s₁ s₂ : Service} {stage stage' : Stage}
    (h : GoesAt u sha256Hex (new u sha256Hex config backing) es id (.confirmConsent ui) n s₁ stage
      stage' s₂) (hentry : stage ≠ .confirmEntry) :
    ∃ m t₁ t₂ stage₁, m < n ∧
      GoesAt u sha256Hex (new u sha256Hex config backing) es id (.confirmConsent ui) m t₁ stage₁
        stage t₂ ∧
      ConfirmSegment u sha256Hex t₁ t₂ ui stage₁ stage := by
  obtain ⟨m, t₁, t₂, stage₁, stage₂, hlt, hgoes, -, rfl, hsegment, -⟩ :=
    h.earlier_of (S := fun stage'' => stage'' = stage) hentry.symm rfl
  exact ⟨m, t₁, t₂, stage₁, hlt, hgoes, hsegment⟩

/-- A consent leaves each rank once. -/
theorem GoesAt.unique {m n : Nat} {s₁ s₂ t₁ t₂ : Service} {stage₁ stage₁' stage₂ stage₂' : Stage}
    (hm : GoesAt u sha256Hex (new u sha256Hex config backing) es id (.confirmConsent ui) m s₁ stage₁
      stage₁' s₂)
    (hn : GoesAt u sha256Hex (new u sha256Hex config backing) es id (.confirmConsent ui) n t₁ stage₂
      stage₂' t₂)
    (hsame : stage₁.rank = stage₂.rank) (hm' : stage₁.rank < stage₁'.rank)
    (hn' : stage₂.rank < stage₂'.rank) : m = n := by
  have hlater {k l : Nat} {r₁ r₂ q₁ q₂ : Service} {a a' b b' : Stage}
      (hk : GoesAt u sha256Hex (new u sha256Hex config backing) es id (.confirmConsent ui) k r₁ a a'
        r₂)
      (hl : GoesAt u sha256Hex (new u sha256Hex config backing) es id (.confirmConsent ui) l q₁ b b'
        q₂) (hlt : k < l) : a'.rank ≤ b.rank := by
    obtain ⟨e, hatk⟩ := hk.step
    obtain ⟨f, hatl⟩ := hl.step
    obtain ⟨r, hr, hrest⟩ := exec_take hatl.before (k + 1)
    rw [List.take_take, Nat.min_eq_left hlt, hatk.after] at hr
    obtain rfl := Option.some.inj hr
    obtain ⟨stage, htask, hle⟩ := rank_run (placed_run hatk.after) hk.after hrest
    rw [hl.before] at htask
    obtain ⟨-, rfl⟩ := Task.mk.inj (Option.some.inj htask)
    exact hle
  rcases Nat.lt_trichotomy m n with hlt | heq | hgt
  · have hle := hlater hm hn hlt
    omega
  · exact heq
  · have hle := hlater hn hm hgt
    omega

/-- The command starts a capture at the instant `start`, and at the instant `done` it is delivered
the snapshot. -/
structure Captures (u : UnicodeData) (sha256Hex : String → String) (origin : Service)
    (es : List ServiceEvent) (id : Nat) (command : Command) (start done : Nat)
    (snapshot : SanitizedPresenceSnapshot) : Prop where
  started : ∃ s₁ s₂ stage stage', GoesAt u sha256Hex origin es id command start s₁ stage stage' s₂ ∧
    stage.startsCapture = true
  delivered : ∃ s₁ s₂ stage stage',
    GoesAt u sha256Hex origin es id command done s₁ stage stage' s₂ ∧ stage'.delivered = some snapshot
  meanwhile : ∀ k s, start < k → k ≤ done →
    exec (Service.step u sha256Hex) origin (es.take k) = some s →
    ∃ stage, s.tasks id = some { command := command, stage := stage } ∧ stage.isCapturing = true

/-- The instants of a consent that ran through. -/
structure ConfirmInstants where
  slot : Nat
  chosen : Nat
  beforeStart : Nat
  before : Nat
  validated : Nat
  written : Nat
  afterStart : Nat
  after : Nat
  fingerprint : Nat
  revalidated : Nat

/-- What happened at these instants: the preview `p` was read from the slot, and the projections of
both captures were validated against it. -/
structure ConfirmPath (u : UnicodeData) (sha256Hex : String → String) (origin : Service)
    (es : List ServiceEvent) (id : Nat) (ui : String) (i : ConfirmInstants) (p : Preview)
    (before after : SanitizedPresenceSnapshot) : Prop where
  order : i.slot < i.chosen ∧ i.chosen < i.beforeStart ∧ i.beforeStart < i.before ∧
    i.before < i.validated ∧ i.validated < i.written ∧ i.written < i.afterStart ∧
    i.afterStart < i.after ∧ i.after < i.fingerprint ∧ i.fingerprint < i.revalidated
  slot : ∃ s₁ s₂, s₁.preview = some p ∧
    GoesAt u sha256Hex origin es id (.confirmConsent ui) i.slot s₁ .confirmSlot
      (.confirmGate (some p)) s₂
  beforeCapture : Captures u sha256Hex origin es id (.confirmConsent ui) i.beforeStart i.before
    before
  validated : ∃ s₁ s₂, s₁.gate.validates ⟨ui, p.projection⟩ (projectionOf before) = true ∧
    GoesAt u sha256Hex origin es id (.confirmConsent ui) i.validated s₁
      (.beforeValidate ⟨ui, p.projection⟩ before) (.enable ⟨ui, p.projection⟩) s₂
  written : ∃ s₁ s₂, s₂.config = s₁.config.setLiveDesk true ∧
    GoesAt u sha256Hex origin es id (.confirmConsent ui) i.written s₁ (.enable ⟨ui, p.projection⟩)
      (.afterOptions ⟨ui, p.projection⟩) s₂
  afterCapture : Captures u sha256Hex origin es id (.confirmConsent ui) i.afterStart i.after after
  fingerprint : ∃ s₁, exec (Service.step u sha256Hex) origin (es.take i.fingerprint) = some s₁ ∧
    policyFingerprint u sha256Hex s₁.config.privacy = ui
  revalidated : ∃ s₁ s₂, s₁.gate.validates ⟨ui, p.projection⟩ (projectionOf after) = true ∧
    GoesAt u sha256Hex origin es id (.confirmConsent ui) i.revalidated s₁
      (.afterValidate ⟨ui, p.projection⟩ after ui) .confirmStart s₂

private theorem beforeCaptured {n : Nat} {s₁ s₂ : Service} {stage : Stage}
    {candidate : Confirmation} {before : SanitizedPresenceSnapshot}
    (h : GoesAt u sha256Hex (new u sha256Hex config backing) es id (.confirmConsent ui) n s₁
      (.beforeValidate candidate before) stage s₂) :
    ∃ start done t₁ t₂ stage', start < done ∧ done < n ∧
      Captures u sha256Hex (new u sha256Hex config backing) es id (.confirmConsent ui) start done
        before ∧
      GoesAt u sha256Hex (new u sha256Hex config backing) es id (.confirmConsent ui) start t₁
        (.beforeOptions candidate) stage' t₂ := by
  obtain ⟨done, r₁, r₂, stage₁, hdone, hdelivered, hsegment⟩ :=
    h.earlier (fun heq => nomatch heq)
  cases hsegment with
  | before candidate capture snapshot =>
      obtain ⟨start, t₁, t₂, stage₂, stage₃, hstart, hstarted, hout, ⟨capture', rfl⟩, hsegment,
          hsince⟩ :=
        hdelivered.earlier_of
          (S := fun stage => ∃ capture, stage = .beforeCapture candidate capture)
          (fun ⟨_, heq⟩ => nomatch heq) ⟨capture, rfl⟩
      cases hsegment with
      | beforeStart =>
          refine ⟨start, done, t₁, t₂, _, hstart, hdone, ⟨⟨t₁, t₂, _, _, hstarted, rfl⟩,
            ⟨r₁, r₂, _, _, hdelivered, rfl⟩, ?_⟩, hstarted⟩
          intro k s hk hle hs
          obtain ⟨_, htask, ⟨capture'', rfl⟩⟩ := hsince k s hk hle hs
          exact ⟨_, htask, rfl⟩
      | beforeRead _ capture'' _ => exact absurd ⟨capture'', rfl⟩ hout

private theorem afterCaptured {n : Nat} {s₁ s₂ : Service} {stage : Stage}
    {candidate : Confirmation} {after : SanitizedPresenceSnapshot}
    (h : GoesAt u sha256Hex (new u sha256Hex config backing) es id (.confirmConsent ui) n s₁
      (.afterFingerprint candidate after) stage s₂) :
    ∃ start done t₁ t₂ stage', start < done ∧ done < n ∧
      Captures u sha256Hex (new u sha256Hex config backing) es id (.confirmConsent ui) start done
        after ∧
      GoesAt u sha256Hex (new u sha256Hex config backing) es id (.confirmConsent ui) start t₁
        (.afterOptions candidate) stage' t₂ := by
  obtain ⟨done, r₁, r₂, stage₁, hdone, hdelivered, hsegment⟩ :=
    h.earlier (fun heq => nomatch heq)
  cases hsegment with
  | after candidate capture snapshot =>
      obtain ⟨start, t₁, t₂, stage₂, stage₃, hstart, hstarted, hout, ⟨capture', rfl⟩, hsegment,
          hsince⟩ :=
        hdelivered.earlier_of (S := fun stage => ∃ capture, stage = .afterCapture candidate capture)
          (fun ⟨_, heq⟩ => nomatch heq) ⟨capture, rfl⟩
      cases hsegment with
      | afterStart =>
          refine ⟨start, done, t₁, t₂, _, hstart, hdone, ⟨⟨t₁, t₂, _, _, hstarted, rfl⟩,
            ⟨r₁, r₂, _, _, hdelivered, rfl⟩, ?_⟩, hstarted⟩
          intro k s hk hle hs
          obtain ⟨_, htask, ⟨capture'', rfl⟩⟩ := hsince k s hk hle hs
          exact ⟨_, htask, rfl⟩
      | afterRead _ capture'' _ => exact absurd ⟨capture'', rfl⟩ hout

theorem confirm_path {s : Service}
    (hrun : exec (Service.step u sha256Hex) (new u sha256Hex config backing) es = some s)
    (hok : s.tasks id = some { command := .confirmConsent ui, stage := .returned (.ok none) }) :
    ∃ i p before after,
      ConfirmPath u sha256Hex (new u sha256Hex config backing) es id ui i p before after := by
  -- From the end to the beginning: each stage tells the segment that led to it.
  obtain ⟨nStart, a₁, a₂, stage, stage', -, hstart, -, rfl, hsegment, -⟩ :=
    confirm_entry (S := fun stage => stage = .returned (.ok none)) hrun hok
      (fun heq => nomatch heq) rfl
  cases hsegment with | started =>
  obtain ⟨nRevalidated, b₁, b₂, stage, hltRevalidated, hrevalidated, hsegment⟩ :=
    hstart.earlier (fun heq => nomatch heq)
  cases hsegment with | revalidated candidate after hvalidAfter =>
  obtain ⟨nFingerprint, c₁, c₂, stage, hltFingerprint, hfingerprint, hsegment⟩ :=
    hrevalidated.earlier (fun heq => nomatch heq)
  obtain ⟨rfl, hui⟩ := hsegment.to_afterValidate
  obtain ⟨nAfterStart, nAfter, d₁, d₂, stage, hltAfterStart, hltAfter, hafterCapture,
    hafterStart⟩ := afterCaptured hfingerprint
  obtain ⟨nWritten, e₁, e₂, stage, hltWritten, hwritten, hsegment⟩ :=
    hafterStart.earlier (fun heq => nomatch heq)
  cases hsegment with | enabled candidate hconfig =>
  obtain ⟨nValidated, f₁, f₂, stage, hltValidated, hvalidated, hsegment⟩ :=
    hwritten.earlier (fun heq => nomatch heq)
  cases hsegment with | validated candidate before hvalidBefore =>
  obtain ⟨nBeforeStart, nBefore, g₁, g₂, stage, hltBeforeStart, hltBefore, hbeforeCapture,
    hbeforeStart⟩ := beforeCaptured hvalidated
  obtain ⟨nChosen, h₁, h₂, stage, hltChosen, hchosen, hsegment⟩ :=
    hbeforeStart.earlier (fun heq => nomatch heq)
  cases hsegment with | chosen p hcurrent =>
  obtain ⟨nSlot, k₁, k₂, stage, hltSlot, hslot, hsegment⟩ :=
    hchosen.earlier (fun heq => nomatch heq)
  obtain ⟨rfl, hread⟩ := hsegment.to_confirmGate
  obtain ⟨e, hat⟩ := hfingerprint.step
  exact ⟨⟨nSlot, nChosen, nBeforeStart, nBefore, nValidated, nWritten, nAfterStart, nAfter,
    nFingerprint, nRevalidated⟩, p, before, after,
    ⟨hltSlot, hltChosen, hltBeforeStart, hltBefore, hltValidated, hltWritten, hltAfterStart,
      hltAfter, hltFingerprint⟩,
    ⟨k₁, k₂, hread.symm, hslot⟩, hbeforeCapture, ⟨f₁, f₂, hvalidBefore, hvalidated⟩,
    ⟨e₁, e₂, hconfig, hwritten⟩, hafterCapture, ⟨c₁, hat.before, hui.symm⟩,
    ⟨b₁, b₂, hvalidAfter, hrevalidated⟩⟩

end

end Service

end YohakuCore
