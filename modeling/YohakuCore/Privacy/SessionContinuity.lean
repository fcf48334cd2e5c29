import YohakuCore.Framework.Execution
import YohakuCore.Privacy.CaptureService

/-!
# Media sessions over many captures

Captures run side by side and share the session tracker, which each of them touches once, in a
segment of its own.
-/

namespace YohakuCore

open Framework

/-- What is ahead of a capture: its gate, the answer of the provider, the tracker, the application,
nothing. -/
inductive CaptureStage where
  | called
  | awaiting (observedAt : Int)
  | sanitized (observedAt : Int) (media : Option SanitizedMediaWithoutSession)
  | traced (observedAt : Int) (media : Option SanitizedMediaPresence)
  | returned (snapshot : SanitizedPresenceSnapshot)
  deriving DecidableEq

/-- The media a capture has for its snapshot. -/
def CaptureStage.media : CaptureStage → Option SanitizedMediaPresence
  | traced _ media => media
  | returned snapshot => snapshot.media
  | _ => none

/-- The stages that only a capture asked for media comes to. -/
def CaptureStage.ofMedia : CaptureStage → Bool
  | called => false
  | awaiting _ => true
  | sanitized _ _ => true
  | traced _ media => media.isSome
  | returned snapshot => snapshot.media.isSome

theorem CaptureStage.ofMedia_of_media {stage : CaptureStage} (h : stage.media ≠ none) :
    stage.ofMedia = true := by
  cases stage with
  | called => contradiction
  | awaiting => rfl
  | sanitized => rfl
  | traced now media => exact Option.isSome_iff_ne_none.mpr h
  | returned snapshot => exact Option.isSome_iff_ne_none.mpr h

structure CaptureCall where
  options : CaptureOptions
  stage : CaptureStage
  deriving DecidableEq

/-- The tracker of one capture service, and the captures called so far. -/
structure CaptureTasks where
  tracker : MediaSessionTracker
  calls : Nat → Option CaptureCall
  next : Nat

/-- The segments of `capture_for_delivery`, with what each reads, and the reset of the continuity.
`freshId` is the UUID that a mint would return. -/
inductive CaptureEvent where
  | call (options : CaptureOptions)
  | gate (id : Nat) (now : Int) (hasProvider : Bool) (config : PrivacyConfig)
  | answer (id : Nat) (config : PrivacyConfig) (poll : ProviderPoll)
  | track (id : Nat) (freshId : String)
  | application (id : Nat) (config : PrivacyConfig) (foreground : Option ForegroundInfo)
  | reset

/-- The capture whose segment an event runs. -/
def CaptureEvent.capture : CaptureEvent → Option Nat
  | .gate id _ _ _ => some id
  | .answer id _ _ => some id
  | .track id _ => some id
  | .application id _ _ => some id
  | _ => none

def CaptureEvent.freshId : CaptureEvent → Option String
  | .track _ freshId => some freshId
  | _ => none

/-- No UUID is minted twice. A segment that mints none has one all the same, which goes unused. -/
def FreshIds (es : List CaptureEvent) : Prop := (es.filterMap CaptureEvent.freshId).Nodup

namespace CaptureTasks

def new : CaptureTasks where
  tracker := .new
  calls _ := none
  next := 0

def setCall (s : CaptureTasks) (id : Nat) (call : CaptureCall) : CaptureTasks :=
  { s with calls := Function.update s.calls id (some call) }

def call (s : CaptureTasks) (options : CaptureOptions) : CaptureTasks :=
  { s.setCall s.next ⟨options, .called⟩ with next := s.next + 1 }

def resetMediaContinuity (s : CaptureTasks) : CaptureTasks := { s with tracker := s.tracker.reset }

variable (u : UnicodeData)

def gate (s : CaptureTasks) (id : Nat) (now : Int) (hasProvider : Bool) (config : PrivacyConfig) :
    Option CaptureTasks :=
  match s.calls id with
  | some ⟨options, .called⟩ =>
      match mediaGate options hasProvider config with
      | .awaiting => some (s.setCall id ⟨options, .awaiting now⟩)
      | .broken => some (s.setCall id ⟨options, .sanitized now none⟩)
      | .untouched => some (s.setCall id ⟨options, .traced now none⟩)
  | _ => none

def answer (s : CaptureTasks) (id : Nat) (config : PrivacyConfig) (poll : ProviderPoll) :
    Option CaptureTasks :=
  match s.calls id with
  | some ⟨options, .awaiting now⟩ =>
      some (s.setCall id ⟨options, .sanitized now (poll.raw.bind (sanitizedMediaOf u config))⟩)
  | _ => none

/-- The tracker is locked for this segment alone. -/
def track (s : CaptureTasks) (id : Nat) (freshId : String) : Option CaptureTasks :=
  match s.calls id with
  | some ⟨options, .sanitized now (some media)⟩ =>
      let (sessionId, tracker) := s.tracker.sessionId (semanticIdentity media) freshId
      some { s.setCall id ⟨options, .traced now (some (withSession media sessionId))⟩ with
        tracker := tracker }
  | some ⟨options, .sanitized now none⟩ =>
      some (s.setCall id ⟨options, .traced now none⟩).resetMediaContinuity
  | _ => none

def application (s : CaptureTasks) (id : Nat) (config : PrivacyConfig)
    (foreground : Option ForegroundInfo) : Option CaptureTasks :=
  match s.calls id with
  | some ⟨options, .traced now media⟩ =>
      some (s.setCall id ⟨options, .returned {
        observedAt := now
        application := captureApplication u config foreground
        media := media }⟩)
  | _ => none

def step (s : CaptureTasks) : CaptureEvent → Option CaptureTasks
  | .call options => some (s.call options)
  | .gate id now hasProvider config => s.gate id now hasProvider config
  | .answer id config poll => s.answer u id config poll
  | .track id freshId => s.track id freshId
  | .application id config foreground => s.application u id config foreground
  | .reset => some s.resetMediaContinuity

inductive TrackerMove (s : CaptureTasks) (s' : CaptureTasks) : CaptureEvent → Prop
  | kept (e : CaptureEvent) (tracker : s'.tracker = s.tracker)
      (other : e ≠ .reset ∧ ∀ id freshId, e ≠ .track id freshId) : TrackerMove s s' e
  | reset (tracker : s'.tracker.current = none) : TrackerMove s s' .reset
  | without (id : Nat) (freshId : String) (options : CaptureOptions) (now : Int)
      (call : s.calls id = some ⟨options, .sanitized now none⟩)
      (tracker : s'.tracker.current = none)
      (calls : s'.calls = Function.update s.calls id (some ⟨options, .traced now none⟩)) :
      TrackerMove s s' (.track id freshId)
  | delivered (id : Nat) (freshId : String) (options : CaptureOptions) (now : Int)
      (media : SanitizedMediaWithoutSession)
      (call : s.calls id = some ⟨options, .sanitized now (some media)⟩)
      (tracker : s'.tracker = (s.tracker.sessionId (semanticIdentity media) freshId).2)
      (calls : s'.calls = Function.update s.calls id (some ⟨options, .traced now
        (some (withSession media (s.tracker.sessionId (semanticIdentity media) freshId).1))⟩)) :
      TrackerMove s s' (.track id freshId)

variable {u}

theorem track_move {s s' : CaptureTasks} {id : Nat} {freshId : String}
    (h : s.track id freshId = some s') : TrackerMove s s' (.track id freshId) := by
  rw [track] at h
  split at h
  · rename_i options now media hcall
    obtain rfl := Option.some.inj h
    exact .delivered id freshId options now media hcall rfl rfl
  · rename_i options now hcall
    obtain rfl := Option.some.inj h
    exact .without id freshId options now hcall rfl rfl
  · contradiction

theorem step_tracker {s s' : CaptureTasks} {e : CaptureEvent} (h : s.step u e = some s') :
    TrackerMove s s' e := by
  cases e with
  | call options =>
      obtain rfl := Option.some.inj h
      exact .kept _ rfl (by simp)
  | gate id now hasProvider config =>
      simp only [step, gate] at h
      split at h
      · split at h <;>
          · obtain rfl := Option.some.inj h
            exact .kept _ rfl (by simp)
      · contradiction
  | answer id config poll =>
      simp only [step, answer] at h
      split at h
      · obtain rfl := Option.some.inj h
        exact .kept _ rfl (by simp)
      · contradiction
  | track id freshId => exact track_move h
  | application id config foreground =>
      simp only [step, application] at h
      split at h
      · obtain rfl := Option.some.inj h
        exact .kept _ rfl (by simp)
      · contradiction
  | reset =>
      obtain rfl := Option.some.inj h
      exact .reset rfl

/-- How a capture goes on to its next stage. -/
inductive StageAdvances (s : CaptureTasks) (options : CaptureOptions) :
    CaptureEvent → CaptureStage → CaptureStage → Prop
  | awaiting (id : Nat) (now : Int) (hasProvider : Bool) (config : PrivacyConfig)
      (asked : options.includeMedia = true) :
      StageAdvances s options (.gate id now hasProvider config) .called (.awaiting now)
  | broken (id : Nat) (now : Int) (hasProvider : Bool) (config : PrivacyConfig)
      (asked : options.includeMedia = true) :
      StageAdvances s options (.gate id now hasProvider config) .called (.sanitized now none)
  | untouched (id : Nat) (now : Int) (hasProvider : Bool) (config : PrivacyConfig) :
      StageAdvances s options (.gate id now hasProvider config) .called (.traced now none)
  | answered (id : Nat) (config : PrivacyConfig) (poll : ProviderPoll) (now : Int)
      (media : Option SanitizedMediaWithoutSession) :
      StageAdvances s options (.answer id config poll) (.awaiting now) (.sanitized now media)
  | without (id : Nat) (freshId : String) (now : Int) :
      StageAdvances s options (.track id freshId) (.sanitized now none) (.traced now none)
  | delivered (id : Nat) (freshId : String) (now : Int) (media : SanitizedMediaWithoutSession) :
      StageAdvances s options (.track id freshId) (.sanitized now (some media)) (.traced now
        (some (withSession media (s.tracker.sessionId (semanticIdentity media) freshId).1)))
  | returned (id : Nat) (config : PrivacyConfig) (foreground : Option ForegroundInfo) (now : Int)
      (media : Option SanitizedMediaPresence) (application : Option SanitizedApplicationPresence) :
      StageAdvances s options (.application id config foreground) (.traced now media)
        (.returned { observedAt := now, application := application, media := media })

/-- Where a capture of the state after a step comes from. -/
inductive CallOrigin (s : CaptureTasks) (e : CaptureEvent) (id : Nat) (call : CaptureCall) : Prop
  | kept (before : s.calls id = some call)
  | called (event : e.capture = none) (stage : call.stage = .called)
  | advanced (stage : CaptureStage) (event : e.capture = some id)
      (before : s.calls id = some ⟨call.options, stage⟩)
      (advances : StageAdvances s call.options e stage call.stage)

theorem callOrigin_of_update {s s' : CaptureTasks} {e : CaptureEvent} {id i : Nat}
    {options : CaptureOptions} {stage stage' : CaptureStage} {call : CaptureCall}
    (hcalls : s'.calls = Function.update s.calls id (some ⟨options, stage'⟩))
    (event : e.capture = some id) (before : s.calls id = some ⟨options, stage⟩)
    (advances : StageAdvances s options e stage stage') (hcall : s'.calls i = some call) :
    CallOrigin s e i call := by
  rw [hcalls, Function.update_apply] at hcall
  split at hcall
  · rename_i hid
    subst hid
    obtain rfl := Option.some.inj hcall
    exact .advanced stage event before advances
  · exact .kept hcall

theorem gate_asked {options : CaptureOptions} {hasProvider : Bool} {config : PrivacyConfig}
    (h : mediaGate options hasProvider config ≠ .untouched) : options.includeMedia = true := by
  by_contra hasked
  apply h
  simp [mediaGate, hasked]

theorem step_call {s s' : CaptureTasks} {e : CaptureEvent} (h : s.step u e = some s') {i : Nat}
    {call : CaptureCall} (hcall : s'.calls i = some call) : CallOrigin s e i call := by
  cases e with
  | call options =>
      obtain rfl := Option.some.inj h
      simp only [CaptureTasks.call, setCall, Function.update_apply] at hcall
      split at hcall
      · obtain rfl := Option.some.inj hcall
        exact .called rfl rfl
      · exact .kept hcall
  | gate id now hasProvider config =>
      simp only [step, gate] at h
      split at h
      · rename_i options hbefore
        cases hgate : mediaGate options hasProvider config with
        | awaiting =>
            have hgated : mediaGate options hasProvider config ≠ .untouched := by simp [hgate]
            have hasked := gate_asked hgated
            rw [hgate] at h
            obtain rfl := Option.some.inj h
            exact callOrigin_of_update rfl rfl hbefore (.awaiting id now _ _ hasked) hcall
        | broken =>
            have hgated : mediaGate options hasProvider config ≠ .untouched := by simp [hgate]
            have hasked := gate_asked hgated
            rw [hgate] at h
            obtain rfl := Option.some.inj h
            exact callOrigin_of_update rfl rfl hbefore (.broken id now _ _ hasked) hcall
        | untouched =>
            rw [hgate] at h
            obtain rfl := Option.some.inj h
            exact callOrigin_of_update rfl rfl hbefore (.untouched id now _ _) hcall
      · contradiction
  | answer id config poll =>
      simp only [step, answer] at h
      split at h
      · rename_i options now hbefore
        obtain rfl := Option.some.inj h
        exact callOrigin_of_update rfl rfl hbefore (.answered id config poll now _) hcall
      · contradiction
  | track id freshId =>
      cases track_move h with
      | without _ _ options now hbefore _ hcalls =>
          exact callOrigin_of_update hcalls rfl hbefore (.without id freshId now) hcall
      | delivered _ _ options now media hbefore _ hcalls =>
          exact callOrigin_of_update hcalls rfl hbefore (.delivered id freshId now media) hcall
      | kept _ _ hother => exact absurd rfl (hother.2 id freshId)
  | application id config foreground =>
      simp only [step, application] at h
      split at h
      · rename_i options now media hbefore
        obtain rfl := Option.some.inj h
        exact callOrigin_of_update rfl rfl hbefore (.returned id config foreground now media _)
          hcall
      · contradiction
  | reset =>
      obtain rfl := Option.some.inj h
      exact .kept hcall

theorem asked_of_media {es : List CaptureEvent} {s : CaptureTasks}
    (h : exec (step u) new es = some s) : ∀ id call, s.calls id = some call →
      call.stage.ofMedia = true → call.options.includeMedia = true := by
  refine exec_invariant (I := fun s => ∀ id call, s.calls id = some call →
    call.stage.ofMedia = true → call.options.includeMedia = true) ?_ ?_ h
  · intro id call hcall
    contradiction
  · intro s e s' ih hstep id call hcall hmedia
    obtain ⟨options, stage⟩ := call
    cases step_call hstep hcall with
    | kept hbefore => exact ih id _ hbefore hmedia
    | called _ hstage =>
        simp only at hstage
        subst hstage
        contradiction
    | advanced stage _ hbefore hadvances =>
        cases hadvances with
        | awaiting _ _ _ _ hasked => exact hasked
        | broken _ _ _ _ hasked => exact hasked
        | untouched => contradiction
        | answered =>
            have hasked := ih id _ hbefore rfl
            exact hasked
        | without => contradiction
        | delivered =>
            have hasked := ih id _ hbefore rfl
            exact hasked
        | returned =>
            have hasked := ih id _ hbefore hmedia
            exact hasked

/-- The tracker segment at instant `n` gives the capture `id` its media to deliver. -/
def DeliversAt (u : UnicodeData) (es : List CaptureEvent) (n id : Nat)
    (media : SanitizedMediaPresence) : Prop :=
  ∃ s freshId s' options now, StepAt (step u) new es n s (.track id freshId) s' ∧
    s'.calls id = some ⟨options, .traced now (some media)⟩

/-- What ends the session of an identity: a reset, another media delivered, or a capture that was
asked for media and is left without. -/
inductive Breaks (s : CaptureTasks) (identity : MediaSemanticIdentity) : CaptureEvent → Prop
  | reset : Breaks s identity .reset
  | other (id : Nat) (freshId : String) (options : CaptureOptions) (now : Int)
      (media : SanitizedMediaWithoutSession)
      (call : s.calls id = some ⟨options, .sanitized now (some media)⟩)
      (differs : semanticIdentity media ≠ identity) : Breaks s identity (.track id freshId)
  | without (id : Nat) (freshId : String) (options : CaptureOptions) (now : Int)
      (call : s.calls id = some ⟨options, .sanitized now none⟩)
      (asked : options.includeMedia = true) : Breaks s identity (.track id freshId)

/-- Some step strictly between two instants breaks the session. -/
def BrokenBetween (u : UnicodeData) (es : List CaptureEvent) (m n : Nat)
    (identity : MediaSemanticIdentity) : Prop :=
  ∃ k s e s', m < k ∧ k < n ∧ StepAt (step u) new es k s e s' ∧ s.Breaks identity e

end CaptureTasks

/-- The identity that delivered media was given its session for. -/
def SanitizedMediaPresence.identity (media : SanitizedMediaPresence) : MediaSemanticIdentity where
  kind := media.kind
  title := media.title
  artist := media.artist
  album := media.album
  playerDisplayName := media.playerDisplayName
  durationSeconds := media.playback.durationSeconds

namespace MediaSessionTracker

theorem sessionId_cases (tracker : MediaSessionTracker) (identity : MediaSemanticIdentity)
    (freshId : String) :
    (tracker.current = some (identity, (tracker.sessionId identity freshId).1)) ∨
    (∀ id, tracker.current ≠ some (identity, id)) ∧
      (tracker.sessionId identity freshId).1 = freshId := by
  unfold sessionId
  split
  · rename_i current id hcurrent
    split
    · rename_i heq
      exact Or.inl (by rw [hcurrent, heq])
    · rename_i hne
      refine Or.inr ⟨?_, rfl⟩
      intro id' hid'
      rw [hcurrent] at hid'
      exact hne (Prod.mk.inj (Option.some.inj hid')).1
  · rename_i hnone
    refine Or.inr ⟨?_, rfl⟩
    intro id hid
    rw [hnone] at hid
    contradiction

end MediaSessionTracker

namespace CaptureTasks

variable {u : UnicodeData}

theorem current_minted {es : List CaptureEvent} {s : CaptureTasks}
    (h : exec (step u) new es = some s) : ∀ identity id, s.tracker.current = some (identity, id) →
      id ∈ es.filterMap CaptureEvent.freshId := by
  refine exec_induction (P := fun es s => ∀ identity id,
    s.tracker.current = some (identity, id) → id ∈ es.filterMap CaptureEvent.freshId) ?_ ?_ h
  · intro identity id hcurrent
    contradiction
  · intro es s e s' _ ih hstep identity id hcurrent
    rw [List.filterMap_append, List.mem_append]
    cases step_tracker hstep with
    | kept _ htracker _ =>
        rw [htracker] at hcurrent
        exact Or.inl (ih identity id hcurrent)
    | reset htracker =>
        rw [htracker] at hcurrent
        contradiction
    | without _ _ _ _ _ htracker _ =>
        rw [htracker] at hcurrent
        contradiction
    | delivered call freshId options now media _ htracker _ =>
        rw [htracker, MediaSessionTracker.sessionId_current] at hcurrent
        obtain ⟨rfl, rfl⟩ := Prod.mk.inj (Option.some.inj hcurrent)
        rcases s.tracker.sessionId_cases (semanticIdentity media) freshId with h | ⟨-, h⟩
        · exact Or.inl (ih _ _ h)
        · rw [h]
          exact Or.inr (by simp [CaptureEvent.freshId])

theorem ne_of_fresh {es : List CaptureEvent} (h : FreshIds es) {m n id : Nat}
    {freshId earlier : String} (hearlier : earlier ∈ (es.take m).filterMap CaptureEvent.freshId)
    (hle : m ≤ n) (hevent : es[n]? = some (.track id freshId)) : freshId ≠ earlier := by
  rw [FreshIds, ← List.take_append_drop m es, List.filterMap_append, List.nodup_append] at h
  have hlater : freshId ∈ (es.drop m).filterMap CaptureEvent.freshId := by
    refine List.mem_filterMap.mpr ⟨.track id freshId, ?_, rfl⟩
    rw [List.mem_iff_getElem?]
    exact ⟨n - m, by rw [List.getElem?_drop, Nat.add_sub_cancel' hle]; exact hevent⟩
  exact (h.2.2 earlier hearlier freshId hlater).symm

theorem stepAt_unique {es : List CaptureEvent} {n : Nat} {s t s' t' : CaptureTasks}
    {e f : CaptureEvent} (h : StepAt (step u) new es n s e s')
    (h' : StepAt (step u) new es n t f t') : t = s ∧ f = e :=
  ⟨Option.some.inj (h'.before.symm.trans h.before), Option.some.inj (h'.event.symm.trans h.event)⟩

theorem brokenBetween_succ {es : List CaptureEvent} {m n : Nat} {s s' : CaptureTasks}
    {e : CaptureEvent} (hat : StepAt (step u) new es n s e s') (hlt : m < n)
    (identity : MediaSemanticIdentity) : BrokenBetween u es m (n + 1) identity ↔
      BrokenBetween u es m n identity ∨ s.Breaks identity e := by
  constructor
  · rintro ⟨k, t, f, t', hmk, hkn, hatk, hbreaks⟩
    rcases Nat.lt_succ_iff_lt_or_eq.mp hkn with hkn | rfl
    · exact Or.inl ⟨k, t, f, t', hmk, hkn, hatk, hbreaks⟩
    · obtain ⟨rfl, rfl⟩ := stepAt_unique hat hatk
      exact Or.inr hbreaks
  · rintro (⟨k, t, f, t', hmk, hkn, hatk, hbreaks⟩ | hbreaks)
    · exact ⟨k, t, f, t', hmk, Nat.lt_succ_of_lt hkn, hatk, hbreaks⟩
    · exact ⟨n, s, e, s', hlt, Nat.lt_succ_self n, hat, hbreaks⟩

/-- What the tracker remembers of a delivery: its session until that is broken, and never again
the same id. -/
def Remembers (media : SanitizedMediaPresence) (broken : Prop) (tracker : MediaSessionTracker) :
    Prop :=
  (¬ broken ∧ tracker.current = some (media.identity, media.sessionId)) ∨
    (broken ∧ ∀ identity id, tracker.current = some (identity, id) → id ≠ media.sessionId)

theorem Remembers.sessionId_eq_iff {media : SanitizedMediaPresence} {broken : Prop}
    {tracker : MediaSessionTracker} (h : Remembers media broken tracker)
    (identity : MediaSemanticIdentity) {freshId : String} (hfresh : freshId ≠ media.sessionId) :
    (tracker.sessionId identity freshId).1 = media.sessionId ↔
      identity = media.identity ∧ ¬ broken := by
  rcases tracker.sessionId_cases identity freshId with hcurrent | ⟨hother, hid⟩
  · rcases h with ⟨hwhole, hremembered⟩ | ⟨hbroken, hne⟩
    · rw [hremembered] at hcurrent
      obtain ⟨hidentity, hid⟩ := Prod.mk.inj (Option.some.inj hcurrent)
      subst hidentity
      simp [← hid, hwhole]
    · simp [hne _ _ hcurrent, hbroken]
  · rw [hid]
    rcases h with ⟨_, hremembered⟩ | ⟨hbroken, _⟩
    · have hidentity : identity ≠ media.identity := by
        rintro rfl
        exact hother _ hremembered
      simp [hfresh, hidentity]
    · simp [hfresh, hbroken]

theorem Remembers.broke {media : SanitizedMediaPresence} {broken : Prop}
    {tracker : MediaSessionTracker} (hbroken : broken) (hnone : tracker.current = none) :
    Remembers media broken tracker := by
  refine Or.inr ⟨hbroken, ?_⟩
  intro identity id hcurrent
  rw [hnone] at hcurrent
  contradiction

theorem Remembers.step {media : SanitizedMediaPresence} {broken : Prop} {s s' : CaptureTasks}
    {e : CaptureEvent} (h : Remembers media broken s.tracker) (hstep : s.step u e = some s')
    (hfresh : ∀ id freshId, e = .track id freshId → freshId ≠ media.sessionId)
    (hasked : ∀ id call, s.calls id = some call → call.stage.ofMedia = true →
      call.options.includeMedia = true) :
    Remembers media (broken ∨ s.Breaks media.identity e) s'.tracker := by
  cases step_tracker hstep with
  | kept _ htracker hother =>
      have hbreaks : ¬ s.Breaks media.identity e := by
        intro hbreaks
        cases hbreaks with
        | reset => exact hother.1 rfl
        | other => exact hother.2 _ _ rfl
        | without => exact hother.2 _ _ rfl
      simpa [htracker, hbreaks] using h
  | reset htracker => exact .broke (Or.inr .reset) htracker
  | without id freshId options now hcall htracker _ =>
      exact .broke (Or.inr (.without id freshId options now hcall (hasked id _ hcall rfl))) htracker
  | delivered id freshId options now next hcall htracker _ =>
      have hiff := h.sessionId_eq_iff (semanticIdentity next) (hfresh id freshId rfl)
      have hcurrent := s.tracker.sessionId_current (semanticIdentity next) freshId
      have hbreaks : s.Breaks media.identity (.track id freshId) ↔
          semanticIdentity next ≠ media.identity := by
        constructor
        · intro hbreaks
          cases hbreaks with
          | other _ _ _ _ other hother hdiffers =>
              rw [hcall] at hother
              simp only [Option.some.injEq, CaptureCall.mk.injEq, CaptureStage.sanitized.injEq]
                at hother
              obtain ⟨-, -, rfl⟩ := hother
              exact hdiffers
          | without _ _ _ _ hnone _ => simp [hcall] at hnone
        · exact .other id freshId options now next hcall
      rw [Remembers, htracker, hcurrent, hbreaks]
      by_cases hgoes : semanticIdentity next = media.identity ∧ ¬ broken
      · refine Or.inl ⟨?_, ?_⟩
        · simp [hgoes]
        · rw [hiff.mpr hgoes, hgoes.1]
      · refine Or.inr ⟨?_, ?_⟩
        · tauto
        · intro identity id' hremembered
          obtain ⟨-, rfl⟩ := Prod.mk.inj (Option.some.inj hremembered)
          exact fun hsame => hgoes (hiff.mp hsame)

theorem deliversAt_of_exec {es : List CaptureEvent} {n id : Nat} {freshId : String}
    {options : CaptureOptions} {now : Int} {media : SanitizedMediaPresence}
    (hevent : es[n]? = some (.track id freshId))
    (hcall : (exec (step u) new (es.take (n + 1))).bind (fun s => s.calls id) =
      some ⟨options, .traced now (some media)⟩) : DeliversAt u es n id media := by
  obtain ⟨s', hs', hcall⟩ := Option.bind_eq_some_iff.mp hcall
  obtain ⟨s, hat⟩ := stepAt_of_take_succ hs' hevent
  exact ⟨s, freshId, s', options, now, hat, hcall⟩

theorem DeliversAt.tracked {es : List CaptureEvent} {n id : Nat} {media : SanitizedMediaPresence}
    (h : DeliversAt u es n id media) : ∃ s freshId s' next,
      StepAt (step u) new es n s (.track id freshId) s' ∧
      s'.tracker = (s.tracker.sessionId (semanticIdentity next) freshId).2 ∧
      media = withSession next (s.tracker.sessionId (semanticIdentity next) freshId).1 := by
  obtain ⟨s, freshId, s', options, now, hat, hcall⟩ := h
  refine ⟨s, freshId, s', ?_⟩
  cases step_tracker hat.step with
  | kept _ _ hother => exact absurd rfl (hother.2 id freshId)
  | without _ _ _ _ _ _ hcalls => simp [hcalls] at hcall
  | delivered _ _ _ _ next _ htracker hcalls =>
      rw [hcalls, Function.update_self] at hcall
      simp only [Option.some.injEq, CaptureCall.mk.injEq, CaptureStage.traced.injEq] at hcall
      exact ⟨next, hat, htracker, hcall.2.2.symm⟩

theorem DeliversAt.remembers {es : List CaptureEvent} {m id : Nat} {media : SanitizedMediaPresence}
    (h : DeliversAt u es m id media) {s : CaptureTasks}
    (hs : exec (step u) new (es.take (m + 1)) = some s) :
    s.tracker.current = some (media.identity, media.sessionId) := by
  obtain ⟨t, freshId, t', next, hat, htracker, rfl⟩ := h.tracked
  obtain rfl := Option.some.inj (hat.after.symm.trans hs)
  rw [htracker]
  exact t.tracker.sessionId_current (semanticIdentity next) freshId

theorem DeliversAt.minted {es : List CaptureEvent} {m id : Nat} {media : SanitizedMediaPresence}
    (h : DeliversAt u es m id media) :
    media.sessionId ∈ (es.take (m + 1)).filterMap CaptureEvent.freshId := by
  obtain ⟨s, freshId, s', next, hat, _⟩ := h.tracked
  exact current_minted hat.after _ _ (h.remembers hat.after)

/-- From one delivery on, every tracker of the run remembers it or lost it for good. -/
theorem remembers_since {es : List CaptureEvent} (hfresh : FreshIds es) {m n id : Nat}
    {media : SanitizedMediaPresence} (h : DeliversAt u es m id media) (hle : m + 1 ≤ n)
    {s : CaptureTasks} (hs : exec (step u) new (es.take n) = some s) (hn : n ≤ es.length) :
    Remembers media (BrokenBetween u es m n media.identity) s.tracker := by
  have hminted := h.minted
  induction n, hle using Nat.le_induction generalizing s with
  | base =>
      refine Or.inl ⟨?_, h.remembers hs⟩
      rintro ⟨k, _, _, _, hmk, hkn, _⟩
      omega
  | succ n hle ih =>
      obtain ⟨t, hat⟩ := stepAt_of_take_succ hs (List.getElem?_eq_getElem hn)
      have hbefore := ih hat.before (Nat.le_of_succ_le hn)
      have hafter := hbefore.step hat.step ?_ (asked_of_media hat.before)
      · rw [Remembers, brokenBetween_succ hat hle]
        exact hafter
      · intro id freshId he
        exact ne_of_fresh hfresh hminted hle (he ▸ hat.event)

theorem sessionId_eq_iff {es : List CaptureEvent} (hfresh : FreshIds es) {m n i j : Nat}
    {first second : SanitizedMediaPresence} (hfirst : DeliversAt u es m i first)
    (hsecond : DeliversAt u es n j second) (hlt : m < n) :
    first.sessionId = second.sessionId ↔
      first.identity = second.identity ∧ ¬ BrokenBetween u es m n first.identity := by
  obtain ⟨s, freshId, s', next, hat, _, rfl⟩ := hsecond.tracked
  have hremembers := remembers_since hfresh hfirst hlt hat.before (Nat.le_of_lt hat.lt_length)
  have hiff := hremembers.sessionId_eq_iff (semanticIdentity next)
    (ne_of_fresh hfresh hfirst.minted hlt hat.event)
  exact eq_comm.trans (hiff.trans (and_congr_left' eq_comm))

theorem delivered_of_media {es : List CaptureEvent} {s : CaptureTasks}
    (h : exec (step u) new es = some s) : ∀ id call media, s.calls id = some call →
      call.stage.media = some media → ∃ n, DeliversAt u es n id media := by
  refine exec_induction (P := fun es s => ∀ id call media, s.calls id = some call →
    call.stage.media = some media → ∃ n, DeliversAt u es n id media) ?_ ?_ h
  · intro id call media hcall
    contradiction
  · intro es s e s' hs ih hstep id call media hcall hmedia
    have hlonger {stage : CaptureStage} (hbefore : s.calls id = some ⟨call.options, stage⟩)
        (hmedia : stage.media = some media) : ∃ n, DeliversAt u (es ++ [e]) n id media := by
      obtain ⟨n, t, freshId, t', options, now, hat, hdelivered⟩ := ih id _ media hbefore hmedia
      exact ⟨n, t, freshId, t', options, now, hat.append_right [e], hdelivered⟩
    obtain ⟨options, stage⟩ := call
    cases step_call hstep hcall with
    | kept hbefore => exact hlonger hbefore hmedia
    | called _ hstage =>
        simp only at hstage
        subst hstage
        contradiction
    | advanced stage hevent hbefore hadvances =>
        cases hadvances with
        | awaiting => contradiction
        | broken => contradiction
        | untouched => contradiction
        | answered => contradiction
        | without => contradiction
        | delivered call freshId now next =>
            obtain rfl := Option.some.inj hevent
            obtain rfl := Option.some.inj hmedia
            exact ⟨es.length, s, freshId, s', options, now, .last hs hstep, hcall⟩
        | returned => exact hlonger hbefore hmedia

theorem unasked_no_effect {es : List CaptureEvent} {n id : Nat} {s s' : CaptureTasks}
    {e : CaptureEvent} (hat : StepAt (step u) new es n s e s') (hevent : e.capture = some id)
    {call : CaptureCall} (hcall : s.calls id = some call)
    (hunasked : call.options.includeMedia = false) :
    s'.tracker = s.tracker ∧
      ∀ later, s'.calls id = some later → later.stage.media = none := by
  have hstage : call.stage.ofMedia = false := by
    rw [← Bool.not_eq_true]
    intro hmedia
    have hasked := asked_of_media hat.before id call hcall hmedia
    simp [hunasked] at hasked
  obtain ⟨options, stage⟩ := call
  constructor
  · cases step_tracker hat.step with
    | kept _ htracker _ => exact htracker
    | reset => contradiction
    | without i freshId _ now hbefore =>
        obtain rfl := Option.some.inj hevent
        rw [hcall] at hbefore
        obtain ⟨-, rfl⟩ := CaptureCall.mk.inj (Option.some.inj hbefore)
        contradiction
    | delivered i freshId _ now media hbefore =>
        obtain rfl := Option.some.inj hevent
        rw [hcall] at hbefore
        obtain ⟨-, rfl⟩ := CaptureCall.mk.inj (Option.some.inj hbefore)
        contradiction
  · intro later hlater
    have hoptions : later.options = options := by
      cases step_call hat.step hlater with
      | kept hbefore => rw [Option.some.inj (hbefore.symm.trans hcall)]
      | called hnone => simp [hnone] at hevent
      | advanced _ _ hbefore _ =>
          exact (CaptureCall.mk.inj (Option.some.inj (hbefore.symm.trans hcall))).1
    by_contra hmedia
    have hasked := asked_of_media hat.after id later hlater (CaptureStage.ofMedia_of_media hmedia)
    rw [hoptions, hunasked] at hasked
    contradiction

end CaptureTasks

end YohakuCore
