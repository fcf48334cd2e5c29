import YohakuCore.Companion.LoopMoves
import YohakuCore.Privacy.SessionContinuity

/-!
# Sessions and generations

Between the two segments of a loop around its capture a new generation may begin: the capture of the
old one may reach the tracker after the reset.
-/

namespace YohakuCore

open Framework

/-- The coordinator, the captures of its service, and the capture each loop called last. -/
structure LiveCapture where
  coordinator : Coordinator
  captures : CaptureTasks
  captureOf : Nat → Option Nat

/-- The session of a publish, with the generation of its iteration. -/
def PresenceCall.session : PresenceCall → Option (Nat × String)
  | replacePresence gen _ snapshot _ => snapshot.media.map (fun media => (gen, media.sessionId))
  | clearPresence .. => none

/-- The captures of the previews are called from outside the coordinator. -/
inductive LiveCaptureEvent where
  | coordinator (e : CoordinatorEvent)
  | capture (e : CaptureEvent)

def LiveCaptureEvent.freshId : LiveCaptureEvent → Option String
  | coordinator _ => none
  | capture e => e.freshId

namespace LiveCapture

def new : LiveCapture where
  coordinator := .new
  captures := .new
  captureOf _ := none

/-- The snapshot that the capture of a loop returned. -/
def snapshotOf (s : LiveCapture) (loop : Nat) : Option SanitizedPresenceSnapshot :=
  match (s.captureOf loop).bind s.captures.calls with
  | some ⟨_, .returned snapshot⟩ => some snapshot
  | _ => none

/-- A loop goes on with the snapshot its capture returned. -/
def enabled (s : LiveCapture) : CoordinatorEvent → Bool
  | .loopCheck id snapshot => s.snapshotOf id = some snapshot
  | _ => true

/-- The capture that a segment calls, for which loop. -/
def calledBy (e : CoordinatorEvent) (c' : Coordinator) : Option (Nat × CaptureOptions) :=
  match e with
  | .loopThrottled id _ =>
      match c'.loops id with
      | some ⟨_, .capturing _ includeMedia⟩ => some (id, ⟨includeMedia⟩)
      | _ => none
  | _ => none

/-- A new generation resets the continuity in the segment that begins it. -/
def resetFor (s : LiveCapture) (c' : Coordinator) : CaptureTasks :=
  if c'.inner.generation = s.coordinator.inner.generation then s.captures
  else s.captures.resetMediaContinuity

/-- A coordinator segment, with what it does to the captures. -/
def advance (s : LiveCapture) (e : CoordinatorEvent) (c' : Coordinator) : LiveCapture :=
  match calledBy e c' with
  | some (loop, options) => {
      coordinator := c'
      captures := (s.resetFor c').call options
      captureOf := Function.update s.captureOf loop (some (s.resetFor c').next) }
  | none => { s with coordinator := c', captures := s.resetFor c' }

variable (u : UnicodeData)

def step (s : LiveCapture) : LiveCaptureEvent → Option LiveCapture
  | .coordinator e =>
      if s.enabled e then (s.coordinator.step e).map (s.advance e) else none
  | .capture .reset => none
  | .capture e => (s.captures.step u e).map (fun captures => { s with captures := captures })

/-- A publish of the generation carried the session. -/
def Puts (c : Coordinator) (gen : Nat) (sessionId : String) : Prop :=
  (gen, sessionId) ∈ c.calls.filterMap PresenceCall.session

/-- A loop of the current generation awaits a capture that holds the media. -/
def Awaits (s : LiveCapture) (loop : Nat) (media : SanitizedMediaPresence) : Prop :=
  ∃ client includeMedia capture call, s.coordinator.loops loop =
      some ⟨s.coordinator.inner.generation, .capturing client includeMedia⟩ ∧
    s.captureOf loop = some capture ∧ s.captures.calls capture = some call ∧
    call.stage.media = some media

variable {u}

@[simp] theorem advance_coordinator (s : LiveCapture) (e : CoordinatorEvent) (c' : Coordinator) :
    (s.advance e c').coordinator = c' := by
  unfold advance
  split <;> rfl

theorem step_coordinator {s s' : LiveCapture} {e : CoordinatorEvent}
    (h : s.step u (.coordinator e) = some s') : s.enabled e = true ∧
      s.coordinator.step e = some s'.coordinator ∧ s' = s.advance e s'.coordinator := by
  rw [step] at h
  split at h
  · rename_i henabled
    obtain ⟨c', hstep, rfl⟩ := Option.map_eq_some_iff.mp h
    simp [henabled, hstep]
  · contradiction

theorem step_capture {s s' : LiveCapture} {e : CaptureEvent}
    (h : s.step u (.capture e) = some s') : e ≠ .reset ∧
      ∃ captures, s.captures.step u e = some captures ∧ s' = { s with captures := captures } := by
  cases e with
  | reset => contradiction
  | call | gate | answer | track | application =>
      simp only [step, Option.map_eq_some_iff] at h
      obtain ⟨captures, hstep, rfl⟩ := h
      exact ⟨by simp, captures, hstep, rfl⟩

theorem coordinator_inv {es : List LiveCaptureEvent} {s : LiveCapture}
    (h : exec (step u) new es = some s) : s.coordinator.Inv := by
  refine exec_invariant (I := fun s => s.coordinator.Inv) Coordinator.inv_new ?_ h
  intro s e s' hinv hstep
  cases e with
  | coordinator e => exact hinv.step (step_coordinator hstep).2.1
  | capture e =>
      obtain ⟨_, captures, _, rfl⟩ := step_capture hstep
      exact hinv

theorem captures_run {es : List LiveCaptureEvent} {s : LiveCapture}
    (h : exec (step u) new es = some s) : ∃ fs,
      exec (CaptureTasks.step u) .new fs = some s.captures ∧
      fs.filterMap CaptureEvent.freshId = es.filterMap LiveCaptureEvent.freshId := by
  refine exec_induction (P := fun es s => ∃ fs,
    exec (CaptureTasks.step u) .new fs = some s.captures ∧
      fs.filterMap CaptureEvent.freshId = es.filterMap LiveCaptureEvent.freshId) ⟨[], rfl, rfl⟩ ?_ h
  intro es s e s' _ ih hstep
  obtain ⟨fs, hfs, hids⟩ := ih
  cases e with
  | coordinator e =>
      obtain ⟨_, _, hadvance⟩ := step_coordinator hstep
      have hreset : ∃ gs, exec (CaptureTasks.step u) .new (fs ++ gs) =
          some (s.resetFor s'.coordinator) ∧ gs.filterMap CaptureEvent.freshId = [] := by
        unfold resetFor
        split
        · exact ⟨[], by simpa using hfs, rfl⟩
        · exact ⟨[.reset], exec_concat_eq_some.mpr ⟨_, hfs, rfl⟩, rfl⟩
      obtain ⟨gs, hgs, hnone⟩ := hreset
      rw [hadvance, advance]
      cases hcalled : calledBy e s'.coordinator with
      | none =>
          refine ⟨fs ++ gs, hgs, ?_⟩
          rw [List.filterMap_append, List.filterMap_append, hids, hnone]
          rfl
      | some called =>
          refine ⟨fs ++ gs ++ [.call called.2], exec_concat_eq_some.mpr ⟨_, hgs, rfl⟩, ?_⟩
          simp only [List.filterMap_append, hids, hnone, List.append_assoc]
          rfl
  | capture e =>
      obtain ⟨_, captures, hcaptures, rfl⟩ := step_capture hstep
      refine ⟨fs ++ [e], exec_concat_eq_some.mpr ⟨_, hfs, hcaptures⟩, ?_⟩
      rw [List.filterMap_append, List.filterMap_append, hids]
      rfl

theorem not_puts_new (gen : Nat) (sessionId : String) :
    ¬ Puts new.coordinator gen sessionId := by
  simp [Puts, new, Coordinator.new]

theorem puts_of_step {s s' : LiveCapture} {e : CoordinatorEvent}
    (h : s.step u (.coordinator e) = some s') {gen : Nat} {sessionId : String}
    (hputs : Puts s'.coordinator gen sessionId) : Puts s.coordinator gen sessionId ∨
      gen = s.coordinator.inner.generation ∧
        ∃ loop media, s.Awaits loop media ∧ media.sessionId = sessionId := by
  obtain ⟨henabled, hstep, _⟩ := step_coordinator h
  obtain ⟨later, hlater, hcalls⟩ := Coordinator.step_calls hstep
  rw [Puts, hcalls, List.filterMap_append, List.mem_append] at hputs
  rcases hputs with hputs | hputs
  · exact Or.inl hputs
  · cases hlater with
    | none => contradiction
    | sleep => simp [PresenceCall.session] at hputs
    | shutdown => simp [PresenceCall.session] at hputs
    | publish loop snapshot client includeMedia hcapturing =>
        simp only [List.mem_filterMap, List.mem_singleton, exists_eq_left, PresenceCall.session,
          Option.map_eq_some_iff, Prod.mk.injEq] at hputs
        obtain ⟨media, hmedia, rfl, rfl⟩ := hputs
        refine Or.inr ⟨rfl, loop, media, ?_, rfl⟩
        have hreturned : s.snapshotOf loop = some snapshot := by simpa [enabled] using henabled
        rw [snapshotOf] at hreturned
        split at hreturned
        · rename_i options _ hcall
          obtain rfl := Option.some.inj hreturned
          obtain ⟨capture, hcapture, hcall⟩ := Option.bind_eq_some_iff.mp hcall
          exact ⟨client, includeMedia, capture, _, hcapturing, hcapture, hcall, hmedia⟩
        · contradiction

theorem capturing_of_step {c c' : Coordinator} {e : CoordinatorEvent} (h : c.step e = some c')
    {loop gen : Nat} {client : PresenceClient} {includeMedia : Bool}
    (hloop : c'.loops loop = some ⟨gen, .capturing client includeMedia⟩) :
    c.loops loop = some ⟨gen, .capturing client includeMedia⟩ ∨
      gen = c.inner.generation ∧ calledBy e c' = some (loop, ⟨includeMedia⟩) := by
  cases (Coordinator.step_hold h).loops with
  | kept hloops => exact Or.inl (hloops ▸ hloop)
  | spawned id spawned _ hloops =>
      rw [hloops, Function.update_apply] at hloop
      split at hloop
      · simp at hloop
      · exact Or.inl hloop
  | exited id task _ _ hloops =>
      rw [hloops, Function.update_apply] at hloop
      split at hloop
      · contradiction
      · exact Or.inl hloop
  | advanced id pc pc' hbefore hadvances hloops =>
      have hafter := hloop
      rw [hloops, Function.update_apply] at hloop
      split at hloop
      · rename_i hid
        subst hid
        simp only [Option.some.injEq, Spawned.mk.injEq] at hloop
        obtain ⟨rfl, rfl⟩ := hloop
        cases hadvances with
        | capturing now waitMs _ _ => exact Or.inr ⟨rfl, by simp [calledBy, hafter]⟩
      · exact Or.inl hloop

theorem awaits_of_step {s s' : LiveCapture} {e : CoordinatorEvent}
    (h : s.step u (.coordinator e) = some s')
    (hsame : s'.coordinator.inner.generation = s.coordinator.inner.generation) {loop : Nat}
    {media : SanitizedMediaPresence} (hawaits : s'.Awaits loop media) : s.Awaits loop media := by
  obtain ⟨_, hstep, hadvance⟩ := step_coordinator h
  obtain ⟨client, includeMedia, capture, call, hloop, hcapture, hcall, hmedia⟩ := hawaits
  have hbefore := capturing_of_step hstep hloop
  rw [hsame] at hbefore
  rw [hadvance, advance] at hcapture hcall
  simp only [resetFor, hsame, if_true] at hcapture hcall
  cases hcalled : calledBy e s'.coordinator with
  | none =>
      simp only [hcalled] at hbefore hcapture hcall
      have hloop := hbefore.resolve_right (by simp)
      exact ⟨client, includeMedia, capture, call, hloop, hcapture, hcall, hmedia⟩
  | some called =>
      simp only [hcalled, CaptureTasks.call, CaptureTasks.setCall, Function.update_apply]
        at hbefore hcapture hcall
      split at hcall
      · obtain rfl := Option.some.inj hcall
        contradiction
      · rename_i hother
        split at hcapture
        · exact absurd (Option.some.inj hcapture).symm hother
        · rename_i hloop'
          have hloop := hbefore.resolve_right (by
            rintro ⟨_, hcalled⟩
            exact hloop' (congrArg Prod.fst (Option.some.inj hcalled)).symm)
          exact ⟨client, includeMedia, capture, call, hloop, hcapture, hcall, hmedia⟩

theorem tracker_of_step {s s' : LiveCapture} {e : CoordinatorEvent}
    (h : s.step u (.coordinator e) = some s')
    (hsame : s'.coordinator.inner.generation = s.coordinator.inner.generation) :
    s'.captures.tracker = s.captures.tracker := by
  obtain ⟨_, _, hadvance⟩ := step_coordinator h
  rw [hadvance, advance]
  simp only [resetFor, hsame, if_true]
  split <;> rfl

theorem generation_begins {s s' : LiveCapture} {e : CoordinatorEvent} (hinv : s.coordinator.Inv)
    (h : s.step u (.coordinator e) = some s')
    (hnew : s'.coordinator.inner.generation ≠ s.coordinator.inner.generation) :
    s'.captures.tracker.current = none ∧ ∀ loop media, ¬ s'.Awaits loop media := by
  obtain ⟨_, hstep, hadvance⟩ := step_coordinator h
  constructor
  · rw [hadvance, advance]
    simp only [resetFor, hnew, if_false]
    split <;> rfl
  · rintro loop media ⟨client, includeMedia, capture, call, hloop, _⟩
    rcases capturing_of_step hstep hloop with hbefore | ⟨hgen, _⟩
    · have hle := (hinv.loops _ _ hbefore).1
      have hgrows := (Coordinator.step_grows hstep).generation
      simp only at hle
      omega
    · exact hnew hgen

/-- No publish of an older generation carried the session. -/
def OfCurrent (c : Coordinator) (sessionId : String) : Prop :=
  ∀ gen, Puts c gen sessionId → gen = c.inner.generation

structure Unlinked (minted : List String) (s : LiveCapture) : Prop where
  minted : ∀ gen sessionId, Puts s.coordinator gen sessionId → sessionId ∈ minted
  remembered : ∀ identity sessionId, s.captures.tracker.current = some (identity, sessionId) →
    OfCurrent s.coordinator sessionId
  awaited : ∀ loop media, s.Awaits loop media → OfCurrent s.coordinator media.sessionId
  single : ∀ gen gen' sessionId, Puts s.coordinator gen sessionId →
    Puts s.coordinator gen' sessionId → gen = gen'

theorem unlinked_new : Unlinked [] new where
  minted gen sessionId hputs := absurd hputs (not_puts_new gen sessionId)
  remembered _ sessionId _ gen hputs := absurd hputs (not_puts_new gen sessionId)
  awaited _ media _ gen hputs := absurd hputs (not_puts_new gen media.sessionId)
  single gen _ sessionId hputs := absurd hputs (not_puts_new gen sessionId)

theorem Unlinked.capture {minted fresh : List String} {s s' : LiveCapture} {e : CaptureEvent}
    (h : Unlinked minted s) (hstep : s.step u (.capture e) = some s')
    (hids : e.freshId.toList = fresh) (hfresh : ∀ id ∈ fresh, id ∉ minted) :
    Unlinked (minted ++ fresh) s' := by
  obtain ⟨_, captures, hcaptures, rfl⟩ := step_capture hstep
  -- The id of a delivery is the remembered one, or no publish carried it.
  have hdelivered (id : Nat) (freshId : String) (he : e = .track id freshId)
      (identity : MediaSemanticIdentity) :
      OfCurrent s.coordinator (s.captures.tracker.sessionId identity freshId).1 := by
    rcases s.captures.tracker.sessionId_cases identity freshId with hcurrent | ⟨_, hid⟩
    · exact h.remembered identity _ hcurrent
    · intro gen hputs
      rw [hid] at hputs
      have hmem : freshId ∈ fresh := by simp [← hids, he, CaptureEvent.freshId]
      exact absurd (h.minted gen freshId hputs) (hfresh freshId hmem)
  refine ⟨?_, ?_, ?_, h.single⟩
  · intro gen sessionId hputs
    exact List.mem_append_left _ (h.minted gen sessionId hputs)
  · intro identity sessionId hcurrent
    cases CaptureTasks.step_tracker hcaptures with
    | kept _ htracker _ => exact h.remembered identity sessionId (htracker ▸ hcurrent)
    | reset htracker => simp [htracker] at hcurrent
    | without _ _ _ _ _ htracker _ => simp [htracker] at hcurrent
    | delivered id freshId _ _ media _ htracker _ =>
        simp only [htracker, MediaSessionTracker.sessionId_current, Option.some.injEq,
          Prod.mk.injEq] at hcurrent
        obtain ⟨_, rfl⟩ := hcurrent
        exact hdelivered id freshId rfl (semanticIdentity media)
  · rintro loop media ⟨client, includeMedia, capture, call, hloop, hcapture, hcall, hmedia⟩
    have hbefore {stage : CaptureStage}
        (hcall : s.captures.calls capture = some ⟨call.options, stage⟩)
        (hmedia : stage.media = some media) : OfCurrent s.coordinator media.sessionId :=
      h.awaited loop media ⟨client, includeMedia, capture, _, hloop, hcapture, hcall, hmedia⟩
    obtain ⟨options, stage⟩ := call
    cases CaptureTasks.step_call hcaptures hcall with
    | kept hcall => exact hbefore hcall hmedia
    | called _ hstage =>
        simp only at hstage
        subst hstage
        contradiction
    | advanced stage _ hcall hadvances =>
        cases hadvances with
        | awaiting | broken | untouched | answered | without => contradiction
        | delivered id freshId now next =>
            obtain rfl := Option.some.inj hmedia
            exact hdelivered id freshId rfl (semanticIdentity next)
        | returned => exact hbefore hcall hmedia

theorem Unlinked.coordinator {minted : List String} {s s' : LiveCapture} {e : CoordinatorEvent}
    (h : Unlinked minted s) (hinv : s.coordinator.Inv)
    (hheld : ∀ loop media, s.Awaits loop media → media.sessionId ∈ minted)
    (hstep : s.step u (.coordinator e) = some s') : Unlinked minted s' := by
  -- A publish of this step is of the current generation, and so are all that carried its session.
  have hputs (gen : Nat) (sessionId : String) (hputs : Puts s'.coordinator gen sessionId) :
      sessionId ∈ minted ∧
        (OfCurrent s.coordinator sessionId → gen = s.coordinator.inner.generation) ∧
        (Puts s.coordinator gen sessionId ∨ OfCurrent s.coordinator sessionId) := by
    rcases puts_of_step hstep hputs with hbefore | ⟨rfl, loop, media, hawaits, rfl⟩
    · exact ⟨h.minted gen sessionId hbefore, fun hcurrent => hcurrent gen hbefore, Or.inl hbefore⟩
    · exact ⟨hheld loop media hawaits, fun _ => rfl, Or.inr (h.awaited loop media hawaits)⟩
  refine ⟨fun gen sessionId hput => (hputs gen sessionId hput).1, ?_, ?_, ?_⟩
  · intro identity sessionId hcurrent gen hput
    by_cases hsame : s'.coordinator.inner.generation = s.coordinator.inner.generation
    · rw [hsame]
      rw [tracker_of_step hstep hsame] at hcurrent
      exact (hputs gen sessionId hput).2.1 (h.remembered identity sessionId hcurrent)
    · simp [(generation_begins hinv hstep hsame).1] at hcurrent
  · intro loop media hawaits gen hput
    by_cases hsame : s'.coordinator.inner.generation = s.coordinator.inner.generation
    · rw [hsame]
      exact (hputs gen _ hput).2.1 (h.awaited loop media (awaits_of_step hstep hsame hawaits))
    · exact absurd hawaits ((generation_begins hinv hstep hsame).2 loop media)
  · intro gen gen' sessionId hput hput'
    have hgens (hcurrent : OfCurrent s.coordinator sessionId) : gen = gen' :=
      ((hputs gen sessionId hput).2.1 hcurrent).trans
        ((hputs gen' sessionId hput').2.1 hcurrent).symm
    rcases (hputs gen sessionId hput).2.2 with hbefore | hcurrent
    · rcases (hputs gen' sessionId hput').2.2 with hbefore' | hcurrent
      · exact h.single gen gen' sessionId hbefore hbefore'
      · exact hgens hcurrent
    · exact hgens hcurrent

/-- The media that a loop awaits has a session that was minted. -/
theorem awaited_minted {es : List LiveCaptureEvent} {s : LiveCapture}
    (h : exec (step u) new es = some s) {loop : Nat} {media : SanitizedMediaPresence}
    (hawaits : s.Awaits loop media) :
    media.sessionId ∈ es.filterMap LiveCaptureEvent.freshId := by
  obtain ⟨client, includeMedia, capture, call, _, _, hcall, hmedia⟩ := hawaits
  obtain ⟨fs, hfs, hids⟩ := captures_run h
  obtain ⟨n, hdelivers⟩ := CaptureTasks.delivered_of_media hfs capture call media hcall hmedia
  rw [← hids]
  exact ((List.take_sublist (n + 1) fs).filterMap CaptureEvent.freshId).subset hdelivers.minted

theorem unlinked_run {es : List LiveCaptureEvent}
    (hfresh : (es.filterMap LiveCaptureEvent.freshId).Nodup) {s : LiveCapture}
    (h : exec (step u) new es = some s) :
    Unlinked (es.filterMap LiveCaptureEvent.freshId) s := by
  have hrun : (es.filterMap LiveCaptureEvent.freshId).Nodup →
      Unlinked (es.filterMap LiveCaptureEvent.freshId) s := by
    refine exec_induction (P := fun es s => (es.filterMap LiveCaptureEvent.freshId).Nodup →
      Unlinked (es.filterMap LiveCaptureEvent.freshId) s) (fun _ => unlinked_new) ?_ h
    intro es s e s' hs ih hstep hfresh
    rw [List.filterMap_append] at hfresh ⊢
    obtain ⟨hnodup, _, hdisjoint⟩ := List.nodup_append.mp hfresh
    cases e with
    | coordinator e =>
        have hnext := (ih hnodup).coordinator (coordinator_inv hs)
          (fun _ _ hawaits => awaited_minted hs hawaits) hstep
        rwa [List.filterMap_cons_none (rfl : LiveCaptureEvent.freshId (.coordinator e) = none),
          List.filterMap_nil, List.append_nil]
    | capture e =>
        refine (ih hnodup).capture hstep ?_ ?_
        · cases hid : e.freshId <;> simp [LiveCaptureEvent.freshId, hid]
        · intro id hid hminted
          exact hdisjoint id hminted id hid rfl
  exact hrun hfresh

end LiveCapture

/-- Session ids mark exactly the continuous sessions. Two deliveries carry one id when they are of
one sanitized identity and nothing between their tracker segments broke it; what a capture returns
was delivered to it; a capture that was not asked for media has no effect; and publishes of two
generations never carry one id. -/
theorem media_sessions_continuous (u : UnicodeData) :
    (∀ es, FreshIds es → ∀ m n i j first second,
      CaptureTasks.DeliversAt u es m i first → CaptureTasks.DeliversAt u es n j second → m < n →
      (first.sessionId = second.sessionId ↔ first.identity = second.identity ∧
        ¬ CaptureTasks.BrokenBetween u es m n first.identity)) ∧
    (∀ es s, exec (CaptureTasks.step u) .new es = some s → ∀ id call media,
      s.calls id = some call → call.stage.media = some media →
      ∃ n, CaptureTasks.DeliversAt u es n id media) ∧
    (∀ es n s e s', StepAt (CaptureTasks.step u) .new es n s e s' → ∀ id call,
      e.capture = some id → s.calls id = some call → call.options.includeMedia = false →
      s'.tracker = s.tracker ∧ ∀ later, s'.calls id = some later → later.stage.media = none) ∧
    (∀ es, (es.filterMap LiveCaptureEvent.freshId).Nodup → ∀ s,
      exec (LiveCapture.step u) .new es = some s → ∀ gen gen' sessionId,
      LiveCapture.Puts s.coordinator gen sessionId →
      LiveCapture.Puts s.coordinator gen' sessionId → gen = gen') := by
  refine ⟨?_, ?_, ?_, ?_⟩
  · intro es hfresh m n i j first second hfirst hsecond hlt
    exact CaptureTasks.sessionId_eq_iff hfresh hfirst hsecond hlt
  · intro es s h
    exact CaptureTasks.delivered_of_media h
  · intro es n s e s' hat id call hevent hcall hunasked
    exact CaptureTasks.unasked_no_effect hat hevent hcall hunasked
  · intro es hfresh s h gen gen' sessionId hputs hputs'
    exact (LiveCapture.unlinked_run hfresh h).single gen gen' sessionId hputs hputs'

def song : MediaSnapshot where
  appId := some "player"
  sourceAppUserModelId := none
  playerDisplayName := some "Player"
  kind := .music
  title := some "Song"
  artist := none
  album := none
  playing := true
  durationSeconds := none
  positionSeconds := none
  sampledAt := 0

/-- The segments of a capture of the song. -/
def songCaptured (id : Nat) (freshId : String) : List CaptureEvent :=
  [.gate id 0 true defaultPrivacyConfig, .answer id defaultPrivacyConfig (.answered (some song)),
    .track id freshId, .application id defaultPrivacyConfig none]

def songMedia (sessionId : String) : SanitizedMediaPresence where
  sessionId := sessionId
  kind := .music
  title := some "Song"
  artist := none
  album := none
  playerDisplayName := some "Player"
  playback := {
    state := .playing
    durationSeconds := none
    positionSeconds := none
    sampledAt := 0
    rate := 1 }

/-- A loop and its capture, up to the publish. -/
def songPublished (loop id : Nat) (freshId : String) : List LiveCaptureEvent :=
  [.coordinator (.loopHead loop 0), .coordinator (.loopThrottled loop 0)] ++
    (songCaptured id freshId).map .capture ++
    [.coordinator (.loopCheck loop {
      observedAt := 0, application := none, media := some (songMedia freshId) })]

/-- Two generations publish the song. -/
def songTwice : List LiveCaptureEvent :=
  (.start :: Coordinator.configuredBy 0).map .coordinator ++ songPublished 2 0 "first" ++
    [.coordinator .start, .coordinator (.loopPublished 2 (.ok { acceptedSequence := 1 }))] ++
    (Coordinator.configuredBy 3).map .coordinator ++ songPublished 5 1 "second"

/-- Two captures of the song in one session. -/
def songInTurn : List CaptureEvent :=
  .call ⟨true⟩ :: songCaptured 0 "first" ++ .call ⟨true⟩ :: songCaptured 1 "unused"

theorem media_sessions_continuous_song :
    CaptureTasks.DeliversAt .ascii songInTurn 3 0 (songMedia "first") ∧
    CaptureTasks.DeliversAt .ascii songInTurn 8 1 (songMedia "first") ∧
    ¬ CaptureTasks.BrokenBetween .ascii songInTurn 3 8 (songMedia "first").identity ∧
    ∃ s, exec (LiveCapture.step .ascii) .new songTwice = some s ∧
      LiveCapture.Puts s.coordinator 1 "first" ∧ LiveCapture.Puts s.coordinator 2 "second" ∧
      ∀ gen, LiveCapture.Puts s.coordinator gen "first" → gen = 1 := by
  obtain ⟨hsessions, -, -, hpublishes⟩ := media_sessions_continuous .ascii
  have hfirst : CaptureTasks.DeliversAt .ascii songInTurn 3 0 (songMedia "first") := by
    have hcall : (exec (CaptureTasks.step .ascii) .new (songInTurn.take 4)).bind
        (fun s => s.calls 0) = some ⟨⟨true⟩, .traced 0 (some (songMedia "first"))⟩ := by
      decide +kernel
    exact CaptureTasks.deliversAt_of_exec rfl hcall
  have hsecond : CaptureTasks.DeliversAt .ascii songInTurn 8 1 (songMedia "first") := by
    have hcall : (exec (CaptureTasks.step .ascii) .new (songInTurn.take 9)).bind
        (fun s => s.calls 1) = some ⟨⟨true⟩, .traced 0 (some (songMedia "first"))⟩ := by
      decide +kernel
    exact CaptureTasks.deliversAt_of_exec rfl hcall
  have hfresh : FreshIds songInTurn := by
    unfold FreshIds
    decide +kernel
  have hiff := hsessions songInTurn hfresh 3 8 0 1 _ _ hfirst hsecond (by decide)
  obtain ⟨s, hs, hcalls⟩ : ∃ s, exec (LiveCapture.step .ascii) .new songTwice = some s ∧
      s.coordinator.calls.filterMap PresenceCall.session = [(1, "first"), (2, "second")] :=
    Option.map_eq_some_iff.mp (by decide +kernel)
  have hputs : LiveCapture.Puts s.coordinator 1 "first" := by simp [LiveCapture.Puts, hcalls]
  refine ⟨hfirst, hsecond, (hiff.mp rfl).2, s, hs, hputs, ?_, ?_⟩
  · simp [LiveCapture.Puts, hcalls]
  · intro gen hgen
    exact hpublishes songTwice (by decide +kernel) s hs gen 1 "first" hgen hputs

end YohakuCore
