import YohakuCore.Capture.ForegroundChanges
import YohakuCore.Capture.NameResolvers
import YohakuCore.Framework.RecentList

/-! # Recent programs -/

namespace YohakuCore

open Framework

variable (u : UnicodeData) (toUppercase : Char → String)

def recentAppIdsMax : Nat := 10

/-- The watcher, and the list. `heard` is what the listener was called with; no code reads it. -/
structure RecentApps where
  watcher : ForegroundWatcher := {}
  recentAppIds : List String := []
  heard : List (Option ForegroundInfo) := []

/-- What the listener does to the list, under its lock. -/
def rememberApp (recentAppIds : List String) : Option ForegroundInfo → List String
  | some info => pushRecent recentAppIdsMax recentAppIds info.appId
  | none => recentAppIds

/-- What a step calls the listener with. -/
def heardBy (listener : Nat) (w : ForegroundWatcher) : WatcherEvent → Option (Option ForegroundInfo)
  | .call d =>
      match w.debounces[d]? with
      | some ⟨delivery, .calling (first :: _)⟩ =>
          if first = listener then some delivery.info else none
      | _ => none
  | _ => none

def RecentApps.step (listener : Nat) (s : RecentApps) (e : WatcherEvent) : Option RecentApps :=
  (s.watcher.step u toUppercase e).map fun watcher =>
    match heardBy listener s.watcher e with
    | some info =>
        { watcher, recentAppIds := rememberApp s.recentAppIds info, heard := s.heard ++ [info] }
    | none => { s with watcher }

/-- A thread has sampled a window of the program with this id. -/
def SampledApp (events : List WatcherEvent) (appId : String) : Prop :=
  ∃ who cacheKey windowTitle exePath,
    .sample who (.sample cacheKey (some ⟨windowTitle, some exePath⟩)) ∈ events ∧
      appId = u.toLowercase (winBasename exePath)

def PollPlace.info : PollPlace → Option ForegroundInfo
  | .entering => none
  | .current place => place.fresh
  | .informed info => info
  | .leaving delivery => delivery.bind (·.info)

/-- Whatever information the watcher holds has the property. -/
structure ForegroundWatcher.Holds (P : ForegroundInfo → Prop) (w : ForegroundWatcher) : Prop where
  last : ∀ info, w.watch.lastInfo = some info → P info
  places : ∀ who place, w.pollPlace who = some place → ∀ info, place.info = some info → P info
  captures : ∀ (c : Nat) (place : CurrentPlace), w.captures[c]? = some (some place) →
    ∀ info, place.fresh = some info → P info
  threads : ∀ (d : Nat) (thread : DebounceThread), w.debounces[d]? = some thread →
    ∀ info, thread.delivery.info = some info → P info

variable {u toUppercase}

theorem heardBy_eq_some {listener : Nat} {w : ForegroundWatcher} {e : WatcherEvent}
    {info : Option ForegroundInfo} : heardBy listener w e = some info ↔
      ∃ delivery, CallsWith listener delivery w e ∧ delivery.info = info := by
  constructor
  · intro h
    unfold heardBy at h
    split at h
    · rename_i d
      split at h
      · rename_i delivery first rest hget
        split at h
        · rename_i hfirst
          subst hfirst
          exact ⟨delivery, ⟨d, rest, rfl, hget⟩, Option.some.inj h⟩
        · contradiction
      · contradiction
    · contradiction
  · rintro ⟨delivery, ⟨d, rest, rfl, hget⟩, rfl⟩
    simp [heardBy, hget]

theorem appId_of_sample {cacheKey cache : String → Option String} {raw : Option RawForegroundSample}
    {place : CurrentPlace} (h : sampleForeground u toUppercase cacheKey cache raw = some place)
    {info : ForegroundInfo} (hfresh : place.fresh = some info) :
    ∃ windowTitle exePath, raw = some ⟨windowTitle, some exePath⟩ ∧
      info.appId = u.toLowercase (winBasename exePath) := by
  unfold sampleForeground at h
  split at h
  · rename_i windowTitle exePath
    refine ⟨windowTitle, exePath, rfl, ?_⟩
    dsimp only at h
    split at h
    · obtain rfl := Option.some.inj h
      contradiction
    · obtain ⟨fallback, -, h⟩ := Option.bind_eq_some_iff.mp h
      split at h
      · obtain rfl := Option.some.inj h
        exact congrArg ForegroundInfo.appId (Option.some.inj hfresh).symm
      · split at h
        · obtain rfl := Option.some.inj h
          exact congrArg ForegroundInfo.appId (Option.some.inj hfresh).symm
        · obtain rfl := Option.some.inj h
          exact congrArg ForegroundInfo.appId (Option.some.inj hfresh).symm
  · obtain rfl := Option.some.inj h
    contradiction

namespace ForegroundWatcher

variable {P : ForegroundInfo → Prop}

theorem Holds.currentStep {w w₁ : ForegroundWatcher} (h : w.Holds P) {place : CurrentPlace}
    {step : SampleStep} {outcome : BodyOutcome (Option ForegroundInfo) CurrentPlace}
    (hcurrent : w.currentStep u toUppercase place step = some (w₁, outcome))
    (hfresh : ∀ info, place.fresh = some info → P info)
    (hsample : ∀ cacheKey raw, step = .sample cacheKey raw → ∀ cache place,
      sampleForeground u toUppercase cacheKey cache raw = some place →
        ∀ info, place.fresh = some info → P info) :
    w₁.Holds P ∧ (∀ place', outcome = .goesOn place' → ∀ info, place'.fresh = some info → P info) ∧
      ∀ result, outcome = .ends result → ∀ info, result = some info → P info := by
  cases place <;> cases step <;> simp only [ForegroundWatcher.currentStep, Option.some.injEq,
    Prod.mk.injEq, reduceCtorEq] at hcurrent
  · rename_i cacheKey raw
    obtain ⟨rfl, rfl⟩ := hcurrent
    refine ⟨h, ?_, ?_⟩
    · intro place' hplace
      cases hplaced : sampleForeground u toUppercase cacheKey w.cache raw with
      | none => simp [hplaced] at hplace
      | some place =>
          obtain rfl : place = place' := by simpa [hplaced] using hplace
          exact hsample cacheKey raw rfl w.cache place hplaced
    · intro result hresult
      cases hplaced : sampleForeground u toUppercase cacheKey w.cache raw <;>
        simp [hplaced] at hresult
  · rename_i fresh key fallback
    obtain ⟨rfl, rfl⟩ := hcurrent
    have hclaim : (w.claim key fallback).watch = w.watch ∧
        (w.claim key fallback).captures = w.captures ∧
        (w.claim key fallback).debounces = w.debounces := by
      unfold claim
      split <;> exact ⟨rfl, rfl, rfl⟩
    obtain ⟨hwatch, hcaptures, hdebounces⟩ := hclaim
    refine ⟨⟨?_, ?_, ?_, ?_⟩, ?_, by simp⟩
    · rw [hwatch]
      exact h.last
    · intro who place hplace
      rw [pollPlace_claim] at hplace
      exact h.places who place hplace
    · rw [hcaptures]
      exact h.captures
    · rw [hdebounces]
      exact h.threads
    · intro place' hplace
      obtain rfl := BodyOutcome.goesOn.inj hplace
      exact hfresh
  · rename_i fresh
    obtain ⟨rfl, rfl⟩ := hcurrent
    cases fresh with
    | none =>
        refine ⟨⟨h.last, ?_, h.captures, h.threads⟩, by simp, ?_⟩
        · intro who place hplace
          exact h.places who place (pollPlace_congr rfl (Or.inl rfl) who ▸ hplace)
        · intro result hresult
          obtain rfl := BodyOutcome.ends.inj hresult
          exact h.last
    | some info =>
        have hinfo : P info := hfresh info rfl
        refine ⟨⟨?_, ?_, h.captures, h.threads⟩, by simp, ?_⟩
        · intro info' hlast
          obtain rfl := Option.some.inj hlast
          exact hinfo
        · intro who place hplace
          exact h.places who place (pollPlace_congr rfl (Or.inl rfl) who ▸ hplace)
        · intro result hresult info' hsome
          obtain rfl := BodyOutcome.ends.inj hresult
          obtain rfl := Option.some.inj hsome
          exact hinfo

theorem Holds.pollStep {w w₁ : ForegroundWatcher} (h : w.Holds P) {who : Sampler}
    {place : PollPlace} {step : SampleStep} {outcome : BodyOutcome Unit PollPlace}
    (hplace : w.pollPlace who = some place)
    (hpoll : w.pollStep u toUppercase who place step = some (w₁, outcome))
    (hsample : ∀ cacheKey raw, step = .sample cacheKey raw → ∀ cache place,
      sampleForeground u toUppercase cacheKey cache raw = some place →
        ∀ info, place.fresh = some info → P info) :
    w₁.Holds P ∧ ∀ place', outcome = .goesOn place' → ∀ info, place'.info = some info → P info := by
  have hinfo := h.places who place hplace
  cases place with
  | entering =>
      cases step <;> simp only [ForegroundWatcher.pollStep, Option.ite_none_right_eq_some,
        Option.some.injEq, Prod.mk.injEq, reduceCtorEq] at hpoll
      obtain ⟨-, rfl, rfl⟩ := hpoll
      refine ⟨⟨h.last, ?_, h.captures, h.threads⟩, ?_⟩
      · intro other place hother
        exact h.places other place (pollPlace_congr rfl (Or.inl rfl) other ▸ hother)
      · intro place' hgoes
        obtain rfl := BodyOutcome.goesOn.inj hgoes
        simp [PollPlace.info, CurrentPlace.fresh]
  | current place =>
      obtain ⟨⟨w₂, outcome₂⟩, hcurrent, hw⟩ := Option.map_eq_some_iff.mp hpoll
      obtain ⟨hholds, hgoes, hends⟩ := h.currentStep hcurrent hinfo hsample
      cases outcome₂ with
      | goesOn place' =>
          obtain ⟨rfl, rfl⟩ := Prod.mk.inj hw
          refine ⟨hholds, ?_⟩
          intro place'' hplace''
          obtain rfl := BodyOutcome.goesOn.inj hplace''
          exact hgoes place' rfl
      | ends result =>
          obtain ⟨rfl, rfl⟩ := Prod.mk.inj hw
          refine ⟨hholds, ?_⟩
          intro place'' hplace''
          obtain rfl := BodyOutcome.goesOn.inj hplace''
          exact hends result rfl
      | panics =>
          obtain ⟨rfl, rfl⟩ := Prod.mk.inj hw
          refine ⟨⟨hholds.last, ?_, hholds.captures, hholds.threads⟩, by simp⟩
          intro other place hother
          exact hholds.places other place (pollPlace_congr rfl (Or.inl rfl) other ▸ hother)
  | informed info =>
      cases step <;> simp only [ForegroundWatcher.pollStep, Option.some.injEq, Prod.mk.injEq,
        reduceCtorEq] at hpoll
      obtain ⟨rfl, rfl⟩ := hpoll
      refine ⟨⟨?_, ?_, h.captures, h.threads⟩, ?_⟩
      · have hlast :
            (w.watch.registerChangeKey (changeKey info)).1.lastInfo = w.watch.lastInfo := by
          rw [WatchState.registerChangeKey]
          split <;> rfl
        rw [hlast]
        exact h.last
      · intro other place hother
        exact h.places other place (pollPlace_congr rfl (Or.inl rfl) other ▸ hother)
      · intro place' hgoes
        obtain rfl := BodyOutcome.goesOn.inj hgoes
        intro info' hsome
        refine hinfo info' ?_
        simp only [PollPlace.info] at hsome ⊢
        split at hsome
        · exact hsome
        · contradiction
  | leaving delivery =>
      cases step <;> simp only [ForegroundWatcher.pollStep, Option.some.injEq, Prod.mk.injEq,
        reduceCtorEq] at hpoll
      obtain ⟨rfl, rfl⟩ := hpoll
      refine ⟨⟨h.last, ?_, h.captures, ?_⟩, by simp⟩
      · intro other place hother
        exact h.places other place (pollPlace_congr rfl (Or.inl rfl) other ▸ hother)
      · intro d thread hget info hsome
        rcases List.mem_append.mp (List.mem_of_getElem? hget) with hold | hnew
        · obtain ⟨d', hget'⟩ := List.mem_iff_getElem?.mp hold
          exact h.threads d' thread hget' info hsome
        · cases delivery with
          | none => simp at hnew
          | some delivery =>
              obtain rfl : thread = ⟨delivery, .sleeping⟩ := by simpa using hnew
              exact hinfo info hsome

theorem Holds.of_kept {w w' : ForegroundWatcher} (h : w.Holds P)
    (hlast : w'.watch.lastInfo = w.watch.lastInfo)
    (hplaces : ∀ who place, place ≠ .entering → w'.pollPlace who = some place →
      w.pollPlace who = some place)
    (hcaptures : ∀ (c : Nat) (place : CurrentPlace), w'.captures[c]? = some (some place) →
      place = .sampling ∨ w.captures[c]? = some (some place))
    (hdebounces : ∀ (d : Nat) (thread' : DebounceThread), w'.debounces[d]? = some thread' →
      ∃ thread, w.debounces[d]? = some thread ∧ thread.delivery = thread'.delivery) :
    w'.Holds P where
  last := hlast ▸ h.last
  places who place hplace := by
    by_cases hentering : place = .entering
    · simp [hentering, PollPlace.info]
    · exact h.places who place (hplaces who place hentering hplace)
  captures c place hcapture := by
    rcases hcaptures c place hcapture with rfl | hold
    · simp [CurrentPlace.fresh]
    · exact h.captures c place hold
  threads d thread' hget := by
    obtain ⟨thread, hold, hdelivery⟩ := hdebounces d thread' hget
    exact hdelivery ▸ h.threads d thread hold

theorem Holds.moveDebounce {w : ForegroundWatcher} (h : w.Holds P) (d : Nat)
    (place : DebouncePlace) : (w.moveDebounce d place).Holds P := by
  refine h.of_kept rfl ?_ (fun _ _ hcapture => Or.inr hcapture) ?_
  · intro who place _ hplace
    exact pollPlace_congr rfl (Or.inl rfl) who ▸ hplace
  · intro d' thread' hget
    rw [ForegroundWatcher.moveDebounce, List.getElem?_modify] at hget
    obtain ⟨thread, hold, rfl⟩ := Option.map_eq_some_iff.mp hget
    refine ⟨thread, hold, ?_⟩
    split <;> rfl

theorem Holds.moveTo {w : ForegroundWatcher} (h : w.Holds P) {who : Sampler} {place : PollPlace}
    (hplace : w.pollPlace who = some place) {outcome : BodyOutcome Unit PollPlace}
    (hgoes : ∀ place', outcome = .goesOn place' → ∀ info, place'.info = some info → P info) :
    (w.moveTo who outcome).Holds P := by
  have hcaptures : (w.moveTo who outcome).captures = w.captures := by
    cases who <;> cases outcome <;> rfl
  obtain ⟨hwatch, hdebounces⟩ := watch_moveTo w who outcome
  refine ⟨hwatch ▸ h.last, ?_, hcaptures ▸ h.captures, hdebounces ▸ h.threads⟩
  intro other place' hother
  by_cases hwho : who = other
  · subst hwho
    rw [pollPlace_moveTo_self hplace] at hother
    cases outcome with
    | goesOn place'' =>
        obtain rfl := Option.some.inj hother
        exact hgoes place'' rfl
    | ends data | panics => contradiction
  · rw [pollPlace_moveTo_of_ne hwho] at hother
    exact h.places other place' hother

theorem Holds.sampleStep {w w' : ForegroundWatcher} {who : Sampler} {step : SampleStep}
    (h : w.Holds P) (hstep : w.step u toUppercase (.sample who step) = some w')
    (hsample : ∀ cacheKey raw, step = .sample cacheKey raw → ∀ cache place,
      sampleForeground u toUppercase cacheKey cache raw = some place →
        ∀ info, place.fresh = some info → P info) : w'.Holds P := by
  by_cases hcapture : ∃ c, who = .capture c
  · obtain ⟨c, rfl⟩ := hcapture
    obtain ⟨place, w₁, outcome, hget, hcurrent, place', rfl, hgoes⟩ := sampleStep_capture hstep
    obtain ⟨hholds, hfresh, -⟩ := h.currentStep hcurrent (h.captures c place hget) hsample
    refine ⟨hholds.last, ?_, ?_, hholds.threads⟩
    · intro other place hplace
      exact hholds.places other place (pollPlace_congr rfl (Or.inl rfl) other ▸ hplace)
    · intro c' place hcapture
      rw [List.getElem?_set] at hcapture
      split at hcapture
      · split at hcapture
        · exact hfresh place (hgoes place (Option.some.inj hcapture))
        · contradiction
      · exact hholds.captures c' place hcapture
  · rcases sampleStep_cases hstep with
      ⟨place, w₁, outcome, hplace, hpoll, rfl⟩ | ⟨c, _, _, _, rfl, -⟩
    · obtain ⟨hholds, hgoes⟩ := h.pollStep hplace hpoll hsample
      exact hholds.moveTo (((pollStep_pass hpoll).1 who).trans hplace) hgoes
    · exact absurd ⟨c, rfl⟩ hcapture

theorem Holds.of_pass {w w' : ForegroundWatcher} (h : w.Holds P)
    (hlast : w'.watch.lastInfo = w.watch.lastInfo)
    (hplaces : ∀ who place, place ≠ .entering → w'.pollPlace who = some place →
      w.pollPlace who = some place) (hcaptures : w'.captures = w.captures)
    (hdebounces : w'.debounces = w.debounces) : w'.Holds P :=
  h.of_kept hlast hplaces (fun _ _ hcapture => Or.inr (hcaptures ▸ hcapture))
    (fun _ thread hget => ⟨thread, hdebounces ▸ hget, rfl⟩)

/-- Only a sample brings information that the watcher did not hold. -/
theorem Holds.step {w w' : ForegroundWatcher} {e : WatcherEvent} (h : w.Holds P)
    (hw : w.PassSound) (hstep : w.step u toUppercase e = some w')
    (hsample : ∀ who cacheKey raw, e = .sample who (.sample cacheKey raw) → ∀ cache place,
      sampleForeground u toUppercase cacheKey cache raw = some place →
        ∀ info, place.fresh = some info → P info) : w'.Holds P := by
  have hloops {f : LoopEvent Unit PollPlace} {loops : Loops Unit PollPlace}
      (hf : w.loops.step pollLoop f = some loops) (hwork : ∀ i outcome, f ≠ .work i outcome) :
      ({ w with loops } : ForegroundWatcher).Holds P :=
    h.of_pass rfl (fun _ _ hne hplace => pollPlace_of_loops_step hw hf hwork hne hplace) rfl rfl
  have hplaces {w₁ : ForegroundWatcher} (hsame : w₁.loops = w.loops)
      (hresolvers : w₁.resolvers = w.resolvers) (who : Sampler) (place : PollPlace)
      (hplace : w₁.pollPlace who = some place) : w.pollPlace who = some place :=
    pollPlace_congr hsame (Or.inl hresolvers) who ▸ hplace
  have hresolver {w₁ : ForegroundWatcher} (hsame : w₁.loops = w.loops)
      (hresolvers : w₁.resolvers = w.resolvers) {r : Nat} {place' : ResolverPlace}
      (hnew : ∀ place, place' = .polling place → place = .entering) (who : Sampler)
      (place : PollPlace) (hne : place ≠ .entering)
      (hplace : (w₁.moveResolver r place').pollPlace who = some place) :
      w.pollPlace who = some place :=
    hplaces hsame hresolvers who place
      (pollPlace_of_moveResolver (fun heq => hne (hnew place heq)) hplace)
  cases e with
  | start =>
      obtain rfl := Option.some.inj hstep
      exact hloops (f := .start ()) rfl (by simp)
  | stop =>
      obtain rfl := Option.some.inj hstep
      exact hloops (f := .stop) rfl (by simp)
  | stopJoined k | check i timeout =>
      obtain ⟨loops, hf, rfl⟩ := Option.map_eq_some_iff.mp hstep
      exact hloops hf (by simp)
  | sample who step =>
      refine h.sampleStep hstep ?_
      rintro cacheKey raw rfl
      exact hsample who cacheKey raw rfl
  | stopCleared k | stopReturned k =>
      obtain ⟨-, hstep⟩ := Option.ite_none_right_eq_some.mp hstep
      obtain rfl := Option.some.inj hstep
      exact h.of_pass rfl (fun who place _ => hplaces rfl rfl who place) rfl rfl
  | capture =>
      obtain rfl := Option.some.inj hstep
      refine h.of_kept rfl (fun who place _ => hplaces rfl rfl who place) ?_
        (fun _ thread hget => ⟨thread, hget, rfl⟩)
      intro c place hcapture
      rcases Nat.lt_or_ge c w.captures.length with hlt | hge
      · rw [List.getElem?_append_left hlt] at hcapture
        exact Or.inr hcapture
      · rw [List.getElem?_append_right hge] at hcapture
        have hlast := List.mem_of_getElem? hcapture
        simp only [List.mem_singleton, Option.some.injEq] at hlast
        exact Or.inl hlast
  | onChange | unsubscribe listener =>
      obtain rfl := Option.some.inj hstep
      exact h.of_pass rfl (fun who place _ => hplaces rfl rfl who place) rfl rfl
  | resolved r resolution =>
      simp only [ForegroundWatcher.step, resolve] at hstep
      split at hstep
      · cases resolution with
        | described description =>
            obtain rfl := Option.some.inj hstep
            exact h.of_pass rfl (hresolver rfl rfl (by simp)) rfl rfl
        | undescribed =>
            obtain rfl := Option.some.inj hstep
            exact h.of_pass rfl (hresolver rfl rfl (by simp)) rfl rfl
      · contradiction
  | forget r =>
      simp only [ForegroundWatcher.step] at hstep
      split at hstep
      · obtain rfl := Option.some.inj hstep
        exact h.of_pass rfl (hresolver rfl rfl (by simp)) rfl rfl
      · contradiction
  | wake d =>
      simp only [ForegroundWatcher.step, wake] at hstep
      split at hstep
      · obtain rfl := Option.some.inj hstep
        exact h.moveDebounce d _
      · contradiction
  | snapshot d | call d =>
      simp only [ForegroundWatcher.step] at hstep
      split at hstep
      · obtain rfl := Option.some.inj hstep
        exact h.moveDebounce d _
      · contradiction

theorem holds_new : ({} : ForegroundWatcher).Holds P where
  last := by simp
  places who _ h := by cases who <;> simp [pollPlace, Loops.place] at h
  captures := by simp
  threads := by simp

end ForegroundWatcher

theorem SampledApp.append_right {events : List WatcherEvent} {appId : String}
    (h : SampledApp u events appId) (rest : List WatcherEvent) :
    SampledApp u (events ++ rest) appId := by
  obtain ⟨who, cacheKey, windowTitle, exePath, hmem, happ⟩ := h
  exact ⟨who, cacheKey, windowTitle, exePath, List.mem_append_left _ hmem, happ⟩

theorem sampled_of_run {events : List WatcherEvent} {w : ForegroundWatcher}
    (h : exec (ForegroundWatcher.step u toUppercase) {} events = some w) :
    w.Holds fun info => SampledApp u events info.appId := by
  refine exec_induction (P := fun events w => w.Holds fun info => SampledApp u events info.appId)
    ForegroundWatcher.holds_new ?_ h
  intro events w₁ e w₂ hw₁ ih hstep
  have hlonger : w₁.Holds fun info => SampledApp u (events ++ [e]) info.appId :=
    ⟨fun info hinfo => (ih.last info hinfo).append_right [e],
      fun who place hplace info hinfo => (ih.places who place hplace info hinfo).append_right [e],
      fun c place hplace info hinfo => (ih.captures c place hplace info hinfo).append_right [e],
      fun d thread hget info hinfo => (ih.threads d thread hget info hinfo).append_right [e]⟩
  refine hlonger.step (ForegroundWatcher.sound_of_run hw₁).1 hstep ?_
  rintro who cacheKey raw rfl cache place hplaced info hfresh
  obtain ⟨windowTitle, exePath, rfl, happ⟩ := appId_of_sample hplaced hfresh
  exact ⟨who, cacheKey, windowTitle, exePath, by simp, happ⟩

theorem recentApps_step {listener : Nat} {s s' : RecentApps} {e : WatcherEvent}
    (h : s.step u toUppercase listener e = some s') :
    s.watcher.step u toUppercase e = some s'.watcher ∧
      (heardBy listener s.watcher e = none ∧ s'.recentAppIds = s.recentAppIds ∧
          s'.heard = s.heard ∨
        ∃ info, heardBy listener s.watcher e = some info ∧
          s'.recentAppIds = rememberApp s.recentAppIds info ∧ s'.heard = s.heard ++ [info]) := by
  obtain ⟨watcher, hwatcher, rfl⟩ := Option.map_eq_some_iff.mp h
  cases heardBy listener s.watcher e with
  | none => exact ⟨hwatcher, Or.inl ⟨rfl, rfl, rfl⟩⟩
  | some info => exact ⟨hwatcher, Or.inr ⟨info, rfl, rfl, rfl⟩⟩

theorem rememberApp_heard (heard : List (Option ForegroundInfo)) (info : Option ForegroundInfo) :
    rememberApp ((heard.filterMap fun info => info.map (·.appId)).dedup.reverse.take
        recentAppIdsMax) info =
      ((heard ++ [info]).filterMap fun info => info.map (·.appId)).dedup.reverse.take
        recentAppIdsMax := by
  cases info with
  | none => simp [rememberApp]
  | some info =>
      rw [rememberApp, pushRecent_dedup, List.filterMap_append]
      rfl

theorem heard_of_run {listener : Nat} {events : List WatcherEvent} {s : RecentApps}
    (h : exec (RecentApps.step u toUppercase listener) {} events = some s) :
    exec (ForegroundWatcher.step u toUppercase) {} events = some s.watcher ∧
      s.recentAppIds = (s.heard.filterMap fun info => info.map (·.appId)).dedup.reverse.take
        recentAppIdsMax ∧
      ∀ info, info ∈ s.heard ↔ Happened (ForegroundWatcher.step u toUppercase) {} events
        fun w e _ => ∃ delivery, CallsWith listener delivery w e ∧ delivery.info = info := by
  refine exec_induction (P := fun events s =>
    exec (ForegroundWatcher.step u toUppercase) {} events = some s.watcher ∧
      s.recentAppIds = (s.heard.filterMap fun info => info.map (·.appId)).dedup.reverse.take
        recentAppIdsMax ∧
      ∀ info, info ∈ s.heard ↔ Happened (ForegroundWatcher.step u toUppercase) {} events
        fun w e _ => ∃ delivery, CallsWith listener delivery w e ∧ delivery.info = info) ?_ ?_ h
  · refine ⟨rfl, rfl, ?_⟩
    intro info
    simp [not_happened_nil]
  · intro events s e s' _ ih hstep
    obtain ⟨hwatcher, hrecent, hheard⟩ := ih
    obtain ⟨hmoves, hcase⟩ := recentApps_step hstep
    refine ⟨exec_concat_eq_some.mpr ⟨_, hwatcher, hmoves⟩, ?_⟩
    rcases hcase with ⟨hsilent, hsame, hsame'⟩ | ⟨info, hcalled, hnew, hnew'⟩
    · rw [hsame, hsame']
      refine ⟨hrecent, ?_⟩
      intro info
      rw [Happened.concat_iff hwatcher hmoves, hheard info, or_iff_left]
      intro hcall
      rw [heardBy_eq_some.mpr hcall] at hsilent
      contradiction
    · rw [hnew, hnew', hrecent, rememberApp_heard]
      refine ⟨rfl, ?_⟩
      intro other
      rw [Happened.concat_iff hwatcher hmoves, ← heardBy_eq_some, hcalled, List.mem_append,
        hheard other, List.mem_singleton, Option.some.injEq, eq_comm]

/-- Whatever threads poll, resolve names and call at the same time, the list holds the last ten
distinct programs that the listener was called with, the last one first. Each of them is a program
of which a thread has sampled a window in the foreground. -/
theorem recent_apps_are_the_last_heard (listener : Nat) (events : List WatcherEvent)
    (s : RecentApps)
    (h : exec (RecentApps.step u toUppercase listener) {} events = some s) :
    (∀ info, info ∈ s.heard ↔ Happened (ForegroundWatcher.step u toUppercase) {} events
      fun w e _ => ∃ delivery, CallsWith listener delivery w e ∧ delivery.info = info) ∧
    s.recentAppIds = (s.heard.filterMap fun info => info.map (·.appId)).dedup.reverse.take
      recentAppIdsMax ∧
    ∀ appId ∈ s.recentAppIds, SampledApp u events appId := by
  obtain ⟨hwatcher, hrecent, hheard⟩ := heard_of_run h
  refine ⟨hheard, hrecent, ?_⟩
  intro appId hmem
  rw [hrecent] at hmem
  have hheardApp := List.mem_dedup.mp (List.mem_reverse.mp (List.mem_of_mem_take hmem))
  obtain ⟨info, hinfo, happ⟩ := List.mem_filterMap.mp hheardApp
  obtain ⟨n, w₁, e, w₂, hat, delivery, ⟨d, listeners, -, hget⟩, rfl⟩ := (hheard info).mp hinfo
  obtain ⟨known, hknown, rfl⟩ := Option.map_eq_some_iff.mp happ
  have hsampled := (sampled_of_run hat.before).threads d _ hget known hknown
  have hlonger := hsampled.append_right (events.drop n)
  rwa [List.take_append_drop] at hlonger

theorem recent_apps_are_the_last_heard_overtaken : ∃ s,
    exec (RecentApps.step .ascii Char.toString 1) {} overtaken = some s ∧
      s.recentAppIds = ["notepad.exe"] ∧ SampledApp .ascii overtaken "notepad.exe" := by
  have hrun : (exec (RecentApps.step .ascii Char.toString 1) {} overtaken).map (·.recentAppIds) =
      some ["notepad.exe"] := by
    decide +kernel
  obtain ⟨s, hs, hrecent⟩ := Option.map_eq_some_iff.mp hrun
  obtain ⟨-, -, hsampled⟩ := recent_apps_are_the_last_heard (u := .ascii) 1 overtaken s hs
  exact ⟨s, hs, hrecent, hsampled _ (by simp [hrecent])⟩

end YohakuCore
