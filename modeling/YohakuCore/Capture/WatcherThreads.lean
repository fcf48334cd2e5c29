import YohakuCore.Capture.DisplayName
import YohakuCore.Runtime.SuspendDetector

/-!
# The foreground watcher and its threads

A sample of the foreground is taken by the poll thread, by a capture, and by the threads that
resolve a display name and then poll once more. Passes exclude one another; a capture runs beside
them. Whoever misses the cache of display names spawns a resolver, and a pass that sees a change
spawns a debounce thread. Every step is delimited by a lock.
-/

namespace YohakuCore

open Framework

variable (u : UnicodeData) (toUppercase : Char → String)

/-- A debounced delivery: the information of the change, for the generation it made. -/
structure ChangeDelivery where
  generation : Nat
  info : Option ForegroundInfo
  deriving DecidableEq

/-- Where a thread is in `current_shared`; `fresh` is what the sample shows. -/
inductive CurrentPlace where
  | sampling
  | missed (fresh : Option ForegroundInfo) (key fallback : String)
  | sampled (fresh : Option ForegroundInfo)
  deriving DecidableEq

/-- Where a thread is in `poll_once`, from the lock of the pass to its release. -/
inductive PollPlace where
  | entering
  | current (place : CurrentPlace)
  | informed (info : Option ForegroundInfo)
  | leaving (delivery : Option ChangeDelivery)
  deriving DecidableEq

inductive ResolverPlace where
  | resolving
  | polling (place : PollPlace)
  | forgetting
  | ended
  deriving DecidableEq

structure Resolver where
  key : String
  fallback : String
  place : ResolverPlace
  deriving DecidableEq

inductive DebouncePlace where
  | sleeping
  | checked
  | calling (listeners : List Nat)
  deriving DecidableEq

structure DebounceThread where
  delivery : ChangeDelivery
  place : DebouncePlace
  deriving DecidableEq

/-- A thread that runs `poll_once`, or a capture that runs `current` alone. -/
inductive Sampler where
  | loop (thread : Nat)
  | resolver (thread : Nat)
  | capture (thread : Nat)
  deriving DecidableEq

/-- `cleared` and `returned` are the calls of `stop` that got so far after their join. -/
structure ForegroundWatcher where
  loops : Loops Unit PollPlace := {}
  watch : WatchState := ⟨none, none, 0⟩
  pollPass : Option Sampler := none
  cache : String → Option String := fun _ => none
  pending : List String := []
  resolvers : List Resolver := []
  captures : List (Option CurrentPlace) := []
  debounces : List DebounceThread := []
  listeners : List Nat := []
  nextListenerId : Nat := 1
  cleared : List Nat := []
  returned : List Nat := []

/-- What a sample shows, and the key and the fallback of a name that the cache does not have. The
fallback is derived first, and may panic. -/
def sampleForeground (cacheKey : String → Option String) (cache : String → Option String) :
    Option RawForegroundSample → Option CurrentPlace
  | some { windowTitle, exePath := some exePath } =>
      let appId := u.toLowercase (winBasename exePath)
      if appId = "" then some (.sampled none)
      else do
        let fallback ← exeStemDisplayName toUppercase appId
        return match cacheKey exePath with
          | none => .sampled (some { appId, displayName := fallback, windowTitle })
          | some key =>
              match cache key with
              | some displayName => .sampled (some { appId, displayName, windowTitle })
              | none => .missed (some { appId, displayName := fallback, windowTitle }) key fallback
  | _ => some (.sampled none)

/-- What is fresh becomes the last information, or the last information is returned. -/
def WatchState.keep (state : WatchState) : Option ForegroundInfo →
    WatchState × Option ForegroundInfo
  | some info => ({ state with lastInfo := some info }, some info)
  | none => (state, state.lastInfo)

/-- The last locked part of `stop` cancels the pending delivery and forgets the change key. -/
def WatchState.clear (state : WatchState) : WatchState :=
  { state with debounceGeneration := state.debounceGeneration + 1, lastKey := none }

def CurrentPlace.fresh : CurrentPlace → Option ForegroundInfo
  | .sampling => none
  | .missed fresh _ _ => fresh
  | .sampled fresh => fresh

theorem sampleForeground_ne_sampling (cacheKey cache : String → Option String)
    (raw : Option RawForegroundSample) :
    sampleForeground u toUppercase cacheKey cache raw ≠ some .sampling := by
  intro h
  unfold sampleForeground at h
  split at h
  · dsimp only at h
    split at h
    · simp at h
    · obtain ⟨fallback, -, h⟩ := Option.bind_eq_some_iff.mp h
      split at h
      · simp at h
      · split at h <;> simp at h
  · simp at h

/-- The lock-delimited steps of `poll_once`; the middle three are those of `current_shared`. -/
inductive SampleStep where
  | enter
  | sample (cacheKey : String → Option String) (raw : Option RawForegroundSample)
  | claim
  | keep
  | register
  | leave

namespace ForegroundWatcher

/-- One thread at a time resolves a name: the one whose key is newly pending. -/
def claim (w : ForegroundWatcher) (key fallback : String) : ForegroundWatcher :=
  if key ∈ w.pending then w
  else
    { w with
      pending := key :: w.pending
      resolvers := w.resolvers ++ [⟨key, fallback, .resolving⟩] }

def currentStep (w : ForegroundWatcher) : CurrentPlace → SampleStep →
    Option (ForegroundWatcher × BodyOutcome (Option ForegroundInfo) CurrentPlace)
  | .sampling, .sample cacheKey raw =>
      some (w, (sampleForeground u toUppercase cacheKey w.cache raw).elim .panics .goesOn)
  | .missed fresh key fallback, .claim => some (w.claim key fallback, .goesOn (.sampled fresh))
  | .sampled fresh, .keep =>
      let (watch, info) := w.watch.keep fresh
      some ({ w with watch }, .ends info)
  | _, _ => none

/-- A pass that panics releases its lock. The debounce thread is spawned before the lock of the
pass is released. -/
def pollStep (w : ForegroundWatcher) (who : Sampler) : PollPlace → SampleStep →
    Option (ForegroundWatcher × BodyOutcome Unit PollPlace)
  | .entering, .enter =>
      if w.pollPass = none then
        some ({ w with pollPass := some who }, .goesOn (.current .sampling))
      else none
  | .current place, step =>
      (w.currentStep u toUppercase place step).map fun
        | (w, .goesOn place) => (w, .goesOn (.current place))
        | (w, .ends info) => (w, .goesOn (.informed info))
        | (w, .panics) => ({ w with pollPass := none }, .panics)
  | .informed info, .register =>
      let (watch, scheduled) := w.watch.registerChangeKey (changeKey info)
      let delivery := if scheduled then some ⟨watch.debounceGeneration, info⟩ else none
      some ({ w with watch }, .goesOn (.leaving delivery))
  | .leaving delivery, .leave =>
      let debounces := (delivery.map fun delivery => ⟨delivery, .sleeping⟩).toList
      some ({ w with pollPass := none, debounces := w.debounces ++ debounces }, .ends ())
  | _, _ => none

end ForegroundWatcher

def PollPlace.rank : PollPlace → Nat
  | .entering => 5
  | .current .sampling => 4
  | .current (.missed _ _ _) => 3
  | .current (.sampled _) => 2
  | .informed _ => 1
  | .leaving _ => 0

def pollWorks (place : PollPlace) : BodyOutcome Unit PollPlace → Bool
  | .goesOn place' => place'.rank < place.rank
  | .ends () => place.rank == 0
  | .panics => place == .current .sampling

theorem poll_progress (place : PollPlace) :
    (∃ outcome, pollWorks place outcome = true) ∨
      ((fun _ => none : PollPlace → Option PollPlace) place).isSome = true := by
  by_cases hrank : place.rank = 0
  · exact Or.inl ⟨.ends (), by simp [pollWorks, hrank]⟩
  · exact Or.inl ⟨.goesOn (.leaving none), decide_eq_true (Nat.pos_of_ne_zero hrank)⟩

/-- The poll thread polls before its first check; no listener runs on it. -/
def pollLoop : LoopBody Unit PollPlace where
  checksFirst := false
  enter _ := .entering
  works := pollWorks
  stops _ := none
  shortens := by
    refine Subrelation.wf ?_ (measure PollPlace.rank).wf
    intro place' place h
    have hrank : place'.rank < place.rank := by simpa [pollWorks] using h
    exact hrank
  progress := poll_progress

/-- The name that the file's description holds; without one the fallback is cached. -/
inductive Resolution where
  | described (description : String)
  | undescribed
  deriving DecidableEq

inductive WatcherEvent where
  | start
  | stop
  | stopJoined (stop : Nat)
  | stopCleared (stop : Nat)
  | stopReturned (stop : Nat)
  | check (thread : Nat) (timeout : Bool)
  | capture
  | sample (who : Sampler) (step : SampleStep)
  | resolved (thread : Nat) (resolution : Resolution)
  | forget (thread : Nat)
  | wake (thread : Nat)
  | snapshot (thread : Nat)
  | call (thread : Nat)
  | onChange
  | unsubscribe (listener : Nat)

namespace ForegroundWatcher

def moveResolver (w : ForegroundWatcher) (r : Nat) (place : ResolverPlace) : ForegroundWatcher :=
  { w with resolvers := w.resolvers.modify r fun resolver => { resolver with place } }

def moveDebounce (w : ForegroundWatcher) (d : Nat) (place : DebouncePlace) : ForegroundWatcher :=
  { w with debounces := w.debounces.modify d fun thread => { thread with place } }

/-- Where a thread is in a pass, if it is in one. -/
def pollPlace (w : ForegroundWatcher) : Sampler → Option PollPlace
  | .loop i =>
      match w.loops.place i with
      | some (.working place) => some place
      | _ => none
  | .resolver r =>
      match w.resolvers[r]? with
      | some ⟨_, _, .polling place⟩ => some place
      | _ => none
  | .capture _ => none

/-- A resolver is done once its pass is. -/
def moveTo (w : ForegroundWatcher) : Sampler → BodyOutcome Unit PollPlace → ForegroundWatcher
  | .loop i, outcome => { w with loops := w.loops.moveTo i outcome.place }
  | .resolver r, .goesOn place => w.moveResolver r (.polling place)
  | .resolver r, .ends _ => w.moveResolver r .forgetting
  | .resolver r, .panics => w.moveResolver r .ended
  | .capture _, _ => w

/-- One step of a thread that runs `poll_once` or `current`. -/
def sampleStep (w : ForegroundWatcher) (step : SampleStep) : Sampler → Option ForegroundWatcher
  | .capture c =>
      match w.captures[c]? with
      | some (some place) =>
          (w.currentStep u toUppercase place step).map fun
            | (w, .goesOn place) => { w with captures := w.captures.set c (some place) }
            | (w, _) => { w with captures := w.captures.set c none }
      | _ => none
  | who =>
      (w.pollPlace who).bind fun place =>
        (w.pollStep u toUppercase who place step).map fun (w, outcome) => w.moveTo who outcome

/-- A name that was described is cached before the thread polls once more. -/
def resolve (w : ForegroundWatcher) (r : Nat) (resolution : Resolution) :
    Option ForegroundWatcher :=
  match w.resolvers[r]? with
  | some ⟨key, fallback, .resolving⟩ =>
      match resolution with
      | .described description =>
          some ({ w with cache := Function.update w.cache key (some description) }.moveResolver r
            (.polling .entering))
      | .undescribed =>
          some ({ w with cache := Function.update w.cache key (some fallback) }.moveResolver r
            .forgetting)
  | _ => none

/-- A debounce thread that finds another generation calls nobody. -/
def wake (w : ForegroundWatcher) (d : Nat) : Option ForegroundWatcher :=
  match w.debounces[d]? with
  | some ⟨delivery, .sleeping⟩ =>
      some (w.moveDebounce d
        (if w.watch.debounceGeneration ≠ delivery.generation then .calling [] else .checked))
  | _ => none

def step (w : ForegroundWatcher) : WatcherEvent → Option ForegroundWatcher
  | .start => some { w with loops := w.loops.start pollLoop () }
  | .stop => some { w with loops := w.loops.stop }
  | .stopJoined k =>
      (w.loops.step pollLoop (.stopJoined k)).map fun loops => { w with loops }
  | .stopCleared k =>
      if w.loops.stops[k]? = some .joined ∧ k ∉ w.cleared then
        some { w with watch := w.watch.clear, cleared := k :: w.cleared }
      else none
  | .stopReturned k =>
      if k ∈ w.cleared ∧ k ∉ w.returned then some { w with returned := k :: w.returned } else none
  | .check i timeout =>
      (w.loops.step pollLoop (.check i timeout)).map fun loops => { w with loops }
  | .capture => some { w with captures := w.captures ++ [some .sampling] }
  | .sample who step => w.sampleStep u toUppercase step who
  | .resolved r resolution => w.resolve r resolution
  | .forget r =>
      match w.resolvers[r]? with
      | some ⟨key, _, .forgetting⟩ =>
          some ({ w with pending := w.pending.erase key }.moveResolver r .ended)
      | _ => none
  | .wake d => w.wake d
  | .snapshot d =>
      match w.debounces[d]? with
      | some ⟨_, .checked⟩ => some (w.moveDebounce d (.calling w.listeners))
      | _ => none
  | .call d =>
      match w.debounces[d]? with
      | some ⟨_, .calling (_ :: listeners)⟩ => some (w.moveDebounce d (.calling listeners))
      | _ => none
  | .onChange =>
      some { w with
        listeners := w.listeners ++ [w.nextListenerId]
        nextListenerId := w.nextListenerId + 1 }
  | .unsubscribe listener => some { w with listeners := w.listeners.filter (· ≠ listener) }

end ForegroundWatcher

/-- The poll thread whose own step the event is. -/
def WatcherEvent.loopThread : WatcherEvent → Option Nat
  | .check i _ | .sample (.loop i) _ => some i
  | _ => none

namespace ForegroundWatcher

variable {u toUppercase}

theorem currentStep_loops {w w' : ForegroundWatcher} {place : CurrentPlace} {step : SampleStep}
    {outcome : BodyOutcome (Option ForegroundInfo) CurrentPlace}
    (h : w.currentStep u toUppercase place step = some (w', outcome)) : w'.loops = w.loops := by
  cases place <;> cases step <;> simp [currentStep] at h
  · rw [← h.1]
  · rw [← h.1, claim]
    split <;> rfl
  · rw [← h.1]

theorem pollStep_loops {w w' : ForegroundWatcher} {who : Sampler} {place : PollPlace}
    {step : SampleStep} {outcome : BodyOutcome Unit PollPlace}
    (h : w.pollStep u toUppercase who place step = some (w', outcome)) : w'.loops = w.loops := by
  cases place with
  | entering =>
      cases step <;> simp [pollStep] at h
      rw [← h.2.1]
  | current place =>
      rw [pollStep] at h
      obtain ⟨⟨w₁, outcome₁⟩, hcurrent, hw⟩ := Option.map_eq_some_iff.mp h
      rw [← currentStep_loops hcurrent]
      cases outcome₁ <;> simp at hw <;> rw [← hw.1]
  | informed info =>
      cases step <;> simp [pollStep] at h
      rw [← h.1]
  | leaving delivery =>
      cases step <;> simp [pollStep] at h
      rw [← h.1]

theorem currentStep_works {w w' : ForegroundWatcher} {place : CurrentPlace} {step : SampleStep}
    {outcome : BodyOutcome (Option ForegroundInfo) CurrentPlace}
    (h : w.currentStep u toUppercase place step = some (w', outcome)) :
    (∀ place', outcome = .goesOn place' →
      (PollPlace.current place').rank < (PollPlace.current place).rank) ∧
    (outcome = .panics → place = .sampling) := by
  cases place <;> cases step <;> simp only [currentStep, Option.some.injEq, Prod.mk.injEq,
    reduceCtorEq] at h
  · rename_i cacheKey raw
    obtain ⟨-, rfl⟩ := h
    have hne := sampleForeground_ne_sampling u toUppercase cacheKey w.cache raw
    rcases hplace : sampleForeground u toUppercase cacheKey w.cache raw with _ | place
    · simp
    · cases place with
      | sampling => exact absurd hplace hne
      | missed => simp [PollPlace.rank]
      | sampled => simp [PollPlace.rank]
  · obtain ⟨-, rfl⟩ := h
    simp [PollPlace.rank]
  · obtain ⟨-, rfl⟩ := h
    simp

theorem pollStep_works {w w' : ForegroundWatcher} {who : Sampler} {place : PollPlace}
    {step : SampleStep} {outcome : BodyOutcome Unit PollPlace}
    (h : w.pollStep u toUppercase who place step = some (w', outcome)) :
    pollWorks place outcome = true := by
  cases place with
  | entering =>
      cases step <;> simp [pollStep] at h
      rw [← h.2.2]
      rfl
  | current place =>
      rw [pollStep] at h
      obtain ⟨⟨w₁, outcome₁⟩, hcurrent, hw⟩ := Option.map_eq_some_iff.mp h
      have hworks := currentStep_works hcurrent
      cases outcome₁ with
      | goesOn place' =>
          obtain ⟨-, rfl⟩ := Prod.mk.inj hw
          exact decide_eq_true (hworks.1 place' rfl)
      | ends info =>
          obtain ⟨-, rfl⟩ := Prod.mk.inj hw
          cases place <;> rfl
      | panics =>
          obtain ⟨-, rfl⟩ := Prod.mk.inj hw
          rw [hworks.2 rfl]
          rfl
  | informed info =>
      cases step <;> simp [pollStep] at h
      rw [← h.2]
      rfl
  | leaving delivery =>
      cases step <;> simp [pollStep] at h
      rw [← h.2]
      rfl

theorem pollPlace_loop {w : ForegroundWatcher} {i : Nat} {place : PollPlace} :
    w.pollPlace (.loop i) = some place ↔ w.loops.place i = some (.working place) := by
  simp only [pollPlace]
  split
  · rename_i place' hworking
    simp [hworking]
  · rename_i hnot
    simpa using hnot place

theorem pollPlace_resolver {w : ForegroundWatcher} {r : Nat} {place : PollPlace} :
    w.pollPlace (.resolver r) = some place ↔
      ∃ key fallback, w.resolvers[r]? = some ⟨key, fallback, .polling place⟩ := by
  simp only [pollPlace]
  split
  · rename_i key fallback place' hget
    simp [hget]
  · rename_i hnot
    simpa using fun key fallback => hnot key fallback place

theorem sampleStep_cases {w w' : ForegroundWatcher} {step : SampleStep} {who : Sampler}
    (h : w.sampleStep u toUppercase step who = some w') :
    (∃ place w₁ outcome, w.pollPlace who = some place ∧
      w.pollStep u toUppercase who place step = some (w₁, outcome) ∧ w' = w₁.moveTo who outcome) ∨
    ∃ c place w₁ outcome, who = .capture c ∧ w.captures[c]? = some (some place) ∧
      w.currentStep u toUppercase place step = some (w₁, outcome) ∧
      ∃ captures, w' = { w₁ with captures } := by
  cases who with
  | loop i =>
      obtain ⟨place, hplace, h⟩ := Option.bind_eq_some_iff.mp h
      obtain ⟨⟨w₁, outcome⟩, hpoll, rfl⟩ := Option.map_eq_some_iff.mp h
      exact Or.inl ⟨place, w₁, outcome, hplace, hpoll, rfl⟩
  | resolver r =>
      obtain ⟨place, hplace, h⟩ := Option.bind_eq_some_iff.mp h
      obtain ⟨⟨w₁, outcome⟩, hpoll, rfl⟩ := Option.map_eq_some_iff.mp h
      exact Or.inl ⟨place, w₁, outcome, hplace, hpoll, rfl⟩
  | capture c =>
      simp only [sampleStep] at h
      split at h
      · rename_i place hplace
        obtain ⟨⟨w₁, outcome⟩, hcurrent, h⟩ := Option.map_eq_some_iff.mp h
        refine Or.inr ⟨c, place, w₁, outcome, rfl, hplace, hcurrent, ?_⟩
        cases outcome <;> exact ⟨_, h.symm⟩
      · contradiction

theorem sampleStep_loops {w w' : ForegroundWatcher} {step : SampleStep} {who : Sampler}
    (h : w.sampleStep u toUppercase step who = some w') :
    (∀ i, who ≠ .loop i) ∧ w'.loops = w.loops ∨
      ∃ i outcome, who = .loop i ∧ w.loops.step pollLoop (.work i outcome) = some w'.loops := by
  rcases sampleStep_cases h with ⟨place, w₁, outcome, hplace, hpoll, rfl⟩ |
    ⟨c, place, w₁, outcome, rfl, -, hcurrent, captures, rfl⟩
  · have hloops := pollStep_loops hpoll
    cases who with
    | loop i =>
        refine Or.inr ⟨i, outcome, rfl, ?_⟩
        obtain ⟨epoch, hget⟩ := Loops.place_eq_some.mp (pollPlace_loop.mp hplace)
        have hworks : pollLoop.works place outcome = true := pollStep_works hpoll
        simp [Loops.step, hget, hworks, moveTo, hloops]
    | resolver r =>
        refine Or.inl ⟨by simp, ?_⟩
        cases outcome <;> exact hloops
    | capture c => contradiction
  · have hloops := currentStep_loops hcurrent
    exact Or.inl ⟨by simp, hloops⟩

/-- Every step of the watcher is one of the loop, or leaves it alone. -/
theorem carries : Loops.Carries pollLoop (ForegroundWatcher.step u toUppercase)
    ForegroundWatcher.loops WatcherEvent.loopThread := by
  intro w e w' h
  cases e with
  | start =>
      obtain rfl := Option.some.inj h
      exact Or.inr ⟨.start (), rfl, rfl⟩
  | stop =>
      obtain rfl := Option.some.inj h
      exact Or.inr ⟨.stop, rfl, rfl⟩
  | stopJoined k =>
      obtain ⟨loops, hloops, rfl⟩ := Option.map_eq_some_iff.mp h
      exact Or.inr ⟨.stopJoined k, rfl, hloops⟩
  | check i timeout =>
      obtain ⟨loops, hloops, rfl⟩ := Option.map_eq_some_iff.mp h
      exact Or.inr ⟨.check i timeout, rfl, hloops⟩
  | sample who step =>
      rcases sampleStep_loops h with ⟨hother, hsame⟩ | ⟨i, outcome, rfl, hwork⟩
      · refine Or.inl ⟨?_, hsame⟩
        cases who with
        | loop i => exact absurd rfl (hother i)
        | resolver r => rfl
        | capture c => rfl
      · exact Or.inr ⟨.work i outcome, rfl, hwork⟩
  | stopCleared k | stopReturned k =>
      obtain ⟨-, h⟩ := Option.ite_none_right_eq_some.mp h
      obtain rfl := Option.some.inj h
      exact Or.inl ⟨rfl, rfl⟩
  | capture | onChange | unsubscribe listener =>
      obtain rfl := Option.some.inj h
      exact Or.inl ⟨rfl, rfl⟩
  | resolved r resolution =>
      simp only [step, resolve] at h
      split at h
      · cases resolution <;> obtain rfl := Option.some.inj h <;> exact Or.inl ⟨rfl, rfl⟩
      · contradiction
  | wake d =>
      simp only [step, wake] at h
      split at h
      · obtain rfl := Option.some.inj h
        exact Or.inl ⟨rfl, rfl⟩
      · contradiction
  | forget d | snapshot d | call d =>
      simp only [step] at h
      split at h
      · obtain rfl := Option.some.inj h
        exact Or.inl ⟨rfl, rfl⟩
      · contradiction

theorem pollPlace_congr {w w' : ForegroundWatcher} (hloops : w'.loops = w.loops)
    (hresolvers : w'.resolvers = w.resolvers ∨
      ∃ key fallback, w'.resolvers = w.resolvers ++ [⟨key, fallback, .resolving⟩])
    (who : Sampler) : w'.pollPlace who = w.pollPlace who := by
  cases who with
  | loop i => simp only [pollPlace, hloops]
  | resolver r =>
      rcases hresolvers with hsame | ⟨key, fallback, hnew⟩
      · simp only [pollPlace, hsame]
      · rcases Nat.lt_or_ge r w.resolvers.length with hlt | hge
        · simp only [pollPlace, hnew, List.getElem?_append_left hlt]
        · simp only [pollPlace, hnew, List.getElem?_append_right hge, List.getElem?_eq_none hge]
          cases r - w.resolvers.length <;> simp
  | capture c => rfl

theorem pollPlace_claim (w : ForegroundWatcher) (key fallback : String) (who : Sampler) :
    (w.claim key fallback).pollPlace who = w.pollPlace who := by
  have hloops : (w.claim key fallback).loops = w.loops := by
    unfold claim
    split <;> rfl
  refine pollPlace_congr hloops ?_ who
  unfold claim
  split
  · exact Or.inl rfl
  · exact Or.inr ⟨key, fallback, rfl⟩

theorem pollPlace_currentStep {w w' : ForegroundWatcher} {place : CurrentPlace} {step : SampleStep}
    {outcome : BodyOutcome (Option ForegroundInfo) CurrentPlace}
    (h : w.currentStep u toUppercase place step = some (w', outcome)) (who : Sampler) :
    w'.pollPlace who = w.pollPlace who ∧ w'.pollPass = w.pollPass := by
  cases place <;> cases step <;> simp only [currentStep, Option.some.injEq, Prod.mk.injEq,
    reduceCtorEq] at h
  · obtain ⟨rfl, -⟩ := h
    exact ⟨rfl, rfl⟩
  · obtain ⟨rfl, -⟩ := h
    refine ⟨pollPlace_claim w _ _ who, ?_⟩
    unfold claim
    split <;> rfl
  · obtain ⟨rfl, -⟩ := h
    exact ⟨pollPlace_congr rfl (Or.inl rfl) who, rfl⟩

/-- A step of a pass is taken from where no pass is, or from within the pass that holds the lock;
afterwards the lock is free, or the thread is within. -/
theorem pollStep_pass {w w' : ForegroundWatcher} {who : Sampler} {place : PollPlace}
    {step : SampleStep} {outcome : BodyOutcome Unit PollPlace}
    (h : w.pollStep u toUppercase who place step = some (w', outcome)) :
    (∀ other, w'.pollPlace other = w.pollPlace other) ∧
    (w'.pollPass = none ∨ (w'.pollPass = w.pollPass ∨ w'.pollPass = some who) ∧
      ∃ place', outcome = .goesOn place' ∧ place' ≠ .entering) := by
  have hsame : ∀ pass debounces watch other,
      ({ w with pollPass := pass, debounces, watch } : ForegroundWatcher).pollPlace other =
        w.pollPlace other := by
    intro pass debounces watch other
    exact pollPlace_congr rfl (Or.inl rfl) other
  cases place with
  | entering =>
      cases step <;> simp only [pollStep, Option.ite_none_right_eq_some, Option.some.injEq,
        Prod.mk.injEq, reduceCtorEq] at h
      obtain ⟨-, rfl, rfl⟩ := h
      exact ⟨hsame _ _ _, Or.inr ⟨Or.inr rfl, _, rfl, by simp⟩⟩
  | current place =>
      obtain ⟨⟨w₁, outcome₁⟩, hcurrent, hw⟩ := Option.map_eq_some_iff.mp h
      have hplaces := pollPlace_currentStep hcurrent
      cases outcome₁ with
      | goesOn place' | ends info =>
          obtain ⟨rfl, rfl⟩ := Prod.mk.inj hw
          exact ⟨fun other => (hplaces other).1,
            Or.inr ⟨Or.inl (hplaces who).2, _, rfl, by simp⟩⟩
      | panics =>
          obtain ⟨rfl, rfl⟩ := Prod.mk.inj hw
          refine ⟨fun other => ?_, Or.inl rfl⟩
          rw [← (hplaces other).1]
          exact pollPlace_congr rfl (Or.inl rfl) other
  | informed info =>
      cases step <;> simp only [pollStep, Option.some.injEq, Prod.mk.injEq, reduceCtorEq] at h
      obtain ⟨rfl, rfl⟩ := h
      exact ⟨hsame _ _ _, Or.inr ⟨Or.inl rfl, _, rfl, by simp⟩⟩
  | leaving delivery =>
      cases step <;> simp only [pollStep, Option.some.injEq, Prod.mk.injEq, reduceCtorEq] at h
      obtain ⟨rfl, rfl⟩ := h
      exact ⟨hsame _ _ _, Or.inl rfl⟩

theorem pollPlace_moveTo_of_ne {w : ForegroundWatcher} {who other : Sampler} (hne : who ≠ other)
    (outcome : BodyOutcome Unit PollPlace) :
    (w.moveTo who outcome).pollPlace other = w.pollPlace other := by
  cases who with
  | loop i =>
      cases other with
      | loop j =>
          have hij : i ≠ j := fun hij => hne (congrArg Sampler.loop hij)
          simp only [pollPlace, moveTo, Loops.place_moveTo_of_ne hij]
      | resolver r | capture c => rfl
  | resolver r =>
      cases other with
      | resolver r' =>
          have hr : r ≠ r' := fun hr => hne (congrArg Sampler.resolver hr)
          cases outcome <;> simp [pollPlace, moveTo, moveResolver, hr]
      | loop j | capture c => cases outcome <;> rfl
  | capture c => rfl

theorem pollPlace_moveTo_self {w : ForegroundWatcher} {who : Sampler} {place : PollPlace}
    (hplace : w.pollPlace who = some place) (outcome : BodyOutcome Unit PollPlace) :
    (w.moveTo who outcome).pollPlace who =
      match outcome with
      | .goesOn place' => some place'
      | _ => none := by
  cases who with
  | loop i =>
      have hlt := Loops.lt_length_of_place (pollPlace_loop.mp hplace)
      simp only [pollPlace, moveTo, Loops.place_moveTo_self hlt]
      cases outcome <;> rfl
  | resolver r =>
      obtain ⟨key, fallback, hget⟩ := pollPlace_resolver.mp hplace
      cases outcome <;> simp [pollPlace, moveTo, moveResolver, hget]
  | capture c => contradiction

theorem pollPass_moveTo (w : ForegroundWatcher) (who : Sampler)
    (outcome : BodyOutcome Unit PollPlace) : (w.moveTo who outcome).pollPass = w.pollPass := by
  cases who <;> cases outcome <;> rfl

/-- Whoever holds the lock of the pass is within one, and no poll thread joins another. -/
structure PassSound (w : ForegroundWatcher) : Prop where
  held : ∀ who, w.pollPass = some who → ∃ place, w.pollPlace who = some place ∧ place ≠ .entering
  joins : ∀ i j rest, w.loops.place i ≠ some (.joining j rest)

theorem PassSound.of_kept {w w' : ForegroundWatcher} (h : w.PassSound)
    (hpass : w'.pollPass = w.pollPass)
    (hplace : ∀ who place, w.pollPlace who = some place → w'.pollPlace who = some place)
    (hjoins : ∀ i j rest, w'.loops.place i ≠ some (.joining j rest)) : w'.PassSound := by
  refine ⟨?_, hjoins⟩
  intro who hwho
  obtain ⟨place, hold, hne⟩ := h.held who (hpass ▸ hwho)
  exact ⟨place, hplace who place hold, hne⟩

theorem pollPlace_loops_step {w : ForegroundWatcher} {f : LoopEvent Unit PollPlace}
    {loops : Loops Unit PollPlace} (h : w.loops.step pollLoop f = some loops)
    (hwork : ∀ i outcome, f ≠ .work i outcome) {who : Sampler} {place : PollPlace}
    (hplace : w.pollPlace who = some place) :
    ({ w with loops } : ForegroundWatcher).pollPlace who = some place := by
  cases who with
  | loop i =>
      rw [pollPlace_loop] at hplace ⊢
      have howner : f.owner ≠ some i := by
        obtain ⟨epoch, hget⟩ := Loops.place_eq_some.mp hplace
        intro howner
        cases Loops.moves_of_step h with
        | start | stop | stopJoined => contradiction
        | exits hother | stays hother | joinedInside hother =>
            obtain rfl := Option.some.inj howner
            rw [hget] at hother
            simp at hother
        | works => exact hwork _ _ rfl
        | stopInside hother hstops => contradiction
      rw [← hplace]
      exact Loops.place_step_of_ne h (Loops.lt_length_of_place hplace) howner
  | resolver r => exact hplace
  | capture c => contradiction

theorem pollPlace_moveResolver {w : ForegroundWatcher} {r : Nat} {resolver : Resolver}
    (hget : w.resolvers[r]? = some resolver) (hout : ∀ place, resolver.place ≠ .polling place)
    (place' : ResolverPlace) {who : Sampler} {place : PollPlace}
    (hplace : w.pollPlace who = some place) :
    (w.moveResolver r place').pollPlace who = some place := by
  cases who with
  | loop i => exact hplace
  | resolver r' =>
      obtain ⟨key, fallback, hget'⟩ := pollPlace_resolver.mp hplace
      have hne : r ≠ r' := by
        rintro rfl
        rw [hget] at hget'
        obtain rfl := Option.some.inj hget'
        exact hout place rfl
      simp [pollPlace_resolver, moveResolver, hne, hget']
  | capture c => contradiction

theorem PassSound.step {w w' : ForegroundWatcher} {e : WatcherEvent} (h : w.PassSound)
    (hstep : w.step u toUppercase e = some w') : w'.PassSound := by
  have hjoins : ∀ i j rest, w'.loops.place i ≠ some (.joining j rest) := by
    rcases carries w e w' hstep with ⟨-, hsame⟩ | ⟨f, -, hf⟩
    · rw [hsame]
      exact h.joins
    · exact Loops.joining_ne_step (fun _ => rfl) h.joins hf
  cases e with
  | start =>
      obtain rfl := Option.some.inj hstep
      have hloops : w.loops.step pollLoop (.start ()) = some (w.loops.start pollLoop ()) := rfl
      exact h.of_kept rfl (fun who place => pollPlace_loops_step hloops (by simp)) hjoins
  | stop =>
      obtain rfl := Option.some.inj hstep
      have hloops : w.loops.step pollLoop .stop = some w.loops.stop := rfl
      exact h.of_kept rfl (fun who place => pollPlace_loops_step hloops (by simp)) hjoins
  | stopJoined k | check i timeout =>
      obtain ⟨loops, hloops, rfl⟩ := Option.map_eq_some_iff.mp hstep
      exact h.of_kept rfl (fun who place => pollPlace_loops_step hloops (by simp)) hjoins
  | sample who step =>
      rcases sampleStep_cases hstep with ⟨place, w₁, outcome, hplace, hpoll, rfl⟩ |
        ⟨c, place, w₁, outcome, rfl, -, hcurrent, captures, rfl⟩
      · obtain ⟨hplaces, hpass⟩ := pollStep_pass hpoll
        refine ⟨?_, hjoins⟩
        intro other hother
        rw [pollPass_moveTo] at hother
        have hself := pollPlace_moveTo_self ((hplaces who).trans hplace) outcome
        by_cases hwho : who = other
        · subst hwho
          rcases hpass with hnone | ⟨-, place', rfl, hne⟩
          · rw [hnone] at hother
            contradiction
          · exact ⟨place', hself, hne⟩
        · rw [pollPlace_moveTo_of_ne hwho, hplaces other]
          rcases hpass with hnone | ⟨hsame | hmine, -⟩
          · rw [hnone] at hother
            contradiction
          · exact h.held other (hsame ▸ hother)
          · rw [hmine] at hother
            exact absurd (Option.some.inj hother) hwho
      · have hplaces := fun who => pollPlace_currentStep hcurrent who
        refine h.of_kept (hplaces (.capture c)).2 ?_ hjoins
        intro who place hplace
        have hcaptures : ({ w₁ with captures } : ForegroundWatcher).pollPlace who =
            w₁.pollPlace who := pollPlace_congr rfl (Or.inl rfl) who
        rw [hcaptures, (hplaces who).1, hplace]
  | stopCleared k | stopReturned k =>
      obtain ⟨-, hstep⟩ := Option.ite_none_right_eq_some.mp hstep
      obtain rfl := Option.some.inj hstep
      exact h.of_kept rfl
        (fun who place hplace => hplace ▸ pollPlace_congr rfl (Or.inl rfl) who) hjoins
  | capture | onChange | unsubscribe listener =>
      obtain rfl := Option.some.inj hstep
      exact h.of_kept rfl
        (fun who place hplace => hplace ▸ pollPlace_congr rfl (Or.inl rfl) who) hjoins
  | resolved r resolution =>
      simp only [ForegroundWatcher.step, resolve] at hstep
      split at hstep
      · rename_i key fallback hget
        cases resolution <;> obtain rfl := Option.some.inj hstep <;>
          exact h.of_kept rfl (fun who place hplace => pollPlace_moveResolver hget (by simp) _
            (hplace ▸ pollPlace_congr rfl (Or.inl rfl) who)) hjoins
      · contradiction
  | forget r =>
      simp only [ForegroundWatcher.step] at hstep
      split at hstep
      · rename_i key fallback hget
        obtain rfl := Option.some.inj hstep
        exact h.of_kept rfl (fun who place hplace => pollPlace_moveResolver hget (by simp) _
          (hplace ▸ pollPlace_congr rfl (Or.inl rfl) who)) hjoins
      · contradiction
  | wake d =>
      simp only [ForegroundWatcher.step, wake] at hstep
      split at hstep
      · obtain rfl := Option.some.inj hstep
        exact h.of_kept rfl
          (fun who place hplace => hplace ▸ pollPlace_congr rfl (Or.inl rfl) who) hjoins
      · contradiction
  | snapshot d | call d =>
      simp only [ForegroundWatcher.step] at hstep
      split at hstep
      · obtain rfl := Option.some.inj hstep
        exact h.of_kept rfl
          (fun who place hplace => hplace ▸ pollPlace_congr rfl (Or.inl rfl) who) hjoins
      · contradiction

theorem exists_pollStep (u : UnicodeData) (toUppercase : Char → String) (w : ForegroundWatcher)
    (who : Sampler) {place : PollPlace} (hne : place ≠ .entering) :
    ∃ step w' outcome, w.pollStep u toUppercase who place step = some (w', outcome) ∧
      (outcome = .ends () ∧ w'.pollPass = none ∨
        ∃ place', outcome = .goesOn place' ∧ place' ≠ .entering ∧ place'.rank < place.rank) := by
  cases place with
  | entering => exact absurd rfl hne
  | current place =>
      cases place with
      | sampling =>
          exact ⟨.sample (fun _ => none) none, _, _, rfl,
            Or.inr ⟨_, rfl, by simp, by simp [PollPlace.rank]⟩⟩
      | missed fresh key fallback =>
          exact ⟨.claim, _, _, rfl, Or.inr ⟨_, rfl, by simp, by simp [PollPlace.rank]⟩⟩
      | sampled fresh =>
          exact ⟨.keep, _, _, rfl, Or.inr ⟨_, rfl, by simp, by simp [PollPlace.rank]⟩⟩
  | informed info =>
      exact ⟨.register, _, _, rfl, Or.inr ⟨_, rfl, by simp, by simp [PollPlace.rank]⟩⟩
  | leaving delivery => exact ⟨.leave, _, _, rfl, Or.inl ⟨rfl, rfl⟩⟩

theorem sampleStep_of_pollStep {w w₁ : ForegroundWatcher} {who : Sampler} {place : PollPlace}
    {step : SampleStep} {outcome : BodyOutcome Unit PollPlace} (hplace : w.pollPlace who = some place)
    (h : w.pollStep u toUppercase who place step = some (w₁, outcome)) :
    w.step u toUppercase (.sample who step) = some (w₁.moveTo who outcome) := by
  cases who with
  | loop i => simp [ForegroundWatcher.step, sampleStep, hplace, h]
  | resolver r => simp [ForegroundWatcher.step, sampleStep, hplace, h]
  | capture c => contradiction

theorem loops_place_moveTo_of_ne (w : ForegroundWatcher) {who : Sampler} {i : Nat}
    (hne : who ≠ .loop i) (outcome : BodyOutcome Unit PollPlace) :
    (w.moveTo who outcome).loops.place i = w.loops.place i := by
  cases who with
  | loop j => exact Loops.place_moveTo_of_ne (fun hj => hne (congrArg Sampler.loop hj)) _
  | resolver r => cases outcome <;> rfl
  | capture c => rfl

theorem finish_pass (u : UnicodeData) (toUppercase : Char → String) {w : ForegroundWatcher}
    {who : Sampler} {place : PollPlace} (hplace : w.pollPlace who = some place)
    (hne : place ≠ .entering) :
    ∃ es w', (∀ e ∈ es, ∃ step, e = .sample who step) ∧
      exec (ForegroundWatcher.step u toUppercase) w es = some w' ∧ w'.pollPass = none ∧
      (∀ i, who = .loop i → w'.loops.place i = some (.checking ())) ∧
      ∀ i, who ≠ .loop i → w'.loops.place i = w.loops.place i := by
  induction hrank : place.rank using Nat.strong_induction_on generalizing w place with
  | _ rank ih =>
      obtain ⟨step, w₁, outcome, hpoll, hends⟩ :=
        exists_pollStep u toUppercase w who hne
      have hstep := sampleStep_of_pollStep hplace hpoll
      have hloops := pollStep_loops hpoll
      have hself := ((pollStep_pass hpoll).1 who).trans hplace
      rcases hends with ⟨rfl, hpass⟩ | ⟨place', rfl, hne', hlt⟩
      · refine ⟨[.sample who step], w₁.moveTo who (.ends ()), ?_, (exec_singleton w _).trans hstep,
          (pollPass_moveTo _ _ _).trans hpass, ?_, ?_⟩
        · intro e he
          exact ⟨step, List.mem_singleton.mp he⟩
        · rintro i rfl
          have hlt := Loops.lt_length_of_place (pollPlace_loop.mp hself)
          exact Loops.place_moveTo_self hlt _
        · intro i hi
          rw [loops_place_moveTo_of_ne _ hi, hloops]
      · have hplace' := pollPlace_moveTo_self hself (.goesOn place')
        obtain ⟨es, w', hes, hrun, hpass, hmine, hothers⟩ :=
          ih place'.rank (hrank ▸ hlt) hplace' hne' rfl
        refine ⟨.sample who step :: es, w', ?_, ?_, hpass, hmine, ?_⟩
        · intro e he
          rcases List.mem_cons.mp he with rfl | he
          · exact ⟨step, rfl⟩
          · exact hes e he
        · rw [exec_cons, hstep]
          exact hrun
        · intro i hi
          rw [hothers i hi, loops_place_moveTo_of_ne _ hi, hloops]

/-- The steps of poll threads and resolvers can bring poll thread `i` to its exit. -/
def CanExit (u : UnicodeData) (toUppercase : Char → String) (w : ForegroundWatcher) (i : Nat) :
    Prop :=
  ∃ es w', (∀ e ∈ es, e.loopThread.isSome = true ∨ ∃ r step, e = .sample (.resolver r) step) ∧
    exec (ForegroundWatcher.step u toUppercase) w es = some w' ∧ w'.loops.hasExited i = true

theorem CanExit.of_pass {w w' : ForegroundWatcher} {who : Sampler} {place : PollPlace} {i : Nat}
    {es : List WatcherEvent} (hplace : w.pollPlace who = some place)
    (hes : ∀ e ∈ es, ∃ step, e = .sample who step)
    (hrun : exec (ForegroundWatcher.step u toUppercase) w es = some w')
    (h : CanExit u toUppercase w' i) : CanExit u toUppercase w i := by
  obtain ⟨fs, w'', hfs, hrun', hexited⟩ := h
  refine ⟨es ++ fs, w'', ?_, exec_append_eq_some.mpr ⟨w', hrun, hrun'⟩, hexited⟩
  intro e he
  rcases List.mem_append.mp he with he | he
  · obtain ⟨step, rfl⟩ := hes e he
    cases who with
    | loop j => exact Or.inl rfl
    | resolver r => exact Or.inr ⟨r, step, rfl⟩
    | capture c => contradiction
  · exact hfs e he

theorem canExit_of_checking {w : ForegroundWatcher} (hsound : w.loops.Sound) {i : Nat}
    (htaken : w.loops.Taken i) (hplace : w.loops.place i = some (.checking ())) :
    CanExit u toUppercase w i := by
  obtain ⟨epoch, hget⟩ := Loops.place_eq_some.mp hplace
  obtain ⟨thread, hthread, hexits⟩ := (hsound.stale_iff_taken i).mpr htaken
  rw [hget] at hthread
  obtain rfl := Option.some.inj hthread
  have hstep : w.loops.step pollLoop (.check i true) = some (w.loops.moveTo i .exited) := by
    simp [Loops.step, hget, hexits]
  refine ⟨[.check i true], { w with loops := w.loops.moveTo i .exited }, ?_, ?_, ?_⟩
  · intro e he
    rw [List.mem_singleton.mp he]
    exact Or.inl rfl
  · simp [exec_cons, ForegroundWatcher.step, hstep]
  · exact Loops.hasExited_iff.mpr (Loops.place_moveTo_self htaken.1 _)

theorem canExit_of_within {w : ForegroundWatcher} (hsound : w.loops.Sound) {i : Nat}
    (htaken : w.loops.Taken i) {place : PollPlace} (hplace : w.pollPlace (.loop i) = some place)
    (hne : place ≠ .entering) : CanExit u toUppercase w i := by
  obtain ⟨es, w', hes, hrun, -, hmine, -⟩ :=
    finish_pass u toUppercase hplace hne
  exact CanExit.of_pass hplace hes hrun (canExit_of_checking (carries.sound_exec hrun hsound)
    (carries.taken_exec hrun htaken) (hmine i rfl))

theorem canExit_of_entering {w : ForegroundWatcher} (hsound : w.loops.Sound) {i : Nat}
    (htaken : w.loops.Taken i) (hplace : w.pollPlace (.loop i) = some .entering)
    (hpass : w.pollPass = none) : CanExit u toUppercase w i := by
  have hpoll : w.pollStep u toUppercase (.loop i) .entering .enter =
      some ({ w with pollPass := some (.loop i) }, .goesOn (.current .sampling)) := by
    simp [pollStep, hpass]
  have hstep := sampleStep_of_pollStep hplace hpoll
  have hself := pollPlace_moveTo_self (((pollStep_pass hpoll).1 (.loop i)).trans hplace)
    (.goesOn (.current .sampling))
  refine CanExit.of_pass hplace (by simp) ((exec_singleton w _).trans hstep) ?_
  exact canExit_of_within (carries.sound_step hstep hsound) (carries.taken_step hstep htaken)
    hself (by simp)

/-- However far the threads have got, a poll thread whose handle was taken can come to its exit:
the pass that it may be waiting for ends before. -/
theorem PassSound.can_exit {w : ForegroundWatcher} (h : w.PassSound) (hsound : w.loops.Sound)
    {i : Nat} (htaken : w.loops.Taken i) : CanExit u toUppercase w i := by
  have hplace : ∃ place, w.loops.place i = some place :=
    ⟨_, by rw [Loops.place, List.getElem?_eq_getElem htaken.1]; rfl⟩
  obtain ⟨place, hplace⟩ := hplace
  cases place with
  | checking data => exact canExit_of_checking hsound htaken hplace
  | joining j rest => exact absurd hplace (h.joins i j rest)
  | exited => exact ⟨[], w, by simp, rfl, Loops.hasExited_iff.mpr hplace⟩
  | working place =>
      have hworking := pollPlace_loop.mpr hplace
      by_cases hentering : place = .entering
      · subst hentering
        cases hpass : w.pollPass with
        | none => exact canExit_of_entering hsound htaken hworking hpass
        | some who =>
            obtain ⟨place, hheld, hne⟩ := h.held who hpass
            have hother : who ≠ .loop i := by
              rintro rfl
              rw [hworking] at hheld
              exact hne (Option.some.inj hheld).symm
            obtain ⟨es, w', hes, hrun, hpass', -, hothers⟩ := finish_pass u toUppercase hheld hne
            refine CanExit.of_pass hheld hes hrun ?_
            exact canExit_of_entering (carries.sound_exec hrun hsound)
              (carries.taken_exec hrun htaken)
              (pollPlace_loop.mpr ((hothers i hother).trans hplace)) hpass'
      · exact canExit_of_within hsound htaken hworking hentering

theorem passSound_new : ({} : ForegroundWatcher).PassSound where
  held who hwho := by contradiction
  joins i j rest := by simp [Loops.place]

end ForegroundWatcher

/-- The suspend detector and the foreground watcher, over every interleaving of starts and stops:
one loop thread of the current epoch, the next check of a stale one is its last, and one that a
stop joins ends after finitely many steps of its own. No stop hangs: whatever has happened, such a
thread can come to its exit without a further call of either. -/
theorem restartable_loops_never_overlap (gapThresholdMs : UInt64) :
    Loops.NeverOverlaps (SuspendDetector.step gapThresholdMs) id LoopEvent.owner .new ∧
    Loops.NeverOverlaps (ForegroundWatcher.step u toUppercase) ForegroundWatcher.loops
      WatcherEvent.loopThread {} ∧
    (∀ es detector, exec (SuspendDetector.step gapThresholdMs) .new es = some detector →
      ∀ i, detector.Waited i → Loops.CanExit (sampleLoop gapThresholdMs) detector i) ∧
    ∀ es w, exec (ForegroundWatcher.step u toUppercase) {} es = some w →
      ∀ i, w.loops.Waited i → w.CanExit u toUppercase i := by
  have hdetector : Loops.Carries (sampleLoop gapThresholdMs) (SuspendDetector.step gapThresholdMs)
      id LoopEvent.owner := by
    rw [SuspendDetector.step_eq]
    exact Loops.carries_step _
  refine ⟨hdetector.neverOverlaps Loops.sound_init,
    ForegroundWatcher.carries.neverOverlaps Loops.sound_init, ?_, ?_⟩
  · intro es detector hrun i hwaited
    have hsound : detector.Sound := hdetector.sound_exec hrun Loops.sound_init
    exact hsound.can_exit (hsound.taken_of_waited hwaited)
  · intro es w hrun i hwaited
    have hsound : w.loops.Sound := ForegroundWatcher.carries.sound_exec hrun Loops.sound_init
    have hpass : w.PassSound := exec_invariant ForegroundWatcher.passSound_new
      (fun _ _ _ h hstep => h.step hstep) hrun
    exact hpass.can_exit hsound (hsound.taken_of_waited hwaited)

/-- A stop joins the first thread, whose callback stops the detector as well and joins the thread
that was started meanwhile. -/
example : (exec (SuspendDetector.step 15000) .new [.start 0, .check 0 true,
      .work 0 (.goesOn (.callback 60000 1)), .stop, .start 70000, .stopInside 0]).map
      (fun detector => (detector.place 0, detector.stops)) =
    some (some (.joining 1 (.callback 60000 0)), [.joining 0]) := by
  decide +kernel

end YohakuCore
