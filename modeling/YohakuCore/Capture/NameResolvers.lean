import YohakuCore.Capture.StoppedWatcher
import YohakuCore.Framework.FilledCache

/-!
# One resolver for a display name

A thread that misses the cache claims the name only later, so a name may be resolved again after it
was cached, but never by two resolvers at a time.
-/

namespace YohakuCore

open Framework

variable (u : UnicodeData) (toUppercase : Char → String)

/-- A resolver whose callback polls has cached its name. -/
def ResolverPlace.phase : ResolverPlace → WorkerPhase
  | .resolving => .reading
  | .polling _ | .forgetting => .finishing
  | .ended => .ended

def Resolver.worker (resolver : Resolver) : Worker String := ⟨resolver.key, resolver.place.phase⟩

/-- The name that a resolver caches. -/
def Resolution.name (fallback : String) : Resolution → String
  | .described description => description
  | .undescribed => fallback

namespace ForegroundWatcher

def names (w : ForegroundWatcher) : FilledCache String String :=
  ⟨w.cache, w.pending, w.resolvers.map Resolver.worker⟩

/-- Where a thread is in `current_shared`, if it is there. -/
def currentPlace (w : ForegroundWatcher) : Sampler → Option CurrentPlace
  | .capture c => w.captures[c]?.join
  | who =>
      match w.pollPlace who with
      | some (.current place) => some place
      | _ => none

variable {u toUppercase}

theorem names_moveResolver {w : ForegroundWatcher} {r : Nat} {key fallback : String}
    {old : ResolverPlace} (hget : w.resolvers[r]? = some ⟨key, fallback, old⟩)
    (place : ResolverPlace) :
    (w.moveResolver r place).names =
      { w.names with workers := w.names.workers.set r ⟨key, place.phase⟩ } := by
  simp only [names, moveResolver, FilledCache.mk.injEq, true_and]
  apply List.ext_getElem?
  intro i
  by_cases hi : r = i
  · subst hi
    obtain ⟨hlt, hresolver⟩ := List.getElem?_eq_some_iff.mp hget
    simp [hlt, hresolver, Resolver.worker]
  · simp [hi]

theorem worker_names {w : ForegroundWatcher} {r : Nat} {key fallback : String}
    {place : ResolverPlace} (hget : w.resolvers[r]? = some ⟨key, fallback, place⟩) :
    w.names.workers[r]? = some ⟨key, place.phase⟩ := by
  simp [names, hget, Resolver.worker]

theorem resolve_cases {w w' : ForegroundWatcher} {r : Nat} {resolution : Resolution}
    (h : w.resolve r resolution = some w') :
    ∃ key fallback place, w.resolvers[r]? = some ⟨key, fallback, .resolving⟩ ∧
      w' = ({ w with cache := Function.update w.cache key (some (resolution.name fallback)) } :
        ForegroundWatcher).moveResolver r place ∧
      (place = .polling .entering ∨ place = .forgetting) := by
  unfold resolve at h
  split at h
  · rename_i key fallback hget
    cases resolution with
    | described description =>
        exact ⟨key, fallback, .polling .entering, hget, (Option.some.inj h).symm, Or.inl rfl⟩
    | undescribed =>
        exact ⟨key, fallback, .forgetting, hget, (Option.some.inj h).symm, Or.inr rfl⟩
  · contradiction

theorem names_claim (w : ForegroundWatcher) (key fallback : String) :
    w.names.Moves (w.claim key fallback).names := by
  unfold claim
  split
  · exact .stays
  · rename_i hnew
    have hnames := FilledCache.Moves.claims (s := w.names) hnew
    simpa [names, Resolver.worker, ResolverPlace.phase] using hnames

theorem names_currentStep {w w' : ForegroundWatcher} {place : CurrentPlace} {step : SampleStep}
    {outcome : BodyOutcome (Option ForegroundInfo) CurrentPlace}
    (h : w.currentStep u toUppercase place step = some (w', outcome)) :
    w.names.Moves w'.names ∧ w'.cache = w.cache ∧ w'.captures = w.captures := by
  cases place <;> cases step <;> simp only [currentStep, Option.some.injEq, Prod.mk.injEq,
    reduceCtorEq] at h
  · obtain ⟨rfl, -⟩ := h
    exact ⟨.stays, rfl, rfl⟩
  · obtain ⟨rfl, -⟩ := h
    refine ⟨names_claim w _ _, ?_, ?_⟩ <;> unfold claim <;> split <;> rfl
  · obtain ⟨rfl, -⟩ := h
    exact ⟨.stays, rfl, rfl⟩

theorem names_pollStep {w w' : ForegroundWatcher} {who : Sampler} {place : PollPlace}
    {step : SampleStep} {outcome : BodyOutcome Unit PollPlace}
    (h : w.pollStep u toUppercase who place step = some (w', outcome)) :
    w.names.Moves w'.names ∧ w'.cache = w.cache ∧ w'.captures = w.captures := by
  cases place with
  | entering =>
      cases step <;> simp only [pollStep, Option.ite_none_right_eq_some, Option.some.injEq,
        Prod.mk.injEq, reduceCtorEq] at h
      obtain ⟨-, rfl, -⟩ := h
      exact ⟨.stays, rfl, rfl⟩
  | current place =>
      obtain ⟨⟨w₁, outcome₁⟩, hcurrent, hw⟩ := Option.map_eq_some_iff.mp h
      have hnames := names_currentStep hcurrent
      cases outcome₁ <;> obtain ⟨rfl, -⟩ := Prod.mk.inj hw <;> exact hnames
  | informed info =>
      cases step <;> simp only [pollStep, Option.some.injEq, Prod.mk.injEq, reduceCtorEq] at h
      obtain ⟨rfl, -⟩ := h
      exact ⟨.stays, rfl, rfl⟩
  | leaving delivery =>
      cases step <;> simp only [pollStep, Option.some.injEq, Prod.mk.injEq, reduceCtorEq] at h
      obtain ⟨rfl, -⟩ := h
      exact ⟨.stays, rfl, rfl⟩

/-- A resolver that polls is past its read whatever its pass does; if the pass panics, the name
stays in flight. -/
theorem names_moveTo {w : ForegroundWatcher} {who : Sampler} {place : PollPlace}
    (hplace : w.pollPlace who = some place) (outcome : BodyOutcome Unit PollPlace) :
    w.names.Moves (w.moveTo who outcome).names := by
  cases who with
  | loop i => exact .stays
  | resolver r =>
      obtain ⟨key, fallback, hget⟩ := pollPlace_resolver.mp hplace
      have hworker : w.names.workers[r]? = some ⟨key, .finishing⟩ := worker_names hget
      have hstays : w.names.Moves
          { w.names with workers := w.names.workers.set r ⟨key, .finishing⟩ } := by
        obtain ⟨hlt, hsame⟩ := List.getElem?_eq_some_iff.mp hworker
        rw [← hsame, List.set_getElem_self hlt]
        exact .stays
      cases outcome with
      | goesOn place' | ends data =>
          rw [moveTo, names_moveResolver hget]
          exact hstays
      | panics =>
          rw [moveTo, names_moveResolver hget]
          exact .crashes hworker
  | capture c => contradiction

/-- A step moves the names at most twice: by a claim, and then by a resolver that goes on. -/
theorem names_step {w w' : ForegroundWatcher} {e : WatcherEvent}
    (hstep : w.step u toUppercase e = some w') :
    ∃ names, w.names.Moves names ∧ names.Moves w'.names := by
  cases e with
  | start | stop | capture | onChange | unsubscribe listener =>
      obtain rfl := Option.some.inj hstep
      exact ⟨w.names, .stays, .stays⟩
  | stopJoined k | check i timeout =>
      obtain ⟨loops, -, rfl⟩ := Option.map_eq_some_iff.mp hstep
      exact ⟨w.names, .stays, .stays⟩
  | stopCleared k | stopReturned k =>
      obtain ⟨-, hstep⟩ := Option.ite_none_right_eq_some.mp hstep
      obtain rfl := Option.some.inj hstep
      exact ⟨w.names, .stays, .stays⟩
  | sample who step =>
      rcases sampleStep_cases hstep with ⟨place, w₁, outcome, hplace, hpoll, rfl⟩ |
        ⟨c, place, w₁, outcome, rfl, -, hcurrent, captures, rfl⟩
      · have hplace₁ := ((pollStep_pass hpoll).1 who).trans hplace
        exact ⟨w₁.names, (names_pollStep hpoll).1, names_moveTo hplace₁ outcome⟩
      · exact ⟨w₁.names, (names_currentStep hcurrent).1, .stays⟩
  | resolved r resolution =>
      obtain ⟨key, fallback, place, hget, rfl, hplace⟩ := resolve_cases hstep
      have hphase : place.phase = .finishing := by rcases hplace with rfl | rfl <;> rfl
      have hworker : w.names.workers[r]? = some ⟨key, .reading⟩ := worker_names hget
      refine ⟨w.names, .stays, ?_⟩
      have hmoves := FilledCache.Moves.fills hworker (resolution.name fallback)
      rw [← hphase] at hmoves
      have hnames := names_moveResolver
        (w := { w with cache := Function.update w.cache key (some (resolution.name fallback)) })
        hget place
      rw [hnames]
      exact hmoves
  | forget r =>
      simp only [ForegroundWatcher.step] at hstep
      split at hstep
      · rename_i key fallback hget
        have hworker : w.names.workers[r]? = some ⟨key, .finishing⟩ := worker_names hget
        obtain rfl := Option.some.inj hstep
        refine ⟨w.names, .stays, ?_⟩
        rw [names_moveResolver (w := { w with pending := w.pending.erase key }) hget]
        exact .forgets hworker
      · contradiction
  | wake d =>
      simp only [ForegroundWatcher.step, wake] at hstep
      split at hstep
      · obtain rfl := Option.some.inj hstep
        exact ⟨w.names, .stays, .stays⟩
      · contradiction
  | snapshot d | call d =>
      simp only [ForegroundWatcher.step] at hstep
      split at hstep
      · obtain rfl := Option.some.inj hstep
        exact ⟨w.names, .stays, .stays⟩
      · contradiction

theorem sound_names {events : List WatcherEvent} {w : ForegroundWatcher}
    (h : exec (ForegroundWatcher.step u toUppercase) {} events = some w) : w.names.Sound := by
  refine exec_invariant (I := fun w => w.names.Sound) FilledCache.sound_empty ?_ h
  intro w₁ e w₂ hsound hstep
  obtain ⟨names, hfirst, hsecond⟩ := names_step hstep
  exact (hsound.moves hfirst).moves hsecond

theorem cached_exec {events : List WatcherEvent} {w w' : ForegroundWatcher}
    (h : exec (ForegroundWatcher.step u toUppercase) w events = some w') {key : String}
    (hcached : (w.cache key).isSome = true) : (w'.cache key).isSome = true := by
  refine exec_invariant (I := fun w => (w.cache key).isSome = true) hcached ?_ h
  intro w₁ e w₂ hcached hstep
  obtain ⟨names, hfirst, hsecond⟩ := names_step hstep
  exact hsecond.cached (hfirst.cached hcached)

/-- A resolver of `key` reads the name. -/
def Resolves (key name : String) (w : ForegroundWatcher) (e : WatcherEvent)
    (_ : ForegroundWatcher) : Prop :=
  ∃ r resolution fallback, e = .resolved r resolution ∧
    w.resolvers[r]? = some ⟨key, fallback, .resolving⟩ ∧ resolution.name fallback = name

theorem cache_moveTo (w : ForegroundWatcher) (who : Sampler) (outcome : BodyOutcome Unit PollPlace) :
    (w.moveTo who outcome).cache = w.cache ∧ (w.moveTo who outcome).captures = w.captures := by
  cases who <;> cases outcome <;> exact ⟨rfl, rfl⟩

theorem cache_step {w w' : ForegroundWatcher} {e : WatcherEvent}
    (hstep : w.step u toUppercase e = some w') {key name : String}
    (hcached : w'.cache key = some name) : w.cache key = some name ∨ Resolves key name w e w' := by
  cases e with
  | start | stop | capture | onChange | unsubscribe listener =>
      obtain rfl := Option.some.inj hstep
      exact Or.inl hcached
  | stopJoined k | check i timeout =>
      obtain ⟨loops, -, rfl⟩ := Option.map_eq_some_iff.mp hstep
      exact Or.inl hcached
  | stopCleared k | stopReturned k =>
      obtain ⟨-, hstep⟩ := Option.ite_none_right_eq_some.mp hstep
      obtain rfl := Option.some.inj hstep
      exact Or.inl hcached
  | sample who step =>
      left
      rcases sampleStep_cases hstep with ⟨place, w₁, outcome, -, hpoll, rfl⟩ |
        ⟨c, place, w₁, outcome, rfl, -, hcurrent, captures, rfl⟩
      · rw [(cache_moveTo w₁ who outcome).1, (names_pollStep hpoll).2.1] at hcached
        exact hcached
      · have hcache : w₁.cache key = some name := hcached
        rw [(names_currentStep hcurrent).2.1] at hcache
        exact hcache
  | resolved r resolution =>
      obtain ⟨key', fallback, place, hget, rfl, -⟩ := resolve_cases hstep
      have hupdate : Function.update w.cache key' (some (resolution.name fallback)) key =
          some name := hcached
      by_cases hkey : key = key'
      · subst hkey
        rw [Function.update_self] at hupdate
        exact Or.inr ⟨r, resolution, fallback, rfl, hget, Option.some.inj hupdate⟩
      · rw [Function.update_of_ne hkey] at hupdate
        exact Or.inl hupdate
  | forget r | snapshot d | call d =>
      simp only [ForegroundWatcher.step] at hstep
      split at hstep
      · obtain rfl := Option.some.inj hstep
        exact Or.inl hcached
      · contradiction
  | wake d =>
      simp only [ForegroundWatcher.step, wake] at hstep
      split at hstep
      · obtain rfl := Option.some.inj hstep
        exact Or.inl hcached
      · contradiction

theorem currentPlace_of_pollPlace {w : ForegroundWatcher} {who : Sampler} {place : CurrentPlace}
    (h : w.currentPlace who = some place) :
    (∃ c, who = .capture c ∧ w.captures[c]? = some (some place)) ∨
      (∀ c, who ≠ .capture c) ∧ w.pollPlace who = some (.current place) := by
  cases who with
  | capture c => exact Or.inl ⟨c, rfl, Option.join_eq_some_iff.mp h⟩
  | loop i | resolver r =>
      right
      refine ⟨by simp, ?_⟩
      simp only [currentPlace] at h
      split at h
      · rename_i place' hplace
        rw [hplace, Option.some.inj h]
      · contradiction

theorem cache_of_missed {cacheKey cache : String → Option String} {raw : Option RawForegroundSample}
    {fresh : Option ForegroundInfo} {key fallback : String}
    (h : sampleForeground u toUppercase cacheKey cache raw = some (.missed fresh key fallback)) :
    cache key = none := by
  unfold sampleForeground at h
  split at h
  · dsimp only at h
    split at h
    · simp at h
    · obtain ⟨name, -, h⟩ := Option.bind_eq_some_iff.mp h
      split at h
      · simp at h
      · rename_i key' hkey
        split at h
        · simp at h
        · rename_i hnone
          obtain ⟨-, rfl, -⟩ : _ ∧ key' = key ∧ name = fallback := by simpa using h
          exact hnone
  · simp at h

theorem missed_of_currentStep {w w' : ForegroundWatcher} {place : CurrentPlace} {step : SampleStep}
    {fresh : Option ForegroundInfo} {key fallback : String}
    (h : w.currentStep u toUppercase place step = some (w', .goesOn (.missed fresh key fallback))) :
    ∃ cacheKey raw, step = .sample cacheKey raw ∧
      sampleForeground u toUppercase cacheKey w.cache raw = some (.missed fresh key fallback) := by
  cases place <;> cases step <;> simp only [currentStep, Option.some.injEq, Prod.mk.injEq,
    reduceCtorEq, and_false, BodyOutcome.goesOn.injEq] at h
  rename_i cacheKey raw
  obtain ⟨-, h⟩ := h
  refine ⟨cacheKey, raw, rfl, ?_⟩
  cases hsample : sampleForeground u toUppercase cacheKey w.cache raw with
  | none => simp [hsample] at h
  | some place => simpa [hsample] using h

theorem currentPlace_of_step {w w' : ForegroundWatcher} (hw : w.PassSound) {e : WatcherEvent}
    (hstep : w.step u toUppercase e = some w') (hsample : ∀ who step, e ≠ .sample who step)
    {who : Sampler} {place : CurrentPlace} (hne : place ≠ .sampling)
    (hplace : w'.currentPlace who = some place) : w.currentPlace who = some place := by
  have hkept (w₁ : ForegroundWatcher) (hcaptures : w₁.captures = w.captures)
      (hpoll : w₁.pollPlace who = some (.current place) → w.pollPlace who = some (.current place))
      (hplace : w₁.currentPlace who = some place) : w.currentPlace who = some place := by
    rcases currentPlace_of_pollPlace hplace with ⟨c, rfl, hget⟩ | ⟨hcapture, hget⟩
    · rw [currentPlace, ← hcaptures]
      exact Option.join_eq_some_iff.mpr hget
    · have hold := hpoll hget
      cases who with
      | capture c => exact absurd rfl (hcapture c)
      | loop i | resolver r => simp only [currentPlace, hold]
  have hloops : ∀ f loops, w.loops.step pollLoop f = some loops →
      (∀ i outcome, f ≠ .work i outcome) →
      ({ w with loops } : ForegroundWatcher).currentPlace who = some place →
      w.currentPlace who = some place := by
    intro f loops hf hwork
    exact hkept _ rfl (pollPlace_of_loops_step hw hf hwork (by simp))
  have hsame {w₁ : ForegroundWatcher} (hloops : w₁.loops = w.loops)
      (hresolvers : w₁.resolvers = w.resolvers) (hcaptures : w₁.captures = w.captures)
      (hplace : w₁.currentPlace who = some place) : w.currentPlace who = some place :=
    hkept w₁ hcaptures (fun h => pollPlace_congr hloops (Or.inl hresolvers) who ▸ h) hplace
  have hresolver {w₁ : ForegroundWatcher} {r : Nat} {place' : ResolverPlace}
      (hloops : w₁.loops = w.loops) (hresolvers : w₁.resolvers = w.resolvers)
      (hcaptures : w₁.captures = w.captures) (hne' : place' ≠ .polling (.current place))
      (hplace : (w₁.moveResolver r place').currentPlace who = some place) :
      w.currentPlace who = some place := by
    refine hkept (w₁.moveResolver r place') hcaptures (fun h => ?_) hplace
    exact pollPlace_congr hloops (Or.inl hresolvers) who ▸ pollPlace_of_moveResolver hne' h
  cases e with
  | start =>
      obtain rfl := Option.some.inj hstep
      exact hloops (.start ()) _ rfl (by simp) hplace
  | stop =>
      obtain rfl := Option.some.inj hstep
      exact hloops .stop _ rfl (by simp) hplace
  | stopJoined k | check i timeout =>
      obtain ⟨loops, hf, rfl⟩ := Option.map_eq_some_iff.mp hstep
      exact hloops _ loops hf (by simp) hplace
  | sample who step => exact absurd rfl (hsample who step)
  | capture =>
      obtain rfl := Option.some.inj hstep
      rcases currentPlace_of_pollPlace hplace with ⟨c, rfl, hget⟩ | ⟨hcapture, hget⟩
      · -- The capture that begins samples first.
        rcases FilledCache.getElem?_concat_cases hget with ⟨-, hsampling⟩ | hold
        · exact absurd (Option.some.inj hsampling) hne
        · exact Option.join_eq_some_iff.mpr hold
      · cases who with
        | capture c => exact absurd rfl (hcapture c)
        | loop i | resolver r => exact hplace
  | stopCleared k | stopReturned k =>
      obtain ⟨-, hstep⟩ := Option.ite_none_right_eq_some.mp hstep
      obtain rfl := Option.some.inj hstep
      exact hsame rfl rfl rfl hplace
  | onChange | unsubscribe listener =>
      obtain rfl := Option.some.inj hstep
      exact hsame rfl rfl rfl hplace
  | resolved r resolution =>
      obtain ⟨key, fallback, place', -, rfl, hplace'⟩ := resolve_cases hstep
      refine hresolver rfl rfl rfl ?_ hplace
      rcases hplace' with rfl | rfl <;> simp
  | forget r =>
      simp only [ForegroundWatcher.step] at hstep
      split at hstep
      · obtain rfl := Option.some.inj hstep
        exact hresolver rfl rfl rfl (by simp) hplace
      · contradiction
  | wake d =>
      simp only [ForegroundWatcher.step, wake] at hstep
      split at hstep
      · obtain rfl := Option.some.inj hstep
        exact hsame rfl rfl rfl hplace
      · contradiction
  | snapshot d | call d =>
      simp only [ForegroundWatcher.step] at hstep
      split at hstep
      · obtain rfl := Option.some.inj hstep
        exact hsame rfl rfl rfl hplace
      · contradiction

theorem missed_of_pollStep {w w' : ForegroundWatcher} {who : Sampler} {place : PollPlace}
    {step : SampleStep} {fresh : Option ForegroundInfo} {key fallback : String}
    (h : w.pollStep u toUppercase who place step =
      some (w', .goesOn (.current (.missed fresh key fallback)))) :
    ∃ cacheKey raw, step = .sample cacheKey raw ∧
      sampleForeground u toUppercase cacheKey w.cache raw = some (.missed fresh key fallback) := by
  cases place with
  | entering | informed info | leaving delivery =>
      cases step <;> simp [pollStep] at h
  | current place =>
      obtain ⟨⟨w₁, outcome⟩, hcurrent, hw⟩ := Option.map_eq_some_iff.mp h
      have houtcome : outcome = .goesOn (.missed fresh key fallback) := by
        cases outcome <;> simp_all
      rw [houtcome] at hcurrent
      exact missed_of_currentStep hcurrent

theorem sampleStep_capture {w w' : ForegroundWatcher} {step : SampleStep} {c : Nat}
    (h : w.sampleStep u toUppercase step (.capture c) = some w') :
    ∃ place w₁ outcome, w.captures[c]? = some (some place) ∧
      w.currentStep u toUppercase place step = some (w₁, outcome) ∧
      ∃ place', w' = { w₁ with captures := w₁.captures.set c place' } ∧
        ∀ place, place' = some place → outcome = .goesOn place := by
  simp only [sampleStep] at h
  split at h
  · rename_i place hplace
    obtain ⟨⟨w₁, outcome⟩, hcurrent, h⟩ := Option.map_eq_some_iff.mp h
    refine ⟨place, w₁, outcome, hplace, hcurrent, ?_⟩
    cases outcome with
    | goesOn place' => exact ⟨some place', h.symm, by simp⟩
    | ends info => exact ⟨none, h.symm, by simp⟩
    | panics => exact ⟨none, h.symm, by simp⟩
  · contradiction

theorem currentPlace_congr {w w' : ForegroundWatcher} {who : Sampler}
    (hcaptures : ∀ c, who = .capture c → w'.captures[c]? = w.captures[c]?)
    (hpoll : w'.pollPlace who = w.pollPlace who) : w'.currentPlace who = w.currentPlace who := by
  cases who with
  | capture c => simp only [currentPlace, hcaptures c rfl]
  | loop i | resolver r => simp only [currentPlace, hpoll]

theorem currentPlace_sampleStep_of_ne {w w' : ForegroundWatcher} {step : SampleStep}
    {other who : Sampler} (hstep : w.sampleStep u toUppercase step other = some w')
    (hne : other ≠ who) : w'.currentPlace who = w.currentPlace who := by
  rcases sampleStep_cases hstep with ⟨place, w₁, outcome, -, hpoll, rfl⟩ | ⟨c, -, -, -, rfl, -⟩
  · apply currentPlace_congr
    · intro c _
      rw [(cache_moveTo w₁ other outcome).2, (names_pollStep hpoll).2.2]
    · rw [pollPlace_moveTo_of_ne hne, (pollStep_pass hpoll).1 who]
  · obtain ⟨place, w₁, outcome, -, hcurrent, place', rfl, -⟩ := sampleStep_capture hstep
    apply currentPlace_congr
    · rintro c' rfl
      have hc : c ≠ c' := fun hc => hne (congrArg Sampler.capture hc)
      rw [List.getElem?_set_ne hc, (names_currentStep hcurrent).2.2]
    · rw [← (pollPlace_currentStep hcurrent who).1]
      exact pollPlace_congr rfl (Or.inl rfl) who

theorem missed_of_sampleStep {w w' : ForegroundWatcher} {step : SampleStep} {who : Sampler}
    (hstep : w.sampleStep u toUppercase step who = some w') {fresh : Option ForegroundInfo}
    {key fallback : String}
    (hmissed : w'.currentPlace who = some (.missed fresh key fallback)) :
    ∃ cacheKey raw, step = .sample cacheKey raw ∧
      sampleForeground u toUppercase cacheKey w.cache raw = some (.missed fresh key fallback) := by
  rcases currentPlace_of_pollPlace hmissed with ⟨c, rfl, hget⟩ | ⟨hcapture, hget⟩
  · obtain ⟨place, w₁, outcome, -, hcurrent, place', rfl, hout⟩ := sampleStep_capture hstep
    have hplace : place' = some (.missed fresh key fallback) := by
      rcases FilledCache.getElem?_set_cases hget with ⟨-, hsame⟩ | ⟨hne, -⟩
      · exact hsame.symm
      · exact absurd rfl hne
    rw [hout _ hplace] at hcurrent
    exact missed_of_currentStep hcurrent
  · rcases sampleStep_cases hstep with ⟨place, w₁, outcome, hplace, hpoll, rfl⟩ |
      ⟨c, -, -, -, rfl, -⟩
    · rw [pollPlace_moveTo_self (((pollStep_pass hpoll).1 who).trans hplace)] at hget
      cases outcome with
      | goesOn place' =>
          obtain rfl := Option.some.inj hget
          exact missed_of_pollStep hpoll
      | ends data | panics => contradiction
    · exact absurd rfl (hcapture c)

theorem missed_of_step {w w' : ForegroundWatcher} (hw : w.PassSound) {e : WatcherEvent}
    (hstep : w.step u toUppercase e = some w') {who : Sampler} {fresh : Option ForegroundInfo}
    {key fallback : String}
    (hmissed : w'.currentPlace who = some (.missed fresh key fallback)) :
    (w.currentPlace who = some (.missed fresh key fallback) ∧ ∀ step, e ≠ .sample who step) ∨
      ∃ cacheKey raw, e = .sample who (.sample cacheKey raw) ∧
        sampleForeground u toUppercase cacheKey w.cache raw =
          some (.missed fresh key fallback) := by
  by_cases hsample : ∃ other step, e = .sample other step
  · obtain ⟨other, step, rfl⟩ := hsample
    by_cases hwho : other = who
    · subst hwho
      obtain ⟨cacheKey, raw, rfl, hshows⟩ := missed_of_sampleStep hstep hmissed
      exact Or.inr ⟨cacheKey, raw, rfl, hshows⟩
    · refine Or.inl ⟨?_, ?_⟩
      · rw [← hmissed, currentPlace_sampleStep_of_ne hstep hwho]
      · intro step' heq
        exact hwho (WatcherEvent.sample.inj heq).1
  · have hnone : ∀ who step, e ≠ .sample who step := fun who step he => hsample ⟨who, step, he⟩
    exact Or.inl ⟨currentPlace_of_step hw hstep hnone (by simp) hmissed, hnone who⟩

theorem looked_up_of_missed {events : List WatcherEvent} {w : ForegroundWatcher}
    (h : exec (ForegroundWatcher.step u toUppercase) {} events = some w) {who : Sampler}
    {fresh : Option ForegroundInfo} {key fallback : String}
    (hmissed : w.currentPlace who = some (.missed fresh key fallback)) :
    ∃ m w₁ cacheKey raw w₂,
      StepAt (ForegroundWatcher.step u toUppercase) {} events m w₁
        (.sample who (.sample cacheKey raw)) w₂ ∧
      sampleForeground u toUppercase cacheKey w₁.cache raw = some (.missed fresh key fallback) := by
  have hrun : w.PassSound ∧ (w.currentPlace who = some (.missed fresh key fallback) →
      Happened (ForegroundWatcher.step u toUppercase) {} events fun w₁ e _ =>
        ∃ cacheKey raw, e = .sample who (.sample cacheKey raw) ∧
          sampleForeground u toUppercase cacheKey w₁.cache raw =
            some (.missed fresh key fallback)) := by
    refine exec_induction (P := fun events w => w.PassSound ∧
      (w.currentPlace who = some (.missed fresh key fallback) →
        Happened (ForegroundWatcher.step u toUppercase) {} events fun w₁ e _ =>
          ∃ cacheKey raw, e = .sample who (.sample cacheKey raw) ∧
            sampleForeground u toUppercase cacheKey w₁.cache raw =
              some (.missed fresh key fallback))) ?_ ?_ h
    · refine ⟨passSound_new, fun hmissed => ?_⟩
      rcases currentPlace_of_pollPlace hmissed with ⟨c, -, hget⟩ | ⟨-, hget⟩
      · simp at hget
      · cases who <;> simp [pollPlace, Loops.place] at hget
    · rintro events w₁ e w₂ hrun ⟨hpass, ih⟩ hstep
      refine ⟨hpass.step hstep, fun hmissed => ?_⟩
      rw [Happened.concat_iff hrun hstep]
      rcases missed_of_step hpass hstep hmissed with ⟨hold, -⟩ | hnow
      · exact Or.inl (ih hold)
      · exact Or.inr hnow
  obtain ⟨m, w₁, e, w₂, hat, cacheKey, raw, rfl, hshows⟩ := hrun.2 hmissed
  exact ⟨m, w₁, cacheKey, raw, w₂, hat, hshows⟩

theorem read_of_cached {events : List WatcherEvent} {w : ForegroundWatcher}
    (h : exec (ForegroundWatcher.step u toUppercase) {} events = some w) {key name : String}
    (hcached : w.cache key = some name) :
    Happened (ForegroundWatcher.step u toUppercase) {} events (Resolves key name) := by
  have hrun : w.cache key = some name →
      Happened (ForegroundWatcher.step u toUppercase) {} events (Resolves key name) := by
    refine exec_induction (P := fun events w => w.cache key = some name →
      Happened (ForegroundWatcher.step u toUppercase) {} events (Resolves key name)) ?_ ?_ h
    · intro hcached
      simp at hcached
    · intro events w₁ e w₂ hrun ih hstep hcached
      rw [Happened.concat_iff hrun hstep]
      rcases cache_step hstep hcached with hold | hread
      · exact Or.inl (ih hold)
      · exact Or.inr hread
  exact hrun hcached

theorem claim_resolvers (w : ForegroundWatcher) (key fallback : String) :
    (w.claim key fallback).resolvers = w.resolvers ∨ key ∉ w.pending ∧
      (w.claim key fallback).resolvers = w.resolvers ++ [⟨key, fallback, .resolving⟩] := by
  unfold claim
  split
  · exact Or.inl rfl
  · rename_i hnew
    exact Or.inr ⟨hnew, rfl⟩

theorem resolvers_currentStep {w w' : ForegroundWatcher} {place : CurrentPlace} {step : SampleStep}
    {outcome : BodyOutcome (Option ForegroundInfo) CurrentPlace}
    (h : w.currentStep u toUppercase place step = some (w', outcome)) :
    w'.resolvers = w.resolvers ∨ ∃ fresh key fallback, step = .claim ∧
      place = .missed fresh key fallback ∧ key ∉ w.pending ∧
      w'.resolvers = w.resolvers ++ [⟨key, fallback, .resolving⟩] := by
  cases place <;> cases step <;> simp only [currentStep, Option.some.injEq, Prod.mk.injEq,
    reduceCtorEq] at h
  · obtain ⟨rfl, -⟩ := h
    exact Or.inl rfl
  · rename_i fresh key fallback
    obtain ⟨rfl, -⟩ := h
    rcases claim_resolvers w key fallback with hsame | ⟨hnew, hadded⟩
    · exact Or.inl hsame
    · exact Or.inr ⟨fresh, key, fallback, rfl, rfl, hnew, hadded⟩
  · obtain ⟨rfl, -⟩ := h
    exact Or.inl rfl

theorem resolvers_pollStep {w w' : ForegroundWatcher} {who : Sampler} {place : PollPlace}
    {step : SampleStep} {outcome : BodyOutcome Unit PollPlace}
    (h : w.pollStep u toUppercase who place step = some (w', outcome)) :
    w'.resolvers = w.resolvers ∨ ∃ fresh key fallback, step = .claim ∧
      place = .current (.missed fresh key fallback) ∧ key ∉ w.pending ∧
      w'.resolvers = w.resolvers ++ [⟨key, fallback, .resolving⟩] := by
  cases place with
  | entering =>
      cases step <;> simp only [pollStep, Option.ite_none_right_eq_some, Option.some.injEq,
        Prod.mk.injEq, reduceCtorEq] at h
      obtain ⟨-, rfl, -⟩ := h
      exact Or.inl rfl
  | current place =>
      obtain ⟨⟨w₁, outcome₁⟩, hcurrent, hw⟩ := Option.map_eq_some_iff.mp h
      have hresolvers : w'.resolvers = w₁.resolvers := by
        cases outcome₁ <;> obtain ⟨rfl, -⟩ := Prod.mk.inj hw <;> rfl
      rw [hresolvers]
      rcases resolvers_currentStep hcurrent with hsame | ⟨fresh, key, fallback, rfl, rfl, hadded⟩
      · exact Or.inl hsame
      · exact Or.inr ⟨fresh, key, fallback, rfl, rfl, hadded⟩
  | informed info =>
      cases step <;> simp only [pollStep, Option.some.injEq, Prod.mk.injEq, reduceCtorEq] at h
      obtain ⟨rfl, -⟩ := h
      exact Or.inl rfl
  | leaving delivery =>
      cases step <;> simp only [pollStep, Option.some.injEq, Prod.mk.injEq, reduceCtorEq] at h
      obtain ⟨rfl, -⟩ := h
      exact Or.inl rfl

theorem length_moveResolver (w : ForegroundWatcher) (r : Nat) (place : ResolverPlace) :
    (w.moveResolver r place).resolvers.length = w.resolvers.length := by
  simp [moveResolver]

/-- What moving a thread on does to the resolvers: none is added, and one that resolves goes on
resolving. -/
theorem resolvers_moveTo {w : ForegroundWatcher} {who : Sampler} {place : PollPlace}
    (hplace : w.pollPlace who = some place) (outcome : BodyOutcome Unit PollPlace) :
    (w.moveTo who outcome).resolvers.length = w.resolvers.length ∧
      ∀ (r : Nat) (key fallback : String), w.resolvers[r]? = some ⟨key, fallback, .resolving⟩ →
        (w.moveTo who outcome).resolvers[r]? = some ⟨key, fallback, .resolving⟩ := by
  cases who with
  | loop i => exact ⟨rfl, fun _ _ _ hget => hget⟩
  | resolver r =>
      obtain ⟨key, fallback, hget⟩ := pollPlace_resolver.mp hplace
      constructor
      · cases outcome <;> exact length_moveResolver w r _
      · intro r' key' fallback' hresolving
        have hne : r ≠ r' := by
          rintro rfl
          rw [hget] at hresolving
          simp at hresolving
        cases outcome <;> simp [moveTo, moveResolver, hne, hresolving]
  | capture c => contradiction

/-- The step that starts a resolver is a claim, by a thread that is at a miss. -/
theorem claim_of_starts {w w' : ForegroundWatcher} {e : WatcherEvent}
    (hstep : w.step u toUppercase e = some w') (hstarts : w.resolvers.length < w'.resolvers.length) :
    ∃ who fresh key fallback, e = .sample who .claim ∧
      w.currentPlace who = some (.missed fresh key fallback) ∧ key ∉ w.pending ∧
      w'.resolvers[w.resolvers.length]? = some ⟨key, fallback, .resolving⟩ := by
  have hsame (hlength : w'.resolvers.length = w.resolvers.length) : False := by omega
  cases e with
  | start | stop | capture | onChange | unsubscribe listener =>
      obtain rfl := Option.some.inj hstep
      exact (hsame rfl).elim
  | stopJoined k | check i timeout =>
      obtain ⟨loops, -, rfl⟩ := Option.map_eq_some_iff.mp hstep
      exact (hsame rfl).elim
  | stopCleared k | stopReturned k =>
      obtain ⟨-, hstep⟩ := Option.ite_none_right_eq_some.mp hstep
      obtain rfl := Option.some.inj hstep
      exact (hsame rfl).elim
  | sample who step =>
      rcases sampleStep_cases hstep with ⟨place, w₁, outcome, hplace, hpoll, rfl⟩ |
        ⟨c, place, w₁, outcome, rfl, hget, hcurrent, captures, rfl⟩
      · have hplace₁ := ((pollStep_pass hpoll).1 who).trans hplace
        obtain ⟨hlength, hkept⟩ := resolvers_moveTo hplace₁ outcome
        rcases resolvers_pollStep hpoll with hkeeps | ⟨fresh, key, fallback, rfl, rfl, hnew, hadded⟩
        · rw [hkeeps] at hlength
          exact (hsame hlength).elim
        · refine ⟨who, fresh, key, fallback, rfl, ?_, hnew, ?_⟩
          · cases who with
            | loop i | resolver r => simp only [currentPlace, hplace]
            | capture c => contradiction
          · apply hkept
            rw [hadded, List.getElem?_concat_length]
      · rcases resolvers_currentStep hcurrent with hkeeps |
          ⟨fresh, key, fallback, rfl, rfl, hnew, hadded⟩
        · exact (hsame (congrArg List.length hkeeps)).elim
        · refine ⟨.capture c, fresh, key, fallback, rfl, ?_, hnew, ?_⟩
          · exact Option.join_eq_some_iff.mpr hget
          · have hlast : w₁.resolvers[w.resolvers.length]? = some ⟨key, fallback, .resolving⟩ := by
              rw [hadded, List.getElem?_concat_length]
            exact hlast
  | resolved r resolution =>
      obtain ⟨key, fallback, place, -, rfl, -⟩ := resolve_cases hstep
      exact (hsame (length_moveResolver _ r place)).elim
  | forget r =>
      simp only [ForegroundWatcher.step] at hstep
      split at hstep
      · obtain rfl := Option.some.inj hstep
        exact (hsame (length_moveResolver _ r _)).elim
      · contradiction
  | wake d =>
      simp only [ForegroundWatcher.step, wake] at hstep
      split at hstep
      · obtain rfl := Option.some.inj hstep
        exact (hsame rfl).elim
      · contradiction
  | snapshot d | call d =>
      simp only [ForegroundWatcher.step] at hstep
      split at hstep
      · obtain rfl := Option.some.inj hstep
        exact (hsame rfl).elim
      · contradiction

end ForegroundWatcher

/-- However threads poll, capture, resolve and stop: two resolvers that run resolve different names,
a name is cached before its resolver polls, what is cached was read by a resolver of that name and
stays cached, and once every resolver has ended no name that is still in flight is missing. -/
theorem names_are_resolved_one_at_a_time (events : List WatcherEvent) (w : ForegroundWatcher)
    (h : exec (ForegroundWatcher.step u toUppercase) {} events = some w) :
    (∀ (i j : Nat) (resolver resolver' : Resolver), w.resolvers[i]? = some resolver →
      w.resolvers[j]? = some resolver' → resolver.place ≠ .ended → resolver'.place ≠ .ended →
      resolver.key = resolver'.key → i = j) ∧
    (∀ resolver ∈ w.resolvers, resolver.place ≠ .resolving →
      (w.cache resolver.key).isSome = true) ∧
    (∀ key name, w.cache key = some name → Happened (ForegroundWatcher.step u toUppercase) {}
      events (ForegroundWatcher.Resolves key name)) ∧
    (∀ events' w', exec (ForegroundWatcher.step u toUppercase) w events' = some w' →
      ∀ key, (w.cache key).isSome = true → (w'.cache key).isSome = true) ∧
    ((∀ resolver ∈ w.resolvers, resolver.place = .ended) →
      ∀ key ∈ w.pending, (w.cache key).isSome = true) := by
  have hsound := ForegroundWatcher.sound_names h
  have hended {place : ResolverPlace} (hplace : place ≠ .ended) : place.phase ≠ .ended := by
    cases place <;> simp_all [ResolverPlace.phase]
  have hreading {place : ResolverPlace} (hplace : place ≠ .resolving) :
      place.phase ≠ .reading := by
    cases place <;> simp_all [ResolverPlace.phase]
  refine ⟨?_, ?_, fun _ _ => ForegroundWatcher.read_of_cached h,
    fun _ _ hrun _ => ForegroundWatcher.cached_exec hrun, ?_⟩
  · intro i j resolver resolver' hi hj hrunning hrunning' hkey
    exact hsound.distinct i j resolver.worker resolver'.worker (ForegroundWatcher.worker_names hi)
      (ForegroundWatcher.worker_names hj) (hended hrunning) (hended hrunning') hkey
  · intro resolver hmem hplace
    obtain ⟨i, hi⟩ := List.mem_iff_getElem?.mp hmem
    exact hsound.filled i resolver.worker (ForegroundWatcher.worker_names hi) (hreading hplace)
  · intro hall key hpending
    refine hsound.at_rest ?_ (Or.inl hpending)
    intro worker hworker
    obtain ⟨resolver, hmem, rfl⟩ := List.mem_map.mp hworker
    rw [Resolver.worker, hall resolver hmem]
    rfl

/-- A capture misses the name before a resolver has read it, and claims it after the resolver is
done. -/
def lateClaim : List WatcherEvent :=
  [.start, .sample (.loop 0) .enter, .sample (.loop 0) (.sample some (some notepad)), .capture,
    .sample (.capture 0) (.sample some (some notepad)), .sample (.loop 0) .claim,
    .resolved 0 .undescribed, .forget 0, .sample (.capture 0) .claim]

theorem names_are_resolved_one_at_a_time_late : ∃ w,
    exec (ForegroundWatcher.step .ascii Char.toString) {} lateClaim = some w ∧
      w.resolvers.map (·.place) = [.ended, .resolving] ∧ (w.cache "notepad.exe").isSome = true := by
  have hrun : (exec (ForegroundWatcher.step .ascii Char.toString) {} lateClaim).map
      (fun w => (w.resolvers.map (·.key), w.resolvers.map (·.place))) =
        some (["notepad.exe", "notepad.exe"], [.ended, .resolving]) := by decide +kernel
  obtain ⟨w, hw, hresolvers⟩ := Option.map_eq_some_iff.mp hrun
  obtain ⟨hkeys, hplaces⟩ := Prod.mk.inj hresolvers
  obtain ⟨-, hcached, -⟩ := names_are_resolved_one_at_a_time .ascii Char.toString lateClaim w hw
  refine ⟨w, hw, hplaces, ?_⟩
  rcases hlist : w.resolvers with _ | ⟨resolver, rest⟩
  · simp [hlist] at hkeys
  · rw [hlist, List.map_cons, List.cons.injEq] at hkeys hplaces
    rw [← hkeys.1]
    exact hcached resolver (by simp [hlist]) (by simp [hplaces.1])

/-- The thread whose claim starts a resolver looked the name up earlier and missed it. Until then
the name was not cached: a name that is cached is resolved again only for a look-up before. -/
theorem resolver_starts_from_a_miss (events : List WatcherEvent) {n : Nat}
    {w w' : ForegroundWatcher} {e : WatcherEvent}
    (hat : StepAt (ForegroundWatcher.step u toUppercase) {} events n w e w')
    (hstarts : w.resolvers.length < w'.resolvers.length) :
    ∃ who key fallback, e = .sample who .claim ∧
      w'.resolvers[w.resolvers.length]? = some ⟨key, fallback, .resolving⟩ ∧
      (∀ resolver ∈ w.resolvers, resolver.place ≠ .ended → resolver.key ≠ key) ∧
      ∃ m w₁ cacheKey raw fresh w₂, m < n ∧
        StepAt (ForegroundWatcher.step u toUppercase) {} events m w₁
          (.sample who (.sample cacheKey raw)) w₂ ∧
        sampleForeground u toUppercase cacheKey w₁.cache raw =
          some (.missed fresh key fallback) ∧
        ∀ k w₃, k ≤ m → exec (ForegroundWatcher.step u toUppercase) {} (events.take k) = some w₃ →
          w₃.cache key = none := by
  obtain ⟨who, fresh, key, fallback, rfl, hmissed, hnew, hadded⟩ :=
    ForegroundWatcher.claim_of_starts hat.step hstarts
  obtain ⟨m, w₁, cacheKey, raw, w₂, hlooked, hshows⟩ :=
    ForegroundWatcher.looked_up_of_missed hat.before hmissed
  obtain ⟨hlt, hlooked⟩ := hlooked.of_take
  refine ⟨who, key, fallback, rfl, hadded, ?_, m, w₁, cacheKey, raw, fresh, w₂, hlt, hlooked,
    hshows, ?_⟩
  · intro resolver hmem hplace hkey
    have hsound := ForegroundWatcher.sound_names hat.before
    obtain ⟨i, hi⟩ := List.mem_iff_getElem?.mp hmem
    have hphase : resolver.worker.phase ≠ .ended := by
      cases hcase : resolver.place <;> simp_all [Resolver.worker, ResolverPlace.phase]
    exact hnew (hkey ▸ hsound.owns i resolver.worker (ForegroundWatcher.worker_names hi) hphase)
  · intro k w₃ hk hrun
    have hnone := ForegroundWatcher.cache_of_missed hshows
    obtain ⟨w₄, hbefore, hrest⟩ := exec_take hlooked.before k
    rw [List.take_take, Nat.min_eq_left hk, hrun] at hbefore
    obtain rfl := Option.some.inj hbefore
    by_contra hcached
    have hlater := ForegroundWatcher.cached_exec hrest (Option.isSome_iff_ne_none.mpr hcached)
    rw [hnone] at hlater
    contradiction

theorem resolver_starts_from_a_miss_late : ∃ w w', StepAt
    (ForegroundWatcher.step .ascii Char.toString) {} lateClaim 8 w (.sample (.capture 0) .claim) w' ∧
      w.cache "notepad.exe" = some "notepad" ∧
      ∃ m < 8, ∀ k w₁, k ≤ m →
        exec (ForegroundWatcher.step .ascii Char.toString) {} (lateClaim.take k) = some w₁ →
          w₁.cache "notepad.exe" = none := by
  have hrun : (exec (ForegroundWatcher.step .ascii Char.toString) {} (lateClaim.take 8)).map
      (fun w => (w.cache "notepad.exe", w.resolvers.length)) = some (some "notepad", 1) := by
    decide +kernel
  have hend : (exec (ForegroundWatcher.step .ascii Char.toString) {} lateClaim).map
      (fun w => w.resolvers.map (·.key)) = some ["notepad.exe", "notepad.exe"] := by
    decide +kernel
  obtain ⟨w', hw', hkeys⟩ := Option.map_eq_some_iff.mp hend
  obtain ⟨w, hw, hcounts⟩ := Option.map_eq_some_iff.mp hrun
  have hlast : lateClaim[8]? = some (.sample (.capture 0) .claim) := rfl
  obtain ⟨w₀, hat⟩ := stepAt_of_take_succ hw' hlast
  obtain rfl := Option.some.inj (hw.symm.trans hat.before)
  obtain ⟨hcached, hlength⟩ := Prod.mk.inj hcounts
  have hlength' := congrArg List.length hkeys
  rw [List.length_map] at hlength'
  obtain ⟨who, key, fallback, -, hadded, -, m, -, -, -, -, -, hlt, -, -, hnone⟩ :=
    resolver_starts_from_a_miss .ascii Char.toString lateClaim hat (by simp [hlength, hlength'])
  have hkey : key = "notepad.exe" := by
    rw [hlength] at hadded
    have hlast := congrArg (fun keys => keys[1]?) hkeys
    simpa [hadded] using hlast
  exact ⟨w, w', hat, hcached, m, hlt, hkey ▸ hnone⟩

end YohakuCore
