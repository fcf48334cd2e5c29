import YohakuCore.Store.Config

/-!
# Listeners that come back to the store

A listener may do whatever a caller of the store may do. It runs without the locks of the
configuration and of the listeners, which are held for one step at a time, but within the update
that calls it, and that update keeps its lock until the last listener has returned. The lock is
not reentrant: a listener that calls `update` waits for its own thread.
-/

namespace YohakuCore

open Framework

/-- What a caller of the store does, a listener included. What it does next depends on what the
store has returned, and it always comes to an end. -/
inductive Program where
  | done
  | get (next : FullCoreConfig → Program)
  | onChange (callback : FullCoreConfig → Program) (next : Nat → Program)
  | unsubscribe (id : Nat) (next : Program)
  | update (mutate : FullCoreConfig → FullCoreConfig)
      (next : Except ConfigStoreError FullCoreConfig → Program)

/-- What follows an update that a thread is in. -/
abbrev UpdateFrame := Except ConfigStoreError FullCoreConfig → Program

/-- The program that runs, or `none` in the steps of the innermost update itself. -/
structure ConfigThread where
  program : Option Program
  frames : List UpdateFrame

/-- A listener is kept under its id, also once it is unregistered: an update may still hold it. -/
structure ConfigThreads (Text : Type*) where
  store : ConfigStore Text
  callbacks : List (FullCoreConfig → Program)
  updateLock : Option Nat
  threads : List ConfigThread

inductive ThreadMove (Text : Type*) where
  | calls
  | updates (event : ConfigEvent Text)
  | returns

namespace ConfigThreads

variable {Text : Type*} (json : JsonText Text)

/-- A process that has opened the store, with the programs of its threads. -/
def opened (file tmp : Option Text) (programs : List Program) : ConfigThreads Text where
  store := ConfigStore.opened json file tmp
  callbacks := []
  updateLock := none
  threads := programs.map fun program => ⟨some program, []⟩

def setThread (s : ConfigThreads Text) (i : Nat) (thread : ConfigThread) : ConfigThreads Text :=
  { s with threads := s.threads.set i thread }

/-- The lock of the updates is taken for the whole call, and by one thread at a time. A mutation
that is refused returns at once. -/
def beginUpdate (s : ConfigThreads Text) (i : Nat) (frames : List UpdateFrame)
    (mutate : FullCoreConfig → FullCoreConfig) (next : UpdateFrame) :
    Option (ConfigThreads Text) :=
  match s.updateLock with
  | some _ => none
  | none =>
      match s.store.result (.begun mutate) with
      | some r => some (s.setThread i ⟨some (next r), frames⟩)
      | none =>
          (s.store.step json (.begun mutate)).map fun store =>
            { s with store, updateLock := some i }.setThread i ⟨none, next :: frames⟩

def call (s : ConfigThreads Text) (i : Nat) (frames : List UpdateFrame) :
    Program → Option (ConfigThreads Text)
  | .done => none
  | .get next => some (s.setThread i ⟨some (next s.store.config), frames⟩)
  | .onChange callback next =>
      (s.store.step json .subscribed).map fun store =>
        { s with store, callbacks := s.callbacks ++ [callback] }.setThread i
          ⟨some (next s.store.nextListenerId), frames⟩
  | .unsubscribe id next =>
      (s.store.step json (.unsubscribed id)).map fun store =>
        { s with store }.setThread i ⟨some next, frames⟩
  | .update mutate next => s.beginUpdate json i frames mutate next

/-- The events that are steps of an update in progress. -/
def isUpdateStep : ConfigEvent Text → Bool
  | .succeeded _ | .failed _ | .swapped | .snapshotTaken | .called | .ended => true
  | _ => false

/-- The listener that the update calls next, with what it is given. -/
def nextCallback (s : ConfigThreads Text) : Program :=
  match s.store.update with
  | some (.notify next (id :: _)) => (s.callbacks[id]?).elim .done fun callback => callback next
  | _ => .done

/-- One step of the update that thread `i` is in. The lock is released as it returns. -/
def updateStep (s : ConfigThreads Text) (i : Nat) (frame : UpdateFrame)
    (frames : List UpdateFrame) (event : ConfigEvent Text) : Option (ConfigThreads Text) :=
  if isUpdateStep event && s.updateLock == some i then
    (s.store.step json event).map fun store =>
      match event, s.store.result event with
      | .called, _ => { s with store }.setThread i ⟨some s.nextCallback, frame :: frames⟩
      | _, some r => { s with store, updateLock := none }.setThread i ⟨some (frame r), frames⟩
      | _, none => { s with store }
  else none

def step (s : ConfigThreads Text) : Nat × ThreadMove Text → Option (ConfigThreads Text)
  | (i, .calls) =>
      match s.threads[i]? with
      | some ⟨some program, frames⟩ => s.call json i frames program
      | _ => none
  | (i, .updates event) =>
      match s.threads[i]? with
      | some ⟨none, frame :: frames⟩ => s.updateStep json i frame frames event
      | _ => none
  | (i, .returns) =>
      match s.threads[i]? with
      | some ⟨some .done, frame :: frames⟩ => some (s.setThread i ⟨none, frame :: frames⟩)
      | _ => none

/-- The thread has come to an update while it holds the lock of the updates itself. -/
def WaitsForItself (s : ConfigThreads Text) (i : Nat) : Prop :=
  s.updateLock = some i ∧
    ∃ mutate next frames, s.threads[i]? = some ⟨some (.update mutate next), frames⟩

/-- Every thread is at the end of its program, so that every update has returned. -/
def AllDone (s : ConfigThreads Text) : Prop :=
  ∀ (i : Nat) (thread : ConfigThread), s.threads[i]? = some thread → thread = ⟨some .done, []⟩

/-- Whatever the threads do: none waits for itself, one can go on unless all are done, and they do
not go on for ever; between the snapshot and the end of an update its listeners are called once
each with its configuration, which runs the callback that was registered; and whenever no update is
running the memory and the file hold the configuration of the last one that succeeded. -/
structure Reentrant (file tmp : Option Text) (programs : List Program) : Prop where
  no_self_wait : ∀ es s, exec (step json) (opened json file tmp programs) es = some s →
    ∀ i, ¬ s.WaitsForItself i
  goes_on : ∀ es s, exec (step json) (opened json file tmp programs) es = some s →
    s.AllDone ∨ ∃ e s', s.step json e = some s'
  ends : ∀ run events, run 0 = opened json file tmp programs → ¬ Endless (step json) run events
  calls_once : ∀ es i n m s₁ s₁' s₂ s₂',
    StepAt (step json) (opened json file tmp programs) es n s₁ (i, .updates .snapshotTaken) s₁' →
    StepAt (step json) (opened json file tmp programs) es m s₂ (i, .updates .ended) s₂' → n < m →
    (∀ k : Nat, n < k → k < m → es[k]? ≠ some (i, .updates .ended)) →
    ∃ next, s₂.store.update = some (.notify next []) ∧
      s₂.store.notified = s₁.store.notified ++ s₁.store.listeners.map (·, next) ∧
      s₁.store.listeners.Nodup
  calls_listener : ∀ es i n s₁ s₂,
    StepAt (step json) (opened json file tmp programs) es n s₁ (i, .updates .called) s₂ →
    ∃ next id ids callback frame, s₁.store.update = some (.notify next (id :: ids)) ∧
      s₁.callbacks[id]? = some callback ∧
      s₂.threads[i]? = some ⟨some (callback next), [frame]⟩ ∧
      s₂.store.notified = s₁.store.notified ++ [(id, next)]
  agrees : ∀ es s, exec (step json) (opened json file tmp programs) es = some s →
    s.updateLock = none →
    s.store.config = s.store.returned ∧ ConfigStore.load json s.store.file = s.store.returned

/-- No listener is about to call `update`. -/
def NoneUpdates (s : ConfigThreads Text) : Prop :=
  ∀ (i : Nat) mutate next frame frames,
    s.threads[i]? ≠ some ⟨some (.update mutate next), frame :: frames⟩

/-- No listener that an update calls ever comes to call `update`. -/
def NoUpdateInCallback (file tmp : Option Text) (programs : List Program) : Prop :=
  ∀ es s, exec (step json) (opened json file tmp programs) es = some s → s.NoneUpdates

variable {json} {s s' : ConfigThreads Text}

inductive StepCase (json : JsonText Text) (s : ConfigThreads Text) :
    Nat × ThreadMove Text → ConfigThreads Text → Prop where
  | get {i : Nat} {next : FullCoreConfig → Program} {frames : List UpdateFrame}
      (at_i : s.threads[i]? = some ⟨some (.get next), frames⟩) :
      StepCase json s (i, .calls) (s.setThread i ⟨some (next s.store.config), frames⟩)
  | onChange {i : Nat} {callback : FullCoreConfig → Program} {next : Nat → Program}
      {frames : List UpdateFrame} (at_i : s.threads[i]? = some ⟨some (.onChange callback next), frames⟩)
      {store : ConfigStore Text} (hstore : s.store.step json .subscribed = some store) :
      StepCase json s (i, .calls)
        ({ s with store, callbacks := s.callbacks ++ [callback] }.setThread i
          ⟨some (next s.store.nextListenerId), frames⟩)
  | unsubscribe {i id : Nat} {next : Program} {frames : List UpdateFrame}
      (at_i : s.threads[i]? = some ⟨some (.unsubscribe id next), frames⟩)
      {store : ConfigStore Text} (hstore : s.store.step json (.unsubscribed id) = some store) :
      StepCase json s (i, .calls) ({ s with store }.setThread i ⟨some next, frames⟩)
  | refused {i : Nat} {mutate : FullCoreConfig → FullCoreConfig} {next : UpdateFrame}
      {frames : List UpdateFrame} (at_i : s.threads[i]? = some ⟨some (.update mutate next), frames⟩)
      (free : s.updateLock = none) (r : Except ConfigStoreError FullCoreConfig) :
      StepCase json s (i, .calls) (s.setThread i ⟨some (next r), frames⟩)
  | begins {i : Nat} {mutate : FullCoreConfig → FullCoreConfig} {next : UpdateFrame}
      {frames : List UpdateFrame} (at_i : s.threads[i]? = some ⟨some (.update mutate next), frames⟩)
      (free : s.updateLock = none) {store : ConfigStore Text}
      (hvalid : s.store.result (.begun mutate) = none)
      (hstore : s.store.step json (.begun mutate) = some store) :
      StepCase json s (i, .calls)
        ({ s with store, updateLock := some i }.setThread i ⟨none, next :: frames⟩)
  | called {i : Nat} {frame : UpdateFrame} {frames : List UpdateFrame}
      (at_i : s.threads[i]? = some ⟨none, frame :: frames⟩) (lock : s.updateLock = some i)
      {store : ConfigStore Text} (hstore : s.store.step json .called = some store) :
      StepCase json s (i, .updates .called)
        ({ s with store }.setThread i ⟨some s.nextCallback, frame :: frames⟩)
  | finishes {i : Nat} {frame : UpdateFrame} {frames : List UpdateFrame}
      (at_i : s.threads[i]? = some ⟨none, frame :: frames⟩) (lock : s.updateLock = some i)
      {event : ConfigEvent Text} (hevent : isUpdateStep event = true)
      {r : Except ConfigStoreError FullCoreConfig} (hresult : s.store.result event = some r)
      {store : ConfigStore Text} (hstore : s.store.step json event = some store) :
      StepCase json s (i, .updates event)
        ({ s with store, updateLock := none }.setThread i ⟨some (frame r), frames⟩)
  | advances {i : Nat} {frame : UpdateFrame} {frames : List UpdateFrame}
      (at_i : s.threads[i]? = some ⟨none, frame :: frames⟩) (lock : s.updateLock = some i)
      {event : ConfigEvent Text} (hevent : isUpdateStep event = true) (hcalled : event ≠ .called)
      (hresult : s.store.result event = none)
      {store : ConfigStore Text} (hstore : s.store.step json event = some store) :
      StepCase json s (i, .updates event) { s with store }
  | returns {i : Nat} {frame : UpdateFrame} {frames : List UpdateFrame}
      (at_i : s.threads[i]? = some ⟨some .done, frame :: frames⟩) :
      StepCase json s (i, .returns) (s.setThread i ⟨none, frame :: frames⟩)

theorem step_case {e : Nat × ThreadMove Text} (h : s.step json e = some s') :
    StepCase json s e s' := by
  obtain ⟨i, move⟩ := e
  cases move with
  | calls =>
      simp only [step] at h
      split at h
      · rename_i program frames hget
        cases program with
        | done => contradiction
        | get next =>
            obtain rfl := Option.some.inj h
            exact .get hget
        | onChange callback next =>
            simp only [call] at h
            obtain ⟨store, hstore, rfl⟩ := Option.map_eq_some_iff.mp h
            exact .onChange hget hstore
        | unsubscribe id next =>
            simp only [call] at h
            obtain ⟨store, hstore, rfl⟩ := Option.map_eq_some_iff.mp h
            exact .unsubscribe hget hstore
        | update mutate next =>
            simp only [call, beginUpdate] at h
            split at h
            · contradiction
            · rename_i hfree
              split at h
              · rename_i r hresult
                obtain rfl := Option.some.inj h
                exact .refused hget hfree r
              · rename_i hvalid
                obtain ⟨store, hstore, rfl⟩ := Option.map_eq_some_iff.mp h
                exact .begins hget hfree hvalid hstore
      · contradiction
  | updates event =>
      simp only [step] at h
      split at h
      · rename_i frame frames hget
        obtain ⟨hguard, h⟩ := Option.ite_none_right_eq_some.mp h
        obtain ⟨hevent, hlock⟩ := Bool.and_eq_true_iff.mp hguard
        obtain ⟨store, hstore, h⟩ := Option.map_eq_some_iff.mp h
        have hlock' : s.updateLock = some i := by simpa using hlock
        split at h
        · subst h
          exact .called hget hlock' hstore
        · rename_i r _ hresult
          subst h
          exact .finishes hget hlock' hevent hresult hstore
        · rename_i hcalled _ _ hresult
          subst h
          exact .advances hget hlock' hevent hcalled hresult hstore
      · contradiction
  | returns =>
      simp only [step] at h
      split at h
      · rename_i frame frames hget
        obtain rfl := Option.some.inj h
        exact .returns hget
      · contradiction

/-- The lock is held by the one thread that is in an update, which is in one only; while it is in a
listener the update is at its callbacks. -/
structure Guarded (s : ConfigThreads Text) : Prop where
  free : s.updateLock = none → s.store.update = none
  held : ∀ i, s.updateLock = some i → ∃ stage program frame, s.store.update = some stage ∧
    s.threads[i]? = some ⟨program, [frame]⟩ ∧
    (program.isSome = true → ∃ next ids, stage = .notify next ids)
  others : ∀ (j : Nat) thread, s.threads[j]? = some thread → s.updateLock ≠ some j →
    thread.frames = [] ∧ thread.program.isSome = true

theorem getElem?_setThread (s : ConfigThreads Text) (i j : Nat) (thread : ConfigThread) :
    (s.setThread i thread).threads[j]? =
      if i = j then s.threads[j]?.map fun _ => thread else s.threads[j]? := by
  rw [setThread, List.getElem?_set]
  split
  · rename_i hij
    subst hij
    by_cases hlt : i < s.threads.length
    · simp [hlt]
    · simp [hlt]
  · rfl

theorem setThread_self {s : ConfigThreads Text} {i : Nat} {old : ConfigThread}
    (h : s.threads[i]? = some old) (thread : ConfigThread) :
    (s.setThread i thread).threads[i]? = some thread := by
  rw [getElem?_setThread, if_pos rfl, h]
  rfl

theorem setThread_of_ne {s : ConfigThreads Text} {i j : Nat} (hij : i ≠ j) (thread : ConfigThread) :
    (s.setThread i thread).threads[j]? = s.threads[j]? := by
  rw [getElem?_setThread, if_neg hij]

theorem guarded_opened (file tmp : Option Text) (programs : List Program) :
    (opened json file tmp programs).Guarded where
  free _ := rfl
  held i hi := by contradiction
  others j thread hget _ := by
    rw [opened, List.getElem?_map] at hget
    obtain ⟨program, -, rfl⟩ := Option.map_eq_some_iff.mp hget
    exact ⟨rfl, rfl⟩

theorem Guarded.goesOn (h : s.Guarded) {i : Nat} {old new : Program} {frames : List UpdateFrame}
    (hget : s.threads[i]? = some ⟨some old, frames⟩) {store : ConfigStore Text}
    (hupdate : store.update = s.store.update) (callbacks : List (FullCoreConfig → Program)) :
    ({ s with store, callbacks }.setThread i ⟨some new, frames⟩).Guarded := by
  have hset := fun thread => setThread_self (s := { s with store, callbacks }) hget thread
  refine ⟨fun hfree => hupdate.trans (h.free hfree), ?_, ?_⟩
  · intro j hj
    obtain ⟨stage, program, frame, hstage, hj', hcallback⟩ := h.held j hj
    by_cases hij : i = j
    · subst hij
      rw [hget] at hj'
      obtain ⟨rfl, rfl⟩ := ConfigThread.mk.inj (Option.some.inj hj')
      exact ⟨stage, some new, frame, hupdate.trans hstage, hset _, fun _ => hcallback rfl⟩
    · exact ⟨stage, program, frame, hupdate.trans hstage, (setThread_of_ne hij _).trans hj',
        hcallback⟩
  · intro j thread hj hlock
    by_cases hij : i = j
    · subst hij
      obtain rfl := Option.some.inj ((hset _).symm.trans hj)
      exact ⟨(h.others i _ hget hlock).1, rfl⟩
    · exact h.others j thread ((setThread_of_ne hij _).symm.trans hj) hlock

theorem update_step {store store' : ConfigStore Text} {event : ConfigEvent Text}
    (hevent : isUpdateStep event = true) (h : store.step json event = some store') :
    (store.result event = none ↔ store'.update.isSome = true) ∧
    (event = .called → ∃ next ids, store'.update = some (.notify next ids)) := by
  cases ConfigStore.step_case h with
  | begun | refused | subscribed | unsubscribed | restarted => contradiction
  | ended next hstage => simp [ConfigStore.result, hstage]
  | _ => simp [ConfigStore.result]

theorem Guarded.holds (h : s.Guarded) {i : Nat} (hlock : s.updateLock = some i)
    {old : ConfigThread} (hget : s.threads[i]? = some old) {store : ConfigStore Text}
    {stage : UpdateStage} (hstage : store.update = some stage) {program : Option Program}
    (hcallback : program.isSome = true → ∃ next ids, stage = .notify next ids)
    (frame : UpdateFrame) : ({ s with store }.setThread i ⟨program, [frame]⟩).Guarded := by
  refine ⟨fun hnone => ?_, ?_, ?_⟩
  · rw [setThread, hlock] at hnone
    contradiction
  · intro j hj
    obtain rfl : i = j := Option.some.inj (hlock.symm.trans hj)
    exact ⟨stage, program, frame, hstage, setThread_self (s := { s with store }) hget _, hcallback⟩
  · intro j thread hj hne
    have hij : i ≠ j := fun hij => hne (hlock.trans (congrArg some hij))
    exact h.others j thread ((setThread_of_ne hij _).symm.trans hj) hne

theorem Guarded.frames_eq (h : s.Guarded) {i : Nat} {program : Option Program} {frame : UpdateFrame}
    {frames : List UpdateFrame} (hget : s.threads[i]? = some ⟨program, frame :: frames⟩) :
    s.updateLock = some i ∧ frames = [] ∧ ∃ stage, s.store.update = some stage ∧
      (program.isSome = true → ∃ next ids, stage = .notify next ids) := by
  have hlock : s.updateLock = some i := by
    by_contra hne
    have hframes := (h.others i _ hget hne).1
    contradiction
  obtain ⟨stage, program', frame', hstage, hget', hcallback⟩ := h.held i hlock
  rw [hget] at hget'
  obtain ⟨rfl, hframes⟩ := ConfigThread.mk.inj (Option.some.inj hget')
  exact ⟨hlock, (List.cons.inj hframes).2, stage, hstage, hcallback⟩

theorem Guarded.step {e : Nat × ThreadMove Text} (h : s.Guarded) (hstep : s.step json e = some s') :
    s'.Guarded := by
  cases step_case hstep with
  | get hget => exact h.goesOn hget rfl s.callbacks
  | refused hget hfree r => exact h.goesOn hget rfl s.callbacks
  | onChange hget hstore | unsubscribe hget hstore =>
      rename_i store
      have hupdate : store.update = s.store.update := by
        cases ConfigStore.step_case hstore
        rfl
      exact h.goesOn hget hupdate _
  | begins hget hfree hvalid hstore =>
      rename_i i mutate next frames store
      obtain ⟨hframes, -⟩ := h.others i _ hget (by simp [hfree])
      have hupdate : ∃ stage, store.update = some stage := by
        cases ConfigStore.step_case hstore with
        | begun => exact ⟨_, rfl⟩
        | refused _ error _ hinvalid => simp [ConfigStore.result, hinvalid] at hvalid
      obtain ⟨stage, hstage⟩ := hupdate
      refine ⟨fun hnone => by contradiction, ?_, ?_⟩
      · intro j hj
        obtain rfl := Option.some.inj hj
        obtain rfl : frames = [] := hframes
        exact ⟨stage, none, next, hstage,
          setThread_self (s := { s with store, updateLock := some i }) hget _, by simp⟩
      · intro j thread hj hlock
        have hij : i ≠ j := fun hij => hlock (congrArg some hij)
        refine h.others j thread ((setThread_of_ne hij _).symm.trans hj) ?_
        simp [hfree]
  | called hget hlock hstore =>
      obtain ⟨-, rfl, -⟩ := h.frames_eq hget
      obtain ⟨next, ids, hstage⟩ := (update_step rfl hstore).2 rfl
      exact h.holds hlock hget hstage (fun _ => ⟨next, ids, rfl⟩) _
  | finishes hget hlock hevent hresult hstore =>
      rename_i i frame frames event r store
      obtain ⟨-, rfl, -⟩ := h.frames_eq hget
      have hidle : store.update = none := by
        have hresult' := (update_step hevent hstore).1
        rw [hresult] at hresult'
        cases hupdate : store.update with
        | none => rfl
        | some stage => simp [hupdate] at hresult'
      refine ⟨fun _ => hidle, fun j hj => by contradiction, ?_⟩
      intro j thread hj _
      by_cases hij : i = j
      · subst hij
        obtain rfl := Option.some.inj ((setThread_self
          (s := { s with store, updateLock := none }) hget _).symm.trans hj)
        exact ⟨rfl, rfl⟩
      · refine h.others j thread ((setThread_of_ne hij _).symm.trans hj) ?_
        rw [hlock]
        simpa using hij
  | advances hget hlock hevent hcalled hresult hstore =>
      obtain ⟨-, rfl, -⟩ := h.frames_eq hget
      obtain ⟨stage, hstage⟩ := Option.isSome_iff_exists.mp ((update_step hevent hstore).1.mp hresult)
      refine ⟨fun hnone => ?_, ?_, h.others⟩
      · rw [hlock] at hnone
        contradiction
      · intro j hj
        obtain rfl := Option.some.inj (hlock.symm.trans hj)
        exact ⟨stage, none, _, hstage, hget, by simp⟩
  | returns hget =>
      obtain ⟨hlock, rfl, stage, hstage, -⟩ := h.frames_eq hget
      exact h.holds hlock hget hstage (by simp) _

theorem guarded_run {file tmp : Option Text} {programs : List Program}
    {es : List (Nat × ThreadMove Text)}
    (h : exec (step json) (opened json file tmp programs) es = some s) : s.Guarded :=
  exec_invariant (guarded_opened file tmp programs) (fun _ _ _ hs hstep => hs.step hstep) h

theorem Guarded.not_waits (h : s.Guarded) (hno : s.NoneUpdates) (i : Nat) :
    ¬ s.WaitsForItself i := by
  rintro ⟨hlock, mutate, next, frames, hget⟩
  obtain ⟨stage, program, frame, -, hheld, -⟩ := h.held i hlock
  rw [hget] at hheld
  obtain ⟨-, rfl⟩ := ConfigThread.mk.inj (Option.some.inj hheld)
  exact hno i mutate next frame [] hget

theorem Guarded.noneUpdates (h : s.Guarded) (hno : ∀ i, ¬ s.WaitsForItself i) :
    s.NoneUpdates := by
  intro i mutate next frame frames hget
  exact hno i ⟨(h.frames_eq hget).1, mutate, next, _, hget⟩

theorem exists_updateStep {i : Nat} {frame : UpdateFrame} {stage : UpdateStage}
    (hlock : s.updateLock = some i) (hstage : s.store.update = some stage)
    (hget : s.threads[i]? = some ⟨none, [frame]⟩) : ∃ e s', s.step json e = some s' := by
  have hgo : ∀ event, isUpdateStep event = true → (s.store.step json event).isSome = true →
      ∃ e s', s.step json e = some s' := by
    intro event hevent hsome
    obtain ⟨store, hstore⟩ := Option.isSome_iff_exists.mp hsome
    refine ⟨(i, .updates event), Option.isSome_iff_exists.mp ?_⟩
    simp [step, hget, updateStep, hevent, hlock, hstore]
  cases stage with
  | create next | write next | sync next | rename next =>
      exact hgo (.succeeded none) rfl (by simp [ConfigStore.step, hstage])
  | swap next => exact hgo .swapped rfl (by simp [ConfigStore.step, hstage])
  | snapshot next => exact hgo .snapshotTaken rfl (by simp [ConfigStore.step, hstage])
  | notify next ids =>
      cases ids with
      | nil => exact hgo .ended rfl (by simp [ConfigStore.step, hstage])
      | cons id ids => exact hgo .called rfl (by simp [ConfigStore.step, hstage])

theorem exists_call {i : Nat} {program : Program} {frames : List UpdateFrame}
    (hget : s.threads[i]? = some ⟨some program, frames⟩) (hdone : program ≠ .done)
    (hupdate : ∀ mutate next, program = .update mutate next →
      s.updateLock = none ∧ s.store.update = none) : ∃ e s', s.step json e = some s' := by
  refine ⟨(i, .calls), Option.isSome_iff_exists.mp ?_⟩
  cases program with
  | done => exact absurd rfl hdone
  | get next => simp [step, hget, call]
  | onChange callback next => simp [step, hget, call, ConfigStore.step]
  | unsubscribe id next => simp [step, hget, call, ConfigStore.step]
  | update mutate next =>
      obtain ⟨hfree, hidle⟩ := hupdate mutate next rfl
      cases hvalid : revalidate (mutate s.store.config) <;>
        simp [step, hget, call, beginUpdate, hfree, ConfigStore.result, ConfigStore.step, hidle,
          hvalid]

theorem Guarded.goes_on (h : s.Guarded) (hno : s.NoneUpdates) :
    s.AllDone ∨ ∃ e s', s.step json e = some s' := by
  cases hlock : s.updateLock with
  | none =>
      by_cases hall : s.AllDone
      · exact Or.inl hall
      · refine Or.inr ?_
        unfold AllDone at hall
        push Not at hall
        obtain ⟨i, ⟨program, frames⟩, hget, hne⟩ := hall
        obtain ⟨rfl, hsome⟩ := h.others i _ hget (by simp [hlock])
        obtain ⟨program, rfl⟩ := Option.isSome_iff_exists.mp hsome
        refine exists_call hget (fun hdone => hne (by rw [hdone])) ?_
        intro mutate next _
        exact ⟨hlock, h.free hlock⟩
  | some i =>
      refine Or.inr ?_
      obtain ⟨stage, program, frame, hstage, hget, -⟩ := h.held i hlock
      cases program with
      | none => exact exists_updateStep hlock hstage hget
      | some program =>
          by_cases hdone : program = .done
          · subst hdone
            exact ⟨(i, .returns), s.setThread i ⟨none, [frame]⟩,
              by simp [ConfigThreads.step, hget]⟩
          · refine exists_call hget hdone ?_
            rintro mutate next rfl
            exact absurd hget (hno i mutate next frame [])

/-- What is left of a thread: of its program outside updates, of an update, or of a callback within
an update that has the listeners `ids` still to call. -/
inductive Remaining where
  | running (program : Program)
  | updating (frame : UpdateFrame) (stage : UpdateStage)
  | calling (frame : UpdateFrame) (ids : List Nat) (program : Program)

/-- The number of steps before the callbacks. -/
def stagesLeft : UpdateStage → Nat
  | .create _ => 6
  | .write _ => 5
  | .sync _ => 4
  | .rename _ => 3
  | .swap _ => 2
  | .snapshot _ => 1
  | .notify _ _ => 0

/-- A program after its next call, which is not one of `update`. -/
inductive AfterCall : Program → Program → Prop where
  | get (next : FullCoreConfig → Program) (config : FullCoreConfig) :
      AfterCall (next config) (.get next)
  | onChange (callback : FullCoreConfig → Program) (next : Nat → Program) (id : Nat) :
      AfterCall (next id) (.onChange callback next)
  | unsubscribe (id : Nat) (next : Program) : AfterCall next (.unsubscribe id next)

inductive Shorter : Remaining → Remaining → Prop where
  | called {program program' : Program} (h : AfterCall program' program) :
      Shorter (.running program') (.running program)
  | refused (mutate : FullCoreConfig → FullCoreConfig) (frame : UpdateFrame)
      (r : Except ConfigStoreError FullCoreConfig) :
      Shorter (.running (frame r)) (.running (.update mutate frame))
  | begins (mutate : FullCoreConfig → FullCoreConfig) (frame : UpdateFrame) (stage : UpdateStage) :
      Shorter (.updating frame stage) (.running (.update mutate frame))
  | advances (frame : UpdateFrame) {stage stage' : UpdateStage}
      (h : stagesLeft stage' < stagesLeft stage) :
      Shorter (.updating frame stage') (.updating frame stage)
  | finishes (frame : UpdateFrame) (r : Except ConfigStoreError FullCoreConfig)
      (stage : UpdateStage) : Shorter (.running (frame r)) (.updating frame stage)
  | calls (frame : UpdateFrame) (next : FullCoreConfig) (id : Nat) (ids : List Nat)
      (program : Program) :
      Shorter (.calling frame ids program) (.updating frame (.notify next (id :: ids)))
  | inCallback (frame : UpdateFrame) (ids : List Nat) {program program' : Program}
      (h : AfterCall program' program) :
      Shorter (.calling frame ids program') (.calling frame ids program)
  | returns (frame : UpdateFrame) (next : FullCoreConfig) (ids : List Nat) :
      Shorter (.updating frame (.notify next ids)) (.calling frame ids .done)

theorem afterCall_wellFounded : WellFounded AfterCall := by
  constructor
  intro program
  induction program with
  | done => exact ⟨_, fun _ h => by cases h⟩
  | get next ih =>
      constructor
      intro program h
      cases h
      exact ih _
  | onChange callback next _ ih =>
      constructor
      intro program h
      cases h
      exact ih _
  | unsubscribe id next ih =>
      constructor
      intro program h
      cases h
      exact ih
  | update mutate next _ => exact ⟨_, fun _ h => by cases h⟩

/-- An update ends where everything that can follow it does: by its listeners that are left, and
for each by what its program does. -/
theorem acc_updating {frame : UpdateFrame} (hframe : ∀ r, Acc Shorter (.running (frame r)))
    (stage : UpdateStage) : Acc Shorter (.updating frame stage) := by
  have hnotify : ∀ ids next, Acc Shorter (.updating frame (.notify next ids)) := by
    intro ids
    induction ids with
    | nil =>
        intro next
        constructor
        intro rest h
        cases h with
        | advances _ hlt => simp [stagesLeft] at hlt
        | finishes => exact hframe _
    | cons id ids ih =>
        intro next
        have hcalling : ∀ program, Acc Shorter (.calling frame ids program) := by
          intro program
          induction program using afterCall_wellFounded.induction with
          | _ program ihp =>
              constructor
              intro rest h
              cases h with
              | inCallback _ _ hcall => exact ihp _ hcall
              | returns => exact ih _
        constructor
        intro rest h
        cases h with
        | advances _ hlt => simp [stagesLeft] at hlt
        | finishes => exact hframe _
        | calls => exact hcalling _
  induction hleft : stagesLeft stage using Nat.strong_induction_on generalizing stage with
  | _ left ih =>
      constructor
      intro rest h
      cases h with
      | advances _ hlt => exact ih _ (hleft ▸ hlt) _ rfl
      | finishes => exact hframe _
      | calls frame next id ids program =>
          have hacc := hnotify (id :: ids) next
          exact hacc.inv (.calls frame next id ids program)

theorem acc_running (program : Program) : Acc Shorter (.running program) := by
  induction program with
  | done =>
      constructor
      intro rest h
      cases h with
      | called hcall => cases hcall
  | get next ih =>
      constructor
      intro rest h
      cases h with
      | called hcall =>
          cases hcall
          exact ih _
  | onChange callback next _ ih =>
      constructor
      intro rest h
      cases h with
      | called hcall =>
          cases hcall
          exact ih _
  | unsubscribe id next ih =>
      constructor
      intro rest h
      cases h with
      | called hcall =>
          cases hcall
          exact ih
  | update mutate next ih =>
      constructor
      intro rest h
      cases h with
      | called hcall => cases hcall
      | refused _ _ r => exact ih r
      | begins _ _ stage => exact acc_updating ih stage

theorem shorter_wellFounded : WellFounded Shorter := by
  constructor
  intro rest
  cases rest with
  | running program => exact acc_running program
  | updating frame stage => exact acc_updating (fun r => acc_running (frame r)) stage
  | calling frame ids program =>
      have hacc := acc_updating (fun r => acc_running (frame r))
        (.notify defaultFullCoreConfig (0 :: ids))
      exact hacc.inv (.calls frame defaultFullCoreConfig 0 ids program)

def remaining (s : ConfigThreads Text) (i : Nat) : Remaining :=
  match s.threads[i]?, s.store.update with
  | some ⟨some program, []⟩, _ => .running program
  | some ⟨some program, frame :: _⟩, some (.notify _ ids) => .calling frame ids program
  | some ⟨none, frame :: _⟩, some stage => .updating frame stage
  | _, _ => .running .done

theorem remaining_running {i : Nat} {program : Program}
    (hget : s.threads[i]? = some ⟨some program, []⟩) : s.remaining i = .running program := by
  simp [remaining, hget]

theorem remaining_calling {i : Nat} {program : Program} {frame : UpdateFrame}
    {frames : List UpdateFrame} {next : FullCoreConfig} {ids : List Nat}
    (hget : s.threads[i]? = some ⟨some program, frame :: frames⟩)
    (hstage : s.store.update = some (.notify next ids)) :
    s.remaining i = .calling frame ids program := by
  simp [remaining, hget, hstage]

theorem remaining_updating {i : Nat} {frame : UpdateFrame} {frames : List UpdateFrame}
    {stage : UpdateStage} (hget : s.threads[i]? = some ⟨none, frame :: frames⟩)
    (hstage : s.store.update = some stage) : s.remaining i = .updating frame stage := by
  simp [remaining, hget, hstage]

theorem Guarded.shorter_call (h : s.Guarded) {i : Nat} {program program' : Program}
    {frames : List UpdateFrame} (hget : s.threads[i]? = some ⟨some program, frames⟩)
    (hcall : AfterCall program' program) (hget' : s'.threads[i]? = some ⟨some program', frames⟩)
    (hupdate : s'.store.update = s.store.update) :
    Shorter (s'.remaining i) (s.remaining i) := by
  cases frames with
  | nil =>
      rw [remaining_running hget, remaining_running hget']
      exact .called hcall
  | cons frame frames =>
      obtain ⟨-, rfl, stage, hstage, hcallback⟩ := h.frames_eq hget
      obtain ⟨next, ids, rfl⟩ := hcallback rfl
      rw [remaining_calling hget hstage, remaining_calling hget' (hupdate.trans hstage)]
      exact .inCallback frame ids hcall

theorem Guarded.shorter_step (h : s.Guarded) {i : Nat} {move : ThreadMove Text}
    (hstep : s.step json (i, move) = some s') : Shorter (s'.remaining i) (s.remaining i) := by
  cases step_case hstep with
  | get hget => exact h.shorter_call hget (.get _ _) (setThread_self hget _) rfl
  | onChange hget hstore =>
      refine h.shorter_call hget (.onChange _ _ _) (setThread_self (by exact hget) _) ?_
      cases ConfigStore.step_case hstore
      rfl
  | unsubscribe hget hstore =>
      refine h.shorter_call hget (.unsubscribe _ _) (setThread_self (by exact hget) _) ?_
      cases ConfigStore.step_case hstore
      rfl
  | refused hget hfree r =>
      obtain ⟨rfl, -⟩ := h.others i _ hget (by simp [hfree])
      rw [remaining_running hget, remaining_running (setThread_self hget _)]
      exact .refused _ _ r
  | begins hget hfree hvalid hstore =>
      obtain ⟨rfl, -⟩ := h.others i _ hget (by simp [hfree])
      obtain ⟨-, -, stage, hstage, -⟩ := (h.step hstep).frames_eq (setThread_self (by exact hget) _)
      rw [remaining_running hget, remaining_updating (setThread_self (by exact hget) _) hstage]
      exact .begins _ _ stage
  | called hget hlock hstore =>
      cases ConfigStore.step_case hstore with
      | called next id ids hstage =>
          rw [remaining_updating hget hstage,
            remaining_calling (setThread_self (by exact hget) _) rfl]
          exact .calls _ next id ids _
  | finishes hget hlock hevent hresult hstore =>
      obtain ⟨-, rfl, stage, hstage, -⟩ := h.frames_eq hget
      rw [remaining_updating hget hstage, remaining_running (setThread_self (by exact hget) _)]
      exact .finishes _ _ stage
  | advances hget hlock hevent hcalled hresult hstore =>
      obtain ⟨-, rfl, -⟩ := h.frames_eq hget
      cases ConfigStore.step_case hstore with
      | begun | refused | subscribed | unsubscribed | restarted => contradiction
      | called => exact absurd rfl hcalled
      | failed stage left hbusy hopen => simp [ConfigStore.result] at hresult
      | ended next hstage => simp [ConfigStore.result, hstage] at hresult
      | created next left hstage | written next left hstage | synced next left hstage
      | renamed next left hstage | swapped next hstage | snapshotTaken next hstage =>
          rw [remaining_updating hget hstage, remaining_updating (by exact hget) rfl]
          exact .advances _ (by simp [stagesLeft])
  | returns hget =>
      obtain ⟨-, rfl, stage, hstage, hcallback⟩ := h.frames_eq hget
      obtain ⟨next, ids, rfl⟩ := hcallback rfl
      rw [remaining_calling hget hstage, remaining_updating (setThread_self hget _) hstage]
      exact .returns _ next ids

theorem store_step {e : Nat × ThreadMove Text} (hstep : s.step json e = some s') :
    s'.store = s.store ∨ ∃ event, s.store.step json event = some s'.store := by
  cases step_case hstep with
  | get | refused | returns => exact Or.inl rfl
  | onChange _ hstore | unsubscribe _ hstore => exact Or.inr ⟨_, hstore⟩
  | begins _ _ _ hstore => exact Or.inr ⟨_, hstore⟩
  | called _ _ hstore => exact Or.inr ⟨_, hstore⟩
  | finishes _ _ _ _ hstore => exact Or.inr ⟨_, hstore⟩
  | advances _ _ _ _ _ hstore => exact Or.inr ⟨_, hstore⟩

theorem other_step {i j : Nat} (hij : i ≠ j) {move : ThreadMove Text}
    (hstep : s.step json (i, move) = some s') :
    s'.threads[j]? = s.threads[j]? ∧
      (s.updateLock = some j → s'.updateLock = some j ∧ s'.store.update = s.store.update ∧
        s'.store.notified = s.store.notified) := by
  have hother : s.updateLock = some i → ¬ s.updateLock = some j := by
    intro hi hj
    exact hij (Option.some.inj (hi.symm.trans hj))
  cases step_case hstep with
  | get | refused => exact ⟨setThread_of_ne hij _, fun hlock => ⟨hlock, rfl, rfl⟩⟩
  | onChange hget hstore | unsubscribe hget hstore =>
      refine ⟨setThread_of_ne hij _, fun hlock => ⟨hlock, ?_⟩⟩
      cases ConfigStore.step_case hstore
      exact ⟨rfl, rfl⟩
  | begins hget hfree hvalid hstore =>
      refine ⟨setThread_of_ne hij _, fun hlock => ?_⟩
      rw [hfree] at hlock
      contradiction
  | called hget hlock hstore | finishes hget hlock hevent hresult hstore =>
      exact ⟨setThread_of_ne hij _, fun hj => absurd hj (hother hlock)⟩
  | advances hget hlock hevent hcalled hresult hstore =>
      exact ⟨rfl, fun hj => absurd hj (hother hlock)⟩
  | returns hget => exact ⟨setThread_of_ne hij _, fun hlock => ⟨hlock, rfl, rfl⟩⟩

theorem Guarded.remaining_other (h : s.Guarded) {i j : Nat} (hij : i ≠ j)
    {move : ThreadMove Text} (hstep : s.step json (i, move) = some s') :
    s'.remaining j = s.remaining j := by
  obtain ⟨hthread, hkept⟩ := other_step hij hstep
  by_cases hlock : s.updateLock = some j
  · simp only [remaining, hthread, (hkept hlock).2.1]
  · cases hget : s.threads[j]? with
    | none => simp only [remaining, hthread, hget]
    | some thread =>
        obtain ⟨hframes, hprogram⟩ := h.others j thread hget hlock
        obtain ⟨program, frames⟩ := thread
        obtain rfl : frames = [] := hframes
        obtain ⟨program, rfl⟩ := Option.isSome_iff_exists.mp hprogram
        rw [remaining_running hget, remaining_running (hthread.trans hget)]

theorem length_threads_step {e : Nat × ThreadMove Text} (hstep : s.step json e = some s') :
    e.1 < s.threads.length ∧ s'.threads.length = s.threads.length := by
  have hlt : ∀ {i : Nat} {thread : ConfigThread}, s.threads[i]? = some thread →
      i < s.threads.length := fun hget => (List.getElem?_eq_some_iff.mp hget).1
  cases step_case hstep with
  | get hget | onChange hget | unsubscribe hget | refused hget | begins hget | called hget
  | finishes hget | returns hget => exact ⟨hlt hget, by simp [setThread]⟩
  | advances hget => exact ⟨hlt hget, rfl⟩

/-- The threads do not go on for ever: each makes finitely many steps, and there are finitely many
threads. -/
theorem not_endless {run : Nat → ConfigThreads Text} {events : Nat → Nat × ThreadMove Text}
    (h : (run 0).Guarded) : ¬ Endless (step json) run events := by
  intro hrun
  have hguarded : ∀ n, (run n).Guarded := fun n =>
    hrun.since (fun _ _ _ hstep hs => hs.step hstep) (Nat.zero_le n) h
  have hlength : ∀ n, (run n).threads.length = (run 0).threads.length := fun n =>
    hrun.since (P := fun s => s.threads.length = (run 0).threads.length)
      (fun _ _ _ hstep hs => (length_threads_step hstep).2.trans hs) (Nat.zero_le n) rfl
  have hquiet : ∀ i, ∃ N, ∀ n, N ≤ n → (events n).1 ≠ i := by
    intro i
    refine exists_last_of_wellFounded shorter_wellFounded (fun n => (run n).remaining i) _ ?_ ?_
    · intro n hother
      exact (hguarded n).remaining_other hother (hrun n)
    · intro n hown
      have hstep := hrun n
      rw [show events n = ((events n).1, (events n).2) from rfl, hown] at hstep
      exact (hguarded n).shorter_step hstep
  have hall : ∀ k, ∃ N, ∀ n, N ≤ n → k ≤ (events n).1 := by
    intro k
    induction k with
    | zero => exact ⟨0, fun n _ => Nat.zero_le _⟩
    | succ k ih =>
        obtain ⟨N, hN⟩ := ih
        obtain ⟨M, hM⟩ := hquiet k
        refine ⟨max N M, fun n hn => ?_⟩
        have hle := hN n (le_trans (Nat.le_max_left N M) hn)
        have hne := hM n (le_trans (Nat.le_max_right N M) hn)
        omega
  obtain ⟨N, hN⟩ := hall (run 0).threads.length
  have hlast := hN N (Nat.le_refl N)
  have hlt := (length_threads_step (hrun N)).1
  rw [hlength N] at hlt
  omega

/-- Every listener, and every one that an update has still to call, is known under its id. -/
structure Registered (s : ConfigThreads Text) : Prop where
  count : s.callbacks.length = s.store.nextListenerId
  known : ∀ id ∈ s.store.listeners, id < s.store.nextListenerId
  nodup : s.store.listeners.Nodup
  queued : ∀ next ids, s.store.update = some (.notify next ids) →
    ∀ id ∈ ids, id < s.store.nextListenerId

theorem registered_opened (file tmp : Option Text) (programs : List Program) :
    (opened json file tmp programs).Registered where
  count := rfl
  known _ h := by contradiction
  nodup := List.nodup_nil
  queued _ _ h := by contradiction

theorem Registered.updates (h : s.Registered) {event : ConfigEvent Text}
    (hevent : isUpdateStep event = true) {store : ConfigStore Text}
    (hstore : s.store.step json event = some store) (lock : Option Nat)
    (threads : List ConfigThread) :
    ({ s with store, updateLock := lock, threads } : ConfigThreads Text).Registered := by
  cases ConfigStore.step_case hstore with
  | begun | refused | subscribed | unsubscribed | restarted => contradiction
  | snapshotTaken next hstage =>
      refine ⟨h.count, h.known, h.nodup, ?_⟩
      intro next' ids hupdate
      obtain ⟨rfl, rfl⟩ := UpdateStage.notify.inj (Option.some.inj hupdate)
      exact h.known
  | called next id ids hstage =>
      refine ⟨h.count, h.known, h.nodup, ?_⟩
      intro next' ids' hupdate id' hid'
      obtain ⟨rfl, rfl⟩ := UpdateStage.notify.inj (Option.some.inj hupdate)
      exact h.queued _ _ hstage id' (List.mem_cons_of_mem id hid')
  | created | written | synced | renamed | failed | swapped | ended =>
      exact ⟨h.count, h.known, h.nodup, fun _ _ hupdate => by simp at hupdate⟩

theorem Registered.step {e : Nat × ThreadMove Text} (h : s.Registered)
    (hstep : s.step json e = some s') : s'.Registered := by
  cases step_case hstep with
  | get | refused | returns => exact ⟨h.count, h.known, h.nodup, h.queued⟩
  | onChange hget hstore =>
      cases ConfigStore.step_case hstore
      have hlt : ∀ id, id < s.store.nextListenerId → id < s.store.nextListenerId + 1 :=
        fun id hid => Nat.lt_succ_of_lt hid
      refine ⟨?_, ?_, ?_, fun next ids hupdate id hid => hlt id (h.queued next ids hupdate id hid)⟩
      · simp [setThread, h.count]
      · intro id hid
        rcases List.mem_append.mp hid with hold | hnew
        · exact hlt id (h.known id hold)
        · rw [List.mem_singleton.mp hnew]
          exact Nat.lt_succ_self _
      · refine List.nodup_append.mpr ⟨h.nodup, by simp, ?_⟩
        intro id hid id' hid' heq
        have hknown := h.known id hid
        rw [heq, List.mem_singleton.mp hid'] at hknown
        exact absurd hknown (Nat.lt_irrefl _)
  | unsubscribe hget hstore =>
      cases ConfigStore.step_case hstore
      exact ⟨h.count, fun id hid => h.known id (List.mem_filter.mp hid).1, h.nodup.filter _,
        h.queued⟩
  | begins hget hfree hvalid hstore =>
      cases ConfigStore.step_case hstore with
      | begun =>
          exact ⟨h.count, h.known, h.nodup, fun _ _ hupdate => by simp [setThread] at hupdate⟩
      | refused => exact ⟨h.count, h.known, h.nodup, h.queued⟩
  | called hget hlock hstore => exact h.updates rfl hstore _ _
  | finishes hget hlock hevent hresult hstore => exact h.updates hevent hstore _ _
  | advances hget hlock hevent hcalled hresult hstore => exact h.updates hevent hstore _ _

/-- The update of thread `i` is at its callbacks: what it has called and what it still calls are
together `calls`. -/
def Notifying (i : Nat) (next : FullCoreConfig) (calls : List (Nat × FullCoreConfig))
    (s : ConfigThreads Text) : Prop :=
  s.updateLock = some i ∧ ∃ ids, s.store.update = some (.notify next ids) ∧
    s.store.notified ++ ids.map (·, next) = calls

theorem notify_step {store store' : ConfigStore Text} {next : FullCoreConfig} {ids : List Nat}
    (hupdate : store.update = some (.notify next ids)) {event : ConfigEvent Text}
    (hevent : isUpdateStep event = true) (hstore : store.step json event = some store') :
    event = .called ∨ event = .ended := by
  cases ConfigStore.step_case hstore with
  | called => exact Or.inl rfl
  | ended => exact Or.inr rfl
  | begun | refused | subscribed | unsubscribed | restarted => contradiction
  | failed stage left hbusy hopen =>
      rw [hupdate] at hbusy
      obtain rfl := Option.some.inj hbusy
      contradiction
  | created next left hstage | written next left hstage | synced next left hstage
  | renamed next left hstage | swapped next hstage | snapshotTaken next hstage =>
      rw [hupdate] at hstage
      simp at hstage

theorem Notifying.step {i : Nat} {next : FullCoreConfig} {calls : List (Nat × FullCoreConfig)}
    (h : s.Notifying i next calls) {e : Nat × ThreadMove Text} (hne : e ≠ (i, .updates .ended))
    (hstep : s.step json e = some s') : s'.Notifying i next calls := by
  obtain ⟨hlock, ids, hupdate, hcalls⟩ := h
  by_cases hi : e.1 = i
  · cases step_case hstep with
    | get | returns => exact ⟨hlock, ids, hupdate, hcalls⟩
    | onChange hget hstore | unsubscribe hget hstore =>
        cases ConfigStore.step_case hstore
        exact ⟨hlock, ids, hupdate, hcalls⟩
    | refused hget hfree | begins hget hfree =>
        rw [hfree] at hlock
        contradiction
    | called hget hlock' hstore =>
        cases ConfigStore.step_case hstore with
        | called next' id ids' hstage =>
            rw [hupdate] at hstage
            obtain ⟨rfl, rfl⟩ := UpdateStage.notify.inj (Option.some.inj hstage)
            exact ⟨hlock, ids', rfl, by simpa [setThread] using hcalls⟩
    | finishes hget hlock' hevent hresult hstore =>
        obtain rfl := hi
        rcases notify_step hupdate hevent hstore with rfl | rfl
        · contradiction
        · exact absurd rfl hne
    | advances hget hlock' hevent hcalled hresult hstore =>
        obtain rfl := hi
        rcases notify_step hupdate hevent hstore with rfl | rfl
        · exact absurd rfl hcalled
        · exact absurd rfl hne
  · obtain ⟨hlock', hupdate', hnotified⟩ := (other_step hi hstep).2 hlock
    exact ⟨hlock', ids, hupdate'.trans hupdate, hnotified ▸ hcalls⟩

theorem Notifying.exec {i : Nat} {next : FullCoreConfig} {calls : List (Nat × FullCoreConfig)}
    (h : s.Notifying i next calls) {es : List (Nat × ThreadMove Text)}
    (hes : ∀ e ∈ es, e ≠ (i, .updates .ended))
    (hrun : Framework.exec (ConfigThreads.step json) s es = some s') : s'.Notifying i next calls := by
  induction es generalizing s with
  | nil =>
      obtain rfl := Option.some.inj hrun
      exact h
  | cons e es ih =>
      obtain ⟨s₁, hstep, hrest⟩ := Option.bind_eq_some_iff.mp hrun
      exact ih (h.step (hes e List.mem_cons_self) hstep)
        (fun f hf => hes f (List.mem_cons_of_mem e hf)) hrest

/-- What memory holds: the configuration of the update that has installed it, or of the last that
has returned. -/
def InMemory (store : ConfigStore Text) : Prop :=
  match store.update with
  | some (.snapshot next) => store.config = next
  | some (.notify next _) => store.config = next
  | _ => store.config = store.returned

theorem inMemory_step {store store' : ConfigStore Text} {event : ConfigEvent Text}
    (h : InMemory store) (hstore : store.step json event = some store') : InMemory store' := by
  unfold InMemory at h ⊢
  cases ConfigStore.step_case hstore with
  | begun _ next hidle => simpa [hidle] using h
  | refused | subscribed | unsubscribed => exact h
  | created next left hstage | written next left hstage | synced next left hstage
  | renamed next left hstage | snapshotTaken next hstage | called next id ids hstage
  | ended next hstage => simpa [hstage] using h
  | failed stage left hbusy hopen => cases stage <;> simp_all [UpdateStage.isOpen]
  | swapped next hstage => rfl
  | restarted => rfl

theorem stores_run (hjson : ∀ config : FullCoreConfig, json.Restores config.toJson)
    {file tmp : Option Text} {programs : List Program} {es : List (Nat × ThreadMove Text)}
    (h : exec (step json) (opened json file tmp programs) es = some s) :
    s.store.Inv json ∧ InMemory s.store := by
  have hstart : (ConfigStore.opened json file tmp).Inv json ∧
      InMemory (ConfigStore.opened json file tmp) := ⟨ConfigStore.inv_opened file tmp, rfl⟩
  refine exec_invariant (I := fun s => s.store.Inv json ∧ InMemory s.store) hstart ?_ h
  intro s₁ e s₂ hs hstep
  rcases store_step hstep with hsame | ⟨event, hstore⟩
  · rw [hsame]
    exact hs
  · exact ⟨hs.1.step hjson hstore, inMemory_step hs.2 hstore⟩

theorem registered_run {file tmp : Option Text} {programs : List Program}
    {es : List (Nat × ThreadMove Text)}
    (h : exec (step json) (opened json file tmp programs) es = some s) : s.Registered :=
  exec_invariant (registered_opened file tmp programs) (fun _ _ _ hs hstep => hs.step hstep) h

/-- The listeners of the snapshot are called once each before the update ends. -/
theorem calls_of_update {s₀ s₁ s₁' s₂ s₂' : ConfigThreads Text} {es : List (Nat × ThreadMove Text)}
    {i n m : Nat} (hn : StepAt (step json) s₀ es n s₁ (i, .updates .snapshotTaken) s₁')
    (hm : StepAt (step json) s₀ es m s₂ (i, .updates .ended) s₂') (hlt : n < m)
    (hbetween : ∀ k : Nat, n < k → k < m → es[k]? ≠ some (i, .updates .ended)) :
    ∃ next, s₂.store.update = some (.notify next []) ∧
      s₂.store.notified = s₁.store.notified ++ s₁.store.listeners.map (·, next) := by
  have hstart : ∃ next, s₁'.Notifying i next
      (s₁.store.notified ++ s₁.store.listeners.map (·, next)) := by
    cases step_case hn.step with
    | finishes hget hlock hevent hresult hstore => contradiction
    | advances hget hlock hevent hcalled hresult hstore =>
        cases ConfigStore.step_case hstore with
        | snapshotTaken next hstage => exact ⟨next, hlock, _, rfl, rfl⟩
  obtain ⟨next, hstart⟩ := hstart
  obtain ⟨s, hs, hrest⟩ := exec_take hm.before (n + 1)
  rw [List.take_take, Nat.min_eq_left hlt] at hs
  obtain rfl : s = s₁' := Option.some.inj (hs.symm.trans hn.after)
  obtain ⟨hlock, ids, hupdate, hcalls⟩ := hstart.exec (by
    intro e he heq
    obtain ⟨k, hk⟩ := List.mem_iff_getElem?.mp he
    rw [List.getElem?_drop, List.getElem?_take] at hk
    split at hk
    · rename_i hkm
      exact hbetween (n + 1 + k) (by omega) hkm (heq ▸ hk)
    · contradiction) hrest
  have hempty : ids = [] := by
    have hended := hm.step
    cases step_case hended with
    | advances hget hlock hevent hcalled hresult hstore =>
        cases ConfigStore.step_case hstore with
        | ended next' hstage => simp [ConfigStore.result, hstage] at hresult
    | finishes hget hlock hevent hresult hstore =>
        cases ConfigStore.step_case hstore with
        | ended next' hstage =>
            rw [hupdate] at hstage
            exact (UpdateStage.notify.inj (Option.some.inj hstage)).2
  subst hempty
  exact ⟨next, hupdate, by simpa using hcalls⟩

/-- Whatever the store returns, the program does not call `update`. -/
def callsNoUpdate : Program → Prop
  | .done => True
  | .get next => ∀ config, callsNoUpdate (next config)
  | .onChange callback next =>
      (∀ config, callsNoUpdate (callback config)) ∧ ∀ id, callsNoUpdate (next id)
  | .unsubscribe _ next => callsNoUpdate next
  | .update _ _ => False

/-- Whatever the store returns, the program registers only listeners that do not call `update`. -/
def listenersCallNoUpdate : Program → Prop
  | .done => True
  | .get next => ∀ config, listenersCallNoUpdate (next config)
  | .onChange callback next =>
      (∀ config, callsNoUpdate (callback config)) ∧ ∀ id, listenersCallNoUpdate (next id)
  | .unsubscribe _ next => listenersCallNoUpdate next
  | .update _ next => ∀ r, listenersCallNoUpdate (next r)

structure Harmless (s : ConfigThreads Text) : Prop where
  callbacks : ∀ callback ∈ s.callbacks, ∀ config, callsNoUpdate (callback config)
  outside : ∀ (i : Nat) program, s.threads[i]? = some ⟨some program, []⟩ →
    listenersCallNoUpdate program
  inside : ∀ (i : Nat) program frame frames, s.threads[i]? = some ⟨some program, frame :: frames⟩ →
    callsNoUpdate program
  after : ∀ (i : Nat) program frames, s.threads[i]? = some ⟨program, frames⟩ →
    ∀ frame ∈ frames, ∀ r, listenersCallNoUpdate (frame r)

theorem Harmless.setThread (h : s.Harmless) {i : Nat} {store : ConfigStore Text}
    {callbacks : List (FullCoreConfig → Program)} {lock : Option Nat}
    (hcallbacks : ∀ callback ∈ callbacks, ∀ config, callsNoUpdate (callback config))
    {program : Option Program} {frames : List UpdateFrame}
    (hout : frames = [] → ∀ p, program = some p → listenersCallNoUpdate p)
    (hin : frames ≠ [] → ∀ p, program = some p → callsNoUpdate p)
    (hframes : ∀ frame ∈ frames, ∀ r, listenersCallNoUpdate (frame r)) :
    ({ s with store, callbacks, updateLock := lock }.setThread i ⟨program, frames⟩).Harmless := by
  have hcases : ∀ {j : Nat} {thread : ConfigThread},
      ({ s with store, callbacks, updateLock := lock }.setThread i ⟨program, frames⟩).threads[j]? =
        some thread → s.threads[j]? = some thread ∨ thread = ⟨program, frames⟩ := by
    intro j thread hget
    rw [getElem?_setThread] at hget
    split at hget
    · obtain ⟨old, -, rfl⟩ := Option.map_eq_some_iff.mp hget
      exact Or.inr rfl
    · exact Or.inl hget
  refine ⟨hcallbacks, ?_, ?_, ?_⟩
  · intro j p hget
    rcases hcases hget with hold | heq
    · exact h.outside j p hold
    · obtain ⟨hp, hnil⟩ := ConfigThread.mk.inj heq
      exact hout hnil.symm p hp.symm
  · intro j p frame rest hget
    rcases hcases hget with hold | heq
    · exact h.inside j p frame rest hold
    · obtain ⟨hp, hcons⟩ := ConfigThread.mk.inj heq
      exact hin (by simp [← hcons]) p hp.symm
  · intro j p rest hget
    rcases hcases hget with hold | heq
    · exact h.after j p rest hold
    · obtain ⟨-, rfl⟩ := ConfigThread.mk.inj heq
      exact hframes

theorem Harmless.step {e : Nat × ThreadMove Text} (h : s.Harmless) (hguarded : s.Guarded)
    (hstep : s.step json e = some s') : s'.Harmless := by
  have hcons : ∀ {i : Nat} {program : Option Program} {frames : List UpdateFrame},
      s.threads[i]? = some ⟨program, frames⟩ → ∀ frame ∈ frames, ∀ r,
        listenersCallNoUpdate (frame r) := fun hget => h.after _ _ _ hget
  have hinside : ∀ {i : Nat} {program : Program} {frames : List UpdateFrame},
      s.threads[i]? = some ⟨some program, frames⟩ → frames ≠ [] → callsNoUpdate program := by
    intro i program frames hget hne
    obtain ⟨frame, rest, rfl⟩ := List.exists_cons_of_ne_nil hne
    exact h.inside i program frame rest hget
  cases step_case hstep with
  | get hget =>
      refine h.setThread h.callbacks ?_ ?_ (hcons hget)
      · rintro rfl p ⟨⟩
        exact h.outside _ _ hget _
      · rintro hne p ⟨⟩
        exact hinside hget hne _
  | onChange hget hstore =>
      rename_i i callback next frames store
      have hcallback : ∀ config, callsNoUpdate (callback config) := by
        cases frames with
        | nil => exact (h.outside _ _ hget).1
        | cons frame frames => exact (h.inside _ _ _ _ hget).1
      refine h.setThread ?_ ?_ ?_ (hcons hget)
      · intro callback' hmem
        rcases List.mem_append.mp hmem with hold | hnew
        · exact h.callbacks callback' hold
        · rw [List.mem_singleton.mp hnew]
          exact hcallback
      · rintro rfl p ⟨⟩
        exact (h.outside _ _ hget).2 _
      · rintro hne p ⟨⟩
        exact (hinside hget hne).2 _
  | unsubscribe hget hstore =>
      refine h.setThread h.callbacks ?_ ?_ (hcons hget)
      · rintro rfl p ⟨⟩
        have hold := h.outside _ _ hget
        exact hold
      · rintro hne p ⟨⟩
        have hold := hinside hget hne
        exact hold
  | refused hget hfree r =>
      refine h.setThread h.callbacks ?_ ?_ (hcons hget)
      · rintro rfl p ⟨⟩
        exact h.outside _ _ hget r
      · intro hne
        exact absurd (hinside hget hne) (by simp [callsNoUpdate])
  | begins hget hfree hvalid hstore =>
      obtain ⟨hframes, -⟩ := hguarded.others _ _ hget (by simp [hfree])
      obtain rfl : _ = [] := hframes
      refine h.setThread h.callbacks (by simp) (by simp) ?_
      intro frame hmem r
      rw [List.mem_singleton.mp hmem]
      exact h.outside _ _ hget r
  | called hget hlock hstore =>
      refine h.setThread h.callbacks (by simp) ?_ (hcons hget)
      rintro - p ⟨⟩
      unfold nextCallback
      split
      · rename_i next id ids hstage
        cases hcallback : s.callbacks[id]? with
        | none => trivial
        | some callback => exact h.callbacks callback (List.mem_of_getElem? hcallback) next
      · trivial
  | finishes hget hlock hevent hresult hstore =>
      obtain ⟨-, rfl, -⟩ := hguarded.frames_eq hget
      refine h.setThread h.callbacks ?_ (by simp) (by simp)
      rintro - p ⟨⟩
      exact hcons hget _ List.mem_cons_self _
  | advances hget hlock hevent hcalled hresult hstore =>
      exact ⟨h.callbacks, h.outside, h.inside, h.after⟩
  | returns hget => exact h.setThread h.callbacks (by simp) (by simp) (hcons hget)

theorem noUpdateInCallback_of_programs {file tmp : Option Text} {programs : List Program}
    (h : ∀ program ∈ programs, listenersCallNoUpdate program) :
    NoUpdateInCallback json file tmp programs := by
  have hget : ∀ {i : Nat} {thread : ConfigThread},
      (opened json file tmp programs).threads[i]? = some thread →
        ∃ program ∈ programs, thread = ⟨some program, []⟩ := by
    intro i thread hget
    rw [opened, List.getElem?_map] at hget
    obtain ⟨program, hmem, rfl⟩ := Option.map_eq_some_iff.mp hget
    exact ⟨program, List.mem_of_getElem? hmem, rfl⟩
  have hstart : (opened json file tmp programs).Harmless := by
    refine ⟨by simp [opened], ?_, ?_, ?_⟩
    · intro i program hi
      obtain ⟨program', hmem, heq⟩ := hget hi
      obtain ⟨hp, -⟩ := ConfigThread.mk.inj heq
      exact Option.some.inj hp ▸ h program' hmem
    · intro i program frame frames hi
      obtain ⟨program', -, heq⟩ := hget hi
      exact absurd (ConfigThread.mk.inj heq).2 (by simp)
    · intro i program frames hi
      obtain ⟨program', -, heq⟩ := hget hi
      rw [(ConfigThread.mk.inj heq).2]
      simp
  intro es s hrun i mutate next frame frames hupdate
  have hharmless : s.Guarded ∧ s.Harmless :=
    exec_invariant (I := fun s => s.Guarded ∧ s.Harmless)
      ⟨guarded_opened file tmp programs, hstart⟩
      (fun _ _ _ hs hstep => ⟨hs.1.step hstep, hs.2.step hs.1 hstep⟩) hrun
  exact hharmless.2.inside i _ frame frames hupdate

variable (json)

/-- A listener may come back to the store by everything but `update`: where no listener that an
update calls comes to call it, re-entry is safe, and where one does it waits for itself. -/
theorem listeners_reenter_iff (hjson : ∀ config : FullCoreConfig, json.Restores config.toJson)
    (file tmp : Option Text) (programs : List Program) :
    Reentrant json file tmp programs ↔ NoUpdateInCallback json file tmp programs := by
  constructor
  · intro h es s hrun
    exact (guarded_run hrun).noneUpdates (h.no_self_wait es s hrun)
  · intro h
    constructor
    · intro es s hrun
      exact (guarded_run hrun).not_waits (h es s hrun)
    · intro es s hrun
      exact (guarded_run hrun).goes_on (h es s hrun)
    · intro run events hstart
      have hguarded : (run 0).Guarded := hstart ▸ guarded_opened file tmp programs
      exact not_endless hguarded
    · intro es i n m s₁ s₁' s₂ s₂' hn hm hlt hbetween
      obtain ⟨next, hupdate, hcalls⟩ := calls_of_update hn hm hlt hbetween
      exact ⟨next, hupdate, hcalls, (registered_run hn.before).nodup⟩
    · intro es i n s₁ s₂ hat
      have hregistered := registered_run hat.before
      cases step_case hat.step with
      | called hget hlock hstore =>
          rename_i frame frames store
          obtain ⟨-, rfl, -⟩ := (guarded_run hat.before).frames_eq hget
          cases ConfigStore.step_case hstore with
          | called next id ids hstage =>
              have hlt := hregistered.queued next _ hstage id List.mem_cons_self
              rw [← hregistered.count] at hlt
              have hcallback := List.getElem?_eq_getElem hlt
              refine ⟨next, id, ids, _, frame, hstage, hcallback, ?_, rfl⟩
              rw [setThread_self (by exact hget), nextCallback, hstage]
              simp [hcallback]
      | finishes hget hlock hevent hresult hstore => contradiction
      | advances hget hlock hevent hcalled hresult hstore => exact absurd rfl hcalled
    · intro es s hrun hfree
      have hidle := (guarded_run hrun).free hfree
      obtain ⟨hinv, hmemory⟩ := stores_run hjson hrun
      refine ⟨by simpa [InMemory, hidle] using hmemory, ?_⟩
      rcases hinv.load with hload | ⟨stage, hstage, -⟩
      · exact hload
      · rw [hidle] at hstage
        contradiction

/-- One listener, which reads the configuration, registers another and takes it back. -/
def registering : Program :=
  .onChange (fun _ => .get fun _ => .onChange (fun _ => .done) fun id => .unsubscribe id .done)
    fun _ => .update (fun config => { config with credentialBackend := some .dpapi }) fun _ => .done

theorem listeners_reenter_registering :
    Reentrant JsonText.documents none none [registering, registering] :=
  (listeners_reenter_iff JsonText.documents
    (fun config => JsonText.documents_restores config.toJson) none none _).mpr
    (noUpdateInCallback_of_programs (by
      simp [registering, listenersCallNoUpdate, callsNoUpdate]))

/-- One listener, which updates the store once more. -/
def updating : Program :=
  .onChange (fun _ => .update (fun config => config) fun _ => .done)
    fun _ => .update (fun config => { config with credentialBackend := some .dpapi }) fun _ => .done

/-- The update of the one thread as far as its listener. -/
def untilListener : List (Nat × ThreadMove Json) :=
  [(0, .calls), (0, .calls)] ++ List.replicate 4 (0, .updates (.succeeded none)) ++
    [(0, .updates .swapped), (0, .updates .snapshotTaken), (0, .updates .called)]

def waits (s : ConfigThreads Text) (i : Nat) : Bool :=
  s.updateLock == some i &&
    match s.threads[i]? with
    | some ⟨some (.update _ _), _⟩ => true
    | _ => false

theorem waitsForItself_of_waits {s : ConfigThreads Text} {i : Nat} (h : s.waits i = true) :
    s.WaitsForItself i := by
  obtain ⟨hlock, hprogram⟩ := Bool.and_eq_true_iff.mp h
  refine ⟨by simpa using hlock, ?_⟩
  split at hprogram
  · rename_i mutate next frames hget
    exact ⟨mutate, next, frames, hget⟩
  · contradiction

/-- The listener never returns, nor does the update that called it. -/
theorem listener_update_waits :
    ¬ Reentrant JsonText.documents none none [updating] := by
  intro h
  have hrun : (exec (step JsonText.documents) (opened JsonText.documents none none [updating])
      untilListener).map (fun s => s.waits 0) = some true := by decide +kernel
  obtain ⟨s, hs, hwaits⟩ := Option.map_eq_some_iff.mp hrun
  exact h.no_self_wait _ s hs 0 (waitsForItself_of_waits hwaits)

end ConfigThreads

end YohakuCore
