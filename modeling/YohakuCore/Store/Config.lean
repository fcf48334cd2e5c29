import YohakuCore.Framework.DurableCell
import YohakuCore.Framework.Execution
import YohakuCore.Store.ConfigCodec

/-!
# The configuration store

An update holds one lock from the copy of the configuration in memory to the last callback. It
validates what the mutation made, writes it to config.json.tmp in four system calls that may each
fail, installs it in memory and notifies the listeners. The process may end between any two steps;
the next one loads config.json as it is then.
-/

namespace YohakuCore

open Framework

inductive ConfigStoreError where
  | io
  | invalid (error : SchemaError)
  deriving DecidableEq

/-- Where an update stands; `next` is the configuration it writes. -/
inductive UpdateStage where
  | create (next : FullCoreConfig)
  | write (next : FullCoreConfig)
  | sync (next : FullCoreConfig)
  | rename (next : FullCoreConfig)
  | swap (next : FullCoreConfig)
  | snapshot (next : FullCoreConfig)
  | notify (next : FullCoreConfig) (callbacks : List Nat)
  deriving DecidableEq

namespace UpdateStage

def next : UpdateStage → FullCoreConfig
  | create next => next
  | write next => next
  | sync next => next
  | rename next => next
  | swap next => next
  | snapshot next => next
  | notify next _ => next

/-- The update may still fail: its file has not been renamed. -/
def isOpen : UpdateStage → Bool
  | create _ => true
  | write _ => true
  | sync _ => true
  | rename _ => true
  | _ => false

/-- The configuration that config.json holds and that has not been returned. -/
def inFlight (stage : UpdateStage) : Option FullCoreConfig :=
  if stage.isOpen then none else some stage.next

end UpdateStage

structure ConfigStore (Text : Type*) where
  config : FullCoreConfig
  listeners : List Nat
  nextListenerId : Nat
  /-- The update that holds the lock. -/
  update : Option UpdateStage
  /-- config.json, or `none` where it is missing. -/
  file : Option Text
  /-- config.json.tmp, or `none` where it is missing. -/
  tmp : Option Text
  /-- What has been observed: the callbacks made in this process, each with its configuration. -/
  notified : List (Nat × FullCoreConfig)
  /-- What has been observed: the configuration of the last update that returned `Ok` in this
  process, or else the one that this process loaded. -/
  returned : FullCoreConfig

/-- `succeeded` and `failed` are the ends of the system call of the stage; `left` is what
config.json.tmp holds after a creation or after a failed call. -/
inductive ConfigEvent (Text : Type*) where
  | begun (mutate : FullCoreConfig → FullCoreConfig)
  | succeeded (left : Option Text)
  | failed (left : Option Text)
  | swapped
  | snapshotTaken
  | called
  | ended
  | subscribed
  | unsubscribed (id : Nat)
  | restarted

namespace ConfigStore

variable {Text : Type*} (json : JsonText Text)

/-- A missing file yields the defaults, and so does a corrupt one, which stays in place. -/
def load (file : Option Text) : FullCoreConfig :=
  match file.map (parseConfig json) with
  | some (.ok config) => config
  | _ => defaultFullCoreConfig

/-- A process start. -/
def opened (file tmp : Option Text) : ConfigStore Text where
  config := load json file
  listeners := []
  nextListenerId := 0
  update := none
  file := file
  tmp := tmp
  notified := []
  returned := load json file

def step (s : ConfigStore Text) : ConfigEvent Text → Option (ConfigStore Text)
  | .begun mutate =>
      match s.update, revalidate (mutate s.config) with
      | none, .ok next => some { s with update := some (.create next) }
      | none, .error _ => some s
      | some _, _ => none
  | .succeeded left =>
      match s.update with
      | some (.create next) => some { s with update := some (.write next), tmp := left }
      | some (.write next) =>
          some { s with update := some (.sync next), tmp := some (json.print next.toJson) }
      | some (.sync next) => some { s with update := some (.rename next) }
      | some (.rename next) =>
          some { s with update := some (.swap next), file := s.tmp, tmp := none }
      | _ => none
  | .failed left =>
      match s.update with
      | some stage => if stage.isOpen then some { s with update := none, tmp := left } else none
      | none => none
  | .swapped =>
      match s.update with
      | some (.swap next) => some { s with config := next, update := some (.snapshot next) }
      | _ => none
  | .snapshotTaken =>
      match s.update with
      | some (.snapshot next) => some { s with update := some (.notify next s.listeners) }
      | _ => none
  | .called =>
      match s.update with
      | some (.notify next (id :: callbacks)) =>
          some { s with
            update := some (.notify next callbacks)
            notified := s.notified ++ [(id, next)] }
      | _ => none
  | .ended =>
      match s.update with
      | some (.notify next []) => some { s with update := none, returned := next }
      | _ => none
  | .subscribed =>
      some { s with
        listeners := s.listeners ++ [s.nextListenerId]
        nextListenerId := s.nextListenerId + 1 }
  | .unsubscribed id => some { s with listeners := s.listeners.filter (· ≠ id) }
  | .restarted => some (opened json s.file s.tmp)

/-- What the update returns in this step, if it does. -/
def result (s : ConfigStore Text) : ConfigEvent Text →
    Option (Except ConfigStoreError FullCoreConfig)
  | .begun mutate =>
      match revalidate (mutate s.config) with
      | .ok _ => none
      | .error error => some (.error (.invalid error))
  | .failed _ => some (.error .io)
  | .ended => s.update.map (fun stage => .ok stage.next)
  | _ => none

/-- What an update returns to its caller, from the configuration in memory when it began. -/
def updated (config : FullCoreConfig) (mutate : FullCoreConfig → FullCoreConfig)
    (written : Bool) : Except ConfigStoreError FullCoreConfig :=
  match revalidate (mutate config) with
  | .ok next => if written then .ok next else .error .io
  | .error error => .error (.invalid error)

variable {json} {s s' : ConfigStore Text} {e : ConfigEvent Text}

/-- The steps of the store, each with its guard. -/
inductive StepCase (json : JsonText Text) (s : ConfigStore Text) :
    ConfigEvent Text → ConfigStore Text → Prop where
  | begun (mutate : FullCoreConfig → FullCoreConfig) (next : FullCoreConfig)
      (idle : s.update = none) (valid : revalidate (mutate s.config) = .ok next) :
      StepCase json s (.begun mutate) { s with update := some (.create next) }
  | refused (mutate : FullCoreConfig → FullCoreConfig) (error : SchemaError)
      (idle : s.update = none) (invalid : revalidate (mutate s.config) = .error error) :
      StepCase json s (.begun mutate) s
  | created (next : FullCoreConfig) (left : Option Text) (stage : s.update = some (.create next)) :
      StepCase json s (.succeeded left) { s with update := some (.write next), tmp := left }
  | written (next : FullCoreConfig) (left : Option Text) (stage : s.update = some (.write next)) :
      StepCase json s (.succeeded left)
        { s with update := some (.sync next), tmp := some (json.print next.toJson) }
  | synced (next : FullCoreConfig) (left : Option Text) (stage : s.update = some (.sync next)) :
      StepCase json s (.succeeded left) { s with update := some (.rename next) }
  | renamed (next : FullCoreConfig) (left : Option Text) (stage : s.update = some (.rename next)) :
      StepCase json s (.succeeded left)
        { s with update := some (.swap next), file := s.tmp, tmp := none }
  | failed (stage : UpdateStage) (left : Option Text) (busy : s.update = some stage)
      (isOpen : stage.isOpen = true) :
      StepCase json s (.failed left) { s with update := none, tmp := left }
  | swapped (next : FullCoreConfig) (stage : s.update = some (.swap next)) :
      StepCase json s .swapped { s with config := next, update := some (.snapshot next) }
  | snapshotTaken (next : FullCoreConfig) (stage : s.update = some (.snapshot next)) :
      StepCase json s .snapshotTaken { s with update := some (.notify next s.listeners) }
  | called (next : FullCoreConfig) (id : Nat) (callbacks : List Nat)
      (stage : s.update = some (.notify next (id :: callbacks))) :
      StepCase json s .called
        { s with update := some (.notify next callbacks), notified := s.notified ++ [(id, next)] }
  | ended (next : FullCoreConfig) (stage : s.update = some (.notify next [])) :
      StepCase json s .ended { s with update := none, returned := next }
  | subscribed :
      StepCase json s .subscribed
        { s with
          listeners := s.listeners ++ [s.nextListenerId]
          nextListenerId := s.nextListenerId + 1 }
  | unsubscribed (id : Nat) :
      StepCase json s (.unsubscribed id) { s with listeners := s.listeners.filter (· ≠ id) }
  | restarted : StepCase json s .restarted (opened json s.file s.tmp)

theorem step_case (h : s.step json e = some s') : StepCase json s e s' := by
  cases e with
  | begun mutate =>
      simp only [step] at h
      split at h
      · rename_i next hidle hvalid
        obtain rfl := Option.some.inj h
        exact .begun mutate next hidle hvalid
      · rename_i error hidle hinvalid
        obtain rfl := Option.some.inj h
        exact .refused mutate error hidle hinvalid
      · contradiction
  | succeeded left =>
      simp only [step] at h
      split at h
      · rename_i next hstage
        obtain rfl := Option.some.inj h
        exact .created next left hstage
      · rename_i next hstage
        obtain rfl := Option.some.inj h
        exact .written next left hstage
      · rename_i next hstage
        obtain rfl := Option.some.inj h
        exact .synced next left hstage
      · rename_i next hstage
        obtain rfl := Option.some.inj h
        exact .renamed next left hstage
      · contradiction
  | failed left =>
      simp only [step] at h
      split at h
      · rename_i stage hbusy
        split at h
        · rename_i hopen
          obtain rfl := Option.some.inj h
          exact .failed stage left hbusy hopen
        · contradiction
      · contradiction
  | swapped =>
      simp only [step] at h
      split at h
      · rename_i next hstage
        obtain rfl := Option.some.inj h
        exact .swapped next hstage
      · contradiction
  | snapshotTaken =>
      simp only [step] at h
      split at h
      · rename_i next hstage
        obtain rfl := Option.some.inj h
        exact .snapshotTaken next hstage
      · contradiction
  | called =>
      simp only [step] at h
      split at h
      · rename_i next id callbacks hstage
        obtain rfl := Option.some.inj h
        exact .called next id callbacks hstage
      · contradiction
  | ended =>
      simp only [step] at h
      split at h
      · rename_i next hstage
        obtain rfl := Option.some.inj h
        exact .ended next hstage
      · contradiction
  | subscribed =>
      obtain rfl := Option.some.inj h
      exact .subscribed
  | unsubscribed id =>
      obtain rfl := Option.some.inj h
      exact .unsubscribed id
  | restarted =>
      obtain rfl := Option.some.inj h
      exact .restarted

/-- The configuration that the last update to return left, with config.json as its copy. An update
that has renamed its file is in flight until it returns. -/
def cell (json : JsonText Text) (s : ConfigStore Text) : DurableCell FullCoreConfig where
  memory := s.returned
  copy := (s.file.map (parseConfig json)).bind Except.toOption
  inFlight := s.update.bind UpdateStage.inFlight

theorem cell_load : (s.cell json).load defaultFullCoreConfig = load json s.file := by
  rw [DurableCell.load, cell, load]
  cases s.file with
  | none => rfl
  | some text =>
      simp only [Option.map_some, Option.bind_some]
      cases parseConfig json text <;> rfl

structure Inv (json : JsonText Text) (s : ConfigStore Text) : Prop where
  synced : (s.cell json).Synced defaultFullCoreConfig
  valid : ∀ stage, s.update = some stage → revalidate stage.next = .ok stage.next
  written : ∀ next, s.update = some (.sync next) ∨ s.update = some (.rename next) →
    s.tmp = some (json.print next.toJson)

theorem inv_opened (file tmp : Option Text) : (opened json file tmp).Inv json where
  synced := ⟨fun _ => cell_load, fun _ h => by contradiction⟩
  valid _ h := by contradiction
  written _ h := by simp [opened] at h

theorem revalidate_valid {config next : FullCoreConfig} (h : revalidate config = .ok next) :
    revalidate next = .ok next := by
  obtain ⟨-, -, rfl⟩ := revalidate_eq_ok.mp h
  exact h

theorem step_cell (hjson : ∀ config : FullCoreConfig, json.Restores config.toJson)
    (hs : s.Inv json) (h : s.step json e = some s') :
    DurableCell.Moves defaultFullCoreConfig (s.cell json) (s'.cell json) := by
  cases step_case h with
  | begun mutate next hidle hvalid =>
      refine .kept ?_
      simp [cell, hidle, UpdateStage.inFlight, UpdateStage.isOpen]
  | refused | subscribed | unsubscribed => exact .kept rfl
  | created next left hstage | written next left hstage | synced next left hstage =>
      refine .kept ?_
      simp [cell, hstage, UpdateStage.inFlight, UpdateStage.isOpen]
  | renamed next left hstage =>
      have hvalid := hs.valid _ hstage
      simp only [UpdateStage.next] at hvalid
      have hparse := parseConfig_print (hjson next) hvalid
      refine .replaced next ?_ ?_
      · simp [cell, hstage, UpdateStage.inFlight, UpdateStage.isOpen]
      · simp [cell, DurableCell.replace, hs.written next (Or.inr hstage), hparse,
          UpdateStage.inFlight, UpdateStage.isOpen, UpdateStage.next, Except.toOption]
  | failed stage left hbusy hopen =>
      refine .kept ?_
      simp [cell, hbusy, UpdateStage.inFlight, hopen]
  | swapped next hstage | snapshotTaken next hstage | called next id callbacks hstage =>
      refine .kept ?_
      simp [cell, hstage, UpdateStage.inFlight, UpdateStage.isOpen, UpdateStage.next]
  | ended next hstage =>
      refine .installed next ?_ ?_
      · simp [cell, hstage, UpdateStage.inFlight, UpdateStage.isOpen, UpdateStage.next]
      · simp [cell, DurableCell.install]
  | restarted =>
      refine .restarted ?_
      simp only [DurableCell.restart, cell_load]
      rfl

theorem Inv.step (hjson : ∀ config : FullCoreConfig, json.Restores config.toJson)
    (hs : s.Inv json) (h : s.step json e = some s') : s'.Inv json := by
  refine ⟨hs.synced.moves (step_cell hjson hs h), ?_, ?_⟩
  · intro stage hupdate
    cases step_case h with
    | begun mutate next hidle hvalid =>
        obtain rfl := Option.some.inj hupdate
        exact revalidate_valid hvalid
    | created next left hstage | written next left hstage | synced next left hstage
    | renamed next left hstage | swapped next hstage | snapshotTaken next hstage
    | called next id callbacks hstage =>
        obtain rfl := Option.some.inj hupdate
        have hvalid := hs.valid _ hstage
        exact hvalid
    | failed | ended | restarted => contradiction
    | refused | subscribed | unsubscribed => exact hs.valid _ hupdate
  · intro next hupdate
    cases step_case h with
    | written next' left hstage =>
        obtain rfl : next' = next := by simpa using hupdate
        rfl
    | synced next' left hstage =>
        obtain rfl : next' = next := by simpa using hupdate
        exact hs.written next' (Or.inl hstage)
    | refused | subscribed | unsubscribed => exact hs.written next hupdate
    | begun | created | renamed | failed | swapped | snapshotTaken | called | ended
    | restarted => simp [opened] at hupdate

theorem inv_run (hjson : ∀ config : FullCoreConfig, json.Restores config.toJson)
    {file tmp : Option Text} {es : List (ConfigEvent Text)}
    (h : exec (ConfigStore.step json) (opened json file tmp) es = some s) : s.Inv json :=
  exec_invariant (inv_opened file tmp) (fun _ _ _ hs hstep => hs.step hjson hstep) h

/-- A process start loads the configuration of the last update that returned, or that of the
update in flight. -/
theorem Inv.load (hs : s.Inv json) : ConfigStore.load json s.file = s.returned ∨
    ∃ stage, s.update = some stage ∧ ConfigStore.load json s.file = stage.next := by
  rw [← cell_load]
  cases hflight : (s.cell json).inFlight with
  | none => exact Or.inl (hs.synced.idle hflight)
  | some next =>
      obtain ⟨stage, hstage, hnext⟩ := Option.bind_eq_some_iff.mp hflight
      have hsame : stage.next = next := by
        rw [UpdateStage.inFlight] at hnext
        split at hnext
        · contradiction
        · exact Option.some.inj hnext
      exact Or.inr ⟨stage, hstage, by rw [hs.synced.load_of_busy hflight, hsame]⟩

/-- The event begins an update, or ends the process that would run one. -/
def startsOver : ConfigEvent Text → Bool
  | .begun _ => true
  | .restarted => true
  | _ => false

/-- While an update may still fail, the state that others can see is that of its beginning. -/
structure Untouched (s₀ s : ConfigStore Text) : Prop where
  config : s.config = s₀.config
  file : s.file = s₀.file
  notified : s.notified = s₀.notified

theorem untouched_step {s₀ : ConfigStore Text} {stage : UpdateStage}
    (hs : ∀ stage, s.update = some stage → stage.isOpen = true → Untouched s₀ s)
    (h : s.step json e = some s') (he : startsOver e = false) (hstage : s'.update = some stage)
    (hopen : stage.isOpen = true) : Untouched s₀ s' := by
  cases step_case h with
  | begun | refused | restarted => contradiction
  | created next left hbefore | written next left hbefore | synced next left hbefore =>
      have hs₁ := hs _ hbefore rfl
      exact ⟨hs₁.config, hs₁.file, hs₁.notified⟩
  | renamed | swapped | snapshotTaken | called =>
      obtain rfl := Option.some.inj hstage
      contradiction
  | failed | ended => contradiction
  | subscribed | unsubscribed =>
      have hs₁ := hs _ hstage hopen
      exact ⟨hs₁.config, hs₁.file, hs₁.notified⟩

theorem untouched_of_result {s₀ : ConfigStore Text} {error : ConfigStoreError}
    (hs : ∀ stage, s.update = some stage → stage.isOpen = true → Untouched s₀ s)
    (he : startsOver e = false) (h : s.step json e = some s')
    (hresult : s.result e = some (.error error)) : Untouched s₀ s' := by
  cases step_case h with
  | failed stage left hbusy hopen =>
      have hs₁ := hs stage hbusy hopen
      exact ⟨hs₁.config, hs₁.file, hs₁.notified⟩
  | begun | refused | restarted => contradiction
  | ended next hstage => simp [result, hstage] at hresult
  | created | written | synced | renamed | swapped | snapshotTaken | called | subscribed
  | unsubscribed => contradiction

theorem untouched_exec {s₀ : ConfigStore Text}
    {mutate : FullCoreConfig → FullCoreConfig} (hbegun : s₀.step json (.begun mutate) = some s)
    {es : List (ConfigEvent Text)} (hes : ∀ e ∈ es, startsOver e = false)
    (h : exec (ConfigStore.step json) s es = some s') :
    ∀ stage, s'.update = some stage → stage.isOpen = true → Untouched s₀ s' := by
  revert hes
  refine exec_induction (P := fun es s' => (∀ e ∈ es, startsOver e = false) →
    ∀ stage, s'.update = some stage → stage.isOpen = true → Untouched s₀ s') ?_ ?_ h
  · intro _ stage hstage hopen
    cases step_case hbegun with
    | begun => exact ⟨rfl, rfl, rfl⟩
    | refused => exact ⟨rfl, rfl, rfl⟩
  · intro es s₁ e s₂ hs₁ ih hstep hes stage hstage hopen
    have hbefore := ih (fun e he => hes e (List.mem_append_left _ he))
    exact untouched_step hbefore hstep (hes e (by simp)) hstage hopen

/-- At instants `n ≤ m` one update begins and returns. -/
structure Updates (json : JsonText Text) (s₀ : ConfigStore Text) (es : List (ConfigEvent Text))
    (n m : Nat) (s₁ : ConfigStore Text) (mutate : FullCoreConfig → FullCoreConfig)
    (s₂ : ConfigStore Text) (r : Except ConfigStoreError FullCoreConfig) : Prop where
  begun : ∃ s, StepAt (ConfigStore.step json) s₀ es n s₁ (.begun mutate) s
  ended : ∃ s e, StepAt (ConfigStore.step json) s₀ es m s e s₂ ∧ s.result e = some r
  le : n ≤ m
  same : ∀ k e, n < k → k ≤ m → es[k]? = some e → startsOver e = false

/-- An update returns in the step that begins it, or at the end of a stretch of its own. -/
theorem Updates.cases {s₀ s₁ s₂ : ConfigStore Text} {es : List (ConfigEvent Text)} {n m : Nat}
    {mutate : FullCoreConfig → FullCoreConfig} {r : Except ConfigStoreError FullCoreConfig}
    (h : Updates json s₀ es n m s₁ mutate s₂ r) :
    (s₁.step json (.begun mutate) = some s₂ ∧ s₁.result (.begun mutate) = some r) ∨
    ∃ s t e fs, s₁.step json (.begun mutate) = some s ∧ (∀ f ∈ fs, startsOver f = false) ∧
      exec (ConfigStore.step json) s fs = some t ∧ startsOver e = false ∧
      t.step json e = some s₂ ∧ t.result e = some r := by
  obtain ⟨s, hbegun⟩ := h.begun
  obtain ⟨t, e, hended, hresult⟩ := h.ended
  rcases Nat.eq_or_lt_of_le h.le with rfl | hlt
  · have ht : t = s₁ := Option.some.inj (hended.before.symm.trans hbegun.before)
    have he : e = .begun mutate := Option.some.inj (hended.event.symm.trans hbegun.event)
    subst ht he
    exact Or.inl ⟨hended.step, hresult⟩
  · obtain ⟨s', hs', hbetween⟩ := exec_take hended.before (n + 1)
    rw [List.take_take, Nat.min_eq_left hlt] at hs'
    obtain rfl : s' = s := Option.some.inj (hs'.symm.trans hbegun.after)
    refine Or.inr ⟨s', t, e, (es.take m).drop (n + 1), hbegun.step, ?_, hbetween,
      h.same m e hlt (Nat.le_refl m) hended.event, hended.step, hresult⟩
    intro f hf
    obtain ⟨k, hk⟩ := List.mem_iff_getElem?.mp hf
    rw [List.getElem?_drop, List.getElem?_take] at hk
    split at hk
    · rename_i hkm
      exact h.same (n + 1 + k) f (by omega) (by omega) hk
    · contradiction

theorem Updates.untouched {s₀ s₁ s₂ : ConfigStore Text} {es : List (ConfigEvent Text)}
    {n m : Nat} {mutate : FullCoreConfig → FullCoreConfig} {error : ConfigStoreError}
    (h : Updates json s₀ es n m s₁ mutate s₂ (.error error)) : Untouched s₁ s₂ := by
  rcases h.cases with ⟨hstep, hresult⟩ | ⟨s, t, e, fs, hbegun, hfs, hexec, he, hstep, hresult⟩
  · cases step_case hstep with
    | begun _ next hidle hvalid => simp [result, hvalid] at hresult
    | refused => exact ⟨rfl, rfl, rfl⟩
  · exact untouched_of_result (untouched_exec hbegun hfs hexec) he hstep hresult

/-- The codec of config.json loses nothing, an update that returns an error has changed nothing
that others can see, and a process start loads the configuration of the last update that returned
`Ok` (or the one the ended process loaded), or that of the update in flight. -/
theorem config_store_crash_consistent
    (hjson : ∀ config : FullCoreConfig, json.Restores config.toJson) :
    (∀ config config', revalidate config = .ok config' →
      config' = config ∧ parseConfig json (json.print config.toJson) = .ok config ∧
      ∀ text j, json.parse text = some j → config.Document j →
        parseConfig json text = .ok config) ∧
    ∀ (file tmp : Option Text) (es : List (ConfigEvent Text)),
      (∀ n m s₁ mutate s₂ error,
        Updates json (opened json file tmp) es n m s₁ mutate s₂ (.error error) →
        s₂.config = s₁.config ∧ s₂.file = s₁.file ∧ s₂.notified = s₁.notified) ∧
      (∀ n s₁ s₂,
        StepAt (ConfigStore.step json) (opened json file tmp) es n s₁ .restarted s₂ →
        s₂.config = s₁.returned ∨
          ∃ stage, s₁.update = some stage ∧ s₂.config = stage.next) := by
  refine ⟨?_, ?_⟩
  · intro config config' hvalid
    refine ⟨(revalidate_eq_ok.mp hvalid).2.2, parseConfig_print (hjson config) hvalid, ?_⟩
    intro text j hparse hj
    exact parseConfig_document hvalid hparse hj
  · intro file tmp es
    refine ⟨?_, ?_⟩
    · intro n m s₁ mutate s₂ error h
      exact ⟨h.untouched.config, h.untouched.file, h.untouched.notified⟩
    · intro n s₁ s₂ hat
      obtain rfl := Option.some.inj hat.step
      exact (inv_run hjson hat.before).load

/-- A process that pins the protected storage of the system ends between the rename and the
swap. -/
def pinInterrupted : List (ConfigEvent Json) :=
  [ConfigEvent.begun (fun config => { config with credentialBackend := some .dpapi }),
    .succeeded none, .succeeded none, .succeeded none, .succeeded none]

theorem config_store_crash_consistent_pin :
    parseConfig JsonText.documents defaultFullCoreConfig.toJson = .ok defaultFullCoreConfig ∧
    ∃ s₁ s₂, StepAt (ConfigStore.step JsonText.documents) (opened JsonText.documents none none)
        (pinInterrupted ++ [.restarted]) 5 s₁ .restarted s₂ ∧
      (s₂.config = s₁.returned ∨ ∃ stage, s₁.update = some stage ∧ s₂.config = stage.next) := by
  have h := config_store_crash_consistent (fun config => JsonText.documents_restores config.toJson)
  have hrun : (exec (ConfigStore.step JsonText.documents) (opened JsonText.documents none none)
      pinInterrupted).isSome = true := by decide +kernel
  obtain ⟨s₁, hs₁⟩ := Option.isSome_iff_exists.mp hrun
  have hat := StepAt.last hs₁ (show ConfigStore.step JsonText.documents s₁ .restarted = _ from rfl)
  exact ⟨(h.1 _ _ revalidate_default).2.1, s₁, _, hat, (h.2 none none _).2 5 s₁ _ hat⟩

end ConfigStore

end YohakuCore
