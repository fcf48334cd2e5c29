import YohakuCore.Capture.SemanticChanges
import YohakuCore.Companion.FreshPublish
import YohakuCore.Framework.Coupling
import YohakuCore.Shell.RecentApps

/-!
# From a change to the server

The watchers and the coordinator run side by side; their listeners ask for a fresh snapshot on the
thread that calls them.
-/

namespace YohakuCore

open Framework

section

variable {σ ε : Type*} (watch : σ → ε → Option σ) (asks : σ → ε → Bool)

/-- What a step of the watcher asks of the coordinator. -/
def requestBy (s : σ) (e : ε) : Option CoordinatorEvent :=
  if asks s e then some .requestFreshSnapshot else none

/-- A watcher and the coordinator, with the listener between them. -/
def publishStep : σ × Coordinator → ε ⊕ CoordinatorEvent → Option (σ × Coordinator) :=
  coupledStep watch Coordinator.step (requestBy asks)

/-- A step that calls the listener asks the coordinator, and a loop has after that begun a capture,
published its snapshot and been accepted. -/
def PublishedOnCall (s₁ : σ × Coordinator) (events : List (ε ⊕ CoordinatorEvent))
    (call : σ → ε → Prop) (gen : Nat) (s : σ × Coordinator) : Prop :=
  ∃ heard e since s₂, events = heard ++ .inl e :: since ∧
    exec (publishStep watch asks) s₁ heard = some s₂ ∧ call s₂.1 e ∧
    Coordinator.PublishedIn (since.filterMap Sum.getRight?) gen s₂.2.calls.length s.2

variable {watch asks}

theorem requestBy_loop {s : σ} {e : ε} {f : CoordinatorEvent} (h : requestBy asks s e = some f) :
    f.loop = none := by
  rw [requestBy, Option.ite_none_right_eq_some] at h
  obtain ⟨-, h⟩ := h
  obtain rfl := Option.some.inj h
  rfl

/-- The coordinator has a run of its own, in which its loops take the same segments. -/
theorem coordinator_run {s s' : σ × Coordinator} {es : List (ε ⊕ CoordinatorEvent)}
    {P : Coordinator → Prop} (h : exec (publishStep watch asks) s es = some s')
    (hall : Throughout (publishStep watch asks) s es fun t => P t.2) :
    ∃ fs, exec Coordinator.step s.2 fs = some s'.2 ∧ Throughout Coordinator.step s.2 fs P ∧
      ∀ id, Coordinator.ofLoop id fs = Coordinator.ofLoop id (es.filterMap Sum.getRight?) := by
  obtain ⟨fs, hfs, hP, hfilter⟩ := exec_second h hall
  refine ⟨fs, hfs, hP, ?_⟩
  intro id
  refine hfilter (fun e => e.loop = some id) ?_
  intro s e f hforces
  simp [requestBy_loop hforces]

theorem coordinator_inv {s₀ : σ} {s : σ × Coordinator} {es : List (ε ⊕ CoordinatorEvent)}
    (h : exec (publishStep watch asks) (s₀, Coordinator.new) es = some s) : s.2.Inv := by
  obtain ⟨fs, hfs, -, -⟩ := coordinator_run (P := fun _ => True) h fun _ _ _ => trivial
  exact Coordinator.inv_run hfs

theorem loopsOf_of_idle {s₀ : σ} {s : σ × Coordinator} {es : List (ε ⊕ CoordinatorEvent)}
    (h : exec (publishStep watch asks) (s₀, Coordinator.new) es = some s)
    (hidle : s.2.inner.refreshLoopRunning = false) (gen : Nat) : s.2.LoopsOf gen := by
  intro id task hloop
  have hrunning := (coordinator_inv h).flight.running_of_some hloop
  rw [hidle] at hrunning
  contradiction

theorem not_currentLoop_of_idle {s₀ : σ} {s : σ × Coordinator} {es : List (ε ⊕ CoordinatorEvent)}
    (h : exec (publishStep watch asks) (s₀, Coordinator.new) es = some s)
    (hidle : s.2.inner.refreshLoopRunning = false) : ¬ s.2.CurrentLoop := by
  rintro ⟨id, task, hloop, hcurrent⟩
  have hother := loopsOf_of_idle h hidle (s.2.inner.generation + 1) id task hloop
  omega

/-- When the refresh loop is done, and the coordinator went on sharing, the call of a listener has
been followed by a publish. -/
theorem publishedOnCall_of_happened {s₀ : σ} {s₁ s : σ × Coordinator} {gen : Nat}
    {before after : List (ε ⊕ CoordinatorEvent)} {call : σ → ε → Prop}
    (hbefore : exec (publishStep watch asks) (s₀, Coordinator.new) before = some s₁)
    (hafter : exec (publishStep watch asks) s₁ after = some s)
    (hcall : Happened watch s₁.1 (after.filterMap Sum.getLeft?) fun t e _ => call t e)
    (hasks : ∀ t e, call t e → asks t e = true) (hloops : s₁.2.LoopsOf gen)
    (hshares : Throughout (publishStep watch asks) s₁ after fun t => t.2.SharesIn gen)
    (hquiet : ¬ s.2.CurrentLoop) : PublishedOnCall watch asks s₁ after call gen s := by
  obtain ⟨n, w, e, w', hat, hcall⟩ := hcall
  obtain ⟨heard, since, c, rfl, ht⟩ := exec_first_stepAt hafter hat
  obtain ⟨t, ht', hrest⟩ := exec_append_eq_some.mp hafter
  obtain rfl := Option.some.inj (ht.symm.trans ht')
  obtain ⟨t₂, hcalls, hsince⟩ := Option.bind_eq_some_iff.mp hrest
  -- At that instant the coordinator is asked.
  obtain ⟨-, hforced⟩ := coupledStep_inl hcalls
  dsimp only at hforced
  rw [requestBy, if_pos (hasks w e hcall), Option.toList_some, exec_singleton] at hforced
  have hinv : c.Inv := coordinator_inv (exec_append_eq_some.mpr ⟨s₁, hbefore, ht⟩)
  have hnow : c.SharesIn gen := hshares.append_left.last ht
  obtain ⟨es, hes, hshared, -⟩ := coordinator_run ht hshares.append_left
  have htriggers : c.Triggers .requestFreshSnapshot := hnow.active
  have hmeets := (hloops.of_run hshared hes).not_meetsDyingLoop hnow.generation hinv
    .requestFreshSnapshot
  -- From then on it runs as it would on its own.
  have hlater : Throughout (publishStep watch asks) (w, c) ([.inl e] ++ since)
      fun t => t.2.SharesIn gen := hshares.append_right ht
  obtain ⟨fs, hfs, hsharing, hsame⟩ := coordinator_run hsince
    (hlater.append_right (by rw [exec_singleton]; exact hcalls))
  have hpublished := Coordinator.published_of_trigger hinv htriggers hmeets hforced hfs hsharing
    hquiet
  exact ⟨heard, e, since, (w, c), rfl, ht, hcall, hpublished.congr hsame⟩

theorem not_mem_getLeft {es : List (ε ⊕ CoordinatorEvent)} {e : ε} (h : .inl e ∉ es) :
    e ∉ es.filterMap Sum.getLeft? := by
  rw [List.mem_filterMap]
  rintro ⟨x, hmem, hx⟩
  cases x with
  | inl f =>
      obtain rfl := Option.some.inj hx
      exact h hmem
  | inr f => contradiction

end

def ForegroundWatcher.callsNext (listener : Nat) (w : ForegroundWatcher) (e : WatcherEvent) :
    Bool :=
  (heardBy listener w e).isSome

/-- The coordinator is active and has published once. -/
def publishedBefore : List CoordinatorEvent :=
  [.start] ++ Coordinator.configuredBy 0 ++ Coordinator.publishedBy 2 ++ [.loopHead 2 4000]

/-- A semantic change is published: when the provider waits for the next notification and the
refresh loop is done, the listener has been called for it, and a loop has after that captured,
published its snapshot and been accepted, if the coordinator went on sharing. -/
theorem semantic_change_is_published {floats : Floats} {current : Option Nat}
    {properties : Nat → SessionProperties} {listener gen : Nat}
    {before after : List (MediaEvent ⊕ CoordinatorEvent)} {e : MediaEvent}
    {s₁ s₂ s : MediaEvents × Coordinator}
    (hbefore : exec (publishStep (MediaEvents.step floats) (MediaEvents.callsNext listener))
      (MediaEvents.new current properties, Coordinator.new) before = some s₁)
    (hstep : publishStep (MediaEvents.step floats) (MediaEvents.callsNext listener) s₁ (.inl e) =
      some s₂)
    (hchange : s₂.1.lastSemanticKey ≠ s₁.1.lastSemanticKey) (hlistener : listener ∈ s₂.1.listeners)
    (hloops : s₂.2.LoopsOf gen)
    (hafter : exec (publishStep (MediaEvents.step floats) (MediaEvents.callsNext listener)) s₂
      after = some s)
    (hstays : .inl (.unsubscribes listener) ∉ after) (hrunning : s.1.stopped = false)
    (htask : s.1.task = .receiving)
    (hshares : Throughout (publishStep (MediaEvents.step floats) (MediaEvents.callsNext listener))
      s₂ after fun t => t.2.SharesIn gen)
    (hquiet : ¬ s.2.CurrentLoop) :
    PublishedOnCall (MediaEvents.step floats) (MediaEvents.callsNext listener) s₂ after
      (fun t f => t.callsNext listener f = true) gen s := by
  have hstart := exec_concat_eq_some.mpr ⟨s₁, hbefore, hstep⟩
  obtain ⟨hprovider, -⟩ := coupledStep_inl hstep
  have hchanged := MediaEvents.changed_of_takes (MediaEvents.Takes.of_step hprovider) hchange
  have howes : s₂.1.task.Owes listener := by
    rw [hchanged]
    trivial
  have hcalled := MediaEvents.called_since (MediaEvents.Registered.exec (exec_first hstart)) howes
    hlistener (exec_first hafter) hrunning (not_mem_getLeft hstays)
  have hnotOwes : ¬ s.1.task.Owes listener := by
    rw [htask]
    exact id
  exact publishedOnCall_of_happened hstart hafter (hcalled.resolve_left hnotOwes)
    (fun _ _ hcall => hcall) hloops hshares hquiet

/-- The provider has read the first song, and has the listener 0. -/
def beforeSong : List (MediaEvent ⊕ CoordinatorEvent) :=
  publishedBefore.map .inr ++
    ([MediaEvent.asksToListen, .listens] ++ (MediaEvents.firstPass [0]).take 11).map .inl

/-- The song is announced, and a loop publishes. -/
def afterSong : List (MediaEvent ⊕ CoordinatorEvent) :=
  [MediaEvent.checksChange, .looksUp [0], .calls, .calls].map .inl ++
    (Coordinator.publishedBy 3 ++ [CoordinatorEvent.loopHead 3 8000]).map .inr

def songStep : MediaEvents × Coordinator → MediaEvent ⊕ CoordinatorEvent →
    Option (MediaEvents × Coordinator) :=
  publishStep (MediaEvents.step .integral) (MediaEvents.callsNext 0)

theorem semantic_change_is_published_song : ∃ s₁ s₂ s,
    exec songStep (MediaEvents.new (some 0) fun _ => MediaEvents.firstSong, Coordinator.new)
        beforeSong = some s₁ ∧
      songStep s₁ (.inl .compares) = some s₂ ∧ exec songStep s₂ afterSong = some s ∧
      PublishedOnCall (MediaEvents.step .integral) (MediaEvents.callsNext 0) s₂ afterSong
        (fun t f => t.callsNext 0 f = true) 1 s := by
  have hstart : (exec songStep (MediaEvents.new (some 0) fun _ => MediaEvents.firstSong,
      Coordinator.new) beforeSong).map (fun s => s.1.lastSemanticKey) = some none := by
    decide +kernel
  have hchanged : (exec songStep (MediaEvents.new (some 0) fun _ => MediaEvents.firstSong,
      Coordinator.new) (beforeSong ++ [.inl .compares])).map (fun s =>
        (s.1.lastSemanticKey.isSome, s.1.listeners, s.2.inner.refreshLoopRunning)) =
      some (true, [0], false) := by
    decide +kernel
  have hdone : (exec songStep (MediaEvents.new (some 0) fun _ => MediaEvents.firstSong,
      Coordinator.new) (beforeSong ++ [.inl .compares] ++ afterSong)).map (fun s =>
        (s.1.stopped, s.1.task, s.2.inner.refreshLoopRunning)) =
      some (false, EventTask.receiving, false) := by
    decide +kernel
  obtain ⟨s₁, hs₁, hnone⟩ := Option.map_eq_some_iff.mp hstart
  obtain ⟨s₂, hs₂, hafter⟩ := Option.map_eq_some_iff.mp hchanged
  obtain ⟨s, hs, hrest⟩ := Option.map_eq_some_iff.mp hdone
  simp only [Prod.mk.injEq] at hafter hrest
  obtain ⟨hkey, hlisteners, hidle⟩ := hafter
  obtain ⟨hrunning, htask, hquiet⟩ := hrest
  have hend := hs
  rw [exec_concat_eq_some] at hs₂
  obtain ⟨s₁', hs₁', hstep⟩ := hs₂
  obtain rfl := Option.some.inj (hs₁.symm.trans hs₁')
  have hstart := exec_concat_eq_some.mpr ⟨s₁, hs₁, hstep⟩
  rw [exec_append, hstart, Option.bind_some] at hs
  have hchange : s₂.1.lastSemanticKey ≠ s₁.1.lastSemanticKey := by
    rw [hnone]
    exact Option.isSome_iff_ne_none.mp hkey
  have hshares : Throughout songStep s₂ afterSong fun t => t.2.SharesIn 1 :=
    throughout_of_all hstart (by decide +kernel)
  exact ⟨s₁, s₂, s, hs₁, hstep, hs, semantic_change_is_published hs₁ hstep hchange
    (by simp [hlisteners]) (loopsOf_of_idle hstart hidle 1) hs
    (by simp [afterSong, Coordinator.publishedBy]) hrunning htask hshares
    (not_currentLoop_of_idle hend hquiet)⟩

end YohakuCore
