import YohakuCore.Capture.SessionHandlers
import Mathlib.Data.List.Chain
import Mathlib.Data.List.Nodup

/-! # Keys and rounds -/

namespace YohakuCore

open Framework

/-- The task is in its loop, and not in a pass. -/
def EventTask.isLooping : EventTask → Bool
  | .receiving => true
  | .handling _ => true
  | .ended => true
  | _ => false

/-- The listeners that the round still has to call. -/
def EventTask.remaining : EventTask → List Nat
  | .calling remaining => remaining
  | _ => []

namespace MediaEvents

variable {floats : Floats}

/-- A key whose listeners have not been looked up. -/
def unannounced (s : MediaEvents) : List SemanticKey :=
  match s.task with
  | .changed => [s.lastSemanticKey]
  | .notifying => [s.lastSemanticKey]
  | _ => []

/-- Each key differs from the one before, and a key is announced before the next is read; only
`stop` can keep the last one from being announced. -/
structure Announces (s : MediaEvents) : Prop where
  chain : s.keys.IsChain (· ≠ ·)
  first : s.keys.head? ≠ some none
  last : s.lastSemanticKey = s.keys.getLast?.getD none
  isPrefix : s.announced <+: s.keys
  inPass : s.stopped = false ∨ s.task.isLooping = false → s.keys = s.announced ++ s.unannounced

theorem Announces.moves {s s' : MediaEvents} (h : s.Announces) (hkeys : s'.keys = s.keys)
    (hlast : s'.lastSemanticKey = s.lastSemanticKey) (hannounced : s'.announced = s.announced)
    (hunannounced : s'.stopped = false ∨ s'.task.isLooping = false →
      s'.unannounced = s.unannounced ∧ (s.stopped = false ∨ s.task.isLooping = false)) :
    s'.Announces where
  chain := hkeys ▸ h.chain
  first := hkeys ▸ h.first
  last := by rw [hlast, hkeys, h.last]
  isPrefix := by
    rw [hannounced, hkeys]
    exact h.isPrefix
  inPass := by
    intro hpass
    obtain ⟨hsame, hpass⟩ := hunannounced hpass
    rw [hkeys, hannounced, hsame, h.inPass hpass]

theorem Announces.changes {s : MediaEvents} (h : s.Announces) {frame : Option RawFrame}
    (htask : s.task = .comparing frame) (hkey : s.lastSemanticKey ≠ semanticKey frame) :
    ({ s with
      task := .changed
      lastSemanticKey := semanticKey frame
      keys := s.keys ++ [semanticKey frame] }).Announces := by
  have hsame : s.keys = s.announced := by
    simpa [unannounced, htask] using h.inPass (Or.inr (by rw [htask]; rfl))
  have hlast := h.last
  refine ⟨?_, ?_, ?_, ?_, ?_⟩
  · apply List.IsChain.append h.chain (List.isChain_singleton _)
    intro key hkey' key' hsingle
    obtain rfl : semanticKey frame = key' := by simpa using hsingle
    rw [Option.mem_def.mp hkey'] at hlast
    exact fun heq => hkey (hlast.trans heq)
  · cases hkeys : s.keys with
    | nil =>
        rw [hkeys] at hlast
        simpa [hlast] using Ne.symm hkey
    | cons key keys => simpa [hkeys] using h.first
  · simp
  · rw [hsame]
    exact List.prefix_append _ _
  · intro _
    simp [hsame, unannounced]

theorem Announces.takes {s s' : MediaEvents} {e : MediaEvent} (h : s.Announces)
    (htakes : Takes floats s e s') : s'.Announces := by
  cases htakes with
  | changes htask hkey => exact h.changes htask hkey
  | looksUp htask =>
      have hkeys : s.keys = s.announced ++ [s.lastSemanticKey] := by
        simpa [unannounced, htask] using h.inPass (Or.inr (by rw [htask]; rfl))
      refine ⟨h.chain, h.first, h.last, ?_, fun _ => ?_⟩
      · exact ⟨[], by simp [hkeys]⟩
      · simp [hkeys, unannounced]
  | silences htask hstopped =>
      exact h.moves rfl rfl rfl (by simp [hstopped, EventTask.isLooping])
  | commits htask =>
      rename_i session mediaToken playbackToken
      cases mediaToken <;> cases playbackToken <;>
        exact h.moves rfl rfl rfl (by simp [unannounced, htask, EventTask.isLooping])
  | receives htask | ends htask | handlesSession htask | handlesProps htask | locks htask
  | givesUp htask | checks htask | findsSession htask | findsNone htask | findFails htask
  | registersMedia htask | mediaFails htask | registersPlayback htask | playbackFails htask
  | startsSession htask | startsNone htask | startFails htask | fetches htask | reads htask
  | keeps htask | notifies htask | calls htask | endsRound htask =>
      refine h.moves rfl rfl rfl ?_
      simp_all [unannounced, EventTask.isLooping, detach]
  | readFails hawaits | taskAborted haborted hawaits =>
      refine h.moves rfl rfl rfl ?_
      cases ht : s.task <;> simp_all [EventTask.awaits, unannounced, EventTask.isLooping]
  | stops hstopped =>
      exact h.moves rfl rfl rfl fun _ => ⟨rfl, Or.inl hstopped⟩
  | refuses | stopsAgain => exact h
  | _ => exact h.moves rfl rfl rfl fun hpass => ⟨rfl, hpass⟩

/-- A call that the round still owes to the listener. -/
def outstanding (s : MediaEvents) (id : Nat) : Nat := s.task.remaining.count id

/-- An id is given out once, and a round calls nobody twice. -/
structure Listens (s : MediaEvents) : Prop where
  below : ∀ id ∈ s.listeners, id < s.nextListenerId
  nodup : s.listeners.Nodup
  round : s.task.remaining.Nodup

theorem Listens.takes {s s' : MediaEvents} {e : MediaEvent} (h : s.Listens)
    (htakes : Takes floats s e s') : s'.Listens := by
  cases htakes with
  | listens =>
      refine ⟨?_, ?_, h.round⟩
      · intro id hid
        rcases List.mem_append.mp hid with hid | hid
        · exact Nat.lt_succ_of_lt (h.below id hid)
        · simp at hid
          simp [hid]
      · apply List.nodup_append.mpr
        refine ⟨h.nodup, List.nodup_singleton _, ?_⟩
        intro id hid id' hid'
        have hlt := h.below id hid
        simp at hid'
        omega
  | unsubscribes id =>
      refine ⟨?_, h.nodup.filter _, h.round⟩
      exact fun id' hid => h.below id' (List.mem_of_mem_filter hid)
  | clears => exact ⟨by simp, List.nodup_nil, h.round⟩
  | looksUp htask horder => exact ⟨h.below, h.nodup, horder.nodup_iff.mpr h.nodup⟩
  | calls htask =>
      have hround := h.round
      rw [htask] at hround
      exact ⟨h.below, h.nodup, (List.nodup_cons.mp hround).2⟩
  | commits htask =>
      rename_i session mediaToken playbackToken
      cases mediaToken <;> cases playbackToken <;> exact ⟨h.below, h.nodup, List.nodup_nil⟩
  | currentChanges | sessionChanges | delivers | refuses | asks | stopsAgain | stops
  | detachesManager | detachesSession | sendsStop | aborts | joins =>
      exact ⟨h.below, h.nodup, h.round⟩
  | _ => exact ⟨h.below, h.nodup, List.nodup_nil⟩

/-- The calls of a listener against the rounds: what it is owed counts as a call. -/
def heard (s : MediaEvents) (id : Nat) : Nat := s.calls.count id + s.outstanding id

/-- A round calls a registered listener once; the task of a provider that was cleared has ended. -/
theorem heard_takes {s s' : MediaEvents} {e : MediaEvent} {id : Nat} (hlistens : s.Listens)
    (hid : id ∈ s.listeners ∨ s.task = .ended) (htakes : Takes floats s e s') :
    s'.heard id + s.announced.length = s.heard id + s'.announced.length := by
  cases htakes with
  | looksUp htask horder =>
      rcases hid with hid | hid
      · have hcount := horder.count_eq id
        rw [List.count_eq_one_of_mem hlistens.nodup hid] at hcount
        simp [heard, outstanding, EventTask.remaining, htask, hcount]
        omega
      · simp [htask] at hid
  | calls htask =>
      rename_i id' remaining
      by_cases heq : id' = id
      · simp [heard, outstanding, EventTask.remaining, htask, heq]
        omega
      · simp [heard, outstanding, EventTask.remaining, htask, heq]
  | commits htask =>
      rename_i session mediaToken playbackToken
      cases mediaToken <;> cases playbackToken <;>
        simp [heard, outstanding, EventTask.remaining, htask, commit]
  | receives htask | ends htask | handlesSession htask | handlesProps htask | locks htask
  | givesUp htask | checks htask | findsSession htask | findsNone htask | findFails htask
  | registersMedia htask | mediaFails htask | registersPlayback htask | playbackFails htask
  | startsSession htask | startsNone htask | startFails htask | fetches htask | reads htask
  | keeps htask | changes htask | silences htask | notifies htask | endsRound htask =>
      simp [heard, outstanding, EventTask.remaining, htask, detach]
  | readFails hawaits | taskAborted haborted hawaits =>
      cases ht : s.task <;> simp_all [EventTask.awaits, heard, outstanding, EventTask.remaining]
  | _ => rfl

theorem stays_takes {s s' : MediaEvents} {e : MediaEvent} {id : Nat} (hregistered : s.Registered)
    (hid : id ∈ s.listeners ∨ s.task = .ended) (he : e ≠ .unsubscribes id)
    (htakes : Takes floats s e s') : id ∈ s'.listeners ∨ s'.task = .ended := by
  rcases hid with hid | hid
  · cases htakes with
    | listens => exact Or.inl (List.mem_append_left _ hid)
    | unsubscribes id' =>
        have hne : id ≠ id' := fun heq => he (heq ▸ rfl)
        exact Or.inl (List.mem_filter.mpr ⟨hid, decide_eq_true hne⟩)
    | clears hcall => exact Or.inr (hregistered.ended (Or.inl hcall))
    | commits htask =>
        rename_i session mediaToken playbackToken
        cases mediaToken <;> cases playbackToken <;> exact Or.inl hid
    | _ => exact Or.inl hid
  · right
    cases htakes <;> simp_all [EventTask.awaits, send, detach]

theorem announces_new (current : Option Nat) (properties : Nat → SessionProperties) :
    (new current properties).Announces :=
  ⟨List.isChain_nil, by simp [new], rfl, List.prefix_rfl, fun _ => rfl⟩

theorem Announces.exec {current : Option Nat} {properties : Nat → SessionProperties}
    {es : List MediaEvent} {s : MediaEvents}
    (h : exec (step floats) (new current properties) es = some s) : s.Announces :=
  exec_invariant (I := Announces) (announces_new current properties)
    (fun _ _ _ hs hstep => hs.takes (Takes.of_step hstep)) h

theorem Listens.exec {current : Option Nat} {properties : Nat → SessionProperties}
    {es : List MediaEvent} {s : MediaEvents}
    (h : Framework.exec (step floats) (new current properties) es = some s) : s.Listens :=
  have hnew : (new current properties).Listens :=
    ⟨by simp [new], List.nodup_nil, by simp [new, EventTask.remaining]⟩
  exec_invariant (I := Listens) hnew
    (fun _ _ _ hs hstep => hs.takes (Takes.of_step hstep)) h

theorem Registered.returned_takes {s s' : MediaEvents} {e : MediaEvent} (h : s.Registered)
    (hreturned : s.stopCall = .returned) (htakes : Takes floats s e s') :
    s'.stopCall = .returned ∧ s'.announced = s.announced ∧ s'.calls = s.calls := by
  have hended := h.ended (Or.inr hreturned)
  have hstopped := h.stopped.mpr (by simp [hreturned])
  cases htakes <;> simp_all [EventTask.awaits, send]

variable (floats) in
/-- The key changes from one read to another only, and never to what it was; each change is
announced once and in order. While the provider has not been stopped, no change is left out
between two passes, and after `stop` has returned there is neither an announcement nor a call. -/
theorem semantic_changes_are_announced_once (current : Option Nat)
    (properties : Nat → SessionProperties) (es : List MediaEvent) (s : MediaEvents)
    (h : exec (step floats) (new current properties) es = some s) :
    s.keys.IsChain (· ≠ ·) ∧ s.keys.head? ≠ some none ∧ s.announced <+: s.keys ∧
      (s.stopped = false → s.task = .receiving → s.announced = s.keys) ∧
      ∀ after s', s.stopCall = .returned → exec (step floats) s after = some s' →
        s'.announced = s.announced ∧ s'.calls = s.calls := by
  have hs := Announces.exec h
  refine ⟨hs.chain, hs.first, hs.isPrefix, ?_, ?_⟩
  · intro hstopped htask
    have hkeys := hs.inPass (Or.inl hstopped)
    simpa [unannounced, htask, eq_comm] using hkeys
  · intro after s' hreturned hafter
    have hrun := exec_invariant
      (I := fun s' => s'.Registered ∧ s'.stopCall = .returned ∧
        s'.announced = s.announced ∧ s'.calls = s.calls)
      ⟨Registered.exec h, hreturned, rfl, rfl⟩ ?_ hafter
    · exact hrun.2.2
    · intro s₁ e s₂ ⟨hregistered, hreturned, hannounced, hcalls⟩ hstep
      have htakes := Takes.of_step hstep
      obtain ⟨hreturned', hannounced', hcalls'⟩ := hregistered.returned_takes hreturned htakes
      exact ⟨hregistered.takes htakes, hreturned', hannounced'.trans hannounced,
        hcalls'.trans hcalls⟩

def secondSong : SessionProperties := { firstSong with title := "Two" }

/-- From the nudge to the end of the first round. -/
def firstPass (order : List Nat) : List MediaEvent :=
  [.receives, .handles, .locks, .checksStopped, .finds true, .registersMedia true,
    .registersPlayback true, .commits, .starts true, .fetches, .reads, .compares, .checksChange,
    .looksUp order] ++ List.replicate (order.length + 1) .calls

/-- A pass for a change of the session at hand. -/
def nextPass : List MediaEvent :=
  [.delivers .sessionPropsChanged, .receives, .handles, .starts true, .fetches, .reads, .compares,
    .checksChange, .looksUp [], .calls]

/-- A new title is announced, a new position is not. -/
theorem semantic_changes_are_announced_once_playing : ∃ s : MediaEvents,
    exec (step .integral) (new (some 0) fun _ => firstSong)
      (firstPass [] ++ .sessionChanges 0 { firstSong with position := 10 } ::
        .sessionChanges 0 secondSong :: nextPass) = some s ∧
      s.announced = s.keys := by
  refine ⟨_, rfl, ?_⟩
  exact (semantic_changes_are_announced_once .integral (some 0) (fun _ => firstSong)
    (firstPass [] ++ .sessionChanges 0 { firstSong with position := 10 } ::
      .sessionChanges 0 secondSong :: nextPass) _ rfl).2.2.2.1 rfl rfl

variable (floats) in
/-- A listener that stays is called once for each key that is announced, but for the call that
the round at hand has yet to make. -/
theorem listener_is_called_once_for_each_change (current : Option Nat)
    (properties : Nat → SessionProperties) (id : Nat) (before es : List MediaEvent)
    {s s' : MediaEvents} (hbefore : exec (step floats) (new current properties) before = some s)
    (hid : id ∈ s.listeners) (hes : .unsubscribes id ∉ es)
    (hexec : exec (step floats) s es = some s') :
    s'.calls.count id + s'.outstanding id + s.announced.length =
      s.calls.count id + s.outstanding id + s'.announced.length ∧ s'.outstanding id ≤ 1 := by
  have hrun := exec_induction
    (P := fun es s' => .unsubscribes id ∉ es → s'.Registered ∧ s'.Listens ∧
      (id ∈ s'.listeners ∨ s'.task = .ended) ∧
      s'.heard id + s.announced.length = s.heard id + s'.announced.length)
    (fun _ => ⟨Registered.exec hbefore, Listens.exec hbefore, Or.inl hid, rfl⟩) ?_ hexec hes
  · obtain ⟨-, hlistens, -, hheard⟩ := hrun
    exact ⟨hheard, List.nodup_iff_count_le_one.mp hlistens.round id⟩
  · intro es s₁ e s₂ _ ih hstep hes
    have htakes := Takes.of_step hstep
    obtain ⟨hregistered, hlistens, hstays, hheard⟩ :=
      ih fun hmem => hes (List.mem_append_left _ hmem)
    have he : e ≠ .unsubscribes id := fun heq => hes (by simp [heq])
    refine ⟨hregistered.takes htakes, hlistens.takes htakes, ?_, ?_⟩
    · exact stays_takes hregistered hstays he htakes
    · have hstep := heard_takes hlistens hstays htakes
      omega

/-- A listener that was there before the first key hears of it. -/
theorem listener_is_called_once_for_each_change_first : ∃ s s' : MediaEvents,
    exec (step .integral) (new (some 0) fun _ => firstSong) [.asksToListen, .listens] = some s ∧
      exec (step .integral) s (firstPass [0]) = some s' ∧
      s'.calls.count 0 + s'.outstanding 0 + s.announced.length =
        s.calls.count 0 + s.outstanding 0 + s'.announced.length := by
  refine ⟨_, _, rfl, rfl, ?_⟩
  exact (listener_is_called_once_for_each_change .integral (some 0) (fun _ => firstSong) 0
    [.asksToListen, .listens] (firstPass [0]) rfl List.mem_cons_self (by decide) rfl).1

end MediaEvents

end YohakuCore
