import YohakuCore.Capture.SystemEvents

/-!
# Who hears the transitions

What a listener hears over a run is held against what was dispatched, and for the two listeners of
the application against what fired.
-/

namespace YohakuCore

open Framework

namespace SystemEvents

section Hearing

variable (watched : EventKind → Option Nat)

/-- The calls of the watched listeners, at most one for each kind. -/
def heard (s : SystemEvents) : List EventKind :=
  (s.calls.filter fun call => watched call.1 = some call.2).map Prod.fst

/-- The call that the round still owes to a watched listener. -/
def owed (s : SystemEvents) : List EventKind :=
  match s.dispatcher with
  | .calling kind remaining => if (watched kind).any (· ∈ remaining) then [kind] else []
  | _ => []

def ListensFor (s : SystemEvents) : Prop :=
  ∀ kind id, watched kind = some id → id ∈ s.listenerSet kind

/-- A run takes `s` to `s'` and dispatches `new`, of which the watched listeners hear theirs. -/
structure Hears (s s' : SystemEvents) (new : List EventKind) : Prop where
  dispatched : s'.dispatched = s.dispatched ++ new
  heard : s'.heard watched ++ s'.owed watched =
    s.heard watched ++ s.owed watched ++ new.filter fun kind => (watched kind).isSome

variable {watched}

theorem Hears.refl (s : SystemEvents) : Hears watched s s [] :=
  ⟨(List.append_nil _).symm, by simp⟩

theorem Hears.trans {s s₁ s₂ : SystemEvents} {new₁ new₂ : List EventKind}
    (h₁ : Hears watched s s₁ new₁) (h₂ : Hears watched s₁ s₂ new₂) :
    Hears watched s s₂ (new₁ ++ new₂) := by
  constructor
  · rw [h₂.dispatched, h₁.dispatched, List.append_assoc]
  · rw [h₂.heard, h₁.heard, List.filter_append, List.append_assoc (_ ++ _)]

theorem ListensFor.takes {s s' : SystemEvents} {e : SystemEvent} (h : s.ListensFor watched)
    (he : ∀ kind id, watched kind = some id → e ≠ .unsubscribes kind id) (htakes : Takes s e s') :
    s'.ListensFor watched := by
  intro kind id hid
  have hmem := h kind id hid
  cases htakes with
  | registers kind' =>
      rw [listenerSet_registerListener]
      split
      · rename_i heq
        exact List.mem_append_left _ (heq ▸ hmem)
      · exact hmem
  | unsubscribes kind' id' =>
      rw [listenerSet_unsubscribe]
      split
      · rename_i heq
        subst heq
        have hne : id ≠ id' := fun heq => he kind id hid (by rw [heq])
        simpa [hne] using hmem
      · exact hmem
  | _ => exact hmem

theorem hears_calls {s : SystemEvents} {kind : EventKind} {id : Nat} {rest : List Nat}
    (hdispatcher : s.dispatcher = .calling kind (id :: rest)) (hnodup : (id :: rest).Nodup) :
    Hears watched s { s with
      dispatcher := .calling kind rest
      calls := s.calls ++ [(kind, id)] } [] := by
  refine ⟨(List.append_nil _).symm, ?_⟩
  have hid : id ∉ rest := (List.nodup_cons.mp hnodup).1
  by_cases hwatched : watched kind = some id
  · simp [heard, owed, hdispatcher, hwatched, hid]
  · cases hw : watched kind with
    | none => simp [heard, owed, hdispatcher, hw]
    | some id' =>
        have hne : id' ≠ id := by
          intro heq
          exact hwatched (by rw [hw, heq])
        simp [heard, owed, hdispatcher, hw, hne]

theorem ListensFor.hears {s s' : SystemEvents} {e : SystemEvent} (h : s.ListensFor watched)
    (hplaced : s.Placed) (hlistens : s.Listens) (htakes : Takes s e s') :
    ∃ new, Hears watched s s' new := by
  cases htakes with
  | starts hlock hrunning =>
      have hgone := hplaced.joined hlock hrunning
      have howed : s.owed watched = [] := by
        cases hd : s.dispatcher <;> simp_all [owed, Dispatcher.listens]
      refine ⟨[], (List.append_nil _).symm, ?_⟩
      rw [howed]
      simp [owed, heard]
  | receives hdispatcher hreceive | exits hdispatcher hqueue htx hwindow =>
      refine ⟨[], (List.append_nil _).symm, ?_⟩
      simp [owed, heard, hdispatcher]
  | endsRound hdispatcher =>
      refine ⟨[], (List.append_nil _).symm, ?_⟩
      simp [owed, heard, hdispatcher]
  | looksUp hdispatcher =>
      rename_i kind
      refine ⟨[kind], rfl, ?_⟩
      cases hw : watched kind with
      | none => simp [owed, heard, hdispatcher, hw]
      | some id => simp [owed, heard, hdispatcher, hw, h kind id hw]
  | calls hdispatcher =>
      have hround := hlistens.round
      rw [hdispatcher] at hround
      exact ⟨[], hears_calls hdispatcher hround⟩
  | registers kind | unsubscribes kind id =>
      refine ⟨[], ?_, ?_⟩ <;> cases kind <;> simp [registerListener, unsubscribe, setListenerSet,
        heard, owed]
  | _ => exact ⟨[], (List.append_nil _).symm, by simp [heard, owed]⟩

/-- The watched listeners were registered, and are not any more. -/
def ForgetsAbout (watched : EventKind → Option Nat) (s : SystemEvents) : Prop :=
  ∀ kind id, watched kind = some id → id < s.nextListenerId ∧ id ∉ s.listenerSet kind

theorem ForgetsAbout.takes {s s' : SystemEvents} {e : SystemEvent} (h : ForgetsAbout watched s)
    (htakes : Takes s e s') : ForgetsAbout watched s' := by
  intro kind id hid
  obtain ⟨hlt, hmem⟩ := h kind id hid
  cases htakes with
  | registers kind' =>
      refine ⟨?_, ?_⟩
      · have hnext : (s.registerListener kind').nextListenerId = s.nextListenerId + 1 := by
          cases kind' <;> rfl
        omega
      · rw [listenerSet_registerListener]
        split
        · rename_i heq
          subst heq
          have hne : id ≠ s.nextListenerId := Nat.ne_of_lt hlt
          simp [hmem, hne]
        · exact hmem
  | unsubscribes kind' id' =>
      refine ⟨?_, ?_⟩
      · have hnext : (s.unsubscribe kind' id').nextListenerId = s.nextListenerId := by
          cases kind' <;> rfl
        omega
      · rw [listenerSet_unsubscribe]
        split
        · rename_i heq
          subst heq
          simp [hmem]
        · exact hmem
  | _ => exact ⟨hlt, hmem⟩

theorem ForgetsAbout.heard_takes {s s' : SystemEvents} {e : SystemEvent}
    (h : ForgetsAbout watched s) (hplaced : s.Placed) (hlistens : s.Listens)
    (htakes : Takes s e s') :
    s'.heard watched ++ s'.owed watched = s.heard watched ++ s.owed watched := by
  cases htakes with
  | starts hlock hrunning =>
      have hgone := hplaced.joined hlock hrunning
      have howed : s.owed watched = [] := by
        cases hd : s.dispatcher <;> simp_all [owed, Dispatcher.listens]
      rw [howed]
      simp [owed, heard]
  | receives hdispatcher hreceive | exits hdispatcher hqueue htx hwindow | endsRound hdispatcher =>
      simp [owed, heard, hdispatcher]
  | looksUp hdispatcher =>
      rename_i kind
      cases hw : watched kind with
      | none => simp [owed, heard, hdispatcher, hw]
      | some id => simp [owed, heard, hdispatcher, hw, (h kind id hw).2]
  | calls hdispatcher =>
      have hround := hlistens.round
      rw [hdispatcher] at hround
      have hhears : Hears watched s _ [] := hears_calls hdispatcher hround
      simpa using hhears.heard
  | registers kind | unsubscribes kind id =>
      cases kind <;> simp [registerListener, unsubscribe, setListenerSet, heard, owed]
  | _ => simp [heard, owed]

end Hearing

/-- The steps of a run neither lose nor repeat a call of the watched listeners. -/
theorem Sound.hears {watched : EventKind → Option Nat} {s s' : SystemEvents}
    {es : List SystemEvent} (h : s.Sound) (hlistens : s.ListensFor watched)
    (hes : ∀ kind id, watched kind = some id → .unsubscribes kind id ∉ es)
    (hexec : Framework.exec step s es = some s') : ∃ new, Hears watched s s' new := by
  have hrun : s'.Sound ∧ s'.ListensFor watched ∧ ∃ new, Hears watched s s' new := by
    revert hes
    refine exec_induction
      (P := fun es s' => (∀ kind id, watched kind = some id → .unsubscribes kind id ∉ es) →
        s'.Sound ∧ s'.ListensFor watched ∧ ∃ new, Hears watched s s' new)
      (fun _ => ⟨h, hlistens, [], Hears.refl s⟩) ?_ hexec
    intro es s₁ e s₂ _ ih hstep hes
    have htakes := Takes.of_step hstep
    obtain ⟨hsound, hlistens, new, hnew⟩ :=
      ih fun kind id hid hmem => hes kind id hid (List.mem_append_left _ hmem)
    have he (kind : EventKind) (id : Nat) (hid : watched kind = some id) :
        e ≠ .unsubscribes kind id := by
      intro heq
      exact hes kind id hid (by simp [heq])
    obtain ⟨new', hnew'⟩ := hlistens.hears hsound.placed hsound.listens htakes
    exact ⟨hsound.takes htakes, hlistens.takes he htakes, new ++ new', hnew.trans hnew'⟩
  exact hrun.2.2

theorem Sound.heard_forgotten {watched : EventKind → Option Nat} {s s' : SystemEvents}
    {es : List SystemEvent} (h : s.Sound) (hforgets : ForgetsAbout watched s)
    (hexec : Framework.exec step s es = some s') :
    s'.heard watched ++ s'.owed watched = s.heard watched ++ s.owed watched := by
  have hrun := exec_invariant
    (I := fun s' => s'.Sound ∧ ForgetsAbout watched s' ∧
      s'.heard watched ++ s'.owed watched = s.heard watched ++ s.owed watched)
    ⟨h, hforgets, rfl⟩ ?_ hexec
  · exact hrun.2.2
  · intro s₁ e s₂ ⟨hsound, hforgets, hheard⟩ hstep
    have htakes := Takes.of_step hstep
    refine ⟨hsound.takes htakes, hforgets.takes htakes, ?_⟩
    rw [hforgets.heard_takes hsound.placed hsound.listens htakes, hheard]

/-- Watches one listener alone. -/
def only (kind : EventKind) (id : Nat) : EventKind → Option Nat :=
  fun kind' => if kind' = kind then some id else none

/-- A call of the listener that the round has yet to make. -/
def outstanding (s : SystemEvents) (kind : EventKind) (id : Nat) : Nat :=
  (s.owed (only kind id)).length

theorem length_heard_only (s : SystemEvents) (kind : EventKind) (id : Nat) :
    (s.heard (only kind id)).length = s.calls.count (kind, id) := by
  unfold heard
  rw [List.length_map, List.count_eq_countP, List.countP_eq_length_filter]
  congr 2
  funext ⟨kind', id'⟩
  by_cases hkind : kind' = kind
  · subst hkind
    rw [Bool.eq_iff_iff]
    simp only [only, if_true, decide_eq_true_eq, Option.some.injEq, beq_iff_eq, Prod.mk.injEq,
      true_and]
    exact eq_comm
  · simp [only, hkind]

theorem length_filter_only (kinds : List EventKind) (kind : EventKind) (id : Nat) :
    (kinds.filter fun kind' => (only kind id kind').isSome).length = kinds.count kind := by
  rw [List.count_eq_countP, List.countP_eq_length_filter]
  congr 2
  funext kind'
  by_cases hkind : kind' = kind <;> simp [only, hkind]

theorem outstanding_le_one (s : SystemEvents) (kind : EventKind) (id : Nat) :
    s.outstanding kind id ≤ 1 := by
  unfold outstanding owed
  split
  · split <;> simp
  · simp

/-- From its registration on, a listener is called exactly once for each transition of its kind
that is dispatched, but for the call that the round at hand has yet to make; and once its
unsubscribe has returned, it is not called again, but for that call. -/
theorem listener_is_called_once_for_each_transition (kind : EventKind) (id : Nat)
    (before es after : List SystemEvent) {s s' s'' : SystemEvents}
    (hbefore : exec step {} before = some s) (hid : id ∈ s.listenerSet kind)
    (hes : .unsubscribes kind id ∉ es) (hexec : exec step s es = some s')
    (hafter : exec step s' (.unsubscribes kind id :: after) = some s'') :
    ∃ new, s'.dispatched = s.dispatched ++ new ∧
      s'.calls.count (kind, id) + s'.outstanding kind id =
        s.calls.count (kind, id) + s.outstanding kind id + new.count kind ∧
      s''.calls.count (kind, id) + s''.outstanding kind id =
        s'.calls.count (kind, id) + s'.outstanding kind id ∧
      s'.outstanding kind id ≤ 1 := by
  have hsound := sound_new.exec hbefore
  have honly (kind' : EventKind) (id' : Nat) (h : only kind id kind' = some id') :
      kind' = kind ∧ id' = id := by
    by_cases hkind : kind' = kind
    · exact ⟨hkind, by simpa [only, hkind, eq_comm] using h⟩
    · simp [only, hkind] at h
  have hlistens : s.ListensFor (only kind id) := by
    intro kind' id' h
    obtain ⟨rfl, rfl⟩ := honly kind' id' h
    exact hid
  have hkept : ∀ kind' id', only kind id kind' = some id' → .unsubscribes kind' id' ∉ es := by
    intro kind' id' h
    obtain ⟨rfl, rfl⟩ := honly kind' id' h
    exact hes
  obtain ⟨new, hnew⟩ := hsound.hears hlistens hkept hexec
  have hsound' := hsound.exec hexec
  have hforgets : ForgetsAbout (only kind id) (s'.unsubscribe kind id) := by
    intro kind' id' h
    obtain ⟨rfl, rfl⟩ := honly kind' id' h
    have hlt : id' < s'.nextListenerId := by
      have hmono : s.nextListenerId ≤ s'.nextListenerId := by
        refine exec_invariant (I := fun s' => s.nextListenerId ≤ s'.nextListenerId)
          (Nat.le_refl _) ?_ hexec
        intro s₁ e s₂ hle hstep
        cases Takes.of_step hstep with
        | registers kind => cases kind <;> exact Nat.le_succ_of_le hle
        | unsubscribes kind id => cases kind <;> exact hle
        | _ => exact hle
      exact Nat.lt_of_lt_of_le (hsound.listens.below kind' id' hid) hmono
    refine ⟨?_, ?_⟩
    · cases kind' <;> exact hlt
    · simp [listenerSet_unsubscribe]
  have hstep : s'.step (.unsubscribes kind id) = some (s'.unsubscribe kind id) := rfl
  rw [exec_cons, hstep] at hafter
  have hsilent := (hsound'.takes (Takes.of_step hstep)).heard_forgotten hforgets hafter
  have hunsubscribe : (s'.unsubscribe kind id).heard (only kind id) ++
      (s'.unsubscribe kind id).owed (only kind id) =
        s'.heard (only kind id) ++ s'.owed (only kind id) := by
    cases kind <;> rfl
  refine ⟨new, hnew.dispatched, ?_, ?_, s'.outstanding_le_one kind id⟩
  · have hlength := congrArg List.length hnew.heard
    simpa [length_heard_only, length_filter_only, outstanding, Nat.add_assoc] using hlength
  · have hlength := congrArg List.length (hsilent.trans hunsubscribe)
    simpa [length_heard_only, outstanding] using hlength

/-- One registered listener hears one lock and is unsubscribed. -/
theorem listener_is_called_once_for_each_transition_locked : ∃ s s' s'',
    exec step {} [.registers .lockOrSleep, .start, .windowCreated true, .startReturns] = some s ∧
      exec step s [.message (.wtsSessionChange 7), .takesSender, .sends, .receives, .looksUp,
        .calls] = some s' ∧
      exec step s' [.unsubscribes .lockOrSleep 1, .calls] = some s'' ∧
      s'.calls.count (.lockOrSleep, 1) + s'.outstanding .lockOrSleep 1 = 1 ∧
      s''.calls.count (.lockOrSleep, 1) + s''.outstanding .lockOrSleep 1 = 1 ∧
      s'.outstanding .lockOrSleep 1 ≤ 1 := by
  obtain ⟨s, s', s'', hs, hs', hs'', hid, hquiet, hnone, hlocked⟩ : ∃ s s' s'',
      exec step {} [.registers .lockOrSleep, .start, .windowCreated true, .startReturns] = some s ∧
        exec step s [.message (.wtsSessionChange 7), .takesSender, .sends, .receives, .looksUp,
          .calls] = some s' ∧
        exec step s' [.unsubscribes .lockOrSleep 1, .calls] = some s'' ∧
        1 ∈ s.listenerSet .lockOrSleep ∧
        s.calls.count (.lockOrSleep, 1) + s.outstanding .lockOrSleep 1 = 0 ∧
        s.dispatched = [] ∧ s'.dispatched = [.lockOrSleep] :=
    ⟨_, _, _, rfl, rfl, rfl, by decide, by decide, rfl, rfl⟩
  obtain ⟨new, hnew, hcalls, hlater, hle⟩ := listener_is_called_once_for_each_transition
    .lockOrSleep 1 [.registers .lockOrSleep, .start, .windowCreated true, .startReturns]
    [.message (.wtsSessionChange 7), .takesSender, .sends, .receives, .looksUp, .calls] [.calls]
    hs hid (by decide) hs' hs''
  rw [hnone, hlocked, List.nil_append] at hnew
  subst hnew
  rw [hquiet] at hcalls
  exact ⟨s, s', s'', hs, hs', hs'', hcalls, hlater.trans hcalls, hle⟩

end SystemEvents

end YohakuCore
