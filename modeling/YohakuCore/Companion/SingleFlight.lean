import YohakuCore.Companion.LiveDesk
import YohakuCore.Companion.LoopMoves
import YohakuCore.Companion.SendOrder

/-! # One capture or publish at a time -/

namespace YohakuCore

open Framework

namespace Coordinator

theorem publishing_step {c c' : Coordinator} {e : CoordinatorEvent} (hinv : c.Inv)
    (hstep : c.step e = some c') {id gen call : Nat}
    (hloop : c.loops id = some ⟨gen, .publishing call⟩) :
    c'.loops id = some ⟨gen, .publishing call⟩ ∨ ∃ result, e = .loopPublished id result := by
  -- A step of a loop is a step of this one, the only one that is live.
  have hsame {j : Nat} {task : Spawned LoopPc} (hj : c.loops j = some task) : j = id ∧
      task = ⟨gen, .publishing call⟩ := by
    obtain rfl := hinv.flight.eq_of_some hj hloop
    exact ⟨rfl, Option.some.inj (hj.symm.trans hloop)⟩
  cases (step_hold hstep).loops with
  | kept hloops => exact Or.inl (hloops ▸ hloop)
  | spawned j gen' hidle =>
      rw [hinv.flight.running_of_some hloop] at hidle
      contradiction
  | advanced j pc pc' hj hadvances =>
      obtain ⟨rfl, htask⟩ := hsame hj
      obtain ⟨-, rfl⟩ := Spawned.mk.inj htask
      cases hadvances with
      | again _ response => exact Or.inr ⟨_, rfl⟩
  | exited j task hj hevent =>
      obtain ⟨rfl, rfl⟩ := hsame hj
      cases e with
      | loopPublished k result => exact Or.inr ⟨result, by rw [Option.some.inj hevent]⟩
      | loopHead k now =>
          obtain rfl := Option.some.inj hevent
          simp [step, loopHead, hloop] at hstep
      | loopThrottled k now =>
          obtain rfl := Option.some.inj hevent
          simp [step, loopThrottled, hloop] at hstep
      | loopCheck k snapshot =>
          obtain rfl := Option.some.inj hevent
          simp [step, loopCheck, hloop] at hstep
      | _ => contradiction

/-- A publish that a step calls is its only call, and awaited by the loop that called it. -/
theorem publish_awaited {c c' : Coordinator} {e : CoordinatorEvent} (hstep : c.step e = some c')
    {later : List PresenceCall} (hlater : c.Calls e later) {i gen : Nat}
    {client : PresenceClient} {snapshot : SanitizedPresenceSnapshot} {lease : Int}
    (hpublish : later[i]? = some (.replacePresence gen client snapshot lease)) :
    i = 0 ∧ ∃ id gen', c'.loops id = some ⟨gen', .publishing c.calls.length⟩ := by
  have hmem := List.mem_of_getElem? hpublish
  cases hlater with
  | none => exact absurd hmem List.not_mem_nil
  | sleep now client held effective => simp at hmem
  | shutdown id now reason ended client pending joining => simp at hmem
  | publish id snapshot client includeMedia capturing =>
      have hlt := (List.getElem?_eq_some_iff.mp hpublish).1
      rw [List.length_singleton] at hlt
      refine ⟨by omega, ?_⟩
      simp only [step, loopCheck, capturing] at hstep
      rw [if_neg (not_not.mpr rfl)] at hstep
      obtain rfl := Option.some.inj hstep
      exact ⟨id, c.inner.generation, Function.update_self _ _ _⟩

end Coordinator

namespace LiveDesk

def Finished (s : LiveDesk) (call : Nat) : Prop :=
  ∃ m, s.writer.mutations call = some m ∧ m.stage.isFinished = true

theorem Finished.mutation {s s' : LiveDesk} {e : LiveDeskEvent} {call : Nat} (h : s.Finished call)
    (hinv : s.Inv) (hstep : s.step e = some s') :
    s'.writer.mutations call = s.writer.mutations call := by
  obtain ⟨m, hm, hfinished⟩ := h
  cases e with
  | coordinator e => rw [(step_coordinator hstep).2]
  | writer e =>
      cases Writer.step_progress hinv.writer (step_writer hstep).1 with
      | idle _ hmutations _ => rw [hmutations]
      | arrive id call' _ hfresh hmutations _ =>
          have hne : call ≠ id := by
            rintro rfl
            rw [hfresh] at hm
            contradiction
          rw [hmutations, Function.update_of_ne hne]
      | advance _ id call' n n' hcall hn hhead _ _ hmutations _ =>
          have hne : call ≠ id := by
            rintro rfl
            -- The head of a send slot is not finished.
            have hmem := List.mem_of_head? hhead
            rw [hinv.writer.send.mem, Writer.keyOf_eq hcall hm, PresenceCall.sendKey,
              hfinished] at hmem
            contradiction
          rw [hmutations, Function.update_of_ne hne]

theorem Finished.step {s s' : LiveDesk} {e : LiveDeskEvent} {call : Nat} (h : s.Finished call)
    (hinv : s.Inv) (hstep : s.step e = some s') : s'.Finished call := by
  rw [Finished, h.mutation hinv hstep]
  exact h

/-- Every publish has finished, or its loop awaits it. -/
def PublishesAwaited (s : LiveDesk) : Prop :=
  ∀ k gen client snapshot lease,
    s.coordinator.calls[k]? = some (.replacePresence gen client snapshot lease) →
    s.Finished k ∨ ∃ id gen', s.coordinator.loops id = some ⟨gen', .publishing k⟩

theorem PublishesAwaited.step {s s' : LiveDesk} {e : LiveDeskEvent} (h : s.PublishesAwaited)
    (hinv : s.Inv) (hstep : s.step e = some s') : s'.PublishesAwaited := by
  intro k gen client snapshot lease hk
  have hkeep (hold : s.coordinator.calls[k]? =
      some (.replacePresence gen client snapshot lease))
      (hloops : ∀ id gen', s.coordinator.loops id = some ⟨gen', .publishing k⟩ →
        s'.Finished k ∨ s'.coordinator.loops id = some ⟨gen', .publishing k⟩) :
      s'.Finished k ∨ ∃ id gen', s'.coordinator.loops id = some ⟨gen', .publishing k⟩ := by
    rcases h k gen client snapshot lease hold with hfinished | ⟨id, gen', hloop⟩
    · exact Or.inl (hfinished.step hinv hstep)
    · rcases hloops id gen' hloop with hfinished | hloop
      · exact Or.inl hfinished
      · exact Or.inr ⟨id, gen', hloop⟩
  cases e with
  | writer e =>
      have hcoordinator := (step_writer hstep).2
      rw [hcoordinator] at hk
      refine hkeep hk ?_
      intro id gen' hloop
      rw [hcoordinator]
      exact Or.inr hloop
  | coordinator e =>
      have hanswers : s.answers e = true := by
        rw [LiveDesk.step] at hstep
        by_contra hnot
        rw [if_neg hnot] at hstep
        contradiction
      obtain ⟨hcoordinator, hwriter⟩ := step_coordinator hstep
      obtain ⟨later, hlater, hcalls⟩ := Coordinator.step_calls hcoordinator
      rcases Nat.lt_or_ge k s.coordinator.calls.length with hlt | hge
      · rw [hcalls, List.getElem?_append_left hlt] at hk
        refine hkeep hk ?_
        intro id gen' hloop
        rcases Coordinator.publishing_step hinv.coordinator hcoordinator hloop with
            hloop' | ⟨result, rfl⟩
        · exact Or.inr hloop'
        · -- The loop goes on only with the result of its call.
          rw [answers, hloop] at hanswers
          obtain ⟨m, hm, hfinished⟩ := (Option.any_eq_true _ _).mp hanswers
          have hstage : m.stage = .finished result := of_decide_eq_true hfinished
          refine Or.inl ⟨m, hwriter ▸ hm, ?_⟩
          rw [hstage]
          rfl
      · rw [hcalls, List.getElem?_append_right hge] at hk
        obtain ⟨hfirst, hloop⟩ := Coordinator.publish_awaited hcoordinator hlater hk
        have hlast : k = s.coordinator.calls.length := by omega
        exact Or.inr (hlast ▸ hloop)

theorem publishesAwaited_run {backing : String → Option Int} {es : List LiveDeskEvent}
    {s : LiveDesk} (h : exec LiveDesk.step (new backing) es = some s) :
    s.Inv ∧ s.PublishesAwaited := by
  have hstart : (new backing).Inv ∧ (new backing).PublishesAwaited := by
    refine ⟨inv_new backing, ?_⟩
    intro k gen client snapshot lease hk
    exact nomatch hk
  exact exec_invariant (I := fun s => s.Inv ∧ s.PublishesAwaited) hstart
    (fun _ _ _ hinv hstep => ⟨hinv.1.step hstep, hinv.2.step hinv.1 hstep⟩) h

/-- What a refresh loop may have in flight: the capture of a loop, or a publish. -/
inductive Work where
  | capture (loop : Nat)
  | publish (call : Nat)

def InFlight (s : LiveDesk) : Work → Prop
  | .capture id => ∃ gen client includeMedia,
      s.coordinator.loops id = some ⟨gen, .capturing client includeMedia⟩
  | .publish call => (∃ gen client snapshot lease,
      s.coordinator.calls[call]? = some (.replacePresence gen client snapshot lease)) ∧
      ¬ s.Finished call

theorem PublishesAwaited.loop_of_inFlight {s : LiveDesk} (h : s.PublishesAwaited) {work : Work}
    (hwork : s.InFlight work) :
    ∃ id gen pc, s.coordinator.loops id = some ⟨gen, pc⟩ ∧
      match work with
      | .capture loop => id = loop ∧ ∃ client includeMedia, pc = .capturing client includeMedia
      | .publish call => pc = .publishing call := by
  cases work with
  | capture loop =>
      obtain ⟨gen, client, includeMedia, hloop⟩ := hwork
      exact ⟨loop, gen, _, hloop, rfl, client, includeMedia, rfl⟩
  | publish call =>
      obtain ⟨⟨gen, client, snapshot, lease, hcall⟩, hunfinished⟩ := hwork
      rcases h call gen client snapshot lease hcall with hfinished | ⟨id, gen', hloop⟩
      · exact absurd hfinished hunfinished
      · exact ⟨id, gen', _, hloop, rfl⟩

/-- In every reachable state the flag counts the live refresh loops of all generations, and at most
one capture or publish of them is in flight. -/
theorem publishing_single_flight {backing : String → Option Int} {es : List LiveDeskEvent}
    {s : LiveDesk} (hrun : exec LiveDesk.step (new backing) es = some s) :
    {id | (s.coordinator.loops id).isSome}.ncard =
        (if s.coordinator.inner.refreshLoopRunning then 1 else 0) ∧
      ∀ work work', s.InFlight work → s.InFlight work' → work = work' := by
  obtain ⟨hinv, hawaited⟩ := publishesAwaited_run hrun
  refine ⟨hinv.coordinator.flight.ncard_live, ?_⟩
  intro work work' hwork hwork'
  obtain ⟨id, gen, pc, hloop, hat⟩ := hawaited.loop_of_inFlight hwork
  obtain ⟨id', gen', pc', hloop', hat'⟩ := hawaited.loop_of_inFlight hwork'
  obtain rfl := hinv.coordinator.flight.eq_of_some hloop hloop'
  rw [hloop] at hloop'
  obtain ⟨-, rfl⟩ := Spawned.mk.inj (Option.some.inj hloop')
  cases work with
  | capture loop =>
      obtain ⟨rfl, client, includeMedia, rfl⟩ := hat
      cases work' with
      | capture loop' => rw [hat'.1]
      | publish call' => exact nomatch hat'
  | publish call =>
      obtain rfl := hat
      cases work' with
      | capture loop' =>
          obtain ⟨-, client, includeMedia, hpc⟩ := hat'
          exact nomatch hpc
      | publish call' => rw [LoopPc.publishing.inj hat']

/-- A lock while the first loop captures: the loop of the ended generation stays the only one when
the next generation is active. -/
def lockDuringCapture : List LiveDeskEvent :=
  [LiveDeskEvent.coordinator .start] ++ (Coordinator.configuredBy 0).map .coordinator ++
    [LiveDeskEvent.coordinator (.loopHead 2 0), .coordinator (.loopThrottled 2 2000),
      .coordinator (.handleSleepOrLock 2001), .coordinator .handleWakeOrUnlock,
      .coordinator (.joinDone 3), .coordinator (.wakeResume 4)] ++
    (Coordinator.configuredBy 5).map .coordinator

theorem publishing_single_flight_lockDuringCapture :
    ∃ s, exec LiveDesk.step (new (fun _ => none)) lockDuringCapture = some s ∧
      {id | (s.coordinator.loops id).isSome}.ncard = 1 ∧
      ∀ work work', s.InFlight work → s.InFlight work' → work = work' := by
  obtain ⟨s, hs, hrunning⟩ : ∃ s,
      exec LiveDesk.step (new (fun _ => none)) lockDuringCapture = some s ∧
      s.coordinator.inner.refreshLoopRunning = true :=
    Option.map_eq_some_iff.mp (by decide +kernel)
  obtain ⟨hcount, hunique⟩ := publishing_single_flight hs
  rw [hrunning, if_pos rfl] at hcount
  exact ⟨s, hs, hcount, hunique⟩

end LiveDesk

end YohakuCore
