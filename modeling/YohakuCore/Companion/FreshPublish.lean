import YohakuCore.Companion.LoopMoves
import YohakuCore.Companion.RefreshTrigger
import YohakuCore.Companion.Timers

/-!
# What a trigger leads to

A trigger that comes during an iteration of the refresh loop is served by the next one, whose
capture begins after it.
-/

namespace YohakuCore

open Framework

namespace Coordinator

/-- Active in the generation, with a client to publish through. -/
structure SharesIn (gen : Nat) (c : Coordinator) : Prop where
  active : c.inner.state = .active
  generation : c.inner.generation = gen
  client : c.inner.client ≠ none

instance (gen : Nat) : DecidablePred (SharesIn gen) := fun c =>
  decidable_of_iff (c.inner.state = .active ∧ c.inner.generation = gen ∧ c.inner.client.isSome)
    ⟨fun h => ⟨h.1, h.2.1, Option.isSome_iff_ne_none.mp h.2.2⟩,
      fun h => ⟨h.active, h.generation, Option.isSome_iff_ne_none.mpr h.client⟩⟩

/-- The segments of one loop, in order. -/
def ofLoop (id : Nat) (es : List CoordinatorEvent) : List CoordinatorEvent :=
  es.filter fun e => e.loop = some id

/-- An iteration that the events hold whole: a capture, the publish of its snapshot as a call of
number `first` or later, and the answer. -/
def PublishedIn (es : List CoordinatorEvent) (gen first : Nat) (c : Coordinator) : Prop :=
  ∃ id now snapshot response call client lease,
    [.loopThrottled id now, .loopCheck id snapshot, .loopPublished id (.ok response)] <:+:
      ofLoop id es ∧
    first ≤ call ∧ c.calls[call]? = some (.replacePresence gen client snapshot lease)

/-- Where the refresh stands that was asked for before the events. -/
inductive Refreshing (es : List CoordinatorEvent) (gen first : Nat) (c : Coordinator) : Prop
  | asked (requested : c.inner.refreshRequested = true) (loop : c.CurrentLoop)
  | throttled (id : Nat) (waitMs : Int) (loop : c.loops id = some ⟨gen, .throttled waitMs⟩)
  | capturing (id : Nat) (now : Int) (client : PresenceClient) (includeMedia : Bool)
      (loop : c.loops id = some ⟨gen, .capturing client includeMedia⟩)
      (began : [.loopThrottled id now] <:+ ofLoop id es)
  | publishing (id : Nat) (now : Int) (snapshot : SanitizedPresenceSnapshot) (call : Nat)
      (client : PresenceClient) (lease : Int) (loop : c.loops id = some ⟨gen, .publishing call⟩)
      (began : [.loopThrottled id now, .loopCheck id snapshot] <:+ ofLoop id es)
      (later : first ≤ call)
      (called : c.calls[call]? = some (.replacePresence gen client snapshot lease))
  | published (done : PublishedIn es gen first c)

theorem ofLoop_concat_self {id : Nat} {e : CoordinatorEvent} (h : e.loop = some id)
    (es : List CoordinatorEvent) : ofLoop id (es ++ [e]) = ofLoop id es ++ [e] := by
  simp [ofLoop, h]

theorem ofLoop_concat_of_ne {id : Nat} {e : CoordinatorEvent} (h : e.loop ≠ some id)
    (es : List CoordinatorEvent) : ofLoop id (es ++ [e]) = ofLoop id es := by
  simp [ofLoop, h]

theorem loop_of_other_step {c c' : Coordinator} {e : CoordinatorEvent} {id : Nat}
    {task : Spawned LoopPc} (hinv : c.Inv) (hstep : c.step e = some c')
    (hloop : c.loops id = some task) (hown : e.loop ≠ some id) : c'.loops id = some task := by
  cases (step_hold hstep).loops with
  | kept hloops => rw [hloops, hloop]
  | spawned id' gen' hidle hloops =>
      have hrunning := hinv.flight.running_of_some hloop
      rw [hidle] at hrunning
      contradiction
  | advanced id' pc₁ pc₂ hother hadvances hloops =>
      have hne : id ≠ id' := by
        rintro rfl
        cases hadvances <;> exact hown rfl
      rw [hloops, Function.update_of_ne hne, hloop]
  | exited id' task' hother hevent hloops =>
      have hne : id ≠ id' := by
        rintro rfl
        exact hown hevent
      rw [hloops, Function.update_of_ne hne, hloop]

/-- While the coordinator goes on sharing, a loop of the generation goes on by its own segments, or
exits from its head when nothing is requested. -/
theorem loop_of_own_step {c c' : Coordinator} {e : CoordinatorEvent} {gen id : Nat} {pc : LoopPc}
    (hinv : c.Inv) (hshares : c.SharesIn gen) (hshares' : c'.SharesIn gen)
    (hstep : c.step e = some c') (hloop : c.loops id = some ⟨gen, pc⟩) (hown : e.loop = some id) :
    (∃ pc', c.LoopAdvances id e pc pc' ∧ c'.loops id = some ⟨gen, pc'⟩) ∨
      (pc = .head ∧ c.inner.refreshRequested = false) := by
  obtain rfl := hshares.generation
  cases e with
  | loopHead id' now =>
      obtain rfl := Option.some.inj hown
      simp only [Coordinator.step, loopHead] at hstep
      split at hstep
      · rename_i gen hhead
        obtain ⟨rfl, rfl⟩ := Spawned.mk.inj (Option.some.inj (hhead.symm.trans hloop))
        split at hstep
        · rename_i hexit
          exact Or.inr ⟨rfl, hexit.resolve_left (not_not.mpr rfl)⟩
        · obtain rfl := Option.some.inj hstep
          exact Or.inl ⟨_, .throttled now _, Function.update_self _ _ _⟩
      · contradiction
  | loopThrottled id' now =>
      obtain rfl := Option.some.inj hown
      simp only [Coordinator.step, loopThrottled] at hstep
      split at hstep
      · rename_i gen waitMs hthrottled
        obtain ⟨rfl, rfl⟩ := Spawned.mk.inj (Option.some.inj (hthrottled.symm.trans hloop))
        rw [if_neg (not_not.mpr rfl)] at hstep
        split at hstep
        · rename_i hnone
          exact absurd hnone hshares.client
        · rename_i client hclient
          obtain rfl := Option.some.inj hstep
          exact Or.inl ⟨_, .capturing now waitMs client hclient, Function.update_self _ _ _⟩
      · contradiction
  | loopCheck id' snapshot =>
      obtain rfl := Option.some.inj hown
      simp only [Coordinator.step, loopCheck] at hstep
      split at hstep
      · rename_i gen client includeMedia hcapturing
        obtain ⟨rfl, rfl⟩ := Spawned.mk.inj (Option.some.inj (hcapturing.symm.trans hloop))
        rw [if_neg (not_not.mpr rfl)] at hstep
        obtain rfl := Option.some.inj hstep
        exact Or.inl ⟨_, .publishing snapshot client includeMedia, Function.update_self _ _ _⟩
      · contradiction
  | loopPublished id' result =>
      obtain rfl := Option.some.inj hown
      simp only [Coordinator.step, loopPublished] at hstep
      split at hstep
      · rename_i gen call hpublishing
        obtain ⟨rfl, rfl⟩ := Spawned.mk.inj (Option.some.inj (hpublishing.symm.trans hloop))
        rw [if_neg (not_not.mpr rfl)] at hstep
        split at hstep
        · rename_i response
          obtain rfl := Option.some.inj hstep
          exact Or.inl ⟨_, .again call response, Function.update_self _ _ _⟩
        · split at hstep
          · -- A renegotiation begins another generation, or finds the coordinator stopping.
            obtain rfl := Option.some.inj hstep
            have hgeneration := hshares'.generation
            rw [startLocked] at hgeneration
            split at hgeneration
            · rename_i hstopping
              have hdisabled := hinv.stopping hstopping
              rw [hshares.active] at hdisabled
              contradiction
            · exact absurd hgeneration (Nat.succ_ne_self _)
          · obtain rfl := Option.some.inj hstep
            have hactive := hshares'.active
            contradiction
      · contradiction
  | _ => contradiction

theorem loop_of_step {c c' : Coordinator} {e : CoordinatorEvent} {gen id : Nat} {pc : LoopPc}
    (hinv : c.Inv) (hshares : c.SharesIn gen) (hshares' : c'.SharesIn gen)
    (hstep : c.step e = some c') (hloop : c.loops id = some ⟨gen, pc⟩) :
    (c'.loops id = some ⟨gen, pc⟩ ∧ e.loop ≠ some id) ∨
      (∃ pc', c.LoopAdvances id e pc pc' ∧ c'.loops id = some ⟨gen, pc'⟩ ∧ e.loop = some id) ∨
      (pc = .head ∧ c.inner.refreshRequested = false) := by
  by_cases hown : e.loop = some id
  · rcases loop_of_own_step hinv hshares hshares' hstep hloop hown with
      ⟨pc', hadvances, hnext⟩ | hexits
    · exact Or.inr (Or.inl ⟨pc', hadvances, hnext, hown⟩)
    · exact Or.inr (Or.inr hexits)
  · exact Or.inl ⟨loop_of_other_step hinv hstep hloop hown, hown⟩

/-- No loop of another generation is left. -/
def LoopsOf (gen : Nat) (c : Coordinator) : Prop :=
  ∀ id task, c.loops id = some task → task.generation = gen

theorem shutdownJoined_refresh {c c' : Coordinator} {id : Nat} {now : Int}
    (h : c.shutdownJoined id now = some c') :
    c'.loops = c.loops ∧ c'.inner.refreshRequested = c.inner.refreshRequested := by
  rw [shutdownJoined] at h
  repeat' split at h
  all_goals first
    | contradiction
    | obtain rfl := Option.some.inj h
      exact ⟨rfl, rfl⟩

theorem shutdownFinish_refresh {c c' : Coordinator} {id : Nat}
    (h : c.shutdownFinish id = some c') :
    c'.loops = c.loops ∧ c'.inner.refreshRequested = c.inner.refreshRequested := by
  rw [shutdownFinish] at h
  repeat' split at h
  all_goals first
    | contradiction
    | obtain rfl := Option.some.inj h
      exact ⟨rfl, rfl⟩

theorem startLocked_refreshRequested {c : Coordinator}
    (hsame : c.startLocked.inner.generation = c.inner.generation) :
    c.startLocked.inner.refreshRequested = c.inner.refreshRequested := by
  rw [startLocked] at hsame ⊢
  split at hsame
  · rename_i hstopping
    rw [if_pos hstopping]
  · exact absurd hsame (Nat.succ_ne_self _)

theorem handleSleepOrLock_refreshRequested {c : Coordinator} {now : Int}
    (hsame : (c.handleSleepOrLock now).inner.generation = c.inner.generation) :
    (c.handleSleepOrLock now).inner.refreshRequested = c.inner.refreshRequested := by
  rw [handleSleepOrLock] at hsame ⊢
  split at hsame
  · rename_i hignored
    rw [if_pos hignored]
  · dsimp only at hsame
    split at hsame <;> exact absurd hsame (Nat.succ_ne_self _)

theorem shutdown_refreshRequested {c : Coordinator} {reason : ClearReason}
    (hsame : (c.shutdown reason).inner.generation = c.inner.generation) :
    (c.shutdown reason).inner.refreshRequested = c.inner.refreshRequested := by
  rw [shutdown] at hsame ⊢
  split at hsame
  · rename_i hignored
    rw [if_pos hignored]
  · exact absurd hsame (Nat.succ_ne_self _)

theorem configureCapabilities_requested {c c' : Coordinator} {id : Nat}
    {negotiation : Option PresenceNegotiation}
    (h : c.configureCapabilities id negotiation = some c')
    (hrequested : c.inner.refreshRequested = true) : c'.inner.refreshRequested = true := by
  rw [configureCapabilities] at h
  split at h
  · dsimp only at h
    split at h
    · obtain rfl := Option.some.inj h
      exact hrequested
    · cases negotiation with
      | none =>
          obtain rfl := Option.some.inj h
          exact hrequested
      | some outcome =>
          cases outcome with
          | available configuration =>
              obtain rfl := Option.some.inj h
              exact triggerRefresh_refreshRequested _ _
          | clientUpdateRequired | schemaUnsupported | featureUnavailable | invalidCapabilities =>
              obtain rfl := Option.some.inj h
              exact hrequested
  · contradiction

theorem loopThrottled_refreshRequested {c c' : Coordinator} {id : Nat} {now : Int}
    (h : c.loopThrottled id now = some c') :
    c'.inner.refreshRequested = c.inner.refreshRequested := by
  rw [loopThrottled] at h
  repeat' split at h
  all_goals first
    | contradiction
    | obtain rfl := Option.some.inj h
      rfl

theorem loopCheck_refreshRequested {c c' : Coordinator} {id : Nat}
    {snapshot : SanitizedPresenceSnapshot} (h : c.loopCheck id snapshot = some c') :
    c'.inner.refreshRequested = c.inner.refreshRequested := by
  rw [loopCheck] at h
  repeat' split at h
  all_goals first
    | contradiction
    | obtain rfl := Option.some.inj h
      rfl

theorem loopPublished_refreshRequested {c c' : Coordinator} {id : Nat}
    {result : Except PresenceClientError MutationResponse} (h : c.loopPublished id result = some c')
    (hsame : c'.inner.generation = c.inner.generation) :
    c'.inner.refreshRequested = c.inner.refreshRequested := by
  rw [loopPublished] at h
  repeat' split at h
  all_goals first
    | contradiction
    | obtain rfl := Option.some.inj h
      first
        | rfl
        | exact startLocked_refreshRequested hsame

theorem requested_of_step {c c' : Coordinator} {e : CoordinatorEvent} (hstep : c.step e = some c')
    (hsame : c'.inner.generation = c.inner.generation)
    (hrequested : c.inner.refreshRequested = true) :
    c'.inner.refreshRequested = true ∨
      ∃ id now gen, e = .loopHead id now ∧ c.loops id = some ⟨gen, .head⟩ := by
  cases step_frame hstep with
  | framed _ hframe => exact Or.inl (hframe.refreshRequested.trans hrequested)
  | started _ d hframe hstarted =>
      rw [hstarted] at hsame ⊢
      rw [startLocked_refreshRequested (hsame.trans hframe.generation.symm)]
      exact Or.inl (hframe.refreshRequested.trans hrequested)
  | triggered _ d hframe hasks htriggers =>
      rw [htriggers]
      exact Or.inl (triggerRefresh_refreshRequested d _)
  | slept now hsleeps =>
      rw [hsleeps] at hsame ⊢
      exact Or.inl ((handleSleepOrLock_refreshRequested hsame).trans hrequested)
  | stopped reason hstops =>
      rw [hstops] at hsame ⊢
      exact Or.inl ((shutdown_refreshRequested hsame).trans hrequested)
  | discarded hdiscards =>
      rw [hdiscards]
      exact Or.inl hrequested
  | shutdownJoined id now hjoins =>
      exact Or.inl ((shutdownJoined_refresh hjoins).2.trans hrequested)
  | shutdownFinish id hfinishes =>
      exact Or.inl ((shutdownFinish_refresh hfinishes).2.trans hrequested)
  | configureCapabilities id negotiation hnegotiates =>
      exact Or.inl (configureCapabilities_requested hnegotiates hrequested)
  | loopHead id now hmoves =>
      rw [loopHead] at hmoves
      split at hmoves
      · rename_i gen hhead
        exact Or.inr ⟨id, now, gen, rfl, hhead⟩
      · contradiction
  | loopThrottled id now hmoves =>
      exact Or.inl ((loopThrottled_refreshRequested hmoves).trans hrequested)
  | loopCheck id snapshot hmoves =>
      exact Or.inl ((loopCheck_refreshRequested hmoves).trans hrequested)
  | loopPublished id result hmoves =>
      exact Or.inl ((loopPublished_refreshRequested hmoves hsame).trans hrequested)

theorem LoopsOf.congr {c d : Coordinator} {gen : Nat} (h : c.LoopsOf gen)
    (hloops : d.loops = c.loops) : d.LoopsOf gen :=
  fun id task htask => h id task (hloops ▸ htask)

theorem LoopsOf.triggerRefresh {c : Coordinator} {gen : Nat} (h : c.LoopsOf gen) :
    (c.triggerRefresh gen).LoopsOf gen := by
  intro id task htask
  rw [Coordinator.triggerRefresh] at htask
  split at htask
  · exact h id task htask
  · simp only [Function.update_apply] at htask
    split at htask
    · rw [← Option.some.inj htask]
    · exact h id task htask

theorem LoopsOf.setLoop {c : Coordinator} {gen : Nat} (h : c.LoopsOf gen) (id : Nat) (pc : LoopPc) :
    (c.setLoop id ⟨gen, pc⟩).LoopsOf gen := by
  intro id' task htask
  simp only [Coordinator.setLoop, Function.update_apply] at htask
  split at htask
  · rw [← Option.some.inj htask]
  · exact h id' task htask

theorem LoopsOf.exitLoop {c : Coordinator} {gen : Nat} (h : c.LoopsOf gen) (id : Nat) :
    (c.exitLoop id).LoopsOf gen := by
  intro id' task htask
  simp only [Coordinator.exitLoop, Function.update_apply] at htask
  split at htask
  · contradiction
  · exact h id' task htask

theorem LoopsOf.configureCapabilities {c c' : Coordinator} {gen id : Nat}
    {negotiation : Option PresenceNegotiation} (h : c.LoopsOf gen) (hgen : c.inner.generation = gen)
    (hstep : c.configureCapabilities id negotiation = some c') : c'.LoopsOf gen := by
  rw [Coordinator.configureCapabilities] at hstep
  split at hstep
  · rename_i gen' connection token htask
    dsimp only at hstep
    split at hstep
    · obtain rfl := Option.some.inj hstep
      exact h
    · rename_i hcurrent
      obtain rfl : gen' = gen := (not_not.mp hcurrent).trans hgen
      cases negotiation with
      | none =>
          obtain rfl := Option.some.inj hstep
          exact h
      | some outcome =>
          cases outcome with
          | available configuration =>
              obtain rfl := Option.some.inj hstep
              exact LoopsOf.triggerRefresh (h.congr rfl)
          | clientUpdateRequired | schemaUnsupported | featureUnavailable | invalidCapabilities =>
              obtain rfl := Option.some.inj hstep
              exact h
  · contradiction

theorem LoopsOf.loopHead {c c' : Coordinator} {gen id : Nat} {now : Int} (h : c.LoopsOf gen)
    (hstep : c.loopHead id now = some c') : c'.LoopsOf gen := by
  rw [Coordinator.loopHead] at hstep
  split at hstep
  · rename_i gen' htask
    obtain rfl : gen' = gen := h id _ htask
    split at hstep
    · obtain rfl := Option.some.inj hstep
      exact h.exitLoop id
    · obtain rfl := Option.some.inj hstep
      exact h.setLoop id _
  · contradiction

theorem LoopsOf.loopThrottled {c c' : Coordinator} {gen id : Nat} {now : Int} (h : c.LoopsOf gen)
    (hstep : c.loopThrottled id now = some c') : c'.LoopsOf gen := by
  rw [Coordinator.loopThrottled] at hstep
  split at hstep
  · rename_i gen' waitMs htask
    obtain rfl : gen' = gen := h id _ htask
    repeat' split at hstep
    all_goals
      obtain rfl := Option.some.inj hstep
      first
        | exact h.exitLoop id
        | exact h.setLoop id _
  · contradiction

theorem LoopsOf.loopCheck {c c' : Coordinator} {gen id : Nat} {snapshot : SanitizedPresenceSnapshot}
    (h : c.LoopsOf gen) (hstep : c.loopCheck id snapshot = some c') : c'.LoopsOf gen := by
  rw [Coordinator.loopCheck] at hstep
  split at hstep
  · rename_i gen' client includeMedia htask
    obtain rfl : gen' = gen := h id _ htask
    split at hstep
    · obtain rfl := Option.some.inj hstep
      exact h.exitLoop id
    · obtain rfl := Option.some.inj hstep
      exact h.setLoop id _
  · contradiction

theorem LoopsOf.loopPublished {c c' : Coordinator} {gen id : Nat}
    {result : Except PresenceClientError MutationResponse} (h : c.LoopsOf gen)
    (hstep : c.loopPublished id result = some c') : c'.LoopsOf gen := by
  rw [Coordinator.loopPublished] at hstep
  split at hstep
  · rename_i gen' call htask
    obtain rfl : gen' = gen := h id _ htask
    split at hstep
    · obtain rfl := Option.some.inj hstep
      exact h.exitLoop id
    · split at hstep
      · obtain rfl := Option.some.inj hstep
        exact h.setLoop id _
      · split at hstep
        · obtain rfl := Option.some.inj hstep
          exact (h.exitLoop id).congr (startLocked_loops _)
        · obtain rfl := Option.some.inj hstep
          exact h.exitLoop id
  · contradiction

theorem LoopsOf.step {c c' : Coordinator} {e : CoordinatorEvent} {gen : Nat} (h : c.LoopsOf gen)
    (hgen : c.inner.generation = gen) (hstep : c.step e = some c') : c'.LoopsOf gen := by
  cases step_frame hstep with
  | framed _ hframe => exact h.congr hframe.loops
  | started _ d hframe hstarted =>
      rw [hstarted]
      exact h.congr ((startLocked_loops d).trans hframe.loops)
  | triggered _ d hframe hasks htriggers =>
      rw [htriggers, hframe.generation, hgen]
      exact (h.congr hframe.loops).triggerRefresh
  | slept now hsleeps =>
      rw [hsleeps, handleSleepOrLock]
      split
      · exact h
      · dsimp only
        split <;> exact h
  | stopped reason hstops =>
      rw [hstops, shutdown]
      split <;> exact h
  | discarded hdiscards =>
      rw [hdiscards]
      exact h
  | shutdownJoined id now hjoins => exact h.congr (shutdownJoined_refresh hjoins).1
  | shutdownFinish id hfinishes => exact h.congr (shutdownFinish_refresh hfinishes).1
  | configureCapabilities id negotiation hnegotiates =>
      exact h.configureCapabilities hgen hnegotiates
  | loopHead id now hmoves => exact h.loopHead hmoves
  | loopThrottled id now hmoves => exact h.loopThrottled hmoves
  | loopCheck id snapshot hmoves => exact h.loopCheck hmoves
  | loopPublished id result hmoves => exact h.loopPublished hmoves

theorem LoopsOf.not_meetsDyingLoop {c : Coordinator} {gen : Nat} (h : c.LoopsOf gen)
    (hgen : c.inner.generation = gen) (hinv : c.Inv) (e : CoordinatorEvent) :
    ¬ c.MeetsDyingLoop e := by
  rintro ⟨-, hrunning, hnone⟩
  obtain ⟨id, hsome⟩ := hinv.flight.flag.mp hrunning
  obtain ⟨task, htask⟩ := Option.isSome_iff_exists.mp hsome
  exact hnone ⟨id, task, htask, (h id task htask).trans hgen.symm⟩

theorem getElem?_calls_of_step {c c' : Coordinator} {e : CoordinatorEvent} (h : c.step e = some c')
    {n : Nat} {call : PresenceCall} (hcall : c.calls[n]? = some call) :
    c'.calls[n]? = some call := by
  obtain ⟨later, -, hcalls⟩ := step_calls h
  obtain ⟨hlt, -⟩ := List.getElem?_eq_some_iff.mp hcall
  rw [hcalls, List.getElem?_append_left hlt, hcall]

theorem PublishedIn.step {c c' : Coordinator} {e : CoordinatorEvent} {es : List CoordinatorEvent}
    {gen first : Nat} (h : PublishedIn es gen first c) (hstep : c.step e = some c') :
    PublishedIn (es ++ [e]) gen first c' := by
  obtain ⟨id, now, snapshot, response, call, client, lease, hevents, hfirst, hcall⟩ := h
  refine ⟨id, now, snapshot, response, call, client, lease, ?_, hfirst,
    getElem?_calls_of_step hstep hcall⟩
  have hlonger : ofLoop id es <:+: ofLoop id (es ++ [e]) := by
    rw [ofLoop, ofLoop, List.filter_append]
    exact (List.prefix_append _ _).isInfix
  exact hevents.trans hlonger

theorem PublishedIn.congr {c : Coordinator} {es fs : List CoordinatorEvent} {gen first : Nat}
    (h : PublishedIn es gen first c) (hsame : ∀ id, ofLoop id es = ofLoop id fs) :
    PublishedIn fs gen first c := by
  obtain ⟨id, now, snapshot, response, call, client, lease, hevents, hfirst, hcall⟩ := h
  exact ⟨id, now, snapshot, response, call, client, lease, hsame id ▸ hevents, hfirst, hcall⟩

theorem Refreshing.step {c c' : Coordinator} {e : CoordinatorEvent} {es : List CoordinatorEvent}
    {gen first : Nat} (hinv : c.Inv) (hshares : c.SharesIn gen) (hshares' : c'.SharesIn gen)
    (hfirst : first ≤ c.calls.length) (hstep : c.step e = some c')
    (h : Refreshing es gen first c) : Refreshing (es ++ [e]) gen first c' := by
  have hsame : c'.inner.generation = c.inner.generation :=
    hshares'.generation.trans hshares.generation.symm
  cases h with
  | asked hrequested hcurrent =>
      obtain ⟨id, ⟨gen', pc⟩, hloop, hgen⟩ := hcurrent
      obtain rfl : gen' = gen := hgen.trans hshares.generation
      have hstill (hhead : ∀ now, e ≠ .loopHead id now) : c'.inner.refreshRequested = true := by
        rcases requested_of_step hstep hsame hrequested with hkept | ⟨id', now, gen, rfl, hother⟩
        · exact hkept
        · obtain rfl := hinv.flight.eq_of_some hother hloop
          exact absurd rfl (hhead now)
      rcases loop_of_step hinv hshares hshares' hstep hloop with
        ⟨hkept, hother⟩ | ⟨pc', hadvances, hnext, -⟩ | ⟨-, hnone⟩
      · refine .asked (hstill ?_) ⟨id, _, hkept, hshares'.generation.symm⟩
        rintro now rfl
        exact hother rfl
      · cases hadvances with
        | throttled now waitMs => exact .throttled id waitMs hnext
        | capturing | publishing | again =>
            exact .asked (hstill (by simp)) ⟨id, _, hnext, hshares'.generation.symm⟩
      · rw [hrequested] at hnone
        contradiction
  | throttled id waitMs hloop =>
      rcases loop_of_step hinv hshares hshares' hstep hloop with
        ⟨hkept, -⟩ | ⟨pc', hadvances, hnext, hown⟩ | ⟨hhead, -⟩
      · exact .throttled id waitMs hkept
      · cases hadvances with
        | capturing now _ client _ =>
            refine .capturing id now client c.inner.includeMedia hnext ?_
            rw [ofLoop_concat_self hown]
            exact List.suffix_append _ _
      · contradiction
  | capturing id now client includeMedia hloop hbegan =>
      rcases loop_of_step hinv hshares hshares' hstep hloop with
        ⟨hkept, hother⟩ | ⟨pc', hadvances, hnext, hown⟩ | ⟨hhead, -⟩
      · refine .capturing id now client includeMedia hkept ?_
        rwa [ofLoop_concat_of_ne hother]
      · cases hadvances with
        | publishing snapshot =>
            have hcalls : c'.calls = c.calls ++
                [.replacePresence gen client snapshot c.inner.requestedLeaseSeconds] := by
              simp only [Coordinator.step, loopCheck, hloop] at hstep
              rw [if_neg (not_not.mpr hshares.generation.symm)] at hstep
              obtain rfl := Option.some.inj hstep
              rfl
            refine .publishing id now snapshot _ client c.inner.requestedLeaseSeconds hnext ?_
              hfirst ?_
            · rw [ofLoop_concat_self hown]
              exact List.suffix_append_self_iff.mpr hbegan
            · rw [hcalls, List.getElem?_concat_length]
      · contradiction
  | publishing id now snapshot call client lease hloop hbegan hlater hcalled =>
      rcases loop_of_step hinv hshares hshares' hstep hloop with
        ⟨hkept, hother⟩ | ⟨pc', hadvances, hnext, hown⟩ | ⟨hhead, -⟩
      · refine .publishing id now snapshot call client lease hkept ?_ hlater
          (getElem?_calls_of_step hstep hcalled)
        rwa [ofLoop_concat_of_ne hother]
      · cases hadvances with
        | again _ response =>
            refine .published ⟨id, now, snapshot, response, call, client, lease, ?_, hlater,
              getElem?_calls_of_step hstep hcalled⟩
            rw [ofLoop_concat_self hown]
            exact (List.suffix_append_self_iff.mpr hbegan).isInfix
      · contradiction
  | published hdone => exact .published (hdone.step hstep)

/-- A trigger that finds no loop of an ended generation is served by one of its own. -/
theorem asked_of_trigger {c c' : Coordinator} {e : CoordinatorEvent} {gen first : Nat}
    (htriggers : c.Triggers e) (hmeets : ¬ c.MeetsDyingLoop e) (hstep : c.step e = some c')
    (hshares : c'.SharesIn gen) : Refreshing [] gen first c' := by
  have hserved : c'.inner.refreshRequested = true ∧ c'.TriggerServed := by
    have hloop (hrunning : c.inner.refreshLoopRunning = true) : c.CurrentLoop := by
      by_contra hnone
      exact hmeets ⟨htriggers, hrunning, hnone⟩
    cases e with
    | requestFreshSnapshot =>
        obtain rfl := Option.some.inj hstep
        have hactive : c.inner.state = .active := htriggers
        rw [requestFreshSnapshot, if_pos (Or.inl hactive)]
        exact ⟨triggerRefresh_refreshRequested c _, triggerServed_triggerRefresh hloop⟩
    | heartbeatFire id =>
        obtain ⟨hactive, aborted, htask⟩ := htriggers
        simp only [Coordinator.step, heartbeatFire, htask] at hstep
        rw [if_neg (not_not.mpr rfl)] at hstep
        obtain rfl := Option.some.inj hstep
        exact ⟨triggerRefresh_refreshRequested _ _, triggerServed_triggerRefresh (c := _) hloop⟩
    | configureCapabilities id negotiation =>
        cases negotiation with
        | none => exact htriggers.elim
        | some outcome =>
            cases outcome with
            | available configuration =>
                obtain ⟨connection, token, htask⟩ := htriggers
                simp only [Coordinator.step, configureCapabilities, htask] at hstep
                rw [if_neg (fun hne => hne rfl)] at hstep
                obtain rfl := Option.some.inj hstep
                exact ⟨triggerRefresh_refreshRequested _ _,
                  triggerServed_triggerRefresh (c := _) hloop⟩
            | clientUpdateRequired => exact htriggers.elim
            | schemaUnsupported => exact htriggers.elim
            | featureUnavailable => exact htriggers.elim
            | invalidCapabilities => exact htriggers.elim
    | _ => exact htriggers.elim
  exact .asked hserved.1 (hserved.2 hshares.active hserved.1)

theorem refreshing_of_run {c c' : Coordinator} {es : List CoordinatorEvent} {gen first : Nat}
    (hinv : c.Inv) (hfirst : first ≤ c.calls.length) (h : Refreshing [] gen first c)
    (hshares : Throughout Coordinator.step c es (SharesIn gen))
    (hexec : exec Coordinator.step c es = some c') : Refreshing es gen first c' := by
  have hrun : Throughout Coordinator.step c es (SharesIn gen) →
      c'.Inv ∧ first ≤ c'.calls.length ∧ Refreshing es gen first c' := by
    refine exec_induction (P := fun es c' => Throughout Coordinator.step c es (SharesIn gen) →
      c'.Inv ∧ first ≤ c'.calls.length ∧ Refreshing es gen first c') ?_ ?_ hexec
    · intro _
      exact ⟨hinv, hfirst, h⟩
    · intro es c₁ e c₂ hc₁ ih hstep hshares
      obtain ⟨hinv₁, hlength, hrefreshing⟩ := ih hshares.append_left
      obtain ⟨later, -, hcalls⟩ := step_calls hstep
      have hnow := hshares.append_left.last hc₁
      have hnext := hshares.last (exec_concat_eq_some.mpr ⟨c₁, hc₁, hstep⟩)
      refine ⟨hinv₁.step hstep, ?_, hrefreshing.step hinv₁ hnow hnext hlength hstep⟩
      rw [hcalls, List.length_append]
      omega
  exact (hrun hshares).2.2

theorem LoopsOf.of_run {c c' : Coordinator} {es : List CoordinatorEvent} {gen : Nat}
    (h : c.LoopsOf gen) (hshares : Throughout Coordinator.step c es (SharesIn gen))
    (hexec : exec Coordinator.step c es = some c') : c'.LoopsOf gen := by
  have hrun : Throughout Coordinator.step c es (SharesIn gen) → c'.LoopsOf gen := by
    refine exec_induction (P := fun es c' => Throughout Coordinator.step c es (SharesIn gen) →
      c'.LoopsOf gen) ?_ ?_ hexec
    · intro _
      exact h
    · intro es c₁ e c₂ hc₁ ih hstep hshares
      have hnow := hshares.append_left.last hc₁
      exact (ih hshares.append_left).step hnow.generation hstep
  exact hrun hshares

theorem published_of_trigger {c₁ c₂ c : Coordinator} {e : CoordinatorEvent}
    {later : List CoordinatorEvent} {gen : Nat} (hinv : c₁.Inv) (htriggers : c₁.Triggers e)
    (hmeets : ¬ c₁.MeetsDyingLoop e) (hstep : c₁.step e = some c₂)
    (hlater : exec Coordinator.step c₂ later = some c)
    (hshares : Throughout Coordinator.step c₂ later (SharesIn gen)) (hquiet : ¬ c.CurrentLoop) :
    PublishedIn later gen c₁.calls.length c := by
  have hfirst : c₁.calls.length ≤ c₂.calls.length := by
    obtain ⟨calls, -, hcalls⟩ := step_calls hstep
    rw [hcalls, List.length_append]
    omega
  have hasked : Refreshing [] gen c₁.calls.length c₂ :=
    asked_of_trigger htriggers hmeets hstep (hshares 0 c₂ rfl)
  have hgen := (hshares.last hlater).generation
  cases refreshing_of_run (hinv.step hstep) hfirst hasked hshares hlater with
  | asked _ hcurrent => exact absurd hcurrent hquiet
  | throttled id waitMs hloop => exact absurd ⟨id, _, hloop, hgen.symm⟩ hquiet
  | capturing id now client includeMedia hloop => exact absurd ⟨id, _, hloop, hgen.symm⟩ hquiet
  | publishing id now snapshot call client lease hloop =>
      exact absurd ⟨id, _, hloop, hgen.symm⟩ hquiet
  | published hdone => exact hdone

/-- A trigger of a coordinator that goes on sharing is published: once no loop of the generation is
left, one of them has captured after the trigger, published what it captured and been accepted. -/
theorem trigger_is_published {before later : List CoordinatorEvent} {c₁ c₂ c : Coordinator}
    {e : CoordinatorEvent} {gen : Nat} (hbefore : exec Coordinator.step new before = some c₁)
    (htriggers : c₁.Triggers e) (hmeets : ¬ c₁.MeetsDyingLoop e) (hstep : c₁.step e = some c₂)
    (hlater : exec Coordinator.step c₂ later = some c)
    (hshares : Throughout Coordinator.step c₂ later (SharesIn gen)) (hquiet : ¬ c.CurrentLoop) :
    PublishedIn later gen c₁.calls.length c :=
  published_of_trigger (inv_run hbefore) htriggers hmeets hstep hlater hshares hquiet

/-- The first iteration has begun its capture. -/
def captureBegun : List CoordinatorEvent :=
  .start :: configuredBy 0 ++ [.loopHead 2 0, .loopThrottled 2 0]

/-- It publishes, and the loop goes round once more. -/
def onceMore : List CoordinatorEvent :=
  [.loopCheck 2 emptySnapshot, .loopPublished 2 (.ok { acceptedSequence := 1 })] ++
    publishedBy 2 ++ [.loopHead 2 4000]

theorem trigger_is_published_capturing : ∃ c₁ c₂ c,
    exec Coordinator.step new captureBegun = some c₁ ∧
      c₁.step .requestFreshSnapshot = some c₂ ∧ exec Coordinator.step c₂ onceMore = some c ∧
      PublishedIn onceMore 1 0 c := by
  have hcurrent {c : Coordinator} (hc : exec Coordinator.step new captureBegun = some c) :
      c.CurrentLoop := by
    obtain rfl := Option.some.inj hc
    exact ⟨2, _, rfl, rfl⟩
  have hshares {c : Coordinator} (hc : exec Coordinator.step new
      (captureBegun ++ [.requestFreshSnapshot]) = some c) :
      Throughout Coordinator.step c onceMore (SharesIn 1) :=
    throughout_of_all hc (by decide +kernel)
  have hquiet {c : Coordinator} (hc : exec Coordinator.step new
      (captureBegun ++ [.requestFreshSnapshot] ++ onceMore) = some c) : ¬ c.CurrentLoop := by
    have hflight := (inv_run hc).flight
    rintro ⟨id, task, htask, -⟩
    have hrunning := hflight.running_of_some htask
    obtain rfl := Option.some.inj hc
    contradiction
  obtain ⟨c₁, hc₁, hactive⟩ : ∃ c₁, exec Coordinator.step new captureBegun = some c₁ ∧
      c₁.Triggers .requestFreshSnapshot := ⟨_, rfl, rfl⟩
  obtain ⟨c₂, hc₂⟩ : ∃ c₂, exec Coordinator.step new
      (captureBegun ++ [.requestFreshSnapshot]) = some c₂ := ⟨_, rfl⟩
  obtain ⟨c, hc⟩ : ∃ c, exec Coordinator.step new
      (captureBegun ++ [.requestFreshSnapshot] ++ onceMore) = some c := ⟨_, rfl⟩
  have hstep : c₁.step .requestFreshSnapshot = some c₂ := by
    rwa [exec_append, hc₁] at hc₂
  have hmore : exec Coordinator.step c₂ onceMore = some c := by
    rwa [exec_append, hc₂] at hc
  have hcalls : c₁.calls.length = 0 := by
    obtain rfl := Option.some.inj hc₁
    rfl
  have hpublished := trigger_is_published hc₁ hactive (fun hmeets => hmeets.2.2 (hcurrent hc₁))
    hstep hmore (hshares hc₂) (hquiet hc)
  rw [hcalls] at hpublished
  exact ⟨c₁, c₂, c, hc₁, hstep, hmore, hpublished⟩

end Coordinator

end YohakuCore
