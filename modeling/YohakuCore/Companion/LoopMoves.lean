import YohakuCore.Companion.CoordinatorInvariants

/-! # What a step does to the loops and the clients -/

namespace YohakuCore

open Framework

/-- The loop whose segment an event runs. -/
def CoordinatorEvent.loop : CoordinatorEvent → Option Nat
  | .loopHead id _ => some id
  | .loopThrottled id _ => some id
  | .loopCheck id _ => some id
  | .loopPublished id _ => some id
  | _ => none

namespace Coordinator

/-- How a loop of the current generation goes on. -/
inductive LoopAdvances (c : Coordinator) (id : Nat) : CoordinatorEvent → LoopPc → LoopPc → Prop
  | throttled (now waitMs : Int) :
      LoopAdvances c id (.loopHead id now) .head (.throttled waitMs)
  | capturing (now waitMs : Int) (client : PresenceClient) (held : c.inner.client = some client) :
      LoopAdvances c id (.loopThrottled id now) (.throttled waitMs)
        (.capturing client c.inner.includeMedia)
  | publishing (snapshot : SanitizedPresenceSnapshot) (client : PresenceClient)
      (includeMedia : Bool) :
      LoopAdvances c id (.loopCheck id snapshot) (.capturing client includeMedia)
        (.publishing c.calls.length)
  | again (call : Nat) (response : MutationResponse) :
      LoopAdvances c id (.loopPublished id (.ok response)) (.publishing call) .head

/-- What a step does to the loops. -/
inductive LoopMove (c : Coordinator) (e : CoordinatorEvent) (c' : Coordinator) : Prop
  | kept (loops : c'.loops = c.loops)
  | spawned (id gen : Nat) (idle : c.inner.refreshLoopRunning = false)
      (loops : c'.loops = Function.update c.loops id (some ⟨gen, .head⟩))
  | advanced (id : Nat) (pc pc' : LoopPc)
      (loop : c.loops id = some ⟨c.inner.generation, pc⟩) (advances : LoopAdvances c id e pc pc')
      (loops : c'.loops = Function.update c.loops id (some ⟨c.inner.generation, pc'⟩))
  | exited (id : Nat) (task : Spawned LoopPc) (loop : c.loops id = some task)
      (event : e.loop = some id) (loops : c'.loops = Function.update c.loops id none)

/-- What a step does to the client and the registry. -/
inductive AuthorityMove (c c' : Coordinator) : Prop
  | kept (client : c'.inner.client = c.inner.client)
      (registry : c'.inner.registry = c.inner.registry)
  | released (client : c'.inner.client = none) (registry : c'.inner.registry = c.inner.registry)
  | discarded (client : c'.inner.client = none)
      (registry : c'.inner.registry = c.inner.registry.discard)
  | installed (id : Nat) (connection : StoredConnection) (token : String)
      (configuration : NegotiatedPresenceConfiguration)
      (configure : c.configures id = some ⟨c.inner.generation, .capabilities connection token⟩)
      (client : c'.inner.client = (c.install connection token configuration).inner.client)
      (registry : c'.inner.registry = (c.install connection token configuration).inner.registry)

structure HoldMove (c : Coordinator) (e : CoordinatorEvent) (c' : Coordinator) : Prop where
  loops : LoopMove c e c'
  authority : AuthorityMove c c'

@[simp] theorem startLocked_loops (c : Coordinator) : c.startLocked.loops = c.loops := by
  rw [startLocked]
  split <;> rfl

@[simp] theorem startLocked_client (c : Coordinator) :
    c.startLocked.inner.client = c.inner.client := by
  rw [startLocked]
  split <;> rfl

@[simp] theorem startLocked_registry (c : Coordinator) :
    c.startLocked.inner.registry = c.inner.registry := by
  rw [startLocked]
  split <;> rfl

@[simp] theorem triggerRefresh_client (c : Coordinator) (gen : Nat) :
    (c.triggerRefresh gen).inner.client = c.inner.client := by
  rw [triggerRefresh]
  split <;> rfl

@[simp] theorem triggerRefresh_registry (c : Coordinator) (gen : Nat) :
    (c.triggerRefresh gen).inner.registry = c.inner.registry := by
  rw [triggerRefresh]
  split <;> rfl

theorem triggerRefresh_loopMove {c d : Coordinator} {e : CoordinatorEvent}
    (hloops : d.loops = c.loops)
    (hrunning : d.inner.refreshLoopRunning = c.inner.refreshLoopRunning) (gen : Nat) :
    LoopMove c e (d.triggerRefresh gen) := by
  cases hflag : d.inner.refreshLoopRunning with
  | true =>
      refine .kept ?_
      rw [triggerRefresh_loops_of_running hflag, hloops]
  | false =>
      refine .spawned d.nextTask gen (hrunning.symm.trans hflag) ?_
      rw [triggerRefresh, hflag, ← hloops]
      rfl

theorem configureCapabilities_hold {c c' : Coordinator} {id : Nat}
    {negotiation : Option PresenceNegotiation}
    (h : c.configureCapabilities id negotiation = some c') :
    HoldMove c (.configureCapabilities id negotiation) c' := by
  rw [configureCapabilities] at h
  split at h
  · rename_i gen connection token hconfigure
    dsimp only at h
    split at h
    · obtain rfl := Option.some.inj h
      exact ⟨.kept rfl, .kept rfl rfl⟩
    · rename_i hgen
      obtain rfl : gen = c.inner.generation := not_not.mp hgen
      cases negotiation with
      | none =>
          obtain rfl := Option.some.inj h
          exact ⟨.kept rfl, .kept rfl rfl⟩
      | some outcome =>
          cases outcome with
          | available configuration =>
              obtain rfl := Option.some.inj h
              refine ⟨triggerRefresh_loopMove ?_ ?_ _,
                .installed id connection token configuration hconfigure ?_ ?_⟩
              · rfl
              · rfl
              · rw [triggerRefresh_client]
                rfl
              · rw [triggerRefresh_registry]
                rfl
          | clientUpdateRequired | schemaUnsupported | featureUnavailable | invalidCapabilities =>
              obtain rfl := Option.some.inj h
              exact ⟨.kept rfl, .kept rfl rfl⟩
  · contradiction

theorem loopHead_hold {c c' : Coordinator} {id : Nat} {now : Int}
    (h : c.loopHead id now = some c') : HoldMove c (.loopHead id now) c' := by
  rw [loopHead] at h
  split at h
  · rename_i gen hloop
    split at h
    · obtain rfl := Option.some.inj h
      exact ⟨.exited id _ hloop rfl rfl, .kept rfl rfl⟩
    · rename_i hgen
      rw [not_or, not_not] at hgen
      obtain ⟨rfl, -⟩ := hgen
      obtain rfl := Option.some.inj h
      exact ⟨.advanced id _ _ hloop (.throttled now _) rfl, .kept rfl rfl⟩
  · contradiction

theorem loopThrottled_hold {c c' : Coordinator} {id : Nat} {now : Int}
    (h : c.loopThrottled id now = some c') : HoldMove c (.loopThrottled id now) c' := by
  rw [loopThrottled] at h
  split at h
  · rename_i gen waitMs hloop
    split at h
    · obtain rfl := Option.some.inj h
      exact ⟨.exited id _ hloop rfl rfl, .kept rfl rfl⟩
    · rename_i hgen
      obtain rfl : gen = c.inner.generation := not_not.mp hgen
      split at h
      · obtain rfl := Option.some.inj h
        exact ⟨.exited id _ hloop rfl rfl, .kept rfl rfl⟩
      · rename_i client hclient
        obtain rfl := Option.some.inj h
        exact ⟨.advanced id _ _ hloop (.capturing now waitMs client hclient) rfl, .kept rfl rfl⟩
  · contradiction

theorem loopCheck_hold {c c' : Coordinator} {id : Nat} {snapshot : SanitizedPresenceSnapshot}
    (h : c.loopCheck id snapshot = some c') : HoldMove c (.loopCheck id snapshot) c' := by
  rw [loopCheck] at h
  split at h
  · rename_i gen client includeMedia hloop
    split at h
    · obtain rfl := Option.some.inj h
      exact ⟨.exited id _ hloop rfl rfl, .kept rfl rfl⟩
    · rename_i hgen
      obtain rfl : gen = c.inner.generation := not_not.mp hgen
      obtain rfl := Option.some.inj h
      exact ⟨.advanced id _ _ hloop (.publishing snapshot client includeMedia) rfl, .kept rfl rfl⟩
  · contradiction

theorem loopPublished_hold {c c' : Coordinator} {id : Nat}
    {result : Except PresenceClientError MutationResponse}
    (h : c.loopPublished id result = some c') : HoldMove c (.loopPublished id result) c' := by
  rw [loopPublished] at h
  split at h
  · rename_i gen call hloop
    split at h
    · obtain rfl := Option.some.inj h
      exact ⟨.exited id _ hloop rfl rfl, .kept rfl rfl⟩
    · rename_i hgen
      obtain rfl : gen = c.inner.generation := not_not.mp hgen
      split at h
      · rename_i response
        obtain rfl := Option.some.inj h
        exact ⟨.advanced id _ _ hloop (.again call response) rfl, .kept rfl rfl⟩
      · split at h
        · obtain rfl := Option.some.inj h
          refine ⟨.exited id _ hloop rfl ?_, .discarded ?_ ?_⟩
          · rw [startLocked_loops]
            rfl
          · rw [startLocked_client]
            rfl
          · rw [startLocked_registry]
            rfl
        · obtain rfl := Option.some.inj h
          exact ⟨.exited id _ hloop rfl rfl, .kept rfl rfl⟩
  · contradiction

theorem Framed.hold {c d : Coordinator} (h : c.Framed d) (e : CoordinatorEvent) :
    HoldMove c e d :=
  ⟨.kept h.loops, .kept h.client h.registry⟩

theorem Framed.startLocked_hold {c d : Coordinator} (h : c.Framed d) (e : CoordinatorEvent) :
    HoldMove c e d.startLocked := by
  refine ⟨.kept ?_, .kept ?_ ?_⟩
  · rw [startLocked_loops, h.loops]
  · rw [startLocked_client, h.client]
  · rw [startLocked_registry, h.registry]

theorem Framed.triggerRefresh_hold {c d : Coordinator} (h : c.Framed d) (e : CoordinatorEvent)
    (gen : Nat) : HoldMove c e (d.triggerRefresh gen) := by
  refine ⟨triggerRefresh_loopMove h.loops h.refreshLoopRunning gen, .kept ?_ ?_⟩
  · rw [triggerRefresh_client, h.client]
  · rw [triggerRefresh_registry, h.registry]

theorem handleSleepOrLock_hold (c : Coordinator) (now : Int) :
    HoldMove c (.handleSleepOrLock now) (c.handleSleepOrLock now) := by
  rw [handleSleepOrLock]
  split
  · exact ⟨.kept rfl, .kept rfl rfl⟩
  · dsimp only
    split
    · exact ⟨.kept rfl, .kept rfl rfl⟩
    · exact ⟨.kept rfl, .kept rfl rfl⟩

theorem shutdown_hold (c : Coordinator) (reason : ClearReason) :
    HoldMove c (.shutdown reason) (c.shutdown reason) := by
  rw [shutdown]
  split
  · exact ⟨.kept rfl, .kept rfl rfl⟩
  · exact ⟨.kept rfl, .kept rfl rfl⟩

theorem shutdownJoined_hold {c c' : Coordinator} {id : Nat} {now : Int}
    (h : c.shutdownJoined id now = some c') : HoldMove c (.shutdownJoined id now) c' := by
  rw [shutdownJoined] at h
  split at h
  · split at h
    · split at h
      · obtain rfl := Option.some.inj h
        exact ⟨.kept rfl, .kept rfl rfl⟩
      · obtain rfl := Option.some.inj h
        exact ⟨.kept rfl, .kept rfl rfl⟩
    · contradiction
  · contradiction

theorem shutdownFinish_hold {c c' : Coordinator} {id : Nat}
    (h : c.shutdownFinish id = some c') : HoldMove c (.shutdownFinish id) c' := by
  rw [shutdownFinish] at h
  split at h
  · split at h
    · obtain rfl := Option.some.inj h
      exact ⟨.kept rfl, .released rfl rfl⟩
    · contradiction
  · contradiction

theorem step_hold {c c' : Coordinator} {e : CoordinatorEvent} (h : c.step e = some c') :
    HoldMove c e c' := by
  cases step_frame h with
  | framed _ hframe => exact hframe.hold e
  | started _ d hframe hstarts => exact hstarts ▸ hframe.startLocked_hold e
  | triggered _ d hframe _ htriggers => exact htriggers ▸ hframe.triggerRefresh_hold e _
  | slept now hsleeps => exact hsleeps ▸ handleSleepOrLock_hold c now
  | stopped reason hstops => exact hstops ▸ shutdown_hold c reason
  | discarded hdiscards => exact hdiscards ▸ ⟨.kept rfl, .discarded rfl rfl⟩
  | shutdownJoined id now hjoins => exact shutdownJoined_hold hjoins
  | shutdownFinish id hfinishes => exact shutdownFinish_hold hfinishes
  | configureCapabilities id negotiation hnegotiates =>
      exact configureCapabilities_hold hnegotiates
  | loopHead id now hmoves => exact loopHead_hold hmoves
  | loopThrottled id now hmoves => exact loopThrottled_hold hmoves
  | loopCheck id snapshot hmoves => exact loopCheck_hold hmoves
  | loopPublished id result hmoves => exact loopPublished_hold hmoves

end Coordinator

end YohakuCore
