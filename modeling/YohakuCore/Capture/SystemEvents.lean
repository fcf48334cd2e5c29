import YohakuCore.Framework.Channel
import YohakuCore.Framework.Execution
import Mathlib.Data.List.Chain
import Mathlib.Data.List.Nodup

/-!
# Session and power events

A hidden window hears of locks and suspends. Its thread flips the flag and queues the transition;
the dispatcher calls the listeners of each transition in turn. `start` and `stop` exclude one
another, and the window and the dispatcher are joined before the next start. A step is what runs
between two accesses to shared state.
-/

namespace YohakuCore

open Framework

/-- Which listeners a transition fires. -/
inductive EventKind where
  | lockOrSleep
  | unlockOrResume
  deriving DecidableEq

/-- `WTS_SESSION_LOCK` and `WTS_SESSION_UNLOCK`; `some true` is towards suspended. -/
def wtsWparamTransition (wparam : UInt32) : Option Bool :=
  if wparam = 7 then some true else if wparam = 8 then some false else none

/-- `PBT_APMSUSPEND`, `PBT_APMSTANDBY`, and the three resumes. -/
def powerWparamTransition (wparam : UInt32) : Option Bool :=
  if wparam = 4 ∨ wparam = 5 then some true
  else if wparam = 6 ∨ wparam = 7 ∨ wparam = 8 then some false
  else none

/-- The flag afterwards, and whether listeners fire. -/
def dedupeTransition (suspended toSuspended : Bool) : Bool × Bool :=
  if toSuspended then
    if suspended then (suspended, false) else (true, true)
  else
    if suspended then (false, true) else (suspended, false)

/-- The messages of the window procedure that carry a transition. -/
inductive WindowMessage where
  | wtsSessionChange (wparam : UInt64)
  | powerBroadcast (wparam : UInt64)
  deriving DecidableEq

def WindowMessage.transition : WindowMessage → Option Bool
  | .wtsSessionChange wparam => wtsWparamTransition wparam.toUInt32
  | .powerBroadcast wparam => powerWparamTransition wparam.toUInt32

/-- A thread that `failed` ended before it was ready. A transition that fired is first without
its sender. -/
inductive WindowThread where
  | absent
  | creating
  | failed
  | pumping
  | fired (kind : EventKind)
  | sending (kind : EventKind)
  | gone
  deriving DecidableEq

inductive Dispatcher where
  | absent
  | receiving
  | received (kind : EventKind)
  | calling (kind : EventKind) (remaining : List Nat)
  | gone
  deriving DecidableEq

/-- Who holds the lock of `running`: a `start` that waits for the window, or a `stop` or a failed
`start` that joins. -/
inductive RunningLock where
  | free
  | awaitingReady
  | joiningWindow
  | joiningDispatcher
  deriving DecidableEq

/-- `fired`, `dispatched` and `calls` are what happened so far: the transitions, those whose
listeners were looked up, and the calls of listeners. -/
structure SystemEvents where
  suspended : Bool := false
  lockListeners : List Nat := []
  resumeListeners : List Nat := []
  nextListenerId : Nat := 1
  tx : Bool := false
  running : Bool := false
  lock : RunningLock := .free
  closePosted : Bool := false
  window : WindowThread := .absent
  dispatcher : Dispatcher := .absent
  channel : Channel EventKind := {}
  fired : List EventKind := []
  dispatched : List EventKind := []
  calls : List (EventKind × Nat) := []
  deriving DecidableEq

inductive SystemEvent where
  | start
  | windowCreated (succeeds : Bool)
  | startReturns
  | message (message : WindowMessage)
  | takesSender
  | sends
  | pumpFails
  | receives
  | looksUp
  | calls
  | exits
  | stop (posted : Bool)
  | closes
  | windowJoined
  | dispatcherJoined
  | registers (kind : EventKind)
  | unsubscribes (kind : EventKind) (id : Nat)
  deriving DecidableEq

/-- It comes from outside: from a caller, or from the system. -/
def SystemEvent.isRequest : SystemEvent → Bool
  | .start => true
  | .stop _ => true
  | .message _ => true
  | _ => false

/-- A step of a thread or of a call that waits for one. -/
def SystemEvent.isOwn : SystemEvent → Bool
  | .start => false
  | .stop _ => false
  | .message _ => false
  | .pumpFails => false
  | .registers _ => false
  | .unsubscribes _ _ => false
  | _ => true

/-- The thread can be joined. -/
def WindowThread.ended : WindowThread → Bool
  | .failed => true
  | .gone => true
  | _ => false

/-- The thread runs. -/
def WindowThread.alive : WindowThread → Bool
  | .absent => false
  | .failed => false
  | .gone => false
  | _ => true

theorem WindowThread.not_alive_of_ended {window : WindowThread} (h : window.ended = true) :
    window.alive = false := by
  cases window <;> simp_all [ended, alive]

/-- It holds a clone of the sender. -/
def WindowThread.holdsSender : WindowThread → Bool
  | .sending _ => true
  | _ => false

/-- The receiver was not dropped. -/
def Dispatcher.listens : Dispatcher → Bool
  | .absent => false
  | .gone => false
  | _ => true

namespace SystemEvents

def listenerSet (s : SystemEvents) : EventKind → List Nat
  | .lockOrSleep => s.lockListeners
  | .unlockOrResume => s.resumeListeners

def setListenerSet (s : SystemEvents) (listeners : List Nat) : EventKind → SystemEvents
  | .lockOrSleep => { s with lockListeners := listeners }
  | .unlockOrResume => { s with resumeListeners := listeners }

/-- The part of `transition` under the lock of the flag. -/
def transition (s : SystemEvents) (toSuspended : Bool) : SystemEvents :=
  let (suspended, fires) := dedupeTransition s.suspended toSuspended
  if fires then
    let kind : EventKind := if toSuspended then .lockOrSleep else .unlockOrResume
    { s with suspended, window := .fired kind, fired := s.fired ++ [kind] }
  else { s with suspended }

/-- The dispatcher and the window are spawned with the new channel. -/
def start (s : SystemEvents) : SystemEvents :=
  if s.running then s
  else { s with
    lock := .awaitingReady
    tx := true
    channel := {}
    closePosted := false
    dispatcher := .receiving
    window := .creating }

/-- `PostMessageW` may fail, and is not looked at. -/
def stop (s : SystemEvents) (posted : Bool) : SystemEvents :=
  if s.running then
    { s with lock := .joiningWindow, running := false, closePosted := s.closePosted || posted }
  else s

/-- A failed start has no window left and retires the dispatcher. -/
def startReturns (s : SystemEvents) : Option SystemEvents :=
  match s.window with
  | .creating => none
  | .failed => some { s with lock := .joiningDispatcher, tx := false }
  | _ => some { s with lock := .free, running := true }

def registerListener (s : SystemEvents) (kind : EventKind) : SystemEvents :=
  { s.setListenerSet (s.listenerSet kind ++ [s.nextListenerId]) kind with
    nextListenerId := s.nextListenerId + 1 }

def unsubscribe (s : SystemEvents) (kind : EventKind) (id : Nat) : SystemEvents :=
  s.setListenerSet ((s.listenerSet kind).filter (· ≠ id)) kind

/-- One call, or the end of a round. -/
def dispatch (s : SystemEvents) (kind : EventKind) : List Nat → SystemEvents
  | [] => { s with dispatcher := .receiving }
  | id :: remaining =>
      { s with dispatcher := .calling kind remaining, calls := s.calls ++ [(kind, id)] }

/-- The dispatcher ends when the channel is empty and nobody can send any more. -/
def mayExit (s : SystemEvents) : Bool :=
  s.dispatcher = .receiving ∧ s.channel.queue = [] ∧ s.tx = false ∧ s.window.holdsSender = false

def step (s : SystemEvents) : SystemEvent → Option SystemEvents
  | .start => if s.lock = .free then some s.start else none
  | .windowCreated succeeds =>
      if s.window = .creating then
        some { s with window := if succeeds then .pumping else .failed }
      else none
  | .startReturns => if s.lock = .awaitingReady then s.startReturns else none
  | .message message =>
      if s.window = .pumping then
        match message.transition with
        | none => some s
        | some toSuspended => some (s.transition toSuspended)
      else none
  | .takesSender =>
      match s.window with
      | .fired kind => some { s with window := if s.tx then .sending kind else .pumping }
      | _ => none
  | .sends =>
      match s.window with
      | .sending kind =>
          some { s with
            window := .pumping
            channel := if s.dispatcher.listens then s.channel.send kind else s.channel }
      | _ => none
  | .pumpFails => if s.window = .pumping then some { s with window := .gone } else none
  | .receives =>
      if s.dispatcher = .receiving then
        s.channel.receive.map fun (kind, channel) =>
          { s with dispatcher := .received kind, channel }
      else none
  | .looksUp =>
      match s.dispatcher with
      | .received kind =>
          some { s with
            dispatcher := .calling kind (s.listenerSet kind)
            dispatched := s.dispatched ++ [kind] }
      | _ => none
  | .calls =>
      match s.dispatcher with
      | .calling kind remaining => some (s.dispatch kind remaining)
      | _ => none
  | .exits => if s.mayExit then some { s with dispatcher := .gone } else none
  | .stop posted => if s.lock = .free then some (s.stop posted) else none
  | .closes =>
      if s.window = .pumping ∧ s.closePosted then some { s with window := .gone } else none
  | .windowJoined =>
      if s.lock = .joiningWindow ∧ s.window.ended then
        some { s with lock := .joiningDispatcher, tx := false }
      else none
  | .dispatcherJoined =>
      if s.lock = .joiningDispatcher ∧ s.dispatcher = .gone then some { s with lock := .free }
      else none
  | .registers kind => some (s.registerListener kind)
  | .unsubscribes kind id => some (s.unsubscribe kind id)

/-- The kind of a transition that fires while the flag is `suspended`. -/
def nextKind (suspended : Bool) : EventKind := if suspended then .unlockOrResume else .lockOrSleep

/-- What the steps come to. A start of what runs, a stop of what does not and a message that does
not fire change nothing. -/
inductive Takes (s : SystemEvents) : SystemEvent → SystemEvents → Prop
  | idle {e : SystemEvent} (he : e.isRequest = true) : Takes s e s
  | starts (hlock : s.lock = .free) (hrunning : s.running = false) :
      Takes s .start { s with
        lock := .awaitingReady
        tx := true
        channel := {}
        closePosted := false
        dispatcher := .receiving
        window := .creating }
  | created (hwindow : s.window = .creating) :
      Takes s (.windowCreated true) { s with window := .pumping }
  | notCreated (hwindow : s.window = .creating) :
      Takes s (.windowCreated false) { s with window := .failed }
  | startFails (hlock : s.lock = .awaitingReady) (hwindow : s.window = .failed) :
      Takes s .startReturns { s with lock := .joiningDispatcher, tx := false }
  | startSucceeds (hlock : s.lock = .awaitingReady) (hcreating : s.window ≠ .creating)
      (hfailed : s.window ≠ .failed) :
      Takes s .startReturns { s with lock := .free, running := true }
  | fires {message : WindowMessage} (hwindow : s.window = .pumping)
      (htransition : message.transition = some !s.suspended) :
      Takes s (.message message) { s with
        suspended := !s.suspended
        window := .fired (nextKind s.suspended)
        fired := s.fired ++ [nextKind s.suspended] }
  | takesSender {kind : EventKind} (hwindow : s.window = .fired kind) (htx : s.tx = true) :
      Takes s .takesSender { s with window := .sending kind }
  | findsNoSender {kind : EventKind} (hwindow : s.window = .fired kind) (htx : s.tx = false) :
      Takes s .takesSender { s with window := .pumping }
  | sends {kind : EventKind} (hwindow : s.window = .sending kind)
      (hlistens : s.dispatcher.listens = true) :
      Takes s .sends { s with window := .pumping, channel := s.channel.send kind }
  | sendFails {kind : EventKind} (hwindow : s.window = .sending kind)
      (hlistens : s.dispatcher.listens = false) :
      Takes s .sends { s with window := .pumping }
  | pumpFails (hwindow : s.window = .pumping) : Takes s .pumpFails { s with window := .gone }
  | receives {kind : EventKind} {channel : Channel EventKind}
      (hdispatcher : s.dispatcher = .receiving)
      (hreceive : s.channel.receive = some (kind, channel)) :
      Takes s .receives { s with dispatcher := .received kind, channel }
  | looksUp {kind : EventKind} (hdispatcher : s.dispatcher = .received kind) :
      Takes s .looksUp { s with
        dispatcher := .calling kind (s.listenerSet kind)
        dispatched := s.dispatched ++ [kind] }
  | calls {kind : EventKind} {id : Nat} {remaining : List Nat}
      (hdispatcher : s.dispatcher = .calling kind (id :: remaining)) :
      Takes s .calls { s with
        dispatcher := .calling kind remaining
        calls := s.calls ++ [(kind, id)] }
  | endsRound {kind : EventKind} (hdispatcher : s.dispatcher = .calling kind []) :
      Takes s .calls { s with dispatcher := .receiving }
  | exits (hdispatcher : s.dispatcher = .receiving) (hqueue : s.channel.queue = [])
      (htx : s.tx = false) (hwindow : s.window.holdsSender = false) :
      Takes s .exits { s with dispatcher := .gone }
  | stops {posted : Bool} (hlock : s.lock = .free) (hrunning : s.running = true) :
      Takes s (.stop posted) { s with
        lock := .joiningWindow
        running := false
        closePosted := s.closePosted || posted }
  | closes (hwindow : s.window = .pumping) (hposted : s.closePosted = true) :
      Takes s .closes { s with window := .gone }
  | joinsWindow (hlock : s.lock = .joiningWindow) (hwindow : s.window.ended = true) :
      Takes s .windowJoined { s with lock := .joiningDispatcher, tx := false }
  | joinsDispatcher (hlock : s.lock = .joiningDispatcher) (hdispatcher : s.dispatcher = .gone) :
      Takes s .dispatcherJoined { s with lock := .free }
  | registers (kind : EventKind) : Takes s (.registers kind) (s.registerListener kind)
  | unsubscribes (kind : EventKind) (id : Nat) :
      Takes s (.unsubscribes kind id) (s.unsubscribe kind id)

theorem transition_same (s : SystemEvents) : s.transition s.suspended = s := by
  obtain ⟨suspended⟩ := s
  cases suspended <;> rfl

theorem transition_other (s : SystemEvents) :
    s.transition (!s.suspended) = { s with
      suspended := !s.suspended
      window := .fired (nextKind s.suspended)
      fired := s.fired ++ [nextKind s.suspended] } := by
  cases hs : s.suspended <;> simp [transition, dedupeTransition, hs, nextKind]

theorem Takes.of_step {s s' : SystemEvents} {e : SystemEvent} (h : s.step e = some s') :
    Takes s e s' := by
  cases e with
  | start =>
      obtain ⟨hlock, rfl⟩ : s.lock = .free ∧ s.start = s' := by simpa [step] using h
      cases hrunning : s.running with
      | true => simpa [SystemEvents.start, hrunning] using (Takes.idle rfl : Takes s _ s)
      | false => simpa [SystemEvents.start, hrunning] using Takes.starts hlock hrunning
  | windowCreated succeeds =>
      obtain ⟨hwindow, rfl⟩ : s.window = .creating ∧
        { s with window := if succeeds then .pumping else .failed } = s' := by
        simpa [step] using h
      cases succeeds with
      | true => exact .created hwindow
      | false => exact .notCreated hwindow
  | startReturns =>
      obtain ⟨hlock, h⟩ : s.lock = .awaitingReady ∧ s.startReturns = some s' := by
        simpa [step] using h
      unfold SystemEvents.startReturns at h
      split at h
      · cases h
      · rename_i hwindow
        obtain rfl := Option.some.inj h
        exact .startFails hlock hwindow
      · rename_i hcreating hfailed
        obtain rfl := Option.some.inj h
        exact .startSucceeds hlock (by simpa using hcreating) (by simpa using hfailed)
  | message message =>
      by_cases hwindow : s.window = .pumping
      · cases htransition : message.transition with
        | none =>
            obtain rfl : s = s' := by simpa [step, hwindow, htransition] using h
            exact .idle rfl
        | some toSuspended =>
            obtain rfl : s.transition toSuspended = s' := by
              simpa [step, hwindow, htransition] using h
            by_cases hsame : toSuspended = s.suspended
            · rw [hsame, transition_same]
              exact .idle rfl
            · obtain rfl : toSuspended = !s.suspended := Bool.eq_not.mpr hsame
              rw [transition_other]
              exact .fires hwindow htransition
      · simp [step, hwindow] at h
  | takesSender =>
      cases hwindow : s.window <;> simp [step, hwindow] at h
      rename_i kind
      subst h
      by_cases htx : s.tx = true
      · rw [if_pos htx]
        exact .takesSender hwindow htx
      · rw [if_neg htx]
        exact .findsNoSender hwindow (by simpa using htx)
  | sends =>
      cases hwindow : s.window <;> simp [step, hwindow] at h
      rename_i kind
      subst h
      by_cases hlistens : s.dispatcher.listens = true
      · rw [if_pos hlistens]
        exact .sends hwindow hlistens
      · rw [if_neg hlistens]
        exact .sendFails hwindow (by simpa using hlistens)
  | pumpFails =>
      obtain ⟨hwindow, rfl⟩ : s.window = .pumping ∧ { s with window := .gone } = s' := by
        simpa [step] using h
      exact .pumpFails hwindow
  | receives =>
      obtain ⟨hdispatcher, kind, channel, hreceive, rfl⟩ : s.dispatcher = .receiving ∧
          ∃ kind channel, s.channel.receive = some (kind, channel) ∧
            { s with dispatcher := .received kind, channel } = s' := by
        simpa [step] using h
      exact .receives hdispatcher hreceive
  | looksUp =>
      cases hdispatcher : s.dispatcher <;> simp [step, hdispatcher] at h
      rename_i kind
      subst h
      exact .looksUp hdispatcher
  | calls =>
      cases hdispatcher : s.dispatcher <;> simp [step, hdispatcher] at h
      rename_i kind remaining
      subst h
      cases remaining with
      | nil => exact .endsRound hdispatcher
      | cons id remaining => exact .calls hdispatcher
  | exits =>
      obtain ⟨hexit, rfl⟩ : s.mayExit = true ∧ { s with dispatcher := .gone } = s' := by
        simpa [step] using h
      obtain ⟨hdispatcher, hqueue, htx, hwindow⟩ := of_decide_eq_true hexit
      exact .exits hdispatcher hqueue htx hwindow
  | stop posted =>
      obtain ⟨hlock, rfl⟩ : s.lock = .free ∧ s.stop posted = s' := by simpa [step] using h
      cases hrunning : s.running with
      | true => simpa [SystemEvents.stop, hrunning] using Takes.stops hlock hrunning
      | false => simpa [SystemEvents.stop, hrunning] using (Takes.idle rfl : Takes s _ s)
  | closes =>
      obtain ⟨⟨hwindow, hposted⟩, rfl⟩ : (s.window = .pumping ∧ s.closePosted = true) ∧
          { s with window := .gone } = s' := by
        simpa [step] using h
      exact .closes hwindow hposted
  | windowJoined =>
      obtain ⟨⟨hlock, hwindow⟩, rfl⟩ : (s.lock = .joiningWindow ∧ s.window.ended = true) ∧
          { s with lock := .joiningDispatcher, tx := false } = s' := by
        simpa [step] using h
      exact .joinsWindow hlock hwindow
  | dispatcherJoined =>
      obtain ⟨⟨hlock, hdispatcher⟩, rfl⟩ :
          (s.lock = .joiningDispatcher ∧ s.dispatcher = .gone) ∧ { s with lock := .free } = s' := by
        simpa [step] using h
      exact .joinsDispatcher hlock hdispatcher
  | registers kind =>
      obtain rfl := Option.some.inj h
      exact .registers kind
  | unsubscribes kind id =>
      obtain rfl := Option.some.inj h
      exact .unsubscribes kind id

/-- The sender is there from the start to the join of the window, and both threads are joined
before the lock is free again. -/
structure Placed (s : SystemEvents) : Prop where
  tx : s.tx = true ↔ s.running = true ∨ s.lock = .awaitingReady ∨ s.lock = .joiningWindow
  running : s.running = true → s.lock = .free
  window : s.window.alive = true → s.tx = true
  creating : s.window = .creating → s.lock = .awaitingReady
  present : s.tx = true → s.window ≠ .absent
  dispatcher : s.tx = true → s.dispatcher.listens = true
  joined : s.lock = .free → s.running = false → s.dispatcher.listens = false
  drained : s.dispatcher.listens = false → s.channel.queue = []
  spawned : s.lock = .joiningDispatcher → s.dispatcher ≠ .absent

theorem Placed.takes {s s' : SystemEvents} {e : SystemEvent} (h : s.Placed) (htakes : Takes s e s') :
    s'.Placed := by
  obtain ⟨htx, hrun, hwin, hcre, hpre, hdis, hjoi, hdra, hspa⟩ := h
  cases htakes with
  | idle => exact ⟨htx, hrun, hwin, hcre, hpre, hdis, hjoi, hdra, hspa⟩
  | starts | created | notCreated | startSucceeds | fires | takesSender
  | findsNoSender | sends | sendFails | pumpFails | receives | looksUp | calls | endsRound
  | exits | stops | closes | joinsDispatcher =>
      constructor <;> simp_all [WindowThread.alive, Dispatcher.listens]
  | startFails hlock hwindow =>
      have hlistens := hdis (htx.mpr (Or.inr (Or.inl hlock)))
      constructor <;> simp_all [WindowThread.alive]
      intro habsent
      simp [habsent, Dispatcher.listens] at hlistens
  | joinsWindow hlock hwindow =>
      have hlistens := hdis (htx.mpr (Or.inr (Or.inr hlock)))
      have hdead := WindowThread.not_alive_of_ended hwindow
      constructor <;> simp_all
      intro habsent
      simp [habsent, Dispatcher.listens] at hlistens
  | registers kind | unsubscribes kind id =>
      cases kind <;> exact ⟨htx, hrun, hwin, hcre, hpre, hdis, hjoi, hdra, hspa⟩

/-- The transitions alternate, the first suspends, and the flag is the last of them. -/
structure Alternates (suspended : Bool) (kinds : List EventKind) : Prop where
  chain : kinds.IsChain (· ≠ ·)
  first : kinds.head? ≠ some .unlockOrResume
  last : suspended = true ↔ kinds.getLast? = some .lockOrSleep

theorem Alternates.concat {suspended : Bool} {kinds : List EventKind}
    (h : Alternates suspended kinds) :
    Alternates (!suspended) (kinds ++ [nextKind suspended]) := by
  have hne (kind : EventKind) (hkind : kinds.getLast? = some kind) :
      kind ≠ nextKind suspended := by
    have hlast := h.last
    rw [hkind] at hlast
    cases suspended <;> cases kind <;> simp_all [nextKind]
  constructor
  · apply List.IsChain.append h.chain (List.isChain_singleton _)
    intro kind hkind kind' hkind'
    obtain rfl : nextKind suspended = kind' := by simpa using hkind'
    exact hne kind hkind
  · have hfirst := h.first
    cases kinds with
    | nil =>
        have hlast := h.last
        simp at hlast
        simp [hlast, nextKind]
    | cons kind kinds => simpa using hfirst
  · cases suspended <;> simp [nextKind]

theorem Alternates.takes {s s' : SystemEvents} {e : SystemEvent}
    (h : Alternates s.suspended s.fired) (htakes : Takes s e s') :
    Alternates s'.suspended s'.fired := by
  cases htakes with
  | fires hwindow htransition => exact h.concat
  | registers kind | unsubscribes kind id => cases kind <;> exact h
  | _ => exact h

/-- A transition that the window thread has not sent. -/
def unsent : WindowThread → List EventKind
  | .fired kind => [kind]
  | .sending kind => [kind]
  | _ => []

/-- A transition that was received, and whose listeners were not looked up. -/
def unlooked : Dispatcher → List EventKind
  | .received kind => [kind]
  | _ => []

theorem Placed.at_rest {s : SystemEvents} (h : s.Placed) (hlock : s.lock = .free)
    (hrunning : s.running = false) :
    unsent s.window = [] ∧ unlooked s.dispatcher = [] ∧ s.channel.receive = none := by
  have hlistens := h.joined hlock hrunning
  have htx : s.tx = false := by
    have htx := h.tx
    simp_all
  refine ⟨?_, ?_, Channel.receive_eq_none.mpr (h.drained hlistens)⟩
  · have hwindow := h.window
    cases hw : s.window <;> simp_all [unsent, WindowThread.alive]
  · cases hd : s.dispatcher <;> simp_all [unlooked, Dispatcher.listens]

/-- What was sent has been received, and nothing else. -/
def Carries (s : SystemEvents) : Prop :=
  ∃ sent, s.fired = sent ++ unsent s.window ∧
    s.channel.Accounts sent (s.dispatched ++ unlooked s.dispatcher)

theorem Carries.takes {s s' : SystemEvents} {e : SystemEvent} (h : s.Carries) (hplaced : s.Placed)
    (htakes : Takes s e s') : s'.Carries := by
  obtain ⟨sent, hsent, haccounts⟩ := h
  cases htakes with
  | idle => exact ⟨sent, hsent, haccounts⟩
  | starts hlock hrunning =>
      obtain ⟨hwindow, hdispatcher, hreceive⟩ := hplaced.at_rest hlock hrunning
      rw [hwindow] at hsent
      rw [hdispatcher] at haccounts
      exact ⟨sent, hsent, haccounts.renew hreceive⟩
  | created hwindow | notCreated hwindow =>
      rw [hwindow] at hsent
      exact ⟨sent, hsent, haccounts⟩
  | startFails | startSucceeds | stops | joinsWindow | joinsDispatcher =>
      exact ⟨sent, hsent, haccounts⟩
  | fires hwindow htransition =>
      rw [hwindow] at hsent
      refine ⟨sent, ?_, haccounts⟩
      simp [hsent, unsent]
  | takesSender hwindow htx =>
      rw [hwindow] at hsent
      exact ⟨sent, hsent, haccounts⟩
  | findsNoSender hwindow htx =>
      have halive := hplaced.window (by simp [hwindow, WindowThread.alive])
      simp [htx] at halive
  | sends hwindow hlistens =>
      rename_i kind
      rw [hwindow] at hsent
      exact ⟨sent ++ [kind], by simp [hsent, unsent], haccounts.send kind⟩
  | sendFails hwindow hlistens =>
      have halive := hplaced.dispatcher (hplaced.window (by simp [hwindow, WindowThread.alive]))
      simp [hlistens] at halive
  | pumpFails hwindow | closes hwindow hposted =>
      rw [hwindow] at hsent
      exact ⟨sent, hsent, haccounts⟩
  | receives hdispatcher hreceive =>
      rw [hdispatcher] at haccounts
      refine ⟨sent, hsent, ?_⟩
      simpa [unlooked] using haccounts.receive hreceive
  | looksUp hdispatcher =>
      rw [hdispatcher] at haccounts
      refine ⟨sent, hsent, ?_⟩
      simpa [unlooked] using haccounts
  | calls hdispatcher | endsRound hdispatcher | exits hdispatcher hqueue htx hwindow =>
      rw [hdispatcher] at haccounts
      exact ⟨sent, hsent, haccounts⟩
  | registers kind | unsubscribes kind id => cases kind <;> exact ⟨sent, hsent, haccounts⟩

/-- The listeners that the round still has to call. -/
def remaining : Dispatcher → List Nat
  | .calling _ remaining => remaining
  | _ => []

/-- An id is given out once, and a round calls nobody twice. -/
structure Listens (s : SystemEvents) : Prop where
  below : ∀ kind, ∀ id ∈ s.listenerSet kind, id < s.nextListenerId
  nodup : ∀ kind, (s.listenerSet kind).Nodup
  round : (remaining s.dispatcher).Nodup

theorem listenerSet_registerListener (s : SystemEvents) (kind kind' : EventKind) :
    (s.registerListener kind).listenerSet kind' =
      if kind' = kind then s.listenerSet kind ++ [s.nextListenerId] else s.listenerSet kind' := by
  cases kind <;> cases kind' <;> rfl

theorem listenerSet_unsubscribe (s : SystemEvents) (kind kind' : EventKind) (id : Nat) :
    (s.unsubscribe kind id).listenerSet kind' =
      if kind' = kind then (s.listenerSet kind).filter (· ≠ id) else s.listenerSet kind' := by
  cases kind <;> cases kind' <;> rfl

theorem Listens.takes {s s' : SystemEvents} {e : SystemEvent} (h : s.Listens)
    (htakes : Takes s e s') : s'.Listens := by
  cases htakes with
  | looksUp hdispatcher => exact ⟨h.below, h.nodup, h.nodup _⟩
  | calls hdispatcher =>
      have hround := h.round
      rw [hdispatcher] at hround
      exact ⟨h.below, h.nodup, (List.nodup_cons.mp hround).2⟩
  | starts | receives | endsRound | exits => exact ⟨h.below, h.nodup, List.nodup_nil⟩
  | registers kind =>
      refine ⟨?_, ?_, ?_⟩
      · intro kind' id hid
        have hnext : (s.registerListener kind).nextListenerId = s.nextListenerId + 1 := by
          cases kind <;> rfl
        rw [listenerSet_registerListener] at hid
        rw [hnext]
        split at hid
        · rcases List.mem_append.mp hid with hid | hid
          · exact Nat.lt_succ_of_lt (h.below kind id hid)
          · simp at hid
            omega
        · exact Nat.lt_succ_of_lt (h.below kind' id hid)
      · intro kind'
        rw [listenerSet_registerListener]
        split
        · apply List.nodup_append.mpr
          refine ⟨h.nodup kind, List.nodup_singleton _, ?_⟩
          intro id hid id' hid'
          have hlt := h.below kind id hid
          simp at hid'
          omega
        · exact h.nodup kind'
      · cases kind <;> exact h.round
  | unsubscribes kind id =>
      refine ⟨?_, ?_, ?_⟩
      · intro kind' id' hid
        have hnext : (s.unsubscribe kind id).nextListenerId = s.nextListenerId := by
          cases kind <;> rfl
        rw [listenerSet_unsubscribe] at hid
        rw [hnext]
        split at hid
        · exact h.below kind id' (List.mem_of_mem_filter hid)
        · exact h.below kind' id' hid
      · intro kind'
        rw [listenerSet_unsubscribe]
        split
        · exact (h.nodup kind).filter _
        · exact h.nodup kind'
      · cases kind <;> exact h.round
  | _ => exact ⟨h.below, h.nodup, h.round⟩

/-- What holds between any two steps. -/
structure Sound (s : SystemEvents) : Prop where
  placed : s.Placed
  alternates : Alternates s.suspended s.fired
  carries : s.Carries
  listens : s.Listens

theorem sound_new : ({} : SystemEvents).Sound where
  placed := by constructor <;> simp [Dispatcher.listens, WindowThread.alive]
  alternates := ⟨List.isChain_nil, by simp, by simp⟩
  carries := ⟨[], rfl, rfl⟩
  listens := ⟨by intro kind; cases kind <;> simp [listenerSet],
    by intro kind; cases kind <;> exact List.nodup_nil, List.nodup_nil⟩

theorem Sound.takes {s s' : SystemEvents} {e : SystemEvent} (h : s.Sound) (htakes : Takes s e s') :
    s'.Sound where
  placed := h.placed.takes htakes
  alternates := h.alternates.takes htakes
  carries := h.carries.takes h.placed htakes
  listens := h.listens.takes htakes

theorem Sound.exec {s s' : SystemEvents} {es : List SystemEvent} (h : s.Sound)
    (hexec : exec step s es = some s') : s'.Sound :=
  exec_invariant (I := Sound) h (fun _ _ _ hs hstep => hs.takes (Takes.of_step hstep)) hexec

theorem Sound.at_rest {s : SystemEvents} (h : s.Sound) (hlock : s.lock = .free)
    (hrunning : s.running = false) :
    s.fired = s.dispatched ∧ remaining s.dispatcher = [] := by
  obtain ⟨hwindow, hdispatcher, hreceive⟩ := h.placed.at_rest hlock hrunning
  obtain ⟨sent, hsent, haccounts⟩ := h.carries
  rw [hwindow, List.append_nil] at hsent
  rw [hdispatcher, List.append_nil] at haccounts
  refine ⟨hsent.trans (haccounts.of_receive_eq_none hreceive), ?_⟩
  have hlistens := h.placed.joined hlock hrunning
  cases hd : s.dispatcher <;> simp_all [Dispatcher.listens, remaining]

/-- Over any starts and stops, locks and suspends collapse into transitions that alternate, the
first of which suspends. Each of them is on its way to the listeners or was dispatched, in the
order in which they fired; and once a stop has returned, all were, and no call is outstanding. -/
theorem transitions_alternate_and_arrive (es : List SystemEvent) (s : SystemEvents)
    (h : exec step {} es = some s) :
    s.fired.IsChain (· ≠ ·) ∧ s.fired.head? ≠ some .unlockOrResume ∧
      (s.suspended = true ↔ s.fired.getLast? = some .lockOrSleep) ∧
      s.fired = s.dispatched ++ unlooked s.dispatcher ++ s.channel.queue ++ unsent s.window ∧
      (s.lock = .free → s.running = false →
        s.fired = s.dispatched ∧ remaining s.dispatcher = []) := by
  have hsound := sound_new.exec h
  refine ⟨hsound.alternates.chain, hsound.alternates.first, hsound.alternates.last, ?_,
    hsound.at_rest⟩
  obtain ⟨sent, hsent, haccounts⟩ := hsound.carries
  rw [hsent, haccounts]

theorem transitions_alternate_and_arrive_stopped : ∃ s,
    exec step {} [.start, .windowCreated true, .startReturns, .message (.wtsSessionChange 7),
      .takesSender, .sends, .message (.powerBroadcast 4), .stop true, .closes, .windowJoined,
      .receives, .looksUp, .calls, .exits, .dispatcherJoined] = some s ∧
      s.lock = .free ∧ s.running = false ∧ s.fired = [.lockOrSleep] ∧ s.dispatched = s.fired := by
  obtain ⟨hchain, hfirst, hlast, harrive, hrest⟩ := transitions_alternate_and_arrive
    [.start, .windowCreated true, .startReturns, .message (.wtsSessionChange 7),
      .takesSender, .sends, .message (.powerBroadcast 4), .stop true, .closes, .windowJoined,
      .receives, .looksUp, .calls, .exits, .dispatcherJoined] _ rfl
  exact ⟨_, rfl, rfl, rfl, by decide, ((hrest rfl rfl).1).symm⟩

end SystemEvents

end YohakuCore
