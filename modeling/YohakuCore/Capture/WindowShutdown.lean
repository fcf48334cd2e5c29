import YohakuCore.Capture.SystemEvents

/-! # Starts and stops return -/

namespace YohakuCore

open Framework

namespace SystemEvents

/-- All listeners, of whom a round calls those of one kind. -/
def listenerCount (s : SystemEvents) : Nat := s.lockListeners.length + s.resumeListeners.length

theorem length_listenerSet_le (s : SystemEvents) (kind : EventKind) :
    (s.listenerSet kind).length ≤ s.listenerCount := by
  cases kind <;> simp [listenerSet, listenerCount]

def lockRank : RunningLock → Nat
  | .free => 0
  | .joiningDispatcher => 1
  | .joiningWindow => 2
  | .awaitingReady => 2

/-- What a transition costs is paid when it leaves the window. -/
def windowRank (listeners : Nat) : WindowThread → Nat
  | .creating => 2
  | .pumping => 1
  | .fired _ => listeners + 7
  | .sending _ => listeners + 6
  | _ => 0

def dispatcherRank (listeners : Nat) : Dispatcher → Nat
  | .receiving => 1
  | .received _ => listeners + 3
  | .calling _ remaining => remaining.length + 2
  | _ => 0

def rank (s : SystemEvents) : Nat :=
  lockRank s.lock + windowRank s.listenerCount s.window +
    s.channel.queue.length * (s.listenerCount + 4) + dispatcherRank s.listenerCount s.dispatcher

/-- A call that waits for the window to close has posted the message. -/
def Posted (s : SystemEvents) : Prop := s.lock = .joiningWindow → s.closePosted = true

theorem Posted.takes {s s' : SystemEvents} {e : SystemEvent} (h : s.Posted)
    (he : e ≠ .stop false) (htakes : Takes s e s') : s'.Posted := by
  cases htakes with
  | stops hlock hrunning =>
      rename_i posted
      cases posted with
      | false => exact absurd rfl he
      | true => simp [Posted]
  | registers kind | unsubscribes kind id => cases kind <;> exact h
  | starts | startFails | startSucceeds | joinsWindow | joinsDispatcher => simp [Posted]
  | _ => exact h

theorem rank_lt {s s' : SystemEvents} {e : SystemEvent} (hplaced : s.Placed)
    (he : e.isOwn = true) (htakes : Takes s e s') : s'.rank < s.rank := by
  cases htakes with
  | idle hrequest => cases e <;> simp [SystemEvent.isRequest, SystemEvent.isOwn] at he hrequest
  | starts | fires | pumpFails | stops | registers | unsubscribes => simp [SystemEvent.isOwn] at he
  | created hwindow | notCreated hwindow | takesSender hwindow | closes hwindow =>
      simp [rank, listenerCount, hwindow, windowRank]
  | startFails hlock | startSucceeds hlock | joinsWindow hlock | joinsDispatcher hlock =>
      simp [rank, listenerCount, hlock, lockRank]
  | findsNoSender hwindow htx =>
      have halive := hplaced.window (by simp [hwindow, WindowThread.alive])
      simp [htx] at halive
  | sends hwindow hlistens =>
      simp [rank, listenerCount, hwindow, windowRank, Nat.add_mul]
      omega
  | sendFails hwindow hlistens =>
      have halive := hplaced.dispatcher (hplaced.window (by simp [hwindow, WindowThread.alive]))
      simp [hlistens] at halive
  | receives hdispatcher hreceive =>
      simp [rank, listenerCount, hdispatcher, dispatcherRank, Channel.receive_eq_some.mp hreceive,
        Nat.add_mul]
      omega
  | looksUp hdispatcher =>
      rename_i kind
      have hle := s.length_listenerSet_le kind
      simp only [listenerCount] at hle
      simp [rank, listenerCount, hdispatcher, dispatcherRank]
      omega
  | calls hdispatcher | endsRound hdispatcher | exits hdispatcher =>
      simp [rank, listenerCount, hdispatcher, dispatcherRank]

/-- No call waits for a thread that cannot move. -/
theorem own_step_of_waiting {s : SystemEvents} (hplaced : s.Placed) (hposted : s.Posted)
    (hlock : s.lock ≠ .free) : ∃ e, e.isOwn = true ∧ (s.step e).isSome = true := by
  cases hl : s.lock with
  | free => exact absurd hl hlock
  | awaitingReady =>
      by_cases hwindow : s.window = .creating
      · exact ⟨.windowCreated true, rfl, by simp [step, hwindow]⟩
      · refine ⟨.startReturns, rfl, ?_⟩
        cases hw : s.window <;> simp_all [step, SystemEvents.startReturns]
  | joiningWindow =>
      have htx : s.tx = true := hplaced.tx.mpr (Or.inr (Or.inr hl))
      cases hw : s.window with
      | absent => exact absurd hw (hplaced.present htx)
      | creating =>
          have hcreating := hplaced.creating hw
          simp [hl] at hcreating
      | pumping => exact ⟨.closes, rfl, by simp [step, hw, hposted hl]⟩
      | fired kind => exact ⟨.takesSender, rfl, by simp [step, hw]⟩
      | sending kind => exact ⟨.sends, rfl, by simp [step, hw]⟩
      | failed | gone => exact ⟨.windowJoined, rfl, by simp [step, hl, hw, WindowThread.ended]⟩
  | joiningDispatcher =>
      have htx : s.tx = false := by
        have htx := hplaced.tx
        have hrunning := hplaced.running
        simp_all
      cases hd : s.dispatcher with
      | absent => exact absurd hd (hplaced.spawned hl)
      | receiving =>
          cases hreceive : s.channel.receive with
          | some received => exact ⟨.receives, rfl, by simp [step, hd, hreceive]⟩
          | none =>
              have hwindow : s.window.holdsSender = false := by
                have hwindow := hplaced.window
                cases hw : s.window <;> simp_all [WindowThread.alive, WindowThread.holdsSender]
              have hqueue := Channel.receive_eq_none.mp hreceive
              exact ⟨.exits, rfl, by simp [step, mayExit, hd, hqueue, htx, hwindow]⟩
      | received kind => exact ⟨.looksUp, rfl, by simp [step, hd]⟩
      | calling kind remaining => exact ⟨.calls, rfl, by simp [step, hd]⟩
      | gone => exact ⟨.dispatcherJoined, rfl, by simp [step, hl, hd]⟩

/-- However the threads are scheduled, a start or a stop returns after at most `rank` steps of its
own and of the threads, those that earlier transitions cost included. Only a close message that was
not posted keeps a stop waiting. -/
theorem starts_and_stops_return (es own : List SystemEvent) {s s' : SystemEvents}
    (hes : .stop false ∉ es) (h : exec step {} es = some s)
    (hown : ∀ e ∈ own, e.isOwn = true) (hexec : exec step s own = some s') :
    own.length ≤ s.rank ∧
      ((∀ e, e.isOwn = true → s'.step e = none) → s'.lock = .free) := by
  have hsound := sound_new.exec h
  have hposted : s.Posted := by
    revert hes
    refine exec_induction (P := fun es s => .stop false ∉ es → s.Posted) ?_ ?_ h
    · intro _
      simp [Posted]
    · intro es s₁ e s₂ _ ih hstep hes
      have he : e ≠ .stop false := fun heq => hes (by simp [heq])
      exact (ih fun hmem => hes (List.mem_append_left _ hmem)).takes he (Takes.of_step hstep)
  have hrun : s'.Sound ∧ s'.Posted ∧ own.length + s'.rank ≤ s.rank := by
    revert hown
    refine exec_induction (P := fun own s' => (∀ e ∈ own, e.isOwn = true) →
      s'.Sound ∧ s'.Posted ∧ own.length + s'.rank ≤ s.rank) ?_ ?_ hexec
    · intro _
      exact ⟨hsound, hposted, by simp⟩
    · intro own s₁ e s₂ _ ih hstep hown
      obtain ⟨hsound, hposted, hle⟩ := ih fun e he => hown e (List.mem_append_left _ he)
      have he : e.isOwn = true := hown e (by simp)
      have htakes := Takes.of_step hstep
      have hlt := rank_lt hsound.placed he htakes
      have hne : e ≠ .stop false := by
        intro heq
        simp [heq, SystemEvent.isOwn] at he
      refine ⟨hsound.takes htakes, hposted.takes hne htakes, ?_⟩
      simp
      omega
  obtain ⟨hsound', hposted', hle⟩ := hrun
  refine ⟨by omega, ?_⟩
  intro hstuck
  by_contra hlock
  obtain ⟨e, he, hstep⟩ := own_step_of_waiting hsound'.placed hposted' hlock
  rw [hstuck e he] at hstep
  cases hstep

/-- A stop of what was started: the window closes, and both threads are joined. -/
theorem starts_and_stops_return_closed : ∃ s s',
    exec step {} [.start, .windowCreated true, .startReturns, .stop true] = some s ∧
      exec step s [.closes, .windowJoined, .exits, .dispatcherJoined] = some s' ∧
      4 ≤ s.rank ∧ ((∀ e, e.isOwn = true → s'.step e = none) → s'.lock = .free) := by
  obtain ⟨hle, hfree⟩ := starts_and_stops_return
    [.start, .windowCreated true, .startReturns, .stop true]
    [.closes, .windowJoined, .exits, .dispatcherJoined] (by decide) rfl (by decide) rfl
  exact ⟨_, _, rfl, rfl, hle, hfree⟩

end SystemEvents

end YohakuCore
