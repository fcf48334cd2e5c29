import YohakuCore.Capture.MediaEvents

/-!
# The handlers on the sessions

A handler is registered exactly while its token is in the slot of the subscription, or in the hands
of the task that holds the lock of the slot.
-/

namespace YohakuCore

open Framework

/-- A registration on the titles that is not in the slot. -/
def EventTask.mediaTokens : EventTask → List (Nat × Nat)
  | .mediaRegistered session mediaToken => (mediaToken.map fun token => (session, token)).toList
  | .registered session mediaToken _ => (mediaToken.map fun token => (session, token)).toList
  | _ => []

/-- A registration on the playback that is not in the slot. -/
def EventTask.playbackTokens : EventTask → List (Nat × Nat)
  | .registered session _ playbackToken =>
      (playbackToken.map fun token => (session, token)).toList
  | _ => []

/-- The task has found `stop` uncalled and may register. -/
def EventTask.registers : EventTask → Bool
  | .checked => true
  | .found _ => true
  | .mediaRegistered _ _ => true
  | .registered _ _ _ => true
  | _ => false

/-- `stop` is through with the slot. -/
def StopCall.hasDetached : StopCall → Bool
  | .uncalled => false
  | .swapped => false
  | .managerDetached => false
  | _ => true

theorem EventTask.not_holds_of_awaits {task : EventTask} (h : task.awaits = true) :
    task.holdsSubscription = false := by
  cases task <;> simp_all [awaits, holdsSubscription]

theorem EventTask.tokens_of_not_holds {task : EventTask} (h : task.holdsSubscription = false) :
    task.mediaTokens = [] ∧ task.playbackTokens = [] ∧ task.registers = false := by
  cases task <;> simp_all [holdsSubscription, mediaTokens, playbackTokens, registers]

namespace MediaEvents

variable {floats : Floats}

def heldMedia (s : MediaEvents) : List (Nat × Nat) :=
  (s.subscription.map SessionSubscription.mediaHandler).toList ++ s.task.mediaTokens

def heldPlayback (s : MediaEvents) : List (Nat × Nat) :=
  (s.subscription.map SessionSubscription.playbackHandler).toList ++ s.task.playbackTokens

structure Registered (s : MediaEvents) : Prop where
  manager : s.managerHandlers = s.managerToken.toList
  media : s.mediaHandlers = s.heldMedia
  playback : s.playbackHandlers = s.heldPlayback
  exclusive : s.task.holdsSubscription = true → s.subscription = none
  stopped : s.stopped = true ↔ s.stopCall ≠ .uncalled
  token : s.managerToken.isSome = true ↔ s.stopCall = .uncalled ∨ s.stopCall = .swapped
  detached : s.stopCall.hasDetached = true → s.subscription = none ∧ s.task.registers = false
  ended : s.stopCall = .joined ∨ s.stopCall = .returned → s.task = .ended

theorem registered_new (current : Option Nat) (properties : Nat → SessionProperties) :
    (new current properties).Registered := by
  constructor <;> simp [new, heldMedia, heldPlayback, EventTask.mediaTokens,
    EventTask.playbackTokens, EventTask.holdsSubscription, StopCall.hasDetached]

/-- What the invariant speaks about, apart from the task. -/
def wiring (s : MediaEvents) :=
  (s.managerHandlers, s.mediaHandlers, s.playbackHandlers, s.subscription, s.managerToken,
    s.stopped, s.stopCall)

theorem Registered.moves {s s' : MediaEvents} (h : s.Registered) (hwiring : s'.wiring = s.wiring)
    (hmedia : s'.task.mediaTokens = s.task.mediaTokens)
    (hplayback : s'.task.playbackTokens = s.task.playbackTokens)
    (hholds : s'.task.holdsSubscription = true → s.subscription = none)
    (hregisters : s'.task.registers = true → s.task.registers = true ∨ s.stopped = false)
    (hended : s.task = .ended → s'.task = .ended) : s'.Registered := by
  simp only [wiring, Prod.mk.injEq] at hwiring
  obtain ⟨hman, hmed, hpla, hsub, htok, hstopped, hcall⟩ := hwiring
  constructor
  · rw [hman, htok, h.manager]
  · rw [hmed, h.media, heldMedia, heldMedia, hsub, hmedia]
  · rw [hpla, h.playback, heldPlayback, heldPlayback, hsub, hplayback]
  · rw [hsub]
    exact hholds
  · rw [hstopped, hcall]
    exact h.stopped
  · rw [htok, hcall]
    exact h.token
  · rw [hcall, hsub]
    intro hdetached
    obtain ⟨hsubscription, hnot⟩ := h.detached hdetached
    refine ⟨hsubscription, ?_⟩
    by_contra hregisters'
    rcases hregisters (by simpa using hregisters') with hregisters | hgoes
    · simp [hnot] at hregisters
    · have huncalled := h.stopped
      rw [hgoes] at huncalled
      have hcall : s.stopCall = .uncalled := by simpa using huncalled
      simp [hcall, StopCall.hasDetached] at hdetached
  · rw [hcall]
    exact fun hjoined => hended (h.ended hjoined)

theorem filter_toList_ne {α : Type*} [DecidableEq α] (held : Option α) :
    (held.toList.filter fun a => held ≠ some a) = [] := by
  cases held <;> simp

theorem Registered.detach_eq {s : MediaEvents} (h : s.Registered)
    (htask : s.task.holdsSubscription = false) :
    s.detach = { s with subscription := none, mediaHandlers := [], playbackHandlers := [] } := by
  obtain ⟨hmediaTokens, hplaybackTokens, -⟩ := EventTask.tokens_of_not_holds htask
  rw [detach, h.media, h.playback, heldMedia, heldPlayback, hmediaTokens, hplaybackTokens,
    List.append_nil, List.append_nil, filter_toList_ne, filter_toList_ne]

theorem Registered.detaches {s : MediaEvents} (h : s.Registered) {task : EventTask}
    {stopCall : StopCall} (htask : task.mediaTokens = [] ∧ task.playbackTokens = [] ∧
      task.registers = false)
    (hstopped : s.stopped = true ↔ stopCall ≠ .uncalled)
    (htoken : s.managerToken.isSome = true ↔ stopCall = .uncalled ∨ stopCall = .swapped)
    (hended : stopCall = .joined ∨ stopCall = .returned → task = .ended) :
    ({ s with
      subscription := none
      mediaHandlers := []
      playbackHandlers := []
      task
      stopCall } : MediaEvents).Registered := by
  obtain ⟨hmedia, hplayback, hregisters⟩ := htask
  constructor
  · exact h.manager
  · simp [heldMedia, hmedia]
  · simp [heldPlayback, hplayback]
  · exact fun _ => rfl
  · exact hstopped
  · exact htoken
  · exact fun _ => ⟨rfl, hregisters⟩
  · exact hended

theorem Registered.commit {s : MediaEvents} (h : s.Registered) {session : Nat}
    {mediaToken playbackToken : Option Nat}
    (htask : s.task = .registered session mediaToken playbackToken) :
    ({ s.commit session mediaToken playbackToken with task := .reading }).Registered := by
  have hsubscription := h.exclusive (by rw [htask]; rfl)
  have hcall : s.stopCall.hasDetached = false := by
    by_contra hdetached
    have hnot := (h.detached (by simpa using hdetached)).2
    simp [htask, EventTask.registers] at hnot
  have hrunning : ¬(s.stopCall = .joined ∨ s.stopCall = .returned) := by
    intro hjoined
    have hended := h.ended hjoined
    simp [htask] at hended
  have hmedia := h.media
  have hplayback := h.playback
  rw [heldMedia, hsubscription, htask] at hmedia
  rw [heldPlayback, hsubscription, htask] at hplayback
  have hman := h.manager
  have hstopped := h.stopped
  have htoken := h.token
  cases mediaToken <;> cases playbackToken <;> constructor <;>
    simp_all [MediaEvents.commit, heldMedia, heldPlayback, EventTask.mediaTokens,
      EventTask.playbackTokens, EventTask.holdsSubscription, SessionSubscription.mediaHandler,
      SessionSubscription.playbackHandler]

theorem Registered.takes {s s' : MediaEvents} {e : MediaEvent} (h : s.Registered)
    (htakes : Takes floats s e s') : s'.Registered := by
  have hsame (hwiring : s'.wiring = s.wiring) (htask : s'.task = s.task) : s'.Registered :=
    h.moves hwiring (by rw [htask]) (by rw [htask]) (by rw [htask]; exact h.exclusive)
      (by rw [htask]; exact Or.inl) (by rw [htask]; exact id)
  cases htakes with
  | currentChanges | sessionChanges | delivers | refuses | asks | listens | unsubscribes
  | stopsAgain => exact hsame rfl rfl
  | receives htask | ends htask | handlesSession htask | handlesProps htask | givesUp htask
  | findsNone htask | findFails htask | startsSession htask | startsNone htask | startFails htask
  | fetches htask | reads htask | keeps htask | changes htask | silences htask | notifies htask
  | looksUp htask | calls htask | endsRound htask =>
      refine h.moves rfl ?_ ?_ ?_ ?_ ?_ <;> simp [htask, EventTask.mediaTokens, EventTask.playbackTokens,
        EventTask.holdsSubscription, EventTask.registers]
  | readFails htask | taskAborted haborted htask =>
      obtain ⟨hmedia, hplayback, -⟩ :=
        EventTask.tokens_of_not_holds (EventTask.not_holds_of_awaits htask)
      have hended : s.task ≠ .ended := by
        intro hended
        simp [hended, EventTask.awaits] at htask
      refine h.moves rfl hmedia.symm hplayback.symm ?_ ?_ ?_ <;>
        simp [hended, EventTask.holdsSubscription, EventTask.registers]
  | checks htask hstopped =>
      have hsubscription := h.exclusive (by rw [htask]; rfl)
      refine h.moves rfl ?_ ?_ ?_ ?_ ?_ <;> simp [htask, hstopped, hsubscription, EventTask.mediaTokens,
        EventTask.playbackTokens]
  | findsSession htask | mediaFails htask | playbackFails htask =>
      have hsubscription := h.exclusive (by rw [htask]; rfl)
      refine h.moves rfl ?_ ?_ ?_ ?_ ?_ <;> simp [htask, hsubscription, EventTask.mediaTokens,
        EventTask.playbackTokens, EventTask.registers]
  | locks htask =>
      rw [h.detach_eq (by rw [htask]; rfl)]
      exact h.detaches ⟨rfl, rfl, rfl⟩ h.stopped h.token (fun hjoined => by
        have hended := h.ended hjoined
        simp [htask] at hended)
  | registersMedia htask | registersPlayback htask =>
      have hsubscription := h.exclusive (by rw [htask]; rfl)
      have hregisters : s.task.registers = true := by rw [htask]; rfl
      have hmedia := h.media
      have hplayback := h.playback
      constructor
      · exact h.manager
      · simp_all [heldMedia, EventTask.mediaTokens]
      · simp_all [heldPlayback, EventTask.playbackTokens]
      · exact fun _ => hsubscription
      · exact h.stopped
      · exact h.token
      · intro hdetached
        have hnot := (h.detached hdetached).2
        simp [hregisters] at hnot
      · intro hjoined
        have hended := h.ended hjoined
        simp [htask] at hended
  | commits htask => exact h.commit htask
  | stops hstopped =>
      have hcall : s.stopCall = .uncalled := by
        have huncalled := h.stopped
        rw [hstopped] at huncalled
        simpa using huncalled
      have htoken := h.token.mpr (Or.inl hcall)
      refine ⟨h.manager, h.media, h.playback, h.exclusive, ?_, ?_, ?_, ?_⟩ <;>
        simp [htoken, StopCall.hasDetached]
  | detachesManager hcall =>
      have hstopped : s.stopped = true := h.stopped.mpr (by simp [hcall])
      have hmanager := h.manager
      refine ⟨?_, h.media, h.playback, h.exclusive, ?_, ?_, ?_, ?_⟩
      · rw [hmanager, filter_toList_ne]
        rfl
      all_goals simp [hstopped, StopCall.hasDetached]
  | detachesSession hcall htask =>
      have htoken := h.token
      rw [h.detach_eq htask]
      exact h.detaches (EventTask.tokens_of_not_holds htask)
        (by simp [h.stopped.mpr (by simp [hcall])]) (by simpa [hcall] using htoken) (by simp)
  | sendsStop hcall | aborts hcall | joins hcall htask | clears hcall =>
      have hstopped : s.stopped = true := h.stopped.mpr (by simp [hcall])
      have htoken := h.token
      have hdetached := h.detached (by rw [hcall]; rfl)
      have hended := h.ended
      refine ⟨h.manager, h.media, h.playback, h.exclusive, ?_, ?_, ?_, ?_⟩ <;>
        simp_all [send]

theorem Registered.exec {current : Option Nat} {properties : Nat → SessionProperties}
    {es : List MediaEvent} {s : MediaEvents}
    (h : exec (step floats) (new current properties) es = some s) : s.Registered :=
  exec_invariant (I := Registered) (registered_new current properties)
    (fun _ _ _ hs hstep => hs.takes (Takes.of_step hstep)) h

theorem Registered.one_session {s : MediaEvents} (h : s.Registered) :
    ∀ media ∈ s.mediaHandlers, ∀ playback ∈ s.playbackHandlers, media.1 = playback.1 := by
  intro media hmedia playback hplayback
  rw [h.media, heldMedia] at hmedia
  rw [h.playback, heldPlayback] at hplayback
  cases htask : s.task.holdsSubscription with
  | false =>
      obtain ⟨hmediaTokens, hplaybackTokens, -⟩ := EventTask.tokens_of_not_holds htask
      rw [hmediaTokens, List.append_nil, Option.mem_toList, Option.map_eq_some_iff] at hmedia
      rw [hplaybackTokens, List.append_nil, Option.mem_toList, Option.map_eq_some_iff] at hplayback
      obtain ⟨held, hheld, rfl⟩ := hmedia
      obtain ⟨held', hheld', rfl⟩ := hplayback
      obtain rfl := Option.some.inj (hheld.symm.trans hheld')
      rfl
  | true =>
      rw [h.exclusive htask] at hmedia hplayback
      cases ht : s.task <;> simp_all [EventTask.mediaTokens, EventTask.playbackTokens]
      obtain ⟨token, -, rfl⟩ := hmedia
      obtain ⟨token', -, rfl⟩ := hplayback
      rfl

variable (floats) in
/-- Whatever registrations and reads fail, and whenever `stop` comes: at most one session has
handlers, at most one of either kind; between two passes of the task they are the pair in the slot;
and when `stop` has returned there are none, on the manager or on any session. -/
theorem handlers_are_those_of_the_slot (current : Option Nat)
    (properties : Nat → SessionProperties) (es : List MediaEvent) (s : MediaEvents)
    (h : exec (step floats) (new current properties) es = some s) :
    (∀ media ∈ s.mediaHandlers, ∀ playback ∈ s.playbackHandlers, media.1 = playback.1) ∧
      s.mediaHandlers.length ≤ 1 ∧ s.playbackHandlers.length ≤ 1 ∧
      (s.task.holdsSubscription = false →
        s.mediaHandlers = (s.subscription.map SessionSubscription.mediaHandler).toList ∧
        s.playbackHandlers = (s.subscription.map SessionSubscription.playbackHandler).toList) ∧
      (s.stopCall = .returned →
        s.managerHandlers = [] ∧ s.mediaHandlers = [] ∧ s.playbackHandlers = []) := by
  have hs := Registered.exec h
  have hfree (htask : s.task.holdsSubscription = false) :
      s.mediaHandlers = (s.subscription.map SessionSubscription.mediaHandler).toList ∧
        s.playbackHandlers = (s.subscription.map SessionSubscription.playbackHandler).toList := by
    obtain ⟨hmedia, hplayback, -⟩ := EventTask.tokens_of_not_holds htask
    rw [hs.media, hs.playback, heldMedia, heldPlayback, hmedia, hplayback]
    simp
  refine ⟨hs.one_session, ?_, ?_, hfree, ?_⟩
  · cases htask : s.task.holdsSubscription with
    | false =>
        simp [(hfree htask).1]
    | true =>
        rw [hs.media, heldMedia, hs.exclusive htask]
        cases s.task <;> simp [EventTask.mediaTokens]
  · cases htask : s.task.holdsSubscription with
    | false =>
        simp [(hfree htask).2]
    | true =>
        rw [hs.playback, heldPlayback, hs.exclusive htask]
        cases s.task <;> simp [EventTask.playbackTokens]
  · intro hreturned
    have hended := hs.ended (Or.inr hreturned)
    have hsubscription := (hs.detached (by rw [hreturned]; rfl)).1
    have htoken : s.managerToken = none := by
      have htoken := hs.token
      simpa [hreturned] using htoken
    obtain ⟨hmedia, hplayback⟩ := hfree (by rw [hended]; rfl)
    rw [hs.manager, htoken, hmedia, hplayback, hsubscription]
    exact ⟨rfl, rfl, rfl⟩

def firstSong : SessionProperties where
  sourceAppUserModelId := "player.exe"
  title := "One"
  artist := "A"
  albumTitle := ""
  endTime := 0
  position := 0
  lastUpdatedTime := 0
  playbackStatus := 4
  playbackType := some 1

/-- `stop` comes between the two registrations, and waits for the slot. -/
def stoppedRun : List MediaEvent :=
  [.receives, .handles, .locks, .checksStopped, .finds true, .registersMedia true, .stops,
    .detachesManager, .registersPlayback true, .commits, .detachesSession, .sendsStop, .aborts,
    .starts true, .taskAborted, .joins, .clears]

theorem handlers_are_those_of_the_slot_stopped : ∃ s : MediaEvents,
    exec (step .integral) (new (some 0) fun _ => firstSong) stoppedRun = some s ∧
      s.managerHandlers = [] ∧ s.mediaHandlers = [] ∧ s.playbackHandlers = [] := by
  refine ⟨_, rfl, ?_⟩
  exact (handlers_are_those_of_the_slot .integral (some 0) (fun _ => firstSong) stoppedRun _
    rfl).2.2.2.2 rfl

end MediaEvents

end YohakuCore
