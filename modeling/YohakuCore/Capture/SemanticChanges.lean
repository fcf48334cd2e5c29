import YohakuCore.Capture.SemanticRounds

/-!
# No semantic change is lost

Either a notification is on its way, or the task has yet to read, or what it has read is what there
is.
-/

namespace YohakuCore

open Framework

/-- The task will look for the current session to register on. -/
def EventTask.willSubscribe : EventTask → Bool
  | .handling .sessionChanged => true
  | .locking => true
  | .detached => true
  | .checked => true
  | _ => false

/-- The session whose registrations are on their way to the slot. -/
def EventTask.subscribing : EventTask → Option Nat
  | .found session => some session
  | .mediaRegistered session _ => some session
  | .registered session _ _ => some session
  | _ => none

/-- The task will start a read. -/
def EventTask.willRead : EventTask → Bool
  | .handling .sessionChanged => true
  | .handling .sessionPropsChanged => true
  | .locking => true
  | .detached => true
  | .checked => true
  | .found _ => true
  | .mediaRegistered _ _ => true
  | .registered _ _ _ => true
  | .reading => true
  | _ => false

theorem EventTask.willRead_of_willSubscribe {task : EventTask} (h : task.willSubscribe = true) :
    task.willRead = true := by
  cases task with
  | handling event => cases event <;> simp_all [willSubscribe, willRead]
  | _ => simp_all [willSubscribe, willRead]

theorem EventTask.willRead_of_subscribing {task : EventTask} {session : Nat}
    (h : task.subscribing = some session) : task.willRead = true := by
  cases task <;> simp_all [subscribing, willRead]

/-- The key of a session that is read at once. -/
def SessionProperties.key (properties : SessionProperties) :
    String × String × String × String × Bool :=
  (properties.sourceAppUserModelId, properties.title, properties.artist, properties.albumTitle,
    decide (properties.playbackStatus = playbackStatusPlaying))

/-- The task has yet to call the listener for the last key. -/
def EventTask.Owes (listener : Nat) : EventTask → Prop
  | .changed => True
  | .notifying => True
  | .calling remaining => listener ∈ remaining
  | _ => False

namespace MediaEvents

variable {floats : Floats}

/-- The key that a read of the current session would have now. -/
def currentKey (s : MediaEvents) : SemanticKey :=
  s.current.map fun session => (s.properties session).key

/-- Raised, or in the channel. -/
def Pending (s : MediaEvents) (event : ProviderEvent) : Prop :=
  event ∈ s.raised ∨ event ∈ s.channel.queue

/-- The handlers are on the current session, or are about to be, or could not be registered. -/
def Attached (s : MediaEvents) : Prop :=
  match s.task.subscribing with
  | some session => s.current = some session
  | none =>
      s.subscription.map SessionSubscription.session = s.current ∨ s.subscriptionFailed = true

def Follows (s : MediaEvents) : Prop :=
  s.Pending .sessionChanged ∨ s.task.willSubscribe = true ∨ s.Attached

/-- What the task has read of the current session is what there is. -/
def UpToDate (s : MediaEvents) : Prop :=
  match s.task with
  | .fetching session => s.current = some session
  | .fetched session title artist album =>
      s.current = some session ∧ (s.properties session).title = title ∧
        (s.properties session).artist = artist ∧ (s.properties session).albumTitle = album
  | .comparing frame => semanticKey frame = s.currentKey ∨ s.readFailed = true
  | _ => s.lastSemanticKey = s.currentKey ∨ s.readFailed = true

def Fresh (s : MediaEvents) : Prop :=
  s.subscriptionFailed = true ∨ (∃ event, s.Pending event) ∨ s.task.willRead = true ∨ s.UpToDate

/-- The provider has not been stopped, and nothing tells the task to end. -/
structure Alive (s : MediaEvents) : Prop where
  raised : .stop ∉ s.raised
  queue : s.stopped = false → .stop ∉ s.channel.queue
  task : s.stopped = false → s.task ≠ .handling .stop ∧ s.task ≠ .ended ∧ s.aborted = false

theorem Alive.takes {s s' : MediaEvents} {e : MediaEvent} (h : s.Alive)
    (hregistered : s.Registered) (htakes : Takes floats s e s') : s'.Alive := by
  obtain ⟨hraised, hqueue, htask⟩ := h
  cases htakes with
  | currentChanges current =>
      refine ⟨?_, hqueue, htask⟩
      simp [hraised]
  | sessionChanges session properties =>
      refine ⟨?_, hqueue, htask⟩
      intro hmem
      rcases List.mem_append.mp hmem with hmem | hmem
      · exact hraised hmem
      · simp only [raisedBy] at hmem
        rcases List.mem_append.mp hmem with hmem | hmem
        all_goals
          split at hmem
          · cases hmem
          · simp at hmem
  | delivers hdelivered =>
      rename_i event
      have hne : event ≠ .stop := fun heq => hraised (heq ▸ hdelivered)
      refine ⟨fun hmem => hraised (List.mem_of_mem_erase hmem), ?_, htask⟩
      intro hstopped
      have hended := (htask hstopped).2.1
      simpa [send, hended, Ne.symm hne] using hqueue hstopped
  | receives hreceiving hreceive =>
      rename_i event channel
      have hchannel := Channel.receive_eq_some.mp hreceive
      refine ⟨hraised, ?_, ?_⟩
      · intro hstopped hmem
        exact hqueue hstopped (by rw [hchannel]; exact List.mem_cons_of_mem _ hmem)
      · intro hstopped
        refine ⟨?_, by simp, (htask hstopped).2.2⟩
        intro hhandling
        obtain rfl : event = .stop := by simpa using hhandling
        exact hqueue hstopped (by rw [hchannel]; exact List.mem_cons_self)
  | ends hhandling hends =>
      refine ⟨hraised, hqueue, ?_⟩
      intro hstopped
      rcases hends with hends | rfl
      · have hgoes : s.stopped = false := hstopped
        simp [hgoes] at hends
      · exact absurd hhandling (htask hstopped).1
  | taskAborted haborted hawaits =>
      refine ⟨hraised, hqueue, ?_⟩
      intro hstopped
      have hnot := (htask hstopped).2.2
      simp [haborted] at hnot
  | stops hstopped => exact ⟨hraised, by simp, by simp⟩
  | sendsStop hcall | aborts hcall | joins hcall hended =>
      have hstopped : s.stopped = true := hregistered.stopped.mpr (by simp [hcall])
      exact ⟨hraised, by simp [send, hstopped], by simp [send, hstopped]⟩
  | commits hregistered =>
      rename_i session mediaToken playbackToken
      cases mediaToken <;> cases playbackToken <;>
        exact ⟨hraised, hqueue, fun hstopped => ⟨by simp, by simp, (htask hstopped).2.2⟩⟩
  | detachesManager | detachesSession | clears | refuses | asks | listens | unsubscribes
  | stopsAgain => exact ⟨hraised, hqueue, htask⟩
  | _ => exact ⟨hraised, hqueue, fun hstopped => ⟨by simp, by simp, (htask hstopped).2.2⟩⟩

theorem Follows.moves {s s' : MediaEvents} (h : s.Follows)
    (hpending : s.Pending .sessionChanged → s'.Pending .sessionChanged)
    (hwill : s.task.willSubscribe = false) (htask : s'.task.subscribing = s.task.subscribing)
    (hcurrent : s'.current = s.current) (hsubscription : s'.subscription = s.subscription)
    (hfailed : s'.subscriptionFailed = s.subscriptionFailed) : s'.Follows := by
  rcases h with h | h | h
  · exact Or.inl (hpending h)
  · simp [hwill] at h
  · refine Or.inr (Or.inr ?_)
    unfold Attached at h ⊢
    rw [htask, hcurrent, hsubscription, hfailed]
    exact h

theorem Registered.managerHandlers_ne_nil {s : MediaEvents} (h : s.Registered)
    (hstopped : s.stopped = false) : s.managerHandlers ≠ [] := by
  have hcall := h.stopped
  rw [hstopped] at hcall
  have htoken := h.token.mpr (Or.inl (by simpa using hcall))
  obtain ⟨token, htoken⟩ := Option.isSome_iff_exists.mp htoken
  simp [h.manager, htoken]

theorem Follows.takes {s s' : MediaEvents} {e : MediaEvent} (h : s.Follows)
    (hregistered : s.Registered) (halive : s.Alive) (hstopped : s'.stopped = false)
    (htakes : Takes floats s e s') : s'.Follows := by
  cases htakes with
  | currentChanges current =>
      obtain ⟨token, hmem⟩ :=
        List.exists_mem_of_ne_nil _ (hregistered.managerHandlers_ne_nil hstopped)
      refine Or.inl (Or.inl (List.mem_append_right _ ?_))
      exact List.mem_map.mpr ⟨token, hmem, rfl⟩
  | sessionChanges session properties =>
      rcases h with h | h | h
      · exact Or.inl (h.imp (List.mem_append_left _) id)
      · exact Or.inr (Or.inl h)
      · exact Or.inr (Or.inr h)
  | delivers hdelivered =>
      rename_i event
      have hended := (halive.task hstopped).2.1
      rcases h with h | h | h
      · refine Or.inl ?_
        rcases h with h | h
        · by_cases heq : event = .sessionChanged
          · exact Or.inr (by simp [send, hended, heq])
          · exact Or.inl ((List.mem_erase_of_ne (Ne.symm heq)).mpr h)
        · exact Or.inr (by simp [send, hended, h])
      · exact Or.inr (Or.inl h)
      · exact Or.inr (Or.inr h)
  | receives htask hreceive =>
      rename_i event channel
      have hchannel := Channel.receive_eq_some.mp hreceive
      by_cases heq : event = .sessionChanged
      · exact Or.inr (Or.inl (by simp [heq, EventTask.willSubscribe]))
      · refine h.moves ?_ (by rw [htask]; rfl) (by rw [htask]; rfl) rfl rfl rfl
        intro hpending
        refine hpending.imp id ?_
        rw [hchannel, List.mem_cons]
        exact fun hmem => hmem.resolve_left (Ne.symm heq)
  | handlesSession | locks | checks => exact Or.inr (Or.inl rfl)
  | findsSession htask hcurrent => exact Or.inr (Or.inr hcurrent)
  | findsNone htask hcurrent =>
      refine Or.inr (Or.inr (Or.inl ?_))
      simp [hcurrent, hregistered.exclusive (by rw [htask]; rfl)]
  | findFails htask => exact Or.inr (Or.inr (Or.inr rfl))
  | commits htask =>
      rename_i session mediaToken playbackToken
      rcases h with h | h | h
      · left
        cases mediaToken <;> cases playbackToken <;> exact h
      · simp [htask, EventTask.willSubscribe] at h
      · have hcurrent : s.current = some session := by
          simpa [Attached, htask, EventTask.subscribing] using h
        refine Or.inr (Or.inr ?_)
        cases mediaToken <;> cases playbackToken <;>
          simp [Attached, commit, EventTask.subscribing, hcurrent]
  | ends htask hends =>
      rcases hends with hends | rfl
      · simp [hends] at hstopped
      · exact absurd htask (halive.task hstopped).1
  | givesUp htask hends | silences htask hends => simp [hends] at hstopped
  | stops => simp at hstopped
  | taskAborted haborted =>
      have hnot := (halive.task hstopped).2.2
      simp [haborted] at hnot
  | readFails hawaits =>
      refine h.moves id ?_ ?_ rfl rfl rfl <;>
        cases ht : s.task <;> simp_all [EventTask.awaits, EventTask.willSubscribe,
          EventTask.subscribing]
  | refuses | asks | listens | unsubscribes | stopsAgain => exact h
  | detachesManager hcall | detachesSession hcall | sendsStop hcall | aborts hcall | joins hcall
  | clears hcall =>
      have hcalled : s.stopped = true := hregistered.stopped.mpr (by simp [hcall])
      simp [hcalled, detach, send] at hstopped
  | handlesProps htask | registersMedia htask | mediaFails htask | registersPlayback htask
  | playbackFails htask | startsSession htask | startsNone htask | startFails htask
  | fetches htask | reads htask | keeps htask | changes htask | notifies htask | looksUp htask
  | calls htask | endsRound htask =>
      exact h.moves id (by rw [htask]; rfl) (by rw [htask]; rfl) rfl rfl rfl

theorem Fresh.moves {s s' : MediaEvents} (h : s.Fresh)
    (hfailed : s'.subscriptionFailed = s.subscriptionFailed) (hraised : s'.raised = s.raised)
    (hchannel : s'.channel = s.channel) (hwill : s.task.willRead = false)
    (hread : s.UpToDate → s'.UpToDate) : s'.Fresh := by
  rcases h with h | ⟨event, h⟩ | h | h
  · exact Or.inl (hfailed.trans h)
  · refine Or.inr (Or.inl ⟨event, ?_⟩)
    unfold Pending
    rw [hraised, hchannel]
    exact h
  · simp [hwill] at h
  · exact Or.inr (Or.inr (Or.inr (hread h)))

theorem raisedBy_eq_nil {s : MediaEvents} {session : Nat} {properties : SessionProperties}
    {mediaToken playbackToken : Nat} (hmedia : (session, mediaToken) ∈ s.mediaHandlers)
    (hplayback : (session, playbackToken) ∈ s.playbackHandlers)
    (h : s.raisedBy session properties = []) :
    (s.properties session).title = properties.title ∧
      (s.properties session).artist = properties.artist ∧
      (s.properties session).albumTitle = properties.albumTitle ∧
      (s.properties session).playbackStatus = properties.playbackStatus := by
  simp only [raisedBy, List.append_eq_nil_iff] at h
  obtain ⟨htitles, hplays⟩ := h
  split at htitles
  next hsame =>
    split at hplays
    next hsame' => exact ⟨hsame.1, hsame.2.1, hsame.2.2, hsame'.1⟩
    next =>
      have hnone := List.filter_eq_nil_iff.mp (List.map_eq_nil_iff.mp hplays)
      exact absurd (decide_eq_true rfl) (hnone _ hplayback)
  next =>
    have hnone := List.filter_eq_nil_iff.mp (List.map_eq_nil_iff.mp htitles)
    exact absurd (decide_eq_true rfl) (hnone _ hmedia)

theorem UpToDate.sessionChanges {s : MediaEvents} (h : s.UpToDate) {session : Nat}
    {properties : SessionProperties}
    (hsource : properties.sourceAppUserModelId = (s.properties session).sourceAppUserModelId)
    (hsame : s.current = some session → (s.properties session).title = properties.title ∧
      (s.properties session).artist = properties.artist ∧
      (s.properties session).albumTitle = properties.albumTitle ∧
      (s.properties session).playbackStatus = properties.playbackStatus)
    (raised : List ProviderEvent) :
    ({ s with properties := Function.update s.properties session properties, raised }).UpToDate := by
  have hkey : (s.current.map fun current =>
      (Function.update s.properties session properties current).key) = s.currentKey := by
    unfold currentKey
    cases hcurrent : s.current with
    | none => rfl
    | some current =>
        by_cases heq : current = session
        · subst heq
          obtain ⟨htitle, hartist, halbum, hplayback⟩ := hsame hcurrent
          simp [SessionProperties.key, hsource, htitle, hartist, halbum, hplayback]
        · simp [heq]
  unfold UpToDate at h ⊢
  cases htask : s.task with
  | fetching current => simpa [htask] using h
  | fetched current title artist album =>
      simp only [htask] at h ⊢
      obtain ⟨hcurrent, htitle, hartist, halbum⟩ := h
      refine ⟨hcurrent, ?_⟩
      by_cases heq : current = session
      · subst heq
        obtain ⟨htitle', hartist', halbum', -⟩ := hsame hcurrent
        simp [← htitle', ← hartist', ← halbum', htitle, hartist, halbum]
      · simp [heq, htitle, hartist, halbum]
  | _ =>
      simp only [htask] at h ⊢
      exact h.imp (fun hkey' => hkey'.trans hkey.symm) id

theorem Fresh.sessionChanges {s : MediaEvents} (h : s.Fresh) (hfollows : s.Follows)
    (hregistered : s.Registered) {session : Nat} {properties : SessionProperties}
    (hsource : properties.sourceAppUserModelId = (s.properties session).sourceAppUserModelId) :
    ({ s with
      properties := Function.update s.properties session properties
      raised := s.raised ++ s.raisedBy session properties }).Fresh := by
  rcases h with h | ⟨event, h⟩ | h | h
  · exact Or.inl h
  · exact Or.inr (Or.inl ⟨event, h.imp (List.mem_append_left _) id⟩)
  · exact Or.inr (Or.inr (Or.inl h))
  · cases hraised : s.raisedBy session properties with
    | cons event rest =>
        refine Or.inr (Or.inl ⟨event, Or.inl ?_⟩)
        simp
    | nil =>
        -- without a notification the session has no handlers, or only its timeline changed
        rcases hfollows with hpending | hwill | hattached
        · exact Or.inr (Or.inl ⟨_, hpending.imp (List.mem_append_left _) id⟩)
        · exact Or.inr (Or.inr (Or.inl (EventTask.willRead_of_willSubscribe hwill)))
        · unfold Attached at hattached
          split at hattached
          next current hsubscribing =>
            exact Or.inr (Or.inr (Or.inl (EventTask.willRead_of_subscribing hsubscribing)))
          next hsubscribing =>
            rcases hattached with hattached | hfailed
            · refine Or.inr (Or.inr (Or.inr (h.sessionChanges hsource ?_ _)))
              intro hcurrent
              rw [hcurrent] at hattached
              obtain ⟨held, hheld, rfl⟩ := Option.map_eq_some_iff.mp hattached
              have hmedia : held.mediaHandler ∈ s.mediaHandlers := by
                rw [hregistered.media, heldMedia, hheld]
                exact List.mem_cons_self
              have hplayback : held.playbackHandler ∈ s.playbackHandlers := by
                rw [hregistered.playback, heldPlayback, hheld]
                exact List.mem_cons_self
              exact raisedBy_eq_nil hmedia hplayback hraised
            · exact Or.inl hfailed

theorem semanticKey_frameOf (properties : SessionProperties) (title artist album : String)
    (htitle : properties.title = title) (hartist : properties.artist = artist)
    (halbum : properties.albumTitle = album) :
    semanticKey (some (frameOf floats properties title artist album)) = some properties.key := by
  subst htitle hartist halbum
  rfl

theorem Fresh.takes {s s' : MediaEvents} {e : MediaEvent} (h : s.Fresh) (hfollows : s.Follows)
    (hregistered : s.Registered) (halive : s.Alive) (hstopped : s'.stopped = false)
    (htakes : Takes floats s e s') : s'.Fresh := by
  cases htakes with
  | currentChanges current =>
      obtain ⟨token, hmem⟩ :=
        List.exists_mem_of_ne_nil _ (hregistered.managerHandlers_ne_nil hstopped)
      refine Or.inr (Or.inl ⟨.sessionChanged, Or.inl (List.mem_append_right _ ?_)⟩)
      exact List.mem_map.mpr ⟨token, hmem, rfl⟩
  | sessionChanges session properties hsource => exact h.sessionChanges hfollows hregistered hsource
  | delivers hdelivered =>
      rename_i event
      have hended := (halive.task hstopped).2.1
      exact Or.inr (Or.inl ⟨event, Or.inr (by simp [send, hended])⟩)
  | receives htask hreceive =>
      rename_i event channel
      refine Or.inr (Or.inr (Or.inl ?_))
      cases event with
      | stop =>
          have hmem := halive.queue hstopped
          simp [Channel.receive_eq_some.mp hreceive] at hmem
      | sessionChanged | sessionPropsChanged => rfl
  | ends htask hends =>
      rcases hends with hends | rfl
      · simp [hends] at hstopped
      · exact absurd htask (halive.task hstopped).1
  | handlesSession | handlesProps | locks | checks | findsSession | findsNone | findFails
  | registersMedia | mediaFails | registersPlayback | playbackFails | commits =>
      exact Or.inr (Or.inr (Or.inl rfl))
  | givesUp htask hends | silences htask hends => simp [hends] at hstopped
  | startsSession htask hcurrent => exact Or.inr (Or.inr (Or.inr hcurrent))
  | startsNone htask hcurrent =>
      refine Or.inr (Or.inr (Or.inr (Or.inl ?_)))
      simp [currentKey, hcurrent, semanticKey]
  | startFails htask => exact Or.inr (Or.inr (Or.inr (Or.inr rfl)))
  | fetches htask =>
      rename_i session
      refine h.moves rfl rfl rfl (by rw [htask]; rfl) ?_
      intro hread
      have hcurrent : s.current = some session := by simpa only [UpToDate, htask] using hread
      exact ⟨hcurrent, rfl, rfl, rfl⟩
  | readFails hawaits =>
      refine h.moves rfl rfl rfl ?_ (fun _ => Or.inr rfl)
      cases ht : s.task <;> simp_all [EventTask.awaits, EventTask.willRead]
  | reads htask =>
      refine h.moves rfl rfl rfl (by rw [htask]; rfl) ?_
      intro hread
      simp only [UpToDate, htask] at hread
      obtain ⟨hcurrent, htitle, hartist, halbum⟩ := hread
      refine Or.inl ?_
      rw [semanticKey_frameOf _ _ _ _ htitle hartist halbum]
      simp [currentKey, hcurrent]
  | keeps htask hkey | changes htask hkey =>
      refine h.moves rfl rfl rfl (by rw [htask]; rfl) ?_
      intro hread
      simp only [UpToDate, htask] at hread
      simpa only [UpToDate, currentKey, hkey] using hread
  | notifies htask | looksUp htask | calls htask | endsRound htask =>
      refine h.moves rfl rfl rfl (by rw [htask]; rfl) ?_
      intro hread
      simpa only [UpToDate, currentKey, htask] using hread
  | stops => simp at hstopped
  | taskAborted haborted =>
      have hnot := (halive.task hstopped).2.2
      simp [haborted] at hnot
  | refuses | asks | listens | unsubscribes | stopsAgain => exact h
  | detachesManager hcall | detachesSession hcall | sendsStop hcall | aborts hcall | joins hcall
  | clears hcall =>
      have hcalled : s.stopped = true := hregistered.stopped.mpr (by simp [hcall])
      simp [hcalled, detach, send] at hstopped

/-- The step calls the listener. -/
def callsNext (listener : Nat) (s : MediaEvents) : MediaEvent → Bool
  | .calls => s.task.remaining.head? = some listener
  | _ => false

theorem Takes.running {s s' : MediaEvents} {e : MediaEvent} (h : Takes floats s e s')
    (hstopped : s'.stopped = false) : s.stopped = false := by
  cases h with
  | commits htask =>
      rename_i session mediaToken playbackToken
      cases mediaToken <;> cases playbackToken <;> exact hstopped
  | stops hrunning => exact hrunning
  | _ => exact hstopped

theorem changed_of_takes {s s' : MediaEvents} {e : MediaEvent} (h : Takes floats s e s')
    (hchange : s'.lastSemanticKey ≠ s.lastSemanticKey) : s'.task = .changed := by
  cases h with
  | changes => rfl
  | commits htask =>
      rename_i session mediaToken playbackToken
      cases mediaToken <;> cases playbackToken <;> exact absurd rfl hchange
  | _ => exact absurd rfl hchange

theorem owes_takes {s s' : MediaEvents} {e : MediaEvent} {listener : Nat}
    (howes : s.task.Owes listener) (hlistener : listener ∈ s.listeners)
    (hrunning : s'.stopped = false) (h : Takes floats s e s') :
    s.callsNext listener e = true ∨ s'.task.Owes listener := by
  cases h with
  | looksUp htask horder => exact Or.inr (horder.mem_iff.mpr hlistener)
  | calls htask =>
      rename_i id remaining
      rw [htask] at howes
      rcases List.mem_cons.mp howes with rfl | hlater
      · exact Or.inl (by simp [callsNext, EventTask.remaining, htask])
      · exact Or.inr hlater
  | endsRound htask =>
      rw [htask] at howes
      exact absurd howes List.not_mem_nil
  | silences htask hstopped => simp [hstopped] at hrunning
  | notifies htask => exact Or.inr trivial
  | readFails hawaits | taskAborted haborted hawaits =>
      cases ht : s.task <;> simp_all [EventTask.awaits, EventTask.Owes]
  | commits htask =>
      rw [htask] at howes
      exact howes.elim
  | receives htask | ends htask | handlesSession htask | handlesProps htask | locks htask
  | givesUp htask | checks htask | findsSession htask | findsNone htask | findFails htask
  | registersMedia htask | mediaFails htask | registersPlayback htask | playbackFails htask
  | startsSession htask | startsNone htask | startFails htask | fetches htask | reads htask
  | keeps htask | changes htask =>
      rw [htask] at howes
      exact howes.elim
  | _ => exact Or.inr howes

/-- A listener that stays is called for the last key, or has yet to be. -/
theorem called_since {s₁ s : MediaEvents} {events : List MediaEvent} {listener : Nat}
    (hregistered : s₁.Registered) (howes : s₁.task.Owes listener)
    (hlistener : listener ∈ s₁.listeners) (h : exec (step floats) s₁ events = some s)
    (hrunning : s.stopped = false) (hstays : .unsubscribes listener ∉ events) :
    s.task.Owes listener ∨
      Happened (step floats) s₁ events fun t e _ => t.callsNext listener e = true := by
  have hrun := exec_induction
    (P := fun events s => .unsubscribes listener ∉ events → s.stopped = false →
      s.Registered ∧ (listener ∈ s.listeners ∨ s.task = .ended) ∧ (s.task.Owes listener ∨
        Happened (step floats) s₁ events fun t e _ => t.callsNext listener e = true))
    (fun _ _ => ⟨hregistered, Or.inl hlistener, Or.inl howes⟩) ?_ h hstays hrunning
  · exact hrun.2.2
  · intro events s₂ e s₃ hs₂ ih hstep hstays hrunning
    rw [List.mem_append, List.mem_singleton, not_or] at hstays
    have htakes := Takes.of_step hstep
    obtain ⟨hregistered, hmem, howes⟩ := ih hstays.1 (htakes.running hrunning)
    refine ⟨hregistered.takes htakes, stays_takes hregistered hmem (Ne.symm hstays.2) htakes, ?_⟩
    rcases howes with howes | hcalled
    · rcases hmem with hmem | hended
      · rcases owes_takes howes hmem hrunning htakes with hcalls | hstill
        · exact Or.inr (Happened.last hs₂ hstep hcalls)
        · exact Or.inl hstill
      · rw [hended] at howes
        exact howes.elim
    · exact Or.inr (hcalled.append_right [e])

/-- What holds between any two steps of a provider that has not been stopped. -/
structure Watches (s : MediaEvents) : Prop where
  registered : s.Registered
  alive : s.Alive
  follows : s.stopped = false → s.Follows
  fresh : s.stopped = false → s.Fresh

theorem watches_new (current : Option Nat) (properties : Nat → SessionProperties) :
    (new current properties).Watches where
  registered := registered_new current properties
  alive := ⟨by simp [new], by simp [new], by simp [new]⟩
  follows := fun _ => Or.inl (Or.inr List.mem_cons_self)
  fresh := fun _ => Or.inr (Or.inl ⟨.sessionChanged, Or.inr List.mem_cons_self⟩)

theorem Watches.takes {s s' : MediaEvents} {e : MediaEvent} (h : s.Watches)
    (htakes : Takes floats s e s') : s'.Watches where
  registered := h.registered.takes htakes
  alive := h.alive.takes h.registered htakes
  follows := fun hstopped =>
    (h.follows (htakes.running hstopped)).takes h.registered h.alive hstopped htakes
  fresh := fun hstopped =>
    (h.fresh (htakes.running hstopped)).takes (h.follows (htakes.running hstopped)) h.registered
      h.alive hstopped htakes

variable (floats) in
/-- However sessions come, go and change while the task registers and reads: when no notification
is on its way and the task waits for one, unless its last subscription or its last read failed, the
handlers are on the current session, the key is what a read would give, and every key up to this
one has been announced. -/
theorem no_semantic_change_is_lost (current : Option Nat) (properties : Nat → SessionProperties)
    (es : List MediaEvent) (s : MediaEvents)
    (h : exec (step floats) (new current properties) es = some s) (hstopped : s.stopped = false)
    (htask : s.task = .receiving) (hraised : s.raised = []) (hqueue : s.channel.queue = [])
    (hsubscription : s.subscriptionFailed = false) (hread : s.readFailed = false) :
    s.subscription.map SessionSubscription.session = s.current ∧
      s.lastSemanticKey = s.currentKey ∧ s.announced = s.keys ∧
      s.announced.getLast?.getD none = s.currentKey := by
  have hs : s.Watches := exec_invariant (I := Watches) (watches_new current properties)
    (fun _ _ _ hs hstep => hs.takes (Takes.of_step hstep)) h
  have hannounces := Announces.exec h
  have hnothing (event : ProviderEvent) : ¬ s.Pending event := by
    simp [Pending, hraised, hqueue]
  have hsession : s.subscription.map SessionSubscription.session = s.current := by
    rcases hs.follows hstopped with hpending | hwill | hattached
    · exact absurd hpending (hnothing _)
    · simp [htask, EventTask.willSubscribe] at hwill
    · simpa [Attached, htask, EventTask.subscribing, hsubscription] using hattached
  have hkey : s.lastSemanticKey = s.currentKey := by
    rcases hs.fresh hstopped with hfailed | ⟨event, hpending⟩ | hwill | hupToDate
    · simp [hsubscription] at hfailed
    · exact absurd hpending (hnothing event)
    · simp [htask, EventTask.willRead] at hwill
    · simpa [UpToDate, htask, hread] using hupToDate
  have hkeys : s.announced = s.keys := by
    have hkeys := hannounces.inPass (Or.inl hstopped)
    simpa [unannounced, htask, eq_comm] using hkeys
  exact ⟨hsession, hkey, hkeys, by rw [hkeys, ← hannounces.last, hkey]⟩

/-- The title changes after it was read and before the playback is. -/
def restlessRun : List MediaEvent :=
  [.receives, .handles, .locks, .checksStopped, .finds true, .registersMedia true,
    .registersPlayback true, .commits, .starts true, .fetches, .sessionChanges 0 secondSong,
    .reads, .compares, .checksChange, .looksUp [], .calls] ++ nextPass

/-- The first key is stale; the notification brings the second. -/
theorem no_semantic_change_is_lost_restless : ∃ s : MediaEvents,
    exec (step .integral) (new (some 0) fun _ => firstSong) restlessRun = some s ∧
      s.announced.getLast?.getD none = s.currentKey := by
  refine ⟨_, rfl, ?_⟩
  exact (no_semantic_change_is_lost .integral (some 0) (fun _ => firstSong) restlessRun _
    rfl rfl rfl rfl rfl rfl rfl).2.2.2

end MediaEvents

end YohakuCore
