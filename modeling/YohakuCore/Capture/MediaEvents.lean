import YohakuCore.Capture.Media
import YohakuCore.Framework.Channel
import YohakuCore.Framework.Execution
import Mathlib.Data.List.Perm.Basic

/-!
# The event task of the media provider

Handlers on the session manager and on the current session send into a channel; the event task
moves the registrations to the current session, reads it, and calls the listeners when its semantic
key has changed. The system changes the sessions, raises events, and lets calls fail as it likes.
`stop` runs beside the task, and the two meet at the lock of the subscription.
-/

namespace YohakuCore

open Framework

/-- The raw source, title, artist and album, and whether it plays; `none` without a session. -/
abbrev SemanticKey := Option (String × String × String × String × Bool)

def semanticKey (frame : Option RawFrame) : SemanticKey :=
  frame.map fun f => (f.sourceAppId, f.title, f.artist, f.album, f.playing)

inductive ProviderEvent where
  | sessionChanged
  | sessionPropsChanged
  | stop
  deriving DecidableEq

/-- Tokens are removed from the session they were registered on. -/
structure SessionSubscription where
  session : Nat
  mediaPropertiesToken : Nat
  playbackInfoToken : Nat
  deriving DecidableEq

def SessionSubscription.mediaHandler (held : SessionSubscription) : Nat × Nat :=
  (held.session, held.mediaPropertiesToken)

def SessionSubscription.playbackHandler (held : SessionSubscription) : Nat × Nat :=
  (held.session, held.playbackInfoToken)

/-- Where the task is: in its loop, in `resubscribe_session_events` (from `detached` to `registered`
under the lock of the subscription), or in `recompute_semantic_key`. -/
inductive EventTask where
  | receiving
  | handling (event : ProviderEvent)
  | locking
  | detached
  | checked
  | found (session : Nat)
  | mediaRegistered (session : Nat) (mediaToken : Option Nat)
  | registered (session : Nat) (mediaToken playbackToken : Option Nat)
  | reading
  | fetching (session : Nat)
  | fetched (session : Nat) (title artist album : String)
  | comparing (frame : Option RawFrame)
  | changed
  | notifying
  | calling (remaining : List Nat)
  | ended
  deriving DecidableEq

/-- Where the call of `stop` is that found the provider running. -/
inductive StopCall where
  | uncalled
  | swapped
  | managerDetached
  | sessionDetached
  | stopSent
  | joining
  | joined
  | returned
  deriving DecidableEq

/-- The first part is the system's: sessions, handlers, and events that were raised and whose
handlers have not sent yet. `keys` and `announced` are the keys so far, and those for which
listeners were looked up; the two flags tell of the last subscription and of the last read. -/
structure MediaEvents where
  current : Option Nat
  properties : Nat → SessionProperties
  managerHandlers : List Nat := [0]
  mediaHandlers : List (Nat × Nat) := []
  playbackHandlers : List (Nat × Nat) := []
  nextToken : Nat := 1
  raised : List ProviderEvent := []
  stopped : Bool := false
  channel : Channel ProviderEvent := ⟨[.sessionChanged]⟩
  subscription : Option SessionSubscription := none
  managerToken : Option Nat := some 0
  lastSemanticKey : SemanticKey := none
  listeners : List Nat := []
  registering : Nat := 0
  nextListenerId : Nat := 0
  task : EventTask := .receiving
  aborted : Bool := false
  stopCall : StopCall := .uncalled
  keys : List SemanticKey := []
  announced : List SemanticKey := []
  calls : List Nat := []
  subscriptionFailed : Bool := false
  readFailed : Bool := false

inductive MediaEvent where
  | currentSessionChanges (current : Option Nat)
  | sessionChanges (session : Nat) (properties : SessionProperties)
  | delivers (event : ProviderEvent)
  | receives
  | handles
  | locks
  | checksStopped
  | finds (succeeds : Bool)
  | registersMedia (succeeds : Bool)
  | registersPlayback (succeeds : Bool)
  | commits
  | starts (succeeds : Bool)
  | fetches
  | readFails
  | reads
  | compares
  | checksChange
  | looksUp (order : List Nat)
  | calls
  | asksToListen
  | listens
  | unsubscribes (id : Nat)
  | stops
  | detachesManager
  | detachesSession
  | sendsStop
  | aborts
  | taskAborted
  | joins
  | clears
  deriving DecidableEq

/-- The task holds the lock of the subscription. -/
def EventTask.holdsSubscription : EventTask → Bool
  | .detached => true
  | .checked => true
  | .found _ => true
  | .mediaRegistered _ _ => true
  | .registered _ _ _ => true
  | _ => false

/-- An abort takes effect where the task awaits. -/
def EventTask.awaits : EventTask → Bool
  | .receiving => true
  | .fetching _ => true
  | .fetched _ _ _ _ => true
  | _ => false

namespace MediaEvents

/-- The state that `new` leaves; the nudge is in the channel. -/
def new (current : Option Nat) (properties : Nat → SessionProperties) : MediaEvents :=
  { current, properties }

/-- Titles and playback are announced by handlers of their own, the timeline by none. -/
def raisedBy (s : MediaEvents) (session : Nat) (properties : SessionProperties) :
    List ProviderEvent :=
  let old := s.properties session
  let media := s.mediaHandlers.filter (·.1 = session)
  let playback := s.playbackHandlers.filter (·.1 = session)
  (if old.title = properties.title ∧ old.artist = properties.artist ∧
      old.albumTitle = properties.albumTitle then [] else media.map fun _ => .sessionPropsChanged) ++
    (if old.playbackStatus = properties.playbackStatus ∧
      old.playbackType = properties.playbackType then []
    else playback.map fun _ => .sessionPropsChanged)

/-- A send fails silently once the task has dropped the receiver. -/
def send (s : MediaEvents) (event : ProviderEvent) : MediaEvents :=
  { s with channel := if s.task = .ended then s.channel else s.channel.send event }

/-- `SessionSubscription::detach` of what is in the slot. -/
def detach (s : MediaEvents) : MediaEvents :=
  { s with
    subscription := none
    mediaHandlers := s.mediaHandlers.filter fun handler =>
      s.subscription.map SessionSubscription.mediaHandler ≠ some handler
    playbackHandlers := s.playbackHandlers.filter fun handler =>
      s.subscription.map SessionSubscription.playbackHandler ≠ some handler }

/-- Both registrations, or none. -/
def commit (s : MediaEvents) (session : Nat) : Option Nat → Option Nat → MediaEvents
  | some mediaPropertiesToken, some playbackInfoToken => { s with
      subscription := some { session, mediaPropertiesToken, playbackInfoToken }
      subscriptionFailed := false }
  | some token, none => { s with
      mediaHandlers := s.mediaHandlers.filter (· ≠ (session, token))
      subscriptionFailed := true }
  | none, some token => { s with
      playbackHandlers := s.playbackHandlers.filter (· ≠ (session, token))
      subscriptionFailed := true }
  | none, none => { s with subscriptionFailed := true }

/-- What is read of a session whose titles came first. -/
def frameOf (floats : Floats) (properties : SessionProperties) (title artist album : String) :
    RawFrame :=
  readRawFrame floats { properties with title, artist, albumTitle := album }

variable (floats : Floats)

/-- The steps of the event task. -/
def taskStep (s : MediaEvents) : EventTask → MediaEvent → Option MediaEvents
  | .receiving, .receives =>
      s.channel.receive.map fun (event, channel) => { s with task := .handling event, channel }
  | .handling event, .handles =>
      some { s with task :=
        if s.stopped then .ended
        else match event with
          | .stop => .ended
          | .sessionChanged => .locking
          | .sessionPropsChanged => .reading }
  | .locking, .locks => some { s.detach with task := .detached }
  | .detached, .checksStopped =>
      some { s with task := if s.stopped then .reading else .checked }
  | .checked, .finds succeeds =>
      match s.current with
      | some session =>
          if succeeds then some { s with task := .found session }
          else some { s with task := .reading, subscriptionFailed := true }
      | none => some { s with task := .reading, subscriptionFailed := !succeeds }
  | .found session, .registersMedia succeeds =>
      if succeeds then
        some { s with
          task := .mediaRegistered session (some s.nextToken)
          mediaHandlers := s.mediaHandlers ++ [(session, s.nextToken)]
          nextToken := s.nextToken + 1 }
      else some { s with task := .mediaRegistered session none }
  | .mediaRegistered session mediaToken, .registersPlayback succeeds =>
      if succeeds then
        some { s with
          task := .registered session mediaToken (some s.nextToken)
          playbackHandlers := s.playbackHandlers ++ [(session, s.nextToken)]
          nextToken := s.nextToken + 1 }
      else some { s with task := .registered session mediaToken none }
  | .registered session mediaToken playbackToken, .commits =>
      some { s.commit session mediaToken playbackToken with task := .reading }
  | .reading, .starts succeeds =>
      if succeeds then
        match s.current with
        | some session => some { s with task := .fetching session }
        | none => some { s with task := .comparing none, readFailed := false }
      else some { s with task := .comparing none, readFailed := true }
  | .fetching session, .fetches =>
      let { title, artist, albumTitle, .. } := s.properties session
      some { s with task := .fetched session title artist albumTitle }
  | .fetching _, .readFails => some { s with task := .receiving, readFailed := true }
  | .fetched _ _ _ _, .readFails => some { s with task := .receiving, readFailed := true }
  | .fetched session title artist album, .reads =>
      some { s with
        task := .comparing (some (frameOf floats (s.properties session) title artist album))
        readFailed := false }
  | .comparing frame, .compares =>
      let key := semanticKey frame
      if s.lastSemanticKey = key then some { s with task := .receiving }
      else some { s with task := .changed, lastSemanticKey := key, keys := s.keys ++ [key] }
  | .changed, .checksChange =>
      some { s with task := if s.stopped then .receiving else .notifying }
  | .notifying, .looksUp order =>
      if order.Perm s.listeners then
        some { s with
          task := .calling order
          announced := s.announced ++ [s.lastSemanticKey] }
      else none
  | .calling [], .calls => some { s with task := .receiving }
  | .calling (id :: remaining), .calls =>
      some { s with task := .calling remaining, calls := s.calls ++ [id] }
  | task, .taskAborted => if s.aborted ∧ task.awaits then some { s with task := .ended } else none
  | _, _ => none

/-- The steps of `stop` after its swap. -/
def stopStep (s : MediaEvents) : StopCall → MediaEvent → Option MediaEvents
  | .swapped, .detachesManager =>
      some { s with
        stopCall := .managerDetached
        managerToken := none
        managerHandlers := s.managerHandlers.filter fun token => s.managerToken ≠ some token }
  | .managerDetached, .detachesSession =>
      if s.task.holdsSubscription then none
      else some { s.detach with stopCall := .sessionDetached }
  | .sessionDetached, .sendsStop => some { s.send .stop with stopCall := .stopSent }
  | .stopSent, .aborts => some { s with stopCall := .joining, aborted := true }
  | .joining, .joins => if s.task = .ended then some { s with stopCall := .joined } else none
  | .joined, .clears => some { s with stopCall := .returned, listeners := [] }
  | _, _ => none

def step (s : MediaEvents) : MediaEvent → Option MediaEvents
  | .currentSessionChanges current =>
      some { s with
        current
        raised := s.raised ++ s.managerHandlers.map fun _ => .sessionChanged }
  | .sessionChanges session properties =>
      if properties.sourceAppUserModelId = (s.properties session).sourceAppUserModelId then
        some { s with
          properties := Function.update s.properties session properties
          raised := s.raised ++ s.raisedBy session properties }
      else none
  | .delivers event =>
      if event ∈ s.raised then some { s.send event with raised := s.raised.erase event } else none
  | .asksToListen =>
      some (if s.stopped then s else { s with registering := s.registering + 1 })
  | .listens =>
      if 0 < s.registering then
        some { s with
          registering := s.registering - 1
          listeners := s.listeners ++ [s.nextListenerId]
          nextListenerId := s.nextListenerId + 1 }
      else none
  | .unsubscribes id => some { s with listeners := s.listeners.filter (· ≠ id) }
  | .stops =>
      some (if s.stopped then s else { s with stopped := true, stopCall := .swapped })
  | event => (s.taskStep floats s.task event).or (s.stopStep s.stopCall event)

/-- What the steps come to. -/
inductive Takes (s : MediaEvents) : MediaEvent → MediaEvents → Prop
  | currentChanges (current : Option Nat) :
      Takes s (.currentSessionChanges current) { s with
        current
        raised := s.raised ++ s.managerHandlers.map fun _ => .sessionChanged }
  | sessionChanges (session : Nat) (properties : SessionProperties)
      (hsource : properties.sourceAppUserModelId = (s.properties session).sourceAppUserModelId) :
      Takes s (.sessionChanges session properties) { s with
        properties := Function.update s.properties session properties
        raised := s.raised ++ s.raisedBy session properties }
  | delivers {event : ProviderEvent} (hraised : event ∈ s.raised) :
      Takes s (.delivers event) { s.send event with raised := s.raised.erase event }
  | refuses (hstopped : s.stopped = true) : Takes s .asksToListen s
  | asks (hstopped : s.stopped = false) :
      Takes s .asksToListen { s with registering := s.registering + 1 }
  | listens :
      Takes s .listens { s with
        registering := s.registering - 1
        listeners := s.listeners ++ [s.nextListenerId]
        nextListenerId := s.nextListenerId + 1 }
  | unsubscribes (id : Nat) :
      Takes s (.unsubscribes id) { s with listeners := s.listeners.filter (· ≠ id) }
  | stopsAgain (hstopped : s.stopped = true) : Takes s .stops s
  | stops (hstopped : s.stopped = false) :
      Takes s .stops { s with stopped := true, stopCall := .swapped }
  | receives {event : ProviderEvent} {channel : Channel ProviderEvent}
      (htask : s.task = .receiving) (hreceive : s.channel.receive = some (event, channel)) :
      Takes s .receives { s with task := .handling event, channel }
  | ends {event : ProviderEvent} (htask : s.task = .handling event)
      (hends : s.stopped = true ∨ event = .stop) : Takes s .handles { s with task := .ended }
  | handlesSession (htask : s.task = .handling .sessionChanged) (hstopped : s.stopped = false) :
      Takes s .handles { s with task := .locking }
  | handlesProps (htask : s.task = .handling .sessionPropsChanged) (hstopped : s.stopped = false) :
      Takes s .handles { s with task := .reading }
  | locks (htask : s.task = .locking) : Takes s .locks { s.detach with task := .detached }
  | givesUp (htask : s.task = .detached) (hstopped : s.stopped = true) :
      Takes s .checksStopped { s with task := .reading }
  | checks (htask : s.task = .detached) (hstopped : s.stopped = false) :
      Takes s .checksStopped { s with task := .checked }
  | findsSession {session : Nat} (htask : s.task = .checked)
      (hcurrent : s.current = some session) :
      Takes s (.finds true) { s with task := .found session }
  | findsNone (htask : s.task = .checked) (hcurrent : s.current = none) :
      Takes s (.finds true) { s with task := .reading, subscriptionFailed := false }
  | findFails (htask : s.task = .checked) :
      Takes s (.finds false) { s with task := .reading, subscriptionFailed := true }
  | registersMedia {session : Nat} (htask : s.task = .found session) :
      Takes s (.registersMedia true) { s with
        task := .mediaRegistered session (some s.nextToken)
        mediaHandlers := s.mediaHandlers ++ [(session, s.nextToken)]
        nextToken := s.nextToken + 1 }
  | mediaFails {session : Nat} (htask : s.task = .found session) :
      Takes s (.registersMedia false) { s with task := .mediaRegistered session none }
  | registersPlayback {session : Nat} {mediaToken : Option Nat}
      (htask : s.task = .mediaRegistered session mediaToken) :
      Takes s (.registersPlayback true) { s with
        task := .registered session mediaToken (some s.nextToken)
        playbackHandlers := s.playbackHandlers ++ [(session, s.nextToken)]
        nextToken := s.nextToken + 1 }
  | playbackFails {session : Nat} {mediaToken : Option Nat}
      (htask : s.task = .mediaRegistered session mediaToken) :
      Takes s (.registersPlayback false) { s with task := .registered session mediaToken none }
  | commits {session : Nat} {mediaToken playbackToken : Option Nat}
      (htask : s.task = .registered session mediaToken playbackToken) :
      Takes s .commits { s.commit session mediaToken playbackToken with task := .reading }
  | startsSession {session : Nat} (htask : s.task = .reading)
      (hcurrent : s.current = some session) :
      Takes s (.starts true) { s with task := .fetching session }
  | startsNone (htask : s.task = .reading) (hcurrent : s.current = none) :
      Takes s (.starts true) { s with task := .comparing none, readFailed := false }
  | startFails (htask : s.task = .reading) :
      Takes s (.starts false) { s with task := .comparing none, readFailed := true }
  | fetches {session : Nat} (htask : s.task = .fetching session) :
      Takes s .fetches { s with
        task := .fetched session (s.properties session).title (s.properties session).artist
          (s.properties session).albumTitle }
  | readFails (htask : s.task.awaits = true) :
      Takes s .readFails { s with task := .receiving, readFailed := true }
  | reads {session : Nat} {title artist album : String}
      (htask : s.task = .fetched session title artist album) :
      Takes s .reads { s with
        task := .comparing (some (frameOf floats (s.properties session) title artist album))
        readFailed := false }
  | keeps {frame : Option RawFrame} (htask : s.task = .comparing frame)
      (hkey : s.lastSemanticKey = semanticKey frame) :
      Takes s .compares { s with task := .receiving }
  | changes {frame : Option RawFrame} (htask : s.task = .comparing frame)
      (hkey : s.lastSemanticKey ≠ semanticKey frame) :
      Takes s .compares { s with
        task := .changed
        lastSemanticKey := semanticKey frame
        keys := s.keys ++ [semanticKey frame] }
  | silences (htask : s.task = .changed) (hstopped : s.stopped = true) :
      Takes s .checksChange { s with task := .receiving }
  | notifies (htask : s.task = .changed) (hstopped : s.stopped = false) :
      Takes s .checksChange { s with task := .notifying }
  | looksUp {order : List Nat} (htask : s.task = .notifying) (horder : order.Perm s.listeners) :
      Takes s (.looksUp order) { s with
        task := .calling order
        announced := s.announced ++ [s.lastSemanticKey] }
  | calls {id : Nat} {remaining : List Nat} (htask : s.task = .calling (id :: remaining)) :
      Takes s .calls { s with task := .calling remaining, calls := s.calls ++ [id] }
  | endsRound (htask : s.task = .calling []) : Takes s .calls { s with task := .receiving }
  | taskAborted (haborted : s.aborted = true) (htask : s.task.awaits = true) :
      Takes s .taskAborted { s with task := .ended }
  | detachesManager (hcall : s.stopCall = .swapped) :
      Takes s .detachesManager { s with
        stopCall := .managerDetached
        managerToken := none
        managerHandlers := s.managerHandlers.filter fun token => s.managerToken ≠ some token }
  | detachesSession (hcall : s.stopCall = .managerDetached)
      (htask : s.task.holdsSubscription = false) :
      Takes s .detachesSession { s.detach with stopCall := .sessionDetached }
  | sendsStop (hcall : s.stopCall = .sessionDetached) :
      Takes s .sendsStop { s.send .stop with stopCall := .stopSent }
  | aborts (hcall : s.stopCall = .stopSent) :
      Takes s .aborts { s with stopCall := .joining, aborted := true }
  | joins (hcall : s.stopCall = .joining) (htask : s.task = .ended) :
      Takes s .joins { s with stopCall := .joined }
  | clears (hcall : s.stopCall = .joined) :
      Takes s .clears { s with stopCall := .returned, listeners := [] }

variable {floats}

theorem Takes.of_taskStep {s s' : MediaEvents} {e : MediaEvent}
    (h : s.taskStep floats s.task e = some s') : Takes floats s e s' := by
  unfold taskStep at h
  split at h
  next htask =>
    obtain ⟨⟨event, channel⟩, hreceive, rfl⟩ := Option.map_eq_some_iff.mp h
    exact .receives htask hreceive
  next event htask =>
    obtain rfl := Option.some.inj h
    by_cases hstopped : s.stopped = true
    · rw [if_pos hstopped]
      exact .ends htask (Or.inl hstopped)
    · rw [if_neg hstopped]
      have hgoes := Bool.eq_false_iff.mpr hstopped
      cases event with
      | stop => exact .ends htask (Or.inr rfl)
      | sessionChanged => exact .handlesSession htask hgoes
      | sessionPropsChanged => exact .handlesProps htask hgoes
  next htask =>
    obtain rfl := Option.some.inj h
    exact .locks htask
  next htask =>
    obtain rfl := Option.some.inj h
    by_cases hstopped : s.stopped = true
    · rw [if_pos hstopped]
      exact .givesUp htask hstopped
    · rw [if_neg hstopped]
      exact .checks htask (Bool.eq_false_iff.mpr hstopped)
  next succeeds htask =>
    cases succeeds with
    | true =>
        split at h
        next session hcurrent =>
          obtain rfl := Option.some.inj h
          exact .findsSession htask hcurrent
        next hcurrent =>
          obtain rfl := Option.some.inj h
          exact .findsNone htask hcurrent
    | false =>
        split at h
        all_goals
          obtain rfl := Option.some.inj h
          exact .findFails htask
  next session succeeds htask =>
    cases succeeds with
    | true =>
        obtain rfl := Option.some.inj h
        exact .registersMedia htask
    | false =>
        obtain rfl := Option.some.inj h
        exact .mediaFails htask
  next session mediaToken succeeds htask =>
    cases succeeds with
    | true =>
        obtain rfl := Option.some.inj h
        exact .registersPlayback htask
    | false =>
        obtain rfl := Option.some.inj h
        exact .playbackFails htask
  next session mediaToken playbackToken htask =>
    obtain rfl := Option.some.inj h
    exact .commits htask
  next succeeds htask =>
    cases succeeds with
    | true =>
        simp only [if_true] at h
        split at h
        next session hcurrent =>
          obtain rfl := Option.some.inj h
          exact .startsSession htask hcurrent
        next hcurrent =>
          obtain rfl := Option.some.inj h
          exact .startsNone htask hcurrent
    | false =>
        obtain rfl := Option.some.inj h
        exact .startFails htask
  next session htask =>
    obtain rfl := Option.some.inj h
    exact .fetches htask
  next session htask =>
    obtain rfl := Option.some.inj h
    exact .readFails (by rw [htask]; rfl)
  next session title artist album htask =>
    obtain rfl := Option.some.inj h
    exact .readFails (by rw [htask]; rfl)
  next session title artist album htask =>
    obtain rfl := Option.some.inj h
    exact .reads htask
  next frame htask =>
    simp only at h
    split at h
    next hkey =>
      obtain rfl := Option.some.inj h
      exact .keeps htask hkey
    next hkey =>
      obtain rfl := Option.some.inj h
      exact .changes htask hkey
  next htask =>
    obtain rfl := Option.some.inj h
    by_cases hstopped : s.stopped = true
    · rw [if_pos hstopped]
      exact .silences htask hstopped
    · rw [if_neg hstopped]
      exact .notifies htask (Bool.eq_false_iff.mpr hstopped)
  next order htask =>
    split at h
    next horder =>
      obtain rfl := Option.some.inj h
      exact .looksUp htask horder
    next => cases h
  next htask =>
    obtain rfl := Option.some.inj h
    exact .endsRound htask
  next id remaining htask =>
    obtain rfl := Option.some.inj h
    exact .calls htask
  next =>
    split at h
    next hends =>
      obtain rfl := Option.some.inj h
      exact .taskAborted hends.1 hends.2
    next => cases h
  next => cases h

theorem Takes.of_stopStep {s s' : MediaEvents} {e : MediaEvent}
    (h : s.stopStep s.stopCall e = some s') : Takes floats s e s' := by
  unfold stopStep at h
  split at h
  next hcall =>
    obtain rfl := Option.some.inj h
    exact .detachesManager hcall
  next hcall =>
    split at h
    next => cases h
    next htask =>
      obtain rfl := Option.some.inj h
      exact .detachesSession hcall (by simpa using htask)
  next hcall =>
    obtain rfl := Option.some.inj h
    exact .sendsStop hcall
  next hcall =>
    obtain rfl := Option.some.inj h
    exact .aborts hcall
  next hcall =>
    split at h
    next htask =>
      obtain rfl := Option.some.inj h
      exact .joins hcall htask
    next => cases h
  next hcall =>
    obtain rfl := Option.some.inj h
    exact .clears hcall
  next => cases h

theorem Takes.of_step {s s' : MediaEvents} {e : MediaEvent} (h : s.step floats e = some s') :
    Takes floats s e s' := by
  unfold step at h
  split at h
  next current =>
    obtain rfl := Option.some.inj h
    exact .currentChanges current
  next session properties =>
    split at h
    next hsource =>
      obtain rfl := Option.some.inj h
      exact .sessionChanges session properties hsource
    next => cases h
  next event =>
    split at h
    next hraised =>
      obtain rfl := Option.some.inj h
      exact .delivers hraised
    next => cases h
  next =>
    obtain rfl := Option.some.inj h
    by_cases hstopped : s.stopped = true
    · rw [if_pos hstopped]
      exact .refuses hstopped
    · rw [if_neg hstopped]
      exact .asks (Bool.eq_false_iff.mpr hstopped)
  next =>
    split at h
    next =>
      obtain rfl := Option.some.inj h
      exact .listens
    next => cases h
  next id =>
    obtain rfl := Option.some.inj h
    exact .unsubscribes id
  next =>
    obtain rfl := Option.some.inj h
    by_cases hstopped : s.stopped = true
    · rw [if_pos hstopped]
      exact .stopsAgain hstopped
    · rw [if_neg hstopped]
      exact .stops (Bool.eq_false_iff.mpr hstopped)
  next =>
    rcases Option.or_eq_some_iff.mp h with h | ⟨-, h⟩
    · exact .of_taskStep h
    · exact .of_stopStep h

end MediaEvents

end YohakuCore
