import YohakuCore.Privacy.Text
import YohakuCore.Protocol.Wire

/-!
# Sanitized snapshot to wire request

A text that is too long is cut and not refused. A request carries a fresh request id, which its
retry reuses.
-/

namespace YohakuCore

inductive WireAvailability where
  | idle
  | active
  deriving DecidableEq

/-- The constants of the envelope, `schema` and `schemaVersion`, are the same in every request. -/
structure PresenceRequestMeta where
  schema : String
  schemaVersion : Nat
  requestId : String
  deviceId : String
  sequence : UInt64
  observedAt : String
  deriving DecidableEq

/-- `activity` and `icon` are null in every request. -/
structure WireApplicationContext where
  displayName : String
  windowTitle : Option String
  deriving DecidableEq

structure WirePlayback where
  state : PlaybackState
  durationMs : Option UInt64
  positionMs : Option UInt64
  sampledAt : String
  rate : ℚ≥0
  deriving DecidableEq

/-- `player` is its display name, or null. -/
structure WireMediaContext where
  sessionId : String
  kind : MediaKind
  title : Option String
  artist : Option String
  album : Option String
  player : Option String
  playback : WirePlayback
  deriving DecidableEq

structure PresenceRequestData where
  availability : WireAvailability
  ttlSeconds : Nat
  application : Option WireApplicationContext
  media : Option WireMediaContext
  deriving DecidableEq

structure PresenceRequest where
  requestMeta : PresenceRequestMeta
  data : PresenceRequestData
  deriving DecidableEq

structure ClearRequest where
  requestMeta : PresenceRequestMeta
  reason : ClearReason
  deriving DecidableEq

structure MakeRequestOptions where
  deviceId : String
  leaseMinSeconds : Int
  leaseMaxSeconds : Int
  deriving DecidableEq

/-- The options of a request come from the credential and the negotiated configuration. -/
def makeRequestOptions (deviceId : String) (configuration : NegotiatedPresenceConfiguration) :
    MakeRequestOptions where
  deviceId := deviceId
  leaseMinSeconds := configuration.leaseMinSeconds
  leaseMaxSeconds := configuration.leaseMaxSeconds

def displayNameLimit : Nat := 120
def windowTitleLimit : Nat := 500
def mediaTextLimit : Nat := 300

/-- Cut first, then trimmed; a blank text is none. -/
def boundedText (value : Option String) (limit : Nat) : Option String :=
  value.bind (fun value =>
    let trimmed := jsTrim (String.ofList (value.toList.take limit))
    if trimmed = "" then none else some trimmed)

variable (calendar : Calendar) (floats : Floats)

def makeMeta (deviceId : String) (sequence : UInt64) (observedAt : Int) (requestId : String) :
    Except WireError PresenceRequestMeta := do
  let observedAt ← encodeWireDate calendar observedAt
  return { schema := presenceSchema, schemaVersion := presenceSchemaVersion, requestId, deviceId,
           sequence, observedAt }

def mapApplication (snapshot : SanitizedPresenceSnapshot) :
    Except WireError (Option WireApplicationContext) :=
  match snapshot.application with
  | none => .ok none
  | some application =>
      match boundedText (some application.displayName) displayNameLimit with
      | none => .error ⟨"application displayName empty after bounding"⟩
      | some displayName =>
          .ok (some {
            displayName := displayName
            windowTitle := boundedText application.windowTitle windowTitleLimit })

/-- The checks of a playback rate; the sanitizer's type keeps it finite and not negative. -/
def checkRate (playback : SanitizedPlayback) : Except WireError Unit :=
  if 4 < playback.rate then
    .error ⟨"playback rate out of range: " ++ floats.display (.finite playback.rate)⟩
  else if playback.state = .paused ∧ playback.rate ≠ 0 then
    .error ⟨"paused playback must have rate 0"⟩
  else if playback.state = .playing ∧ playback.rate = 0 then
    .error ⟨"playing playback must have rate > 0"⟩
  else .ok ()

def optionalMilliseconds (seconds : Option ℚ≥0) (field : String) :
    Except WireError (Option UInt64) :=
  match seconds with
  | none => .ok none
  | some seconds => (secondsToWireMilliseconds floats seconds field).map some

/-- A position past the duration becomes the duration; an unknown one stays unknown. -/
def clampMilliseconds (position duration : Option UInt64) : Option UInt64 :=
  match position, duration with
  | some p, some d => if d < p then some d else some p
  | position, _ => position

def mapMedia (snapshot : SanitizedPresenceSnapshot) :
    Except WireError (Option WireMediaContext) :=
  match snapshot.media with
  | none => .ok none
  | some media => do
      let title := boundedText media.title mediaTextLimit
      let artist := boundedText media.artist mediaTextLimit
      if title = none ∧ artist = none then
        throw ⟨"media requires title or artist"⟩
      checkRate floats media.playback
      let durationMs ← optionalMilliseconds floats media.playback.durationSeconds "durationMs"
      let positionMs ← optionalMilliseconds floats media.playback.positionSeconds "positionMs"
      let sampledAt ← encodeWireDate calendar media.playback.sampledAt
      return some {
        sessionId := media.sessionId
        kind := media.kind
        title := title
        artist := artist
        album := boundedText media.album mediaTextLimit
        player := boundedText media.playerDisplayName displayNameLimit
        playback := {
          state := media.playback.state
          durationMs := durationMs
          positionMs := clampMilliseconds positionMs durationMs
          sampledAt := sampledAt
          rate := media.playback.rate } }

/-- The cast `as i64` saturates, and maps NaN to zero. -/
def saturateToI64 : F64 → Int
  | .nan => 0
  | .posInf => 2 ^ 63 - 1
  | .negInf => -2 ^ 63
  | .finite value => max (-2 ^ 63) (min (2 ^ 63 - 1) value.num)

/-- The application is mapped first, then the media, then the meta: the first error is reported.
An empty snapshot is idle and is still sent. -/
def makePresenceRequest (snapshot : SanitizedPresenceSnapshot) (sequence : UInt64)
    (requestedLeaseSeconds : F64) (options : MakeRequestOptions) (requestId : String) :
    Except WireError PresenceRequest := do
  let application ← mapApplication snapshot
  let media ← mapMedia calendar floats snapshot
  let ttlSeconds := max 0 (min options.leaseMaxSeconds
    (max (saturateToI64 (roundHalfAway requestedLeaseSeconds)) options.leaseMinSeconds))
  let requestMeta ← makeMeta calendar options.deviceId sequence snapshot.observedAt requestId
  return {
    requestMeta
    data := {
      availability := if application = none ∧ media = none then .idle else .active
      ttlSeconds := ttlSeconds.toNat
      application := application
      media := media } }

def makeClearRequest (reason : ClearReason) (sequence : UInt64) (observedAt : Int)
    (options : MakeRequestOptions) (requestId : String) : Except WireError ClearRequest := do
  let requestMeta ← makeMeta calendar options.deviceId sequence observedAt requestId
  return { requestMeta, reason }

/-- The request with its own ids left out. -/
def PresenceRequest.unidentified (request : PresenceRequest) : PresenceRequest where
  requestMeta := { request.requestMeta with requestId := "" }
  data := { request.data with
    media := request.data.media.map (fun media => { media with sessionId := "" }) }

variable {calendar floats}

theorem makePresenceRequest_unidentified (snapshot : SanitizedPresenceSnapshot)
    (sequence : UInt64) (requestedLeaseSeconds : F64) (options : MakeRequestOptions)
    (requestId requestId' : String) :
    (makePresenceRequest calendar floats snapshot sequence requestedLeaseSeconds options
        requestId).map PresenceRequest.unidentified =
      (makePresenceRequest calendar floats snapshot sequence requestedLeaseSeconds options
        requestId').map PresenceRequest.unidentified := by
  simp only [makePresenceRequest, makeMeta]
  cases mapApplication snapshot with
  | error error => rfl
  | ok application =>
      cases mapMedia calendar floats snapshot with
      | error error => rfl
      | ok media => cases encodeWireDate calendar snapshot.observedAt <;> rfl

theorem mapMedia_eq_ok {snapshot : SanitizedPresenceSnapshot} {mapped : WireMediaContext}
    (h : mapMedia calendar floats snapshot = .ok (some mapped)) :
    ∃ media duration position sampledAt, snapshot.media = some media ∧
      optionalMilliseconds floats media.playback.durationSeconds "durationMs" = .ok duration ∧
      optionalMilliseconds floats media.playback.positionSeconds "positionMs" = .ok position ∧
      encodeWireDate calendar media.playback.sampledAt = .ok sampledAt ∧
      mapped = {
        sessionId := media.sessionId
        kind := media.kind
        title := boundedText media.title mediaTextLimit
        artist := boundedText media.artist mediaTextLimit
        album := boundedText media.album mediaTextLimit
        player := boundedText media.playerDisplayName displayNameLimit
        playback := {
          state := media.playback.state
          durationMs := duration
          positionMs := clampMilliseconds position duration
          sampledAt := sampledAt
          rate := media.playback.rate } } := by
  cases hmedia : snapshot.media with
  | none => simp [mapMedia, hmedia] at h
  | some media =>
      simp only [mapMedia, hmedia, bind, Except.bind, pure, Except.pure, throw, throwThe,
        MonadExceptOf.throw] at h
      split at h
      · simp at h
      cases hcheck : checkRate floats media.playback with
      | error error => simp [hcheck] at h
      | ok =>
          cases hduration : optionalMilliseconds floats media.playback.durationSeconds
              "durationMs" with
          | error error => simp [hcheck, hduration] at h
          | ok duration =>
              cases hposition : optionalMilliseconds floats media.playback.positionSeconds
                  "positionMs" with
              | error error => simp [hcheck, hduration, hposition] at h
              | ok position =>
                  cases hsampled : encodeWireDate calendar media.playback.sampledAt with
                  | error error => simp [hcheck, hduration, hposition, hsampled] at h
                  | ok sampledAt =>
                      simp only [hcheck, hduration, hposition, hsampled, Except.ok.injEq,
                        Option.some.injEq] at h
                      exact ⟨media, duration, position, sampledAt, rfl, hduration, hposition,
                        hsampled, h.symm⟩

theorem makeMeta_eq_ok {deviceId : String} {sequence : UInt64} {observedAt : Int}
    {requestId : String} {requestMeta : PresenceRequestMeta}
    (h : makeMeta calendar deviceId sequence observedAt requestId = .ok requestMeta) :
    ∃ date, encodeWireDate calendar observedAt = .ok date ∧
      requestMeta = { schema := presenceSchema, schemaVersion := presenceSchemaVersion, requestId,
                      deviceId, sequence, observedAt := date } := by
  rw [makeMeta] at h
  cases hdate : encodeWireDate calendar observedAt with
  | error error => simp [hdate, bind, Except.bind] at h
  | ok date =>
      simp only [hdate, bind, Except.bind, pure, Except.pure, Except.ok.injEq] at h
      exact ⟨date, rfl, h.symm⟩

theorem makePresenceRequest_eq_ok {snapshot : SanitizedPresenceSnapshot} {sequence : UInt64}
    {requestedLeaseSeconds : F64} {options : MakeRequestOptions} {requestId : String}
    {request : PresenceRequest}
    (h : makePresenceRequest calendar floats snapshot sequence requestedLeaseSeconds options
      requestId = .ok request) :
    mapApplication snapshot = .ok request.data.application ∧
      mapMedia calendar floats snapshot = .ok request.data.media ∧
      makeMeta calendar options.deviceId sequence snapshot.observedAt requestId =
        .ok request.requestMeta ∧
      request.data.ttlSeconds = (max 0 (min options.leaseMaxSeconds
        (max (saturateToI64 (roundHalfAway requestedLeaseSeconds))
          options.leaseMinSeconds))).toNat := by
  rw [makePresenceRequest] at h
  cases happlication : mapApplication snapshot with
  | error error => simp [happlication, bind, Except.bind] at h
  | ok application =>
      cases hmedia : mapMedia calendar floats snapshot with
      | error error => simp [happlication, hmedia, bind, Except.bind] at h
      | ok media =>
          cases hmeta : makeMeta calendar options.deviceId sequence snapshot.observedAt
              requestId with
          | error error => simp [happlication, hmedia, hmeta, bind, Except.bind] at h
          | ok requestMeta =>
              simp only [happlication, hmedia, hmeta, bind, Except.bind, pure, Except.pure,
                Except.ok.injEq] at h
              simp [← h]

/-- A mapped request names the device of its options, so the guard of the sender passes. -/
theorem makePresenceRequest_deviceId {snapshot : SanitizedPresenceSnapshot} {sequence : UInt64}
    {requestedLeaseSeconds : F64} {options : MakeRequestOptions} {requestId : String}
    {request : PresenceRequest}
    (h : makePresenceRequest calendar floats snapshot sequence requestedLeaseSeconds options
      requestId = .ok request) : request.requestMeta.deviceId = options.deviceId := by
  obtain ⟨-, -, hmeta, -⟩ := makePresenceRequest_eq_ok h
  obtain ⟨date, -, hrequestMeta⟩ := makeMeta_eq_ok hmeta
  rw [hrequestMeta]

theorem makePresenceRequest_requestId {snapshot : SanitizedPresenceSnapshot} {sequence : UInt64}
    {requestedLeaseSeconds : F64} {options : MakeRequestOptions} {requestId : String}
    {request : PresenceRequest}
    (h : makePresenceRequest calendar floats snapshot sequence requestedLeaseSeconds options
      requestId = .ok request) : request.requestMeta.requestId = requestId := by
  obtain ⟨-, -, hmeta, -⟩ := makePresenceRequest_eq_ok h
  obtain ⟨date, -, hrequestMeta⟩ := makeMeta_eq_ok hmeta
  rw [hrequestMeta]

theorem makeClearRequest_meta {reason : ClearReason} {sequence : UInt64} {observedAt : Int}
    {options : MakeRequestOptions} {requestId : String} {request : ClearRequest}
    (h : makeClearRequest calendar reason sequence observedAt options requestId = .ok request) :
    makeMeta calendar options.deviceId sequence observedAt requestId =
      .ok request.requestMeta := by
  rw [makeClearRequest] at h
  cases hmeta : makeMeta calendar options.deviceId sequence observedAt requestId with
  | error error => simp [hmeta, bind, Except.bind] at h
  | ok requestMeta =>
      simp only [hmeta, bind, Except.bind, pure, Except.pure, Except.ok.injEq] at h
      rw [← h]

theorem makeClearRequest_deviceId {reason : ClearReason} {sequence : UInt64} {observedAt : Int}
    {options : MakeRequestOptions} {requestId : String} {request : ClearRequest}
    (h : makeClearRequest calendar reason sequence observedAt options requestId = .ok request) :
    request.requestMeta.deviceId = options.deviceId := by
  obtain ⟨date, -, hrequestMeta⟩ := makeMeta_eq_ok (makeClearRequest_meta h)
  rw [hrequestMeta]

end YohakuCore
