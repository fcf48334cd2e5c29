import Mathlib.Data.NNRat.Defs
import Mathlib.Data.List.DropRight

/-!
# Data model

The types shared by the capture, privacy, protocol and companion layers, under the source's
names. Raw capture types, sanitized types and the configuration are kept apart as in the source:
no sanitized type has a field for an application identifier or an executable path.
-/

namespace YohakuCore

/-- `2^53 - 1`, the largest integer legal on the wire. -/
def maximumSafeWireInteger : UInt64 := 9007199254740991

/-- An `f64` by what it denotes. Signed zeros coincide, as they do under the source's `==`. -/
inductive F64 where
  | nan
  | posInf
  | negInf
  | finite (value : ℚ)
  deriving DecidableEq

/-! ### Privacy configuration -/

inductive PrivacyDefault where
  | share
  | hide
  deriving DecidableEq

inductive PrivacyOverride where
  | inherit
  | share
  | hide
  deriving DecidableEq

structure ApplicationPrivacyRule where
  appId : String
  application : PrivacyOverride
  windowTitle : PrivacyOverride
  media : PrivacyOverride
  displayAlias : Option String
  deriving DecidableEq

inductive PrivacyMappingType where
  | processName
  | mediaProcessName
  | mediaPlayerName
  deriving DecidableEq

/-- A display-name mapping. The source's keys `from` and `to` are reserved words of Lean. -/
structure PrivacyMapping where
  mappingType : PrivacyMappingType
  source : String
  target : String
  deriving DecidableEq

structure PrivacyDefaults where
  application : PrivacyDefault
  windowTitle : PrivacyDefault
  media : PrivacyDefault
  deriving DecidableEq

structure PrivacySources where
  application : Bool
  media : Bool
  deriving DecidableEq

structure PrivacyConfig where
  defaults : PrivacyDefaults
  rules : List ApplicationPrivacyRule
  mappings : List PrivacyMapping
  shareWindowTitles : Bool
  ignoreNullArtist : Bool
  sources : PrivacySources
  deriving DecidableEq

/-- New-installation defaults: window titles are private unless opted in. -/
def defaultPrivacyConfig : PrivacyConfig where
  defaults := { application := .share, windowTitle := .hide, media := .share }
  rules := []
  mappings := []
  shareWindowTitles := false
  ignoreNullArtist := false
  sources := { application := true, media := true }

/-! ### Raw capture -/

/-- Raw foreground sample; `exe_path` is never consumed by the pipeline and is left out. -/
structure ForegroundInfo where
  appId : String
  displayName : String
  windowTitle : Option String
  deriving DecidableEq

inductive MediaKind where
  | music
  | podcast
  | video
  | unknown
  deriving DecidableEq

structure MediaSnapshot where
  appId : Option String
  sourceAppUserModelId : Option String
  playerDisplayName : Option String
  kind : MediaKind
  title : Option String
  artist : Option String
  album : Option String
  playing : Bool
  durationSeconds : Option F64
  positionSeconds : Option F64
  sampledAt : Int
  deriving DecidableEq

/-! ### Sanitized presence -/

inductive PlaybackState where
  | playing
  | paused
  deriving DecidableEq

structure SanitizedApplicationPresence where
  displayName : String
  windowTitle : Option String
  deriving DecidableEq

/-- Times are `None` or finite and non-negative: the type keeps what `normalized_seconds` checks. -/
structure SanitizedPlayback where
  state : PlaybackState
  durationSeconds : Option ℚ≥0
  positionSeconds : Option ℚ≥0
  sampledAt : Int
  rate : ℚ≥0
  deriving DecidableEq

structure SanitizedMediaPresence where
  sessionId : String
  kind : MediaKind
  title : Option String
  artist : Option String
  album : Option String
  playerDisplayName : Option String
  playback : SanitizedPlayback
  deriving DecidableEq

structure SanitizedPresenceSnapshot where
  observedAt : Int
  application : Option SanitizedApplicationPresence
  media : Option SanitizedMediaPresence
  deriving DecidableEq

/-! ### Consent preview -/

structure PreviewApplication where
  displayName : String
  windowTitle : Option String
  deriving DecidableEq

structure PreviewPlayback where
  state : PlaybackState
  durationSeconds : Option ℚ≥0
  rate : ℚ≥0
  deriving DecidableEq

structure PreviewMedia where
  kind : MediaKind
  title : Option String
  artist : Option String
  album : Option String
  playerDisplayName : Option String
  playback : PreviewPlayback
  deriving DecidableEq

structure PreviewProjection where
  application : Option PreviewApplication
  media : Option PreviewMedia
  deriving DecidableEq

structure Preview where
  projection : PreviewProjection
  policyFingerprint : String
  observedAt : Int
  deriving DecidableEq

/-! ### Connection and publishing -/

structure StoredConnection where
  baseUrl : String
  deviceId : String
  deviceName : String
  scopes : List String
  pairingNextSequence : UInt64
  liveDeskEnabled : Bool
  deriving DecidableEq

/-- The fields of the configuration that the service and the capture read. -/
structure CoreConfig where
  privacy : PrivacyConfig
  connection : Option StoredConnection
  deriving DecidableEq

/-- All three select the same provider; older files may hold any of them. -/
inductive MediaProviderChoice where
  | auto
  | npm
  | powershell
  deriving DecidableEq

inductive CredentialBackend where
  | keyring
  | dpapi
  deriving DecidableEq

structure MediaConfig where
  provider : MediaProviderChoice
  deriving DecidableEq

/-- config.json as it is stored; `version` is 1 in every valid file. -/
structure FullCoreConfig extends CoreConfig where
  version : UInt32
  media : MediaConfig
  credentialBackend : Option CredentialBackend
  deriving DecidableEq

/-- The coordinator itself never holds `notPaired`. -/
inductive RuntimeState where
  | notPaired
  | disabled
  | connecting
  | active
  | degraded
  | suspended
  | updateRequired
  | serverFeatureUnavailable
  deriving DecidableEq

inductive ClearReason where
  | paused
  | sleep
  | shutdown
  | privacyChanged
  | connectionRemoved
  deriving DecidableEq

structure NegotiatedPresenceConfiguration where
  supportsMediaTimeline : Bool
  maximumPayloadBytes : Nat
  requestsPerMinute : Nat
  leaseMinSeconds : Int
  leaseMaxSeconds : Int
  recommendedHeartbeatSeconds : Int
  maximumClockSkewSeconds : Int
  deriving DecidableEq

structure CompanionCredential where
  deviceId : String
  deviceToken : String
  deriving DecidableEq

inductive IpcErrorCode where
  | previewOutOfDate
  | notPaired
  | alreadyPaired
  | pairingExpired
  | pairingFailed
  | requiredScopeMissing
  | clientUpdateRequired
  | serverFeatureUnavailable
  | rateLimited
  | validationFailed
  | credentialStoreUnavailable
  | network
  | invalidInput
  | internal
  deriving DecidableEq

end YohakuCore
