import YohakuCore.Protocol.Types
import YohakuCore.Protocol.VersionPrecedence

/-! # Capabilities -/

namespace YohakuCore

open Framework

structure CapabilitiesLimits where
  presencePayloadBytes : Int
  presenceRequestsPerMinute : Int
  presenceLeaseMinSeconds : Int
  presenceLeaseMaxSeconds : Int
  recommendedHeartbeatSeconds : Int
  maximumClockSkewSeconds : Int
  deriving DecidableEq

def refineSafeInteger (value : Int) : Bool := value.natAbs ≤ maximumSafeWireInteger.toNat

namespace CapabilitiesLimits

def isRefined (limits : CapabilitiesLimits) : Bool :=
  [limits.presencePayloadBytes, limits.presenceRequestsPerMinute, limits.presenceLeaseMinSeconds,
    limits.presenceLeaseMaxSeconds, limits.recommendedHeartbeatSeconds,
    limits.maximumClockSkewSeconds].all refineSafeInteger

end CapabilitiesLimits

/-- All bounds are positive and coherent; the skew is merely not negative. -/
def limitsAreValid (limits : CapabilitiesLimits) : Bool :=
  0 < limits.presencePayloadBytes && 0 < limits.presenceRequestsPerMinute &&
    0 < limits.presenceLeaseMinSeconds &&
    limits.presenceLeaseMinSeconds ≤ limits.presenceLeaseMaxSeconds &&
    limits.presenceLeaseMinSeconds ≤ limits.recommendedHeartbeatSeconds &&
    limits.recommendedHeartbeatSeconds ≤ limits.presenceLeaseMaxSeconds &&
    0 ≤ limits.maximumClockSkewSeconds

/-- The limits pass through, without clamping and without defaults. -/
def negotiatedConfiguration (mediaTimeline : Bool) (limits : CapabilitiesLimits) :
    NegotiatedPresenceConfiguration where
  supportsMediaTimeline := mediaTimeline
  maximumPayloadBytes := limits.presencePayloadBytes.toNat
  requestsPerMinute := limits.presenceRequestsPerMinute.toNat
  leaseMinSeconds := limits.presenceLeaseMinSeconds
  leaseMaxSeconds := limits.presenceLeaseMaxSeconds
  recommendedHeartbeatSeconds := limits.recommendedHeartbeatSeconds
  maximumClockSkewSeconds := limits.maximumClockSkewSeconds

/-- A configuration that a negotiation can lead to. -/
def IsNegotiated (configuration : NegotiatedPresenceConfiguration) : Prop :=
  ∃ mediaTimeline limits, CapabilitiesLimits.isRefined limits = true ∧
    limitsAreValid limits = true ∧ configuration = negotiatedConfiguration mediaTimeline limits

theorem IsNegotiated.lease {configuration : NegotiatedPresenceConfiguration}
    (h : IsNegotiated configuration) :
    0 < configuration.leaseMinSeconds ∧
      configuration.leaseMinSeconds ≤ configuration.leaseMaxSeconds ∧
      configuration.leaseMaxSeconds ≤ 9007199254740991 := by
  obtain ⟨mediaTimeline, limits, hrefined, hvalid, rfl⟩ := h
  have hmax : limits.presenceLeaseMaxSeconds.natAbs ≤ 9007199254740991 := by
    rw [CapabilitiesLimits.isRefined, List.all_eq_true] at hrefined
    exact of_decide_eq_true (hrefined limits.presenceLeaseMaxSeconds (by simp))
  simp only [limitsAreValid, Bool.and_eq_true, decide_eq_true_eq] at hvalid
  simp only [negotiatedConfiguration]
  omega

structure CapabilitiesFeatures where
  liveDesk : Bool
  mediaTimeline : Bool
  moments : Bool
  readingSessions : Bool
  mediaArtwork : Option Bool
  mediaPlaybackLinks : Option Bool
  deriving DecidableEq

structure CapabilitiesData where
  minimumClientVersion : String
  presenceSchemaVersions : List Int
  momentSchemaVersions : List Int
  features : CapabilitiesFeatures
  limits : CapabilitiesLimits
  deriving DecidableEq

namespace CapabilitiesFeatures

/-- A key that may be left out, or be `null`. -/
def optionalBool (value : Json) (position : Nat) (key : String) : Option (Option Bool) :=
  let member := match value with
    | .array items => items[position]?
    | value => value.lookup key
  match member with
  | none => some none
  | some value => value.readOption Json.readBool

def fromValue (value : Json) : Option CapabilitiesFeatures := do
  guard (value.hasShape 6)
  let liveDesk ← value.field Json.readBool 0 "liveDesk"
  let mediaTimeline ← value.field Json.readBool 1 "mediaTimeline"
  let moments ← value.field Json.readBool 2 "moments"
  let readingSessions ← value.field Json.readBool 3 "readingSessions"
  let mediaArtwork ← optionalBool value 4 "mediaArtwork"
  let mediaPlaybackLinks ← optionalBool value 5 "mediaPlaybackLinks"
  return { liveDesk, mediaTimeline, moments, readingSessions, mediaArtwork, mediaPlaybackLinks }

end CapabilitiesFeatures

def CapabilitiesLimits.fromValue (value : Json) : Option CapabilitiesLimits := do
  guard (value.hasShape 6)
  let presencePayloadBytes ← value.field Json.asI64 0 "presencePayloadBytes"
  let presenceRequestsPerMinute ← value.field Json.asI64 1 "presenceRequestsPerMinute"
  let presenceLeaseMinSeconds ← value.field Json.asI64 2 "presenceLeaseMinSeconds"
  let presenceLeaseMaxSeconds ← value.field Json.asI64 3 "presenceLeaseMaxSeconds"
  let recommendedHeartbeatSeconds ← value.field Json.asI64 4 "recommendedHeartbeatSeconds"
  let maximumClockSkewSeconds ← value.field Json.asI64 5 "maximumClockSkewSeconds"
  return {
    presencePayloadBytes, presenceRequestsPerMinute, presenceLeaseMinSeconds,
    presenceLeaseMaxSeconds, recommendedHeartbeatSeconds, maximumClockSkewSeconds }

namespace CapabilitiesData

def fromValue (value : Json) : Option CapabilitiesData := do
  guard (value.hasShape 5)
  let minimumClientVersion ← value.field Json.readString 0 "minimumClientVersion"
  let presenceSchemaVersions ← value.field (Json.readList Json.asI64) 1 "presenceSchemaVersions"
  let momentSchemaVersions ← value.field (Json.readList Json.asI64) 2 "momentSchemaVersions"
  let features ← value.field CapabilitiesFeatures.fromValue 3 "features"
  let limits ← value.field CapabilitiesLimits.fromValue 4 "limits"
  return { minimumClientVersion, presenceSchemaVersions, momentSchemaVersions, features, limits }

/-- Every integer is a safe one. -/
def isRefined (data : CapabilitiesData) : Bool :=
  (data.presenceSchemaVersions ++ data.momentSchemaVersions).all refineSafeInteger &&
    data.limits.isRefined

end CapabilitiesData

def decodeCapabilitiesResponse (calendar : Calendar) (value : Json) : Option CapabilitiesData := do
  guard (value.hasShape 2)
  let responseMeta ← value.field ResponseMeta.fromValue 0 "meta"
  let data ← value.field CapabilitiesData.fromValue 1 "data"
  guard (responseMeta.isRefined calendar)
  guard data.isRefined
  return data

inductive PresenceNegotiation where
  | available (configuration : NegotiatedPresenceConfiguration)
  | clientUpdateRequired
  | schemaUnsupported
  | featureUnavailable
  | invalidCapabilities
  deriving DecidableEq

/-- The casts `as u64` and `as usize` of a 64-bit target: they wrap. -/
def asUnsigned (value : Int) : Nat := (value % 2 ^ 64).toNat

/-- The checks in their order. Both versions are unwrapped once they are known to parse: an unwrap
that panics has no outcome. -/
def negotiatePresence (capabilities : CapabilitiesData) (clientVersion : String) :
    Option PresenceNegotiation :=
  let client := parseSemanticVersion clientVersion
  let minimum := parseSemanticVersion capabilities.minimumClientVersion
  let invalid := client.isNone || minimum.isNone ||
    capabilities.presenceSchemaVersions.any (· ≤ 0) ||
    capabilities.momentSchemaVersions.any (· ≤ 0) || !limitsAreValid capabilities.limits
  if invalid then some .invalidCapabilities
  else do
    let client ← client
    let minimum ← minimum
    if compareSemanticVersions client minimum = .lt then return .clientUpdateRequired
    if !capabilities.presenceSchemaVersions.contains presenceSchemaVersion then
      return .schemaUnsupported
    if !capabilities.features.liveDesk then return .featureUnavailable
    let limits := capabilities.limits
    return .available {
      supportsMediaTimeline := capabilities.features.mediaTimeline
      maximumPayloadBytes := asUnsigned limits.presencePayloadBytes
      requestsPerMinute := asUnsigned limits.presenceRequestsPerMinute
      leaseMinSeconds := limits.presenceLeaseMinSeconds
      leaseMaxSeconds := limits.presenceLeaseMaxSeconds
      recommendedHeartbeatSeconds := limits.recommendedHeartbeatSeconds
      maximumClockSkewSeconds := limits.maximumClockSkewSeconds }

theorem decodeCapabilitiesResponse_refined {calendar : Calendar} {value : Json}
    {data : CapabilitiesData} (h : decodeCapabilitiesResponse calendar value = some data) :
    data.isRefined = true := by
  simp only [decodeCapabilitiesResponse, Option.bind_eq_bind, Option.bind_eq_some_iff,
    Option.pure_def, Option.some.injEq, guard] at h
  obtain ⟨_, _, _, _, _, _, _, _, _, hrefined, rfl⟩ := h
  by_contra hnot
  simp [hnot] at hrefined

theorem asUnsigned_lossless (value : Int) (hpos : 0 ≤ value)
    (hrefined : refineSafeInteger value = true) : (asUnsigned value : Int) = value := by
  have hsafe : value.natAbs ≤ 9007199254740991 := of_decide_eq_true hrefined
  rw [asUnsigned]
  omega

end YohakuCore
