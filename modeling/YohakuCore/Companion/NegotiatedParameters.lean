import YohakuCore.Capture.Publishable
import YohakuCore.Companion.Coordinator

/-!
# Negotiated parameters

Casts wrap, `f64` operations round, and a checked operation that fails has no result.
-/

namespace YohakuCore

open Framework

namespace F64

/-- `f64::max`: a NaN is ignored. -/
def max : F64 → F64 → F64
  | .nan, b => b
  | a, .nan => a
  | .posInf, _ => .posInf
  | _, .posInf => .posInf
  | .negInf, b => b
  | a, .negInf => a
  | .finite x, .finite y => .finite (Max.max x y)

/-- `f64::min`: a NaN is ignored. -/
def min : F64 → F64 → F64
  | .nan, b => b
  | a, .nan => a
  | .negInf, _ => .negInf
  | _, .negInf => .negInf
  | .posInf, b => b
  | a, .posInf => a
  | .finite x, .finite y => .finite (Min.min x y)

/-- Division by a positive number. -/
def divBy (floats : Floats) (divisor : ℚ) : F64 → F64
  | .finite x => floats.round (x / divisor)
  | infinite => infinite

@[simp] theorem max_finite (x y : ℚ) : max (.finite x) (.finite y) = .finite (Max.max x y) := rfl

@[simp] theorem min_finite (x y : ℚ) : min (.finite x) (.finite y) = .finite (Min.min x y) := rfl

@[simp] theorem divBy_finite (floats : Floats) (divisor x : ℚ) :
    divBy floats divisor (.finite x) = floats.round (x / divisor) := rfl

end F64

variable (floats : Floats)

/-- `i64 as f64` -/
def i64AsF64 (value : Int) : F64 := floats.round value

/-- `u64 as i64` wraps. -/
def u64AsI64 (value : Nat) : Int :=
  let bits : Int := (value : Int) % 2 ^ 64
  if bits < 2 ^ 63 then bits else bits - 2 ^ 64

/-- An operation on `i64` whose overflow panics. -/
def checkedI64 (value : Int) : Option Int :=
  if -2 ^ 63 ≤ value ∧ value < 2 ^ 63 then some value else none

/-- `u64::div_ceil`; a division by zero panics. -/
def divCeil (a b : Nat) : Option Nat :=
  if b = 0 then none else some (if a % b = 0 then a / b else a / b + 1)

def requestedLease (configuration : NegotiatedPresenceConfiguration) : F64 :=
  ((F64.finite 90).max (i64AsF64 floats configuration.leaseMinSeconds)).min
    (i64AsF64 floats configuration.leaseMaxSeconds)

def heartbeatSeconds (configuration : NegotiatedPresenceConfiguration) : F64 :=
  (i64AsF64 floats configuration.recommendedHeartbeatSeconds).min
    (((requestedLease floats configuration).divBy floats 3).max (.finite 1))

def minSendInterval (configuration : NegotiatedPresenceConfiguration) : Option Nat :=
  divCeil 60000 configuration.requestsPerMinute

def nanosPerSecond : Nat := 10 ^ 9

/-- The nearest integer, the even one of two. -/
def roundHalfEven (value : ℚ) : Int :=
  let low := ⌊value⌋
  if value - low < 1 / 2 then low
  else if 1 / 2 < value - low then low + 1
  else if low % 2 = 0 then low else low + 1

/-- `Duration::from_secs_f64`, in nanoseconds: it panics on what is negative, not finite or too
long. -/
def durationFromSecs : F64 → Option Nat
  | .finite seconds =>
      if seconds < 0 then none
      else
        let nanos := (roundHalfEven (seconds * nanosPerSecond)).toNat
        if nanos / nanosPerSecond < 2 ^ 64 then some nanos else none
  | _ => none

/-- The first tick and the period of `interval_at(now + period, period)`: the addition panics past
the last instant, and so does a period of zero. -/
def intervalAt (now period : Nat) : Option (Nat × Nat) :=
  if (now + period) / nanosPerSecond < 2 ^ 64 ∧ period ≠ 0 then some (now + period, period)
  else none

def spawnHeartbeatInterval (now : Nat) (seconds : F64) : Option (Nat × Nat) :=
  (durationFromSecs seconds).bind (intervalAt now)

/-- The wait at the head of the refresh loop. -/
def throttleWait (lastSendStartedAt : Int) (minSendIntervalMs : Nat) (now : Int) : Option Int :=
  (checkedI64 (lastSendStartedAt + u64AsI64 minSendIntervalMs)).bind (fun due =>
    checkedI64 (due - now))

variable {floats}

theorem divCeil_eq {a b : Nat} (hb : 0 < b) : divCeil a b = some ((a + b - 1) / b) := by
  have hne : b ≠ 0 := by omega
  have hsplit := Nat.div_add_mod a b
  have hlt := Nat.mod_lt a hb
  rw [divCeil, if_neg hne]
  congr 1
  symm
  split
  · apply Nat.div_eq_of_lt_le
    · rw [Nat.mul_comm]
      omega
    · rw [Nat.add_mul, Nat.mul_comm]
      omega
  · apply Nat.div_eq_of_lt_le
    · rw [Nat.add_mul, Nat.mul_comm]
      omega
    · rw [Nat.add_mul, Nat.add_mul, Nat.mul_comm]
      omega

theorem u64AsI64_eq {value : Nat} (h : value < 2 ^ 63) : u64AsI64 value = value := by
  have hbits : (value : Int) % 2 ^ 64 = value := by omega
  have hlow : (value : Int) < 2 ^ 63 := by omega
  unfold u64AsI64
  simp only [hbits, hlow, if_true]

theorem roundHalfEven_bounds (value : ℚ) :
    ⌊value⌋ ≤ roundHalfEven value ∧ roundHalfEven value ≤ ⌊value⌋ + 1 := by
  simp only [roundHalfEven]
  split
  · simp
  · split
    · simp
    · split <;> simp

theorem negotiatePresence_total (data : CapabilitiesData) (clientVersion : String) :
    ∃ outcome, negotiatePresence data clientVersion = some outcome := by
  cases hclient : parseSemanticVersion clientVersion with
  | none => exact ⟨.invalidCapabilities, by simp [negotiatePresence, hclient]⟩
  | some client =>
      cases hminimum : parseSemanticVersion data.minimumClientVersion with
      | none => exact ⟨.invalidCapabilities, by simp [negotiatePresence, hminimum]⟩
      | some minimum =>
          simp only [negotiatePresence, hclient, hminimum]
          split
          · exact ⟨_, rfl⟩
          · simp only [Option.bind_eq_bind, Option.bind_some]
            split
            · exact ⟨_, rfl⟩
            · split
              · exact ⟨_, rfl⟩
              · split <;> exact ⟨_, rfl⟩

theorem negotiatePresence_available {data : CapabilitiesData} {clientVersion : String}
    {configuration : NegotiatedPresenceConfiguration} (hrefined : data.isRefined = true)
    (h : negotiatePresence data clientVersion = some (.available configuration)) :
    data.limits.isRefined = true ∧ limitsAreValid data.limits = true ∧
      configuration = negotiatedConfiguration data.features.mediaTimeline data.limits := by
  have hlimits : data.limits.isRefined = true := ((Bool.and_eq_true _ _).mp hrefined).2
  simp only [negotiatePresence] at h
  split at h
  · simp at h
  · rename_i hvalid
    simp only [Bool.or_eq_true, not_or, Bool.not_eq_true, Bool.not_eq_false'] at hvalid
    have hvalid : limitsAreValid data.limits = true := hvalid.2
    refine ⟨hlimits, hvalid, ?_⟩
    obtain ⟨client, -, h⟩ := Option.bind_eq_some_iff.mp h
    obtain ⟨minimum, -, h⟩ := Option.bind_eq_some_iff.mp h
    simp only [Option.pure_def] at h
    split at h
    · simp at h
    · split at h
      · simp at h
      · split at h
        · simp at h
        · simp only [Option.some.injEq, PresenceNegotiation.available.injEq] at h
          have hpositive := hvalid
          simp only [limitsAreValid, Bool.and_eq_true, decide_eq_true_eq] at hpositive
          rw [CapabilitiesLimits.isRefined, List.all_eq_true] at hlimits
          have hbytes := asUnsigned_lossless data.limits.presencePayloadBytes (by omega)
            (hlimits _ (by simp))
          have hrequests := asUnsigned_lossless data.limits.presenceRequestsPerMinute (by omega)
            (hlimits _ (by simp))
          rw [← h, negotiatedConfiguration]
          congr 1 <;> omega

theorem IsNegotiated.of_negotiate {calendar : Calendar} {value : Json} {data : CapabilitiesData}
    {clientVersion : String} {configuration : NegotiatedPresenceConfiguration}
    (hdecode : decodeCapabilitiesResponse calendar value = some data)
    (h : negotiatePresence data clientVersion = some (.available configuration)) :
    IsNegotiated configuration := by
  obtain ⟨hrefined, hvalid, hconfiguration⟩ :=
    negotiatePresence_available (decodeCapabilitiesResponse_refined hdecode) h
  exact ⟨_, data.limits, hrefined, hvalid, hconfiguration⟩

theorem IsNegotiated.bounds {configuration : NegotiatedPresenceConfiguration}
    (h : IsNegotiated configuration) : 0 < configuration.requestsPerMinute ∧
      0 < configuration.leaseMinSeconds ∧
      configuration.leaseMinSeconds ≤ configuration.recommendedHeartbeatSeconds ∧
      configuration.recommendedHeartbeatSeconds ≤ configuration.leaseMaxSeconds ∧
      configuration.leaseMaxSeconds ≤ 9007199254740991 := by
  have hlease := h.lease
  obtain ⟨mediaTimeline, limits, -, hvalid, rfl⟩ := h
  simp only [limitsAreValid, Bool.and_eq_true, decide_eq_true_eq] at hvalid
  simp only [negotiatedConfiguration] at hlease ⊢
  omega

/-- The lease that is asked for, in whole seconds. -/
def leaseSeconds (configuration : NegotiatedPresenceConfiguration) : Int :=
  min (max 90 configuration.leaseMinSeconds) configuration.leaseMaxSeconds

theorem IsNegotiated.leaseSeconds_bounds {configuration : NegotiatedPresenceConfiguration}
    (h : IsNegotiated configuration) :
    configuration.leaseMinSeconds ≤ leaseSeconds configuration ∧
      leaseSeconds configuration ≤ configuration.leaseMaxSeconds := by
  obtain ⟨-, hmin, hrecommended, hmax, -⟩ := h.bounds
  rw [leaseSeconds]
  omega

theorem Floats.Nearest.i64AsF64 (h : floats.Nearest) {value : Int} (hvalue : value.natAbs ≤ 2 ^ 53) :
    i64AsF64 floats value = .finite value := by
  simpa [YohakuCore.i64AsF64] using h.exact value 0 hvalue (by decide)

theorem requestedLease_eq (hfloats : floats.Nearest)
    {configuration : NegotiatedPresenceConfiguration} (h : IsNegotiated configuration) :
    requestedLease floats configuration = .finite (leaseSeconds configuration) := by
  obtain ⟨-, hmin, hrecommended, hmax, hsafe⟩ := h.bounds
  rw [requestedLease, hfloats.i64AsF64 (by omega), hfloats.i64AsF64 (by omega), F64.max_finite,
    F64.min_finite, leaseSeconds]
  push_cast
  rfl

/-- The heartbeat is a third of the lease, rounded, but not below a second and not above the
recommendation. -/
theorem heartbeatSeconds_eq (hfloats : floats.Nearest)
    {configuration : NegotiatedPresenceConfiguration} (h : IsNegotiated configuration) :
    ∃ third : ℚ, 0 ≤ third ∧ third ≤ ((leaseSeconds configuration + 2) / 3 : Int) ∧
      heartbeatSeconds floats configuration =
        .finite (min (configuration.recommendedHeartbeatSeconds : ℚ) (max third 1)) := by
  obtain ⟨-, hmin, hrecommended, hmax, hsafe⟩ := h.bounds
  obtain ⟨hlow, hhigh⟩ := h.leaseSeconds_bounds
  have hceil : (leaseSeconds configuration : ℚ) / 3 ≤
      ((leaseSeconds configuration + 2) / 3 : Int) := by
    have hle : leaseSeconds configuration ≤ 3 * ((leaseSeconds configuration + 2) / 3) := by omega
    have hleRat : (leaseSeconds configuration : ℚ) ≤
        3 * ((leaseSeconds configuration + 2) / 3 : Int) := by exact_mod_cast hle
    linarith
  have hzero : (0 : ℚ) ≤ (leaseSeconds configuration : ℚ) / 3 := by
    have hpos : (0 : ℚ) ≤ leaseSeconds configuration := by exact_mod_cast (by omega)
    positivity
  have hnone : floats.round 0 = .finite 0 := by
    simpa using hfloats.exact 0 0 (by decide) (by decide)
  obtain ⟨third, hround, hthird, hle⟩ := hfloats.between 0 _ _ hzero hceil hnone
    (hfloats.i64AsF64 (by omega))
  refine ⟨third, hthird, hle, ?_⟩
  rw [heartbeatSeconds, requestedLease_eq hfloats h, F64.divBy_finite, hround,
    hfloats.i64AsF64 (by omega), F64.max_finite, F64.min_finite]

theorem heartbeatSeconds_bounds (hfloats : floats.Nearest)
    {configuration : NegotiatedPresenceConfiguration} (h : IsNegotiated configuration) :
    ∃ seconds : ℚ, heartbeatSeconds floats configuration = .finite seconds ∧ 1 ≤ seconds ∧
      seconds ≤ 9007199254740991 := by
  obtain ⟨-, hmin, hrecommended, hmax, hsafe⟩ := h.bounds
  obtain ⟨third, -, -, hseconds⟩ := heartbeatSeconds_eq hfloats h
  have hone : (1 : ℚ) ≤ configuration.recommendedHeartbeatSeconds := by exact_mod_cast (by omega)
  have hsafe : (configuration.recommendedHeartbeatSeconds : ℚ) ≤ 9007199254740991 := by
    exact_mod_cast (by omega)
  exact ⟨_, hseconds, le_min hone (le_max_right _ _), (min_le_left _ _).trans hsafe⟩

theorem minSendInterval_bounds {configuration : NegotiatedPresenceConfiguration}
    (h : IsNegotiated configuration) : ∃ interval, minSendInterval configuration = some interval ∧
      interval = (60000 + configuration.requestsPerMinute - 1) / configuration.requestsPerMinute ∧
      1 ≤ interval ∧ interval ≤ 60000 := by
  have hpos := h.bounds.1
  refine ⟨_, divCeil_eq hpos, rfl, ?_, ?_⟩
  · rw [Nat.le_div_iff_mul_le hpos]
    omega
  · apply Nat.div_le_of_le_mul
    have hmul : configuration.requestsPerMinute * 60000 =
        59999 * (configuration.requestsPerMinute - 1) + 60000 +
          (configuration.requestsPerMinute - 1) := by omega
    omega

theorem spawnHeartbeatInterval_eq_some {seconds : ℚ} (hone : 1 ≤ seconds)
    (hsafe : seconds ≤ 9007199254740991) {now : Nat} (hnow : now < 2 ^ 63) :
    ∃ period, spawnHeartbeatInterval now (.finite seconds) = some (now + period, period) ∧
      nanosPerSecond ≤ period := by
  have hnanos : nanosPerSecond = 1000000000 := rfl
  obtain ⟨hlow, hhigh⟩ := roundHalfEven_bounds (seconds * nanosPerSecond)
  have hfloorLow : (1000000000 : Int) ≤ ⌊seconds * nanosPerSecond⌋ := by
    rw [Int.le_floor, hnanos]
    push_cast
    linarith
  have hfloorHigh : ⌊seconds * nanosPerSecond⌋ ≤ 9007199254740991000000000 := by
    rw [← Int.lt_add_one_iff, Int.floor_lt, hnanos]
    push_cast
    linarith
  have hneg : ¬ seconds < 0 := by linarith
  generalize hround : roundHalfEven (seconds * nanosPerSecond) = nanos at hlow hhigh
  have hlength : nanos.toNat / nanosPerSecond < 2 ^ 64 := by
    rw [hnanos]
    omega
  have hinstant : (now + nanos.toNat) / nanosPerSecond < 2 ^ 64 := by
    rw [hnanos]
    omega
  refine ⟨nanos.toNat, ?_, by rw [hnanos]; omega⟩
  rw [spawnHeartbeatInterval, durationFromSecs]
  simp only [hneg, if_false, hround, hlength, if_true, Option.bind_some, intervalAt, hinstant,
    true_and]
  rw [if_pos (by omega)]

/-- The first and the last millisecond of the years 0 to 9999. -/
def InClockYears (epochMs : Int) : Prop := -62167219200000 ≤ epochMs ∧ epochMs ≤ 253402300799999

theorem throttleWait_eq_some {last now : Int} {interval : Nat} (hlast : InClockYears last)
    (hnow : InClockYears now) (hinterval : interval ≤ 60000) :
    throttleWait last interval now = some (last + interval - now) := by
  obtain ⟨hlast, hlast'⟩ := hlast
  obtain ⟨hnow, hnow'⟩ := hnow
  have hsum : -2 ^ 63 ≤ last + (interval : Int) ∧ last + (interval : Int) < 2 ^ 63 := by omega
  have hwait : -2 ^ 63 ≤ last + (interval : Int) - now ∧
      last + (interval : Int) - now < 2 ^ 63 := by
    omega
  rw [throttleWait, u64AsI64_eq (by omega), checkedI64, if_pos hsum, Option.bind_some, checkedI64,
    if_pos hwait]

theorem saturateToI64_whole {seconds : Int} (hlow : 0 ≤ seconds) (hhigh : seconds < 2 ^ 63) :
    saturateToI64 (roundHalfAway (.finite seconds)) = seconds := by
  have hpos : (0 : ℚ) ≤ seconds := by exact_mod_cast hlow
  have hfloor : ⌊(seconds : ℚ) + 1 / 2⌋ = seconds := by
    rw [Int.floor_eq_iff]
    constructor <;> linarith
  simp only [roundHalfAway, hpos, if_true, hfloor, saturateToI64, Rat.num_intCast]
  omega

/-- The coordinator's state after an installation holds what `configure` computes. -/
theorem install_parameters (hfloats : floats.Nearest) (c : Coordinator)
    (connection : StoredConnection) (token : String)
    {configuration : NegotiatedPresenceConfiguration} (h : IsNegotiated configuration) :
    requestedLease floats configuration =
        .finite (c.install connection token configuration).inner.requestedLeaseSeconds ∧
      minSendInterval configuration =
        some (c.install connection token configuration).inner.minSendIntervalMs := by
  obtain ⟨interval, hinterval, rfl, -⟩ := minSendInterval_bounds h
  exact ⟨requestedLease_eq hfloats h, hinterval⟩

theorem ttlSeconds_eq (hfloats : floats.Nearest) {calendar : Calendar}
    {configuration : NegotiatedPresenceConfiguration} (h : IsNegotiated configuration)
    {snapshot : SanitizedPresenceSnapshot} {sequence : UInt64} {deviceId requestId : String}
    {request : PresenceRequest}
    (hrequest : makePresenceRequest calendar floats snapshot sequence
      (requestedLease floats configuration) (makeRequestOptions deviceId configuration) requestId =
        .ok request) : (request.data.ttlSeconds : Int) = leaseSeconds configuration := by
  obtain ⟨-, hmin, hrecommended, hmax, hsafe⟩ := h.bounds
  obtain ⟨hlow, hhigh⟩ := h.leaseSeconds_bounds
  rw [(makePresenceRequest_eq_ok hrequest).2.2.2, requestedLease_eq hfloats h,
    saturateToI64_whole (by omega) (by omega), makeRequestOptions]
  simp only
  omega

/-- Whatever integers an accepted document holds, the negotiation has one outcome. When it leads to
a configuration, its casts lose nothing, and neither the installation, the heartbeat, the throttle
nor the mapper divides by zero, overflows or panics. -/
theorem capabilities_cannot_wedge (hfloats : floats.Nearest) {calendar : Calendar} {value : Json}
    {data : CapabilitiesData} (hdecode : decodeCapabilitiesResponse calendar value = some data)
    (clientVersion : String) :
    ∃ outcome, negotiatePresence data clientVersion = some outcome ∧
      ∀ configuration, outcome = .available configuration →
        ((configuration.maximumPayloadBytes : Int) = data.limits.presencePayloadBytes ∧
          (configuration.requestsPerMinute : Int) = data.limits.presenceRequestsPerMinute ∧
          0 < configuration.requestsPerMinute) ∧
        (∃ interval, minSendInterval configuration = some interval ∧
          1 ≤ interval ∧ interval ≤ 60000 ∧ u64AsI64 interval = interval ∧
          ∀ last now, InClockYears last → InClockYears now →
            throttleWait last interval now = some (last + interval - now)) ∧
        (∃ seconds, heartbeatSeconds floats configuration = .finite seconds ∧ 1 ≤ seconds ∧
          ∀ now < 2 ^ 63, ∃ period, nanosPerSecond ≤ period ∧
            spawnHeartbeatInterval now (.finite seconds) = some (now + period, period)) ∧
        (∃ lease : Int, requestedLease floats configuration = .finite lease ∧
          configuration.leaseMinSeconds ≤ lease ∧ lease ≤ configuration.leaseMaxSeconds ∧
          saturateToI64 (roundHalfAway (requestedLease floats configuration)) = lease ∧
          ∀ snapshot sequence deviceId requestId request,
            makePresenceRequest calendar floats snapshot sequence
                (requestedLease floats configuration) (makeRequestOptions deviceId configuration)
                requestId = .ok request → (request.data.ttlSeconds : Int) = lease) ∧
        ∀ (c : Coordinator) connection token,
          requestedLease floats configuration =
              .finite (c.install connection token configuration).inner.requestedLeaseSeconds ∧
            minSendInterval configuration =
              some (c.install connection token configuration).inner.minSendIntervalMs := by
  obtain ⟨outcome, houtcome⟩ := negotiatePresence_total data clientVersion
  refine ⟨outcome, houtcome, ?_⟩
  rintro configuration rfl
  have hnegotiated := IsNegotiated.of_negotiate hdecode houtcome
  obtain ⟨hpos, hmin, hrecommended, hmax, hsafe⟩ := hnegotiated.bounds
  obtain ⟨-, hvalid, hconfiguration⟩ :=
    negotiatePresence_available (decodeCapabilitiesResponse_refined hdecode) houtcome
  refine ⟨?_, ?_, ?_, ?_, ?_⟩
  · simp only [limitsAreValid, Bool.and_eq_true, decide_eq_true_eq] at hvalid
    simp only [hconfiguration, negotiatedConfiguration] at hpos ⊢
    omega
  · obtain ⟨interval, hinterval, -, hlow, hhigh⟩ := minSendInterval_bounds hnegotiated
    exact ⟨interval, hinterval, hlow, hhigh, u64AsI64_eq (by omega),
      fun last now hlast hnow => throttleWait_eq_some hlast hnow hhigh⟩
  · obtain ⟨seconds, hseconds, hone, hsafe⟩ := heartbeatSeconds_bounds hfloats hnegotiated
    refine ⟨seconds, hseconds, hone, ?_⟩
    intro now hnow
    obtain ⟨period, hspawn, hperiod⟩ := spawnHeartbeatInterval_eq_some hone hsafe hnow
    exact ⟨period, hperiod, hspawn⟩
  · obtain ⟨hlow, hhigh⟩ := hnegotiated.leaseSeconds_bounds
    have hlease := requestedLease_eq hfloats hnegotiated
    refine ⟨_, hlease, hlow, hhigh, ?_, ?_⟩
    · rw [hlease]
      exact saturateToI64_whole (by omega) (by omega)
    · intro snapshot sequence deviceId requestId request hrequest
      exact ttlSeconds_eq hfloats hnegotiated hrequest
  · intro c connection token
    exact install_parameters hfloats c connection token hnegotiated

def announcedInteger (value : Int) : Json := .number (.posInt (UInt64.ofNat value.toNat))

/-- A document that asks for client 1.8.0 and announces these limits. -/
def capabilitiesDocument (limits : CapabilitiesLimits) : Json :=
  .object [
    ("meta", .object [
      ("schema", .string presenceSchema),
      ("schemaVersion", announcedInteger 2),
      ("requestId", .string "22222222-0000-4000-8000-000000000000"),
      ("serverTime", .string "1970-01-01T00:00:00.000Z")]),
    ("data", .object [
      ("minimumClientVersion", .string "1.8.0"),
      ("presenceSchemaVersions", .array [announcedInteger 1, announcedInteger 2]),
      ("momentSchemaVersions", .array []),
      ("features", .object [
        ("liveDesk", .bool true),
        ("mediaTimeline", .bool true),
        ("moments", .bool false),
        ("readingSessions", .bool false)]),
      ("limits", .object [
        ("presencePayloadBytes", announcedInteger limits.presencePayloadBytes),
        ("presenceRequestsPerMinute", announcedInteger limits.presenceRequestsPerMinute),
        ("presenceLeaseMinSeconds", announcedInteger limits.presenceLeaseMinSeconds),
        ("presenceLeaseMaxSeconds", announcedInteger limits.presenceLeaseMaxSeconds),
        ("recommendedHeartbeatSeconds", announcedInteger limits.recommendedHeartbeatSeconds),
        ("maximumClockSkewSeconds", announcedInteger limits.maximumClockSkewSeconds)])])]

def announcedData (limits : CapabilitiesLimits) : CapabilitiesData where
  minimumClientVersion := "1.8.0"
  presenceSchemaVersions := [1, 2]
  momentSchemaVersions := []
  features := {
    liveDesk := true
    mediaTimeline := true
    moments := false
    readingSessions := false
    mediaArtwork := none
    mediaPlaybackLinks := none }
  limits := limits

def protocolClientVersion : String := "1.8.3"

theorem capabilitiesDocument_decodes : decodeCapabilitiesResponse .epoch
    (capabilitiesDocument announcedLimits) = some (announcedData announcedLimits) := by
  decide +kernel

theorem capabilities_cannot_wedge_announced :
    negotiatePresence (announcedData announcedLimits) protocolClientVersion =
        some (.available (negotiatedConfiguration true announcedLimits)) ∧
      ∃ seconds, heartbeatSeconds .integral (negotiatedConfiguration true announcedLimits) =
        .finite seconds ∧ 1 ≤ seconds := by
  obtain ⟨outcome, houtcome, hparameters⟩ := capabilities_cannot_wedge Floats.integral_nearest
    capabilitiesDocument_decodes protocolClientVersion
  have hnegotiate : negotiatePresence (announcedData announcedLimits) protocolClientVersion =
      some (.available (negotiatedConfiguration true announcedLimits)) := by
    decide +kernel
  obtain rfl := Option.some.inj (houtcome.symm.trans hnegotiate)
  obtain ⟨-, -, ⟨seconds, hseconds, hone, -⟩, -⟩ := hparameters _ rfl
  exact ⟨hnegotiate, seconds, hseconds, hone⟩

end YohakuCore
