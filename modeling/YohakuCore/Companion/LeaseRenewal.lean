import YohakuCore.Companion.NegotiatedParameters

/-!
# Renewal of a lease

Heartbeats come at a third of the lease and sends as the announced rate asks. Neither bound looks at
the lease itself.
-/

namespace YohakuCore

open Framework

variable {floats : Floats}

/-- Both delays of a renewal are shorter than the time to live of a request: a heartbeat that comes
at most one period after a send starts the next send before that time is over. -/
structure RenewsInTime (floats : Floats) (configuration : NegotiatedPresenceConfiguration)
    (ttlSeconds : Nat) : Prop where
  heartbeat : ∃ seconds, heartbeatSeconds floats configuration = .finite seconds ∧
    seconds < ttlSeconds
  interval : ∃ interval, minSendInterval configuration = some interval ∧
    interval < 1000 * ttlSeconds
  next : ∀ interval seconds, minSendInterval configuration = some interval →
    heartbeatSeconds floats configuration = .finite seconds →
      ∀ last now : Int, (now : ℚ) ≤ last + 1000 * seconds →
        ((now + max 0 (last + interval - now) : Int) : ℚ) < last + 1000 * ttlSeconds

/-- The largest lease has at least two seconds, and is longer than the share of a minute that the
rate leaves to one request. -/
def LeaseOutlastsRate (configuration : NegotiatedPresenceConfiguration) : Prop :=
  2 ≤ configuration.leaseMaxSeconds ∧
    60000 ≤ configuration.requestsPerMinute * (1000 * configuration.leaseMaxSeconds - 1)

theorem RenewsInTime.of_delays {configuration : NegotiatedPresenceConfiguration} {ttlSeconds : Nat}
    (hheartbeat : ∃ seconds, heartbeatSeconds floats configuration = .finite seconds ∧
      seconds < ttlSeconds)
    (hinterval : ∃ interval, minSendInterval configuration = some interval ∧
      interval < 1000 * ttlSeconds) : RenewsInTime floats configuration ttlSeconds := by
  refine ⟨hheartbeat, hinterval, ?_⟩
  obtain ⟨seconds, hseconds, hshort⟩ := hheartbeat
  obtain ⟨interval, hsome, hlow⟩ := hinterval
  intro interval' seconds' hinterval' hseconds' last now hnow
  obtain rfl := Option.some.inj (hsome.symm.trans hinterval')
  obtain rfl := F64.finite.inj (hseconds.symm.trans hseconds')
  have hlow : (interval : ℚ) < 1000 * ttlSeconds := by exact_mod_cast hlow
  rcases le_total (last + (interval : Int) - now) 0 with hle | hle
  · rw [max_eq_left hle, add_zero]
    linarith
  · rw [max_eq_right hle]
    push_cast
    linarith

theorem heartbeat_lt_iff (hfloats : floats.Nearest)
    {configuration : NegotiatedPresenceConfiguration} (h : IsNegotiated configuration) :
    (∃ seconds, heartbeatSeconds floats configuration = .finite seconds ∧
      seconds < leaseSeconds configuration) ↔ 2 ≤ configuration.leaseMaxSeconds := by
  obtain ⟨-, hmin, hrecommended, hmax, hsafe⟩ := h.bounds
  obtain ⟨third, hthird, hle, hseconds⟩ := heartbeatSeconds_eq hfloats h
  rw [hseconds]
  simp only [F64.finite.injEq, exists_eq_left']
  constructor
  · intro hlt
    by_contra hone
    -- a lease of one second leaves one value to the recommendation and to the floor
    have hrec : configuration.recommendedHeartbeatSeconds = 1 := by omega
    have hlease : leaseSeconds configuration = 1 := by
      rw [leaseSeconds]
      omega
    rw [hrec, hlease] at hlt
    have hmax : (1 : ℚ) ≤ max third 1 := le_max_right _ _
    simp [hmax] at hlt
  · intro htwo
    have hlease : 2 ≤ leaseSeconds configuration := by
      rw [leaseSeconds]
      omega
    apply lt_of_le_of_lt (min_le_right _ _)
    apply max_lt
    · apply lt_of_le_of_lt hle
      exact_mod_cast (by omega : (leaseSeconds configuration + 2) / 3 < leaseSeconds configuration)
    · exact_mod_cast (by omega : 1 < leaseSeconds configuration)

theorem interval_lt_iff {configuration : NegotiatedPresenceConfiguration}
    (h : IsNegotiated configuration) :
    (∃ interval, minSendInterval configuration = some interval ∧
      (interval : Int) < 1000 * leaseSeconds configuration) ↔
    60000 ≤ configuration.requestsPerMinute * (1000 * configuration.leaseMaxSeconds - 1) := by
  obtain ⟨hpos, hmin, hrecommended, hmax, hsafe⟩ := h.bounds
  obtain ⟨interval, hinterval, hvalue, hlow, hhigh⟩ := minSendInterval_bounds h
  rw [hinterval]
  simp only [Option.some.injEq, exists_eq_left']
  have hceil (n : Nat) : interval ≤ n ↔ 60000 ≤ configuration.requestsPerMinute * n := by
    rw [hvalue, ← Nat.lt_add_one_iff, Nat.div_lt_iff_lt_mul hpos, Nat.add_mul, Nat.mul_comm n]
    omega
  obtain ⟨n, hn⟩ : ∃ n : Nat, (n : Int) = 1000 * configuration.leaseMaxSeconds - 1 :=
    ⟨(1000 * configuration.leaseMaxSeconds - 1).toNat, by omega⟩
  rw [← hn]
  have hcast : (60000 : Int) ≤ configuration.requestsPerMinute * n ↔
      60000 ≤ configuration.requestsPerMinute * n := by exact_mod_cast Iff.rfl
  rw [hcast, ← hceil]
  -- a largest lease of a minute and a half or more is longer than any interval
  rcases Int.lt_or_le configuration.leaseMaxSeconds 90 with hshort | hlong
  · have hlease : leaseSeconds configuration = configuration.leaseMaxSeconds := by
      rw [leaseSeconds]
      omega
    omega
  · have hlease : 90 ≤ leaseSeconds configuration := by
      rw [leaseSeconds]
      omega
    omega

/-- A request of an accepted configuration is renewed in time exactly when its lease can be. -/
theorem lease_renewed_iff (hfloats : floats.Nearest) {calendar : Calendar} {value : Json}
    {data : CapabilitiesData} {clientVersion : String}
    {configuration : NegotiatedPresenceConfiguration}
    (hdecode : decodeCapabilitiesResponse calendar value = some data)
    (hnegotiate : negotiatePresence data clientVersion = some (.available configuration))
    {snapshot : SanitizedPresenceSnapshot} {sequence : UInt64} {deviceId requestId : String}
    {request : PresenceRequest}
    (hrequest : makePresenceRequest calendar floats snapshot sequence
      (requestedLease floats configuration) (makeRequestOptions deviceId configuration) requestId =
        .ok request) :
    RenewsInTime floats configuration request.data.ttlSeconds ↔ LeaseOutlastsRate configuration := by
  have h := IsNegotiated.of_negotiate hdecode hnegotiate
  have httl := ttlSeconds_eq hfloats h hrequest
  have httlRat : (request.data.ttlSeconds : ℚ) = leaseSeconds configuration := by
    exact_mod_cast congrArg (Int.cast (R := ℚ)) httl
  have hcast (interval : Nat) : (interval : Int) < 1000 * leaseSeconds configuration ↔
      interval < 1000 * request.data.ttlSeconds := by
    rw [← httl]
    exact_mod_cast Iff.rfl
  have hheartbeat := heartbeat_lt_iff hfloats h
  have hinterval := interval_lt_iff h
  simp only [← httlRat, hcast] at hheartbeat hinterval
  constructor
  · intro hrenews
    exact ⟨hheartbeat.mp hrenews.heartbeat, hinterval.mp hrenews.interval⟩
  · intro houtlasts
    exact RenewsInTime.of_delays (hheartbeat.mpr houtlasts.1) (hinterval.mpr houtlasts.2)

/-- The request of an empty snapshot of the first instant. -/
def idleRequest (ttlSeconds : Nat) : PresenceRequest where
  requestMeta := {
    schema := presenceSchema
    schemaVersion := presenceSchemaVersion
    requestId := "33333333-0000-4000-8000-000000000000"
    deviceId := "11111111-0000-4000-8000-000000000000"
    sequence := 0
    observedAt := "1970-01-01T00:00:00.000Z" }
  data := {
    availability := .idle
    ttlSeconds := ttlSeconds
    application := none
    media := none }

/-- The mapper makes the request under the configuration that these limits lead to. -/
def MapsIdle (limits : CapabilitiesLimits) (ttlSeconds : Nat) : Prop :=
  makePresenceRequest .epoch .integral ⟨0, none, none⟩ 0
    (requestedLease .integral (negotiatedConfiguration true limits))
    (makeRequestOptions "11111111-0000-4000-8000-000000000000"
      (negotiatedConfiguration true limits))
    "33333333-0000-4000-8000-000000000000" = .ok (idleRequest ttlSeconds)

instance (limits : CapabilitiesLimits) (ttlSeconds : Nat) : Decidable (MapsIdle limits ttlSeconds) :=
  inferInstanceAs (Decidable (_ = _))

/-- A lease of ninety seconds at sixty requests a minute. -/
theorem lease_renewed_iff_announced :
    RenewsInTime .integral (negotiatedConfiguration true announcedLimits) 90 ↔
      LeaseOutlastsRate (negotiatedConfiguration true announcedLimits) :=
  have hrequest : MapsIdle announcedLimits 90 := by decide +kernel
  have hnegotiate : negotiatePresence (announcedData announcedLimits) protocolClientVersion =
      some (.available (negotiatedConfiguration true announcedLimits)) := by
    decide +kernel
  lease_renewed_iff Floats.integral_nearest capabilitiesDocument_decodes hnegotiate hrequest

def oneSecondLease : CapabilitiesLimits where
  presencePayloadBytes := 32768
  presenceRequestsPerMinute := 120
  presenceLeaseMinSeconds := 1
  presenceLeaseMaxSeconds := 1
  recommendedHeartbeatSeconds := 1
  maximumClockSkewSeconds := 300

def oneRequestPerMinute : CapabilitiesLimits where
  presencePayloadBytes := 32768
  presenceRequestsPerMinute := 1
  presenceLeaseMinSeconds := 30
  presenceLeaseMaxSeconds := 60
  recommendedHeartbeatSeconds := 30
  maximumClockSkewSeconds := 300

/-- A server that announces the limits is accepted, and the lease is not renewed in time. -/
structure RunsOut (limits : CapabilitiesLimits) (ttlSeconds : Nat) : Prop where
  decodes : decodeCapabilitiesResponse .epoch (capabilitiesDocument limits) =
    some (announcedData limits)
  accepted : negotiatePresence (announcedData limits) protocolClientVersion =
    some (.available (negotiatedConfiguration true limits))
  maps : MapsIdle limits ttlSeconds
  late : ¬ RenewsInTime .integral (negotiatedConfiguration true limits) ttlSeconds

/-- A heartbeat that comes when the lease of a second ends, and a send that is held back until the
lease of a minute ends. -/
theorem lease_not_renewed_in_time : RunsOut oneSecondLease 1 ∧ RunsOut oneRequestPerMinute 60 := by
  constructor
  · refine ⟨by decide +kernel, by decide +kernel, by decide +kernel, ?_⟩
    intro hrenews
    obtain ⟨seconds, hseconds, hlt⟩ := hrenews.heartbeat
    have hone : heartbeatSeconds .integral (negotiatedConfiguration true oneSecondLease) =
        .finite 1 := by
      decide +kernel
    rw [hone, F64.finite.injEq] at hseconds
    rw [← hseconds] at hlt
    norm_num at hlt
  · refine ⟨by decide +kernel, by decide +kernel, by decide +kernel, ?_⟩
    intro hrenews
    obtain ⟨interval, hinterval, hlt⟩ := hrenews.interval
    have hminute : minSendInterval (negotiatedConfiguration true oneRequestPerMinute) =
        some 60000 := by
      decide +kernel
    rw [hminute, Option.some.injEq] at hinterval
    omega

end YohakuCore
