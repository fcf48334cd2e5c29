import YohakuCore.Capture.Publishable
import YohakuCore.Companion.ReplacePresence

/-! # How large a request gets -/

namespace YohakuCore

open Framework

variable {u : UnicodeData} {calendar : Calendar} {floats : Floats} {shortest : ℚ≥0 → String}
  {parse : String → Option Json}

/-- The trackers that captures lead to, each with a fresh UUID. -/
inductive TrackerReachable (u : UnicodeData) : MediaSessionTracker → Prop where
  | new : TrackerReachable u .new
  | captured (options : CaptureOptions) (input : CaptureInput) (reads : Nat → PrivacyConfig)
      {tracker : MediaSessionTracker} (reachable : TrackerReachable u tracker)
      (minted : isUuid input.freshId = true) :
      TrackerReachable u (captureForDelivery u options input tracker reads).tracker
  | reset {tracker : MediaSessionTracker} (reachable : TrackerReachable u tracker) :
      TrackerReachable u tracker.reset

/-- The remembered session id is a UUID. -/
def MediaSessionTracker.RemembersUuid (tracker : MediaSessionTracker) : Prop :=
  ∀ identity sessionId, tracker.current = some (identity, sessionId) → isUuid sessionId = true

theorem reset_remembersUuid (tracker : MediaSessionTracker) : tracker.reset.RemembersUuid := by
  intro identity sessionId h
  simp [MediaSessionTracker.reset] at h

theorem sessionId_isUuid {tracker : MediaSessionTracker} (h : tracker.RemembersUuid)
    (identity : MediaSemanticIdentity) {freshId : String} (hminted : isUuid freshId = true) :
    isUuid (tracker.sessionId identity freshId).1 = true := by
  unfold MediaSessionTracker.sessionId
  split
  · rename_i current sessionId hcurrent
    split
    · exact h current sessionId hcurrent
    · exact hminted
  · exact hminted

theorem captureMedia_remembersUuid {tracker : MediaSessionTracker} (h : tracker.RemembersUuid)
    (config : PrivacyConfig) (raw : Option MediaSnapshot) {freshId : String}
    (hminted : isUuid freshId = true) :
    (captureMedia u config raw freshId tracker).2.RemembersUuid := by
  unfold captureMedia
  split
  · rename_i media hmedia
    have hid := sessionId_isUuid h (semanticIdentity media) hminted
    have hcurrent := tracker.sessionId_current (semanticIdentity media) freshId
    intro identity sessionId hsession
    simp only [hcurrent, Option.some.injEq, Prod.mk.injEq] at hsession
    rwa [← hsession.2]
  · exact reset_remembersUuid tracker

theorem captureForDelivery_remembersUuid {tracker : MediaSessionTracker}
    (h : tracker.RemembersUuid) (options : CaptureOptions) {input : CaptureInput}
    (reads : Nat → PrivacyConfig) (hminted : isUuid input.freshId = true) :
    (captureForDelivery u options input tracker reads).tracker.RemembersUuid := by
  simp only [captureForDelivery]
  split
  · exact captureMedia_remembersUuid h _ _ hminted
  · exact reset_remembersUuid tracker
  · exact h

theorem TrackerReachable.remembersUuid {tracker : MediaSessionTracker}
    (h : TrackerReachable u tracker) : tracker.RemembersUuid := by
  induction h with
  | new =>
      intro identity sessionId hsession
      simp [MediaSessionTracker.new] at hsession
  | captured options input reads reachable minted ih =>
      exact captureForDelivery_remembersUuid ih options reads minted
  | reset reachable ih => exact reset_remembersUuid _

theorem isUuid_length {value : String} (h : isUuid value = true) : value.toList.length = 36 := by
  simp only [isUuid, Bool.and_eq_true, decide_eq_true_eq] at h
  exact h.1

theorem isValidWireIdentifier_length {value : String} (h : isValidWireIdentifier value = true) :
    value.toList.length ≤ 36 := by
  simp only [isValidWireIdentifier, Bool.or_eq_true, isUlid, Bool.and_eq_true,
    decide_eq_true_eq] at h
  rcases h with h | h
  · exact (isUuid_length h).le
  · omega

/-- What of a captured media the mapper passes on without a limit of its own. -/
structure CapturedMedia (media : SanitizedMediaPresence) : Prop where
  sessionId : isUuid media.sessionId = true
  rate : media.playback.rate = 1

theorem captureForDelivery_capturedMedia {tracker : MediaSessionTracker}
    (h : tracker.RemembersUuid) {options : CaptureOptions} {input : CaptureInput}
    {reads : Nat → PrivacyConfig} (hminted : isUuid input.freshId = true)
    {media : SanitizedMediaPresence}
    (hmedia : (captureForDelivery u options input tracker reads).snapshot.media = some media) :
    CapturedMedia media := by
  obtain ⟨-, hcaptured⟩ := captureForDelivery_media hmedia
  obtain ⟨sample, sanitized, -, hsanitized, rfl⟩ := captureMedia_withSession hcaptured
  refine ⟨sessionId_isUuid h _ hminted, ?_⟩
  have hplaying := (sanitizedMediaOf_sound hsanitized).2.1
  rw [sanitizedMediaOf] at hsanitized
  split at hsanitized
  · have hplayback := sanitizeMedia_playback hsanitized
    simp [withSession, hplayback, hplaying]
  · contradiction

theorem encodeWireDate_length {epochMs : Int} {text : String}
    (h : encodeWireDate calendar epochMs = .ok text) : text.toList.length = 24 := by
  rw [encodeWireDate] at h
  split at h
  · contradiction
  · split at h
    · rename_i encoded hformat hmatches
      obtain rfl := Except.ok.inj h
      simp only [matchesRfc3339MsUtc, Bool.and_eq_true, decide_eq_true_eq] at hmatches
      exact hmatches.1
    · contradiction

theorem makeMeta_bounded {deviceId requestId : String} {sequence : UInt64} {observedAt : Int}
    {requestMeta : PresenceRequestMeta} (hdevice : isValidWireIdentifier deviceId = true)
    (hrequest : isUuid requestId = true) (hsequence : sequence.toNat < 2 ^ 53)
    (h : makeMeta calendar deviceId sequence observedAt requestId = .ok requestMeta) :
    requestMeta.Bounded := by
  obtain ⟨date, hdate, rfl⟩ := makeMeta_eq_ok h
  have hbound : sequence.toNat < 10 ^ 16 := by omega
  constructor
  · rfl
  · rfl
  · exact (isUuid_length hrequest).le
  · exact isValidWireIdentifier_length hdevice
  · exact hbound
  · exact (encodeWireDate_length hdate).le

theorem mapApplication_bounded {snapshot : SanitizedPresenceSnapshot}
    {application : WireApplicationContext}
    (h : mapApplication snapshot = .ok (some application)) : application.Bounded := by
  rw [mapApplication] at h
  split at h
  · simp at h
  · split at h
    · simp at h
    · rename_i displayName hname
      simp only [Except.ok.injEq, Option.some.injEq] at h
      subst h
      constructor
      · exact (boundedText_isWireText hname).2
      · intro title htitle
        exact (boundedText_isWireText htitle).2

theorem secondsToWireMilliseconds_lt {seconds : ℚ≥0} {field : String} {ms : UInt64}
    (h : secondsToWireMilliseconds floats seconds field = .ok ms) : ms.toNat < 10 ^ 16 := by
  simp only [secondsToWireMilliseconds, requireWireInteger] at h
  split at h
  · rename_i value hrounded
    split at h
    · rename_i hrange
      obtain ⟨hden, -, hmax⟩ := hrange
      have hvalue : (value.num : ℚ) = value := Rat.coe_int_num_of_den_eq_one hden
      rw [← hvalue, toNat_maximumSafeWireInteger] at hmax
      have hnum : value.num ≤ 2 ^ 53 - 1 := by exact_mod_cast hmax
      obtain rfl := Except.ok.inj h
      rw [UInt64.toNat_ofNat']
      omega
    · contradiction
  · contradiction

theorem optionalMilliseconds_lt {seconds : Option ℚ≥0} {field : String} {value : Option UInt64}
    (h : optionalMilliseconds floats seconds field = .ok value) {ms : UInt64}
    (hms : value = some ms) : ms.toNat < 10 ^ 16 := by
  cases seconds with
  | none => simp [optionalMilliseconds, hms] at h
  | some seconds =>
      obtain ⟨whole, hwhole, rfl⟩ := map_eq_ok h
      rw [← Option.some.inj hms]
      exact secondsToWireMilliseconds_lt hwhole

theorem mapMedia_bounded {snapshot : SanitizedPresenceSnapshot}
    (hcaptured : ∀ media, snapshot.media = some media → CapturedMedia media)
    {media : WireMediaContext} (h : mapMedia calendar floats snapshot = .ok (some media)) :
    media.Bounded := by
  obtain ⟨captured, duration, position, sampledAt, hmedia, hduration, hposition, hsampled, rfl⟩ :=
    mapMedia_eq_ok h
  obtain ⟨hsession, hrate⟩ := hcaptured captured hmedia
  constructor
  · exact (isUuid_length hsession).le
  · rintro text (htext | htext | htext) <;> exact (boundedText_isWireText htext).2
  · intro name hname
    exact (boundedText_isWireText hname).2
  · rintro ms (hms | hms)
    · exact optionalMilliseconds_lt hduration hms
    · rcases clampMilliseconds_eq_some hms with hms | hms
      · exact optionalMilliseconds_lt hposition hms
      · exact optionalMilliseconds_lt hduration hms
  · exact (encodeWireDate_length hsampled).le
  · exact hrate

theorem makePresenceRequest_bounded {snapshot : SanitizedPresenceSnapshot}
    (hcaptured : ∀ media, snapshot.media = some media → CapturedMedia media)
    {configuration : NegotiatedPresenceConfiguration} (hnegotiated : IsNegotiated configuration)
    {deviceId requestId : String} (hdevice : isValidWireIdentifier deviceId = true)
    (hrequest : isUuid requestId = true) {sequence : UInt64}
    (hsequence : sequence.toNat < 2 ^ 53) {requestedLeaseSeconds : F64}
    {request : PresenceRequest}
    (h : makePresenceRequest calendar floats snapshot sequence requestedLeaseSeconds
      (makeRequestOptions deviceId configuration) requestId = .ok request) : request.Bounded := by
  obtain ⟨happlication, hmedia, hmeta, httl⟩ := makePresenceRequest_eq_ok h
  obtain ⟨hpos, hle, hmax⟩ := hnegotiated.lease
  constructor
  · exact makeMeta_bounded hdevice hrequest hsequence hmeta
  · rw [httl]
    simp only [makeRequestOptions]
    omega
  · intro application ha
    exact mapApplication_bounded (ha ▸ happlication)
  · intro media hm
    exact mapMedia_bounded hcaptured (hm ▸ hmedia)

theorem perform_ne_payloadTooLarge {client : PresenceClient} {method : HttpMethod}
    {path requestId : String} {body : List UInt8}
    (hsize : body.length ≤ client.configuration.maximumPayloadBytes)
    (network : Nat → HttpRequest → Option HttpResponse)
    (reconcile : Nat → UInt64 → Except SequencerError Unit) (actual limit : Nat) :
    (performWithSingleRetry calendar parse client method path requestId body network
      reconcile).result ≠ .error (.transport (.payloadTooLarge actual limit)) := by
  have hcap : (client.attemptOptions method path requestId body).overCap = none := by
    simp [PresenceClient.attemptOptions, ExecuteOptions.overCap, Nat.not_lt.mpr hsize]
  rw [perform_eq network reconcile hcap]
  intro h
  simp only at h
  split at h <;> exact reportResponse_ne_payloadTooLarge (concludeAnswer_transport h)

theorem IsUnsent.ne_transport {performed : Performed} (h : IsUnsent performed)
    (error : CompanionTransportError) : performed.result ≠ .error (.transport error) := by
  rcases h with ⟨_, rfl⟩ | ⟨_, rfl⟩ <;> simp

/-- The bytes of both requests are bounded, and a call under a cap of that size never fails for its
size. -/
theorem request_size_bound (options : CaptureOptions) {input : CaptureInput}
    (hminted : isUuid input.freshId = true) {tracker : MediaSessionTracker}
    (htracker : TrackerReachable u tracker) (reads : Nat → PrivacyConfig)
    {client : PresenceClient}
    (hdevice : isValidWireIdentifier client.credential.deviceId = true)
    (hnegotiated : IsNegotiated client.configuration) {requestId : String}
    (hrequest : isUuid requestId = true) {sequence : UInt64}
    (hsequence : sequence.toNat < 2 ^ 53) (requestedLeaseSeconds : F64) :
    let snapshot := (captureForDelivery u options input tracker reads).snapshot
    let cap := client.configuration.maximumPayloadBytes
    (∀ request, makePresenceRequest calendar floats snapshot sequence requestedLeaseSeconds
        client.makeRequestOptions requestId = .ok request →
      (encodeBody (request.document shortest)).length ≤ 12288) ∧
    (∀ reason observedAt request, makeClearRequest calendar reason sequence observedAt
        client.makeRequestOptions requestId = .ok request →
      (encodeBody request.document).length ≤ 1024) ∧
    (12288 ≤ cap → ∀ network reconcile actual limit,
      (client.replacePresence calendar floats shortest parse snapshot requestedLeaseSeconds
          requestId (.ok sequence) network reconcile).result ≠
        .error (.transport (.payloadTooLarge actual limit))) ∧
    (1024 ≤ cap → ∀ reason observedAt network reconcile actual limit,
      (client.clearPresence calendar parse reason observedAt requestId (.ok sequence) network
          reconcile).result ≠ .error (.transport (.payloadTooLarge actual limit))) := by
  intro snapshot cap
  have hcaptured (media : SanitizedMediaPresence) (hmedia : snapshot.media = some media) :
      CapturedMedia media :=
    captureForDelivery_capturedMedia htracker.remembersUuid hminted hmedia
  have hpresence (request : PresenceRequest) (h : makePresenceRequest calendar floats snapshot
      sequence requestedLeaseSeconds client.makeRequestOptions requestId = .ok request) :
      (encodeBody (request.document shortest)).length ≤ 12288 := by
    rw [encodeBody_length]
    exact (makePresenceRequest_bounded hcaptured hnegotiated hdevice hrequest hsequence h).size_le
  have hclear (reason : ClearReason) (observedAt : Int) (request : ClearRequest)
      (h : makeClearRequest calendar reason sequence observedAt client.makeRequestOptions
        requestId = .ok request) : (encodeBody request.document).length ≤ 1024 := by
    rw [encodeBody_length]
    exact clearRequest_size_le
      (makeMeta_bounded hdevice hrequest hsequence (makeClearRequest_meta h))
  refine ⟨hpresence, hclear, ?_, ?_⟩
  · intro hcap network reconcile actual limit
    rcases replacePresence_cases calendar floats shortest parse client snapshot
      requestedLeaseSeconds requestId (.ok sequence)
      with hunsent | ⟨reserved, request, hreserved, hmapped, hperformed⟩
    · exact (hunsent network reconcile).ne_transport _
    · obtain rfl := Except.ok.inj hreserved
      rw [hperformed network reconcile]
      exact perform_ne_payloadTooLarge ((hpresence request hmapped).trans hcap) _ _ _ _
  · intro hcap reason observedAt network reconcile actual limit
    rcases clearPresence_cases calendar parse client reason observedAt requestId (.ok sequence)
      with hunsent | ⟨reserved, request, hreserved, hmapped, hperformed⟩
    · exact (hunsent network reconcile).ne_transport _
    · obtain rfl := Except.ok.inj hreserved
      rw [hperformed network reconcile]
      exact perform_ne_payloadTooLarge ((hclear reason observedAt request hmapped).trans hcap)
        _ _ _ _

theorem pairedClient_negotiated : IsNegotiated pairedClient.configuration :=
  ⟨true, announcedLimits, by decide, by decide, rfl⟩

/-- The song after the same song, under the cap of 32 KiB. -/
theorem request_size_bound_playing :
    let snapshot := (captureForDelivery .ascii ⟨true⟩ playingInput
      (captureForDelivery .ascii ⟨true⟩ playingInput .new
        (fun _ => defaultPrivacyConfig)).tracker (fun _ => defaultPrivacyConfig)).snapshot
    (∃ request, makePresenceRequest .gregorian .integral snapshot 7 (.finite 90)
        pairedClient.makeRequestOptions "22222222-0000-4000-8000-000000000000" = .ok request ∧
      (encodeBody (request.document (fun _ => ""))).length ≤ 12288) ∧
    ∀ network reconcile actual limit,
      (pairedClient.replacePresence .gregorian .integral (fun _ => "") (fun _ => none) snapshot
          (.finite 90) "22222222-0000-4000-8000-000000000000" (.ok 7) network reconcile).result ≠
        .error (.transport (.payloadTooLarge actual limit)) := by
  intro snapshot
  have htracker : TrackerReachable .ascii (captureForDelivery .ascii ⟨true⟩ playingInput .new
      (fun _ => defaultPrivacyConfig)).tracker := .captured _ _ _ .new (by decide +kernel)
  have hbound := @request_size_bound .ascii .gregorian .integral (fun _ => "") (fun _ => none)
    ⟨true⟩ playingInput (by decide +kernel) _ htracker (fun _ => defaultPrivacyConfig)
    pairedClient (by decide +kernel) pairedClient_negotiated
    "22222222-0000-4000-8000-000000000000" (by decide +kernel) 7 (by decide) (.finite 90)
  obtain ⟨request, hrequest, -⟩ := makePresenceRequest_ok Floats.integral_nearest
    Calendar.gregorian_documented
    (captureForDelivery_publishable Floats.integral_nearest ⟨true⟩
      (by decide +kernel) playingInput_isSessionPoll _ (fun _ => defaultPrivacyConfig))
    pairedClient_negotiated 7 (.finite 90) pairedClient.credential.deviceId
    "22222222-0000-4000-8000-000000000000"
  exact ⟨⟨request, hrequest, hbound.1 request hrequest⟩, hbound.2.2.1 (by decide)⟩

end YohakuCore
