import YohakuCore.Capture.Media
import YohakuCore.Privacy.CaptureService
import YohakuCore.Protocol.Capabilities
import YohakuCore.Protocol.DtoMapper
import YohakuCore.Protocol.WireDates

/-!
# What a capture delivers can be published

The mapper refuses a blank name, a rate, a time or a date. A capture lets none of them through.
-/

namespace YohakuCore

open Framework Gregorian

variable {u : UnicodeData} {floats : Floats} {calendar : Calendar}

/-- The first character is no white space; so is a text that the sanitizer lets through. -/
def StartsWithText (value : String) : Prop :=
  ∃ c rest, value.toList = c :: rest ∧ isJsWhitespace c = false

/-- Not blank, and within its limit. -/
def IsWireText (limit : Nat) (value : String) : Prop :=
  jsTrim value ≠ "" ∧ value.toList.length ≤ limit

theorem jsTrim_length_le (value : String) : (jsTrim value).toList.length ≤ value.toList.length :=
  (jsTrim_part value).length_le

theorem boundedText_isWireText {value : Option String} {limit : Nat} {text : String}
    (h : boundedText value limit = some text) : IsWireText limit text := by
  cases value with
  | none => simp [boundedText] at h
  | some value =>
      simp only [boundedText, Option.bind_some, Option.ite_none_left_eq_some,
        Option.some.injEq] at h
      obtain ⟨hne, rfl⟩ := h
      constructor
      · rwa [jsTrim_jsTrim]
      · have hlength := jsTrim_length_le (String.ofList (value.toList.take limit))
        rw [String.toList_ofList, List.length_take] at hlength
        omega

theorem boundedText_of_startsWithText {value : String} (h : StartsWithText value) {limit : Nat}
    (hlimit : 0 < limit) : ∃ text, boundedText (some value) limit = some text := by
  obtain ⟨c, rest, hchars, hc⟩ := h
  obtain ⟨n, rfl⟩ : ∃ n, limit = n + 1 := ⟨limit - 1, by omega⟩
  have hne : jsTrim (String.ofList (value.toList.take (n + 1))) ≠ "" := by
    rw [hchars, List.take_succ_cons]
    exact jsTrim_ne_empty hc
  refine ⟨jsTrim (String.ofList (value.toList.take (n + 1))), ?_⟩
  simp only [boundedText, Option.bind_some, hne, if_false]

/-- What holds of the `f64` nearest to a number: an integer of 53 bits, times a power of two, is
held exactly, and a number between two that are stays between them. -/
structure Floats.Nearest (floats : Floats) : Prop where
  exact : ∀ (m : Int) (e : Nat), m.natAbs ≤ 2 ^ 53 → e ≤ 900 →
    floats.round (m * 2 ^ e) = .finite (m * 2 ^ e)
  between : ∀ p q r, p ≤ q → q ≤ r → floats.round p = .finite p → floats.round r = .finite r →
    ∃ v, floats.round q = .finite v ∧ p ≤ v ∧ v ≤ r

theorem Floats.integral_nearest : Floats.integral.Nearest where
  exact _ _ _ _ := rfl
  between _ q _ hpq hqr _ _ := ⟨q, rfl, hpq, hqr⟩

theorem Floats.Nearest.natCast (h : floats.Nearest) {n : Nat} (hn : n ≤ 2 ^ 53) :
    floats.round n = .finite n := by
  simpa using h.exact n 0 (by simpa using hn) (by decide)

theorem Floats.Nearest.round_le (h : floats.Nearest) {q : ℚ} {n : Nat} (hn : n ≤ 2 ^ 53)
    (hzero : 0 ≤ q) (hle : q ≤ n) : ∃ v, floats.round q = .finite v ∧ 0 ≤ v ∧ v ≤ n := by
  have hlow : floats.round 0 = .finite 0 := by simpa using h.natCast (n := 0) (by decide)
  exact h.between 0 q n hzero hle hlow (h.natCast hn)

/-- Seconds that fit the ticks of a session, moved on by less than the extrapolation limit. -/
def maximumSeconds : Nat := 922337225286

theorem ticksToSeconds_le (h : floats.Nearest) {ticks : Int64} {value : ℚ}
    (hvalue : ticksToSeconds floats ticks = .finite value) : value ≤ 922337203686 := by
  have hlow := ticks.le_toInt
  have hhigh := ticks.toInt_lt
  have hexact (m : Int) (hm : m.natAbs ≤ 2 ^ 53) (e : Nat) (he : e ≤ 900) := h.exact m e hm he
  obtain ⟨rounded, hrounded, hlower, hupper⟩ := h.between (-2 ^ 63) ticks.toInt (2 ^ 63)
    (by exact_mod_cast hlow) (by exact_mod_cast hhigh.le)
    (by simpa using hexact (-1) (by decide) 63 (by decide))
    (by simpa using hexact 1 (by decide) 63 (by decide))
  obtain ⟨quotient, hquotient, -, hle⟩ := h.between (-922337203686) (rounded / ticksPerSecond)
    922337203686 (by rw [ticksPerSecond]; linarith) (by rw [ticksPerSecond]; linarith)
    (by simpa using hexact (-922337203686) (by decide) 0 (by decide))
    (by simpa using hexact 922337203686 (by decide) 0 (by decide))
  rw [ticksToSeconds, hrounded] at hvalue
  simp only at hvalue
  rw [hquotient, F64.finite.injEq] at hvalue
  rwa [← hvalue]

theorem le_maximumSeconds {value : ℚ} (h : value ≤ 922337203686) : value ≤ maximumSeconds := by
  rw [maximumSeconds]
  push_cast
  linarith

theorem movedPosition_le (h : floats.Nearest) {raw value : ℚ} (hneg : ¬ raw < 0)
    (hraw : raw ≤ 922337203686) {elapsed : F64}
    (hvalue : (match elapsed with
      | .finite e => if 0 < e ∧ e < extrapolationMaxElapsedSeconds then floats.round (raw + e)
          else .finite raw
      | _ => .finite raw) = .finite value) : value ≤ maximumSeconds := by
  split at hvalue
  · split at hvalue
    · rename_i e helapsed
      rw [extrapolationMaxElapsedSeconds] at helapsed
      obtain ⟨moved, hround, -, hle⟩ := h.round_le (q := raw + e) (n := maximumSeconds)
        (by decide) (by linarith) (by rw [maximumSeconds]; push_cast; linarith)
      rw [hround, F64.finite.injEq] at hvalue
      rwa [← hvalue]
    · rw [F64.finite.injEq] at hvalue
      exact hvalue ▸ le_maximumSeconds hraw
  · rw [F64.finite.injEq] at hvalue
    exact hvalue ▸ le_maximumSeconds hraw

theorem extrapolatedPosition_le (h : floats.Nearest) {raw : F64} {playing : Bool}
    {updatedAtMs nowMs : Int} {duration : Option F64} {position : ℚ}
    (hraw : ∀ value, raw = .finite value → value ≤ 922337203686)
    (hduration : ∀ value, duration = some (.finite value) → value ≤ 922337203686)
    (hposition : extrapolatedPosition floats raw playing updatedAtMs nowMs duration =
      some (.finite position)) : position ≤ maximumSeconds := by
  cases raw with
  | finite raw =>
      have hrawLe := hraw raw rfl
      by_cases hneg : raw < 0
      · simp [extrapolatedPosition, hneg] at hposition
      cases playing with
      | false =>
          simp only [extrapolatedPosition, hneg, if_false, Bool.false_eq_true, Option.some.injEq,
            F64.finite.injEq] at hposition
          exact hposition ▸ le_maximumSeconds hrawLe
      | true =>
          simp only [extrapolatedPosition, hneg, if_false, if_true] at hposition
          split at hposition
          · rename_i moved limit hfinite
            split at hposition
            · rw [Option.some.injEq, F64.finite.injEq] at hposition
              exact hposition ▸ le_maximumSeconds (hduration _ rfl)
            · rw [Option.some.injEq, F64.finite.injEq] at hposition
              exact hposition ▸ movedPosition_le h hneg hrawLe hfinite
          · rw [Option.some.injEq, F64.finite.injEq] at hposition
            exact hposition ▸ le_maximumSeconds (hduration _ rfl)
          · exact movedPosition_le h hneg hrawLe (Option.some.inj hposition)
  | _ => simp [extrapolatedPosition] at hposition

theorem secondsToWireMilliseconds_ok (h : floats.Nearest) {seconds : ℚ≥0}
    (hle : (seconds : ℚ) ≤ maximumSeconds) (field : String) :
    ∃ ms, secondsToWireMilliseconds floats seconds field = .ok ms ∧
      ms ≤ maximumSafeWireInteger := by
  obtain ⟨rounded, hrounded, hzero, hbound⟩ := h.round_le (q := (seconds : ℚ) * 1000)
    (n := 922337225286000) (by decide)
    (mul_nonneg seconds.coe_nonneg (by norm_num)) (by
      rw [maximumSeconds] at hle
      push_cast at hle ⊢
      linarith)
  have hfloor : 0 ≤ ⌊rounded + 1 / 2⌋ ∧ ⌊rounded + 1 / 2⌋ ≤ 922337225286000 := by
    constructor
    · exact Int.floor_nonneg.mpr (by linarith)
    · rw [Int.floor_le_iff]
      push_cast at hbound ⊢
      linarith
  have hwhole : roundHalfAway (floats.round ((seconds : ℚ) * 1000)) =
      .finite (⌊rounded + 1 / 2⌋ : Int) := by
    rw [hrounded, roundHalfAway, if_pos hzero]
  have hrange : ((⌊rounded + 1 / 2⌋ : Int) : ℚ).den = 1 ∧ 0 ≤ ((⌊rounded + 1 / 2⌋ : Int) : ℚ) ∧
      ((⌊rounded + 1 / 2⌋ : Int) : ℚ) ≤ maximumSafeWireInteger.toNat := by
    refine ⟨Rat.den_intCast _, by exact_mod_cast hfloor.1, ?_⟩
    have hmax : (922337225286000 : Int) ≤ maximumSafeWireInteger.toNat := by decide
    exact_mod_cast hfloor.2.trans hmax
  refine ⟨UInt64.ofNat (⌊rounded + 1 / 2⌋ : Int).toNat, ?_, ?_⟩
  · rw [secondsToWireMilliseconds, hwhole, requireWireInteger, if_pos hrange, Rat.num_intCast]
  · rw [UInt64.le_iff_toNat_le, UInt64.toNat_ofNat', Nat.mod_eq_of_lt (by omega)]
    have hmax : maximumSafeWireInteger.toNat = 9007199254740991 := rfl
    omega

structure PublishableMedia (media : SanitizedMediaPresence) : Prop where
  text : (∃ title, media.title = some title ∧ StartsWithText title) ∨
    ∃ artist, media.artist = some artist ∧ StartsWithText artist
  state : media.playback.state = .playing
  rate : media.playback.rate = 1
  duration : ∀ seconds, media.playback.durationSeconds = some seconds →
    (seconds : ℚ) ≤ maximumSeconds
  position : ∀ seconds, media.playback.positionSeconds = some seconds →
    (seconds : ℚ) ≤ maximumSeconds
  sampledAt : IsWireYear (DateTime.ofEpochMs media.playback.sampledAt).date.year

structure Publishable (snapshot : SanitizedPresenceSnapshot) : Prop where
  observedAt : IsWireYear (DateTime.ofEpochMs snapshot.observedAt).date.year
  displayName : ∀ application, snapshot.application = some application →
    StartsWithText application.displayName
  media : ∀ media, snapshot.media = some media → PublishableMedia media

/-- What the provider answers: the snapshot of the session it reads, if there is one. -/
def providerAnswer (u : UnicodeData) (floats : Floats) (exeDisplayName : String → String)
    (session : Option SessionProperties) (nowMs : Int) : Option MediaSnapshot :=
  session.bind (fun session =>
    frameToSnapshot u floats exeDisplayName (readRawFrame floats session) nowMs)

/-- The provider did not answer in time, or did so while the clock showed a wire date. -/
def IsSessionPoll (u : UnicodeData) (floats : Floats) (exeDisplayName : String → String)
    (poll : ProviderPoll) : Prop :=
  poll = .elapsed ∨ ∃ session nowMs, IsWireYear (DateTime.ofEpochMs nowMs).date.year ∧
    poll = .answered (providerAnswer u floats exeDisplayName session nowMs)

theorem startsWithText_or {u : UnicodeData} {displayAlias mapped captured : Option String}
    {name : String} (halias : ∀ text, displayAlias = some text → StartsWithText text)
    (h : (displayAlias.or (normalizeText u mapped)).or (normalizeText u captured) = some name) :
    StartsWithText name := by
  cases displayAlias with
  | some text =>
      obtain rfl : text = name := by simpa using h
      exact halias text rfl
  | none =>
      rw [Option.none_or] at h
      cases hmapped : normalizeText u mapped with
      | some text =>
          obtain rfl : text = name := by simpa [hmapped] using h
          exact normalizeText_head hmapped
      | none =>
          rw [hmapped, Option.none_or] at h
          exact normalizeText_head h

theorem processDecision_alias {config : PrivacyConfig} {appId text : String}
    (h : (processDecision u config appId).displayAlias = some text) : StartsWithText text := by
  simp only [processDecision, processDecisionOf, Option.ite_none_left_eq_some,
    Option.bind_eq_some_iff] at h
  obtain ⟨-, rule, -, htext⟩ := h
  exact normalizeText_head htext

theorem captureApplication_startsWithText {config : PrivacyConfig}
    {foreground : Option ForegroundInfo} {application : SanitizedApplicationPresence}
    (h : captureApplication u config foreground = some application) :
    StartsWithText application.displayName := by
  rw [captureApplication] at h
  split at h
  · obtain ⟨info, -, h⟩ := Option.bind_eq_some_iff.mp h
    rw [sanitizeApplication] at h
    split at h
    · contradiction
    · obtain ⟨name, hname, rfl⟩ := Option.map_eq_some_iff.mp h
      exact startsWithText_or (fun text htext => processDecision_alias htext) hname
  · contradiction

theorem normalizedSeconds_eq_some {value : Option F64} {seconds : ℚ≥0}
    (h : normalizedSeconds value = some seconds) : value = some (.finite seconds) := by
  unfold normalizedSeconds at h
  split at h
  · rename_i value
    split at h
    · obtain rfl := Option.some.inj h
      rfl
    · contradiction
  · contradiction

theorem clampPosition_eq_some {position duration : Option ℚ≥0} {seconds : ℚ≥0}
    (h : clampPosition position duration = some seconds) :
    position = some seconds ∨ duration = some seconds := by
  simp only [clampPosition] at h
  split at h
  · split at h
    · exact Or.inr h
    · exact Or.inl h
  · exact Or.inl h

theorem frameToSnapshot_times {exeDisplayName : String → String} {frame : RawFrame} {nowMs : Int}
    {raw : MediaSnapshot} (h : frameToSnapshot u floats exeDisplayName frame nowMs = some raw) :
    raw.durationSeconds = knownDuration frame.durationSeconds ∧
      raw.positionSeconds = extrapolatedPosition floats frame.positionSeconds frame.playing
        frame.updatedAtMs nowMs (knownDuration frame.durationSeconds) ∧
      raw.sampledAt = nowMs := by
  simp only [frameToSnapshot, Option.ite_none_left_eq_some, Option.some.injEq] at h
  obtain ⟨-, rfl⟩ := h
  exact ⟨rfl, rfl, rfl⟩

theorem knownDuration_eq_some {value duration : F64} (h : knownDuration value = some duration) :
    duration = value := by
  unfold knownDuration at h
  split at h
  · split at h
    · exact (Option.some.inj h).symm
    · contradiction
  · contradiction

theorem sanitizeMedia_playback {input : MediaSanitizeInput} {decision : MediaDecision}
    {requiresArtist : Bool} {media : SanitizedMediaWithoutSession}
    (h : sanitizeMedia u input decision requiresArtist = some media) :
    media.playback = {
      state := if input.playing then .playing else .paused
      durationSeconds := normalizedSeconds input.durationSeconds
      positionSeconds := clampPosition (normalizedSeconds input.positionSeconds)
        (normalizedSeconds input.durationSeconds)
      sampledAt := input.sampledAt
      rate := if input.playing then 1 else 0 } := by
  simp only [sanitizeMedia, Option.ite_none_left_eq_some, Option.some.injEq] at h
  obtain ⟨-, -, -, rfl⟩ := h
  rfl

/-- Media delivered from a session passes every check of the mapper. -/
theorem sanitizedMediaOf_publishable (hfloats : floats.Nearest) {config : PrivacyConfig}
    {exeDisplayName : String → String} {session : Option SessionProperties} {nowMs : Int}
    (hnow : IsWireYear (DateTime.ofEpochMs nowMs).date.year) {raw : MediaSnapshot}
    (hraw : providerAnswer u floats exeDisplayName session nowMs = some raw)
    {media : SanitizedMediaWithoutSession} (h : sanitizedMediaOf u config raw = some media)
    (sessionId : String) : PublishableMedia (withSession media sessionId) := by
  obtain ⟨session, -, hframe⟩ := Option.bind_eq_some_iff.mp hraw
  obtain ⟨hdurationRaw, hpositionRaw, hsampled⟩ := frameToSnapshot_times hframe
  rw [sanitizedMediaOf] at h
  split at h
  · rename_i hgate
    have hplaying : raw.playing = true := ((Bool.and_eq_true _ _).mp hgate).2
    obtain ⟨-, htext, -, htitle, hartist⟩ := sanitizeMedia_eq_some u h
    have hplayback := sanitizeMedia_playback h
    have hdurationLe (value : ℚ) (hvalue : raw.durationSeconds = some (.finite value)) :
        value ≤ 922337203686 := by
      rw [hdurationRaw] at hvalue
      exact ticksToSeconds_le hfloats (knownDuration_eq_some hvalue).symm
    have hduration (seconds : ℚ≥0) (hseconds : normalizedSeconds raw.durationSeconds =
        some seconds) : (seconds : ℚ) ≤ maximumSeconds := by
      have hle := hdurationLe _ (normalizedSeconds_eq_some hseconds)
      rw [maximumSeconds]
      push_cast
      linarith
    constructor
    · rcases htext with hsome | hsome
      · obtain ⟨title, hnormal⟩ := Option.ne_none_iff_exists'.mp hsome
        exact Or.inl ⟨title, htitle.trans hnormal, normalizeText_head hnormal⟩
      · obtain ⟨artist, hnormal⟩ := Option.ne_none_iff_exists'.mp hsome
        exact Or.inr ⟨artist, hartist.trans hnormal, normalizeText_head hnormal⟩
    · simp [withSession, hplayback, hplaying]
    · simp [withSession, hplayback, hplaying]
    · intro seconds hseconds
      simp only [withSession, hplayback] at hseconds
      exact hduration seconds hseconds
    · intro seconds hseconds
      simp only [withSession, hplayback] at hseconds
      rcases clampPosition_eq_some hseconds with hposition | hlimit
      · have hvalue := normalizedSeconds_eq_some hposition
        rw [hpositionRaw, ← hdurationRaw] at hvalue
        exact extrapolatedPosition_le hfloats (fun value => ticksToSeconds_le hfloats)
          hdurationLe hvalue
      · exact hduration seconds hlimit
    · simpa [withSession, hplayback, hsampled] using hnow
  · contradiction

theorem captureMedia_withSession {config : PrivacyConfig} {raw : Option MediaSnapshot}
    {freshId : String} {tracker : MediaSessionTracker} {media : SanitizedMediaPresence}
    (h : (captureMedia u config raw freshId tracker).1 = some media) :
    ∃ sample sanitized, raw = some sample ∧ sanitizedMediaOf u config sample = some sanitized ∧
      media = withSession sanitized
        (tracker.sessionId (semanticIdentity sanitized) freshId).1 := by
  unfold captureMedia at h
  split at h
  · rename_i sanitized hsanitized
    obtain ⟨sample, hsample, hsanitized⟩ := Option.bind_eq_some_iff.mp hsanitized
    exact ⟨sample, sanitized, hsample, hsanitized, (Option.some.inj h).symm⟩
  · contradiction

theorem captureForDelivery_observedAt (options : CaptureOptions) (input : CaptureInput)
    (tracker : MediaSessionTracker) (reads : Nat → PrivacyConfig) :
    (captureForDelivery u options input tracker reads).snapshot.observedAt = input.now := by
  simp only [captureForDelivery]
  split <;> rfl

theorem captureForDelivery_publishable (hfloats : floats.Nearest)
    {exeDisplayName : String → String} (options : CaptureOptions) {input : CaptureInput}
    (hnow : IsWireYear (DateTime.ofEpochMs input.now).date.year)
    (hpoll : ∀ poll, input.provider = some poll → IsSessionPoll u floats exeDisplayName poll)
    (tracker : MediaSessionTracker) (reads : Nat → PrivacyConfig) :
    Publishable (captureForDelivery u options input tracker reads).snapshot := by
  constructor
  · rwa [captureForDelivery_observedAt]
  · intro application happlication
    rw [captureForDelivery_application] at happlication
    exact captureApplication_startsWithText happlication
  · intro media hmedia
    obtain ⟨-, hcaptured⟩ := captureForDelivery_media hmedia
    obtain ⟨sample, sanitized, hsample, hsanitized, rfl⟩ := captureMedia_withSession hcaptured
    obtain ⟨poll, hprovider, hraw⟩ := Option.bind_eq_some_iff.mp hsample
    rcases hpoll poll hprovider with rfl | ⟨session, nowMs, hclock, rfl⟩
    · contradiction
    · exact sanitizedMediaOf_publishable hfloats hclock hraw hsanitized _

/-- The texts, times and the lease of a request are within their bounds. -/
structure PresenceRequest.WellFormed (request : PresenceRequest)
    (configuration : NegotiatedPresenceConfiguration) : Prop where
  application : ∀ application, request.data.application = some application →
    IsWireText displayNameLimit application.displayName ∧
      ∀ title, application.windowTitle = some title → IsWireText windowTitleLimit title
  media : ∀ media, request.data.media = some media →
    (∀ text, media.title = some text ∨ media.artist = some text ∨ media.album = some text →
      IsWireText mediaTextLimit text) ∧
    (∀ name, media.player = some name → IsWireText displayNameLimit name) ∧
    (∀ ms, media.playback.durationMs = some ms ∨ media.playback.positionMs = some ms →
      ms ≤ maximumSafeWireInteger) ∧
    ∀ position duration, media.playback.positionMs = some position →
      media.playback.durationMs = some duration → position ≤ duration
  idle : request.data.availability = .idle ↔
    request.data.application = none ∧ request.data.media = none
  lease : configuration.leaseMinSeconds ≤ request.data.ttlSeconds ∧
    (request.data.ttlSeconds : Int) ≤ configuration.leaseMaxSeconds

theorem mapApplication_ok {snapshot : SanitizedPresenceSnapshot} (h : Publishable snapshot) :
    ∃ application, mapApplication snapshot = .ok application ∧
      ∀ a, application = some a → IsWireText displayNameLimit a.displayName ∧
        ∀ title, a.windowTitle = some title → IsWireText windowTitleLimit title := by
  cases happlication : snapshot.application with
  | none => exact ⟨none, by simp [mapApplication, happlication]⟩
  | some application =>
      obtain ⟨name, hname⟩ := boundedText_of_startsWithText
        (h.displayName application happlication) (show 0 < displayNameLimit by decide)
      refine ⟨some { displayName := name
                     windowTitle := boundedText application.windowTitle windowTitleLimit },
        by simp only [mapApplication, happlication, hname], ?_⟩
      intro a ha
      obtain rfl := Option.some.inj ha
      exact ⟨boundedText_isWireText hname, fun title htitle => boundedText_isWireText htitle⟩

theorem clampMilliseconds_le {position duration : Option UInt64} {p d : UInt64}
    (hp : clampMilliseconds position duration = some p) (hd : duration = some d) : p ≤ d := by
  subst hd
  cases position with
  | none => simp [clampMilliseconds] at hp
  | some q =>
      simp only [clampMilliseconds] at hp
      split at hp
      · obtain rfl := Option.some.inj hp
        exact UInt64.le_refl d
      · rename_i hlt
        obtain rfl := Option.some.inj hp
        exact UInt64.not_lt.mp hlt

theorem clampMilliseconds_eq_some {position duration : Option UInt64} {ms : UInt64}
    (h : clampMilliseconds position duration = some ms) :
    position = some ms ∨ duration = some ms := by
  simp only [clampMilliseconds] at h
  split at h
  · split at h
    · exact Or.inr h
    · exact Or.inl h
  · exact Or.inl h

theorem optionalMilliseconds_ok (hfloats : floats.Nearest) {seconds : Option ℚ≥0}
    (hle : ∀ value, seconds = some value → (value : ℚ) ≤ maximumSeconds) (field : String) :
    ∃ ms, optionalMilliseconds floats seconds field = .ok ms ∧
      ∀ value, ms = some value → value ≤ maximumSafeWireInteger := by
  cases seconds with
  | none => exact ⟨none, rfl, by simp⟩
  | some value =>
      obtain ⟨ms, hms, hbound⟩ := secondsToWireMilliseconds_ok hfloats (hle value rfl) field
      refine ⟨some ms, by simp only [optionalMilliseconds, hms, Except.map], ?_⟩
      intro other hother
      rwa [← Option.some.inj hother]

theorem PublishableMedia.has_text {media : SanitizedMediaPresence} (h : PublishableMedia media) :
    ¬ (boundedText media.title mediaTextLimit = none ∧
      boundedText media.artist mediaTextLimit = none) := by
  rintro ⟨htitle, hartist⟩
  have hlimit : 0 < mediaTextLimit := by decide
  rcases h.text with ⟨title, hsome, hstart⟩ | ⟨artist, hsome, hstart⟩
  · obtain ⟨text, hbounded⟩ := boundedText_of_startsWithText hstart hlimit
    rw [hsome, hbounded] at htitle
    contradiction
  · obtain ⟨text, hbounded⟩ := boundedText_of_startsWithText hstart hlimit
    rw [hsome, hbounded] at hartist
    contradiction

theorem mapMedia_ok (hfloats : floats.Nearest) (hcalendar : calendar.Documented)
    {snapshot : SanitizedPresenceSnapshot} (h : Publishable snapshot) :
    ∃ media, mapMedia calendar floats snapshot = .ok media ∧ ∀ m, media = some m →
      (∀ text, m.title = some text ∨ m.artist = some text ∨ m.album = some text →
        IsWireText mediaTextLimit text) ∧
      (∀ name, m.player = some name → IsWireText displayNameLimit name) ∧
      (∀ ms, m.playback.durationMs = some ms ∨ m.playback.positionMs = some ms →
        ms ≤ maximumSafeWireInteger) ∧
      ∀ position duration, m.playback.positionMs = some position →
        m.playback.durationMs = some duration → position ≤ duration := by
  cases hmedia : snapshot.media with
  | none => exact ⟨none, by simp [mapMedia, hmedia]⟩
  | some media =>
      have hpublishable := h.media media hmedia
      have htext := hpublishable.has_text
      have hrate : checkRate floats media.playback = .ok () := by
        have hle : ¬ (4 : ℚ≥0) < 1 := by decide
        simp [checkRate, hpublishable.state, hpublishable.rate, -not_lt, hle]
      obtain ⟨duration, hduration, hdurationLe⟩ :=
        optionalMilliseconds_ok hfloats hpublishable.duration "durationMs"
      obtain ⟨position, hposition, hpositionLe⟩ :=
        optionalMilliseconds_ok hfloats hpublishable.position "positionMs"
      have hsampled := encodeWireDate_wire hcalendar hpublishable.sampledAt
      rw [DateTime.epochMs_ofEpochMs] at hsampled
      let mapped : WireMediaContext := {
        sessionId := media.sessionId
        kind := media.kind
        title := boundedText media.title mediaTextLimit
        artist := boundedText media.artist mediaTextLimit
        album := boundedText media.album mediaTextLimit
        player := boundedText media.playerDisplayName displayNameLimit
        playback := {
          state := media.playback.state
          durationMs := duration
          positionMs := clampMilliseconds position duration
          sampledAt := wireDateText (DateTime.ofEpochMs media.playback.sampledAt)
          rate := media.playback.rate } }
      have hmapped : mapMedia calendar floats snapshot = .ok (some mapped) := by
        simp only [mapMedia, hmedia, htext, if_false, hrate, hduration, hposition, hsampled, bind,
          Except.bind, pure, Except.pure, mapped]
      refine ⟨some mapped, hmapped, ?_⟩
      intro m hm
      obtain rfl := Option.some.inj hm
      refine ⟨?_, ?_, ?_, ?_⟩
      · rintro text (h | h | h) <;> exact boundedText_isWireText h
      · intro name hname
        exact boundedText_isWireText hname
      · rintro ms (hms | hms)
        · exact hdurationLe ms hms
        · rcases clampMilliseconds_eq_some hms with hms | hms
          · exact hpositionLe ms hms
          · exact hdurationLe ms hms
      · intro p d hp hd
        exact clampMilliseconds_le hp hd

theorem clampedLease {configuration : NegotiatedPresenceConfiguration}
    (h : IsNegotiated configuration) (requested : Int) :
    let ttl := max 0 (min configuration.leaseMaxSeconds
      (max requested configuration.leaseMinSeconds))
    configuration.leaseMinSeconds ≤ ttl.toNat ∧
      (ttl.toNat : Int) ≤ configuration.leaseMaxSeconds := by
  obtain ⟨hpos, hle, -⟩ := h.lease
  intro ttl
  omega

theorem makePresenceRequest_ok (hfloats : floats.Nearest) (hcalendar : calendar.Documented)
    {snapshot : SanitizedPresenceSnapshot} (h : Publishable snapshot)
    {configuration : NegotiatedPresenceConfiguration} (hnegotiated : IsNegotiated configuration)
    (sequence : UInt64) (requestedLeaseSeconds : F64) (deviceId requestId : String) :
    ∃ request, makePresenceRequest calendar floats snapshot sequence requestedLeaseSeconds
        (makeRequestOptions deviceId configuration) requestId = .ok request ∧
      request.WellFormed configuration := by
  obtain ⟨application, happlication, hnames⟩ := mapApplication_ok h
  obtain ⟨media, hmedia, hmediaFormed⟩ := mapMedia_ok hfloats hcalendar h
  have hobserved := encodeWireDate_wire hcalendar h.observedAt
  rw [DateTime.epochMs_ofEpochMs] at hobserved
  have hlease := clampedLease hnegotiated (saturateToI64 (roundHalfAway requestedLeaseSeconds))
  simp only [makePresenceRequest, happlication, hmedia, makeMeta, hobserved, bind, Except.bind,
    pure, Except.pure, Except.ok.injEq, exists_eq_left']
  refine ⟨hnames, hmediaFormed, ?_, hlease⟩
  simp only
  split <;> simp_all

/-- Whatever a session holds and whatever the configuration reads return, the mapper makes a well
formed request of the captured snapshot. -/
theorem captured_snapshot_publishable (hfloats : floats.Nearest)
    (hcalendar : calendar.Documented) {exeDisplayName : String → String}
    (options : CaptureOptions) {input : CaptureInput}
    (hnow : IsWireYear (DateTime.ofEpochMs input.now).date.year)
    (hpoll : ∀ poll, input.provider = some poll → IsSessionPoll u floats exeDisplayName poll)
    (tracker : MediaSessionTracker) (reads : Nat → PrivacyConfig)
    {configuration : NegotiatedPresenceConfiguration} (hnegotiated : IsNegotiated configuration)
    (sequence : UInt64) (requestedLeaseSeconds : F64) (deviceId requestId : String) :
    ∃ request, makePresenceRequest calendar floats
        (captureForDelivery u options input tracker reads).snapshot sequence
        requestedLeaseSeconds (makeRequestOptions deviceId configuration) requestId = .ok request ∧
      request.WellFormed configuration :=
  makePresenceRequest_ok hfloats hcalendar
    (captureForDelivery_publishable hfloats options hnow hpoll tracker reads) hnegotiated sequence
    requestedLeaseSeconds deviceId requestId

def playingSession : SessionProperties where
  sourceAppUserModelId := "Music.exe"
  title := " Title "
  artist := "Artist"
  albumTitle := "Album"
  endTime := 1800000000
  position := 600000000
  lastUpdatedTime := 133979736000000000
  playbackStatus := playbackStatusPlaying
  playbackType := some 1

def playingInput : CaptureInput where
  now := 1753500012345
  provider := some (.answered
    (providerAnswer .ascii .integral id (some playingSession) 1753500012000))
  foreground := some { appId := "code.exe", displayName := "Code", windowTitle := none }
  freshId := "00000000-0000-4000-8000-000000000000"

def announcedLimits : CapabilitiesLimits where
  presencePayloadBytes := 32768
  presenceRequestsPerMinute := 60
  presenceLeaseMinSeconds := 30
  presenceLeaseMaxSeconds := 120
  recommendedHeartbeatSeconds := 30
  maximumClockSkewSeconds := 300

theorem announcedLimits_negotiated : IsNegotiated (negotiatedConfiguration true announcedLimits) :=
  ⟨true, announcedLimits, by decide, by decide, rfl⟩

theorem playingInput_isSessionPoll (poll : ProviderPoll) (h : playingInput.provider = some poll) :
    IsSessionPoll .ascii .integral id poll :=
  Or.inr ⟨some playingSession, 1753500012000, by decide +kernel, (Option.some.inj h).symm⟩

theorem captured_snapshot_publishable_playing :
    ∃ request, makePresenceRequest .gregorian .integral
        (captureForDelivery .ascii ⟨true⟩ playingInput .new
          (fun _ => defaultPrivacyConfig)).snapshot 7 (.finite 90)
        (makeRequestOptions "11111111-0000-4000-8000-000000000000"
          (negotiatedConfiguration true announcedLimits))
        "22222222-0000-4000-8000-000000000000" = .ok request ∧
      request.WellFormed (negotiatedConfiguration true announcedLimits) :=
  captured_snapshot_publishable Floats.integral_nearest Calendar.gregorian_documented ⟨true⟩
    (by decide +kernel) playingInput_isSessionPoll .new (fun _ => defaultPrivacyConfig)
    announcedLimits_negotiated 7 (.finite 90) _ _

end YohakuCore
