import YohakuCore.Privacy.Sanitize
import YohakuCore.Privacy.MediaSessionTracker

/-!
# Capture pipeline

One `capture_for_delivery` call in three segments, each with its own read of the privacy
configuration: the media gate before the provider await, the media branch after it, and the
application branch. Between two segments the configuration may change.
-/

namespace YohakuCore

variable (u : UnicodeData)

structure CaptureOptions where
  includeMedia : Bool
  deriving DecidableEq

/-- The bounded wait on the media provider: it elapses or the provider answers. -/
inductive ProviderPoll where
  | elapsed
  | answered (snapshot : Option MediaSnapshot)
  deriving DecidableEq

/-- The source's `.ok().flatten()`: a timeout counts as no media. -/
def ProviderPoll.raw : ProviderPoll → Option MediaSnapshot
  | elapsed => none
  | answered snapshot => snapshot

/-- What the first segment leads to. `broken` is the media-less outcome that resets the session
tracker, `untouched` the one asked for by the caller. -/
inductive MediaGate where
  | awaiting
  | broken
  | untouched
  deriving DecidableEq

/-- First segment. The configuration is read only when a provider exists and media is wanted. -/
def mediaGate (options : CaptureOptions) (hasProvider : Bool) (config : PrivacyConfig) :
    MediaGate :=
  if hasProvider && options.includeMedia && config.sources.media then .awaiting
  else if options.includeMedia then .broken
  else .untouched

/-- Whether the first segment reads the configuration. -/
def gateReadsConfig (options : CaptureOptions) (hasProvider : Bool) : Bool :=
  hasProvider && options.includeMedia

/-- The name for the rule fallback; it may be the raw AUMID. -/
def rulePlayerName (raw : MediaSnapshot) : String :=
  (raw.playerDisplayName.or raw.sourceAppUserModelId).getD ""

/-- The mapping lookup never uses the AUMID. -/
def mappedPlayerName (config : PrivacyConfig) (raw : MediaSnapshot) : Option String :=
  raw.playerDisplayName.bind (fun name =>
    (applyMapping u config .mediaPlayerName name).or
      (applyMapping u config .mediaProcessName name))

def sanitizedMediaOf (config : PrivacyConfig) (raw : MediaSnapshot) :
    Option SanitizedMediaWithoutSession :=
  if config.sources.media && raw.playing then
    sanitizeMedia u {
        kind := raw.kind
        title := raw.title
        artist := raw.artist
        album := raw.album
        capturedPlayerName := raw.playerDisplayName
        mappedPlayerName := mappedPlayerName u config raw
        playing := raw.playing
        durationSeconds := raw.durationSeconds
        positionSeconds := raw.positionSeconds
        sampledAt := raw.sampledAt }
      (mediaDecision u config raw.appId (rulePlayerName raw)) config.ignoreNullArtist
  else none

def semanticIdentity (media : SanitizedMediaWithoutSession) : MediaSemanticIdentity where
  kind := media.kind
  title := media.title
  artist := media.artist
  album := media.album
  playerDisplayName := media.playerDisplayName
  durationSeconds := media.playback.durationSeconds

def withSession (media : SanitizedMediaWithoutSession) (sessionId : String) :
    SanitizedMediaPresence where
  sessionId := sessionId
  kind := media.kind
  title := media.title
  artist := media.artist
  album := media.album
  playerDisplayName := media.playerDisplayName
  playback := media.playback

/-- Second segment, after the provider await, under a fresh read of the configuration. -/
def captureMedia (config : PrivacyConfig) (raw : Option MediaSnapshot) (freshId : String)
    (tracker : MediaSessionTracker) : Option SanitizedMediaPresence × MediaSessionTracker :=
  match raw.bind (sanitizedMediaOf u config) with
  | some media =>
      let (sessionId, tracker) := tracker.sessionId (semanticIdentity media) freshId
      (some (withSession media sessionId), tracker)
  | none => (none, tracker.reset)

/-- Third segment: the application, under the freshest configuration. -/
def captureApplication (config : PrivacyConfig) (foreground : Option ForegroundInfo) :
    Option SanitizedApplicationPresence :=
  if config.sources.application then
    foreground.bind (fun info => sanitizeApplication u {
        capturedDisplayName := info.displayName
        mappedDisplayName := applyMapping u config .processName info.appId
        windowTitle := info.windowTitle }
      (processDecision u config info.appId) config.shareWindowTitles)
  else none

/-- The raw world one call meets: the clock, the provider getter with its answer, the foreground
sample, and the UUID the tracker would mint. -/
structure CaptureInput where
  now : Int
  provider : Option ProviderPoll
  foreground : Option ForegroundInfo
  freshId : String

/-- What a call returns, with the tracker it leaves and the number of configuration reads. -/
structure Capture where
  snapshot : SanitizedPresenceSnapshot
  tracker : MediaSessionTracker
  reads : Nat

/-- One whole call; `reads k` is what its `k`-th read of the configuration returns. -/
def captureForDelivery (options : CaptureOptions) (input : CaptureInput)
    (tracker : MediaSessionTracker) (reads : Nat → PrivacyConfig) : Capture :=
  let gateReads := if gateReadsConfig options input.provider.isSome then 1 else 0
  let finish (media : Option SanitizedMediaPresence) (tracker : MediaSessionTracker) (n : Nat) :
      Capture :=
    { snapshot := {
        observedAt := input.now
        application := captureApplication u (reads n) input.foreground
        media := media }
      tracker := tracker
      reads := n + 1 }
  match mediaGate options input.provider.isSome (reads 0) with
  | .awaiting =>
      let (media, tracker) := captureMedia u (reads gateReads)
        (input.provider.bind ProviderPoll.raw) input.freshId tracker
      finish media tracker (gateReads + 1)
  | .broken => finish none tracker.reset gateReads
  | .untouched => finish none tracker gateReads

/-- The configuration the last read of the call returned. -/
def Capture.lastConfig (capture : Capture) (reads : Nat → PrivacyConfig) : PrivacyConfig :=
  reads (capture.reads - 1)

section

variable {u}

theorem captureApplication_sound {config : PrivacyConfig} {foreground : Option ForegroundInfo}
    {a : SanitizedApplicationPresence} (h : captureApplication u config foreground = some a) :
    ∃ info, foreground = some info ∧ config.sources.application = true ∧
      RulesDecide (fun r => normalizeAppId u r.appId = normalizeAppId u info.appId)
        (·.application) config.rules config.defaults.application .share ∧
      ∀ title, a.windowTitle = some title → config.shareWindowTitles = true ∧
        RulesDecide (fun r => normalizeAppId u r.appId = normalizeAppId u info.appId)
          (·.windowTitle) config.rules config.defaults.windowTitle .share := by
  unfold captureApplication at h
  split at h
  · rename_i hsource
    obtain ⟨info, hinfo, h⟩ := Option.bind_eq_some_iff.mp h
    have hs := sanitizeApplication_eq_some u h
    refine ⟨info, hinfo, hsource, processDecision_sharesApplication u hs.1, ?_⟩
    intro title htitle
    obtain ⟨hshare, hglobal, -⟩ := hs.2 title htitle
    exact ⟨hglobal, processDecision_sharesWindowTitle u hshare⟩
  · contradiction

theorem sanitizedMediaOf_sound {config : PrivacyConfig} {raw : MediaSnapshot}
    {m : SanitizedMediaWithoutSession} (h : sanitizedMediaOf u config raw = some m) :
    config.sources.media = true ∧ raw.playing = true ∧
      RulesDecide (MediaRuleKey u raw.appId (rulePlayerName raw)) (·.media) config.rules
        config.defaults.media .share ∧
      (normalizeText u raw.title ≠ none ∨ normalizeText u raw.artist ≠ none) ∧
      (config.ignoreNullArtist = true → normalizeText u raw.artist ≠ none) := by
  unfold sanitizedMediaOf at h
  split at h
  · rename_i hgate
    obtain ⟨hsource, hplaying⟩ := (Bool.and_eq_true _ _).mp hgate
    obtain ⟨hshare, htext, hartist, -⟩ := sanitizeMedia_eq_some u h
    exact ⟨hsource, hplaying, mediaDecision_sharesMedia u hshare, htext, hartist⟩
  · contradiction

theorem captureMedia_fst_eq_some {config : PrivacyConfig} {raw : Option MediaSnapshot}
    {freshId : String} {tracker : MediaSessionTracker} {media : SanitizedMediaPresence}
    (h : (captureMedia u config raw freshId tracker).1 = some media) :
    ∃ sample m, raw = some sample ∧ sanitizedMediaOf u config sample = some m := by
  unfold captureMedia at h
  split at h
  · rename_i m hm
    obtain ⟨sample, hsample, hm⟩ := Option.bind_eq_some_iff.mp hm
    exact ⟨sample, m, hsample, hm⟩
  · contradiction

theorem mediaGate_eq_awaiting {options : CaptureOptions} {hasProvider : Bool}
    {config : PrivacyConfig} (h : mediaGate options hasProvider config = .awaiting) :
    hasProvider = true ∧ options.includeMedia = true ∧ config.sources.media = true := by
  unfold mediaGate at h
  split at h
  · rename_i hall
    simpa [and_assoc] using hall
  · split at h <;> contradiction

theorem captureForDelivery_reads_pos (options : CaptureOptions) (input : CaptureInput)
    (tracker : MediaSessionTracker) (reads : Nat → PrivacyConfig) :
    0 < (captureForDelivery u options input tracker reads).reads := by
  unfold captureForDelivery
  dsimp only
  split <;> exact Nat.succ_pos _

/-- A call depends on the reads it makes. -/
theorem captureForDelivery_congr {options : CaptureOptions} {input : CaptureInput}
    {tracker : MediaSessionTracker} {reads reads' : Nat → PrivacyConfig}
    (h : ∀ k < (captureForDelivery u options input tracker reads).reads, reads' k = reads k) :
    captureForDelivery u options input tracker reads' =
      captureForDelivery u options input tracker reads := by
  have hfirst : reads' 0 = reads 0 := h 0 (captureForDelivery_reads_pos options input tracker reads)
  unfold captureForDelivery at h ⊢
  dsimp only at h ⊢
  rw [hfirst]
  split at h
  · rw [h _ (Nat.lt_succ_self _), h _ (Nat.lt_succ_of_lt (Nat.lt_succ_self _))]
  · rw [h _ (Nat.lt_succ_self _)]
  · rw [h _ (Nat.lt_succ_self _)]

theorem captureForDelivery_options {options : CaptureOptions} {privacy : PrivacyConfig}
    (h : privacy.sources.media = true → options.includeMedia = true) (input : CaptureInput)
    (tracker : MediaSessionTracker) :
    (captureForDelivery u options input tracker (fun _ => privacy)).snapshot =
      (captureForDelivery u { includeMedia := privacy.sources.media } input tracker
        (fun _ => privacy)).snapshot := by
  cases hmedia : privacy.sources.media with
  | true =>
      obtain ⟨includeMedia⟩ := options
      obtain rfl : includeMedia = true := h hmedia
      rfl
  | false =>
      have hnone (options : CaptureOptions) :
          (captureForDelivery u options input tracker (fun _ => privacy)).snapshot =
            { observedAt := input.now
              application := captureApplication u privacy input.foreground
              media := none } := by
        unfold captureForDelivery
        dsimp only
        cases hgate : mediaGate options input.provider.isSome privacy with
        | awaiting =>
            obtain ⟨-, -, hshared⟩ := mediaGate_eq_awaiting hgate
            rw [hmedia] at hshared
            contradiction
        | broken => rfl
        | untouched => rfl
      rw [hnone, hnone]

theorem captureForDelivery_application (options : CaptureOptions) (input : CaptureInput)
    (tracker : MediaSessionTracker) (reads : Nat → PrivacyConfig) :
    (captureForDelivery u options input tracker reads).snapshot.application =
      captureApplication u
        ((captureForDelivery u options input tracker reads).lastConfig reads)
        input.foreground := by
  unfold captureForDelivery Capture.lastConfig
  dsimp only
  split <;> rfl

theorem captureForDelivery_media {options : CaptureOptions} {input : CaptureInput}
    {tracker : MediaSessionTracker} {reads : Nat → PrivacyConfig}
    {media : SanitizedMediaPresence}
    (h : (captureForDelivery u options input tracker reads).snapshot.media = some media) :
    mediaGate options input.provider.isSome (reads 0) = .awaiting ∧
      (captureMedia u (reads 1) (input.provider.bind ProviderPoll.raw) input.freshId
        tracker).1 = some media := by
  unfold captureForDelivery at h
  dsimp only at h
  split at h
  · rename_i hgate
    obtain ⟨hprovider, hinclude, -⟩ := mediaGate_eq_awaiting hgate
    refine ⟨hgate, ?_⟩
    simpa [gateReadsConfig, hprovider, hinclude] using h
  · contradiction
  · contradiction

end

/-- Nothing is published that the policy hides. Whatever the configuration reads of the call
return, a delivered application is shared by the last one read, its title by the title switches
of that read as well, and delivered media passed the media switch of the reads on both sides of
the provider await and is shared by the rule selected under the later one. -/
theorem captureForDelivery_discloses_only_shared (options : CaptureOptions)
    (input : CaptureInput) (tracker : MediaSessionTracker) (reads : Nat → PrivacyConfig) :
    let capture := captureForDelivery u options input tracker reads
    let last := capture.lastConfig reads
    (∀ a, capture.snapshot.application = some a →
      ∃ info, input.foreground = some info ∧ last.sources.application = true ∧
        RulesDecide (fun r => normalizeAppId u r.appId = normalizeAppId u info.appId)
          (·.application) last.rules last.defaults.application .share ∧
        (a.windowTitle ≠ none → last.shareWindowTitles = true ∧
          RulesDecide (fun r => normalizeAppId u r.appId = normalizeAppId u info.appId)
            (·.windowTitle) last.rules last.defaults.windowTitle .share)) ∧
    (capture.snapshot.media ≠ none →
      ∃ raw, input.provider = some (.answered (some raw)) ∧ options.includeMedia = true ∧
        (reads 0).sources.media = true ∧ (reads 1).sources.media = true ∧ raw.playing = true ∧
        RulesDecide (MediaRuleKey u raw.appId (rulePlayerName raw)) (·.media) (reads 1).rules
          (reads 1).defaults.media .share ∧
        (normalizeText u raw.title ≠ none ∨ normalizeText u raw.artist ≠ none) ∧
        ((reads 1).ignoreNullArtist = true → normalizeText u raw.artist ≠ none)) := by
  intro capture last
  refine ⟨?_, ?_⟩
  · intro a ha
    have happ := captureForDelivery_application (u := u) options input tracker reads
    obtain ⟨info, hinfo, hsource, hrule, htitle⟩ := captureApplication_sound (happ ▸ ha)
    refine ⟨info, hinfo, hsource, hrule, ?_⟩
    intro hsome
    obtain ⟨title, ht⟩ := Option.ne_none_iff_exists'.mp hsome
    exact htitle title ht
  · intro hsome
    obtain ⟨media, hm⟩ := Option.ne_none_iff_exists'.mp hsome
    obtain ⟨hgate, hmedia⟩ := captureForDelivery_media hm
    obtain ⟨-, hinclude, hbefore⟩ := mediaGate_eq_awaiting hgate
    obtain ⟨raw, m, hraw, hsanitized⟩ := captureMedia_fst_eq_some hmedia
    obtain ⟨hafter, hplaying, hrule, htext, hartist⟩ := sanitizedMediaOf_sound hsanitized
    have hprovider : input.provider = some (.answered (some raw)) := by
      obtain ⟨poll, hpoll, hpollRaw⟩ := Option.bind_eq_some_iff.mp hraw
      cases poll with
      | elapsed => contradiction
      | answered snapshot =>
          obtain rfl : snapshot = some raw := hpollRaw
          exact hpoll
    exact ⟨raw, hprovider, hinclude, hbefore, hafter, hplaying, hrule, htext, hartist⟩

end YohakuCore
