import YohakuCore.Capture.Media
import YohakuCore.Privacy.CaptureService
import YohakuCore.Protocol.DtoMapper

/-!
# What a media source discloses

Two frames that differ in their source only, followed through the capture to the request.
-/

namespace YohakuCore

variable (u : UnicodeData) (floats : Floats) (calendar : Calendar)

/-- No rule and no mapping is configured for this name. -/
def Unmatched (config : PrivacyConfig) (name : String) : Prop :=
  (∀ rule ∈ config.rules, normalizeAppId u rule.appId ≠ normalizeAppId u name) ∧
    ∀ mapping ∈ config.mappings, normalizeAppId u mapping.source ≠ normalizeAppId u name

/-- The media of the frame is delivered when no rule decides about it. -/
def MediaDelivered (options : CaptureOptions) (config : PrivacyConfig) (frame : RawFrame) :
    Prop :=
  options.includeMedia = true ∧ config.sources.media = true ∧ frame.playing = true ∧
    config.defaults.media = .share ∧
    (normalizeText u (toNull frame.title) ≠ none ∨ normalizeText u (toNull frame.artist) ≠ none) ∧
    (config.ignoreNullArtist = true → normalizeText u (toNull frame.artist) ≠ none)

/-- The rest of a capture's input: the two clock readings, the foreground, the id a new session
would get and the session remembered. -/
structure FrameInput where
  polledAt : Int
  now : Int
  foreground : Option ForegroundInfo
  freshId : String
  tracker : MediaSessionTracker

/-- A capture that polls this frame, under one configuration. -/
def captureFrame (exeDisplayName : String → String) (options : CaptureOptions)
    (config : PrivacyConfig) (input : FrameInput) (frame : RawFrame) :
    SanitizedPresenceSnapshot :=
  (captureForDelivery u options {
      now := input.now
      provider := some (.answered (frameToSnapshot u floats exeDisplayName frame input.polledAt))
      foreground := input.foreground
      freshId := input.freshId } input.tracker (fun _ => config)).snapshot

variable {u floats calendar} {exeDisplayName : String → String} {options : CaptureOptions}
  {config : PrivacyConfig} {input : FrameInput} {frame : RawFrame} {name : String}

theorem findRuleByPlayerName_unmatched (h : Unmatched u config name) :
    findRuleByPlayerName u config name = none := by
  rw [findRuleByPlayerName]
  split
  · rfl
  · rw [List.find?_eq_none]
    intro rule hrule
    simpa using h.1 rule hrule

theorem applyMapping_unmatched (h : Unmatched u config name) (mappingType : PrivacyMappingType) :
    applyMapping u config mappingType name = none := by
  have hnone : config.mappings.find? (fun m => m.mappingType = mappingType ∧
      normalizeAppId u m.source = normalizeAppId u name) = none := by
    rw [List.find?_eq_none]
    intro mapping hmapping
    have hne := h.2 mapping hmapping
    simp [hne]
  rw [applyMapping, hnone, Option.map_none]

/-- The snapshot of a frame whose source is not an executable. -/
def unattributed (floats : Floats) (frame : RawFrame) (nowMs : Int) (name : String) :
    MediaSnapshot where
  appId := none
  sourceAppUserModelId := some name
  playerDisplayName := some name
  kind := frame.kind
  title := toNull frame.title
  artist := toNull frame.artist
  album := toNull frame.album
  playing := frame.playing
  durationSeconds := knownDuration frame.durationSeconds
  positionSeconds := extrapolatedPosition floats frame.positionSeconds frame.playing
    frame.updatedAtMs nowMs (knownDuration frame.durationSeconds)
  sampledAt := nowMs

/-- What is sanitized of a frame without the name of its player. -/
def anonymousMedia (u : UnicodeData) (floats : Floats) (config : PrivacyConfig)
    (frame : RawFrame) (nowMs : Int) : Option SanitizedMediaWithoutSession :=
  let raw := unattributed floats frame nowMs ""
  if config.sources.media && frame.playing then
    sanitizeMedia u {
        kind := raw.kind
        title := raw.title
        artist := raw.artist
        album := raw.album
        capturedPlayerName := none
        mappedPlayerName := none
        playing := raw.playing
        durationSeconds := raw.durationSeconds
        positionSeconds := raw.positionSeconds
        sampledAt := raw.sampledAt }
      (mediaDecisionOf u config.defaults none) config.ignoreNullArtist
  else none

theorem frameToSnapshot_unattributed (hsource : rustTrim frame.sourceAppId ≠ "")
    (hexe : endsWithExe (rustTrim frame.sourceAppId) = false) (nowMs : Int) :
    frameToSnapshot u floats exeDisplayName frame nowMs =
      some (unattributed floats frame nowMs (rustTrim frame.sourceAppId)) := by
  simp [frameToSnapshot, unattributed, appIdFromSource, toNull, rustTrim_rustTrim, hsource, hexe]

theorem sanitizeMedia_name {media : MediaSanitizeInput} {decision : MediaDecision}
    {requiresArtist : Bool} (halias : decision.displayAlias = none)
    (hmapped : media.mappedPlayerName = none) :
    sanitizeMedia u media decision requiresArtist =
      (sanitizeMedia u { media with capturedPlayerName := none } decision requiresArtist).map
        (fun m => { m with playerDisplayName := normalizeText u media.capturedPlayerName }) := by
  simp only [sanitizeMedia, halias, hmapped]
  split
  · rfl
  · split
    · rfl
    · split <;> simp [normalizeText]

theorem sanitizeMedia_isSome {media : MediaSanitizeInput} {decision : MediaDecision}
    {requiresArtist : Bool} :
    (sanitizeMedia u media decision requiresArtist).isSome = true ↔
      decision.sharesMedia = true ∧
        (normalizeText u media.title ≠ none ∨ normalizeText u media.artist ≠ none) ∧
        (requiresArtist = true → normalizeText u media.artist ≠ none) := by
  simp only [sanitizeMedia]
  split
  · simp_all
  · split
    · simp_all
    · split
      · simp_all
      · simp_all
        tauto

theorem mediaDecisionOf_none (defaults : PrivacyDefaults) :
    mediaDecisionOf u defaults none =
      { sharesMedia := defaults.media = .share, displayAlias := none } := by
  cases hmedia : defaults.media <;> simp [mediaDecisionOf, resolveOverride, hmedia]

/-- The decision does not depend on the name, and the name becomes the player's. -/
theorem sanitizedMediaOf_unattributed (h : Unmatched u config name) (nowMs : Int) :
    sanitizedMediaOf u config (unattributed floats frame nowMs name) =
      (anonymousMedia u floats config frame nowMs).map
        (fun media => { media with playerDisplayName := normalizeText u (some name) }) := by
  have hdecision : mediaDecision u config none name = mediaDecisionOf u config.defaults none := by
    rw [mediaDecision, mediaRule, findRuleByPlayerName_unmatched h]
  have hmapped : mappedPlayerName u config (unattributed floats frame nowMs name) = none := by
    simp [mappedPlayerName, unattributed, applyMapping_unmatched h]
  rw [sanitizedMediaOf, anonymousMedia, hmapped]
  simp only [unattributed, rulePlayerName, Option.some_or, Option.getD_some, hdecision]
  by_cases hgate : (config.sources.media && frame.playing) = true
  · rw [if_pos hgate, if_pos hgate]
    rw [sanitizeMedia_name (by rw [mediaDecisionOf_none]) rfl]
  · rw [if_neg hgate, if_neg hgate, Option.map_none]

theorem mediaDelivered_iff (floats : Floats) (nowMs : Int) : MediaDelivered u options config frame ↔
    options.includeMedia = true ∧ config.sources.media = true ∧
      (anonymousMedia u floats config frame nowMs).isSome = true := by
  simp only [MediaDelivered, anonymousMedia, mediaDecisionOf_none]
  refine and_congr_right fun _ => ?_
  by_cases hgate : (config.sources.media && frame.playing) = true
  · obtain ⟨hsource, hplaying⟩ := (Bool.and_eq_true _ _).mp hgate
    rw [if_pos hgate, sanitizeMedia_isSome]
    simp [hsource, hplaying, unattributed]
  · rw [if_neg hgate]
    simp only [Bool.and_eq_true, not_and] at hgate
    simp only [Option.isSome_none, Bool.false_eq_true, and_false, iff_false, not_and]
    intro hsource hplaying
    exact absurd hplaying (hgate hsource)

theorem captureMedia_fst (raw : Option MediaSnapshot) (freshId : String)
    (tracker : MediaSessionTracker) :
    (captureMedia u config raw freshId tracker).1 =
      (raw.bind (sanitizedMediaOf u config)).map (fun media =>
        withSession media (tracker.sessionId (semanticIdentity media) freshId).1) := by
  rw [captureMedia]
  cases raw.bind (sanitizedMediaOf u config) <;> rfl

theorem captureFrame_eq : captureFrame u floats exeDisplayName options config input frame =
    { observedAt := input.now
      application := captureApplication u config input.foreground
      media :=
        if options.includeMedia && config.sources.media then
          (captureMedia u config (frameToSnapshot u floats exeDisplayName frame input.polledAt)
            input.freshId input.tracker).1
        else none } := by
  rw [captureFrame, captureForDelivery]
  by_cases hinclude : options.includeMedia = true <;>
    by_cases hsource : config.sources.media = true <;>
      simp [mediaGate, hinclude, hsource, ProviderPoll.raw]

/-- The delivered media, with a name for its player. -/
def publishedMedia (u : UnicodeData) (floats : Floats) (options : CaptureOptions)
    (config : PrivacyConfig) (input : FrameInput) (frame : RawFrame)
    (playerDisplayName : Option String) : Option SanitizedMediaPresence :=
  if options.includeMedia && config.sources.media then
    (anonymousMedia u floats config frame input.polledAt).map (fun media =>
      let named := { media with playerDisplayName := playerDisplayName }
      withSession named (input.tracker.sessionId (semanticIdentity named) input.freshId).1)
  else none

theorem captureFrame_published (hsource : rustTrim frame.sourceAppId ≠ "")
    (hexe : endsWithExe (rustTrim frame.sourceAppId) = false)
    (hunmatched : Unmatched u config (rustTrim frame.sourceAppId)) :
    captureFrame u floats exeDisplayName options config input frame =
      { observedAt := input.now
        application := captureApplication u config input.foreground
        media := publishedMedia u floats options config input frame
          (normalizeText u (some (rustTrim frame.sourceAppId))) } := by
  rw [captureFrame_eq, captureMedia_fst, frameToSnapshot_unattributed hsource hexe,
    Option.bind_some, sanitizedMediaOf_unattributed hunmatched, Option.map_map]
  rfl

theorem publishedMedia_eq_iff (floats : Floats) (input : FrameInput) {a b : Option String} :
    publishedMedia u floats options config input frame a =
        publishedMedia u floats options config input frame b ↔
      ¬ MediaDelivered u options config frame ∨ a = b := by
  rw [mediaDelivered_iff floats input.polledAt, publishedMedia, publishedMedia]
  by_cases hgate : (options.includeMedia && config.sources.media) = true
  · obtain ⟨hinclude, hsource⟩ := (Bool.and_eq_true _ _).mp hgate
    rw [if_pos hgate, if_pos hgate]
    cases hmedia : anonymousMedia u floats config frame input.polledAt with
    | none => simp
    | some media =>
        simp only [Option.map_some, Option.some.injEq, hinclude, hsource, Option.isSome_some,
          and_self, not_true_eq_false, false_or]
        constructor
        · intro h
          exact congrArg SanitizedMediaPresence.playerDisplayName h
        · rintro rfl
          rfl
  · rw [if_neg hgate, if_neg hgate]
    simp only [Bool.and_eq_true, not_and] at hgate
    simp only [true_iff]
    exact Or.inl (fun h => hgate h.1 h.2.1)

/-- Two frames that differ in a source without rules, mappings and executable give the same
snapshot, and so the same request up to its ids, exactly when their media is not delivered or
their sources normalize to the same text. -/
theorem media_source_flow_iff {other : String}
    (hsource : rustTrim frame.sourceAppId ≠ "") (hother : rustTrim other ≠ "")
    (hexe : endsWithExe (rustTrim frame.sourceAppId) = false)
    (hotherExe : endsWithExe (rustTrim other) = false)
    (hunmatched : Unmatched u config (rustTrim frame.sourceAppId))
    (hotherUnmatched : Unmatched u config (rustTrim other)) :
    (captureFrame u floats exeDisplayName options config input frame =
        captureFrame u floats exeDisplayName options config input
          { frame with sourceAppId := other } ∧
      ∀ calendar sequence requestedLeaseSeconds requestOptions requestId requestId',
        (makePresenceRequest calendar floats
            (captureFrame u floats exeDisplayName options config input frame) sequence
            requestedLeaseSeconds requestOptions requestId).map PresenceRequest.unidentified =
          (makePresenceRequest calendar floats
            (captureFrame u floats exeDisplayName options config input
              { frame with sourceAppId := other }) sequence
            requestedLeaseSeconds requestOptions requestId').map PresenceRequest.unidentified) ↔
    ¬ MediaDelivered u options config frame ∨
      normalizeText u (some (rustTrim frame.sourceAppId)) =
        normalizeText u (some (rustTrim other)) := by
  have hframe : captureFrame u floats exeDisplayName options config input frame = _ :=
    captureFrame_published hsource hexe hunmatched
  have hothers : captureFrame u floats exeDisplayName options config input
      { frame with sourceAppId := other } = _ :=
    captureFrame_published hother hotherExe hotherUnmatched
  have hsame : captureFrame u floats exeDisplayName options config input frame =
      captureFrame u floats exeDisplayName options config input
        { frame with sourceAppId := other } ↔ ¬ MediaDelivered u options config frame ∨
      normalizeText u (some (rustTrim frame.sourceAppId)) =
        normalizeText u (some (rustTrim other)) := by
    rw [hframe, hothers, ← publishedMedia_eq_iff floats input]
    simp only [SanitizedPresenceSnapshot.mk.injEq, true_and]
    rfl
  rw [← hsame]
  refine ⟨And.left, fun h => ⟨h, ?_⟩⟩
  intro calendar sequence requestedLeaseSeconds requestOptions requestId requestId'
  rw [h]
  exact makePresenceRequest_unidentified _ _ _ _ _ _

def packagedFrame : RawFrame where
  sourceAppId := "Vendor.Player_8wekyb3d8bbwe!App"
  title := "Title"
  artist := "Artist"
  album := ""
  kind := .music
  playing := true
  durationSeconds := .finite 0
  positionSeconds := .finite 0
  updatedAtMs := 0

def quietInput : FrameInput where
  polledAt := 0
  now := 0
  foreground := none
  freshId := "00000000-0000-4000-8000-000000000000"
  tracker := .new

theorem unmatched_default (u : UnicodeData) (name : String) :
    Unmatched u defaultPrivacyConfig name := by
  simp [Unmatched, defaultPrivacyConfig]

/-- The white space around a source stays on the machine. -/
theorem media_source_flow_iff_packaged :
    captureFrame .ascii .integral id ⟨true⟩ defaultPrivacyConfig quietInput packagedFrame =
      captureFrame .ascii .integral id ⟨true⟩ defaultPrivacyConfig quietInput
        { packagedFrame with sourceAppId := " Vendor.Player_8wekyb3d8bbwe!App" } :=
  ((media_source_flow_iff (by decide +kernel) (by decide +kernel) (by decide +kernel)
    (by decide +kernel) (unmatched_default _ _) (unmatched_default _ _)).mpr
      (Or.inr (by decide +kernel))).1

/-- Two packaged applications are told apart by the request, which carries their identifiers. -/
theorem media_source_flows :
    (rustTrim packagedFrame.sourceAppId ≠ "" ∧ rustTrim "com.squirrel.Player" ≠ "" ∧
      endsWithExe (rustTrim packagedFrame.sourceAppId) = false ∧
      endsWithExe (rustTrim "com.squirrel.Player") = false ∧
      Unmatched .ascii defaultPrivacyConfig (rustTrim packagedFrame.sourceAppId) ∧
      Unmatched .ascii defaultPrivacyConfig (rustTrim "com.squirrel.Player")) ∧
    captureFrame .ascii .integral id ⟨true⟩ defaultPrivacyConfig quietInput packagedFrame ≠
      captureFrame .ascii .integral id ⟨true⟩ defaultPrivacyConfig quietInput
        { packagedFrame with sourceAppId := "com.squirrel.Player" } ∧
    ((makePresenceRequest .epoch .integral
        (captureFrame .ascii .integral id ⟨true⟩ defaultPrivacyConfig quietInput packagedFrame) 0
        (.finite 60) ⟨"device", 30, 120⟩ "request").map
          (fun request => request.data.media.bind WireMediaContext.player)).toOption =
      some (some packagedFrame.sourceAppId) :=
  ⟨⟨by decide +kernel, by decide +kernel, by decide +kernel, by decide +kernel,
    unmatched_default _ _, unmatched_default _ _⟩, by decide +kernel, by decide +kernel⟩

end YohakuCore
