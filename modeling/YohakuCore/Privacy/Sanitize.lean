import YohakuCore.Privacy.Evaluator
import Mathlib.Algebra.Field.Rat

/-!
# Sanitization boundary

The inputs carry no application identifier and no executable path. Length limits belong to the wire
mapper.
-/

namespace YohakuCore

variable (u : UnicodeData)

structure ApplicationSanitizeInput where
  capturedDisplayName : String
  mappedDisplayName : Option String
  windowTitle : Option String

/-- A shared application with every name source blank is dropped whole. -/
def sanitizeApplication (input : ApplicationSanitizeInput) (decision : ProcessDecision)
    (globalShareWindowTitles : Bool) : Option SanitizedApplicationPresence :=
  if ¬ decision.sharesApplication then none
  else
    let displayName := (decision.displayAlias.or (normalizeText u input.mappedDisplayName)).or
      (normalizeText u (some input.capturedDisplayName))
    let windowTitle := if decision.sharesWindowTitle && globalShareWindowTitles then
      normalizeText u input.windowTitle else none
    displayName.map (fun name => { displayName := name, windowTitle := windowTitle })

structure MediaSanitizeInput where
  kind : MediaKind
  title : Option String
  artist : Option String
  album : Option String
  capturedPlayerName : Option String
  mappedPlayerName : Option String
  playing : Bool
  durationSeconds : Option F64
  positionSeconds : Option F64
  sampledAt : Int

/-- The sanitized media presence before a session id is assigned. -/
structure SanitizedMediaWithoutSession where
  kind : MediaKind
  title : Option String
  artist : Option String
  album : Option String
  playerDisplayName : Option String
  playback : SanitizedPlayback
  deriving DecidableEq

/-- NaN, the infinities and negative values become `none`; anything else passes unchanged. -/
def normalizedSeconds : Option F64 → Option ℚ≥0
  | some (.finite value) => if h : 0 ≤ value then some ⟨value, h⟩ else none
  | _ => none

/-- A position is cut to the duration when both are known. -/
def clampPosition (position duration : Option ℚ≥0) : Option ℚ≥0 :=
  match position, duration with
  | some p, some d => if d < p then some d else some p
  | position, _ => position

/-- The paused branch is kept although a capture only sanitizes playing media. -/
def sanitizeMedia (input : MediaSanitizeInput) (decision : MediaDecision)
    (requiresArtist : Bool) : Option SanitizedMediaWithoutSession :=
  if ¬ decision.sharesMedia then none
  else
    let title := normalizeText u input.title
    let artist := normalizeText u input.artist
    if requiresArtist ∧ artist = none then none
    else if title = none ∧ artist = none then none
    else some {
      kind := input.kind
      title := title
      artist := artist
      album := normalizeText u input.album
      playerDisplayName :=
        (decision.displayAlias.or (normalizeText u input.mappedPlayerName)).or
          (normalizeText u input.capturedPlayerName)
      playback := {
        state := if input.playing then .playing else .paused
        durationSeconds := normalizedSeconds input.durationSeconds
        positionSeconds := clampPosition (normalizedSeconds input.positionSeconds)
          (normalizedSeconds input.durationSeconds)
        sampledAt := input.sampledAt
        rate := if input.playing then 1 else 0 } }

theorem sanitizeApplication_eq_some {input : ApplicationSanitizeInput}
    {decision : ProcessDecision} {titles : Bool} {a : SanitizedApplicationPresence}
    (h : sanitizeApplication u input decision titles = some a) :
    decision.sharesApplication = true ∧
      ∀ title, a.windowTitle = some title → decision.sharesWindowTitle = true ∧ titles = true ∧
        normalizeText u input.windowTitle = some title := by
  unfold sanitizeApplication at h
  split at h
  · contradiction
  · rename_i hshare
    obtain ⟨name, -, rfl⟩ := Option.map_eq_some_iff.mp h
    refine ⟨by simpa using hshare, ?_⟩
    intro title htitle
    simpa [and_assoc] using htitle

theorem sanitizeMedia_eq_some {input : MediaSanitizeInput} {decision : MediaDecision}
    {requiresArtist : Bool} {m : SanitizedMediaWithoutSession}
    (h : sanitizeMedia u input decision requiresArtist = some m) :
    decision.sharesMedia = true ∧
      (normalizeText u input.title ≠ none ∨ normalizeText u input.artist ≠ none) ∧
      (requiresArtist = true → normalizeText u input.artist ≠ none) ∧
      m.title = normalizeText u input.title ∧ m.artist = normalizeText u input.artist := by
  unfold sanitizeMedia at h
  split at h
  · contradiction
  · rename_i hshare
    dsimp only at h
    split at h
    · contradiction
    · rename_i hartist
      split at h
      · contradiction
      · rename_i htext
        obtain rfl := Option.some.inj h
        refine ⟨by simpa using hshare, ?_, ?_, rfl, rfl⟩
        · exact not_and_or.mp htext
        · intro hr hnone
          exact hartist ⟨hr, hnone⟩

end YohakuCore
