import YohakuCore.Capture.Foreground
import YohakuCore.Privacy.CaptureService

/-!
# Where a display name panics

The test for the suffix of a file name cuts its last four bytes off as a text, and a cut within a
character panics.
-/

namespace YohakuCore

open Framework

variable (u : UnicodeData) (toUppercase : Char → String) (cacheKey : String → Option String)

/-- The fallback is derived before the cache is asked. The cache is keyed by the path and the time
the file was modified, and a file that is gone has no key. -/
def displayNameFor (cache : String → Option String) (exePath appId : String) : Option String := do
  let fallback ← exeStemDisplayName toUppercase appId
  return ((cacheKey exePath).bind cache).getD fallback

/-- One fresh sample, with what the cache of display names holds at that time. -/
structure Sampling where
  cache : String → Option String
  raw : Option RawForegroundSample

structure WatchState where
  lastKey : Option String
  lastInfo : Option ForegroundInfo
  debounceGeneration : Nat

/-- `current` as it runs; the information it returns is the last one from then on. -/
def WatchState.current (state : WatchState) (sampling : Sampling) :
    Option (WatchState × Option ForegroundInfo) :=
  match sampling.raw with
  | some { windowTitle, exePath := some exePath } =>
      let appId := u.toLowercase (winBasename exePath)
      if appId = "" then some (state, state.lastInfo)
      else do
        let displayName ← displayNameFor toUppercase cacheKey sampling.cache exePath appId
        let info := some { appId, displayName, windowTitle }
        return ({ state with lastInfo := info }, info)
  | _ => some (state, state.lastInfo)

/-- The separator is the two characters `\0`; the display name is left out. -/
def changeKey : Option ForegroundInfo → String
  | none => ""
  | some info => info.appId ++ "\\0" ++ info.windowTitle.getD ""

/-- Whether a delivery is scheduled; a new generation cancels the one that is pending. -/
def WatchState.registerChangeKey (state : WatchState) (key : String) : WatchState × Bool :=
  if state.lastKey = some key then (state, false)
  else
    ({ state with lastKey := some key, debounceGeneration := state.debounceGeneration + 1 }, true)

/-- One pass, with the delivery it schedules. -/
def WatchState.pollOnce (state : WatchState) (sampling : Sampling) :
    Option (WatchState × Option (Option ForegroundInfo)) := do
  let (state, info) ← state.current u toUppercase cacheKey sampling
  let (state, scheduled) := state.registerChangeKey (changeKey info)
  return (state, if scheduled then some info else none)

/-- The passes of the poll thread, until it is stopped or panics. -/
def WatchState.pollLoop (state : WatchState) (samplings : List Sampling) : Option WatchState :=
  samplings.foldlM
    (fun state sampling => (state.pollOnce u toUppercase cacheKey sampling).map Prod.fst) state

/-- One capture beside the watcher, which is sampled when the last read of the configuration
shares applications. -/
def captureFromWatcher (options : CaptureOptions) (input : CaptureInput)
    (tracker : MediaSessionTracker) (reads : Nat → PrivacyConfig) (state : WatchState)
    (sampling : Sampling) : Option Capture :=
  let capture := captureForDelivery u options input tracker reads
  if (capture.lastConfig reads).sources.application then do
    let (_, foreground) ← state.current u toUppercase cacheKey sampling
    return captureForDelivery u options { input with foreground } tracker reads
  else some capture

/-- The part after the last separator takes fewer than four bytes, or the fourth byte from its end
begins a character. -/
def SliceableName (path : String) : Prop :=
  let base := winBasename path
  Utf8.byteLength base.toList < 4 ∨
    ∃ b, (Utf8.encode base)[Utf8.byteLength base.toList - 4]? = some b ∧ b.IsUTF8FirstByte

/-- The file name that a sample is known by, if it has one. -/
def SliceableSample (raw : Option RawForegroundSample) : Prop :=
  ∀ windowTitle exePath, raw = some ⟨windowTitle, some exePath⟩ →
    SliceableName (u.toLowercase (winBasename exePath))

variable {u}

theorem exeStem_isSome (base : List Char) :
    (exeStem base).isSome = true ↔
      Utf8.byteLength base < 4 ∨ (Utf8.splitAt? base (Utf8.byteLength base - 4)).isSome = true := by
  rw [exeStem]
  split
  · rename_i hfour
    cases Utf8.splitAt? base (Utf8.byteLength base - 4) with
    | none => simp [hfour]
    | some cut => simp
  · simp
    omega

theorem exeStemDisplayName_isSome (path : String) :
    (exeStemDisplayName toUppercase path).isSome = true ↔ SliceableName path := by
  have hstem : (exeStemDisplayName toUppercase path).isSome =
      (exeStem (winBasename path).toList).isSome := by
    rw [exeStemDisplayName]
    cases exeStem (winBasename path).toList <;> rfl
  rw [hstem, exeStem_isSome, Utf8.splitAt?_isSome_iff, Utf8.IsBoundary, String.ofList_toList]
  dsimp only [SliceableName]
  constructor
  · rintro (hshort | hend | hfirst)
    · exact Or.inl hshort
    · exact Or.inl (by omega)
    · exact Or.inr hfirst
  · rintro (hshort | hfirst)
    · exact Or.inl hshort
    · exact Or.inr (Or.inr hfirst)

/-- The file name is a slice of the path at the end of a character. -/
theorem winBasename_slice (path : String) :
    ∃ front, Utf8.splitAt? path.toList
        (Utf8.byteLength path.toList - Utf8.byteLength (winBasename path).toList) =
      some (front, (winBasename path).toList) := by
  refine ⟨path.toList.rdropWhile (fun c => !isPathSeparator c), ?_⟩
  have hcut : path.toList = path.toList.rdropWhile (fun c => !isPathSeparator c) ++
      (winBasename path).toList := by
    rw [winBasename, String.toList_ofList, List.rdropWhile_append_rtakeWhile]
  have hlength := congrArg Utf8.byteLength hcut
  rw [Utf8.byteLength_append] at hlength
  exact Utf8.splitAt?_eq_some_iff.mpr ⟨hcut, by omega⟩

theorem displayNameFor_isSome (cache : String → Option String) (exePath appId : String) :
    (displayNameFor toUppercase cacheKey cache exePath appId).isSome = true ↔
      SliceableName appId := by
  rw [← exeStemDisplayName_isSome toUppercase, displayNameFor]
  cases exeStemDisplayName toUppercase appId <;> simp

theorem sliceableName_empty : SliceableName "" := Or.inl (by decide)

theorem current_isSome (state : WatchState) (sampling : Sampling) :
    (state.current u toUppercase cacheKey sampling).isSome = true ↔
      SliceableSample u sampling.raw := by
  obtain ⟨cache, raw⟩ := sampling
  rcases raw with _ | ⟨windowTitle, _ | exePath⟩
  · simp [WatchState.current, SliceableSample]
  · simp [WatchState.current, SliceableSample]
  · have hsample : SliceableSample u (some ⟨windowTitle, some exePath⟩) ↔
        SliceableName (u.toLowercase (winBasename exePath)) := by
      simp [SliceableSample]
    rw [hsample, ← displayNameFor_isSome toUppercase cacheKey cache exePath, WatchState.current]
    dsimp only
    split
    · rename_i hempty
      rw [displayNameFor_isSome, hempty]
      simp [sliceableName_empty]
    · cases displayNameFor toUppercase cacheKey cache exePath (u.toLowercase (winBasename exePath))
        <;> simp

theorem pollOnce_isSome (state : WatchState) (sampling : Sampling) :
    (state.pollOnce u toUppercase cacheKey sampling).isSome = true ↔
      SliceableSample u sampling.raw := by
  rw [← current_isSome toUppercase cacheKey state,
    WatchState.pollOnce]
  cases state.current u toUppercase cacheKey sampling <;> simp

theorem pollLoop_isSome (state : WatchState) (samplings : List Sampling) :
    (state.pollLoop u toUppercase cacheKey samplings).isSome = true ↔
      ∀ sampling ∈ samplings, SliceableSample u sampling.raw := by
  unfold WatchState.pollLoop
  induction samplings generalizing state with
  | nil => simp
  | cons sampling samplings ih =>
      rw [List.foldlM_cons, List.forall_mem_cons,
        ← pollOnce_isSome toUppercase cacheKey state]
      cases state.pollOnce u toUppercase cacheKey sampling with
      | none => simp
      | some pass => simpa using ih pass.1

theorem captureFromWatcher_isSome (options : CaptureOptions) (input : CaptureInput)
    (tracker : MediaSessionTracker) (reads : Nat → PrivacyConfig) (state : WatchState)
    (sampling : Sampling) :
    (captureFromWatcher u toUppercase cacheKey options input tracker reads state
      sampling).isSome = true ↔
    (((captureForDelivery u options input tracker reads).lastConfig reads).sources.application =
      true → SliceableSample u sampling.raw) := by
  rw [captureFromWatcher]
  split
  · rename_i happlication
    rw [← current_isSome toUppercase cacheKey state]
    cases state.current u toUppercase cacheKey sampling <;> simp [happlication]
  · rename_i happlication
    simp [happlication]

variable (u)

/-- The file name is always a slice at the end of a character. The display name is derived, and the
watcher, its poll loop and a capture run on, exactly as far as the file names can be cut four bytes
from their end. -/
theorem display_name_returns_iff :
    (∀ path : String,
      (∃ front, Utf8.splitAt? path.toList
          (Utf8.byteLength path.toList - Utf8.byteLength (winBasename path).toList) =
        some (front, (winBasename path).toList)) ∧
      ((exeStemDisplayName toUppercase path).isSome = true ↔ SliceableName path)) ∧
    (∀ (state : WatchState) (sampling : Sampling),
      (state.current u toUppercase cacheKey sampling).isSome = true ↔
        SliceableSample u sampling.raw) ∧
    (∀ (state : WatchState) (samplings : List Sampling),
      (state.pollLoop u toUppercase cacheKey samplings).isSome = true ↔
        ∀ sampling ∈ samplings, SliceableSample u sampling.raw) ∧
    ∀ (options : CaptureOptions) (input : CaptureInput) (tracker : MediaSessionTracker)
      (reads : Nat → PrivacyConfig) (state : WatchState) (sampling : Sampling),
      (captureFromWatcher u toUppercase cacheKey options input tracker reads state
        sampling).isSome = true ↔
      (((captureForDelivery u options input tracker reads).lastConfig reads).sources.application =
        true → SliceableSample u sampling.raw) :=
  ⟨fun path => ⟨winBasename_slice path, exeStemDisplayName_isSome toUppercase path⟩,
    current_isSome toUppercase cacheKey, pollLoop_isSome toUppercase cacheKey,
    captureFromWatcher_isSome toUppercase cacheKey⟩

/-- A program without the suffix, whose name is written in characters of three bytes. -/
def unnamedProgram : Sampling where
  cache _ := none
  raw := some ⟨none, some "C:\\Tools\\播放器"⟩

/-- It ends the thread that polls the foreground, and a capture. -/
theorem display_name_panics :
    (exeStemDisplayName Char.toString "播放器").isSome = false ∧
    (WatchState.pollLoop .ascii Char.toString (fun _ => none) ⟨none, none, 0⟩
      [unnamedProgram]).isSome = false ∧
    (captureFromWatcher .ascii Char.toString (fun _ => none) { includeMedia := false }
      { now := 0, provider := none, foreground := none, freshId := "" } .new
      (fun _ => defaultPrivacyConfig) ⟨none, none, 0⟩ unnamedProgram).isSome = false := by
  decide +kernel

end YohakuCore
