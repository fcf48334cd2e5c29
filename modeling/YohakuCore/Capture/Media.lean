import YohakuCore.Privacy.Text
import YohakuCore.Protocol.Wire

/-! # Raw media frames -/

namespace YohakuCore

/-- The White_Space property, the set that `str::trim` strips. Unlike the ECMAScript set it holds
U+0085 and not U+FEFF. -/
def isRustWhitespace (c : Char) : Bool :=
  (0x2000 ≤ c.toNat && c.toNat ≤ 0x200A) ||
    [0x0009, 0x000A, 0x000B, 0x000C, 0x000D, 0x0020, 0x0085, 0x00A0, 0x1680,
      0x2028, 0x2029, 0x202F, 0x205F, 0x3000].contains c.toNat

def rustTrim (value : String) : String :=
  String.ofList ((value.toList.dropWhile isRustWhitespace).rdropWhile isRustWhitespace)

theorem rustTrim_rustTrim (value : String) : rustTrim (rustTrim value) = rustTrim value := by
  unfold rustTrim
  rw [String.toList_ofList, trim_trim]

def toNull (value : String) : Option String :=
  if rustTrim value = "" then none else some (rustTrim value)

def isPathSeparator (c : Char) : Bool := c = '\\' || c = '/'

/-- The part after the last separator. -/
def winBasename (path : String) : String :=
  String.ofList (path.toList.rtakeWhile (fun c => !isPathSeparator c))

/-- The last four characters are `.exe` in some ASCII case. -/
def endsWithExe (value : String) : Bool :=
  (value.toList.drop (value.toList.length - 4)).map Char.toLower = ['.', 'e', 'x', 'e']

/-- One read of the current session, before any trimming. -/
structure RawFrame where
  sourceAppId : String
  title : String
  artist : String
  album : String
  kind : MediaKind
  playing : Bool
  durationSeconds : F64
  positionSeconds : F64
  updatedAtMs : Int
  deriving DecidableEq

variable (u : UnicodeData) (floats : Floats)

/-- The whole trimmed source, lowercased, when it ends in `.exe`. -/
def appIdFromSource (trimmedSource : String) : Option String :=
  if endsWithExe trimmedSource then some (u.toLowercase trimmedSource) else none

/-- `MediaPlaybackType`; any other value, or none, is unknown. -/
def mediaKindFromPlaybackType : Option Int → MediaKind
  | some 1 => .music
  | some 3 => .video
  | _ => .unknown

def ticksPerSecond : ℚ := 10000000

/-- Ticks of 100 ns as seconds: the count is rounded, and so is the quotient. -/
def ticksToSeconds (ticks : Int64) : F64 :=
  match floats.round ticks.toInt with
  | .finite value => floats.round (value / ticksPerSecond)
  | other => other

def unixEpochOffsetTicks : Int64 := 116444736000000000

def winrtDatetimeToEpochMs (universalTimeTicks : Int64) : Int :=
  ((universalTimeTicks - unixEpochOffsetTicks) / 10000).toInt

/-- What one read of the current session returns. -/
structure SessionProperties where
  sourceAppUserModelId : String
  title : String
  artist : String
  albumTitle : String
  endTime : Int64
  position : Int64
  lastUpdatedTime : Int64
  playbackStatus : Int
  playbackType : Option Int
  deriving DecidableEq

def playbackStatusPlaying : Int := 4

def readRawFrame (session : SessionProperties) : RawFrame where
  sourceAppId := session.sourceAppUserModelId
  title := session.title
  artist := session.artist
  album := session.albumTitle
  kind := mediaKindFromPlaybackType session.playbackType
  playing := session.playbackStatus = playbackStatusPlaying
  durationSeconds := ticksToSeconds floats session.endTime
  positionSeconds := ticksToSeconds floats session.position
  updatedAtMs := winrtDatetimeToEpochMs session.lastUpdatedTime

def extrapolationMaxElapsedSeconds : ℚ := 21600

/-- A position is moved on while playing, by less than six hours, and then cut to the duration;
the cut does not depend on the move. -/
def extrapolatedPosition (rawPosition : F64) (playing : Bool) (updatedAtMs nowMs : Int)
    (duration : Option F64) : Option F64 :=
  match rawPosition with
  | .finite raw =>
      if raw < 0 then none
      else if playing then
        let elapsed := match floats.round (nowMs - updatedAtMs : Int) with
          | .finite ms => floats.round (ms / 1000)
          | other => other
        let moved := match elapsed with
          | .finite e =>
              if 0 < e ∧ e < extrapolationMaxElapsedSeconds then floats.round (raw + e)
              else .finite raw
          | _ => .finite raw
        match moved, duration with
        | .finite p, some (.finite d) => if d < p then some (.finite d) else some (.finite p)
        | .posInf, some (.finite d) => some (.finite d)
        | p, _ => some p
      else some (.finite raw)
  | _ => none

/-- Finite and positive. -/
def knownDuration : F64 → Option F64
  | .finite value => if 0 < value then some (.finite value) else none
  | _ => none

/-- A session with neither a source nor a title is meaningless. -/
def frameToSnapshot (exeDisplayName : String → String) (frame : RawFrame) (nowMs : Int) :
    Option MediaSnapshot :=
  let source := rustTrim frame.sourceAppId
  let title := toNull frame.title
  if source = "" ∧ title = none then none
  else
    let appId := appIdFromSource u source
    let duration := knownDuration frame.durationSeconds
    some {
      appId := appId
      sourceAppUserModelId := if source = "" then none else some source
      playerDisplayName :=
        match appId with
        | some appId => some (exeDisplayName appId)
        | none => toNull source
      kind := frame.kind
      title := title
      artist := toNull frame.artist
      album := toNull frame.album
      playing := frame.playing
      durationSeconds := duration
      positionSeconds := extrapolatedPosition floats frame.positionSeconds frame.playing
        frame.updatedAtMs nowMs duration
      sampledAt := nowMs }

end YohakuCore
