import YohakuCore.Framework.JsonPrint
import YohakuCore.Framework.Utf8
import YohakuCore.Privacy.FingerprintDocument
import YohakuCore.Protocol.DtoMapper

/-!
# Request bodies

A request as the bytes of its compact JSON. How a number that is no integer is printed is a
parameter.
-/

namespace YohakuCore

open Framework

def availabilityStr : WireAvailability → String
  | .idle => "idle"
  | .active => "active"

def mediaKindStr : MediaKind → String
  | .music => "music"
  | .podcast => "podcast"
  | .video => "video"
  | .unknown => "unknown"

def playbackStateStr : PlaybackState → String
  | .playing => "playing"
  | .paused => "paused"

def clearReasonStr : ClearReason → String
  | .paused => "paused"
  | .sleep => "sleep"
  | .shutdown => "shutdown"
  | .privacyChanged => "privacyChanged"
  | .connectionRemoved => "connectionRemoved"

def u64Json (value : Nat) : Json := .number (.posInt (UInt64.ofNat value))

/-- An integer is written without a fraction. -/
def serializeJsNumber (shortest : ℚ≥0 → String) (value : ℚ≥0) : Json :=
  if value.den = 1 ∧ value ≤ maximumSafeWireInteger.toNat then u64Json value.num
  else .number (.other (shortest value))

def PresenceRequestMeta.document (m : PresenceRequestMeta) : Json :=
  .object [("schema", .string m.schema), ("schemaVersion", u64Json m.schemaVersion),
    ("requestId", .string m.requestId), ("deviceId", .string m.deviceId),
    ("sequence", u64Json m.sequence.toNat), ("observedAt", .string m.observedAt)]

def WireApplicationContext.document (application : WireApplicationContext) : Json :=
  .object [("displayName", .string application.displayName), ("activity", .null),
    ("window", Json.writeOption (fun title => .object [("title", .string title)])
      application.windowTitle),
    ("icon", .null)]

variable (shortest : ℚ≥0 → String)

def WirePlayback.document (playback : WirePlayback) : Json :=
  .object [("state", .string (playbackStateStr playback.state)),
    ("durationMs", Json.writeOption (fun ms => u64Json ms.toNat) playback.durationMs),
    ("positionMs", Json.writeOption (fun ms => u64Json ms.toNat) playback.positionMs),
    ("sampledAt", .string playback.sampledAt),
    ("rate", serializeJsNumber shortest playback.rate)]

def WireMediaContext.document (media : WireMediaContext) : Json :=
  .object [("sessionId", .string media.sessionId), ("kind", .string (mediaKindStr media.kind)),
    ("title", Json.writeOption .string media.title),
    ("artist", Json.writeOption .string media.artist),
    ("album", Json.writeOption .string media.album),
    ("player", Json.writeOption (fun name => .object [("displayName", .string name)])
      media.player),
    ("playback", media.playback.document shortest)]

def PresenceRequestData.document (data : PresenceRequestData) : Json :=
  .object [("availability", .string (availabilityStr data.availability)),
    ("lease", .object [("ttlSeconds", u64Json data.ttlSeconds)]),
    ("application", Json.writeOption WireApplicationContext.document data.application),
    ("media", Json.writeOption (WireMediaContext.document shortest) data.media)]

def PresenceRequest.document (request : PresenceRequest) : Json :=
  .object [("meta", request.requestMeta.document), ("data", request.data.document shortest)]

def ClearRequest.document (request : ClearRequest) : Json :=
  .object [("meta", request.requestMeta.document),
    ("data", .object [("reason", .string (clearReasonStr request.reason))])]

def encodeBody (document : Json) : List UInt8 := Utf8.encode (document.compact jsonString)

variable {shortest}

def documentSize (document : Json) : Nat := Utf8.byteLength (document.printChars jsonString)

theorem encodeBody_length (document : Json) :
    (encodeBody document).length = documentSize document := by
  rw [encodeBody, Json.compact, Utf8.encode_length, documentSize]

theorem hexDigit_size : ∀ n < 16, (hexDigit n).utf8Size = 1 := by decide

theorem escapeChar_size_le (c : Char) : Utf8.byteLength (escapeChar c) ≤ 6 := by
  have hsize := c.utf8Size_le_four
  unfold escapeChar
  split
  · decide
  split
  · decide
  split
  · decide
  split
  · decide
  split
  · decide
  split
  · decide
  split
  · decide
  split
  · have hhigh := hexDigit_size (c.toNat / 16) (by omega)
    have hlow := hexDigit_size (c.toNat % 16) (by omega)
    simp +decide [hhigh, hlow]
  · simp only [Utf8.byteLength_cons, Utf8.byteLength_nil]
    omega

theorem jsonString_size_le (value : String) :
    Utf8.byteLength (jsonString value).toList ≤ 6 * value.toList.length + 2 := by
  have hbody := Utf8.byteLength_flatMap_le escapeChar_size_le value.toList
  have hquote : '\"'.utf8Size = 1 := by decide
  rw [jsonString, String.toList_ofList, Utf8.byteLength_cons, Utf8.byteLength_append,
    Utf8.byteLength_cons, Utf8.byteLength_nil, hquote]
  omega

theorem string_size_le {value : String} {n : Nat} (h : value.toList.length ≤ n) :
    documentSize (.string value) ≤ 6 * n + 2 := by
  have hsize := jsonString_size_le value
  rw [documentSize, Json.printChars]
  omega

theorem u64Json_size_le {value : Nat} (h : value < 10 ^ 16) :
    documentSize (u64Json value) ≤ 64 := by
  have hvalue : (UInt64.ofNat value).toNat = value := by
    rw [UInt64.toNat_ofNat', Nat.mod_eq_of_lt (by omega)]
  have hlength : (toString value).toList.length ≤ 16 := by
    rw [String.length_toList]
    exact (Nat.length_repr_le_iff (by decide)).mpr h
  have hsize := Utf8.byteLength_le (toString value).toList
  rw [documentSize, u64Json, Json.printChars, JsonNumber.print, hvalue]
  omega

theorem writeOption_size_le {α : Type*} {write : α → Json} {value : Option α} {n : Nat}
    (hn : 4 ≤ n) (h : ∀ a, value = some a → documentSize (write a) ≤ n) :
    documentSize (Json.writeOption write value) ≤ n := by
  cases value with
  | none => exact hn
  | some a => exact h a rfl

def keySize (key : String) : Nat := Utf8.byteLength (jsonString key).toList

/-- The bytes of the members that follow the first one, with their commas. -/
def moreSize (members : List (String × Json)) : Nat :=
  Utf8.byteLength (Json.printMoreMembers jsonString members)

@[simp] theorem moreSize_nil : moreSize [] = 0 := rfl

@[simp] theorem moreSize_cons (key : String) (value : Json) (members : List (String × Json)) :
    moreSize ((key, value) :: members) =
      keySize key + documentSize value + moreSize members + 2 := by
  have hcomma : ','.utf8Size = 1 := by decide
  have hcolon : ':'.utf8Size = 1 := by decide
  simp only [moreSize, Json.printMoreMembers, Utf8.byteLength_cons, Utf8.byteLength_append,
    keySize, documentSize, hcomma, hcolon]
  omega

theorem documentSize_object (key : String) (value : Json) (members : List (String × Json)) :
    documentSize (.object ((key, value) :: members)) =
      keySize key + documentSize value + moreSize members + 3 := by
  have hopen : '\x7b'.utf8Size = 1 := by decide
  have hclose : '\x7d'.utf8Size = 1 := by decide
  have hcolon : ':'.utf8Size = 1 := by decide
  simp only [documentSize, Json.printChars, Json.printMembers, Utf8.byteLength_cons,
    Utf8.byteLength_append, Utf8.byteLength_nil, keySize, moreSize, hopen, hclose, hcolon]
  omega

theorem keySizes : keySize "schema" = 8 ∧ keySize "schemaVersion" = 15 ∧
    keySize "requestId" = 11 ∧ keySize "deviceId" = 10 ∧ keySize "sequence" = 10 ∧
    keySize "observedAt" = 12 ∧ keySize "meta" = 6 ∧ keySize "data" = 6 ∧
    keySize "reason" = 8 ∧ keySize "availability" = 14 ∧ keySize "lease" = 7 ∧
    keySize "ttlSeconds" = 12 ∧ keySize "application" = 13 ∧ keySize "media" = 7 ∧
    keySize "displayName" = 13 ∧ keySize "activity" = 10 ∧ keySize "window" = 8 ∧
    keySize "title" = 7 ∧ keySize "icon" = 6 ∧ keySize "sessionId" = 11 ∧ keySize "kind" = 6 ∧
    keySize "artist" = 8 ∧ keySize "album" = 7 ∧ keySize "player" = 8 ∧
    keySize "playback" = 10 ∧ keySize "state" = 7 ∧ keySize "durationMs" = 12 ∧
    keySize "positionMs" = 12 ∧ keySize "sampledAt" = 11 ∧ keySize "rate" = 6 := by
  decide +kernel

/-- What bounds the meta of a request. -/
structure PresenceRequestMeta.Bounded (m : PresenceRequestMeta) : Prop where
  schema : m.schema = presenceSchema
  schemaVersion : m.schemaVersion = presenceSchemaVersion
  requestId : m.requestId.toList.length ≤ 36
  deviceId : m.deviceId.toList.length ≤ 36
  sequence : m.sequence.toNat < 10 ^ 16
  observedAt : m.observedAt.toList.length ≤ 24

theorem PresenceRequestMeta.Bounded.size_le {m : PresenceRequestMeta} (h : m.Bounded) :
    documentSize m.document ≤ 800 := by
  have hschema : documentSize (.string presenceSchema) = 27 := by decide +kernel
  have hversion : documentSize (u64Json presenceSchemaVersion) = 1 := by decide +kernel
  have hrequest := string_size_le h.requestId
  have hdevice := string_size_le h.deviceId
  have hsequence := u64Json_size_le h.sequence
  have hobserved := string_size_le h.observedAt
  simp only [PresenceRequestMeta.document, documentSize_object, moreSize_cons, moreSize_nil,
    keySizes, h.schema, h.schemaVersion, hschema, hversion]
  omega

structure WireApplicationContext.Bounded (application : WireApplicationContext) : Prop where
  displayName : application.displayName.toList.length ≤ displayNameLimit
  windowTitle : ∀ title, application.windowTitle = some title →
    title.toList.length ≤ windowTitleLimit

theorem WireApplicationContext.Bounded.size_le {application : WireApplicationContext}
    (h : application.Bounded) : documentSize application.document ≤ 3800 := by
  have hnull : documentSize .null = 4 := by decide
  have hname := string_size_le h.displayName
  have hwindow : documentSize (Json.writeOption (fun title => .object [("title", .string title)])
      application.windowTitle) ≤ 3012 := by
    apply writeOption_size_le (by decide)
    intro title htitle
    have htext := string_size_le (h.windowTitle title htitle)
    rw [windowTitleLimit] at htext
    simp only [documentSize_object, moreSize_nil, keySizes]
    omega
  rw [displayNameLimit] at hname
  simp only [WireApplicationContext.document, documentSize_object, moreSize_cons, moreSize_nil,
    keySizes, hnull]
  omega

structure WireMediaContext.Bounded (media : WireMediaContext) : Prop where
  sessionId : media.sessionId.toList.length ≤ 36
  text : ∀ text, media.title = some text ∨ media.artist = some text ∨ media.album = some text →
    text.toList.length ≤ mediaTextLimit
  player : ∀ name, media.player = some name → name.toList.length ≤ displayNameLimit
  milliseconds : ∀ ms, media.playback.durationMs = some ms ∨
    media.playback.positionMs = some ms → ms.toNat < 10 ^ 16
  sampledAt : media.playback.sampledAt.toList.length ≤ 24
  rate : media.playback.rate = 1

theorem playbackState_size_le (state : PlaybackState) :
    documentSize (.string (playbackStateStr state)) ≤ 9 := by
  cases state <;> decide +kernel

theorem mediaKind_size_le (kind : MediaKind) :
    documentSize (.string (mediaKindStr kind)) ≤ 9 := by
  cases kind <;> decide +kernel

theorem availability_size_le (availability : WireAvailability) :
    documentSize (.string (availabilityStr availability)) ≤ 8 := by
  cases availability <;> decide +kernel

theorem clearReason_size_le (reason : ClearReason) :
    documentSize (.string (clearReasonStr reason)) ≤ 19 := by
  cases reason <;> decide +kernel

theorem WireMediaContext.Bounded.playback_size_le {media : WireMediaContext} (h : media.Bounded) :
    documentSize (media.playback.document shortest) ≤ 350 := by
  have hstate := playbackState_size_le media.playback.state
  have hduration : documentSize (Json.writeOption (fun ms => u64Json (UInt64.toNat ms))
      media.playback.durationMs) ≤ 64 :=
    writeOption_size_le (by decide) (fun ms hms => u64Json_size_le (h.milliseconds ms (.inl hms)))
  have hposition : documentSize (Json.writeOption (fun ms => u64Json (UInt64.toNat ms))
      media.playback.positionMs) ≤ 64 :=
    writeOption_size_le (by decide) (fun ms hms => u64Json_size_le (h.milliseconds ms (.inr hms)))
  have hsampled := string_size_le h.sampledAt
  have hrate : documentSize (serializeJsNumber shortest media.playback.rate) = 1 := by
    rw [h.rate, serializeJsNumber, if_pos (by decide)]
    decide +kernel
  simp only [WirePlayback.document, documentSize_object, moreSize_cons, moreSize_nil, keySizes,
    hrate]
  omega

theorem WireMediaContext.Bounded.size_le {media : WireMediaContext} (h : media.Bounded) :
    documentSize (media.document shortest) ≤ 6850 := by
  have hkind := mediaKind_size_le media.kind
  have hsession := string_size_le h.sessionId
  have htext (value : Option String) (hvalue : ∀ text, value = some text →
      text.toList.length ≤ mediaTextLimit) :
      documentSize (Json.writeOption .string value) ≤ 1802 :=
    writeOption_size_le (by decide) (fun text htext => string_size_le (hvalue text htext))
  have htitle := htext media.title (fun text ht => h.text text (.inl ht))
  have hartist := htext media.artist (fun text ht => h.text text (.inr (.inl ht)))
  have halbum := htext media.album (fun text ht => h.text text (.inr (.inr ht)))
  have hplayer : documentSize (Json.writeOption
      (fun name => .object [("displayName", .string name)]) media.player) ≤ 738 := by
    apply writeOption_size_le (by decide)
    intro name hname
    have hsize := string_size_le (h.player name hname)
    rw [displayNameLimit] at hsize
    simp only [documentSize_object, moreSize_nil, keySizes]
    omega
  have hplayback : documentSize (media.playback.document shortest) ≤ 350 := h.playback_size_le
  simp only [WireMediaContext.document, documentSize_object, moreSize_cons, moreSize_nil,
    keySizes]
  omega

/-- What bounds a whole request. -/
structure PresenceRequest.Bounded (request : PresenceRequest) : Prop where
  requestMeta : request.requestMeta.Bounded
  ttlSeconds : request.data.ttlSeconds < 10 ^ 16
  application : ∀ application, request.data.application = some application → application.Bounded
  media : ∀ media, request.data.media = some media → media.Bounded

theorem PresenceRequest.Bounded.size_le {request : PresenceRequest} (h : request.Bounded) :
    documentSize (request.document shortest) ≤ 12288 := by
  have hmeta := h.requestMeta.size_le
  have havailability := availability_size_le request.data.availability
  have httl := u64Json_size_le h.ttlSeconds
  have happlication : documentSize (Json.writeOption WireApplicationContext.document
      request.data.application) ≤ 3800 :=
    writeOption_size_le (by decide) (fun application ha => (h.application application ha).size_le)
  have hmedia : documentSize (Json.writeOption (WireMediaContext.document shortest)
      request.data.media) ≤ 6850 :=
    writeOption_size_le (by decide) (fun media hm => (h.media media hm).size_le)
  simp only [PresenceRequest.document, PresenceRequestData.document, documentSize_object,
    moreSize_cons, moreSize_nil, keySizes]
  omega

theorem clearRequest_size_le {request : ClearRequest} (h : request.requestMeta.Bounded) :
    documentSize request.document ≤ 1024 := by
  have hmeta := h.size_le
  have hreason := clearReason_size_le request.reason
  simp only [ClearRequest.document, documentSize_object, moreSize_cons, moreSize_nil, keySizes]
  omega

end YohakuCore
