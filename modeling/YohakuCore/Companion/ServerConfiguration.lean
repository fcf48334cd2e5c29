import YohakuCore.Companion.HttpClient
import YohakuCore.Privacy.Text
import YohakuCore.Protocol.SemanticVersion

/-! # Server URLs -/

namespace YohakuCore

open Framework

/-- A parsed URL; `text` is its serialization. -/
structure Url where
  scheme : String
  username : String
  password : Option String
  hostStr : Option String
  port : Option UInt16
  path : String
  query : Option String
  fragment : Option String
  text : String
  deriving DecidableEq

/-- Where a connection goes, and under which protection. -/
def Url.origin (url : Url) : String × Option String × Option UInt16 :=
  (url.scheme, url.hostStr, url.port)

structure Urls where
  parse : String → Option Url
  setPath : String → Url → Url

/-- A serialization is parsed back, and a new path changes nothing but the path. -/
structure Urls.Documented (urls : Urls) : Prop where
  parse_text : ∀ input url, urls.parse input = some url → urls.parse url.text = some url
  setPath_parts : ∀ path url, urls.setPath path url =
    { url with path := (urls.setPath path url).path, text := (urls.setPath path url).text }

variable (u : UnicodeData) (urls : Urls)

/-- `^\d{1,3}$`, and at most 255. Three digits fit the `u32` they are parsed as. -/
def isLoopbackOctet (part : String) : Bool :=
  let bytes := Utf8.encode part
  1 ≤ bytes.length && bytes.length ≤ 3 && bytes.all isAsciiDigitByte &&
    SemVer.number part.toList ≤ 255

/-- `localhost`, `::1` with or without brackets, or four octets of which the first is `127`. -/
def isLoopbackHost (host : String) : Bool :=
  let lowered := u.toLowercase host
  if lowered = "localhost" || lowered = "::1" || lowered = "[::1]" then true
  else
    let parts := splitDots lowered.toList
    if parts.length ≠ 4 || parts[0]? ≠ some "127" then false else parts.all isLoopbackOctet

inductive CompanionServerConfigurationError where
  | invalidUrl
  | schemeNotAllowed
  | embeddedCredentials
  | queryOrFragment
  deriving DecidableEq

/-- A URL that a client may be built on. An empty password, query or fragment is none. -/
structure IsServerUrl (url : Url) : Prop where
  scheme : url.scheme = "https" ∨
    (url.scheme = "http" ∧ isLoopbackHost u (url.hostStr.getD "") = true)
  credentials : url.username = "" ∧ url.password.getD "" = ""
  bare : url.query.getD "" = "" ∧ url.fragment.getD "" = ""

/-- A validated base URL. -/
structure CompanionServerConfiguration where
  baseUrl : Url
  valid : IsServerUrl u baseUrl

namespace CompanionServerConfiguration

/-- The checks of a parsed URL in their order; the first that fails is reported. -/
def checked (parsed : Url) :
    Except CompanionServerConfigurationError (CompanionServerConfiguration u) :=
  if hscheme : parsed.scheme = "https" ∨
      (parsed.scheme = "http" ∧ isLoopbackHost u (parsed.hostStr.getD "") = true) then
    if hcredentials : parsed.username = "" ∧ parsed.password.getD "" = "" then
      if hbare : parsed.query.getD "" = "" ∧ parsed.fragment.getD "" = "" then
        .ok ⟨parsed, hscheme, hcredentials, hbare⟩
      else .error .queryOrFragment
    else .error .embeddedCredentials
  else .error .schemeNotAllowed

def new (baseUrl : String) :
    Except CompanionServerConfigurationError (CompanionServerConfiguration u) :=
  match urls.parse baseUrl with
  | none => .error .invalidUrl
  | some parsed => checked u parsed

/-- At most one slash at the end is stripped. -/
def stripSlash (path : String) : String :=
  if path.toList.getLast? = some '/' then String.ofList path.toList.dropLast else path

def joinPath (basePath path : String) : String :=
  let basePath := stripSlash basePath
  if path.toList.head? = some '/' then basePath ++ path else basePath ++ "/" ++ path

variable {u}

def endpoint (configuration : CompanionServerConfiguration u) (path : String) : Url :=
  urls.setPath (joinPath configuration.baseUrl.path path) configuration.baseUrl

variable {urls}

theorem checked_eq_ok {parsed : Url} {configuration : CompanionServerConfiguration u} :
    checked u parsed = .ok configuration ↔ parsed = configuration.baseUrl := by
  obtain ⟨url, valid⟩ := configuration
  constructor
  · intro h
    unfold checked at h
    split at h
    · split at h
      · split at h
        · cases h
          rfl
        · contradiction
      · contradiction
    · contradiction
  · rintro rfl
    simp only [checked, dif_pos valid.scheme, dif_pos valid.credentials, dif_pos valid.bare]

theorem new_eq_ok {baseUrl : String} {configuration : CompanionServerConfiguration u} :
    new u urls baseUrl = .ok configuration ↔ urls.parse baseUrl = some configuration.baseUrl := by
  unfold new
  cases urls.parse baseUrl with
  | none => simp
  | some parsed => simp [checked_eq_ok]

theorem new_text (hurls : urls.Documented) {baseUrl : String}
    {configuration : CompanionServerConfiguration u} (h : new u urls baseUrl = .ok configuration) :
    new u urls configuration.baseUrl.text = .ok configuration :=
  new_eq_ok.mpr (hurls.parse_text baseUrl _ (new_eq_ok.mp h))

theorem endpoint_origin (hurls : urls.Documented) (configuration : CompanionServerConfiguration u)
    (path : String) : (configuration.endpoint urls path).origin = configuration.baseUrl.origin := by
  unfold endpoint Url.origin
  rw [hurls.setPath_parts]

theorem endpoint_isServerUrl (hurls : urls.Documented)
    (configuration : CompanionServerConfiguration u) (path : String) :
    IsServerUrl u (configuration.endpoint urls path) := by
  unfold endpoint
  rw [hurls.setPath_parts]
  exact ⟨configuration.valid.scheme, configuration.valid.credentials, configuration.valid.bare⟩

end CompanionServerConfiguration

end YohakuCore
