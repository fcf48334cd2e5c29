import YohakuCore.Companion.Pairing
import YohakuCore.Companion.RetryLadder
import YohakuCore.Store.ConfigCodec

/-!
# A pairing code is spent once

Nothing that holds the code leaves before everything else about the pairing is known to work, and
what was claimed can be stored and used.
-/

namespace YohakuCore

open Framework

theorem length_le_utf16 (text : List Char) : text.length ≤ (Utf16.encode text).length := by
  induction text with
  | nil => simp
  | cons c text ih =>
      have hunit : 1 ≤ (Utf16.units c).length := by
        unfold Utf16.units
        split <;> simp
      simp only [Utf16.encode, List.flatMap_cons, List.length_append, List.length_cons] at ih ⊢
      omega

theorem validPairingCode_length {pairingCode code : String}
    (h : validPairingCode pairingCode = some code) : code.toList.length ≤ 32 := by
  simp only [validPairingCode] at h
  split at h
  · rename_i hunits
    have hlength := length_le_utf16 (rustTrim pairingCode).toList
    obtain rfl := Option.some.inj h
    omega
  · contradiction

theorem validDeviceName_eq_some {u : UnicodeData} {deviceName name : String} :
    validDeviceName u deviceName = some name ↔
      name = rustTrim (u.nfc deviceName) ∧ name ≠ "" ∧ name.toList.length ≤ 120 := by
  simp only [validDeviceName]
  by_cases h : rustTrim (u.nfc deviceName) = "" ∨
      120 < (rustTrim (u.nfc deviceName)).toList.length
  · rw [if_pos h]
    constructor
    · intro hname
      contradiction
    · rintro ⟨rfl, hblank, hlength⟩
      rcases h with h | h
      · exact absurd h hblank
      · omega
  · rw [if_neg h]
    simp only [not_or, not_lt] at h
    constructor
    · intro hname
      obtain rfl := Option.some.inj hname
      exact ⟨rfl, h⟩
    · rintro ⟨rfl, -⟩
      rfl

theorem claimRequest_size_le {name code : String} (hname : name.toList.length ≤ 120)
    (hcode : code.toList.length ≤ 32) :
    (encodeBody (PairingClaimRequest.document ⟨name, code⟩)).length ≤ 1024 := by
  have hname' := string_size_le hname
  have hcode' := string_size_le hcode
  have hkeys : keySize "deviceName" = 12 ∧ keySize "pairingCode" = 13 := by decide +kernel
  rw [encodeBody_length]
  simp only [PairingClaimRequest.document, documentSize_object, moreSize_cons, moreSize_nil, hkeys]
  omega

theorem claimOptions_overCap {name code : String} (hname : name.toList.length ≤ 120)
    (hcode : code.toList.length ≤ 32) : (claimOptions name code).overCap = none := by
  have hsize := claimRequest_size_le hname hcode
  have hcap : ¬ defaultMaxPayloadBytes <
      (encodeBody (PairingClaimRequest.document ⟨name, code⟩)).length := by
    simp only [defaultMaxPayloadBytes]
    omega
  simp [claimOptions, unauthenticatedOptions, ExecuteOptions.overCap, hcap]

namespace PairingEnvironment

variable (env : PairingEnvironment)

section Client

variable (configuration : CompanionServerConfiguration env.unicode)

/-- A request that is within its cap, with what the network makes of it. -/
def asks (i : Nat) (options : ExecuteOptions) : PairingAct :=
  let url := configuration.endpoint env.urls options.path
  .sends url ⟨options.request, env.network i url options.request⟩

/-- What comes before the code is sent. -/
def preflight : List PairingAct :=
  [.ensuresCredentialStore (.ok ()), env.asks configuration 0 capabilitiesOptions]

theorem sent_execute {α : Type*} (i : Nat) {options : ExecuteOptions}
    (h : options.overCap = none) (responseSchema : Json → Option α) :
    env.sent configuration options (env.execute configuration i options responseSchema) =
      [env.asks configuration i options] := by
  simp [sent, execute, YohakuCore.execute, h, asks]

variable {env configuration}

theorem capabilities_answer {response : HttpResponse}
    (h : env.network 0 (configuration.endpoint env.urls capabilitiesOptions.path)
      capabilitiesOptions.request = some response) :
    (env.capabilities configuration).answer = readResponse env.calendar env.parse
      (decodeCapabilitiesResponse env.calendar) none response :=
  execute_answered rfl h

theorem claim_answer {name code : String} (hname : name.toList.length ≤ 120)
    (hcode : code.toList.length ≤ 32) :
    (env.claim configuration name code).answer =
      match env.network 1 (configuration.endpoint env.urls (claimOptions name code).path)
        (claimOptions name code).request with
      | none => .error .network
      | some response =>
          readResponse env.calendar env.parse decodePairingClaimResponse none response := by
  simp only [claim, execute, YohakuCore.execute, claimOptions_overCap hname hcode]
  rfl

end Client

/-- The code may be sent: the arguments are valid, the store is writable, and the server offers what
this client needs. -/
structure Usable (baseUrl deviceName pairingCode : String)
    (configuration : CompanionServerConfiguration env.unicode) (name code : String) : Prop where
  code : validPairingCode pairingCode = some code
  name : validDeviceName env.unicode deviceName = some name
  server : CompanionServerConfiguration.new env.unicode env.urls (rustTrim baseUrl) =
    .ok configuration
  store : env.ensureCredentialStore = .ok ()
  negotiated : ∃ data negotiated, (env.capabilities configuration).answer = .ok data ∧
    negotiatePresence data protocolClientVersion = some (.available negotiated)

inductive Claims (baseUrl deviceName pairingCode : String) : ClaimedPairing → Prop
  | invalid {code : PairingErrorCode}
      (hcode : code ∈ [.invalidPairingCode, .invalidDeviceName, .invalidServerUrl]) :
      Claims baseUrl deviceName pairingCode (.refused [] code)
  | storeFails {message : String} (hstore : env.ensureCredentialStore = .error message) :
      Claims baseUrl deviceName pairingCode
        { acts := [.ensuresCredentialStore (.error message)]
          result := .error (.other message) }
  | notNegotiated {configuration : CompanionServerConfiguration env.unicode}
      (hserver : CompanionServerConfiguration.new env.unicode env.urls (rustTrim baseUrl) =
        .ok configuration) {code : PairingErrorCode}
      (hcode : code ∈ [.network, .clientUpdateRequired, .serverFeatureUnavailable,
        .invalidCapabilities]) :
      Claims baseUrl deviceName pairingCode (.refused (env.preflight configuration) code)
  | claims {configuration : CompanionServerConfiguration env.unicode} {name code : String}
      (husable : env.Usable baseUrl deviceName pairingCode configuration name code) :
      Claims baseUrl deviceName pairingCode
        { acts := env.preflight configuration ++
            [env.asks configuration 1 (claimOptions name code)]
          result := env.concludeClaim configuration name
            (env.claim configuration name code).answer }

variable {env} {baseUrl deviceName pairingCode name code : String}
  {configuration : CompanionServerConfiguration env.unicode}

theorem Usable.claimPairing
    (h : env.Usable baseUrl deviceName pairingCode configuration name code) :
    env.claimPairing baseUrl deviceName pairingCode = some {
      acts := env.preflight configuration ++ [env.asks configuration 1 (claimOptions name code)]
      result := env.concludeClaim configuration name
        (env.claim configuration name code).answer } := by
  obtain ⟨data, negotiated, hanswer, hnegotiated⟩ := h.negotiated
  have hname := (validDeviceName_eq_some.mp h.name).2.2
  have hasked : env.sent configuration capabilitiesOptions (env.capabilities configuration) =
      [env.asks configuration 0 capabilitiesOptions] :=
    env.sent_execute configuration 0 rfl _
  have hclaimed : env.sent configuration (claimOptions name code)
      (env.claim configuration name code) = [env.asks configuration 1 (claimOptions name code)] :=
    env.sent_execute configuration 1 (claimOptions_overCap hname (validPairingCode_length h.code)) _
  simp only [PairingEnvironment.claimPairing, h.code, h.name, h.server, h.store, negotiateAndClaim,
    hanswer, hnegotiated, Option.map_some, hasked, hclaimed, preflight]

variable (env baseUrl deviceName pairingCode) in
theorem claimPairing_claims : ∃ claimed,
    env.claimPairing baseUrl deviceName pairingCode = some claimed ∧
      env.Claims baseUrl deviceName pairingCode claimed := by
  cases hcode : validPairingCode pairingCode with
  | none =>
      exact ⟨.refused [] .invalidPairingCode, by simp only [claimPairing, hcode],
        .invalid (by simp)⟩
  | some code =>
  cases hname : validDeviceName env.unicode deviceName with
  | none =>
      exact ⟨.refused [] .invalidDeviceName, by simp only [claimPairing, hcode, hname],
        .invalid (by simp)⟩
  | some name =>
  cases hserver : CompanionServerConfiguration.new env.unicode env.urls (rustTrim baseUrl) with
  | error _ =>
      exact ⟨.refused [] .invalidServerUrl, by simp only [claimPairing, hcode, hname, hserver],
        .invalid (by simp)⟩
  | ok configuration =>
  cases hstore : env.ensureCredentialStore with
  | error message =>
      exact ⟨_, by simp only [claimPairing, hcode, hname, hserver, hstore], .storeFails hstore⟩
  | ok _ =>
  have hasked : env.sent configuration capabilitiesOptions (env.capabilities configuration) =
      [env.asks configuration 0 capabilitiesOptions] :=
    env.sent_execute configuration 0 rfl _
  cases hanswer : (env.capabilities configuration).answer with
  | error _ =>
      refine ⟨_, ?_, .notNegotiated hserver (by simp : PairingErrorCode.network ∈ _)⟩
      simp only [claimPairing, hcode, hname, hserver, hstore, negotiateAndClaim, hanswer, hasked,
        preflight]
  | ok data =>
  obtain ⟨outcome, houtcome⟩ := negotiatePresence_total data protocolClientVersion
  have hrefused (code : PairingErrorCode)
      (hclaim : env.claimPairing baseUrl deviceName pairingCode =
        some (.refused (env.preflight configuration) code))
      (hmem : code ∈ [.network, .clientUpdateRequired, .serverFeatureUnavailable,
        .invalidCapabilities]) : ∃ claimed,
      env.claimPairing baseUrl deviceName pairingCode = some claimed ∧
        env.Claims baseUrl deviceName pairingCode claimed :=
    ⟨_, hclaim, .notNegotiated hserver hmem⟩
  cases outcome with
  | available negotiated =>
      have husable : env.Usable baseUrl deviceName pairingCode configuration name code :=
        ⟨hcode, hname, hserver, hstore, data, negotiated, hanswer, houtcome⟩
      exact ⟨_, husable.claimPairing, .claims husable⟩
  | clientUpdateRequired =>
      apply hrefused .clientUpdateRequired _ (by simp)
      simp [claimPairing, hcode, hname, hserver, hstore, negotiateAndClaim, hanswer, hasked,
        preflight, houtcome]
  | schemaUnsupported =>
      apply hrefused .serverFeatureUnavailable _ (by simp)
      simp [claimPairing, hcode, hname, hserver, hstore, negotiateAndClaim, hanswer, hasked,
        preflight, houtcome]
  | featureUnavailable =>
      apply hrefused .serverFeatureUnavailable _ (by simp)
      simp [claimPairing, hcode, hname, hserver, hstore, negotiateAndClaim, hanswer, hasked,
        preflight, houtcome]
  | invalidCapabilities =>
      apply hrefused .invalidCapabilities _ (by simp)
      simp [claimPairing, hcode, hname, hserver, hstore, negotiateAndClaim, hanswer, hasked,
        preflight, houtcome]

theorem preflight_body {act : PairingAct} (h : act ∈ env.preflight configuration) :
    act.body = none := by
  simp only [preflight, List.mem_cons, List.not_mem_nil, or_false] at h
  rcases h with rfl | rfl <;> rfl

theorem asks_guarded (hurls : env.urls.Documented) {i : Nat} {options : ExecuteOptions}
    (hserver : CompanionServerConfiguration.new env.unicode env.urls (rustTrim baseUrl) =
      .ok configuration) (hcredential : options.credential = none)
    (hbody : ∀ body, options.encodedBody = some body → body.length ≤ 1024) {url : Url}
    {exchange : Exchange} (h : .sends url exchange = env.asks configuration i options) :
    (∃ parsed, env.urls.parse (rustTrim baseUrl) = some parsed ∧ url.origin = parsed.origin) ∧
      IsServerUrl env.unicode url ∧ exchange.request.bearer = none ∧
      ∀ body, exchange.request.body = some body → body.length ≤ 1024 := by
  simp only [asks, PairingAct.sends.injEq] at h
  obtain ⟨rfl, rfl⟩ := h
  refine ⟨⟨configuration.baseUrl, CompanionServerConfiguration.new_eq_ok.mp hserver,
    configuration.endpoint_origin hurls options.path⟩,
    configuration.endpoint_isServerUrl hurls options.path, ?_, hbody⟩
  simp [ExecuteOptions.request, hcredential]

variable (env baseUrl deviceName pairingCode) in
/-- The code is handed to the HTTP client exactly when it may be, as the last of three acts, and
otherwise no act carries a body. Each request is for the server of the given URL, which is secured
or local, without a token and with no more than a kilobyte. -/
theorem pairing_code_is_sent_once_usable (hurls : env.urls.Documented) : ∃ claimed,
    env.claimPairing baseUrl deviceName pairingCode = some claimed ∧
      (∀ configuration name code, env.Usable baseUrl deviceName pairingCode configuration name code →
        claimed.acts = [.ensuresCredentialStore (.ok ()),
          env.asks configuration 0 capabilitiesOptions,
          env.asks configuration 1 (claimOptions name code)]) ∧
      ((∀ configuration name code,
          ¬ env.Usable baseUrl deviceName pairingCode configuration name code) →
        ∀ act ∈ claimed.acts, act.body = none) ∧
      ∀ url exchange, .sends url exchange ∈ claimed.acts →
        (∃ parsed, env.urls.parse (rustTrim baseUrl) = some parsed ∧ url.origin = parsed.origin) ∧
        IsServerUrl env.unicode url ∧ exchange.request.bearer = none ∧
        ∀ body, exchange.request.body = some body → body.length ≤ 1024 := by
  obtain ⟨claimed, hclaimed, hclaims⟩ :=
    env.claimPairing_claims baseUrl deviceName pairingCode
  refine ⟨claimed, hclaimed, ?_, ?_, ?_⟩
  · intro configuration name code husable
    have hclaim := husable.claimPairing
    rw [hclaimed] at hclaim
    rw [Option.some.inj hclaim]
    rfl
  · intro hunusable act hact
    cases hclaims with
    | invalid hcode => simp [ClaimedPairing.refused] at hact
    | storeFails hstore =>
        obtain rfl := List.mem_singleton.mp hact
        rfl
    | notNegotiated hserver hcode => exact preflight_body hact
    | claims husable => exact absurd husable (hunusable _ _ _)
  · intro url exchange hact
    have hpreflight {configuration : CompanionServerConfiguration env.unicode}
        (hmem : PairingAct.sends url exchange ∈ env.preflight configuration) :
        .sends url exchange = env.asks configuration 0 capabilitiesOptions := by
      simpa [preflight] using hmem
    cases hclaims with
    | invalid hcode => simp [ClaimedPairing.refused] at hact
    | storeFails hstore => simp at hact
    | notNegotiated hserver hcode =>
        have hasks := hpreflight hact
        exact asks_guarded hurls hserver rfl (by simp [capabilitiesOptions, unauthenticatedOptions])
          hasks
    | claims husable =>
        rcases List.mem_append.mp hact with hact | hact
        · have hasks := hpreflight hact
          exact asks_guarded hurls husable.server rfl
            (by simp [capabilitiesOptions, unauthenticatedOptions]) hasks
        · have hname := (validDeviceName_eq_some.mp husable.name).2.2
          have hsize := claimRequest_size_le hname (validPairingCode_length husable.code)
          exact asks_guarded hurls husable.server rfl
            (by simpa [claimOptions, unauthenticatedOptions] using hsize)
            (List.mem_singleton.mp hact)

end PairingEnvironment

def deskUrl : Url where
  scheme := "https"
  username := ""
  password := none
  hostStr := some "desk.example"
  port := none
  path := "/"
  query := none
  fragment := none
  text := "https://desk.example/"

/-- The parser as far as one server goes. -/
def deskUrls : Urls where
  parse input :=
    if input = "https://desk.example" ∨ input = "https://desk.example/" then some deskUrl else none
  setPath path url :=
    { url with path, text := url.scheme ++ "://" ++ url.hostStr.getD "" ++ path }

theorem deskUrls_documented : deskUrls.Documented where
  parse_text input url h := by
    simp only [deskUrls] at h ⊢
    split at h
    · obtain rfl := Option.some.inj h
      exact if_pos (Or.inr rfl)
    · contradiction
  setPath_parts path url := rfl

def claimDocument : Json :=
  .object [("data", .object [
    ("deviceId", .string "22222222-0000-4000-8000-000000000000"),
    ("deviceToken", .string "token"),
    ("scopes", .array [.string requiredPresenceScope]),
    ("nextSequence", announcedInteger 7)])]

/-- A server that announces what the client needs and grants the claim. -/
def deskEnvironment : PairingEnvironment where
  unicode := .ascii
  urls := deskUrls
  calendar := .epoch
  parse text :=
    if text = (capabilitiesDocument announcedLimits).compact jsonString then
      some (capabilitiesDocument announcedLimits)
    else if text = claimDocument.compact jsonString then some claimDocument
    else none
  ensureCredentialStore := .ok ()
  network i _ _ :=
    let document := if i = 0 then capabilitiesDocument announcedLimits else claimDocument
    some ⟨200, encodeBody document⟩

def deskConfiguration : CompanionServerConfiguration deskEnvironment.unicode where
  baseUrl := deskUrl
  valid := ⟨Or.inl rfl, ⟨rfl, rfl⟩, ⟨rfl, rfl⟩⟩

theorem claimDocument_text : claimDocument.compact jsonString ≠
    (capabilitiesDocument announcedLimits).compact jsonString := by
  intro h
  have hchars : claimDocument.printChars jsonString =
      (capabilitiesDocument announcedLimits).printChars jsonString := String.ofList_injective h
  have hsecond := congrArg (fun chars => chars[2]?) hchars
  revert hsecond
  decide +kernel

theorem readResponse_document {α : Type*} {calendar : Calendar} {parse : String → Option Json}
    {schema : Json → Option α} {members : List (String × Json)} {parsed : α}
    (hparse : parse ((Json.object members).compact jsonString) = some (.object members))
    (hdecodes : schema (.object members) = some parsed) :
    readResponse calendar parse schema none ⟨200, encodeBody (.object members)⟩ = .ok parsed := by
  have htext : Utf8.lossy (encodeBody (.object members)) =
      (Json.object members).compact jsonString := by
    rw [encodeBody, Utf8.lossy_encode]
  have hblank : (Json.object members).compact jsonString ≠ "" := by
    intro h
    have hchars := congrArg String.toList h
    simp [Json.compact, Json.printChars] at hchars
  rw [readResponse]
  simp only [htext, hblank, hparse, if_false]
  rw [hdecodes]
  rfl

theorem desk_usable : deskEnvironment.Usable "https://desk.example" "Desk" "123456"
    deskConfiguration "Desk" "123456" where
  code := by decide
  name := by decide
  server := CompanionServerConfiguration.new_eq_ok.mpr (by decide)
  store := rfl
  negotiated := by
    refine ⟨announcedData announcedLimits, negotiatedConfiguration true announcedLimits, ?_, ?_⟩
    · have hresponse : deskEnvironment.network 0 (deskConfiguration.endpoint deskEnvironment.urls
          capabilitiesOptions.path) capabilitiesOptions.request =
            some ⟨200, encodeBody (capabilitiesDocument announcedLimits)⟩ := by
        simp only [deskEnvironment, if_true]
      have hparse : deskEnvironment.parse
          ((capabilitiesDocument announcedLimits).compact jsonString) =
            some (capabilitiesDocument announcedLimits) := by
        simp only [deskEnvironment, if_true]
      rw [PairingEnvironment.capabilities_answer hresponse]
      exact readResponse_document hparse capabilitiesDocument_decodes
    · decide +kernel

theorem pairing_code_is_sent_once_usable_desk : ∃ claimed,
    deskEnvironment.claimPairing "https://desk.example" "Desk" "123456" = some claimed ∧
      claimed.acts = [.ensuresCredentialStore (.ok ()),
        deskEnvironment.asks deskConfiguration 0 capabilitiesOptions,
        deskEnvironment.asks deskConfiguration 1 (claimOptions "Desk" "123456")] := by
  obtain ⟨claimed, hclaimed, hsent, -⟩ := deskEnvironment.pairing_code_is_sent_once_usable
    "https://desk.example" "Desk" "123456" deskUrls_documented
  exact ⟨claimed, hclaimed, hsent _ _ _ desk_usable⟩

namespace PairingEnvironment

variable {env : PairingEnvironment} {baseUrl deviceName pairingCode name code : String}
  {configuration : CompanionServerConfiguration env.unicode}

variable (env) in
/-- The code that an error envelope names, the full one before the simplified one. -/
def envelopeCode (json : Json) : Option String :=
  match decodeErrorEnvelope env.calendar json with
  | some error => some error.code
  | none => decodePairingErrorEnvelope json

variable (env) in
/-- The server answered that it refuses, in an envelope with this code. -/
def Refuses (response : HttpResponse) (serverCode : String) : Prop :=
  response.body ≠ [] ∧ isSuccessStatus response.status = false ∧ ∃ json,
    env.parse (Utf8.lossy response.body) = some json ∧ env.envelopeCode json = some serverCode

theorem readResponse_serverCode {α : Type*} (schema : Json → Option α) (response : HttpResponse)
    (serverCode : String) :
    (∃ error, readResponse env.calendar env.parse schema none response = .error error ∧
      extractPairingServerCode error = some serverCode) ↔ env.Refuses response serverCode := by
  have hreading := @readResponse_reading env.calendar env.parse _ schema none response
  generalize readResponse env.calendar env.parse schema none response = answer at hreading ⊢
  unfold Refuses envelopeCode
  cases hreading with
  | empty hbody => simp [extractPairingServerCode, hbody]
  | notJson hbody htext =>
      by_cases hsuccess : isSuccessStatus response.status = true <;>
        simp [extractPairingServerCode, htext, hsuccess]
  | undecoded json hbody htext hsuccess hschema => simp [extractPairingServerCode, hsuccess]
  | accepted json parsed hbody htext hsuccess hdecodes hecho => simp [hsuccess]
  | foreign json hbody htext henvelope hecho => exact absurd rfl hecho
  | refused json error hbody htext hfailure henvelope hecho =>
      simp [extractPairingServerCode, hbody, hfailure, htext, henvelope]
  | bare json hbody htext hfailure henvelope =>
      cases hcode : decodePairingErrorEnvelope json with
      | none => simp [extractPairingServerCode, htext, henvelope, hcode]
      | some code => simp [extractPairingServerCode, hbody, hfailure, htext, henvelope, hcode]

theorem concludeClaim_rejected {answer : Except CompanionTransportError PairingClaimData}
    {serverCode : String} : env.concludeClaim configuration name answer =
        .error (.pairing .pairingRejected (some serverCode)) ↔
      ∃ error, answer = .error error ∧ extractPairingServerCode error = some serverCode := by
  cases answer with
  | error error =>
      cases hcode : extractPairingServerCode error <;> simp [concludeClaim, hcode]
  | ok data => by_cases hscope : requiredPresenceScope ∈ data.scopes <;> simp [concludeClaim, hscope]

/-- Once the claim was sent, the window is told nothing that is told before it. -/
theorem mapPairingError_concludeClaim
    {answer : Except CompanionTransportError PairingClaimData} {error : ClaimPairingError}
    (h : env.concludeClaim configuration name answer = .error error) : mapPairingError error ∉
      [.invalidInput, .clientUpdateRequired, .serverFeatureUnavailable] := by
  cases answer with
  | error failure =>
      cases hcode : extractPairingServerCode failure with
      | none =>
          simp only [concludeClaim, hcode, Except.error.injEq] at h
          simp [← h, mapPairingError]
      | some serverCode =>
          simp only [concludeClaim, hcode, Except.error.injEq] at h
          rw [← h, mapPairingError]
          split
          · simp
          split
          · simp
          split <;> simp
  | ok data =>
      by_cases hscope : requiredPresenceScope ∈ data.scopes
      · simp [concludeClaim, hscope] at h
      · have herror : ClaimPairingError.pairing .requiredScopeMissing none = error := by
          simpa [concludeClaim, hscope] using h
        simp [← herror, mapPairingError]

theorem claim_serverCode (husable : env.Usable baseUrl deviceName pairingCode configuration name code)
    {serverCode : String} :
    (∃ error, (env.claim configuration name code).answer = .error error ∧
      extractPairingServerCode error = some serverCode) ↔
      ∃ response, env.network 1 (configuration.endpoint env.urls (claimOptions name code).path)
        (claimOptions name code).request = some response ∧ env.Refuses response serverCode := by
  have hname := (validDeviceName_eq_some.mp husable.name).2.2
  rw [claim_answer hname (validPairingCode_length husable.code)]
  cases env.network 1 (configuration.endpoint env.urls (claimOptions name code).path)
    (claimOptions name code).request with
  | none => simp [extractPairingServerCode]
  | some response =>
      simp only [readResponse_serverCode]
      simp

end PairingEnvironment

/-- An act of the claim carried a body: the code went out. -/
def ClaimedPairing.SentCode (claimed : ClaimedPairing) : Prop := ∃ act ∈ claimed.acts, act.body ≠ none

namespace PairingEnvironment

variable {env : PairingEnvironment} {baseUrl deviceName pairingCode name code : String}
  {configuration : CompanionServerConfiguration env.unicode}

theorem Claims.sentCode {claimed : ClaimedPairing}
    (h : env.Claims baseUrl deviceName pairingCode claimed) :
    (∀ result, claimed.result = .ok result → claimed.SentCode) ∧
      ∀ error, claimed.result = .error error →
        (mapPairingError error ∈ [.invalidInput, .clientUpdateRequired, .serverFeatureUnavailable] →
          ¬ claimed.SentCode) ∧
        (mapPairingError error ∈ [.requiredScopeMissing, .pairingExpired, .rateLimited,
          .validationFailed] → claimed.SentCode) := by
  cases h with
  | @invalid code hcode =>
      have hnot : ¬ (ClaimedPairing.refused [] code).SentCode := by
        simp [ClaimedPairing.SentCode, ClaimedPairing.refused]
      refine ⟨by simp [ClaimedPairing.refused], ?_⟩
      intro error herror
      obtain rfl := Except.error.inj herror
      refine ⟨fun _ => hnot, ?_⟩
      simp only [List.mem_cons, List.not_mem_nil, or_false] at hcode
      rcases hcode with rfl | rfl | rfl <;> simp [mapPairingError]
  | storeFails hstore =>
      refine ⟨by simp, ?_⟩
      intro error herror
      obtain rfl := Except.error.inj herror
      simp [mapPairingError]
  | @notNegotiated configuration hserver code hcode =>
      have hnot : ¬ (ClaimedPairing.refused (env.preflight configuration) code).SentCode := by
        rintro ⟨act, hact, hbody⟩
        exact hbody (preflight_body hact)
      refine ⟨by simp [ClaimedPairing.refused], ?_⟩
      intro error herror
      obtain rfl := Except.error.inj herror
      refine ⟨fun _ => hnot, ?_⟩
      simp only [List.mem_cons, List.not_mem_nil, or_false] at hcode
      rcases hcode with rfl | rfl | rfl | rfl <;> simp [mapPairingError]
  | @claims configuration name code husable =>
      have hsent (result : Except ClaimPairingError PairingResult) : ClaimedPairing.SentCode
          ⟨env.preflight configuration ++ [env.asks configuration 1 (claimOptions name code)],
            result⟩ := by
        refine ⟨env.asks configuration 1 (claimOptions name code), by simp, ?_⟩
        simp [asks, PairingAct.body, ExecuteOptions.request, claimOptions, unauthenticatedOptions]
      refine ⟨fun _ _ => hsent _, ?_⟩
      intro error herror
      refine ⟨?_, fun _ => hsent _⟩
      simp only at herror
      have htold := mapPairingError_concludeClaim herror
      exact fun hmap => absurd hmap htold

variable (env baseUrl deviceName pairingCode) in
/-- From what the window is told, a user knows whether the code was used up. A claim is rejected
with a code of the server exactly when the code was sent and the server refused it with that code.
-/
theorem pairing_error_tells_whether_code_was_sent : ∃ claimed,
    env.claimPairing baseUrl deviceName pairingCode = some claimed ∧
      (∀ result, claimed.result = .ok result → claimed.SentCode) ∧
      (∀ error, claimed.result = .error error →
        (mapPairingError error ∈ [.invalidInput, .clientUpdateRequired, .serverFeatureUnavailable] →
          ¬ claimed.SentCode) ∧
        (mapPairingError error ∈ [.requiredScopeMissing, .pairingExpired, .rateLimited,
          .validationFailed] → claimed.SentCode)) ∧
      ∀ serverCode, claimed.result = .error (.pairing .pairingRejected (some serverCode)) ↔
        ∃ url request response, claimed.acts.getLast? = some (.sends url ⟨request, some response⟩) ∧
          request.body ≠ none ∧ env.Refuses response serverCode := by
  obtain ⟨claimed, hclaimed, hclaims⟩ := env.claimPairing_claims baseUrl deviceName pairingCode
  obtain ⟨hok, herror⟩ := hclaims.sentCode
  refine ⟨claimed, hclaimed, hok, herror, ?_⟩
  intro serverCode
  cases hclaims with
  | invalid hcode =>
      simp only [List.mem_cons, List.not_mem_nil, or_false] at hcode
      rcases hcode with rfl | rfl | rfl <;> simp [ClaimedPairing.refused]
  | storeFails hstore => simp
  | @notNegotiated configuration hserver code hcode =>
      simp only [List.mem_cons, List.not_mem_nil, or_false] at hcode
      rcases hcode with rfl | rfl | rfl | rfl <;>
        simp [ClaimedPairing.refused, preflight, asks, capabilitiesOptions, unauthenticatedOptions,
          ExecuteOptions.request]
  | @claims configuration name code husable =>
      rw [concludeClaim_rejected, claim_serverCode husable]
      simp only [List.getLast?_append, List.getLast?_singleton, Option.some_or, asks]
      constructor
      · rintro ⟨response, hresponse, hrefuses⟩
        refine ⟨configuration.endpoint env.urls (claimOptions name code).path,
          (claimOptions name code).request, response, ?_, ?_, hrefuses⟩
        · rw [hresponse]
        · simp [ExecuteOptions.request, claimOptions, unauthenticatedOptions]
      · rintro ⟨url, request, response, hlast, -, hrefuses⟩
        simp only [Option.some.injEq, PairingAct.sends.injEq, Exchange.mk.injEq] at hlast
        exact ⟨response, hlast.2.2, hrefuses⟩

end PairingEnvironment

end YohakuCore
