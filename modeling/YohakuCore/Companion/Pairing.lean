import YohakuCore.Capture.Media
import YohakuCore.Companion.NegotiatedParameters
import YohakuCore.Companion.ServerConfiguration
import YohakuCore.Companion.Service
import YohakuCore.Framework.Utf16
import YohakuCore.Protocol.RequestJson

/-!
# Claiming a pairing

A pairing code can be used once. The store and the network are parameters.
-/

namespace YohakuCore

open Framework

inductive PairingErrorCode where
  | invalidPairingCode
  | invalidDeviceName
  | invalidServerUrl
  | clientUpdateRequired
  | serverFeatureUnavailable
  | invalidCapabilities
  | requiredScopeMissing
  | pairingRejected
  | network
  deriving DecidableEq

inductive ClaimPairingError where
  | pairing (code : PairingErrorCode) (serverCode : Option String)
  | other (message : String)
  deriving DecidableEq

def requiredPresenceScope : String := "companion:presence:write"

structure PairingClaimRequest where
  deviceName : String
  pairingCode : String

def PairingClaimRequest.document (request : PairingClaimRequest) : Json :=
  .object [("deviceName", .string request.deviceName), ("pairingCode", .string request.pairingCode)]

structure PairingClaimData where
  deviceId : String
  deviceToken : String
  scopes : List String
  nextSequence : UInt64
  deriving DecidableEq

def PairingClaimData.fromValue (value : Json) : Option PairingClaimData := do
  guard (value.hasShape 4)
  let deviceId ← value.field Json.readString 0 "deviceId"
  let deviceToken ← value.field Json.readString 1 "deviceToken"
  let scopes ← value.field (Json.readList Json.readString) 2 "scopes"
  let nextSequence ← value.field readWireU64 3 "nextSequence"
  return { deviceId, deviceToken, scopes, nextSequence }

/-- A wire identifier and a token that is not blank. -/
def decodePairingClaimResponse (value : Json) : Option PairingClaimData := do
  guard (value.hasShape 1)
  let data ← value.field PairingClaimData.fromValue 0 "data"
  guard (isValidWireIdentifier data.deviceId)
  guard (jsTrim data.deviceToken ≠ "")
  return data

/-- 1 to 32 UTF-16 units. -/
def validPairingCode (pairingCode : String) : Option String :=
  let code := rustTrim pairingCode
  let codeUnits := (Utf16.encode code.toList).length
  if 1 ≤ codeUnits ∧ codeUnits ≤ 32 then some code else none

/-- 1 to 120 characters, after NFC. -/
def validDeviceName (u : UnicodeData) (deviceName : String) : Option String :=
  let name := rustTrim (u.nfc deviceName)
  if name = "" ∨ 120 < name.toList.length then none else some name

/-- What a claim depends on besides its arguments: `ensureCredentialStore` is the answer of the
store, and the network may behave differently at each request. -/
structure PairingEnvironment where
  unicode : UnicodeData
  urls : Urls
  calendar : Calendar
  parse : String → Option Json
  ensureCredentialStore : Except String Unit
  network : Nat → Url → HttpRequest → Option HttpResponse

/-- What a claim does that others can see. -/
inductive PairingAct where
  | ensuresCredentialStore (result : Except String Unit)
  | sends (url : Url) (exchange : Exchange)
  deriving DecidableEq

structure ClaimedPairing where
  acts : List PairingAct
  result : Except ClaimPairingError PairingResult

/-- The bytes that go out with an act. -/
def PairingAct.body : PairingAct → Option (List UInt8)
  | .ensuresCredentialStore _ => none
  | .sends _ exchange => exchange.request.body

def ClaimedPairing.refused (acts : List PairingAct) (code : PairingErrorCode) : ClaimedPairing :=
  { acts, result := .error (.pairing code none) }

/-- A request without a credential, an echo or a negotiated cap. -/
def unauthenticatedOptions (method : HttpMethod) (path : String)
    (encodedBody : Option (List UInt8)) : ExecuteOptions where
  method := method
  path := path
  credential := none
  expectedRequestId := none
  maximumPayloadBytes := none
  encodedBody := encodedBody

def capabilitiesOptions : ExecuteOptions :=
  unauthenticatedOptions .get "/companion/capabilities" none

def claimOptions (name code : String) : ExecuteOptions :=
  unauthenticatedOptions .post "/companion/pairings/claim"
    (some (encodeBody (PairingClaimRequest.document ⟨name, code⟩)))

/-- The code of a full error envelope, or of the simplified one. -/
def extractPairingServerCode : CompanionTransportError → Option String
  | .pairingServer _ code => some code
  | .server _ error => some error.code
  | _ => none

namespace PairingEnvironment

variable (env : PairingEnvironment)

section Client

variable (configuration : CompanionServerConfiguration env.unicode)

/-- One attempt of the client of a configuration, at the URL of its path. -/
def execute {α : Type*} (i : Nat) (options : ExecuteOptions) (responseSchema : Json → Option α) :
    Attempt α :=
  YohakuCore.execute env.calendar env.parse options responseSchema
    (env.network i (configuration.endpoint env.urls options.path))

/-- The exchange of an attempt, if there was one. -/
def sent {α : Type*} (options : ExecuteOptions) (attempt : Attempt α) : List PairingAct :=
  attempt.exchange.toList.map (.sends (configuration.endpoint env.urls options.path))

def capabilities : Attempt CapabilitiesData :=
  env.execute configuration 0 capabilitiesOptions (decodeCapabilitiesResponse env.calendar)

def claim (name code : String) : Attempt PairingClaimData :=
  env.execute configuration 1 (claimOptions name code) decodePairingClaimResponse

/-- What the answer to the claim comes to. -/
def concludeClaim (name : String) (answer : Except CompanionTransportError PairingClaimData) :
    Except ClaimPairingError PairingResult :=
  match answer with
  | .error error =>
      match extractPairingServerCode error with
      | some serverCode => .error (.pairing .pairingRejected (some serverCode))
      | none => .error (.pairing .network none)
  | .ok data =>
      if data.scopes.contains requiredPresenceScope then
        .ok {
          deviceId := data.deviceId
          deviceToken := data.deviceToken
          scopes := data.scopes
          nextSequence := data.nextSequence
          baseUrl := configuration.baseUrl.text
          deviceName := name }
      else .error (.pairing .requiredScopeMissing none)

/-- The requests of a claim whose arguments are valid, after the store was found writable. A
negotiation that panics has no outcome. -/
def negotiateAndClaim (name code : String) : Option ClaimedPairing :=
  let ensured := PairingAct.ensuresCredentialStore (.ok ())
  let capabilities := env.capabilities configuration
  let asked := ensured :: env.sent configuration capabilitiesOptions capabilities
  match capabilities.answer with
  | .error _ => some (.refused asked .network)
  | .ok data =>
      (negotiatePresence data protocolClientVersion).map fun
        | .clientUpdateRequired => .refused asked .clientUpdateRequired
        | .schemaUnsupported | .featureUnavailable => .refused asked .serverFeatureUnavailable
        | .invalidCapabilities => .refused asked .invalidCapabilities
        | .available _ =>
            let claim := env.claim configuration name code
            { acts := asked ++ env.sent configuration (claimOptions name code) claim
              result := env.concludeClaim configuration name claim.answer }

end Client

def claimPairing (baseUrl deviceName pairingCode : String) : Option ClaimedPairing :=
  match validPairingCode pairingCode with
  | none => some (.refused [] .invalidPairingCode)
  | some code =>
      match validDeviceName env.unicode deviceName with
      | none => some (.refused [] .invalidDeviceName)
      | some name =>
          match CompanionServerConfiguration.new env.unicode env.urls (rustTrim baseUrl) with
          | .error _ => some (.refused [] .invalidServerUrl)
          | .ok configuration =>
              match env.ensureCredentialStore with
              | .error message =>
                  some { acts := [.ensuresCredentialStore (.error message)]
                         result := .error (.other message) }
              | .ok () => env.negotiateAndClaim configuration name code

end PairingEnvironment

/-- What the window is told. -/
def mapPairingError : ClaimPairingError → IpcErrorCode
  | .other _ => .pairingFailed
  | .pairing code serverCode =>
      match code with
      | .clientUpdateRequired => .clientUpdateRequired
      | .serverFeatureUnavailable | .invalidCapabilities => .serverFeatureUnavailable
      | .requiredScopeMissing => .requiredScopeMissing
      | .invalidPairingCode | .invalidDeviceName | .invalidServerUrl => .invalidInput
      | .pairingRejected =>
          if serverCode = some "COMPANION_PAIRING_EXPIRED" then .pairingExpired
          else if serverCode = some "RATE_LIMITED" then .rateLimited
          else if serverCode = some "VALIDATION_FAILED" then .validationFailed
          else .pairingFailed
      | .network => .network

end YohakuCore
