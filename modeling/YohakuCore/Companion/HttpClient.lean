import YohakuCore.Companion.Authority
import YohakuCore.Framework.Utf8
import YohakuCore.Protocol.Types

/-!
# One attempt and its only retry

A response becomes an answer by the shape of its body first and by its status afterwards. The
network and the parser of JSON texts are parameters.
-/

namespace YohakuCore

open Framework

inductive HttpMethod where
  | get
  | post
  | put
  deriving DecidableEq

structure ExecuteOptions where
  method : HttpMethod
  path : String
  credential : Option CompanionCredential
  expectedRequestId : Option String
  maximumPayloadBytes : Option Nat
  encodedBody : Option (List UInt8)
  deriving DecidableEq

def defaultMaxPayloadBytes : Nat := 32 * 1024

/-- A request on the wire. The bearer token and the version header go with a credential. -/
structure HttpRequest where
  method : HttpMethod
  path : String
  bearer : Option String
  body : Option (List UInt8)
  deriving DecidableEq

structure HttpResponse where
  status : Nat
  body : List UInt8
  deriving DecidableEq

/-- A request that was sent, with the response to it if one came back whole. -/
structure Exchange where
  request : HttpRequest
  response : Option HttpResponse
  deriving DecidableEq

/-- One attempt: what went over the network, and how it is reported. -/
structure Attempt (α : Type*) where
  exchange : Option Exchange
  answer : Except CompanionTransportError α

def isSuccessStatus (status : Nat) : Bool := 200 ≤ status && status ≤ 299

/-- `payload.meta.requestId`, looked up loosely. -/
def echoedRequestId (payload : Json) : Option String :=
  ((payload.lookup "meta").bind (Json.lookup "requestId")).bind Json.readString

def checkRequestIdEcho (payload : Json) (expected : Option String) :
    Except CompanionTransportError Unit :=
  match expected with
  | none => .ok ()
  | some expected =>
      if echoedRequestId payload = some expected then .ok () else .error .requestIdMismatch

section Response

variable {α : Type*} (calendar : Calendar) (parse : String → Option Json)

/-- The echo of a decoded envelope is checked before its error is reported. -/
def readResponse (responseSchema : Json → Option α) (expectedRequestId : Option String)
    (response : HttpResponse) : Except CompanionTransportError α :=
  let status := response.status
  let text := Utf8.lossy response.body
  if text = "" then .error (.emptyResponse status)
  else
    match parse text with
    | none => if isSuccessStatus status then .error .decode else .error (.httpStatus status)
    | some json =>
        if isSuccessStatus status then
          match responseSchema json with
          | none => .error .decode
          | some parsed => (checkRequestIdEcho json expectedRequestId).map (fun _ => parsed)
        else
          match decodeErrorEnvelope calendar json with
          | some error =>
              match checkRequestIdEcho json expectedRequestId with
              | .error mismatch => .error mismatch
              | .ok () => .error (.server status error)
          | none =>
              match decodePairingErrorEnvelope json with
              | some code => .error (.pairingServer status code)
              | none => .error (.httpStatus status)

def ExecuteOptions.request (options : ExecuteOptions) : HttpRequest where
  method := options.method
  path := options.path
  bearer := options.credential.map CompanionCredential.deviceToken
  body := options.encodedBody

/-- The body is over its cap: nothing is sent. -/
def ExecuteOptions.overCap (options : ExecuteOptions) : Option CompanionTransportError :=
  options.encodedBody.bind (fun bytes =>
    let limit := options.maximumPayloadBytes.getD defaultMaxPayloadBytes
    if limit < bytes.length then some (.payloadTooLarge bytes.length limit) else none)

def execute (options : ExecuteOptions) (responseSchema : Json → Option α)
    (network : HttpRequest → Option HttpResponse) : Attempt α :=
  match options.overCap with
  | some error => { exchange := none, answer := .error error }
  | none =>
      let response := network options.request
      { exchange := some ⟨options.request, response⟩
        answer :=
          match response with
          | none => .error .network
          | some response =>
              readResponse calendar parse responseSchema options.expectedRequestId response }

end Response

/-- What a call exchanged with the server, in order, and what it returned. -/
structure Performed where
  exchanges : List Exchange
  result : Except PresenceClientError MutationResponse

/-- The options of both attempts: the negotiated cap and the bytes encoded once. -/
def PresenceClient.attemptOptions (client : PresenceClient) (method : HttpMethod) (path : String)
    (requestId : String) (encodedBody : List UInt8) : ExecuteOptions where
  method := method
  path := path
  credential := some client.credential
  expectedRequestId := some requestId
  maximumPayloadBytes := some client.configuration.maximumPayloadBytes
  encodedBody := some encodedBody

section Retry

variable (calendar : Calendar) (parse : String → Option Json)

def reconcileFromError (reconcile : UInt64 → Except SequencerError Unit)
    (error : CompanionTransportError) : Except SequencerError Unit :=
  match acceptedSequenceOf error with
  | some accepted => reconcile accepted
  | none => .ok ()

/-- The end of an answer that is not retried. -/
def concludeAnswer (reconcile : UInt64 → Except SequencerError Unit)
    (answer : Except CompanionTransportError MutationResponse) :
    Except PresenceClientError MutationResponse :=
  match answer with
  | .ok response =>
      match reconcile response.acceptedSequence with
      | .ok () => .ok response
      | .error error => .error (.sequencer error)
  | .error error =>
      match reconcileFromError reconcile error with
      | .ok () => .error (.transport error)
      | .error error => .error (.sequencer error)

/-- The network and the reconciling sequencer may behave differently at each attempt. -/
def performWithSingleRetry (client : PresenceClient) (method : HttpMethod) (path : String)
    (requestId : String) (encodedBody : List UInt8)
    (network : Nat → HttpRequest → Option HttpResponse)
    (reconcile : Nat → UInt64 → Except SequencerError Unit) : Performed :=
  let attempt := fun i => execute calendar parse
    (client.attemptOptions method path requestId encodedBody) (decodeMutationResponse calendar)
    (network i)
  let first := attempt 0
  match first.answer with
  | .ok _ =>
      { exchanges := first.exchange.toList, result := concludeAnswer (reconcile 0) first.answer }
  | .error error =>
      match reconcileFromError (reconcile 0) error with
      | .error failure =>
          { exchanges := first.exchange.toList, result := .error (.sequencer failure) }
      | .ok () =>
          if isSafeForImmediateIdempotentRetry error then
            let second := attempt 1
            { exchanges := first.exchange.toList ++ second.exchange.toList
              result := concludeAnswer (reconcile 1) second.answer }
          else { exchanges := first.exchange.toList, result := .error (.transport error) }

end Retry

end YohakuCore
