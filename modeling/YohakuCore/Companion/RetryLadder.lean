import YohakuCore.Companion.HttpClient

/-!
# Which refusals are retried

A response with a status from 400 to 499 is classified by its body before its status.
-/

namespace YohakuCore

open Framework

variable {calendar : Calendar} {parse : String → Option Json}

section Attempt

variable {α : Type*} {options : ExecuteOptions} {schema : Json → Option α}
  {network : HttpRequest → Option HttpResponse}

theorem overCap_payloadTooLarge {error : CompanionTransportError}
    (h : options.overCap = some error) : ∃ actual limit, error = .payloadTooLarge actual limit := by
  simp only [ExecuteOptions.overCap, Option.bind_eq_some_iff] at h
  obtain ⟨bytes, -, h⟩ := h
  split at h
  · exact ⟨_, _, (Option.some.inj h).symm⟩
  · contradiction

theorem execute_overCap {error : CompanionTransportError} (h : options.overCap = some error) :
    execute calendar parse options schema network = ⟨none, .error error⟩ := by
  rw [execute, h]

theorem execute_answered (h : options.overCap = none) {response : HttpResponse}
    (hresponse : network options.request = some response) :
    (execute calendar parse options schema network).answer =
      readResponse calendar parse schema options.expectedRequestId response := by
  rw [execute, h]
  simp only [hresponse]

end Attempt

/-- What a response is read as, in the order of the ladder: an empty body, a body that is no JSON,
and a JSON body by its status and by the envelopes it decodes as. -/
inductive Reading (calendar : Calendar) (parse : String → Option Json) {α : Type*}
    (schema : Json → Option α) (expected : Option String) (response : HttpResponse) :
    Except CompanionTransportError α → Prop where
  | empty (body : response.body = []) :
      Reading calendar parse schema expected response (.error (.emptyResponse response.status))
  | notJson (body : response.body ≠ []) (text : parse (Utf8.lossy response.body) = none) :
      Reading calendar parse schema expected response
        (if isSuccessStatus response.status then .error .decode
          else .error (.httpStatus response.status))
  | undecoded (json : Json) (body : response.body ≠ [])
      (text : parse (Utf8.lossy response.body) = some json)
      (success : isSuccessStatus response.status = true) (schemaFails : schema json = none) :
      Reading calendar parse schema expected response (.error .decode)
  | accepted (json : Json) (parsed : α) (body : response.body ≠ [])
      (text : parse (Utf8.lossy response.body) = some json)
      (success : isSuccessStatus response.status = true) (decodes : schema json = some parsed)
      (echo : checkRequestIdEcho json expected = .ok ()) :
      Reading calendar parse schema expected response (.ok parsed)
  | foreign (json : Json) (body : response.body ≠ [])
      (text : parse (Utf8.lossy response.body) = some json)
      (envelope : isSuccessStatus response.status = true ∨
        ∃ error, decodeErrorEnvelope calendar json = some error)
      (echo : checkRequestIdEcho json expected ≠ .ok ()) :
      Reading calendar parse schema expected response (.error .requestIdMismatch)
  | refused (json : Json) (error : ErrorDetail) (body : response.body ≠ [])
      (text : parse (Utf8.lossy response.body) = some json)
      (failure : isSuccessStatus response.status = false)
      (envelope : decodeErrorEnvelope calendar json = some error)
      (echo : checkRequestIdEcho json expected = .ok ()) :
      Reading calendar parse schema expected response
        (.error (.server response.status error))
  | bare (json : Json) (body : response.body ≠ [])
      (text : parse (Utf8.lossy response.body) = some json)
      (failure : isSuccessStatus response.status = false)
      (envelope : decodeErrorEnvelope calendar json = none) :
      Reading calendar parse schema expected response
        (.error (match decodePairingErrorEnvelope json with
          | some code => .pairingServer response.status code
          | none => .httpStatus response.status))

theorem checkRequestIdEcho_error {payload : Json} {expected : Option String}
    {error : CompanionTransportError} (h : checkRequestIdEcho payload expected = .error error) :
    error = .requestIdMismatch := by
  unfold checkRequestIdEcho at h
  split at h
  · simp at h
  · split at h
    · simp at h
    · exact (Except.error.inj h).symm

theorem checkRequestIdEcho_eq_ok {payload : Json} {requestId : String} :
    checkRequestIdEcho payload (some requestId) = .ok () ↔
      echoedRequestId payload = some requestId := by
  by_cases h : echoedRequestId payload = some requestId <;> simp [checkRequestIdEcho, h]

theorem readResponse_reading {α : Type*} (schema : Json → Option α) (expected : Option String)
    (response : HttpResponse) : Reading calendar parse schema expected response
      (readResponse calendar parse schema expected response) := by
  by_cases hbody : response.body = []
  · have hread : readResponse calendar parse schema expected response =
        .error (.emptyResponse response.status) := by
      simp [readResponse, Utf8.lossy_eq_empty, hbody]
    rw [hread]
    exact .empty hbody
  have htext : Utf8.lossy response.body ≠ "" := by
    rwa [Ne, Utf8.lossy_eq_empty]
  cases hparse : parse (Utf8.lossy response.body) with
  | none =>
      have hread : readResponse calendar parse schema expected response =
          if isSuccessStatus response.status then .error .decode
          else .error (.httpStatus response.status) := by
        simp [readResponse, htext, hparse]
      rw [hread]
      exact .notJson hbody hparse
  | some json =>
      cases hsuccess : isSuccessStatus response.status with
      | true =>
          cases hdecoded : schema json with
          | none =>
              have hread : readResponse calendar parse schema expected response =
                  .error .decode := by
                simp [readResponse, htext, hparse, hsuccess, hdecoded]
              rw [hread]
              exact .undecoded json hbody hparse hsuccess hdecoded
          | some parsed =>
              have hread : readResponse calendar parse schema expected response =
                  (checkRequestIdEcho json expected).map (fun _ => parsed) := by
                simp [readResponse, htext, hparse, hsuccess, hdecoded]
              rw [hread]
              cases hecho : checkRequestIdEcho json expected with
              | error mismatch =>
                  obtain rfl := checkRequestIdEcho_error hecho
                  exact .foreign json hbody hparse (.inl hsuccess) (by simp [hecho])
              | ok => exact .accepted json parsed hbody hparse hsuccess hdecoded hecho
      | false =>
          cases henvelope : decodeErrorEnvelope calendar json with
          | none =>
              have hread : readResponse calendar parse schema expected response =
                  .error (match decodePairingErrorEnvelope json with
                    | some code => .pairingServer response.status code
                    | none => .httpStatus response.status) := by
                simp only [readResponse, htext, hparse, hsuccess, henvelope]
                cases decodePairingErrorEnvelope json <;> rfl
              rw [hread]
              exact .bare json hbody hparse hsuccess henvelope
          | some error =>
              cases hecho : checkRequestIdEcho json expected with
              | error mismatch =>
                  have hread : readResponse calendar parse schema expected response =
                      .error mismatch := by
                    simp [readResponse, htext, hparse, hsuccess, henvelope, hecho]
                  obtain rfl := checkRequestIdEcho_error hecho
                  rw [hread]
                  exact .foreign json hbody hparse (.inr ⟨error, henvelope⟩) (by simp [hecho])
              | ok =>
                  have hread : readResponse calendar parse schema expected response =
                      .error (.server response.status error) := by
                    simp [readResponse, htext, hparse, hsuccess, henvelope, hecho]
                  rw [hread]
                  exact .refused json error hbody hparse hsuccess henvelope hecho

section Exchange

variable (calendar parse)

/-- How an attempt that was sent is reported. -/
def reportResponse (requestId : String) (response : Option HttpResponse) :
    Except CompanionTransportError MutationResponse :=
  match response with
  | none => .error .network
  | some response =>
      readResponse calendar parse (decodeMutationResponse calendar) (some requestId) response

/-- A report after which the request is sent again. -/
def isRetried (reconcile : UInt64 → Except SequencerError Unit) :
    Except CompanionTransportError MutationResponse → Bool
  | .ok _ => false
  | .error error =>
      match reconcileFromError reconcile error with
      | .ok () => isSafeForImmediateIdempotentRetry error
      | .error _ => false

variable {calendar parse}

/-- Under the cap a mutation is one exchange, or two of the same request: the last report decides
the result. -/
theorem perform_eq {client : PresenceClient} {method : HttpMethod} {path requestId : String}
    {body : List UInt8} (network : Nat → HttpRequest → Option HttpResponse)
    (reconcile : Nat → UInt64 → Except SequencerError Unit)
    (hcap : (client.attemptOptions method path requestId body).overCap = none) :
    performWithSingleRetry calendar parse client method path requestId body network reconcile =
      let request := (client.attemptOptions method path requestId body).request
      let report := fun i => reportResponse calendar parse requestId (network i request)
      if isRetried (reconcile 0) (report 0) then
        ⟨[⟨request, network 0 request⟩, ⟨request, network 1 request⟩],
          concludeAnswer (reconcile 1) (report 1)⟩
      else ⟨[⟨request, network 0 request⟩], concludeAnswer (reconcile 0) (report 0)⟩ := by
  have hexecute (i : Nat) : execute calendar parse
      (client.attemptOptions method path requestId body) (decodeMutationResponse calendar)
      (network i) =
        let request := (client.attemptOptions method path requestId body).request
        ⟨some ⟨request, network i request⟩,
          reportResponse calendar parse requestId (network i request)⟩ := by
    rw [execute, hcap]
    rfl
  simp only [performWithSingleRetry, hexecute]
  cases hreport : reportResponse calendar parse requestId
      (network 0 (client.attemptOptions method path requestId body).request) with
  | ok response => simp [isRetried]
  | error error =>
      cases hreconciled : reconcileFromError (reconcile 0) error with
      | error failure => simp [isRetried, hreconciled, concludeAnswer]
      | ok =>
          by_cases hsafe : isSafeForImmediateIdempotentRetry error = true
          · simp [isRetried, hreconciled, hsafe]
          · simp [isRetried, hreconciled, hsafe, concludeAnswer]

theorem isRetried_of_unaccepted {reconcile : UInt64 → Except SequencerError Unit}
    {error : CompanionTransportError}
    (h : isSafeForImmediateIdempotentRetry error = true → acceptedSequenceOf error = none) :
    isRetried reconcile (.error error) = isSafeForImmediateIdempotentRetry error := by
  by_cases hsafe : isSafeForImmediateIdempotentRetry error = true
  · simp [isRetried, reconcileFromError, h hsafe, hsafe]
  · simp only [isRetried]
    cases reconcileFromError reconcile error <;> simp [hsafe]

/-- Over the cap a mutation ends before its first exchange. -/
theorem perform_refused {client : PresenceClient} {method : HttpMethod} {path requestId : String}
    {body : List UInt8} (network : Nat → HttpRequest → Option HttpResponse)
    (reconcile : Nat → UInt64 → Except SequencerError Unit) {error : CompanionTransportError}
    (hcap : (client.attemptOptions method path requestId body).overCap = some error) :
    performWithSingleRetry calendar parse client method path requestId body network reconcile =
      ⟨[], .error (.transport error)⟩ := by
  obtain ⟨actual, limit, rfl⟩ := overCap_payloadTooLarge hcap
  rw [performWithSingleRetry]
  simp only [execute_overCap hcap]
  rfl

theorem concludeAnswer_transport {reconcile : UInt64 → Except SequencerError Unit}
    {answer : Except CompanionTransportError MutationResponse} {error : CompanionTransportError}
    (h : concludeAnswer reconcile answer = .error (.transport error)) : answer = .error error := by
  cases answer with
  | ok response =>
      simp only [concludeAnswer] at h
      split at h <;> simp at h
  | error refused =>
      simp only [concludeAnswer] at h
      split at h
      · simpa using h
      · simp at h

theorem reportResponse_ne_payloadTooLarge {requestId : String} {response : Option HttpResponse}
    {actual limit : Nat} : reportResponse calendar parse requestId response ≠
      .error (.payloadTooLarge actual limit) := by
  intro h
  cases response with
  | none => simp [reportResponse] at h
  | some response =>
      have hreading := @readResponse_reading calendar parse _ (decodeMutationResponse calendar)
        (some requestId) response
      simp only [reportResponse] at h
      generalize readResponse calendar parse (decodeMutationResponse calendar) (some requestId)
        response = report at h hreading
      cases hreading with
      | empty hbody => simp at h
      | notJson hbody htext => split at h <;> simp at h
      | undecoded json hbody htext hsuccess hschema => simp at h
      | accepted json parsed hbody htext hsuccess hdecoded hecho => simp at h
      | foreign json hbody htext henvelope hecho => simp at h
      | refused json error hbody htext hfailure henvelope hecho => simp at h
      | bare json hbody htext hfailure henvelope => split at h <;> simp at h

end Exchange

/-- The body is an error envelope of another request. -/
def ForeignEnvelope (calendar : Calendar) (parse : String → Option Json) (requestId : String)
    (body : List UInt8) : Prop :=
  ∃ json error, parse (Utf8.lossy body) = some json ∧
    decodeErrorEnvelope calendar json = some error ∧ echoedRequestId json ≠ some requestId

theorem isServerStatus_clientError {status : Nat} (h : status ≤ 499) :
    isServerStatus status = false := by
  simp [isServerStatus]
  omega

theorem isSuccessStatus_clientError {status : Nat} (h : 400 ≤ status) :
    isSuccessStatus status = false := by
  simp [isSuccessStatus]
  omega

/-- The five stages of the ladder, for a status from 400 to 499. A class that is retried carries no
accepted sequence. -/
theorem readResponse_clientError {α : Type*} {schema : Json → Option α} {requestId : String}
    {response : HttpResponse} (hlow : 400 ≤ response.status) (hhigh : response.status ≤ 499) :
    ∃ error, readResponse calendar parse schema (some requestId) response = .error error ∧
      (isSafeForImmediateIdempotentRetry error = true ↔
        response.body = [] ∨ ForeignEnvelope calendar parse requestId response.body) ∧
      (isSafeForImmediateIdempotentRetry error = true → acceptedSequenceOf error = none) := by
  have hserver := isServerStatus_clientError hhigh
  have hsuccess := isSuccessStatus_clientError hlow
  have hreading := @readResponse_reading calendar parse α schema (some requestId) response
  generalize readResponse calendar parse schema (some requestId) response = report at hreading ⊢
  cases hreading with
  | empty hbody =>
      refine ⟨_, rfl, ?_, ?_⟩
      · simp [isSafeForImmediateIdempotentRetry, hbody]
      · simp [acceptedSequenceOf]
  | notJson hbody htext =>
      refine ⟨.httpStatus response.status, by simp [hsuccess], ?_, ?_⟩
      · simp [isSafeForImmediateIdempotentRetry, hserver, hbody, ForeignEnvelope, htext]
      · simp [acceptedSequenceOf]
  | undecoded json hbody htext hok hschema => simp [hsuccess] at hok
  | accepted json parsed hbody htext hok hdecoded hecho => simp [hsuccess] at hok
  | foreign json hbody htext henvelope hecho =>
      obtain ⟨error, hdecoded⟩ := henvelope.resolve_left (by simp [hsuccess])
      rw [Ne, checkRequestIdEcho_eq_ok] at hecho
      refine ⟨_, rfl, ?_, ?_⟩
      · simp [isSafeForImmediateIdempotentRetry, ForeignEnvelope, htext, hdecoded, hecho]
      · simp [acceptedSequenceOf]
  | refused json error hbody htext hfailure henvelope hecho =>
      rw [checkRequestIdEcho_eq_ok] at hecho
      refine ⟨_, rfl, ?_, ?_⟩
      · simp [isSafeForImmediateIdempotentRetry, hserver, hbody, ForeignEnvelope, htext, hecho]
      · simp [isSafeForImmediateIdempotentRetry, hserver]
  | bare json hbody htext hfailure henvelope =>
      cases decodePairingErrorEnvelope json with
      | some code =>
          refine ⟨_, rfl, ?_, ?_⟩
          · simp [isSafeForImmediateIdempotentRetry, hbody, ForeignEnvelope, htext, henvelope]
          · simp [acceptedSequenceOf]
      | none =>
          refine ⟨_, rfl, ?_, ?_⟩
          · simp [isSafeForImmediateIdempotentRetry, hserver, hbody, ForeignEnvelope, htext,
              henvelope]
          · simp [acceptedSequenceOf]

section Mutation

variable {client : PresenceClient} {method : HttpMethod} {path requestId : String}
  {encodedBody : List UInt8} {network : Nat → HttpRequest → Option HttpResponse}
  {reconcile : Nat → UInt64 → Except SequencerError Unit}

/-- A mutation whose first response has a status from 400 to 499 makes one attempt exactly when the
body is neither empty nor the error envelope of another request. -/
theorem client_error_single_attempt_iff {request : HttpRequest} {response : HttpResponse}
    (hfirst : (performWithSingleRetry calendar parse client method path requestId encodedBody
      network reconcile).exchanges.head? = some ⟨request, some response⟩)
    (hlow : 400 ≤ response.status) (hhigh : response.status ≤ 499) :
    (performWithSingleRetry calendar parse client method path requestId encodedBody network
        reconcile).exchanges.length = 1 ↔
      response.body ≠ [] ∧ ¬ ForeignEnvelope calendar parse requestId response.body := by
  cases hcap : (client.attemptOptions method path requestId encodedBody).overCap with
  | some error =>
      rw [perform_refused network reconcile hcap] at hfirst
      contradiction
  | none =>
      rw [perform_eq network reconcile hcap] at hfirst ⊢
      have hresponse : network 0 (client.attemptOptions method path requestId
          encodedBody).request = some response := by
        dsimp only at hfirst
        split at hfirst
        all_goals exact (Exchange.mk.inj (Option.some.inj hfirst)).2
      obtain ⟨error, hread, hsafe, haccepted⟩ :=
        @readResponse_clientError calendar parse _ (decodeMutationResponse calendar) requestId
          response hlow hhigh
      have hreport : reportResponse calendar parse requestId (some response) = .error error :=
        hread
      simp only [hresponse, hreport, isRetried_of_unaccepted haccepted]
      by_cases hretried : isSafeForImmediateIdempotentRetry error = true
      · have hbody := hsafe.mp hretried
        simp only [hretried, if_true, List.length_cons, List.length_nil]
        tauto
      · have hbody := hsafe.not.mp hretried
        simp only [hretried]
        tauto

end Mutation

def pairedClient : PresenceClient where
  id := 0
  baseUrl := "https://example.com/"
  credential := ⟨"00000000-0000-4000-8000-000000000000", "token"⟩
  sequencer := ⟨0, "00000000-0000-4000-8000-000000000000", 0⟩
  configuration := {
    supportsMediaTimeline := true
    maximumPayloadBytes := 32768
    requestsPerMinute := 60
    leaseMinSeconds := 30
    leaseMaxSeconds := 120
    recommendedHeartbeatSeconds := 30
    maximumClockSkewSeconds := 300 }

def pairedRequest : HttpRequest where
  method := .put
  path := "/companion/presence"
  bearer := some "token"
  body := some [0x7B, 0x7D]

/-- A put whose every attempt meets a 404 with this body, of which no text is JSON. -/
def notFound (body : List UInt8) : Performed :=
  performWithSingleRetry .epoch (fun _ => none) pairedClient .put "/companion/presence"
    "11111111-0000-4000-8000-000000000000" [0x7B, 0x7D] (fun _ _ => some ⟨404, body⟩)
    (fun _ _ => .ok ())

theorem client_error_single_attempt_iff_text :
    (notFound [0x6E, 0x6F]).exchanges.length = 1 :=
  (@client_error_single_attempt_iff _ _ _ _ _ _ _ _ _ pairedRequest ⟨404, [0x6E, 0x6F]⟩
    rfl (by decide) (by decide)).mpr ⟨by decide, fun ⟨_, _, h, _⟩ => nomatch h⟩

/-- A refusal without a body is sent again. -/
theorem client_error_empty_retried :
    (notFound []).exchanges =
      [⟨pairedRequest, some ⟨404, []⟩⟩, ⟨pairedRequest, some ⟨404, []⟩⟩] := by
  decide +kernel

end YohakuCore
