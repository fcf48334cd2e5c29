import YohakuCore.Companion.ReplacePresence

/-! # The compatibility signal -/

namespace YohakuCore

open Framework

variable {calendar : Calendar} {floats : Floats} {shortest : ℚ≥0 → String}
  {parse : String → Option Json}

/-- The last response that came back. -/
def Performed.lastAnswer (performed : Performed) : Option HttpResponse :=
  (performed.exchanges.filterMap Exchange.response).getLast?

@[simp] theorem lastAnswer_single (request : HttpRequest) (response : Option HttpResponse)
    (result : Except PresenceClientError MutationResponse) :
    Performed.lastAnswer ⟨[⟨request, response⟩], result⟩ = response := by
  cases response <;> rfl

@[simp] theorem lastAnswer_retried (request : HttpRequest) (first second : Option HttpResponse)
    (result : Except PresenceClientError MutationResponse) :
    Performed.lastAnswer ⟨[⟨request, first⟩, ⟨request, second⟩], result⟩ = second.or first := by
  cases first <;> cases second <;> rfl

/-- No error envelope can be decoded from the body. -/
def IsBare (calendar : Calendar) (parse : String → Option Json) (body : List UInt8) : Prop :=
  body = [] ∨ ∀ json, parse (Utf8.lossy body) = some json →
    decodeErrorEnvelope calendar json = none

/-- The body is the simplified envelope of the pairing endpoint. -/
def IsPairingEnvelope (parse : String → Option Json) (body : List UInt8) : Prop :=
  ∃ json code, parse (Utf8.lossy body) = some json ∧ decodePairingErrorEnvelope json = some code

/-- How a bare 426 is reported. The report is retried when the body is empty. -/
theorem report_bareUpgrade {requestId : String} {response : HttpResponse}
    (hstatus : response.status = 426) (hbare : IsBare calendar parse response.body) :
    ∃ error, reportResponse calendar parse requestId (some response) = .error error ∧
      acceptedSequenceOf error = none ∧
      (isSafeForImmediateIdempotentRetry error = true → response.body = []) ∧
      (needsRenegotiation error = true ↔
        response.body ≠ [] ∧ ¬ IsPairingEnvelope parse response.body) := by
  have hsuccess : isSuccessStatus response.status = false := by
    rw [hstatus]
    rfl
  have hserver : isServerStatus response.status = false := by
    rw [hstatus]
    rfl
  have hreading := @readResponse_reading calendar parse _ (decodeMutationResponse calendar)
    (some requestId) response
  rw [reportResponse]
  generalize readResponse calendar parse (decodeMutationResponse calendar) (some requestId)
    response = report at hreading ⊢
  cases hreading with
  | empty hbody => exact ⟨_, rfl, rfl, by simp [hbody], by simp [needsRenegotiation, hbody]⟩
  | notJson hbody htext =>
      refine ⟨.httpStatus response.status, by simp [hsuccess], rfl, ?_, ?_⟩
      · simp [isSafeForImmediateIdempotentRetry, hserver]
      · simp [needsRenegotiation, hstatus, hbody, IsPairingEnvelope, htext]
  | undecoded json hbody htext hok hschema => simp [hsuccess] at hok
  | accepted json parsed hbody htext hok hdecoded hecho => simp [hsuccess] at hok
  | foreign json hbody htext henvelope hecho =>
      obtain ⟨error, hdecoded⟩ := henvelope.resolve_left (by simp [hsuccess])
      simp [IsBare, hbody, htext, hdecoded] at hbare
  | refused json error hbody htext hfailure henvelope hecho =>
      simp [IsBare, hbody, htext, henvelope] at hbare
  | bare json hbody htext hfailure henvelope =>
      cases hpairing : decodePairingErrorEnvelope json with
      | some code =>
          refine ⟨_, rfl, rfl, ?_, ?_⟩
          · simp [isSafeForImmediateIdempotentRetry]
          · simp [needsRenegotiation, IsPairingEnvelope, htext, hpairing]
      | none =>
          refine ⟨_, rfl, rfl, ?_, ?_⟩
          · simp [isSafeForImmediateIdempotentRetry, hserver]
          · simp [needsRenegotiation, hstatus, hbody, IsPairingEnvelope, htext, hpairing]

theorem concludeAnswer_unaccepted {reconcile : UInt64 → Except SequencerError Unit}
    {error : CompanionTransportError} (h : acceptedSequenceOf error = none) :
    concludeAnswer reconcile (.error error) = .error (.transport error) := by
  simp [concludeAnswer, reconcileFromError, h]

/-- An exchange that ends in a bare 426 fails; it asks for a negotiation exactly when the body is
neither empty nor a pairing envelope. -/
theorem perform_bareUpgrade {client : PresenceClient} {method : HttpMethod}
    {path requestId : String} {body : List UInt8}
    {network : Nat → HttpRequest → Option HttpResponse}
    {reconcile : Nat → UInt64 → Except SequencerError Unit} {response : HttpResponse}
    (hlast : (performWithSingleRetry calendar parse client method path requestId body network
      reconcile).lastAnswer = some response)
    (hstatus : response.status = 426) (hbare : IsBare calendar parse response.body) :
    ∃ error, (performWithSingleRetry calendar parse client method path requestId body network
        reconcile).result = .error error ∧
      (error.needsRenegotiation = true ↔
        response.body ≠ [] ∧ ¬ IsPairingEnvelope parse response.body) := by
  cases hcap : (client.attemptOptions method path requestId body).overCap with
  | some error => simp [Performed.lastAnswer, perform_refused network reconcile hcap] at hlast
  | none =>
      obtain ⟨error, hreport, haccepted, hsafe, hrenegotiates⟩ :=
        @report_bareUpgrade calendar parse requestId response hstatus hbare
      rw [perform_eq network reconcile hcap] at hlast ⊢
      simp only at hlast ⊢
      split at hlast
      · rename_i hretried
        rw [if_pos hretried]
        rw [lastAnswer_retried] at hlast
        cases hsecond : network 1 (client.attemptOptions method path requestId body).request with
        | some second =>
            obtain rfl : second = response := by simpa [hsecond] using hlast
            exact ⟨.transport error, by rw [hreport, concludeAnswer_unaccepted haccepted],
              hrenegotiates⟩
        | none =>
            -- The signal was the first answer: it was retried, so its body is empty.
            have hfirst : network 0 (client.attemptOptions method path requestId body).request =
                some response := by simpa [hsecond] using hlast
            rw [hfirst, hreport] at hretried
            have hempty : response.body = [] := by
              apply hsafe
              simpa [isRetried, reconcileFromError, haccepted] using hretried
            refine ⟨.transport .network, ?_, ?_⟩
            · simp [reportResponse, concludeAnswer, reconcileFromError, acceptedSequenceOf]
            · simp [PresenceClientError.needsRenegotiation, needsRenegotiation, hempty]
      · rename_i hsingle
        rw [if_neg hsingle]
        rw [lastAnswer_single] at hlast
        refine ⟨.transport error, ?_, hrenegotiates⟩
        rw [hlast, hreport, concludeAnswer_unaccepted haccepted]

theorem loopPublished_renegotiates {c : Coordinator} {id : Nat} {call : Nat}
    {error : PresenceClientError}
    (hloop : c.loops id = some ⟨c.inner.generation, .publishing call⟩)
    (h : error.needsRenegotiation = true) :
    c.loopPublished id (.error error) = some (c.discardAuthority.exitLoop id).startLocked := by
  simp [Coordinator.loopPublished, hloop, h]

theorem loopPublished_degrades {c : Coordinator} {id : Nat} {call : Nat}
    {error : PresenceClientError}
    (hloop : c.loops id = some ⟨c.inner.generation, .publishing call⟩)
    (h : error.needsRenegotiation = false) :
    c.loopPublished id (.error error) =
      some (((c.exitLoop id).setState .degraded).scheduleRetry c.inner.generation) := by
  simp [Coordinator.loopPublished, hloop, h]

/-- A call whose last answer is a bare 426 fails. It makes the coordinator negotiate again exactly
when the body is neither empty nor a pairing envelope; otherwise the coordinator degrades. -/
theorem bare_upgrade_renegotiates_iff (client : PresenceClient)
    (snapshot : SanitizedPresenceSnapshot) (requestedLeaseSeconds : F64) (requestId : String)
    (reserved : Except SequencerError UInt64)
    (network : Nat → HttpRequest → Option HttpResponse)
    (reconcile : Nat → UInt64 → Except SequencerError Unit) {response : HttpResponse}
    (hlast : (client.replacePresence calendar floats shortest parse snapshot requestedLeaseSeconds
      requestId reserved network reconcile).lastAnswer = some response)
    (hstatus : response.status = 426) (hbare : IsBare calendar parse response.body) :
    let result := (client.replacePresence calendar floats shortest parse snapshot
      requestedLeaseSeconds requestId reserved network reconcile).result
    let readable := response.body ≠ [] ∧ ¬ IsPairingEnvelope parse response.body
    (∃ error, result = .error error ∧ (error.needsRenegotiation = true ↔ readable)) ∧
      ∀ (c : Coordinator) (id call : Nat),
        c.loops id = some ⟨c.inner.generation, .publishing call⟩ →
        (readable →
          c.loopPublished id result = some (c.discardAuthority.exitLoop id).startLocked) ∧
        (¬ readable → c.loopPublished id result =
          some (((c.exitLoop id).setState .degraded).scheduleRetry c.inner.generation)) := by
  intro result readable
  have hfails : ∃ error, result = .error error ∧
      (error.needsRenegotiation = true ↔ readable) := by
    rcases replacePresence_cases calendar floats shortest parse client snapshot
      requestedLeaseSeconds requestId reserved
      with hunsent | ⟨sequence, request, -, -, hperformed⟩
    · rcases hunsent network reconcile with ⟨error, hunsent⟩ | ⟨error, hunsent⟩ <;>
        simp [hunsent, Performed.lastAnswer] at hlast
    · simp only [result, hperformed network reconcile] at hlast ⊢
      exact perform_bareUpgrade hlast hstatus hbare
  refine ⟨hfails, ?_⟩
  intro c id call hloop
  obtain ⟨error, hresult, hrenegotiates⟩ := hfails
  rw [hresult]
  constructor
  · intro hreadable
    exact loopPublished_renegotiates hloop (hrenegotiates.mpr hreadable)
  · intro hunreadable
    have hkept : error.needsRenegotiation = false := by
      simpa using hrenegotiates.not.mpr hunreadable
    exact loopPublished_degrades hloop hkept

/-- A call whose every attempt meets a 426 with this body. -/
def upgradeRequired (parse : String → Option Json) (body : List UInt8) : Performed :=
  pairedClient.replacePresence .epoch .integral (fun _ => "") parse ⟨0, none, none⟩ (.finite 90)
    "11111111-0000-4000-8000-000000000000" (.ok 7) (fun _ _ => some ⟨426, body⟩)
    (fun _ _ => .ok ())

theorem upgradeRequired_eq : ∃ request, ∀ parse body,
    upgradeRequired parse body =
      let response : HttpResponse := ⟨426, body⟩
      let report := reportResponse .epoch parse "11111111-0000-4000-8000-000000000000"
        (some response)
      if isRetried (fun _ => .ok ()) report then
        ⟨[⟨request, some response⟩, ⟨request, some response⟩],
          concludeAnswer (fun _ => .ok ()) report⟩
      else ⟨[⟨request, some response⟩], concludeAnswer (fun _ => .ok ()) report⟩ := by
  have hmapped : (makePresenceRequest .epoch .integral ⟨0, none, none⟩ 7 (.finite 90)
      pairedClient.makeRequestOptions "11111111-0000-4000-8000-000000000000").toOption.any
        (fun request => (pairedClient.attemptOptions .put "/companion/presence"
          "11111111-0000-4000-8000-000000000000"
          (encodeBody (request.document (fun _ => "")))).overCap = none) = true := by
    decide +kernel
  cases hrequest : makePresenceRequest .epoch .integral ⟨0, none, none⟩ 7 (.finite 90)
      pairedClient.makeRequestOptions "11111111-0000-4000-8000-000000000000" with
  | error error => simp [hrequest, Except.toOption] at hmapped
  | ok request =>
      have hcap : (pairedClient.attemptOptions .put "/companion/presence"
          "11111111-0000-4000-8000-000000000000"
          (encodeBody (request.document (fun _ => "")))).overCap = none := by
        simpa [hrequest, Except.toOption] using hmapped
      refine ⟨(pairedClient.attemptOptions .put "/companion/presence"
        "11111111-0000-4000-8000-000000000000"
        (encodeBody (request.document (fun _ => "")))).request, ?_⟩
      intro parse body
      have hdevice : request.requestMeta.deviceId = pairedClient.credential.deviceId :=
        makePresenceRequest_deviceId hrequest
      have hperformed : upgradeRequired parse body = performWithSingleRetry .epoch parse
          pairedClient .put "/companion/presence" "11111111-0000-4000-8000-000000000000"
          (encodeBody (request.document (fun _ => ""))) (fun _ _ => some ⟨426, body⟩)
          (fun _ _ => .ok ()) := by
        simp [upgradeRequired, PresenceClient.replacePresence, PresenceClient.mutate, hrequest,
          Except.map, hdevice, makePresenceRequest_requestId hrequest]
      rw [hperformed, perform_eq _ _ hcap]

theorem upgradeRequired_lastAnswer (parse : String → Option Json) (body : List UInt8) :
    (upgradeRequired parse body).lastAnswer = some ⟨426, body⟩ := by
  obtain ⟨request, hperformed⟩ := upgradeRequired_eq
  rw [hperformed]
  dsimp only
  split <;> simp

theorem upgradeRequired_result (parse : String → Option Json) (body : List UInt8) :
    (upgradeRequired parse body).result = concludeAnswer (fun _ => .ok ())
      (reportResponse .epoch parse "11111111-0000-4000-8000-000000000000"
        (some ⟨426, body⟩)) := by
  obtain ⟨request, hperformed⟩ := upgradeRequired_eq
  rw [hperformed]
  dsimp only
  split <;> rfl

theorem bare_upgrade_renegotiates_iff_text :
    ∃ error, (upgradeRequired (fun _ => none) [0x6E, 0x6F]).result = .error error ∧
      error.needsRenegotiation = true := by
  obtain ⟨⟨error, hresult, hrenegotiates⟩, -⟩ := @bare_upgrade_renegotiates_iff .epoch .integral
    (fun _ => "") (fun _ => none) pairedClient ⟨0, none, none⟩ (.finite 90)
    "11111111-0000-4000-8000-000000000000" (.ok 7) (fun _ _ => some ⟨426, [0x6E, 0x6F]⟩)
    (fun _ _ => .ok ()) ⟨426, [0x6E, 0x6F]⟩
    (upgradeRequired_lastAnswer _ _) rfl (.inr (by simp))
  exact ⟨error, hresult, hrenegotiates.mpr ⟨by decide, fun ⟨_, _, h, _⟩ => by simp at h⟩⟩

/-- The pairing envelope, whatever its text. -/
def pairingRejection : Json := .object [("error", .object [("code", .string "UPGRADE")])]

/-- Two bare answers that do not lead to a negotiation: no body at all, and a pairing envelope. -/
theorem bare_upgrade_degrades :
    let silent := upgradeRequired (fun _ => none) []
    let pairing := upgradeRequired (fun _ => some pairingRejection) [0x7B, 0x7D]
    (silent.lastAnswer = some ⟨426, []⟩ ∧ IsBare .epoch (fun _ => none) [] ∧
      silent.result = .error (.transport (.emptyResponse 426)) ∧
      needsRenegotiation (.emptyResponse 426) = false) ∧
    (pairing.lastAnswer = some ⟨426, [0x7B, 0x7D]⟩ ∧
      IsBare .epoch (fun _ => some pairingRejection) [0x7B, 0x7D] ∧
      pairing.result = .error (.transport (.pairingServer 426 "UPGRADE")) ∧
      needsRenegotiation (.pairingServer 426 "UPGRADE") = false) := by
  have hbare : IsBare .epoch (fun _ => some pairingRejection) [0x7B, 0x7D] := by
    right
    intro json hjson
    obtain rfl := Option.some.inj hjson
    decide +kernel
  refine ⟨⟨upgradeRequired_lastAnswer _ _, .inl rfl, ?_, rfl⟩,
    ⟨upgradeRequired_lastAnswer _ _, hbare, ?_, rfl⟩⟩
  · rw [upgradeRequired_result]
    rfl
  · rw [upgradeRequired_result]
    decide +kernel

end YohakuCore
