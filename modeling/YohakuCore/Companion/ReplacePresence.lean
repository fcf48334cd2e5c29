import YohakuCore.Companion.OrderedWriter
import YohakuCore.Companion.RetryLadder
import YohakuCore.Protocol.RequestJson

/-!
# One mutation from the snapshot to its result

What a call does once it holds the send slot. The results of the sequencer and the answers of the
server are whatever they are.
-/

namespace YohakuCore

open Framework

/-- It compares what the mapper was given with where it came from. -/
def PresenceClient.assertDeviceMatches (client : PresenceClient) (metaDeviceId : String) :
    Except PresenceClientError Unit :=
  if metaDeviceId ≠ client.credential.deviceId then .error (.transport .credentialDeviceMismatch)
  else .ok ()

section Mutation

variable (calendar : Calendar) (floats : Floats) (shortest : ℚ≥0 → String)
  (parse : String → Option Json)

/-- Both mutations. A request is mapped to its meta and its document. -/
def PresenceClient.mutate (client : PresenceClient) (method : HttpMethod) (path : String)
    (mapped : UInt64 → Except WireError (PresenceRequestMeta × Json))
    (reserved : Except SequencerError UInt64)
    (network : Nat → HttpRequest → Option HttpResponse)
    (reconcile : Nat → UInt64 → Except SequencerError Unit) : Performed :=
  match reserved with
  | .error error => ⟨[], .error (.sequencer error)⟩
  | .ok sequence =>
      match mapped sequence with
      | .error error => ⟨[], .error (.wire error)⟩
      | .ok (requestMeta, body) =>
          match client.assertDeviceMatches requestMeta.deviceId with
          | .error error => ⟨[], .error error⟩
          | .ok () =>
              performWithSingleRetry calendar parse client method path requestMeta.requestId
                (encodeBody body) network reconcile

def PresenceClient.replacePresence (client : PresenceClient)
    (snapshot : SanitizedPresenceSnapshot) (requestedLeaseSeconds : F64) (requestId : String)
    (reserved : Except SequencerError UInt64)
    (network : Nat → HttpRequest → Option HttpResponse)
    (reconcile : Nat → UInt64 → Except SequencerError Unit) : Performed :=
  client.mutate calendar parse .put "/companion/presence"
    (fun sequence =>
      (makePresenceRequest calendar floats snapshot sequence requestedLeaseSeconds
        client.makeRequestOptions requestId).map
        (fun request => (request.requestMeta, request.document shortest)))
    reserved network reconcile

def PresenceClient.clearPresence (client : PresenceClient) (reason : ClearReason)
    (observedAt : Int) (requestId : String) (reserved : Except SequencerError UInt64)
    (network : Nat → HttpRequest → Option HttpResponse)
    (reconcile : Nat → UInt64 → Except SequencerError Unit) : Performed :=
  client.mutate calendar parse .post "/companion/presence/clear"
    (fun sequence =>
      (makeClearRequest calendar reason sequence observedAt client.makeRequestOptions
        requestId).map (fun request => (request.requestMeta, request.document)))
    reserved network reconcile

end Mutation

variable {calendar : Calendar} {floats : Floats} {shortest : ℚ≥0 → String}
  {parse : String → Option Json} {client : PresenceClient}

@[simp] theorem assertDeviceMatches_self (client : PresenceClient) :
    client.assertDeviceMatches client.credential.deviceId = .ok () := by
  simp [PresenceClient.assertDeviceMatches]

/-- A call that stops before its first attempt: without a sequence, or without a request. -/
def IsUnsent (performed : Performed) : Prop :=
  (∃ error, performed = ⟨[], .error (.sequencer error)⟩) ∨
    ∃ error, performed = ⟨[], .error (.wire error)⟩

theorem map_eq_ok {ε α β : Type*} {x : Except ε α} {f : α → β} {b : β} (h : x.map f = .ok b) :
    ∃ a, x = .ok a ∧ f a = b := by
  cases x with
  | error error => contradiction
  | ok a => exact ⟨a, rfl, Except.ok.inj h⟩

section Mutate

variable {method : HttpMethod} {path : String}
  {mapped : UInt64 → Except WireError (PresenceRequestMeta × Json)}
  {reserved : Except SequencerError UInt64}

theorem mutate_cases
    (hdevice : ∀ sequence requestMeta body, mapped sequence = .ok (requestMeta, body) →
      requestMeta.deviceId = client.credential.deviceId) :
    (∀ network reconcile, IsUnsent
        (client.mutate calendar parse method path mapped reserved network reconcile)) ∨
      ∃ sequence requestMeta body, reserved = .ok sequence ∧
        mapped sequence = .ok (requestMeta, body) ∧
        ∀ network reconcile,
          client.mutate calendar parse method path mapped reserved network reconcile =
            performWithSingleRetry calendar parse client method path requestMeta.requestId
              (encodeBody body) network reconcile := by
  cases reserved with
  | error error =>
      left
      intro network reconcile
      exact Or.inl ⟨error, rfl⟩
  | ok sequence =>
      cases hmapped : mapped sequence with
      | error error =>
          left
          intro network reconcile
          exact Or.inr ⟨error, by simp only [PresenceClient.mutate, hmapped]⟩
      | ok request =>
          right
          have hguard := hdevice sequence request.1 request.2 hmapped
          refine ⟨sequence, request.1, request.2, rfl, hmapped, ?_⟩
          intro network reconcile
          simp [PresenceClient.mutate, hmapped, hguard]

end Mutate

variable (calendar floats shortest parse) in
theorem replacePresence_cases (client : PresenceClient) (snapshot : SanitizedPresenceSnapshot)
    (requestedLeaseSeconds : F64) (requestId : String)
    (reserved : Except SequencerError UInt64) :
    (∀ network reconcile, IsUnsent (client.replacePresence calendar floats shortest parse snapshot
        requestedLeaseSeconds requestId reserved network reconcile)) ∨
      ∃ sequence request, reserved = .ok sequence ∧
        makePresenceRequest calendar floats snapshot sequence requestedLeaseSeconds
          client.makeRequestOptions requestId = .ok request ∧
        ∀ network reconcile,
          client.replacePresence calendar floats shortest parse snapshot requestedLeaseSeconds
              requestId reserved network reconcile =
            performWithSingleRetry calendar parse client .put "/companion/presence" requestId
              (encodeBody (request.document shortest)) network reconcile := by
  let mapped (sequence : UInt64) : Except WireError (PresenceRequestMeta × Json) :=
    (makePresenceRequest calendar floats snapshot sequence requestedLeaseSeconds
      client.makeRequestOptions requestId).map
      (fun request => (request.requestMeta, request.document shortest))
  have hdevice (sequence : UInt64) (requestMeta : PresenceRequestMeta) (body : Json)
      (h : mapped sequence = .ok (requestMeta, body)) :
      requestMeta.deviceId = client.credential.deviceId := by
    obtain ⟨request, hrequest, hpair⟩ := map_eq_ok h
    obtain ⟨rfl, rfl⟩ := Prod.mk.inj hpair
    exact makePresenceRequest_deviceId hrequest
  rcases @mutate_cases calendar parse client .put "/companion/presence" mapped reserved hdevice
    with hunsent | ⟨sequence, requestMeta, body, hreserved, hmapped, hperformed⟩
  · exact Or.inl hunsent
  · obtain ⟨request, hrequest, hpair⟩ := map_eq_ok hmapped
    obtain ⟨rfl, rfl⟩ := Prod.mk.inj hpair
    rw [makePresenceRequest_requestId hrequest] at hperformed
    exact Or.inr ⟨sequence, request, hreserved, hrequest, hperformed⟩

variable (calendar parse) in
theorem clearPresence_cases (client : PresenceClient) (reason : ClearReason) (observedAt : Int)
    (requestId : String) (reserved : Except SequencerError UInt64) :
    (∀ network reconcile, IsUnsent (client.clearPresence calendar parse reason observedAt requestId
        reserved network reconcile)) ∨
      ∃ sequence request, reserved = .ok sequence ∧
        makeClearRequest calendar reason sequence observedAt client.makeRequestOptions requestId =
          .ok request ∧
        ∀ network reconcile,
          client.clearPresence calendar parse reason observedAt requestId reserved network
              reconcile =
            performWithSingleRetry calendar parse client .post "/companion/presence/clear"
              request.requestMeta.requestId (encodeBody request.document) network reconcile := by
  let mapped (sequence : UInt64) : Except WireError (PresenceRequestMeta × Json) :=
    (makeClearRequest calendar reason sequence observedAt client.makeRequestOptions
      requestId).map (fun request => (request.requestMeta, request.document))
  have hdevice (sequence : UInt64) (requestMeta : PresenceRequestMeta) (body : Json)
      (h : mapped sequence = .ok (requestMeta, body)) :
      requestMeta.deviceId = client.credential.deviceId := by
    obtain ⟨request, hrequest, hpair⟩ := map_eq_ok h
    obtain ⟨rfl, rfl⟩ := Prod.mk.inj hpair
    exact makeClearRequest_deviceId hrequest
  rcases @mutate_cases calendar parse client .post "/companion/presence/clear" mapped reserved
    hdevice with hunsent | ⟨sequence, requestMeta, body, hreserved, hmapped, hperformed⟩
  · exact Or.inl hunsent
  · obtain ⟨request, hrequest, hpair⟩ := map_eq_ok hmapped
    obtain ⟨rfl, rfl⟩ := Prod.mk.inj hpair
    exact Or.inr ⟨sequence, request, hreserved, hrequest, hperformed⟩

end YohakuCore
