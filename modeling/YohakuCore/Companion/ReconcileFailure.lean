import YohakuCore.Companion.ReplacePresence

/-!
# A reconcile whose store fails

A store that fails ends the call with the error of the sequencer, whatever the server has said.
-/

namespace YohakuCore

open Framework

variable {calendar : Calendar} {floats : Floats} {shortest : ℚ≥0 → String}
  {parse : String → Option Json}

/-- One reconcile: what its load returns and whether its store succeeds come from the disk. -/
def CompanionSequencer.reconcile (sequencer : CompanionSequencer) (stored : Option Int)
    (storeSucceeds : Bool) (acceptedSequence : UInt64) : Except SequencerError Unit :=
  let op := SequencerOp.reconcile acceptedSequence
  if op.loads then
    match op.plan (currentNext sequencer.pairingNextSequence stored) with
    | .finish result => result.map (fun _ => ())
    | .store _ _ => if storeSucceeds then .ok () else .error .backing
  else .ok ()

/-- It has a store to make exactly when the accepted sequence is of the wire range and not behind
the current next value. -/
theorem CompanionSequencer.reconcile_eq_error {sequencer : CompanionSequencer}
    {stored : Option Int} {storeSucceeds : Bool} {acceptedSequence : UInt64}
    {error : SequencerError} :
    sequencer.reconcile stored storeSucceeds acceptedSequence = .error error ↔
      error = .backing ∧ storeSucceeds = false ∧ acceptedSequence < maximumSafeWireInteger ∧
        currentNext sequencer.pairingNextSequence stored ≤ acceptedSequence := by
  simp only [CompanionSequencer.reconcile]
  by_cases hloads : (SequencerOp.reconcile acceptedSequence).loads = true
  · have hlt : acceptedSequence < maximumSafeWireInteger := of_decide_eq_true hloads
    rw [if_pos hloads]
    cases hplan : (SequencerOp.reconcile acceptedSequence).plan
        (currentNext sequencer.pairingNextSequence stored) with
    | finish result =>
        cases result with
        | error failure =>
            simp only [SequencerOp.plan] at hplan
            split at hplan <;> simp at hplan
        | ok result =>
            obtain ⟨-, a, ha, hle⟩ := SequencerOp.plan_finish_ok hloads hplan
            obtain rfl := SequencerOp.reconcile.inj ha
            have hbehind : ¬ currentNext sequencer.pairingNextSequence stored ≤
                acceptedSequence := by
              rw [UInt64.le_iff_toNat_le]
              omega
            simp [Except.map, hbehind]
    | store next result =>
        obtain ⟨hgrows, -, hnext⟩ := SequencerOp.plan_store hloads hplan
        obtain ⟨a, ha, -, hvalue⟩ := hnext.resolve_left (by simp)
        obtain rfl := SequencerOp.reconcile.inj ha
        have hahead : currentNext sequencer.pairingNextSequence stored ≤ acceptedSequence := by
          rw [UInt64.le_iff_toNat_le]
          omega
        cases storeSucceeds <;> simp [hlt, hahead, eq_comm]
  · have hge : ¬ acceptedSequence < maximumSafeWireInteger := by
      simpa [SequencerOp.loads] using hloads
    simp [hloads, hge]

/-- What is returned for a report once its sequence is stored. -/
def settled : Except CompanionTransportError MutationResponse →
    Except PresenceClientError MutationResponse
  | .ok response => .ok response
  | .error error => .error (.transport error)

/-- A report that asks for the retry. -/
def asksForRetry : Except CompanionTransportError MutationResponse → Bool
  | .ok _ => false
  | .error error => isSafeForImmediateIdempotentRetry error

def reconcileReport (reconcile : UInt64 → Except SequencerError Unit)
    (report : Except CompanionTransportError MutationResponse) : Except SequencerError Unit :=
  match acceptedSequenceIn report with
  | some accepted => reconcile accepted
  | none => .ok ()

theorem concludeAnswer_eq (reconcile : UInt64 → Except SequencerError Unit)
    (report : Except CompanionTransportError MutationResponse) :
    concludeAnswer reconcile report =
      match reconcileReport reconcile report with
      | .ok () => settled report
      | .error failure => .error (.sequencer failure) := by
  cases report with
  | ok response =>
      cases h : reconcile response.acceptedSequence <;>
        simp [concludeAnswer, reconcileReport, acceptedSequenceIn, settled, h]
  | error error =>
      have hreconcile : reconcileReport reconcile (.error error) =
          reconcileFromError reconcile error := rfl
      rw [hreconcile]
      cases h : reconcileFromError reconcile error <;> simp [concludeAnswer, settled, h]

theorem isRetried_eq (reconcile : UInt64 → Except SequencerError Unit)
    (report : Except CompanionTransportError MutationResponse) :
    isRetried reconcile report =
      match reconcileReport reconcile report with
      | .ok () => asksForRetry report
      | .error _ => false := by
  cases report with
  | ok response => cases reconcileReport reconcile (.ok response) <;> rfl
  | error error => rfl

/-- How a result is acted on. -/
inductive Verdict where
  | success
  | renegotiation
  | failure
  deriving DecidableEq

def verdict : Except PresenceClientError MutationResponse → Verdict
  | .ok _ => .success
  | .error error => if error.needsRenegotiation then .renegotiation else .failure

/-- An accepted publish, a call for a negotiation, or a first refusal that asks for the retry. -/
def IsDecisive (first : Prop) (report : Except CompanionTransportError MutationResponse) : Prop :=
  verdict (settled report) ≠ .failure ∨ (first ∧ asksForRetry report = true)

/-- Two calls that are acted on alike, after as many attempts. -/
def SameVerdict (performed other : Performed) : Prop :=
  verdict performed.result = verdict other.result ∧
    performed.exchanges.length = other.exchanges.length

theorem IsUnsent.exchanges {performed : Performed} (h : IsUnsent performed) :
    performed.exchanges = [] := by
  rcases h with ⟨error, rfl⟩ | ⟨error, rfl⟩ <;> rfl

theorem IsUnsent.sameVerdict {performed other : Performed} (h : IsUnsent performed)
    (hother : IsUnsent other) : SameVerdict performed other := by
  rcases h with ⟨error, rfl⟩ | ⟨error, rfl⟩ <;>
    rcases hother with ⟨error, rfl⟩ | ⟨error, rfl⟩ <;> exact ⟨rfl, rfl⟩

/-- The reconcile of a report failed. -/
def IsUnsettled (reconcile : UInt64 → Except SequencerError Unit)
    (report : Except CompanionTransportError MutationResponse) : Prop :=
  ∃ failure, reconcileReport reconcile report = .error failure

section Reports

variable {reconcile : UInt64 → Except SequencerError Unit}
  {report : Except CompanionTransportError MutationResponse}

theorem concludeAnswer_settled (h : ¬ IsUnsettled reconcile report) :
    concludeAnswer reconcile report = settled report := by
  rw [concludeAnswer_eq]
  cases hreconcile : reconcileReport reconcile report with
  | ok => rfl
  | error failure => exact absurd ⟨failure, hreconcile⟩ h

theorem isRetried_settled (h : ¬ IsUnsettled reconcile report) :
    isRetried reconcile report = asksForRetry report := by
  rw [isRetried_eq]
  cases hreconcile : reconcileReport reconcile report with
  | ok => rfl
  | error failure => exact absurd ⟨failure, hreconcile⟩ h

theorem IsUnsettled.not_retried (h : IsUnsettled reconcile report) :
    isRetried reconcile report = false := by
  obtain ⟨failure, hreconcile⟩ := h
  rw [isRetried_eq, hreconcile]

theorem IsUnsettled.verdict (h : IsUnsettled reconcile report) :
    verdict (concludeAnswer reconcile report) = .failure := by
  obtain ⟨failure, hreconcile⟩ := h
  rw [concludeAnswer_eq, hreconcile]
  rfl

theorem not_isUnsettled_ok : ¬ IsUnsettled (fun _ => .ok ()) report := by
  rintro ⟨failure, h⟩
  rw [reconcileReport] at h
  split at h <;> simp at h

end Reports

theorem forall_single {α : Type*} {p : Nat → α → Prop} {a : α} :
    (∀ i b, [a][i]? = some b → p i b) ↔ p 0 a := by
  constructor
  · intro h
    exact h 0 a rfl
  · intro h i b hb
    cases i with
    | zero =>
        obtain rfl : a = b := by simpa using hb
        exact h
    | succ i => simp at hb

theorem forall_pair {α : Type*} {p : Nat → α → Prop} {a a' : α} :
    (∀ i b, [a, a'][i]? = some b → p i b) ↔ p 0 a ∧ p 1 a' := by
  constructor
  · intro h
    exact ⟨h 0 a rfl, h 1 a' rfl⟩
  · rintro ⟨hfirst, hsecond⟩ i b hb
    cases i with
    | zero =>
        obtain rfl : a = b := by simpa using hb
        exact hfirst
    | succ i =>
        rw [List.getElem?_cons_succ] at hb
        cases i with
        | zero =>
            obtain rfl : a' = b := by simpa using hb
            exact hsecond
        | succ i => simp at hb

theorem perform_sameVerdict_iff {client : PresenceClient} {method : HttpMethod}
    {path requestId : String} {body : List UInt8}
    (network : Nat → HttpRequest → Option HttpResponse)
    (reconcile : Nat → UInt64 → Except SequencerError Unit) :
    let run := performWithSingleRetry calendar parse client method path requestId body network
    let report := fun exchange : Exchange =>
      reportResponse calendar parse requestId exchange.response
    SameVerdict (run reconcile) (run (fun _ _ => .ok ())) ↔
      ∀ i exchange, (run reconcile).exchanges[i]? = some exchange →
        IsUnsettled (reconcile i) (report exchange) →
        ¬ IsDecisive (i = 0) (report exchange) := by
  intro run report
  cases hcap : (client.attemptOptions method path requestId body).overCap with
  | some error =>
      have hunsent (reconcile : Nat → UInt64 → Except SequencerError Unit) :
          run reconcile = ⟨[], .error (.transport error)⟩ := perform_refused network reconcile hcap
      simp [hunsent, SameVerdict]
  | none =>
      let request := (client.attemptOptions method path requestId body).request
      let first := reportResponse calendar parse requestId (network 0 request)
      let second := reportResponse calendar parse requestId (network 1 request)
      have hrun : run reconcile =
          if isRetried (reconcile 0) first then
            ⟨[⟨request, network 0 request⟩, ⟨request, network 1 request⟩],
              concludeAnswer (reconcile 1) second⟩
          else ⟨[⟨request, network 0 request⟩], concludeAnswer (reconcile 0) first⟩ :=
        perform_eq network reconcile hcap
      have hideal : run (fun _ _ => .ok ()) =
          if asksForRetry first then
            ⟨[⟨request, network 0 request⟩, ⟨request, network 1 request⟩], settled second⟩
          else ⟨[⟨request, network 0 request⟩], settled first⟩ := by
        rw [← isRetried_settled not_isUnsettled_ok, ← concludeAnswer_settled not_isUnsettled_ok,
          ← concludeAnswer_settled not_isUnsettled_ok]
        exact perform_eq network (fun _ _ => .ok ()) hcap
      by_cases hlost : IsUnsettled (reconcile 0) first
      · rw [hrun, hlost.not_retried, hideal]
        simp only [Bool.false_eq_true, if_false]
        rw [forall_single]
        have hreport : report ⟨request, network 0 request⟩ = first := rfl
        rw [hreport]
        cases hasks : asksForRetry first with
        | true => simp [SameVerdict, IsDecisive, hlost, hasks]
        | false =>
            simp only [SameVerdict, IsDecisive, hlost, hlost.verdict, hasks]
            simp [eq_comm]
      · rw [hrun, isRetried_settled hlost, hideal, concludeAnswer_settled hlost]
        cases asksForRetry first with
        | false =>
            simp only [Bool.false_eq_true, if_false]
            rw [forall_single]
            exact ⟨fun _ hunsettled => absurd hunsettled hlost, fun _ => ⟨rfl, rfl⟩⟩
        | true =>
            simp only [if_true]
            rw [forall_pair]
            have hfirst : report ⟨request, network 0 request⟩ = first := rfl
            have hsecond : report ⟨request, network 1 request⟩ = second := rfl
            rw [hfirst, hsecond]
            by_cases hlast : IsUnsettled (reconcile 1) second
            · simp only [SameVerdict, IsDecisive, hlost, hlast, hlast.verdict]
              simpa using eq_comm
            · simp [SameVerdict, hlost, hlast, concludeAnswer_settled hlast]

/-- Nothing is sent after a reconcile that failed. -/
theorem perform_unsettled {client : PresenceClient} {method : HttpMethod}
    {path requestId : String} {body : List UInt8}
    {network : Nat → HttpRequest → Option HttpResponse}
    {reconcile : Nat → UInt64 → Except SequencerError Unit} {i : Nat} {exchange : Exchange}
    (hexchange : (performWithSingleRetry calendar parse client method path requestId body network
      reconcile).exchanges[i]? = some exchange) {failure : SequencerError}
    (h : reconcileReport (reconcile i) (reportResponse calendar parse requestId
      exchange.response) = .error failure) :
    let performed := performWithSingleRetry calendar parse client method path requestId body
      network reconcile
    performed.exchanges.length = i + 1 ∧ performed.result = .error (.sequencer failure) := by
  cases hcap : (client.attemptOptions method path requestId body).overCap with
  | some error => simp [perform_refused network reconcile hcap] at hexchange
  | none =>
      rw [perform_eq network reconcile hcap] at hexchange ⊢
      simp only at hexchange ⊢
      split at hexchange
      · rename_i hretried
        rw [if_pos hretried]
        cases i with
        | zero =>
            obtain rfl : _ = exchange := by simpa using hexchange
            simp [IsUnsettled.not_retried ⟨failure, h⟩] at hretried
        | succ i =>
            cases i with
            | zero =>
                obtain rfl : _ = exchange := by simpa using hexchange
                simp [concludeAnswer_eq, h]
            | succ i => simp at hexchange
      · rename_i hsingle
        rw [if_neg hsingle]
        cases i with
        | zero =>
            obtain rfl : _ = exchange := by simpa using hexchange
            simp [concludeAnswer_eq, h]
        | succ i => simp at hexchange

/-- A call whose reconciles load and store as the disk lets them. -/
def PresenceClient.replaceOnDisk (calendar : Calendar) (floats : Floats)
    (shortest : ℚ≥0 → String) (parse : String → Option Json) (client : PresenceClient)
    (snapshot : SanitizedPresenceSnapshot) (requestedLeaseSeconds : F64) (requestId : String)
    (reserved : Except SequencerError UInt64)
    (network : Nat → HttpRequest → Option HttpResponse) (stored : Nat → Option Int)
    (stores : Nat → Bool) : Performed :=
  client.replacePresence calendar floats shortest parse snapshot requestedLeaseSeconds requestId
    reserved network (fun i => client.sequencer.reconcile (stored i) (stores i))

/-- The store that a report leads to was needed, and it failed. -/
def StoreFailed (client : PresenceClient) (stored : Option Int) (storeSucceeds : Bool)
    (report : Except CompanionTransportError MutationResponse) : Prop :=
  storeSucceeds = false ∧ ∃ accepted, acceptedSequenceIn report = some accepted ∧
    accepted < maximumSafeWireInteger ∧
    currentNext client.sequencer.pairingNextSequence stored ≤ accepted

theorem StoreFailed.backing {client : PresenceClient} {stored : Option Int}
    {storeSucceeds : Bool} {report : Except CompanionTransportError MutationResponse}
    (h : StoreFailed client stored storeSucceeds report) :
    reconcileReport (client.sequencer.reconcile stored storeSucceeds) report =
      .error .backing := by
  obtain ⟨hfails, accepted, hreported, hlt, hahead⟩ := h
  rw [reconcileReport, hreported]
  exact CompanionSequencer.reconcile_eq_error.mpr ⟨rfl, hfails, hlt, hahead⟩

theorem isUnsettled_iff {client : PresenceClient} {stored : Option Int} {storeSucceeds : Bool}
    {report : Except CompanionTransportError MutationResponse} :
    IsUnsettled (client.sequencer.reconcile stored storeSucceeds) report ↔
      StoreFailed client stored storeSucceeds report := by
  simp only [IsUnsettled, StoreFailed, reconcileReport]
  cases acceptedSequenceIn report with
  | none => simp
  | some accepted => simp [CompanionSequencer.reconcile_eq_error]

theorem reconcile_of_stores (sequencer : CompanionSequencer) (stored : Option Int) :
    sequencer.reconcile stored true = fun _ => .ok () := by
  funext accepted
  cases h : sequencer.reconcile stored true accepted with
  | ok => rfl
  | error error =>
      have hfails := CompanionSequencer.reconcile_eq_error.mp h
      simp at hfails

/-- A call is acted on as if its stores had succeeded, after as many attempts, exactly when no store
fails after a decisive answer. -/
theorem store_failure_keeps_verdict_iff (client : PresenceClient)
    (snapshot : SanitizedPresenceSnapshot) (requestedLeaseSeconds : F64) (requestId : String)
    (reserved : Except SequencerError UInt64)
    (network : Nat → HttpRequest → Option HttpResponse) (stored : Nat → Option Int)
    (stores : Nat → Bool) :
    let run := client.replaceOnDisk calendar floats shortest parse snapshot requestedLeaseSeconds
      requestId reserved network stored
    let report := fun exchange : Exchange =>
      reportResponse calendar parse requestId exchange.response
    (SameVerdict (run stores) (run (fun _ => true)) ↔
      ∀ i exchange, (run stores).exchanges[i]? = some exchange →
        StoreFailed client (stored i) (stores i) (report exchange) →
        ¬ IsDecisive (i = 0) (report exchange)) ∧
    ∀ i exchange, (run stores).exchanges[i]? = some exchange →
      StoreFailed client (stored i) (stores i) (report exchange) →
      (run stores).exchanges.length = i + 1 ∧
        (run stores).result = .error (.sequencer .backing) := by
  intro run report
  have hideal : run (fun _ => true) = client.replacePresence calendar floats shortest parse snapshot
      requestedLeaseSeconds requestId reserved network (fun _ _ => .ok ()) := by
    simp only [run, PresenceClient.replaceOnDisk, reconcile_of_stores]
  rcases replacePresence_cases calendar floats shortest parse client snapshot
    requestedLeaseSeconds requestId reserved with hunsent | ⟨sequence, request, -, -, hperformed⟩
  · have hfailing : IsUnsent (run stores) := hunsent _ _
    have hstoring : IsUnsent (run (fun _ => true)) := hunsent _ _
    simp [hfailing.exchanges, hfailing.sameVerdict hstoring]
  · have hrun : run stores = performWithSingleRetry calendar parse client .put
        "/companion/presence" requestId (encodeBody (request.document shortest)) network
        (fun i => client.sequencer.reconcile (stored i) (stores i)) := hperformed _ _
    rw [hideal, hperformed, hrun]
    constructor
    · have hsame := @perform_sameVerdict_iff calendar parse client .put "/companion/presence"
        requestId (encodeBody (request.document shortest)) network
        (fun i => client.sequencer.reconcile (stored i) (stores i))
      simpa only [isUnsettled_iff] using hsame
    · intro i exchange hexchange hfailed
      exact perform_unsettled hexchange hfailed.backing

def answerMeta : Json :=
  .object [("schema", .string presenceSchema), ("schemaVersion", u64Json presenceSchemaVersion),
    ("requestId", .string "11111111-0000-4000-8000-000000000000"),
    ("serverTime", .string "1970-01-01T00:00:00.000Z")]

/-- The error envelope of our own request, ahead of our sequence. -/
def refusal (code : String) (retryable : Bool) : Json :=
  .object [("meta", answerMeta),
    ("error", .object [("code", .string code), ("message", .string ""),
      ("retryable", .bool retryable), ("retryAfterMs", .null), ("acceptedSequence", u64Json 41),
      ("fields", .array [])])]

def acceptance : Json :=
  .object [("meta", answerMeta),
    ("data", .object [("acceptedSequence", u64Json 41),
      ("receivedAt", .string "1970-01-01T00:00:00.000Z"),
      ("state", .object [("schemaVersion", u64Json presenceSchemaVersion),
        ("epoch", .string "11111111-0000-4000-8000-000000000000"), ("revision", u64Json 0),
        ("projection", .null)])])]

/-- A call whose every attempt meets this answer. -/
def answeredWith (status : Nat) (answer : Json) (storeSucceeds : Bool) : Performed :=
  pairedClient.replaceOnDisk .epoch .integral (fun _ => "") (fun _ => some answer)
    ⟨0, none, none⟩ (.finite 90) "11111111-0000-4000-8000-000000000000" (.ok 7)
    (fun _ _ => some ⟨status, [0x7B, 0x7D]⟩) (fun _ => some 8) (fun _ => storeSucceeds)

/-- A failed store hides a call for a negotiation, suppresses the retry, and turns an accepted
publish into a failure. -/
theorem store_failure_changes_verdict :
    (verdict (answeredWith 409 (refusal "COMPANION_SCHEMA_UNSUPPORTED" false) true).result =
        .renegotiation ∧
      verdict (answeredWith 409 (refusal "COMPANION_SCHEMA_UNSUPPORTED" false) false).result =
        .failure) ∧
    ((answeredWith 503 (refusal "UNAVAILABLE" true) true).exchanges.length = 2 ∧
      (answeredWith 503 (refusal "UNAVAILABLE" true) false).exchanges.length = 1) ∧
    verdict (answeredWith 200 acceptance true).result = .success ∧
      verdict (answeredWith 200 acceptance false).result = .failure := by
  decide +kernel

end YohakuCore
