import YohakuCore.Companion.ReconcileFailure
import YohakuCore.Companion.WriteOrder

/-! # Where a stored sequence comes from -/

namespace YohakuCore

open Framework

/-- The response answers the request with this id, and it carries this accepted sequence. -/
def IsOwnAnswer (calendar : Calendar) (parse : String → Option Json) (requestId : String)
    (response : HttpResponse) (accepted : UInt64) : Prop :=
  ∃ json, parse (Utf8.lossy response.body) = some json ∧
    echoedRequestId json = some requestId ∧
    (isSuccessStatus response.status = true ∧
        decodeMutationResponse calendar json = some ⟨accepted⟩ ∨
      isSuccessStatus response.status = false ∧
        ∃ error, decodeErrorEnvelope calendar json = some error ∧
          error.acceptedSequence = some accepted)

section Report

variable {calendar : Calendar} {parse : String → Option Json}

theorem readResponse_ownAnswer {requestId : String} {response : HttpResponse} {accepted : UInt64}
    (h : acceptedSequenceIn (readResponse calendar parse (decodeMutationResponse calendar)
      (some requestId) response) = some accepted) :
    IsOwnAnswer calendar parse requestId response accepted := by
  have hreading := @readResponse_reading calendar parse _ (decodeMutationResponse calendar)
    (some requestId) response
  generalize readResponse calendar parse (decodeMutationResponse calendar) (some requestId)
    response = report at h hreading
  cases hreading with
  | empty hbody => simp [acceptedSequenceIn, acceptedSequenceOf] at h
  | notJson hbody htext =>
      split at h <;> simp [acceptedSequenceIn, acceptedSequenceOf] at h
  | undecoded json hbody htext hsuccess hschema =>
      simp [acceptedSequenceIn, acceptedSequenceOf] at h
  | accepted json parsed hbody htext hsuccess hdecoded hecho =>
      obtain rfl : parsed.acceptedSequence = accepted := by
        simpa [acceptedSequenceIn] using h
      exact ⟨json, htext, checkRequestIdEcho_eq_ok.mp hecho, Or.inl ⟨hsuccess, hdecoded⟩⟩
  | foreign json hbody htext henvelope hecho =>
      simp [acceptedSequenceIn, acceptedSequenceOf] at h
  | refused json error hbody htext hfailure henvelope hecho =>
      have haccepted : error.acceptedSequence = some accepted := by
        simpa [acceptedSequenceIn, acceptedSequenceOf] using h
      exact ⟨json, htext, checkRequestIdEcho_eq_ok.mp hecho,
        Or.inr ⟨hfailure, error, henvelope, haccepted⟩⟩
  | bare json hbody htext hfailure henvelope =>
      split at h <;> simp [acceptedSequenceIn, acceptedSequenceOf] at h

theorem execute_ownAnswer {options : ExecuteOptions} (requestId : String)
    (hexpected : options.expectedRequestId = some requestId) {answer : Option HttpResponse}
    {accepted : UInt64} (h : acceptedSequenceIn (execute calendar parse options
      (decodeMutationResponse calendar) (fun _ => answer)).answer = some accepted) :
    ∃ response, answer = some response ∧
      IsOwnAnswer calendar parse requestId response accepted := by
  cases hcap : options.overCap with
  | some error =>
      obtain ⟨actual, limit, rfl⟩ := overCap_payloadTooLarge hcap
      simp [execute_overCap hcap, acceptedSequenceIn, acceptedSequenceOf] at h
  | none =>
      cases answer with
      | none => simp [execute, hcap, acceptedSequenceIn, acceptedSequenceOf] at h
      | some response =>
          rw [execute_answered hcap rfl, hexpected] at h
          exact ⟨response, rfl, readResponse_ownAnswer h⟩

end Report

/-- A reconcile under way was under way before, for the same sequence, or an answer has led to
it. -/
theorem CallMove.reconciling {codec : WireCodec}
    {client : PresenceClient} {request : MutationRequest} {m m' : Mutation} {d d' : Delivery}
    {entries : List TraceEntry} (h : CallMove codec client request m d m' d' entries)
    {retry : Bool} {answer : Except CompanionTransportError MutationResponse}
    {accepted : UInt64} {stage : OperationStage}
    (hm' : m'.stage = .reconciling retry answer accepted stage) :
    (∃ stage, m.stage = .reconciling retry answer accepted stage ∧ d' = d) ∨
      ∃ retry, m.stage = .sending retry := by
  have hwithin {m : Mutation} {op : SequencerOp} {o o' : OperationStage}
      (hoperation : m.stage.operation = some (op, o))
      (h : m.stage.withOperation o' = .reconciling retry answer accepted stage) :
      ∃ stage, m.stage = .reconciling retry answer accepted stage := by
    rcases operation_cases hoperation with
      ⟨-, hstage⟩ | ⟨retry', answer', accepted', -, hstage⟩
    · simp [hstage, MutationStage.withOperation] at h
    · simp only [hstage, MutationStage.withOperation, MutationStage.reconciling.injEq] at h
      obtain ⟨rfl, rfl, rfl, -⟩ := h
      exact ⟨_, hstage⟩
  have hdone {m : Mutation} {op : SequencerOp} {o : OperationStage}
      (hoperation : m.stage.operation = some (op, o))
      (result : Except SequencerError (Option UInt64)) :
      (m.operationDone result).stage ≠ .reconciling retry answer accepted stage := by
    intro h
    have hnone := Writer.operationDone_operation hoperation result
    rw [h] at hnone
    contradiction
  cases h with
  | begun sequence d => contradiction
  | enqueued m d op hoperation =>
      obtain ⟨stage, hstage⟩ := hwithin hoperation hm'
      exact Or.inl ⟨stage, hstage, rfl⟩
  | loaded m d op current next result hoperation hplan =>
      obtain ⟨stage, hstage⟩ := hwithin hoperation hm'
      exact Or.inl ⟨stage, hstage, rfl⟩
  | finished m d op result hoperation hrefused => exact absurd hm' (hdone hoperation _)
  | stored m d op current next result hoperation => exact absurd hm' (hdone hoperation _)
  | failed m d op current next result hoperation => exact absurd hm' (hdone hoperation _)
  | mapped sequence d requestId body hencodes => contradiction
  | unmapped sequence d error => contradiction
  | sent retry sequence requestId body => contradiction
  | answered retry sequence encoded inFlight answer stage hnext => exact Or.inr ⟨retry, rfl⟩

/-- A turn of a mutation of the client, or a write to the file by anyone else. -/
inductive SharedEvent where
  | turn (e : OrderedEvent)
  | write (backing : String → Option Int)

namespace OrderedWriter

variable (codec : WireCodec) (client : PresenceClient) (requests : List MutationRequest)

def sharedStep (s : OrderedWriter) : SharedEvent → Option OrderedWriter
  | .turn e => s.step codec client requests e
  | .write backing => some { s with writer := { s.writer with backing := backing } }

/-- An earlier answer to the mutation carries this accepted sequence. -/
def Attributed (es : List SharedEvent) (s : OrderedWriter) (id : Nat) (accepted : UInt64) :
    Prop :=
  ∃ requestId body outcome response, (s.deliveries id).encoded = some (requestId, body) ∧
    .turn ⟨.answer, id, outcome⟩ ∈ es ∧ outcome.response = some response ∧
    IsOwnAnswer codec.calendar codec.parse requestId response accepted

/-- What a store is about to write was planned. -/
def Planned (w : Writer) : Prop :=
  ∀ id m op current next result, w.mutations id = some m →
    m.stage.operation = some (op, .storing current next result) →
    op.loads = true ∧ op.plan current = .store next result

/-- What a mutation reconciles was answered to it. -/
structure AnswersInv (es : List SharedEvent) (s : OrderedWriter) : Prop where
  planned : Planned s.writer
  attributed : ∀ id retry answer accepted stage sequence,
    s.writer.mutations id = some ⟨.reconciling retry answer accepted stage, sequence⟩ →
    Attributed codec es s id accepted

variable {codec client requests}

theorem answersInv_new (backing : String → Option Int) :
    AnswersInv codec [] (new backing) where
  planned id m op current next result hm := by simp [new, Writer.new] at hm
  attributed id retry answer accepted stage sequence hm := by simp [new, Writer.new] at hm

theorem afterAnswer_ne_reconciling {retry retry' : Bool}
    {answer answer' : Except CompanionTransportError MutationResponse} {accepted : UInt64}
    {stage : OperationStage} :
    afterAnswer retry answer ≠ .reconciling retry' answer' accepted stage := by
  intro h
  rcases afterAnswer_cases retry answer with ⟨-, hafter⟩ | ⟨result, hafter⟩ <;>
    simp [hafter] at h

theorem writer_answer_reconciles {calls : List PresenceCall} {w w' : Writer} {id : Nat}
    {answer answer' : Except CompanionTransportError MutationResponse} {retry : Bool}
    {accepted : UInt64} {stage : OperationStage} {sequence : Option UInt64}
    (h : w.answer calls id answer = some w')
    (hm : w'.mutations id = some ⟨.reconciling retry answer' accepted stage, sequence⟩) :
    acceptedSequenceIn answer = some accepted := by
  rw [Writer.answer] at h
  split at h
  · split at h
    · rename_i accepted' haccepted
      obtain rfl := Option.some.inj h
      simp only [Writer.update, Function.update_self, Option.some.injEq, Mutation.mk.injEq,
        MutationStage.reconciling.injEq] at hm
      rw [haccepted, hm.1.2.2.1]
    · obtain rfl := Option.some.inj h
      simp only [Writer.update, Function.update_self, Option.some.injEq,
        Mutation.mk.injEq] at hm
      exact absurd hm.1 afterAnswer_ne_reconciling
  · contradiction

theorem answer_reconciles {s s' : OrderedWriter} {id : Nat} {outcome : Outcome} {retry : Bool}
    {answer : Except CompanionTransportError MutationResponse} {accepted : UInt64}
    {stage : OperationStage} {sequence : Option UInt64}
    (h : s.answer codec client requests id outcome = some s')
    (hm : s'.writer.mutations id =
      some ⟨.reconciling retry answer accepted stage, sequence⟩) :
    ∃ requestId body response, (s.deliveries id).encoded = some (requestId, body) ∧
      (s'.deliveries id).encoded = some (requestId, body) ∧
      outcome.response = some response ∧
      IsOwnAnswer codec.calendar codec.parse requestId response accepted := by
  rw [OrderedWriter.answer] at h
  split at h
  · rename_i request requestId body inFlight hrequest hdelivery
    dsimp only at h
    split at h
    · obtain ⟨w', hw', rfl⟩ := Option.map_eq_some_iff.mp h
      have haccepted := writer_answer_reconciles hw' hm
      obtain ⟨response, hresponse, hown⟩ := execute_ownAnswer requestId rfl haccepted
      refine ⟨requestId, body, response, by simp [hdelivery], ?_, hresponse, hown⟩
      simp [moved]
    · contradiction
  · contradiction

theorem reconciles_of_sending {s s' : OrderedWriter} {e : OrderedEvent} {retry retry' : Bool}
    {answer : Except CompanionTransportError MutationResponse} {accepted : UInt64}
    {stage : OperationStage} {sequence sequence' : Option UInt64}
    (h : s.step codec client requests e = some s')
    (hsending : s.writer.mutations e.id = some ⟨.sending retry, sequence⟩)
    (hm : s'.writer.mutations e.id =
      some ⟨.reconciling retry' answer accepted stage, sequence'⟩) :
    e.turn = .answer ∧ s.answer codec client requests e.id e.outcome = some s' := by
  cases hturn : e.turn with
  | answer => exact ⟨rfl, by simpa only [step, hturn] using h⟩
  | arrive =>
      simp only [step, hturn] at h
      obtain ⟨w', hw', -⟩ := Option.map_eq_some_iff.mp h
      simp [Writer.arrive, hsending] at hw'
  | begin =>
      simp only [step, hturn] at h
      obtain ⟨w', hw', -⟩ := Option.map_eq_some_iff.mp h
      simp [Writer.begin, hsending] at hw'
  | enqueue =>
      simp only [step, hturn] at h
      obtain ⟨w', hw', -⟩ := Option.map_eq_some_iff.mp h
      cases hcall : (calls client requests)[e.id]? <;>
        simp [Writer.enqueue, hcall, hsending, MutationStage.operation] at hw'
  | load =>
      simp only [step, hturn] at h
      obtain ⟨w', hw', -⟩ := Option.map_eq_some_iff.mp h
      cases hcall : (calls client requests)[e.id]? <;>
        simp [Writer.load, hcall, hsending, MutationStage.operation] at hw'
  | store =>
      simp only [step, hturn, store] at h
      obtain ⟨w', hw', -⟩ := Option.map_eq_some_iff.mp h
      cases hcall : (calls client requests)[e.id]? <;>
        simp [Writer.store, hcall, hsending, MutationStage.operation] at hw'
  | map =>
      simp only [step, hturn] at h
      cases hrequest : requests[e.id]? <;> simp [OrderedWriter.map, hrequest, hsending] at h
  | send =>
      simp only [step, hturn] at h
      rw [OrderedWriter.send] at h
      split at h
      · dsimp only at h
        split at h
        · obtain rfl := Option.some.inj h
          simp [moved, hsending] at hm
        · contradiction
      · contradiction

theorem Planned.step {calls : List PresenceCall} {w w' : Writer} {we : WriterEvent}
    (h : Planned w) (hstep : w.step calls we = some w') : Planned w' := by
  intro id m op current next result hm hoperation
  cases Writer.step_moved hstep with
  | remove deviceId hsame hremoved => exact h id m op current next result (hsame ▸ hm) hoperation
  | quiet we id' call m' hcall hmove hquiet =>
      rw [hmove] at hm
      by_cases hid : id = id'
      · subst hid
        obtain rfl : m' = m := by simpa using hm
        obtain ⟨hloads, hplan, -⟩ := hquiet.loaded op current next result hoperation
        exact ⟨hloads, hplan⟩
      · rw [Function.update_of_ne hid] at hm
        exact h id m op current next result hm hoperation
  | store id' call m' op' current' next' result' hcall hmove hstored =>
      rw [hmove] at hm
      by_cases hid : id = id'
      · subst hid
        obtain rfl : m' = m := by simpa using hm
        rw [hstored.done] at hoperation
        contradiction
      · rw [Function.update_of_ne hid] at hm
        exact h id m op current next result hm hoperation

theorem Moves.writer {s s' : OrderedWriter} {e : OrderedEvent}
    (h : Moves codec client requests s s' e) :
    s'.writer = s.writer ∨ ∃ we, s.writer.step (calls client requests) we = some s'.writer := by
  cases h with
  | arrives request hturn hcalled hfresh hwrites hmutations hresult =>
      exact Or.inr ⟨_, hwrites⟩
  | takes request m m' d' entries hturn hcalled hunder hmove hwrites hmutations hresult =>
      rcases hwrites with hsame | ⟨we, -, hstep⟩
      · exact Or.inl hsame
      · exact Or.inr ⟨we, hstep⟩

theorem Attributed.grow {es : List SharedEvent} {s s' : OrderedWriter} {id : Nat}
    {accepted : UInt64} (h : Attributed codec es s id accepted)
    (hdelivery : s'.deliveries id = s.deliveries id) (e : SharedEvent) :
    Attributed codec (es ++ [e]) s' id accepted := by
  obtain ⟨requestId, body, outcome, response, hencoded, hevent, hresponse, hown⟩ := h
  exact ⟨requestId, body, outcome, response, hdelivery ▸ hencoded,
    List.mem_append_left _ hevent, hresponse, hown⟩

theorem AnswersInv.turn {es : List SharedEvent} {s s' : OrderedWriter} {e : OrderedEvent}
    (h : AnswersInv codec es s) (hstep : s.step codec client requests e = some s') :
    AnswersInv codec (es ++ [.turn e]) s' := by
  have hmoves := step_moves hstep
  constructor
  · rcases hmoves.writer with hsame | ⟨we, hwriter⟩
    · rw [hsame]
      exact h.planned
    · exact h.planned.step hwriter
  · intro id retry answer accepted stage sequence hm
    by_cases hid : id = e.id
    · subst hid
      cases hmoves with
      | arrives request hturn hcalled hfresh hwrites hmutations hresult =>
          simp [hmutations] at hm
      | takes request m m' d' entries hturn hcalled hunder hmove hwrites hmutations hresult =>
          have hm' : m' = ⟨.reconciling retry answer accepted stage, sequence⟩ := by
            simpa [hmutations] using hm
          rcases hmove.reconciling (by rw [hm']) with ⟨stage', hstage, rfl⟩ | ⟨retry', hsending⟩
          · have hold := h.attributed e.id retry answer accepted stage' m.sequence
              (by rw [hunder, ← hstage])
            refine hold.grow ?_ _
            rw [hresult]
            simp [moved]
          · obtain ⟨hanswer, hstep⟩ := reconciles_of_sending hstep
              (by rw [hunder, ← hsending]) hm
            obtain ⟨requestId, body, response, -, hencoded, hresponse, hown⟩ :=
              answer_reconciles hstep hm
            refine ⟨requestId, body, e.outcome, response, hencoded, ?_, hresponse, hown⟩
            rw [← hanswer]
            exact List.mem_append_right _ (List.mem_singleton.mpr rfl)
    · have hdelivery : s'.deliveries id = s.deliveries id := by
        cases hmoves with
        | arrives request hturn hcalled hfresh hwrites hmutations hresult =>
            rw [hresult, deliveries_moved, Function.update_of_ne hid]
        | takes request m m' d' entries hturn hcalled hunder hmove hwrites hmutations hresult =>
            rw [hresult, deliveries_moved, Function.update_of_ne hid]
      rw [hmoves.others hid] at hm
      exact (h.attributed id retry answer accepted stage sequence hm).grow hdelivery _

theorem AnswersInv.write {es : List SharedEvent} {s : OrderedWriter} (h : AnswersInv codec es s)
    (backing : String → Option Int) : AnswersInv codec (es ++ [.write backing])
      { s with writer := { s.writer with backing := backing } } := by
  constructor
  · exact h.planned
  · intro id retry answer accepted stage sequence hm
    exact (h.attributed id retry answer accepted stage sequence hm).grow rfl _

theorem answersInv_run {backing : String → Option Int} {es : List SharedEvent}
    {s : OrderedWriter}
    (hrun : exec (sharedStep codec client requests) (new backing) es = some s) :
    AnswersInv codec es s := by
  refine exec_induction (answersInv_new backing) ?_ hrun
  intro es s₁ e s₂ _ hinv hstep
  cases e with
  | turn e => exact hinv.turn hstep
  | write backing =>
      obtain rfl := Option.some.inj hstep
      exact hinv.write backing

theorem writer_step_backing {calls : List PresenceCall} {w w' : Writer} (we : WriterEvent)
    (h : w.step calls we = some w') (hstore : ∀ id succeeds, we ≠ .store id succeeds)
    (hremove : ∀ deviceId, we ≠ .remove deviceId) : w'.backing = w.backing := by
  cases Writer.step_moved h with
  | remove deviceId hsame hremoved => exact absurd rfl (hremove deviceId)
  | quiet we id call m' hcall hmove hquiet => exact hquiet.backing
  | store id call m' op current next result hcall hmove hstored =>
      exact absurd rfl (hstore id true)

/-- Only a store turn writes to the file. -/
theorem backing_of_turn {s s' : OrderedWriter} {e : OrderedEvent}
    (h : s.step codec client requests e = some s') (hturn : e.turn ≠ .store) :
    s'.writer.backing = s.writer.backing := by
  cases hturn' : e.turn with
  | store => exact absurd hturn' hturn
  | arrive =>
      simp only [step, hturn'] at h
      obtain ⟨w', hw', rfl⟩ := Option.map_eq_some_iff.mp h
      exact writer_step_backing (.arrive e.id) hw' (by simp) (by simp)
  | begin =>
      simp only [step, hturn'] at h
      obtain ⟨w', hw', rfl⟩ := Option.map_eq_some_iff.mp h
      exact writer_step_backing (.begin e.id) hw' (by simp) (by simp)
  | enqueue =>
      simp only [step, hturn'] at h
      obtain ⟨w', hw', rfl⟩ := Option.map_eq_some_iff.mp h
      exact writer_step_backing (.enqueue e.id) hw' (by simp) (by simp)
  | load =>
      simp only [step, hturn'] at h
      obtain ⟨w', hw', rfl⟩ := Option.map_eq_some_iff.mp h
      exact writer_step_backing (.load e.id) hw' (by simp) (by simp)
  | map =>
      simp only [step, hturn'] at h
      rw [OrderedWriter.map] at h
      split at h
      · split at h
        · obtain ⟨w', hw', rfl⟩ := Option.map_eq_some_iff.mp h
          exact writer_step_backing (.map e.id none) hw' (by simp) (by simp)
        · rename_i error hencode
          obtain ⟨w', hw', rfl⟩ := Option.map_eq_some_iff.mp h
          exact writer_step_backing (.map e.id (some error)) hw' (by simp) (by simp)
      · contradiction
  | send =>
      simp only [step, hturn'] at h
      rw [OrderedWriter.send] at h
      split at h
      · dsimp only at h
        split at h
        · obtain rfl := Option.some.inj h
          rfl
        · contradiction
      · contradiction
  | answer =>
      simp only [step, hturn'] at h
      rw [OrderedWriter.answer] at h
      split at h
      · dsimp only at h
        split at h
        · obtain ⟨w', hw', rfl⟩ := Option.map_eq_some_iff.mp h
          exact writer_step_backing (.answer e.id _) hw' (by simp) (by simp)
        · contradiction
      · contradiction

theorem store_writes {es : List SharedEvent} {s s' : OrderedWriter} {e : OrderedEvent}
    (hinv : AnswersInv codec es s)
    (h : s.store client requests e.id e.outcome = some s') {deviceId : String}
    (hchange : s'.writer.backing deviceId ≠ s.writer.backing deviceId) :
    deviceId = client.sequencer.deviceId ∧ e.outcome.storeSucceeds = true ∧
      ∃ m current next, s.writer.mutations e.id = some m ∧
        s'.writer.backing deviceId = some (next.toNat : Int) ∧
        (m.stage = .reserving (.storing current next (some current)) ∧
            next.toNat = current.toNat + 1 ∨
          ∃ retry answer accepted,
            m.stage = .reconciling retry answer accepted (.storing current next none) ∧
            next.toNat = accepted.toNat + 1 ∧ Attributed codec es s e.id accepted) := by
  obtain ⟨w', hw', rfl⟩ := Option.map_eq_some_iff.mp h
  have hstep : s.writer.step (calls client requests) (.store e.id e.outcome.storeSucceeds) =
      some w' := hw'
  have hchanged : w'.backing deviceId ≠ s.writer.backing deviceId := hchange
  generalize hsucceeds : e.outcome.storeSucceeds = succeeds at hstep
  cases Writer.step_moved hstep with
  | quiet we id call m' hcall hmove hquiet =>
      rw [hquiet.backing] at hchanged
      exact absurd rfl hchanged
  | store id call m' op current next result hcall hmove hstored =>
      obtain ⟨m, hm, hoperation, -⟩ := hstored.storing
      have hclient := client_of_calls hcall
      rw [hstored.backing, hclient] at hchanged
      have hdevice : deviceId = client.sequencer.deviceId := by
        by_contra hne
        exact hchanged (Function.update_of_ne hne _ _)
      have hbacking : w'.backing deviceId = some (next.toNat : Int) := by
        rw [hstored.backing, hclient, hdevice, Function.update_self]
      obtain ⟨hloads, hplan⟩ := hinv.planned e.id m op current next result hm hoperation
      obtain ⟨-, -, hnext⟩ := SequencerOp.plan_store hloads hplan
      refine ⟨hdevice, rfl, m, current, next, hm, hbacking, ?_⟩
      rcases operation_cases hoperation with
        ⟨hop, hstage⟩ | ⟨retry, answer, accepted, hop, hstage⟩
      · left
        rcases hnext with ⟨-, hresult, hvalue⟩ | ⟨a, ha, -, -⟩
        · exact ⟨hresult ▸ hstage, hvalue⟩
        · simp [hop] at ha
      · right
        rcases hnext with ⟨hreserve, -, -⟩ | ⟨a, ha, hresult, hvalue⟩
        · simp [hop] at hreserve
        · obtain rfl : accepted = a := by simpa [hop] using ha
          exact ⟨retry, answer, accepted, hresult ▸ hstage, hvalue,
            hinv.attributed e.id retry answer accepted _ m.sequence (by rw [hm, ← hstage])⟩

/-- Whatever the server answers and whoever else writes to the file in between: a turn changes the
stored next sequence only through the store of its own reserve, or through the reconcile of an
accepted sequence that was answered to this very mutation. An answer that is not one to the mutation
leads to no reconcile. -/
theorem stored_sequence_from_own_answer {backing : String → Option Int} {es : List SharedEvent}
    {s s' : OrderedWriter} {e : OrderedEvent}
    (hrun : exec (sharedStep codec client requests) (new backing) es = some s)
    (hstep : s.step codec client requests e = some s') :
    (∀ deviceId, s'.writer.backing deviceId ≠ s.writer.backing deviceId →
      deviceId = client.sequencer.deviceId ∧ e.turn = .store ∧ e.outcome.storeSucceeds = true ∧
      ∃ m current next, s.writer.mutations e.id = some m ∧
        s'.writer.backing deviceId = some (next.toNat : Int) ∧
        (m.stage = .reserving (.storing current next (some current)) ∧
            next.toNat = current.toNat + 1 ∨
          ∃ retry answer accepted,
            m.stage = .reconciling retry answer accepted (.storing current next none) ∧
            next.toNat = accepted.toNat + 1 ∧ Attributed codec es s e.id accepted)) ∧
    (e.turn = .answer → ∀ retry answer accepted stage sequence,
      s'.writer.mutations e.id =
        some ⟨.reconciling retry answer accepted stage, sequence⟩ →
      ∃ requestId body response, (s.deliveries e.id).encoded = some (requestId, body) ∧
        e.outcome.response = some response ∧
        IsOwnAnswer codec.calendar codec.parse requestId response accepted) := by
  constructor
  · intro deviceId hchange
    by_cases hturn : e.turn = .store
    · simp only [step, hturn] at hstep
      obtain ⟨hdevice, hsucceeds, hwrites⟩ := store_writes (answersInv_run hrun) hstep hchange
      exact ⟨hdevice, hturn, hsucceeds, hwrites⟩
    · rw [backing_of_turn hstep hturn] at hchange
      exact absurd rfl hchange
  · intro hturn retry answer accepted stage sequence hm
    simp only [step, hturn] at hstep
    obtain ⟨requestId, body, response, hencoded, -, hresponse, hown⟩ := answer_reconciles hstep hm
    exact ⟨requestId, body, response, hencoded, hresponse, hown⟩

def acceptingCodec : WireCodec := { bracesCodec with parse := fun _ => some acceptance }

/-- The publish is accepted ahead of its own sequence, and somebody else has written meanwhile. -/
def overtakenRun : List SharedEvent :=
  (turnsOf 0 [.arrive, .begin, .enqueue, .load, .store, .map, .send]).map .turn ++
    [.turn ⟨.answer, 0, ⟨true, "", some ⟨200, [0x7B, 0x7D]⟩⟩⟩, .write (fun _ => some 5)] ++
    (turnsOf 0 [.enqueue, .load]).map .turn

def overtakenStore : OrderedEvent := ⟨.store, 0, ⟨true, "", none⟩⟩

theorem stored_sequence_from_own_answer_overtaken :
    let deviceId := pairedClient.sequencer.deviceId
    ∃ s s', exec (sharedStep acceptingCodec pairedClient publishThenClear) (new (fun _ => none))
        overtakenRun = some s ∧
      s.step acceptingCodec pairedClient publishThenClear overtakenStore = some s' ∧
      s.writer.backing deviceId = some 5 ∧ s'.writer.backing deviceId = some 42 ∧
      ∃ m current next, s.writer.mutations 0 = some m ∧
        (m.stage = .reserving (.storing current next (some current)) ∧
            next.toNat = current.toNat + 1 ∨
          ∃ retry answer accepted,
            m.stage = .reconciling retry answer accepted (.storing current next none) ∧
            next.toNat = accepted.toNat + 1 ∧
            Attributed acceptingCodec overtakenRun s 0 accepted) := by
  intro deviceId
  obtain ⟨s, s', hs, hs', hbefore, hafter⟩ : ∃ s s',
      exec (sharedStep acceptingCodec pairedClient publishThenClear) (new (fun _ => none))
        overtakenRun = some s ∧
      s.step acceptingCodec pairedClient publishThenClear overtakenStore = some s' ∧
      s.writer.backing deviceId = some 5 ∧ s'.writer.backing deviceId = some 42 :=
    ⟨_, _, rfl, rfl, by decide +kernel, by decide +kernel⟩
  obtain ⟨-, -, -, m, current, next, hm, -, hnext⟩ :=
    (stored_sequence_from_own_answer hs hs').1 deviceId (by rw [hbefore, hafter]; decide)
  exact ⟨s, s', hs, hs', hbefore, hafter, m, current, next, hm, hnext⟩

end OrderedWriter

end YohakuCore
