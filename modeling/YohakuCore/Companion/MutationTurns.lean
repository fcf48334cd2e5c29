import YohakuCore.Companion.OrderedWriter

/-!
# The turns of one mutation

What a mutation keeps over its own turns, whatever the others do between them. It has fifteen turns
at most.
-/

namespace YohakuCore

open Framework

/-- How many attempts a mutation has sent at most. -/
def MutationStage.attemptsBound (inFlight : Bool) : MutationStage → Nat
  | .waiting | .reserving _ | .mapping => 0
  | .sending retry => retry.toNat + inFlight.toNat
  | .reconciling retry _ _ _ => retry.toNat + 1
  | .finished _ => 2

/-- How many turns a mutation has left at most. -/
def MutationStage.turnsLeft (inFlight : Bool) : MutationStage → Nat
  | .waiting => 15
  | .reserving .called => 14
  | .reserving .queued => 13
  | .reserving (.storing _ _ _) => 12
  | .mapping => 11
  | .sending false => 10 - inFlight.toNat
  | .reconciling false _ _ .called => 8
  | .reconciling false _ _ .queued => 7
  | .reconciling false _ _ (.storing _ _ _) => 6
  | .sending true => 5 - inFlight.toNat
  | .reconciling true _ _ .called => 3
  | .reconciling true _ _ .queued => 2
  | .reconciling true _ _ (.storing _ _ _) => 1
  | .finished _ => 0

/-- What belongs to each stage: the sequence from the mapping on, the bytes from the first attempt
on, and an attempt in flight only while sending. -/
def Mutation.Fits (m : Mutation) (d : Delivery) : Prop :=
  match m.stage with
  | .waiting => m.sequence = none ∧ d = ⟨none, false⟩
  | .reserving .called => m.sequence = none ∧ d = ⟨none, false⟩
  | .reserving .queued => m.sequence = none ∧ d = ⟨none, false⟩
  | .reserving (.storing _ _ result) => m.sequence = none ∧ result ≠ none ∧ d = ⟨none, false⟩
  | .mapping => m.sequence ≠ none ∧ d = ⟨none, false⟩
  | .sending _ => d.encoded ≠ none
  | .reconciling _ _ _ _ => d.encoded ≠ none ∧ d.inFlight = false
  | .finished _ => d.inFlight = false

theorem Mutation.Fits.sending_of_inFlight {m : Mutation} {d : Delivery} (h : m.Fits d)
    (hinFlight : d.inFlight = true) : ∃ retry, m.stage = .sending retry := by
  obtain ⟨stage, sequence⟩ := m
  cases stage with
  | sending retry => exact ⟨retry, rfl⟩
  | waiting => simp_all [Mutation.Fits]
  | reserving o => cases o <;> simp_all [Mutation.Fits]
  | mapping => simp_all [Mutation.Fits]
  | reconciling retry answer accepted o => simp_all [Mutation.Fits]
  | finished result => simp_all [Mutation.Fits]

theorem MutationStage.attemptsBound_le (stage : MutationStage) (inFlight : Bool) :
    stage.attemptsBound inFlight ≤ 2 := by
  cases stage with
  | sending retry => cases retry <;> cases inFlight <;> simp [MutationStage.attemptsBound]
  | reconciling retry answer accepted o => cases retry <;> simp [MutationStage.attemptsBound]
  | waiting => simp [MutationStage.attemptsBound]
  | reserving o => simp [MutationStage.attemptsBound]
  | mapping => simp [MutationStage.attemptsBound]
  | finished result => simp [MutationStage.attemptsBound]

variable {codec : WireCodec} {client : PresenceClient} {request : MutationRequest}

theorem operation_cases {m : Mutation} {op : SequencerOp} {o : OperationStage}
    (h : m.stage.operation = some (op, o)) :
    (op = .reserve ∧ m.stage = .reserving o) ∨
      ∃ retry answer accepted, op = .reconcile accepted ∧
        m.stage = .reconciling retry answer accepted o := by
  obtain ⟨stage, sequence⟩ := m
  cases stage with
  | reserving o' =>
      obtain ⟨rfl, rfl⟩ := Prod.mk.inj (Option.some.inj h)
      exact Or.inl ⟨rfl, rfl⟩
  | reconciling retry answer accepted o' =>
      obtain ⟨rfl, rfl⟩ := Prod.mk.inj (Option.some.inj h)
      exact Or.inr ⟨retry, answer, accepted, rfl, rfl⟩
  | waiting => contradiction
  | mapping => contradiction
  | sending retry => contradiction
  | finished result => contradiction

theorem afterAnswer_cases (retry : Bool)
    (answer : Except CompanionTransportError MutationResponse) :
    (retry = false ∧ afterAnswer retry answer = .sending true) ∨
      ∃ result, afterAnswer retry answer = .finished result := by
  cases answer with
  | ok response => exact Or.inr ⟨_, rfl⟩
  | error error =>
      rw [afterAnswer]
      split
      · rename_i h
        have hretry : retry = false := by simp_all
        exact Or.inl ⟨hretry, rfl⟩
      · exact Or.inr ⟨_, rfl⟩

theorem operationDone_cases {m : Mutation} {op : SequencerOp} {o : OperationStage}
    (h : m.stage.operation = some (op, o)) (result : Except SequencerError (Option UInt64)) :
    (∃ error, m.operationDone result = { m with stage := .finished error }) ∨
      (op = .reserve ∧ ∃ sequence, result = .ok sequence ∧
        m.operationDone result = ⟨.mapping, sequence⟩) ∨
      ∃ answer accepted, m.stage = .reconciling false answer accepted o ∧
        m.operationDone result = { m with stage := .sending true } := by
  obtain ⟨stage, sequence⟩ := m
  cases result with
  | error error =>
      rcases operation_cases h with ⟨-, rfl⟩ | ⟨retry, answer, accepted, -, rfl⟩
      · exact Or.inl ⟨_, rfl⟩
      · exact Or.inl ⟨_, rfl⟩
  | ok value =>
      rcases operation_cases h with ⟨rfl, rfl⟩ | ⟨retry, answer, accepted, -, rfl⟩
      · exact Or.inr (Or.inl ⟨rfl, value, rfl, rfl⟩)
      · rcases afterAnswer_cases retry answer with ⟨rfl, hafter⟩ | ⟨result, hafter⟩
        · refine Or.inr (Or.inr ⟨answer, accepted, rfl, ?_⟩)
          simp only [Mutation.operationDone, hafter]
        · refine Or.inl ⟨result, ?_⟩
          simp only [Mutation.operationDone, hafter]

theorem turnsLeft_operation {stage : MutationStage} {op : SequencerOp} {o : OperationStage}
    (h : stage.operation = some (op, o)) (inFlight : Bool) : 0 < stage.turnsLeft inFlight := by
  cases stage with
  | reserving o => cases o <;> simp [MutationStage.turnsLeft]
  | reconciling retry answer accepted o =>
      cases retry <;> cases o <;> simp [MutationStage.turnsLeft]
  | waiting => contradiction
  | mapping => contradiction
  | sending retry => contradiction
  | finished result => contradiction

theorem turnsLeft_operationDone {m : Mutation} {op : SequencerOp} {o : OperationStage}
    (h : m.stage.operation = some (op, o)) (result : Except SequencerError (Option UInt64))
    (inFlight : Bool) :
    (m.operationDone result).stage.turnsLeft inFlight < m.stage.turnsLeft inFlight := by
  rcases operationDone_cases h result with
    ⟨error, hdone⟩ | ⟨rfl, sequence, -, hdone⟩ | ⟨answer, accepted, hstage, hdone⟩
  · rw [hdone]
    exact turnsLeft_operation h inFlight
  · rcases operation_cases h with ⟨-, hstage⟩ | ⟨_, _, _, hop, -⟩
    · rw [hdone, hstage]
      cases o <;> simp [MutationStage.turnsLeft]
    · contradiction
  · rw [hdone, hstage]
    cases o <;> cases inFlight <;> simp [MutationStage.turnsLeft]

theorem CallMove.turnsLeft {m m' : Mutation} {d d' : Delivery} {new : List TraceEntry}
    (h : CallMove codec client request m d m' d' new) :
    m'.stage.turnsLeft d'.inFlight < m.stage.turnsLeft d.inFlight := by
  cases h with
  | begun sequence => simp [MutationStage.turnsLeft]
  | enqueued _ _ op hoperation =>
      obtain ⟨stage, sequence⟩ := m
      rcases operation_cases hoperation with ⟨-, rfl⟩ | ⟨retry, answer, accepted, -, rfl⟩
      · simp [MutationStage.turnsLeft, MutationStage.withOperation]
      · cases retry <;> simp [MutationStage.turnsLeft, MutationStage.withOperation]
  | loaded _ _ op current next result hoperation hplan =>
      obtain ⟨stage, sequence⟩ := m
      rcases operation_cases hoperation with ⟨-, rfl⟩ | ⟨retry, answer, accepted, -, rfl⟩
      · simp [MutationStage.turnsLeft, MutationStage.withOperation]
      · cases retry <;> simp [MutationStage.turnsLeft, MutationStage.withOperation]
  | finished _ _ op result hoperation hrefused => exact turnsLeft_operationDone hoperation _ _
  | stored _ _ op current next result hoperation => exact turnsLeft_operationDone hoperation _ _
  | failed _ _ op current next result hoperation => exact turnsLeft_operationDone hoperation _ _
  | mapped sequence _ requestId body hencodes => simp [MutationStage.turnsLeft]
  | unmapped sequence _ error => simp [MutationStage.turnsLeft]
  | sent retry sequence requestId body => cases retry <;> simp [MutationStage.turnsLeft]
  | answered retry sequence encoded inFlight answer stage hnext =>
      have hsending : stage.turnsLeft false < 9 ∧ (retry = true → stage.turnsLeft false < 4) := by
        rcases hnext with rfl | ⟨accepted, rfl⟩
        · rcases afterAnswer_cases retry answer with ⟨rfl, hafter⟩ | ⟨result, hafter⟩
          · simp [hafter, MutationStage.turnsLeft]
          · simp [hafter, MutationStage.turnsLeft]
        · cases retry <;> simp [MutationStage.turnsLeft]
      cases retry <;> cases inFlight <;> simp [MutationStage.turnsLeft] at hsending ⊢ <;> omega

/-- What one mutation keeps, against the entries it has left. -/
structure CallInv (codec : WireCodec) (client : PresenceClient) (request : MutationRequest)
    (m : Mutation) (d : Delivery) (entries : List TraceEntry) : Prop where
  fits : m.Fits d
  reserved : entries.filterMap TraceEntry.sequence? = m.sequence.toList
  attempts : (entries.filterMap TraceEntry.request?).length ≤ m.stage.attemptsBound d.inFlight
  sent : ∀ r ∈ entries.filterMap TraceEntry.request?, ∃ requestId body,
    d.encoded = some (requestId, body) ∧ r = (request.options client requestId body).request
  encoded : ∀ requestId body, d.encoded = some (requestId, body) →
    ∃ sequence, m.sequence = some sequence ∧
      request.encode codec client sequence requestId = .ok body

theorem fits_operationDone {m : Mutation} {d : Delivery} {op : SequencerOp} {o : OperationStage}
    (h : m.stage.operation = some (op, o)) (hfits : m.Fits d)
    (result : Except SequencerError (Option UInt64))
    (hresult : op = .reserve → result ≠ .ok none) : (m.operationDone result).Fits d := by
  obtain ⟨stage, sequence⟩ := m
  have hidle : d.inFlight = false := by
    rcases operation_cases h with ⟨-, rfl⟩ | ⟨retry, answer, accepted, -, rfl⟩
    · cases o <;> simp_all [Mutation.Fits]
    · exact hfits.2
  rcases operationDone_cases h result with
    ⟨error, hdone⟩ | ⟨rfl, sequence, rfl, hdone⟩ | ⟨answer, accepted, rfl, hdone⟩
  · rw [hdone]
    exact hidle
  · rcases operation_cases h with ⟨-, rfl⟩ | ⟨_, _, _, hop, -⟩
    · rw [hdone]
      refine ⟨fun hnone => hresult rfl (congrArg Except.ok hnone), ?_⟩
      cases o <;> simp_all [Mutation.Fits]
    · contradiction
  · rw [hdone]
    exact hfits.1

theorem CallMove.fits {m m' : Mutation} {d d' : Delivery} {new : List TraceEntry}
    (h : CallMove codec client request m d m' d' new) (hfits : m.Fits d) : m'.Fits d' := by
  cases h with
  | begun sequence => exact hfits
  | enqueued _ _ op hoperation =>
      obtain ⟨stage, sequence⟩ := m
      rcases operation_cases hoperation with ⟨-, rfl⟩ | ⟨retry, answer, accepted, -, rfl⟩
      · exact hfits
      · exact hfits
  | loaded _ _ op current next result hoperation hplan =>
      obtain ⟨stage, sequence⟩ := m
      rcases operation_cases hoperation with ⟨rfl, rfl⟩ | ⟨retry, answer, accepted, -, rfl⟩
      · have hresult := (SequencerOp.plan_store rfl hplan).2.2
        refine ⟨hfits.1, ?_, hfits.2⟩
        rcases hresult with ⟨-, rfl, -⟩ | ⟨a, hop, -⟩
        · simp
        · contradiction
      · exact hfits
  | finished _ _ op result hoperation hrefused =>
      refine fits_operationDone hoperation hfits _ ?_
      intro hop hnone
      obtain ⟨error, rfl⟩ := hrefused hop
      contradiction
  | stored _ _ op current next result hoperation =>
      refine fits_operationDone hoperation hfits _ ?_
      intro hop hnone
      obtain ⟨stage, sequence⟩ := m
      rcases operation_cases hoperation with ⟨-, rfl⟩ | ⟨retry, answer, accepted, hop', -⟩
      · exact hfits.2.1 (Except.ok.inj hnone)
      · rw [hop] at hop'
        contradiction
  | failed _ _ op current next result hoperation =>
      exact fits_operationDone hoperation hfits _ (by simp)
  | mapped sequence _ requestId body hencodes => simp [Mutation.Fits]
  | unmapped sequence _ error =>
      have hidle := hfits.2
      simp [Mutation.Fits, hidle]
  | sent retry sequence requestId body => simp [Mutation.Fits]
  | answered retry sequence encoded inFlight answer stage hnext =>
      rcases hnext with rfl | ⟨accepted, rfl⟩
      · rcases afterAnswer_cases retry answer with ⟨-, hafter⟩ | ⟨result, hafter⟩
        · simp [Mutation.Fits, hafter]
        · simp [Mutation.Fits, hafter]
      · simp [Mutation.Fits]

/-- Only the store of a reserve sets the sequence and leaves it in the trace. -/
theorem CallMove.sequence {m m' : Mutation} {d d' : Delivery} {new : List TraceEntry}
    (h : CallMove codec client request m d m' d' new) (hfits : m.Fits d) :
    m'.sequence.toList = m.sequence.toList ++ new.filterMap TraceEntry.sequence? := by
  have hdone {op : SequencerOp} {o : OperationStage}
      (hoperation : m.stage.operation = some (op, o))
      {result : Except SequencerError (Option UInt64)}
      (hreserve : op = .reserve → ∃ error, result = .error error) :
      (m.operationDone result).sequence = m.sequence := by
    rcases operationDone_cases hoperation result with
      ⟨error, hdone⟩ | ⟨hop, sequence, hok, -⟩ | ⟨answer, accepted, -, hdone⟩
    · rw [hdone]
    · obtain ⟨error, herror⟩ := hreserve hop
      rw [herror] at hok
      contradiction
    · rw [hdone]
  cases h with
  | begun sequence => simp
  | enqueued _ _ op hoperation => simp
  | loaded _ _ op current next result hoperation hplan => simp
  | finished _ _ op result hoperation hrefused => simp [hdone hoperation hrefused]
  | stored _ _ op current next result hoperation =>
      obtain ⟨stage, sequence⟩ := m
      rcases operation_cases hoperation with ⟨rfl, rfl⟩ | ⟨retry, answer, accepted, rfl, rfl⟩
      · have hnone : sequence = none := hfits.1
        cases result <;> simp [Mutation.operationDone, MutationStage.handedOut, hnone,
          TraceEntry.sequence?]
      · simp [hdone hoperation (by simp), MutationStage.handedOut]
  | failed _ _ op current next result hoperation => simp [hdone hoperation (fun _ => ⟨_, rfl⟩)]
  | mapped sequence _ requestId body hencodes => simp
  | unmapped sequence _ error => simp
  | sent retry sequence requestId body => simp [TraceEntry.sequence?]
  | answered retry sequence encoded inFlight answer stage hnext =>
      cases inFlight <;> simp [TraceEntry.sequence?]

theorem CallMove.sequence_of_some {m m' : Mutation} {d d' : Delivery} {new : List TraceEntry}
    (h : CallMove codec client request m d m' d' new) (hfits : m.Fits d) {v : UInt64}
    (hv : m.sequence = some v) : m'.sequence = some v := by
  have hsequence := h.sequence hfits
  rw [hv] at hsequence
  cases hm' : m'.sequence with
  | none => simp [hm'] at hsequence
  | some v' =>
      rw [hm'] at hsequence
      exact congrArg some (List.cons.inj hsequence).1

theorem CallMove.sequence_of_waiting {m m' : Mutation} {d d' : Delivery} {new : List TraceEntry}
    (h : CallMove codec client request m d m' d' new) (hwaiting : m.stage = .waiting) :
    m'.sequence = m.sequence := by
  cases h with
  | begun sequence => rfl
  | enqueued _ _ op hop => rfl
  | loaded _ _ op current next result hop hplan => rfl
  | finished _ _ op result hop hrefused => simp [hwaiting, MutationStage.operation] at hop
  | stored _ _ op current next result hop => simp [hwaiting, MutationStage.operation] at hop
  | failed _ _ op current next result hop => simp [hwaiting, MutationStage.operation] at hop
  | mapped sequence _ requestId body hencodes => rfl
  | unmapped sequence _ error => rfl
  | sent retry sequence requestId body => rfl
  | answered retry sequence encoded inFlight answer stage hnext => rfl

theorem attemptsBound_operationDone {m : Mutation} {op : SequencerOp} {o : OperationStage}
    (h : m.stage.operation = some (op, o)) (result : Except SequencerError (Option UInt64))
    (inFlight : Bool) :
    m.stage.attemptsBound inFlight ≤ (m.operationDone result).stage.attemptsBound inFlight := by
  obtain ⟨stage, sequence⟩ := m
  rcases operationDone_cases h result with
    ⟨error, hdone⟩ | ⟨rfl, sequence, -, hdone⟩ | ⟨answer, accepted, rfl, hdone⟩
  · rw [hdone]
    rcases operation_cases h with ⟨-, rfl⟩ | ⟨retry, answer, accepted, -, rfl⟩
    · simp [MutationStage.attemptsBound]
    · cases retry <;> simp [MutationStage.attemptsBound]
  · rw [hdone]
    rcases operation_cases h with ⟨-, rfl⟩ | ⟨_, _, _, hop, -⟩
    · simp [MutationStage.attemptsBound]
    · contradiction
  · rw [hdone]
    simp [MutationStage.attemptsBound]

theorem CallMove.attempts {m m' : Mutation} {d d' : Delivery} {new : List TraceEntry}
    (h : CallMove codec client request m d m' d' new) :
    m.stage.attemptsBound d.inFlight + (new.filterMap TraceEntry.request?).length ≤
      m'.stage.attemptsBound d'.inFlight := by
  have hoperation {m : Mutation} {op : SequencerOp} {o : OperationStage}
      (h : m.stage.operation = some (op, o)) (o' : OperationStage) (inFlight : Bool) :
      (m.stage.withOperation o').attemptsBound inFlight = m.stage.attemptsBound inFlight := by
    cases m.stage <;> rfl
  cases h with
  | begun sequence => simp [MutationStage.attemptsBound]
  | enqueued _ _ op hop => simp [hoperation hop]
  | loaded _ _ op current next result hop hplan => simp [hoperation hop]
  | finished _ _ op result hop hrefused => simpa using attemptsBound_operationDone hop _ _
  | stored _ _ op current next result hop =>
      have hnone : (m.stage.handedOut.toList.map TraceEntry.reserved).filterMap
          TraceEntry.request? = [] := by
        cases m.stage.handedOut <;> rfl
      rw [hnone]
      exact attemptsBound_operationDone hop _ _
  | failed _ _ op current next result hop => simpa using attemptsBound_operationDone hop _ _
  | mapped sequence _ requestId body hencodes => simp [MutationStage.attemptsBound]
  | unmapped sequence _ error => simp [MutationStage.attemptsBound]
  | sent retry sequence requestId body =>
      simp [MutationStage.attemptsBound, TraceEntry.request?]
  | answered retry sequence encoded inFlight answer stage hnext =>
      have hbound : retry.toNat + inFlight.toNat ≤ stage.attemptsBound false := by
        rcases hnext with rfl | ⟨accepted, rfl⟩
        · rcases afterAnswer_cases retry answer with ⟨rfl, hafter⟩ | ⟨result, hafter⟩
          · rw [hafter]
            cases inFlight <;> simp [MutationStage.attemptsBound]
          · rw [hafter]
            cases retry <;> cases inFlight <;> simp [MutationStage.attemptsBound]
        · cases retry <;> cases inFlight <;> simp [MutationStage.attemptsBound]
      have hnone : (if inFlight then [TraceEntry.answered] else []).filterMap
          TraceEntry.request? = [] := by
        cases inFlight <;> rfl
      rw [hnone]
      exact hbound

/-- The bytes are encoded once, after the mapping, and every attempt carries them. -/
theorem CallMove.encodes {m m' : Mutation} {d d' : Delivery} {new : List TraceEntry}
    (h : CallMove codec client request m d m' d' new) :
    (d'.encoded = d.encoded ∨
      ∃ sequence requestId body, m = ⟨.mapping, some sequence⟩ ∧ m'.sequence = some sequence ∧
        d'.encoded = some (requestId, body) ∧
        request.encode codec client sequence requestId = .ok body) ∧
    ∀ r ∈ new.filterMap TraceEntry.request?, ∃ requestId body,
      d'.encoded = some (requestId, body) ∧
        r = (request.options client requestId body).request := by
  cases h with
  | begun sequence => simp
  | enqueued _ _ op hop => simp
  | loaded _ _ op current next result hop hplan => simp
  | finished _ _ op result hop hrefused => simp
  | stored _ _ op current next result hop =>
      cases m.stage.handedOut <;> simp [TraceEntry.request?]
  | failed _ _ op current next result hop => simp
  | mapped sequence _ requestId body hencodes =>
      refine ⟨Or.inr ⟨sequence, requestId, body, rfl, rfl, rfl, hencodes⟩, ?_⟩
      simp
  | unmapped sequence _ error => simp
  | sent retry sequence requestId body => simp [TraceEntry.request?]
  | answered retry sequence encoded inFlight answer stage hnext =>
      cases inFlight <;> simp [TraceEntry.request?]

theorem callInv_arrived :
    CallInv codec client request ⟨.waiting, none⟩ ⟨none, false⟩ [.arrived] where
  fits := ⟨rfl, rfl⟩
  reserved := rfl
  attempts := le_refl 0
  sent := by simp [TraceEntry.request?]
  encoded := by simp

theorem CallInv.move {m m' : Mutation} {d d' : Delivery} {entries new : List TraceEntry}
    (h : CallInv codec client request m d entries)
    (hmove : CallMove codec client request m d m' d' new) :
    CallInv codec client request m' d' (entries ++ new) := by
  have hattempts := hmove.attempts
  have hsequence := hmove.sequence h.fits
  have hbefore := h.attempts
  obtain ⟨hencoded, hnew⟩ := hmove.encodes
  refine ⟨hmove.fits h.fits, ?_, ?_, ?_, ?_⟩
  · rw [List.filterMap_append, h.reserved, hsequence]
  · rw [List.filterMap_append, List.length_append]
    omega
  · intro r hr
    rw [List.filterMap_append, List.mem_append] at hr
    rcases hr with hr | hr
    · rcases hencoded with hsame | ⟨sequence, requestId, body, rfl, -⟩
      · rw [hsame]
        exact h.sent r hr
      · -- Nothing is sent before the mapping.
        have hnil := List.eq_nil_of_length_eq_zero (Nat.le_zero.mp hbefore)
        rw [hnil] at hr
        contradiction
    · exact hnew r hr
  · intro requestId body hbody
    rcases hencoded with hsame | ⟨sequence, requestId', body', -, hsequence', hbody', hencodes⟩
    · rw [hsame] at hbody
      obtain ⟨sequence, hreserved, hencodes⟩ := h.encoded requestId body hbody
      exact ⟨sequence, hmove.sequence_of_some h.fits hreserved, hencodes⟩
    · rw [hbody'] at hbody
      obtain ⟨rfl, rfl⟩ := Prod.mk.inj (Option.some.inj hbody)
      exact ⟨sequence, hsequence', hencodes⟩

theorem CallMove.leaves {m m' : Mutation} {d d' : Delivery} {new : List TraceEntry}
    (h : CallMove codec client request m d m' d' new) :
    (∃ handedOut : Option UInt64, new = handedOut.toList.map TraceEntry.reserved) ∨
      ∃ entry retry, new = [entry] ∧ entry.isOnWire = true ∧ m.stage = .sending retry := by
  cases h with
  | begun sequence => exact Or.inl ⟨none, rfl⟩
  | enqueued _ _ op hop => exact Or.inl ⟨none, rfl⟩
  | loaded _ _ op current next result hop hplan => exact Or.inl ⟨none, rfl⟩
  | finished _ _ op result hop hrefused => exact Or.inl ⟨none, rfl⟩
  | stored _ _ op current next result hop => exact Or.inl ⟨m.stage.handedOut, rfl⟩
  | failed _ _ op current next result hop => exact Or.inl ⟨none, rfl⟩
  | mapped sequence _ requestId body hencodes => exact Or.inl ⟨none, rfl⟩
  | unmapped sequence _ error => exact Or.inl ⟨none, rfl⟩
  | sent retry sequence requestId body => exact Or.inr ⟨_, retry, rfl, rfl, rfl⟩
  | answered retry sequence encoded inFlight answer stage hnext =>
      cases inFlight with
      | false => exact Or.inl ⟨none, rfl⟩
      | true => exact Or.inr ⟨_, retry, rfl, rfl, rfl⟩

theorem CallMove.onWire {m m' : Mutation} {d d' : Delivery} {new : List TraceEntry}
    (h : CallMove codec client request m d m' d' new) :
    new.filter TraceEntry.isOnWire = [] ∨
      (∃ entry, new.filter TraceEntry.isOnWire = [entry]) ∧ ∃ retry, m.stage = .sending retry := by
  rcases h.leaves with ⟨handedOut, rfl⟩ | ⟨entry, retry, rfl, hentry, hsending⟩
  · cases handedOut <;> simp [TraceEntry.isOnWire]
  · refine Or.inr ⟨⟨entry, ?_⟩, retry, hsending⟩
    simp [hentry]

theorem CallMove.not_arrival {m m' : Mutation} {d d' : Delivery} {new : List TraceEntry}
    (h : CallMove codec client request m d m' d' new) : new.filter TraceEntry.isArrival = [] := by
  rcases h.leaves with ⟨handedOut, rfl⟩ | ⟨entry, retry, rfl, hentry, -⟩
  · cases handedOut <;> simp [TraceEntry.isArrival]
  · cases entry <;> simp_all [TraceEntry.isOnWire, TraceEntry.isArrival]

theorem CallMove.unfinished {m m' : Mutation} {d d' : Delivery} {new : List TraceEntry}
    (h : CallMove codec client request m d m' d' new) : m.stage.isFinished = false := by
  have hleft := h.turnsLeft
  cases hstage : m.stage with
  | finished result => simp [hstage, MutationStage.turnsLeft] at hleft
  | waiting => rfl
  | reserving o => rfl
  | mapping => rfl
  | sending retry => rfl
  | reconciling retry answer accepted o => rfl

theorem CallMove.begins {m m' : Mutation} {d d' : Delivery} {new : List TraceEntry}
    (h : CallMove codec client request m d m' d' new) : m'.stage ≠ .waiting := by
  have hleft := h.turnsLeft
  intro hwaiting
  have hmost (stage : MutationStage) (inFlight : Bool) : stage.turnsLeft inFlight ≤ 15 := by
    cases stage with
    | reserving o => cases o <;> simp [MutationStage.turnsLeft]
    | sending retry => cases retry <;> simp [MutationStage.turnsLeft] <;> omega
    | reconciling retry answer accepted o =>
        cases retry <;> cases o <;> simp [MutationStage.turnsLeft]
    | waiting => simp [MutationStage.turnsLeft]
    | mapping => simp [MutationStage.turnsLeft]
    | finished result => simp [MutationStage.turnsLeft]
  have hle := hmost m.stage d.inFlight
  rw [hwaiting, MutationStage.turnsLeft] at hleft
  omega

namespace OrderedWriter

section Trace

variable (s : OrderedWriter) (id : Nat) (d : Delivery) (new : List TraceEntry) (w : Writer)

theorem entries_moved (j : Nat) :
    (s.moved id d new w).entries j = s.entries j ++ if j = id then new else [] := by
  simp only [entries, moved, List.filter_append, List.map_append]
  by_cases hj : j = id
  · subst hj
    simp [List.filter_map, Function.comp_def]
  · have hne : id ≠ j := fun heq => hj heq.symm
    simp [List.filter_map, Function.comp_def, hj, hne]

theorem deliveries_moved :
    (s.moved id d new w).deliveries = Function.update s.deliveries id d := rfl

theorem arrivals_moved :
    (s.moved id d new w).arrivals =
      s.arrivals ++ (new.filter TraceEntry.isArrival).map (fun _ => id) := by
  simp [arrivals, moved, List.filter_map, Function.comp_def]

theorem wire_moved :
    (s.moved id d new w).wire =
      s.wire ++ (new.filter TraceEntry.isOnWire).map (fun _ => id) := by
  simp [wire, moved, List.filter_map, Function.comp_def]

end Trace

end OrderedWriter

end YohakuCore
