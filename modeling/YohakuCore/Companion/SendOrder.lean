import YohakuCore.Companion.PresenceClientInvariants

/-! # The order of a send slot -/

namespace YohakuCore

open Framework

def MutationStage.isPastReserve : MutationStage → Bool
  | .waiting => false
  | .reserving _ => false
  | _ => true

theorem afterAnswer_isPastReserve (retry : Bool)
    (answer : Except CompanionTransportError MutationResponse) :
    (afterAnswer retry answer).isPastReserve = true := by
  cases answer with
  | ok response => rfl
  | error error =>
      rw [afterAnswer]
      split <;> rfl

theorem withOperation_isPastReserve (stage : MutationStage) (operation : OperationStage) :
    (stage.withOperation operation).isPastReserve = stage.isPastReserve := by
  cases stage <;> rfl

theorem operationDone_isPastReserve {m : Mutation} {op : SequencerOp × OperationStage}
    (h : m.stage.operation = some op) (result : Except SequencerError (Option UInt64)) :
    (m.operationDone result).stage.isPastReserve = true := by
  obtain ⟨stage, sequence⟩ := m
  cases stage with
  | reserving stage => cases result <;> rfl
  | reconciling retry answer accepted stage =>
      cases result with
      | ok sequence => exact afterAnswer_isPastReserve retry answer
      | error error => rfl
  | waiting => contradiction
  | mapping => contradiction
  | sending retry => contradiction
  | finished result => contradiction

theorem operationDone_sequence_of_past {m : Mutation} (h : m.stage.isPastReserve = true)
    (result : Except SequencerError (Option UInt64)) :
    (m.operationDone result).sequence = m.sequence := by
  obtain ⟨stage, sequence⟩ := m
  cases stage with
  | waiting => contradiction
  | reserving stage => contradiction
  | mapping => cases result <;> rfl
  | sending retry => cases result <;> rfl
  | reconciling retry answer accepted stage => cases result <;> rfl
  | finished result' => cases result <;> rfl

/-- What a step may do to a mutation under way: past the reserve nothing changes the sequence, and
before the reserve nothing sets it. -/
structure Mutation.Advances (m m' : Mutation) : Prop where
  past : m.stage.isPastReserve = true → m'.stage.isPastReserve = true ∧ m'.sequence = m.sequence
  before : m'.stage.isPastReserve = false → m'.sequence = m.sequence

theorem Mutation.Advances.of_eq {m m' : Mutation}
    (hpast : m'.stage.isPastReserve = m.stage.isPastReserve)
    (hsequence : m'.sequence = m.sequence) : m.Advances m' where
  past h := ⟨hpast.trans h, hsequence⟩
  before _ := hsequence

theorem Mutation.Advances.settled {m m' : Mutation} (hpast : m'.stage.isPastReserve = true)
    (hsequence : m.stage.isPastReserve = true → m'.sequence = m.sequence) : m.Advances m' where
  past h := ⟨hpast, hsequence h⟩
  before h := absurd (hpast.symm.trans h) Bool.noConfusion

namespace Writer

/-- The sequencer has answered the reserve of the mutation. -/
def PastReserve (w : Writer) (id : Nat) : Prop :=
  ∃ m, w.mutations id = some m ∧ m.stage.isPastReserve = true

/-- One mutation arrives or advances through an update of its stage, or none does. -/
inductive Progress (calls : List PresenceCall) (w w' : Writer) : WriterEvent → Prop where
  | idle (e : WriterEvent) (mutations : w'.mutations = w.mutations)
      (sendSlots : w'.sendSlots = w.sendSlots) : Progress calls w w' e
  | arrive (id : Nat) (call : PresenceCall) (called : calls[id]? = some call)
      (fresh : w.mutations id = none)
      (mutations : w'.mutations = Function.update w.mutations id (some ⟨.waiting, none⟩))
      (sendSlots : w'.sendSlots = Function.update w.sendSlots call.client.id
        (w.sendSlots call.client.id ++ [id])) : Progress calls w w' (.arrive id)
  | advance (e : WriterEvent) (id : Nat) (call : PresenceCall) (m m' : Mutation)
      (called : calls[id]? = some call) (under : w.mutations id = some m)
      (holds : (w.sendSlots call.client.id).head? = some id)
      (begun : m'.stage ≠ .waiting)
      (advances : m.Advances m')
      (mutations : w'.mutations = Function.update w.mutations id (some m'))
      (sendSlots : w'.sendSlots = (w.update call.client id m').sendSlots) : Progress calls w w' e

private theorem update_progress {calls : List PresenceCall} {w : Writer} {e : WriterEvent}
    {id : Nat} {call : PresenceCall} {m m' : Mutation} (hcall : calls[id]? = some call)
    (hm : w.mutations id = some m) (hhead : (w.sendSlots call.client.id).head? = some id)
    (hbegun : m'.stage ≠ .waiting) (hadvances : m.Advances m') :
    Progress calls w (w.update call.client id m') e :=
  .advance e id call m m' hcall hm hhead hbegun hadvances rfl rfl

private theorem finishOperation_progress {calls : List PresenceCall} {w : Writer}
    (h : w.Inv calls) {e : WriterEvent} {id : Nat} {call : PresenceCall} {m : Mutation}
    {op : SequencerOp × OperationStage} (hcall : calls[id]? = some call)
    (hm : w.mutations id = some m) (hoperation : m.stage.operation = some op)
    (backing : String → Option Int) (result : Except SequencerError (Option UInt64)) :
    Progress calls w (finishOperation ⟨backing, w.sendSlots, w.slots, w.mutations⟩ call.client id m
      result) e := by
  obtain ⟨hunfinished, hbegun⟩ := unfinished_of_operation hoperation
  have hpast := operationDone_isPastReserve hoperation result
  refine .advance e id call m _ hcall hm (h.send_head hcall hm hunfinished hbegun) ?_
    (.settled hpast (fun hm => operationDone_sequence_of_past hm result)) rfl rfl
  intro hwaiting
  rw [hwaiting] at hpast
  contradiction

private theorem operation_progress {calls : List PresenceCall} {w : Writer} (h : w.Inv calls)
    {e : WriterEvent} {id : Nat} {call : PresenceCall} {m : Mutation}
    {op : SequencerOp} {o : OperationStage} (hcall : calls[id]? = some call)
    (hm : w.mutations id = some m) (hoperation : m.stage.operation = some (op, o))
    (o' : OperationStage) (slots : Nat → List Nat) :
    Progress calls w { w.update call.client id { m with stage := m.stage.withOperation o' } with
      slots := slots } e := by
  obtain ⟨hunfinished, hbegun⟩ := unfinished_of_operation hoperation
  have hkept := unfinished_of_operation (withOperation_operation hoperation o')
  exact .advance e id call m { m with stage := m.stage.withOperation o' } hcall hm
    (h.send_head hcall hm hunfinished hbegun) hkept.2
    (.of_eq (withOperation_isPastReserve m.stage o') rfl) rfl rfl

theorem Answers.advances {m m' : Mutation} (h : Answers m m') : m.Advances m' := by
  have hbefore : m.stage.isPastReserve = true := by
    rcases h.stage with hstage | ⟨retry, hstage⟩ <;> rw [hstage] <;> rfl
  have hafter : m'.stage.isPastReserve = true := by
    cases hstage : m'.stage with
    | waiting => exact absurd hstage h.begun
    | reserving stage => exact absurd hstage (h.reserved stage)
    | mapping => rfl
    | sending retry => rfl
    | reconciling retry answer accepted stage => rfl
    | finished result => rfl
  exact .of_eq (hafter.trans hbefore.symm) h.sequence

theorem step_progress {calls : List PresenceCall} {w w' : Writer} {e : WriterEvent}
    (h : w.Inv calls) (hstep : w.step calls e = some w') : Progress calls w w' e := by
  cases step_case hstep with
  | removed deviceId hremoves => exact hremoves ▸ .idle _ rfl rfl
  | arrived id call hcall hm harrives => exact harrives ▸ .arrive id call hcall hm rfl rfl
  | begun id call sequence hcall hm hhead hbegins =>
      rw [hbegins]
      exact update_progress hcall hm hhead (fun heq => by cases heq) (.of_eq rfl rfl)
  | enqueued id call m op hcall hm hoperation henqueues =>
      exact henqueues ▸ operation_progress h hcall hm hoperation .queued _
  | loaded id call m op current next result hcall hm hoperation _ _ _ _ hupdates =>
      exact hupdates ▸ operation_progress h hcall hm hoperation _ w.slots
  | finished id call m op result hcall hm hoperation _ _ hfinishes =>
      exact hfinishes ▸ finishOperation_progress h hcall hm hoperation w.backing result
  | stored id call m op current next result hcall hm hoperation hstores =>
      exact hstores ▸ finishOperation_progress h hcall hm hoperation _ _
  | failed id call m op current next result hcall hm hoperation hfails =>
      exact hfails ▸ finishOperation_progress h hcall hm hoperation w.backing _
  | answered _ id call m m' hcall hm hanswers hupdates =>
      obtain ⟨hunfinished, hbegun, -⟩ := hanswers.unfinished
      have hhead := h.send_head hcall hm hunfinished hbegun
      exact hupdates ▸ update_progress hcall hm hhead hanswers.begun hanswers.advances

theorem pastReserve_step {calls : List PresenceCall} {w w' : Writer} {e : WriterEvent}
    (h : w.Inv calls) (hstep : w.step calls e = some w') {id : Nat} {m : Mutation}
    (hm : w.mutations id = some m) (hpast : m.stage.isPastReserve = true) :
    ∃ m', w'.mutations id = some m' ∧ m'.stage.isPastReserve = true ∧
      m'.sequence = m.sequence := by
  cases step_progress h hstep with
  | idle _ hmutations _ => exact ⟨m, hmutations ▸ hm, hpast, rfl⟩
  | arrive j call hcall hfresh hmutations _ =>
      have hne : id ≠ j := by
        rintro rfl
        rw [hfresh] at hm
        contradiction
      rw [hmutations, Function.update_of_ne hne]
      exact ⟨m, hm, hpast, rfl⟩
  | advance _ j call n n' hcall hn _ _ hadvances hmutations _ =>
      rw [hmutations]
      by_cases hid : id = j
      · subst hid
        rw [hm] at hn
        obtain rfl := Option.some.inj hn
        obtain ⟨hpast', hsequence⟩ := hadvances.past hpast
        exact ⟨n', Function.update_self _ _ _, hpast', hsequence⟩
      · rw [Function.update_of_ne hid]
        exact ⟨m, hm, hpast, rfl⟩

theorem PastReserve.step {calls : List PresenceCall} {w w' : Writer} {e : WriterEvent} {id : Nat}
    (hpast : w.PastReserve id) (h : w.Inv calls) (hstep : w.step calls e = some w') :
    w'.PastReserve id := by
  obtain ⟨m, hm, hpast⟩ := hpast
  obtain ⟨m', hm', hpast', -⟩ := pastReserve_step h hstep hm hpast
  exact ⟨m', hm', hpast'⟩

/-- Only a mutation past its reserve has a sequence. -/
def ReservesFirst (w : Writer) : Prop :=
  ∀ id m, w.mutations id = some m → m.sequence ≠ none → m.stage.isPastReserve = true

theorem reservesFirst_new (backing : String → Option Int) : (new backing).ReservesFirst :=
  fun _ _ h => by cases h

theorem ReservesFirst.step {calls : List PresenceCall} {w w' : Writer} {e : WriterEvent}
    (hfirst : w.ReservesFirst) (h : w.Inv calls) (hstep : w.step calls e = some w') :
    w'.ReservesFirst := by
  intro id m hm hsequence
  cases step_progress h hstep with
  | idle _ hmutations _ => exact hfirst id m (hmutations ▸ hm) hsequence
  | arrive j call hcall hfresh hmutations _ =>
      rw [hmutations, Function.update_apply] at hm
      split at hm
      · obtain rfl := Option.some.inj hm
        contradiction
      · exact hfirst id m hm hsequence
  | advance _ j call n n' hcall hn _ _ hadvances hmutations _ =>
      rw [hmutations, Function.update_apply] at hm
      split at hm
      · obtain rfl := Option.some.inj hm
        by_contra hbefore
        rw [Bool.not_eq_true] at hbefore
        have hsame := hadvances.before hbefore
        have hpast := hfirst j n hn (hsame ▸ hsequence)
        exact absurd ((hadvances.past hpast).1.symm.trans hbefore) Bool.noConfusion
      · exact hfirst id m hm hsequence

/-- The mutation `p` is past its reserve, or waits for the client's send slot in front of `k`. -/
def Precedes (w : Writer) (client : PresenceClient) (p k : Nat) : Prop :=
  w.PastReserve p ∨ (p ∈ ahead (w.sendSlots client.id) k ∧ w.mutations k = some ⟨.waiting, none⟩)

theorem isPastReserve_of_isFinished {stage : MutationStage} (h : stage.isFinished = true) :
    stage.isPastReserve = true := by
  cases stage with
  | finished result => rfl
  | waiting => contradiction
  | reserving stage => contradiction
  | mapping => contradiction
  | sending retry => contradiction
  | reconciling retry answer accepted stage => contradiction

theorem ahead_step {calls : List PresenceCall} {w w' : Writer} {e : WriterEvent} (h : w.Inv calls)
    (hstep : w.step calls e = some w') {slot p k : Nat} (hp : p ∈ ahead (w.sendSlots slot) k) :
    w'.PastReserve p ∨ p ∈ ahead (w'.sendSlots slot) k := by
  cases step_progress h hstep with
  | idle _ _ hslots =>
      rw [hslots]
      exact Or.inr hp
  | arrive id call _ _ _ hslots =>
      rw [hslots]
      by_cases hslot : slot = call.client.id
      · subst hslot
        rw [Function.update_self]
        exact Or.inr (mem_ahead_append hp id)
      · rw [Function.update_of_ne hslot]
        exact Or.inr hp
  | advance _ id call m m' _ _ hhead _ _ hmutations hslots =>
      rw [hslots, update]
      cases hfinished : m'.stage.isFinished with
      | false => exact Or.inr hp
      | true =>
          by_cases hid : p = id
          · refine Or.inl ⟨m', ?_, isPastReserve_of_isFinished hfinished⟩
            rw [hmutations, hid, Function.update_self]
          · refine Or.inr ?_
            dsimp only
            rw [if_pos rfl]
            by_cases hslot : slot = call.client.id
            · subst hslot
              obtain ⟨rest, hrest⟩ := List.head?_eq_some_iff.mp hhead
              rw [Function.update_self, hrest, List.tail_cons]
              rw [hrest] at hp
              exact mem_ahead_release hp hid
            · rw [Function.update_of_ne hslot]
              exact hp

theorem waiting_step {calls : List PresenceCall} {w w' : Writer} {e : WriterEvent}
    (h : w.Inv calls) (hstep : w.step calls e = some w') {k : Nat} {call : PresenceCall}
    (hcall : calls[k]? = some call) (hwaiting : w.mutations k = some ⟨.waiting, none⟩) :
    w'.mutations k = some ⟨.waiting, none⟩ ∨ (w.sendSlots call.client.id).head? = some k := by
  cases step_progress h hstep with
  | idle _ hmutations _ => exact Or.inl (hmutations ▸ hwaiting)
  | arrive id call' _ hfresh hmutations _ =>
      have hne : k ≠ id := by
        rintro rfl
        rw [hfresh] at hwaiting
        contradiction
      rw [hmutations, Function.update_of_ne hne]
      exact Or.inl hwaiting
  | advance _ id call' m m' hcall' _ hhead _ _ hmutations _ =>
      by_cases hid : k = id
      · subst hid
        rw [hcall] at hcall'
        obtain rfl := Option.some.inj hcall'
        exact Or.inr hhead
      · rw [hmutations, Function.update_of_ne hid]
        exact Or.inl hwaiting

theorem Precedes.step {calls : List PresenceCall} {w w' : Writer} {e : WriterEvent} {p k : Nat}
    {call : PresenceCall} (hprecedes : w.Precedes call.client p k) (h : w.Inv calls)
    (hcall : calls[k]? = some call) (hstep : w.step calls e = some w') :
    w'.Precedes call.client p k := by
  rcases hprecedes with hpast | ⟨hahead, hwaiting⟩
  · exact Or.inl (hpast.step h hstep)
  · rcases ahead_step h hstep hahead with hpast | hahead'
    · exact Or.inl hpast
    · rcases waiting_step h hstep hcall hwaiting with hwaits | hhead
      · exact Or.inr ⟨hahead', hwaits⟩
      · exact absurd hahead (notMem_ahead_of_head hhead p)

theorem precedes_arrive {calls : List PresenceCall} {w w' : Writer} {p k : Nat}
    {call : PresenceCall} (h : w.Inv calls) (hcall : calls[k]? = some call)
    (hstep : w.step calls (.arrive k) = some w')
    (hp : w.PastReserve p ∨ p ∈ w.sendSlots call.client.id) : w'.Precedes call.client p k := by
  rcases hp with hpast | hp
  · exact Or.inl (hpast.step h hstep)
  · rw [step, arrive] at hstep
    split at hstep
    · rename_i call' hcall' hfresh
      rw [hcall] at hcall'
      obtain rfl := Option.some.inj hcall'
      obtain rfl := Option.some.inj hstep
      have hnot : k ∉ w.sendSlots call.client.id := by
        rw [h.send.mem, keyOf, hcall, hfresh]
        intro heq
        cases heq
      refine Or.inr ⟨?_, Function.update_self _ _ _⟩
      dsimp only
      rw [Function.update_self]
      rw [← ahead_of_notMem hnot] at hp
      exact mem_ahead_append hp k
    · contradiction

/-- Once `k` is past its reserve, so is everyone who asked before it. -/
theorem Precedes.pastReserve {w : Writer} {client : PresenceClient} {p k : Nat}
    (hprecedes : w.Precedes client p k) (hpast : w.PastReserve k) : w.PastReserve p := by
  rcases hprecedes with hp | ⟨-, hwaiting⟩
  · exact hp
  · obtain ⟨m, hm, hpast⟩ := hpast
    rw [hwaiting] at hm
    obtain rfl := Option.some.inj hm
    contradiction

end Writer

end YohakuCore
