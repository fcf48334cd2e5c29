import YohakuCore.Companion.PresenceClient

/-! # Slots of the presence clients -/

namespace YohakuCore

open Framework

/-- The send slot a mutation waits for or holds. -/
def PresenceCall.sendKey (call : PresenceCall) (m : Mutation) : Option Nat :=
  if m.stage.isFinished then none else some call.client.id

/-- The sequencer slot a mutation waits for or holds. -/
def PresenceCall.slotKey (call : PresenceCall) (m : Mutation) : Option Nat :=
  match m.stage.operation with
  | some (_, .called) => none
  | some _ => some call.client.sequencer.id
  | none => none

namespace Writer

def keyOf (key : PresenceCall → Mutation → Option Nat) (calls : List PresenceCall) (w : Writer)
    (id : Nat) : Option Nat :=
  match calls[id]?, w.mutations id with
  | some call, some m => key call m
  | _, _ => none

def SendHolds (w : Writer) (id : Nat) : Prop :=
  ∃ m, w.mutations id = some m ∧ m.stage ≠ .waiting

/-- The mutation is between the load and the store of an operation. -/
def SlotHolds (w : Writer) (id : Nat) : Prop :=
  ∃ m op current next result, w.mutations id = some m ∧
    m.stage.operation = some (op, .storing current next result)

structure Inv (calls : List PresenceCall) (w : Writer) : Prop where
  called : ∀ id m, w.mutations id = some m → id < calls.length
  send : LockInv w.sendSlots (w.keyOf PresenceCall.sendKey calls) w.SendHolds
  slot : LockInv w.slots (w.keyOf PresenceCall.slotKey calls) w.SlotHolds

theorem inv_new (calls : List PresenceCall) (backing : String → Option Int) :
    (new backing).Inv calls := by
  have hnone (key : PresenceCall → Mutation → Option Nat) (id : Nat) :
      (new backing).keyOf key calls id = none := by
    simp only [keyOf, new]
    split
    · contradiction
    · rfl
  refine ⟨fun _ _ h => (nomatch h), ?_, ?_⟩
  · refine ⟨fun k id => ?_, fun _ => List.nodup_nil, ?_⟩
    · rw [hnone]
      exact ⟨fun h => (nomatch h), fun h => (nomatch h)⟩
    · rintro k id ⟨m, hm, -⟩
      exact nomatch hm
  · refine ⟨fun k id => ?_, fun _ => List.nodup_nil, ?_⟩
    · rw [hnone]
      exact ⟨fun h => (nomatch h), fun h => (nomatch h)⟩
    · rintro k id ⟨m, op, current, next, result, hm, -⟩
      exact nomatch hm

theorem keyOf_eq {calls : List PresenceCall} {w : Writer} {id : Nat} {call : PresenceCall}
    {m : Mutation} (hcall : calls[id]? = some call) (hm : w.mutations id = some m)
    (key : PresenceCall → Mutation → Option Nat) : w.keyOf key calls id = key call m := by
  rw [keyOf, hcall, hm]

theorem keyOf_move {calls : List PresenceCall} {w w' : Writer} {id : Nat} {call : PresenceCall}
    {m : Mutation} (hcall : calls[id]? = some call)
    (hmove : w'.mutations = Function.update w.mutations id (some m))
    (key : PresenceCall → Mutation → Option Nat) :
    w'.keyOf key calls = Function.update (w.keyOf key calls) id (key call m) := by
  funext j
  by_cases hj : j = id
  · subst hj
    rw [Function.update_self, keyOf, hcall, hmove, Function.update_self]
  · rw [Function.update_of_ne hj, keyOf, keyOf, hmove, Function.update_of_ne hj]

theorem keyOf_move_same {calls : List PresenceCall} {w w' : Writer} {id : Nat}
    {call : PresenceCall} {m : Mutation} (hcall : calls[id]? = some call)
    (hmove : w'.mutations = Function.update w.mutations id (some m))
    {key : PresenceCall → Mutation → Option Nat} (hkey : key call m = w.keyOf key calls id) :
    w'.keyOf key calls = w.keyOf key calls := by
  rw [keyOf_move hcall hmove, hkey, Function.update_eq_self]

theorem called_move {calls : List PresenceCall} {w w' : Writer} {id : Nat} {call : PresenceCall}
    {m : Mutation} (h : ∀ id m, w.mutations id = some m → id < calls.length)
    (hcall : calls[id]? = some call)
    (hmove : w'.mutations = Function.update w.mutations id (some m)) :
    ∀ id m, w'.mutations id = some m → id < calls.length := by
  intro j n hn
  rw [hmove, Function.update_apply] at hn
  split at hn
  · rename_i hj
    rw [hj]
    exact (List.getElem?_eq_some_iff.mp hcall).1
  · exact h j n hn

theorem sendHolds_move {w w' : Writer} {id : Nat} {m : Mutation}
    (hmove : w'.mutations = Function.update w.mutations id (some m)) :
    ∀ j, j ≠ id → w'.SendHolds j → w.SendHolds j := by
  rintro j hj ⟨n, hn, hstage⟩
  rw [hmove, Function.update_of_ne hj] at hn
  exact ⟨n, hn, hstage⟩

theorem slotHolds_move {w w' : Writer} {id : Nat} {m : Mutation}
    (hmove : w'.mutations = Function.update w.mutations id (some m)) :
    ∀ j, j ≠ id → w'.SlotHolds j → w.SlotHolds j := by
  rintro j hj ⟨n, op, current, next, result, hn, hstage⟩
  rw [hmove, Function.update_of_ne hj] at hn
  exact ⟨n, op, current, next, result, hn, hstage⟩

theorem not_slotHolds_of_operation {w : Writer} {id : Nat} {m : Mutation}
    (hm : w.mutations id = some m)
    (hoperation : ∀ op current next result,
      m.stage.operation ≠ some (op, .storing current next result)) : ¬ w.SlotHolds id := by
  rintro ⟨n, op, current, next, result, hn, hstage⟩
  rw [hm] at hn
  obtain rfl := Option.some.inj hn
  exact hoperation op current next result hstage

theorem Inv.send_update {calls : List PresenceCall} {w : Writer} (h : w.Inv calls) {id : Nat}
    {call : PresenceCall} {m : Mutation} (hcall : calls[id]? = some call)
    (hm : w.mutations id = some m) (hunfinished : m.stage.isFinished = false)
    (hhead : (w.sendSlots call.client.id).head? = some id) (m' : Mutation) :
    LockInv (w.update call.client id m').sendSlots
      ((w.update call.client id m').keyOf PresenceCall.sendKey calls)
      (w.update call.client id m').SendHolds := by
  have hmove : (w.update call.client id m').mutations =
      Function.update w.mutations id (some m') := rfl
  have hold : w.keyOf PresenceCall.sendKey calls id = some call.client.id := by
    rw [keyOf_eq hcall hm, PresenceCall.sendKey, hunfinished]
    rfl
  cases hfinished : m'.stage.isFinished with
  | true =>
      have hslots : (w.update call.client id m').sendSlots =
          Function.update w.sendSlots call.client.id (w.sendSlots call.client.id).tail := by
        rw [update, hfinished]
        rfl
      have hkey : call.sendKey m' = none := by
        rw [PresenceCall.sendKey, hfinished]
        rfl
      rw [hslots, keyOf_move hcall hmove, hkey]
      exact h.send.release hhead rfl (fun j hj hne => sendHolds_move hmove j hne hj)
  | false =>
      have hslots : (w.update call.client id m').sendSlots = w.sendSlots := by
        rw [update, hfinished]
        rfl
      have hkey : call.sendKey m' = w.keyOf PresenceCall.sendKey calls id := by
        rw [hold, PresenceCall.sendKey, hfinished]
        rfl
      rw [hslots]
      refine h.send.keep (keyOf_move_same hcall hmove hkey) (sendHolds_move hmove) ?_
      intro k hk _
      rw [hold] at hk
      obtain rfl := Option.some.inj hk
      exact hhead

theorem Inv.slot_update {calls : List PresenceCall} {w : Writer} (h : w.Inv calls) {id : Nat}
    {call : PresenceCall} {m m' : Mutation} (hcall : calls[id]? = some call)
    (hm : w.mutations id = some m) (hkey : call.slotKey m' = call.slotKey m)
    (hnot : ∀ op current next result,
      m'.stage.operation ≠ some (op, .storing current next result)) :
    LockInv (w.update call.client id m').slots
      ((w.update call.client id m').keyOf PresenceCall.slotKey calls)
      (w.update call.client id m').SlotHolds := by
  have hmove : (w.update call.client id m').mutations =
      Function.update w.mutations id (some m') := rfl
  have hnotHolds : ¬ (w.update call.client id m').SlotHolds id :=
    not_slotHolds_of_operation (Function.update_self _ _ _) hnot
  refine h.slot.keep ?_ (slotHolds_move hmove) (fun _ _ hholds => absurd hholds hnotHolds)
  exact keyOf_move_same hcall hmove (hkey.trans (keyOf_eq hcall hm _).symm)

theorem Inv.send_head {calls : List PresenceCall} {w : Writer} (h : w.Inv calls) {id : Nat}
    {call : PresenceCall} {m : Mutation} (hcall : calls[id]? = some call)
    (hm : w.mutations id = some m) (hunfinished : m.stage.isFinished = false)
    (hbegun : m.stage ≠ .waiting) : (w.sendSlots call.client.id).head? = some id := by
  refine h.send.head _ id ⟨m, hm, hbegun⟩ ?_
  rw [keyOf_eq hcall hm, PresenceCall.sendKey, hunfinished]
  rfl

theorem unfinished_of_operation {stage : MutationStage} {op : SequencerOp × OperationStage}
    (h : stage.operation = some op) : stage.isFinished = false ∧ stage ≠ .waiting := by
  cases stage with
  | reserving stage => exact ⟨rfl, fun heq => nomatch heq⟩
  | reconciling retry answer accepted stage => exact ⟨rfl, fun heq => nomatch heq⟩
  | waiting => contradiction
  | mapping => contradiction
  | sending retry => contradiction
  | finished result => contradiction

theorem afterAnswer_operation (retry : Bool)
    (answer : Except CompanionTransportError MutationResponse) :
    (afterAnswer retry answer).operation = none := by
  cases answer with
  | ok response => rfl
  | error error =>
      rw [afterAnswer]
      split <;> rfl

theorem operationDone_operation {m : Mutation} {op : SequencerOp × OperationStage}
    (h : m.stage.operation = some op) (result : Except SequencerError (Option UInt64)) :
    (m.operationDone result).stage.operation = none := by
  obtain ⟨stage, sequence⟩ := m
  cases stage with
  | reserving stage => cases result <;> rfl
  | reconciling retry answer accepted stage =>
      cases result with
      | ok sequence => exact afterAnswer_operation retry answer
      | error error => rfl
  | waiting => contradiction
  | mapping => contradiction
  | sending retry => contradiction
  | finished result => contradiction

theorem withOperation_operation {stage : MutationStage} {op : SequencerOp} {o : OperationStage}
    (h : stage.operation = some (op, o)) (o' : OperationStage) :
    (stage.withOperation o').operation = some (op, o') := by
  cases stage with
  | reserving stage =>
      obtain ⟨rfl, -⟩ := Prod.mk.inj (Option.some.inj h)
      rfl
  | reconciling retry answer accepted stage =>
      obtain ⟨rfl, -⟩ := Prod.mk.inj (Option.some.inj h)
      rfl
  | waiting => contradiction
  | mapping => contradiction
  | sending retry => contradiction
  | finished result => contradiction

theorem Inv.finishOperation {calls : List PresenceCall} {w : Writer} (h : w.Inv calls) {id : Nat}
    {call : PresenceCall} {m : Mutation} {op : SequencerOp} {stage : OperationStage}
    (hcall : calls[id]? = some call) (hm : w.mutations id = some m)
    (hoperation : m.stage.operation = some (op, stage))
    (hhead : (w.slots call.client.sequencer.id).head? = some id)
    (result : Except SequencerError (Option UInt64)) :
    (w.finishOperation call.client id m result).Inv calls := by
  obtain ⟨hunfinished, hbegun⟩ := unfinished_of_operation hoperation
  have hmove : (w.finishOperation call.client id m result).mutations =
      Function.update w.mutations id (some (m.operationDone result)) := rfl
  refine ⟨called_move h.called hcall hmove, ?_, ?_⟩
  · exact h.send_update hcall hm hunfinished (h.send_head hcall hm hunfinished hbegun) _
  · have hnone := operationDone_operation hoperation result
    have hkey : call.slotKey (m.operationDone result) = none := by
      rw [PresenceCall.slotKey, hnone]
    rw [keyOf_move hcall hmove, hkey]
    exact h.slot.release hhead rfl (fun j hj hne => slotHolds_move hmove j hne hj)

/-- A mutation past its reserve goes on: the mapper or the transport has answered. -/
structure Answers (m m' : Mutation) : Prop where
  stage : m.stage = .mapping ∨ ∃ retry, m.stage = .sending retry
  sequence : m'.sequence = m.sequence
  operation : m'.stage.operation = none ∨ ∃ op, m'.stage.operation = some (op, .called)
  begun : m'.stage ≠ .waiting
  reserved : ∀ stage, m'.stage ≠ .reserving stage

/-- A step removes an entry, or moves the one mutation it is about. -/
inductive StepCase (calls : List PresenceCall) (w w' : Writer) : WriterEvent → Prop
  | removed (deviceId : String)
      (removes : w' = { w with backing := Function.update w.backing deviceId none }) :
      StepCase calls w w' (.remove deviceId)
  | arrived (id : Nat) (call : PresenceCall) (called : calls[id]? = some call)
      (fresh : w.mutations id = none)
      (arrives : w' = { w with
        mutations := Function.update w.mutations id (some ⟨.waiting, none⟩)
        sendSlots := Function.update w.sendSlots call.client.id
          (w.sendSlots call.client.id ++ [id]) }) : StepCase calls w w' (.arrive id)
  | begun (id : Nat) (call : PresenceCall) (sequence : Option UInt64)
      (called : calls[id]? = some call) (under : w.mutations id = some ⟨.waiting, sequence⟩)
      (head : (w.sendSlots call.client.id).head? = some id)
      (begins : w' = w.update call.client id ⟨.reserving .called, sequence⟩) :
      StepCase calls w w' (.begin id)
  | enqueued (id : Nat) (call : PresenceCall) (m : Mutation) (op : SequencerOp)
      (called : calls[id]? = some call) (under : w.mutations id = some m)
      (operation : m.stage.operation = some (op, .called))
      (enqueues : w' = {
        w.update call.client id { m with stage := m.stage.withOperation .queued } with
        slots := Function.update w.slots call.client.sequencer.id
          (w.slots call.client.sequencer.id ++ [id]) }) : StepCase calls w w' (.enqueue id)
  | loaded (id : Nat) (call : PresenceCall) (m : Mutation) (op : SequencerOp)
      (current next : UInt64) (result : Option UInt64) (called : calls[id]? = some call)
      (under : w.mutations id = some m) (operation : m.stage.operation = some (op, .queued))
      (head : (w.slots call.client.sequencer.id).head? = some id)
      (reads : current = currentNext call.client.sequencer.pairingNextSequence
        (w.backing call.client.sequencer.deviceId))
      (loads : op.loads = true) (plan : op.plan current = .store next result)
      (updates : w' = w.update call.client id
        { m with stage := m.stage.withOperation (.storing current next result) }) :
      StepCase calls w w' (.load id)
  | finished (id : Nat) (call : PresenceCall) (m : Mutation) (op : SequencerOp)
      (result : Except SequencerError (Option UInt64)) (called : calls[id]? = some call)
      (under : w.mutations id = some m) (operation : m.stage.operation = some (op, .queued))
      (head : (w.slots call.client.sequencer.id).head? = some id)
      (quiet : ∀ v, result ≠ .ok (some v))
      (finishes : w' = w.finishOperation call.client id m result) :
      StepCase calls w w' (.load id)
  | stored (id : Nat) (call : PresenceCall) (m : Mutation) (op : SequencerOp)
      (current next : UInt64) (result : Option UInt64) (called : calls[id]? = some call)
      (under : w.mutations id = some m)
      (operation : m.stage.operation = some (op, .storing current next result))
      (stores : w' = { w with
        backing := Function.update w.backing call.client.sequencer.deviceId
          (some (next.toNat : Int)) }.finishOperation call.client id m (.ok result)) :
      StepCase calls w w' (.store id true)
  | failed (id : Nat) (call : PresenceCall) (m : Mutation) (op : SequencerOp)
      (current next : UInt64) (result : Option UInt64) (called : calls[id]? = some call)
      (under : w.mutations id = some m)
      (operation : m.stage.operation = some (op, .storing current next result))
      (fails : w' = w.finishOperation call.client id m (.error .backing)) :
      StepCase calls w w' (.store id false)
  | answered (e : WriterEvent) (id : Nat) (call : PresenceCall) (m m' : Mutation)
      (called : calls[id]? = some call) (under : w.mutations id = some m)
      (answers : Answers m m') (updates : w' = w.update call.client id m') :
      StepCase calls w w' e

theorem afterAnswer_past (retry : Bool)
    (answer : Except CompanionTransportError MutationResponse) :
    afterAnswer retry answer ≠ .waiting ∧
      ∀ stage, afterAnswer retry answer ≠ .reserving stage := by
  cases answer with
  | ok response => exact ⟨(fun heq => nomatch heq), (fun _ heq => nomatch heq)⟩
  | error error =>
      rw [afterAnswer]
      split
      · exact ⟨(fun heq => nomatch heq), (fun _ heq => nomatch heq)⟩
      · exact ⟨(fun heq => nomatch heq), (fun _ heq => nomatch heq)⟩

theorem load_case {calls : List PresenceCall} {w w' : Writer} {id : Nat}
    (h : w.load calls id = some w') : StepCase calls w w' (.load id) := by
  rw [load] at h
  split at h
  · rename_i call m hcall hm
    dsimp only at h
    split at h
    · rename_i op hoperation
      split at h
      · rename_i hhead
        split at h
        · rename_i hloads
          split at h
          · rename_i result hplan
            refine .finished id call m op result hcall hm hoperation hhead ?_
              (Option.some.inj h).symm
            intro v hv
            rw [hv] at hplan
            have hnone := (SequencerOp.plan_finish_ok hloads hplan).1
            contradiction
          · rename_i next result hplan
            exact .loaded id call m op _ next result hcall hm hoperation hhead rfl hloads hplan
              (Option.some.inj h).symm
        · exact .finished id call m op (.ok none) hcall hm hoperation hhead (by simp)
            (Option.some.inj h).symm
      · contradiction
    · contradiction
  · contradiction

theorem store_case {calls : List PresenceCall} {w w' : Writer} {id : Nat} {succeeds : Bool}
    (h : w.store calls id succeeds = some w') : StepCase calls w w' (.store id succeeds) := by
  rw [store] at h
  split at h
  · rename_i call m hcall hm
    split at h
    · rename_i op current next result hoperation
      cases succeeds with
      | true =>
          exact .stored id call m op current next result hcall hm hoperation
            (Option.some.inj h).symm
      | false =>
          exact .failed id call m op current next result hcall hm hoperation
            (Option.some.inj h).symm
    · contradiction
  · contradiction

theorem map_case {calls : List PresenceCall} {w w' : Writer} {id : Nat}
    {error : Option WireError} (h : w.map calls id error = some w') :
    StepCase calls w w' (.map id error) := by
  rw [map] at h
  split at h
  · rename_i call sequence hcall hm
    have hanswers (stage : MutationStage)
        (h : stage = .sending false ∨ ∃ result, stage = .finished result) :
        Answers ⟨.mapping, sequence⟩ ⟨stage, sequence⟩ := by
      refine ⟨Or.inl rfl, rfl, ?_, ?_, ?_⟩ <;> rcases h with rfl | ⟨result, rfl⟩
      · exact Or.inl rfl
      · exact Or.inl rfl
      all_goals simp
    split at h
    · exact .answered _ id call _ _ hcall hm (hanswers _ (Or.inl rfl)) (Option.some.inj h).symm
    · exact .answered _ id call _ _ hcall hm (hanswers _ (Or.inr ⟨_, rfl⟩))
        (Option.some.inj h).symm
  · contradiction

theorem answer_case {calls : List PresenceCall} {w w' : Writer} {id : Nat}
    {answer : Except CompanionTransportError MutationResponse}
    (h : w.answer calls id answer = some w') : StepCase calls w w' (.answer id answer) := by
  rw [Writer.answer] at h
  split at h
  · rename_i call retry sequence hcall hm
    split at h
    · rename_i acceptedSequence haccepted
      have hanswers : Answers ⟨.sending retry, sequence⟩
          ⟨.reconciling retry answer acceptedSequence .called, sequence⟩ :=
        ⟨Or.inr ⟨retry, rfl⟩, rfl, Or.inr ⟨_, rfl⟩, by simp, by simp⟩
      exact .answered _ id call _ _ hcall hm hanswers (Option.some.inj h).symm
    · have hanswers : Answers ⟨.sending retry, sequence⟩ ⟨afterAnswer retry answer, sequence⟩ :=
        ⟨Or.inr ⟨retry, rfl⟩, rfl, Or.inl (afterAnswer_operation retry answer),
          (afterAnswer_past retry answer).1, (afterAnswer_past retry answer).2⟩
      exact .answered _ id call _ _ hcall hm hanswers (Option.some.inj h).symm
  · contradiction

theorem step_case {calls : List PresenceCall} {w w' : Writer} {e : WriterEvent}
    (h : w.step calls e = some w') : StepCase calls w w' e := by
  cases e with
  | remove deviceId => exact .removed deviceId (Option.some.inj h).symm
  | arrive id =>
      simp only [step, arrive] at h
      split at h
      · rename_i call hcall hm
        exact .arrived id call hcall hm (Option.some.inj h).symm
      · contradiction
  | begin id =>
      simp only [step, begin] at h
      split at h
      · rename_i call sequence hcall hm
        split at h
        · rename_i hhead
          exact .begun id call sequence hcall hm hhead (Option.some.inj h).symm
        · contradiction
      · contradiction
  | enqueue id =>
      simp only [step, enqueue] at h
      split at h
      · rename_i call m hcall hm
        split at h
        · rename_i op hoperation
          exact .enqueued id call m op hcall hm hoperation (Option.some.inj h).symm
        · contradiction
      · contradiction
  | load id => exact load_case h
  | store id succeeds => exact store_case h
  | map id error => exact map_case h
  | answer id answer => exact answer_case h

theorem Answers.unfinished {m m' : Mutation} (h : Answers m m') :
    m.stage.isFinished = false ∧ m.stage ≠ .waiting ∧ m.stage.operation = none := by
  rcases h.stage with hstage | ⟨retry, hstage⟩
  · rw [hstage]
    exact ⟨rfl, by simp, rfl⟩
  · rw [hstage]
    exact ⟨rfl, by simp, rfl⟩

theorem Answers.not_storing {m m' : Mutation} (h : Answers m m') (op : SequencerOp)
    (current next : UInt64) (result : Option UInt64) :
    m'.stage.operation ≠ some (op, .storing current next result) := by
  intro heq
  rcases h.operation with hnone | ⟨op', hcalled⟩
  · rw [hnone] at heq
    contradiction
  · rw [hcalled] at heq
    exact nomatch heq

theorem Inv.arrive {calls : List PresenceCall} {w : Writer} (h : w.Inv calls) {id : Nat}
    {call : PresenceCall} (hcall : calls[id]? = some call) (hm : w.mutations id = none) :
    Inv calls { w with
      mutations := Function.update w.mutations id (some ⟨.waiting, none⟩)
      sendSlots := Function.update w.sendSlots call.client.id
        (w.sendSlots call.client.id ++ [id]) } := by
  have hfree (key : PresenceCall → Mutation → Option Nat) : w.keyOf key calls id = none := by
    rw [keyOf, hcall, hm]
  refine ⟨called_move h.called hcall rfl, ?_, ?_⟩
  · refine h.send.ask (hfree _) (keyOf_move (m := ⟨.waiting, none⟩) hcall rfl _) ?_
    intro j hj
    have hne : j ≠ id := by
      rintro rfl
      obtain ⟨n, hn, hstage⟩ := hj
      have hn : Function.update w.mutations j (some ⟨.waiting, none⟩) j = some n := hn
      rw [Function.update_self] at hn
      obtain rfl := Option.some.inj hn
      exact hstage rfl
    exact ⟨hne, sendHolds_move rfl j hne hj⟩
  · have hkey : call.slotKey ⟨.waiting, none⟩ = w.keyOf PresenceCall.slotKey calls id :=
      (hfree _).symm
    refine h.slot.keep (keyOf_move_same hcall rfl hkey) (slotHolds_move rfl) ?_
    intro k hk _
    rw [hfree] at hk
    contradiction

theorem Inv.enqueue {calls : List PresenceCall} {w : Writer} (h : w.Inv calls) {id : Nat}
    {call : PresenceCall} {m : Mutation} {op : SequencerOp} (hcall : calls[id]? = some call)
    (hm : w.mutations id = some m) (hoperation : m.stage.operation = some (op, .called)) :
    Inv calls {
      w.update call.client id { m with stage := m.stage.withOperation .queued } with
      slots := Function.update w.slots call.client.sequencer.id
        (w.slots call.client.sequencer.id ++ [id]) } := by
  obtain ⟨hunfinished, hbegun⟩ := unfinished_of_operation hoperation
  have hqueued := withOperation_operation hoperation .queued
  refine ⟨called_move h.called hcall rfl, ?_, ?_⟩
  · exact h.send_update hcall hm hunfinished (h.send_head hcall hm hunfinished hbegun) _
  · have hkey : call.slotKey { m with stage := m.stage.withOperation .queued } =
        some call.client.sequencer.id := by
      rw [PresenceCall.slotKey, hqueued]
    have hfree : w.keyOf PresenceCall.slotKey calls id = none := by
      rw [keyOf_eq hcall hm, PresenceCall.slotKey, hoperation]
    refine h.slot.ask hfree (hkey ▸ keyOf_move hcall rfl _) ?_
    intro j hj
    have hne : j ≠ id := by
      rintro rfl
      refine not_slotHolds_of_operation (Function.update_self _ _ _) ?_ hj
      intro op' current next result heq
      rw [hqueued] at heq
      exact nomatch heq
    exact ⟨hne, slotHolds_move rfl j hne hj⟩

theorem Inv.load {calls : List PresenceCall} {w : Writer} (h : w.Inv calls) {id : Nat}
    {call : PresenceCall} {m : Mutation} {op : SequencerOp} (hcall : calls[id]? = some call)
    (hm : w.mutations id = some m) (hoperation : m.stage.operation = some (op, .queued))
    (hhead : (w.slots call.client.sequencer.id).head? = some id) (current next : UInt64)
    (result : Option UInt64) :
    (w.update call.client id
      { m with stage := m.stage.withOperation (.storing current next result) }).Inv calls := by
  obtain ⟨hunfinished, hbegun⟩ := unfinished_of_operation hoperation
  refine ⟨called_move h.called hcall rfl, ?_, ?_⟩
  · exact h.send_update hcall hm hunfinished (h.send_head hcall hm hunfinished hbegun) _
  · have hold : w.keyOf PresenceCall.slotKey calls id = some call.client.sequencer.id := by
      rw [keyOf_eq hcall hm, PresenceCall.slotKey, hoperation]
    refine h.slot.keep (keyOf_move_same hcall rfl ?_) (slotHolds_move rfl) ?_
    · rw [hold, PresenceCall.slotKey, withOperation_operation hoperation]
    · intro k hk _
      rw [hold] at hk
      obtain rfl := Option.some.inj hk
      exact hhead

/-- An operation between its load and its store is the head of its sequencer's slot. -/
theorem Inv.slot_head {calls : List PresenceCall} {w : Writer} (h : w.Inv calls) {id : Nat}
    {call : PresenceCall} {m : Mutation} {op : SequencerOp} {current next : UInt64}
    {result : Option UInt64} (hcall : calls[id]? = some call) (hm : w.mutations id = some m)
    (hoperation : m.stage.operation = some (op, .storing current next result)) :
    (w.slots call.client.sequencer.id).head? = some id := by
  refine h.slot.head _ id ⟨m, op, current, next, result, hm, hoperation⟩ ?_
  rw [keyOf_eq hcall hm, PresenceCall.slotKey, hoperation]

theorem Inv.answers {calls : List PresenceCall} {w : Writer} (h : w.Inv calls) {id : Nat}
    {call : PresenceCall} {m m' : Mutation} (hcall : calls[id]? = some call)
    (hm : w.mutations id = some m) (hanswers : Answers m m') :
    (w.update call.client id m').Inv calls := by
  obtain ⟨hunfinished, hbegun, hoperation⟩ := hanswers.unfinished
  have hhead := h.send_head hcall hm hunfinished hbegun
  refine ⟨called_move h.called hcall rfl, h.send_update hcall hm hunfinished hhead _,
    h.slot_update hcall hm ?_ hanswers.not_storing⟩
  rw [PresenceCall.slotKey, PresenceCall.slotKey, hoperation]
  rcases hanswers.operation with hnone | ⟨op, hcalled⟩
  · rw [hnone]
  · rw [hcalled]

theorem Inv.step {calls : List PresenceCall} {w w' : Writer} {e : WriterEvent} (h : w.Inv calls)
    (hstep : w.step calls e = some w') : w'.Inv calls := by
  cases step_case hstep with
  | removed deviceId hremoves => exact hremoves ▸ ⟨h.called, h.send, h.slot⟩
  | arrived id call hcall hm harrives => exact harrives ▸ h.arrive hcall hm
  | begun id call sequence hcall hm hhead hbegins =>
      rw [hbegins]
      exact ⟨called_move h.called hcall rfl, h.send_update hcall hm rfl hhead _,
        h.slot_update hcall hm rfl (fun _ _ _ _ heq => nomatch heq)⟩
  | enqueued id call m op hcall hm hoperation henqueues =>
      exact henqueues ▸ h.enqueue hcall hm hoperation
  | loaded id call m op current next result hcall hm hoperation hhead _ _ _ hupdates =>
      exact hupdates ▸ h.load hcall hm hoperation hhead current next result
  | finished id call m op result hcall hm hoperation hhead _ hfinishes =>
      exact hfinishes ▸ h.finishOperation hcall hm hoperation hhead result
  | stored id call m op current next result hcall hm hoperation hstores =>
      have hstored : Inv calls { w with
          backing := Function.update w.backing call.client.sequencer.deviceId
            (some (next.toNat : Int)) } := ⟨h.called, h.send, h.slot⟩
      rw [hstores]
      exact hstored.finishOperation hcall hm hoperation (h.slot_head hcall hm hoperation) _
  | failed id call m op current next result hcall hm hoperation hfails =>
      exact hfails ▸ h.finishOperation hcall hm hoperation (h.slot_head hcall hm hoperation) _
  | answered _ id call m m' hcall hm hanswers hupdates =>
      exact hupdates ▸ h.answers hcall hm hanswers

theorem Inv.append_calls {calls : List PresenceCall} {w : Writer} (h : w.Inv calls)
    (later : List PresenceCall) : w.Inv (calls ++ later) := by
  have hkey (key : PresenceCall → Mutation → Option Nat) :
      w.keyOf key (calls ++ later) = w.keyOf key calls := by
    funext id
    cases hm : w.mutations id with
    | none =>
        rw [keyOf, keyOf, hm]
        split <;> split <;> first | contradiction | rfl
    | some m =>
        rw [keyOf, keyOf, List.getElem?_append_left (h.called id m hm)]
  refine ⟨?_, ?_, ?_⟩
  · intro id m hm
    rw [List.length_append]
    exact Nat.lt_add_right _ (h.called id m hm)
  · rw [hkey]
    exact h.send
  · rw [hkey]
    exact h.slot

end Writer

end YohakuCore
