import YohakuCore.Companion.Coordinator
import YohakuCore.Framework.Execution
import YohakuCore.Framework.FifoLock

/-!
# Presence clients

The mutations of all clients side by side over one sequence store. A load and a store are single
steps; between the two, anything else may happen. What the server and the disk do is part of the
event.
-/

namespace YohakuCore

open Framework

/-- Where an operation of a sequencer stands: asked for, in the slot's queue, or between its load
and its store. -/
inductive OperationStage where
  | called
  | queued
  | storing (current next : UInt64) (result : Option UInt64)
  deriving DecidableEq

inductive MutationStage where
  | waiting
  | reserving (stage : OperationStage)
  | mapping
  | sending (retry : Bool)
  | reconciling (retry : Bool) (answer : Except CompanionTransportError MutationResponse)
      (acceptedSequence : UInt64) (stage : OperationStage)
  | finished (result : Except PresenceClientError MutationResponse)
  deriving DecidableEq

/-- A mutation under way, with the sequence it has reserved. -/
structure Mutation where
  stage : MutationStage
  sequence : Option UInt64
  deriving DecidableEq

/-- `sequence.json` by device, the queues of the send slots by client and of the sequencer slots by
sequencer, and the mutations by the position of their call. -/
structure Writer where
  backing : String → Option Int
  sendSlots : Nat → List Nat
  slots : Nat → List Nat
  mutations : Nat → Option Mutation

def Writer.new (backing : String → Option Int) : Writer where
  backing := backing
  sendSlots _ := []
  slots _ := []
  mutations _ := none

/-- The operation a mutation is running on its sequencer. -/
def MutationStage.operation : MutationStage → Option (SequencerOp × OperationStage)
  | .reserving stage => some (.reserve, stage)
  | .reconciling _ _ acceptedSequence stage => some (.reconcile acceptedSequence, stage)
  | _ => none

def MutationStage.withOperation (s : MutationStage) (stage : OperationStage) : MutationStage :=
  match s with
  | .reserving _ => .reserving stage
  | .reconciling retry answer acceptedSequence _ =>
      .reconciling retry answer acceptedSequence stage
  | s => s

/-- What follows an answer once its accepted sequence is reconciled: the only retry, or the end. -/
def afterAnswer (retry : Bool) :
    Except CompanionTransportError MutationResponse → MutationStage
  | .ok response => .finished (.ok response)
  | .error error =>
      if !retry && isSafeForImmediateIdempotentRetry error then .sending true
      else .finished (.error (.transport error))

/-- The accepted sequence an answer carries. -/
def acceptedSequenceIn : Except CompanionTransportError MutationResponse → Option UInt64
  | .ok response => some response.acceptedSequence
  | .error error => acceptedSequenceOf error

/-- The mutation once its reserve or reconcile returned. A reserve returns the sequence. -/
def Mutation.operationDone (m : Mutation) (result : Except SequencerError (Option UInt64)) :
    Mutation :=
  match m.stage, result with
  | .reserving _, .ok sequence => { stage := .mapping, sequence := sequence }
  | .reconciling retry answer _ _, .ok _ => { m with stage := afterAnswer retry answer }
  | _, .ok _ => m
  | _, .error error => { m with stage := .finished (.error (.sequencer error)) }

def MutationStage.isFinished : MutationStage → Bool
  | .finished _ => true
  | _ => false

namespace Writer

/-- The mutation's new stage; a finished one gives up its client's send slot. -/
def update (w : Writer) (client : PresenceClient) (id : Nat) (m : Mutation) : Writer :=
  { w with
    mutations := Function.update w.mutations id (some m)
    sendSlots :=
      if m.stage.isFinished then
        Function.update w.sendSlots client.id (w.sendSlots client.id).tail
      else w.sendSlots }

/-- The end of a sequencer operation: its slot is given up. -/
def finishOperation (w : Writer) (client : PresenceClient) (id : Nat) (m : Mutation)
    (result : Except SequencerError (Option UInt64)) : Writer :=
  let released := {
    w with
    slots := Function.update w.slots client.sequencer.id (w.slots client.sequencer.id).tail }
  released.update client id (m.operationDone result)

end Writer

inductive WriterEvent where
  | arrive (id : Nat)
  | begin (id : Nat)
  | enqueue (id : Nat)
  | load (id : Nat)
  | store (id : Nat) (succeeds : Bool)
  | map (id : Nat) (error : Option WireError)
  | answer (id : Nat) (answer : Except CompanionTransportError MutationResponse)
  | remove (deviceId : String)
  deriving DecidableEq

namespace Writer

/-- The call asks for its client's send slot. -/
def arrive (calls : List PresenceCall) (w : Writer) (id : Nat) : Option Writer :=
  match calls[id]?, w.mutations id with
  | some call, none =>
      some { w with
        mutations := Function.update w.mutations id (some ⟨.waiting, none⟩)
        sendSlots := Function.update w.sendSlots call.client.id
          (w.sendSlots call.client.id ++ [id]) }
  | _, _ => none

/-- The head of the send slot begins its lifecycle with a reserve. -/
def begin (calls : List PresenceCall) (w : Writer) (id : Nat) : Option Writer :=
  match calls[id]?, w.mutations id with
  | some call, some ⟨.waiting, sequence⟩ =>
      if (w.sendSlots call.client.id).head? = some id then
        some (w.update call.client id ⟨.reserving .called, sequence⟩)
      else none
  | _, _ => none

/-- The operation asks for its sequencer's slot. -/
def enqueue (calls : List PresenceCall) (w : Writer) (id : Nat) : Option Writer :=
  match calls[id]?, w.mutations id with
  | some call, some m =>
      match m.stage.operation with
      | some (_, .called) =>
          some { w.update call.client id { m with stage := m.stage.withOperation .queued } with
            slots := Function.update w.slots call.client.sequencer.id
              (w.slots call.client.sequencer.id ++ [id]) }
      | _ => none
  | _, _ => none

/-- The head of the sequencer's slot loads and decides. -/
def load (calls : List PresenceCall) (w : Writer) (id : Nat) : Option Writer :=
  match calls[id]?, w.mutations id with
  | some call, some m =>
      let sequencer := call.client.sequencer
      match m.stage.operation with
      | some (op, .queued) =>
          if (w.slots sequencer.id).head? = some id then
            let current :=
              currentNext sequencer.pairingNextSequence (w.backing sequencer.deviceId)
            if op.loads then
              match op.plan current with
              | .finish result => some (w.finishOperation call.client id m result)
              | .store next result =>
                  some (w.update call.client id
                    { m with stage := m.stage.withOperation (.storing current next result) })
            else some (w.finishOperation call.client id m (.ok none))
          else none
      | _ => none
  | _, _ => none

def store (calls : List PresenceCall) (w : Writer) (id : Nat) (succeeds : Bool) :
    Option Writer :=
  match calls[id]?, w.mutations id with
  | some call, some m =>
      match m.stage.operation with
      | some (_, .storing _ next result) =>
          if succeeds then
            let deviceId := call.client.sequencer.deviceId
            let stored := {
              w with backing := Function.update w.backing deviceId (some (next.toNat : Int)) }
            some (stored.finishOperation call.client id m (.ok result))
          else some (w.finishOperation call.client id m (.error .backing))
      | _ => none
  | _, _ => none

/-- The mapper, then the first attempt. The device guard compares the credential with itself. -/
def map (calls : List PresenceCall) (w : Writer) (id : Nat) (error : Option WireError) :
    Option Writer :=
  match calls[id]?, w.mutations id with
  | some call, some ⟨.mapping, sequence⟩ =>
      match error with
      | none => some (w.update call.client id ⟨.sending false, sequence⟩)
      | some error =>
          some (w.update call.client id ⟨.finished (.error (.wire error)), sequence⟩)
  | _, _ => none

def answer (calls : List PresenceCall) (w : Writer) (id : Nat)
    (answer : Except CompanionTransportError MutationResponse) : Option Writer :=
  match calls[id]?, w.mutations id with
  | some call, some ⟨.sending retry, sequence⟩ =>
      match acceptedSequenceIn answer with
      | some acceptedSequence =>
          some (w.update call.client id
            ⟨.reconciling retry answer acceptedSequence .called, sequence⟩)
      | none => some (w.update call.client id ⟨afterAnswer retry answer, sequence⟩)
  | _, _ => none

/-- One step of the mutations called so far. Unpairing removes a device's entry. -/
def step (calls : List PresenceCall) (w : Writer) : WriterEvent → Option Writer
  | .arrive id => w.arrive calls id
  | .begin id => w.begin calls id
  | .enqueue id => w.enqueue calls id
  | .load id => w.load calls id
  | .store id succeeds => w.store calls id succeeds
  | .map id error => w.map calls id error
  | .answer id answer => w.answer calls id answer
  | .remove deviceId => some { w with backing := Function.update w.backing deviceId none }

end Writer

end YohakuCore
