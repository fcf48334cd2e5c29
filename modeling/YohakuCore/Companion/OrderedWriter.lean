import YohakuCore.Companion.HttpClient
import YohakuCore.Companion.SequenceReuse
import YohakuCore.Protocol.DtoMapper

/-!
# The ordered writer

All mutations of one presence client, down to the wire: what a mutation encodes, which attempts it
sends and when they are answered. Between any two steps of one mutation any step of another may
fall. An event says whose turn it is; what the disk, the id generator and the network do in it is
its outcome, and no outcome decides whether the turn can be taken.
-/

namespace YohakuCore

open Framework

/-- The libraries under a mutation. `presenceBody` and `clearBody` are the JSON bytes of a mapped
request. -/
structure WireCodec where
  calendar : Calendar
  floats : Floats
  parse : String → Option Json
  presenceBody : PresenceRequest → List UInt8
  clearBody : ClearRequest → List UInt8

/-- The arguments of one call of the client. -/
inductive MutationRequest where
  | replacePresence (snapshot : SanitizedPresenceSnapshot) (requestedLeaseSeconds : F64)
  | clearPresence (reason : ClearReason) (observedAt : Int)

def PresenceClient.makeRequestOptions (client : PresenceClient) : MakeRequestOptions where
  deviceId := client.credential.deviceId
  leaseMinSeconds := client.configuration.leaseMinSeconds
  leaseMaxSeconds := client.configuration.leaseMaxSeconds

namespace MutationRequest

/-- The call the slots see: of it they only need the client. -/
def call (client : PresenceClient) : MutationRequest → PresenceCall
  | replacePresence snapshot requestedLeaseSeconds =>
      .replacePresence 0 client snapshot (saturateToI64 (roundHalfAway requestedLeaseSeconds))
  | clearPresence reason observedAt => .clearPresence 0 client reason observedAt

def method : MutationRequest → HttpMethod
  | replacePresence _ _ => .put
  | clearPresence _ _ => .post

def path : MutationRequest → String
  | replacePresence _ _ => "/companion/presence"
  | clearPresence _ _ => "/companion/presence/clear"

/-- The mapper and the only encoding of the body. The device guard between them compares the
credential's device with itself: see `makePresenceRequest_deviceId`, `makeClearRequest_deviceId`. -/
def encode (codec : WireCodec) (client : PresenceClient) (sequence : UInt64) (requestId : String) :
    MutationRequest → Except WireError (List UInt8)
  | replacePresence snapshot requestedLeaseSeconds =>
      (makePresenceRequest codec.calendar codec.floats snapshot sequence requestedLeaseSeconds
        client.makeRequestOptions requestId).map codec.presenceBody
  | clearPresence reason observedAt =>
      (makeClearRequest codec.calendar reason sequence observedAt client.makeRequestOptions
        requestId).map codec.clearBody

/-- Both attempts are executed with these options. -/
def options (client : PresenceClient) (request : MutationRequest) (requestId : String)
    (body : List UInt8) : ExecuteOptions :=
  client.attemptOptions request.method request.path requestId body

@[simp] theorem call_client (client : PresenceClient) (request : MutationRequest) :
    (request.call client).client = client := by
  cases request <;> rfl

end MutationRequest

/-- What a mutation leaves in the trace. -/
inductive TraceEntry where
  | arrived
  | reserved (sequence : UInt64)
  | sent (request : HttpRequest)
  | answered
  deriving DecidableEq

namespace TraceEntry

def sequence? : TraceEntry → Option UInt64
  | reserved sequence => some sequence
  | _ => none

def request? : TraceEntry → Option HttpRequest
  | sent request => some request
  | _ => none

def isArrival : TraceEntry → Bool
  | arrived => true
  | _ => false

def isOnWire : TraceEntry → Bool
  | sent _ => true
  | answered => true
  | _ => false

end TraceEntry

/-- The request id and the bytes of a mapped mutation, and whether an attempt waits for its
answer. -/
structure Delivery where
  encoded : Option (String × List UInt8)
  inFlight : Bool

/-- The sequence that the store of this stage hands out. -/
def MutationStage.handedOut : MutationStage → Option UInt64
  | .reserving (.storing _ _ result) => result
  | _ => none

structure OrderedWriter where
  writer : Writer
  deliveries : Nat → Delivery
  trace : List (Nat × TraceEntry)

/-- A turn of the mutation `id`. -/
inductive Turn where
  | arrive
  | begin
  | enqueue
  | load
  | store
  | map
  | send
  | answer
  deriving DecidableEq

structure Outcome where
  storeSucceeds : Bool
  requestId : String
  response : Option HttpResponse

structure OrderedEvent where
  turn : Turn
  id : Nat
  outcome : Outcome

namespace OrderedWriter

def new (backing : String → Option Int) : OrderedWriter where
  writer := .new backing
  deliveries _ := ⟨none, false⟩
  trace := []

/-- The writer moved; the mutation leaves these entries. -/
def moved (s : OrderedWriter) (id : Nat) (delivery : Delivery) (entries : List TraceEntry)
    (writer : Writer) : OrderedWriter where
  writer := writer
  deliveries := Function.update s.deliveries id delivery
  trace := s.trace ++ entries.map (Prod.mk id)

section Step

variable (codec : WireCodec) (client : PresenceClient) (requests : List MutationRequest)

def calls : List PresenceCall := requests.map (MutationRequest.call client)

def store (s : OrderedWriter) (id : Nat) (outcome : Outcome) : Option OrderedWriter :=
  let handedOut := (s.writer.mutations id).bind (fun m => m.stage.handedOut)
  let entries :=
    if outcome.storeSucceeds then handedOut.toList.map TraceEntry.reserved else []
  (s.writer.store (calls client requests) id outcome.storeSucceeds).map
    (s.moved id (s.deliveries id) entries)

/-- A mapper error ends the mutation; the sequence it has reserved is a gap. -/
def map (s : OrderedWriter) (id : Nat) (outcome : Outcome) : Option OrderedWriter :=
  match requests[id]?, s.writer.mutations id with
  | some request, some ⟨.mapping, some sequence⟩ =>
      match request.encode codec client sequence outcome.requestId with
      | .ok body =>
          (s.writer.map (calls client requests) id none).map
            (s.moved id ⟨some (outcome.requestId, body), false⟩ [])
      | .error error =>
          (s.writer.map (calls client requests) id (some error)).map
            (s.moved id (s.deliveries id) [])
  | _, _ => none

/-- An attempt goes out unless its body is over the cap. -/
def send (s : OrderedWriter) (id : Nat) : Option OrderedWriter :=
  match requests[id]?, s.writer.mutations id, s.deliveries id with
  | some request, some ⟨.sending _, _⟩, ⟨some (requestId, body), false⟩ =>
      let options := request.options client requestId body
      if options.overCap = none then
        some (s.moved id ⟨some (requestId, body), true⟩ [.sent options.request] s.writer)
      else none
  | _, _, _ => none

/-- The attempt is over: it was answered, it failed, or it was never sent. -/
def answer (s : OrderedWriter) (id : Nat) (outcome : Outcome) : Option OrderedWriter :=
  match requests[id]?, s.deliveries id with
  | some request, ⟨some (requestId, body), inFlight⟩ =>
      let options := request.options client requestId body
      if inFlight = true ∨ options.overCap ≠ none then
        let attempt := execute codec.calendar codec.parse options
          (decodeMutationResponse codec.calendar) (fun _ => outcome.response)
        (s.writer.answer (calls client requests) id attempt.answer).map
          (s.moved id ⟨some (requestId, body), false⟩ (if inFlight then [.answered] else []))
      else none
  | _, _ => none

def step (s : OrderedWriter) (e : OrderedEvent) : Option OrderedWriter :=
  match e.turn with
  | .arrive =>
      (s.writer.arrive (calls client requests) e.id).map
        (s.moved e.id (s.deliveries e.id) [.arrived])
  | .begin =>
      (s.writer.begin (calls client requests) e.id).map (s.moved e.id (s.deliveries e.id) [])
  | .enqueue =>
      (s.writer.enqueue (calls client requests) e.id).map (s.moved e.id (s.deliveries e.id) [])
  | .load =>
      (s.writer.load (calls client requests) e.id).map (s.moved e.id (s.deliveries e.id) [])
  | .store => s.store client requests e.id e.outcome
  | .map => s.map codec client requests e.id e.outcome
  | .send => s.send client requests e.id
  | .answer => s.answer codec client requests e.id e.outcome

end Step

/-- The entries of one mutation, in order. -/
def entries (s : OrderedWriter) (id : Nat) : List TraceEntry :=
  (s.trace.filter (fun entry => entry.1 = id)).map Prod.snd

/-- The sequences a mutation has reserved. -/
def reservations (s : OrderedWriter) (id : Nat) : List UInt64 :=
  (s.entries id).filterMap TraceEntry.sequence?

/-- The attempts a mutation has sent. -/
def attempts (s : OrderedWriter) (id : Nat) : List HttpRequest :=
  (s.entries id).filterMap TraceEntry.request?

/-- The mutations in the order in which they asked for the send slot. -/
def arrivals (s : OrderedWriter) : List Nat :=
  (s.trace.filter (fun entry => entry.2.isArrival)).map Prod.fst

/-- The mutations that the wire sees, entry by entry. -/
def wire (s : OrderedWriter) : List Nat :=
  (s.trace.filter (fun entry => entry.2.isOnWire)).map Prod.fst

end OrderedWriter

/-- A turn of a mutation past its arrival, with the entries it leaves. -/
inductive CallMove (codec : WireCodec) (client : PresenceClient) (request : MutationRequest) :
    Mutation → Delivery → Mutation → Delivery → List TraceEntry → Prop where
  | begun (sequence : Option UInt64) (d : Delivery) :
      CallMove codec client request ⟨.waiting, sequence⟩ d ⟨.reserving .called, sequence⟩ d []
  | enqueued (m : Mutation) (d : Delivery) (op : SequencerOp)
      (operation : m.stage.operation = some (op, .called)) :
      CallMove codec client request m d { m with stage := m.stage.withOperation .queued } d []
  | loaded (m : Mutation) (d : Delivery) (op : SequencerOp) (current next : UInt64)
      (result : Option UInt64) (operation : m.stage.operation = some (op, .queued))
      (plan : op.plan current = .store next result) :
      CallMove codec client request m d
        { m with stage := m.stage.withOperation (.storing current next result) } d []
  | finished (m : Mutation) (d : Delivery) (op : SequencerOp)
      (result : Except SequencerError (Option UInt64))
      (operation : m.stage.operation = some (op, .queued))
      (refused : op = .reserve → ∃ error, result = .error error) :
      CallMove codec client request m d (m.operationDone result) d []
  | stored (m : Mutation) (d : Delivery) (op : SequencerOp) (current next : UInt64)
      (result : Option UInt64)
      (operation : m.stage.operation = some (op, .storing current next result)) :
      CallMove codec client request m d (m.operationDone (.ok result)) d
        (m.stage.handedOut.toList.map TraceEntry.reserved)
  | failed (m : Mutation) (d : Delivery) (op : SequencerOp) (current next : UInt64)
      (result : Option UInt64)
      (operation : m.stage.operation = some (op, .storing current next result)) :
      CallMove codec client request m d (m.operationDone (.error .backing)) d []
  | mapped (sequence : UInt64) (d : Delivery) (requestId : String) (body : List UInt8)
      (encodes : request.encode codec client sequence requestId = .ok body) :
      CallMove codec client request ⟨.mapping, some sequence⟩ d ⟨.sending false, some sequence⟩
        ⟨some (requestId, body), false⟩ []
  | unmapped (sequence : UInt64) (d : Delivery) (error : WireError) :
      CallMove codec client request ⟨.mapping, some sequence⟩ d
        ⟨.finished (.error (.wire error)), some sequence⟩ d []
  | sent (retry : Bool) (sequence : Option UInt64) (requestId : String) (body : List UInt8) :
      CallMove codec client request ⟨.sending retry, sequence⟩ ⟨some (requestId, body), false⟩
        ⟨.sending retry, sequence⟩ ⟨some (requestId, body), true⟩
        [.sent (request.options client requestId body).request]
  | answered (retry : Bool) (sequence : Option UInt64) (encoded : String × List UInt8)
      (inFlight : Bool) (answer : Except CompanionTransportError MutationResponse)
      (stage : MutationStage)
      (next : stage = afterAnswer retry answer ∨
        ∃ accepted, stage = .reconciling retry answer accepted .called) :
      CallMove codec client request ⟨.sending retry, sequence⟩ ⟨some encoded, inFlight⟩
        ⟨stage, sequence⟩ ⟨some encoded, false⟩ (if inFlight then [.answered] else [])

namespace OrderedWriter

/-- A mutation arrives, or takes a turn. A turn that only sends leaves the slots alone. -/
inductive Moves (codec : WireCodec) (client : PresenceClient) (requests : List MutationRequest)
    (s s' : OrderedWriter) (e : OrderedEvent) : Prop where
  | arrives (request : MutationRequest) (turn : e.turn = .arrive)
      (called : requests[e.id]? = some request) (fresh : s.writer.mutations e.id = none)
      (writes : s.writer.step (calls client requests) (.arrive e.id) = some s'.writer)
      (mutations : s'.writer.mutations =
        Function.update s.writer.mutations e.id (some ⟨.waiting, none⟩))
      (result : s' = s.moved e.id (s.deliveries e.id) [.arrived] s'.writer)
  | takes (request : MutationRequest) (m m' : Mutation) (d' : Delivery)
      (entries : List TraceEntry) (turn : e.turn ≠ .arrive)
      (called : requests[e.id]? = some request) (under : s.writer.mutations e.id = some m)
      (move : CallMove codec client request m (s.deliveries e.id) m' d' entries)
      (writes : s'.writer = s.writer ∨ ∃ we, (∀ deviceId, we ≠ .remove deviceId) ∧
        s.writer.step (calls client requests) we = some s'.writer)
      (mutations : s'.writer.mutations = Function.update s.writer.mutations e.id (some m'))
      (result : s' = s.moved e.id d' entries s'.writer)

variable {codec : WireCodec} {client : PresenceClient} {requests : List MutationRequest}

theorem getElem?_calls (id : Nat) :
    (calls client requests)[id]? = (requests[id]?).map (MutationRequest.call client) :=
  List.getElem?_map ..

theorem client_of_calls {id : Nat} {call : PresenceCall}
    (h : (calls client requests)[id]? = some call) : call.client = client := by
  rw [getElem?_calls, Option.map_eq_some_iff] at h
  obtain ⟨request, -, rfl⟩ := h
  exact request.call_client client

theorem request_of_calls {id : Nat} {call : PresenceCall}
    (h : (calls client requests)[id]? = some call) :
    ∃ request, requests[id]? = some request ∧ call = request.call client := by
  rw [getElem?_calls, Option.map_eq_some_iff] at h
  obtain ⟨request, hrequest, hcall⟩ := h
  exact ⟨request, hrequest, hcall.symm⟩

/-- A turn in which the writer moves the mutation and the delivery stays. -/
def WriterMove (codec : WireCodec) (client : PresenceClient) (requests : List MutationRequest)
    (w w' : Writer) (id : Nat) (entries : Mutation → List TraceEntry) : Prop :=
  ∃ request m m', requests[id]? = some request ∧ w.mutations id = some m ∧
    w'.mutations = Function.update w.mutations id (some m') ∧
    ∀ d, CallMove codec client request m d m' d (entries m)

theorem begin_move {w w' : Writer} {id : Nat}
    (h : w.begin (calls client requests) id = some w') :
    WriterMove codec client requests w w' id (fun _ => []) := by
  rw [Writer.begin] at h
  split at h
  · rename_i call sequence hcall hm
    obtain ⟨request, hrequest, -⟩ := request_of_calls hcall
    split at h
    · obtain rfl := Option.some.inj h
      exact ⟨request, _, _, hrequest, hm, rfl, .begun sequence⟩
    · contradiction
  · contradiction

theorem enqueue_move {w w' : Writer} {id : Nat}
    (h : w.enqueue (calls client requests) id = some w') :
    WriterMove codec client requests w w' id (fun _ => []) := by
  rw [Writer.enqueue] at h
  split at h
  · rename_i call m hcall hm
    obtain ⟨request, hrequest, -⟩ := request_of_calls hcall
    split at h
    · rename_i op hoperation
      obtain rfl := Option.some.inj h
      exact ⟨request, m, _, hrequest, hm, rfl, fun d => .enqueued m d op hoperation⟩
    · contradiction
  · contradiction

/-- A reserve that ends at its load has found the sequences used up. -/
theorem plan_reserve_finish {current : UInt64} {result : Except SequencerError (Option UInt64)}
    (h : SequencerOp.reserve.plan current = .finish result) :
    ∃ error, result = .error error := by
  simp only [SequencerOp.plan] at h
  split at h
  · exact ⟨.exhausted, (SequencerPlan.finish.inj h).symm⟩
  · contradiction

theorem load_move {w w' : Writer} {id : Nat}
    (h : w.load (calls client requests) id = some w') :
    WriterMove codec client requests w w' id (fun _ => []) := by
  rw [Writer.load] at h
  split at h
  · rename_i call m hcall hm
    obtain ⟨request, hrequest, -⟩ := request_of_calls hcall
    dsimp only at h
    split at h
    · rename_i op hoperation
      split at h
      · split at h
        · split at h
          · rename_i result hplan
            obtain rfl := Option.some.inj h
            refine ⟨request, m, _, hrequest, hm, rfl, ?_⟩
            intro d
            refine .finished m d op result hoperation ?_
            rintro rfl
            exact plan_reserve_finish hplan
          · rename_i next result hplan
            obtain rfl := Option.some.inj h
            exact ⟨request, m, _, hrequest, hm, rfl,
              fun d => .loaded m d op _ next result hoperation hplan⟩
        · rename_i hloads
          obtain rfl := Option.some.inj h
          refine ⟨request, m, _, hrequest, hm, rfl, fun d => .finished m d op _ hoperation ?_⟩
          rintro rfl
          exact absurd rfl hloads
      · contradiction
    · contradiction
  · contradiction

theorem store_move {w w' : Writer} {id : Nat} {succeeds : Bool}
    (h : w.store (calls client requests) id succeeds = some w') :
    WriterMove codec client requests w w' id (fun m =>
      if succeeds then m.stage.handedOut.toList.map TraceEntry.reserved else []) := by
  rw [Writer.store] at h
  split at h
  · rename_i call m hcall hm
    obtain ⟨request, hrequest, -⟩ := request_of_calls hcall
    split at h
    · rename_i op current next result hoperation
      cases succeeds with
      | true =>
          obtain rfl := Option.some.inj h
          exact ⟨request, m, _, hrequest, hm, rfl,
            fun d => .stored m d op current next result hoperation⟩
      | false =>
          obtain rfl := Option.some.inj h
          exact ⟨request, m, _, hrequest, hm, rfl,
            fun d => .failed m d op current next result hoperation⟩
    · contradiction
  · contradiction

theorem WriterMove.takes {s s' : OrderedWriter} {e : OrderedEvent} {w' : Writer}
    {entries : Mutation → List TraceEntry}
    (h : WriterMove codec client requests s.writer w' e.id entries) (we : WriterEvent)
    (turn : e.turn ≠ .arrive) (hwe : ∀ deviceId, we ≠ .remove deviceId)
    (hstep : s.writer.step (calls client requests) we = some w')
    (hs' : ∀ m, s.writer.mutations e.id = some m →
      s.moved e.id (s.deliveries e.id) (entries m) w' = s') :
    Moves codec client requests s s' e := by
  obtain ⟨request, m, m', hrequest, hm, hmutations, hmove⟩ := h
  obtain rfl := hs' m hm
  exact .takes request m m' _ _ turn hrequest hm (hmove _) (Or.inr ⟨we, hwe, hstep⟩) hmutations rfl

theorem map_moves {s s' : OrderedWriter} {e : OrderedEvent} (turn : e.turn ≠ .arrive)
    (h : s.map codec client requests e.id e.outcome = some s') :
    Moves codec client requests s s' e := by
  rw [OrderedWriter.map] at h
  split at h
  · rename_i request sequence hrequest hm
    have hcall : (calls client requests)[e.id]? = some (request.call client) := by
      rw [getElem?_calls, hrequest]
      rfl
    split at h
    · rename_i body hencodes
      obtain ⟨w', hw', rfl⟩ := Option.map_eq_some_iff.mp h
      have hmove : w'.mutations =
          Function.update s.writer.mutations e.id (some ⟨.sending false, some sequence⟩) := by
        simp only [Writer.map, hcall, hm, Option.some.injEq] at hw'
        rw [← hw']
        rfl
      exact .takes request _ _ _ _ turn hrequest hm (.mapped sequence _ _ body hencodes)
        (Or.inr ⟨.map e.id none, by simp, hw'⟩) hmove rfl
    · rename_i error hencodes
      obtain ⟨w', hw', rfl⟩ := Option.map_eq_some_iff.mp h
      have hmove : w'.mutations = Function.update s.writer.mutations e.id
          (some ⟨.finished (.error (.wire error)), some sequence⟩) := by
        simp only [Writer.map, hcall, hm, Option.some.injEq] at hw'
        rw [← hw']
        rfl
      exact .takes request _ _ _ _ turn hrequest hm (.unmapped sequence _ error)
        (Or.inr ⟨.map e.id (some error), by simp, hw'⟩) hmove rfl
  · contradiction

theorem send_moves {s s' : OrderedWriter} {e : OrderedEvent} (turn : e.turn ≠ .arrive)
    (h : s.send client requests e.id = some s') : Moves codec client requests s s' e := by
  rw [OrderedWriter.send] at h
  split at h
  · rename_i request retry sequence requestId body hrequest hm hdelivery
    dsimp only at h
    split at h
    · obtain rfl := Option.some.inj h
      refine .takes request _ ⟨.sending retry, sequence⟩ _ _ turn hrequest hm ?_ (Or.inl rfl) ?_ rfl
      · exact hdelivery ▸ .sent retry sequence requestId body
      · rw [← hm]
        exact (Function.update_eq_self _ _).symm
    · contradiction
  · contradiction

theorem answer_moves {s s' : OrderedWriter} {e : OrderedEvent} (turn : e.turn ≠ .arrive)
    (h : s.answer codec client requests e.id e.outcome = some s') :
    Moves codec client requests s s' e := by
  rw [OrderedWriter.answer] at h
  split at h
  · rename_i request requestId body inFlight hrequest hdelivery
    dsimp only at h
    split at h
    · obtain ⟨w', hw', rfl⟩ := Option.map_eq_some_iff.mp h
      generalize hanswer : (execute codec.calendar codec.parse
        (request.options client requestId body) (decodeMutationResponse codec.calendar)
        (fun _ => e.outcome.response)).answer = answer at hw'
      have hstep := hw'
      rw [Writer.answer] at hw'
      split at hw'
      · rename_i call retry sequence hcall hm
        have hmoved : ∃ stage, w'.mutations =
            Function.update s.writer.mutations e.id (some ⟨stage, sequence⟩) ∧
            (stage = afterAnswer retry answer ∨
              ∃ accepted, stage = .reconciling retry answer accepted .called) := by
          split at hw'
          · obtain rfl := Option.some.inj hw'
            exact ⟨_, rfl, Or.inr ⟨_, rfl⟩⟩
          · obtain rfl := Option.some.inj hw'
            exact ⟨_, rfl, Or.inl rfl⟩
        obtain ⟨stage, hmutations, hnext⟩ := hmoved
        refine .takes request _ _ _ _ turn hrequest hm ?_
          (Or.inr ⟨.answer e.id answer, by simp, hstep⟩) hmutations rfl
        exact hdelivery ▸ .answered retry sequence (requestId, body) inFlight answer stage hnext
      · contradiction
    · contradiction
  · contradiction

theorem step_moves {s s' : OrderedWriter} {e : OrderedEvent}
    (h : s.step codec client requests e = some s') : Moves codec client requests s s' e := by
  cases hturn : e.turn with
  | arrive =>
      simp only [step, hturn] at h
      obtain ⟨w', hw', rfl⟩ := Option.map_eq_some_iff.mp h
      have hstep : s.writer.step (calls client requests) (.arrive e.id) = some w' := hw'
      rw [Writer.arrive] at hw'
      split at hw'
      · rename_i call hcall hfresh
        obtain ⟨request, hrequest, -⟩ := request_of_calls hcall
        obtain rfl := Option.some.inj hw'
        exact .arrives request hturn hrequest hfresh hstep rfl rfl
      · contradiction
  | begin =>
      simp only [step, hturn] at h
      obtain ⟨w', hw', hs'⟩ := Option.map_eq_some_iff.mp h
      exact (begin_move hw').takes (.begin e.id) (by simp [hturn]) (by simp) hw'
        (fun _ _ => hs')
  | enqueue =>
      simp only [step, hturn] at h
      obtain ⟨w', hw', hs'⟩ := Option.map_eq_some_iff.mp h
      exact (enqueue_move hw').takes (.enqueue e.id) (by simp [hturn]) (by simp) hw'
        (fun _ _ => hs')
  | load =>
      simp only [step, hturn] at h
      obtain ⟨w', hw', hs'⟩ := Option.map_eq_some_iff.mp h
      exact (load_move hw').takes (.load e.id) (by simp [hturn]) (by simp) hw'
        (fun _ _ => hs')
  | store =>
      simp only [step, hturn, store] at h
      obtain ⟨w', hw', hs'⟩ := Option.map_eq_some_iff.mp h
      refine (store_move hw').takes (.store e.id e.outcome.storeSucceeds) (by simp [hturn])
        (by simp) hw' ?_
      intro m hm
      simpa only [hm, Option.bind_some] using hs'
  | map =>
      simp only [step, hturn] at h
      exact map_moves (by simp [hturn]) h
  | send =>
      simp only [step, hturn] at h
      exact send_moves (by simp [hturn]) h
  | answer =>
      simp only [step, hturn] at h
      exact answer_moves (by simp [hturn]) h

end OrderedWriter

end YohakuCore
