import YohakuCore.Companion.MutationTurns
import YohakuCore.Companion.RetryLadder
import YohakuCore.Companion.SendOrder

/-!
# The order of the ordered writer

A mutation that has begun holds the send slot until its end: it alone reserves and it alone is on
the wire.
-/

namespace YohakuCore

open Framework

namespace OrderedWriter

variable {codec : WireCodec} {client : PresenceClient} {requests : List MutationRequest}

def Finished (w : Writer) (id : Nat) : Prop :=
  ∃ m, w.mutations id = some m ∧ m.stage.isFinished = true

/-- The mutation has reserved this sequence. -/
def HasSequence (w : Writer) (id : Nat) (v : UInt64) : Prop :=
  ∃ m, w.mutations id = some m ∧ m.sequence = some v

theorem Moves.keeps {s s' : OrderedWriter} {e : OrderedEvent} {I : Writer → Prop}
    (h : Moves codec client requests s s' e) (hs : I s.writer)
    (hkeeps : ∀ we w', (∀ deviceId, we ≠ .remove deviceId) →
      s.writer.step (calls client requests) we = some w' → I w') : I s'.writer := by
  cases h with
  | arrives request _ _ _ hwrites _ _ => exact hkeeps _ _ (by simp) hwrites
  | takes request m m' d' new _ _ _ _ hwrites _ _ =>
      rcases hwrites with hsame | ⟨we, hwe, hstep⟩
      · rw [hsame]
        exact hs
      · exact hkeeps we _ hwe hstep

theorem not_crossesStore (w : Writer) (deviceId : String) (we : WriterEvent) :
    ¬ Writer.CrossesStore (calls client requests) w deviceId we := by
  rintro ⟨i, j, call, call', op, current, next, result, -, hcall, -, hoperates, hne⟩
  rw [client_of_calls hcall, client_of_calls hoperates.called] at hne
  exact hne rfl

theorem reserved_of_hasSequence {w : Writer} (h : w.Inv (calls client requests)) {id : Nat}
    {v : UInt64} (hv : HasSequence w id v) :
    Writer.Reserved (calls client requests) w client.sequencer.deviceId id v := by
  obtain ⟨m, hm, hsequence⟩ := hv
  have hlt := h.called id m hm
  have hcall := List.getElem?_eq_getElem hlt
  exact ⟨⟨_, hcall, by rw [client_of_calls hcall]⟩, m, hm, hsequence⟩

theorem holds_slot {w : Writer} (h : w.Inv (calls client requests)) {id : Nat} {m : Mutation}
    (hm : w.mutations id = some m) (hbegun : m.stage ≠ .waiting)
    (hunfinished : m.stage.isFinished = false) :
    (w.sendSlots client.id).head? = some id := by
  have hcall := List.getElem?_eq_getElem (h.called id m hm)
  have hhead := h.send_head hcall hm hunfinished hbegun
  rwa [client_of_calls hcall] at hhead

theorem finished_of_other {w : Writer} (h : w.Inv (calls client requests)) {id j : Nat}
    {m : Mutation} (hm : w.mutations j = some m) (hbegun : m.stage ≠ .waiting)
    (hhead : (w.sendSlots client.id).head? = some id) (hne : j ≠ id) : Finished w j := by
  refine ⟨m, hm, ?_⟩
  by_contra hunfinished
  rw [Bool.not_eq_true] at hunfinished
  have hj := holds_slot h hm hbegun hunfinished
  exact hne (Option.some.inj (hj.symm.trans hhead))

/-- What holds of the mutations of one client among each other. -/
structure RunInv (codec : WireCodec) (client : PresenceClient) (requests : List MutationRequest)
    (s : OrderedWriter) : Prop where
  slots : s.writer.Inv (calls client requests)
  fresh : Writer.LoadsFresh (calls client requests) s.writer client.sequencer.deviceId
  first : s.writer.ReservesFirst
  call : ∀ id m, s.writer.mutations id = some m → ∃ request, requests[id]? = some request ∧
    CallInv codec client request m (s.deliveries id) (s.entries id)
  uncalled : ∀ id, s.writer.mutations id = none →
    s.entries id = [] ∧ s.deliveries id = ⟨none, false⟩
  arrived : ∀ id, id ∈ s.arrivals ↔ s.writer.mutations id ≠ none
  order : s.arrivals.Pairwise (s.writer.Precedes client)
  stored : ∀ id v, HasSequence s.writer id v →
    v.toNat + 1 ≤ s.writer.storedNext client.sequencer.deviceId
  slotOrder : s.arrivals.Pairwise (fun a b =>
    ∀ v w, HasSequence s.writer a v → HasSequence s.writer b w → v < w)
  reserveOrder : ∀ a b v w, a ≠ b → HasSequence s.writer a v → HasSequence s.writer b w →
    (v < w ∧ Finished s.writer a) ∨ (w < v ∧ Finished s.writer b)
  wire : s.wire.Pairwise (fun a b => a = b ∨ (Finished s.writer a ∧
    ∀ v w, HasSequence s.writer a v → HasSequence s.writer b w → v < w))
  begun : ∀ a ∈ s.wire, ∃ m, s.writer.mutations a = some m ∧ m.stage ≠ .waiting ∧
    m.sequence ≠ none
  contiguous : Contiguous s.wire

theorem runInv_new (backing : String → Option Int) :
    RunInv codec client requests (new backing) where
  slots := Writer.inv_new _ backing
  fresh id call op current next result h := by
    obtain ⟨m, hm, -⟩ := h.mutation
    cases hm
  first := Writer.reservesFirst_new backing
  call id m h := by cases h
  uncalled id _ := ⟨rfl, rfl⟩
  arrived id := by simp [arrivals, new, Writer.new]
  order := List.Pairwise.nil
  stored id v h := by
    obtain ⟨m, hm, -⟩ := h
    cases hm
  slotOrder := List.Pairwise.nil
  reserveOrder a b v w _ h _ := by
    obtain ⟨m, hm, -⟩ := h
    cases hm
  wire := List.Pairwise.nil
  begun a h := by cases h
  contiguous := contiguous_nil

section Turn

variable {s s' : OrderedWriter} {e : OrderedEvent}

theorem Moves.others (h : Moves codec client requests s s' e) {j : Nat} (hj : j ≠ e.id) :
    s'.writer.mutations j = s.writer.mutations j := by
  cases h with
  | arrives request _ _ _ _ hmutations _ => rw [hmutations, Function.update_of_ne hj]
  | takes request m m' d' new _ _ _ _ _ hmutations _ => rw [hmutations, Function.update_of_ne hj]

theorem Moves.finished (h : Moves codec client requests s s' e) {j : Nat}
    (hj : Finished s.writer j) : Finished s'.writer j := by
  obtain ⟨m, hm, hfinished⟩ := hj
  refine ⟨m, ?_, hfinished⟩
  by_cases hid : j = e.id
  · subst hid
    cases h with
    | arrives request _ _ hfresh _ _ _ => simp [hfresh] at hm
    | takes request n n' d' new _ _ hn hmove _ _ _ =>
        rw [hn] at hm
        obtain rfl := Option.some.inj hm
        have hunfinished := hmove.unfinished
        rw [hfinished] at hunfinished
        contradiction
  · rw [h.others hid]
    exact hm

theorem Moves.inv (h : Moves codec client requests s s' e)
    (hinv : s.writer.Inv (calls client requests)) : s'.writer.Inv (calls client requests) :=
  h.keeps hinv (fun _ _ _ hstep => hinv.step hstep)

theorem Moves.pastReserve (h : Moves codec client requests s s' e)
    (hinv : s.writer.Inv (calls client requests)) {j : Nat} {m : Mutation}
    (hm : s.writer.mutations j = some m) (hpast : m.stage.isPastReserve = true) :
    ∃ m', s'.writer.mutations j = some m' ∧ m'.sequence = m.sequence := by
  refine h.keeps (I := fun w => ∃ m', w.mutations j = some m' ∧ m'.sequence = m.sequence)
    ⟨m, hm, rfl⟩ ?_
  intro we w' _ hstep
  obtain ⟨m', hm', -, hsequence⟩ := Writer.pastReserve_step hinv hstep hm hpast
  exact ⟨m', hm', hsequence⟩

theorem Moves.storedNext (h : Moves codec client requests s s' e)
    (hfresh : Writer.LoadsFresh (calls client requests) s.writer client.sequencer.deviceId) :
    s.writer.storedNext client.sequencer.deviceId ≤
        s'.writer.storedNext client.sequencer.deviceId ∧
      ∀ j v, Writer.Reserved (calls client requests) s'.writer client.sequencer.deviceId j v →
        Writer.Reserved (calls client requests) s.writer client.sequencer.deviceId j v ∨
          (s.writer.storedNext client.sequencer.deviceId ≤ v.toNat ∧
            v.toNat + 1 ≤ s'.writer.storedNext client.sequencer.deviceId) := by
  refine h.keeps
    (I := fun w => s.writer.storedNext client.sequencer.deviceId ≤
        w.storedNext client.sequencer.deviceId ∧
      ∀ j v, Writer.Reserved (calls client requests) w client.sequencer.deviceId j v →
        Writer.Reserved (calls client requests) s.writer client.sequencer.deviceId j v ∨
          (s.writer.storedNext client.sequencer.deviceId ≤ v.toNat ∧
            v.toNat + 1 ≤ w.storedNext client.sequencer.deviceId))
    ⟨le_refl _, fun _ _ hv => Or.inl hv⟩ ?_
  intro we w' hwe hstep
  obtain ⟨hmono, hreserved⟩ := Writer.storedNext_step hfresh (hwe _) hstep
  refine ⟨hmono, ?_⟩
  intro j v hv
  rcases hreserved j v hv with hold | ⟨-, hrange⟩
  · exact Or.inl hold
  · exact Or.inr hrange

/-- A turn reserves a sequence only for its own mutation, which holds the send slot; the sequence is
not below the stored value. -/
structure Reserves (client : PresenceClient) (s s' : OrderedWriter) (id : Nat) (v : UInt64) :
    Prop where
  head : (s.writer.sendSlots client.id).head? = some id
  before : ¬ s.writer.PastReserve id
  above : s.writer.storedNext client.sequencer.deviceId ≤ v.toNat
  below : v.toNat + 1 ≤ s'.writer.storedNext client.sequencer.deviceId

theorem Moves.hasSequence (h : Moves codec client requests s s' e)
    (hinv : RunInv codec client requests s) {j : Nat} {v : UInt64}
    (hv : HasSequence s'.writer j v) :
    HasSequence s.writer j v ∨ (j = e.id ∧ Reserves client s s' j v) := by
  by_cases hold : HasSequence s.writer j v
  · exact Or.inl hold
  have hid : j = e.id := by
    by_contra hne
    rw [HasSequence, h.others hne] at hv
    exact hold hv
  refine Or.inr ⟨hid, ?_⟩
  have hrange : s.writer.storedNext client.sequencer.deviceId ≤ v.toNat ∧
      v.toNat + 1 ≤ s'.writer.storedNext client.sequencer.deviceId := by
    have hreserved := reserved_of_hasSequence (h.inv hinv.slots) hv
    rcases (h.storedNext hinv.fresh).2 j v hreserved with hbefore | hrange
    · exact absurd hbefore.mutation hold
    · exact hrange
  have hbefore : ¬ s.writer.PastReserve j := by
    rintro ⟨m, hm, hpast⟩
    obtain ⟨m', hm', hsame⟩ := h.pastReserve hinv.slots hm hpast
    obtain ⟨n, hn, hsequence⟩ := hv
    rw [hm'] at hn
    obtain rfl := Option.some.inj hn
    exact hold ⟨m, hm, hsame ▸ hsequence⟩
  refine ⟨?_, hbefore, hrange.1, hrange.2⟩
  subst hid
  obtain ⟨n, hn, hsequence⟩ := hv
  cases h with
  | arrives request _ _ _ _ hmutations _ =>
      rw [hmutations, Function.update_self] at hn
      obtain rfl := Option.some.inj hn
      contradiction
  | takes request m m' d' new _ _ hm hmove _ hmutations _ =>
      rw [hmutations, Function.update_self] at hn
      obtain rfl := Option.some.inj hn
      refine holds_slot hinv.slots hm ?_ hmove.unfinished
      intro hwaiting
      rw [hmove.sequence_of_waiting hwaiting] at hsequence
      exact hold ⟨m, hm, hsequence⟩

theorem pastReserve_of_hasSequence {w : Writer} (h : w.ReservesFirst) {id : Nat} {v : UInt64}
    (hv : HasSequence w id v) : w.PastReserve id := by
  obtain ⟨m, hm, hsequence⟩ := hv
  exact ⟨m, hm, h id m hm (by simp [hsequence])⟩

theorem finished_of_pastReserve {w : Writer} (h : w.Inv (calls client requests)) {id j : Nat}
    (hpast : w.PastReserve j) (hhead : (w.sendSlots client.id).head? = some id) (hne : j ≠ id) :
    Finished w j := by
  obtain ⟨m, hm, hpast⟩ := hpast
  refine finished_of_other h hm ?_ hhead hne
  intro hwaiting
  rw [hwaiting] at hpast
  contradiction

theorem RunInv.call_step (hinv : RunInv codec client requests s)
    (h : Moves codec client requests s s' e) {id : Nat} {m : Mutation}
    (hm : s'.writer.mutations id = some m) :
    ∃ request, requests[id]? = some request ∧
      CallInv codec client request m (s'.deliveries id) (s'.entries id) := by
  by_cases hid : id = e.id
  · subst hid
    cases h with
    | arrives request _ hrequest hfresh _ hmutations hresult =>
        rw [hmutations, Function.update_self] at hm
        obtain rfl := Option.some.inj hm
        obtain ⟨hentries, hdelivery⟩ := hinv.uncalled e.id hfresh
        refine ⟨request, hrequest, ?_⟩
        rw [hresult, entries_moved, if_pos rfl, hentries, deliveries_moved,
          Function.update_self, hdelivery]
        exact callInv_arrived
    | takes request n n' d' new _ hrequest hn hmove _ hmutations hresult =>
        rw [hmutations, Function.update_self] at hm
        obtain rfl := Option.some.inj hm
        obtain ⟨request', hrequest', hcall⟩ := hinv.call e.id n hn
        rw [hrequest] at hrequest'
        obtain rfl := Option.some.inj hrequest'
        refine ⟨request, hrequest, ?_⟩
        rw [hresult, entries_moved, if_pos rfl, deliveries_moved, Function.update_self]
        exact hcall.move hmove
  · rw [h.others hid] at hm
    obtain ⟨request, hrequest, hcall⟩ := hinv.call id m hm
    refine ⟨request, hrequest, ?_⟩
    cases h with
    | arrives _ _ _ _ _ _ hresult =>
        rw [hresult, entries_moved, if_neg hid, List.append_nil, deliveries_moved,
          Function.update_of_ne hid]
        exact hcall
    | takes _ _ _ _ _ _ _ _ _ _ _ hresult =>
        rw [hresult, entries_moved, if_neg hid, List.append_nil, deliveries_moved,
          Function.update_of_ne hid]
        exact hcall

theorem RunInv.uncalled_step (hinv : RunInv codec client requests s)
    (h : Moves codec client requests s s' e) {id : Nat} (hm : s'.writer.mutations id = none) :
    s'.entries id = [] ∧ s'.deliveries id = ⟨none, false⟩ := by
  have hid : id ≠ e.id := by
    rintro rfl
    cases h with
    | arrives _ _ _ _ _ hmutations _ => simp [hmutations] at hm
    | takes _ _ _ _ _ _ _ _ _ _ hmutations _ => simp [hmutations] at hm
  rw [h.others hid] at hm
  obtain ⟨hentries, hdelivery⟩ := hinv.uncalled id hm
  cases h with
  | arrives _ _ _ _ _ _ hresult =>
      rw [hresult, entries_moved, if_neg hid, List.append_nil, deliveries_moved,
          Function.update_of_ne hid]
      exact ⟨hentries, hdelivery⟩
  | takes _ _ _ _ _ _ _ _ _ _ _ hresult =>
      rw [hresult, entries_moved, if_neg hid, List.append_nil, deliveries_moved,
          Function.update_of_ne hid]
      exact ⟨hentries, hdelivery⟩

theorem arrivals_arrives (hresult : s' = s.moved e.id (s.deliveries e.id) [.arrived] s'.writer) :
    s'.arrivals = s.arrivals ++ [e.id] := by
  rw [hresult, arrivals_moved]
  rfl

theorem arrivals_takes {request : MutationRequest} {m m' : Mutation} {d' : Delivery}
    {new : List TraceEntry}
    (hmove : CallMove codec client request m (s.deliveries e.id) m' d' new)
    (hresult : s' = s.moved e.id d' new s'.writer) : s'.arrivals = s.arrivals := by
  rw [hresult, arrivals_moved, hmove.not_arrival]
  simp

theorem RunInv.arrived_step (hinv : RunInv codec client requests s)
    (h : Moves codec client requests s s' e) (id : Nat) :
    id ∈ s'.arrivals ↔ s'.writer.mutations id ≠ none := by
  by_cases hid : id = e.id
  · subst hid
    cases h with
    | arrives _ _ _ _ _ hmutations hresult => simp [arrivals_arrives hresult, hmutations]
    | takes _ _ _ _ _ _ _ hm hmove _ hmutations hresult =>
        rw [arrivals_takes hmove hresult, hinv.arrived, hm, hmutations]
        simp
  · rw [h.others hid, ← hinv.arrived]
    cases h with
    | arrives _ _ _ _ _ _ hresult => simp [arrivals_arrives hresult, hid]
    | takes _ _ _ _ _ _ _ _ hmove _ _ hresult => rw [arrivals_takes hmove hresult]

theorem RunInv.call_of_mutation (hinv : RunInv codec client requests s) {id : Nat}
    (hm : s.writer.mutations id ≠ none) :
    ∃ call, (calls client requests)[id]? = some call ∧ call.client = client := by
  obtain ⟨m, hm⟩ := Option.ne_none_iff_exists'.mp hm
  have hcall := List.getElem?_eq_getElem (hinv.slots.called id m hm)
  exact ⟨_, hcall, client_of_calls hcall⟩

theorem RunInv.precedes_step (hinv : RunInv codec client requests s)
    (h : Moves codec client requests s s' e) {p k : Nat} (hk : k ∈ s.arrivals)
    (hprecedes : s.writer.Precedes client p k) : s'.writer.Precedes client p k := by
  obtain ⟨call, hcall, hclient⟩ := hinv.call_of_mutation ((hinv.arrived k).mp hk)
  refine h.keeps (I := fun w => w.Precedes client p k) hprecedes ?_
  intro we w' _ hstep
  rw [← hclient] at hprecedes ⊢
  exact hprecedes.step hinv.slots hcall hstep

theorem RunInv.queued (hinv : RunInv codec client requests s) {p : Nat} (hp : p ∈ s.arrivals) :
    s.writer.PastReserve p ∨ p ∈ s.writer.sendSlots client.id := by
  obtain ⟨m, hm⟩ := Option.ne_none_iff_exists'.mp ((hinv.arrived p).mp hp)
  cases hfinished : m.stage.isFinished with
  | true => exact Or.inl ⟨m, hm, Writer.isPastReserve_of_isFinished hfinished⟩
  | false =>
      refine Or.inr ?_
      have hcall := List.getElem?_eq_getElem (hinv.slots.called p m hm)
      rw [hinv.slots.send.mem, Writer.keyOf_eq hcall hm, PresenceCall.sendKey, hfinished,
        client_of_calls hcall]
      rfl

theorem RunInv.order_step (hinv : RunInv codec client requests s)
    (h : Moves codec client requests s s' e) :
    s'.arrivals.Pairwise (s'.writer.Precedes client) := by
  have hold : s.arrivals.Pairwise (s'.writer.Precedes client) :=
    hinv.order.imp_of_mem (fun _ hk hprecedes => hinv.precedes_step h hk hprecedes)
  cases h with
  | takes _ _ _ _ _ _ _ _ hmove _ _ hresult =>
      rw [arrivals_takes hmove hresult]
      exact hold
  | arrives request _ hrequest _ hwrites _ hresult =>
      rw [arrivals_arrives hresult]
      refine List.pairwise_append.mpr ⟨hold, List.pairwise_singleton _ _, ?_⟩
      intro p hp k hk
      obtain rfl := List.mem_singleton.mp hk
      have hcall : (calls client requests)[e.id]? = some (request.call client) := by
        rw [getElem?_calls, hrequest]
        rfl
      have hprecedes := Writer.precedes_arrive (p := p) hinv.slots hcall hwrites
      rw [MutationRequest.call_client] at hprecedes
      exact hprecedes (hinv.queued hp)

theorem RunInv.stored_step (hinv : RunInv codec client requests s)
    (h : Moves codec client requests s s' e) {id : Nat} {v : UInt64}
    (hv : HasSequence s'.writer id v) :
    v.toNat + 1 ≤ s'.writer.storedNext client.sequencer.deviceId := by
  rcases h.hasSequence hinv hv with hold | ⟨-, hnew⟩
  · exact le_trans (hinv.stored id v hold) (h.storedNext hinv.fresh).1
  · exact hnew.below

theorem RunInv.lt_of_reserves (hinv : RunInv codec client requests s) {a b : Nat} {v w : UInt64}
    (ha : HasSequence s.writer a v) (hb : Reserves client s s' b w) : v < w := by
  have hbelow := hinv.stored a v ha
  have habove := hb.above
  exact UInt64.lt_iff_toNat_lt.mpr (by omega)

theorem RunInv.slotOrder_step (hinv : RunInv codec client requests s)
    (h : Moves codec client requests s s' e) :
    s'.arrivals.Pairwise (fun a b =>
      ∀ v w, HasSequence s'.writer a v → HasSequence s'.writer b w → v < w) := by
  have hold : s.arrivals.Pairwise (fun a b =>
      ∀ v w, HasSequence s'.writer a v → HasSequence s'.writer b w → v < w) := by
    refine (hinv.slotOrder.and hinv.order).imp ?_
    intro a b ⟨hlt, hprecedes⟩ v w hv hw
    rcases h.hasSequence hinv hv with hv | ⟨rfl, ha⟩
    · rcases h.hasSequence hinv hw with hw | ⟨-, hb⟩
      · exact hlt v w hv hw
      · exact hinv.lt_of_reserves hv hb
    · -- The later mutation has not begun before the earlier one has reserved.
      exfalso
      rcases h.hasSequence hinv hw with hw | ⟨rfl, -⟩
      · exact ha.before (hprecedes.pastReserve (pastReserve_of_hasSequence hinv.first hw))
      · rcases hprecedes with hpast | ⟨hahead, -⟩
        · exact ha.before hpast
        · exact notMem_ahead_of_head ha.head _ hahead
  cases h with
  | takes _ _ _ _ _ _ _ _ hmove _ _ hresult =>
      rw [arrivals_takes hmove hresult]
      exact hold
  | arrives _ _ _ _ _ hmutations hresult =>
      rw [arrivals_arrives hresult]
      refine List.pairwise_append.mpr ⟨hold, List.pairwise_singleton _ _, ?_⟩
      intro a ha b hb v w hv hw
      obtain rfl := List.mem_singleton.mp hb
      obtain ⟨m, hm, hsequence⟩ := hw
      rw [hmutations, Function.update_self] at hm
      obtain rfl := Option.some.inj hm
      contradiction

theorem RunInv.reserveOrder_step (hinv : RunInv codec client requests s)
    (h : Moves codec client requests s s' e) {a b : Nat} {v w : UInt64} (hne : a ≠ b)
    (hv : HasSequence s'.writer a v) (hw : HasSequence s'.writer b w) :
    (v < w ∧ Finished s'.writer a) ∨ (w < v ∧ Finished s'.writer b) := by
  have hfinished {i j : Nat} {x y : UInt64} (hx : HasSequence s.writer i x)
      (hy : Reserves client s s' j y) (hij : i ≠ j) : x < y ∧ Finished s'.writer i :=
    ⟨hinv.lt_of_reserves hx hy, h.finished
      (finished_of_pastReserve hinv.slots (pastReserve_of_hasSequence hinv.first hx) hy.head hij)⟩
  rcases h.hasSequence hinv hv with hv | ⟨rfl, ha⟩
  · rcases h.hasSequence hinv hw with hw | ⟨-, hb⟩
    · rcases hinv.reserveOrder a b v w hne hv hw with ⟨hlt, hdone⟩ | ⟨hlt, hdone⟩
      · exact Or.inl ⟨hlt, h.finished hdone⟩
      · exact Or.inr ⟨hlt, h.finished hdone⟩
    · exact Or.inl (hfinished hv hb hne)
  · rcases h.hasSequence hinv hw with hw | ⟨rfl, -⟩
    · exact Or.inr (hfinished hw ha hne.symm)
    · exact absurd rfl hne

theorem RunInv.hasSequence_of_wire (hinv : RunInv codec client requests s)
    (h : Moves codec client requests s s' e) {a : Nat} {v : UInt64}
    (ha : ∃ m, s.writer.mutations a = some m ∧ m.stage ≠ .waiting ∧ m.sequence ≠ none)
    (hv : HasSequence s'.writer a v) : HasSequence s.writer a v := by
  rcases h.hasSequence hinv hv with hold | ⟨-, hnew⟩
  · exact hold
  · obtain ⟨m, hm, -, hsequence⟩ := ha
    exact absurd ⟨m, hm, hinv.first a m hm hsequence⟩ hnew.before

theorem wire_takes {request : MutationRequest} {m m' : Mutation} {d' : Delivery}
    {new : List TraceEntry}
    (hmove : CallMove codec client request m (s.deliveries e.id) m' d' new)
    (hresult : s' = s.moved e.id d' new s'.writer) :
    s'.wire = s.wire ∨ (s'.wire = s.wire ++ [e.id] ∧ ∃ retry, m.stage = .sending retry) := by
  rcases hmove.onWire with hnone | ⟨⟨entry, hone⟩, hsending⟩
  · refine Or.inl ?_
    rw [hresult, wire_moved, hnone]
    simp
  · refine Or.inr ⟨?_, hsending⟩
    rw [hresult, wire_moved, hone]
    simp

theorem wire_arrives (hresult : s' = s.moved e.id (s.deliveries e.id) [.arrived] s'.writer) :
    s'.wire = s.wire := by
  rw [hresult, wire_moved]
  simp [TraceEntry.isOnWire]

theorem RunInv.wire_grows (hinv : RunInv codec client requests s)
    (h : Moves codec client requests s s' e) :
    s'.wire = s.wire ∨ (s'.wire = s.wire ++ [e.id] ∧
      (s.writer.sendSlots client.id).head? = some e.id ∧ ¬ Finished s.writer e.id ∧
      ∃ m, s.writer.mutations e.id = some m ∧ m.stage ≠ .waiting ∧ m.sequence ≠ none) := by
  cases h with
  | arrives _ _ _ _ _ _ hresult => exact Or.inl (wire_arrives hresult)
  | takes _ m _ _ _ _ _ hm hmove _ _ hresult =>
      rcases wire_takes hmove hresult with hsame | ⟨hgrows, retry, hsending⟩
      · exact Or.inl hsame
      have hbegun : m.stage ≠ .waiting := by simp [hsending]
      have hunfinished := hmove.unfinished
      refine Or.inr ⟨hgrows, holds_slot hinv.slots hm hbegun hunfinished, ?_, m, hm, hbegun, ?_⟩
      · rintro ⟨n, hn, hfinished⟩
        rw [hm] at hn
        obtain rfl := Option.some.inj hn
        rw [hunfinished] at hfinished
        contradiction
      · obtain ⟨request, -, hcall⟩ := hinv.call e.id m hm
        have hencoded : (s.deliveries e.id).encoded ≠ none := by
          have hfits := hcall.fits
          simpa [Mutation.Fits, hsending] using hfits
        obtain ⟨⟨requestId, body⟩, hbody⟩ := Option.ne_none_iff_exists'.mp hencoded
        obtain ⟨sequence, hsequence, -⟩ := hcall.encoded requestId body hbody
        simp [hsequence]

theorem RunInv.begun_step (hinv : RunInv codec client requests s)
    (h : Moves codec client requests s s' e) {a : Nat} (ha : a ∈ s'.wire) :
    ∃ m, s'.writer.mutations a = some m ∧ m.stage ≠ .waiting ∧ m.sequence ≠ none := by
  have hold : ∃ m, s.writer.mutations a = some m ∧ m.stage ≠ .waiting ∧ m.sequence ≠ none := by
    rcases hinv.wire_grows h with hsame | ⟨hgrows, -, -, hid⟩
    · exact hinv.begun a (hsame ▸ ha)
    · rw [hgrows, List.mem_append, List.mem_singleton] at ha
      rcases ha with ha | rfl
      · exact hinv.begun a ha
      · exact hid
  obtain ⟨m, hm, hbegun, hsequence⟩ := hold
  by_cases hid : a = e.id
  · subst hid
    cases h with
    | arrives _ _ _ hfresh _ _ _ => simp [hfresh] at hm
    | takes request n n' d' new _ _ hn hmove _ hmutations _ =>
        rw [hm] at hn
        obtain rfl := Option.some.inj hn
        obtain ⟨_, -, hcall⟩ := hinv.call e.id m hm
        obtain ⟨v, hv⟩ := Option.ne_none_iff_exists'.mp hsequence
        refine ⟨n', by rw [hmutations, Function.update_self], hmove.begins, ?_⟩
        simp [hmove.sequence_of_some hcall.fits hv]
  · exact ⟨m, by rw [h.others hid]; exact hm, hbegun, hsequence⟩

theorem RunInv.wire_step (hinv : RunInv codec client requests s)
    (h : Moves codec client requests s s' e) :
    s'.wire.Pairwise (fun a b => a = b ∨ (Finished s'.writer a ∧
      ∀ v w, HasSequence s'.writer a v → HasSequence s'.writer b w → v < w)) := by
  have hold : s.wire.Pairwise (fun a b => a = b ∨ (Finished s'.writer a ∧
      ∀ v w, HasSequence s'.writer a v → HasSequence s'.writer b w → v < w)) := by
    refine hinv.wire.imp_of_mem ?_
    intro a b ha hb hab
    rcases hab with rfl | ⟨hdone, hlt⟩
    · exact Or.inl rfl
    · refine Or.inr ⟨h.finished hdone, ?_⟩
      intro v w hv hw
      exact hlt v w (hinv.hasSequence_of_wire h (hinv.begun a ha) hv)
        (hinv.hasSequence_of_wire h (hinv.begun b hb) hw)
  rcases hinv.wire_grows h with hsame | ⟨hgrows, hhead, hunfinished, hid⟩
  · rw [hsame]
    exact hold
  · rw [hgrows]
    refine List.pairwise_append.mpr ⟨hold, List.pairwise_singleton _ _, ?_⟩
    intro a ha b hb
    obtain rfl := List.mem_singleton.mp hb
    by_cases hne : a = e.id
    · exact Or.inl hne
    obtain ⟨m, hm, hbegun, -⟩ := hinv.begun a ha
    refine Or.inr ⟨h.finished (finished_of_other hinv.slots hm hbegun hhead hne), ?_⟩
    intro v w hv hw
    have hv := hinv.hasSequence_of_wire h (hinv.begun a ha) hv
    have hw := hinv.hasSequence_of_wire h hid hw
    rcases hinv.reserveOrder a e.id v w hne hv hw with ⟨hlt, -⟩ | ⟨-, hdone⟩
    · exact hlt
    · exact absurd hdone hunfinished

theorem RunInv.contiguous_step (hinv : RunInv codec client requests s)
    (h : Moves codec client requests s s' e) : Contiguous s'.wire := by
  rcases hinv.wire_grows h with hsame | ⟨hgrows, -, hunfinished, -⟩
  · rw [hsame]
    exact hinv.contiguous
  · rw [hgrows]
    refine hinv.contiguous.concat (Finished s.writer) ?_ hunfinished
    refine hinv.wire.imp ?_
    intro a b hab
    exact hab.imp_right And.left

theorem RunInv.step (hinv : RunInv codec client requests s)
    (hstep : s.step codec client requests e = some s') : RunInv codec client requests s' := by
  have h := step_moves hstep
  exact {
    slots := h.inv hinv.slots
    fresh := h.keeps hinv.fresh (fun we _ _ hwe =>
      Writer.loadsFresh_step hinv.fresh hinv.slots (not_crossesStore _ _ we) hwe)
    first := h.keeps hinv.first (fun _ _ _ hwe => hinv.first.step hinv.slots hwe)
    call := fun _ _ hm => hinv.call_step h hm
    uncalled := fun _ hm => hinv.uncalled_step h hm
    arrived := hinv.arrived_step h
    order := hinv.order_step h
    stored := fun _ _ hv => hinv.stored_step h hv
    slotOrder := hinv.slotOrder_step h
    reserveOrder := fun _ _ _ _ hne hv hw => hinv.reserveOrder_step h hne hv hw
    wire := hinv.wire_step h
    begun := fun _ ha => hinv.begun_step h ha
    contiguous := hinv.contiguous_step h }

end Turn

theorem runInv_run {backing : String → Option Int} {es : List OrderedEvent} {s : OrderedWriter}
    (h : exec (step codec client requests) (new backing) es = some s) :
    RunInv codec client requests s :=
  exec_invariant (runInv_new backing) (fun _ _ _ hinv hstep => hinv.step hstep) h

section Progress

variable {s : OrderedWriter}

/-- The turns a call has left, its arrival included. -/
def turnsLeft (s : OrderedWriter) (id : Nat) : Nat :=
  match s.writer.mutations id with
  | none => 16
  | some m => m.stage.turnsLeft (s.deliveries id).inFlight

theorem Moves.turnsLeft {s s' : OrderedWriter} {e : OrderedEvent}
    (h : Moves codec client requests s s' e) (id : Nat) :
    s'.turnsLeft id + (if e.id = id then 1 else 0) ≤ s.turnsLeft id := by
  by_cases hid : e.id = id
  · subst hid
    rw [if_pos rfl]
    cases h with
    | arrives _ _ _ hfresh _ hmutations _ =>
        simp [OrderedWriter.turnsLeft, hmutations, hfresh, MutationStage.turnsLeft]
    | takes _ _ _ d' _ _ _ hm hmove _ hmutations hresult =>
        have hleft := hmove.turnsLeft
        have hdelivery : s'.deliveries e.id = d' := by
          rw [hresult, deliveries_moved, Function.update_self]
        simp only [OrderedWriter.turnsLeft, hmutations, Function.update_self, hm, hdelivery]
        omega
  · have hne : id ≠ e.id := fun heq => hid heq.symm
    have hdelivery : s'.deliveries id = s.deliveries id := by
      cases h with
      | arrives _ _ _ _ _ _ hresult =>
          rw [hresult, deliveries_moved, Function.update_of_ne hne]
      | takes _ _ _ _ _ _ _ _ _ _ _ hresult =>
          rw [hresult, deliveries_moved, Function.update_of_ne hne]
    simp only [OrderedWriter.turnsLeft, h.others hne, hdelivery, if_neg hid]
    omega

theorem turns_bound {backing : String → Option Int} {es : List OrderedEvent} {s : OrderedWriter}
    (h : exec (step codec client requests) (new backing) es = some s) (id : Nat) :
    es.countP (fun e => e.id = id) + s.turnsLeft id ≤ 16 := by
  refine exec_induction (P := fun es s => es.countP (fun e => e.id = id) + s.turnsLeft id ≤ 16)
    ?_ ?_ h
  · simp [OrderedWriter.turnsLeft, new, Writer.new]
  · intro es s₁ e s₂ _ ih hstep
    have hturn := (step_moves hstep).turnsLeft id
    rw [List.countP_append, List.countP_singleton]
    by_cases hid : e.id = id
    · simp only [hid, decide_true, if_true] at hturn ⊢
      omega
    · simp only [hid, decide_false, if_false] at hturn ⊢
      simp only [Bool.false_eq_true, if_false]
      omega

theorem slot_head {w : Writer} (h : w.Inv (calls client requests)) {id : Nat} {m : Mutation}
    {op : SequencerOp} (hm : w.mutations id = some m)
    (hoperation : m.stage.operation = some (op, .queued)) :
    (w.slots client.sequencer.id).head? = some id := by
  have hholds {j : Nat} (hj : j ∈ w.slots client.sequencer.id) :
      (w.sendSlots client.id).head? = some j := by
    rw [h.slot.mem, Writer.keyOf] at hj
    split at hj
    · rename_i call n hcall hn
      have hop : ∃ op, n.stage.operation = some op := by
        cases hop : n.stage.operation with
        | none => simp [PresenceCall.slotKey, hop] at hj
        | some op => exact ⟨op, rfl⟩
      obtain ⟨op, hop⟩ := hop
      obtain ⟨hunfinished, hbegun⟩ := Writer.unfinished_of_operation hop
      exact holds_slot h hn hbegun hunfinished
    · contradiction
  have hcall := List.getElem?_eq_getElem (h.called id m hm)
  have hmem : id ∈ w.slots client.sequencer.id := by
    rw [h.slot.mem, Writer.keyOf_eq hcall hm, PresenceCall.slotKey, hoperation,
      client_of_calls hcall]
  cases hslots : w.slots client.sequencer.id with
  | nil =>
      rw [hslots] at hmem
      contradiction
  | cons first rest =>
      have hfirst : first ∈ w.slots client.sequencer.id := hslots ▸ List.mem_cons_self
      have hsame := (hholds hfirst).symm.trans (hholds hmem)
      rw [List.head?_cons, Option.some.inj hsame]

/-- A turn can be taken, whatever its outcome will be. -/
def Enabled (codec : WireCodec) (client : PresenceClient) (requests : List MutationRequest)
    (s : OrderedWriter) (turn : Turn) (id : Nat) : Prop :=
  ∀ outcome, (s.step codec client requests ⟨turn, id, outcome⟩).isSome = true

theorem enabled_operation (hinv : RunInv codec client requests s) {id : Nat} {m : Mutation}
    {op : SequencerOp} {o : OperationStage} (hm : s.writer.mutations id = some m)
    (hoperation : m.stage.operation = some (op, o)) :
    ∃ turn, turn ≠ .arrive ∧ Enabled codec client requests s turn id := by
  have hcall := List.getElem?_eq_getElem (hinv.slots.called id m hm)
  have hclient := client_of_calls hcall
  cases o with
  | called =>
      refine ⟨.enqueue, by simp, fun outcome => ?_⟩
      simp [step, Writer.enqueue, hcall, hm, hoperation]
  | queued =>
      have hhead := slot_head hinv.slots hm hoperation
      rw [← hclient] at hhead
      refine ⟨.load, by simp, fun outcome => ?_⟩
      simp only [step, Writer.load, hcall, hm, hoperation, hhead, if_true, Option.isSome_map]
      split
      · split <;> simp
      · simp
  | storing current next result =>
      refine ⟨.store, by simp, fun outcome => ?_⟩
      cases hsucceeds : outcome.storeSucceeds with
      | true => simp [step, store, Writer.store, hcall, hm, hoperation, hsucceeds]
      | false => simp [step, store, Writer.store, hcall, hm, hoperation, hsucceeds]

theorem enabled_sending (hinv : RunInv codec client requests s) {id : Nat} {retry : Bool}
    {sequence : Option UInt64} (hm : s.writer.mutations id = some ⟨.sending retry, sequence⟩) :
    ∃ turn, turn ≠ .arrive ∧ Enabled codec client requests s turn id := by
  obtain ⟨request, hrequest, hcall⟩ := hinv.call id _ hm
  obtain ⟨⟨requestId, body⟩, hencoded⟩ := Option.ne_none_iff_exists'.mp hcall.fits
  have hdelivery : s.deliveries id = ⟨some (requestId, body), (s.deliveries id).inFlight⟩ := by
    rw [← hencoded]
  generalize (s.deliveries id).inFlight = inFlight at hdelivery
  have hcalls : (calls client requests)[id]? = some (request.call client) := by
    rw [getElem?_calls, hrequest]
    rfl
  by_cases hready : inFlight = true ∨ (request.options client requestId body).overCap ≠ none
  · refine ⟨.answer, by simp, fun outcome => ?_⟩
    simp only [step, answer, hrequest, hdelivery, if_pos hready, Writer.answer, hcalls, hm,
      Option.isSome_map]
    split <;> rfl
  · push Not at hready
    obtain ⟨hidle, hcap⟩ := hready
    rw [Ne, Bool.not_eq_true] at hidle
    subst hidle
    refine ⟨.send, by simp, fun outcome => ?_⟩
    simp only [step, send, hrequest, hm, hdelivery, if_pos hcap]
    rfl

theorem enabled_head (hinv : RunInv codec client requests s) {id : Nat} {m : Mutation}
    (hm : s.writer.mutations id = some m) (hhead : (s.writer.sendSlots client.id).head? = some id)
    (hunfinished : m.stage.isFinished = false) :
    ∃ turn, turn ≠ .arrive ∧ Enabled codec client requests s turn id := by
  have hcall := List.getElem?_eq_getElem (hinv.slots.called id m hm)
  have hclient := client_of_calls hcall
  obtain ⟨request, hrequest, hinvCall⟩ := hinv.call id m hm
  obtain ⟨stage, sequence⟩ := m
  cases stage with
  | waiting =>
      rw [← hclient] at hhead
      refine ⟨.begin, by simp, fun outcome => ?_⟩
      simp [step, Writer.begin, hcall, hm, hhead]
  | reserving o => exact enabled_operation hinv hm rfl
  | mapping =>
      obtain ⟨v, hv⟩ := Option.ne_none_iff_exists'.mp hinvCall.fits.1
      simp only at hv
      subst hv
      refine ⟨.map, by simp, fun outcome => ?_⟩
      simp only [step, map, hrequest, hm]
      split <;> simp [Writer.map, hcall, hm]
  | sending retry => exact enabled_sending hinv hm
  | reconciling retry answer accepted o => exact enabled_operation hinv hm rfl
  | finished result => contradiction

/-- While a call that has arrived has not finished, the holder of the slot can take a turn. -/
theorem RunInv.progress (hinv : RunInv codec client requests s) {id : Nat}
    (harrived : id ∈ s.arrivals) (hunfinished : ¬ Finished s.writer id) :
    ∃ turn j, turn ≠ .arrive ∧ Enabled codec client requests s turn j := by
  have hmem : id ∈ s.writer.sendSlots client.id := by
    obtain ⟨m, hm⟩ := Option.ne_none_iff_exists'.mp ((hinv.arrived id).mp harrived)
    have hcall := List.getElem?_eq_getElem (hinv.slots.called id m hm)
    have hstage : m.stage.isFinished = false := by
      rw [← Bool.not_eq_true]
      exact fun hfinished => hunfinished ⟨m, hm, hfinished⟩
    rw [hinv.slots.send.mem, Writer.keyOf_eq hcall hm, PresenceCall.sendKey, hstage,
      client_of_calls hcall]
    rfl
  obtain ⟨first, hhead⟩ : ∃ first, (s.writer.sendSlots client.id).head? = some first := by
    cases hslots : s.writer.sendSlots client.id with
    | nil => simp [hslots] at hmem
    | cons first rest => exact ⟨first, rfl⟩
  have hfirst := (hinv.slots.send.mem client.id first).mp (List.mem_of_mem_head? hhead)
  rw [Writer.keyOf] at hfirst
  split at hfirst
  · rename_i call m hcall hm
    have hstage : m.stage.isFinished = false := by
      rw [PresenceCall.sendKey] at hfirst
      split at hfirst
      · contradiction
      · rename_i hstage
        exact Bool.not_eq_true _ ▸ hstage
    obtain ⟨turn, hturn, henabled⟩ := enabled_head hinv hm hhead hstage
    exact ⟨turn, first, hturn, henabled⟩
  · contradiction

theorem RunInv.arrive_enabled (hinv : RunInv codec client requests s) {id : Nat}
    (hcalled : id < requests.length) (hfresh : id ∉ s.arrivals) :
    Enabled codec client requests s .arrive id := by
  have hnone : s.writer.mutations id = none := by
    by_contra hm
    exact hfresh ((hinv.arrived id).mpr hm)
  intro outcome
  simp [OrderedWriter.step, Writer.arrive, getElem?_calls, List.getElem?_eq_getElem hcalled, hnone]

end Progress

theorem RunInv.inFlight_unique {s : OrderedWriter} (hinv : RunInv codec client requests s)
    {a b : Nat} (ha : (s.deliveries a).inFlight = true) (hb : (s.deliveries b).inFlight = true) :
    a = b := by
  have hholds {id : Nat} (hid : (s.deliveries id).inFlight = true) :
      (s.writer.sendSlots client.id).head? = some id := by
    cases hm : s.writer.mutations id with
    | none =>
        rw [(hinv.uncalled id hm).2] at hid
        contradiction
    | some m =>
        obtain ⟨request, -, hcall⟩ := hinv.call id m hm
        have hstage : ∃ retry, m.stage = .sending retry := hcall.fits.sending_of_inFlight hid
        obtain ⟨retry, hstage⟩ := hstage
        refine holds_slot hinv.slots hm ?_ ?_
        · simp [hstage]
        · rw [hstage]
          rfl
  exact Option.some.inj ((hholds ha).symm.trans (hholds hb))

theorem RunInv.reservations_eq {s : OrderedWriter} (hinv : RunInv codec client requests s)
    {id : Nat} {m : Mutation} (hm : s.writer.mutations id = some m) :
    s.reservations id = m.sequence.toList := by
  obtain ⟨request, -, hcall⟩ := hinv.call id m hm
  exact hcall.reserved

theorem RunInv.hasSequence_of_mem {s : OrderedWriter} (hinv : RunInv codec client requests s)
    {id : Nat} {v : UInt64} (hv : v ∈ s.reservations id) : HasSequence s.writer id v := by
  cases hm : s.writer.mutations id with
  | none => simp [reservations, (hinv.uncalled id hm).1] at hv
  | some m =>
      rw [hinv.reservations_eq hm, Option.mem_toList] at hv
      exact ⟨m, hm, hv⟩

theorem RunInv.counts {s : OrderedWriter} (hinv : RunInv codec client requests s) (id : Nat) :
    (s.reservations id).length ≤ 1 ∧ (s.attempts id).length ≤ 2 := by
  cases hm : s.writer.mutations id with
  | none => simp [reservations, attempts, (hinv.uncalled id hm).1]
  | some m =>
      obtain ⟨request, -, hcall⟩ := hinv.call id m hm
      refine ⟨?_, le_trans hcall.attempts (m.stage.attemptsBound_le _)⟩
      rw [hinv.reservations_eq hm]
      exact Option.length_toList_le

theorem RunInv.attempts_same {s : OrderedWriter} (hinv : RunInv codec client requests s) {id : Nat}
    (hsent : s.attempts id ≠ []) :
    ∃ request sequence requestId body, requests[id]? = some request ∧
      s.reservations id = [sequence] ∧
      request.encode codec client sequence requestId = .ok body ∧
      ∀ sent ∈ s.attempts id, sent = (request.options client requestId body).request := by
  cases hm : s.writer.mutations id with
  | none => simp [attempts, (hinv.uncalled id hm).1] at hsent
  | some m =>
      obtain ⟨request, hrequest, hcall⟩ := hinv.call id m hm
      obtain ⟨first, hfirst⟩ := List.exists_mem_of_ne_nil _ hsent
      obtain ⟨requestId, body, hbody, -⟩ := hcall.sent first hfirst
      obtain ⟨sequence, hsequence, hencodes⟩ := hcall.encoded requestId body hbody
      refine ⟨request, sequence, requestId, body, hrequest, ?_, hencodes, ?_⟩
      · rw [hinv.reservations_eq hm, hsequence]
        rfl
      · intro sent hmem
        obtain ⟨requestId', body', hbody', hsame⟩ := hcall.sent sent hmem
        rw [hbody] at hbody'
        obtain ⟨rfl, rfl⟩ := Prod.mk.inj (Option.some.inj hbody')
        exact hsame

/-- Every run of any calls of one client, under every schedule, every server and every pattern of
failing stores: a call reserves once and sends twice at most; its attempts are one request, with the
bytes of the sequence it reserved; one attempt is in flight at a time, and nobody else is on the
wire between the first and the last attempt of a call; the sequences increase in the order of the
slot and of the wire; while a call has not finished a turn is possible whatever its outcome, and a
call takes sixteen turns at most, its arrival included. -/
theorem mutations_ordered {backing : String → Option Int} {es : List OrderedEvent}
    {s : OrderedWriter} (hrun : exec (step codec client requests) (new backing) es = some s) :
    (∀ id, (s.reservations id).length ≤ 1 ∧ (s.attempts id).length ≤ 2) ∧
    (∀ id, s.attempts id ≠ [] → ∃ request sequence requestId body,
      requests[id]? = some request ∧ s.reservations id = [sequence] ∧
      request.encode codec client sequence requestId = .ok body ∧
      ∀ sent ∈ s.attempts id, sent = (request.options client requestId body).request) ∧
    (∀ a b, (s.deliveries a).inFlight = true → (s.deliveries b).inFlight = true → a = b) ∧
    Contiguous s.wire ∧
    s.arrivals.Pairwise (fun a b => ∀ v ∈ s.reservations a, ∀ w ∈ s.reservations b, v < w) ∧
    s.wire.Pairwise (fun a b => a = b ∨
      ∀ v ∈ s.reservations a, ∀ w ∈ s.reservations b, v < w) ∧
    (∀ id ∈ s.arrivals, ¬ Finished s.writer id →
      ∃ turn j, turn ≠ .arrive ∧ Enabled codec client requests s turn j) ∧
    (∀ id < requests.length, id ∉ s.arrivals → Enabled codec client requests s .arrive id) ∧
    ∀ id, es.countP (fun e => e.id = id) ≤ 16 := by
  have hinv := runInv_run hrun
  refine ⟨hinv.counts, fun id => hinv.attempts_same, fun a b => hinv.inFlight_unique,
    hinv.contiguous, ?_, ?_, ?_, ?_, ?_⟩
  · refine hinv.slotOrder.imp ?_
    intro a b hlt v hv w hw
    exact hlt v w (hinv.hasSequence_of_mem hv) (hinv.hasSequence_of_mem hw)
  · refine hinv.wire.imp ?_
    intro a b hab
    refine hab.imp_right ?_
    intro ⟨_, hlt⟩ v hv w hw
    exact hlt v w (hinv.hasSequence_of_mem hv) (hinv.hasSequence_of_mem hw)
  · intro id harrived hunfinished
    exact hinv.progress harrived hunfinished
  · intro id hcalled hfresh
    exact hinv.arrive_enabled hcalled hfresh
  · intro id
    have hbound := turns_bound hrun id
    omega

def bracesCodec : WireCodec where
  calendar := .epoch
  floats := .integral
  parse _ := none
  presenceBody _ := [0x7B, 0x7D]
  clearBody _ := [0x7B, 0x7D]

def publishThenClear : List MutationRequest :=
  [.replacePresence LiveDesk.firstSnapshot (.finite 60), .clearPresence .paused 0]

/-- Turns of one call, with stores that succeed and no answer. -/
def turnsOf (id : Nat) (turns : List Turn) : List OrderedEvent :=
  turns.map (fun turn => ⟨turn, id, ⟨true, "11111111-0000-4000-8000-000000000000", none⟩⟩)

/-- The publish is sent twice in vain; the clear, which has waited, is on its way. -/
def unansweredRun : List OrderedEvent :=
  turnsOf 0 [.arrive, .begin, .enqueue, .load] ++ turnsOf 1 [.arrive] ++
    turnsOf 0 [.store, .map, .send, .answer, .send, .answer] ++
    turnsOf 1 [.begin, .enqueue, .load, .store, .map, .send]

theorem mutations_ordered_unanswered :
    ∃ s, exec (step bracesCodec pairedClient publishThenClear) (new (fun _ => none))
        unansweredRun = some s ∧
      s.wire = [0, 0, 0, 0, 1] ∧ s.reservations 0 = [0] ∧ s.reservations 1 = [1] ∧
      Contiguous s.wire := by
  obtain ⟨s, hs, hwire, h0, h1⟩ : ∃ s,
      exec (step bracesCodec pairedClient publishThenClear) (new (fun _ => none))
        unansweredRun = some s ∧
      s.wire = [0, 0, 0, 0, 1] ∧ s.reservations 0 = [0] ∧ s.reservations 1 = [1] :=
    ⟨_, rfl, by decide +kernel, by decide +kernel, by decide +kernel⟩
  exact ⟨s, hs, hwire, h0, h1, (mutations_ordered hs).2.2.2.1⟩

end OrderedWriter

end YohakuCore
