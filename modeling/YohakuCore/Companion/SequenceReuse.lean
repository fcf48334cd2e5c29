import YohakuCore.Companion.LiveDesk

/-!
# Sequences of one device

A device has one sequencer as long as the authority is not discarded. After a discard, detached
clears still use the first one.
-/

namespace YohakuCore

open Framework

namespace Writer

/-- What a move of one mutation may do to the store and to its own sequence: load, or nothing of
the kind. -/
structure QuietMove (w w' : Writer) (id : Nat) (call : PresenceCall) (m' : Mutation) : Prop where
  backing : w'.backing = w.backing
  sequence : ∀ v, m'.sequence = some v → ∃ m, w.mutations id = some m ∧ m.sequence = some v
  loaded : ∀ op current next result,
    m'.stage.operation = some (op, .storing current next result) → op.loads = true ∧
      op.plan current = .store next result ∧
      current = currentNext call.client.sequencer.pairingNextSequence
        (w.backing call.client.sequencer.deviceId)

/-- A store that succeeded; a reserve now has its sequence. -/
structure StoreMove (w w' : Writer) (id : Nat) (call : PresenceCall) (m' : Mutation)
    (op : SequencerOp) (current next : UInt64) (result : Option UInt64) : Prop where
  storing : ∃ m, w.mutations id = some m ∧
    m.stage.operation = some (op, .storing current next result) ∧
    ∀ v, m'.sequence = some v → m.sequence = some v ∨ result = some v
  backing : w'.backing = Function.update w.backing call.client.sequencer.deviceId
    (some (next.toNat : Int))
  done : m'.stage.operation = none

/-- The mutation `id` moved to `m'`, all others stayed. -/
inductive Moved (calls : List PresenceCall) (w w' : Writer) : WriterEvent → Prop where
  | remove (deviceId : String)
      (same : w'.mutations = w.mutations)
      (removed : w'.backing = Function.update w.backing deviceId none) :
      Moved calls w w' (.remove deviceId)
  | quiet (e : WriterEvent) (id : Nat) (call : PresenceCall) (m' : Mutation)
      (called : calls[id]? = some call)
      (move : w'.mutations = Function.update w.mutations id (some m'))
      (quiet : QuietMove w w' id call m') : Moved calls w w' e
  | store (id : Nat) (call : PresenceCall) (m' : Mutation) (op : SequencerOp)
      (current next : UInt64) (result : Option UInt64)
      (called : calls[id]? = some call)
      (move : w'.mutations = Function.update w.mutations id (some m'))
      (stored : StoreMove w w' id call m' op current next result) :
      Moved calls w w' (.store id true)

private theorem quietMove_of_operation {w w' : Writer} {id : Nat} {call : PresenceCall}
    {m m' : Mutation} (hm : w.mutations id = some m) (hbacking : w'.backing = w.backing)
    (hsequence : ∀ v, m'.sequence = some v → m.sequence = some v)
    (hoperation : ∀ op current next result,
      m'.stage.operation ≠ some (op, .storing current next result)) :
    QuietMove w w' id call m' where
  backing := hbacking
  sequence v hv := ⟨m, hm, hsequence v hv⟩
  loaded op current next result h := absurd h (hoperation op current next result)

theorem operationDone_sequence (m : Mutation) (result : Except SequencerError (Option UInt64))
    (v : UInt64) (h : (m.operationDone result).sequence = some v) :
    m.sequence = some v ∨ result = .ok (some v) := by
  obtain ⟨stage, sequence⟩ := m
  cases result with
  | error error => cases stage <;> exact Or.inl h
  | ok value =>
      cases stage with
      | reserving stage =>
          have hvalue : value = some v := h
          exact Or.inr (hvalue ▸ rfl)
      | waiting => exact Or.inl h
      | mapping => exact Or.inl h
      | sending retry => exact Or.inl h
      | reconciling retry answer accepted stage => exact Or.inl h
      | finished result => exact Or.inl h

private theorem quietMove_finish {w : Writer} {id : Nat} {m : Mutation}
    {op : SequencerOp × OperationStage} (call : PresenceCall) (hm : w.mutations id = some m)
    (hoperation : m.stage.operation = some op)
    {result : Except SequencerError (Option UInt64)} (hresult : ∀ v, result ≠ .ok (some v)) :
    QuietMove w (w.finishOperation call.client id m result) id call (m.operationDone result) := by
  refine quietMove_of_operation hm rfl ?_ ?_
  · intro v hv
    rcases operationDone_sequence m result v hv with hsequence | hvalue
    · exact hsequence
    · exact absurd hvalue (hresult v)
  · intro op' current next result' h
    rw [operationDone_operation hoperation result] at h
    contradiction

/-- What any step of the writer does: it moves one mutation, or removes an entry. -/
theorem step_moved {calls : List PresenceCall} {w w' : Writer} {e : WriterEvent}
    (h : w.step calls e = some w') : Moved calls w w' e := by
  cases step_case h with
  | removed deviceId hremoves => exact hremoves ▸ .remove deviceId rfl rfl
  | arrived id call hcall hm harrives =>
      rw [harrives]
      exact .quiet _ id call _ hcall rfl
        ⟨rfl, fun v hv => (nomatch hv), fun _ _ _ _ hop => nomatch hop⟩
  | begun id call sequence hcall hm hhead hbegins =>
      rw [hbegins]
      exact .quiet _ id call _ hcall rfl
        (quietMove_of_operation hm rfl (fun v hv => hv) (fun _ _ _ _ hop => nomatch hop))
  | enqueued id call m op hcall hm hoperation henqueues =>
      rw [henqueues]
      refine .quiet _ id call _ hcall rfl
        (quietMove_of_operation hm rfl (fun v hv => hv) ?_)
      intro op' current next result hop
      rw [withOperation_operation hoperation] at hop
      exact nomatch hop
  | loaded id call m op current next result hcall hm hoperation _ hreads hloads hplan hupdates =>
      rw [hupdates]
      refine .quiet _ id call _ hcall rfl ⟨rfl, fun v hv => ⟨m, hm, hv⟩, ?_⟩
      intro op' current' next' result' hop
      rw [withOperation_operation hoperation] at hop
      obtain ⟨rfl, hstage⟩ := Prod.mk.inj (Option.some.inj hop)
      obtain ⟨rfl, rfl, rfl⟩ := OperationStage.storing.inj hstage
      exact ⟨hloads, hplan, hreads⟩
  | finished id call m op result hcall hm hoperation _ hquiet hfinishes =>
      rw [hfinishes]
      exact .quiet _ id call _ hcall rfl (quietMove_finish call hm hoperation hquiet)
  | stored id call m op current next result hcall hm hoperation hstores =>
      rw [hstores]
      refine .store id call _ op current next result hcall rfl ⟨⟨m, hm, hoperation, ?_⟩, rfl,
        operationDone_operation hoperation _⟩
      intro v hv
      rcases operationDone_sequence m _ v hv with hsequence | hvalue
      · exact Or.inl hsequence
      · exact Or.inr (Except.ok.inj hvalue)
  | failed id call m op current next result hcall hm hoperation hfails =>
      rw [hfails]
      exact .quiet _ id call _ hcall rfl (quietMove_finish call hm hoperation (by simp))
  | answered _ id call m m' hcall hm hanswers hupdates =>
      rw [hupdates]
      refine .quiet _ id call _ hcall rfl
        (quietMove_of_operation hm rfl ?_ hanswers.not_storing)
      intro v hv
      exact hanswers.sequence ▸ hv

/-- What is stored for a device, as far as it is valid. -/
def storedNext (w : Writer) (deviceId : String) : Nat :=
  (((w.backing deviceId).bind validSequence).map UInt64.toNat).getD 0

theorem storedNext_le_currentNext (w : Writer) (deviceId : String) (floor : UInt64) :
    w.storedNext deviceId ≤ (currentNext floor (w.backing deviceId)).toNat := by
  rw [storedNext]
  cases hvalid : (w.backing deviceId).bind validSequence with
  | none => exact Nat.zero_le _
  | some value => exact le_currentNext hvalid

theorem storedNext_of_backing {w : Writer} {deviceId : String} {next : UInt64}
    (h : w.backing deviceId = some (next.toNat : Int))
    (hmax : next.toNat ≤ maximumSafeWireInteger.toNat) : w.storedNext deviceId = next.toNat := by
  rw [storedNext, h, Option.bind_some, validSequence_toNat hmax]
  rfl

/-- The mutation `id` has reserved the sequence `v` for the device. -/
structure Reserved (calls : List PresenceCall) (w : Writer) (deviceId : String) (id : Nat)
    (v : UInt64) : Prop where
  called : ∃ call, calls[id]? = some call ∧ call.client.sequencer.deviceId = deviceId
  mutation : ∃ m, w.mutations id = some m ∧ m.sequence = some v

/-- The mutation `id` has loaded and not yet stored for the device. -/
structure Operates (calls : List PresenceCall) (w : Writer) (deviceId : String) (id : Nat)
    (call : PresenceCall) (op : SequencerOp) (current next : UInt64)
    (result : Option UInt64) : Prop where
  called : calls[id]? = some call
  device : call.client.sequencer.deviceId = deviceId
  mutation : ∃ m, w.mutations id = some m ∧
    m.stage.operation = some (op, .storing current next result)

/-- A store succeeds for the device while an operation of another sequencer is between its load and
its store. -/
def CrossesStore (calls : List PresenceCall) (w : Writer) (deviceId : String)
    (e : WriterEvent) : Prop :=
  ∃ i j call call' op current next result, e = .store i true ∧ calls[i]? = some call ∧
    call.client.sequencer.deviceId = deviceId ∧
    Operates calls w deviceId j call' op current next result ∧
    call'.client.sequencer.id ≠ call.client.sequencer.id

/-- Nothing was stored for the device since the loads that are still to be followed by a store. -/
def LoadsFresh (calls : List PresenceCall) (w : Writer) (deviceId : String) : Prop :=
  ∀ id call op current next result, Operates calls w deviceId id call op current next result →
    op.loads = true ∧ op.plan current = .store next result ∧
    (currentNext call.client.sequencer.pairingNextSequence (w.backing deviceId)).toNat ≤
      current.toNat

theorem Operates.slotHolds {calls : List PresenceCall} {w : Writer} {deviceId : String} {id : Nat}
    {call : PresenceCall} {op : SequencerOp} {current next : UInt64} {result : Option UInt64}
    (h : Operates calls w deviceId id call op current next result) :
    w.SlotHolds id ∧
      w.keyOf PresenceCall.slotKey calls id = some call.client.sequencer.id := by
  obtain ⟨m, hm, hoperation⟩ := h.mutation
  refine ⟨⟨m, op, current, next, result, hm, hoperation⟩, ?_⟩
  rw [keyOf_eq h.called hm, PresenceCall.slotKey, hoperation]

theorem loadsFresh_step {calls : List PresenceCall} {w w' : Writer} {e : WriterEvent}
    {deviceId : String} (h : LoadsFresh calls w deviceId) (hinv : w.Inv calls)
    (hcross : ¬ CrossesStore calls w deviceId e) (hstep : w.step calls e = some w') :
    LoadsFresh calls w' deviceId := by
  intro j call' op' current' next' result' hj
  obtain ⟨n, hn, hoperation⟩ := hj.mutation
  cases step_moved hstep with
  | remove removed same hremoved =>
      rw [same] at hn
      obtain ⟨hloads, hplan, hle⟩ := h j call' op' current' next' result'
        ⟨hj.called, hj.device, n, hn, hoperation⟩
      refine ⟨hloads, hplan, ?_⟩
      by_cases hdevice : deviceId = removed
      · rw [hremoved, hdevice, Function.update_self, currentNext_none]
        exact le_trans (floor_le_currentNext _ _) hle
      · rw [hremoved, Function.update_of_ne hdevice]
        exact hle
  | quiet _ id call m' hcall hmove hquiet =>
      rw [hmove, Function.update_apply] at hn
      rw [hquiet.backing]
      split at hn
      · rename_i hid
        obtain rfl := Option.some.inj hn
        have hsame : call' = call := by
          have hcall' := hj.called
          rw [hid, hcall] at hcall'
          exact (Option.some.inj hcall').symm
        obtain ⟨hloads, hplan, hcurrent⟩ := hquiet.loaded _ _ _ _ hoperation
        refine ⟨hloads, hplan, ?_⟩
        rw [hcurrent, ← hj.device, hsame]
      · exact h j call' op' current' next' result' ⟨hj.called, hj.device, n, hn, hoperation⟩
  | store id call m' op current next result hcall hmove hstored =>
      rw [hmove, Function.update_apply] at hn
      split at hn
      · obtain rfl := Option.some.inj hn
        rw [hstored.done] at hoperation
        contradiction
      · rename_i hne
        have hold : Operates calls w deviceId j call' op' current' next' result' :=
          ⟨hj.called, hj.device, n, hn, hoperation⟩
        by_cases hdevice : call.client.sequencer.deviceId = deviceId
        · obtain ⟨m, hm, hop, -⟩ := hstored.storing
          have hid : Operates calls w deviceId id call op current next result :=
            ⟨hcall, hdevice, m, hm, hop⟩
          by_cases hsequencer : call'.client.sequencer.id = call.client.sequencer.id
          · have hkey := hold.slotHolds.2
            rw [hsequencer] at hkey
            exact absurd (hinv.slot.holder_unique hold.slotHolds.1 hid.slotHolds.1 hkey
              hid.slotHolds.2) hne
          · exact absurd ⟨id, j, call, call', op', current', next', result', rfl, hcall, hdevice,
              hold, hsequencer⟩ hcross
        · rw [hstored.backing, Function.update_of_ne (Ne.symm hdevice)]
          exact h j call' op' current' next' result' hold

/-- While the device's entry is not removed the stored value does not decrease, and a sequence that
a step reserves lies between the stored values before and after it. -/
theorem storedNext_step {calls : List PresenceCall} {w w' : Writer} {e : WriterEvent}
    {deviceId : String} (h : LoadsFresh calls w deviceId) (hkept : e ≠ .remove deviceId)
    (hstep : w.step calls e = some w') :
    w.storedNext deviceId ≤ w'.storedNext deviceId ∧
      ∀ j v, Reserved calls w' deviceId j v → Reserved calls w deviceId j v ∨
        (e = .store j true ∧ w.storedNext deviceId ≤ v.toNat ∧
          v.toNat + 1 ≤ w'.storedNext deviceId) := by
  cases step_moved hstep with
  | remove removed same hremoved =>
      have hdevice : deviceId ≠ removed := fun heq => hkept (heq ▸ rfl)
      refine ⟨?_, ?_⟩
      · rw [storedNext, storedNext, hremoved, Function.update_of_ne hdevice]
      · intro j v hv
        obtain ⟨n, hn, hsequence⟩ := hv.mutation
        exact Or.inl ⟨hv.called, n, same ▸ hn, hsequence⟩
  | quiet _ id call m' hcall hmove hquiet =>
      refine ⟨?_, ?_⟩
      · rw [storedNext, storedNext, hquiet.backing]
      · intro j v hv
        obtain ⟨n, hn, hsequence⟩ := hv.mutation
        rw [hmove, Function.update_apply] at hn
        split at hn
        · rename_i hid
          obtain rfl := Option.some.inj hn
          exact Or.inl ⟨hv.called, hid ▸ hquiet.sequence v hsequence⟩
        · exact Or.inl ⟨hv.called, n, hn, hsequence⟩
  | store id call m' op current next result hcall hmove hstored =>
      obtain ⟨m, hm, hop, hsequences⟩ := hstored.storing
      by_cases hdevice : call.client.sequencer.deviceId = deviceId
      · obtain ⟨hloads, hplan, hfresh⟩ := h id call op current next result
          ⟨hcall, hdevice, m, hm, hop⟩
        obtain ⟨hlt, hmax, hcases⟩ := SequencerOp.plan_store hloads hplan
        have hbefore := storedNext_le_currentNext w deviceId
          call.client.sequencer.pairingNextSequence
        have hafter : w'.storedNext deviceId = next.toNat := by
          refine storedNext_of_backing ?_ hmax
          rw [hstored.backing, hdevice, Function.update_self]
        refine ⟨by omega, ?_⟩
        intro j v hv
        obtain ⟨n, hn, hsequence⟩ := hv.mutation
        rw [hmove, Function.update_apply] at hn
        split at hn
        · rename_i hid
          obtain rfl := Option.some.inj hn
          rcases hsequences v hsequence with hold | hresult
          · exact Or.inl ⟨hv.called, m, hid ▸ hm, hold⟩
          · rcases hcases with ⟨-, hcurrent, hsucc⟩ | ⟨a, -, hnone, -⟩
            · rw [hresult] at hcurrent
              obtain rfl := Option.some.inj hcurrent
              exact Or.inr ⟨hid ▸ rfl, by omega, by omega⟩
            · rw [hresult] at hnone
              contradiction
        · exact Or.inl ⟨hv.called, n, hn, hsequence⟩
      · refine ⟨?_, ?_⟩
        · rw [storedNext, storedNext, hstored.backing, Function.update_of_ne (Ne.symm hdevice)]
        · intro j v hv
          obtain ⟨call', hcall', hdevice'⟩ := hv.called
          obtain ⟨n, hn, hsequence⟩ := hv.mutation
          rw [hmove, Function.update_apply] at hn
          split at hn
          · rename_i hid
            rw [hid, hcall] at hcall'
            obtain rfl := Option.some.inj hcall'
            exact absurd hdevice' hdevice
          · exact Or.inl ⟨hv.called, n, hn, hsequence⟩

end Writer

namespace LiveDesk

/-- No two mutations share a sequence of the device, and the store is ahead of all of them. -/
structure DeviceInv (deviceId : String) (s : LiveDesk) : Prop where
  fresh : Writer.LoadsFresh s.coordinator.calls s.writer deviceId
  below : ∀ id v, Writer.Reserved s.coordinator.calls s.writer deviceId id v →
    v.toNat + 1 ≤ s.writer.storedNext deviceId
  distinct : ∀ i j v, Writer.Reserved s.coordinator.calls s.writer deviceId i v →
    Writer.Reserved s.coordinator.calls s.writer deviceId j v → i = j

/-- A step of the writer stores for the device in the middle of another sequencer's operation. -/
def CrossesStore (deviceId : String) (s : LiveDesk) : LiveDeskEvent → Prop
  | .coordinator _ => False
  | .writer e => Writer.CrossesStore s.coordinator.calls s.writer deviceId e

theorem loadsFresh_new (deviceId : String) (backing : String → Option Int) :
    Writer.LoadsFresh (new backing).coordinator.calls (new backing).writer deviceId := by
  intro id call op current next result h
  obtain ⟨m, hm, -⟩ := h.mutation
  exact nomatch hm

theorem deviceInv_new (deviceId : String) (backing : String → Option Int) :
    (new backing).DeviceInv deviceId where
  fresh := loadsFresh_new deviceId backing
  below id v h := by
    obtain ⟨m, hm, -⟩ := h.mutation
    exact nomatch hm
  distinct i j v h _ := by
    obtain ⟨m, hm, -⟩ := h.mutation
    exact nomatch hm

theorem Inv.call_of_append {s : LiveDesk} (h : s.Inv) {later : List PresenceCall} {id : Nat}
    {m : Mutation} (hm : s.writer.mutations id = some m) :
    (s.coordinator.calls ++ later)[id]? = s.coordinator.calls[id]? :=
  List.getElem?_append_left (h.writer.called id m hm)

theorem Inv.reserved_of_append {s : LiveDesk} (h : s.Inv) {later : List PresenceCall}
    {deviceId : String} {id : Nat} {v : UInt64}
    (hreserved : Writer.Reserved (s.coordinator.calls ++ later) s.writer deviceId id v) :
    Writer.Reserved s.coordinator.calls s.writer deviceId id v := by
  obtain ⟨call, hcall, hdevice⟩ := hreserved.called
  obtain ⟨m, hm, hsequence⟩ := hreserved.mutation
  rw [h.call_of_append hm] at hcall
  exact ⟨⟨call, hcall, hdevice⟩, m, hm, hsequence⟩

theorem loadsFresh_step {s s' : LiveDesk} {e : LiveDeskEvent} {deviceId : String}
    (h : Writer.LoadsFresh s.coordinator.calls s.writer deviceId) (hinv : s.Inv)
    (hcross : ¬ s.CrossesStore deviceId e) (hstep : s.step e = some s') :
    Writer.LoadsFresh s'.coordinator.calls s'.writer deviceId := by
  cases e with
  | coordinator e =>
      obtain ⟨hcoordinator, hwriter⟩ := step_coordinator hstep
      obtain ⟨later, -, hcalls⟩ := Coordinator.step_calls hcoordinator
      intro id call op current next result hop
      rw [hcalls, hwriter] at hop
      rw [hwriter]
      obtain ⟨m, hm, hoperation⟩ := hop.mutation
      have hcall := hop.called
      rw [hinv.call_of_append hm] at hcall
      exact h id call op current next result ⟨hcall, hop.device, m, hm, hoperation⟩
  | writer e =>
      obtain ⟨hwriter, hcoordinator⟩ := step_writer hstep
      rw [hcoordinator]
      exact Writer.loadsFresh_step h hinv.writer hcross hwriter

theorem storedNext_step {s s' : LiveDesk} {e : LiveDeskEvent} {deviceId : String}
    (h : Writer.LoadsFresh s.coordinator.calls s.writer deviceId) (hinv : s.Inv)
    (hkept : e ≠ .writer (.remove deviceId)) (hstep : s.step e = some s') :
    s.writer.storedNext deviceId ≤ s'.writer.storedNext deviceId ∧
      ∀ j v, Writer.Reserved s'.coordinator.calls s'.writer deviceId j v →
        Writer.Reserved s.coordinator.calls s.writer deviceId j v ∨
          (e = .writer (.store j true) ∧ s.writer.storedNext deviceId ≤ v.toNat ∧
            v.toNat + 1 ≤ s'.writer.storedNext deviceId) := by
  cases e with
  | coordinator e =>
      obtain ⟨hcoordinator, hwriter⟩ := step_coordinator hstep
      obtain ⟨later, -, hcalls⟩ := Coordinator.step_calls hcoordinator
      rw [hwriter, hcalls]
      exact ⟨le_refl _, fun j v hv => Or.inl (hinv.reserved_of_append hv)⟩
  | writer e =>
      obtain ⟨hwriter, hcoordinator⟩ := step_writer hstep
      have hne : e ≠ .remove deviceId := fun heq => hkept (heq ▸ rfl)
      obtain ⟨hmono, hreserved⟩ := Writer.storedNext_step h hne hwriter
      rw [hcoordinator]
      refine ⟨hmono, fun j v hv => ?_⟩
      rcases hreserved j v hv with hold | ⟨rfl, hrange⟩
      · exact Or.inl hold
      · exact Or.inr ⟨rfl, hrange⟩

theorem DeviceInv.step {s s' : LiveDesk} {e : LiveDeskEvent} {deviceId : String}
    (h : s.DeviceInv deviceId) (hinv : s.Inv) (hcross : ¬ s.CrossesStore deviceId e)
    (hkept : e ≠ .writer (.remove deviceId)) (hstep : s.step e = some s') :
    s'.DeviceInv deviceId := by
  obtain ⟨hmono, hreserved⟩ := storedNext_step h.fresh hinv hkept hstep
  refine ⟨loadsFresh_step h.fresh hinv hcross hstep, ?_, ?_⟩
  · intro id v hv
    rcases hreserved id v hv with hold | ⟨-, -, hbelow⟩
    · exact le_trans (h.below id v hold) hmono
    · exact hbelow
  · intro i j v hi hj
    -- A sequence reserved by this step is not below the stored value; all older ones are.
    rcases hreserved i v hi with hi | ⟨hei, habove, -⟩
    · have hbelow := h.below i v hi
      rcases hreserved j v hj with hj | ⟨-, habove, -⟩
      · exact h.distinct i j v hi hj
      · omega
    · rcases hreserved j v hj with hj | ⟨hej, -, -⟩
      · have hbelow := h.below j v hj
        omega
      · rw [hei] at hej
        injection hej with hej
        injection hej

/-- Over every run that keeps the device's entry: if no store of one sequencer falls between the
load and the store of another, no two mutations reserve the same sequence and the stored value never
decreases. -/
theorem sequences_never_reused {backing : String → Option Int} {deviceId : String}
    {es : List LiveDeskEvent} {s : LiveDesk}
    (hrun : exec LiveDesk.step (new backing) es = some s)
    (hkept : ∀ e ∈ es, e ≠ .writer (.remove deviceId))
    (hcross : EveryStep LiveDesk.step (new backing) es
      (fun s e _ => ¬ s.CrossesStore deviceId e)) :
    (∀ i j v, Writer.Reserved s.coordinator.calls s.writer deviceId i v →
      Writer.Reserved s.coordinator.calls s.writer deviceId j v → i = j) ∧
    EveryStep LiveDesk.step (new backing) es
      (fun s _ s' => s.writer.storedNext deviceId ≤ s'.writer.storedNext deviceId) := by
  have hevery : EveryStep LiveDesk.step (new backing) es
      (fun s e _ => ¬ s.CrossesStore deviceId e ∧ e ≠ .writer (.remove deviceId)) :=
    fun n s₁ e s₂ hat => ⟨hcross n s₁ e s₂ hat, hkept e (List.mem_of_getElem? hat.event)⟩
  have hall : ∀ n s₁, exec LiveDesk.step (new backing) (es.take n) = some s₁ →
      s₁.Inv ∧ s₁.DeviceInv deviceId := by
    intro n s₁ hs₁
    have htake : EveryStep LiveDesk.step (new backing) (es.take n)
        (fun s e _ => ¬ s.CrossesStore deviceId e ∧ e ≠ .writer (.remove deviceId)) := by
      rw [← List.take_append_drop n es] at hevery
      exact hevery.append_left
    refine EveryStep.invariant (I := fun s => s.Inv ∧ s.DeviceInv deviceId)
      ⟨inv_new backing, deviceInv_new deviceId backing⟩ ?_ htake hs₁
    intro s₁ e s₂ h hcond hstep
    exact ⟨h.1.step hstep, h.2.step h.1 hcond.1 hcond.2 hstep⟩
  constructor
  · have hlast := hall es.length s (by rw [List.take_length]; exact hrun)
    exact hlast.2.distinct
  · intro n s₁ e s₂ hat
    obtain ⟨hinv, hdevice⟩ := hall n s₁ hat.before
    exact (storedNext_step hdevice.fresh hinv (hevery n s₁ e s₂ hat).2 hat.step).1

theorem not_crossesStore_of_one_sequencer {backing : String → Option Int} {es : List LiveDeskEvent}
    {s : LiveDesk} {q : Nat} (hrun : exec LiveDesk.step (new backing) es = some s)
    (hone : ∀ call ∈ s.coordinator.calls, call.client.sequencer.id = q) (deviceId : String) :
    EveryStep LiveDesk.step (new backing) es (fun s e _ => ¬ s.CrossesStore deviceId e) := by
  intro n s₁ e s₂ hat hcross
  obtain ⟨s', hs', hrest⟩ := exec_take hrun n
  obtain rfl : s' = s₁ := Option.some.inj (hs'.symm.trans hat.before)
  have hprefix := calls_grow_run hrest
  cases e with
  | coordinator e => exact hcross
  | writer e =>
      obtain ⟨i, j, call, call', op, current, next, result, -, hcall, -, hoperates, hne⟩ := hcross
      have hmem := hprefix.subset (List.mem_of_getElem? hcall)
      have hmem' := hprefix.subset (List.mem_of_getElem? hoperates.called)
      exact hne ((hone call' hmem').trans (hone call hmem).symm)

def firstSnapshot : SanitizedPresenceSnapshot where
  observedAt := 0
  application := none
  media := none

/-- A refresh loop's iteration up to its call. -/
def iteratedBy (loop : Nat) (now : Int) : List LiveDeskEvent :=
  [.coordinator (.loopHead loop now), .coordinator (.loopThrottled loop now),
    .coordinator (.loopCheck loop firstSnapshot)]

/-- The steps of a call up to the load of its reserve. -/
def loadedBy (call : Nat) : List LiveDeskEvent :=
  [.writer (.arrive call), .writer (.begin call), .writer (.enqueue call), .writer (.load call)]

def startedBy (configure : Nat) : List LiveDeskEvent :=
  (Coordinator.configuredBy configure).map .coordinator

/-- A clear still to come when the server answers 426 after the wake: the renegotiation builds a
second sequencer, whose first publish has been called. -/
def clearBesideRenegotiation : List LiveDeskEvent :=
  [.coordinator .start] ++ startedBy 0 ++
    [.coordinator (.handleSleepOrLock 10), .coordinator (.loopHead 2 10),
      .coordinator .handleWakeOrUnlock, .coordinator (.joinDone 3),
      .coordinator (.wakeResume 4)] ++ startedBy 5 ++ iteratedBy 7 4000 ++ loadedBy 1 ++
    [.writer (.store 1 true), .writer (.map 1 none),
      .writer (.answer 1 (.error (.httpStatus 426))),
      .coordinator (.loopPublished 7 (.error (.transport (.httpStatus 426))))] ++
    startedBy 8 ++ iteratedBy 10 8000

/-- Whether all other calls are outside an operation when the run's event `n` stores. -/
def storesAlone (backing : String → Option Int) (es : List LiveDeskEvent) (n : Nat) : Bool :=
  match es[n]?, exec LiveDesk.step (new backing) (es.take n) with
  | some (.writer (.store i true)), some s =>
      (List.range s.coordinator.calls.length).all fun j =>
        j == i || ((s.writer.mutations j).bind (·.stage.operation)).isNone
  | _, _ => true

theorem not_crossesStore_of_storesAlone {backing : String → Option Int} {es : List LiveDeskEvent}
    (h : ∀ n : Fin es.length, storesAlone backing es n = true) (deviceId : String) :
    EveryStep LiveDesk.step (new backing) es (fun s e _ => ¬ s.CrossesStore deviceId e) := by
  intro n s e s' hat hcross
  cases e with
  | coordinator e => exact hcross
  | writer e =>
      obtain ⟨i, j, call, call', op, current, next, result, rfl, hcall, -, hoperates, hne⟩ := hcross
      obtain ⟨m, hm, hoperation⟩ := hoperates.mutation
      have halone := h ⟨n, hat.lt_length⟩
      simp only [storesAlone, hat.event, hat.before, List.all_eq_true, List.mem_range] at halone
      have hj := halone j (List.getElem?_eq_some_iff.mp hoperates.called).1
      rw [hm, Option.bind_some, hoperation, Option.isNone_some, Bool.or_false, beq_iff_eq] at hj
      obtain rfl : call' = call := by
        rw [← Option.some.injEq, ← hoperates.called, hj, hcall]
      exact hne rfl

/-- The clear stores before the new publish loads: three sequences through two sequencers. -/
def clearBeforeRenegotiated : List LiveDeskEvent :=
  clearBesideRenegotiation ++ loadedBy 0 ++ [.writer (.store 0 true)] ++ loadedBy 2 ++
    [.writer (.store 2 true)]

theorem sequences_never_reused_clearBeforeRenegotiated :
    ∃ s, exec LiveDesk.step (new (fun _ => none)) clearBeforeRenegotiated = some s ∧
      s.coordinator.calls.map (·.client.sequencer.id) = [0, 0, 4] ∧
      (Writer.Reserved s.coordinator.calls s.writer "device" 1 1 ∧
        Writer.Reserved s.coordinator.calls s.writer "device" 0 2 ∧
        Writer.Reserved s.coordinator.calls s.writer "device" 2 3) ∧
      (∀ i j v, Writer.Reserved s.coordinator.calls s.writer "device" i v →
        Writer.Reserved s.coordinator.calls s.writer "device" j v → i = j) ∧
      EveryStep LiveDesk.step (new (fun _ => none)) clearBeforeRenegotiated
        (fun s _ s' => s.writer.storedNext "device" ≤ s'.writer.storedNext "device") := by
  have hrun : ∃ s, exec LiveDesk.step (new (fun _ => none)) clearBeforeRenegotiated = some s ∧
      s.coordinator.calls.map (·.client.sequencer.id) = [0, 0, 4] ∧
      Writer.Reserved s.coordinator.calls s.writer "device" 1 1 ∧
      Writer.Reserved s.coordinator.calls s.writer "device" 0 2 ∧
      Writer.Reserved s.coordinator.calls s.writer "device" 2 3 :=
    ⟨_, rfl, rfl, ⟨⟨_, rfl, by decide⟩, _, rfl, by decide⟩,
      ⟨⟨_, rfl, by decide⟩, _, rfl, by decide⟩, ⟨⟨_, rfl, by decide⟩, _, rfl, by decide⟩⟩
  obtain ⟨s, hs, hsequencers, hreserved⟩ := hrun
  have hkept : ∀ e ∈ clearBeforeRenegotiated, e ≠ .writer (.remove "device") := by decide
  have halone : ∀ n : Fin clearBeforeRenegotiated.length,
      storesAlone (fun _ => none) clearBeforeRenegotiated n = true := by
    decide +kernel
  exact ⟨s, hs, hsequencers, hreserved,
    sequences_never_reused hs hkept (not_crossesStore_of_storesAlone halone "device")⟩

/-- Both load before either stores. -/
def clearAcrossDiscard : List LiveDeskEvent :=
  clearBesideRenegotiation ++ loadedBy 0 ++ loadedBy 2 ++
    [.writer (.store 0 true), .writer (.store 2 true)]

/-- The clear and the publish of the new authority both reserve the sequence 2. -/
theorem sequence_reused_clearAcrossDiscard :
    ∃ s, exec LiveDesk.step (new (fun _ => none)) clearAcrossDiscard = some s ∧
      Writer.Reserved s.coordinator.calls s.writer "device" 0 2 ∧
      Writer.Reserved s.coordinator.calls s.writer "device" 2 2 :=
  ⟨_, rfl, ⟨⟨_, rfl, by decide⟩, _, rfl, by decide⟩, ⟨⟨_, rfl, by decide⟩, _, rfl, by decide⟩⟩

end LiveDesk

end YohakuCore
