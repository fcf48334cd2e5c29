import YohakuCore.Framework.Execution
import YohakuCore.Model

/-!
# Durable sequence reservation

The stored value is the next sequence to hand out; nothing is cached. An operation loads, decides
and stores at most once, and a reserve returns only after its store. The machine below runs the
operations of one device one after the other, as the FIFO slot does, over a backing whose load
returns the last value stored, with failing stores and with a crash between any two steps.
-/

namespace YohakuCore

open Framework

inductive SequencerError where
  | exhausted
  | backing
  deriving DecidableEq

/-- An integer in `0..=2^53-1`; every other stored value is ignored. -/
def validSequence (value : Int) : Option UInt64 :=
  if 0 ≤ value ∧ value ≤ maximumSafeWireInteger.toNat then some (UInt64.ofNat value.toNat)
  else none

/-- The pairing floor over whatever the backing holds. -/
def currentNext (floor : UInt64) (stored : Option Int) : UInt64 :=
  max floor ((stored.bind validSequence).getD floor)

inductive SequencerOp where
  | reserve
  | reconcile (acceptedSequence : UInt64)
  deriving DecidableEq

/-- What remains of an operation once the current next value is known. A reserve carries the
sequence it returns. -/
inductive SequencerPlan where
  | finish (result : Except SequencerError (Option UInt64))
  | store (next : UInt64) (result : Option UInt64)
  deriving DecidableEq

/-- A reconcile outside the wire range returns before it loads. -/
def SequencerOp.loads : SequencerOp → Bool
  | .reserve => true
  | .reconcile acceptedSequence => acceptedSequence < maximumSafeWireInteger

def SequencerOp.plan (current : UInt64) : SequencerOp → SequencerPlan
  | .reserve =>
      if maximumSafeWireInteger ≤ current then .finish (.error .exhausted)
      else .store (current + 1) (some current)
  | .reconcile acceptedSequence =>
      let next := max current (acceptedSequence + 1)
      if next ≠ current then .store next none else .finish (.ok none)

theorem toNat_maximumSafeWireInteger : maximumSafeWireInteger.toNat = 2 ^ 53 - 1 := rfl

theorem toNat_add_one_of_lt {a : UInt64} (h : a < maximumSafeWireInteger) :
    (a + 1).toNat = a.toNat + 1 := by
  have hlt := UInt64.lt_iff_toNat_lt.mp h
  rw [toNat_maximumSafeWireInteger] at hlt
  rw [UInt64.toNat_add]
  change (a.toNat + 1) % 2 ^ 64 = _
  omega

private theorem toNat_max (a b : UInt64) : (max a b).toNat = max a.toNat b.toNat := by
  change (if a ≤ b then b else a).toNat = _
  split
  · rename_i h
    exact (max_eq_right (UInt64.le_iff_toNat_le.mp h)).symm
  · rename_i h
    exact (max_eq_left (Nat.le_of_not_le (fun hab => h (UInt64.le_iff_toNat_le.mpr hab)))).symm

theorem floor_le_currentNext (floor : UInt64) (stored : Option Int) :
    floor.toNat ≤ (currentNext floor stored).toNat := by
  rw [currentNext, toNat_max]
  exact le_max_left _ _

theorem validSequence_toNat {next : UInt64}
    (hmax : next.toNat ≤ maximumSafeWireInteger.toNat) :
    validSequence (next.toNat : Int) = some next := by
  unfold validSequence
  rw [if_pos ⟨Int.natCast_nonneg _, by exact_mod_cast hmax⟩]
  simp

theorem currentNext_some {floor next : UInt64} (hfloor : floor.toNat ≤ next.toNat)
    (hmax : next.toNat ≤ maximumSafeWireInteger.toNat) :
    currentNext floor (some (next.toNat : Int)) = next := by
  apply UInt64.toNat_inj.mp
  rw [currentNext, toNat_max, Option.bind_some, validSequence_toNat hmax, Option.getD_some]
  exact max_eq_right hfloor

@[simp] theorem currentNext_none (floor : UInt64) : currentNext floor none = floor := by
  apply UInt64.toNat_inj.mp
  rw [currentNext, toNat_max]
  exact max_self _

theorem le_currentNext {floor value : UInt64} {stored : Option Int}
    (h : stored.bind validSequence = some value) :
    value.toNat ≤ (currentNext floor stored).toNat := by
  rw [currentNext, h, Option.getD_some, toNat_max]
  exact le_max_right _ _

/-- What an operation stores: a value of the wire range above the current one, without overflow,
and above every sequence it settles. -/
theorem SequencerOp.plan_store {op : SequencerOp} {current next : UInt64}
    {result : Option UInt64} (hloads : op.loads = true)
    (h : op.plan current = .store next result) :
    current.toNat < next.toNat ∧ next.toNat ≤ maximumSafeWireInteger.toNat ∧
      (op = .reserve ∧ result = some current ∧ next.toNat = current.toNat + 1 ∨
        ∃ a, op = .reconcile a ∧ result = none ∧ next.toNat = a.toNat + 1) := by
  have hmax := toNat_maximumSafeWireInteger
  cases op with
  | reserve =>
      simp only [SequencerOp.plan] at h
      split at h
      · contradiction
      · rename_i hlt
        obtain ⟨rfl, rfl⟩ := SequencerPlan.store.inj h
        have hcur : current.toNat < maximumSafeWireInteger.toNat := by
          simpa [UInt64.le_iff_toNat_le] using hlt
        have hadd := toNat_add_one_of_lt (UInt64.lt_iff_toNat_lt.mpr hcur)
        exact ⟨by omega, by omega, Or.inl ⟨rfl, rfl, hadd⟩⟩
  | reconcile a =>
      have ha : a.toNat < maximumSafeWireInteger.toNat :=
        UInt64.lt_iff_toNat_lt.mp (of_decide_eq_true hloads)
      have hadd := toNat_add_one_of_lt (UInt64.lt_iff_toNat_lt.mpr ha)
      simp only [SequencerOp.plan] at h
      split at h
      · rename_i hne
        obtain ⟨rfl, rfl⟩ := SequencerPlan.store.inj h
        have hnat := toNat_max current (a + 1)
        have hneNat : (max current (a + 1)).toNat ≠ current.toNat :=
          fun heq => hne (UInt64.toNat_inj.mp heq)
        rw [hadd] at hnat
        have hval : (max current (a + 1)).toNat = a.toNat + 1 := by omega
        exact ⟨by omega, by omega, Or.inr ⟨a, rfl, rfl, hval⟩⟩
      · contradiction

theorem SequencerOp.plan_finish_ok {op : SequencerOp} {current : UInt64} {result : Option UInt64}
    (hloads : op.loads = true) (h : op.plan current = .finish (.ok result)) :
    result = none ∧ ∃ a, op = .reconcile a ∧ a.toNat + 1 ≤ current.toNat := by
  have hmax := toNat_maximumSafeWireInteger
  cases op with
  | reserve =>
      simp only [SequencerOp.plan] at h
      split at h
      · simp at h
      · contradiction
  | reconcile a =>
      have ha : a.toNat < maximumSafeWireInteger.toNat :=
        UInt64.lt_iff_toNat_lt.mp (of_decide_eq_true hloads)
      have hadd := toNat_add_one_of_lt (UInt64.lt_iff_toNat_lt.mpr ha)
      simp only [SequencerOp.plan] at h
      split at h
      · contradiction
      · rename_i heq
        simp only [SequencerPlan.finish.injEq, Except.ok.injEq] at h
        refine ⟨h.symm, a, rfl, ?_⟩
        have hnat := toNat_max current (a + 1)
        rw [not_not.mp heq, hadd] at hnat
        omega

/-- Where the operation holding the slot stands. It carries what the backing held when it was
called. -/
inductive SequencerPhase where
  | idle
  | called (op : SequencerOp) (before : Option Int)
  | storing (op : SequencerOp) (before : Option Int) (next : UInt64) (result : Option UInt64)
  | returning (op : SequencerOp) (before : Option Int)
      (result : Except SequencerError (Option UInt64))
  deriving DecidableEq

/-- A call that returned, with what the backing held when it was called and when it returned. -/
structure SequencerReturn where
  op : SequencerOp
  before : Option Int
  after : Option Int
  result : Except SequencerError (Option UInt64)
  deriving DecidableEq

structure SequencerState where
  backing : Option Int
  phase : SequencerPhase
  returned : List SequencerReturn
  deriving DecidableEq

inductive SequencerEvent where
  | call (op : SequencerOp)
  | load
  | store (succeeds : Bool)
  | ret
  | crash
  deriving DecidableEq

def SequencerState.initial (backing : Option Int) : SequencerState := ⟨backing, .idle, []⟩

/-- One step. A crash drops the operation in flight; the next process builds a new sequencer over
the same backing and floor. -/
def sequencerStep (floor : UInt64) (s : SequencerState) (e : SequencerEvent) :
    Option SequencerState :=
  match e, s.phase with
  | .call op, .idle => some { s with phase := .called op s.backing }
  | .load, .called op before =>
      if op.loads then
        match op.plan (currentNext floor s.backing) with
        | .finish result => some { s with phase := .returning op before result }
        | .store next result => some { s with phase := .storing op before next result }
      else some { s with phase := .returning op before (.ok none) }
  | .store true, .storing op before next result =>
      some { s with
        backing := some next.toNat
        phase := .returning op before (.ok result) }
  | .store false, .storing op before _ _ =>
      some { s with phase := .returning op before (.error .backing) }
  | .ret, .returning op before result =>
      some { s with
        phase := .idle
        returned := s.returned ++ [⟨op, before, s.backing, result⟩] }
  | .crash, _ => some { s with phase := .idle }
  | _, _ => none

/-- Every later reserve returns at least this much. -/
def SequencerOp.settles : SequencerOp → Except SequencerError (Option UInt64) → Nat
  | .reserve, .ok (some value) => value.toNat + 1
  | .reconcile acceptedSequence, .ok _ =>
      if acceptedSequence < maximumSafeWireInteger then acceptedSequence.toNat + 1 else 0
  | _, _ => 0

def SequencerReturn.settles (r : SequencerReturn) : Nat := r.op.settles r.result

/-- What a returned call promises by itself. -/
structure SequencerReturn.Good (floor : UInt64) (r : SequencerReturn) : Prop where
  unchanged : ∀ error, r.result = .error error → r.after = r.before
  range : ∀ value, r.result = .ok (some value) →
    floor.toNat ≤ value.toNat ∧ value.toNat ≤ 2 ^ 53 - 2

/-- What holds of the operation in flight, over the calls returned before it. -/
def SequencerPhase.Good (floor : UInt64) (backing : Option Int)
    (returned : List SequencerReturn) : SequencerPhase → Prop
  | .idle => True
  | .called _ before => before = backing
  | .storing op before next result => before = backing ∧ op.loads = true ∧
      op.plan (currentNext floor backing) = .store next result
  | .returning op before result =>
      (∀ error, result = .error error → before = backing) ∧
      (∀ value, result = .ok (some value) → floor.toNat ≤ value.toNat ∧
        value.toNat ≤ 2 ^ 53 - 2 ∧ ∀ r ∈ returned, r.settles ≤ value.toNat) ∧
      op.settles result ≤ (currentNext floor backing).toNat

/-- The counter's invariant: nothing that returned settles more than the current next value, and
the calls are ordered by what they settle. -/
structure SequencerInv (floor : UInt64) (s : SequencerState) : Prop where
  settled : ∀ r ∈ s.returned, r.settles ≤ (currentNext floor s.backing).toNat
  phase : s.phase.Good floor s.backing s.returned
  good : ∀ r ∈ s.returned, r.Good floor
  ordered : s.returned.Pairwise (fun x y =>
    ∀ value, y.result = .ok (some value) → x.settles ≤ value.toNat)

theorem sequencerInv_initial (floor : UInt64) (backing : Option Int) :
    SequencerInv floor (.initial backing) where
  settled r hr := by contradiction
  phase := trivial
  good r hr := by contradiction
  ordered := List.Pairwise.nil

private theorem sequencerInv_load {floor : UInt64} {s s' : SequencerState} {op : SequencerOp}
    {before : Option Int} (hinv : SequencerInv floor s) (hphase : s.phase = .called op before)
    (h : sequencerStep floor s .load = some s') : SequencerInv floor s' := by
  have hbefore : before = s.backing := by
    have hgood := hinv.phase
    rw [hphase] at hgood
    exact hgood
  simp only [sequencerStep, hphase] at h
  split at h
  · rename_i hloads
    split at h
    · rename_i result hplan
      obtain rfl := Option.some.inj h
      refine ⟨hinv.settled, ⟨fun _ _ => hbefore, ?_, ?_⟩, hinv.good, hinv.ordered⟩
      · intro value hvalue
        rw [hvalue] at hplan
        have hnone := (SequencerOp.plan_finish_ok hloads hplan).1
        contradiction
      · cases result with
        | error error => cases op <;> exact Nat.zero_le _
        | ok result =>
            obtain ⟨rfl, a, rfl, ha⟩ := SequencerOp.plan_finish_ok hloads hplan
            have hlt : a < maximumSafeWireInteger := of_decide_eq_true hloads
            show (if a < maximumSafeWireInteger then a.toNat + 1 else 0) ≤ _
            rw [if_pos hlt]
            exact ha
    · rename_i next result hplan
      obtain rfl := Option.some.inj h
      exact ⟨hinv.settled, ⟨hbefore, hloads, hplan⟩, hinv.good, hinv.ordered⟩
  · rename_i hloads
    obtain rfl := Option.some.inj h
    refine ⟨hinv.settled, ⟨fun _ _ => hbefore, ?_, ?_⟩, hinv.good, hinv.ordered⟩
    · intro value hvalue
      exact nomatch hvalue
    · cases op with
      | reserve => exact Nat.zero_le _
      | reconcile a =>
          have hge : ¬ a < maximumSafeWireInteger := fun hlt => hloads (decide_eq_true hlt)
          show (if a < maximumSafeWireInteger then a.toNat + 1 else 0) ≤ _
          rw [if_neg hge]
          exact Nat.zero_le _

/-- A successful store raises the current next value to what the plan says. -/
private theorem sequencerInv_store {floor : UInt64} {s : SequencerState} {op : SequencerOp}
    {before : Option Int} {next : UInt64} {result : Option UInt64}
    (hinv : SequencerInv floor s) (hphase : s.phase = .storing op before next result) :
    SequencerInv floor { s with
      backing := some next.toNat
      phase := .returning op before (.ok result) } := by
  have hgood := hinv.phase
  rw [hphase] at hgood
  obtain ⟨-, hloads, hplan⟩ := hgood
  obtain ⟨hlt, hmax, hcases⟩ := SequencerOp.plan_store hloads hplan
  have hfloor := floor_le_currentNext floor s.backing
  have hnext : currentNext floor (some (next.toNat : Int)) = next :=
    currentNext_some (by omega) hmax
  have hsettled : ∀ r ∈ s.returned, r.settles ≤ (currentNext floor s.backing).toNat :=
    hinv.settled
  refine ⟨?_, ⟨?_, ?_, ?_⟩, hinv.good, hinv.ordered⟩
  · intro r hr
    rw [hnext]
    exact le_trans (hsettled r hr) hlt.le
  · intro error herror
    contradiction
  · intro value hvalue
    rw [toNat_maximumSafeWireInteger] at hmax
    rcases hcases with ⟨-, rfl, hsucc⟩ | ⟨a, -, rfl, -⟩
    · obtain rfl := Option.some.inj (Except.ok.inj hvalue)
      exact ⟨hfloor, by omega, hsettled⟩
    · exact nomatch hvalue
  · rw [hnext]
    rcases hcases with ⟨rfl, rfl, hsucc⟩ | ⟨a, rfl, rfl, hsucc⟩
    · exact hsucc.ge
    · have halt : a < maximumSafeWireInteger := of_decide_eq_true hloads
      show (if a < maximumSafeWireInteger then a.toNat + 1 else 0) ≤ _
      rw [if_pos halt]
      exact hsucc.ge

private theorem sequencerInv_ret {floor : UInt64} {s : SequencerState} {op : SequencerOp}
    {before : Option Int} {result : Except SequencerError (Option UInt64)}
    (hinv : SequencerInv floor s) (hphase : s.phase = .returning op before result) :
    SequencerInv floor { s with
      phase := .idle
      returned := s.returned ++ [⟨op, before, s.backing, result⟩] } := by
  have hgood := hinv.phase
  rw [hphase] at hgood
  obtain ⟨herror, hvalue, hsettles⟩ := hgood
  refine ⟨?_, trivial, ?_, ?_⟩
  · intro r hr
    rcases List.mem_append.mp hr with hr | hr
    · exact hinv.settled r hr
    · obtain rfl := List.mem_singleton.mp hr
      exact hsettles
  · intro r hr
    rcases List.mem_append.mp hr with hr | hr
    · exact hinv.good r hr
    · obtain rfl := List.mem_singleton.mp hr
      exact ⟨fun error he => (herror error he).symm,
        fun value hv => ⟨(hvalue value hv).1, (hvalue value hv).2.1⟩⟩
  · refine List.pairwise_append.mpr ⟨hinv.ordered, List.pairwise_singleton _ _, ?_⟩
    intro x hx y hy value hv
    obtain rfl := List.mem_singleton.mp hy
    exact (hvalue value hv).2.2 x hx

theorem sequencerInv_step {floor : UInt64} {s : SequencerState} {e : SequencerEvent}
    {s' : SequencerState} (hinv : SequencerInv floor s)
    (h : sequencerStep floor s e = some s') : SequencerInv floor s' := by
  cases hphase : s.phase with
  | idle =>
      cases e with
      | call op =>
          simp only [sequencerStep, hphase] at h
          obtain rfl := Option.some.inj h
          exact ⟨hinv.settled, rfl, hinv.good, hinv.ordered⟩
      | crash =>
          obtain rfl := Option.some.inj h
          exact ⟨hinv.settled, trivial, hinv.good, hinv.ordered⟩
      | load | store | ret => simp [sequencerStep, hphase] at h
  | called op before =>
      cases e with
      | load => exact sequencerInv_load hinv hphase h
      | crash =>
          obtain rfl := Option.some.inj h
          exact ⟨hinv.settled, trivial, hinv.good, hinv.ordered⟩
      | call | store | ret => simp [sequencerStep, hphase] at h
  | storing op before next result =>
      cases e with
      | store succeeds =>
          cases succeeds with
          | true =>
              simp only [sequencerStep, hphase] at h
              obtain rfl := Option.some.inj h
              exact sequencerInv_store hinv hphase
          | false =>
              have hgood := hinv.phase
              rw [hphase] at hgood
              simp only [sequencerStep, hphase] at h
              obtain rfl := Option.some.inj h
              refine ⟨hinv.settled, ⟨fun _ _ => hgood.1, ?_, ?_⟩, hinv.good, hinv.ordered⟩
              · intro value hvalue
                contradiction
              · cases op <;> exact Nat.zero_le _
      | crash =>
          obtain rfl := Option.some.inj h
          exact ⟨hinv.settled, trivial, hinv.good, hinv.ordered⟩
      | call | load | ret => simp [sequencerStep, hphase] at h
  | returning op before result =>
      cases e with
      | ret =>
          simp only [sequencerStep, hphase] at h
          obtain rfl := Option.some.inj h
          exact sequencerInv_ret hinv hphase
      | crash =>
          obtain rfl := Option.some.inj h
          exact ⟨hinv.settled, trivial, hinv.good, hinv.ordered⟩
      | call | load | store => simp [sequencerStep, hphase] at h

theorem sequencerInv_run {floor : UInt64} {backing : Option Int} {es : List SequencerEvent}
    {s : SequencerState} (h : exec (sequencerStep floor) (.initial backing) es = some s) :
    SequencerInv floor s :=
  exec_invariant (sequencerInv_initial floor backing)
    (fun _ _ _ hinv hstep => sequencerInv_step hinv hstep) h

/-- One sequencer is a crash-safe monotonic counter, for every floor, every stored value and every
run of calls, failing stores and crashes. -/
theorem sequencer_crashSafe {floor : UInt64} {backing : Option Int}
    {es : List SequencerEvent} {s : SequencerState}
    (h : exec (sequencerStep floor) (.initial backing) es = some s) :
    s.returned.Pairwise (fun x y => ∀ v w, x.op = .reserve → x.result = .ok (some v) →
      y.op = .reserve → y.result = .ok (some w) → v < w) ∧
    (∀ r ∈ s.returned, ∀ v, r.op = .reserve → r.result = .ok (some v) →
      floor ≤ v ∧ v.toNat ≤ 2 ^ 53 - 2) ∧
    (∀ op before next result, s.phase = .storing op before next result →
      next.toNat ≤ 2 ^ 53 - 1 ∧ currentNext floor s.backing ≤ next) ∧
    (∀ before, s.phase = .called .reserve before →
      currentNext floor s.backing < maximumSafeWireInteger →
      (currentNext floor s.backing + 1).toNat = (currentNext floor s.backing).toNat + 1) ∧
    (∀ before a, s.phase = .called (.reconcile a) before → a < maximumSafeWireInteger →
      (a + 1).toNat = a.toNat + 1) ∧
    s.returned.Pairwise (fun x y => ∀ a w, x.op = .reconcile a → x.result = .ok none →
      a < maximumSafeWireInteger → y.op = .reserve → y.result = .ok (some w) → a < w) ∧
    (∀ r ∈ s.returned, ∀ error, r.result = .error error → r.after = r.before) := by
  have hinv := sequencerInv_run h
  refine ⟨?_, ?_, ?_, ?_, ?_, ?_, ?_⟩
  · refine hinv.ordered.imp ?_
    intro x y hxy v w hxop hx hyop hy
    have hsettles : x.settles = v.toNat + 1 := by
      simp only [SequencerReturn.settles, hxop, hx, SequencerOp.settles]
    have hle := hxy w hy
    rw [hsettles] at hle
    exact UInt64.lt_iff_toNat_lt.mpr hle
  · intro r hr v hop hv
    obtain ⟨hfloor, hrange⟩ := (hinv.good r hr).range v hv
    exact ⟨UInt64.le_iff_toNat_le.mpr hfloor, hrange⟩
  · intro op before next result hphase
    have hgood := hinv.phase
    rw [hphase] at hgood
    obtain ⟨hlt, hmax, -⟩ := SequencerOp.plan_store hgood.2.1 hgood.2.2
    exact ⟨hmax, UInt64.le_iff_toNat_le.mpr hlt.le⟩
  · intro before hphase hlt
    exact toNat_add_one_of_lt hlt
  · intro before a hphase hlt
    exact toNat_add_one_of_lt hlt
  · refine hinv.ordered.imp ?_
    intro x y hxy a w hxop hx hlt hyop hy
    have hsettles : x.settles = a.toNat + 1 := by
      simp only [SequencerReturn.settles, hxop, hx, SequencerOp.settles, if_pos hlt]
    have hle := hxy w hy
    rw [hsettles] at hle
    exact UInt64.lt_iff_toNat_lt.mpr hle
  · intro r hr error herror
    exact (hinv.good r hr).unchanged error herror

/-- A device whose stored value is negative: a failing store, a crash between a store and its
return, a reconcile. -/
def sequencerCrashRun : List SequencerEvent :=
  [.call .reserve, .load, .store false, .ret, .call .reserve, .load, .store true, .crash,
    .call .reserve, .load, .store true, .ret, .call (.reconcile 41), .load, .store true, .ret,
    .call .reserve, .load, .store true, .ret]

def sequencerCrashRunEnd : SequencerState where
  backing := some 43
  phase := .idle
  returned := [
    ⟨.reserve, some (-7), some (-7), .error .backing⟩,
    ⟨.reserve, some 4, some 5, .ok (some 4)⟩,
    ⟨.reconcile 41, some 5, some 42, .ok none⟩,
    ⟨.reserve, some 42, some 43, .ok (some 42)⟩]

/-- The counter's promises on that run. -/
theorem sequencer_crashSafe_crashRun :
    sequencerCrashRunEnd.returned.Pairwise (fun x y => ∀ v w, x.op = .reserve →
      x.result = .ok (some v) → y.op = .reserve → y.result = .ok (some w) → v < w) := by
  have hrun : exec (sequencerStep 3) (.initial (some (-7))) sequencerCrashRun =
      some sequencerCrashRunEnd := by decide
  exact (sequencer_crashSafe hrun).1

end YohakuCore
