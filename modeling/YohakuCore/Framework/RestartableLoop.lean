import YohakuCore.Framework.Execution
import Mathlib.Data.List.Basic
import Mathlib.Order.WellFounded

/-!
# A thread that can be stopped and started again

A control under one lock holds a flag, an epoch and the handle of the thread started last. A start
spawns a loop thread for a new epoch unless the handle is still there; a stop clears the flag,
takes the handle, and only then joins the thread. Between two passes of its body a thread checks
the control, and exits when the flag is cleared or its epoch is not the current one. A stop may
also be called from inside a body, which never joins its own thread.
-/

namespace YohakuCore.Framework

structure LoopControl where
  running : Bool := false
  epoch : Nat := 0
  join : Option Nat := none
  deriving DecidableEq

def LoopControl.exits (control : LoopControl) (epoch : Nat) : Bool :=
  !control.running || control.epoch != epoch

def LoopControl.started (control : LoopControl) (thread : Nat) : LoopControl :=
  ⟨true, control.epoch + 1, some thread⟩

def LoopControl.stopped (control : LoopControl) : LoopControl := ⟨false, control.epoch, none⟩

/-- Where a thread is: it keeps `data` between two passes, and `rest` is what is left of a body. -/
inductive LoopPlace (δ β : Type) where
  | checking (data : δ)
  | working (rest : β)
  | joining (thread : Nat) (rest : β)
  | exited
  deriving DecidableEq

structure LoopThread (δ β : Type) where
  epoch : Nat
  place : LoopPlace δ β
  deriving DecidableEq

/-- A stop that another thread called: what it waits for, if it took a handle. -/
inductive StopCall where
  | joining (thread : Nat)
  | joined
  deriving DecidableEq

structure Loops (δ β : Type) where
  control : LoopControl := {}
  threads : List (LoopThread δ β) := []
  stops : List StopCall := []
  deriving DecidableEq

/-- What one step of a body leaves to be done. -/
inductive BodyOutcome (δ β : Type) where
  | goesOn (rest : β)
  | ends (data : δ)
  | panics
  deriving DecidableEq

/-- What a thread runs between two checks. Every step of it shortens what is left, so a body that
never returns cannot be built. -/
structure LoopBody (δ β : Type) where
  checksFirst : Bool
  enter : δ → β
  works : β → BodyOutcome δ β → Bool
  stops : β → Option β
  shortens : WellFounded fun rest' rest =>
    works rest (.goesOn rest') = true ∨ stops rest = some rest'
  progress : ∀ rest, (∃ outcome, works rest outcome = true) ∨ (stops rest).isSome = true

inductive LoopEvent (δ β : Type) where
  | start (data : δ)
  | stop
  | stopJoined (stop : Nat)
  | check (thread : Nat) (timeout : Bool)
  | work (thread : Nat) (outcome : BodyOutcome δ β)
  | stopInside (thread : Nat)
  | joinedInside (thread : Nat)
  deriving DecidableEq

variable {δ β : Type}

/-- The loop thread whose own step the event is. -/
def LoopEvent.owner : LoopEvent δ β → Option Nat
  | .check i _ | .work i _ | .stopInside i | .joinedInside i => some i
  | _ => none

def BodyOutcome.place : BodyOutcome δ β → LoopPlace δ β
  | .goesOn rest => .working rest
  | .ends data => .checking data
  | .panics => .exited

def LoopBody.firstPlace (body : LoopBody δ β) (data : δ) : LoopPlace δ β :=
  if body.checksFirst then .checking data else .working (body.enter data)

namespace Loops

def place (s : Loops δ β) (i : Nat) : Option (LoopPlace δ β) := s.threads[i]?.map LoopThread.place

def hasExited (s : Loops δ β) (i : Nat) : Bool :=
  match s.place i with
  | some .exited => true
  | _ => false

def moveTo (s : Loops δ β) (i : Nat) (place : LoopPlace δ β) : Loops δ β :=
  { s with threads := s.threads.modify i fun thread => { thread with place } }

def start (body : LoopBody δ β) (s : Loops δ β) (data : δ) : Loops δ β :=
  if s.control.join.isSome then s
  else
    { s with
      control := s.control.started s.threads.length
      threads := s.threads ++ [⟨s.control.epoch + 1, body.firstPlace data⟩] }

/-- The locked part of a stop: the flag is cleared and the handle is taken. -/
def stop (s : Loops δ β) : Loops δ β :=
  { s with
    control := s.control.stopped
    stops := s.stops ++ [s.control.join.elim .joined .joining] }

/-- The same from inside the body of thread `i`, which drops a handle of its own. -/
def stopInside (s : Loops δ β) (i : Nat) (rest : β) : Loops δ β :=
  { s with control := s.control.stopped }.moveTo i <|
    match s.control.join with
    | some j => if j = i then .working rest else .joining j rest
    | none => .working rest

/-- Every wait of a thread for its next pass ends in a check, on a timeout or without one. -/
def step (body : LoopBody δ β) (s : Loops δ β) : LoopEvent δ β → Option (Loops δ β)
  | .start data => some (s.start body data)
  | .stop => some s.stop
  | .stopJoined k =>
      match s.stops[k]? with
      | some (.joining i) =>
          if s.hasExited i then some { s with stops := s.stops.set k .joined } else none
      | _ => none
  | .check i timeout =>
      match s.threads[i]? with
      | some ⟨epoch, .checking data⟩ =>
          if s.control.exits epoch then some (s.moveTo i .exited)
          else some (s.moveTo i (if timeout then .working (body.enter data) else .checking data))
      | _ => none
  | .work i outcome =>
      match s.threads[i]? with
      | some ⟨_, .working rest⟩ =>
          if body.works rest outcome then some (s.moveTo i outcome.place) else none
      | _ => none
  | .stopInside i =>
      match s.threads[i]? with
      | some ⟨_, .working rest⟩ => (body.stops rest).map fun rest' => s.stopInside i rest'
      | _ => none
  | .joinedInside i =>
      match s.threads[i]? with
      | some ⟨_, .joining j rest⟩ =>
          if s.hasExited j then some (s.moveTo i (.working rest)) else none
      | _ => none

variable {body : LoopBody δ β} {s s' : Loops δ β}

@[simp] theorem control_moveTo (i : Nat) (p : LoopPlace δ β) :
    (s.moveTo i p).control = s.control := rfl

@[simp] theorem stops_moveTo (i : Nat) (p : LoopPlace δ β) : (s.moveTo i p).stops = s.stops := rfl

@[simp] theorem length_moveTo (i : Nat) (p : LoopPlace δ β) :
    (s.moveTo i p).threads.length = s.threads.length := by
  simp [moveTo]

theorem place_moveTo_self {i : Nat} (h : i < s.threads.length) (p : LoopPlace δ β) :
    (s.moveTo i p).place i = some p := by
  simp [moveTo, place, h]

theorem place_moveTo_of_ne {i j : Nat} (h : i ≠ j) (p : LoopPlace δ β) :
    (s.moveTo i p).place j = s.place j := by
  simp [moveTo, place, h]

theorem place_moveTo (i j : Nat) (p : LoopPlace δ β) :
    (s.moveTo i p).place j = s.place j ∨ i = j ∧ (s.moveTo i p).place j = some p := by
  by_cases hij : i = j
  · subst hij
    by_cases hlen : i < s.threads.length
    · exact Or.inr ⟨rfl, place_moveTo_self hlen p⟩
    · refine Or.inl ?_
      simp [moveTo, place, hlen]
  · exact Or.inl (place_moveTo_of_ne hij p)

theorem place_eq_some {i : Nat} {p : LoopPlace δ β} :
    s.place i = some p ↔ ∃ epoch, s.threads[i]? = some ⟨epoch, p⟩ := by
  simp only [place, Option.map_eq_some_iff]
  constructor
  · rintro ⟨⟨epoch, q⟩, hget, rfl⟩
    exact ⟨epoch, hget⟩
  · rintro ⟨epoch, hget⟩
    exact ⟨_, hget, rfl⟩

theorem lt_length_of_place {i : Nat} {p : LoopPlace δ β} (h : s.place i = some p) :
    i < s.threads.length := by
  obtain ⟨epoch, hget⟩ := place_eq_some.mp h
  exact (List.getElem?_eq_some_iff.mp hget).1

theorem hasExited_iff {i : Nat} : s.hasExited i = true ↔ s.place i = some .exited := by
  unfold hasExited
  split
  · rename_i h
    simp [h]
  · rename_i h
    simpa using h

/-- A thread that exits at its next check. -/
def Stale (s : Loops δ β) (i : Nat) : Prop :=
  ∃ thread, s.threads[i]? = some thread ∧ s.control.exits thread.epoch = true

/-- A thread whose handle was taken, so that a stop may be waiting for it. -/
def Taken (s : Loops δ β) (i : Nat) : Prop := i < s.threads.length ∧ s.control.join ≠ some i

/-- Threads are spawned for one epoch after the other, the flag is set while there is a handle,
which is that of the last thread, and a stop waits for a thread that was taken. -/
structure Sound (s : Loops δ β) : Prop where
  epoch_eq_length : s.control.epoch = s.threads.length
  thread_epoch : ∀ i thread, s.threads[i]? = some thread → thread.epoch = i + 1
  running_eq : s.control.running = s.control.join.isSome
  join_last : ∀ i, s.control.join = some i → i + 1 = s.threads.length
  joining_later : ∀ i j rest, s.place i = some (.joining j rest) → i < j ∧ s.Taken j
  stop_taken : ∀ k j : Nat, s.stops[k]? = some (StopCall.joining j) → s.Taken j

theorem Sound.stale_iff_taken (h : s.Sound) (i : Nat) : s.Stale i ↔ s.Taken i := by
  have hexits : ∀ thread, s.threads[i]? = some thread →
      (s.control.exits thread.epoch = true ↔ s.control.join ≠ some i) := by
    intro thread hget
    have hlt := (List.getElem?_eq_some_iff.mp hget).1
    rw [LoopControl.exits, h.running_eq, h.thread_epoch i thread hget, h.epoch_eq_length]
    cases hjoin : s.control.join with
    | none => simp
    | some j =>
        have hlast := h.join_last j hjoin
        simp
        omega
  constructor
  · rintro ⟨thread, hget, hstale⟩
    exact ⟨(List.getElem?_eq_some_iff.mp hget).1, (hexits thread hget).mp hstale⟩
  · rintro ⟨hlt, hjoin⟩
    have hget : s.threads[i]? = some s.threads[i] := List.getElem?_eq_getElem hlt
    exact ⟨_, hget, (hexits _ hget).mpr hjoin⟩

theorem sound_init : ({} : Loops δ β).Sound where
  epoch_eq_length := rfl
  thread_epoch := by simp
  running_eq := rfl
  join_last := by simp
  joining_later := by simp [place]
  stop_taken := by simp

theorem Sound.moveTo (h : s.Sound) (i : Nat) (p : LoopPlace δ β)
    (hp : ∀ j rest, p = .joining j rest → i < j ∧ s.Taken j) : (s.moveTo i p).Sound where
  epoch_eq_length := by simpa using h.epoch_eq_length
  thread_epoch := by
    intro j thread hget
    rw [Loops.moveTo, List.getElem?_modify] at hget
    obtain ⟨before, hbefore, rfl⟩ := Option.map_eq_some_iff.mp hget
    have hepoch := h.thread_epoch j before hbefore
    split <;> exact hepoch
  running_eq := h.running_eq
  join_last := by simpa using h.join_last
  joining_later := by
    have htaken : ∀ j, (s.moveTo i p).Taken j ↔ s.Taken j := by simp [Taken]
    intro k j rest hplace
    rw [htaken]
    rcases place_moveTo i k p with hsame | ⟨rfl, hnew⟩
    · exact h.joining_later k j rest (hsame ▸ hplace)
    · exact hp j rest (Option.some.inj (hnew ▸ hplace))
  stop_taken := by simpa [Taken] using h.stop_taken

theorem Taken.start {i : Nat} (h : s.Taken i) (data : δ) : (s.start body data).Taken i := by
  unfold Loops.start
  split
  · exact h
  · have hlt := h.1
    refine ⟨?_, ?_⟩
    · rw [List.length_append]
      omega
    · simp only [LoopControl.started, ne_eq, Option.some.injEq]
      omega

theorem place_start {i : Nat} {data : δ} {p : LoopPlace δ β}
    (h : (s.start body data).place i = some p) : s.place i = some p ∨ p = body.firstPlace data := by
  unfold Loops.start at h
  split at h
  · exact Or.inl h
  · simp only [place, List.getElem?_append, Option.map_eq_some_iff] at h
    obtain ⟨thread, hget, rfl⟩ := h
    split at hget
    · exact Or.inl (by rw [place, hget, Option.map_some])
    · rw [List.getElem?_singleton] at hget
      split at hget
      · obtain rfl := Option.some.inj hget
        exact Or.inr rfl
      · contradiction

theorem firstPlace_ne_joining (data : δ) (j : Nat) (rest : β) :
    body.firstPlace data ≠ .joining j rest := by
  unfold LoopBody.firstPlace
  split <;> simp

theorem Sound.start (h : s.Sound) (data : δ) : (s.start body data).Sound := by
  have htaken : ∀ i, s.Taken i → (s.start body data).Taken i := fun i hi => hi.start data
  have hjoining : ∀ i j rest, (s.start body data).place i = some (.joining j rest) →
      s.place i = some (.joining j rest) := by
    intro i j rest hplace
    rcases place_start hplace with hold | hfirst
    · exact hold
    · exact absurd hfirst.symm (firstPlace_ne_joining data j rest)
  have hstops : (s.start body data).stops = s.stops := by
    unfold Loops.start
    split <;> rfl
  refine ⟨?_, ?_, ?_, ?_, ?_, ?_⟩
  · unfold Loops.start
    split
    · exact h.epoch_eq_length
    · simp [LoopControl.started, h.epoch_eq_length]
  · intro i thread hget
    unfold Loops.start at hget
    split at hget
    · exact h.thread_epoch i thread hget
    · rw [List.getElem?_append] at hget
      split at hget
      · exact h.thread_epoch i thread hget
      · rw [List.getElem?_singleton] at hget
        split at hget
        · obtain rfl := Option.some.inj hget
          have hepoch := h.epoch_eq_length
          dsimp only
          omega
        · contradiction
  · unfold Loops.start
    split
    · exact h.running_eq
    · rfl
  · intro i hjoin
    unfold Loops.start at hjoin ⊢
    split
    · rename_i hsome
      rw [if_pos hsome] at hjoin
      exact h.join_last i hjoin
    · rename_i hnone
      rw [if_neg hnone] at hjoin
      obtain rfl := Option.some.inj hjoin
      simp
  · intro i j rest hplace
    have hold := h.joining_later i j rest (hjoining i j rest hplace)
    exact ⟨hold.1, htaken j hold.2⟩
  · intro k j hstop
    rw [hstops] at hstop
    exact htaken j (h.stop_taken k j hstop)

theorem Sound.stopped (h : s.Sound) {stops : List StopCall}
    (hstops : ∀ k j : Nat, stops[k]? = some (StopCall.joining j) → j < s.threads.length) :
    ({ s with control := s.control.stopped, stops } : Loops δ β).Sound where
  epoch_eq_length := h.epoch_eq_length
  thread_epoch := h.thread_epoch
  running_eq := rfl
  join_last i hjoin := by simp [LoopControl.stopped] at hjoin
  joining_later i j rest hplace := by
    have hold := h.joining_later i j rest hplace
    exact ⟨hold.1, hold.2.1, by simp [LoopControl.stopped]⟩
  stop_taken k j hstop := ⟨hstops k j hstop, by simp [LoopControl.stopped]⟩

theorem Sound.stop (h : s.Sound) : s.stop.Sound := by
  refine h.stopped ?_
  intro k j hget
  rw [List.getElem?_append] at hget
  split at hget
  · exact (h.stop_taken k j hget).1
  · rw [List.getElem?_singleton] at hget
    split at hget
    · cases hjoin : s.control.join with
      | none => simp [hjoin] at hget
      | some i =>
          have hlast := h.join_last i hjoin
          simp [hjoin] at hget
          omega
    · contradiction

theorem Sound.stopInside (h : s.Sound) {i : Nat} (hi : i < s.threads.length) (rest : β) :
    (s.stopInside i rest).Sound := by
  have hstopped : ({ s with control := s.control.stopped } : Loops δ β).Sound :=
    h.stopped fun k j hstop => (h.stop_taken k j hstop).1
  refine hstopped.moveTo i _ ?_
  intro j rest' hplace
  cases hjoin : s.control.join with
  | none => simp [hjoin] at hplace
  | some k =>
      have hlast := h.join_last k hjoin
      simp only [hjoin] at hplace
      split at hplace
      · contradiction
      · rename_i hne
        obtain ⟨rfl, -⟩ := LoopPlace.joining.inj hplace
        refine ⟨by omega, ?_, by simp [LoopControl.stopped]⟩
        dsimp only
        omega

/-- What a step can do, by the place of the thread that takes it. -/
inductive Moves (body : LoopBody δ β) (s : Loops δ β) : LoopEvent δ β → Loops δ β → Prop where
  | start (data : δ) : Moves body s (.start data) (s.start body data)
  | stop : Moves body s .stop s.stop
  | stopJoined {k i : Nat} (hstop : s.stops[k]? = some (StopCall.joining i))
      (hexited : s.hasExited i = true) :
      Moves body s (.stopJoined k) { s with stops := s.stops.set k .joined }
  | exits {i epoch : Nat} {data : δ} (hget : s.threads[i]? = some ⟨epoch, .checking data⟩)
      (hexits : s.control.exits epoch = true) (timeout : Bool) :
      Moves body s (.check i timeout) (s.moveTo i .exited)
  | stays {i epoch : Nat} {data : δ} (hget : s.threads[i]? = some ⟨epoch, .checking data⟩)
      (hstays : ¬ s.control.exits epoch = true) (timeout : Bool) :
      Moves body s (.check i timeout)
        (s.moveTo i (if timeout then .working (body.enter data) else .checking data))
  | works {i epoch : Nat} {rest : β} (hget : s.threads[i]? = some ⟨epoch, .working rest⟩)
      {outcome : BodyOutcome δ β} (hworks : body.works rest outcome = true) :
      Moves body s (.work i outcome) (s.moveTo i outcome.place)
  | stopInside {i epoch : Nat} {rest rest' : β}
      (hget : s.threads[i]? = some ⟨epoch, .working rest⟩) (hstops : body.stops rest = some rest') :
      Moves body s (.stopInside i) (s.stopInside i rest')
  | joinedInside {i j epoch : Nat} {rest : β}
      (hget : s.threads[i]? = some ⟨epoch, .joining j rest⟩) (hexited : s.hasExited j = true) :
      Moves body s (.joinedInside i) (s.moveTo i (.working rest))

theorem moves_of_step {e : LoopEvent δ β} (h : s.step body e = some s') : Moves body s e s' := by
  cases e with
  | start data =>
      obtain rfl := Option.some.inj h
      exact .start data
  | stop =>
      obtain rfl := Option.some.inj h
      exact .stop
  | stopJoined k =>
      simp only [step] at h
      split at h
      · rename_i i hstop
        obtain ⟨hexited, h⟩ := Option.ite_none_right_eq_some.mp h
        obtain rfl := Option.some.inj h
        exact .stopJoined hstop hexited
      · contradiction
  | check i timeout =>
      simp only [step] at h
      split at h
      · rename_i hget
        split at h
        · rename_i hexits
          obtain rfl := Option.some.inj h
          exact .exits hget hexits timeout
        · rename_i hstays
          obtain rfl := Option.some.inj h
          exact .stays hget hstays timeout
      · contradiction
  | work i outcome =>
      simp only [step] at h
      split at h
      · rename_i hget
        obtain ⟨hworks, h⟩ := Option.ite_none_right_eq_some.mp h
        obtain rfl := Option.some.inj h
        exact .works hget hworks
      · contradiction
  | stopInside i =>
      simp only [step] at h
      split at h
      · rename_i hget
        obtain ⟨rest', hstops, rfl⟩ := Option.map_eq_some_iff.mp h
        exact .stopInside hget hstops
      · contradiction
  | joinedInside i =>
      simp only [step] at h
      split at h
      · rename_i hget
        obtain ⟨hexited, h⟩ := Option.ite_none_right_eq_some.mp h
        obtain rfl := Option.some.inj h
        exact .joinedInside hget hexited
      · contradiction

theorem Sound.step (h : s.Sound) {e : LoopEvent δ β} (hstep : s.step body e = some s') :
    s'.Sound := by
  cases moves_of_step hstep with
  | start data => exact h.start data
  | stop => exact h.stop
  | stopJoined hstop hexited =>
      refine { h with stop_taken := ?_ }
      intro k j hget
      rw [List.getElem?_set] at hget
      split at hget
      · split at hget <;> simp at hget
      · exact h.stop_taken k j hget
  | exits hget hexits timeout => exact h.moveTo _ _ (by simp)
  | stays hget hstays timeout => exact h.moveTo _ _ (by cases timeout <;> simp)
  | works hget hworks =>
      rename_i outcome
      exact h.moveTo _ _ (by cases outcome <;> simp [BodyOutcome.place])
  | stopInside hget hstops => exact h.stopInside (List.getElem?_eq_some_iff.mp hget).1 _
  | joinedInside hget hexited => exact h.moveTo _ _ (by simp)

theorem Sound.exec (h : s.Sound) {es : List (LoopEvent δ β)}
    (hrun : exec (Loops.step body) s es = some s') : s'.Sound :=
  exec_invariant h (fun _ _ _ hs hstep => hs.step hstep) hrun

theorem taken_moveTo (i j : Nat) (p : LoopPlace δ β) : (s.moveTo i p).Taken j ↔ s.Taken j := by
  simp [Taken]

theorem Taken.stopped {i : Nat} (h : s.Taken i) (stops : List StopCall) :
    ({ s with control := s.control.stopped, stops } : Loops δ β).Taken i :=
  ⟨h.1, by simp [LoopControl.stopped]⟩

theorem Taken.step {i : Nat} (h : s.Taken i) {e : LoopEvent δ β}
    (hstep : s.step body e = some s') : s'.Taken i := by
  cases moves_of_step hstep with
  | start data => exact h.start data
  | stop => exact h.stopped _
  | stopJoined hstop hexited => exact h
  | stopInside hget hstops => exact (taken_moveTo _ i _).mpr (h.stopped _)
  | exits | stays | works | joinedInside => exact (taken_moveTo _ i _).mpr h

theorem Taken.exec {i : Nat} (h : s.Taken i) {es : List (LoopEvent δ β)}
    (hrun : Framework.exec (Loops.step body) s es = some s') : s'.Taken i :=
  exec_invariant (I := fun s => s.Taken i) h (fun _ _ _ hs hstep => hs.step hstep) hrun

/-- What becomes of a thread once its handle was taken. -/
inductive Nearer (body : LoopBody δ β) : LoopPlace δ β → LoopPlace δ β → Prop where
  | exits (data : δ) : Nearer body .exited (.checking data)
  | panics (rest : β) : Nearer body .exited (.working rest)
  | ends (data : δ) (rest : β) : Nearer body (.checking data) (.working rest)
  | goesOn {rest rest' : β} (h : body.works rest (.goesOn rest') = true) :
      Nearer body (.working rest') (.working rest)
  | stops {rest rest' : β} (h : body.stops rest = some rest') :
      Nearer body (.working rest') (.working rest)
  | joins {rest rest' : β} (h : body.stops rest = some rest') (j : Nat) :
      Nearer body (.joining j rest') (.working rest)
  | joined (j : Nat) (rest : β) : Nearer body (.working rest) (.joining j rest)

theorem nearer_wellFounded (body : LoopBody δ β) : WellFounded (Nearer body) := by
  have hexited : Acc (Nearer body) .exited := by
    constructor
    intro p hp
    cases hp
  have hchecking : ∀ data, Acc (Nearer body) (.checking data) := by
    intro data
    constructor
    intro p hp
    cases hp
    exact hexited
  have hjoining : ∀ rest, Acc (Nearer body) (.working rest) →
      ∀ j, Acc (Nearer body) (.joining j rest) := by
    intro rest hrest j
    constructor
    intro p hp
    cases hp
    exact hrest
  have hworking : ∀ rest, Acc (Nearer body) (.working rest) := by
    intro rest
    induction rest using body.shortens.induction with
    | _ rest ih =>
        constructor
        intro p hp
        cases hp with
        | panics => exact hexited
        | ends data => exact hchecking data
        | goesOn h => exact ih _ (Or.inl h)
        | stops h => exact ih _ (Or.inr h)
        | joins h j => exact hjoining _ (ih _ (Or.inr h)) j
  constructor
  intro p
  cases p with
  | checking data => exact hchecking data
  | working rest => exact hworking rest
  | joining j rest => exact hjoining rest (hworking rest) j
  | exited => exact hexited

theorem length_le_step {e : LoopEvent δ β} (hstep : s.step body e = some s') :
    s.threads.length ≤ s'.threads.length := by
  cases moves_of_step hstep with
  | start data =>
      unfold Loops.start
      split <;> simp
  | stopInside hget hstops => simp [stopInside]
  | _ => simp [Loops.stop]

theorem place_step_of_ne {e : LoopEvent δ β} (hstep : s.step body e = some s') {i : Nat}
    (hi : i < s.threads.length) (howner : e.owner ≠ some i) : s'.place i = s.place i := by
  have hmoved : ∀ k, (some k : Option Nat) ≠ some i → ∀ p, (s.moveTo k p).place i = s.place i :=
    fun k hk p => place_moveTo_of_ne (fun hki => hk (congrArg some hki)) p
  cases moves_of_step hstep with
  | start data =>
      unfold Loops.start
      split
      · rfl
      · simp [place, List.getElem?_append_left hi]
  | stop | stopJoined => rfl
  | stopInside hget hstops =>
      exact place_moveTo_of_ne (fun hki => howner (congrArg some hki)) _
  | exits | stays | works | joinedInside => exact hmoved _ howner _

theorem place_exec_of_ne {es : List (LoopEvent δ β)} (hrun : exec (Loops.step body) s es = some s')
    {i : Nat} (hi : i < s.threads.length) (howner : ∀ e ∈ es, e.owner ≠ some i) :
    s'.place i = s.place i := by
  induction es generalizing s with
  | nil =>
      obtain rfl := Option.some.inj hrun
      rfl
  | cons e es ih =>
      obtain ⟨s₁, hstep, hrest⟩ := Option.bind_eq_some_iff.mp hrun
      have hlen := length_le_step hstep
      rw [ih hrest (by omega) fun f hf => howner f (List.mem_cons_of_mem e hf)]
      exact place_step_of_ne hstep hi (howner e List.mem_cons_self)

theorem place_stopInside {i : Nat} (hi : i < s.threads.length) (rest : β) :
    (s.stopInside i rest).place i = some (.working rest) ∨
      ∃ j, (s.stopInside i rest).place i = some (.joining j rest) := by
  unfold Loops.stopInside
  rw [place_moveTo_self (by exact hi)]
  split
  · split
    · exact Or.inl rfl
    · exact Or.inr ⟨_, rfl⟩
  · exact Or.inl rfl

theorem Sound.check_exits (h : s.Sound) {i : Nat} (htaken : s.Taken i) {timeout : Bool}
    (hstep : s.step body (.check i timeout) = some s') : s'.place i = some .exited := by
  obtain ⟨thread, hthread, hexits⟩ := (h.stale_iff_taken i).mpr htaken
  cases moves_of_step hstep with
  | exits => exact place_moveTo_self htaken.1 _
  | stays hget hstays =>
      rw [hthread] at hget
      obtain rfl := Option.some.inj hget
      exact absurd hexits hstays

theorem Sound.nearer_step (h : s.Sound) {i : Nat} (htaken : s.Taken i) {p : LoopPlace δ β}
    (hplace : s.place i = some p) {e : LoopEvent δ β} (hstep : s.step body e = some s')
    (howner : e.owner = some i) : ∃ p', s'.place i = some p' ∧ Nearer body p' p := by
  have hthread : ∀ {epoch q}, s.threads[i]? = some ⟨epoch, q⟩ → q = p := by
    intro epoch q hget
    have hq := place_eq_some.mpr ⟨epoch, hget⟩
    exact Option.some.inj (hq.symm.trans hplace)
  have hself : ∀ q, (s.moveTo i q).place i = some q := place_moveTo_self htaken.1
  cases moves_of_step hstep with
  | start | stop | stopJoined => contradiction
  | exits hget hexits =>
      obtain rfl := Option.some.inj howner
      obtain rfl := hthread hget
      exact ⟨_, hself _, .exits _⟩
  | stays hget hstays timeout =>
      obtain rfl := Option.some.inj howner
      obtain rfl := hthread hget
      exact ⟨_, h.check_exits htaken hstep, .exits _⟩
  | works hget hworks =>
      obtain rfl := Option.some.inj howner
      obtain rfl := hthread hget
      rename_i outcome
      refine ⟨_, hself _, ?_⟩
      cases outcome with
      | goesOn rest' => exact .goesOn hworks
      | ends data => exact .ends data _
      | panics => exact .panics _
  | stopInside hget hstops =>
      obtain rfl := Option.some.inj howner
      obtain rfl := hthread hget
      rcases place_stopInside htaken.1 _ with hplace' | ⟨j, hplace'⟩
      · exact ⟨_, hplace', .stops hstops⟩
      · exact ⟨_, hplace', .joins hstops j⟩
  | joinedInside hget hexited =>
      obtain rfl := Option.some.inj howner
      obtain rfl := hthread hget
      exact ⟨_, hself _, .joined _ _⟩

theorem Sound.eq_of_epoch (h : s.Sound) {i j : Nat} {t u : LoopThread δ β}
    (hi : s.threads[i]? = some t) (hj : s.threads[j]? = some u) (hepoch : t.epoch = u.epoch) :
    i = j := by
  have ht := h.thread_epoch i t hi
  have hu := h.thread_epoch j u hj
  omega

variable {σ ε : Type*}

/-- A step of the system leaves the loops as they are or is a step of theirs, and the same thread
takes it. -/
def Carries (body : LoopBody δ β) (step : σ → ε → Option σ) (loops : σ → Loops δ β)
    (owner : ε → Option Nat) : Prop :=
  ∀ t e t', step t e = some t' →
    owner e = none ∧ loops t' = loops t ∨
      ∃ f, f.owner = owner e ∧ (loops t).step body f = some (loops t')

theorem carries_step (body : LoopBody δ β) :
    Carries body (Loops.step body) id LoopEvent.owner :=
  fun _ e _ hstep => Or.inr ⟨e, rfl, hstep⟩

section Carries

variable {step : σ → ε → Option σ} {loops : σ → Loops δ β} {owner : ε → Option Nat}

theorem Carries.sound_step (h : Carries body step loops owner) {t t' : σ} {e : ε}
    (hstep : step t e = some t') (hsound : (loops t).Sound) : (loops t').Sound := by
  rcases h t e t' hstep with ⟨-, hsame⟩ | ⟨f, -, hf⟩
  · rw [hsame]
    exact hsound
  · exact hsound.step hf

theorem Carries.taken_step (h : Carries body step loops owner) {t t' : σ} {e : ε}
    (hstep : step t e = some t') {i : Nat} (htaken : (loops t).Taken i) : (loops t').Taken i := by
  rcases h t e t' hstep with ⟨-, hsame⟩ | ⟨f, -, hf⟩
  · rw [hsame]
    exact htaken
  · exact htaken.step hf

theorem Carries.sound_exec (h : Carries body step loops owner) {t t' : σ} {es : List ε}
    (hrun : exec step t es = some t') (hsound : (loops t).Sound) : (loops t').Sound :=
  exec_invariant (I := fun t => (loops t).Sound) hsound
    (fun _ _ _ hs hstep => h.sound_step hstep hs) hrun

theorem Carries.taken_exec (h : Carries body step loops owner) {t t' : σ} {es : List ε}
    (hrun : exec step t es = some t') {i : Nat} (htaken : (loops t).Taken i) :
    (loops t').Taken i :=
  exec_invariant (I := fun t => (loops t).Taken i) htaken
    (fun _ _ _ hs hstep => h.taken_step hstep hs) hrun

/-- Whatever is started and stopped meanwhile, the next check of a stale thread is its last. -/
theorem Carries.stale_exits (h : Carries body step loops owner) {t t' t'' : σ} {es : List ε}
    (hsound : (loops t).Sound) {i : Nat} (hstale : (loops t).Stale i)
    (hrun : exec step t es = some t') {data : δ} (hplace : (loops t').place i = some (.checking data))
    {e : ε} (howner : owner e = some i) (hstep : step t' e = some t'') :
    (loops t'').place i = some .exited := by
  have htaken := h.taken_exec hrun ((hsound.stale_iff_taken i).mp hstale)
  rcases h t' e t'' hstep with ⟨hnone, -⟩ | ⟨f, hf, hfstep⟩
  · rw [hnone] at howner
    contradiction
  · obtain ⟨p, hp, hnearer⟩ :=
      (h.sound_exec hrun hsound).nearer_step htaken hplace hfstep (hf.trans howner)
    cases hnearer
    exact hp

variable {run : Nat → σ} {events : Nat → ε}

theorem Carries.own_steps_end (h : Carries body step loops owner)
    (hrun : Endless step run events) (hsound : (loops (run 0)).Sound) {i : Nat}
    (htaken : (loops (run 0)).Taken i) : ∃ N, ∀ n, N ≤ n → owner (events n) ≠ some i := by
  have hsounds : ∀ n, (loops (run n)).Sound := fun n =>
    hrun.since (P := fun t => (loops t).Sound) (fun _ _ _ hstep hs => h.sound_step hstep hs)
      (Nat.zero_le n) hsound
  have htakens : ∀ n, (loops (run n)).Taken i := fun n =>
    hrun.since (P := fun t => (loops t).Taken i) (fun _ _ _ hstep hs => h.taken_step hstep hs)
      (Nat.zero_le n) htaken
  have hplace : ∀ n, ∃ p, (loops (run n)).place i = some p := fun n =>
    ⟨_, by rw [place, List.getElem?_eq_getElem (htakens n).1]; rfl⟩
  refine exists_last_of_wellFounded (nearer_wellFounded body)
    (fun n => ((loops (run n)).place i).getD .exited) _ ?_ ?_
  · intro n hother
    rcases h _ _ _ (hrun n) with ⟨-, hsame⟩ | ⟨f, hf, hfstep⟩
    · rw [hsame]
    · rw [place_step_of_ne hfstep (htakens n).1 (hf ▸ hother)]
  · intro n howner
    rcases h _ _ _ (hrun n) with ⟨hnone, -⟩ | ⟨f, hf, hfstep⟩
    · rw [hnone] at howner
      contradiction
    · obtain ⟨p, hp⟩ := hplace n
      obtain ⟨p', hp', hnearer⟩ :=
        (hsounds n).nearer_step (htakens n) hp hfstep (hf.trans howner)
      rw [hp, hp']
      exact hnearer

theorem Carries.taken_exits (h : Carries body step loops owner)
    (hrun : Endless step run events) (hsound : (loops (run 0)).Sound) {i : Nat}
    (htaken : (loops (run 0)).Taken i)
    (hgoes : ∀ n, (loops (run n)).hasExited i = false → ∃ m, n ≤ m ∧ owner (events m) = some i) :
    ∃ n, (loops (run n)).hasExited i = true := by
  obtain ⟨N, hN⟩ := h.own_steps_end hrun hsound htaken
  refine ⟨N, ?_⟩
  by_contra hnot
  obtain ⟨m, hm, howner⟩ := hgoes N (Bool.eq_false_iff.mpr hnot)
  exact hN m hm howner

end Carries

/-- A call of stop is waiting for the thread. -/
def Waited (s : Loops δ β) (i : Nat) : Prop :=
  (∃ k : Nat, s.stops[k]? = some (StopCall.joining i)) ∨
    ∃ j rest, s.place j = some (.joining i rest)

theorem Sound.taken_of_waited (h : s.Sound) {i : Nat} (hwaited : s.Waited i) : s.Taken i := by
  rcases hwaited with ⟨k, hstop⟩ | ⟨j, rest, hplace⟩
  · exact h.stop_taken k i hstop
  · exact (h.joining_later j i rest hplace).2

/-- In every run from `init` there is one thread of the current epoch, a thread that is to exit
does so at its next check, and one that a stop waits for has an end. -/
structure NeverOverlaps (step : σ → ε → Option σ) (loops : σ → Loops δ β)
    (owner : ε → Option Nat) (init : σ) : Prop where
  one_current : ∀ es t, exec step init es = some t → ∀ (i j : Nat) (a b : LoopThread δ β),
    (loops t).threads[i]? = some a → (loops t).threads[j]? = some b →
    a.epoch = (loops t).control.epoch → b.epoch = (loops t).control.epoch → i = j
  stale_exits : ∀ es t, exec step init es = some t → ∀ i, (loops t).Stale i →
    ∀ more t' data e t'', exec step t more = some t' →
      (loops t').place i = some (.checking data) → owner e = some i → step t' e = some t'' →
      (loops t'').place i = some .exited
  own_steps_end : ∀ es t, exec step init es = some t → ∀ i, (loops t).Waited i →
    ∀ run events, run 0 = t → Endless step run events →
      ∃ N, ∀ n, N ≤ n → owner (events n) ≠ some i
  waited_exits : ∀ es t, exec step init es = some t → ∀ i, (loops t).Waited i →
    ∀ run events, run 0 = t → Endless step run events →
      (∀ n, (loops (run n)).hasExited i = false → ∃ m, n ≤ m ∧ owner (events m) = some i) →
      ∃ n, (loops (run n)).hasExited i = true

theorem Carries.neverOverlaps {step : σ → ε → Option σ} {loops : σ → Loops δ β}
    {owner : ε → Option Nat} (h : Carries body step loops owner) {init : σ}
    (hinit : (loops init).Sound) : NeverOverlaps step loops owner init where
  one_current es t hrun i j a b hi hj ha hb :=
    (h.sound_exec hrun hinit).eq_of_epoch hi hj (ha.trans hb.symm)
  stale_exits es t hrun i hstale more t' data e t'' hmore hplace howner hstep :=
    h.stale_exits (h.sound_exec hrun hinit) hstale hmore hplace howner hstep
  own_steps_end es t hrun i hwaited run events hstart hendless := by
    subst hstart
    have hsound := h.sound_exec hrun hinit
    exact h.own_steps_end hendless hsound (hsound.taken_of_waited hwaited)
  waited_exits es t hrun i hwaited run events hstart hendless hgoes := by
    subst hstart
    have hsound := h.sound_exec hrun hinit
    exact h.taken_exits hendless hsound (hsound.taken_of_waited hwaited) hgoes

theorem joining_ne_step (hstops : ∀ rest, body.stops rest = none)
    (h : ∀ i j rest, s.place i ≠ some (.joining j rest)) {e : LoopEvent δ β}
    (hstep : s.step body e = some s') (i j : Nat) (rest : β) :
    s'.place i ≠ some (.joining j rest) := by
  intro hplace
  have hmoved : ∀ k p, p ≠ .joining j rest → (s.moveTo k p).place i ≠ some (.joining j rest) := by
    intro k p hp hplace
    rcases place_moveTo k i p with hsame | ⟨-, hnew⟩
    · exact h i j rest (hsame ▸ hplace)
    · exact hp (Option.some.inj (hnew ▸ hplace))
  cases moves_of_step hstep with
  | start data =>
      rcases place_start hplace with hold | hfirst
      · exact h i j rest hold
      · exact firstPlace_ne_joining data j rest hfirst.symm
  | stop | stopJoined => exact h i j rest hplace
  | stopInside hget hbody =>
      rw [hstops] at hbody
      contradiction
  | exits | joinedInside => exact hmoved _ _ (by simp) hplace
  | stays hget hstays timeout => exact hmoved _ _ (by cases timeout <;> simp) hplace
  | works hget hworks =>
      rename_i outcome
      exact hmoved _ _ (by cases outcome <;> simp [BodyOutcome.place]) hplace

theorem exists_step {i : Nat} {p : LoopPlace δ β} (hplace : s.place i = some p)
    (hexited : p ≠ .exited) (hjoining : ∀ j rest, p ≠ .joining j rest) :
    ∃ e s', e.owner = some i ∧ s.step body e = some s' := by
  obtain ⟨epoch, hget⟩ := place_eq_some.mp hplace
  cases p with
  | checking data =>
      by_cases hexits : s.control.exits epoch = true
      · refine ⟨.check i true, s.moveTo i .exited, rfl, ?_⟩
        simp [step, hget, hexits]
      · refine ⟨.check i true, s.moveTo i (.working (body.enter data)), rfl, ?_⟩
        simp [step, hget, hexits]
  | working rest =>
      rcases body.progress rest with ⟨outcome, hworks⟩ | hstops
      · refine ⟨.work i outcome, s.moveTo i outcome.place, rfl, ?_⟩
        simp [step, hget, hworks]
      · obtain ⟨rest', hrest⟩ := Option.isSome_iff_exists.mp hstops
        refine ⟨.stopInside i, s.stopInside i rest', rfl, ?_⟩
        simp [step, hget, hrest]
  | joining j rest => exact absurd rfl (hjoining j rest)
  | exited => exact absurd rfl hexited

/-- Own steps of the threads from `i` on. -/
def OwnSteps (i : Nat) (es : List (LoopEvent δ β)) : Prop :=
  ∀ e ∈ es, ∃ j, i ≤ j ∧ e.owner = some j

theorem length_own_step {i : Nat} {e : LoopEvent δ β} (howner : e.owner = some i)
    (hstep : s.step body e = some s') : s'.threads.length = s.threads.length := by
  cases moves_of_step hstep with
  | start | stop | stopJoined => contradiction
  | stopInside hget hstops => simp [stopInside]
  | exits | stays | works | joinedInside => exact length_moveTo _ _

theorem length_own_steps {i : Nat} {es : List (LoopEvent δ β)} (hown : OwnSteps i es)
    (hrun : Framework.exec (Loops.step body) s es = some s') :
    s'.threads.length = s.threads.length := by
  induction es generalizing s with
  | nil =>
      obtain rfl := Option.some.inj hrun
      rfl
  | cons e es ih =>
      obtain ⟨s₁, hstep, hrest⟩ := Option.bind_eq_some_iff.mp hrun
      obtain ⟨j, -, howner⟩ := hown e List.mem_cons_self
      rw [ih (fun f hf => hown f (List.mem_cons_of_mem e hf)) hrest]
      exact length_own_step howner hstep

/-- The steps of the threads from `i` on can bring thread `i` to its exit. -/
def CanExit (body : LoopBody δ β) (s : Loops δ β) (i : Nat) : Prop :=
  ∃ es s', OwnSteps i es ∧ Framework.exec (Loops.step body) s es = some s' ∧
    s'.hasExited i = true

theorem CanExit.of_step {i : Nat} {es : List (LoopEvent δ β)} {s₁ s₂ : Loops δ β}
    (hown : OwnSteps i es) (hrun : Framework.exec (Loops.step body) s es = some s₁)
    {e : LoopEvent δ β} (howner : e.owner = some i) (hstep : s₁.step body e = some s₂)
    (h : CanExit body s₂ i) : CanExit body s i := by
  obtain ⟨fs, s', hown', hrun', hexited⟩ := h
  refine ⟨es ++ e :: fs, s', ?_, ?_, hexited⟩
  · intro f hf
    rcases List.mem_append.mp hf with hf | hf
    · exact hown f hf
    · rcases List.mem_cons.mp hf with rfl | hf
      · exact ⟨i, Nat.le_refl i, howner⟩
      · exact hown' f hf
  · rw [exec_append_eq_some]
    exact ⟨s₁, hrun, by rw [exec_cons, hstep]; exact hrun'⟩

theorem OwnSteps.mono {i j : Nat} {es : List (LoopEvent δ β)} (h : OwnSteps j es) (hle : i ≤ j) :
    OwnSteps i es := by
  intro e he
  obtain ⟨k, hk, howner⟩ := h e he
  exact ⟨k, by omega, howner⟩

theorem OwnSteps.owner_ne {i j : Nat} {es : List (LoopEvent δ β)} (h : OwnSteps j es)
    (hlt : i < j) : ∀ e ∈ es, e.owner ≠ some i := by
  intro e he howner
  obtain ⟨k, hk, hke⟩ := h e he
  have hik := Option.some.inj (howner.symm.trans hke)
  omega

/-- However far the loops have got, the steps of the loop threads alone bring a thread whose handle
was taken to its exit: what it may be joining was started later, and so ends before it. -/
theorem Sound.can_exit (h : s.Sound) {i : Nat} (htaken : s.Taken i) : CanExit body s i := by
  have hfar : ∀ d i (s : Loops δ β), s.threads.length - i = d → s.Sound → s.Taken i →
      CanExit body s i := by
    intro d
    induction d using Nat.strong_induction_on with
    | _ d later =>
        intro i s hd h htaken
        have hplace : ∃ p, s.place i = some p :=
          ⟨_, by rw [place, List.getElem?_eq_getElem htaken.1]; rfl⟩
        obtain ⟨p, hplace⟩ := hplace
        induction p using (nearer_wellFounded body).induction generalizing s with
        | _ p nearer =>
            by_cases hexited : p = .exited
            · subst hexited
              exact ⟨[], s, by simp [OwnSteps], rfl, hasExited_iff.mpr hplace⟩
            by_cases hjoining : ∃ j rest, p = .joining j rest
            · obtain ⟨j, rest, rfl⟩ := hjoining
              obtain ⟨hlt, hj⟩ := h.joining_later i j rest hplace
              have hjlen := hj.1
              obtain ⟨es, s₁, hown, hrun, hexited₁⟩ :=
                later (s.threads.length - j) (by omega) j s rfl h hj
              have hlen := length_own_steps hown hrun
              have hplace₁ := place_exec_of_ne hrun htaken.1 (hown.owner_ne hlt)
              rw [hplace] at hplace₁
              obtain ⟨epoch, hget⟩ := place_eq_some.mp hplace₁
              have hstep : s₁.step body (.joinedInside i) = some (s₁.moveTo i (.working rest)) := by
                simp [Loops.step, hget, hexited₁]
              have htaken₁ := htaken.exec hrun
              refine CanExit.of_step (hown.mono (Nat.le_of_lt hlt)) hrun rfl hstep ?_
              refine nearer _ (.joined j rest) _ ?_ ((h.exec hrun).step hstep)
                (htaken₁.step hstep) (place_moveTo_self htaken₁.1 _)
              rw [length_moveTo, hlen, hd]
            · obtain ⟨e, s₁, howner, hstep⟩ := exists_step hplace hexited
                (fun j rest hp => hjoining ⟨j, rest, hp⟩)
              obtain ⟨p', hplace', hnearer⟩ := h.nearer_step htaken hplace hstep howner
              refine CanExit.of_step (by simp [OwnSteps]) (exec_nil s) howner hstep ?_
              refine nearer p' hnearer s₁ ?_ (h.step hstep) (htaken.step hstep) hplace'
              rw [length_own_step howner hstep, hd]
  exact hfar _ i s rfl h htaken

end Loops

end YohakuCore.Framework
