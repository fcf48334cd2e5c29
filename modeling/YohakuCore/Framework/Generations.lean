import Mathlib.Logic.Function.Basic
import Mathlib.Data.Option.Basic
import Mathlib.Data.Set.Card

/-!
# Tasks of a generation

A task is spawned for one value of a counter and must notice when it moved. `Fits` bounds the tasks,
`SingleFlight` ties a flag to the one that may be live.
-/

namespace YohakuCore.Framework

/-- A task bound to the generation it was spawned for. -/
structure Spawned (Pc : Type) where
  generation : Nat
  pc : Pc
  deriving DecidableEq

variable {Pc : Type}

/-- Every task is of the generation `gen` or older, and one of `gen` requires `current`. -/
def Fits (tasks : Nat → Option (Spawned Pc)) (gen : Nat) (current : Prop) : Prop :=
  ∀ id task, tasks id = some task →
    task.generation ≤ gen ∧ (task.generation = gen → current)

theorem Fits.mono {tasks : Nat → Option (Spawned Pc)} {gen : Nat} {current current' : Prop}
    (h : Fits tasks gen current) (himp : current → current') : Fits tasks gen current' :=
  fun id task htask => ⟨(h id task htask).1, fun hgen => himp ((h id task htask).2 hgen)⟩

theorem Fits.succ {tasks : Nat → Option (Spawned Pc)} {gen : Nat} {current : Prop}
    (h : Fits tasks gen current) (current' : Prop) : Fits tasks (gen + 1) current' := by
  intro id task htask
  have hle := (h id task htask).1
  refine ⟨by omega, fun hgen => ?_⟩
  exfalso
  omega

theorem Fits.set {tasks : Nat → Option (Spawned Pc)} {gen : Nat} {current : Prop}
    (h : Fits tasks gen current) (id : Nat) {task : Spawned Pc} (hle : task.generation ≤ gen)
    (hcurrent : task.generation = gen → current) :
    Fits (Function.update tasks id (some task)) gen current := by
  intro i t ht
  rw [Function.update_apply] at ht
  split at ht
  · obtain rfl := Option.some.inj ht
    exact ⟨hle, hcurrent⟩
  · exact h i t ht

theorem Fits.erase {tasks : Nat → Option (Spawned Pc)} {gen : Nat} {current : Prop}
    (h : Fits tasks gen current) (id : Nat) :
    Fits (Function.update tasks id none) gen current := by
  intro i t ht
  rw [Function.update_apply] at ht
  split at ht
  · contradiction
  · exact h i t ht

theorem Fits.advance {tasks : Nat → Option (Spawned Pc)} {gen : Nat} {current : Prop}
    (h : Fits tasks gen current) {id : Nat} {task : Spawned Pc} (htask : tasks id = some task)
    (pc : Pc) : Fits (Function.update tasks id (some ⟨task.generation, pc⟩)) gen current :=
  h.set id (h id task htask).1 (h id task htask).2

/-- At most one task is live, and the flag says whether there is one. -/
structure SingleFlight (tasks : Nat → Option (Spawned Pc)) (running : Bool) : Prop where
  unique : ∀ i j, (tasks i).isSome → (tasks j).isSome → i = j
  flag : running = true ↔ ∃ i, (tasks i).isSome

theorem SingleFlight.none_of_not_running {tasks : Nat → Option (Spawned Pc)}
    (h : SingleFlight tasks false) (i : Nat) : tasks i = none := by
  have hnone : ¬ (tasks i).isSome := fun hi => Bool.false_ne_true (h.flag.mpr ⟨i, hi⟩)
  exact Option.not_isSome_iff_eq_none.mp hnone

theorem SingleFlight.running_of_some {tasks : Nat → Option (Spawned Pc)} {running : Bool}
    (h : SingleFlight tasks running) {i : Nat} {task : Spawned Pc} (hi : tasks i = some task) :
    running = true :=
  h.flag.mpr ⟨i, by rw [hi]; rfl⟩

theorem SingleFlight.eq_of_some {tasks : Nat → Option (Spawned Pc)} {running : Bool}
    (h : SingleFlight tasks running) {i j : Nat} {t u : Spawned Pc} (hi : tasks i = some t)
    (hj : tasks j = some u) : i = j :=
  h.unique i j (by rw [hi]; rfl) (by rw [hj]; rfl)

/-- The flag counts the live tasks. -/
theorem SingleFlight.ncard_live {tasks : Nat → Option (Spawned Pc)} {running : Bool}
    (h : SingleFlight tasks running) :
    {i | (tasks i).isSome}.ncard = if running then 1 else 0 := by
  cases running with
  | false =>
      have hempty : {i | (tasks i).isSome} = (∅ : Set Nat) := by
        refine Set.eq_empty_of_forall_notMem ?_
        intro i hi
        rw [Set.mem_ofPred_eq, h.none_of_not_running i] at hi
        contradiction
      rw [hempty, Set.ncard_empty]
      rfl
  | true =>
      obtain ⟨i, hi⟩ := h.flag.mp rfl
      have hsingle : {j | (tasks j).isSome} = {i} := by
        ext j
        rw [Set.mem_ofPred_eq, Set.mem_singleton_iff]
        exact ⟨fun hj => h.unique j i hj hi, fun hj => hj ▸ hi⟩
      rw [hsingle, Set.ncard_singleton]
      rfl

theorem SingleFlight.spawn {tasks : Nat → Option (Spawned Pc)} (h : SingleFlight tasks false)
    (id : Nat) (task : Spawned Pc) :
    SingleFlight (Function.update tasks id (some task)) true := by
  have honly : ∀ i, (Function.update tasks id (some task) i).isSome → i = id := by
    intro i hi
    by_contra hne
    rw [Function.update_of_ne hne, h.none_of_not_running i] at hi
    contradiction
  refine ⟨fun i j hi hj => (honly i hi).trans (honly j hj).symm, fun _ => ⟨id, ?_⟩, fun _ => rfl⟩
  rw [Function.update_self]
  rfl

theorem SingleFlight.advance {tasks : Nat → Option (Spawned Pc)} {running : Bool}
    (h : SingleFlight tasks running) {id : Nat} {task : Spawned Pc}
    (htask : tasks id = some task) (task' : Spawned Pc) :
    SingleFlight (Function.update tasks id (some task')) running := by
  have hsome : ∀ i, (Function.update tasks id (some task') i).isSome = (tasks i).isSome := by
    intro i
    rw [Function.update_apply]
    split
    · rename_i heq
      rw [heq, htask]
      rfl
    · rfl
  constructor
  · intro i j hi hj
    rw [hsome] at hi hj
    exact h.unique i j hi hj
  · simp only [hsome]
    exact h.flag

theorem SingleFlight.exit {tasks : Nat → Option (Spawned Pc)} {running : Bool}
    (h : SingleFlight tasks running) {id : Nat} {task : Spawned Pc}
    (htask : tasks id = some task) : SingleFlight (Function.update tasks id none) false := by
  have hnone : ∀ i, ¬ (Function.update tasks id none i).isSome := by
    intro i hi
    rw [Function.update_apply] at hi
    split at hi
    · contradiction
    · rename_i hne
      exact hne (h.unique i id hi (by rw [htask]; rfl))
  refine ⟨fun i _ hi _ => absurd hi (hnone i), ?_⟩
  constructor
  · intro hfalse
    contradiction
  · rintro ⟨i, hi⟩
    exact absurd hi (hnone i)

end YohakuCore.Framework
