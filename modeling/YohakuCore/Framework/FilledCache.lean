import Mathlib.Data.List.Nodup
import Mathlib.Logic.Function.Basic

/-!
# Caches that workers fill

A key is pending from its claim until its worker forgets it, and a key that is pending is not
claimed.
-/

namespace YohakuCore.Framework

variable {κ ν : Type*}

inductive WorkerPhase where
  | reading
  | finishing
  | ended
  deriving DecidableEq

structure Worker (κ : Type*) where
  key : κ
  phase : WorkerPhase

structure FilledCache (κ ν : Type*) where
  cache : κ → Option ν
  pending : List κ
  workers : List (Worker κ)

namespace FilledCache

/-- Workers that run have distinct keys, all pending; past the read a key is cached, and a pending
key that is not cached is being read. -/
structure Sound (s : FilledCache κ ν) : Prop where
  nodup : s.pending.Nodup
  owns : ∀ (i : Nat) (worker : Worker κ), s.workers[i]? = some worker → worker.phase ≠ .ended →
    worker.key ∈ s.pending
  distinct : ∀ (i j : Nat) (worker worker' : Worker κ), s.workers[i]? = some worker →
    s.workers[j]? = some worker' → worker.phase ≠ .ended → worker'.phase ≠ .ended →
    worker.key = worker'.key → i = j
  filled : ∀ (i : Nat) (worker : Worker κ), s.workers[i]? = some worker →
    worker.phase ≠ .reading → (s.cache worker.key).isSome = true
  read : ∀ key ∈ s.pending, s.cache key = none → ∃ i : Nat, s.workers[i]? = some ⟨key, .reading⟩

variable {s s' : FilledCache κ ν}

theorem sound_empty : Sound ⟨fun _ : κ => (none : Option ν), [], []⟩ where
  nodup := List.nodup_nil
  owns := by simp
  distinct := by simp
  filled := by simp
  read := by simp

theorem getElem?_set_cases {α : Type*} {xs : List α} {i j : Nat} {x y : α}
    (h : (xs.set i x)[j]? = some y) : (j = i ∧ y = x) ∨ (j ≠ i ∧ xs[j]? = some y) := by
  rw [List.getElem?_set] at h
  split at h
  · rename_i hij
    split at h
    · exact Or.inl ⟨hij.symm, (Option.some.inj h).symm⟩
    · contradiction
  · rename_i hij
    exact Or.inr ⟨Ne.symm hij, h⟩

theorem getElem?_concat_cases {α : Type*} {xs : List α} {j : Nat} {x y : α}
    (h : (xs ++ [x])[j]? = some y) : (j = xs.length ∧ y = x) ∨ xs[j]? = some y := by
  rcases Nat.lt_or_ge j xs.length with hlt | hge
  · rw [List.getElem?_append_left hlt] at h
    exact Or.inr h
  · rw [List.getElem?_append_right hge] at h
    have hj := (List.getElem?_eq_some_iff.mp h).1
    simp only [List.length_singleton] at hj
    have hzero : j - xs.length = 0 := by omega
    rw [hzero] at h
    exact Or.inl ⟨by omega, (Option.some.inj h).symm⟩

theorem Sound.ends (h : s.Sound) {i : Nat} {key : κ}
    (hget : s.workers[i]? = some ⟨key, .finishing⟩) {pending : List κ} (hnodup : pending.Nodup)
    (hsub : ∀ key' ∈ pending, key' ∈ s.pending)
    (hkept : ∀ key' ∈ s.pending, key' ≠ key → key' ∈ pending) :
    Sound { s with pending, workers := s.workers.set i ⟨key, .ended⟩ } where
  nodup := hnodup
  owns j worker hj hrunning := by
    rcases getElem?_set_cases hj with ⟨-, rfl⟩ | ⟨hji, hold⟩
    · exact absurd rfl hrunning
    · apply hkept _ (h.owns j worker hold hrunning)
      intro hkey
      exact hji (h.distinct j i worker _ hold hget hrunning (by simp) hkey)
  distinct j k worker worker' hj hk hrunning hrunning' hkey := by
    rcases getElem?_set_cases hj with ⟨-, rfl⟩ | ⟨-, hold⟩
    · exact absurd rfl hrunning
    rcases getElem?_set_cases hk with ⟨-, rfl⟩ | ⟨-, hold'⟩
    · exact absurd rfl hrunning'
    exact h.distinct j k worker worker' hold hold' hrunning hrunning' hkey
  filled j worker hj hphase := by
    rcases getElem?_set_cases hj with ⟨-, rfl⟩ | ⟨-, hold⟩
    · exact h.filled i ⟨key, .finishing⟩ hget (by simp)
    · exact h.filled j worker hold hphase
  read key' hpending hnone := by
    obtain ⟨j, hj⟩ := h.read key' (hsub key' hpending) hnone
    have hne : i ≠ j := by
      rintro rfl
      rw [hget] at hj
      simp at hj
    exact ⟨j, by rw [List.getElem?_set_ne hne, hj]⟩

/-- When no worker runs, every key that was ever pending is cached. -/
theorem Sound.at_rest (h : s.Sound) (hended : ∀ worker ∈ s.workers, worker.phase = .ended)
    {key : κ} (hkey : key ∈ s.pending ∨ ∃ worker ∈ s.workers, worker.key = key) :
    (s.cache key).isSome = true := by
  rcases hkey with hpending | ⟨worker, hworker, rfl⟩
  · by_contra hnot
    have hnone : s.cache key = none := by simpa using hnot
    obtain ⟨i, hi⟩ := h.read key hpending hnone
    have hphase := hended _ (List.mem_of_getElem? hi)
    simp at hphase
  · obtain ⟨i, hi⟩ := List.mem_iff_getElem?.mp hworker
    exact h.filled i worker hi (by simp [hended worker hworker])

variable [DecidableEq κ]

/-- One step of the cache. -/
inductive Moves (s : FilledCache κ ν) : FilledCache κ ν → Prop where
  | stays : Moves s s
  | claims {key : κ} (hnew : key ∉ s.pending) :
      Moves s { s with
        pending := key :: s.pending
        workers := s.workers ++ [⟨key, .reading⟩] }
  | fills {i : Nat} {key : κ} (hget : s.workers[i]? = some ⟨key, .reading⟩) (value : ν) :
      Moves s { s with
        cache := Function.update s.cache key (some value)
        workers := s.workers.set i ⟨key, .finishing⟩ }
  | crashes {i : Nat} {key : κ} (hget : s.workers[i]? = some ⟨key, .finishing⟩) :
      Moves s { s with workers := s.workers.set i ⟨key, .ended⟩ }
  | forgets {i : Nat} {key : κ} (hget : s.workers[i]? = some ⟨key, .finishing⟩) :
      Moves s { s with
        pending := s.pending.erase key
        workers := s.workers.set i ⟨key, .ended⟩ }

theorem Moves.cached (h : Moves s s') {key : κ} (hcached : (s.cache key).isSome = true) :
    (s'.cache key).isSome = true := by
  cases h with
  | @fills i key' hget value =>
      by_cases hkey : key = key'
      · simp [hkey]
      · simpa [hkey] using hcached
  | _ => exact hcached

theorem Sound.moves (h : s.Sound) (hmoves : Moves s s') : s'.Sound := by
  cases hmoves with
  | stays => exact h
  | @claims key hnew =>
      have hother {i : Nat} {worker : Worker κ} (hget : s.workers[i]? = some worker)
          (hrunning : worker.phase ≠ .ended) : worker.key ≠ key := by
        intro hkey
        exact hnew (hkey ▸ h.owns i worker hget hrunning)
      constructor
      · exact List.nodup_cons.mpr ⟨hnew, h.nodup⟩
      · intro i worker hi hrunning
        rcases getElem?_concat_cases hi with ⟨-, rfl⟩ | hold
        · exact List.mem_cons_self
        · exact List.mem_cons_of_mem _ (h.owns i worker hold hrunning)
      · intro i j worker worker' hi hj hrunning hrunning' hkey
        rcases getElem?_concat_cases hi with ⟨hi', rfl⟩ | hold
        · rcases getElem?_concat_cases hj with ⟨hj', -⟩ | hold'
          · exact hi'.trans hj'.symm
          · exact absurd hkey.symm (hother hold' hrunning')
        · rcases getElem?_concat_cases hj with ⟨-, rfl⟩ | hold'
          · exact absurd hkey (hother hold hrunning)
          · exact h.distinct i j worker worker' hold hold' hrunning hrunning' hkey
      · intro i worker hi hphase
        rcases getElem?_concat_cases hi with ⟨-, rfl⟩ | hold
        · exact absurd rfl hphase
        · exact h.filled i worker hold hphase
      · intro key' hpending hnone
        rcases List.mem_cons.mp hpending with rfl | hpending
        · exact ⟨s.workers.length, by simp⟩
        · obtain ⟨i, hi⟩ := h.read key' hpending hnone
          refine ⟨i, ?_⟩
          rw [List.getElem?_append_left (List.getElem?_eq_some_iff.mp hi).1, hi]
  | @fills i key hget value =>
      have hcached (key' : κ) (h' : (s.cache key').isSome = true) :
          (Function.update s.cache key (some value) key').isSome = true :=
        Moves.cached (.fills hget value) h'
      constructor
      · exact h.nodup
      · intro j worker hj hrunning
        rcases getElem?_set_cases hj with ⟨-, rfl⟩ | ⟨-, hold⟩
        · exact h.owns i ⟨key, .reading⟩ hget (by simp)
        · exact h.owns j worker hold hrunning
      · intro j k worker worker' hj hk hrunning hrunning' hkey
        rcases getElem?_set_cases hj with ⟨hji, rfl⟩ | ⟨-, hold⟩
        · rcases getElem?_set_cases hk with ⟨hki, -⟩ | ⟨-, hold'⟩
          · exact hji.trans hki.symm
          · rw [hji]
            exact h.distinct i k ⟨key, .reading⟩ worker' hget hold' (by simp) hrunning' hkey
        · rcases getElem?_set_cases hk with ⟨hki, rfl⟩ | ⟨-, hold'⟩
          · rw [hki]
            exact h.distinct j i worker ⟨key, .reading⟩ hold hget hrunning (by simp) hkey
          · exact h.distinct j k worker worker' hold hold' hrunning hrunning' hkey
      · intro j worker hj hphase
        rcases getElem?_set_cases hj with ⟨-, rfl⟩ | ⟨-, hold⟩
        · simp
        · exact hcached _ (h.filled j worker hold hphase)
      · intro key' hpending hnone
        have hkey : key' ≠ key := by
          rintro rfl
          simp at hnone
        have hold : s.cache key' = none := by simpa [hkey] using hnone
        obtain ⟨j, hj⟩ := h.read key' hpending hold
        have hne : i ≠ j := by
          rintro rfl
          rw [hget] at hj
          simp only [Option.some.injEq, Worker.mk.injEq, and_true] at hj
          exact hkey hj.symm
        exact ⟨j, by rw [List.getElem?_set_ne hne, hj]⟩
  | crashes hget => exact h.ends hget h.nodup (fun _ => id) (fun _ hkey _ => hkey)
  | @forgets i key hget =>
      apply h.ends hget (h.nodup.erase key)
      · intro key' hkey
        exact List.mem_of_mem_erase hkey
      · intro key' hkey hne
        exact (List.mem_erase_of_ne hne).mpr hkey

end FilledCache

end YohakuCore.Framework
