import Mathlib.Data.Set.Card

/-! # Spaced instants -/

namespace YohakuCore.Framework

variable {ι : Type*}

theorem encard_window_le {s : Set ι} (time : ι → Int) {gap window start : Int} {limit : Nat}
    (hgap : 0 < gap)
    (hspaced : ∀ i ∈ s, ∀ j ∈ s, i ≠ j → time i + gap ≤ time j ∨ time j + gap ≤ time i)
    (hwindow : ∀ i ∈ s, start ≤ time i ∧ time i < start + window)
    (hlimit : window ≤ limit * gap) : s.encard ≤ limit := by
  -- Each instant is alone in its slot, counted in gaps from the start of the window.
  let slot (i : ι) : Nat := ((time i - start) / gap).toNat
  have hslot {i : ι} (hi : i ∈ s) : (slot i : Int) = (time i - start) / gap := by
    obtain ⟨hstart, -⟩ := hwindow i hi
    exact Int.toNat_of_nonneg (Int.ediv_nonneg (by omega) (by omega))
  have hinj : Set.InjOn slot s := by
    intro i hi j hj heq
    by_contra hne
    have hquotient : (time i - start) / gap = (time j - start) / gap := by
      rw [← hslot hi, ← hslot hj, heq]
    have hi' := Int.mul_ediv_add_emod (time i - start) gap
    have hj' := Int.mul_ediv_add_emod (time j - start) gap
    have hirest := Int.emod_nonneg (time i - start) (ne_of_gt hgap)
    have hjrest := Int.emod_nonneg (time j - start) (ne_of_gt hgap)
    have hilt := Int.emod_lt_of_pos (time i - start) hgap
    have hjlt := Int.emod_lt_of_pos (time j - start) hgap
    rw [hquotient] at hi'
    rcases hspaced i hi j hj hne with h | h <;> omega
  have himage : slot '' s ⊆ (Finset.range limit : Set Nat) := by
    rintro _ ⟨i, hi, rfl⟩
    obtain ⟨-, hend⟩ := hwindow i hi
    have hlt : (time i - start) / gap < limit :=
      Int.ediv_lt_of_lt_mul hgap (by omega)
    rw [← hslot hi] at hlt
    exact Finset.mem_coe.mpr (Finset.mem_range.mpr (Int.ofNat_lt.mp hlt))
  calc s.encard = (slot '' s).encard := (hinj.encard_image).symm
    _ ≤ (Finset.range limit : Set Nat).encard := Set.encard_le_encard himage
    _ = limit := by rw [Set.encard_coe_eq_coe_finsetCard, Finset.card_range]

end YohakuCore.Framework
