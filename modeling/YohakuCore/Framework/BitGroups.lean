import Mathlib.Data.Nat.Bitwise
import Mathlib.Tactic.Ring

/-! # Bits in groups -/

namespace YohakuCore.Framework.BitGroups

/-- The low bits of a number. -/
def bitsOf : Nat → Nat → List Bool
  | 0, _ => []
  | width + 1, n => n.testBit width :: bitsOf width n

def valueOf (bits : List Bool) : Nat := bits.foldl (fun value bit => 2 * value + bit.toNat) 0

@[simp] theorem bitsOf_length (width n : Nat) : (bitsOf width n).length = width := by
  induction width with
  | zero => rfl
  | succ width ih => simp [bitsOf, ih]

theorem bitsOf_add (high low n : Nat) :
    bitsOf (high + low) n = bitsOf high (n / 2 ^ low) ++ bitsOf low n := by
  induction high with
  | zero => simp [bitsOf]
  | succ high ih =>
      rw [Nat.succ_add, bitsOf, bitsOf, ih, List.cons_append, Nat.testBit_div_two_pow]

theorem bitsOf_congr {width m n : Nat} (h : m % 2 ^ width = n % 2 ^ width) :
    bitsOf width m = bitsOf width n := by
  induction width with
  | zero => rfl
  | succ width ih =>
      have hbit : m.testBit width = n.testBit width := by
        have hbits := congrArg (fun k => k.testBit width) h
        simpa [Nat.testBit_mod_two_pow] using hbits
      have hlow : m % 2 ^ width = n % 2 ^ width := by
        have hmod := congrArg (· % 2 ^ width) h
        simpa [Nat.mod_mod_of_dvd, pow_succ] using hmod
      rw [bitsOf, bitsOf, hbit, ih hlow]

theorem bitsOf_append (width n : Nat) {low k : Nat} (h : low < 2 ^ k) :
    bitsOf width n ++ bitsOf k low = bitsOf (width + k) (n * 2 ^ k + low) := by
  have hhigh : (n * 2 ^ k + low) / 2 ^ k = n := by
    rw [Nat.mul_comm, Nat.mul_add_div (Nat.two_pow_pos k), Nat.div_eq_of_lt h, Nat.add_zero]
  have hlow : low % 2 ^ k = (n * 2 ^ k + low) % 2 ^ k := by
    rw [Nat.mul_add_mod_self_right]
  rw [bitsOf_add, hhigh, bitsOf_congr hlow]

theorem bitsOf_zero (width : Nat) : bitsOf width 0 = List.replicate width false := by
  induction width with
  | zero => rfl
  | succ width ih => simp [bitsOf, ih, List.replicate_succ]

theorem foldl_bits (bits : List Bool) (start : Nat) :
    bits.foldl (fun value bit => 2 * value + bit.toNat) start =
      start * 2 ^ bits.length + valueOf bits := by
  unfold valueOf
  induction bits generalizing start with
  | nil => simp
  | cons bit bits ih =>
      rw [List.foldl_cons, List.foldl_cons, ih, ih (2 * 0 + bit.toNat), List.length_cons, pow_succ]
      ring

theorem valueOf_cons (bit : Bool) (bits : List Bool) :
    valueOf (bit :: bits) = bit.toNat * 2 ^ bits.length + valueOf bits := by
  rw [valueOf, List.foldl_cons, foldl_bits]
  simp

theorem valueOf_bitsOf (width n : Nat) : valueOf (bitsOf width n) = n % 2 ^ width := by
  induction width with
  | zero => simp [bitsOf, valueOf, Nat.mod_one]
  | succ width ih =>
      rw [bitsOf, valueOf_cons, bitsOf_length, ih, Nat.mod_pow_succ,
        Nat.testBit_eq_decide_div_mod_eq]
      rcases Nat.mod_two_eq_zero_or_one (n / 2 ^ width) with h | h <;> simp [h, Nat.add_comm]

/-- A group brought to the width with zeros. -/
def fill (width : Nat) (bits : List Bool) : List Bool :=
  bits ++ List.replicate (width - bits.length) false

def groups (width : Nat) (bits : List Bool) : List (List Bool) :=
  (List.range ((bits.length + (width - 1)) / width)).map
    (fun i => fill width ((bits.drop (i * width)).take width))

theorem groups_append {width : Nat} (hwidth : 0 < width) {group : List Bool}
    (h : group.length = width) (rest : List Bool) :
    groups width (group ++ rest) = group :: groups width rest := by
  have hcount : ((group ++ rest).length + (width - 1)) / width =
      (rest.length + (width - 1)) / width + 1 := by
    rw [List.length_append, h, Nat.add_assoc, Nat.add_div_left _ hwidth]
  rw [groups, hcount, List.range_succ_eq_map, List.map_cons, List.map_map, groups]
  congr 1
  · simp [fill, h]
  · apply List.map_congr_left
    intro i _
    have hdrop : (group ++ rest).drop ((i + 1) * width) = rest.drop (i * width) := by
      rw [Nat.add_mul, Nat.one_mul, Nat.add_comm, ← h, List.drop_length_add_append]
    simp [hdrop]

theorem groups_short {width : Nat} {bits : List Bool} (hpos : 0 < bits.length)
    (hle : bits.length ≤ width) : groups width bits = [fill width bits] := by
  have hcount : (bits.length + (width - 1)) / width = 1 := by
    rw [Nat.div_eq_iff (by omega)]
    omega
  simp [groups, hcount, List.take_of_length_le hle]

theorem fill_bitsOf (width n k : Nat) :
    fill (width + k) (bitsOf width n) = bitsOf (width + k) (n * 2 ^ k) := by
  have happend := bitsOf_append width n (Nat.two_pow_pos k)
  rw [bitsOf_zero, Nat.add_zero] at happend
  rw [fill, bitsOf_length, Nat.add_sub_cancel_left, happend]

end YohakuCore.Framework.BitGroups
