import Mathlib.Tactic.Common

/-! # Texts and their UTF-16 code units -/

namespace YohakuCore.Framework.Utf16

/-- The code units of one scalar value. -/
def units (c : Char) : List Nat :=
  if c.toNat < 0x10000 then [c.toNat]
  else [0xD800 + (c.toNat - 0x10000) / 0x400, 0xDC00 + (c.toNat - 0x10000) % 0x400]

def encode (text : List Char) : List Nat := text.flatMap units

def IsHigh (unit : Nat) : Prop := 0xD800 ≤ unit ∧ unit < 0xDC00

def IsLow (unit : Nat) : Prop := 0xDC00 ≤ unit ∧ unit < 0xE000

instance (unit : Nat) : Decidable (IsHigh unit) := inferInstanceAs (Decidable (_ ∧ _))

instance (unit : Nat) : Decidable (IsLow unit) := inferInstanceAs (Decidable (_ ∧ _))

/-- The scalar value of a pair of surrogates. -/
def pairChar (high low : Nat) : Char :=
  Char.ofNat (0x10000 + (high - 0xD800) * 0x400 + (low - 0xDC00))

def decode? : List Nat → Option (List Char)
  | [] => some []
  | unit :: rest =>
      if IsLow unit then none
      else if IsHigh unit then
        match rest with
        | [] => none
        | low :: rest =>
            if IsLow low then (decode? rest).map (pairChar unit low :: ·) else none
      else (decode? rest).map (Char.ofNat unit :: ·)

/-- Every high surrogate is directly followed by a low one, and every low one directly preceded by
a high one; past the end there is no surrogate. -/
structure WellFormed (l : List Nat) : Prop where
  high_followed : ∀ i, IsHigh (l.getD i 0) → IsLow (l.getD (i + 1) 0)
  low_preceded : ∀ i, IsLow (l.getD i 0) → ∃ j, i = j + 1 ∧ IsHigh (l.getD j 0)

theorem not_isLow_of_isHigh {unit : Nat} (h : IsHigh unit) : ¬ IsLow unit := by
  unfold IsHigh at h
  unfold IsLow
  omega

theorem decode?_plain {unit : Nat} (hhigh : ¬ IsHigh unit) (hlow : ¬ IsLow unit)
    (rest : List Nat) :
    decode? (unit :: rest) = (decode? rest).map (Char.ofNat unit :: ·) := by
  rw [decode?.eq_def]
  simp only [if_neg hlow, if_neg hhigh]

theorem decode?_pair {high low : Nat} (hhigh : IsHigh high) (hlow : IsLow low)
    (rest : List Nat) :
    decode? (high :: low :: rest) = (decode? rest).map (pairChar high low :: ·) := by
  rw [decode?.eq_def]
  simp only [if_neg (not_isLow_of_isHigh hhigh), if_pos hhigh, if_pos hlow]

/-- Units by their pairs of surrogates: nothing, a unit that is none, a pair, a low unit or a high
one that is not followed by a low one. -/
theorem pairs_induction {motive : List Nat → Prop} (nil : motive [])
    (plain : ∀ unit rest, ¬ IsHigh unit → ¬ IsLow unit → motive rest → motive (unit :: rest))
    (pair : ∀ high low rest, IsHigh high → IsLow low → motive rest → motive (high :: low :: rest))
    (low : ∀ unit rest, IsLow unit → motive (unit :: rest))
    (high : ∀ unit rest, IsHigh unit → ¬ IsLow (rest.getD 0 0) → motive (unit :: rest)) :
    ∀ l, motive l
  | [] => nil
  | unit :: rest => by
      by_cases hlow : IsLow unit
      · exact low unit rest hlow
      by_cases hhigh : IsHigh unit
      · match rest with
        | [] => exact high unit [] hhigh (by decide)
        | next :: rest =>
            by_cases hnext : IsLow next
            · exact pair unit next rest hhigh hnext (pairs_induction nil plain pair low high rest)
            · exact high unit (next :: rest) hhigh hnext
      · exact plain unit rest hhigh hlow (pairs_induction nil plain pair low high rest)

theorem decode?_units_append (c : Char) (rest : List Nat) :
    decode? (units c ++ rest) = (decode? rest).map (c :: ·) := by
  have hvalid : c.toNat < 0xD800 ∨ 0xDFFF < c.toNat ∧ c.toNat < 0x110000 := c.valid
  rw [units]
  by_cases hplane : c.toNat < 0x10000
  · have hlow : ¬ IsLow c.toNat := by
      unfold IsLow
      omega
    have hhigh : ¬ IsHigh c.toNat := by
      unfold IsHigh
      omega
    rw [if_pos hplane, List.singleton_append, decode?_plain hhigh hlow, Char.ofNat_toNat]
  · have hhigh : IsHigh (0xD800 + (c.toNat - 0x10000) / 0x400) := by
      unfold IsHigh
      omega
    have hlow : IsLow (0xDC00 + (c.toNat - 0x10000) % 0x400) := by
      unfold IsLow
      omega
    have hpair : pairChar (0xD800 + (c.toNat - 0x10000) / 0x400)
        (0xDC00 + (c.toNat - 0x10000) % 0x400) = c := by
      have hvalue : 0x10000 + (0xD800 + (c.toNat - 0x10000) / 0x400 - 0xD800) * 0x400 +
          (0xDC00 + (c.toNat - 0x10000) % 0x400 - 0xDC00) = c.toNat := by
        omega
      rw [pairChar, hvalue, Char.ofNat_toNat]
    rw [if_neg hplane, List.cons_append, List.singleton_append, decode?_pair hhigh hlow, hpair]

theorem decode?_encode (text : List Char) : decode? (encode text) = some text := by
  unfold encode
  induction text with
  | nil => rfl
  | cons c text ih => rw [List.flatMap_cons, decode?_units_append, ih, Option.map_some]

theorem encode_injective : Function.Injective encode := by
  intro a b h
  have hdecode := congrArg decode? h
  rw [decode?_encode, decode?_encode] at hdecode
  exact Option.some.inj hdecode

theorem units_lt (c : Char) : ∀ unit ∈ units c, unit < 0x10000 := by
  have hvalid : c.toNat < 0xD800 ∨ 0xDFFF < c.toNat ∧ c.toNat < 0x110000 := c.valid
  intro unit hunit
  rw [units] at hunit
  split at hunit
  · rw [List.mem_singleton] at hunit
    omega
  · simp only [List.mem_cons, List.not_mem_nil, or_false] at hunit
    omega

theorem units_ofNat {unit : Nat} (hlt : unit < 0x10000) (hhigh : ¬ IsHigh unit)
    (hlow : ¬ IsLow unit) : units (Char.ofNat unit) = [unit] := by
  have hvalid : unit.isValidChar := by
    unfold IsHigh at hhigh
    unfold IsLow at hlow
    unfold Nat.isValidChar
    omega
  rw [units, Char.ofNat, dif_pos hvalid]
  exact if_pos hlt

theorem units_pairChar {high low : Nat} (hhigh : IsHigh high) (hlow : IsLow low) :
    units (pairChar high low) = [high, low] := by
  unfold IsHigh at hhigh
  unfold IsLow at hlow
  have hvalid : (0x10000 + (high - 0xD800) * 0x400 + (low - 0xDC00)).isValidChar := by
    unfold Nat.isValidChar
    omega
  have hscalar : (pairChar high low).toNat =
      0x10000 + (high - 0xD800) * 0x400 + (low - 0xDC00) := by
    rw [pairChar, Char.ofNat, dif_pos hvalid]
    rfl
  rw [units, hscalar, if_neg (by omega)]
  simp only [List.cons.injEq, and_true]
  omega

theorem encode_decode? {l : List Nat} (hlt : ∀ unit ∈ l, unit < 0x10000) :
    ∀ {text : List Char}, decode? l = some text → encode text = l := by
  induction l using pairs_induction with
  | nil =>
      intro text h
      obtain rfl := Option.some.inj h
      rfl
  | plain unit rest hhigh hlow ih =>
      intro text h
      rw [decode?_plain hhigh hlow, Option.map_eq_some_iff] at h
      obtain ⟨tail, htail, rfl⟩ := h
      have hrest := ih (fun u hu => hlt u (List.mem_cons_of_mem _ hu)) htail
      have hunit := units_ofNat (hlt unit List.mem_cons_self) hhigh hlow
      rw [encode, List.flatMap_cons, hunit, List.singleton_append, ← hrest]
      rfl
  | pair high low rest hhigh hlow ih =>
      intro text h
      rw [decode?_pair hhigh hlow, Option.map_eq_some_iff] at h
      obtain ⟨tail, htail, rfl⟩ := h
      have hrest := ih
        (fun u hu => hlt u (List.mem_cons_of_mem _ (List.mem_cons_of_mem _ hu))) htail
      rw [encode, List.flatMap_cons, units_pairChar hhigh hlow, ← hrest]
      rfl
  | low unit rest hlow =>
      intro text h
      simp [decode?.eq_def, hlow] at h
  | high unit rest hhigh hrest =>
      intro text h
      cases rest <;> simp_all [decode?.eq_def]

theorem not_surrogate_zero : ¬ IsHigh 0 ∧ ¬ IsLow 0 := by
  decide

theorem wellFormed_nil : WellFormed [] where
  high_followed _ h := absurd h not_surrogate_zero.1
  low_preceded _ h := absurd h not_surrogate_zero.2

theorem wellFormed_plain {unit : Nat} {rest : List Nat} (hhigh : ¬ IsHigh unit)
    (hlow : ¬ IsLow unit) : WellFormed (unit :: rest) ↔ WellFormed rest := by
  constructor
  · intro h
    refine ⟨fun i => h.high_followed (i + 1), ?_⟩
    intro i hi
    obtain ⟨j, hj, hprevious⟩ := h.low_preceded (i + 1) hi
    obtain rfl : i = j := by omega
    cases i with
    | zero => exact absurd hprevious hhigh
    | succ i => exact ⟨i, rfl, hprevious⟩
  · intro h
    constructor
    · intro i hi
      cases i with
      | zero => exact absurd hi hhigh
      | succ i => exact h.high_followed i hi
    · intro i hi
      cases i with
      | zero => exact absurd hi hlow
      | succ i =>
          obtain ⟨j, rfl, hj⟩ := h.low_preceded i hi
          exact ⟨j + 1, rfl, hj⟩

theorem wellFormed_pair {high low : Nat} {rest : List Nat} (hhigh : IsHigh high)
    (hlow : IsLow low) : WellFormed (high :: low :: rest) ↔ WellFormed rest := by
  have hlow' : ¬ IsHigh low := fun h => not_isLow_of_isHigh h hlow
  constructor
  · intro h
    refine ⟨fun i => h.high_followed (i + 2), ?_⟩
    intro i hi
    obtain ⟨j, hj, hprevious⟩ := h.low_preceded (i + 2) hi
    obtain rfl : j = i + 1 := by omega
    cases i with
    | zero => exact absurd hprevious hlow'
    | succ i => exact ⟨i, rfl, hprevious⟩
  · intro h
    constructor
    · intro i hi
      match i with
      | 0 => exact hlow
      | 1 => exact absurd hi hlow'
      | i + 2 => exact h.high_followed i hi
    · intro i hi
      match i with
      | 0 => exact absurd hi (not_isLow_of_isHigh hhigh)
      | 1 => exact ⟨0, rfl, hhigh⟩
      | i + 2 =>
          obtain ⟨j, rfl, hj⟩ := h.low_preceded i hi
          exact ⟨j + 2, rfl, hj⟩

theorem decode?_isSome_iff {l : List Nat} : (decode? l).isSome = true ↔ WellFormed l := by
  induction l using pairs_induction with
  | nil => exact iff_of_true rfl wellFormed_nil
  | plain unit rest hhigh hlow ih =>
      rw [decode?_plain hhigh hlow, wellFormed_plain hhigh hlow, ← ih, Option.isSome_map]
  | pair high low rest hhigh hlow ih =>
      rw [decode?_pair hhigh hlow, wellFormed_pair hhigh hlow, ← ih, Option.isSome_map]
  | low unit rest hlow =>
      apply iff_of_false
      · simp [decode?.eq_def, hlow]
      · intro h
        obtain ⟨j, hj, -⟩ := h.low_preceded 0 hlow
        contradiction
  | high unit rest hhigh hrest =>
      apply iff_of_false
      · cases rest <;> simp_all [decode?.eq_def]
      · intro h
        exact hrest (h.high_followed 0 hhigh)

end YohakuCore.Framework.Utf16
