import Mathlib.Data.Nat.Basic
import YohakuCore.Framework.SemVer

/-! # Precedence of versions -/

namespace YohakuCore.Framework.SemVer

open Std

def number (l : List Char) : Nat := Nat.ofDigitChars 10 l 0

theorem digitChar_of_isDigit {c : Char} (h : isDigit c = true) :
    c.toNat - '0'.toNat < 10 ∧ Nat.digitChar (c.toNat - '0'.toNat) = c := by
  have h0 : '0'.toNat = 48 := rfl
  have h9 : '9'.toNat = 57 := rfl
  simp only [isDigit, Bool.and_eq_true, decide_eq_true_eq, Char.le_def,
    UInt32.le_iff_toNat_le] at h
  change '0'.toNat ≤ c.toNat ∧ c.toNat ≤ '9'.toNat at h
  have hlt : c.toNat - '0'.toNat < 10 := by omega
  refine ⟨hlt, ?_⟩
  apply Char.toNat_inj.mp
  rw [Nat.toNat_digitChar_of_lt_ten hlt]
  omega

theorem toDigits_ofDigitChars {l : List Char} (h : l.all isDigit = true) {n : Nat} (hn : 0 < n) :
    Nat.toDigits 10 (Nat.ofDigitChars 10 l n) = Nat.toDigits 10 n ++ l := by
  induction l generalizing n with
  | nil => simp
  | cons c l ih =>
      simp only [List.all_cons, Bool.and_eq_true] at h
      obtain ⟨hlt, hchar⟩ := digitChar_of_isDigit h.1
      rw [Nat.ofDigitChars_cons, ih h.2 (by omega),
        ← Nat.toDigits_append_toDigits (by decide) hn hlt, Nat.toDigits_of_lt_base hlt, hchar]
      simp

theorem toDigits_number {l : List Char} (h : NumericIdentifier l) :
    Nat.toDigits 10 (number l) = l := by
  rcases numericIdentifier_iff.mp h with rfl | ⟨hne, hall, hhead⟩
  · decide
  · cases l with
    | nil => simp at hne
    | cons c l =>
        simp only [List.all_cons, Bool.and_eq_true, List.head?_cons, ne_eq,
          Option.some.injEq] at hall hhead
        obtain ⟨hlt, hchar⟩ := digitChar_of_isDigit hall.1
        have hpos : 0 < c.toNat - '0'.toNat := by
          by_contra hzero
          have hzero : c.toNat - '0'.toNat = 0 := by omega
          rw [hzero] at hchar
          exact hhead hchar.symm
        rw [number, Nat.ofDigitChars_cons, Nat.mul_zero, Nat.zero_add,
          toDigits_ofDigitChars hall.2 hpos, Nat.toDigits_of_lt_base hlt, hchar]
        rfl

theorem number_inj {l m : List Char} (hl : NumericIdentifier l) (hm : NumericIdentifier m)
    (h : number l = number m) : l = m := by
  rw [← toDigits_number hl, h, toDigits_number hm]

inductive Identifier where
  | numeric (value : Nat)
  | textual (text : List Char)
  deriving DecidableEq

namespace Identifier

def read (l : List Char) : Identifier := if l.all isDigit then numeric (number l) else textual l

instance : Ord Identifier where
  compare
    | numeric m, numeric n => compare m n
    | numeric _, textual _ => .lt
    | textual _, numeric _ => .gt
    | textual s, textual t => compare s t

@[simp] theorem compare_numeric (m n : Nat) :
    compare (numeric m) (numeric n) = compare m n := rfl

@[simp] theorem compare_numeric_textual (m : Nat) (t : List Char) :
    compare (numeric m) (textual t) = .lt := rfl

@[simp] theorem compare_textual_numeric (s : List Char) (n : Nat) :
    compare (textual s) (numeric n) = .gt := rfl

@[simp] theorem compare_textual (s t : List Char) :
    compare (textual s) (textual t) = compare s t := rfl

instance : TransOrd Identifier where
  eq_swap {a b} := by
    cases a with
    | numeric m =>
        cases b with
        | numeric n => exact OrientedOrd.eq_swap (a := m)
        | textual t => rfl
    | textual s =>
        cases b with
        | numeric n => rfl
        | textual t => exact OrientedOrd.eq_swap (a := s)
  isLE_trans {a b c} hab hbc := by
    cases a with
    | numeric m =>
        cases c with
        | textual t => rfl
        | numeric n =>
            cases b with
            | numeric k => exact TransOrd.isLE_trans (b := k) hab hbc
            | textual k => simp at hbc
    | textual s =>
        cases b with
        | numeric k => simp at hab
        | textual k =>
            cases c with
            | numeric n => simp at hbc
            | textual t => exact TransOrd.isLE_trans (b := k) hab hbc

instance : LawfulEqOrd Identifier where
  eq_of_compare {a b} h := by
    cases a <;> cases b <;> simp_all

theorem read_inj {l m : List Char} (hl : PrereleaseIdentifier l) (hm : PrereleaseIdentifier m)
    (h : read l = read m) : l = m := by
  have hnumeric {l : List Char} (hl : PrereleaseIdentifier l) :=
    (prereleaseIdentifier_iff.mp hl).2.2
  rw [read, read] at h
  split at h
  · rename_i hdigits
    split at h
    · rename_i hdigits'
      exact number_inj (hnumeric hl hdigits) (hnumeric hm hdigits') (by simpa using h)
    · simp at h
  · split at h
    · simp at h
    · simpa using h

end Identifier

structure Version where
  major : Nat
  minor : Nat
  patch : Nat
  prerelease : List Identifier
  deriving DecidableEq

def Parts.version (p : Parts) : Version where
  major := number p.major
  minor := number p.minor
  patch := number p.patch
  prerelease := p.prerelease.map Identifier.read

/-- Two prereleases, where none is the release. -/
def precedenceOfPrerelease (p q : List Identifier) : Ordering :=
  (compare p.isEmpty q.isEmpty).then (compare p q)

def precedence (v w : Version) : Ordering :=
  (compare v.major w.major).then ((compare v.minor w.minor).then
    ((compare v.patch w.patch).then (precedenceOfPrerelease v.prerelease w.prerelease)))

instance : TransCmp precedence :=
  inferInstanceAs (TransCmp (compareLex (compareOn Version.major)
    (compareLex (compareOn Version.minor) (compareLex (compareOn Version.patch)
      (compareLex (compareOn (·.prerelease.isEmpty)) (compareOn Version.prerelease))))))

instance : LawfulEqCmp precedence where
  eq_of_compare {v w} h := by
    simp only [precedence, precedenceOfPrerelease, Ordering.then_eq_eq, Std.compare_eq_iff_eq] at h
    obtain ⟨major, minor, patch, prerelease⟩ := v
    obtain ⟨major', minor', patch', prerelease'⟩ := w
    simp only at h
    rw [h.1, h.2.1, h.2.2.1, h.2.2.2.2]

theorem map_read_inj {ids ids' : List (List Char)} (h : ∀ l ∈ ids, PrereleaseIdentifier l)
    (h' : ∀ l ∈ ids', PrereleaseIdentifier l)
    (hread : ids.map Identifier.read = ids'.map Identifier.read) : ids = ids' := by
  induction ids generalizing ids' with
  | nil => simpa [eq_comm] using hread
  | cons l ids ih =>
      cases ids' with
      | nil => simp at hread
      | cons m ids' =>
          simp only [List.mem_cons, forall_eq_or_imp] at h h'
          simp only [List.map_cons, List.cons.injEq] at hread
          rw [Identifier.read_inj h.1 h'.1 hread.1, ih h.2 h'.2 hread.2]

theorem version_eq_iff {p q : Parts} {s t : List Char} (hp : Derives p s) (hq : Derives q t) :
    p.version = q.version ↔ { p with build := [] } = { q with build := [] } := by
  obtain ⟨⟨hmajor, hminor, hpatch⟩, hids⟩ := hp.identifiers
  obtain ⟨⟨hmajor', hminor', hpatch'⟩, hids'⟩ := hq.identifiers
  simp only [Parts.version, Version.mk.injEq, Parts.mk.injEq, and_true]
  constructor
  · rintro ⟨h₁, h₂, h₃, hread⟩
    exact ⟨number_inj hmajor hmajor' h₁, number_inj hminor hminor' h₂,
      number_inj hpatch hpatch' h₃, map_read_inj hids hids' hread⟩
  · rintro ⟨h₁, h₂, h₃, hids⟩
    simp [h₁, h₂, h₃, hids]

section

variable {α : Type*} [Ord α] [LawfulEqOrd α] [DecidableEq α]

/-- Where the lists differ first, the map keeps the two apart, or what follows decides as they
do. -/
def OrderKept (f : α → α) : List α → List α → Prop
  | x :: xs, y :: ys =>
      if x = y then OrderKept f xs ys
      else f x = f y → compare (xs.map f) (ys.map f) = compare x y
  | _, _ => True

/-- A map that keeps the order of any two elements that it keeps apart keeps the order of exactly
these lists. -/
theorem compare_map_eq_iff {f : α → α}
    (hf : ∀ x y, f x ≠ f y → compare (f x) (f y) = compare x y) (xs ys : List α) :
    compare (xs.map f) (ys.map f) = compare xs ys ↔ OrderKept f xs ys := by
  induction xs generalizing ys with
  | nil => cases ys <;> simp [OrderKept]
  | cons x xs ih =>
      cases ys with
      | nil => simp [OrderKept]
      | cons y ys =>
          simp only [List.map_cons, List.compare_cons_cons, OrderKept]
          by_cases hxy : x = y
          · simp [hxy, ih]
          · have hne : compare x y ≠ .eq := fun h => hxy (Std.compare_eq_iff_eq.mp h)
            have hthen : (compare x y).then (compare xs ys) = compare x y := by
              cases hcompare : compare x y <;> simp_all
            rw [if_neg hxy, hthen]
            by_cases himage : f x = f y
            · simp [himage]
            · rw [hf x y himage, iff_true_right (fun h => absurd h himage)]
              cases hcompare : compare x y <;> simp_all

end

/-- A number from `cap` on counts as `cap`. -/
def Identifier.saturate (cap : Nat) : Identifier → Identifier
  | numeric n => numeric (min n cap)
  | textual t => textual t

theorem Identifier.compare_saturate {cap : Nat} {a b : Identifier}
    (h : a.saturate cap ≠ b.saturate cap) :
    compare (a.saturate cap) (b.saturate cap) = compare a b := by
  cases a with
  | numeric m =>
      cases b with
      | textual t => rfl
      | numeric n =>
          simp only [saturate, ne_eq, numeric.injEq, compare_numeric] at h ⊢
          rcases Nat.lt_or_ge m n with hlt | hge
          · rw [Nat.compare_eq_lt.mpr hlt, Nat.compare_eq_lt.mpr (by omega)]
          · rw [Nat.compare_eq_gt.mpr (by omega), Nat.compare_eq_gt.mpr (by omega)]
  | textual s => cases b <;> rfl

def Version.saturate (cap : Nat) (v : Version) : Version :=
  { v with prerelease := v.prerelease.map (Identifier.saturate cap) }

/-- Saturated numbers leave the precedence as it is exactly when the prereleases of one core keep
their order. -/
theorem precedence_saturate_iff {cap : Nat} {v w : Version} :
    precedence (v.saturate cap) (w.saturate cap) = precedence v w ↔
      (v.major = w.major → v.minor = w.minor → v.patch = w.patch →
        OrderKept (Identifier.saturate cap) v.prerelease w.prerelease) := by
  have hlists := compare_map_eq_iff (f := Identifier.saturate cap)
    (fun a b h => Identifier.compare_saturate h) v.prerelease w.prerelease
  have hthen {a : Ordering} {b c : Ordering} : a.then b = a.then c ↔ (a = .eq → b = c) := by
    cases a <;> simp
  simp only [precedence, precedenceOfPrerelease, Version.saturate, hthen, List.isEmpty_map,
    Std.compare_eq_iff_eq, hlists]
  refine ⟨fun h hmajor hminor hpatch => ?_, fun h hmajor hminor hpatch _ => h hmajor hminor hpatch⟩
  by_cases hempty : v.prerelease.isEmpty = w.prerelease.isEmpty
  · exact h hmajor hminor hpatch hempty
  · cases hv : v.prerelease with
    | nil => trivial
    | cons a as =>
        cases hw : w.prerelease with
        | nil => trivial
        | cons b bs => simp [hv, hw] at hempty

end YohakuCore.Framework.SemVer
