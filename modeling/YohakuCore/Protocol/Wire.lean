import Mathlib.Algebra.Order.Floor.Defs
import Mathlib.Data.Rat.Floor
import YohakuCore.Model

/-!
# Wire primitives

Dates, identifiers and integers of the protocol. A value that is not in its one canonical form is
an error and is never repaired. Calendar arithmetic comes from the `chrono` crate and the rounding
and printing of an `f64` from the standard library: they are parameters.
-/

namespace YohakuCore

def presenceSchema : String := "yohaku.companion.presence"
def presenceSchemaVersion : Nat := 2

/-- A protocol error, never repaired. -/
structure WireError where
  message : String
  deriving DecidableEq

/-- Epoch milliseconds as `YYYY-MM-DDTHH:MM:SS.mmmZ` and back, as `chrono` formats and parses. -/
structure Calendar where
  format : Int → Option String
  parse : String → Option Int

/-- The `f64` nearest to a number, and how an `f64` is printed. -/
structure Floats where
  round : ℚ → F64
  display : F64 → String

/-- The first instant of the epoch. -/
def Calendar.epoch : Calendar where
  format epochMs := if epochMs = 0 then some "1970-01-01T00:00:00.000Z" else none
  parse value := if value = "1970-01-01T00:00:00.000Z" then some 0 else none

/-- Numbers that an `f64` holds exactly, printed without a fraction. -/
def Floats.integral : Floats where
  round := .finite
  display
    | .finite value => toString value.num
    | .nan => "NaN"
    | .posInf => "inf"
    | .negInf => "-inf"

def isAsciiDigit (c : Char) : Bool := '0' ≤ c && c ≤ '9'

/-- `^\d{4}-\d{2}-\d{2}T\d{2}:\d{2}:\d{2}\.\d{3}Z$` -/
def matchesRfc3339MsUtc (value : String) : Bool :=
  value.toList.length = 24 &&
    value.toList.zipIdx.all (fun (c, i) =>
      match i with
      | 4 | 7 => c = '-'
      | 10 => c = 'T'
      | 13 | 16 => c = ':'
      | 19 => c = '.'
      | 23 => c = 'Z'
      | _ => isAsciiDigit c)

variable (calendar : Calendar) (floats : Floats)

/-- Years outside 0000 to 9999 do not have the canonical shape. -/
def encodeWireDate (epochMs : Int) : Except WireError String :=
  match calendar.format epochMs with
  | none => .error ⟨"non-canonical date: " ++ toString epochMs⟩
  | some encoded =>
      if matchesRfc3339MsUtc encoded then .ok encoded
      else .error ⟨"non-canonical date: " ++ encoded⟩

def decodeWireDate (value : String) : Except WireError Int :=
  if ¬ matchesRfc3339MsUtc value then .error ⟨"invalid wire date: " ++ value⟩
  else
    match calendar.parse value with
    | none => .error ⟨"unparseable wire date: " ++ value⟩
    | some parsed =>
        if encodeWireDate calendar parsed = .ok value then .ok parsed
        else .error ⟨"non-canonical wire date: " ++ value⟩

theorem encodeWireDate_of_decode {value : String} {epochMs : Int}
    (h : decodeWireDate calendar value = .ok epochMs) :
    encodeWireDate calendar epochMs = .ok value := by
  simp only [decodeWireDate] at h
  split at h
  · contradiction
  · split at h
    · contradiction
    · split at h
      · rename_i parsed _ hencoded
        obtain rfl := Except.ok.inj h
        exact hencoded
      · contradiction

def isAsciiHexDigit (c : Char) : Bool :=
  isAsciiDigit c || ('a' ≤ c && c ≤ 'f') || ('A' ≤ c && c ≤ 'F')

/-- Five groups of hexadecimal digits of any case, with no constraint on version or variant. -/
def isUuid (value : String) : Bool :=
  value.toList.length = 36 &&
    value.toList.zipIdx.all (fun (c, i) =>
      match i with
      | 8 | 13 | 18 | 23 => c = '-'
      | _ => isAsciiHexDigit c)

/-- Twenty-six characters of the uppercase Crockford alphabet. -/
def isUlid (value : String) : Bool :=
  value.toList.length = 26 &&
    value.toList.all (fun c => isAsciiDigit c || ('A' ≤ c && c ≤ 'H') || c = 'J' || c = 'K' ||
      c = 'M' || c = 'N' || ('P' ≤ c && c ≤ 'T') || ('V' ≤ c && c ≤ 'Z'))

def isValidWireIdentifier (value : String) : Bool := isUuid value || isUlid value

theorem isAlphanum_iff (c : Char) : c.isAlphanum = true ↔
    'A' ≤ c ∧ c ≤ 'Z' ∨ 'a' ≤ c ∧ c ≤ 'z' ∨ '0' ≤ c ∧ c ≤ '9' := by
  have hdef : c.isAlphanum = ((decide ('A' ≤ c ∧ c ≤ 'Z') || ('a' ≤ c && c ≤ 'z')) ||
      ('0' ≤ c && c ≤ '9')) := rfl
  simp only [hdef, Bool.or_eq_true, Bool.and_eq_true, decide_eq_true_eq, or_assoc]

theorem isValidWireIdentifier_chars {value : String} (h : isValidWireIdentifier value = true) :
    ∀ c ∈ value.toList, c = '-' ∨ c.isAlphanum = true := by
  intro c hmem
  simp only [isValidWireIdentifier, Bool.or_eq_true, isUuid, isUlid, Bool.and_eq_true,
    List.all_eq_true] at h
  rw [isAlphanum_iff]
  rcases h with ⟨-, h⟩ | ⟨-, h⟩
  · obtain ⟨i, hi, hget⟩ := List.getElem_of_mem hmem
    have hindexed : (c, i) ∈ value.toList.zipIdx := by
      rw [List.mk_mem_zipIdx_iff_getElem?, List.getElem?_eq_getElem hi, hget]
    have hchar : c = '-' ∨ isAsciiHexDigit c = true := by
      have hfits := h (c, i) hindexed
      simp only at hfits
      split at hfits <;> simp_all
    apply hchar.imp_right
    simp only [isAsciiHexDigit, isAsciiDigit, Bool.or_eq_true, Bool.and_eq_true,
      decide_eq_true_eq, Char.le_def]
    grind
  · have hchar := h c hmem
    simp only [isAsciiDigit, Bool.and_eq_true, decide_eq_true_eq] at hchar
    right
    rcases hchar with ((((((hdigit | hlow) | rfl) | rfl) | rfl) | rfl) | hmiddle) | hhigh
    · exact Or.inr (Or.inr hdigit)
    · exact Or.inl ⟨hlow.1, Char.le_trans hlow.2 (show 'H' ≤ 'Z' by decide)⟩
    · decide
    · decide
    · decide
    · decide
    · exact Or.inl ⟨Char.le_trans (show 'A' ≤ 'P' by decide) hmiddle.1,
        Char.le_trans hmiddle.2 (show 'T' ≤ 'Z' by decide)⟩
    · exact Or.inl ⟨Char.le_trans (show 'A' ≤ 'V' by decide) hhigh.1, hhigh.2⟩

theorem isValidWireIdentifier_lengths {value : String} (h : isValidWireIdentifier value = true) :
    value.toList.length = 36 ∨ value.toList.length = 26 := by
  simp only [isValidWireIdentifier, Bool.or_eq_true, isUuid, isUlid, Bool.and_eq_true,
    decide_eq_true_eq] at h
  exact h.imp And.left And.left

/-- `f64::round`, half away from zero. -/
def roundHalfAway : F64 → F64
  | .finite value => .finite (if 0 ≤ value then ⌊value + 1 / 2⌋ else ⌈value - 1 / 2⌉ : Int)
  | value => value

def requireWireInteger (value : F64) (field : String) : Except WireError UInt64 :=
  let outOfRange : Except WireError UInt64 :=
    .error ⟨"integer out of wire range for " ++ field ++ ": " ++ floats.display value⟩
  match value with
  | .finite v =>
      if v.den = 1 ∧ 0 ≤ v ∧ v ≤ maximumSafeWireInteger.toNat then
        .ok (UInt64.ofNat v.num.toNat)
      else outOfRange
  | _ => outOfRange

/-- The seconds of a sanitized snapshot are finite and not negative, which the source checks
first. -/
def secondsToWireMilliseconds (seconds : ℚ≥0) (field : String) : Except WireError UInt64 :=
  requireWireInteger floats (roundHalfAway (floats.round (seconds * 1000))) field

end YohakuCore
