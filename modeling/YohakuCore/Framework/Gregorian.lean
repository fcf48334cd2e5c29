import Mathlib.Algebra.BigOperators.Group.List.Basic
import Mathlib.Algebra.Order.Ring.Int
import Mathlib.Data.List.GetD
import Mathlib.Order.Monotone.Basic

/-! # The proleptic Gregorian calendar -/

namespace YohakuCore.Framework

/-- The block that holds a position, and the position in it. -/
def locate : List Nat → Nat → Nat × Nat
  | [], n => (0, n)
  | count :: counts, n =>
      if n < count then (0, n)
      else ((locate counts (n - count)).1 + 1, (locate counts (n - count)).2)

theorem locate_lt {counts : List Nat} {n : Nat} (h : n < counts.sum) :
    (locate counts n).1 < counts.length ∧ (locate counts n).2 < counts.getD (locate counts n).1 0 ∧
      (counts.take (locate counts n).1).sum + (locate counts n).2 = n := by
  induction counts generalizing n with
  | nil => simp at h
  | cons count counts ih =>
      rw [locate]
      by_cases hn : n < count
      · simp [hn]
      · have hrest : n - count < counts.sum := by
          rw [List.sum_cons] at h
          omega
        have hblock := ih hrest
        simp only [hn, if_false, List.length_cons, List.getD_cons_succ, List.take_succ_cons,
          List.sum_cons]
        omega

theorem locate_add {counts : List Nat} {i r : Nat} (hi : i < counts.length)
    (hr : r < counts.getD i 0) : locate counts ((counts.take i).sum + r) = (i, r) := by
  induction counts generalizing i with
  | nil => simp at hi
  | cons count counts ih =>
      rw [locate]
      cases i with
      | zero =>
          simp only [List.getD_cons_zero] at hr
          simp [hr]
      | succ i =>
          simp only [List.getD_cons_succ] at hr
          have hskip : ¬ count + (counts.take i).sum + r < count := by omega
          have hrest : count + (counts.take i).sum + r - count = (counts.take i).sum + r := by omega
          simp only [List.take_succ_cons, List.sum_cons, hskip, if_false, hrest,
            ih (by simpa using hi) hr]

theorem take_sum_add_lt {counts : List Nat} {i r : Nat} (hi : i < counts.length)
    (hr : r < counts.getD i 0) : (counts.take i).sum + r < counts.sum := by
  induction counts generalizing i with
  | nil => simp at hi
  | cons count counts ih =>
      cases i with
      | zero =>
          simp only [List.getD_cons_zero] at hr
          simp only [List.take_zero, List.sum_nil, List.sum_cons]
          omega
      | succ i =>
          have hrest := ih (by simpa using hi) (by simpa using hr)
          simp only [List.take_succ_cons, List.sum_cons]
          omega

namespace Gregorian

def isLeapYear (year : Int) : Bool :=
  year % 4 = 0 && (year % 100 ≠ 0 || year % 400 = 0)

def yearLength (year : Int) : Nat := if isLeapYear year then 366 else 365

/-- Days from the first day of the year zero. -/
def daysBeforeYear (year : Int) : Int :=
  365 * year + (year + 3) / 4 - (year + 99) / 100 + (year + 399) / 400

theorem daysBeforeYear_succ (year : Int) :
    daysBeforeYear (year + 1) = daysBeforeYear year + yearLength year := by
  have hleap : isLeapYear year = true ↔
      year % 4 = 0 ∧ (year % 100 ≠ 0 ∨ year % 400 = 0) := by
    simp [isLeapYear]
  rw [daysBeforeYear, daysBeforeYear, yearLength]
  by_cases h : isLeapYear year = true
  · rw [if_pos h]
    rw [hleap] at h
    omega
  · rw [if_neg h]
    rw [hleap] at h
    omega

theorem daysBeforeYear_mono {year year' : Int} (h : year ≤ year') :
    daysBeforeYear year ≤ daysBeforeYear year' := by
  have hmono : Monotone daysBeforeYear := by
    apply monotone_int_of_le_succ
    intro year
    rw [daysBeforeYear_succ]
    omega
  exact hmono h

def yearOfDay (n : Int) : Int :=
  let estimate := 400 * n / 146097
  if n < daysBeforeYear estimate then estimate - 1
  else if n < daysBeforeYear (estimate + 1) then estimate
  else estimate + 1

theorem yearOfDay_le (n : Int) : daysBeforeYear (yearOfDay n) ≤ n := by
  simp only [yearOfDay]
  split_ifs with hbefore hwithin
  · simp only [daysBeforeYear]
    omega
  · omega
  · omega

theorem lt_yearOfDay_succ (n : Int) : n < daysBeforeYear (yearOfDay n + 1) := by
  simp only [yearOfDay]
  split_ifs with hbefore hwithin
  · rwa [Int.sub_add_cancel]
  · exact hwithin
  · simp only [daysBeforeYear]
    omega

theorem yearOfDay_eq {year n : Int} (hle : daysBeforeYear year ≤ n)
    (hlt : n < daysBeforeYear (year + 1)) : yearOfDay n = year := by
  have hle' := yearOfDay_le n
  have hlt' := lt_yearOfDay_succ n
  rcases lt_trichotomy (yearOfDay n) year with h | h | h
  · have hmono : daysBeforeYear (yearOfDay n + 1) ≤ daysBeforeYear year := daysBeforeYear_mono h
    omega
  · exact h
  · have hmono : daysBeforeYear (year + 1) ≤ daysBeforeYear (yearOfDay n) := daysBeforeYear_mono h
    omega

def monthLengths (year : Int) : List Nat :=
  [31, if isLeapYear year then 29 else 28, 31, 30, 31, 30, 31, 31, 30, 31, 30, 31]

/-- The month and the day count from one. -/
@[ext]
structure Date where
  year : Int
  month : Nat
  day : Nat
  month_pos : 0 < month
  month_le : month ≤ 12
  day_pos : 0 < day
  day_le : day ≤ (monthLengths year).getD (month - 1) 0
  deriving DecidableEq

theorem monthLengths_sum (year : Int) : (monthLengths year).sum = yearLength year := by
  rw [monthLengths, yearLength]
  split <;> rfl

/-- The position of a day in its year. -/
def dayOfYear (n : Int) : Nat := (n - daysBeforeYear (yearOfDay n)).toNat

theorem dayOfYear_lt (n : Int) : dayOfYear n < (monthLengths (yearOfDay n)).sum := by
  have hle := yearOfDay_le n
  have hlt := lt_yearOfDay_succ n
  rw [daysBeforeYear_succ] at hlt
  rw [monthLengths_sum, dayOfYear]
  omega

theorem monthLengths_getD_le (year : Int) (i : Nat) : (monthLengths year).getD i 0 ≤ 31 := by
  have hle : ∀ count ∈ monthLengths year, count ≤ 31 := by
    simp only [monthLengths, List.forall_mem_cons]
    split <;> simp
  rcases lt_or_ge i (monthLengths year).length with hi | hi
  · rw [List.getD_eq_getElem _ _ hi]
    exact hle _ (List.getElem_mem hi)
  · rw [List.getD_eq_default _ _ hi]
    omega

namespace Date

/-- Days from the first day of 1970. -/
def dayNumber (d : Date) : Int :=
  daysBeforeYear d.year + ((monthLengths d.year).take (d.month - 1)).sum + (d.day - 1 : Nat) -
    719528

def ofDayNumber (n : Int) : Date where
  year := yearOfDay (n + 719528)
  month := (locate (monthLengths (yearOfDay (n + 719528))) (dayOfYear (n + 719528))).1 + 1
  day := (locate (monthLengths (yearOfDay (n + 719528))) (dayOfYear (n + 719528))).2 + 1
  month_pos := by omega
  month_le := (locate_lt (dayOfYear_lt (n + 719528))).1
  day_pos := by omega
  day_le := (locate_lt (dayOfYear_lt (n + 719528))).2.1

theorem dayNumber_ofDayNumber (n : Int) : (ofDayNumber n).dayNumber = n := by
  have hposition := (locate_lt (dayOfYear_lt (n + 719528))).2.2
  have hle := yearOfDay_le (n + 719528)
  simp only [dayNumber, ofDayNumber, Nat.add_sub_cancel]
  rw [dayOfYear] at hposition ⊢
  omega

private theorem month_lt (d : Date) : d.month - 1 < (monthLengths d.year).length := by
  have hle := d.month_le
  simp only [monthLengths, List.length_cons, List.length_nil]
  omega

private theorem day_lt (d : Date) : d.day - 1 < (monthLengths d.year).getD (d.month - 1) 0 := by
  have hpos := d.day_pos
  have hle := d.day_le
  omega

private theorem yearOfDay_dayNumber (d : Date) : yearOfDay (d.dayNumber + 719528) = d.year := by
  have hlt := take_sum_add_lt d.month_lt d.day_lt
  rw [monthLengths_sum] at hlt
  apply yearOfDay_eq
  · rw [dayNumber]
    omega
  · rw [dayNumber, daysBeforeYear_succ]
    omega

theorem ofDayNumber_dayNumber (d : Date) : ofDayNumber d.dayNumber = d := by
  have hday : dayOfYear (d.dayNumber + 719528) =
      ((monthLengths d.year).take (d.month - 1)).sum + (d.day - 1) := by
    rw [dayOfYear, d.yearOfDay_dayNumber, dayNumber]
    omega
  have hmonth := d.month_pos
  have hpos := d.day_pos
  ext
  · exact d.yearOfDay_dayNumber
  · simp only [ofDayNumber, d.yearOfDay_dayNumber, hday, locate_add d.month_lt d.day_lt]
    omega
  · simp only [ofDayNumber, d.yearOfDay_dayNumber, hday, locate_add d.month_lt d.day_lt]
    omega

end Date

@[ext]
structure DateTime where
  date : Date
  hour : Nat
  minute : Nat
  second : Nat
  millisecond : Nat
  hour_lt : hour < 24
  minute_lt : minute < 60
  second_lt : second < 60
  millisecond_lt : millisecond < 1000
  deriving DecidableEq

namespace DateTime

/-- Milliseconds from the first instant of 1970. -/
def epochMs (d : DateTime) : Int :=
  d.date.dayNumber * 86400000 +
    (((d.hour * 60 + d.minute) * 60 + d.second) * 1000 + d.millisecond : Nat)

def ofEpochMs (t : Int) : DateTime where
  date := .ofDayNumber (t / 86400000)
  hour := (t % 86400000).toNat / 3600000
  minute := (t % 86400000).toNat / 60000 % 60
  second := (t % 86400000).toNat / 1000 % 60
  millisecond := (t % 86400000).toNat % 1000
  hour_lt := by omega
  minute_lt := by omega
  second_lt := by omega
  millisecond_lt := by omega

theorem epochMs_ofEpochMs (t : Int) : (ofEpochMs t).epochMs = t := by
  simp only [epochMs, ofEpochMs, Date.dayNumber_ofDayNumber]
  omega

theorem ofEpochMs_epochMs (d : DateTime) : ofEpochMs d.epochMs = d := by
  have hhour := d.hour_lt
  have hminute := d.minute_lt
  have hsecond := d.second_lt
  have hmillisecond := d.millisecond_lt
  have hdate : d.epochMs / 86400000 = d.date.dayNumber := by
    rw [epochMs]
    omega
  have htime : (d.epochMs % 86400000).toNat =
      ((d.hour * 60 + d.minute) * 60 + d.second) * 1000 + d.millisecond := by
    rw [epochMs]
    omega
  apply DateTime.ext
  · rw [ofEpochMs, hdate, Date.ofDayNumber_dayNumber]
  all_goals
    simp only [ofEpochMs, htime]
    omega

end DateTime

end Gregorian

end YohakuCore.Framework
