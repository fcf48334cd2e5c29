import YohakuCore.Framework.Gregorian
import YohakuCore.Protocol.Wire

/-! # Wire dates -/

namespace YohakuCore

open Framework Gregorian

/-- The last decimal digit of a number. -/
def digitChar (n : Nat) : Char := Char.ofNat (48 + n % 10)

theorem isAsciiDigit_digitChar (n : Nat) : isAsciiDigit (digitChar n) = true := by
  have hdigits : ∀ m < 10, isAsciiDigit (Char.ofNat (48 + m)) = true := by decide
  exact hdigits (n % 10) (Nat.mod_lt n (by decide))

def IsWireYear (year : Int) : Prop := 0 ≤ year ∧ year ≤ 9999

instance (year : Int) : Decidable (IsWireYear year) :=
  inferInstanceAs (Decidable (0 ≤ year ∧ year ≤ 9999))

/-- `-%m-%dT%H:%M:%S%.3fZ` -/
def dateTimeChars (d : DateTime) : List Char :=
  ['-', digitChar (d.date.month / 10), digitChar d.date.month,
    '-', digitChar (d.date.day / 10), digitChar d.date.day,
    'T', digitChar (d.hour / 10), digitChar d.hour,
    ':', digitChar (d.minute / 10), digitChar d.minute,
    ':', digitChar (d.second / 10), digitChar d.second,
    '.', digitChar (d.millisecond / 100), digitChar (d.millisecond / 10), digitChar d.millisecond,
    'Z']

/-- A year of four digits. -/
def yearChars (year : Nat) : List Char :=
  [digitChar (year / 1000), digitChar (year / 100), digitChar (year / 10), digitChar year]

def wireDateText (d : DateTime) : String :=
  String.ofList (yearChars d.date.year.toNat ++ dateTimeChars d)

theorem matchesRfc3339MsUtc_wireDateText (d : DateTime) :
    matchesRfc3339MsUtc (wireDateText d) = true := by
  simp [matchesRfc3339MsUtc, wireDateText, yearChars, dateTimeChars, isAsciiDigit_digitChar]

theorem matchesRfc3339MsUtc_head {text : String} (h : matchesRfc3339MsUtc text = true) :
    ∃ c rest, text.toList = c :: rest ∧ isAsciiDigit c = true := by
  rw [matchesRfc3339MsUtc, Bool.and_eq_true, decide_eq_true_eq, List.all_eq_true] at h
  cases htext : text.toList with
  | nil => simp [htext] at h
  | cons c rest =>
      refine ⟨c, rest, rfl, ?_⟩
      exact h.2 (c, 0) (by simp [htext])

/-- What the crate documents: a year from 0 to 9999 is formatted with four digits and any other one
with a sign, and a date-time that is formatted so is parsed. -/
structure Calendar.Documented (calendar : Calendar) : Prop where
  format_wire : ∀ d : DateTime, IsWireYear d.date.year →
    calendar.format d.epochMs = some (wireDateText d)
  format_signed : ∀ (d : DateTime) (text : String), ¬ IsWireYear d.date.year →
    calendar.format d.epochMs = some text →
      text.toList.head? = some '+' ∨ text.toList.head? = some '-'
  parse_wire : ∀ d : DateTime, IsWireYear d.date.year →
    calendar.parse (wireDateText d) = some d.epochMs

variable {calendar : Calendar}

theorem encodeWireDate_wire (hcalendar : calendar.Documented) {d : DateTime}
    (hyear : IsWireYear d.date.year) :
    encodeWireDate calendar d.epochMs = .ok (wireDateText d) := by
  rw [encodeWireDate, hcalendar.format_wire d hyear]
  simp only [matchesRfc3339MsUtc_wireDateText, if_true]

theorem encodeWireDate_signed (hcalendar : calendar.Documented) {d : DateTime}
    (hyear : ¬ IsWireYear d.date.year) :
    ∃ error, encodeWireDate calendar d.epochMs = .error error := by
  rw [encodeWireDate]
  cases hformat : calendar.format d.epochMs with
  | none => exact ⟨_, rfl⟩
  | some text =>
      have hsigned := hcalendar.format_signed d text hyear hformat
      cases hmatch : matchesRfc3339MsUtc text with
      | false => simp [hmatch]
      | true =>
          obtain ⟨c, rest, htext, hdigit⟩ := matchesRfc3339MsUtc_head hmatch
          rw [htext, List.head?_cons, Option.some.injEq, Option.some.injEq] at hsigned
          rcases hsigned with rfl | rfl <;> exact absurd hdigit (by decide)

theorem decodeWireDate_wire (hcalendar : calendar.Documented) {d : DateTime}
    (hyear : IsWireYear d.date.year) :
    decodeWireDate calendar (wireDateText d) = .ok d.epochMs := by
  rw [decodeWireDate, matchesRfc3339MsUtc_wireDateText, hcalendar.parse_wire d hyear]
  simp [encodeWireDate_wire hcalendar hyear]

theorem wireDateText_of_decode (hcalendar : calendar.Documented) {text : String} {t : Int}
    (h : decodeWireDate calendar text = .ok t) :
    IsWireYear (DateTime.ofEpochMs t).date.year ∧ wireDateText (.ofEpochMs t) = text := by
  have hencoded := encodeWireDate_of_decode calendar h
  rw [← DateTime.epochMs_ofEpochMs t] at hencoded
  by_cases hyear : IsWireYear (DateTime.ofEpochMs t).date.year
  · rw [encodeWireDate_wire hcalendar hyear] at hencoded
    exact ⟨hyear, Except.ok.inj hencoded⟩
  · obtain ⟨error, herror⟩ := encodeWireDate_signed hcalendar hyear
    rw [herror] at hencoded
    contradiction

/-- Encoding and decoding are inverse to each other between the instants of the years 0 to 9999 and
the texts of their date-times; every other instant and every other text is an error. -/
theorem wire_dates_bijective (hcalendar : calendar.Documented) :
    (∀ t : Int, IsWireYear (DateTime.ofEpochMs t).date.year →
      ∃ text, encodeWireDate calendar t = .ok text ∧ decodeWireDate calendar text = .ok t) ∧
    (∀ t : Int, ¬ IsWireYear (DateTime.ofEpochMs t).date.year →
      ∃ error, encodeWireDate calendar t = .error error) ∧
    (∀ text t, decodeWireDate calendar text = .ok t → encodeWireDate calendar t = .ok text) ∧
    ∀ text, (¬ ∃ d : DateTime, IsWireYear d.date.year ∧ wireDateText d = text) →
      ∃ error, decodeWireDate calendar text = .error error := by
  refine ⟨?_, ?_, fun text t => encodeWireDate_of_decode calendar, ?_⟩
  · intro t hyear
    have hencoded := encodeWireDate_wire hcalendar hyear
    have hdecoded := decodeWireDate_wire hcalendar hyear
    rw [DateTime.epochMs_ofEpochMs] at hencoded hdecoded
    exact ⟨_, hencoded, hdecoded⟩
  · intro t hyear
    have herror := encodeWireDate_signed hcalendar hyear
    rwa [DateTime.epochMs_ofEpochMs] at herror
  · intro text hnone
    cases hdecoded : decodeWireDate calendar text with
    | error error => exact ⟨error, rfl⟩
    | ok t => exact absurd ⟨_, wireDateText_of_decode hcalendar hdecoded⟩ hnone

/-- The years that the crate can hold. -/
def IsCrateYear (year : Int) : Prop := -262143 ≤ year ∧ year ≤ 262142

instance (year : Int) : Decidable (IsCrateYear year) :=
  inferInstanceAs (Decidable (-262143 ≤ year ∧ year ≤ 262142))

/-- A year that needs a sign, with four digits or more. -/
def signedYearChars (year : Int) : List Char :=
  let digits := (toString year.natAbs).toList
  (if year < 0 then '-' else '+') :: (List.replicate (4 - digits.length) '0' ++ digits)

def readDigits (chars : List Char) : Nat :=
  chars.foldl (fun n c => 10 * n + (c.toNat - 48)) 0

/-- The number in the columns of a text. -/
def readColumns (text : String) (start width : Nat) : Nat :=
  readDigits ((text.toList.drop start).take width)

/-- The dates that a text of the canonical shape names; a second 60 is a leap second. -/
def readWireDate (text : String) : Option Int :=
  let year : Int := readColumns text 0 4
  let month := readColumns text 5 2
  let day := readColumns text 8 2
  let hour := readColumns text 11 2
  let minute := readColumns text 14 2
  let second := readColumns text 17 2
  if h : (0 < month ∧ month ≤ 12) ∧ 0 < day ∧ day ≤ (monthLengths year).getD (month - 1) 0 then
    if hour < 24 ∧ minute < 60 ∧ second ≤ 60 then
      some ((Date.mk year month day h.1.1 h.1.2 h.2.1 h.2.2).dayNumber * 86400000 +
        (((hour * 60 + minute) * 60 + second) * 1000 + readColumns text 20 3 : Nat))
    else none
  else none

def Calendar.gregorian : Calendar where
  format t :=
    let d := DateTime.ofEpochMs t
    if IsWireYear d.date.year then some (wireDateText d)
    else if IsCrateYear d.date.year then
      some (String.ofList (signedYearChars d.date.year ++ dateTimeChars d))
    else none
  parse text := if matchesRfc3339MsUtc text then readWireDate text else none

example : Calendar.gregorian.format 1753500012345 = some "2025-07-26T03:20:12.345Z" := by
  decide +kernel

theorem digitChar_value (n : Nat) : (digitChar n).toNat - 48 = n % 10 := by
  have hdigits : ∀ m < 10, (Char.ofNat (48 + m)).toNat - 48 = m := by decide
  exact hdigits (n % 10) (Nat.mod_lt n (by decide))

theorem readDigits_two {n : Nat} (h : n < 100) :
    readDigits [digitChar (n / 10), digitChar n] = n := by
  simp only [readDigits, List.foldl_cons, List.foldl_nil, digitChar_value]
  omega

theorem readDigits_three {n : Nat} (h : n < 1000) :
    readDigits [digitChar (n / 100), digitChar (n / 10), digitChar n] = n := by
  simp only [readDigits, List.foldl_cons, List.foldl_nil, digitChar_value]
  omega

theorem readDigits_yearChars {n : Nat} (h : n < 10000) : readDigits (yearChars n) = n := by
  simp only [readDigits, yearChars, List.foldl_cons, List.foldl_nil, digitChar_value]
  omega

private theorem readColumns_wireDateText (d : DateTime) :
    readColumns (wireDateText d) 0 4 = readDigits (yearChars d.date.year.toNat) ∧
    readColumns (wireDateText d) 5 2 =
      readDigits [digitChar (d.date.month / 10), digitChar d.date.month] ∧
    readColumns (wireDateText d) 8 2 =
      readDigits [digitChar (d.date.day / 10), digitChar d.date.day] ∧
    readColumns (wireDateText d) 11 2 = readDigits [digitChar (d.hour / 10), digitChar d.hour] ∧
    readColumns (wireDateText d) 14 2 =
      readDigits [digitChar (d.minute / 10), digitChar d.minute] ∧
    readColumns (wireDateText d) 17 2 =
      readDigits [digitChar (d.second / 10), digitChar d.second] ∧
    readColumns (wireDateText d) 20 3 = readDigits [digitChar (d.millisecond / 100),
      digitChar (d.millisecond / 10), digitChar d.millisecond] := by
  simp [readColumns, wireDateText, yearChars, dateTimeChars]

theorem readWireDate_wireDateText {d : DateTime} (hyear : IsWireYear d.date.year) :
    readWireDate (wireDateText d) = some d.epochMs := by
  obtain ⟨hyears, hmonths, hdays, hhours, hminutes, hseconds, hmilliseconds⟩ :=
    readColumns_wireDateText d
  have hmonth := d.date.month_le
  have hday := d.date.day_le
  have hmax := monthLengths_getD_le d.date.year (d.date.month - 1)
  have hhour := d.hour_lt
  have hminute := d.minute_lt
  have hsecond := d.second_lt
  have hmillisecond := d.millisecond_lt
  have hlast := hyear.2
  have hvalue : ((d.date.year.toNat : Nat) : Int) = d.date.year := Int.toNat_of_nonneg hyear.1
  rw [readDigits_yearChars (by omega)] at hyears
  rw [readDigits_two (by omega)] at hmonths hdays hhours hminutes hseconds
  rw [readDigits_three hmillisecond] at hmilliseconds
  simp only [readWireDate, hyears, hmonths, hdays, hhours, hminutes, hseconds, hmilliseconds,
    hvalue]
  rw [dif_pos ⟨⟨d.date.month_pos, hmonth⟩, d.date.day_pos, hday⟩,
    if_pos ⟨hhour, hminute, hsecond.le⟩]
  rfl

theorem Calendar.gregorian_documented : Calendar.gregorian.Documented where
  format_wire d hyear := by
    simp only [Calendar.gregorian, DateTime.ofEpochMs_epochMs, hyear, if_true]
  format_signed d text hyear htext := by
    simp only [Calendar.gregorian, DateTime.ofEpochMs_epochMs, hyear, if_false,
      Option.ite_none_right_eq_some, Option.some.injEq] at htext
    rw [← htext.2]
    by_cases hneg : d.date.year < 0
    · simp [signedYearChars, hneg]
    · simp [signedYearChars, hneg]
  parse_wire d hyear := by
    simp only [Calendar.gregorian, matchesRfc3339MsUtc_wireDateText, if_true]
    exact readWireDate_wireDateText hyear

/-- The first instant of the year zero has a text, the first of the year 10000 has none. -/
theorem wire_dates_bijective_gregorian :
    (∃ text, encodeWireDate .gregorian (-62167219200000) = .ok text ∧
      decodeWireDate .gregorian text = .ok (-62167219200000)) ∧
    ∃ error, encodeWireDate .gregorian 253402300800000 = .error error :=
  ⟨(wire_dates_bijective Calendar.gregorian_documented).1 _ (by decide +kernel),
    (wire_dates_bijective Calendar.gregorian_documented).2.1 _ (by decide +kernel)⟩

/-- The crate reads a leap second as the first second of the next minute. -/
example : decodeWireDate .gregorian "2016-12-31T23:59:60.000Z" =
    .error ⟨"non-canonical wire date: 2016-12-31T23:59:60.000Z"⟩ := by
  decide +kernel

end YohakuCore
