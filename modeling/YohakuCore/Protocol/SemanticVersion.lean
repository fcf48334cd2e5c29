import YohakuCore.Framework.SemVerPrecedence
import YohakuCore.Framework.Utf8

/-! # Semantic versions -/

namespace YohakuCore

open Framework

structure SemanticVersion where
  major : UInt64
  minor : UInt64
  patch : UInt64
  prerelease : List String
  deriving DecidableEq

def isAsciiDigitByte (b : UInt8) : Bool := '0'.toUInt8 ≤ b && b ≤ '9'.toUInt8

def isAsciiAlphanumericByte (b : UInt8) : Bool :=
  isAsciiDigitByte b || ('A'.toUInt8 ≤ b && b ≤ 'Z'.toUInt8) ||
    ('a'.toUInt8 ≤ b && b ≤ 'z'.toUInt8)

/-- `^[0-9A-Za-z-]+$` -/
def isAlphanumericIdentifier (id : String) : Bool :=
  id ≠ "" && (Utf8.encode id).all (fun b => isAsciiAlphanumericByte b || b = '-'.toUInt8)

/-- `^\d+$` -/
def isAllDigits (id : String) : Bool := id ≠ "" && (Utf8.encode id).all isAsciiDigitByte

/-- `^(0|[1-9]\d*)$` -/
def isNumericIdentifier (id : String) : Bool :=
  id = "0" || (isAllDigits id && id.toList.head? ≠ some '0')

/-- `str::parse` of a `u64`: digits, with or without a plus sign, of a number that fits. -/
def parseU64 (text : String) : Option UInt64 :=
  let digits := match text.toList with
    | '+' :: rest => rest
    | rest => rest
  if isAllDigits (String.ofList digits) && SemVer.number digits < 2 ^ 64 then
    some (UInt64.ofNat (SemVer.number digits))
  else none

def splitDots (text : List Char) : List String := (text.splitOn '.').map String.ofList

/-- Build metadata, from the first plus sign on, is checked and dropped. -/
def dropBuild (input : List Char) : Option (List Char) :=
  match SemVer.cut '+' input with
  | (rest, none) => some rest
  | (rest, some build) =>
      if build.isEmpty || !(splitDots build).all isAlphanumericIdentifier then none else some rest

/-- The loop over the identifiers of a prerelease; a number with a leading zero is refused. -/
def readPrerelease : List String → Option (List String)
  | [] => some []
  | id :: ids =>
      if !isAlphanumericIdentifier id then none
      else if isAllDigits id && !isNumericIdentifier id then none
      else (readPrerelease ids).map (id :: ·)

/-- The prerelease, from the first dash on, and what is before it. -/
def splitPrerelease (rest : List Char) : Option (List Char × List String) :=
  match SemVer.cut '-' rest with
  | (core, none) => some (core, [])
  | (core, some pre) =>
      if pre.isEmpty then none else (readPrerelease (splitDots pre)).map (fun ids => (core, ids))

/-- The loop over the parts of the core, after the numbers `nums`. -/
def readCore (nums : List UInt64) : List String → Option (List UInt64)
  | [] => if nums.length ≠ 3 then none else some nums
  | part :: parts =>
      if nums.length = 3 || !isNumericIdentifier part then none
      else (parseU64 part).bind (fun num => readCore (nums ++ [num]) parts)

def parseSemanticVersion (input : String) : Option SemanticVersion := do
  let rest ← dropBuild input.toList
  let (core, prerelease) ← splitPrerelease rest
  match ← readCore [] (splitDots core) with
  | [major, minor, patch] => return { major, minor, patch, prerelease }
  | _ => none

example : parseSemanticVersion "1.0.0-alpha-beta.7+x.01" =
    some ⟨1, 0, 0, ["alpha-beta", "7"]⟩ := by
  decide +kernel

theorem not_ascii_le {c d : Char} (h : 0x7F < c.val) (hd : d.val ≤ 0x7F) : ¬ c ≤ d := by
  intro hle
  rw [Char.le_def] at hle
  exact absurd (UInt32.lt_of_lt_of_le h hle) (UInt32.not_lt.mpr hd)

theorem isDigit_byte (c : Char) :
    (decide (c.val ≤ 0x7F) && isAsciiDigitByte c.toUInt8) = SemVer.isDigit c := by
  apply Utf8.ascii_char_iff
  · decide +kernel
  · intro c hc
    simp [SemVer.isDigit, not_ascii_le hc (d := '9') (by decide)]

theorem isIdentifierCharacter_byte (c : Char) :
    (decide (c.val ≤ 0x7F) &&
      (isAsciiAlphanumericByte c.toUInt8 || c.toUInt8 = '-'.toUInt8)) =
      SemVer.isIdentifierCharacter c := by
  apply Utf8.ascii_char_iff (p := fun b => isAsciiAlphanumericByte b || b = '-'.toUInt8)
  · decide +kernel
  · intro c hc
    have hdash : c ≠ '-' := by
      rintro rfl
      revert hc
      decide
    simp [SemVer.isIdentifierCharacter, SemVer.isDigit, SemVer.isNonDigit, SemVer.isLetter,
      hdash, not_ascii_le hc (d := '9') (by decide), not_ascii_le hc (d := 'Z') (by decide),
      not_ascii_le hc (d := 'z') (by decide)]

theorem high_byte_not_digit {b : UInt8} (h : 0x80 ≤ b) : isAsciiDigitByte b = false := by
  rw [UInt8.le_iff_toNat_le] at h
  have h : 128 ≤ b.toNat := h
  have h9 : '9'.toUInt8.toNat = 57 := rfl
  simp only [isAsciiDigitByte, Bool.and_eq_false_iff, decide_eq_false_iff_not,
    UInt8.le_iff_toNat_le]
  omega

theorem isAlphanumericIdentifier_iff {l : List Char} :
    isAlphanumericIdentifier (String.ofList l) = true ↔ SemVer.BuildIdentifier l := by
  rw [SemVer.buildIdentifier_iff, isAlphanumericIdentifier, Utf8.encode_all]
  · simp [isIdentifierCharacter_byte]
  · intro b hb
    have hdigit := high_byte_not_digit hb
    rw [UInt8.le_iff_toNat_le] at hb
    have hb : 128 ≤ b.toNat := hb
    have hZ : 'Z'.toUInt8.toNat = 90 := rfl
    have hz : 'z'.toUInt8.toNat = 122 := rfl
    have hdash : '-'.toUInt8.toNat = 45 := rfl
    simp only [isAsciiAlphanumericByte, hdigit, Bool.false_or, Bool.or_eq_false_iff,
      Bool.and_eq_false_iff, decide_eq_false_iff_not, UInt8.le_iff_toNat_le, ← UInt8.toNat_inj]
    omega

theorem isAllDigits_iff {l : List Char} :
    isAllDigits (String.ofList l) = true ↔ l ≠ [] ∧ l.all SemVer.isDigit = true := by
  rw [isAllDigits, Utf8.encode_all (fun b => high_byte_not_digit)]
  simp [isDigit_byte]

theorem isNumericIdentifier_iff {l : List Char} :
    isNumericIdentifier (String.ofList l) = true ↔ SemVer.NumericIdentifier l := by
  have hzero : String.ofList l = "0" ↔ l = ['0'] := by
    rw [← String.toList_inj, String.toList_ofList]
    rfl
  rw [SemVer.numericIdentifier_iff, isNumericIdentifier, Bool.or_eq_true, Bool.and_eq_true,
    isAllDigits_iff, String.toList_ofList, decide_eq_true_eq, decide_eq_true_eq, hzero, and_assoc]

theorem parseU64_eq_some_iff {l : List Char} (h : SemVer.NumericIdentifier l) {num : UInt64} :
    parseU64 (String.ofList l) = some num ↔
      SemVer.number l < 2 ^ 64 ∧ num = UInt64.ofNat (SemVer.number l) := by
  have hsign : (match (String.ofList l).toList with
      | '+' :: rest => rest
      | rest => rest) = l := by
    rw [String.toList_ofList]
    split
    · exact absurd List.mem_cons_self (SemVer.plus_notMem_of_characters h.characters)
    · rfl
  rw [parseU64, hsign, isAllDigits_iff.mpr h.digits_only]
  simp [eq_comm]

theorem dropBuild_eq_some_iff {input rest : List Char} : dropBuild input = some rest ↔
    rest = (SemVer.cut '+' input).1 ∧
      ∃ ids, SemVer.OptionalIdentifiers SemVer.BuildIdentifier ids (SemVer.cut '+' input).2 := by
  have hdot (l : List Char) (hl : SemVer.BuildIdentifier l) :=
    SemVer.dot_notMem_of_characters hl.characters
  rw [dropBuild]
  cases hcut : SemVer.cut '+' input with
  | mk front build =>
      cases build with
      | none => simp [SemVer.OptionalIdentifiers, eq_comm]
      | some build =>
          simp only [SemVer.OptionalIdentifiers, SemVer.dotSeparated_iff hdot, exists_eq_left']
          have hall : (splitDots build).all isAlphanumericIdentifier = true ↔
              ∀ l ∈ build.splitOn '.', SemVer.BuildIdentifier l := by
            simp [splitDots, isAlphanumericIdentifier_iff]
          have hempty : build.isEmpty = true →
              (splitDots build).all isAlphanumericIdentifier = false := by
            intro hnil
            rw [List.isEmpty_iff.mp hnil]
            decide
          cases hvalid : (splitDots build).all isAlphanumericIdentifier with
          | false => simp [hvalid, ← hall]
          | true =>
              rw [hvalid] at hempty hall
              have hne : build.isEmpty = false := by simpa using hempty
              simp only [hne, Bool.not_true, Bool.or_self, Bool.false_eq_true, if_false,
                Option.some.injEq, ← hall, and_true]
              exact eq_comm

theorem readPrerelease_eq_some_iff {ids : List (List Char)} {prerelease : List String} :
    readPrerelease (ids.map String.ofList) = some prerelease ↔
      (∀ l ∈ ids, SemVer.PrereleaseIdentifier l) ∧ prerelease = ids.map String.ofList := by
  induction ids generalizing prerelease with
  | nil => simp [readPrerelease, eq_comm]
  | cons l ids ih =>
      have hid : SemVer.PrereleaseIdentifier l ↔
          isAlphanumericIdentifier (String.ofList l) = true ∧
          (isAllDigits (String.ofList l) = true → isNumericIdentifier (String.ofList l) = true) := by
        rw [isAlphanumericIdentifier_iff, isAllDigits_iff, isNumericIdentifier_iff,
          SemVer.prereleaseIdentifier_iff, SemVer.buildIdentifier_iff]
        tauto
      simp only [List.map_cons, readPrerelease, List.mem_cons, forall_eq_or_imp, hid]
      cases isAlphanumericIdentifier (String.ofList l) with
      | false => simp
      | true =>
          have hrest : (readPrerelease (ids.map String.ofList)).map (String.ofList l :: ·) =
              some prerelease ↔ (∀ l ∈ ids, SemVer.PrereleaseIdentifier l) ∧
                prerelease = String.ofList l :: ids.map String.ofList := by
            rw [Option.map_eq_some_iff]
            constructor
            · rintro ⟨rest, hread, rfl⟩
              obtain ⟨hids, rfl⟩ := ih.mp hread
              exact ⟨hids, rfl⟩
            · rintro ⟨hids, rfl⟩
              exact ⟨_, ih.mpr ⟨hids, rfl⟩, rfl⟩
          cases hdigits : isAllDigits (String.ofList l) with
          | false => simpa using hrest
          | true =>
              cases hnumeric : isNumericIdentifier (String.ofList l) with
              | false => simp
              | true => simpa using hrest

theorem splitPrerelease_eq_some_iff {rest core : List Char} {prerelease : List String} :
    splitPrerelease rest = some (core, prerelease) ↔ core = (SemVer.cut '-' rest).1 ∧
      ∃ ids, SemVer.OptionalIdentifiers SemVer.PrereleaseIdentifier ids (SemVer.cut '-' rest).2 ∧
        prerelease = ids.map String.ofList := by
  have hdot (l : List Char) (hl : SemVer.PrereleaseIdentifier l) :=
    SemVer.dot_notMem_of_characters hl.characters
  rw [splitPrerelease]
  cases hcut : SemVer.cut '-' rest with
  | mk front pre =>
      cases pre with
      | none => simp [SemVer.OptionalIdentifiers, eq_comm]
      | some pre =>
          have hread : readPrerelease ((pre.splitOn '.').map String.ofList) = some prerelease ↔ _ :=
            readPrerelease_eq_some_iff
          simp only [SemVer.OptionalIdentifiers, SemVer.dotSeparated_iff hdot, and_assoc,
            exists_eq_left', splitDots]
          rw [← hread]
          have hempty : pre.isEmpty = true →
              readPrerelease ((pre.splitOn '.').map String.ofList) = none := by
            intro hnil
            rw [List.isEmpty_iff.mp hnil]
            decide
          cases hpre : pre.isEmpty with
          | true => simp [hempty hpre]
          | false =>
              simp only [Bool.false_eq_true, if_false, Option.map_eq_some_iff, Prod.mk.injEq]
              constructor
              · rintro ⟨ids, hids, rfl, rfl⟩
                exact ⟨rfl, hids⟩
              · rintro ⟨rfl, hids⟩
                exact ⟨prerelease, hids, rfl, rfl⟩

theorem readCore_eq_some_iff {parts : List (List Char)} {nums out : List UInt64}
    (hlength : nums.length ≤ 3) : readCore nums (parts.map String.ofList) = some out ↔
      nums.length + parts.length = 3 ∧
        (∀ l ∈ parts, SemVer.NumericIdentifier l ∧ SemVer.number l < 2 ^ 64) ∧
        out = nums ++ parts.map (fun l => UInt64.ofNat (SemVer.number l)) := by
  induction parts generalizing nums with
  | nil =>
      simp only [List.map_nil, readCore]
      split <;> simp_all [eq_comm]
  | cons l parts ih =>
      simp only [List.map_cons, readCore, List.length_cons, List.mem_cons, forall_eq_or_imp]
      by_cases hfull : nums.length = 3
      · simp [hfull]
      · cases hnumeric : isNumericIdentifier (String.ofList l) with
        | false =>
            have hnot : ¬ SemVer.NumericIdentifier l := by
              simp [← isNumericIdentifier_iff, hnumeric]
            simp [hnot]
        | true =>
            have hl := isNumericIdentifier_iff.mp hnumeric
            simp only [hfull, decide_false, Bool.not_true, Bool.or_self, Bool.false_eq_true,
              if_false, Option.bind_eq_some_iff, parseU64_eq_some_iff hl, hl, true_and]
            constructor
            · rintro ⟨num, ⟨hlt, rfl⟩, hread⟩
              obtain ⟨hlen, hparts, rfl⟩ := (ih (by simp; omega)).mp hread
              rw [List.length_append, List.length_singleton] at hlen
              exact ⟨by omega, ⟨hlt, hparts⟩, by simp⟩
            · rintro ⟨hlen, ⟨hlt, hparts⟩, rfl⟩
              refine ⟨_, ⟨hlt, rfl⟩, (ih (by simp; omega)).mpr ⟨?_, hparts, by simp⟩⟩
              rw [List.length_append, List.length_singleton]
              omega

/-- The parsed version is the one that the parts of a derivation spell, which fits 64 bits. -/
structure SemanticVersion.Spells (v : SemanticVersion) (p : SemVer.Parts) : Prop where
  major : v.major.toNat = SemVer.number p.major
  minor : v.minor.toNat = SemVer.number p.minor
  patch : v.patch.toNat = SemVer.number p.patch
  prerelease : v.prerelease = p.prerelease.map String.ofList

theorem toNat_eq_iff {num : UInt64} {n : Nat} :
    num.toNat = n ↔ n < 2 ^ 64 ∧ num = UInt64.ofNat n := by
  constructor
  · rintro rfl
    exact ⟨num.toNat_lt, by simp⟩
  · rintro ⟨hlt, rfl⟩
    exact UInt64.toNat_ofNat_of_lt hlt

theorem parseSemanticVersion_eq_some {s : String} {v : SemanticVersion} :
    parseSemanticVersion s = some v ↔ ∃ p, SemVer.Derives p s.toList ∧ v.Spells p := by
  simp only [parseSemanticVersion, Option.bind_eq_bind, Option.bind_eq_some_iff,
    dropBuild_eq_some_iff, Prod.exists, splitPrerelease_eq_some_iff, splitDots]
  constructor
  · rintro ⟨_, ⟨rfl, buildIds, hbuild⟩, _, _, ⟨rfl, ids, hpre, rfl⟩, nums, hcore, hv⟩
    obtain ⟨hlength, hparts, rfl⟩ := (readCore_eq_some_iff (by simp)).mp hcore
    rw [List.length_nil, Nat.zero_add, List.length_eq_three] at hlength
    obtain ⟨major, minor, patch, hsplit⟩ := hlength
    rw [hsplit] at hparts hv
    simp only [List.mem_cons, List.not_mem_nil, or_false, forall_eq_or_imp, forall_eq] at hparts
    obtain ⟨⟨hmajor, hmajor'⟩, ⟨hminor, hminor'⟩, hpatch, hpatch'⟩ := hparts
    obtain rfl := Option.some.inj hv
    refine ⟨⟨major, minor, patch, ids, buildIds⟩, SemVer.derives_iff.mpr ⟨?_, hpre, hbuild⟩, ?_⟩
    · exact SemVer.versionCore_iff.mpr ⟨hsplit, hmajor, hminor, hpatch⟩
    · exact ⟨UInt64.toNat_ofNat_of_lt hmajor', UInt64.toNat_ofNat_of_lt hminor',
        UInt64.toNat_ofNat_of_lt hpatch', rfl⟩
  · rintro ⟨p, hderives, hspells⟩
    obtain ⟨hcore, hpre, hbuild⟩ := SemVer.derives_iff.mp hderives
    obtain ⟨hsplit, hmajor, hminor, hpatch⟩ := SemVer.versionCore_iff.mp hcore
    obtain ⟨hmajor', hmajorEq⟩ := toNat_eq_iff.mp hspells.major
    obtain ⟨hminor', hminorEq⟩ := toNat_eq_iff.mp hspells.minor
    obtain ⟨hpatch', hpatchEq⟩ := toNat_eq_iff.mp hspells.patch
    refine ⟨_, ⟨rfl, p.build, hbuild⟩, _, _, ⟨rfl, p.prerelease, hpre, rfl⟩,
      [v.major, v.minor, v.patch], ?_, ?_⟩
    · rw [readCore_eq_some_iff (by simp), hsplit, hmajorEq, hminorEq, hpatchEq]
      refine ⟨rfl, ?_, rfl⟩
      intro l hl
      simp only [List.mem_cons, List.not_mem_nil, or_false] at hl
      rcases hl with rfl | rfl | rfl
      · exact ⟨hmajor, hmajor'⟩
      · exact ⟨hminor, hminor'⟩
      · exact ⟨hpatch, hpatch'⟩
    · simp [← hspells.prerelease]

/-- The parser accepts a text exactly when the grammar derives it with core numbers that fit 64
bits; the version is then the one of the only derivation, without its build metadata. -/
theorem parseSemanticVersion_grammar (s : String) :
    (∀ p q, SemVer.Derives p s.toList → SemVer.Derives q s.toList → p = q) ∧
    ((∃ v, parseSemanticVersion s = some v) ↔ ∃ p, SemVer.Derives p s.toList ∧
      SemVer.number p.major < 2 ^ 64 ∧ SemVer.number p.minor < 2 ^ 64 ∧
        SemVer.number p.patch < 2 ^ 64) ∧
    ∀ v p, parseSemanticVersion s = some v → SemVer.Derives p s.toList →
      v.major.toNat = SemVer.number p.major ∧ v.minor.toNat = SemVer.number p.minor ∧
        v.patch.toNat = SemVer.number p.patch ∧ v.prerelease = p.prerelease.map String.ofList := by
  refine ⟨fun p q hp hq => hp.unique hq, ?_, ?_⟩
  · simp only [parseSemanticVersion_eq_some]
    constructor
    · rintro ⟨v, p, hp, hv⟩
      exact ⟨p, hp, (toNat_eq_iff.mp hv.major).1, (toNat_eq_iff.mp hv.minor).1,
        (toNat_eq_iff.mp hv.patch).1⟩
    · rintro ⟨p, hp, hmajor, hminor, hpatch⟩
      exact ⟨⟨_, _, _, _⟩, p, hp, UInt64.toNat_ofNat_of_lt hmajor,
        UInt64.toNat_ofNat_of_lt hminor, UInt64.toNat_ofNat_of_lt hpatch, rfl⟩
  · intro v p hparse hp
    obtain ⟨q, hq, hv⟩ := parseSemanticVersion_eq_some.mp hparse
    obtain rfl := hp.unique hq
    exact ⟨hv.major, hv.minor, hv.patch, hv.prerelease⟩

end YohakuCore
