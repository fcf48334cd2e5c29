import YohakuCore.Protocol.SemanticVersion

/-!
# Comparison of versions

Two numeric identifiers are compared as numbers of 64 bits, and one that does not fit as the largest
of them.
-/

namespace YohakuCore

open Framework

/-- A number that does not fit 64 bits counts as the largest that does. -/
def numericOf (id : String) : UInt64 := (parseU64 id).getD (UInt64.ofNat (2 ^ 64 - 1))

/-- Bytes order texts as their characters do where both are ASCII. -/
def compareIdentifiers (idA idB : String) : Ordering :=
  let numA := isAllDigits idA
  let numB := isAllDigits idB
  if numA && numB then compare (numericOf idA) (numericOf idB)
  else if numA ≠ numB then
    if numA then .lt else .gt
  else compare (Utf8.encode idA) (Utf8.encode idB)

/-- The loop over the paired identifiers: the first pair that differs decides. -/
def comparePairs : List (String × String) → Ordering
  | [] => .eq
  | (idA, idB) :: rest =>
      let ord := compareIdentifiers idA idB
      if ord ≠ .eq then ord else comparePairs rest

def compareSemanticVersions (a b : SemanticVersion) : Ordering :=
  let core := ((compare a.major b.major).then (compare a.minor b.minor)).then
    (compare a.patch b.patch)
  if core ≠ .eq then core
  else if a.prerelease.isEmpty && b.prerelease.isEmpty then .eq
  else if a.prerelease.isEmpty then .gt
  else if b.prerelease.isEmpty then .lt
  else
    let ord := comparePairs (a.prerelease.zip b.prerelease)
    if ord ≠ .eq then ord else compare a.prerelease.length b.prerelease.length

/-- The largest number of 64 bits. -/
def numericLimit : Nat := 2 ^ 64 - 1

theorem compare_toNat (a b : UInt64) : compare a b = compare a.toNat b.toNat := by
  change compareOfLessAndEq a b = compareOfLessAndEq a.toNat b.toNat
  simp only [compareOfLessAndEq, UInt64.lt_iff_toNat_lt, UInt64.toNat_inj]

theorem compare_byte {c d : Char} (hc : c.val ≤ 0x7F) (hd : d.val ≤ 0x7F) :
    compare c.toUInt8 d.toUInt8 = compare c d := by
  rw [UInt32.le_iff_toNat_le] at hc hd
  have hc : c.val.toNat ≤ 127 := hc
  have hd : d.val.toNat ≤ 127 := hd
  have hcByte : c.toUInt8.toNat = c.val.toNat := by
    rw [Char.toUInt8, UInt32.toNat_toUInt8]
    omega
  have hdByte : d.toUInt8.toNat = d.val.toNat := by
    rw [Char.toUInt8, UInt32.toNat_toUInt8]
    omega
  change compareOfLessAndEq c.toUInt8 d.toUInt8 = compareOfLessAndEq c d
  simp only [compareOfLessAndEq, UInt8.lt_iff_toNat_lt, ← UInt8.toNat_inj, hcByte, hdByte,
    Char.lt_def, UInt32.lt_iff_toNat_lt, Char.ext_iff, ← UInt32.toNat_inj]

theorem numericOf_toNat {l : List Char} (h : SemVer.NumericIdentifier l) :
    (numericOf (String.ofList l)).toNat = min (SemVer.number l) numericLimit := by
  rw [numericOf, numericLimit]
  cases hparse : parseU64 (String.ofList l) with
  | none =>
      have hlarge : ¬ SemVer.number l < 2 ^ 64 := by
        intro hlt
        rw [(parseU64_eq_some_iff h).mpr ⟨hlt, rfl⟩] at hparse
        simp at hparse
      rw [Option.getD_none, UInt64.toNat_ofNat_of_lt' (by decide)]
      omega
  | some num =>
      obtain ⟨hlt, rfl⟩ := (parseU64_eq_some_iff h).mp hparse
      rw [Option.getD_some, UInt64.toNat_ofNat_of_lt' hlt]
      omega

theorem compare_encode {l m : List Char} (hl : l.all SemVer.isIdentifierCharacter = true)
    (hm : m.all SemVer.isIdentifierCharacter = true) :
    compare (Utf8.encode (String.ofList l)) (Utf8.encode (String.ofList m)) = compare l m := by
  have hascii {c : Char} (hc : SemVer.isIdentifierCharacter c = true) : c.val ≤ 0x7F := by
    rw [← isIdentifierCharacter_byte] at hc
    simp only [Bool.and_eq_true, decide_eq_true_eq] at hc
    exact hc.1
  rw [Utf8.encode_ofList (fun c hc => hascii (List.all_eq_true.mp hl c hc)),
    Utf8.encode_ofList (fun c hc => hascii (List.all_eq_true.mp hm c hc))]
  induction l generalizing m with
  | nil => cases m <;> rfl
  | cons c l ih =>
      cases m with
      | nil => rfl
      | cons d m =>
          simp only [List.all_cons, Bool.and_eq_true] at hl hm
          simp only [List.map_cons, List.compare_cons_cons,
            compare_byte (hascii hl.1) (hascii hm.1), ih hl.2 hm.2]

theorem compareIdentifiers_eq {l m : List Char} (hl : SemVer.PrereleaseIdentifier l)
    (hm : SemVer.PrereleaseIdentifier m) :
    compareIdentifiers (String.ofList l) (String.ofList m) =
      compare ((SemVer.Identifier.read l).saturate numericLimit)
        ((SemVer.Identifier.read m).saturate numericLimit) := by
  have hnumeric {l : List Char} (hl : SemVer.PrereleaseIdentifier l) :=
    (SemVer.prereleaseIdentifier_iff.mp hl).2.2
  have hdigits {l : List Char} (hl : SemVer.PrereleaseIdentifier l) :
      isAllDigits (String.ofList l) = l.all SemVer.isDigit := by
    rw [Bool.eq_iff_iff, isAllDigits_iff]
    simp [(SemVer.prereleaseIdentifier_iff.mp hl).1]
  rw [compareIdentifiers, hdigits hl, hdigits hm, SemVer.Identifier.read, SemVer.Identifier.read]
  cases hl' : l.all SemVer.isDigit with
  | false =>
      cases hm' : m.all SemVer.isDigit with
      | false => simpa [SemVer.Identifier.saturate] using compare_encode hl.characters hm.characters
      | true => rfl
  | true =>
      cases hm' : m.all SemVer.isDigit with
      | false => rfl
      | true =>
          simp only [Bool.and_self, if_true, SemVer.Identifier.saturate,
            SemVer.Identifier.compare_numeric, ← numericOf_toNat (hnumeric hl hl'),
            ← numericOf_toNat (hnumeric hm hm')]
          exact compare_toNat _ _

theorem ite_ne_eq (ord rest : Ordering) : (if ord ≠ .eq then ord else rest) = ord.then rest := by
  cases ord <;> rfl

theorem comparePairs_eq {ids ids' : List (List Char)}
    (h : ∀ l ∈ ids, SemVer.PrereleaseIdentifier l)
    (h' : ∀ l ∈ ids', SemVer.PrereleaseIdentifier l) :
    (comparePairs ((ids.map String.ofList).zip (ids'.map String.ofList))).then
        (compare ids.length ids'.length) =
      compare ((ids.map SemVer.Identifier.read).map (SemVer.Identifier.saturate numericLimit))
        ((ids'.map SemVer.Identifier.read).map (SemVer.Identifier.saturate numericLimit)) := by
  induction ids generalizing ids' with
  | nil => cases ids' <;> rfl
  | cons l ids ih =>
      cases ids' with
      | nil => rfl
      | cons m ids' =>
          simp only [List.mem_cons, forall_eq_or_imp] at h h'
          have hlength : compare (l :: ids).length (m :: ids').length =
              compare ids.length ids'.length := by
            simp only [List.length_cons, Nat.compare_eq_ite_lt, Nat.add_lt_add_iff_right]
          rw [List.map_cons, List.map_cons, List.zip_cons_cons, comparePairs, ite_ne_eq, hlength,
            Ordering.then_assoc, ih h.2 h'.2, compareIdentifiers_eq h.1 h'.1]
          simp only [List.map_cons, List.compare_cons_cons]

/-- The comparison is the precedence of the versions with their numbers saturated. -/
theorem compareSemanticVersions_eq {a b : SemanticVersion} {p q : SemVer.Parts} {s t : List Char}
    (hp : SemVer.Derives p s) (hq : SemVer.Derives q t) (ha : a.Spells p) (hb : b.Spells q) :
    compareSemanticVersions a b = SemVer.precedence (p.version.saturate numericLimit)
      (q.version.saturate numericLimit) := by
  have hpairs := comparePairs_eq hp.identifiers.2 hq.identifiers.2
  simp only [compareSemanticVersions, ite_ne_eq, compare_toNat, ha.major, ha.minor, ha.patch,
    hb.major, hb.minor, hb.patch, ha.prerelease, hb.prerelease, List.length_map, hpairs,
    SemVer.precedence, SemVer.precedenceOfPrerelease, SemVer.Parts.version, SemVer.Version.saturate,
    Ordering.then_assoc, List.isEmpty_map]
  congr 3
  cases p.prerelease with
  | nil => cases q.prerelease <;> rfl
  | cons l ids =>
      cases q.prerelease with
      | nil => rfl
      | cons m ids' => rfl

/-- Where two prereleases differ first, not both identifiers are numbers from the limit on; or the
identifiers behind them, with every such number taken for the limit, are in the order of the two
numbers. -/
def DecidedBelowLimit (p q : SemVer.Parts) : Prop :=
  p.major = q.major → p.minor = q.minor → p.patch = q.patch →
    SemVer.OrderKept (SemVer.Identifier.saturate numericLimit)
      (p.prerelease.map SemVer.Identifier.read) (q.prerelease.map SemVer.Identifier.read)

theorem decidedBelowLimit_iff {p q : SemVer.Parts} {s t : List Char} (hp : SemVer.Derives p s)
    (hq : SemVer.Derives q t) : DecidedBelowLimit p q ↔
      SemVer.precedence (p.version.saturate numericLimit) (q.version.saturate numericLimit) =
        SemVer.precedence p.version q.version := by
  obtain ⟨⟨hmajor, hminor, hpatch⟩, -⟩ := hp.identifiers
  obtain ⟨⟨hmajor', hminor', hpatch'⟩, -⟩ := hq.identifiers
  have hnumber {l m : List Char} (hl : SemVer.NumericIdentifier l)
      (hm : SemVer.NumericIdentifier m) : SemVer.number l = SemVer.number m ↔ l = m :=
    ⟨SemVer.number_inj hl hm, fun h => by rw [h]⟩
  rw [SemVer.precedence_saturate_iff]
  simp only [DecidedBelowLimit, SemVer.Parts.version, hnumber hmajor hmajor',
    hnumber hminor hminor', hnumber hpatch hpatch']

/-- The comparison orders the accepted versions totally, up to versions it takes for equal. It is
their precedence, and tells equal versions from others, exactly where no two prereleases of one core
differ first in two numbers from 2^64 - 1 on, or where what follows these decides as they do. -/
theorem compareSemanticVersions_precedence_iff {r s t : String} {a b c : SemanticVersion}
    (ha : parseSemanticVersion r = some a) (hb : parseSemanticVersion s = some b)
    (hc : parseSemanticVersion t = some c) {p q : SemVer.Parts} (hp : SemVer.Derives p r.toList)
    (hq : SemVer.Derives q s.toList) :
    ((compareSemanticVersions a b = SemVer.precedence p.version q.version ∧
        (compareSemanticVersions a b = .eq ↔ { p with build := [] } = { q with build := [] })) ↔
      DecidedBelowLimit p q) ∧
    compareSemanticVersions b a = (compareSemanticVersions a b).swap ∧
    ((compareSemanticVersions a b).isLE → (compareSemanticVersions b c).isLE →
      (compareSemanticVersions a c).isLE) ∧
    ((compareSemanticVersions a b).isLE ∨ (compareSemanticVersions b a).isLE) := by
  obtain ⟨p', hp', ha⟩ := parseSemanticVersion_eq_some.mp ha
  obtain ⟨q', hq', hb⟩ := parseSemanticVersion_eq_some.mp hb
  obtain ⟨o, ho, hc⟩ := parseSemanticVersion_eq_some.mp hc
  obtain rfl := hp.unique hp'
  obtain rfl := hq.unique hq'
  rw [compareSemanticVersions_eq hp hq ha hb, compareSemanticVersions_eq hq hp hb ha,
    compareSemanticVersions_eq hq ho hb hc, compareSemanticVersions_eq hp ho ha hc]
  refine ⟨?_, Std.OrientedCmp.eq_swap, Std.TransCmp.isLE_trans, ?_⟩
  · have hequal : SemVer.precedence p.version q.version = .eq ↔ p.version = q.version :=
      Std.LawfulEqCmp.compare_eq_iff_eq
    rw [← SemVer.version_eq_iff hp hq, decidedBelowLimit_iff hp hq]
    constructor
    · exact And.left
    · intro h
      exact ⟨h, by rw [h, hequal]⟩
  · have hswap : SemVer.precedence (q.version.saturate numericLimit)
        (p.version.saturate numericLimit) = (SemVer.precedence (p.version.saturate numericLimit)
          (q.version.saturate numericLimit)).swap := Std.OrientedCmp.eq_swap
    rw [hswap]
    cases SemVer.precedence (p.version.saturate numericLimit)
      (q.version.saturate numericLimit) <;> simp

/-- The parts of `1.0.0-n`. -/
def numberedPrerelease (number : String) : SemVer.Parts :=
  ⟨['1'], ['0'], ['0'], [number.toList], []⟩

theorem numberedPrerelease_derives (number : String)
    (h : SemVer.NumericIdentifier number.toList) :
    SemVer.Derives (numberedPrerelease number) ("1.0.0-" ++ number).toList := by
  have hone : SemVer.NumericIdentifier ['1'] := SemVer.NumericIdentifier.positive (by decide)
  have hcore := SemVer.VersionCore.mk hone SemVer.NumericIdentifier.zero
    SemVer.NumericIdentifier.zero
  have hpre := SemVer.DotSeparated.one (SemVer.PrereleaseIdentifier.numeric h)
  have htext : ("1.0.0-" ++ number).toList = "1.0.0-".toList ++ number.toList :=
    String.toList_append
  rw [htext]
  exact SemVer.Derives.prerelease hcore hpre

theorem compareSemanticVersions_precedence_iff_numbered :
    compareSemanticVersions ⟨1, 0, 0, ["9"]⟩ ⟨1, 0, 0, ["11"]⟩ =
        SemVer.precedence (numberedPrerelease "9").version (numberedPrerelease "11").version ∧
      compareSemanticVersions ⟨1, 0, 0, ["11"]⟩ ⟨1, 0, 0, ["9"]⟩ =
        (compareSemanticVersions ⟨1, 0, 0, ["9"]⟩ ⟨1, 0, 0, ["11"]⟩).swap := by
  have hnine := numberedPrerelease_derives "9"
    (SemVer.numericIdentifier_iff.mpr (by decide +kernel))
  have heleven := numberedPrerelease_derives "11"
    (SemVer.numericIdentifier_iff.mpr (by decide +kernel))
  have hdecided : DecidedBelowLimit (numberedPrerelease "9") (numberedPrerelease "11") :=
    (decidedBelowLimit_iff hnine heleven).mpr (by decide +kernel)
  have hprecedence := compareSemanticVersions_precedence_iff
    (by decide +kernel : parseSemanticVersion ("1.0.0-" ++ "9") = some ⟨1, 0, 0, ["9"]⟩)
    (by decide +kernel : parseSemanticVersion ("1.0.0-" ++ "11") = some ⟨1, 0, 0, ["11"]⟩)
    (by decide +kernel : parseSemanticVersion "1.0.0" = some ⟨1, 0, 0, []⟩) hnine heleven
  exact ⟨(hprecedence.1.mpr hdecided).1, hprecedence.2.1⟩

def firstPastLimit : String := "18446744073709551616"

def secondPastLimit : String := "18446744073709551617"

theorem compareSemanticVersions_not_precedence : ¬ ∀ s t a b p q,
    parseSemanticVersion s = some a → parseSemanticVersion t = some b →
      SemVer.Derives p s.toList → SemVer.Derives q t.toList →
        compareSemanticVersions a b = SemVer.precedence p.version q.version := by
  intro h
  have hclaim := h ("1.0.0-" ++ firstPastLimit) ("1.0.0-" ++ secondPastLimit)
    ⟨1, 0, 0, [firstPastLimit]⟩ ⟨1, 0, 0, [secondPastLimit]⟩
    (numberedPrerelease firstPastLimit) (numberedPrerelease secondPastLimit)
    (by decide +kernel) (by decide +kernel)
    (numberedPrerelease_derives _ (SemVer.numericIdentifier_iff.mpr (by decide +kernel)))
    (numberedPrerelease_derives _ (SemVer.numericIdentifier_iff.mpr (by decide +kernel)))
  revert hclaim
  decide +kernel

end YohakuCore
