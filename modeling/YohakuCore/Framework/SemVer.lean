import Mathlib.Data.List.Basic

/-! # Semantic Versioning 2.0.0 -/

namespace YohakuCore.Framework.SemVer

def isDigit (c : Char) : Bool := '0' ≤ c && c ≤ '9'

def isPositiveDigit (c : Char) : Bool := '1' ≤ c && c ≤ '9'

def isLetter (c : Char) : Bool := ('A' ≤ c && c ≤ 'Z') || ('a' ≤ c && c ≤ 'z')

def isNonDigit (c : Char) : Bool := isLetter c || c = '-'

def isIdentifierCharacter (c : Char) : Bool := isDigit c || isNonDigit c

theorem isDigit_iff {c : Char} : isDigit c = true ↔ isPositiveDigit c = true ∨ c = '0' := by
  have hzero : c = '0' ↔ c.toNat = 48 := by
    rw [← Char.toNat_inj]
    rfl
  have hnine : c ≤ '9' ↔ c.toNat ≤ 57 := by
    rw [Char.le_def, UInt32.le_iff_toNat_le]
    rfl
  have hlow (d : Char) : d ≤ c ↔ d.toNat ≤ c.toNat := by
    rw [Char.le_def, UInt32.le_iff_toNat_le]
    rfl
  simp only [isDigit, isPositiveDigit, Bool.and_eq_true, decide_eq_true_eq, hzero, hnine, hlow]
  have h0 : '0'.toNat = 48 := rfl
  have h1 : '1'.toNat = 49 := rfl
  omega

theorem isIdentifierCharacter_ne_dot {c : Char} (h : isIdentifierCharacter c = true) :
    c ≠ '.' := by
  rintro rfl
  revert h
  decide

theorem isIdentifierCharacter_ne_plus {c : Char} (h : isIdentifierCharacter c = true) :
    c ≠ '+' := by
  rintro rfl
  revert h
  decide

theorem isDigit_ne_dash {c : Char} (h : isDigit c = true) : c ≠ '-' := by
  rintro rfl
  revert h
  decide

theorem isDigit_not_nonDigit {c : Char} (h : isDigit c = true) : isNonDigit c = false := by
  have hle (d e : Char) : d ≤ e ↔ d.toNat ≤ e.toNat := by
    rw [Char.le_def, UInt32.le_iff_toNat_le]
    rfl
  have hdash : c ≠ '-' := isDigit_ne_dash h
  simp only [isDigit, Bool.and_eq_true, decide_eq_true_eq, hle] at h
  simp only [isNonDigit, isLetter, Bool.or_eq_false_iff, Bool.and_eq_false_iff,
    decide_eq_false_iff_not, hle, hdash, not_false_eq_true, and_true]
  have h0 : '0'.toNat = 48 := rfl
  have h9 : '9'.toNat = 57 := rfl
  have hA : 'A'.toNat = 65 := rfl
  have ha : 'a'.toNat = 97 := rfl
  omega

/-- One or more characters of one kind. -/
inductive Word (kind : Char → Bool) : List Char → Prop
  | one {c : Char} : kind c = true → Word kind [c]
  | more {c : Char} {l : List Char} : kind c = true → Word kind l → Word kind (c :: l)

inductive NumericIdentifier : List Char → Prop
  | zero : NumericIdentifier ['0']
  | positive {c : Char} : isPositiveDigit c = true → NumericIdentifier [c]
  | digits {c : Char} {l : List Char} :
      isPositiveDigit c = true → Word isDigit l → NumericIdentifier (c :: l)

/-- A word of digits and non-digits with a non-digit somewhere. -/
inductive AlphanumericIdentifier : List Char → Prop
  | single {c : Char} : isNonDigit c = true → AlphanumericIdentifier [c]
  | first {c : Char} {l : List Char} :
      isNonDigit c = true → Word isIdentifierCharacter l → AlphanumericIdentifier (c :: l)
  | last {c : Char} {l : List Char} :
      Word isIdentifierCharacter l → isNonDigit c = true → AlphanumericIdentifier (l ++ [c])
  | inner {c : Char} {l m : List Char} :
      Word isIdentifierCharacter l → isNonDigit c = true → Word isIdentifierCharacter m →
        AlphanumericIdentifier (l ++ c :: m)

inductive PrereleaseIdentifier : List Char → Prop
  | alphanumeric {l : List Char} : AlphanumericIdentifier l → PrereleaseIdentifier l
  | numeric {l : List Char} : NumericIdentifier l → PrereleaseIdentifier l

inductive BuildIdentifier : List Char → Prop
  | alphanumeric {l : List Char} : AlphanumericIdentifier l → BuildIdentifier l
  | digits {l : List Char} : Word isDigit l → BuildIdentifier l

/-- Identifiers and the text that they make up. -/
inductive DotSeparated (identifier : List Char → Prop) : List (List Char) → List Char → Prop
  | one {l : List Char} : identifier l → DotSeparated identifier [l] l
  | more {l text : List Char} {ids : List (List Char)} :
      identifier l → DotSeparated identifier ids text →
        DotSeparated identifier (l :: ids) (l ++ '.' :: text)

inductive VersionCore : List Char → List Char → List Char → List Char → Prop
  | mk {major minor patch : List Char} :
      NumericIdentifier major → NumericIdentifier minor → NumericIdentifier patch →
        VersionCore major minor patch (major ++ '.' :: (minor ++ '.' :: patch))

/-- The parts of a version as they are written. -/
structure Parts where
  major : List Char
  minor : List Char
  patch : List Char
  prerelease : List (List Char)
  build : List (List Char)
  deriving DecidableEq

/-- A valid version and its parts. -/
inductive Derives : Parts → List Char → Prop
  | core {major minor patch text : List Char} : VersionCore major minor patch text →
      Derives ⟨major, minor, patch, [], []⟩ text
  | prerelease {major minor patch text pre : List Char} {ids : List (List Char)} :
      VersionCore major minor patch text → DotSeparated PrereleaseIdentifier ids pre →
        Derives ⟨major, minor, patch, ids, []⟩ (text ++ '-' :: pre)
  | build {major minor patch text build : List Char} {ids : List (List Char)} :
      VersionCore major minor patch text → DotSeparated BuildIdentifier ids build →
        Derives ⟨major, minor, patch, [], ids⟩ (text ++ '+' :: build)
  | full {major minor patch text pre build : List Char} {ids buildIds : List (List Char)} :
      VersionCore major minor patch text → DotSeparated PrereleaseIdentifier ids pre →
        DotSeparated BuildIdentifier buildIds build →
          Derives ⟨major, minor, patch, ids, buildIds⟩ (text ++ '-' :: pre ++ '+' :: build)

theorem word_iff {kind : Char → Bool} {l : List Char} :
    Word kind l ↔ l ≠ [] ∧ l.all kind = true := by
  constructor
  · intro h
    induction h with
    | one hc => simp [hc]
    | more hc _ ih => simp [hc, ih.2]
  · intro h
    induction l with
    | nil => simp at h
    | cons c l ih =>
        simp only [List.all_cons, Bool.and_eq_true] at h
        cases l with
        | nil => exact Word.one h.2.1
        | cons d l => exact Word.more h.2.1 (ih ⟨by simp, h.2.2⟩)

theorem numericIdentifier_iff {l : List Char} :
    NumericIdentifier l ↔ l = ['0'] ∨ (l ≠ [] ∧ l.all isDigit = true ∧ l.head? ≠ some '0') := by
  have hpositive {c : Char} (hc : isPositiveDigit c = true) : c ≠ '0' := by
    rintro rfl
    revert hc
    decide
  constructor
  · intro h
    cases h with
    | zero => exact Or.inl rfl
    | positive hc => simp [isDigit_iff.mpr (Or.inl hc), hpositive hc]
    | digits hc hl =>
        simp [isDigit_iff.mpr (Or.inl hc), hpositive hc, (word_iff.mp hl).2]
  · intro h
    rcases h with rfl | ⟨hne, hall, hhead⟩
    · exact NumericIdentifier.zero
    · cases l with
      | nil => simp at hne
      | cons c l =>
          simp only [List.all_cons, Bool.and_eq_true, List.head?_cons, ne_eq,
            Option.some.injEq] at hall hhead
          have hc : isPositiveDigit c = true := (isDigit_iff.mp hall.1).resolve_right hhead
          cases l with
          | nil => exact NumericIdentifier.positive hc
          | cons d l => exact NumericIdentifier.digits hc (word_iff.mpr ⟨by simp, hall.2⟩)

theorem alphanumericIdentifier_iff {l : List Char} : AlphanumericIdentifier l ↔
    l.all isIdentifierCharacter = true ∧ l.all isDigit = false := by
  have hcharacter {c : Char} (hc : isNonDigit c = true) : isIdentifierCharacter c = true := by
    simp [isIdentifierCharacter, hc]
  have hnot {c : Char} (hc : isNonDigit c = true) : isDigit c = false := by
    by_contra hdigit
    rw [isDigit_not_nonDigit (by simpa using hdigit)] at hc
    simp at hc
  constructor
  · intro h
    cases h with
    | single hc => simp [hcharacter hc, hnot hc]
    | first hc hl => simp [hcharacter hc, hnot hc, (word_iff.mp hl).2]
    | last hl hc => simp [hcharacter hc, hnot hc, (word_iff.mp hl).2]
    | inner hl hc hm => simp [hcharacter hc, hnot hc, (word_iff.mp hl).2, (word_iff.mp hm).2]
  · rintro ⟨hall, hdigits⟩
    -- the text around a character that is no digit
    obtain ⟨c, hmem, hc⟩ : ∃ c ∈ l, isDigit c = false := by simpa using hdigits
    obtain ⟨before, after, rfl⟩ := List.append_of_mem hmem
    simp only [List.all_append, List.all_cons, Bool.and_eq_true] at hall
    obtain ⟨hbefore, hchar, hafter⟩ := hall
    have hnon : isNonDigit c = true := by simpa [isIdentifierCharacter, hc] using hchar
    cases before with
    | nil =>
        cases after with
        | nil => exact AlphanumericIdentifier.single hnon
        | cons d after =>
            exact AlphanumericIdentifier.first hnon (word_iff.mpr ⟨by simp, hafter⟩)
    | cons d before =>
        have hword : Word isIdentifierCharacter (d :: before) := word_iff.mpr ⟨by simp, hbefore⟩
        cases after with
        | nil => exact AlphanumericIdentifier.last hword hnon
        | cons e after =>
            exact AlphanumericIdentifier.inner hword hnon (word_iff.mpr ⟨by simp, hafter⟩)

theorem all_identifierCharacter_of_digits {l : List Char} (h : l.all isDigit = true) :
    l.all isIdentifierCharacter = true := by
  simp only [List.all_eq_true] at h ⊢
  intro c hc
  simp [isIdentifierCharacter, h c hc]

theorem buildIdentifier_iff {l : List Char} :
    BuildIdentifier l ↔ l ≠ [] ∧ l.all isIdentifierCharacter = true := by
  constructor
  · intro h
    cases h with
    | alphanumeric h =>
        obtain ⟨hall, hdigits⟩ := alphanumericIdentifier_iff.mp h
        refine ⟨?_, hall⟩
        rintro rfl
        simp at hdigits
    | digits h =>
        obtain ⟨hne, hall⟩ := word_iff.mp h
        exact ⟨hne, all_identifierCharacter_of_digits hall⟩
  · rintro ⟨hne, hall⟩
    cases hdigits : l.all isDigit with
    | false => exact BuildIdentifier.alphanumeric (alphanumericIdentifier_iff.mpr ⟨hall, hdigits⟩)
    | true => exact BuildIdentifier.digits (word_iff.mpr ⟨hne, hdigits⟩)

theorem prereleaseIdentifier_iff {l : List Char} : PrereleaseIdentifier l ↔
    l ≠ [] ∧ l.all isIdentifierCharacter = true ∧
      (l.all isDigit = true → NumericIdentifier l) := by
  constructor
  · intro h
    cases h with
    | alphanumeric h =>
        obtain ⟨hall, hdigits⟩ := alphanumericIdentifier_iff.mp h
        refine ⟨?_, hall, by simp [hdigits]⟩
        rintro rfl
        simp at hdigits
    | numeric h =>
        refine ⟨?_, ?_, fun _ => h⟩
        · rintro rfl
          simp [numericIdentifier_iff] at h
        · apply all_identifierCharacter_of_digits
          rcases numericIdentifier_iff.mp h with rfl | ⟨-, hall, -⟩
          · decide
          · exact hall
  · rintro ⟨hne, hall, hnumeric⟩
    cases hdigits : l.all isDigit with
    | false =>
        exact PrereleaseIdentifier.alphanumeric (alphanumericIdentifier_iff.mpr ⟨hall, hdigits⟩)
    | true => exact PrereleaseIdentifier.numeric (hnumeric hdigits)

theorem NumericIdentifier.digits_only {l : List Char} (h : NumericIdentifier l) :
    l ≠ [] ∧ l.all isDigit = true := by
  rcases numericIdentifier_iff.mp h with rfl | ⟨hne, hall, -⟩
  · decide
  · exact ⟨hne, hall⟩

/-- The text before the first occurrence of a character, and the text after it when there is one. -/
def cut (sep : Char) : List Char → List Char × Option (List Char)
  | [] => ([], none)
  | c :: l => if c = sep then ([], some l) else (c :: (cut sep l).1, (cut sep l).2)

theorem cut_append_cons {sep : Char} {l : List Char} (h : sep ∉ l) (m : List Char) :
    cut sep (l ++ sep :: m) = (l, some m) := by
  induction l with
  | nil => simp [cut]
  | cons c l ih =>
      simp only [List.mem_cons, not_or] at h
      simp [cut, Ne.symm h.1, ih h.2]

theorem cut_of_notMem {sep : Char} {l : List Char} (h : sep ∉ l) : cut sep l = (l, none) := by
  induction l with
  | nil => rfl
  | cons c l ih =>
      simp only [List.mem_cons, not_or] at h
      simp [cut, Ne.symm h.1, ih h.2]

theorem append_cut (sep : Char) (l : List Char) :
    (cut sep l).1 ++ ((cut sep l).2.map (sep :: ·)).getD [] = l := by
  induction l with
  | nil => rfl
  | cons c l ih =>
      by_cases hc : c = sep
      · simp [cut, hc]
      · simp [cut, hc, ih]

theorem dotSeparated_iff {identifier : List Char → Prop} (hdot : ∀ l, identifier l → '.' ∉ l)
    {ids : List (List Char)} {text : List Char} : DotSeparated identifier ids text ↔
      text.splitOn '.' = ids ∧ ∀ l ∈ ids, identifier l := by
  constructor
  · intro h
    induction h with
    | one hl => simp [List.splitOn_eq_singleton (hdot _ hl), hl]
    | more hl _ ih =>
        simp only [List.splitOn_append_cons_self_of_not_mem (hdot _ hl), ih.1, List.mem_cons,
          forall_eq_or_imp, true_and]
        exact ⟨hl, ih.2⟩
  · rintro ⟨hsplit, hall⟩
    have htext : text = ['.'].intercalate ids := by
      rw [← hsplit, List.intercalate_splitOn]
    have hne : ids ≠ [] := by
      rw [← hsplit]
      exact List.splitOn_ne_nil '.' text
    clear hsplit
    induction ids generalizing text with
    | nil => simp at hne
    | cons l ids ih =>
        have hl := hall l (by simp)
        cases ids with
        | nil =>
            obtain rfl : text = l := by simpa using htext
            exact DotSeparated.one hl
        | cons m ids =>
            have hrest : text = l ++ '.' :: ['.'].intercalate (m :: ids) := by
              simpa [List.intercalate_cons_of_ne_nil] using htext
            rw [hrest]
            apply DotSeparated.more hl
            exact ih (fun l hl => hall l (by simp [hl])) rfl (by simp)

theorem PrereleaseIdentifier.characters {l : List Char} (h : PrereleaseIdentifier l) :
    l.all isIdentifierCharacter = true :=
  (prereleaseIdentifier_iff.mp h).2.1

theorem BuildIdentifier.characters {l : List Char} (h : BuildIdentifier l) :
    l.all isIdentifierCharacter = true :=
  (buildIdentifier_iff.mp h).2

theorem dot_notMem_of_characters {l : List Char} (h : l.all isIdentifierCharacter = true) :
    '.' ∉ l := by
  intro hmem
  exact isIdentifierCharacter_ne_dot (List.all_eq_true.mp h '.' hmem) rfl

theorem plus_notMem_of_characters {l : List Char} (h : l.all isIdentifierCharacter = true) :
    '+' ∉ l := by
  intro hmem
  exact isIdentifierCharacter_ne_plus (List.all_eq_true.mp h '+' hmem) rfl

theorem NumericIdentifier.dash_notMem {l : List Char} (h : NumericIdentifier l) : '-' ∉ l := by
  intro hmem
  exact isDigit_ne_dash (List.all_eq_true.mp h.digits_only.2 '-' hmem) rfl

theorem NumericIdentifier.characters {l : List Char} (h : NumericIdentifier l) :
    l.all isIdentifierCharacter = true :=
  all_identifierCharacter_of_digits h.digits_only.2

theorem versionCore_iff {major minor patch text : List Char} :
    VersionCore major minor patch text ↔ text.splitOn '.' = [major, minor, patch] ∧
      NumericIdentifier major ∧ NumericIdentifier minor ∧ NumericIdentifier patch := by
  constructor
  · rintro ⟨hmajor, hminor, hpatch⟩
    have hdot {l : List Char} (h : NumericIdentifier l) := dot_notMem_of_characters h.characters
    rw [List.splitOn_append_cons_self_of_not_mem (hdot hmajor),
      List.splitOn_append_cons_self_of_not_mem (hdot hminor),
      List.splitOn_eq_singleton (hdot hpatch)]
    exact ⟨rfl, hmajor, hminor, hpatch⟩
  · rintro ⟨hsplit, hmajor, hminor, hpatch⟩
    have htext : text = major ++ '.' :: (minor ++ '.' :: patch) := by
      have htext : ['.'].intercalate (text.splitOn '.') = text := List.intercalate_splitOn '.'
      rw [← htext, hsplit]
      simp [List.intercalate_cons_of_ne_nil]
    rw [htext]
    exact VersionCore.mk hmajor hminor hpatch

theorem VersionCore.plus_notMem {major minor patch text : List Char}
    (h : VersionCore major minor patch text) : '+' ∉ text := by
  obtain ⟨hmajor, hminor, hpatch⟩ := h
  have hplus {l : List Char} (h : NumericIdentifier l) := plus_notMem_of_characters h.characters
  simp [hplus hmajor, hplus hminor, hplus hpatch]

theorem VersionCore.dash_notMem {major minor patch text : List Char}
    (h : VersionCore major minor patch text) : '-' ∉ text := by
  obtain ⟨hmajor, hminor, hpatch⟩ := h
  simp [hmajor.dash_notMem, hminor.dash_notMem, hpatch.dash_notMem]

theorem DotSeparated.plus_notMem {ids : List (List Char)} {text : List Char}
    (h : DotSeparated PrereleaseIdentifier ids text) : '+' ∉ text := by
  induction h with
  | one hl => exact plus_notMem_of_characters hl.characters
  | more hl _ ih => simp [plus_notMem_of_characters hl.characters, ih]

/-- Identifiers of a part that may be missing. -/
def OptionalIdentifiers (identifier : List Char → Prop) (ids : List (List Char)) :
    Option (List Char) → Prop
  | none => ids = []
  | some text => DotSeparated identifier ids text

theorem OptionalIdentifiers.unique {identifier : List Char → Prop}
    (hdot : ∀ l, identifier l → '.' ∉ l) {ids ids' : List (List Char)} {text : Option (List Char)}
    (h : OptionalIdentifiers identifier ids text) (h' : OptionalIdentifiers identifier ids' text) :
    ids = ids' := by
  cases text with
  | none => exact h.trans h'.symm
  | some text =>
      exact ((dotSeparated_iff hdot).mp h).1.symm.trans ((dotSeparated_iff hdot).mp h').1

/-- A version is taken apart at its first plus sign, and what is before it at its first dash. -/
theorem derives_iff {p : Parts} {text : List Char} : Derives p text ↔
    VersionCore p.major p.minor p.patch (cut '-' (cut '+' text).1).1 ∧
      OptionalIdentifiers PrereleaseIdentifier p.prerelease (cut '-' (cut '+' text).1).2 ∧
      OptionalIdentifiers BuildIdentifier p.build (cut '+' text).2 := by
  constructor
  · intro h
    cases h with
    | core hcore =>
        rw [cut_of_notMem hcore.plus_notMem, cut_of_notMem hcore.dash_notMem]
        exact ⟨hcore, rfl, rfl⟩
    | @prerelease major minor patch text pre ids hcore hpre =>
        have hplus : '+' ∉ text ++ '-' :: pre := by
          simp [hcore.plus_notMem, hpre.plus_notMem]
        rw [cut_of_notMem hplus, cut_append_cons hcore.dash_notMem]
        exact ⟨hcore, hpre, rfl⟩
    | build hcore hbuild =>
        rw [cut_append_cons hcore.plus_notMem, cut_of_notMem hcore.dash_notMem]
        exact ⟨hcore, rfl, hbuild⟩
    | @full major minor patch text pre build ids buildIds hcore hpre hbuild =>
        have hplus : '+' ∉ text ++ '-' :: pre := by
          simp [hcore.plus_notMem, hpre.plus_notMem]
        rw [cut_append_cons hplus, cut_append_cons hcore.dash_notMem]
        exact ⟨hcore, hpre, hbuild⟩
  · rintro ⟨hcore, hpre, hbuild⟩
    obtain ⟨major, minor, patch, ids, buildIds⟩ := p
    have hfront := append_cut '-' (cut '+' text).1
    have htext := append_cut '+' text
    rw [← hfront] at htext
    rw [← htext]
    generalize (cut '-' (cut '+' text).1).2 = pre at *
    generalize (cut '+' text).2 = build at *
    cases pre with
    | none =>
        obtain rfl : ids = [] := hpre
        cases build with
        | none =>
            obtain rfl : buildIds = [] := hbuild
            simpa using Derives.core hcore
        | some build => simpa using Derives.build hcore hbuild
    | some pre =>
        cases build with
        | none =>
            obtain rfl : buildIds = [] := hbuild
            simpa using Derives.prerelease hcore hpre
        | some build => simpa using Derives.full hcore hpre hbuild

theorem Derives.identifiers {p : Parts} {text : List Char} (h : Derives p text) :
    (NumericIdentifier p.major ∧ NumericIdentifier p.minor ∧ NumericIdentifier p.patch) ∧
      ∀ l ∈ p.prerelease, PrereleaseIdentifier l := by
  obtain ⟨hcore, hpre, -⟩ := derives_iff.mp h
  refine ⟨(versionCore_iff.mp hcore).2, ?_⟩
  cases hcut : (cut '-' (cut '+' text).1).2 with
  | none =>
      rw [hcut] at hpre
      have hnil : p.prerelease = [] := hpre
      simp [hnil]
  | some pre =>
      rw [hcut] at hpre
      exact ((dotSeparated_iff (fun l hl => dot_notMem_of_characters hl.characters)).mp hpre).2

theorem Derives.unique {p q : Parts} {text : List Char} (hp : Derives p text)
    (hq : Derives q text) : p = q := by
  obtain ⟨hcore, hpre, hbuild⟩ := derives_iff.mp hp
  obtain ⟨hcore', hpre', hbuild'⟩ := derives_iff.mp hq
  have hnumbers := (versionCore_iff.mp hcore).1.symm.trans (versionCore_iff.mp hcore').1
  simp only [List.cons.injEq, and_true] at hnumbers
  obtain ⟨major, minor, patch, ids, buildIds⟩ := p
  obtain ⟨major', minor', patch', ids', buildIds'⟩ := q
  have hids := hpre.unique (fun l hl => dot_notMem_of_characters hl.characters) hpre'
  have hbuildIds := hbuild.unique (fun l hl => dot_notMem_of_characters hl.characters) hbuild'
  simp only at hnumbers hids hbuildIds
  rw [hnumbers.1, hnumbers.2.1, hnumbers.2.2, hids, hbuildIds]

end YohakuCore.Framework.SemVer
