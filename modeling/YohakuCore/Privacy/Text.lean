import YohakuCore.Model

/-!
# Text primitives

NFC and the full lowercase mapping come from the `unicode-normalization` crate and the Unicode
tables of the standard library. They are parameters here; what a result needs of NFC is stated
as `NfcClosed`. The ECMAScript trim is translated.
-/

namespace YohakuCore

structure UnicodeData where
  nfc : String → String
  toLowercase : String → String

/-- Every contiguous part of an NFC string is in NFC. -/
structure UnicodeData.NfcClosed (u : UnicodeData) : Prop where
  nfc_of_part : ∀ s t : String, t.toList <:+: (u.nfc s).toList → u.nfc t = t

/-- The restriction of the Unicode tables to ASCII text, where NFC changes nothing. -/
def UnicodeData.ascii : UnicodeData where
  nfc s := s
  toLowercase s := String.ofList (s.toList.map Char.toLower)

theorem UnicodeData.ascii_nfcClosed : UnicodeData.ascii.NfcClosed :=
  ⟨fun _ _ _ => rfl⟩

/-- ECMAScript WhiteSpace and LineTerminator, the set `String.prototype.trim` strips. -/
def isJsWhitespace (c : Char) : Bool :=
  (0x2000 ≤ c.toNat && c.toNat ≤ 0x200A) ||
    [0x0009, 0x000A, 0x000B, 0x000C, 0x000D, 0x0020, 0x00A0, 0x1680,
      0x2028, 0x2029, 0x202F, 0x205F, 0x3000, 0xFEFF].contains c.toNat

def jsTrim (value : String) : String :=
  String.ofList ((value.toList.dropWhile isJsWhitespace).rdropWhile isJsWhitespace)

/-- NFC, then trim; an empty result means that the value is not present. -/
def normalizeText (u : UnicodeData) : Option String → Option String
  | none => none
  | some value => if jsTrim (u.nfc value) = "" then none else some (jsTrim (u.nfc value))

/-- NFC, then trim, then lowercase. Applied to both sides of every rule and mapping lookup. -/
def normalizeAppId (u : UnicodeData) (appId : String) : String :=
  u.toLowercase (jsTrim (u.nfc appId))

section Trim

private theorem trim_part {α : Type*} (p : α → Bool) (l : List α) :
    (l.dropWhile p).rdropWhile p <:+: l :=
  ((List.rdropWhile_prefix p (l.dropWhile p)).isInfix).trans (List.dropWhile_suffix p).isInfix

theorem jsTrim_part (s : String) : (jsTrim s).toList <:+: s.toList := by
  simpa only [jsTrim, String.toList_ofList] using trim_part isJsWhitespace s.toList

private theorem dropWhile_eq_self_of_head {α : Type*} (p : α → Bool) (l : List α)
    (h : ∀ a ∈ l.head?, p a = false) : l.dropWhile p = l := by
  cases l with
  | nil => rfl
  | cons a l => simp [h a rfl]

private theorem trimmed_head {α : Type*} (p : α → Bool) (l : List α) :
    ∀ a ∈ ((l.dropWhile p).rdropWhile p).head?, p a = false := by
  intro a ha
  have hpre := List.rdropWhile_prefix p (l.dropWhile p)
  have hmem : a ∈ (l.dropWhile p).head? := by
    obtain ⟨t, ht⟩ := hpre
    rw [← ht]
    cases hd : (l.dropWhile p).rdropWhile p with
    | nil => simp [hd] at ha
    | cons b r => simpa [hd] using ha
  have hne := List.head?_dropWhile_not p l
  rw [Option.mem_def.mp hmem] at hne
  simpa using hne

theorem trim_trim {α : Type*} (p : α → Bool) (l : List α) :
    (((l.dropWhile p).rdropWhile p).dropWhile p).rdropWhile p =
      (l.dropWhile p).rdropWhile p := by
  rw [dropWhile_eq_self_of_head _ _ (trimmed_head _ _), List.rdropWhile_idempotent]

theorem jsTrim_jsTrim (s : String) : jsTrim (jsTrim s) = jsTrim s := by
  unfold jsTrim
  rw [String.toList_ofList, trim_trim]

theorem jsTrim_head {s : String} (h : jsTrim s ≠ "") :
    ∃ c rest, (jsTrim s).toList = c :: rest ∧ isJsWhitespace c = false := by
  cases hchars : (jsTrim s).toList with
  | nil => exact absurd (String.toList_injective (by simpa using hchars)) h
  | cons c rest =>
      refine ⟨c, rest, rfl, ?_⟩
      apply trimmed_head isJsWhitespace s.toList
      rw [jsTrim, String.toList_ofList] at hchars
      simp [hchars]

theorem jsTrim_ne_empty {c : Char} {rest : List Char} (h : isJsWhitespace c = false) :
    jsTrim (String.ofList (c :: rest)) ≠ "" := by
  intro hblank
  have hchars := congrArg String.toList hblank
  rw [jsTrim, String.toList_ofList, String.toList_ofList, List.dropWhile_cons_of_neg (by simp [h])]
    at hchars
  have hall := List.rdropWhile_eq_nil_iff.mp hchars
  simp [h] at hall

end Trim

theorem normalizeText_ne_empty {u : UnicodeData} {value : Option String} {text : String}
    (h : normalizeText u value = some text) : text ≠ "" := by
  cases value with
  | none => simp [normalizeText] at h
  | some value =>
      simp only [normalizeText, Option.ite_none_left_eq_some, Option.some.injEq] at h
      exact h.2 ▸ h.1

theorem normalizeText_head {u : UnicodeData} {value : Option String} {text : String}
    (h : normalizeText u value = some text) :
    ∃ c rest, text.toList = c :: rest ∧ isJsWhitespace c = false := by
  have hne := normalizeText_ne_empty h
  cases value with
  | none => simp [normalizeText] at h
  | some value =>
      simp only [normalizeText, Option.ite_none_left_eq_some, Option.some.injEq] at h
      rw [← h.2] at hne ⊢
      exact jsTrim_head hne

theorem normalizeText_normalizeText {u : UnicodeData} (hu : u.NfcClosed)
    (value : Option String) : normalizeText u (normalizeText u value) = normalizeText u value := by
  cases hn : normalizeText u value with
  | none => rfl
  | some text =>
      cases value with
      | none => simp [normalizeText] at hn
      | some value =>
          have hne := normalizeText_ne_empty hn
          simp only [normalizeText, Option.ite_none_left_eq_some, Option.some.injEq] at hn
          have hfix : u.nfc text = text := by
            rw [← hn.2]
            exact hu.nfc_of_part value _ (jsTrim_part _)
          have htrim : jsTrim text = text := by
            rw [← hn.2, jsTrim_jsTrim]
          simp [normalizeText, hfix, htrim, hne]

example : normalizeAppId UnicodeData.ascii " Code.EXE\t" = "code.exe" := by decide

end YohakuCore
