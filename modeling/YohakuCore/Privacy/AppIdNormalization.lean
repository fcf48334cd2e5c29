import YohakuCore.Privacy.RuleCommands
import YohakuCore.Privacy.Evaluator
import YohakuCore.Framework.LowercaseNormalization
import Mathlib.Data.List.Chain

/-!
# Normalizing an identifier twice

A stored rule holds its identifier normalized, and a lookup normalizes it once more. The lowercase
comes last, and may leave a letter before a mark that it composes with.
-/

namespace YohakuCore

open Framework

def UnicodeData.ofTables (T : UnicodeTables) : UnicodeData where
  nfc s := String.ofList (T.nfc s.toList)
  toLowercase s := String.ofList (T.lowercase s.toList)

@[simp] theorem ofTables_nfc (T : UnicodeTables) (s : String) :
    (UnicodeData.ofTables T).nfc s = String.ofList (T.nfc s.toList) := rfl

@[simp] theorem ofTables_toLowercase (T : UnicodeTables) (s : String) :
    (UnicodeData.ofTables T).toLowercase s = String.ofList (T.lowercase s.toList) := rfl

/-- What the character data promises. -/
structure CharacterDatabase (T : UnicodeTables) : Prop where
  lawful : T.Lawful
  nfcClosed : (UnicodeData.ofTables T).NfcClosed
  lower_white : ∀ c, isJsWhitespace c = false → ∀ x ∈ T.lowerChar c, isJsWhitespace x = false

section Idempotence

variable {T : UnicodeTables}

private theorem dropWhile_eq_self {α : Type*} {p : α → Bool} {l : List α} :
    l.dropWhile p = l ↔ ∀ a ∈ l.head?, p a = false := by
  rw [List.dropWhile_eq_self_iff]
  cases l <;> simp

private theorem rdropWhile_eq_self {α : Type*} {p : α → Bool} {l : List α} :
    l.rdropWhile p = l ↔ ∀ a ∈ l.getLast?, p a = false := by
  rw [List.rdropWhile, List.reverse_eq_iff, dropWhile_eq_self, List.head?_reverse]

theorem trim_eq_self_iff {α : Type*} {p : α → Bool} {l : List α} :
    (l.dropWhile p).rdropWhile p = l ↔
      (∀ a ∈ l.head?, p a = false) ∧ ∀ a ∈ l.getLast?, p a = false := by
  rw [← dropWhile_eq_self, ← rdropWhile_eq_self]
  constructor
  · intro h
    have hle := (List.rdropWhile_prefix p (l.dropWhile p)).length_le
    rw [h] at hle
    have hfront := (List.dropWhile_suffix p (l := l)).eq_of_length_le hle
    exact ⟨hfront, by rwa [hfront] at h⟩
  · intro h
    rw [h.1, h.2]

theorem head?_markFinalSigmas (behind text : List Char) :
    ∀ a ∈ (T.markFinalSigmas behind text).head?, a = 'ς' ∨ a ∈ text.head? := by
  cases text with
  | nil => simp [UnicodeTables.markFinalSigmas]
  | cons c rest =>
      simp only [UnicodeTables.markFinalSigmas]
      split <;> simp

theorem getLast?_markFinalSigmas (behind text : List Char) :
    ∀ a ∈ (T.markFinalSigmas behind text).getLast?, a = 'ς' ∨ a ∈ text.getLast? := by
  induction text generalizing behind with
  | nil => simp [UnicodeTables.markFinalSigmas]
  | cons c rest ih =>
      cases rest with
      | nil =>
          simp only [UnicodeTables.markFinalSigmas]
          split <;> simp
      | cons d rest =>
          intro a ha
          have hlast := ih (c :: behind) a
          simp only [UnicodeTables.markFinalSigmas, List.getLast?_cons_cons] at ha hlast ⊢
          exact hlast ha

private theorem head?_flatMap_mem {f : Char → List Char} (hne : ∀ c, f c ≠ [])
    (text : List Char) : ∀ a ∈ (text.flatMap f).head?, ∃ c ∈ text.head?, a ∈ f c := by
  intro a ha
  cases text with
  | nil => simp at ha
  | cons c rest =>
      cases hf : f c with
      | nil => exact absurd hf (hne c)
      | cons x xs =>
          have hx : x = a := by simpa [hf] using ha
          exact ⟨c, rfl, by simp [hf, hx]⟩

private theorem getLast?_flatMap_mem {f : Char → List Char} (hne : ∀ c, f c ≠ [])
    (text : List Char) : ∀ a ∈ (text.flatMap f).getLast?, ∃ c ∈ text.getLast?, a ∈ f c := by
  intro a ha
  rw [← List.head?_reverse, List.reverse_flatMap] at ha
  obtain ⟨c, hc, hmem⟩ := head?_flatMap_mem (f := fun c => (f c).reverse) (by simp [hne])
    text.reverse a ha
  rw [List.head?_reverse] at hc
  exact ⟨c, hc, by simpa using hmem⟩

variable (hT : CharacterDatabase T)
include hT

theorem CharacterDatabase.lowercase_trimmed {text : List Char}
    (htrim : (text.dropWhile isJsWhitespace).rdropWhile isJsWhitespace = text) :
    ((T.lowercase text).dropWhile isJsWhitespace).rdropWhile isJsWhitespace =
      T.lowercase text := by
  obtain ⟨hhead, hlast⟩ := trim_eq_self_iff.mp htrim
  have hne := hT.lawful.lower_ne_nil
  have hsigma : isJsWhitespace 'ς' = false := by decide
  apply trim_eq_self_iff.mpr
  constructor
  · intro a ha
    obtain ⟨c, hc, hmem⟩ := head?_flatMap_mem hne _ a ha
    apply hT.lower_white c _ a hmem
    rcases head?_markFinalSigmas [] text c hc with rfl | hc
    · exact hsigma
    · exact hhead c hc
  · intro a ha
    obtain ⟨c, hc, hmem⟩ := getLast?_flatMap_mem hne _ a ha
    apply hT.lower_white c _ a hmem
    rcases getLast?_markFinalSigmas [] text c hc with rfl | hc
    · exact hsigma
    · exact hlast c hc

theorem CharacterDatabase.nfc_of_part (text : List Char) {part : List Char}
    (hpart : part <:+: T.nfc text) :
    T.nfc part = part := by
  have hclosed := hT.nfcClosed.nfc_of_part (String.ofList text) (String.ofList part)
    (by simpa using hpart)
  have hchars := congrArg String.toList hclosed
  simpa using hchars

theorem CharacterDatabase.normalizeAppId_lowercase (text : List Char) :
    normalizeAppId (.ofTables T) (String.ofList (T.lowercase text)) =
      jsTrim (String.ofList (T.nfc (T.lowercase text))) := by
  have hstable := hT.lawful.stable_nfc (hT.lawful.stable_lowercase text)
  have hpart := (jsTrim_part (String.ofList (T.nfc (T.lowercase text)))).subset
  rw [normalizeAppId, ofTables_nfc, String.toList_ofList, ofTables_toLowercase,
    hT.lawful.lowercase_of_stable, String.ofList_toList]
  intro x hx
  exact hstable x (by simpa using hpart hx)

/-- It changes nothing at all exactly when the lowercase of the composed text is composed. -/
theorem CharacterDatabase.jsTrim_nfc_lowercase_iff {text : List Char}
    (htrim : (text.dropWhile isJsWhitespace).rdropWhile isJsWhitespace = text) :
    jsTrim (String.ofList (T.nfc (T.lowercase text))) = String.ofList (T.lowercase text) ↔
      T.nfc (T.lowercase text) = T.lowercase text := by
  constructor
  · intro h
    have hpart := jsTrim_part (String.ofList (T.nfc (T.lowercase text)))
    rw [h, String.toList_ofList, String.toList_ofList] at hpart
    exact hT.nfc_of_part _ hpart
  · intro h
    rw [h, jsTrim, String.toList_ofList, hT.lowercase_trimmed htrim]

theorem CharacterDatabase.normalizeAppId_twice_iff (appId : String) :
    normalizeAppId (.ofTables T) (normalizeAppId (.ofTables T) appId) =
        normalizeAppId (.ofTables T) appId ↔
      T.TextKeepsPace (T.nfd (jsTrim ((UnicodeData.ofTables T).nfc appId)).toList) := by
  have hpart := jsTrim_part ((UnicodeData.ofTables T).nfc appId)
  have htrim := congrArg String.toList (jsTrim_jsTrim ((UnicodeData.ofTables T).nfc appId))
  have honce : normalizeAppId (.ofTables T) appId =
      String.ofList (T.lowercase (jsTrim ((UnicodeData.ofTables T).nfc appId)).toList) := rfl
  rw [honce, hT.normalizeAppId_lowercase]
  generalize jsTrim ((UnicodeData.ofTables T).nfc appId) = trimmed at hpart htrim ⊢
  rw [jsTrim, String.toList_ofList] at htrim
  rw [hT.jsTrim_nfc_lowercase_iff htrim]
  apply hT.lawful.nfc_lowercase_iff
  intro part hinfix
  apply hT.nfc_of_part appId.toList
  simpa using hinfix.trans hpart

end Idempotence

/-! ### The letter h with a line below

U+1E96 is composed of the small letter and the mark; its capital has no composed form. -/

section LineBelow

def lineBelow : UnicodeTables where
  decomposition c := if c = 'ẖ' then ['h', '\u0331'] else [c]
  combiningClass c := if c = '\u0331' then 220 else 0
  composite a b := if a = 'h' ∧ b = '\u0331' then some 'ẖ' else none
  lowerChar c := if c = 'H' then ['h'] else if c = 'Σ' then ['σ'] else [c]
  cased c := ['H', 'h', 'ẖ', 'Σ', 'σ', 'ς'].contains c
  caseIgnorable c := c = '\u0331'

/-- No small letter stands right before a mark. -/
abbrev Apart : List Char → Prop := List.IsChain (fun a b => ¬ (a = 'h' ∧ b = '\u0331'))

private theorem mem_lineBelow_lower {c x : Char} (hx : x ∈ lineBelow.lowerChar c) :
    x = 'h' ∨ x = 'σ' ∨ (x = c ∧ c ≠ 'H' ∧ c ≠ 'Σ') := by
  by_cases hH : c = 'H'
  · simp [lineBelow, hH] at hx
    simp [hx]
  · by_cases hS : c = 'Σ'
    · simp [lineBelow, hS] at hx
      simp [hx]
    · simp [lineBelow, hH, hS] at hx
      simp [hx, hH, hS]

theorem lineBelow_lawful : lineBelow.Lawful where
  decomposition_ne_nil c := by
    simp only [lineBelow]
    split <;> simp
  decomposition_full c x hx := by
    simp only [lineBelow] at hx ⊢
    split at hx
    · simp at hx
      rcases hx with rfl | rfl <;> decide
    · simp at hx
      simp [*]
  composite_decomposition a b p hp := by
    simp only [lineBelow, Option.ite_none_right_eq_some, Option.some.injEq] at hp
    obtain ⟨⟨rfl, rfl⟩, rfl⟩ := hp
    decide
  lower_ne_nil c := by
    simp only [lineBelow]
    split
    · simp
    · split <;> simp
  lower_stable c x hx := by
    rcases mem_lineBelow_lower hx with rfl | rfl | ⟨rfl, hH, hS⟩
    · decide
    · decide
    · simp [lineBelow, hH, hS]
  lower_decomposed c hc := by
    by_cases hH : c = 'H'
    · subst hH
      decide
    · by_cases hS : c = 'Σ'
      · subst hS
        decide
      · have hlower : lineBelow.lowerChar c = [c] := by simp [lineBelow, hH, hS]
        simp [UnicodeTables.small, hlower, hc]
  lower_decomposition c := by
    by_cases hH : c = 'H'
    · subst hH
      decide
    · by_cases hS : c = 'Σ'
      · subst hS
        decide
      · by_cases hh : c = 'ẖ'
        · subst hh
          decide
        · simp [lineBelow, hH, hS, hh]
  lower_composite_starter a b p hp := by
    simp only [lineBelow, Option.ite_none_right_eq_some, Option.some.injEq] at hp
    obtain ⟨⟨rfl, rfl⟩, rfl⟩ := hp
    decide
  lower_composite a b p p' hp hp' := by
    simp only [lineBelow, Option.ite_none_right_eq_some, Option.some.injEq] at hp
    obtain ⟨⟨rfl, rfl⟩, rfl⟩ := hp
    have hself : lineBelow.composite (lineBelow.small 'h') (lineBelow.small '\u0331') =
      some 'ẖ' := by decide
    rw [hself] at hp'
    rw [← Option.some.inj hp']
    decide
  lower_composite_apart a b p hp hnone := by
    simp only [lineBelow, Option.ite_none_right_eq_some, Option.some.injEq] at hp
    obtain ⟨⟨rfl, rfl⟩, rfl⟩ := hp
    exact absurd hnone (by decide)
  capitalSigma := ⟨by decide, by decide, by simp [lineBelow], by simp [lineBelow]⟩
  finalSigma := ⟨⟨by decide, by decide, by simp [lineBelow], by simp [lineBelow]⟩, by decide⟩
  smallSigma := by
    have hsmall : lineBelow.small 'Σ' = 'σ' := by decide
    rw [hsmall]
    exact ⟨⟨by decide, by decide, by simp [lineBelow], by simp [lineBelow]⟩, by decide⟩

private theorem lineBelow_nfd (text : List Char) :
    lineBelow.nfd text = text.flatMap lineBelow.decomposition := by
  have hstays : ∀ l, lineBelow.reorder l = l := by
    intro l
    induction l with
    | nil => rfl
    | cons c rest ih =>
        rw [UnicodeTables.reorder, ih]
        cases rest with
        | nil => rfl
        | cons d rest =>
            have hclass : ¬ (0 < lineBelow.combiningClass d ∧
                lineBelow.combiningClass d < lineBelow.combiningClass c) := by
              simp only [lineBelow]
              split <;> split <;> omega
            rw [UnicodeTables.insertMark, if_neg hclass]
  rw [UnicodeTables.nfd, hstays]

private theorem lineBelow_joined (starter c : Char) {kept : List Char}
    (hkept : ∀ k ∈ kept, k = '\u0331') :
    lineBelow.joined starter kept c =
      if kept = [] ∧ starter = 'h' ∧ c = '\u0331' then some 'ẖ' else none := by
  cases kept with
  | nil => simp [UnicodeTables.joined, UnicodeTables.unblocked, lineBelow]
  | cons k rest =>
      rw [hkept k (by simp)]
      by_cases hc : c = '\u0331' <;>
        simp [UnicodeTables.joined, UnicodeTables.unblocked, lineBelow, hc]

private theorem lineBelow_class {c : Char} : lineBelow.combiningClass c = 0 ↔ c ≠ '\u0331' := by
  simp [lineBelow]

private theorem lineBelow_composeFrom (starter : Char) (kept : List Char) {text : List Char}
    (hkept : ∀ k ∈ kept, k = '\u0331') (hapart : Apart (starter :: (kept ++ text))) :
    lineBelow.composeFrom starter kept (text.flatMap lineBelow.decomposition) =
      starter :: (kept ++ text) := by
  induction text generalizing starter kept with
  | nil => simp [UnicodeTables.composeFrom]
  | cons c rest ih =>
      have hjoined : lineBelow.joined starter kept c = none := by
        rw [lineBelow_joined starter c hkept, if_neg]
        rintro ⟨rfl, hstarter⟩
        exact (List.isChain_cons_cons.mp hapart).1 hstarter
      have hafter : Apart (c :: rest) :=
        hapart.infix ((List.suffix_append kept _).trans (List.suffix_cons starter _)).isInfix
      by_cases hc : c = 'ẖ'
      · have hdec : lineBelow.decomposition c = ['h', '\u0331'] := by simp [lineBelow, hc]
        have hih := ih 'ẖ' [] (by simp) (by simpa [hc] using hafter)
        have hleft : lineBelow.joined starter kept 'h' = none := by
          simp [lineBelow_joined starter 'h' hkept]
        have hright : lineBelow.joined 'h' [] '\u0331' = some 'ẖ' := by decide
        rw [List.flatMap_cons, hdec, List.cons_append,
          UnicodeTables.composeFrom_of_none hleft, if_pos (by decide), List.cons_append,
          UnicodeTables.composeFrom_of_some hright, List.nil_append, hih, hc]
        simp
      · have hdec : lineBelow.decomposition c = [c] := by simp [lineBelow, hc]
        rw [List.flatMap_cons, hdec, List.cons_append, List.nil_append,
          UnicodeTables.composeFrom_of_none hjoined]
        by_cases hmark : c = '\u0331'
        · have hih := ih starter (kept ++ [c])
            (by simpa [hmark, or_imp, forall_and] using hkept) (by simpa using hapart)
          rw [if_neg (by simp [lineBelow_class, hmark]), hih]
          simp
        · have hih := ih c [] (by simp) (by simpa using hafter)
          rw [if_pos (lineBelow_class.mpr hmark), hih]
          simp

private theorem lineBelow_nfc {text : List Char} (hapart : Apart text) :
    lineBelow.nfc text = text := by
  rw [UnicodeTables.nfc, lineBelow_nfd]
  induction text with
  | nil => rfl
  | cons c rest ih =>
      by_cases hc : c = 'ẖ'
      · have hdec : lineBelow.decomposition c = ['h', '\u0331'] := by simp [lineBelow, hc]
        have hright : lineBelow.joined 'h' [] '\u0331' = some 'ẖ' := by decide
        have hfrom := lineBelow_composeFrom 'ẖ' [] (by simp)
          (by simpa [hc] using hapart)
        rw [List.flatMap_cons, hdec, List.cons_append, UnicodeTables.compose,
          if_pos (by decide), List.cons_append, UnicodeTables.composeFrom_of_some hright,
          List.nil_append, hfrom, hc]
        simp
      · have hdec : lineBelow.decomposition c = [c] := by simp [lineBelow, hc]
        rw [List.flatMap_cons, hdec, List.cons_append, List.nil_append, UnicodeTables.compose]
        by_cases hmark : c = '\u0331'
        · rw [if_neg (by simp [lineBelow_class, hmark]), ih hapart.tail]
        · have hfrom := lineBelow_composeFrom c [] (by simp)
            (by simpa using hapart)
          rw [if_pos (lineBelow_class.mpr hmark), hfrom]
          simp

private theorem apart_of_notMem {text : List Char} (htext : 'h' ∉ text) : Apart text := by
  induction text with
  | nil => simp
  | cons c rest ih =>
      simp only [List.mem_cons, not_or] at htext
      exact List.isChain_cons.mpr ⟨fun d _ hcd => htext.1 hcd.1.symm, ih htext.2⟩

private theorem apart_starter {starter : Char} {kept : List Char}
    (hkept : ∀ k ∈ kept, k = '\u0331') (hblocked : kept ≠ [] → starter ≠ 'h') :
    Apart (starter :: kept) := by
  by_cases hk : kept = []
  · simp [hk]
  · apply apart_of_notMem
    intro hmem
    rcases List.mem_cons.mp hmem with hh | hh
    · exact hblocked hk hh.symm
    · exact absurd (hkept _ hh) (by decide)

private theorem lineBelow_composeFrom_apart (starter : Char) (kept text : List Char)
    (hkept : ∀ k ∈ kept, k = '\u0331') (hstarter : starter ≠ '\u0331')
    (hblocked : kept ≠ [] → starter ≠ 'h') :
    ∃ c rest, lineBelow.composeFrom starter kept text = c :: rest ∧ c ≠ '\u0331' ∧
      Apart (c :: rest) := by
  induction text generalizing starter kept with
  | nil => exact ⟨starter, kept, rfl, hstarter, apart_starter hkept hblocked⟩
  | cons c rest ih =>
      have hjoined := lineBelow_joined starter c hkept
      by_cases hh : kept = [] ∧ starter = 'h' ∧ c = '\u0331'
      · rw [if_pos hh] at hjoined
        rw [UnicodeTables.composeFrom_of_some hjoined, hh.1]
        exact ih 'ẖ' [] (by simp) (by decide) (by simp)
      · rw [if_neg hh] at hjoined
        rw [UnicodeTables.composeFrom_of_none hjoined]
        by_cases hmark : c = '\u0331'
        · rw [if_neg (by simp [lineBelow_class, hmark])]
          apply ih starter (kept ++ [c]) (by simpa [hmark, or_imp, forall_and] using hkept) hstarter
          intro _ heq
          exact hh ⟨by_contra fun hk => hblocked hk heq, heq, hmark⟩
        · rw [if_pos (lineBelow_class.mpr hmark)]
          obtain ⟨d, tail, heq, hd, hapart⟩ := ih c [] (by simp) hmark (by simp)
          refine ⟨starter, kept ++ d :: tail, by rw [heq], hstarter, ?_⟩
          rw [← List.cons_append]
          apply (apart_starter hkept hblocked).append hapart
          intro x _ y hy hxy
          exact hd (by simpa [hxy.2] using hy)

private theorem lineBelow_compose_apart (text : List Char) : Apart (lineBelow.compose text) := by
  induction text with
  | nil => simp [UnicodeTables.compose]
  | cons c rest ih =>
      rw [UnicodeTables.compose]
      by_cases hmark : c = '\u0331'
      · rw [if_neg (by simp [lineBelow_class, hmark])]
        refine List.isChain_cons.mpr ⟨?_, ih⟩
        intro d _ hcd
        rw [hmark] at hcd
        exact absurd hcd.1 (by decide)
      · rw [if_pos (lineBelow_class.mpr hmark)]
        obtain ⟨d, tail, heq, -, hapart⟩ := lineBelow_composeFrom_apart c [] rest
          (by simp) hmark (by simp)
        rw [heq]
        exact hapart

theorem lineBelow_database : CharacterDatabase lineBelow where
  lawful := lineBelow_lawful
  nfcClosed := by
    refine ⟨fun s t hpart => ?_⟩
    have hapart : Apart (lineBelow.nfc s.toList) := lineBelow_compose_apart _
    rw [ofTables_nfc, String.toList_ofList] at hpart
    have hpartApart : Apart t.toList :=
      hapart.infix hpart
    rw [ofTables_nfc, lineBelow_nfc hpartApart, String.ofList_toList]
  lower_white c hc x hx := by
    rcases mem_lineBelow_lower hx with rfl | rfl | ⟨rfl, -, -⟩
    · decide
    · decide
    · exact hc

end LineBelow

/-- Normalizing an identifier twice is normalizing it once exactly when, in the composed and
trimmed identifier, the small letters compose along with their capitals; and exactly then a rule
stored for the program is found for it. -/
theorem normalizeAppId_idempotent_iff {T : UnicodeTables} (hT : CharacterDatabase T)
    (appId : String) :
    (normalizeAppId (.ofTables T) (normalizeAppId (.ofTables T) appId) =
        normalizeAppId (.ofTables T) appId ↔
      T.TextKeepsPace (T.nfd (jsTrim ((UnicodeData.ofTables T).nfc appId)).toList)) ∧
    ((∀ (config : PrivacyConfig), ∀ rule ∈ config.rules,
        rule.appId = normalizeAppId (.ofTables T) appId →
          (findRule (.ofTables T) config appId).isSome) ↔
      T.TextKeepsPace (T.nfd (jsTrim ((UnicodeData.ofTables T).nfc appId)).toList)) := by
  have htwice := hT.normalizeAppId_twice_iff appId
  refine ⟨htwice, ?_⟩
  rw [← htwice]
  constructor
  · intro hfound
    have hone := hfound
      { defaultPrivacyConfig with
        rules := [⟨normalizeAppId (.ofTables T) appId, .hide, .inherit, .inherit, none⟩] }
      _ (List.mem_singleton_self _) rfl
    rw [findRule, List.find?_isSome] at hone
    obtain ⟨rule, hrule, hkey⟩ := hone
    rw [List.mem_singleton.mp hrule] at hkey
    exact of_decide_eq_true hkey
  · intro hfix config rule hmem hrule
    rw [findRule, List.find?_isSome]
    exact ⟨rule, hmem, by simp [hrule, hfix]⟩

theorem normalizeAppId_idempotent_lineBelow :
    (normalizeAppId (.ofTables lineBelow) (normalizeAppId (.ofTables lineBelow) "h\u0331") =
      normalizeAppId (.ofTables lineBelow) "h\u0331") ∧
    normalizeAppId (.ofTables lineBelow) (normalizeAppId (.ofTables lineBelow) "H\u0331") ≠
      normalizeAppId (.ofTables lineBelow) "H\u0331" :=
  ⟨(normalizeAppId_idempotent_iff lineBelow_database "h\u0331").1.mpr (by decide),
    mt (normalizeAppId_idempotent_iff lineBelow_database "H\u0331").1.mp (by decide)⟩

/-- The capital with the mark: the rule that hides the program is stored under the small letter
and the mark, and the lookup compares their composite. -/
theorem normalizeAppId_capital_lineBelow :
    normalizeAppId (.ofTables lineBelow) "H\u0331" = "h\u0331" ∧
    normalizeAppId (.ofTables lineBelow) (normalizeAppId (.ofTables lineBelow) "H\u0331") = "ẖ" ∧
    (processDecision (.ofTables lineBelow)
      { defaultPrivacyConfig with
        rules := upsertedRules (.ofTables lineBelow)
          (normalizedRule (.ofTables lineBelow) ⟨"H\u0331", .hide, .inherit, .inherit, none⟩) [] }
      "H\u0331").sharesApplication = true := by
  decide

end YohakuCore
