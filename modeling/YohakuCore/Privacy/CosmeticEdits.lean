import Mathlib.Data.List.Pairwise
import Mathlib.Logic.Relation
import YohakuCore.Companion.ConsentGate
import YohakuCore.Privacy.Fingerprint

/-! # Cosmetic edits -/

namespace YohakuCore

open Framework

variable (u : UnicodeData)

/-- The rules that say something name different applications. -/
def DistinctRules (rules : List ApplicationPrivacyRule) : Prop :=
  (rules.filter (fun rule => !isEmptyRule u rule)).Pairwise
    (fun a b => normalizeAppId u a.appId ≠ normalizeAppId u b.appId)

def DistinctMappings (mappings : List PrivacyMapping) : Prop :=
  mappings.Pairwise (fun a b => (a.mappingType, a.source) ≠ (b.mappingType, b.source))

inductive CosmeticEdit : PrivacyConfig → PrivacyConfig → Prop
  | permuteRules (config : PrivacyConfig) (rules : List ApplicationPrivacyRule)
      (hperm : config.rules.Perm rules) (hdistinct : DistinctRules u config.rules) :
      CosmeticEdit config { config with rules := rules }
  | permuteMappings (config : PrivacyConfig) (mappings : List PrivacyMapping)
      (hperm : config.mappings.Perm mappings) (hdistinct : DistinctMappings config.mappings) :
      CosmeticEdit config { config with mappings := mappings }
  | insertEmpty (config : PrivacyConfig) (before after : List ApplicationPrivacyRule)
      (rule : ApplicationPrivacyRule) (hempty : isEmptyRule u rule = true)
      (hrules : config.rules = before ++ after) :
      CosmeticEdit config { config with rules := before ++ rule :: after }
  | removeEmpty (config : PrivacyConfig) (before after : List ApplicationPrivacyRule)
      (rule : ApplicationPrivacyRule) (hempty : isEmptyRule u rule = true)
      (hrules : config.rules = before ++ rule :: after) :
      CosmeticEdit config { config with rules := before ++ after }
  | respellAppId (config : PrivacyConfig) (before after : List ApplicationPrivacyRule)
      (rule : ApplicationPrivacyRule) (appId : String)
      (hsame : normalizeAppId u appId = normalizeAppId u rule.appId)
      (hrules : config.rules = before ++ rule :: after) :
      CosmeticEdit config
        { config with rules := before ++ { rule with appId := appId } :: after }
  | respellAlias (config : PrivacyConfig) (before after : List ApplicationPrivacyRule)
      (rule : ApplicationPrivacyRule) (displayAlias : Option String)
      (hsame : normalizeText u displayAlias = normalizeText u rule.displayAlias)
      (hrules : config.rules = before ++ rule :: after) :
      CosmeticEdit config
        { config with rules := before ++ { rule with displayAlias := displayAlias } :: after }

variable {u}

theorem isEmptyRule_normalized {rule : ApplicationPrivacyRule} (h : isEmptyRule u rule = true) :
    isEmptyRule u (normalizedRule u rule) = true := by
  simp only [isEmptyRule, decide_eq_true_eq] at h ⊢
  obtain ⟨happlication, htitle, hmedia, halias⟩ := h
  simp only [normalizedRule, happlication, htitle, hmedia, halias]
  simp [normalizeText]

theorem sortedRules_congr {c₁ c₂ : PrivacyConfig}
    (h : informativeRules u c₁ = informativeRules u c₂) : sortedRules u c₁ = sortedRules u c₂ := by
  rw [sortedRules, sortedRules, h]

theorem informativeRules_empty {rule : ApplicationPrivacyRule} (h : isEmptyRule u rule = true)
    (config : PrivacyConfig) (before after : List ApplicationPrivacyRule) :
    informativeRules u { config with rules := before ++ rule :: after } =
      informativeRules u { config with rules := before ++ after } := by
  simp [informativeRules, isEmptyRule_normalized h]

theorem informativeRules_respelled {rule rule' : ApplicationPrivacyRule}
    (h : normalizedRule u rule' = normalizedRule u rule) (config : PrivacyConfig)
    (before after : List ApplicationPrivacyRule) :
    informativeRules u { config with rules := before ++ rule' :: after } =
      informativeRules u { config with rules := before ++ rule :: after } := by
  simp [informativeRules, h]

theorem informativeRules_distinct {config : PrivacyConfig} (h : DistinctRules u config.rules) :
    ∀ a ∈ informativeRules u config, ∀ b ∈ informativeRules u config, a.appId = b.appId →
      a = b := by
  have hnonempty : ∀ rule ∈ config.rules, isEmptyRule u (normalizedRule u rule) = false →
      rule ∈ config.rules.filter (fun rule => !isEmptyRule u rule) := by
    intro rule hrule hinformative
    have hraw : isEmptyRule u rule ≠ true := by
      intro hempty
      simp [isEmptyRule_normalized hempty] at hinformative
    simp [hrule, hraw]
  intro a ha b hb hid
  simp only [informativeRules, List.mem_filter, List.mem_map, Bool.not_eq_true'] at ha hb
  obtain ⟨⟨ra, hra, rfl⟩, haInformative⟩ := ha
  obtain ⟨⟨rb, hrb, rfl⟩, hbInformative⟩ := hb
  by_contra hne
  have hraw : ra ≠ rb := by
    intro heq
    exact hne (by rw [heq])
  have hsymm : Std.Symm (fun x y : ApplicationPrivacyRule =>
      normalizeAppId u x.appId ≠ normalizeAppId u y.appId) := ⟨fun _ _ hxy => hxy.symm⟩
  exact h.forall (hnonempty ra hra haInformative) (hnonempty rb hrb hbInformative) hraw hid

theorem sortedRules_perm {config : PrivacyConfig} {rules : List ApplicationPrivacyRule}
    (hperm : config.rules.Perm rules) (hdistinct : DistinctRules u config.rules) :
    sortedRules u { config with rules := rules } = sortedRules u config := by
  have htrans : IsTrans ApplicationPrivacyRule
      (fun a b => cmpUtf16 a.appId b.appId ≠ .gt) := ⟨fun _ _ _ => keyOrder_trans⟩
  have htotal : Std.Total (fun a b : ApplicationPrivacyRule => cmpUtf16 a.appId b.appId ≠ .gt) :=
    ⟨fun a b => keyOrder_total a.appId b.appId⟩
  apply Eq.symm
  apply insertionSort_eq_of_perm
  · exact (hperm.map _).filter _
  · intro a ha b hb hab hba
    exact informativeRules_distinct hdistinct a ha b hb (keyOrder_antisymm hab hba)

theorem sortedMappings_perm {config : PrivacyConfig} {mappings : List PrivacyMapping}
    (hperm : config.mappings.Perm mappings) (hdistinct : DistinctMappings config.mappings) :
    sortedMappings { config with mappings := mappings } = sortedMappings config := by
  have htrans : IsTrans PrivacyMapping
      (fun a b => cmpUtf16 (mappingSortKey a) (mappingSortKey b) ≠ .gt) :=
    ⟨fun _ _ _ => keyOrder_trans⟩
  have htotal : Std.Total
      (fun a b => cmpUtf16 (mappingSortKey a) (mappingSortKey b) ≠ .gt) :=
    ⟨fun a b => keyOrder_total (mappingSortKey a) (mappingSortKey b)⟩
  apply Eq.symm
  apply insertionSort_eq_of_perm hperm
  intro a ha b hb hab hba
  by_contra hne
  have hsymm : Std.Symm (fun x y : PrivacyMapping =>
      (x.mappingType, x.source) ≠ (y.mappingType, y.source)) := ⟨fun _ _ hxy => hxy.symm⟩
  obtain ⟨htype, hsource⟩ := mappingSortKey_eq (keyOrder_antisymm hab hba)
  exact hdistinct.forall ha hb hne (by rw [htype, hsource])

theorem CosmeticEdit.preimage {c₁ c₂ : PrivacyConfig} (h : CosmeticEdit u c₁ c₂) :
    policyPreimage u c₂ = policyPreimage u c₁ := by
  rw [policyPreimage_eq_iff]
  cases h with
  | permuteRules rules hperm hdistinct =>
      exact ⟨rfl, rfl, rfl, sortedRules_perm hperm hdistinct, rfl, rfl⟩
  | permuteMappings mappings hperm hdistinct =>
      exact ⟨rfl, rfl, sortedMappings_perm hperm hdistinct, rfl, rfl, rfl⟩
  | insertEmpty before after rule hempty hrules =>
      have hsame := informativeRules_empty hempty c₁ before after
      rw [← hrules] at hsame
      exact ⟨rfl, rfl, rfl, sortedRules_congr hsame, rfl, rfl⟩
  | removeEmpty before after rule hempty hrules =>
      have hsame := informativeRules_empty hempty c₁ before after
      rw [← hrules] at hsame
      exact ⟨rfl, rfl, rfl, sortedRules_congr hsame.symm, rfl, rfl⟩
  | respellAppId before after rule appId hnormal hrules =>
      have hrule : normalizedRule u { rule with appId := appId } = normalizedRule u rule := by
        simp only [normalizedRule, hnormal]
      have hsame := informativeRules_respelled hrule c₁ before after
      rw [← hrules] at hsame
      exact ⟨rfl, rfl, rfl, sortedRules_congr hsame, rfl, rfl⟩
  | respellAlias before after rule displayAlias hnormal hrules =>
      have hrule : normalizedRule u { rule with displayAlias := displayAlias } =
          normalizedRule u rule := by
        simp only [normalizedRule, hnormal]
      have hsame := informativeRules_respelled hrule c₁ before after
      rw [← hrules] at hsame
      exact ⟨rfl, rfl, rfl, sortedRules_congr hsame, rfl, rfl⟩

/-- Cosmetic edits keep the fingerprint, and a gate that holds it keeps its confirmation. -/
theorem cosmetic_edits_keep_fingerprint (sha256Hex : String → String) {c₁ c₂ : PrivacyConfig}
    (h : Relation.ReflTransGen (CosmeticEdit u) c₁ c₂) :
    policyFingerprint u sha256Hex c₂ = policyFingerprint u sha256Hex c₁ ∧
      ∀ gate : ConsentGate, gate.currentFingerprint = policyFingerprint u sha256Hex c₁ →
        gate.policyDidChange (policyFingerprint u sha256Hex c₂) = gate := by
  have hsame : policyFingerprint u sha256Hex c₂ = policyFingerprint u sha256Hex c₁ := by
    induction h with
    | refl => rfl
    | tail _ hedit ih => rw [← ih, policyFingerprint, policyFingerprint, hedit.preimage]
  refine ⟨hsame, ?_⟩
  intro gate hgate
  rw [ConsentGate.policyDidChange, if_pos (hsame.trans hgate.symm)]

private def editedRule (appId : String) (displayAlias : Option String) :
    ApplicationPrivacyRule where
  appId := appId
  application := .inherit
  windowTitle := .hide
  media := .inherit
  displayAlias := displayAlias

/-- Two rules change places and one is spelled with capitals. -/
theorem cosmetic_edits_keep_fingerprint_swap :
    let config := { defaultPrivacyConfig with
      rules := [editedRule "code.exe" none, editedRule "zed.exe" (some "Zed")] }
    let edited := { defaultPrivacyConfig with
      rules := [editedRule "ZED.exe" (some "Zed"), editedRule "code.exe" none] }
    policyFingerprint UnicodeData.ascii id edited =
        policyFingerprint UnicodeData.ascii id config ∧
      ∀ gate : ConsentGate,
        gate.currentFingerprint = policyFingerprint UnicodeData.ascii id config →
        gate.policyDidChange (policyFingerprint UnicodeData.ascii id edited) = gate := by
  intro config edited
  have hswap : CosmeticEdit UnicodeData.ascii config { config with
      rules := [editedRule "zed.exe" (some "Zed"), editedRule "code.exe" none] } :=
    .permuteRules config _ (List.Perm.swap _ _ _) (by rw [DistinctRules]; decide +kernel)
  have hspell : CosmeticEdit UnicodeData.ascii { config with
      rules := [editedRule "zed.exe" (some "Zed"), editedRule "code.exe" none] } edited :=
    .respellAppId _ [] [editedRule "code.exe" none] (editedRule "zed.exe" (some "Zed")) "ZED.exe"
      (by decide +kernel) rfl
  exact cosmetic_edits_keep_fingerprint id (.tail (.tail .refl hswap) hspell)

end YohakuCore
