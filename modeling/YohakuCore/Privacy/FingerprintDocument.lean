import YohakuCore.Framework.JsonPrint
import YohakuCore.Privacy.Fingerprint

/-! # The document behind the fingerprint -/

namespace YohakuCore

open Framework

/-- A rule as a document; a rule without an alias has no such key. -/
def ruleDocument (rule : ApplicationPrivacyRule) : Json :=
  .object ([("appId", .string rule.appId),
    ("application", .string (overrideStr rule.application)),
    ("windowTitle", .string (overrideStr rule.windowTitle)),
    ("media", .string (overrideStr rule.media))] ++
    (rule.displayAlias.map (fun displayAlias => ("displayAlias", Json.string displayAlias))).toList)

def mappingDocument (mapping : PrivacyMapping) : Json :=
  .object [("type", .string (mappingTypeStr mapping.mappingType)),
    ("from", .string mapping.source), ("to", .string mapping.target)]

variable (u : UnicodeData)

/-- What the fingerprint projects a configuration to, in the order of the configuration. -/
def policyDocument (config : PrivacyConfig) : Json :=
  .object [
    ("defaults", .object [("application", .string (defaultStr config.defaults.application)),
      ("windowTitle", .string (defaultStr config.defaults.windowTitle)),
      ("media", .string (defaultStr config.defaults.media))]),
    ("rules", .array ((sortedRules u config).map ruleDocument)),
    ("mappings", .array ((sortedMappings config).map mappingDocument)),
    ("shareWindowTitles", .bool config.shareWindowTitles),
    ("ignoreNullArtist", .bool config.ignoreNullArtist),
    ("sources", .object [("application", .bool config.sources.application),
      ("media", .bool config.sources.media)])]

theorem sortKeysItems_map {α : Type*} (document : α → Json) (items : List α) :
    Json.sortKeysItems keyOrder (items.map document) =
      items.map (fun item => (document item).sortKeys keyOrder) := by
  induction items with
  | nil => rfl
  | cons item items ih => simp only [List.map_cons, Json.sortKeysItems, ih]

theorem sortKeys_ruleDocument (rule : ApplicationPrivacyRule) :
    (ruleDocument rule).sortKeys keyOrder =
      .object ([("appId", .string rule.appId),
        ("application", .string (overrideStr rule.application))] ++
        (rule.displayAlias.map (fun displayAlias =>
          ("displayAlias", Json.string displayAlias))).toList ++
        [("media", .string (overrideStr rule.media)),
          ("windowTitle", .string (overrideStr rule.windowTitle))]) := by
  cases halias : rule.displayAlias with
  | none =>
      simp +decide [ruleDocument, halias, Json.sortKeys, Json.sortKeysMembers]
  | some displayAlias =>
      simp +decide [ruleDocument, halias, Json.sortKeys, Json.sortKeysMembers]

theorem sortKeys_mappingDocument (mapping : PrivacyMapping) :
    (mappingDocument mapping).sortKeys keyOrder =
      .object [("from", .string mapping.source), ("to", .string mapping.target),
        ("type", .string (mappingTypeStr mapping.mappingType))] := by
  simp +decide [mappingDocument, Json.sortKeys, Json.sortKeysMembers]

/-- Quoting such a text escapes nothing. -/
def isPlain (value : String) : Bool := value.toList.all (fun c => escapeChar c = [c])

theorem jsonString_plain {value : String} (h : isPlain value = true) :
    (jsonString value).toList = '\"' :: (value.toList ++ ['\"']) := by
  have hchars : value.toList.flatMap escapeChar = value.toList := by
    rw [isPlain, List.all_eq_true] at h
    rw [List.flatMap_congr (fun c hc => of_decide_eq_true (h c hc)), List.flatMap_singleton']
  rw [jsonString, String.toList_ofList, hchars]

theorem isPlain_defaultStr (value : PrivacyDefault) : isPlain (defaultStr value) = true := by
  cases value <;> decide

theorem isPlain_overrideStr (value : PrivacyOverride) : isPlain (overrideStr value) = true := by
  cases value <;> decide

theorem isPlain_mappingTypeStr (value : PrivacyMappingType) :
    isPlain (mappingTypeStr value) = true := by
  cases value <;> decide

theorem printChars_mappingDocument (mapping : PrivacyMapping) :
    ((mappingDocument mapping).sortKeys keyOrder).printChars jsonString =
      (mappingJson mapping).toList := by
  rw [sortKeys_mappingDocument]
  simp +decide [Json.printChars, Json.printMembers, Json.printMoreMembers, mappingJson, pushAll,
    jsonString_plain, isPlain_mappingTypeStr]

theorem printChars_ruleDocument (rule : ApplicationPrivacyRule) :
    ((ruleDocument rule).sortKeys keyOrder).printChars jsonString = (ruleJson rule).toList := by
  rw [sortKeys_ruleDocument]
  cases halias : rule.displayAlias with
  | none =>
      simp +decide [Json.printChars, Json.printMembers, Json.printMoreMembers, ruleJson, pushAll,
        aliasJson, halias, jsonString_plain, isPlain_overrideStr]
  | some displayAlias =>
      simp +decide [Json.printChars, Json.printMembers, Json.printMoreMembers, ruleJson, pushAll,
        aliasJson, halias, jsonString_plain, isPlain_overrideStr]

variable {u}

theorem sortKeys_policyDocument (config : PrivacyConfig) :
    (policyDocument u config).sortKeys keyOrder =
      .object [
        ("defaults", .object [("application", .string (defaultStr config.defaults.application)),
          ("media", .string (defaultStr config.defaults.media)),
          ("windowTitle", .string (defaultStr config.defaults.windowTitle))]),
        ("ignoreNullArtist", .bool config.ignoreNullArtist),
        ("mappings", .array ((sortedMappings config).map
          (fun mapping => (mappingDocument mapping).sortKeys keyOrder))),
        ("rules", .array ((sortedRules u config).map
          (fun rule => (ruleDocument rule).sortKeys keyOrder))),
        ("shareWindowTitles", .bool config.shareWindowTitles),
        ("sources", .object [("application", .bool config.sources.application),
          ("media", .bool config.sources.media)])] := by
  simp +decide [policyDocument, Json.sortKeys, Json.sortKeysMembers, sortKeysItems_map]

private theorem isPlain_keys : isPlain "defaults" = true ∧ isPlain "ignoreNullArtist" = true ∧
    isPlain "mappings" = true ∧ isPlain "rules" = true ∧ isPlain "shareWindowTitles" = true ∧
    isPlain "sources" = true ∧ isPlain "application" = true ∧ isPlain "media" = true ∧
    isPlain "windowTitle" = true := by
  decide

set_option maxRecDepth 2000 in
theorem policyPreimage_eq_compact (config : PrivacyConfig) :
    policyPreimage u config =
      ((policyDocument u config).sortKeys keyOrder).compact jsonString := by
  have hrules : (arrayJson ruleJson (sortedRules u config)).toList =
      separated ',' (fun rule => ((ruleDocument rule).sortKeys keyOrder).printChars jsonString)
        (sortedRules u config) := by
    simp only [arrayJson, String.toList_ofList, printChars_ruleDocument]
  have hmappings : (arrayJson mappingJson (sortedMappings config)).toList =
      separated ',' (fun m => ((mappingDocument m).sortKeys keyOrder).printChars jsonString)
        (sortedMappings config) := by
    simp only [arrayJson, String.toList_ofList, printChars_mappingDocument]
  rw [sortKeys_policyDocument, Json.compact, policyPreimage, pushAll]
  refine congrArg String.ofList ?_
  simp [Json.printChars, Json.printMembers, Json.printMoreMembers, Json.printItems_map, hrules,
    hmappings, jsonString_plain, isPlain_defaultStr, jsonBool, isPlain_keys]

/-- The preimage is the compact text of the projection with its keys sorted at every level, and no
two configurations with different defaults, switches, sources, sorted rules or sorted mappings have
the same one. -/
theorem policyPreimage_canonical :
    (∀ config : PrivacyConfig, policyPreimage u config =
      ((policyDocument u config).sortKeys keyOrder).compact jsonString) ∧
    ∀ c₁ c₂ : PrivacyConfig, policyPreimage u c₁ = policyPreimage u c₂ →
      c₁.defaults = c₂.defaults ∧ c₁.shareWindowTitles = c₂.shareWindowTitles ∧
        c₁.ignoreNullArtist = c₂.ignoreNullArtist ∧ c₁.sources = c₂.sources ∧
        sortedRules u c₁ = sortedRules u c₂ ∧ sortedMappings c₁ = sortedMappings c₂ := by
  constructor
  · exact policyPreimage_eq_compact
  · intro c₁ c₂ h
    obtain ⟨hdefaults, hartist, hmappings, hrules, htitles, hsources⟩ := policyPreimage_eq h
    exact ⟨hdefaults, htitles, hartist, hsources, hrules, hmappings⟩

end YohakuCore
