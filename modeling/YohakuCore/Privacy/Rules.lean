import YohakuCore.Privacy.Text

/-!
# Rules, overrides and display-name mappings

A lookup takes the first rule in configuration order whose normalized `appId` is the normalized key.
-/

namespace YohakuCore

def resolveOverride (value : PrivacyOverride) (fallback : PrivacyDefault) : PrivacyDefault :=
  match value with
  | .inherit => fallback
  | .share => .share
  | .hide => .hide

variable (u : UnicodeData)

/-- All overrides inherit and no effective alias: the rule carries no information. -/
def isEmptyRule (rule : ApplicationPrivacyRule) : Bool :=
  rule.application = .inherit ∧ rule.windowTitle = .inherit ∧ rule.media = .inherit ∧
    normalizeText u rule.displayAlias = none

def normalizedRule (rule : ApplicationPrivacyRule) : ApplicationPrivacyRule where
  appId := normalizeAppId u rule.appId
  application := rule.application
  windowTitle := rule.windowTitle
  media := rule.media
  displayAlias := normalizeText u rule.displayAlias

/-- The first rule whose normalized `appId` is the normalized key, as configured. -/
def findRule (config : PrivacyConfig) (appId : String) : Option ApplicationPrivacyRule :=
  config.rules.find? (fun rule => normalizeAppId u rule.appId = normalizeAppId u appId)

/-- The lookup of a media session without an executable; a blank name matches nothing. -/
def findRuleByPlayerName (config : PrivacyConfig) (playerName : String) :
    Option ApplicationPrivacyRule :=
  if normalizeAppId u playerName = "" then none
  else config.rules.find?
    (fun rule => normalizeAppId u rule.appId = normalizeAppId u playerName)

/-- The target of the first mapping of this type whose normalized source is the normalized key,
verbatim. -/
def applyMapping (config : PrivacyConfig) (mappingType : PrivacyMappingType) (source : String) :
    Option String :=
  (config.mappings.find? (fun m => m.mappingType = mappingType ∧
    normalizeAppId u m.source = normalizeAppId u source)).map PrivacyMapping.target

/-! ### What a rule list says

`RulesDecide` states the meaning of a rule list without the lookup functions: the first matching
rule decides, unless it inherits or there is none; then the default does. -/

/-- `rule` is the first entry of `rules` with the property `key`. -/
def IsFirst {α : Type*} (key : α → Prop) (rules : List α) (rule : α) : Prop :=
  key rule ∧ ∃ before after, rules = before ++ rule :: after ∧ ∀ r ∈ before, ¬ key r

/-- The rules with property `key`, read through the override `field`, give the verdict `v`. -/
def RulesDecide (key : ApplicationPrivacyRule → Prop)
    (field : ApplicationPrivacyRule → PrivacyOverride) (rules : List ApplicationPrivacyRule)
    (fallback v : PrivacyDefault) : Prop :=
  (∃ rule, IsFirst key rules rule ∧ (field rule = .share ∧ v = .share ∨
    field rule = .hide ∧ v = .hide ∨ field rule = .inherit ∧ v = fallback)) ∨
  (∀ rule ∈ rules, ¬ key rule) ∧ v = fallback

theorem find?_eq_some_iff_isFirst {α : Type*} (key : α → Prop) [DecidablePred key]
    (l : List α) (a : α) : l.find? (fun x => key x) = some a ↔ IsFirst key l a := by
  simp [List.find?_eq_some_iff_append, IsFirst]

theorem IsFirst.unique {α : Type*} {key : α → Prop} {l : List α} {a b : α}
    (ha : IsFirst key l a) (hb : IsFirst key l b) : a = b := by
  classical
  have h := (find?_eq_some_iff_isFirst key l a).mpr ha
  rw [(find?_eq_some_iff_isFirst key l b).mpr hb] at h
  exact (Option.some.inj h).symm

theorem IsFirst.mem {α : Type*} {key : α → Prop} {l : List α} {a : α} (h : IsFirst key l a) :
    a ∈ l := by
  obtain ⟨-, before, after, rfl, -⟩ := h
  simp

theorem rulesDecide_find? (key : ApplicationPrivacyRule → Prop) [DecidablePred key]
    (field : ApplicationPrivacyRule → PrivacyOverride) (rules : List ApplicationPrivacyRule)
    (fallback : PrivacyDefault) :
    RulesDecide key field rules fallback
      (resolveOverride (((rules.find? (fun r => key r)).map field).getD .inherit) fallback) := by
  cases hf : rules.find? (fun r => key r) with
  | none =>
      refine Or.inr ⟨?_, rfl⟩
      intro rule hrule
      simpa using List.find?_eq_none.mp hf rule hrule
  | some rule =>
      refine Or.inl ⟨rule, (find?_eq_some_iff_isFirst key rules rule).mp hf, ?_⟩
      simp only [Option.map_some, Option.getD_some]
      cases hfield : field rule <;> simp [resolveOverride]

@[simp] theorem normalizedRule_application (rule : ApplicationPrivacyRule) :
    (normalizedRule u rule).application = rule.application := rfl

@[simp] theorem normalizedRule_windowTitle (rule : ApplicationPrivacyRule) :
    (normalizedRule u rule).windowTitle = rule.windowTitle := rfl

@[simp] theorem normalizedRule_media (rule : ApplicationPrivacyRule) :
    (normalizedRule u rule).media = rule.media := rfl

@[simp] theorem normalizedRule_appId (rule : ApplicationPrivacyRule) :
    (normalizedRule u rule).appId = normalizeAppId u rule.appId := rfl

@[simp] theorem normalizedRule_displayAlias (rule : ApplicationPrivacyRule) :
    (normalizedRule u rule).displayAlias = normalizeText u rule.displayAlias := rfl

theorem isEmptyRule_normalizedRule {u : UnicodeData} (hu : u.NfcClosed)
    (rule : ApplicationPrivacyRule) :
    isEmptyRule u (normalizedRule u rule) = isEmptyRule u rule := by
  simp only [isEmptyRule, normalizedRule, normalizeText_normalizeText hu]

end YohakuCore
