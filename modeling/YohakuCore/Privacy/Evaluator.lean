import YohakuCore.Privacy.Rules

/-! # Decision engine -/

namespace YohakuCore

/-- `sharesWindowTitle` is rule-level consent only; the sanitizer adds the global switch. -/
structure ProcessDecision where
  sharesApplication : Bool
  sharesWindowTitle : Bool
  displayAlias : Option String
  deriving DecidableEq

structure MediaDecision where
  sharesMedia : Bool
  displayAlias : Option String
  deriving DecidableEq

variable (u : UnicodeData)

/-- The decision a found rule (or none) leads to under the defaults. -/
def processDecisionOf (defaults : PrivacyDefaults) (rule : Option ApplicationPrivacyRule) :
    ProcessDecision :=
  let hidden : Bool :=
    resolveOverride ((rule.map (·.application)).getD .inherit) defaults.application = .hide
  let windowShared : Bool :=
    resolveOverride ((rule.map (·.windowTitle)).getD .inherit) defaults.windowTitle = .share
  { sharesApplication := !hidden
    sharesWindowTitle := !hidden && windowShared
    displayAlias :=
      if hidden then none else rule.bind (fun r => normalizeText u r.displayAlias) }

def processDecision (config : PrivacyConfig) (appId : String) : ProcessDecision :=
  processDecisionOf u config.defaults (findRule u config appId)

def mediaDecisionOf (defaults : PrivacyDefaults) (rule : Option ApplicationPrivacyRule) :
    MediaDecision :=
  let hidden : Bool :=
    resolveOverride ((rule.map (·.media)).getD .inherit) defaults.media = .hide
  { sharesMedia := !hidden
    displayAlias :=
      if hidden then none else rule.bind (fun r => normalizeText u r.displayAlias) }

/-- Rule selection is either/or: an `appId` never falls back to the player name. -/
def mediaRule (config : PrivacyConfig) (appId : Option String) (playerName : String) :
    Option ApplicationPrivacyRule :=
  match appId with
  | some appId => findRule u config appId
  | none => findRuleByPlayerName u config playerName

def mediaDecision (config : PrivacyConfig) (appId : Option String) (playerName : String) :
    MediaDecision :=
  mediaDecisionOf u config.defaults (mediaRule u config appId playerName)

private theorem eq_share_of_not_hide {v : PrivacyDefault} (h : (!decide (v = .hide)) = true) :
    v = .share := by
  cases v <;> simp_all

/-- An application that the decision shares is shared by the first matching rule or by the
default. -/
theorem processDecision_sharesApplication {config : PrivacyConfig} {appId : String}
    (h : (processDecision u config appId).sharesApplication = true) :
    RulesDecide (fun r => normalizeAppId u r.appId = normalizeAppId u appId) (·.application)
      config.rules config.defaults.application .share := by
  have hd := rulesDecide_find? (fun r => normalizeAppId u r.appId = normalizeAppId u appId)
    (·.application) config.rules config.defaults.application
  have hne := eq_share_of_not_hide h
  rwa [← hne]

theorem processDecision_sharesWindowTitle {config : PrivacyConfig} {appId : String}
    (h : (processDecision u config appId).sharesWindowTitle = true) :
    RulesDecide (fun r => normalizeAppId u r.appId = normalizeAppId u appId) (·.windowTitle)
      config.rules config.defaults.windowTitle .share := by
  have hd := rulesDecide_find? (fun r => normalizeAppId u r.appId = normalizeAppId u appId)
    (·.windowTitle) config.rules config.defaults.windowTitle
  have hshare := of_decide_eq_true ((Bool.and_eq_true _ _).mp h).2
  rwa [← hshare]

/-- The rules that decide about a media session: those of its executable when it has one, else
those carrying its player name, which must not be blank. -/
def MediaRuleKey (appId : Option String) (playerName : String) (r : ApplicationPrivacyRule) :
    Prop :=
  match appId with
  | some appId => normalizeAppId u r.appId = normalizeAppId u appId
  | none => normalizeAppId u playerName ≠ "" ∧
      normalizeAppId u r.appId = normalizeAppId u playerName

instance (appId : Option String) (playerName : String) :
    DecidablePred (MediaRuleKey u appId playerName) := fun _ =>
  match appId with
  | some _ => inferInstanceAs (Decidable (_ = _))
  | none => inferInstanceAs (Decidable (_ ∧ _))

private theorem mediaRule_find? (config : PrivacyConfig) (appId : Option String)
    (playerName : String) : mediaRule u config appId playerName =
      config.rules.find? (fun r => MediaRuleKey u appId playerName r) := by
  cases appId with
  | some appId => rfl
  | none =>
      simp only [mediaRule, findRuleByPlayerName, MediaRuleKey]
      by_cases hblank : normalizeAppId u playerName = ""
      · simp [hblank, List.find?_eq_none.mpr]
      · simp [hblank]

theorem mediaDecision_sharesMedia {config : PrivacyConfig} {appId : Option String}
    {playerName : String} (h : (mediaDecision u config appId playerName).sharesMedia = true) :
    RulesDecide (MediaRuleKey u appId playerName) (·.media) config.rules
      config.defaults.media .share := by
  have hd := rulesDecide_find? (MediaRuleKey u appId playerName) (·.media) config.rules
    config.defaults.media
  rw [← mediaRule_find?] at hd
  have hne := eq_share_of_not_hide h
  rwa [← hne]

end YohakuCore
