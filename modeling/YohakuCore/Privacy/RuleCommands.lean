import YohakuCore.Privacy.Fingerprint
import YohakuCore.Store.Config

/-!
# Adding and deleting rules

A removal compares the stored spelling with the normalized identifier (`upsert_rule`) or with the
lowercased one (`delete_rule`).
-/

namespace YohakuCore

open Framework

def requireNonEmpty (values : List String) : Except IpcErrorCode Unit :=
  if values.any (fun value => value = "") then .error .invalidInput else .ok ()

/-- The order that an upsert leaves the rules in. -/
def ruleOrder (a b : ApplicationPrivacyRule) : Prop := cmpUtf16 a.appId b.appId ≠ .gt

instance : DecidableRel ruleOrder := fun a b =>
  inferInstanceAs (Decidable (cmpUtf16 a.appId b.appId ≠ .gt))

instance : IsTrans ApplicationPrivacyRule ruleOrder := ⟨fun _ _ _ => keyOrder_trans⟩

instance : Std.Total ruleOrder where
  total a b := keyOrder_total a.appId b.appId

/-- What a rule decides, whatever identifier it is stored under. -/
structure RuleDecisions where
  application : PrivacyOverride
  windowTitle : PrivacyOverride
  media : PrivacyOverride
  displayAlias : Option String
  deriving DecidableEq

def ApplicationPrivacyRule.decisions (rule : ApplicationPrivacyRule) : RuleDecisions where
  application := rule.application
  windowTitle := rule.windowTitle
  media := rule.media
  displayAlias := rule.displayAlias

def FullCoreConfig.withRules (config : FullCoreConfig) (rules : List ApplicationPrivacyRule) :
    FullCoreConfig :=
  { config with privacy := { config.privacy with rules := rules } }

/-- A command that updates the configuration; the reason of a failure is not passed on. -/
def updateConfig (config : FullCoreConfig) (mutate : FullCoreConfig → FullCoreConfig)
    (written : Bool) : Except IpcErrorCode FullCoreConfig :=
  match ConfigStore.updated config mutate written with
  | .ok next => .ok next
  | .error _ => .error .internal

theorem updateConfig_eq_ok {config next : FullCoreConfig}
    {mutate : FullCoreConfig → FullCoreConfig} {written : Bool}
    (h : updateConfig config mutate written = .ok next) : next = mutate config := by
  rw [updateConfig, ConfigStore.updated] at h
  cases hvalid : revalidate (mutate config) with
  | ok config' =>
      rw [hvalid] at h
      cases written with
      | true =>
          obtain rfl := Except.ok.inj h
          exact (revalidate_eq_ok.mp hvalid).2.2
      | false => contradiction
  | error error =>
      rw [hvalid] at h
      contradiction

variable (u : UnicodeData)

/-- The rules after the removal of the identifier and the addition of a rule that says something. -/
def upsertedRules (rule : ApplicationPrivacyRule) (rules : List ApplicationPrivacyRule) :
    List ApplicationPrivacyRule :=
  let kept := rules.filter (fun r => r.appId ≠ rule.appId)
  let pushed := if isEmptyRule u rule then kept else kept ++ [rule]
  pushed.insertionSort ruleOrder

def upsertRule (rule : ApplicationPrivacyRule) (config : FullCoreConfig) (written : Bool) :
    Except IpcErrorCode FullCoreConfig :=
  match requireNonEmpty [rule.appId] with
  | .error error => .error error
  | .ok () =>
      updateConfig config
        (fun c => c.withRules (upsertedRules u (normalizedRule u rule) c.privacy.rules)) written

/-- The needle is lowercased and not normalized. -/
def deleteRule (appId : String) (config : FullCoreConfig) (written : Bool) :
    Except IpcErrorCode FullCoreConfig :=
  match requireNonEmpty [appId] with
  | .error error => .error error
  | .ok () =>
      updateConfig config
        (fun c => c.withRules (c.privacy.rules.filter (fun r => r.appId ≠ u.toLowercase appId)))
        written

/-- The rule that the rules page sends for an identifier typed into it; a blank one sends
nothing. -/
def addRule (rawId : String) : Option ApplicationPrivacyRule :=
  let appId := u.toLowercase (jsTrim rawId)
  if appId = "" then none
  else some { appId, application := .inherit, windowTitle := .inherit, media := .inherit,
              displayAlias := none }

variable {u}

theorem upsertRule_eq_ok {rule : ApplicationPrivacyRule} {config config' : FullCoreConfig}
    {written : Bool} (h : upsertRule u rule config written = .ok config') :
    config'.privacy.rules = upsertedRules u (normalizedRule u rule) config.privacy.rules := by
  rw [upsertRule] at h
  split at h
  · contradiction
  · rw [updateConfig_eq_ok h]
    rfl

theorem deleteRule_eq_ok {appId : String} {config config' : FullCoreConfig} {written : Bool}
    (h : deleteRule u appId config written = .ok config') :
    config'.privacy.rules =
      config.privacy.rules.filter (fun r => r.appId ≠ u.toLowercase appId) := by
  rw [deleteRule] at h
  split at h
  · contradiction
  · rw [updateConfig_eq_ok h]
    rfl

/-- The rule is stored for the identifier `key` under some spelling. -/
def Matches (u : UnicodeData) (key : String) (rule : ApplicationPrivacyRule) : Prop :=
  normalizeAppId u rule.appId = key

instance (key : String) : DecidablePred (Matches u key) := fun rule =>
  inferInstanceAs (Decidable (normalizeAppId u rule.appId = key))

theorem findRule_eq_some {config : PrivacyConfig} {appId : String} {a : ApplicationPrivacyRule} :
    findRule u config appId = some a ↔
      IsFirst (Matches u (normalizeAppId u appId)) config.rules a :=
  find?_eq_some_iff_isFirst (Matches u (normalizeAppId u appId)) config.rules a

theorem findRule_eq_none {config : PrivacyConfig} {appId : String} :
    findRule u config appId = none ↔
      ∀ a ∈ config.rules, ¬ Matches u (normalizeAppId u appId) a := by
  simp [findRule, Matches]

section Upserted

variable {rule : ApplicationPrivacyRule} {rules : List ApplicationPrivacyRule}

theorem find?_upsertedRules_other {key : String}
    (hother : isEmptyRule u rule = true ∨ ¬ Matches u key rule) {b : ApplicationPrivacyRule} :
    (upsertedRules u rule rules).find? (fun r => Matches u key r) = some b ↔
      IsStableLeast ruleOrder (fun r => Matches u key r ∧ r.appId ≠ rule.appId) rules b := by
  have hkept : (upsertedRules u rule rules).find? (fun r => Matches u key r) =
      stableLeast ruleOrder (fun r => Matches u key r)
        (rules.filter (fun r => r.appId ≠ rule.appId)) := by
    rw [upsertedRules, find?_insertionSort_eq]
    rcases hother with hempty | hno
    · rw [if_pos hempty]
    · split
      · rfl
      · exact stableLeast_concat_of_not (r := ruleOrder) (decide_eq_false hno) _
  rw [hkept, stableLeast_filter, ← stableLeast_eq_some]
  simp only [Bool.decide_and]

theorem find?_upsertedRules_empty {key : String} (hempty : isEmptyRule u rule = true) :
    (upsertedRules u rule rules).find? (fun r => Matches u key r) = none ↔
      ∀ s ∈ rules, Matches u key s → s.appId = rule.appId := by
  rw [upsertedRules, if_pos hempty, find?_insertionSort_eq, stableLeast_eq_none]
  simp only [List.mem_filter, decide_eq_true_eq, decide_eq_false_iff_not, and_imp]
  constructor
  · intro h s hs hkey
    by_contra hne
    exact h s hs hne hkey
  · intro h s hs hne hkey
    exact hne (h s hs hkey)

/-- The upserted rule is found when it matches and every rule that stays and matches sorts after
it. -/
theorem find?_upsertedRules_own {key : String} (hsome : isEmptyRule u rule = false) :
    (upsertedRules u rule rules).find? (fun r => Matches u key r) = some rule ↔
      Matches u key rule ∧ ∀ s ∈ rules, Matches u key s → s.appId = rule.appId ∨
        cmpUtf16 s.appId rule.appId = .gt := by
  have hnew : rule ∉ rules.filter (fun r => r.appId ≠ rule.appId) := by simp
  have hne : ¬ isEmptyRule u rule = true := by simp [hsome]
  rw [upsertedRules, if_neg hne, find?_insertionSort_eq_some, isStableLeast_concat hnew]
  refine and_congr_right fun _ => ?_
  simp only [List.mem_filter, decide_eq_true_eq, ruleOrder, not_not, and_imp]
  constructor
  · intro h s hs hkey
    by_cases hsame : s.appId = rule.appId
    · exact Or.inl hsame
    · exact Or.inr (h s hs hsame hkey)
  · intro h s hs hdiff hkey
    exact (h s hs hkey).resolve_left hdiff

end Upserted

/-- Every identifier with rules, `key` apart, has the rule that decides it in UTF-16 order, the
spelling `key` left out, decide as the first of the list does. -/
def OthersKept (u : UnicodeData) (key : String) (rules : List ApplicationPrivacyRule) : Prop :=
  ∀ a, ¬ Matches u key a → IsFirst (Matches u (normalizeAppId u a.appId)) rules a →
    ∃ b, IsStableLeast ruleOrder
        (fun r => Matches u (normalizeAppId u a.appId) r ∧ r.appId ≠ key) rules b ∧
      b.decisions = a.decisions

/-- When an upsert takes effect: the normalized identifier is its own normal form, the rules that
match it are stored under it (or sort after it, when a rule is added), and sorting the list
changes no other identifier's decisions. -/
structure UpsertApplies (u : UnicodeData) (rule : ApplicationPrivacyRule)
    (rules : List ApplicationPrivacyRule) : Prop where
  normal : isEmptyRule u rule = false → Matches u rule.appId rule
  alone : ∀ s ∈ rules, Matches u rule.appId s → s.appId = rule.appId ∨
    isEmptyRule u rule = false ∧ cmpUtf16 s.appId rule.appId = .gt
  others : OthersKept u rule.appId rules

/-- The lookups of other identifiers decide as before. -/
theorem others_kept_iff {rule : ApplicationPrivacyRule} {config config' : PrivacyConfig}
    (hrules : config'.rules = upsertedRules u rule config.rules)
    (hown : isEmptyRule u rule = false → Matches u rule.appId rule) :
    (∀ x, normalizeAppId u x ≠ rule.appId →
      (findRule u config' x).map ApplicationPrivacyRule.decisions =
        (findRule u config x).map ApplicationPrivacyRule.decisions) ↔
    OthersKept u rule.appId config.rules := by
  have hother : ∀ x, normalizeAppId u x ≠ rule.appId →
      isEmptyRule u rule = true ∨ ¬ Matches u (normalizeAppId u x) rule := by
    intro x hx
    cases hempty : isEmptyRule u rule with
    | true => exact Or.inl rfl
    | false => exact Or.inr (fun h => hx (h.symm.trans (hown hempty)))
  have hfound : ∀ x b, normalizeAppId u x ≠ rule.appId → (findRule u config' x = some b ↔
      IsStableLeast ruleOrder (fun r => Matches u (normalizeAppId u x) r ∧ r.appId ≠ rule.appId)
        config.rules b) := by
    intro x b hx
    rw [← find?_upsertedRules_other (hother x hx), ← hrules]
    rfl
  constructor
  · intro h a ha hfirst
    have hbefore : findRule u config a.appId = some a := findRule_eq_some.mpr hfirst
    have hdecides := h a.appId ha
    rw [hbefore, Option.map_some, Option.map_eq_some_iff] at hdecides
    obtain ⟨b, hb, hsame⟩ := hdecides
    exact ⟨b, (hfound a.appId b ha).mp hb, hsame⟩
  · intro h x hx
    cases hbefore : findRule u config x with
    | none =>
        cases hafter : findRule u config' x with
        | none => rfl
        | some b =>
            obtain ⟨⟨hmatch, -⟩, before, after, hl, -⟩ := (hfound x b hx).mp hafter
            exact absurd hmatch (findRule_eq_none.mp hbefore b (by simp [hl]))
    | some a =>
        have hfirst := findRule_eq_some.mp hbefore
        have hkey : normalizeAppId u a.appId = normalizeAppId u x := hfirst.1
        have ha : ¬ Matches u rule.appId a := fun hm => hx (hkey.symm.trans hm)
        obtain ⟨b, hb, hsame⟩ := h a ha (by rw [hkey]; exact hfirst)
        rw [hkey] at hb
        rw [(hfound x b hx).mpr hb, Option.map_some, Option.map_some, hsame]

/-- An upsert takes effect exactly when the stored spellings let it. -/
theorem upsert_rule_takes_effect_iff {rule : ApplicationPrivacyRule}
    {config config' : FullCoreConfig} {written : Bool}
    (h : upsertRule u rule config written = .ok config') :
    (findRule u config'.privacy rule.appId =
        (if isEmptyRule u (normalizedRule u rule) then none else some (normalizedRule u rule)) ∧
      ∀ x, normalizeAppId u x ≠ normalizeAppId u rule.appId →
        (findRule u config'.privacy x).map ApplicationPrivacyRule.decisions =
          (findRule u config.privacy x).map ApplicationPrivacyRule.decisions) ↔
    UpsertApplies u (normalizedRule u rule) config.privacy.rules := by
  have hrules := upsertRule_eq_ok h
  have hfind : findRule u config'.privacy rule.appId =
      (upsertedRules u (normalizedRule u rule) config.privacy.rules).find?
        (fun r => Matches u (normalizedRule u rule).appId r) := by
    rw [← hrules]
    rfl
  rw [hfind]
  cases hempty : isEmptyRule u (normalizedRule u rule) with
  | true =>
      have hown : isEmptyRule u (normalizedRule u rule) = false →
          Matches u (normalizedRule u rule).appId (normalizedRule u rule) := by
        simp [hempty]
      rw [if_pos rfl, find?_upsertedRules_empty hempty]
      constructor
      · rintro ⟨halone, hothers⟩
        exact ⟨hown, fun s hs hkey => Or.inl (halone s hs hkey),
          (others_kept_iff hrules hown).mp hothers⟩
      · rintro ⟨-, halone, hothers⟩
        refine ⟨?_, (others_kept_iff hrules hown).mpr hothers⟩
        intro s hs hkey
        exact (halone s hs hkey).resolve_right (by simp [hempty])
  | false =>
      rw [if_neg (by simp), find?_upsertedRules_own hempty]
      constructor
      · rintro ⟨⟨hown, halone⟩, hothers⟩
        refine ⟨fun _ => hown, ?_, (others_kept_iff hrules (fun _ => hown)).mp hothers⟩
        intro s hs hkey
        exact (halone s hs hkey).imp_right (fun hgt => ⟨hempty, hgt⟩)
      · rintro ⟨hown, halone, hothers⟩
        refine ⟨⟨hown hempty, ?_⟩, (others_kept_iff hrules hown).mpr hothers⟩
        intro s hs hkey
        exact (halone s hs hkey).imp_right And.right

/-- A rule that a user wrote into config.json with the spelling of the executable. -/
def hiddenCode : ApplicationPrivacyRule where
  appId := "Code.exe"
  application := .hide
  windowTitle := .hide
  media := .hide
  displayAlias := none

def sharedCode : ApplicationPrivacyRule where
  appId := "code.exe"
  application := .share
  windowTitle := .share
  media := .share
  displayAlias := none

def hiddenCodeConfig : FullCoreConfig := defaultFullCoreConfig.withRules [hiddenCode]

theorem upsertRule_hiddenCode : upsertRule .ascii sharedCode hiddenCodeConfig true =
    .ok (hiddenCodeConfig.withRules [hiddenCode, sharedCode]) := rfl

theorem upsert_rule_takes_effect_iff_hiddenCode :
    ¬ UpsertApplies .ascii (normalizedRule .ascii sharedCode) hiddenCodeConfig.privacy.rules := by
  intro happlies
  have hfound := ((upsert_rule_takes_effect_iff upsertRule_hiddenCode).mpr happlies).1
  exact absurd hfound (by decide +kernel)

/-- The hide rule is left in place and still found. -/
theorem upsert_rule_keeps_hiddenCode :
    revalidate hiddenCodeConfig = .ok hiddenCodeConfig ∧
    ∃ config', upsertRule .ascii sharedCode hiddenCodeConfig true = .ok config' ∧
      isEmptyRule .ascii (normalizedRule .ascii sharedCode) = false ∧
      findRule .ascii config'.privacy sharedCode.appId ≠
        some (normalizedRule .ascii sharedCode) ∧
      findRule .ascii config'.privacy sharedCode.appId = some hiddenCode :=
  ⟨revalidate_eq_ok.mpr ⟨rfl, rfl, rfl⟩, _, upsertRule_hiddenCode, by decide +kernel,
    by decide +kernel, by decide +kernel⟩

private theorem find?_filter_of_first {α : Type*} {p q : α → Bool} {l : List α}
    (h : ∀ a, l.find? p = some a → q a = true) : (l.filter q).find? p = l.find? p := by
  cases hfind : l.find? p with
  | none =>
      rw [List.find?_eq_none] at hfind ⊢
      exact fun a ha => hfind a (List.mem_of_mem_filter ha)
  | some a =>
      have hq := h a hfind
      rw [List.find?_eq_some_iff_append] at hfind ⊢
      obtain ⟨hp, before, after, rfl, hbefore⟩ := hfind
      refine ⟨hp, before.filter q, after.filter q, ?_, ?_⟩
      · rw [List.filter_append, List.filter_cons, if_pos hq]
      · exact fun b hb => hbefore b (List.mem_of_mem_filter hb)

/-- When a deletion takes effect: the rules that match are stored under the lowercased argument,
and no other identifier is decided by a rule with that spelling. -/
structure DeleteApplies (u : UnicodeData) (appId : String)
    (rules : List ApplicationPrivacyRule) : Prop where
  alone : ∀ s ∈ rules, Matches u (normalizeAppId u appId) s → s.appId = u.toLowercase appId
  others : normalizeAppId u (u.toLowercase appId) = normalizeAppId u appId ∨
    ∀ a, IsFirst (Matches u (normalizeAppId u (u.toLowercase appId))) rules a →
      a.appId ≠ u.toLowercase appId

/-- A deletion takes effect exactly when the stored spellings let it. -/
theorem delete_rule_takes_effect_iff {appId : String} {config config' : FullCoreConfig}
    {written : Bool} (h : deleteRule u appId config written = .ok config') :
    (findRule u config'.privacy appId = none ∧
      ∀ x, normalizeAppId u x ≠ normalizeAppId u appId →
        findRule u config'.privacy x = findRule u config.privacy x) ↔
    DeleteApplies u appId config.privacy.rules := by
  have hrules := deleteRule_eq_ok h
  have hnone : findRule u config'.privacy appId = none ↔
      ∀ s ∈ config.privacy.rules, Matches u (normalizeAppId u appId) s →
        s.appId = u.toLowercase appId := by
    rw [findRule_eq_none, hrules]
    simp only [List.mem_filter, decide_eq_true_eq, and_imp]
    constructor
    · intro hall s hs hkey
      by_contra hne
      exact hall s hs hne hkey
    · intro hall s hs hne hkey
      exact hne (hall s hs hkey)
  rw [hnone]
  constructor
  · rintro ⟨halone, hkept⟩
    refine ⟨halone, ?_⟩
    by_contra hother
    obtain ⟨hkey, hfirst⟩ := not_or.mp hother
    push Not at hfirst
    obtain ⟨a, ha, hspelled⟩ := hfirst
    have hsame := hkept (u.toLowercase appId) hkey
    rw [findRule_eq_some.mpr ha, findRule_eq_some, hrules] at hsame
    have hmem := hsame.mem
    simp [hspelled] at hmem
  · rintro ⟨halone, hothers⟩
    refine ⟨halone, ?_⟩
    intro x hx
    rw [findRule, hrules]
    refine find?_filter_of_first ?_
    intro a ha
    have hfirst := findRule_eq_some.mp ha
    rw [decide_eq_true_eq]
    intro hspelled
    -- A rule with the lowercased spelling answers only lookups of that spelling.
    have hkey : normalizeAppId u (u.toLowercase appId) = normalizeAppId u x := by
      rw [← hspelled]
      exact hfirst.1
    rcases hothers with hsame | hothers
    · exact hx (hkey.symm.trans hsame)
    · exact hothers a (by rw [hkey]; exact hfirst) hspelled

theorem deleteRule_hiddenCode :
    deleteRule .ascii hiddenCode.appId hiddenCodeConfig true = .ok hiddenCodeConfig := rfl

theorem delete_rule_takes_effect_iff_hiddenCode :
    ¬ DeleteApplies .ascii hiddenCode.appId hiddenCodeConfig.privacy.rules := by
  intro happlies
  have hfound := ((delete_rule_takes_effect_iff deleteRule_hiddenCode).mpr happlies).1
  exact absurd hfound (by decide +kernel)

/-- Deleting the rule under its own spelling succeeds and deletes nothing. -/
theorem delete_rule_keeps_hiddenCode :
    revalidate hiddenCodeConfig = .ok hiddenCodeConfig ∧
    ∃ config', deleteRule .ascii hiddenCode.appId hiddenCodeConfig true = .ok config' ∧
      findRule .ascii config'.privacy hiddenCode.appId ≠ none ∧
      findRule .ascii config'.privacy hiddenCode.appId = some hiddenCode :=
  ⟨revalidate_eq_ok.mpr ⟨rfl, rfl, rfl⟩, hiddenCodeConfig, deleteRule_hiddenCode,
    by decide +kernel, by decide +kernel⟩

theorem isEmptyRule_addRule {rawId : String} {rule : ApplicationPrivacyRule}
    (h : addRule u rawId = some rule) : isEmptyRule u (normalizedRule u rule) = true := by
  simp only [addRule] at h
  split at h
  · contradiction
  · obtain rfl := Option.some.inj h
    simp [isEmptyRule, normalizedRule, normalizeText]

/-- A stored spelling of the identifier, other than the one that the page's rule removes, decides
after the sort as the first rule for it did before. -/
def KeptByAdding (u : UnicodeData) (rawId appId : String) (rules : List ApplicationPrivacyRule) :
    Prop :=
  ∃ a b, IsFirst (Matches u (normalizeAppId u rawId)) rules a ∧
    IsStableLeast ruleOrder
      (fun r => Matches u (normalizeAppId u rawId) r ∧ r.appId ≠ normalizeAppId u appId) rules b ∧
    b.decisions = a.decisions

/-- Adding an identifier that is typed into the page leaves a rule for it, and the decisions it
had, only by way of another stored spelling. -/
theorem add_rule_keeps_privacy_iff {rawId : String} {rule : ApplicationPrivacyRule}
    {config config' : FullCoreConfig} {written : Bool} (hadd : addRule u rawId = some rule)
    (h : upsertRule u rule config written = .ok config') :
    (findRule u config'.privacy rawId ≠ none ∧
      ∀ a, findRule u config.privacy rawId = some a →
        (findRule u config'.privacy rawId).map ApplicationPrivacyRule.decisions =
          some a.decisions) ↔
    KeptByAdding u rawId rule.appId config.privacy.rules := by
  have hempty := isEmptyRule_addRule hadd
  have hfound : ∀ b, findRule u config'.privacy rawId = some b ↔
      IsStableLeast ruleOrder
        (fun r => Matches u (normalizeAppId u rawId) r ∧ r.appId ≠ normalizeAppId u rule.appId)
        config.privacy.rules b := by
    intro b
    rw [← normalizedRule_appId, ← find?_upsertedRules_other (Or.inl hempty),
      ← upsertRule_eq_ok h]
    rfl
  constructor
  · rintro ⟨hsome, hsame⟩
    obtain ⟨b, hb⟩ := Option.ne_none_iff_exists'.mp hsome
    cases hbefore : findRule u config.privacy rawId with
    | none =>
        obtain ⟨⟨hmatch, -⟩, before, after, hl, -⟩ := (hfound b).mp hb
        exact absurd hmatch (findRule_eq_none.mp hbefore b (by simp [hl]))
    | some a =>
        have hdecides := hsame a hbefore
        rw [hb, Option.map_some, Option.some.injEq] at hdecides
        exact ⟨a, b, findRule_eq_some.mp hbefore, (hfound b).mp hb, hdecides⟩
  · rintro ⟨a, b, ha, hb, hsame⟩
    rw [(hfound b).mpr hb, findRule_eq_some.mpr ha]
    refine ⟨by simp, ?_⟩
    intro a' ha'
    obtain rfl := Option.some.inj ha'
    rw [Option.map_some, hsame]

def hiddenLowerCode : ApplicationPrivacyRule := { hiddenCode with appId := "code.exe" }

def hiddenLowerConfig : FullCoreConfig := defaultFullCoreConfig.withRules [hiddenLowerCode]

def inheritedCode : ApplicationPrivacyRule where
  appId := "code.exe"
  application := .inherit
  windowTitle := .inherit
  media := .inherit
  displayAlias := none

theorem addRule_code : addRule .ascii "Code.exe" = some inheritedCode := rfl

theorem upsertRule_hiddenLower :
    upsertRule .ascii inheritedCode hiddenLowerConfig true = .ok defaultFullCoreConfig := rfl

theorem add_rule_keeps_privacy_iff_hiddenLower :
    ¬ KeptByAdding .ascii "Code.exe" inheritedCode.appId hiddenLowerConfig.privacy.rules := by
  intro hkept
  have hfound := ((add_rule_keeps_privacy_iff addRule_code upsertRule_hiddenLower).mpr hkept).1
  exact absurd (by decide +kernel) hfound

/-- Adding an identifier whose rule hides it removes that rule. -/
theorem add_rule_removes_hiddenLower :
    revalidate hiddenLowerConfig = .ok hiddenLowerConfig ∧
    findRule .ascii hiddenLowerConfig.privacy "Code.exe" = some hiddenLowerCode ∧
    ∃ rule config', addRule .ascii "Code.exe" = some rule ∧
      upsertRule .ascii rule hiddenLowerConfig true = .ok config' ∧
      findRule .ascii config'.privacy "Code.exe" = none :=
  ⟨revalidate_eq_ok.mpr ⟨rfl, rfl, rfl⟩, by decide +kernel, inheritedCode,
    defaultFullCoreConfig, addRule_code, upsertRule_hiddenLower, by decide +kernel⟩

end YohakuCore
