import YohakuCore.Framework.KeyedFile
import YohakuCore.Framework.KeyedList
import YohakuCore.Privacy.Evaluator
import YohakuCore.Privacy.RuleCommands

/-!
# The commands of the privacy pages

The list of rules refines a map of identifiers as long as they are distinct and in normal form.
-/

namespace YohakuCore

open Framework

/-- What is absent is kept. -/
structure PrivacyPatchDefaults where
  application : Option PrivacyDefault
  windowTitle : Option PrivacyDefault
  media : Option PrivacyDefault
  deriving DecidableEq

structure PrivacyPatch where
  defaults : Option PrivacyPatchDefaults
  shareWindowTitles : Option Bool
  ignoreNullArtist : Option Bool
  deriving DecidableEq

def PrivacyPatchDefaults.apply (patch : PrivacyPatchDefaults) (defaults : PrivacyDefaults) :
    PrivacyDefaults where
  application := patch.application.getD defaults.application
  windowTitle := patch.windowTitle.getD defaults.windowTitle
  media := patch.media.getD defaults.media

/-- The defaults after a patch that may have none. -/
def PrivacyPatch.defaultsOf (patch : PrivacyPatch) (defaults : PrivacyDefaults) : PrivacyDefaults :=
  match patch.defaults with
  | some given => given.apply defaults
  | none => defaults

def setSources (application media : Option Bool) (config : FullCoreConfig) (written : Bool) :
    Except IpcErrorCode FullCoreConfig :=
  updateConfig config
    (fun c => { c with
      privacy.sources.application := application.getD c.privacy.sources.application
      privacy.sources.media := media.getD c.privacy.sources.media }) written

def setPrivacy (patch : PrivacyPatch) (config : FullCoreConfig) (written : Bool) :
    Except IpcErrorCode FullCoreConfig :=
  updateConfig config
    (fun c => { c with
      privacy.defaults := patch.defaultsOf c.privacy.defaults
      privacy.shareWindowTitles := patch.shareWindowTitles.getD c.privacy.shareWindowTitles
      privacy.ignoreNullArtist := patch.ignoreNullArtist.getD c.privacy.ignoreNullArtist }) written

def setMappings (mappings : List PrivacyMapping) (config : FullCoreConfig) (written : Bool) :
    Except IpcErrorCode FullCoreConfig :=
  updateConfig config (fun c => { c with privacy.mappings := mappings }) written

inductive SettingsCommand where
  | setSources (application media : Option Bool)
  | setPrivacy (patch : PrivacyPatch)
  | upsertRule (rule : ApplicationPrivacyRule)
  | deleteRule (appId : String)
  | setMappings (mappings : List PrivacyMapping)

variable (u : UnicodeData)

def SettingsCommand.run (config : FullCoreConfig) (written : Bool) :
    SettingsCommand → Except IpcErrorCode FullCoreConfig
  | .setSources application media => YohakuCore.setSources application media config written
  | .setPrivacy patch => YohakuCore.setPrivacy patch config written
  | .upsertRule rule => YohakuCore.upsertRule u rule config written
  | .deleteRule appId => YohakuCore.deleteRule u appId config written
  | .setMappings mappings => YohakuCore.setMappings mappings config written

/-- A command, and whether its write succeeds. -/
structure SettingsCall where
  command : SettingsCommand
  written : Bool

/-- A command that fails leaves the configuration. -/
def settingsStep (config : FullCoreConfig) (call : SettingsCall) :
    FullCoreConfig × Except IpcErrorCode Unit :=
  match call.command.run u config call.written with
  | .ok config' => (config', .ok ())
  | .error error => (config, .error error)

structure PrivacySettings where
  defaults : PrivacyDefaults
  mappings : List PrivacyMapping
  shareWindowTitles : Bool
  ignoreNullArtist : Bool
  sources : PrivacySources
  rule : String → Option ApplicationPrivacyRule

def PrivacyConfig.settings (config : PrivacyConfig) : PrivacySettings where
  defaults := config.defaults
  mappings := config.mappings
  shareWindowTitles := config.shareWindowTitles
  ignoreNullArtist := config.ignoreNullArtist
  sources := config.sources
  rule := lookupKey ApplicationPrivacyRule.appId config.rules

/-- A rule is kept under its normalized identifier unless it says nothing; a deletion takes the
lowercased identifier for a normalized one. -/
def SettingsCommand.apply (s : PrivacySettings) : SettingsCommand → PrivacySettings
  | .setSources application media => { s with
      sources.application := application.getD s.sources.application
      sources.media := media.getD s.sources.media }
  | .setPrivacy patch => { s with
      defaults := patch.defaultsOf s.defaults
      shareWindowTitles := patch.shareWindowTitles.getD s.shareWindowTitles
      ignoreNullArtist := patch.ignoreNullArtist.getD s.ignoreNullArtist }
  | .upsertRule rule => { s with
      rule := Function.update s.rule (normalizeAppId u rule.appId)
        (if isEmptyRule u (normalizedRule u rule) then none else some (normalizedRule u rule)) }
  | .deleteRule appId => { s with rule := Function.update s.rule (u.toLowercase appId) none }
  | .setMappings mappings => { s with mappings }

/-- What an answer says of the settings: those of the command when it succeeded. -/
def settingsAnswered (s : PrivacySettings) : SettingsCall × Except IpcErrorCode Unit →
    PrivacySettings
  | (call, .ok ()) => call.command.apply u s
  | (_, .error _) => s

/-- The identifiers are distinct and in normal form. -/
structure TidyRules (rules : List ApplicationPrivacyRule) : Prop where
  distinct : (rules.map ApplicationPrivacyRule.appId).Nodup
  normal : ∀ rule ∈ rules, normalizeAppId u rule.appId = rule.appId

/-- The identifier of a rule that is upserted is normal once it is normalized. -/
def SettingsCommand.Settled : SettingsCommand → Prop
  | .upsertRule rule =>
      normalizeAppId u (normalizeAppId u rule.appId) = normalizeAppId u rule.appId
  | _ => True

instance : DecidablePred (SettingsCommand.Settled u)
  | .upsertRule _ => inferInstanceAs (Decidable (_ = _))
  | .setSources _ _ | .setPrivacy _ | .deleteRule _ | .setMappings _ =>
      inferInstanceAs (Decidable True)

/-- The command speaks of the rule stored under the identifier. -/
def SettingsCommand.Names (key : String) : SettingsCommand → Prop
  | .upsertRule rule => normalizeAppId u rule.appId = key
  | .deleteRule appId => u.toLowercase appId = key
  | _ => False

instance (key : String) : DecidablePred (SettingsCommand.Names u key)
  | .upsertRule _ | .deleteRule _ => inferInstanceAs (Decidable (_ = _))
  | .setSources _ _ | .setPrivacy _ | .setMappings _ => inferInstanceAs (Decidable False)

variable {u}

theorem TidyRules.filter {rules : List ApplicationPrivacyRule} (h : TidyRules u rules)
    (p : ApplicationPrivacyRule → Bool) : TidyRules u (rules.filter p) where
  distinct := nodup_filter h.distinct p
  normal rule hmem := h.normal rule (List.mem_of_mem_filter hmem)

theorem pushed_rule_new {rules : List ApplicationPrivacyRule} {rule : ApplicationPrivacyRule} :
    ∀ r ∈ rules.filter (fun r => r.appId ≠ rule.appId), r.appId ≠ rule.appId :=
  fun _ hmem => of_decide_eq_true (List.mem_filter.mp hmem).2

theorem TidyRules.upserted {rules : List ApplicationPrivacyRule} (h : TidyRules u rules)
    {rule : ApplicationPrivacyRule} (hrule : normalizeAppId u rule.appId = rule.appId) :
    TidyRules u (upsertedRules u rule rules) := by
  have hkept := h.filter (fun r => r.appId ≠ rule.appId)
  have hpushed : TidyRules u (if isEmptyRule u rule then
      rules.filter (fun r => r.appId ≠ rule.appId)
    else rules.filter (fun r => r.appId ≠ rule.appId) ++ [rule]) := by
    split
    · exact hkept
    · refine ⟨nodup_concat hkept.distinct pushed_rule_new, ?_⟩
      intro r hmem
      rcases List.mem_append.mp hmem with hold | hnew
      · exact hkept.normal r hold
      · rw [List.mem_singleton.mp hnew, hrule]
  have hsorted := List.perm_insertionSort ruleOrder (if isEmptyRule u rule then
      rules.filter (fun r => r.appId ≠ rule.appId)
    else rules.filter (fun r => r.appId ≠ rule.appId) ++ [rule])
  constructor
  · exact (hsorted.map _).nodup_iff.mpr hpushed.distinct
  · intro r hmem
    exact hpushed.normal r (hsorted.mem_iff.mp hmem)

theorem lookupKey_upsertedRules {rules : List ApplicationPrivacyRule} (h : TidyRules u rules)
    (rule : ApplicationPrivacyRule) :
    lookupKey ApplicationPrivacyRule.appId (upsertedRules u rule rules) =
      Function.update (lookupKey ApplicationPrivacyRule.appId rules) rule.appId
        (if isEmptyRule u rule then none else some rule) := by
  have hkept := (h.filter fun r => r.appId ≠ rule.appId).distinct
  funext appId
  have hsorted := List.perm_insertionSort ruleOrder (if isEmptyRule u rule then
      rules.filter (fun r => r.appId ≠ rule.appId)
    else rules.filter (fun r => r.appId ≠ rule.appId) ++ [rule])
  cases hempty : isEmptyRule u rule with
  | true =>
      simp only [hempty, if_true] at hsorted
      have hlist : upsertedRules u rule rules =
          (rules.filter (fun r => r.appId ≠ rule.appId)).insertionSort ruleOrder := by
        simp [upsertedRules, hempty]
      rw [hlist, ← lookupKey_perm hsorted.symm hkept, lookupKey_filter_ne, Function.update_apply]
      simp
  | false =>
      simp only [hempty, Bool.false_eq_true, if_false] at hsorted
      have hlist : upsertedRules u rule rules =
          (rules.filter (fun r => r.appId ≠ rule.appId) ++ [rule]).insertionSort ruleOrder := by
        simp [upsertedRules, hempty]
      rw [hlist, ← lookupKey_perm hsorted.symm (nodup_concat hkept pushed_rule_new),
        lookupKey_concat pushed_rule_new, lookupKey_filter_ne, Function.update_apply]
      by_cases happ : appId = rule.appId <;> simp [happ]

theorem run_eq_ok {config config' : FullCoreConfig} {command : SettingsCommand} {written : Bool}
    (h : command.run u config written = .ok config') (htidy : TidyRules u config.privacy.rules)
    (hsettled : command.Settled u) :
    TidyRules u config'.privacy.rules ∧
      config'.privacy.settings = command.apply u config.privacy.settings := by
  cases command with
  | setSources application media =>
      obtain rfl := updateConfig_eq_ok h
      exact ⟨htidy, rfl⟩
  | setPrivacy patch =>
      obtain rfl := updateConfig_eq_ok h
      exact ⟨htidy, rfl⟩
  | setMappings mappings =>
      obtain rfl := updateConfig_eq_ok h
      exact ⟨htidy, rfl⟩
  | upsertRule rule =>
      simp only [SettingsCommand.run, YohakuCore.upsertRule] at h
      split at h
      · contradiction
      · obtain rfl := updateConfig_eq_ok h
        refine ⟨htidy.upserted hsettled, ?_⟩
        have hrule := lookupKey_upsertedRules htidy (normalizedRule u rule)
        rw [normalizedRule_appId] at hrule
        simp only [PrivacyConfig.settings, SettingsCommand.apply, FullCoreConfig.withRules, hrule]
  | deleteRule appId =>
      simp only [SettingsCommand.run, YohakuCore.deleteRule] at h
      split at h
      · contradiction
      · obtain rfl := updateConfig_eq_ok h
        refine ⟨htidy.filter _, ?_⟩
        have hrule : lookupKey ApplicationPrivacyRule.appId
            (config.privacy.rules.filter (fun r => r.appId ≠ u.toLowercase appId)) =
            Function.update (lookupKey ApplicationPrivacyRule.appId config.privacy.rules)
              (u.toLowercase appId) none := by
          funext k
          rw [lookupKey_filter_ne, Function.update_apply]
        simp only [PrivacyConfig.settings, SettingsCommand.apply, FullCoreConfig.withRules, hrule]

theorem settingsStep_cases (config : FullCoreConfig) (call : SettingsCall) :
    (∃ config', call.command.run u config call.written = .ok config' ∧
      settingsStep u config call = (config', .ok ())) ∨
    ∃ error, settingsStep u config call = (config, .error error) := by
  unfold settingsStep
  cases hrun : call.command.run u config call.written with
  | ok config' => exact Or.inl ⟨config', rfl, rfl⟩
  | error error => exact Or.inr ⟨error, rfl⟩

theorem revalidate_updateConfig {config next : FullCoreConfig}
    {mutate : FullCoreConfig → FullCoreConfig} {written : Bool}
    (h : updateConfig config mutate written = .ok next) : revalidate next = .ok next := by
  have hnext := updateConfig_eq_ok h
  rw [updateConfig, ConfigStore.updated, ← hnext] at h
  cases hvalid : revalidate next with
  | ok config' =>
      obtain ⟨-, -, rfl⟩ := revalidate_eq_ok.mp hvalid
      rfl
  | error error => simp [hvalid] at h

/-- A command that succeeds leaves a valid file, of which it has changed only the privacy. -/
theorem kept_run {config config' : FullCoreConfig} {command : SettingsCommand} {written : Bool}
    (h : command.run u config written = .ok config') :
    revalidate config' = .ok config' ∧ ∃ privacy, config' = { config with privacy } := by
  have hupdate {mutate : FullCoreConfig → FullCoreConfig}
      (hmutate : ∀ c, ∃ privacy, mutate c = { c with privacy })
      (hok : updateConfig config mutate written = .ok config') :
      revalidate config' = .ok config' ∧ ∃ privacy, config' = { config with privacy } := by
    obtain ⟨privacy, hprivacy⟩ := hmutate config
    exact ⟨revalidate_updateConfig hok, privacy, (updateConfig_eq_ok hok).trans hprivacy⟩
  cases command with
  | setSources application media => exact hupdate (fun c => ⟨_, rfl⟩) h
  | setPrivacy patch => exact hupdate (fun c => ⟨_, rfl⟩) h
  | setMappings mappings => exact hupdate (fun c => ⟨_, rfl⟩) h
  | upsertRule rule =>
      simp only [SettingsCommand.run, YohakuCore.upsertRule] at h
      split at h
      · contradiction
      · exact hupdate (fun c => ⟨_, rfl⟩) h
  | deleteRule appId =>
      simp only [SettingsCommand.run, YohakuCore.deleteRule] at h
      split at h
      · contradiction
      · exact hupdate (fun c => ⟨_, rfl⟩) h

theorem findRule_settings {config : PrivacyConfig} (htidy : TidyRules u config.rules)
    (appId : String) : findRule u config appId = config.settings.rule (normalizeAppId u appId) := by
  simp only [findRule, PrivacyConfig.settings, lookupKey]
  apply List.find?_congr
  intro rule hmem
  rw [htidy.normal rule hmem]

theorem settings_after {config : FullCoreConfig} (htidy : TidyRules u config.privacy.rules)
    {calls : List SettingsCall} (hsettled : ∀ call ∈ calls, call.command.Settled u) :
    TidyRules u (after (settingsStep u) config calls).privacy.rules ∧
      (after (settingsStep u) config calls).privacy.settings =
        (answers (settingsStep u) config calls).foldl (settingsAnswered u)
          config.privacy.settings := by
  refine after_view (fun config : FullCoreConfig => config.privacy.settings) (settingsAnswered u)
    (I := fun config => TidyRules u config.privacy.rules) ?_ ?_ htidy hsettled
  · intro config₁ call htidy₁ hcall
    rcases settingsStep_cases (u := u) config₁ call with ⟨config₂, hrun, hstep⟩ | ⟨error, hstep⟩
    · rw [hstep]
      exact (run_eq_ok hrun htidy₁ hcall).1
    · rw [hstep]
      exact htidy₁
  · intro config₁ call htidy₁ hcall
    rcases settingsStep_cases (u := u) config₁ call with ⟨config₂, hrun, hstep⟩ | ⟨error, hstep⟩
    · rw [hstep]
      exact (run_eq_ok hrun htidy₁ hcall).2
    · rw [hstep]
      rfl

theorem kept_after (config : FullCoreConfig) (calls : List SettingsCall) :
    (revalidate config = .ok config → revalidate (after (settingsStep u) config calls) =
      .ok (after (settingsStep u) config calls)) ∧
      ∃ privacy, after (settingsStep u) config calls = { config with privacy } := by
  induction calls using List.reverseRecOn with
  | nil => exact ⟨id, config.privacy, rfl⟩
  | append_singleton calls call ih =>
      have hafter : after (settingsStep u) config (calls ++ [call]) =
          (settingsStep u (after (settingsStep u) config calls) call).1 := by
        rw [after_append]
        rfl
      rw [hafter]
      rcases settingsStep_cases (u := u) (after (settingsStep u) config calls) call with
        ⟨config', hrun, hstep⟩ | ⟨error, hstep⟩
      · rw [hstep]
        obtain ⟨hvalid, privacy, rfl⟩ := kept_run hrun
        obtain ⟨-, privacy', hprivacy⟩ := ih
        exact ⟨fun _ => hvalid, privacy, by rw [hprivacy]⟩
      · rw [hstep]
        exact ih

theorem rule_settingsAnswered {key : String} (s : PrivacySettings)
    {answered : SettingsCall × Except IpcErrorCode Unit}
    (hnames : answered.2 = .ok () → ¬ answered.1.command.Names u key) :
    (settingsAnswered u s answered).rule key = s.rule key := by
  obtain ⟨⟨command, written⟩, _ | _⟩ := answered
  · rfl
  · have hother := hnames rfl
    cases command with
    | upsertRule rule => exact Function.update_of_ne (Ne.symm hother) _ _
    | deleteRule appId => exact Function.update_of_ne (Ne.symm hother) _ _
    | setSources | setPrivacy | setMappings => rfl

theorem rule_foldl_settingsAnswered {key : String} (s : PrivacySettings)
    {answered : List (SettingsCall × Except IpcErrorCode Unit)}
    (hnames : ∀ a ∈ answered, a.2 = .ok () → ¬ a.1.command.Names u key) :
    (answered.foldl (settingsAnswered u) s).rule key = s.rule key := by
  induction answered generalizing s with
  | nil => rfl
  | cons a answered ih =>
      rw [List.foldl_cons, ih _ fun b hb => hnames b (List.mem_cons_of_mem _ hb),
        rule_settingsAnswered s (hnames a List.mem_cons_self)]

/-- Once a rule was stored, look-ups of its identifier find it until a command that names it
succeeds. -/
theorem findRule_after_upsert {config : FullCoreConfig} (htidy : TidyRules u config.privacy.rules)
    {earlier later : List SettingsCall} {rule : ApplicationPrivacyRule} {written : Bool}
    (hsettled : ∀ call ∈ earlier ++ ⟨.upsertRule rule, written⟩ :: later, call.command.Settled u)
    (hset : (settingsStep u (after (settingsStep u) config earlier)
      ⟨.upsertRule rule, written⟩).2 = .ok ())
    (hlater : ∀ a ∈ answers (settingsStep u) (settingsStep u (after (settingsStep u) config earlier)
      ⟨.upsertRule rule, written⟩).1 later,
      a.2 = .ok () → ¬ a.1.command.Names u (normalizeAppId u rule.appId))
    (hsome : isEmptyRule u (normalizedRule u rule) = false) {appId : String}
    (happ : normalizeAppId u appId = normalizeAppId u rule.appId) :
    findRule u (after (settingsStep u) config
      (earlier ++ ⟨.upsertRule rule, written⟩ :: later)).privacy appId =
        some (normalizedRule u rule) := by
  obtain ⟨htidy', hview⟩ := settings_after htidy hsettled
  rw [findRule_settings htidy', happ, hview, answers_append, answers, hset, List.foldl_append,
    List.foldl_cons, rule_foldl_settingsAnswered _ hlater]
  simp [settingsAnswered, SettingsCommand.apply, hsome]

variable (u)

/-- Whatever commands are run and whichever of them fail, the settings are those that the
successful ones make one after the other: the rule of an identifier is that of its last upsert
unless a deletion came later, and every look-up finds it. The list stays tidy, the file valid, and
the rest of it as it was. -/
theorem commands_refine_settings (config : FullCoreConfig)
    (htidy : TidyRules u config.privacy.rules) (calls : List SettingsCall)
    (hsettled : ∀ call ∈ calls, call.command.Settled u) :
    TidyRules u (after (settingsStep u) config calls).privacy.rules ∧
      (after (settingsStep u) config calls).privacy.settings =
        (answers (settingsStep u) config calls).foldl (settingsAnswered u)
          config.privacy.settings ∧
      (∀ appId, findRule u (after (settingsStep u) config calls).privacy appId =
        (after (settingsStep u) config calls).privacy.settings.rule (normalizeAppId u appId)) ∧
      (revalidate config = .ok config → revalidate (after (settingsStep u) config calls) =
        .ok (after (settingsStep u) config calls)) ∧
      ∃ privacy, after (settingsStep u) config calls = { config with privacy } := by
  obtain ⟨htidy', hsettings⟩ := settings_after htidy hsettled
  obtain ⟨hvalid, hframe⟩ := kept_after (u := u) config calls
  exact ⟨htidy', hsettings, findRule_settings htidy', hvalid, hframe⟩

def shareAll : PrivacyPatch :=
  ⟨some ⟨some .share, some .share, some .share⟩, some true, none⟩

/-- A rule hides an application. -/
def hidesCode : List SettingsCall :=
  [⟨.setPrivacy shareAll, true⟩, ⟨.upsertRule hiddenCode, true⟩]

/-- The deletion of that rule fails, and everything else is shared. -/
def sharesMore : List SettingsCall :=
  [⟨.deleteRule "Code.exe", false⟩, ⟨.upsertRule { sharedCode with appId := "obs64.exe" }, true⟩,
    ⟨.setSources (some true) (some true), true⟩, ⟨.setPrivacy shareAll, true⟩]

theorem tidyRules_nil : TidyRules u [] where
  distinct := List.nodup_nil
  normal := by simp

theorem commands_refine_settings_code :
    (after (settingsStep .ascii) defaultFullCoreConfig
      (hidesCode ++ sharesMore)).privacy.settings.rule "code.exe" = some hiddenLowerCode := by
  obtain ⟨-, hsettings, -⟩ := commands_refine_settings .ascii defaultFullCoreConfig
    (tidyRules_nil .ascii) (hidesCode ++ sharesMore) (by decide +kernel)
  rw [hsettings]
  decide +kernel

/-- When the upserts give identifiers whose normal forms are normal, an application that a rule has
hidden stays hidden: whatever defaults, sources, mappings and other rules are set later, and whatever
fails, nothing of it is shared until a command that names its identifier succeeds. The same holds of
its media. -/
theorem hidden_app_stays_hidden (config : FullCoreConfig)
    (htidy : TidyRules u config.privacy.rules) (earlier later : List SettingsCall)
    (rule : ApplicationPrivacyRule) (written : Bool)
    (hsettled : ∀ call ∈ earlier ++ ⟨.upsertRule rule, written⟩ :: later, call.command.Settled u)
    (hset : (settingsStep u (after (settingsStep u) config earlier)
      ⟨.upsertRule rule, written⟩).2 = .ok ())
    (hlater : ∀ a ∈ answers (settingsStep u) (settingsStep u (after (settingsStep u) config earlier)
      ⟨.upsertRule rule, written⟩).1 later,
      a.2 = .ok () → ¬ a.1.command.Names u (normalizeAppId u rule.appId))
    (appId : String) (happ : normalizeAppId u appId = normalizeAppId u rule.appId) :
    (rule.application = .hide → processDecision u (after (settingsStep u) config
      (earlier ++ ⟨.upsertRule rule, written⟩ :: later)).privacy appId = ⟨false, false, none⟩) ∧
    (rule.media = .hide → ∀ playerName, mediaDecision u (after (settingsStep u) config
      (earlier ++ ⟨.upsertRule rule, written⟩ :: later)).privacy (some appId) playerName =
        ⟨false, none⟩) := by
  constructor
  · intro hhide
    have hsome : isEmptyRule u (normalizedRule u rule) = false := by
      simp [isEmptyRule, hhide]
    rw [processDecision, findRule_after_upsert htidy hsettled hset hlater hsome happ]
    simp [processDecisionOf, resolveOverride, hhide]
  · intro hhide playerName
    have hsome : isEmptyRule u (normalizedRule u rule) = false := by
      simp [isEmptyRule, hhide]
    rw [mediaDecision, mediaRule, findRule_after_upsert htidy hsettled hset hlater hsome happ]
    simp [mediaDecisionOf, resolveOverride, hhide]

theorem hidden_app_stays_hidden_code :
    processDecision .ascii (after (settingsStep .ascii) defaultFullCoreConfig
      (hidesCode ++ sharesMore)).privacy " CODE.exe" = ⟨false, false, none⟩ :=
  (hidden_app_stays_hidden .ascii defaultFullCoreConfig (tidyRules_nil .ascii)
    [⟨.setPrivacy shareAll, true⟩] sharesMore hiddenCode true (by decide +kernel) rfl
    (by decide +kernel) " CODE.exe" (by decide +kernel)).1 rfl

end YohakuCore
