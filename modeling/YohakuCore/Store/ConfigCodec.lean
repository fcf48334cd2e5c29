import YohakuCore.Framework.Json
import YohakuCore.Model

/-!
# The schema of config.json

A document stands for a value when its declared keys say so, whatever other keys it has and in
whatever order.
-/

namespace YohakuCore

open Framework Json

def defaultCoreConfig : CoreConfig where
  privacy := defaultPrivacyConfig
  connection := none

def defaultFullCoreConfig : FullCoreConfig where
  toCoreConfig := defaultCoreConfig
  version := 1
  media := { provider := .auto }
  credentialBackend := none

def PrivacyDefault.toJson : PrivacyDefault → Json
  | .share => .string "share"
  | .hide => .string "hide"

def PrivacyDefault.fromJson : Json → Option PrivacyDefault :=
  readVariant (fun
    | "share" => some .share
    | "hide" => some .hide
    | _ => none)

@[simp] theorem PrivacyDefault.fromJson_toJson (v : PrivacyDefault) :
    fromJson v.toJson = some v := by
  cases v <;> rfl

def PrivacyOverride.toJson : PrivacyOverride → Json
  | .inherit => .string "inherit"
  | .share => .string "share"
  | .hide => .string "hide"

def PrivacyOverride.fromJson : Json → Option PrivacyOverride :=
  readVariant (fun
    | "inherit" => some .inherit
    | "share" => some .share
    | "hide" => some .hide
    | _ => none)

@[simp] theorem PrivacyOverride.fromJson_toJson (v : PrivacyOverride) :
    fromJson v.toJson = some v := by
  cases v <;> rfl

def PrivacyMappingType.toJson : PrivacyMappingType → Json
  | .processName => .string "process_name"
  | .mediaProcessName => .string "media_process_name"
  | .mediaPlayerName => .string "media_player_name"

def PrivacyMappingType.fromJson : Json → Option PrivacyMappingType :=
  readVariant (fun
    | "process_name" => some .processName
    | "media_process_name" => some .mediaProcessName
    | "media_player_name" => some .mediaPlayerName
    | _ => none)

@[simp] theorem PrivacyMappingType.fromJson_toJson (v : PrivacyMappingType) :
    fromJson v.toJson = some v := by
  cases v <;> rfl

def MediaProviderChoice.toJson : MediaProviderChoice → Json
  | .auto => .string "auto"
  | .npm => .string "npm"
  | .powershell => .string "powershell"

def MediaProviderChoice.fromJson : Json → Option MediaProviderChoice :=
  readVariant (fun
    | "auto" => some .auto
    | "npm" => some .npm
    | "powershell" => some .powershell
    | _ => none)

@[simp] theorem MediaProviderChoice.fromJson_toJson (v : MediaProviderChoice) :
    fromJson v.toJson = some v := by
  cases v <;> rfl

def CredentialBackend.toJson : CredentialBackend → Json
  | .keyring => .string "keyring"
  | .dpapi => .string "dpapi"

def CredentialBackend.fromJson : Json → Option CredentialBackend :=
  readVariant (fun
    | "keyring" => some .keyring
    | "dpapi" => some .dpapi
    | _ => none)

@[simp] theorem CredentialBackend.fromJson_toJson (v : CredentialBackend) :
    fromJson v.toJson = some v := by
  cases v <;> rfl

namespace ApplicationPrivacyRule

/-- The key `displayAlias` is left out when there is no alias. -/
def toJson (rule : ApplicationPrivacyRule) : Json :=
  .object ([("appId", .string rule.appId), ("application", rule.application.toJson),
    ("windowTitle", rule.windowTitle.toJson), ("media", rule.media.toJson)] ++
    (rule.displayAlias.map (fun text => ("displayAlias", Json.string text))).toList)

def fromJson (j : Json) : Option ApplicationPrivacyRule :=
  if j.hasShape 5 then do
    let appId ← required readString 0 "appId" j
    let application ← required PrivacyOverride.fromJson 1 "application" j
    let windowTitle ← required PrivacyOverride.fromJson 2 "windowTitle" j
    let media ← required PrivacyOverride.fromJson 3 "media" j
    let displayAlias ← defaulted readString 4 "displayAlias" j
    return { appId, application, windowTitle, media, displayAlias }
  else none

def Document (rule : ApplicationPrivacyRule) (j : Json) : Prop :=
  ∃ members, j = .object members ∧
    HasMember members "appId" (· = .string rule.appId) ∧
    HasMember members "application" (· = rule.application.toJson) ∧
    HasMember members "windowTitle" (· = rule.windowTitle.toJson) ∧
    HasMember members "media" (· = rule.media.toJson) ∧
    match rule.displayAlias with
    | some text => HasMember members "displayAlias" (· = .string text)
    | none => NoMember members "displayAlias"

theorem fromJson_document {rule : ApplicationPrivacyRule} {j : Json} (h : rule.Document j) :
    fromJson j = some rule := by
  obtain ⟨members, rfl, happId, happlication, hwindowTitle, hmedia, halias⟩ := h
  have hread : defaulted readString 4 "displayAlias" (.object members) =
      some rule.displayAlias := by
    cases hd : rule.displayAlias with
    | none =>
        rw [hd] at halias
        exact defaulted_object_of_noMember halias
    | some text =>
        rw [hd] at halias
        exact defaulted_object halias (fun _ hv => by rw [hv]; rfl)
  simp [fromJson, hasShape, required_of_eq happId, required_of_eq happlication,
    required_of_eq hwindowTitle, required_of_eq hmedia, hread]

theorem document_toJson (rule : ApplicationPrivacyRule) : rule.Document rule.toJson := by
  refine ⟨_, rfl, ?_, ?_, ?_, ?_, ?_⟩
  all_goals cases hd : rule.displayAlias <;> simp [HasMember, NoMember, valuesOf]

end ApplicationPrivacyRule

namespace PrivacyMapping

def toJson (mapping : PrivacyMapping) : Json :=
  .object [("type", mapping.mappingType.toJson), ("from", .string mapping.source),
    ("to", .string mapping.target)]

def fromJson (j : Json) : Option PrivacyMapping :=
  if j.hasShape 3 then do
    let mappingType ← required PrivacyMappingType.fromJson 0 "type" j
    let source ← required readString 1 "from" j
    let target ← required readString 2 "to" j
    return { mappingType, source, target }
  else none

def Document (mapping : PrivacyMapping) (j : Json) : Prop :=
  ∃ members, j = .object members ∧
    HasMember members "type" (· = mapping.mappingType.toJson) ∧
    HasMember members "from" (· = .string mapping.source) ∧
    HasMember members "to" (· = .string mapping.target)

theorem fromJson_document {mapping : PrivacyMapping} {j : Json} (h : mapping.Document j) :
    fromJson j = some mapping := by
  obtain ⟨members, rfl, htype, hfrom, hto⟩ := h
  simp [fromJson, hasShape, required_of_eq htype, required_of_eq hfrom, required_of_eq hto]

theorem document_toJson (mapping : PrivacyMapping) : mapping.Document mapping.toJson := by
  refine ⟨_, rfl, ?_, ?_, ?_⟩
  all_goals simp [HasMember, valuesOf]

end PrivacyMapping

namespace PrivacyDefaults

def toJson (defaults : PrivacyDefaults) : Json :=
  .object [("application", defaults.application.toJson),
    ("windowTitle", defaults.windowTitle.toJson), ("media", defaults.media.toJson)]

def fromJson (j : Json) : Option PrivacyDefaults :=
  if j.hasShape 3 then do
    let application ← required PrivacyDefault.fromJson 0 "application" j
    let windowTitle ← required PrivacyDefault.fromJson 1 "windowTitle" j
    let media ← required PrivacyDefault.fromJson 2 "media" j
    return { application, windowTitle, media }
  else none

def Document (defaults : PrivacyDefaults) (j : Json) : Prop :=
  ∃ members, j = .object members ∧
    HasMember members "application" (· = defaults.application.toJson) ∧
    HasMember members "windowTitle" (· = defaults.windowTitle.toJson) ∧
    HasMember members "media" (· = defaults.media.toJson)

theorem fromJson_document {defaults : PrivacyDefaults} {j : Json} (h : defaults.Document j) :
    fromJson j = some defaults := by
  obtain ⟨members, rfl, happlication, hwindowTitle, hmedia⟩ := h
  simp [fromJson, hasShape, required_of_eq happlication, required_of_eq hwindowTitle,
    required_of_eq hmedia]

theorem document_toJson (defaults : PrivacyDefaults) : defaults.Document defaults.toJson := by
  refine ⟨_, rfl, ?_, ?_, ?_⟩
  all_goals simp [HasMember, valuesOf]

end PrivacyDefaults

namespace PrivacySources

def toJson (sources : PrivacySources) : Json :=
  .object [("application", .bool sources.application), ("media", .bool sources.media)]

def fromJson (j : Json) : Option PrivacySources :=
  if j.hasShape 2 then do
    let application ← required readBool 0 "application" j
    let media ← required readBool 1 "media" j
    return { application, media }
  else none

def Document (sources : PrivacySources) (j : Json) : Prop :=
  ∃ members, j = .object members ∧
    HasMember members "application" (· = .bool sources.application) ∧
    HasMember members "media" (· = .bool sources.media)

theorem fromJson_document {sources : PrivacySources} {j : Json} (h : sources.Document j) :
    fromJson j = some sources := by
  obtain ⟨members, rfl, happlication, hmedia⟩ := h
  simp [fromJson, hasShape, required_of_eq happlication, required_of_eq hmedia]

theorem document_toJson (sources : PrivacySources) : sources.Document sources.toJson := by
  refine ⟨_, rfl, ?_, ?_⟩
  all_goals simp [HasMember, valuesOf]

end PrivacySources

namespace PrivacyConfig

def toJson (config : PrivacyConfig) : Json :=
  .object [("defaults", config.defaults.toJson),
    ("rules", .array (config.rules.map ApplicationPrivacyRule.toJson)),
    ("mappings", .array (config.mappings.map PrivacyMapping.toJson)),
    ("shareWindowTitles", .bool config.shareWindowTitles),
    ("ignoreNullArtist", .bool config.ignoreNullArtist), ("sources", config.sources.toJson)]

def fromJson (j : Json) : Option PrivacyConfig :=
  if j.hasShape 6 then do
    let defaults ← required PrivacyDefaults.fromJson 0 "defaults" j
    let rules ← required (readList ApplicationPrivacyRule.fromJson) 1 "rules" j
    let mappings ← required (readList PrivacyMapping.fromJson) 2 "mappings" j
    let shareWindowTitles ← required readBool 3 "shareWindowTitles" j
    let ignoreNullArtist ← required readBool 4 "ignoreNullArtist" j
    let sources ← required PrivacySources.fromJson 5 "sources" j
    return { defaults, rules, mappings, shareWindowTitles, ignoreNullArtist, sources }
  else none

def Document (config : PrivacyConfig) (j : Json) : Prop :=
  ∃ members, j = .object members ∧
    HasMember members "defaults" config.defaults.Document ∧
    HasMember members "rules" (ListDocument ApplicationPrivacyRule.Document config.rules) ∧
    HasMember members "mappings" (ListDocument PrivacyMapping.Document config.mappings) ∧
    HasMember members "shareWindowTitles" (· = .bool config.shareWindowTitles) ∧
    HasMember members "ignoreNullArtist" (· = .bool config.ignoreNullArtist) ∧
    HasMember members "sources" config.sources.Document

theorem fromJson_document {config : PrivacyConfig} {j : Json} (h : config.Document j) :
    fromJson j = some config := by
  obtain ⟨members, rfl, hdefaults, hrules, hmappings, htitles, hartist, hsources⟩ := h
  have hrule : ∀ j, ListDocument ApplicationPrivacyRule.Document config.rules j →
      readList ApplicationPrivacyRule.fromJson j = some config.rules :=
    fun _ => readList_document (fun _ _ h => ApplicationPrivacyRule.fromJson_document h)
  have hmapping : ∀ j, ListDocument PrivacyMapping.Document config.mappings j →
      readList PrivacyMapping.fromJson j = some config.mappings :=
    fun _ => readList_document (fun _ _ h => PrivacyMapping.fromJson_document h)
  simp [fromJson, hasShape,
    required_object hdefaults (fun _ => PrivacyDefaults.fromJson_document),
    required_object hrules hrule, required_object hmappings hmapping,
    required_of_eq htitles, required_of_eq hartist,
    required_object hsources (fun _ => PrivacySources.fromJson_document)]

theorem document_toJson (config : PrivacyConfig) : config.Document config.toJson := by
  refine ⟨_, rfl, ?_, ?_, ?_, ?_, ?_, ?_⟩
  case refine_1 => simp [HasMember, valuesOf, PrivacyDefaults.document_toJson]
  case refine_2 =>
    simp [HasMember, valuesOf, listDocument_map, ApplicationPrivacyRule.document_toJson]
  case refine_3 => simp [HasMember, valuesOf, listDocument_map, PrivacyMapping.document_toJson]
  case refine_6 => simp [HasMember, valuesOf, PrivacySources.document_toJson]
  all_goals simp [HasMember, valuesOf]

end PrivacyConfig

namespace MediaConfig

def toJson (media : MediaConfig) : Json := .object [("provider", media.provider.toJson)]

def fromJson (j : Json) : Option MediaConfig :=
  if j.hasShape 1 then do
    let provider ← required MediaProviderChoice.fromJson 0 "provider" j
    return { provider }
  else none

def Document (media : MediaConfig) (j : Json) : Prop :=
  ∃ members, j = .object members ∧ HasMember members "provider" (· = media.provider.toJson)

theorem fromJson_document {media : MediaConfig} {j : Json} (h : media.Document j) :
    fromJson j = some media := by
  obtain ⟨members, rfl, hprovider⟩ := h
  simp [fromJson, hasShape, required_of_eq hprovider]

theorem document_toJson (media : MediaConfig) : media.Document media.toJson :=
  ⟨_, rfl, by simp [HasMember, valuesOf]⟩

end MediaConfig

namespace StoredConnection

def toJson (connection : StoredConnection) : Json :=
  .object [("baseUrl", .string connection.baseUrl), ("deviceId", .string connection.deviceId),
    ("deviceName", .string connection.deviceName),
    ("scopes", .array (connection.scopes.map Json.string)),
    ("pairingNextSequence", .number (.posInt connection.pairingNextSequence)),
    ("liveDeskEnabled", .bool connection.liveDeskEnabled)]

def fromJson (j : Json) : Option StoredConnection :=
  if j.hasShape 6 then do
    let baseUrl ← required readString 0 "baseUrl" j
    let deviceId ← required readString 1 "deviceId" j
    let deviceName ← required readString 2 "deviceName" j
    let scopes ← required (readList readString) 3 "scopes" j
    let pairingNextSequence ← required readU64 4 "pairingNextSequence" j
    let liveDeskEnabled ← required readBool 5 "liveDeskEnabled" j
    return { baseUrl, deviceId, deviceName, scopes, pairingNextSequence, liveDeskEnabled }
  else none

def Document (connection : StoredConnection) (j : Json) : Prop :=
  ∃ members, j = .object members ∧
    HasMember members "baseUrl" (· = .string connection.baseUrl) ∧
    HasMember members "deviceId" (· = .string connection.deviceId) ∧
    HasMember members "deviceName" (· = .string connection.deviceName) ∧
    HasMember members "scopes"
      (ListDocument (fun text j => j = .string text) connection.scopes) ∧
    HasMember members "pairingNextSequence"
      (· = .number (.posInt connection.pairingNextSequence)) ∧
    HasMember members "liveDeskEnabled" (· = .bool connection.liveDeskEnabled)

theorem fromJson_document {connection : StoredConnection} {j : Json}
    (h : connection.Document j) : fromJson j = some connection := by
  obtain ⟨members, rfl, hbaseUrl, hdeviceId, hdeviceName, hscopes, hsequence, henabled⟩ := h
  have hscope : ∀ j, ListDocument (fun text j => j = .string text) connection.scopes j →
      readList readString j = some connection.scopes :=
    fun _ => readList_document (fun _ _ h => by rw [h]; rfl)
  simp [fromJson, hasShape, required_of_eq hbaseUrl, required_of_eq hdeviceId,
    required_of_eq hdeviceName, required_object hscopes hscope, required_of_eq hsequence,
    required_of_eq henabled]

theorem document_toJson (connection : StoredConnection) :
    connection.Document connection.toJson := by
  refine ⟨_, rfl, ?_, ?_, ?_, ?_, ?_, ?_⟩
  all_goals simp [HasMember, valuesOf, listDocument_map]

end StoredConnection

namespace FullCoreConfig

/-- The literal `1`. -/
def readVersion (j : Json) : Option UInt32 :=
  (readU32 j).filter (fun version => version = 1)

def toJson (config : FullCoreConfig) : Json :=
  .object [("version", .number (.posInt config.version.toUInt64)),
    ("privacy", config.privacy.toJson),
    ("connection", writeOption StoredConnection.toJson config.connection),
    ("media", config.media.toJson),
    ("credentialBackend", writeOption CredentialBackend.toJson config.credentialBackend)]

def fromJson (j : Json) : Option FullCoreConfig :=
  if j.hasShape 5 then do
    let version ← required readVersion 0 "version" j
    let privacy ← required PrivacyConfig.fromJson 1 "privacy" j
    let connection ← optional StoredConnection.fromJson 2 "connection" j
    let media ← required MediaConfig.fromJson 3 "media" j
    let credentialBackend ← optional CredentialBackend.fromJson 4 "credentialBackend" j
    return { privacy, connection, version, media, credentialBackend }
  else none

/-- The keys of an absent connection and of an absent backend may be left out. -/
def Document (config : FullCoreConfig) (j : Json) : Prop :=
  ∃ members, j = .object members ∧
    HasMember members "version" (· = .number (.posInt config.version.toUInt64)) ∧
    HasMember members "privacy" config.privacy.Document ∧
    HasOptional members "connection" StoredConnection.Document config.connection ∧
    HasMember members "media" config.media.Document ∧
    HasOptional members "credentialBackend" (fun backend j => j = backend.toJson)
      config.credentialBackend

theorem readVersion_eq_some {version v : UInt32} :
    readVersion (.number (.posInt version.toUInt64)) = some v ↔ version = 1 ∧ v = version := by
  have hread : readU32 (.number (.posInt version.toUInt64)) = some version := by
    simp [readU32, version.toNat_lt]
  simp only [readVersion, hread, Option.filter_eq_some_iff, Option.some.injEq, decide_eq_true_eq]
  constructor
  · rintro ⟨rfl, hv⟩
    exact ⟨hv, rfl⟩
  · rintro ⟨hv, rfl⟩
    exact ⟨rfl, hv⟩

theorem fromJson_document {config : FullCoreConfig} {j : Json} (hversion : config.version = 1)
    (h : config.Document j) : fromJson j = some config := by
  obtain ⟨members, rfl, hnumber, hprivacy, hconnection, hmedia, hbackend⟩ := h
  have hfirst : required readVersion 0 "version" (.object members) = some config.version := by
    rw [required_of_eq hnumber]
    exact readVersion_eq_some.mpr ⟨hversion, rfl⟩
  simp [fromJson, hasShape, hfirst,
    required_object hprivacy (fun _ => PrivacyConfig.fromJson_document),
    optional_hasOptional (fun _ _ h => StoredConnection.fromJson_document h) hconnection,
    required_object hmedia (fun _ => MediaConfig.fromJson_document),
    optional_hasOptional (fun a _ h => h ▸ CredentialBackend.fromJson_toJson a) hbackend]

theorem document_toJson (config : FullCoreConfig) : config.Document config.toJson := by
  refine ⟨_, rfl, ?_, ?_, ?_, ?_, ?_⟩
  case refine_1 => simp [HasMember, valuesOf]
  case refine_2 => simp [HasMember, valuesOf, PrivacyConfig.document_toJson]
  case refine_3 =>
    refine hasOptional_writeOption StoredConnection.toJson (by simp [valuesOf]) ?_
    intro connection
    exact ⟨by simp [StoredConnection.toJson], connection.document_toJson⟩
  case refine_4 => simp [HasMember, valuesOf, MediaConfig.document_toJson]
  case refine_5 =>
    refine hasOptional_writeOption CredentialBackend.toJson (by simp [valuesOf]) ?_
    intro backend
    exact ⟨by cases backend <;> simp [CredentialBackend.toJson], rfl⟩

theorem fromJson_toJson {config : FullCoreConfig} (hversion : config.version = 1) :
    fromJson config.toJson = some config :=
  fromJson_document hversion config.document_toJson

theorem fromJson_toJson_eq_some {config config' : FullCoreConfig} :
    fromJson config.toJson = some config' ↔ config.version = 1 ∧ config' = config := by
  constructor
  · intro h
    have hversion : config.version = 1 := by
      obtain ⟨members, hj, hnumber, -⟩ := config.document_toJson
      rw [hj] at h
      simp only [fromJson, hasShape, if_true, required_of_eq hnumber] at h
      obtain ⟨version, hread, -⟩ := Option.bind_eq_some_iff.mp h
      exact (readVersion_eq_some.mp hread).1
    rw [fromJson_toJson hversion] at h
    exact ⟨hversion, (Option.some.inj h).symm⟩
  · rintro ⟨hversion, rfl⟩
    exact fromJson_toJson hversion

end FullCoreConfig

/-- The refinements of the schema that the types do not carry; the first violation is reported. -/
def validateConfigSemantics (config : CoreConfig) : Except String Unit :=
  let rule (rule : ApplicationPrivacyRule) : Option String :=
    if rule.appId = "" then some "privacy.rules[].appId must be non-empty" else none
  let mapping (mapping : PrivacyMapping) : Option String :=
    if mapping.source = "" then some "privacy.mappings[].from must be non-empty"
    else if mapping.target = "" then some "privacy.mappings[].to must be non-empty"
    else none
  match (config.privacy.rules.findSome? rule).or (config.privacy.mappings.findSome? mapping) with
  | some error => .error error
  | none => .ok ()

/-- Why a configuration is refused; the message of the derived reader is the library's. -/
inductive SchemaError where
  | document
  | semantics (message : String)
  deriving DecidableEq

/-- The checks that follow the derived reader. -/
def FullCoreConfig.checked (config : FullCoreConfig) : Except SchemaError FullCoreConfig :=
  match validateConfigSemantics config.toCoreConfig with
  | .ok () => .ok config
  | .error message => .error (.semantics message)

def parseDocument (j : Json) : Except SchemaError FullCoreConfig :=
  match FullCoreConfig.fromJson j with
  | some config => config.checked
  | none => .error .document

section Text

variable {Text : Type*} (json : JsonText Text)

/-- The configuration that the text of config.json stands for. -/
def parseConfig (text : Text) : Except SchemaError FullCoreConfig :=
  match json.parse text with
  | some j => parseDocument j
  | none => .error .document

end Text

/-- The result of a mutation, written as a document and read back. -/
def revalidate (config : FullCoreConfig) : Except SchemaError FullCoreConfig :=
  parseDocument config.toJson

theorem checked_eq_ok {config config' : FullCoreConfig} :
    config.checked = .ok config' ↔
      validateConfigSemantics config.toCoreConfig = .ok () ∧ config' = config := by
  rw [FullCoreConfig.checked]
  cases validateConfigSemantics config.toCoreConfig with
  | ok _ => simp [eq_comm]
  | error message => simp

/-- A mutation is accepted when its version is 1 and its rules and mappings are not blank, and
then as it is. -/
theorem revalidate_eq_ok {config config' : FullCoreConfig} :
    revalidate config = .ok config' ↔ config.version = 1 ∧
      validateConfigSemantics config.toCoreConfig = .ok () ∧ config' = config := by
  rw [revalidate, parseDocument]
  cases hread : FullCoreConfig.fromJson config.toJson with
  | none =>
      have hversion : config.version ≠ 1 := by
        intro hversion
        rw [FullCoreConfig.fromJson_toJson hversion] at hread
        contradiction
      simp [hversion]
  | some config'' =>
      obtain ⟨hversion, rfl⟩ := FullCoreConfig.fromJson_toJson_eq_some.mp hread
      simp only [checked_eq_ok, hversion, true_and]

theorem revalidate_default : revalidate defaultFullCoreConfig = .ok defaultFullCoreConfig :=
  revalidate_eq_ok.mpr ⟨rfl, rfl, rfl⟩

/-- A document that stands for an accepted configuration is parsed as that configuration. -/
theorem parseConfig_document {Text : Type*} {json : JsonText Text}
    {config config' : FullCoreConfig} (hvalid : revalidate config = .ok config') {text : Text}
    {j : Json} (hparse : json.parse text = some j) (hj : config.Document j) :
    parseConfig json text = .ok config := by
  obtain ⟨hversion, hsemantics, -⟩ := revalidate_eq_ok.mp hvalid
  rw [parseConfig, hparse]
  simp only [parseDocument, FullCoreConfig.fromJson_document hversion hj]
  exact checked_eq_ok.mpr ⟨hsemantics, rfl⟩

theorem parseConfig_print {Text : Type*} {json : JsonText Text} {config config' : FullCoreConfig}
    (hjson : json.Restores config.toJson) (hvalid : revalidate config = .ok config') :
    parseConfig json (json.print config.toJson) = .ok config :=
  parseConfig_document hvalid hjson config.document_toJson

end YohakuCore
