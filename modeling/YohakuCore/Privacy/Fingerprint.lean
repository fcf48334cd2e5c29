import YohakuCore.Framework.PrefixCode
import YohakuCore.Framework.StableSort
import YohakuCore.Framework.Utf16
import YohakuCore.Privacy.Evaluator

/-!
# Policy fingerprint

The preimage is a prefix code field by field. It does not determine where the empty rules stood, nor
the order of mappings whose sources differ up to normalization only.
-/

namespace YohakuCore

open Framework

/-- The UTF-16 code units of one scalar value. -/
def utf16Units (c : Char) : List Nat :=
  if c.toNat < 0x10000 then [c.toNat]
  else [0xD800 + (c.toNat - 0x10000) / 0x400, 0xDC00 + (c.toNat - 0x10000) % 0x400]

def encodeUtf16 (value : String) : List Nat := value.toList.flatMap utf16Units

/-- Lexicographic comparison of code units, the source's `Iterator::cmp`. -/
def compareUnits : List Nat → List Nat → Ordering
  | [], [] => .eq
  | [], _ :: _ => .lt
  | _ :: _, [] => .gt
  | a :: l, b :: m => (compare a b).then (compareUnits l m)

def cmpUtf16 (a b : String) : Ordering := compareUnits (encodeUtf16 a) (encodeUtf16 b)

private theorem compareUnits_self (l : List Nat) : compareUnits l l = .eq := by
  induction l with
  | nil => rfl
  | cons a l ih => simp [compareUnits, ih]

@[simp] theorem cmpUtf16_self (a : String) : cmpUtf16 a a = .eq := compareUnits_self _

/-- Strings in the order of their UTF-16 code units. -/
def keyOrder (a b : String) : Prop := cmpUtf16 a b ≠ .gt

instance : DecidableRel keyOrder := fun a b => inferInstanceAs (Decidable (cmpUtf16 a b ≠ .gt))

private theorem compareUnits_eq (l m : List Nat) : compareUnits l m = l.compareLex compare m := by
  induction l generalizing m with
  | nil => cases m <;> rfl
  | cons a l ih =>
      cases m with
      | nil => rfl
      | cons b m => rw [compareUnits, ih, List.compareLex_cons_cons]

private theorem keyOrder_iff {a b : String} :
    keyOrder a b ↔ ((encodeUtf16 a).compareLex compare (encodeUtf16 b)).isLE := by
  rw [keyOrder, cmpUtf16, compareUnits_eq, Ordering.isLE_iff_ne_gt]

theorem keyOrder_trans {a b c : String} (hab : keyOrder a b) (hbc : keyOrder b c) :
    keyOrder a c := by
  rw [keyOrder_iff] at hab hbc ⊢
  exact Std.TransCmp.isLE_trans hab hbc

theorem keyOrder_total (a b : String) : keyOrder a b ∨ keyOrder b a := by
  have hswap : (encodeUtf16 a).compareLex compare (encodeUtf16 b) =
      ((encodeUtf16 b).compareLex compare (encodeUtf16 a)).swap :=
    Std.OrientedCmp.eq_swap
  rw [keyOrder_iff, keyOrder_iff, hswap]
  cases (encodeUtf16 b).compareLex compare (encodeUtf16 a) <;> decide

theorem encodeUtf16_eq (value : String) : encodeUtf16 value = Utf16.encode value.toList := rfl

theorem encodeUtf16_injective : Function.Injective encodeUtf16 := by
  intro a b h
  rw [encodeUtf16_eq, encodeUtf16_eq] at h
  exact String.toList_injective (Utf16.encode_injective h)

theorem keyOrder_antisymm {a b : String} (hab : keyOrder a b) (hba : keyOrder b a) : a = b := by
  rw [keyOrder_iff] at hab hba
  have heq : (encodeUtf16 a).compareLex compare (encodeUtf16 b) = .eq :=
    Std.OrientedCmp.isLE_antisymm hab hba
  exact encodeUtf16_injective (Std.LawfulEqCmp.eq_of_compare heq)

def mappingTypeStr : PrivacyMappingType → String
  | .processName => "process_name"
  | .mediaProcessName => "media_process_name"
  | .mediaPlayerName => "media_player_name"

def defaultStr : PrivacyDefault → String
  | .share => "share"
  | .hide => "hide"

def overrideStr : PrivacyOverride → String
  | .inherit => "inherit"
  | .share => "share"
  | .hide => "hide"

def hexDigit (n : Nat) : Char :=
  if n < 10 then Char.ofNat (48 + n) else Char.ofNat (87 + n)

/-- The string escapes of `serde_json`. -/
def escapeChar (c : Char) : List Char :=
  if c = '\"' then ['\\', '\"']
  else if c = '\\' then ['\\', '\\']
  else if c.toNat = 0x08 then ['\\', 'b']
  else if c.toNat = 0x09 then ['\\', 't']
  else if c.toNat = 0x0A then ['\\', 'n']
  else if c.toNat = 0x0C then ['\\', 'f']
  else if c.toNat = 0x0D then ['\\', 'r']
  else if c.toNat < 0x20 then
    ['\\', 'u', '0', '0', hexDigit (c.toNat / 16), hexDigit (c.toNat % 16)]
  else [c]

def jsonString (value : String) : String :=
  String.ofList ('\"' :: (value.toList.flatMap escapeChar ++ ['\"']))

def jsonBool (value : Bool) : String :=
  if value then "true" else "false"

/-- What a run of `push_str` calls on an empty buffer leaves. -/
def pushAll (parts : List String) : String := String.ofList (parts.flatMap String.toList)

def aliasJson : Option String → String
  | some displayAlias => pushAll [",\"displayAlias\":", jsonString displayAlias]
  | none => ""

/-- The compact canonical JSON of one normalized rule. -/
def ruleJson (rule : ApplicationPrivacyRule) : String :=
  pushAll ["\x7b\"appId\":", jsonString rule.appId, ",\"application\":\"",
    overrideStr rule.application, "\"", aliasJson rule.displayAlias, ",\"media\":\"",
    overrideStr rule.media, "\",\"windowTitle\":\"", overrideStr rule.windowTitle, "\"\x7d"]

/-- The compact canonical JSON of one raw mapping. -/
def mappingJson (mapping : PrivacyMapping) : String :=
  pushAll ["\x7b\"from\":", jsonString mapping.source, ",\"to\":", jsonString mapping.target,
    ",\"type\":\"", mappingTypeStr mapping.mappingType, "\"\x7d"]

/-- The items of an array with commas between them. -/
def arrayJson {α : Type*} (item : α → String) (items : List α) : String :=
  String.ofList (separated ',' (fun a => (item a).toList) items)

variable (u : UnicodeData)

/-- The rules the fingerprint sees: normalized, without the empty ones, in configuration order. -/
def informativeRules (config : PrivacyConfig) : List ApplicationPrivacyRule :=
  (config.rules.map (normalizedRule u)).filter (fun rule => !isEmptyRule u rule)

def sortedRules (config : PrivacyConfig) : List ApplicationPrivacyRule :=
  (informativeRules u config).insertionSort
    (fun a b => cmpUtf16 a.appId b.appId ≠ .gt)

/-- The separator is a backslash followed by the digit zero. -/
def mappingSortKey (mapping : PrivacyMapping) : String :=
  mappingTypeStr mapping.mappingType ++ "\\0" ++ mapping.source

def sortedMappings (config : PrivacyConfig) : List PrivacyMapping :=
  config.mappings.insertionSort
    (fun a b => cmpUtf16 (mappingSortKey a) (mappingSortKey b) ≠ .gt)

def policyPreimage (config : PrivacyConfig) : String :=
  pushAll ["\x7b\"defaults\":\x7b\"application\":\"", defaultStr config.defaults.application,
    "\",\"media\":\"", defaultStr config.defaults.media,
    "\",\"windowTitle\":\"", defaultStr config.defaults.windowTitle,
    "\"\x7d,\"ignoreNullArtist\":", jsonBool config.ignoreNullArtist,
    ",\"mappings\":[", arrayJson mappingJson (sortedMappings config),
    "],\"rules\":[", arrayJson ruleJson (sortedRules u config),
    "],\"shareWindowTitles\":", jsonBool config.shareWindowTitles,
    ",\"sources\":\x7b\"application\":", jsonBool config.sources.application,
    ",\"media\":", jsonBool config.sources.media, "\x7d\x7d"]

/-- The SHA-256 digest in hexadecimal comes from the `sha2` crate. -/
def policyFingerprint (sha256Hex : String → String) (config : PrivacyConfig) : String :=
  sha256Hex (policyPreimage u config)

section Codes

private theorem defaultStr_code : PrefixCode (fun v => (defaultStr v).toList) := by
  apply PrefixCode.of_prefix
  intro a b
  cases a <;> cases b <;> decide

private theorem overrideStr_code : PrefixCode (fun v => (overrideStr v).toList) := by
  apply PrefixCode.of_prefix
  intro a b
  cases a <;> cases b <;> decide

private theorem mappingTypeStr_code : PrefixCode (fun v => (mappingTypeStr v).toList) := by
  apply PrefixCode.of_prefix
  intro a b
  cases a <;> cases b <;> decide

private theorem jsonBool_code : PrefixCode (fun v => (jsonBool v).toList) := by
  apply PrefixCode.of_prefix
  intro a b
  cases a <;> cases b <;> decide

private def hexValue (c : Char) : Nat :=
  if c.toNat < 58 then c.toNat - 48 else c.toNat - 87

private def unescape : List Char → Option (Char × List Char)
  | '\\' :: 'b' :: rest => some (Char.ofNat 0x08, rest)
  | '\\' :: 't' :: rest => some (Char.ofNat 0x09, rest)
  | '\\' :: 'n' :: rest => some (Char.ofNat 0x0A, rest)
  | '\\' :: 'f' :: rest => some (Char.ofNat 0x0C, rest)
  | '\\' :: 'r' :: rest => some (Char.ofNat 0x0D, rest)
  | '\\' :: 'u' :: _ :: _ :: high :: low :: rest =>
      some (Char.ofNat (16 * hexValue high + hexValue low), rest)
  | '\\' :: c :: rest => some (c, rest)
  | c :: rest => some (c, rest)
  | [] => none

private theorem hexValue_hexDigit : ∀ n < 32,
    16 * hexValue (hexDigit (n / 16)) + hexValue (hexDigit (n % 16)) = n := by
  decide

private theorem char_eq_ofNat {c : Char} {n : Nat} (h : c.toNat = n) : Char.ofNat n = c := by
  rw [← h, Char.ofNat_toNat]

private theorem unescape_escapeChar (c : Char) (rest : List Char) :
    unescape (escapeChar c ++ rest) = some (c, rest) := by
  unfold escapeChar
  split_ifs with hquote hslash hb ht hn hf hr hcontrol
  · subst hquote; rfl
  · subst hslash; rfl
  · exact congrArg (fun c => some (c, rest)) (char_eq_ofNat hb)
  · exact congrArg (fun c => some (c, rest)) (char_eq_ofNat ht)
  · exact congrArg (fun c => some (c, rest)) (char_eq_ofNat hn)
  · exact congrArg (fun c => some (c, rest)) (char_eq_ofNat hf)
  · exact congrArg (fun c => some (c, rest)) (char_eq_ofNat hr)
  · simp [unescape, hexValue_hexDigit c.toNat hcontrol]
  · simp [unescape, hslash]

private theorem escapeChar_ne_quote (c : Char) (s t : List Char) :
    escapeChar c ++ s ≠ '\"' :: t := by
  unfold escapeChar
  split_ifs with hquote <;> simp [hquote]

private theorem jsonString_code : PrefixCode (fun v => (jsonString v).toList) := by
  have hbody : PrefixCode (fun l : List Char => l.flatMap escapeChar ++ ['\"']) :=
    (PrefixCode.of_decode unescape unescape_escapeChar).flatMap_append_stop '\"'
      escapeChar_ne_quote
  intro a b s t h
  simp only [jsonString, String.toList_ofList, List.cons_append, List.cons.injEq, true_and] at h
  obtain ⟨hab, hst⟩ := hbody _ _ _ _ h
  exact ⟨String.toList_injective hab, hst⟩

@[simp] private theorem toList_pushAll (parts : List String) :
    (pushAll parts).toList = parts.flatMap String.toList := String.toList_ofList

private theorem aliasJson_media (a b : Option String) (s t : List Char)
    (h : (aliasJson a).toList ++ (",\"media\":\"".toList ++ s) =
      (aliasJson b).toList ++ (",\"media\":\"".toList ++ t)) : a = b ∧ s = t := by
  cases a with
  | none =>
      cases b with
      | none => exact ⟨rfl, List.append_cancel_left h⟩
      | some y => simp [aliasJson] at h
  | some x =>
      cases b with
      | none => simp [aliasJson] at h
      | some y =>
          simp only [aliasJson, toList_pushAll, List.flatMap_cons, List.flatMap_nil,
            List.append_assoc, List.nil_append] at h
          obtain ⟨hxy, hrest⟩ := jsonString_code _ _ _ _ (List.append_cancel_left h)
          exact ⟨by rw [hxy], List.append_cancel_left hrest⟩

private theorem ruleJson_code : PrefixCode (fun v => (ruleJson v).toList) := by
  intro a b s t h
  simp only [ruleJson, toList_pushAll, List.flatMap_cons, List.flatMap_nil, List.append_assoc,
    List.nil_append] at h
  obtain ⟨hid, h⟩ := jsonString_code _ _ _ _ (List.append_cancel_left h)
  obtain ⟨happ, h⟩ := overrideStr_code _ _ _ _ (List.append_cancel_left h)
  obtain ⟨halias, h⟩ := aliasJson_media _ _ _ _ (List.append_cancel_left h)
  obtain ⟨hmedia, h⟩ := overrideStr_code _ _ _ _ h
  obtain ⟨htitle, h⟩ := overrideStr_code _ _ _ _ (List.append_cancel_left h)
  refine ⟨?_, List.append_cancel_left h⟩
  cases a
  cases b
  simp_all

private theorem mappingJson_code : PrefixCode (fun v => (mappingJson v).toList) := by
  intro a b s t h
  simp only [mappingJson, toList_pushAll, List.flatMap_cons, List.flatMap_nil,
    List.append_assoc, List.nil_append] at h
  obtain ⟨hsource, h⟩ := jsonString_code _ _ _ _ (List.append_cancel_left h)
  obtain ⟨htarget, h⟩ := jsonString_code _ _ _ _ (List.append_cancel_left h)
  obtain ⟨htype, h⟩ := mappingTypeStr_code _ _ _ _ (List.append_cancel_left h)
  refine ⟨?_, List.append_cancel_left h⟩
  cases a
  cases b
  simp_all

theorem mappingSortKey_eq {a b : PrivacyMapping} (h : mappingSortKey a = mappingSortKey b) :
    a.mappingType = b.mappingType ∧ a.source = b.source := by
  have hchars := congrArg String.toList h
  simp only [mappingSortKey, String.toList_append, List.append_assoc] at hchars
  obtain ⟨htype, hrest⟩ := mappingTypeStr_code _ _ _ _ hchars
  exact ⟨htype, String.toList_injective (List.append_cancel_left hrest)⟩

private theorem dropPiece (piece : String) {s t : List Char}
    (h : piece.toList ++ s = piece.toList ++ t) : s = t :=
  List.append_cancel_left h

private theorem arrayJson_split {α : Type*} {item : α → String}
    (hcode : PrefixCode (fun a => (item a).toList))
    (hbrace : ∀ a s t, (item a).toList ++ s ≠ ']' :: t) (l m : List α) (s t : List Char)
    (h : (arrayJson item l).toList ++ (']' :: s) = (arrayJson item m).toList ++ (']' :: t)) :
    l = m ∧ s = t := by
  have hsep : ',' ≠ ']' := by decide
  apply hcode.separated_append_stop hsep hbrace l m s t
  simpa [arrayJson] using h

private theorem ruleJson_brace (a : ApplicationPrivacyRule) (s t : List Char) :
    (ruleJson a).toList ++ s ≠ ']' :: t := by
  simp [ruleJson]

private theorem mappingJson_brace (a : PrivacyMapping) (s t : List Char) :
    (mappingJson a).toList ++ s ≠ ']' :: t := by
  simp [mappingJson]

end Codes

variable {u}

theorem policyPreimage_eq {c₁ c₂ : PrivacyConfig}
    (h : policyPreimage u c₁ = policyPreimage u c₂) :
    c₁.defaults = c₂.defaults ∧ c₁.ignoreNullArtist = c₂.ignoreNullArtist ∧
      sortedMappings c₁ = sortedMappings c₂ ∧ sortedRules u c₁ = sortedRules u c₂ ∧
      c₁.shareWindowTitles = c₂.shareWindowTitles ∧ c₁.sources = c₂.sources := by
  have h := congrArg String.toList h
  simp only [policyPreimage, toList_pushAll, List.flatMap_cons, List.flatMap_nil] at h
  obtain ⟨hdefault, h⟩ := defaultStr_code _ _ _ _ (List.append_cancel_left h)
  obtain ⟨hdefaultMedia, h⟩ := defaultStr_code _ _ _ _ (List.append_cancel_left h)
  obtain ⟨hdefaultTitle, h⟩ := defaultStr_code _ _ _ _ (List.append_cancel_left h)
  obtain ⟨hartist, h⟩ := jsonBool_code _ _ _ _ (List.append_cancel_left h)
  obtain ⟨hmappings, h⟩ := arrayJson_split mappingJson_code mappingJson_brace _ _ _ _
    (List.append_cancel_left h)
  have h := dropPiece ",\"rules\":[" h
  obtain ⟨hrules, h⟩ := arrayJson_split ruleJson_code ruleJson_brace _ _ _ _ h
  have h := dropPiece ",\"shareWindowTitles\":" h
  obtain ⟨htitles, h⟩ := jsonBool_code _ _ _ _ h
  obtain ⟨hsourceApp, h⟩ := jsonBool_code _ _ _ _ (List.append_cancel_left h)
  obtain ⟨hsourceMedia, -⟩ := jsonBool_code _ _ _ _ (List.append_cancel_left h)
  refine ⟨?_, hartist, hmappings, hrules, htitles, ?_⟩
  · change PrivacyDefaults.mk _ _ _ = PrivacyDefaults.mk _ _ _
    rw [hdefault, hdefaultTitle, hdefaultMedia]
  · change PrivacySources.mk _ _ = PrivacySources.mk _ _
    rw [hsourceApp, hsourceMedia]

/-- The preimage records exactly these parts of a configuration. -/
theorem policyPreimage_eq_iff (c₁ c₂ : PrivacyConfig) :
    policyPreimage u c₁ = policyPreimage u c₂ ↔
      c₁.defaults = c₂.defaults ∧ c₁.ignoreNullArtist = c₂.ignoreNullArtist ∧
        sortedMappings c₁ = sortedMappings c₂ ∧ sortedRules u c₁ = sortedRules u c₂ ∧
        c₁.shareWindowTitles = c₂.shareWindowTitles ∧ c₁.sources = c₂.sources := by
  constructor
  · exact policyPreimage_eq
  · rintro ⟨hdefaults, hartist, hmappings, hrules, htitles, hsources⟩
    unfold policyPreimage
    rw [hdefaults, hartist, hmappings, hrules, htitles, hsources]

/-! ### What the preimage says about lookups

A lookup key picks one class of rules. The preimage keeps the informative rules of each class in
order, hence also the first of them; an empty rule in front of it is invisible to the preimage. -/

/-- The first informative rule for an application, normalized. -/
def firstInformative (u : UnicodeData) (config : PrivacyConfig) (appId : String) :
    Option ApplicationPrivacyRule :=
  (informativeRules u config).find? (fun rule => rule.appId = normalizeAppId u appId)

/-- An empty rule stands in front of an informative one for the same application. -/
def Masked (u : UnicodeData) (config : PrivacyConfig) (appId : String) : Prop :=
  (∃ rule, IsFirst (fun r => normalizeAppId u r.appId = normalizeAppId u appId) config.rules
    rule ∧ isEmptyRule u rule = true) ∧
  ∃ rule ∈ config.rules, normalizeAppId u rule.appId = normalizeAppId u appId ∧
    isEmptyRule u rule = false

/-- A normalized rule departs from the defaults in a decision. -/
def Speaks (defaults : PrivacyDefaults) (rule : ApplicationPrivacyRule) : Prop :=
  resolveOverride rule.application defaults.application ≠ defaults.application ∨
  resolveOverride rule.media defaults.media ≠ defaults.media ∨
  defaults.application = .share ∧ (rule.displayAlias ≠ none ∨
    resolveOverride rule.windowTitle defaults.windowTitle ≠ defaults.windowTitle) ∨
  defaults.media = .share ∧ rule.displayAlias ≠ none

/-- Masking is the same on both sides wherever the masked rule departs from the defaults, and
first mappings with different raw sources have the same target. -/
structure SameUnseenOrder (u : UnicodeData) (c₁ c₂ : PrivacyConfig) : Prop where
  rules : ∀ appId rule, firstInformative u c₁ appId = some rule → Speaks c₁.defaults rule →
    (Masked u c₁ appId ↔ Masked u c₂ appId)
  mappings : ∀ mappingType source m₁ m₂,
    IsFirst (fun m => m.mappingType = mappingType ∧
      normalizeAppId u m.source = normalizeAppId u source) c₁.mappings m₁ →
    IsFirst (fun m => m.mappingType = mappingType ∧
      normalizeAppId u m.source = normalizeAppId u source) c₂.mappings m₂ →
    m₁.source = m₂.source ∨ m₁.target = m₂.target

private theorem firstInformative_eq {c₁ c₂ : PrivacyConfig}
    (h : sortedRules u c₁ = sortedRules u c₂) (appId : String) :
    firstInformative u c₁ appId = firstInformative u c₂ appId := by
  have hclass (c : PrivacyConfig) : (sortedRules u c).find?
      (fun rule => rule.appId = normalizeAppId u appId) = firstInformative u c appId := by
    apply find?_insertionSort
    intro a b ha hb
    rw [of_decide_eq_true ha, of_decide_eq_true hb]
    simp
  rw [← hclass, ← hclass, h]

private theorem firstInformative_find? (hu : u.NfcClosed) (config : PrivacyConfig)
    (appId : String) : firstInformative u config appId =
      (config.rules.find? (fun rule => normalizeAppId u rule.appId = normalizeAppId u appId ∧
        isEmptyRule u rule = false)).map (normalizedRule u) := by
  unfold firstInformative informativeRules
  rw [List.find?_filter, List.find?_map]
  congr 2
  funext rule
  simp only [Function.comp_apply, isEmptyRule_normalizedRule hu, Bool.and_comm, Bool.decide_and,
    Bool.decide_eq_true]
  cases isEmptyRule u rule <;> rfl

/-- Both decisions a found rule leads to. -/
private def decisionsOf (u : UnicodeData) (defaults : PrivacyDefaults)
    (rule : Option ApplicationPrivacyRule) : ProcessDecision × MediaDecision :=
  (processDecisionOf u defaults rule, mediaDecisionOf u defaults rule)

private theorem decisionsOf_empty {rule : ApplicationPrivacyRule}
    (h : isEmptyRule u rule = true) (defaults : PrivacyDefaults) :
    decisionsOf u defaults (some rule) = decisionsOf u defaults none := by
  obtain ⟨happ, htitle, hmedia, halias⟩ := of_decide_eq_true h
  simp [decisionsOf, processDecisionOf, mediaDecisionOf, happ, htitle, hmedia, halias]

private theorem decisionsOf_normalized (hu : u.NfcClosed) (rule : ApplicationPrivacyRule)
    (defaults : PrivacyDefaults) :
    decisionsOf u defaults (some (normalizedRule u rule)) = decisionsOf u defaults (some rule) := by
  simp only [decisionsOf, processDecisionOf, mediaDecisionOf, Option.bind_some,
    normalizedRule_displayAlias, normalizeText_normalizeText hu]
  rfl

private theorem decisionsOf_eq_none_iff (hu : u.NfcClosed) (rule : ApplicationPrivacyRule)
    (defaults : PrivacyDefaults) :
    decisionsOf u defaults (some (normalizedRule u rule)) = decisionsOf u defaults none ↔
      ¬ Speaks defaults (normalizedRule u rule) := by
  rcases defaults with ⟨_ | _, _ | _, _ | _⟩ <;>
    cases happ : rule.application <;> cases hmedia : rule.media <;>
    cases htitle : rule.windowTitle <;>
    simp [decisionsOf, processDecisionOf, mediaDecisionOf, Speaks, resolveOverride, happ, hmedia,
      htitle, normalizeText_normalizeText hu]

private theorem decisionsOf_findRule_masked {config : PrivacyConfig} {appId : String}
    (h : Masked u config appId) (defaults : PrivacyDefaults) :
    decisionsOf u defaults (findRule u config appId) = decisionsOf u defaults none := by
  obtain ⟨⟨rule, hfirst, hempty⟩, -⟩ := h
  have hfind : findRule u config appId = some rule :=
    (find?_eq_some_iff_isFirst _ _ _).mpr hfirst
  rw [hfind, decisionsOf_empty hempty]

private theorem decisionsOf_findRule_unmasked (hu : u.NfcClosed) {config : PrivacyConfig}
    {appId : String} (h : ¬ Masked u config appId) (defaults : PrivacyDefaults) :
    decisionsOf u defaults (findRule u config appId) =
      decisionsOf u defaults (firstInformative u config appId) := by
  rw [firstInformative_find? hu]
  cases hfind : findRule u config appId with
  | none =>
      have hnone : config.rules.find? (fun rule => normalizeAppId u rule.appId =
          normalizeAppId u appId ∧ isEmptyRule u rule = false) = none := by
        rw [List.find?_eq_none]
        intro rule hrule hkey
        exact List.find?_eq_none.mp hfind rule hrule (by simpa using (of_decide_eq_true hkey).1)
      rw [hnone, Option.map_none]
  | some rule =>
      have hfirst := (find?_eq_some_iff_isFirst _ _ _).mp hfind
      cases hempty : isEmptyRule u rule with
      | true =>
          have hnone : config.rules.find? (fun rule => normalizeAppId u rule.appId =
              normalizeAppId u appId ∧ isEmptyRule u rule = false) = none := by
            rw [List.find?_eq_none]
            intro r hr hkey
            obtain ⟨hr1, hr2⟩ := of_decide_eq_true hkey
            exact h ⟨⟨rule, hfirst, hempty⟩, r, hr, hr1, hr2⟩
          rw [hnone, Option.map_none, decisionsOf_empty hempty]
      | false =>
          have hsome : config.rules.find? (fun rule => normalizeAppId u rule.appId =
              normalizeAppId u appId ∧ isEmptyRule u rule = false) = some rule := by
            obtain ⟨hkey, before, after, hsplit, hbefore⟩ := hfirst
            rw [find?_eq_some_iff_isFirst]
            exact ⟨⟨hkey, hempty⟩, before, after, hsplit, fun r hr hr' => hbefore r hr hr'.1⟩
          rw [hsome, Option.map_some, decisionsOf_normalized hu]

private theorem decisionsOf_eq_iff (hu : u.NfcClosed) {c₁ c₂ : PrivacyConfig}
    (hrules : sortedRules u c₁ = sortedRules u c₂) (defaults : PrivacyDefaults) (appId : String) :
    decisionsOf u defaults (findRule u c₁ appId) = decisionsOf u defaults (findRule u c₂ appId) ↔
      ∀ rule, firstInformative u c₁ appId = some rule → Speaks defaults rule →
        (Masked u c₁ appId ↔ Masked u c₂ appId) := by
  have hfirst := firstInformative_eq hrules appId
  have hspeaks : ∀ rule, firstInformative u c₁ appId = some rule →
      (decisionsOf u defaults (some rule) = decisionsOf u defaults none ↔
        ¬ Speaks defaults rule) := by
    intro rule hrule
    rw [firstInformative_find? hu] at hrule
    obtain ⟨raw, -, rfl⟩ := Option.map_eq_some_iff.mp hrule
    exact decisionsOf_eq_none_iff hu raw defaults
  by_cases h₁ : Masked u c₁ appId <;> by_cases h₂ : Masked u c₂ appId
  · simp [decisionsOf_findRule_masked h₁, decisionsOf_findRule_masked h₂, h₁, h₂]
  · rw [decisionsOf_findRule_masked h₁, decisionsOf_findRule_unmasked hu h₂, ← hfirst]
    cases hr : firstInformative u c₁ appId with
    | none => simp
    | some rule => simpa [h₁, h₂, eq_comm] using hspeaks rule hr
  · rw [decisionsOf_findRule_unmasked hu h₁, decisionsOf_findRule_masked h₂]
    cases hr : firstInformative u c₁ appId with
    | none => simp
    | some rule => simpa [h₁, h₂] using hspeaks rule hr
  · rw [decisionsOf_findRule_unmasked hu h₁, decisionsOf_findRule_unmasked hu h₂, hfirst]
    simp [h₁, h₂]

private theorem mappingClass_eq {c₁ c₂ : PrivacyConfig}
    (h : sortedMappings c₁ = sortedMappings c₂) (mappingType : PrivacyMappingType)
    (source : String) :
    c₁.mappings.find? (fun m => m.mappingType = mappingType ∧ m.source = source) =
      c₂.mappings.find? (fun m => m.mappingType = mappingType ∧ m.source = source) := by
  have hclass (c : PrivacyConfig) : (sortedMappings c).find?
      (fun m => m.mappingType = mappingType ∧ m.source = source) =
        c.mappings.find? (fun m => m.mappingType = mappingType ∧ m.source = source) := by
    apply find?_insertionSort
    intro a b ha hb
    obtain ⟨haType, haSource⟩ := of_decide_eq_true ha
    obtain ⟨hbType, hbSource⟩ := of_decide_eq_true hb
    simp [mappingSortKey, haType, haSource, hbType, hbSource]
  rw [← hclass, ← hclass, h]

private theorem mem_mappings_iff {c₁ c₂ : PrivacyConfig}
    (h : sortedMappings c₁ = sortedMappings c₂) (m : PrivacyMapping) :
    m ∈ c₁.mappings ↔ m ∈ c₂.mappings := by
  rw [← List.mem_insertionSort (fun a b => cmpUtf16 (mappingSortKey a) (mappingSortKey b) ≠ .gt),
    ← List.mem_insertionSort (fun a b => cmpUtf16 (mappingSortKey a) (mappingSortKey b) ≠ .gt)
      (l := c₂.mappings)]
  exact iff_of_eq (congrArg (m ∈ ·) h)

private theorem find?_raw_class {l : List PrivacyMapping} {mappingType : PrivacyMappingType}
    {key : String} {m : PrivacyMapping}
    (h : IsFirst (fun m => m.mappingType = mappingType ∧ normalizeAppId u m.source = key) l m) :
    l.find? (fun x => x.mappingType = mappingType ∧ x.source = m.source) = some m := by
  obtain ⟨⟨htype, hkey⟩, before, after, hsplit, hbefore⟩ := h
  rw [find?_eq_some_iff_isFirst]
  refine ⟨⟨htype, rfl⟩, before, after, hsplit, ?_⟩
  intro x hx hxm
  exact hbefore x hx ⟨hxm.1, by rw [hxm.2, hkey]⟩

private theorem applyMapping_eq_iff {c₁ c₂ : PrivacyConfig}
    (h : sortedMappings c₁ = sortedMappings c₂) (mappingType : PrivacyMappingType)
    (source : String) :
    applyMapping u c₁ mappingType source = applyMapping u c₂ mappingType source ↔
      ∀ m₁ m₂,
        IsFirst (fun m => m.mappingType = mappingType ∧
          normalizeAppId u m.source = normalizeAppId u source) c₁.mappings m₁ →
        IsFirst (fun m => m.mappingType = mappingType ∧
          normalizeAppId u m.source = normalizeAppId u source) c₂.mappings m₂ →
        m₁.source = m₂.source ∨ m₁.target = m₂.target := by
  unfold applyMapping
  cases hf₁ : c₁.mappings.find? (fun m => m.mappingType = mappingType ∧
      normalizeAppId u m.source = normalizeAppId u source) with
  | none =>
      have hf₂ : c₂.mappings.find? (fun m => m.mappingType = mappingType ∧
          normalizeAppId u m.source = normalizeAppId u source) = none := by
        rw [List.find?_eq_none] at hf₁ ⊢
        intro m hm
        exact hf₁ m ((mem_mappings_iff h m).mpr hm)
      rw [hf₂]
      refine iff_of_true rfl ?_
      intro m₁ m₂ hm₁
      rw [(find?_eq_some_iff_isFirst _ _ _).mpr hm₁] at hf₁
      contradiction
  | some n₁ =>
      have hn₁ := (find?_eq_some_iff_isFirst _ _ _).mp hf₁
      obtain ⟨n₂, hf₂⟩ : ∃ n₂, c₂.mappings.find? (fun m => m.mappingType = mappingType ∧
          normalizeAppId u m.source = normalizeAppId u source) = some n₂ := by
        rw [← Option.isSome_iff_exists, List.find?_isSome]
        exact ⟨n₁, (mem_mappings_iff h n₁).mp hn₁.mem, by simpa using hn₁.1⟩
      have hn₂ := (find?_eq_some_iff_isFirst _ _ _).mp hf₂
      rw [hf₂, Option.map_some, Option.map_some, Option.some.injEq]
      constructor
      · intro htarget m₁ m₂ hm₁ hm₂
        rw [hm₁.unique hn₁, hm₂.unique hn₂]
        exact Or.inr htarget
      · intro hall
        rcases hall n₁ n₂ hn₁ hn₂ with hsource | htarget
        · have heq := mappingClass_eq h mappingType n₁.source
          rw [find?_raw_class hn₁, hsource, find?_raw_class hn₂] at heq
          rw [Option.some.inj heq]
        · exact htarget

/-- All decisions and mappings of two configurations agree. -/
structure SameEffectivePolicy (u : UnicodeData) (c₁ c₂ : PrivacyConfig) : Prop where
  process : ∀ appId, processDecision u c₁ appId = processDecision u c₂ appId
  media : ∀ appId playerName,
    mediaDecision u c₁ appId playerName = mediaDecision u c₂ appId playerName
  mapping : ∀ mappingType source,
    applyMapping u c₁ mappingType source = applyMapping u c₂ mappingType source

/-- Two configurations with one fingerprint decide alike exactly when they agree on what the
fingerprint does not see: empty rules in front of rules that depart from the defaults, and the
order of mappings whose raw sources differ but normalize alike. -/
theorem policyPreimage_faithful_iff (hu : u.NfcClosed) (c₁ c₂ : PrivacyConfig)
    (h : policyPreimage u c₁ = policyPreimage u c₂) :
    SameEffectivePolicy u c₁ c₂ ↔ SameUnseenOrder u c₁ c₂ := by
  obtain ⟨hdefaults, -, hmappings, hrules, -, -⟩ := policyPreimage_eq h
  constructor
  · intro hpolicy
    refine ⟨?_, ?_⟩
    · intro appId
      rw [← decisionsOf_eq_iff hu hrules]
      have hprocess := hpolicy.process appId
      have hmedia := hpolicy.media (some appId) ""
      unfold processDecision at hprocess
      unfold mediaDecision mediaRule at hmedia
      rw [← hdefaults] at hprocess hmedia
      exact Prod.ext hprocess hmedia
    · intro mappingType source
      exact (applyMapping_eq_iff hmappings mappingType source).mp
        (hpolicy.mapping mappingType source)
  · intro horder
    have hdecisions (appId : String) :=
      (decisionsOf_eq_iff hu hrules c₁.defaults appId).mpr (horder.rules appId)
    refine ⟨?_, ?_, ?_⟩
    · intro appId
      unfold processDecision
      rw [← hdefaults]
      exact congrArg Prod.fst (hdecisions appId)
    · intro appId playerName
      unfold mediaDecision
      rw [← hdefaults]
      cases appId with
      | some appId => exact congrArg Prod.snd (hdecisions appId)
      | none =>
          simp only [mediaRule, findRuleByPlayerName]
          split
          · rfl
          · exact congrArg Prod.snd (hdecisions playerName)
    · intro mappingType source
      exact (applyMapping_eq_iff hmappings mappingType source).mpr
        (horder.mappings mappingType source)

/-- A configuration file with one rule list, the other switches at their defaults. -/
private def configWithRules (rules : List ApplicationPrivacyRule) : PrivacyConfig :=
  { defaultPrivacyConfig with rules := rules }

private def emptyCodeRule : ApplicationPrivacyRule where
  appId := "code.exe"
  application := .inherit
  windowTitle := .inherit
  media := .inherit
  displayAlias := none

private def hideCodeRule : ApplicationPrivacyRule :=
  { emptyCodeRule with application := .hide }

/-- Moving an empty rule in front of a hide rule shares the application again and keeps the
fingerprint. -/
theorem policyPreimage_misses_masked_hide :
    ¬ ∀ c₁ c₂ : PrivacyConfig,
      policyPreimage UnicodeData.ascii c₁ = policyPreimage UnicodeData.ascii c₂ →
        SameEffectivePolicy UnicodeData.ascii c₁ c₂ := by
  intro h
  have hsame := h (configWithRules [emptyCodeRule, hideCodeRule])
    (configWithRules [hideCodeRule, emptyCodeRule])
    ((policyPreimage_eq_iff _ _).mpr (by decide))
  exact absurd (hsame.process "code.exe") (by decide)

/-- Reordering rules of distinct applications is harmless. -/
theorem policyPreimage_faithful_reordered :
    SameEffectivePolicy UnicodeData.ascii
        (configWithRules [hideCodeRule, { hideCodeRule with appId := "A.exe" }])
        (configWithRules [{ hideCodeRule with appId := "A.exe" }, hideCodeRule]) ↔
      SameUnseenOrder UnicodeData.ascii
        (configWithRules [hideCodeRule, { hideCodeRule with appId := "A.exe" }])
        (configWithRules [{ hideCodeRule with appId := "A.exe" }, hideCodeRule]) :=
  policyPreimage_faithful_iff UnicodeData.ascii_nfcClosed _ _
    ((policyPreimage_eq_iff _ _).mpr (by decide))

end YohakuCore
