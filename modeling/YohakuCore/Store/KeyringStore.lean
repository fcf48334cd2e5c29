import YohakuCore.Framework.KeyedFile
import YohakuCore.Protocol.Wire
import YohakuCore.Store.CredentialBlob
import YohakuCore.Store.KeyedStores

/-!
# The credential manager

The tokens are kept in the credential manager of the system, of which only its documented behaviour
is known. An overwrite keeps the names of the entry that it finds.
-/

namespace YohakuCore

open Framework

/-- What the manager keeps of a `CREDENTIALW`; a string is what its pointer points at, if any. -/
structure Credential where
  flags : Nat
  credentialType : Nat
  comment : Option (List Nat)
  blob : List UInt8
  persist : Nat
  attributeCount : Nat
  targetAlias : Option (List Nat)
  userName : Option (List Nat)
  deriving DecidableEq

inductive CredentialError where
  | notFound
  | other (message : String)
  deriving DecidableEq

/-- Done, or there is nothing to do it to. -/
def worked {α : Type*} : Except CredentialError α → Bool
  | .error (.other _) => false
  | _ => true

/-- The calls for generic credentials, over a state that the manager keeps. -/
structure CredentialManager (σ : Type*) where
  credRead : σ → List Nat → σ × Except CredentialError Credential
  credWrite : σ → List Nat → Credential → σ × Except String Unit
  credDelete : σ → List Nat → σ × Except CredentialError Unit

/-- The generic credentials by their folded names. -/
abbrev Vault := List Nat → Option Credential

/-- The units before the terminator. -/
def cString (units : List Nat) : List Nat := units.takeWhile (· ≠ 0)

def credentialKey (fold : Nat → Nat) (target : List Nat) : List Nat := (cString target).map fold

/-- The documented behaviour. A name is read up to its terminator and compared unit by unit after
folding; a call that fails changes nothing, and it can fail whatever the entries are. -/
structure CredentialManager.Documented {σ : Type*} (manager : CredentialManager σ)
    (fold : Nat → Nat) (vault : σ → Vault) : Prop where
  read : ∀ s target, vault (manager.credRead s target).1 = vault s
  found : ∀ s target credential, (manager.credRead s target).2 = .ok credential →
    vault s (credentialKey fold target) = some credential
  notFound : ∀ s target, (manager.credRead s target).2 = .error .notFound →
    vault s (credentialKey fold target) = none
  written : ∀ s target credential, (manager.credWrite s target credential).2 = .ok () →
    vault (manager.credWrite s target credential).1 =
      Function.update (vault s) (credentialKey fold target) (some credential)
  refused : ∀ s target credential message,
    (manager.credWrite s target credential).2 = .error message →
      vault (manager.credWrite s target credential).1 = vault s
  deleted : ∀ s target, (manager.credDelete s target).2 = .ok () →
    vault (manager.credDelete s target).1 =
      Function.update (vault s) (credentialKey fold target) none
  kept : ∀ s target error, (manager.credDelete s target).2 = .error error →
    vault (manager.credDelete s target).1 = vault s
  nothing : ∀ s target, (manager.credDelete s target).2 = .error .notFound →
    vault s (credentialKey fold target) = none

variable {σ : Type*} (manager : CredentialManager σ) (fold : Nat → Nat)

namespace KeyringCredentialStore

def keyringService : String := "yohaku-companion-win"

def targetName (deviceId : String) : String := deviceId ++ "." ++ keyringService

def toWideNul (value : String) : List Nat := encodeUtf16 value ++ [0]

/-- The size of a blob is handed over as a `u32`. -/
def writtenBlob (token : String) : List UInt8 :=
  let blob := tokenToUtf16leBlob token
  blob.take (blob.length % 4294967296)

/-- The names of an entry that is found are handed back. -/
def credentialFor (existing : Option Credential) (user token : String) : Credential where
  flags := 0
  credentialType := 1
  comment := existing.bind (·.comment)
  blob := writtenBlob token
  persist := 3
  attributeCount := 0
  targetAlias := existing.bind (·.targetAlias)
  userName :=
    match existing with
    | some credential => credential.userName
    | none => some (cString (toWideNul user))

def writeCredential (s : σ) (target user token : String) : σ × Except String Unit :=
  let read := manager.credRead s (toWideNul target)
  let written := manager.credWrite read.1 (toWideNul target)
    (credentialFor read.2.toOption user token)
  (written.1, written.2.mapError ("CredWriteW failed: " ++ ·))

def deleteCredential (s : σ) (target : String) : σ × Except CredentialError Unit :=
  manager.credDelete s (toWideNul target)

def get (s : σ) (deviceId : String) : σ × Option String :=
  let read := manager.credRead s (toWideNul (targetName deviceId))
  (read.1, readCredential (read.2.toOption.map (·.blob)))

def set (s : σ) (deviceId token : String) : σ × Except String Unit :=
  writeCredential manager s (targetName deviceId) deviceId token

/-- A delete that failed is answered like one that did not. -/
def delete (s : σ) (deviceId : String) : σ × Except String Unit :=
  ((deleteCredential manager s (targetName deviceId)).1, .ok ())

/-- The probe of this backend. -/
def roundTrips (s : σ) : σ × Bool :=
  match set manager s probeDeviceId "probe" with
  | (s, .error _) => (s, false)
  | (s, .ok ()) =>
      let read := get manager s probeDeviceId
      match delete manager read.1 probeDeviceId with
      | (s, .error _) => (s, false)
      | (s, .ok ()) => (s, read.2 = some "probe")

def reads (s : σ) (deviceId : String) : Bool :=
  worked (manager.credRead s (toWideNul (targetName deviceId))).2

def deletes (s : σ) (deviceId : String) : Bool :=
  worked (deleteCredential manager s (targetName deviceId)).2

/-- The key of the entry of a device. -/
def entryKey (deviceId : String) : List Nat := credentialKey fold (toWideNul (targetName deviceId))

/-- What is read of a token that was written. -/
def writtenToken (token : String) : Option String := readCredential (some (writtenBlob token))

end KeyringCredentialStore

inductive KeyringCall where
  | get (deviceId : String)
  | set (deviceId token : String)
  | delete (deviceId : String)
  deriving DecidableEq

/-- What a call answers, and whether the read or the delete that it made of the manager worked. -/
inductive KeyringAnswer where
  | got (reads : Bool) (token : Option String)
  | done (reads : Bool)
  | failed (error : String)
  | deleted (deletes : Bool)
  deriving DecidableEq

/-- What a process does with the manager: a call of its own, or the probe. -/
inductive KeyringCommand where
  | call (call : KeyringCall)
  | probe
  deriving DecidableEq

inductive KeyringReply where
  | answered (answer : KeyringAnswer)
  | qualified (qualifies : Bool)
  deriving DecidableEq

namespace KeyringCredentialStore

def step (s : σ) : KeyringCall → σ × KeyringAnswer
  | .get deviceId =>
      let r := get manager s deviceId
      (r.1, .got (reads manager s deviceId) r.2)
  | .set deviceId token =>
      let r := set manager s deviceId token
      match r.2 with
      | .ok () => (r.1, .done (reads manager s deviceId))
      | .error error => (r.1, .failed error)
  | .delete deviceId =>
      ((delete manager s deviceId).1, .deleted (deletes manager s deviceId))

def commandStep (s : σ) : KeyringCommand → σ × KeyringReply
  | .call call =>
      let r := step manager s call
      (r.1, .answered r.2)
  | .probe =>
      let r := roundTrips manager s
      (r.1, .qualified r.2)

end KeyringCredentialStore

open KeyringCredentialStore

/-- The names that come with an entry, and the token that is read from it. -/
structure KeyringEntry where
  userName : Option (List Nat)
  comment : Option (List Nat)
  targetAlias : Option (List Nat)
  token : Option String
  deriving DecidableEq

def Credential.entry (credential : Credential) : KeyringEntry where
  userName := credential.userName
  comment := credential.comment
  targetAlias := credential.targetAlias
  token := readCredential (some credential.blob)

/-- The layout that other programs expect, with the blob of a token. -/
structure Credential.Measured (credential : Credential) (token : String) : Prop where
  flags : credential.flags = 0
  credentialType : credential.credentialType = 1
  persist : credential.persist = 3
  attributeCount : credential.attributeCount = 0
  blob : credential.blob = writtenBlob token

/-- The entry after a token was stored: an entry that was found keeps its names. -/
def KeyringEntry.stored (found : Option KeyringEntry) (deviceId token : String) : KeyringEntry :=
  match found with
  | some entry => { entry with token := writtenToken token }
  | none => ⟨some (cString (toWideNul deviceId)), none, none, writtenToken token⟩

/-- What a call and its answer say about the entry of a key. -/
def KeyringCall.latest (key : List Nat) (entry : Option KeyringEntry) :
    KeyringCall × KeyringAnswer → Option KeyringEntry
  | (.set deviceId token, .done reads) =>
      if entryKey fold deviceId = key then
        some (.stored (if reads then entry else none) deviceId token)
      else entry
  | (.delete deviceId, .deleted true) => if entryKey fold deviceId = key then none else entry
  | _ => entry

/-- The device whose entry a call has changed. -/
def KeyringCall.changes : KeyringCall → KeyringAnswer → Option String
  | .set deviceId _, .done _ => some deviceId
  | .delete deviceId, .deleted true => some deviceId
  | _, _ => none

variable {manager fold} {vault : σ → Vault}

theorem zero_mem_encodeUtf16 {value : String} (h : 0 ∈ encodeUtf16 value) :
    Char.ofNat 0 ∈ value.toList := by
  obtain ⟨c, hc, hunit⟩ := List.mem_flatMap.mp h
  simp only [utf16Units] at hunit
  split at hunit
  · have hzero : c.toNat = 0 := (List.mem_singleton.mp hunit).symm
    rwa [← hzero, Char.ofNat_toNat]
  · simp only [List.mem_cons, List.not_mem_nil, or_false] at hunit
    omega

theorem cString_toWideNul {value : String} (h : Char.ofNat 0 ∉ value.toList) :
    cString (toWideNul value) = encodeUtf16 value := by
  have hunits : ∀ unit ∈ encodeUtf16 value, decide (unit ≠ 0) = true := by
    intro unit hmem
    apply decide_eq_true
    rintro rfl
    exact h (zero_mem_encodeUtf16 hmem)
  rw [cString, toWideNul, List.takeWhile_append_of_pos hunits]
  simp

theorem encodeUtf16_append (a b : String) :
    encodeUtf16 (a ++ b) = encodeUtf16 a ++ encodeUtf16 b := by
  simp [encodeUtf16]

theorem entryKey_eq_iff {deviceId other : String} (h : Char.ofNat 0 ∉ deviceId.toList)
    (hother : Char.ofNat 0 ∉ other.toList) : entryKey fold deviceId = entryKey fold other ↔
      (encodeUtf16 deviceId).map fold = (encodeUtf16 other).map fold := by
  have hservice : Char.ofNat 0 ∉ ("." ++ keyringService).toList := by decide
  have hkey {id : String} (hid : Char.ofNat 0 ∉ id.toList) : entryKey fold id =
      (encodeUtf16 id).map fold ++ (encodeUtf16 ("." ++ keyringService)).map fold := by
    have htarget : Char.ofNat 0 ∉ (targetName id).toList := by
      rw [targetName, String.append_assoc, String.toList_append, List.mem_append]
      exact fun hmem => hmem.elim hid hservice
    rw [entryKey, credentialKey, cString_toWideNul htarget, targetName, String.append_assoc,
      encodeUtf16_append, List.map_append]
  rw [hkey h, hkey hother, List.append_left_inj]

theorem zero_notMem_of_valid {deviceId : String} (h : isValidWireIdentifier deviceId = true) :
    Char.ofNat 0 ∉ deviceId.toList := by
  intro hzero
  have hchar := isValidWireIdentifier_chars h _ hzero
  revert hchar
  decide

theorem length_encodeUtf16_of_valid {deviceId : String}
    (h : isValidWireIdentifier deviceId = true) :
    (encodeUtf16 deviceId).length = 36 ∨ (encodeUtf16 deviceId).length = 26 := by
  have hone : ∀ c ∈ deviceId.toList, (utf16Units c).length = 1 := by
    intro c hmem
    have hplain : c.toNat < 0x10000 := by
      rcases isValidWireIdentifier_chars h c hmem with rfl | hchar
      · decide
      · have hval : c.val.toNat = c.toNat := rfl
        simp only [isAlphanum_iff, Char.le_def, UInt32.le_iff_toNat_le, hval] at hchar
        rcases hchar with ⟨-, hlast⟩ | ⟨-, hlast⟩ | ⟨-, hlast⟩
        · exact hlast.trans_lt (by decide)
        · exact hlast.trans_lt (by decide)
        · exact hlast.trans_lt (by decide)
    rw [utf16Units, if_pos hplain]
    rfl
  rw [encodeUtf16, List.length_flatMap, List.map_congr_left hone]
  simpa using isValidWireIdentifier_lengths h

theorem entryKey_probe_ne {deviceId : String} (h : isValidWireIdentifier deviceId = true) :
    entryKey fold probeDeviceId ≠ entryKey fold deviceId := by
  intro hkey
  rw [entryKey_eq_iff (by decide) (zero_notMem_of_valid h)] at hkey
  have hlength := congrArg List.length hkey
  have hprobe : (encodeUtf16 probeDeviceId).length = 16 := by decide
  rw [List.length_map, List.length_map, hprobe] at hlength
  rcases length_encodeUtf16_of_valid h with hdevice | hdevice <;> omega

theorem KeyringEntry.stored_token (found : Option KeyringEntry) (deviceId token : String) :
    (stored found deviceId token).token = writtenToken token := by
  cases found <;> simp only [stored]

theorem entry_credentialFor (existing : Option Credential) (deviceId token : String) :
    (credentialFor existing deviceId token).entry =
      .stored (existing.map Credential.entry) deviceId token := by
  cases existing <;> rfl

theorem roundTrips_done {s : σ} (hok : (set manager s probeDeviceId "probe").2 = .ok ()) :
    roundTrips manager s =
      ((delete manager (get manager (set manager s probeDeviceId "probe").1 probeDeviceId).1
          probeDeviceId).1,
        decide ((get manager (set manager s probeDeviceId "probe").1 probeDeviceId).2 =
          some "probe")) := by
  unfold roundTrips
  split
  · simp_all
  · simp_all [delete]

theorem roundTrips_failed {s : σ} {error : String}
    (herror : (set manager s probeDeviceId "probe").2 = .error error) :
    roundTrips manager s = ((set manager s probeDeviceId "probe").1, false) := by
  unfold roundTrips
  split <;> simp_all

namespace CredentialManager.Documented

variable (h : manager.Documented fold vault)

include h

theorem toOption_read (s : σ) (deviceId : String) :
    (manager.credRead s (toWideNul (targetName deviceId))).2.toOption =
      if reads manager s deviceId then vault s (entryKey fold deviceId) else none := by
  have hfound := h.found s (toWideNul (targetName deviceId))
  have hmissing := h.notFound s (toWideNul (targetName deviceId))
  rw [reads, entryKey]
  rcases hread : (manager.credRead s (toWideNul (targetName deviceId))).2 with
    (_ | message) | credential
  · exact (hmissing hread).symm
  · rfl
  · exact (hfound credential hread).symm

theorem vault_get (s : σ) (deviceId : String) : vault (get manager s deviceId).1 = vault s :=
  h.read s _

theorem get_eq (s : σ) (deviceId : String) : (get manager s deviceId).2 =
    if reads manager s deviceId then
      ((vault s (entryKey fold deviceId)).map Credential.entry).bind KeyringEntry.token
    else none := by
  rw [KeyringCredentialStore.get, h.toOption_read]
  cases reads manager s deviceId with
  | false => rfl
  | true => cases vault s (entryKey fold deviceId) <;> rfl

theorem set_case (s : σ) (deviceId token : String) :
    (set manager s deviceId token).2 = .ok () ∧
        vault (set manager s deviceId token).1 = Function.update (vault s) (entryKey fold deviceId)
          (some (credentialFor (if reads manager s deviceId then vault s (entryKey fold deviceId)
            else none) deviceId token)) ∨
      ∃ error, (set manager s deviceId token).2 = .error error ∧
        vault (set manager s deviceId token).1 = vault s := by
  have hread := h.read s (toWideNul (targetName deviceId))
  have hoption := h.toOption_read s deviceId
  have hwritten := h.written (manager.credRead s (toWideNul (targetName deviceId))).1
    (toWideNul (targetName deviceId))
  have hrefused := h.refused (manager.credRead s (toWideNul (targetName deviceId))).1
    (toWideNul (targetName deviceId))
  simp only [hread] at hwritten hrefused
  simp only [KeyringCredentialStore.set, writeCredential, hoption]
  rcases hresult : (manager.credWrite (manager.credRead s (toWideNul (targetName deviceId))).1
      (toWideNul (targetName deviceId)) (credentialFor (if reads manager s deviceId then
        vault s (entryKey fold deviceId) else none) deviceId token)).2 with message | _
  · exact Or.inr ⟨_, rfl, hrefused _ message hresult⟩
  · exact Or.inl ⟨rfl, hwritten _ hresult⟩

theorem vault_delete (s : σ) (deviceId : String) : vault (delete manager s deviceId).1 =
    if deletes manager s deviceId then
      Function.update (vault s) (entryKey fold deviceId) none
    else vault s := by
  have hdeleted := h.deleted s (toWideNul (targetName deviceId))
  have hkept := h.kept s (toWideNul (targetName deviceId))
  have hnothing := h.nothing s (toWideNul (targetName deviceId))
  rw [delete, deletes, deleteCredential, entryKey]
  rcases hresult : (manager.credDelete s (toWideNul (targetName deviceId))).2 with
    (_ | message) | _
  · rw [hkept _ hresult, ← hnothing hresult]
    exact (Function.update_eq_self _ _).symm
  · exact hkept _ hresult
  · exact hdeleted hresult

theorem entry_step (s : σ) (call : KeyringCall) (key : List Nat) :
    (vault (step manager s call).1 key).map Credential.entry =
      KeyringCall.latest fold key ((vault s key).map Credential.entry)
        (call, (step manager s call).2) := by
  cases call with
  | get deviceId => rw [step, h.vault_get]; rfl
  | set deviceId token =>
      rcases h.set_case s deviceId token with ⟨hok, hvault⟩ | ⟨error, herror, hvault⟩
      · simp only [step, hok, KeyringCall.latest]
        rw [hvault]
        by_cases hkey : entryKey fold deviceId = key
        · subst hkey
          rw [Function.update_self, if_pos rfl, Option.map_some, entry_credentialFor]
          cases reads manager s deviceId <;> rfl
        · rw [Function.update_of_ne (Ne.symm hkey), if_neg hkey]
      · simp only [step, herror, KeyringCall.latest]
        rw [hvault]
  | delete deviceId =>
      rw [step, h.vault_delete]
      cases deletes manager s deviceId with
      | false => rfl
      | true =>
          simp only [KeyringCall.latest, if_true]
          by_cases hkey : entryKey fold deviceId = key
          · subst hkey
            simp
          · simp [hkey, Function.update_of_ne (Ne.symm hkey)]

theorem measured_step {s : σ} {call : KeyringCall} {key : List Nat} {credential : Credential}
    (hentry : vault (step manager s call).1 key = some credential) :
    vault s key = some credential ∨ ∃ deviceId token reads, call = .set deviceId token ∧
      (step manager s call).2 = .done reads ∧ entryKey fold deviceId = key ∧
      credential.Measured token := by
  cases call with
  | get deviceId =>
      rw [step, h.vault_get] at hentry
      exact Or.inl hentry
  | set deviceId token =>
      rcases h.set_case s deviceId token with ⟨hok, hvault⟩ | ⟨error, herror, hvault⟩
      · simp only [step, hok] at hentry ⊢
        rw [hvault] at hentry
        by_cases hkey : entryKey fold deviceId = key
        · subst hkey
          rw [Function.update_self] at hentry
          obtain rfl := Option.some.inj hentry
          exact Or.inr ⟨deviceId, token, _, rfl, rfl, rfl, ⟨rfl, rfl, rfl, rfl, rfl⟩⟩
        · rw [Function.update_of_ne (Ne.symm hkey)] at hentry
          exact Or.inl hentry
      · simp only [step, herror] at hentry
        exact Or.inl (hvault ▸ hentry)
  | delete deviceId =>
      rw [step, h.vault_delete] at hentry
      split at hentry
      · rw [Function.update_apply] at hentry
        split at hentry
        · contradiction
        · exact Or.inl hentry
      · exact Or.inl hentry

theorem step_other {s : σ} {call : KeyringCall} {key : List Nat}
    (hothers : ∀ other, call.changes (step manager s call).2 = some other →
      entryKey fold other ≠ key) :
    vault (step manager s call).1 key = vault s key := by
  cases call with
  | get deviceId => rw [step, h.vault_get]
  | set deviceId token =>
      rcases h.set_case s deviceId token with ⟨hok, hvault⟩ | ⟨error, herror, hvault⟩
      · simp only [step, hok] at hothers ⊢
        rw [hvault, Function.update_of_ne (Ne.symm (hothers deviceId rfl))]
      · simp only [step, herror]
        rw [hvault]
  | delete deviceId =>
      rw [step] at hothers ⊢
      rw [h.vault_delete]
      cases hdeletes : deletes manager s deviceId with
      | false => rfl
      | true =>
          rw [hdeletes] at hothers
          exact Function.update_of_ne (Ne.symm (hothers deviceId rfl)) _ _

theorem roundTrips_other {s : σ} {key : List Nat} (hkey : entryKey fold probeDeviceId ≠ key) :
    vault (roundTrips manager s).1 key = vault s key := by
  rcases h.set_case s probeDeviceId "probe" with ⟨hok, hvault⟩ | ⟨error, herror, hvault⟩
  · rw [roundTrips_done hok, h.vault_delete, h.vault_get, hvault]
    split
    · rw [Function.update_of_ne (Ne.symm hkey), Function.update_of_ne (Ne.symm hkey)]
    · exact Function.update_of_ne (Ne.symm hkey) _ _
  · rw [roundTrips_failed herror, hvault]

theorem measured_after {s : σ} {calls : List KeyringCall} {key : List Nat}
    {credential : Credential}
    (hentry : vault (after (step manager) s calls) key = some credential) :
    vault s key = some credential ∨ ∃ deviceId token reads,
      (.set deviceId token, .done reads) ∈ answers (step manager) s calls ∧
        entryKey fold deviceId = key ∧ credential.Measured token := by
  induction calls using List.reverseRecOn with
  | nil => exact Or.inl hentry
  | append_singleton calls call ih =>
      rw [after_append] at hentry
      rw [answers_append]
      rcases h.measured_step hentry with hold | ⟨deviceId, token, reads, rfl, hdone, hset⟩
      · rcases ih hold with hfirst | ⟨deviceId, token, reads, hmem, hset⟩
        · exact Or.inl hfirst
        · exact Or.inr ⟨deviceId, token, reads, List.mem_append_left _ hmem, hset⟩
      · refine Or.inr ⟨deviceId, token, reads, List.mem_append_right _ ?_, hset⟩
        rw [answers, hdone]
        exact List.mem_cons_self

theorem commands_other {s : σ} {deviceId : String} {commands : List KeyringCommand}
    (hdevice : isValidWireIdentifier deviceId = true)
    (hothers : ∀ call answer other,
      (.call call, .answered answer) ∈ answers (commandStep manager) s commands →
        call.changes answer = some other → isValidWireIdentifier other = true ∧
          (encodeUtf16 other).map fold ≠ (encodeUtf16 deviceId).map fold) :
    vault (after (commandStep manager) s commands) (entryKey fold deviceId) =
      vault s (entryKey fold deviceId) := by
  induction commands generalizing s with
  | nil => rfl
  | cons command commands ih =>
      have hrest := ih (s := (commandStep manager s command).1) fun call answer other hmem =>
        hothers call answer other (List.mem_cons_of_mem _ hmem)
      rw [after, List.foldl_cons]
      refine hrest.trans ?_
      cases command with
      | call call =>
          refine h.step_other fun other hchanges => ?_
          obtain ⟨hvalid, hne⟩ := hothers call _ other List.mem_cons_self hchanges
          rwa [Ne, entryKey_eq_iff (zero_notMem_of_valid hvalid) (zero_notMem_of_valid hdevice)]
      | probe => exact h.roundTrips_other (entryKey_probe_ne hdevice)

end CredentialManager.Documented

/-- Every token that fits the size that is handed over is read as it was given. -/
theorem writtenToken_eq {token : String} (h : (encodeUtf16 token).length < 2147483648) :
    writtenToken token = some token := by
  have hlength (units : List Nat) : (units.flatMap toLeBytes).length = 2 * units.length := by
    induction units with
    | nil => rfl
    | cons unit units ih =>
        simp only [List.flatMap_cons, List.length_append, ih, toLeBytes, List.length_cons,
          List.length_nil]
        omega
  have hblob : writtenBlob token = tokenToUtf16leBlob token := by
    rw [writtenBlob, tokenToUtf16leBlob, hlength, Nat.mod_eq_of_lt (by omega),
      List.take_of_length_le (by rw [hlength])]
  rw [writtenToken, hblob, readCredential, Option.bind_some, decodeUtf16leBlob_token]
  split
  · rename_i hempty
    have hnone := decodeUtf16leBlob_token token
    rw [List.length_eq_zero_iff.mp hempty] at hnone
    exact hnone
  · rfl

/-- The probe does not notice a delete that fails. -/
theorem CredentialManager.Documented.qualifies_iff (h : manager.Documented fold vault) (s : σ) :
    (roundTrips manager s).2 = true ↔
      (set manager s probeDeviceId "probe").2 = .ok () ∧
        reads manager (set manager s probeDeviceId "probe").1 probeDeviceId = true := by
  rcases h.set_case s probeDeviceId "probe" with ⟨hok, hvault⟩ | ⟨error, herror, -⟩
  · have hprobe (existing : Option Credential) :
        (credentialFor existing probeDeviceId "probe").entry.token = some "probe" := by
      have hread : writtenToken "probe" = some "probe" := writtenToken_eq (by decide +kernel)
      rw [entry_credentialFor, KeyringEntry.stored_token, hread]
    simp only [roundTrips_done hok, h.get_eq, hvault, Function.update_self, Option.map_some,
      Option.bind_some, hprobe]
    cases reads manager (set manager s probeDeviceId "probe").1 probeDeviceId <;> simp [hok]
  · simp [roundTrips_failed herror, herror]

def foldAscii (unit : Nat) : Nat := if 65 ≤ unit ∧ unit ≤ 90 then unit + 32 else unit

/-- A manager of entries alone, that folds the letters of ASCII, refuses what is over its limit and
fails for as long as its script says. -/
def CredentialManager.scripted : CredentialManager (Vault × List Bool) where
  credRead s target :=
    ((s.1, s.2.tail),
      if s.2.head? = some false then .error (.other "The RPC server is unavailable.")
      else match s.1 (credentialKey foldAscii target) with
        | some credential => .ok credential
        | none => .error .notFound)
  credWrite s target credential :=
    if s.2.head? = some false ∨ 2560 < credential.blob.length then
      ((s.1, s.2.tail), .error "The stub received bad data.")
    else
      ((Function.update s.1 (credentialKey foldAscii target) (some credential), s.2.tail), .ok ())
  credDelete s target :=
    if s.2.head? = some false then
      ((s.1, s.2.tail), .error (.other "The RPC server is unavailable."))
    else match s.1 (credentialKey foldAscii target) with
      | some _ => ((Function.update s.1 (credentialKey foldAscii target) none, s.2.tail), .ok ())
      | none => ((s.1, s.2.tail), .error .notFound)

theorem CredentialManager.scripted_documented : scripted.Documented foldAscii Prod.fst where
  read s target := rfl
  found s target credential hfound := by
    simp only [scripted] at hfound
    split at hfound
    · contradiction
    · split at hfound
      · rename_i hentry
        rw [hentry, Except.ok.inj hfound]
      · contradiction
  notFound s target hmissing := by
    simp only [scripted] at hmissing
    split at hmissing
    · cases hmissing
    · split at hmissing
      · contradiction
      · assumption
  written s target credential hok := by
    simp only [scripted] at hok ⊢
    split at hok
    · contradiction
    · rename_i hworks
      rw [if_neg hworks]
  refused s target credential message herror := by
    simp only [scripted] at herror ⊢
    split at herror
    · rename_i hfails
      rw [if_pos hfails]
    · contradiction
  deleted s target hok := by
    simp only [scripted] at hok ⊢
    split at hok
    · contradiction
    · rename_i hworks
      rw [if_neg hworks]
      split at hok
      · rfl
      · contradiction
  kept s target error herror := by
    simp only [scripted] at herror ⊢
    split at herror
    · rename_i hfails
      rw [if_pos hfails]
    · rename_i hworks
      rw [if_neg hworks]
      split at herror
      · contradiction
      · rfl
  nothing s target hmissing := by
    simp only [scripted] at hmissing
    split at hmissing
    · cases hmissing
    · split at hmissing
      · contradiction
      · assumption

/-- Whatever a manager with the documented behaviour folds, refuses and fails to read, each of its
entries is after a run of calls what the calls and their answers make of it: a set stores its token
and keeps the names that it could read, a delete that worked removes the entry, and a read that
worked returns the token of the entry. What was not there at first has the layout that other
programs expect, with the blob of a token that was set under that name. The backend qualifies
exactly when the write and the read of its probe work. -/
theorem keyring_refines_entries (h : manager.Documented fold vault) (s : σ)
    (calls : List KeyringCall) :
    (∀ key, (vault (after (step manager) s calls) key).map Credential.entry =
      (answers (step manager) s calls).foldl (KeyringCall.latest fold key)
        ((vault s key).map Credential.entry)) ∧
    (∀ before rest deviceId reads token,
      answers (step manager) s calls = before ++ (.get deviceId, .got reads token) :: rest →
        token = if reads then
          (before.foldl (KeyringCall.latest fold (entryKey fold deviceId))
            ((vault s (entryKey fold deviceId)).map Credential.entry)).bind KeyringEntry.token
        else none) ∧
    (∀ key credential, vault (after (step manager) s calls) key = some credential →
      vault s key = some credential ∨ ∃ deviceId token reads,
        (.set deviceId token, .done reads) ∈ answers (step manager) s calls ∧
          entryKey fold deviceId = key ∧ credential.Measured token) ∧
    ((roundTrips manager s).2 = true ↔
      (set manager s probeDeviceId "probe").2 = .ok () ∧
        reads manager (set manager s probeDeviceId "probe").1 probeDeviceId = true) := by
  refine ⟨?_, ?_, fun key credential => h.measured_after, h.qualifies_iff s⟩
  · intro key
    have hany : ∀ call ∈ calls, True := fun _ _ => trivial
    exact (after_view (I := fun _ => True)
      (fun s => (vault s key).map Credential.entry) (KeyringCall.latest fold key)
      (fun _ _ _ _ => trivial) (fun s call _ _ => h.entry_step s call key) trivial hany).2
  · intro before rest deviceId reads token hanswers
    obtain ⟨s', hview, hanswer⟩ := answers_view
      (fun s => (vault s (entryKey fold deviceId)).map Credential.entry)
      (KeyringCall.latest fold (entryKey fold deviceId))
      (fun s call => h.entry_step s call _) hanswers
    obtain ⟨rfl, rfl⟩ := KeyringAnswer.got.inj hanswer
    rw [← hview, h.get_eq]

/-- A token is replaced, and a delete that fails leaves it. -/
def replacedToken : List KeyringCall :=
  [.set "01J8ME9FZW3W7T2C4Y8K5Q6R9S" "old", .set "01j8me9fzw3w7t2c4y8k5q6r9s" "new",
    .get "01J8ME9FZW3W7T2C4Y8K5Q6R9S", .delete "01J8ME9FZW3W7T2C4Y8K5Q6R9S"]

theorem keyring_refines_entries_replaced :
    ((after (step .scripted) (fun _ => none, [true, true, true, true, true, false])
      replacedToken).1 (entryKey foldAscii "01J8ME9FZW3W7T2C4Y8K5Q6R9S")).map Credential.entry =
        some ⟨some (encodeUtf16 "01J8ME9FZW3W7T2C4Y8K5Q6R9S"), none, none, some "new"⟩ ∧
    (roundTrips .scripted (fun _ => none, [true, true, true, true, true, false])).2 = true := by
  obtain ⟨hentry, -, -, hqualifies⟩ := keyring_refines_entries CredentialManager.scripted_documented
    (fun _ => none, [true, true, true, true, true, false]) replacedToken
  exact ⟨(hentry _).trans (by decide +kernel), hqualifies.mpr (by decide +kernel)⟩

/-- The token that was stored for a device is what its reads return until a call changes its entry:
the probes, the calls of other devices, refused writes and deletes that fail leave it. Its entry
keeps its layout and the names that the write found. -/
theorem device_token_survives (h : manager.Documented fold vault) (s : σ)
    (deviceId token : String) (hdevice : isValidWireIdentifier deviceId = true)
    (htoken : (encodeUtf16 token).length < 2147483648)
    (hset : (set manager s deviceId token).2 = .ok ()) (commands : List KeyringCommand)
    (hothers : ∀ call answer other,
      (.call call, .answered answer) ∈
          answers (commandStep manager) (set manager s deviceId token).1 commands →
        call.changes answer = some other → isValidWireIdentifier other = true ∧
          (encodeUtf16 other).map fold ≠ (encodeUtf16 deviceId).map fold) :
    let s' := after (commandStep manager) (set manager s deviceId token).1 commands
    (get manager s' deviceId).2 = (if reads manager s' deviceId then some token else none) ∧
      ∃ credential, vault s' (entryKey fold deviceId) = some credential ∧
        credential.Measured token ∧
        (∀ found, reads manager s deviceId = true →
          vault s (entryKey fold deviceId) = some found →
            credential.userName = found.userName ∧ credential.comment = found.comment ∧
              credential.targetAlias = found.targetAlias) ∧
        (vault s (entryKey fold deviceId) = none →
          credential.userName = some (encodeUtf16 deviceId)) := by
  intro s'
  have hentry : vault s' (entryKey fold deviceId) = some (credentialFor
      (if reads manager s deviceId then vault s (entryKey fold deviceId) else none) deviceId
        token) := by
    rw [h.commands_other hdevice hothers]
    rcases h.set_case s deviceId token with ⟨-, hvault⟩ | ⟨error, herror, -⟩
    · rw [hvault, Function.update_self]
    · rw [hset] at herror
      contradiction
  refine ⟨?_, ?_⟩
  · rw [h.get_eq, hentry, Option.map_some, Option.bind_some, entry_credentialFor,
      KeyringEntry.stored_token, writtenToken_eq htoken]
  · refine ⟨_, hentry, ⟨rfl, rfl, rfl, rfl, rfl⟩, ?_, ?_⟩
    · intro found hreads hfound
      rw [if_pos hreads, hfound]
      exact ⟨rfl, rfl, rfl⟩
    · intro hnone
      rw [hnone, ite_self, ← cString_toWideNul (zero_notMem_of_valid hdevice)]
      rfl

def sharedManager : Vault × List Bool :=
  (fun _ => none, [true, true, true, true, true, false, true, true, true, false])

/-- Another device is paired and released, and the probe leaves its entry behind. -/
def sharedCommands : List KeyringCommand :=
  [.probe, .call (.set "01J8ME9FZW3W7T2C4Y8K5Q6R9T" "other"),
    .call (.delete "01J8ME9FZW3W7T2C4Y8K5Q6R9T"), .call (.delete "01J8ME9FZW3W7T2C4Y8K5Q6R9S")]

theorem device_token_survives_shared :
    (get .scripted (after (commandStep .scripted)
      (set .scripted sharedManager "01J8ME9FZW3W7T2C4Y8K5Q6R9S" "token").1 sharedCommands)
      "01J8ME9FZW3W7T2C4Y8K5Q6R9S").2 = some "token" := by
  have hanswers : answers (commandStep .scripted)
      (set .scripted sharedManager "01J8ME9FZW3W7T2C4Y8K5Q6R9S" "token").1 sharedCommands =
      [(.probe, .qualified true),
        (.call (.set "01J8ME9FZW3W7T2C4Y8K5Q6R9T" "other"), .answered (.done true)),
        (.call (.delete "01J8ME9FZW3W7T2C4Y8K5Q6R9T"), .answered (.deleted true)),
        (.call (.delete "01J8ME9FZW3W7T2C4Y8K5Q6R9S"), .answered (.deleted false))] := by
    decide +kernel
  refine (device_token_survives CredentialManager.scripted_documented sharedManager
    "01J8ME9FZW3W7T2C4Y8K5Q6R9S" "token" (by decide +kernel) (by decide +kernel) (by decide +kernel)
    sharedCommands ?_).1.trans (if_pos (by decide +kernel))
  rw [hanswers]
  intro call answer other hmem hchanges
  simp only [List.mem_cons, Prod.mk.injEq, KeyringCommand.call.injEq, KeyringReply.answered.injEq,
    List.not_mem_nil, or_false, reduceCtorEq, false_and, false_or] at hmem
  rcases hmem with ⟨rfl, rfl⟩ | ⟨rfl, rfl⟩ | ⟨rfl, rfl⟩
  · obtain rfl := Option.some.inj hchanges
    decide +kernel
  · obtain rfl := Option.some.inj hchanges
    decide +kernel
  · exact nomatch (show none = some other from hchanges)

end YohakuCore
