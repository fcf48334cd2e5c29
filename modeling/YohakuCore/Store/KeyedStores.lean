import YohakuCore.Framework.Json
import YohakuCore.Framework.KeyedFile
import YohakuCore.Store.Base64

/-!
# `sequence.json` and `credentials.bin.json`

Two files that map device ids to values. DPAPI is a parameter, as is the text form of the objects.
-/

namespace YohakuCore

open Framework

variable {Text : Type*} (json : MapText Text String Json)

/-- Both stores write numbers and strings only. -/
inductive IsStored : Json → Prop where
  | number (next : UInt64) : IsStored (.number (.posInt next))
  | string (blob : String) : IsStored (.string blob)

namespace FileSequenceStore

/-- Fractions and integers outside `i64` read as no value. -/
def load (file : Option Text) (deviceId : String) : Option Int :=
  ((json.read file).lookup deviceId).bind Json.asI64

def store (file : Option Text) (deviceId : String) (next : UInt64) (writes : Bool) :
    Option Text × Bool :=
  json.put file deviceId (.number (.posInt next)) writes

/-- An empty object stays on the disk. -/
def remove (file : Option Text) (deviceId : String) (writes : Bool) : Option Text × Bool :=
  json.drop false file deviceId writes

end FileSequenceStore

/-- A call on the sequence store; the disk lets its write through or not. -/
inductive SequenceCall where
  | load (deviceId : String)
  | store (deviceId : String) (next : UInt64) (writes : Bool)
  | remove (deviceId : String) (writes : Bool)
  deriving DecidableEq

inductive SequenceAnswer where
  | loaded (value : Option Int)
  | done
  | failed
  deriving DecidableEq

def SequenceCall.deviceId : SequenceCall → String
  | .load deviceId => deviceId
  | .store deviceId _ _ => deviceId
  | .remove deviceId _ => deviceId

def SequenceAnswer.of (succeeded : Bool) : SequenceAnswer := if succeeded then .done else .failed

@[simp] theorem SequenceAnswer.of_eq_failed {succeeded : Bool} :
    SequenceAnswer.of succeeded = .failed ↔ succeeded = false := by
  cases succeeded <;> simp [SequenceAnswer.of]

def FileSequenceStore.step (file : Option Text) :
    SequenceCall → Option Text × SequenceAnswer
  | .load deviceId => (file, .loaded (FileSequenceStore.load json file deviceId))
  | .store deviceId next writes =>
      let r := FileSequenceStore.store json file deviceId next writes
      (r.1, .of r.2)
  | .remove deviceId writes =>
      let r := FileSequenceStore.remove json file deviceId writes
      (r.1, .of r.2)

/-- In-process DPAPI. What protects a text is not determined by it: the seed stands for what else
goes in. -/
structure Dpapi where
  protect : Nat → List UInt8 → Option (List UInt8)
  unprotect : List UInt8 → Option (List UInt8)

def Dpapi.Inverts (dpapi : Dpapi) : Prop :=
  ∀ seed data blob, dpapi.protect seed data = some blob → dpapi.unprotect blob = some data

/-- The token is protected, and to some output. -/
def Dpapi.protects (dpapi : Dpapi) (seed : Nat) (token : String) : Bool :=
  (dpapi.protect seed (Utf8.encode token)).getD [] ≠ []

inductive CredentialStoreError where
  | unavailable
  | protectFailed
  | noOutput
  | writeFailed
  | deleteFailed
  deriving DecidableEq

def probeDeviceId : String := "__yohaku_probe__"

namespace DpapiCredentialStore

variable (dpapi : Dpapi)

/-- Any failure reads as no token: another type, bad base64, another user's blob, no UTF-8. -/
def get (file : Option Text) (deviceId : String) : Option String := do
  let blob ← ((json.read file).lookup deviceId).bind Json.readString
  let encrypted ← base64Decode blob
  let decrypted ← dpapi.unprotect encrypted
  Utf8.decode? decrypted

/-- The token is protected verbatim. -/
def set (file : Option Text) (deviceId token : String) (seed : Nat) (writes : Bool) :
    Option Text × Except CredentialStoreError Unit :=
  match dpapi.protect seed (Utf8.encode token) with
  | none => (file, .error .protectFailed)
  | some encrypted =>
      if encrypted = [] then (file, .error .noOutput)
      else
        let r := json.put file deviceId (.string (base64Encode encrypted)) writes
        (r.1, if r.2 then .ok () else .error .writeFailed)

/-- The file goes with its last key; a delete that fails leaves the whole file. -/
def delete (file : Option Text) (deviceId : String) (writes : Bool) :
    Option Text × Except CredentialStoreError Unit :=
  let r := json.drop true file deviceId writes
  (r.1, if r.2 then .ok () else .error .deleteFailed)

end DpapiCredentialStore

inductive CredentialCall where
  | get (deviceId : String)
  | set (deviceId token : String) (seed : Nat) (writes : Bool)
  | delete (deviceId : String) (writes : Bool)
  deriving DecidableEq

inductive CredentialAnswer where
  | got (token : Option String)
  | done
  | failed (error : CredentialStoreError)
  deriving DecidableEq

def CredentialCall.deviceId : CredentialCall → String
  | .get deviceId => deviceId
  | .set deviceId _ _ _ => deviceId
  | .delete deviceId _ => deviceId

def CredentialAnswer.of : Except CredentialStoreError Unit → CredentialAnswer
  | .ok () => .done
  | .error error => .failed error

namespace DpapiCredentialStore

variable (dpapi : Dpapi)

def step (file : Option Text) : CredentialCall → Option Text × CredentialAnswer
  | .get deviceId => (file, .got (get json dpapi file deviceId))
  | .set deviceId token seed writes =>
      let r := set json dpapi file deviceId token seed writes
      (r.1, .of r.2)
  | .delete deviceId writes =>
      let r := delete json file deviceId writes
      (r.1, .of r.2)

/-- The probe of a backend: the file it leaves, and whether the backend qualifies. A failed `set`
skips the rest; `delete` runs also when the value read is wrong. -/
def roundTrips (file : Option Text) (seed : Nat) (setWrites deleteWrites : Bool) :
    Option Text × Bool :=
  match set json dpapi file probeDeviceId "probe" seed setWrites with
  | (file, .error _) => (file, false)
  | (file, .ok ()) =>
      let read := get json dpapi file probeDeviceId
      match delete json file probeDeviceId deleteWrites with
      | (file, .error _) => (file, false)
      | (file, .ok ()) => (file, read = some "probe")

end DpapiCredentialStore

/-- What a process does with the store: a call of its own, or the probe. -/
inductive CredentialCommand where
  | call (call : CredentialCall)
  | probe (seed : Nat) (setWrites deleteWrites : Bool)
  deriving DecidableEq

namespace CredentialCommand

variable (dpapi : Dpapi)

def file (file : Option Text) : CredentialCommand → Option Text
  | .call c => (DpapiCredentialStore.step json dpapi file c).1
  | .probe seed setWrites deleteWrites =>
      (DpapiCredentialStore.roundTrips json dpapi file seed setWrites deleteWrites).1

/-- The calls a command comes down to. -/
def calls : CredentialCommand → List CredentialCall
  | .call c => [c]
  | .probe seed setWrites deleteWrites =>
      let set := .set probeDeviceId "probe" seed setWrites
      if setWrites && dpapi.protects seed "probe" then
        [set, .get probeDeviceId, .delete probeDeviceId deleteWrites]
      else [set]

end CredentialCommand

/-- What a call and its answer say about an id's number: the one last stored, none once removed. -/
def SequenceCall.latest (deviceId : String) (current : Option Int) :
    SequenceCall × SequenceAnswer → Option Int
  | (.store other next _, .done) =>
      if deviceId = other then Json.asI64 (.number (.posInt next)) else current
  | (.remove other _, .done) => if deviceId = other then none else current
  | _ => current

def CredentialCall.latest (deviceId : String) (current : Option String) :
    CredentialCall × CredentialAnswer → Option String
  | (.set other token _ _, .done) => if deviceId = other then some token else current
  | (.delete other _, .done) => if deviceId = other then none else current
  | _ => current

section Steps

variable {json} {dpapi : Dpapi} {file : Option Text}

theorem sequence_others (hjson : json.Restores IsStored) {call : SequenceCall}
    {deviceId : String} (hother : deviceId ≠ call.deviceId) :
    (json.read (FileSequenceStore.step json file call).1).lookup deviceId =
      (json.read file).lookup deviceId := by
  cases call with
  | load other => rfl
  | store other next writes =>
      simp only [FileSequenceStore.step, FileSequenceStore.store,
        MapText.lookup_put hjson (IsStored.number next)]
      exact if_neg (fun h => hother h.2)
  | remove other writes =>
      simp only [FileSequenceStore.step, FileSequenceStore.remove, MapText.lookup_drop hjson]
      exact if_neg (fun h => hother h.2)

theorem sequence_failed {call : SequenceCall}
    (h : (FileSequenceStore.step json file call).2 = .failed) :
    (FileSequenceStore.step json file call).1 = file := by
  cases call with
  | load other => rfl
  | store other next writes =>
      apply MapText.put_failed
      simpa [FileSequenceStore.step, FileSequenceStore.store] using h
  | remove other writes =>
      apply MapText.drop_failed
      simpa [FileSequenceStore.step, FileSequenceStore.remove] using h

theorem sequence_latest (hjson : json.Restores IsStored) (file : Option Text)
    (call : SequenceCall) (deviceId : String) :
    FileSequenceStore.load json (FileSequenceStore.step json file call).1 deviceId =
      SequenceCall.latest deviceId (FileSequenceStore.load json file deviceId)
        (call, (FileSequenceStore.step json file call).2) := by
  cases call with
  | load other => rfl
  | store other next writes =>
      simp only [FileSequenceStore.step, FileSequenceStore.store, FileSequenceStore.load,
        MapText.lookup_put hjson (IsStored.number next)]
      cases writes with
      | false => rfl
      | true =>
        by_cases hid : deviceId = other <;>
          simp [MapText.put, SequenceAnswer.of, SequenceCall.latest, hid]
  | remove other writes =>
      simp only [FileSequenceStore.step, FileSequenceStore.remove, FileSequenceStore.load,
        MapText.lookup_drop hjson]
      cases (json.drop false file other writes).2 with
      | false => rfl
      | true =>
        by_cases hid : deviceId = other <;>
          simp [SequenceAnswer.of, SequenceCall.latest, hid]

theorem set_case (json : MapText Text String Json) (dpapi : Dpapi) (file : Option Text)
    (deviceId token : String) (seed : Nat) (writes : Bool) :
    ((writes && dpapi.protects seed token) = false ∧
      ∃ error, DpapiCredentialStore.set json dpapi file deviceId token seed writes =
        (file, .error error)) ∨
    ((writes && dpapi.protects seed token) = true ∧
      ∃ encrypted, dpapi.protect seed (Utf8.encode token) = some encrypted ∧
        DpapiCredentialStore.set json dpapi file deviceId token seed writes =
          ((json.put file deviceId (.string (base64Encode encrypted)) true).1, .ok ())) := by
  rw [DpapiCredentialStore.set, Dpapi.protects]
  cases hprotect : dpapi.protect seed (Utf8.encode token) with
  | none => exact Or.inl ⟨by simp, _, rfl⟩
  | some encrypted =>
      by_cases hempty : encrypted = []
      · exact Or.inl ⟨by simp [hempty], .noOutput, by simp [hempty]⟩
      · cases writes with
        | false => exact Or.inl ⟨rfl, .writeFailed, by simp [hempty, MapText.put]⟩
        | true => exact Or.inr ⟨by simp [hempty], encrypted, rfl, by simp [hempty, MapText.put]⟩

theorem delete_case (json : MapText Text String Json) (file : Option Text) (deviceId : String)
    (writes : Bool) :
    DpapiCredentialStore.delete json file deviceId writes = (file, .error .deleteFailed) ∨
    (json.drop true file deviceId writes).2 = true ∧
      DpapiCredentialStore.delete json file deviceId writes =
        ((json.drop true file deviceId writes).1, .ok ()) := by
  rw [DpapiCredentialStore.delete]
  cases hdrop : (json.drop true file deviceId writes).2 with
  | false => exact Or.inl (by simp [MapText.drop_failed hdrop])
  | true => exact Or.inr ⟨rfl, by simp⟩

theorem credential_others (hjson : json.Restores IsStored) {call : CredentialCall}
    {deviceId : String} (hother : deviceId ≠ call.deviceId) :
    (json.read (DpapiCredentialStore.step json dpapi file call).1).lookup deviceId =
      (json.read file).lookup deviceId := by
  cases call with
  | get other => rfl
  | set other token seed writes =>
      rw [DpapiCredentialStore.step]
      rcases set_case json dpapi file other token seed writes with
        ⟨_, _, hset⟩ | ⟨_, _, _, hset⟩
      · rw [hset]
      · rw [hset, MapText.lookup_put hjson (IsStored.string _)]
        exact if_neg (fun h => hother h.2)
  | delete other writes =>
      rw [DpapiCredentialStore.step]
      rcases delete_case json file other writes with hdelete | ⟨_, hdelete⟩
      · rw [hdelete]
      · rw [hdelete, MapText.lookup_drop hjson]
        exact if_neg (fun h => hother h.2)

theorem credential_failed {call : CredentialCall} {error : CredentialStoreError}
    (h : (DpapiCredentialStore.step json dpapi file call).2 = .failed error) :
    (DpapiCredentialStore.step json dpapi file call).1 = file := by
  cases call with
  | get other => rfl
  | set other token seed writes =>
      rw [DpapiCredentialStore.step] at h ⊢
      rcases set_case json dpapi file other token seed writes with
        ⟨_, _, hset⟩ | ⟨_, _, _, hset⟩
      · rw [hset]
      · rw [hset] at h
        contradiction
  | delete other writes =>
      rw [DpapiCredentialStore.step] at h ⊢
      rcases delete_case json file other writes with hdelete | ⟨_, hdelete⟩
      · rw [hdelete]
      · rw [hdelete] at h
        contradiction

theorem get_of_lookup (hdpapi : dpapi.Inverts) {deviceId token : String} {seed : Nat}
    {encrypted : List UInt8} (hprotect : dpapi.protect seed (Utf8.encode token) = some encrypted)
    (hlookup : (json.read file).lookup deviceId = some (.string (base64Encode encrypted))) :
    DpapiCredentialStore.get json dpapi file deviceId = some token := by
  simp [DpapiCredentialStore.get, hlookup, base64Decode_encode, hdpapi seed _ _ hprotect,
    Utf8.decode?_encode]

theorem get_congr {file file' : Option Text} {deviceId : String}
    (h : (json.read file').lookup deviceId = (json.read file).lookup deviceId) :
    DpapiCredentialStore.get json dpapi file' deviceId =
      DpapiCredentialStore.get json dpapi file deviceId := by
  rw [DpapiCredentialStore.get, h]
  rfl

theorem credential_latest (hjson : json.Restores IsStored) (hdpapi : dpapi.Inverts)
    (file : Option Text) (call : CredentialCall) (deviceId : String) :
    DpapiCredentialStore.get json dpapi (DpapiCredentialStore.step json dpapi file call).1
        deviceId =
      CredentialCall.latest deviceId (DpapiCredentialStore.get json dpapi file deviceId)
        (call, (DpapiCredentialStore.step json dpapi file call).2) := by
  by_cases hid : deviceId = call.deviceId
  · cases call with
    | get other => rfl
    | set other token seed writes =>
        obtain rfl : deviceId = other := hid
        rw [DpapiCredentialStore.step]
        rcases set_case json dpapi file deviceId token seed writes with
          ⟨_, _, hset⟩ | ⟨_, encrypted, hprotect, hset⟩
        · rw [hset]
          rfl
        · rw [hset]
          simp only [CredentialAnswer.of, CredentialCall.latest, if_true]
          apply get_of_lookup hdpapi hprotect
          rw [MapText.lookup_put hjson (IsStored.string _)]
          simp [MapText.put]
    | delete other writes =>
        obtain rfl : deviceId = other := hid
        rw [DpapiCredentialStore.step]
        rcases delete_case json file deviceId writes with hdelete | ⟨hdropped, hdelete⟩
        · rw [hdelete]
          rfl
        · rw [hdelete]
          simp only [CredentialAnswer.of, CredentialCall.latest, if_true]
          have hnone : (json.read (json.drop true file deviceId writes).1).lookup deviceId =
              none := by
            rw [MapText.lookup_drop hjson]
            simp [hdropped]
          simp [DpapiCredentialStore.get, hnone]
  · rw [get_congr (credential_others hjson hid)]
    cases call with
    | get other => rfl
    | set other token seed writes =>
        cases (DpapiCredentialStore.step json dpapi file (.set other token seed writes)).2 with
        | done => exact (if_neg hid).symm
        | got token => rfl
        | failed error => rfl
    | delete other writes =>
        cases (DpapiCredentialStore.step json dpapi file (.delete other writes)).2 with
        | done => exact (if_neg hid).symm
        | got token => rfl
        | failed error => rfl

theorem credential_gone (hfile : file ≠ none) (call : CredentialCall) :
    (DpapiCredentialStore.step json dpapi file call).1 = none ↔
      ∃ deviceId writes, call = .delete deviceId writes ∧
        (DpapiCredentialStore.step json dpapi file call).2 = .done ∧
        (json.read file).keys = [deviceId] := by
  cases call with
  | get other => simp [DpapiCredentialStore.step, hfile]
  | set other token seed writes =>
      rw [DpapiCredentialStore.step]
      rcases set_case json dpapi file other token seed writes with
        ⟨_, _, hset⟩ | ⟨_, _, _, hset⟩
      · simp [hset, hfile]
      · simp [hset, MapText.put]
  | delete other writes =>
      rw [DpapiCredentialStore.step]
      rcases delete_case json file other writes with hdelete | ⟨hdropped, hdelete⟩
      · simp [hdelete, hfile, CredentialAnswer.of]
      · simp [hdelete, MapText.drop_eq_none hfile, hdropped, CredentialAnswer.of]

theorem roundTrips_calls (json : MapText Text String Json) (dpapi : Dpapi)
    (file : Option Text) (seed : Nat) (setWrites deleteWrites : Bool) :
    (DpapiCredentialStore.roundTrips json dpapi file seed setWrites deleteWrites).1 =
      after (DpapiCredentialStore.step json dpapi) file
        (CredentialCommand.calls dpapi (.probe seed setWrites deleteWrites)) := by
  rw [DpapiCredentialStore.roundTrips, CredentialCommand.calls]
  rcases set_case json dpapi file probeDeviceId "probe" seed setWrites with
    ⟨hsets, _, hset⟩ | ⟨hsets, encrypted, _, hset⟩
  · simp [hset, hsets, after, DpapiCredentialStore.step]
  · simp only [hset, hsets, if_true, after, DpapiCredentialStore.step, List.foldl_cons,
      List.foldl_nil]
    rcases delete_case json (json.put file probeDeviceId (.string (base64Encode encrypted)) true).1
      probeDeviceId deleteWrites with hdelete | ⟨-, hdelete⟩
    · rw [hdelete]
    · rw [hdelete]

theorem command_file (command : CredentialCommand) (file : Option Text) :
    CredentialCommand.file json dpapi file command =
      after (DpapiCredentialStore.step json dpapi) file (command.calls dpapi) := by
  cases command with
  | call c => rfl
  | probe seed setWrites deleteWrites => exact roundTrips_calls json dpapi file seed _ _

theorem commands_file (commands : List CredentialCommand) (file : Option Text) :
    commands.foldl (CredentialCommand.file json dpapi) file =
      after (DpapiCredentialStore.step json dpapi) file
        (commands.flatMap (CredentialCommand.calls dpapi)) := by
  induction commands generalizing file with
  | nil => rfl
  | cons c cs ih => rw [List.foldl_cons, ih, command_file, List.flatMap_cons, after_append]

end Steps

/-- Both files are maps of device ids: in every run, whatever writes fail, a load or a get returns
what was last stored or set for its id and not removed, or else what the file first held; other ids
keep what they hold; a failed call keeps the file; and the file of the credentials is deleted
exactly with its last key. A stored number is read as an `i64`. -/
theorem keyed_stores_are_maps {json : MapText Text String Json} {dpapi : Dpapi}
    (hjson : json.Restores IsStored) (hdpapi : dpapi.Inverts) (file : Option Text) :
    ((∀ calls before rest deviceId value,
        answers (FileSequenceStore.step json) file calls =
            before ++ (.load deviceId, .loaded value) :: rest →
          value = before.foldl (SequenceCall.latest deviceId)
            (FileSequenceStore.load json file deviceId)) ∧
      ∀ call,
        (∀ deviceId, deviceId ≠ call.deviceId →
          (json.read (FileSequenceStore.step json file call).1).lookup deviceId =
            (json.read file).lookup deviceId) ∧
        ((FileSequenceStore.step json file call).2 = .failed →
          (FileSequenceStore.step json file call).1 = file)) ∧
    (∀ commands : List CredentialCommand,
      let calls := commands.flatMap (CredentialCommand.calls dpapi)
      commands.foldl (CredentialCommand.file json dpapi) file =
          after (DpapiCredentialStore.step json dpapi) file calls ∧
        ∀ before rest deviceId token,
          answers (DpapiCredentialStore.step json dpapi) file calls =
              before ++ (.get deviceId, .got token) :: rest →
            token = before.foldl (CredentialCall.latest deviceId)
              (DpapiCredentialStore.get json dpapi file deviceId)) ∧
    ∀ call,
      (∀ deviceId, deviceId ≠ call.deviceId →
        (json.read (DpapiCredentialStore.step json dpapi file call).1).lookup deviceId =
          (json.read file).lookup deviceId) ∧
      (∀ error, (DpapiCredentialStore.step json dpapi file call).2 = .failed error →
        (DpapiCredentialStore.step json dpapi file call).1 = file) ∧
      (file ≠ none → ((DpapiCredentialStore.step json dpapi file call).1 = none ↔
        ∃ deviceId writes, call = .delete deviceId writes ∧
          (DpapiCredentialStore.step json dpapi file call).2 = .done ∧
          (json.read file).keys = [deviceId])) := by
  refine ⟨⟨?_, ?_⟩, ?_, ?_⟩
  · intro calls before rest deviceId value hanswers
    obtain ⟨s, hload, hanswer⟩ := answers_view
      (fun file => FileSequenceStore.load json file deviceId) (SequenceCall.latest deviceId)
      (fun s c => sequence_latest hjson s c deviceId) hanswers
    rw [← hload]
    exact SequenceAnswer.loaded.inj hanswer
  · intro call
    exact ⟨fun _ hother => sequence_others hjson hother, sequence_failed⟩
  · intro commands
    refine ⟨commands_file commands file, ?_⟩
    intro before rest deviceId token hanswers
    obtain ⟨s, hget, hanswer⟩ := answers_view
      (fun file => DpapiCredentialStore.get json dpapi file deviceId)
      (CredentialCall.latest deviceId)
      (fun s c => credential_latest hjson hdpapi s c deviceId) hanswers
    rw [← hget]
    exact CredentialAnswer.got.inj hanswer
  · intro call
    exact ⟨fun _ hother => credential_others hjson hother, fun _ => credential_failed,
      fun hfile => credential_gone hfile call⟩

/-- Blobs that are the data behind one byte. -/
def headedDpapi : Dpapi where
  protect _ data := some (1 :: data)
  unprotect
    | 1 :: data => some data
    | _ => none

theorem headedDpapi_inverts : headedDpapi.Inverts := by
  intro seed data blob h
  obtain rfl := Option.some.inj h
  rfl

/-- The probe leaves the token of a device. -/
theorem keyed_stores_are_maps_probe :
    some "token" = [(CredentialCall.set "device" "token" 0 true, CredentialAnswer.done),
      (.set probeDeviceId "probe" 1 true, .done), (.get probeDeviceId, .got (some "probe")),
      (.delete probeDeviceId true, .done)].foldl (CredentialCall.latest "device") none :=
  ((keyed_stores_are_maps (MapText.documents_restores IsStored) headedDpapi_inverts none).2.1
    [.call (.set "device" "token" 0 true), .probe 1 true true, .call (.get "device")]).2 _ []
    "device" (some "token") (by decide +kernel)

/-- A number from 2^63 on is stored and is not read. -/
theorem stored_number_unread :
    answers (FileSequenceStore.step MapText.documents) none
        [.store "device" 9223372036854775808 true, .load "device"] =
      [(.store "device" 9223372036854775808 true, .done), (.load "device", .loaded none)] := by
  decide +kernel

end YohakuCore
