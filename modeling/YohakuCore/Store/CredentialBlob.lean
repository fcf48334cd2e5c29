import YohakuCore.Privacy.Fingerprint

/-! # Credential blobs -/

namespace YohakuCore

open Framework

def toLeBytes (unit : Nat) : List UInt8 := [UInt8.ofNat unit, UInt8.ofNat (unit / 256)]

def tokenToUtf16leBlob (token : String) : List UInt8 := (encodeUtf16 token).flatMap toLeBytes

/-- The units of the whole pairs. -/
def blobUnits : List UInt8 → List Nat
  | low :: high :: rest => (low.toNat + 256 * high.toNat) :: blobUnits rest
  | _ => []

def decodeUtf16leBlob (bytes : List UInt8) : Option String :=
  if bytes.length % 2 ≠ 0 then none else (Utf16.decode? (blobUnits bytes)).map String.ofList

/-- What the credential manager answers: no credential, or one with its blob. -/
def readCredential (credential : Option (List UInt8)) : Option String :=
  credential.bind (fun blob => if blob.length = 0 then some "" else decodeUtf16leBlob blob)

/-- The measured layout. -/
example : tokenToUtf16leBlob "a😀" = [0x61, 0, 0x3D, 0xD8, 0, 0xDE] := by decide +kernel

theorem blobUnits_toLeBytes {units : List Nat} (h : ∀ unit ∈ units, unit < 0x10000) :
    blobUnits (units.flatMap toLeBytes) = units := by
  induction units with
  | nil => rfl
  | cons unit units ih =>
      have hunit := h unit List.mem_cons_self
      have hvalue : (UInt8.ofNat unit).toNat + 256 * (UInt8.ofNat (unit / 256)).toNat = unit := by
        rw [UInt8.toNat_ofNat', UInt8.toNat_ofNat']
        omega
      rw [List.flatMap_cons, toLeBytes, List.cons_append, List.singleton_append, blobUnits, hvalue,
        ih (fun u hu => h u (List.mem_cons_of_mem _ hu))]

theorem toLeBytes_blobUnits : ∀ {bytes : List UInt8}, bytes.length % 2 = 0 →
    (blobUnits bytes).flatMap toLeBytes = bytes
  | [], _ => rfl
  | [_], h => by simp at h
  | low :: high :: rest, h => by
      have hlow := low.toNat_lt
      have hfirst : UInt8.ofNat (low.toNat + 256 * high.toNat) = low := by
        apply UInt8.toNat_inj.mp
        rw [UInt8.toNat_ofNat']
        omega
      have hsecond : UInt8.ofNat ((low.toNat + 256 * high.toNat) / 256) = high := by
        apply UInt8.toNat_inj.mp
        have hhigh := high.toNat_lt
        rw [UInt8.toNat_ofNat']
        omega
      have hrest : rest.length % 2 = 0 := by
        simp only [List.length_cons] at h
        omega
      rw [blobUnits, List.flatMap_cons, toLeBytes_blobUnits hrest, toLeBytes, hfirst, hsecond]
      rfl

theorem blobUnits_lt : ∀ {bytes : List UInt8}, ∀ unit ∈ blobUnits bytes, unit < 0x10000
  | [], _, h => by simp [blobUnits] at h
  | [_], _, h => by simp [blobUnits] at h
  | low :: high :: rest, unit, h => by
      have hlow := low.toNat_lt
      have hhigh := high.toNat_lt
      rw [blobUnits, List.mem_cons] at h
      rcases h with rfl | h
      · omega
      · exact blobUnits_lt unit h

theorem encodeUtf16_lt (token : String) : ∀ unit ∈ encodeUtf16 token, unit < 0x10000 := by
  intro unit hunit
  obtain ⟨c, -, hc⟩ := List.mem_flatMap.mp hunit
  exact Utf16.units_lt c unit hc

theorem toLeBytes_length (units : List Nat) : (units.flatMap toLeBytes).length % 2 = 0 := by
  induction units with
  | nil => rfl
  | cons unit units ih =>
      simp only [List.flatMap_cons, List.length_append, toLeBytes, List.length_cons,
        List.length_nil]
      omega

theorem decodeUtf16leBlob_token (token : String) :
    decodeUtf16leBlob (tokenToUtf16leBlob token) = some token := by
  have hlength : ¬ (tokenToUtf16leBlob token).length % 2 ≠ 0 :=
    not_not_intro (toLeBytes_length _)
  rw [decodeUtf16leBlob, if_neg hlength, tokenToUtf16leBlob,
    blobUnits_toLeBytes (encodeUtf16_lt token), encodeUtf16_eq, Utf16.decode?_encode,
    Option.map_some, String.ofList_toList]

theorem decodeUtf16leBlob_eq_some_iff {bytes : List UInt8} {token : String} :
    decodeUtf16leBlob bytes = some token ↔
      bytes.length % 2 = 0 ∧ Utf16.decode? (blobUnits bytes) = some token.toList := by
  rw [decodeUtf16leBlob]
  by_cases hlength : bytes.length % 2 = 0
  · rw [if_neg (not_not_intro hlength), Option.map_eq_some_iff]
    constructor
    · rintro ⟨text, htext, rfl⟩
      exact ⟨hlength, by rwa [String.toList_ofList]⟩
    · rintro ⟨-, htext⟩
      exact ⟨_, htext, String.ofList_toList⟩
  · simp [hlength]

/-- The blob of a token is read as that token. A blob is read exactly when its bytes are pairs and
its units well formed, and what is read has those bytes. -/
theorem credential_blob_lossless :
    (∀ token, decodeUtf16leBlob (tokenToUtf16leBlob token) = some token ∧
      readCredential (some (tokenToUtf16leBlob token)) = some token) ∧
    ∀ bytes,
      ((∃ token, decodeUtf16leBlob bytes = some token) ↔
        bytes.length % 2 = 0 ∧ Utf16.WellFormed (blobUnits bytes)) ∧
      ∀ token, decodeUtf16leBlob bytes = some token → tokenToUtf16leBlob token = bytes := by
  refine ⟨?_, ?_⟩
  · intro token
    have hdecode := decodeUtf16leBlob_token token
    refine ⟨hdecode, ?_⟩
    simp only [readCredential, Option.bind_some]
    split
    · rename_i hempty
      rwa [List.length_eq_zero_iff.mp hempty] at hdecode
    · exact hdecode
  · intro bytes
    refine ⟨?_, ?_⟩
    · simp only [decodeUtf16leBlob_eq_some_iff, ← Utf16.decode?_isSome_iff,
        Option.isSome_iff_exists]
      constructor
      · rintro ⟨token, hlength, htoken⟩
        exact ⟨hlength, _, htoken⟩
      · rintro ⟨hlength, text, htext⟩
        exact ⟨String.ofList text, hlength, by rwa [String.toList_ofList]⟩
    · intro token htoken
      obtain ⟨hlength, hunits⟩ := decodeUtf16leBlob_eq_some_iff.mp htoken
      rw [tokenToUtf16leBlob, encodeUtf16_eq, Utf16.encode_decode? blobUnits_lt hunits,
        toLeBytes_blobUnits hlength]

end YohakuCore
