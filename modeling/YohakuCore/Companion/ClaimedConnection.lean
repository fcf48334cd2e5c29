import YohakuCore.Companion.Authority
import YohakuCore.Companion.PairingClaim
import YohakuCore.Framework.PrefixCode

/-! # What a claim leaves -/

namespace YohakuCore

open Framework

/-- The closure that persists a pairing. -/
def PairingResult.persist (result : PairingResult) (backend : CredentialBackend)
    (config : FullCoreConfig) : FullCoreConfig :=
  { config with credentialBackend := some backend, connection := some result.connection }

theorem field_eq_some {α : Type*} {read : Json → Option α} {position : Nat} {key : String}
    {value : Json} {a : α} (h : value.field read position key = some a) :
    ∃ member, read member = some a := by
  unfold Json.field at h
  split at h
  all_goals
    obtain ⟨member, -, hread⟩ := Option.bind_eq_some_iff.mp h
    exact ⟨member, hread⟩

theorem fromValue_nextSequence {value : Json} {data : PairingClaimData}
    (h : PairingClaimData.fromValue value = some data) :
    data.nextSequence ≤ maximumSafeWireInteger := by
  simp only [PairingClaimData.fromValue, Option.bind_eq_bind, Option.bind_eq_some_iff,
    Option.pure_def, Option.some.injEq] at h
  obtain ⟨_, -, _, -, _, -, _, -, nextSequence, hfield, rfl⟩ := h
  obtain ⟨member, hread⟩ := field_eq_some hfield
  exact of_decide_eq_true (Option.filter_eq_some_iff.mp hread).2

theorem decodePairingClaimResponse_refined {value : Json} {data : PairingClaimData}
    (h : decodePairingClaimResponse value = some data) :
    isValidWireIdentifier data.deviceId = true ∧ jsTrim data.deviceToken ≠ "" ∧
      data.nextSequence ≤ maximumSafeWireInteger := by
  simp only [decodePairingClaimResponse, Option.bind_eq_bind, Option.bind_eq_some_iff,
    Option.pure_def, Option.some.injEq] at h
  obtain ⟨_, -, read, hfield, _, hid, _, htoken, rfl⟩ := h
  obtain ⟨member, hread⟩ := field_eq_some hfield
  exact ⟨(Option.guard_eq_some' _).mp hid, (Option.guard_eq_some' _).mp htoken,
    fromValue_nextSequence hread⟩

theorem rustTrim_part (s : String) : (rustTrim s).toList <:+: s.toList := by
  rw [rustTrim, String.toList_ofList]
  have hright := List.rdropWhile_prefix isRustWhitespace (s.toList.dropWhile isRustWhitespace)
  exact hright.isInfix.trans (List.dropWhile_suffix isRustWhitespace).isInfix

theorem validDeviceName_stored {u : UnicodeData} (hu : u.NfcClosed) {deviceName name : String}
    (h : validDeviceName u deviceName = some name) : validDeviceName u name = some name := by
  rw [validDeviceName_eq_some] at h ⊢
  obtain ⟨rfl, hblank, hlength⟩ := h
  have hnfc := hu.nfc_of_part deviceName _ (rustTrim_part (u.nfc deviceName))
  refine ⟨?_, hblank, hlength⟩
  rw [hnfc, rustTrim_rustTrim]

theorem isValidWireIdentifier_bar {value : String} (h : isValidWireIdentifier value = true) :
    '|' ∉ value.toList := by
  intro hbar
  have hchar := isValidWireIdentifier_chars h _ hbar
  revert hchar
  decide

theorem AuthorityRegistry.key_inj {baseUrl baseUrl' deviceId deviceId' : String}
    (h : isValidWireIdentifier deviceId = true) (h' : isValidWireIdentifier deviceId' = true)
    (hkey : key baseUrl deviceId = key baseUrl' deviceId') :
    baseUrl = baseUrl' ∧ deviceId = deviceId' := by
  have hchars := congrArg String.toList hkey
  simp only [key, String.toList_append, List.append_assoc] at hchars
  obtain ⟨hbase, hdevice⟩ := append_sep_inj_right (isValidWireIdentifier_bar h)
    (isValidWireIdentifier_bar h') hchars
  exact ⟨String.toList_injective hbase, String.toList_injective hdevice⟩

namespace PairingEnvironment

variable {env : PairingEnvironment} {baseUrl deviceName pairingCode name code : String}
  {configuration : CompanionServerConfiguration env.unicode}

theorem concludeClaim_ok {answer : Except CompanionTransportError PairingClaimData}
    {result : PairingResult} (h : env.concludeClaim configuration name answer = .ok result) :
    ∃ data, answer = .ok data ∧ requiredPresenceScope ∈ data.scopes ∧ result = {
      deviceId := data.deviceId
      deviceToken := data.deviceToken
      scopes := data.scopes
      nextSequence := data.nextSequence
      baseUrl := configuration.baseUrl.text
      deviceName := name } := by
  cases answer with
  | error error =>
      cases hcode : extractPairingServerCode error <;> simp [concludeClaim, hcode] at h
  | ok data =>
      by_cases hscope : requiredPresenceScope ∈ data.scopes
      · refine ⟨data, rfl, hscope, ?_⟩
        simpa [concludeClaim, hscope, eq_comm] using h
      · simp [concludeClaim, hscope] at h

theorem claim_decoded {data : PairingClaimData}
    (h : (env.claim configuration name code).answer = .ok data) :
    ∃ json, decodePairingClaimResponse json = some data := by
  simp only [claim, execute, YohakuCore.execute] at h
  split at h
  · simp at h
  · split at h
    · simp at h
    · rename_i response hresponse
      have hreading := @readResponse_reading env.calendar env.parse _ decodePairingClaimResponse
        (claimOptions name code).expectedRequestId response
      simp only at h
      generalize readResponse env.calendar env.parse decodePairingClaimResponse
        (claimOptions name code).expectedRequestId response = answer at h hreading
      cases hreading with
      | accepted json parsed hbody htext hsuccess hdecodes hecho =>
          rw [← Except.ok.inj h]
          exact ⟨json, hdecodes⟩
      | notJson hbody htext => split at h <;> simp at h
      | _ => simp at h

/-- What a successful claim persists never fails a later start: the stored URL is the validated one,
and the file accepts the connection. The device, the token, the scope and the floor are those of the
protocol, the stored name would be accepted again, and no other pairing has its key. -/
theorem claimed_connection_is_usable (hurls : env.urls.Documented) (hu : env.unicode.NfcClosed)
    {claimed : ClaimedPairing} {result : PairingResult}
    (hclaimed : env.claimPairing baseUrl deviceName pairingCode = some claimed)
    (hok : claimed.result = .ok result) :
    (∃ configuration,
      CompanionServerConfiguration.new env.unicode env.urls (rustTrim baseUrl) =
        .ok configuration ∧
      CompanionServerConfiguration.new env.unicode env.urls result.connection.baseUrl =
        .ok configuration) ∧
      (isValidWireIdentifier result.connection.deviceId = true ∧ jsTrim result.deviceToken ≠ "" ∧
        requiredPresenceScope ∈ result.connection.scopes ∧
        result.connection.pairingNextSequence ≤ maximumSafeWireInteger) ∧
      validDeviceName env.unicode result.connection.deviceName =
        some result.connection.deviceName ∧
      (∀ backend config config', revalidate config = .ok config' →
        revalidate (result.persist backend config) = .ok (result.persist backend config')) ∧
      ∀ baseUrl' deviceId', isValidWireIdentifier deviceId' = true →
        AuthorityRegistry.key baseUrl' deviceId' =
          AuthorityRegistry.key result.connection.baseUrl result.connection.deviceId →
        baseUrl' = result.connection.baseUrl ∧ deviceId' = result.connection.deviceId := by
  obtain ⟨claimed', hclaimed', hclaims⟩ :=
    env.claimPairing_claims baseUrl deviceName pairingCode
  obtain rfl := Option.some.inj (hclaimed'.symm.trans hclaimed)
  cases hclaims with
  | invalid hcode => simp [ClaimedPairing.refused] at hok
  | storeFails hstore => simp at hok
  | notNegotiated hserver hcode => simp [ClaimedPairing.refused] at hok
  | @claims configuration name code husable =>
      simp only at hok
      obtain ⟨data, hanswer, hscope, rfl⟩ := concludeClaim_ok hok
      obtain ⟨json, hdecodes⟩ := claim_decoded hanswer
      obtain ⟨hid, htoken, hnext⟩ := decodePairingClaimResponse_refined hdecodes
      refine ⟨⟨configuration, husable.server, ?_⟩, ⟨hid, htoken, hscope, hnext⟩, ?_, ?_, ?_⟩
      · exact CompanionServerConfiguration.new_text hurls husable.server
      · exact validDeviceName_stored hu husable.name
      · intro backend config config' hvalid
        obtain ⟨hversion, hsemantics, rfl⟩ := revalidate_eq_ok.mp hvalid
        exact revalidate_eq_ok.mpr ⟨hversion, hsemantics, rfl⟩
      · intro baseUrl' deviceId' hid' hkey
        exact AuthorityRegistry.key_inj hid' hid hkey

end PairingEnvironment

def claimedData : PairingClaimData where
  deviceId := "22222222-0000-4000-8000-000000000000"
  deviceToken := "token"
  scopes := [requiredPresenceScope]
  nextSequence := 7

theorem claimDocument_decodes : decodePairingClaimResponse claimDocument = some claimedData := by
  decide +kernel

theorem desk_claim : (deskEnvironment.claim deskConfiguration "Desk" "123456").answer =
    .ok claimedData := by
  have hresponse : deskEnvironment.network 1 (deskConfiguration.endpoint deskEnvironment.urls
      (claimOptions "Desk" "123456").path) (claimOptions "Desk" "123456").request =
        some ⟨200, encodeBody claimDocument⟩ := by
    simp only [deskEnvironment, if_neg Nat.one_ne_zero]
  have hparse : deskEnvironment.parse (claimDocument.compact jsonString) = some claimDocument := by
    simp only [deskEnvironment, if_neg claimDocument_text, if_true]
  rw [PairingEnvironment.claim_answer (by decide) (by decide), hresponse]
  exact readResponse_document hparse claimDocument_decodes

theorem claimed_connection_is_usable_desk : ∃ claimed result,
    deskEnvironment.claimPairing "https://desk.example" "Desk" "123456" = some claimed ∧
      claimed.result = .ok result ∧ result.connection.baseUrl = "https://desk.example/" ∧
      CompanionServerConfiguration.new deskEnvironment.unicode deskEnvironment.urls
        result.connection.baseUrl = .ok deskConfiguration := by
  have hclaimed := desk_usable.claimPairing
  rw [desk_claim] at hclaimed
  obtain ⟨⟨configuration, hserver, hstored⟩, -⟩ := PairingEnvironment.claimed_connection_is_usable
    deskUrls_documented UnicodeData.ascii_nfcClosed hclaimed rfl
  obtain rfl := Except.ok.inj (hserver.symm.trans desk_usable.server)
  exact ⟨_, _, hclaimed, rfl, rfl, hstored⟩

end YohakuCore
