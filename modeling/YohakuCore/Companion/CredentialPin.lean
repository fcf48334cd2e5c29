import YohakuCore.Companion.Service
import YohakuCore.Protocol.Wire
import YohakuCore.Store.KeyedStores

/-!
# The credential backend over many processes

A process selects its credential store once, at the first use: the first candidate whose probe
passes, the pinned backend first. It pins what it selected. Pairing writes the token to the selected
store and then the connection with its backend. A process may end between any two steps; what a
probe and a write meet is part of the event.
-/

namespace YohakuCore

open Framework

/-- The probe of a backend: its verdict, and what it leaves under the probe's id. -/
structure Probe where
  passes : Bool
  leaves : Option String
  deriving DecidableEq

def candidateOrder : Option CredentialBackend → List CredentialBackend
  | some .dpapi => [.dpapi, .keyring]
  | _ => [.keyring, .dpapi]

/-- The first candidate whose round trip succeeds; with none, the store is unavailable. -/
def selectCredentialStore (preferred : Option CredentialBackend)
    (probes : CredentialBackend → Probe) : Option CredentialBackend :=
  (candidateOrder preferred).find? (fun backend => (probes backend).passes)

/-- A candidate is probed when no candidate before it passes. -/
def isProbed (preferred : Option CredentialBackend) (probes : CredentialBackend → Probe)
    (backend : CredentialBackend) : Bool :=
  ((candidateOrder preferred).takeWhile (· ≠ backend)).all (fun b => !(probes b).passes)

/-- Where the token of the stored connection was written, and whether no unpairing has deleted it
there. No code reads this. -/
structure TokenRecord where
  backend : CredentialBackend
  kept : Bool
  deriving DecidableEq

/-- The durable files, and what the running process holds: its memoized selection, the pairings
whose token is set, and the devices of the unpairings under way. -/
structure Backends where
  config : FullCoreConfig
  tokens : CredentialBackend → String → Option String
  written : Option TokenRecord
  selection : Option (Option CredentialBackend)
  claimed : List PairingResult
  unpairing : List String

inductive BackendEvent where
  | restart
  | select (probes : CredentialBackend → Probe) (pinWrites : Bool)
  | setToken (result : PairingResult) (succeeds : Bool)
  | commit (result : PairingResult) (writes : Bool)
  | setLiveDesk (enabled writes : Bool)
  | setPrivacy (privacy : PrivacyConfig) (writes : Bool)
  | unpair
  | deleteToken (deviceId : String) (succeeds : Bool)
  | forget (deviceId : String) (writes : Bool)

namespace Backends

/-- A machine that is not paired, with any pin and any stored tokens. -/
def opened (config : FullCoreConfig) (tokens : CredentialBackend → String → Option String) :
    Backends where
  config := { config with connection := none }
  tokens := tokens
  written := none
  selection := none
  claimed := []
  unpairing := []

/-- `ConfigStore::update` with an update that is valid: all or nothing. -/
def update (s : Backends) (config : FullCoreConfig) (writes : Bool) : Backends :=
  if writes then { s with config := config } else s

/-- The memoized selection. A pin that cannot be stored is not fatal. -/
def select (s : Backends) (probes : CredentialBackend → Probe) (pinWrites : Bool) : Backends :=
  let preferred := s.config.credentialBackend
  let tokens := fun backend deviceId =>
    if isProbed preferred probes backend ∧ deviceId = probeDeviceId then (probes backend).leaves
    else s.tokens backend deviceId
  match selectCredentialStore preferred probes with
  | none => { s with tokens := tokens, selection := some none }
  | some backend =>
      { s with
        tokens := tokens
        selection := some (some backend)
        config :=
          if preferred ≠ some backend ∧ pinWrites then
            { s.config with credentialBackend := some backend }
          else s.config }

/-- A claimed device id is a wire identifier: other responses do not decode. -/
def setToken (s : Backends) (backend : CredentialBackend) (result : PairingResult)
    (succeeds : Bool) : Option Backends :=
  if isValidWireIdentifier result.deviceId then
    if succeeds then
      some { s with
        tokens := Function.update s.tokens backend
          (Function.update (s.tokens backend) result.deviceId (some result.deviceToken))
        claimed := result :: s.claimed }
    else some s
  else none

/-- The token is in its store before the connection is. -/
def commit (s : Backends) (backend : CredentialBackend) (result : PairingResult)
    (writes : Bool) : Option Backends :=
  if result ∈ s.claimed then
    some { s with
      config :=
        if writes then
          { s.config with
            credentialBackend := some backend
            connection := some result.connection }
        else s.config
      written :=
        if writes then some ⟨backend, (s.tokens backend result.deviceId).isSome⟩ else s.written
      claimed := s.claimed.erase result }
  else none

/-- The tokens of other devices stay, and so do those of the other backend. -/
def deleteToken (s : Backends) (backend : CredentialBackend) (deviceId : String)
    (succeeds : Bool) : Option Backends :=
  if deviceId ∈ s.unpairing then
    if succeeds then
      some { s with
        tokens := Function.update s.tokens backend
          (Function.update (s.tokens backend) deviceId none)
        written := s.written.map (fun record =>
          { record with
            kept := record.kept && !(record.backend = backend ∧
              s.config.connection.map StoredConnection.deviceId = some deviceId) }) }
    else some s
  else none

def step (s : Backends) : BackendEvent → Option Backends
  | .restart => some { s with selection := none, claimed := [], unpairing := [] }
  | .select probes pinWrites =>
      if s.selection = none then some (s.select probes pinWrites) else none
  | .setToken result succeeds =>
      s.selection.join.bind (fun backend => s.setToken backend result succeeds)
  | .commit result writes =>
      s.selection.join.bind (fun backend => s.commit backend result writes)
  | .setLiveDesk enabled writes =>
      some (s.update { s.config with toCoreConfig := s.config.toCoreConfig.setLiveDesk enabled }
        writes)
  | .setPrivacy privacy writes => some (s.update { s.config with privacy := privacy } writes)
  | .unpair =>
      s.config.connection.map (fun connection =>
        { s with unpairing := connection.deviceId :: s.unpairing })
  | .deleteToken deviceId succeeds =>
      s.selection.join.bind (fun backend => s.deleteToken backend deviceId succeeds)
  | .forget deviceId writes =>
      if deviceId ∈ s.unpairing then
        some { s.update { s.config with connection := none } writes with
          unpairing := s.unpairing.erase deviceId }
      else none

/-- The next process in which the backend of the connection's token passes its probe selects that
backend, and so finds the token unless an unpairing has deleted it. -/
def Keeps (s : Backends) : Prop :=
  ∀ connection record, s.config.connection = some connection → s.written = some record →
    ∀ probes pinWrites, (probes record.backend).passes = true →
      ∃ s', exec step s [.restart, .select probes pinWrites] = some s' ∧
        s'.selection = some (some record.backend) ∧
        (record.kept = true → (s'.tokens record.backend connection.deviceId).isSome)

/-- The selection finds the backend of the connection's token failing and the other one passing, and
stores the new pin. -/
def LosesPin (s : Backends) (e : BackendEvent) : Prop :=
  ∃ connection record probes, s.config.connection = some connection ∧ s.written = some record ∧
    e = .select probes true ∧ (probes record.backend).passes = false ∧
    ∃ other, (probes other).passes = true

/-- The pin names the backend of the connection's token. -/
def Pinned (s : Backends) : Prop :=
  ∀ connection, s.config.connection = some connection →
    ∃ record, s.written = some record ∧ s.config.credentialBackend = some record.backend ∧
      isValidWireIdentifier connection.deviceId = true ∧
      (record.kept = true → (s.tokens record.backend connection.deviceId).isSome)

theorem selectCredentialStore_pinned {backend : CredentialBackend}
    {probes : CredentialBackend → Probe} (h : (probes backend).passes = true) :
    selectCredentialStore (some backend) probes = some backend := by
  cases backend <;> simp [selectCredentialStore, candidateOrder, h]

theorem selectCredentialStore_passes {preferred : Option CredentialBackend}
    {backend : CredentialBackend} {probes : CredentialBackend → Probe}
    (h : selectCredentialStore preferred probes = some backend) :
    (probes backend).passes = true := by
  rw [selectCredentialStore] at h
  simpa using List.find?_some h

theorem selectCredentialStore_other {preferred : Option CredentialBackend}
    {backend other : CredentialBackend} {probes : CredentialBackend → Probe}
    (h : (probes backend).passes = false) (hother : (probes other).passes = true) :
    selectCredentialStore preferred probes = some other ∧ other ≠ backend := by
  have hne : other ≠ backend := by
    rintro rfl
    simp [h] at hother
  refine ⟨?_, hne⟩
  rcases preferred with _ | _ | _ <;> cases backend <;> cases other <;>
    simp_all [selectCredentialStore, candidateOrder]

theorem not_valid_probe : isValidWireIdentifier probeDeviceId = false := by
  decide +kernel

theorem select_tokens {s : Backends} {probes : CredentialBackend → Probe} {pinWrites : Bool}
    {deviceId : String} (hid : isValidWireIdentifier deviceId = true)
    (backend : CredentialBackend) :
    (s.select probes pinWrites).tokens backend deviceId = s.tokens backend deviceId := by
  have hne : deviceId ≠ probeDeviceId := by
    rintro rfl
    simp [not_valid_probe] at hid
  rw [select]
  cases selectCredentialStore s.config.credentialBackend probes <;> simp [hne]

theorem select_connection (s : Backends) (probes : CredentialBackend → Probe)
    (pinWrites : Bool) :
    (s.select probes pinWrites).config.connection = s.config.connection ∧
      (s.select probes pinWrites).written = s.written ∧
      (s.select probes pinWrites).selection =
        some (selectCredentialStore s.config.credentialBackend probes) := by
  rw [select]
  cases selectCredentialStore s.config.credentialBackend probes with
  | none => simp
  | some backend =>
      refine ⟨?_, rfl, rfl⟩
      dsimp only
      split <;> rfl

theorem select_pin (s : Backends) (probes : CredentialBackend → Probe) (pinWrites : Bool) :
    (s.select probes pinWrites).config.credentialBackend =
      match selectCredentialStore s.config.credentialBackend probes with
      | none => s.config.credentialBackend
      | some backend => if pinWrites then some backend else s.config.credentialBackend := by
  rw [select]
  cases selectCredentialStore s.config.credentialBackend probes with
  | none => rfl
  | some backend =>
      by_cases hpin : s.config.credentialBackend = some backend
      · simp [hpin]
      · cases pinWrites <;> simp [hpin]

theorem exec_next (s : Backends) (probes : CredentialBackend → Probe) (pinWrites : Bool) :
    exec step s [.restart, .select probes pinWrites] =
      some (select { s with selection := none, claimed := [], unpairing := [] } probes
        pinWrites) := by
  simp [exec, step]

theorem Pinned.keeps {s : Backends} (h : s.Pinned) : s.Keeps := by
  intro connection record hconnection hwritten probes pinWrites hpasses
  obtain ⟨_, hrecord, hpin, hid, hkept⟩ := h connection hconnection
  obtain rfl := Option.some.inj (hwritten.symm.trans hrecord)
  refine ⟨_, exec_next s probes pinWrites, ?_, ?_⟩
  · rw [(select_connection _ _ _).2.2, hpin, selectCredentialStore_pinned hpasses]
  · rwa [select_tokens hid]

/-- After such a selection, the next process in which both backends pass reads the other one. -/
theorem LosesPin.not_keeps {s s' : Backends} {e : BackendEvent} (h : s.LosesPin e)
    (hstep : s.step e = some s') : ¬ s'.Keeps := by
  obtain ⟨connection, record, probes, hconnection, hwritten, rfl, hfails, other, hpasses⟩ := h
  obtain ⟨hselected, hne⟩ :=
    @selectCredentialStore_other s.config.credentialBackend _ _ _ hfails hpasses
  rw [step] at hstep
  split at hstep
  · obtain rfl := Option.some.inj hstep
    obtain ⟨hsame, hrecord, -⟩ := select_connection s probes true
    intro hkeeps
    obtain ⟨s', hexec, hselection, -⟩ := hkeeps connection record (hsame.trans hconnection)
      (hrecord.trans hwritten) (fun _ => ⟨true, none⟩) true rfl
    rw [exec_next] at hexec
    obtain rfl := Option.some.inj hexec
    rw [(select_connection _ _ _).2.2] at hselection
    simp only [select_pin, hselected, if_true, Option.some.injEq] at hselection
    rw [selectCredentialStore_pinned rfl] at hselection
    exact hne (Option.some.inj hselection)
  · contradiction

theorem Pinned.update {s : Backends} (h : s.Pinned) {config : FullCoreConfig} {writes : Bool}
    (hpin : config.credentialBackend = s.config.credentialBackend)
    (hconnection : ∀ connection, config.connection = some connection →
      ∃ before, s.config.connection = some before ∧ before.deviceId = connection.deviceId) :
    (s.update config writes).Pinned := by
  cases writes with
  | false => exact h
  | true =>
      intro connection hsome
      obtain ⟨before, hbefore, hid⟩ := hconnection connection hsome
      obtain ⟨record, hwritten, hrecord, hvalid, hkept⟩ := h before hbefore
      rw [hid] at hvalid hkept
      exact ⟨record, hwritten, hpin.trans hrecord, hvalid, hkept⟩

theorem step_setToken {s s' : Backends} {result : PairingResult} {succeeds : Bool}
    (h : s.step (.setToken result succeeds) = some s') :
    isValidWireIdentifier result.deviceId = true ∧ (s' = s ∨ ∃ backend,
      s' = { s with
        tokens := Function.update s.tokens backend
          (Function.update (s.tokens backend) result.deviceId (some result.deviceToken))
        claimed := result :: s.claimed }) := by
  obtain ⟨backend, -, hset⟩ := Option.bind_eq_some_iff.mp h
  simp only [setToken, Option.ite_none_right_eq_some] at hset
  obtain ⟨hvalid, hset⟩ := hset
  cases succeeds with
  | false => exact ⟨hvalid, Or.inl (Option.some.inj hset).symm⟩
  | true => exact ⟨hvalid, Or.inr ⟨backend, (Option.some.inj hset).symm⟩⟩

theorem step_deleteToken {s s' : Backends} {deviceId : String} {succeeds : Bool}
    (h : s.step (.deleteToken deviceId succeeds) = some s') :
    s' = s ∨ ∃ backend,
      s' = { s with
        tokens := Function.update s.tokens backend
          (Function.update (s.tokens backend) deviceId none)
        written := s.written.map (fun record =>
          { record with
            kept := record.kept && !(record.backend = backend ∧
              s.config.connection.map StoredConnection.deviceId = some deviceId) }) } := by
  obtain ⟨backend, -, hdelete⟩ := Option.bind_eq_some_iff.mp h
  simp only [deleteToken, Option.ite_none_right_eq_some] at hdelete
  obtain ⟨-, hdelete⟩ := hdelete
  cases succeeds with
  | false => exact Or.inl (Option.some.inj hdelete).symm
  | true => exact Or.inr ⟨backend, (Option.some.inj hdelete).symm⟩

/-- A claimed device is no probe. -/
def ClaimsValid (s : Backends) : Prop :=
  ∀ result ∈ s.claimed, isValidWireIdentifier result.deviceId = true

theorem ClaimsValid.step {s s' : Backends} {e : BackendEvent} (h : s.ClaimsValid)
    (hstep : s.step e = some s') : s'.ClaimsValid := by
  have hupdate (config : FullCoreConfig) (writes : Bool) :
      (s.update config writes).ClaimsValid := by
    cases writes <;> exact h
  cases e with
  | restart =>
      obtain rfl := Option.some.inj hstep
      simp [ClaimsValid]
  | select probes pinWrites =>
      simp only [Backends.step, Option.ite_none_right_eq_some, Option.some.injEq] at hstep
      obtain ⟨-, rfl⟩ := hstep
      rw [select]
      cases selectCredentialStore s.config.credentialBackend probes <;> exact h
  | setToken result succeeds =>
      obtain ⟨hvalid, rfl | ⟨backend, rfl⟩⟩ := step_setToken hstep
      · exact h
      · intro claimed hclaimed
        rcases List.mem_cons.mp hclaimed with rfl | hclaimed
        · exact hvalid
        · exact h claimed hclaimed
  | commit result writes =>
      obtain ⟨backend, -, hcommit⟩ := Option.bind_eq_some_iff.mp hstep
      simp only [commit, Option.ite_none_right_eq_some, Option.some.injEq] at hcommit
      obtain ⟨-, rfl⟩ := hcommit
      intro claimed hclaimed
      exact h claimed (List.mem_of_mem_erase hclaimed)
  | setLiveDesk enabled writes =>
      obtain rfl := Option.some.inj hstep
      exact hupdate _ _
  | setPrivacy privacy writes =>
      obtain rfl := Option.some.inj hstep
      exact hupdate _ _
  | unpair =>
      obtain ⟨connection, -, rfl⟩ := Option.map_eq_some_iff.mp hstep
      exact h
  | deleteToken deviceId succeeds =>
      obtain rfl | ⟨backend, rfl⟩ := step_deleteToken hstep
      · exact h
      · exact h
  | forget deviceId writes =>
      simp only [Backends.step, Option.ite_none_right_eq_some, Option.some.injEq] at hstep
      obtain ⟨-, rfl⟩ := hstep
      exact hupdate _ _

theorem Pinned.select {s : Backends} (h : s.Pinned) {probes : CredentialBackend → Probe}
    {pinWrites : Bool} (hnot : ¬ s.LosesPin (.select probes pinWrites)) :
    (s.select probes pinWrites).Pinned := by
  obtain ⟨hsame, hrecord, -⟩ := select_connection s probes pinWrites
  intro connection hconnection
  rw [hsame] at hconnection
  obtain ⟨record, hwritten, hpin, hid, hkept⟩ := h connection hconnection
  refine ⟨record, hrecord.trans hwritten, ?_, hid, ?_⟩
  · rw [select_pin]
    by_cases hpasses : (probes record.backend).passes = true
    · rw [hpin, selectCredentialStore_pinned hpasses]
      cases pinWrites <;> rfl
    · cases hselected : selectCredentialStore s.config.credentialBackend probes with
      | none => exact hpin
      | some other =>
          have hother := selectCredentialStore_passes hselected
          cases pinWrites with
          | false => exact hpin
          | true =>
              exact absurd ⟨connection, record, probes, hconnection, hwritten, rfl,
                Bool.eq_false_iff.mpr hpasses, other, hother⟩ hnot
  · rwa [select_tokens hid]

theorem Pinned.step {s s' : Backends} {e : BackendEvent} (h : s.Pinned) (hclaims : s.ClaimsValid)
    (hnot : ¬ s.LosesPin e) (hstep : s.step e = some s') : s'.Pinned := by
  cases e with
  | restart =>
      obtain rfl := Option.some.inj hstep
      exact h
  | select probes pinWrites =>
      simp only [Backends.step, Option.ite_none_right_eq_some, Option.some.injEq] at hstep
      obtain ⟨-, rfl⟩ := hstep
      exact h.select hnot
  | setToken result succeeds =>
      obtain ⟨-, rfl | ⟨backend, rfl⟩⟩ := step_setToken hstep
      · exact h
      · intro connection hconnection
        obtain ⟨record, hwritten, hpin, hid, hkept⟩ := h connection hconnection
        refine ⟨record, hwritten, hpin, hid, ?_⟩
        intro hk
        have htoken := hkept hk
        by_cases hbackend : record.backend = backend <;>
          by_cases hdevice : connection.deviceId = result.deviceId <;>
            simp_all
  | commit result writes =>
      obtain ⟨backend, -, hcommit⟩ := Option.bind_eq_some_iff.mp hstep
      simp only [commit, Option.ite_none_right_eq_some, Option.some.injEq] at hcommit
      obtain ⟨hclaimed, rfl⟩ := hcommit
      cases writes with
      | false => exact h
      | true =>
          intro connection hconnection
          obtain rfl := Option.some.inj hconnection
          exact ⟨_, rfl, rfl, hclaims result hclaimed, fun hkept => hkept⟩
  | setLiveDesk enabled writes =>
      obtain rfl := Option.some.inj hstep
      refine h.update rfl ?_
      intro connection hconnection
      obtain ⟨before, hbefore, rfl⟩ := Option.map_eq_some_iff.mp hconnection
      exact ⟨before, hbefore, rfl⟩
  | setPrivacy privacy writes =>
      obtain rfl := Option.some.inj hstep
      exact h.update rfl (fun connection hconnection => ⟨connection, hconnection, rfl⟩)
  | unpair =>
      obtain ⟨connection, -, rfl⟩ := Option.map_eq_some_iff.mp hstep
      exact h
  | deleteToken deviceId succeeds =>
      obtain rfl | ⟨backend, rfl⟩ := step_deleteToken hstep
      · exact h
      · intro connection hconnection
        obtain ⟨record, hwritten, hpin, hid, hkept⟩ := h connection hconnection
        refine ⟨_, congrArg (Option.map _) hwritten, hpin, hid, ?_⟩
        intro hk
        rw [Bool.and_eq_true] at hk
        have htoken := hkept hk.1
        by_cases hbackend : record.backend = backend <;>
          by_cases hdevice : connection.deviceId = deviceId <;>
            simp_all
  | forget deviceId writes =>
      simp only [Backends.step, Option.ite_none_right_eq_some, Option.some.injEq] at hstep
      obtain ⟨-, rfl⟩ := hstep
      exact h.update rfl (fun _ hconnection => nomatch hconnection)

/-- In a run of processes with pairings and unpairings, every state keeps the token of its
connection within reach of the next process exactly when no selection of the run stores the other
backend's pin. -/
theorem pin_keeps_token_iff (config : FullCoreConfig)
    (tokens : CredentialBackend → String → Option String) (es : List BackendEvent) :
    Throughout step (opened config tokens) es Keeps ↔
      EveryStep step (opened config tokens) es (fun s e _ => ¬ s.LosesPin e) := by
  constructor
  · intro hkeeps n s₁ e s₂ hat hloses
    exact hloses.not_keeps hat.step (hkeeps (n + 1) s₂ hat.after)
  · intro hmeets n s₁ hs₁
    have hprefix : EveryStep step (opened config tokens) (es.take n)
        (fun s e _ => ¬ s.LosesPin e) :=
      fun m t₁ e t₂ hat => hmeets m t₁ e t₂ hat.of_take.2
    have hinv : s₁.Pinned ∧ s₁.ClaimsValid := by
      refine EveryStep.invariant (I := fun s => s.Pinned ∧ s.ClaimsValid) ?_ ?_ hprefix hs₁
      · exact ⟨fun _ hconnection => (nomatch hconnection), fun _ hclaimed => (nomatch hclaimed)⟩
      · intro t₁ e t₂ ⟨hpinned, hclaims⟩ hnot hstep
        exact ⟨hpinned.step hclaims hnot hstep, hclaims.step hstep⟩
    exact hinv.1.keeps

def pairedResult : PairingResult where
  deviceId := "00000000-0000-4000-8000-000000000000"
  deviceToken := "token"
  scopes := []
  nextSequence := 0
  baseUrl := "https://example.com/"
  deviceName := "device"

def bothPass : CredentialBackend → Probe := fun _ => ⟨true, none⟩

def keyringFails : CredentialBackend → Probe
  | .keyring => ⟨false, none⟩
  | .dpapi => ⟨true, none⟩

def freshConfig : FullCoreConfig where
  privacy := defaultPrivacyConfig
  connection := none
  version := 1
  media := ⟨.auto⟩
  credentialBackend := none

/-- Two starts after the failure, the keyring works again and is not read. -/
theorem pin_orphans_keyringToken :
    ∃ s, exec step (opened freshConfig (fun _ _ => none))
        [.select bothPass true, .setToken pairedResult true, .commit pairedResult true, .restart,
          .select keyringFails true, .restart, .select bothPass true] = some s ∧
      s.config.connection = some pairedResult.connection ∧
      s.tokens .keyring pairedResult.deviceId = some "token" ∧
      s.selection = some (some .dpapi) ∧ s.tokens .dpapi pairedResult.deviceId = none := by
  refine ⟨_, rfl, ?_, ?_, ?_, ?_⟩ <;> decide +kernel

end Backends

end YohakuCore
