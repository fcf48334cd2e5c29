import YohakuCore.Companion.FlagAgreement

/-!
# The pairing a consent enables

A consent looks at the stored connection once, for its presence, and its write enables whatever
connection it finds then.
-/

namespace YohakuCore

open Framework

variable {u : UnicodeData} {sha256Hex : String → String}

namespace Service

/-- A pair persists its connection. -/
def PersistsPairing (s : Service) (e : ServiceEvent) : Prop :=
  ∃ id command result, e = .completed id true ∧
    s.tasks id = some { command := command, stage := .pairStore result }

/-- An unpair removes the connection. -/
def RemovesPairing (s : Service) (e : ServiceEvent) : Prop :=
  ∃ id command, e = .completed id true ∧
    s.tasks id = some { command := command, stage := .unpairForget }

/-- Where a connection was claimed, and as which device. -/
def claimOf (config : CoreConfig) : Option (String × String) :=
  config.connection.map (fun connection => (connection.baseUrl, connection.deviceId))

theorem claimOf_setLiveDesk (config : CoreConfig) (enabled : Bool) :
    claimOf (config.setLiveDesk enabled) = claimOf config := by
  rw [claimOf, CoreConfig.setLiveDesk, claimOf, Option.map_map]
  rfl

theorem claimOf_eq_none {config : CoreConfig} : claimOf config = none ↔ config.connection = none :=
  Option.map_eq_none_iff

theorem connected_of_claimOf_eq {config config' : CoreConfig}
    (h : claimOf config' = claimOf config) :
    config'.connection ≠ none ↔ config.connection ≠ none := by
  rw [ne_eq, ne_eq, ← claimOf_eq_none, h, claimOf_eq_none]

theorem step_pairing {s s' : Service} {e : ServiceEvent} (h : s.step u sha256Hex e = some s') :
    claimOf s'.config = claimOf s.config ∨ s.PersistsPairing e ∨
      (s.RemovesPairing e ∧ s'.config.connection = none) := by
  cases step_connection h with
  | kept hconnection =>
      left
      rw [claimOf, hconnection, claimOf]
  | written id command stage next he htask hwrite =>
      have hflag (enabled : Bool) (hconfig : s.config.setLiveDesk enabled = s'.config) :
          claimOf s'.config = claimOf s.config := by
        rw [← hconfig]
        exact claimOf_setLiveDesk s.config enabled
      cases stage with
      | enable candidate => exact Or.inl (hflag true (Prod.mk.inj (Option.some.inj hwrite)).1)
      | rollback => exact Or.inl (hflag false (Prod.mk.inj (Option.some.inj hwrite)).1)
      | disable => exact Or.inl (hflag false (Prod.mk.inj (Option.some.inj hwrite)).1)
      | unpairDisable deviceId =>
          exact Or.inl (hflag false (Prod.mk.inj (Option.some.inj hwrite)).1)
      | pairToken result =>
          left
          rw [← (Prod.mk.inj (Option.some.inj hwrite)).1]
      | pairStore result => exact Or.inr (Or.inl ⟨id, command, result, he, htask⟩)
      | unpairForget =>
          refine Or.inr (Or.inr ⟨⟨id, command, he, htask⟩, ?_⟩)
          rw [← (Prod.mk.inj (Option.some.inj hwrite)).1]
      | _ => contradiction

theorem RemovesPairing.connection {s s' : Service} {e : ServiceEvent}
    (hremoves : s.RemovesPairing e) (h : s.step u sha256Hex e = some s') :
    s'.config.connection = none := by
  obtain ⟨id, command, rfl, htask⟩ := hremoves
  rw [step_written h htask rfl]
  rfl

section

variable (u sha256Hex) (origin : Service) (es : List ServiceEvent)

/-- After the run the stored connection is of the pairing `k`: the step before the instant `k`
persisted it, or `k` is 0 and it was found at the start; since then no pairing was persisted and
none removed. -/
structure HoldsPairing (k : Nat) : Prop where
  connected : ∃ s, exec (Service.step u sha256Hex) origin es = some s ∧
    s.config.connection ≠ none
  persisted : k = 0 ∨ ∃ m s₁ e s₂, k = m + 1 ∧
    StepAt (Service.step u sha256Hex) origin es m s₁ e s₂ ∧ s₁.PersistsPairing e
  kept : ∀ m s₁ e s₂, k ≤ m → StepAt (Service.step u sha256Hex) origin es m s₁ e s₂ →
    ¬ s₁.PersistsPairing e ∧ ¬ s₁.RemovesPairing e

/-- From instant `n` on no pair persists its connection. -/
def NonePersistedSince (n : Nat) : Prop :=
  ∀ m s₁ e s₂, n ≤ m → StepAt (Service.step u sha256Hex) origin es m s₁ e s₂ →
    ¬ s₁.PersistsPairing e

/-- From instant `n` on no unpair removes the connection. -/
def NoneRemovedSince (n : Nat) : Prop :=
  ∀ m s₁ e s₂, n ≤ m → StepAt (Service.step u sha256Hex) origin es m s₁ e s₂ →
    ¬ s₁.RemovesPairing e

/-- The pairing that is stored after the run was stored at instant `n`, with the same base URL and
device. -/
def SamePairing (n : Nat) : Prop :=
  ∃ k s s', HoldsPairing u sha256Hex origin (es.take n) k ∧ HoldsPairing u sha256Hex origin es k ∧
    exec (Service.step u sha256Hex) origin (es.take n) = some s ∧
    exec (Service.step u sha256Hex) origin es = some s' ∧ claimOf s'.config = claimOf s.config

end

section

variable {origin s : Service} {es : List ServiceEvent}

theorem exists_holdsPairing (h : exec (Service.step u sha256Hex) origin es = some s)
    (hconnected : s.config.connection ≠ none) :
    ∃ k, HoldsPairing u sha256Hex origin es k := by
  revert hconnected
  refine exec_induction (P := fun es s => s.config.connection ≠ none →
    ∃ k, HoldsPairing u sha256Hex origin es k) ?_ ?_ h
  · intro hconnected
    refine ⟨0, ⟨origin, rfl, hconnected⟩, Or.inl rfl, ?_⟩
    intro m s₁ e s₂ _ hat
    exact absurd hat.lt_length (Nat.not_lt_zero m)
  · intro es s₁ e s₂ hs₁ ih hstep hconnected
    have hrun : exec (Service.step u sha256Hex) origin (es ++ [e]) = some s₂ :=
      exec_concat_eq_some.mpr ⟨s₁, hs₁, hstep⟩
    by_cases hpersists : s₁.PersistsPairing e
    · refine ⟨es.length + 1, ⟨s₂, hrun, hconnected⟩,
        Or.inr ⟨es.length, s₁, e, s₂, rfl, StepAt.last hs₁ hstep, hpersists⟩, ?_⟩
      intro m t₁ f t₂ hle hat
      have hlt := hat.lt_length
      rw [List.length_append, List.length_singleton] at hlt
      omega
    · have hnot : ¬ s₁.RemovesPairing e := fun hremoves =>
        hconnected (hremoves.connection hstep)
      have hbefore : s₁.config.connection ≠ none := by
        rcases step_pairing hstep with hsame | hpersists' | ⟨hremoves, -⟩
        · exact (connected_of_claimOf_eq hsame).mp hconnected
        · exact absurd hpersists' hpersists
        · exact absurd hremoves hnot
      obtain ⟨k, -, hpersisted, hkept⟩ := ih hbefore
      refine ⟨k, ⟨s₂, hrun, hconnected⟩, ?_, ?_⟩
      · refine hpersisted.imp_right ?_
        rintro ⟨m, t₁, f, t₂, hk, hat, hpersists'⟩
        exact ⟨m, t₁, f, t₂, hk, hat.append_right [e], hpersists'⟩
      · intro m t₁ f t₂ hle hat
        rcases hat.concat_cases hs₁ hstep with hbefore' | ⟨-, rfl, rfl, -⟩
        · exact hkept m t₁ f t₂ hle hbefore'
        · exact ⟨hpersists, hnot⟩

theorem disconnected_run {s' : Service} (hnone : s.config.connection = none)
    (hpersists : EveryStep (Service.step u sha256Hex) s es (fun t e _ => ¬ t.PersistsPairing e))
    (h : exec (Service.step u sha256Hex) s es = some s') : s'.config.connection = none := by
  refine EveryStep.invariant (I := fun t => t.config.connection = none) hnone ?_ hpersists h
  intro t₁ e t₂ ht₁ hcond hstep
  rcases step_pairing hstep with hsame | hpersists' | ⟨-, hremoved⟩
  · rw [← claimOf_eq_none, hsame]
    exact claimOf_eq_none.mpr ht₁
  · exact absurd hpersists' hcond
  · exact hremoved

theorem noneRemoved_of_connected {n : Nat}
    (h : exec (Service.step u sha256Hex) origin es = some s)
    (hconnected : s.config.connection ≠ none)
    (hpersists : NonePersistedSince u sha256Hex origin es n) :
    NoneRemovedSince u sha256Hex origin es n := by
  intro m s₁ e s₂ hle hat hremoves
  obtain ⟨t, ht, hrest⟩ := exec_take h (m + 1)
  obtain rfl : s₂ = t := Option.some.inj (hat.after.symm.trans ht)
  refine hconnected (disconnected_run (hremoves.connection hat.step) ?_ hrest)
  exact EveryStep.of_since ht (fun j t₁ f t₂ hj hat' => hpersists j t₁ f t₂ (by omega) hat')

/-- Without a new pairing and without a removal the claim stays. -/
theorem claimOf_run {s' : Service}
    (hkept : EveryStep (Service.step u sha256Hex) s es
      (fun t e _ => ¬ t.PersistsPairing e ∧ ¬ t.RemovesPairing e))
    (h : exec (Service.step u sha256Hex) s es = some s') :
    claimOf s'.config = claimOf s.config := by
  refine EveryStep.invariant (I := fun t => claimOf t.config = claimOf s.config) rfl ?_ hkept h
  intro t₁ e t₂ ht₁ hcond hstep
  rcases step_pairing hstep with hsame | hpersists | ⟨hremoves, -⟩
  · exact hsame.trans ht₁
  · exact absurd hpersists hcond.1
  · exact absurd hremoves hcond.2

theorem samePairing_of_none {n : Nat} {s₁ : Service}
    (h : exec (Service.step u sha256Hex) origin es = some s)
    (hs₁ : exec (Service.step u sha256Hex) origin (es.take n) = some s₁)
    (hconnected : s₁.config.connection ≠ none)
    (hpersists : NonePersistedSince u sha256Hex origin es n)
    (hremoves : NoneRemovedSince u sha256Hex origin es n) :
    SamePairing u sha256Hex origin es n := by
  obtain ⟨t, ht, hrest⟩ := exec_take h n
  obtain rfl : s₁ = t := Option.some.inj (hs₁.symm.trans ht)
  have hclaim := claimOf_run (EveryStep.of_since hs₁ (fun m t₁ e t₂ hle hat =>
    ⟨hpersists m t₁ e t₂ hle hat, hremoves m t₁ e t₂ hle hat⟩)) hrest
  have hconnected' := (connected_of_claimOf_eq hclaim).mpr hconnected
  obtain ⟨k, hheld, hpersisted, hkept⟩ := exists_holdsPairing hs₁ hconnected
  refine ⟨k, s₁, s, ⟨hheld, hpersisted, hkept⟩, ⟨⟨s, h, hconnected'⟩, ?_, ?_⟩, hs₁, h, hclaim⟩
  · refine hpersisted.imp_right ?_
    rintro ⟨m, t₁, f, t₂, hk, hat, hpersists'⟩
    exact ⟨m, t₁, f, t₂, hk, hat.of_take.2, hpersists'⟩
  · intro m t₁ f t₂ hle hat
    rcases Nat.lt_or_ge m n with hlt | hge
    · have hlen := hat.lt_length
      rw [← List.take_append_drop n es] at hat
      refine hkept m t₁ f t₂ hle (hat.of_append_right ?_)
      rw [List.length_take]
      omega
    · exact ⟨hpersists m t₁ f t₂ hge hat, hremoves m t₁ f t₂ hge hat⟩

theorem none_of_samePairing {n : Nat} (h : SamePairing u sha256Hex origin es n) :
    NonePersistedSince u sha256Hex origin es n ∧ NoneRemovedSince u sha256Hex origin es n := by
  obtain ⟨k, s, s', hbefore, hafter, -⟩ := h
  have hle : k ≤ n := by
    rcases hbefore.persisted with rfl | ⟨m, s₁, e, s₂, rfl, hat, -⟩
    · exact Nat.zero_le n
    · exact hat.of_take.1
  refine ⟨fun m s₁ e s₂ hm hat => ?_, fun m s₁ e s₂ hm hat => ?_⟩
  · exact (hafter.kept m s₁ e s₂ (le_trans hle hm) hat).1
  · exact (hafter.kept m s₁ e s₂ (le_trans hle hm) hat).2

end

section

variable (u sha256Hex) (origin : Service) (es : List ServiceEvent) (id : Nat) (ui : String)

/-- At instant `n` the consent finds a connection, and begins. -/
def EntersAt (n : Nat) : Prop :=
  ∃ s₁ s₂, GoesAt u sha256Hex origin es id (.confirmConsent ui) n s₁ .confirmEntry .confirmSlot s₂

/-- At instant `n` the consent passes its last validation. -/
def RevalidatesAt (n : Nat) : Prop :=
  ∃ s₁ s₂ candidate after now, GoesAt u sha256Hex origin es id (.confirmConsent ui) n s₁
    (.afterValidate candidate after now) .confirmStart s₂

end

section

variable {config : CoreConfig} {backing : String → Option Int} {es : List ServiceEvent} {id : Nat}
  {ui : String}

theorem goesAt_of_take {origin s₁ s₂ : Service} {command : Command} {n : Nat} {stage stage' : Stage}
    (hs₁ : exec (Service.step u sha256Hex) origin (es.take n) = some s₁)
    (hs₂ : exec (Service.step u sha256Hex) origin (es.take (n + 1)) = some s₂)
    (hlen : n < es.length)
    (hbefore : s₁.tasks id = some { command := command, stage := stage })
    (hafter : s₂.tasks id = some { command := command, stage := stage' }) :
    GoesAt u sha256Hex origin es id command n s₁ stage stage' s₂ := by
  have hevent := List.getElem?_eq_getElem hlen
  rw [List.take_add_one, hevent, Option.toList_some] at hs₂
  obtain ⟨t, ht, hstep⟩ := exec_concat_eq_some.mp hs₂
  obtain rfl : t = s₁ := Option.some.inj (ht.symm.trans hs₁)
  exact ⟨⟨es[n], hs₁, hevent, hstep⟩, hbefore, hafter⟩

theorem step_entry {s s' : Service} {e : ServiceEvent} (h : s.step u sha256Hex e = some s')
    (htask : s.tasks id = some { command := .confirmConsent ui, stage := .confirmEntry })
    (htask' : s'.tasks id = some { command := .confirmConsent ui, stage := .confirmSlot }) :
    s.config.connection ≠ none ∧ s'.config = s.config := by
  rcases step_segment h htask rfl with hkept | hadvance
  · rw [hkept] at htask'
    simp at htask'
  · refine ⟨?_, advance_config hadvance⟩
    intro hnone
    simp only [advance, htask, if_pos hnone] at hadvance
    obtain rfl := Option.some.inj hadvance
    rw [goto_tasks_self] at htask'
    simp at htask'

theorem connected_of_entry {origin s₁ s₂ : Service} {n : Nat}
    (h : GoesAt u sha256Hex origin es id (.confirmConsent ui) n s₁ .confirmEntry .confirmSlot s₂) :
    s₁.config.connection ≠ none := by
  obtain ⟨e, hat⟩ := h.step
  exact (step_entry hat.step h.before h.after).1

theorem entered_before {n : Nat} {s₁ s₂ : Service} {stage stage' : Stage}
    (h : GoesAt u sha256Hex (new u sha256Hex config backing) es id (.confirmConsent ui) n s₁ stage
      stage' s₂) (hrank : 1 ≤ stage.rank ∧ stage.rank ≤ 12) :
    ∃ m t₁ t₂, m < n ∧
      GoesAt u sha256Hex (new u sha256Hex config backing) es id (.confirmConsent ui) m t₁
        .confirmEntry .confirmSlot t₂ := by
  obtain ⟨m, t₁, t₂, stage₁, stage₂, hlt, hgoes, hbefore, hafter, hsegment, -⟩ :=
    h.earlier_of (S := fun stage => 1 ≤ stage.rank ∧ stage.rank ≤ 12) (by simp [Stage.rank]) hrank
  cases hsegment with
  | entry => exact ⟨m, t₁, t₂, hlt, hgoes⟩
  | _ => simp [Stage.rank] at hbefore hafter

theorem enters_unique {m n : Nat}
    (hm : EntersAt u sha256Hex (new u sha256Hex config backing) es id ui m)
    (hn : EntersAt u sha256Hex (new u sha256Hex config backing) es id ui n) : m = n := by
  obtain ⟨s₁, s₂, hm⟩ := hm
  obtain ⟨t₁, t₂, hn⟩ := hn
  exact hm.unique hn rfl (Nat.lt_succ_self _) (Nat.lt_succ_self _)

/-- Where a consent's write takes effect, it enables the pairing that was stored when the consent
began if and only if no pair has persisted another in between. A consent that returned `Ok` began
under the pairing that is stored at its last validation if and only if none was persisted and none
removed in between. -/
theorem consent_bound_iff {s : Service}
    (hrun : exec (Service.step u sha256Hex) (new u sha256Hex config backing) es = some s) :
    (∀ w s₁, EnablesAt u sha256Hex (new u sha256Hex config backing) es id ui w →
      exec (Service.step u sha256Hex) (new u sha256Hex config backing) (es.take w) = some s₁ →
      s₁.config.connection ≠ none →
      ∃ n, n < w ∧ EntersAt u sha256Hex (new u sha256Hex config backing) es id ui n ∧
        (∀ n', EntersAt u sha256Hex (new u sha256Hex config backing) es id ui n' → n' = n) ∧
        (SamePairing u sha256Hex (new u sha256Hex config backing) (es.take w) n ↔
          NonePersistedSince u sha256Hex (new u sha256Hex config backing) (es.take w) n)) ∧
    (s.tasks id = some { command := .confirmConsent ui, stage := .returned (.ok none) } →
      ∃ n v, n < v ∧ EntersAt u sha256Hex (new u sha256Hex config backing) es id ui n ∧
        (∀ n', EntersAt u sha256Hex (new u sha256Hex config backing) es id ui n' → n' = n) ∧
        RevalidatesAt u sha256Hex (new u sha256Hex config backing) es id ui v ∧
        (SamePairing u sha256Hex (new u sha256Hex config backing) (es.take v) n ↔
          NonePersistedSince u sha256Hex (new u sha256Hex config backing) (es.take v) n ∧
          NoneRemovedSince u sha256Hex (new u sha256Hex config backing) (es.take v) n)) := by
  have htake {n w : Nat} (hlt : n < w) : (es.take w).take n = es.take n := by
    rw [List.take_take, Nat.min_eq_left hlt.le]
  refine ⟨?_, ?_⟩
  · rintro w s₁ ⟨t₁, t₂, candidate, hwrite⟩ hs₁ hconnected
    obtain ⟨n, r₁, r₂, hlt, henter⟩ := entered_before hwrite (by simp [Stage.rank])
    obtain ⟨e, hat⟩ := henter.step
    refine ⟨n, hlt, ⟨r₁, r₂, henter⟩, fun n' hn' => enters_unique hn' ⟨r₁, r₂, henter⟩, ?_, ?_⟩
    · exact fun hsame => (none_of_samePairing hsame).1
    · intro hnone
      exact samePairing_of_none hs₁ (htake hlt ▸ hat.before) (connected_of_entry henter) hnone
        (noneRemoved_of_connected hs₁ hconnected hnone)
  · intro hok
    obtain ⟨i, slot, before, after, hpath⟩ := confirm_path hrun hok
    obtain ⟨t₁, t₂, -, hlast⟩ := hpath.revalidated
    obtain ⟨n, r₁, r₂, hlt, henter⟩ := entered_before hlast (by simp [Stage.rank])
    obtain ⟨e, hat⟩ := henter.step
    obtain ⟨f, hatLast⟩ := hlast.step
    refine ⟨n, i.revalidated, hlt, ⟨r₁, r₂, henter⟩,
      fun n' hn' => enters_unique hn' ⟨r₁, r₂, henter⟩, ⟨t₁, t₂, _, _, _, hlast⟩, ?_, ?_⟩
    · exact none_of_samePairing
    · rintro ⟨hpersists, hremoves⟩
      exact samePairing_of_none hatLast.before (htake hlt ▸ hat.before)
        (connected_of_entry henter) hpersists hremoves

/-- A consent with nothing in between. -/
def consentedOnly : List ServiceEvent :=
  previewedBy 0 "editor" ++ clickedBy 1 "digest" ++ capturedBy 1 "editor" ++ enabledBy 1 "editor"

theorem consent_bound_consentedOnly :
    ∃ s n v,
      exec (Service.step UnicodeData.ascii (fun _ => "digest")) paired consentedOnly = some s ∧
      s.tasks 1 = some { command := .confirmConsent "digest", stage := .returned (.ok none) } ∧
      EntersAt UnicodeData.ascii (fun _ => "digest") paired consentedOnly 1 "digest" n ∧
      RevalidatesAt UnicodeData.ascii (fun _ => "digest") paired consentedOnly 1 "digest" v ∧
      (SamePairing UnicodeData.ascii (fun _ => "digest") paired (consentedOnly.take v) n ↔
        NonePersistedSince UnicodeData.ascii (fun _ => "digest") paired (consentedOnly.take v) n ∧
        NoneRemovedSince UnicodeData.ascii (fun _ => "digest") paired (consentedOnly.take v)
          n) := by
  have hrun : ∃ s,
      exec (Service.step UnicodeData.ascii (fun _ => "digest")) paired consentedOnly = some s ∧
      s.tasks 1 = some { command := .confirmConsent "digest", stage := .returned (.ok none) } :=
    ⟨_, rfl, rfl⟩
  obtain ⟨s, hs, hok⟩ := hrun
  obtain ⟨n, v, -, henters, -, hlast, hiff⟩ := (consent_bound_iff hs).2 hok
  exact ⟨s, n, v, hs, hok, henters, hlast, hiff⟩

def otherPairing : PairingResult where
  deviceId := "other"
  deviceToken := "token"
  scopes := []
  nextSequence := 1
  baseUrl := "https://other.example"
  deviceName := "PC"

/-- A whole pair, with the coordinator's shutdown `0` and its preview. -/
def pairedBy (id : Nat) (result : PairingResult) (app : String) : List ServiceEvent :=
  [.called id .pair, .completed id true, .claimed id (.ok result), .advance id,
    .desk (.coordinator (.shutdownJoined 0 0)), .desk (.coordinator (.shutdownFinish 0)),
    .advance id, .advance id, .completed id true, .completed id true, .advance id, .readPrivacy id,
    .captured id (foregroundApp app) ⟨none⟩, .advance id, .advance id]

/-- A pair with another server between a consent's first validation and its write. -/
def pairedDuringConsent : List ServiceEvent :=
  previewedBy 0 "editor" ++ clickedBy 1 "digest" ++ capturedBy 1 "editor" ++
    pairedBy 2 otherPairing "editor" ++ enabledBy 1 "editor"

/-- The consent begun under the first pairing enables the second, and returns `Ok`. -/
theorem consent_enables_otherPairing :
    ∃ s n w s₁,
      exec (Service.step UnicodeData.ascii (fun _ => "digest")) paired pairedDuringConsent =
        some s ∧
      s.tasks 1 = some { command := .confirmConsent "digest", stage := .returned (.ok none) } ∧
      s.config.connection = some { otherPairing.connection with liveDeskEnabled := true } ∧
      EntersAt UnicodeData.ascii (fun _ => "digest") paired pairedDuringConsent 1 "digest" n ∧
      EnablesAt UnicodeData.ascii (fun _ => "digest") paired pairedDuringConsent 1 "digest" w ∧
      exec (Service.step UnicodeData.ascii (fun _ => "digest")) paired
        (pairedDuringConsent.take w) = some s₁ ∧ s₁.config.connection ≠ none ∧
      ¬ SamePairing UnicodeData.ascii (fun _ => "digest") paired (pairedDuringConsent.take w) n :=
    by
  obtain ⟨s, hs, hok⟩ : ∃ s,
      exec (Service.step UnicodeData.ascii (fun _ => "digest")) paired pairedDuringConsent =
        some s ∧
      (s.tasks 1, s.config.connection) =
        (some { command := .confirmConsent "digest", stage := .returned (.ok none) },
          some { otherPairing.connection with liveDeskEnabled := true }) :=
    Option.map_eq_some_iff.mp (by decide +kernel)
  obtain ⟨hreturned, hconnection⟩ := Prod.mk.inj hok
  obtain ⟨r₁, hr₁, hentry⟩ : ∃ s,
      exec (Service.step UnicodeData.ascii (fun _ => "digest")) paired
        (pairedDuringConsent.take 7) = some s ∧
      (s.tasks 1, claimOf s.config) =
        (some { command := .confirmConsent "digest", stage := .confirmEntry },
          some ("https://example.org", "device")) :=
    Option.map_eq_some_iff.mp (by decide +kernel)
  obtain ⟨r₂, hr₂, hentered⟩ : ∃ s,
      exec (Service.step UnicodeData.ascii (fun _ => "digest")) paired
        (pairedDuringConsent.take 8) = some s ∧
      s.tasks 1 = some { command := .confirmConsent "digest", stage := .confirmSlot } :=
    Option.map_eq_some_iff.mp (by decide +kernel)
  obtain ⟨t₁, ht₁, hbefore⟩ : ∃ s,
      exec (Service.step UnicodeData.ascii (fun _ => "digest")) paired
        (pairedDuringConsent.take 29) = some s ∧
      (s.tasks 1, claimOf s.config) =
        (some {
          command := .confirmConsent "digest", stage := .enable (confirmationOf "editor") },
          some ("https://other.example", "other")) :=
    Option.map_eq_some_iff.mp (by decide +kernel)
  obtain ⟨t₂, ht₂, hwritten⟩ : ∃ s,
      exec (Service.step UnicodeData.ascii (fun _ => "digest")) paired
        (pairedDuringConsent.take 30) = some s ∧
      s.tasks 1 = some {
        command := .confirmConsent "digest", stage := .afterOptions (confirmationOf "editor") } :=
    Option.map_eq_some_iff.mp (by decide +kernel)
  obtain ⟨hatEntry, hclaim⟩ := Prod.mk.inj hentry
  obtain ⟨hatWrite, hclaim'⟩ := Prod.mk.inj hbefore
  refine ⟨s, 7, 29, t₁, hs, hreturned, hconnection, ⟨r₁, r₂, ?_⟩,
    ⟨t₁, t₂, confirmationOf "editor", ?_⟩, ht₁, ?_, ?_⟩
  · exact goesAt_of_take hr₁ hr₂ (by decide) hatEntry hentered
  · exact goesAt_of_take ht₁ ht₂ (by decide) hatWrite hwritten
  · intro hnone
    rw [claimOf, hnone] at hclaim'
    contradiction
  · rintro ⟨k, s₁, s₂, -, -, hs₁, hs₂, hsame⟩
    obtain rfl : s₁ = r₁ := Option.some.inj (hs₁.symm.trans hr₁)
    obtain rfl : s₂ = t₁ := Option.some.inj (hs₂.symm.trans ht₁)
    rw [hclaim, hclaim'] at hsame
    exact absurd hsame (by decide)

end

end Service

end YohakuCore
