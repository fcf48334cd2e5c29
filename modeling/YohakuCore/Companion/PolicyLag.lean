import YohakuCore.Companion.FlagAgreement

/-!
# The policy that the gate knows

The comparison of fingerprints reads the configuration before it takes the gate's lock.
-/

namespace YohakuCore

open Framework

variable {u : UnicodeData} {sha256Hex : String → String}

namespace Service

section

variable (u sha256Hex) (s s' : Service)

/-- The segments of a `policyMaybeChanged`, with what each finds and leaves. -/
inductive PolicySegment : Stage → Stage → Prop
  | read : PolicySegment .policyRead (.policyGate (policyFingerprint u sha256Hex s.config.privacy))
  | same (fingerprint : String) (current : fingerprint = s.gate.fingerprint)
      (gate : s'.gate = s.gate) :
      PolicySegment (.policyGate fingerprint) (.returned (.ok none))
  | changed (fingerprint : String) (other : fingerprint ≠ s.gate.fingerprint)
      (gate : s'.gate = s.gate.policyDidChange fingerprint) :
      PolicySegment (.policyGate fingerprint) .policySlot
  | slot (preview : s'.preview = none) : PolicySegment .policySlot .policyRefresh
  | refreshed (desk : s.desk.step (.coordinator .requestFreshSnapshot) = some s'.desk) :
      PolicySegment .policyRefresh (.returned (.ok none))

end

/-- The stages of a `policyMaybeChanged`. -/
inductive OfPolicy : Stage → Prop
  | policyRead : OfPolicy .policyRead
  | policyGate (fingerprint : String) : OfPolicy (.policyGate fingerprint)
  | policySlot : OfPolicy .policySlot
  | policyRefresh : OfPolicy .policyRefresh
  | returned (result : Except IpcErrorCode (Option Preview)) : OfPolicy (.returned result)

/-- The stages from the gate's lock on. -/
def PastGate (stage : Stage) : Prop :=
  stage ≠ .policyRead ∧ ∀ fingerprint, stage ≠ .policyGate fingerprint

theorem Placed.ofPolicy {s : Service} (h : s.Placed) {id : Nat} {stage : Stage}
    (htask : s.tasks id = some { command := .policyMaybeChanged, stage := stage }) :
    OfPolicy stage := by
  have hstage := h id _ stage htask
  cases stage with
  | policyRead => exact .policyRead
  | policyGate fingerprint => exact .policyGate fingerprint
  | policySlot => exact .policySlot
  | policyRefresh => exact .policyRefresh
  | returned result => exact .returned result
  | shutdown next => cases next <;> contradiction
  | shutdownWait task next => cases next <;> contradiction
  | _ => contradiction

theorem advance_policy {s s' : Service} {id : Nat} {stage : Stage}
    (h : s.advance u sha256Hex id = some s')
    (htask : s.tasks id = some { command := .policyMaybeChanged, stage := stage })
    (hstage : OfPolicy stage) :
    ∃ stage', s'.tasks id = some { command := .policyMaybeChanged, stage := stage' } ∧
      PolicySegment u sha256Hex s s' stage stage' := by
  rw [advance, htask] at h
  cases hstage with
  | policyRead =>
      obtain rfl := Option.some.inj h
      exact ⟨_, goto_tasks_self _ _ _ _, .read⟩
  | policyGate fingerprint =>
      dsimp only at h
      split at h
      · rename_i hcurrent
        obtain rfl := Option.some.inj h
        exact ⟨_, goto_tasks_self _ _ _ _, .same fingerprint hcurrent rfl⟩
      · rename_i hother
        obtain rfl := Option.some.inj h
        exact ⟨_, goto_tasks_self _ _ _ _, .changed fingerprint hother rfl⟩
  | policySlot =>
      obtain rfl := Option.some.inj h
      exact ⟨_, goto_tasks_self _ _ _ _, .slot rfl⟩
  | policyRefresh =>
      obtain ⟨desk, hdesk, rfl⟩ := withDesk_eq_some.mp h
      exact ⟨_, goto_tasks_self _ _ _ _, .refreshed hdesk⟩
  | returned result => contradiction

theorem step_policy {s s' : Service} {e : ServiceEvent} {id : Nat} {stage : Stage}
    (h : s.step u sha256Hex e = some s')
    (htask : s.tasks id = some { command := .policyMaybeChanged, stage := stage })
    (hstage : OfPolicy stage) :
    s'.tasks id = some { command := .policyMaybeChanged, stage := stage } ∨
      e = .advance id ∧
        ∃ stage', s'.tasks id = some { command := .policyMaybeChanged, stage := stage' } ∧
          PolicySegment u sha256Hex s s' stage stage' := by
  by_cases hid : e.task = some id
  · obtain ⟨hserves, hawaits⟩ := step_awaits h htask hid
    have hsegment : stage.awaits = some .segment := by
      cases hstage with
      | returned result => exact absurd rfl hawaits
      | _ => rfl
    rw [hsegment] at hserves
    cases e with
    | advance j =>
        obtain rfl := Option.some.inj hid
        exact Or.inr ⟨rfl, advance_policy h htask hstage⟩
    | _ => simp [ServiceEvent.serves] at hserves
  · left
    rw [step_tasks_of_ne h hid]
    exact htask

theorem PolicySegment.ne_policyRead {s s' : Service} {stage stage' : Stage}
    (h : PolicySegment u sha256Hex s s' stage stage') : stage' ≠ .policyRead := by
  cases h <;> simp

theorem PolicySegment.to_policyGate {s s' : Service} {stage : Stage} {fingerprint : String}
    (h : PolicySegment u sha256Hex s s' stage (.policyGate fingerprint)) :
    stage = .policyRead ∧ fingerprint = policyFingerprint u sha256Hex s.config.privacy := by
  cases h
  exact ⟨rfl, rfl⟩

theorem PolicySegment.to_pastGate {s s' : Service} {stage stage' : Stage}
    (h : PolicySegment u sha256Hex s s' stage stage') (hafter : PastGate stage')
    (hbefore : ¬ PastGate stage) : ∃ fingerprint, stage = .policyGate fingerprint := by
  cases h with
  | read => exact absurd rfl (hafter.2 _)
  | same fingerprint => exact ⟨fingerprint, rfl⟩
  | changed fingerprint => exact ⟨fingerprint, rfl⟩
  | slot => exact absurd ⟨Stage.noConfusion, fun _ => Stage.noConfusion⟩ hbefore
  | refreshed => exact absurd ⟨Stage.noConfusion, fun _ => Stage.noConfusion⟩ hbefore

/-- A caller stays to the end of the run, and reads the configuration at most once. -/
theorem caller_run {s s' : Service} {es : List ServiceEvent} {id : Nat} {stage : Stage}
    (hplaced : s.Placed) (h : exec (Service.step u sha256Hex) s es = some s')
    (htask : s.tasks id = some { command := .policyMaybeChanged, stage := stage }) :
    ∃ stage', s'.tasks id = some { command := .policyMaybeChanged, stage := stage' } ∧
      (stage ≠ .policyRead → stage' ≠ .policyRead) := by
  have hinv := exec_invariant
    (I := fun t => t.Placed ∧
      ∃ stage', t.tasks id = some { command := .policyMaybeChanged, stage := stage' } ∧
        (stage ≠ .policyRead → stage' ≠ .policyRead))
    ⟨hplaced, stage, htask, fun hread => hread⟩ ?_ h
  · exact hinv.2
  · rintro t e t' ⟨hplaced, stage₁, htask₁, hread⟩ hstep
    refine ⟨hplaced.step hstep, ?_⟩
    rcases step_policy hstep htask₁ (hplaced.ofPolicy htask₁) with
        hkept | ⟨-, stage₂, htask₂, hsegment⟩
    · exact ⟨stage₁, hkept, hread⟩
    · exact ⟨stage₂, htask₂, fun _ => hsegment.ne_policyRead⟩

section

variable (u sha256Hex) (origin : Service) (es : List ServiceEvent) (id n : Nat)

/-- At instant `n` the caller computes the fingerprint of the configuration it finds in `s`. -/
def ReadsPolicyAt (s : Service) : Prop :=
  s.tasks id = some { command := .policyMaybeChanged, stage := .policyRead } ∧
    ∃ s', StepAt (Service.step u sha256Hex) origin es n s (.advance id) s'

/-- At instant `n` the caller takes the gate's lock, with the fingerprint it has computed. -/
def TakesGateAt (fingerprint : String) : Prop :=
  ∃ s s', s.tasks id =
      some { command := .policyMaybeChanged, stage := .policyGate fingerprint } ∧
    StepAt (Service.step u sha256Hex) origin es n s (.advance id) s'

/-- No caller takes the gate's lock after instant `n`. -/
def TakesGateLastAt : Prop :=
  (∃ fingerprint, TakesGateAt u sha256Hex origin es id n fingerprint) ∧
    ∀ j m fingerprint, TakesGateAt u sha256Hex origin es j m fingerprint → m ≤ n

end

section

variable {config : CoreConfig} {backing : String → Option Int} {es : List ServiceEvent}
  {s : Service} {id : Nat}

theorem TakesGateAt.append_right {origin : Service} {n : Nat} {fingerprint : String}
    (h : TakesGateAt u sha256Hex origin es id n fingerprint) (fs : List ServiceEvent) :
    TakesGateAt u sha256Hex origin (es ++ fs) id n fingerprint := by
  obtain ⟨t, t', htask, hat⟩ := h
  exact ⟨t, t', htask, hat.append_right fs⟩

theorem readsPolicyAt_unique {m n : Nat} {t t' : Service}
    (hm : ReadsPolicyAt u sha256Hex (new u sha256Hex config backing) es id m t)
    (hn : ReadsPolicyAt u sha256Hex (new u sha256Hex config backing) es id n t') : t = t' := by
  have hlater {k l : Nat} {r q : Service}
      (hk : ReadsPolicyAt u sha256Hex (new u sha256Hex config backing) es id k r)
      (hl : ReadsPolicyAt u sha256Hex (new u sha256Hex config backing) es id l q) : ¬ k < l := by
    intro hlt
    obtain ⟨htask, r', hat⟩ := hk
    obtain ⟨htask', q', hat'⟩ := hl
    obtain ⟨stage, hreached, hsegment⟩ := advance_policy hat.step htask .policyRead
    obtain ⟨r'', hr'', hrest⟩ := exec_take hat'.before (k + 1)
    rw [List.take_take, Nat.min_eq_left hlt, hat.after] at hr''
    obtain rfl := Option.some.inj hr''
    obtain ⟨stage', hstays, hread⟩ := caller_run (placed_run hat.after) hrest hreached
    rw [htask'] at hstays
    obtain ⟨-, rfl⟩ := Task.mk.inj (Option.some.inj hstays)
    exact hread hsegment.ne_policyRead rfl
  have hle := hlater hm hn
  have hge := hlater hn hm
  obtain rfl : m = n := by omega
  obtain ⟨-, _, hat⟩ := hm
  obtain ⟨-, _, hat'⟩ := hn
  exact Option.some.inj (hat.before.symm.trans hat'.before)

theorem readsPolicyAt_of_policyGate {fingerprint : String}
    (h : exec (Service.step u sha256Hex) (new u sha256Hex config backing) es = some s)
    (htask : s.tasks id =
      some { command := .policyMaybeChanged, stage := .policyGate fingerprint }) :
    ∃ n t, ReadsPolicyAt u sha256Hex (new u sha256Hex config backing) es id n t ∧
      fingerprint = policyFingerprint u sha256Hex t.config.privacy := by
  obtain ⟨n, s₁, e, s₂, hat, hbefore, hafter, -⟩ := exec_entry
    (P := fun t => t.tasks id =
      some { command := .policyMaybeChanged, stage := .policyGate fingerprint })
    h (fun hnew => nomatch hnew) htask
  rcases step_task_before hat.step hafter with ⟨-, hentry⟩ | ⟨stage, htask₁⟩
  · contradiction
  · rcases step_policy hat.step htask₁ ((placed_run hat.before).ofPolicy htask₁) with
        hkept | ⟨rfl, stage', htask₂, hsegment⟩
    · rw [hafter] at hkept
      rw [hkept] at hbefore
      exact absurd htask₁ hbefore
    · rw [hafter] at htask₂
      obtain ⟨-, rfl⟩ := Task.mk.inj (Option.some.inj htask₂)
      obtain ⟨rfl, hfingerprint⟩ := hsegment.to_policyGate
      exact ⟨n, s₁, ⟨htask₁, s₂, hat⟩, hfingerprint⟩

theorem takesGateAt_of_pastGate {stage : Stage}
    (h : exec (Service.step u sha256Hex) (new u sha256Hex config backing) es = some s)
    (htask : s.tasks id = some { command := .policyMaybeChanged, stage := stage })
    (hpast : PastGate stage) :
    ∃ n fingerprint,
      TakesGateAt u sha256Hex (new u sha256Hex config backing) es id n fingerprint := by
  obtain ⟨n, s₁, e, s₂, hat, hbefore, ⟨stage₂, htask₂, hpast₂⟩, -⟩ := exec_entry
    (P := fun t => ∃ stage,
      t.tasks id = some { command := .policyMaybeChanged, stage := stage } ∧ PastGate stage)
    h (fun hnew => nomatch hnew.choose_spec.1) ⟨stage, htask, hpast⟩
  rcases step_task_before hat.step htask₂ with ⟨-, rfl⟩ | ⟨stage₁, htask₁⟩
  · exact absurd rfl hpast₂.1
  · have hearly : ¬ PastGate stage₁ := fun hpast₁ => hbefore ⟨stage₁, htask₁, hpast₁⟩
    rcases step_policy hat.step htask₁ ((placed_run hat.before).ofPolicy htask₁) with
        hkept | ⟨rfl, stage', htask', hsegment⟩
    · rw [htask₂] at hkept
      obtain ⟨-, rfl⟩ := Task.mk.inj (Option.some.inj hkept)
      exact absurd hpast₂ hearly
    · rw [htask₂] at htask'
      obtain ⟨-, rfl⟩ := Task.mk.inj (Option.some.inj htask')
      obtain ⟨fingerprint, rfl⟩ := hsegment.to_pastGate hpast₂ hearly
      exact ⟨n, fingerprint, s₁, s₂, htask₁, hat⟩

/-- What a step does to the gate's fingerprint: it becomes the one of the caller that takes the
lock. -/
inductive FingerprintMove (s : Service) (e : ServiceEvent) (s' : Service) : Prop where
  | kept (gate : s'.gate.fingerprint = s.gate.fingerprint)
      (untaken : ∀ id fingerprint, e = .advance id →
        s.tasks id ≠ some { command := .policyMaybeChanged, stage := .policyGate fingerprint })
  | taken (id : Nat) (fingerprint : String) (event : e = .advance id)
      (task : s.tasks id =
        some { command := .policyMaybeChanged, stage := .policyGate fingerprint })
      (gate : s'.gate.fingerprint = fingerprint)

theorem policyDidChange_fingerprint (gate : ConsentGate) (fingerprint : String) :
    (gate.policyDidChange fingerprint).fingerprint = fingerprint := by
  rw [ConsentGate.policyDidChange]
  split
  · rename_i hsame
    exact hsame.symm
  · rfl

theorem step_fingerprint {s s' : Service} {e : ServiceEvent} (hplaced : s.Placed)
    (h : s.step u sha256Hex e = some s') : FingerprintMove s e s' := by
  by_cases htakes : ∃ id fingerprint, e = .advance id ∧
      s.tasks id = some { command := .policyMaybeChanged, stage := .policyGate fingerprint }
  · obtain ⟨id, fingerprint, rfl, htask⟩ := htakes
    obtain ⟨stage', -, hsegment⟩ := advance_policy h htask (.policyGate fingerprint)
    refine .taken id fingerprint rfl htask ?_
    cases hsegment with
    | same _ hcurrent hgate => rw [hgate, hcurrent]
    | changed _ _ hgate => rw [hgate, policyDidChange_fingerprint]
  · have huntaken (id : Nat) (fingerprint : String) (he : e = .advance id) :
        s.tasks id ≠
          some { command := .policyMaybeChanged, stage := .policyGate fingerprint } :=
      fun htask => htakes ⟨id, fingerprint, he, htask⟩
    refine .kept ?_ huntaken
    cases step_gate h with
    | kept hgate => rw [hgate]
    | recorded confirmation _ hgate =>
        rw [hgate]
        rfl
    | forgot hforgets _ =>
        obtain ⟨id, command, rfl, htask | ⟨fingerprint, htask, -⟩⟩ := hforgets
        · simp only [step, advance, htask] at h
          obtain rfl := Option.some.inj h
          rfl
        · obtain rfl : command = .policyMaybeChanged :=
            of_decide_eq_true (hplaced id command _ htask)
          exact absurd htask (huntaken id fingerprint rfl)

/-- The gate has the fingerprint of the caller that took its lock last, or still the one of the
start. -/
def GateSourced (u : UnicodeData) (sha256Hex : String → String) (origin : Service)
    (es : List ServiceEvent) (s : Service) : Prop :=
  (s.gate.fingerprint = origin.gate.fingerprint ∧
    ∀ j n fingerprint, ¬ TakesGateAt u sha256Hex origin es j n fingerprint) ∨
  ∃ j n, TakesGateLastAt u sha256Hex origin es j n ∧
    TakesGateAt u sha256Hex origin es j n s.gate.fingerprint

theorem GateSourced.kept {origin s s' : Service} {e : ServiceEvent}
    (h : GateSourced u sha256Hex origin es s)
    (hs : exec (Service.step u sha256Hex) origin es = some s)
    (hstep : s.step u sha256Hex e = some s') (hgate : s'.gate.fingerprint = s.gate.fingerprint)
    (huntaken : ∀ id fingerprint, e = .advance id →
      s.tasks id ≠ some { command := .policyMaybeChanged, stage := .policyGate fingerprint }) :
    GateSourced u sha256Hex origin (es ++ [e]) s' := by
  have hbefore {j n : Nat} {fingerprint : String}
      (htakes : TakesGateAt u sha256Hex origin (es ++ [e]) j n fingerprint) :
      TakesGateAt u sha256Hex origin es j n fingerprint := by
    obtain ⟨t, t', htask, hat⟩ := htakes
    rcases hat.concat_cases hs hstep with hat | ⟨-, rfl, rfl, rfl⟩
    · exact ⟨t, t', htask, hat⟩
    · exact absurd htask (huntaken j fingerprint rfl)
  rcases h with ⟨hstart, hnone⟩ | ⟨j, n, ⟨-, hlast⟩, htakes⟩
  · refine Or.inl ⟨hgate.trans hstart, ?_⟩
    intro j n fingerprint htakes
    exact hnone j n fingerprint (hbefore htakes)
  · right
    rw [hgate]
    refine ⟨j, n, ⟨⟨_, htakes.append_right [e]⟩, ?_⟩, htakes.append_right [e]⟩
    intro j' m fingerprint htakes'
    exact hlast j' m fingerprint (hbefore htakes')

theorem gateSourced_taken {origin s s' : Service} {fingerprint : String}
    (hs : exec (Service.step u sha256Hex) origin es = some s)
    (hstep : s.step u sha256Hex (.advance id) = some s')
    (htask : s.tasks id =
      some { command := .policyMaybeChanged, stage := .policyGate fingerprint })
    (hgate : s'.gate.fingerprint = fingerprint) :
    GateSourced u sha256Hex origin (es ++ [.advance id]) s' := by
  have htakes : TakesGateAt u sha256Hex origin (es ++ [.advance id]) id es.length fingerprint :=
    ⟨s, s', htask, StepAt.last hs hstep⟩
  right
  rw [hgate]
  refine ⟨id, es.length, ⟨⟨fingerprint, htakes⟩, ?_⟩, htakes⟩
  intro j m fingerprint' htakes'
  obtain ⟨t, t', -, hat⟩ := htakes'
  have hlt := hat.lt_length
  rw [List.length_append, List.length_singleton] at hlt
  omega

theorem gate_source
    (h : exec (Service.step u sha256Hex) (new u sha256Hex config backing) es = some s) :
    GateSourced u sha256Hex (new u sha256Hex config backing) es s := by
  refine exec_induction (P := GateSourced u sha256Hex (new u sha256Hex config backing)) ?_ ?_ h
  · refine Or.inl ⟨rfl, ?_⟩
    intro j n fingerprint htakes
    obtain ⟨t, t', -, hat⟩ := htakes
    exact absurd hat.lt_length (Nat.not_lt_zero n)
  · intro es s₁ e s₂ hs₁ ih hstep
    cases step_fingerprint (placed_run hs₁) hstep with
    | kept hgate huntaken => exact ih.kept hs₁ hstep hgate huntaken
    | taken id fingerprint he htask hgate =>
        subst he
        exact gateSourced_taken hs₁ hstep htask hgate

theorem write_privacy {config config' : CoreConfig} {stage next : Stage}
    (h : Stage.write config stage = some (config', next)) : config'.privacy = config.privacy := by
  cases stage with
  | enable _ | rollback | disable | unpairDisable _ | unpairForget | pairToken _ | pairStore _ =>
      obtain ⟨rfl, -⟩ := Prod.mk.inj (Option.some.inj h)
      rfl
  | _ => contradiction

theorem privacy_run
    (h : exec (Service.step u sha256Hex) (new u sha256Hex config backing) es = some s)
    (hnone : ∀ privacy, ServiceEvent.updatePrivacy privacy ∉ es) :
    s.config.privacy = config.privacy := by
  revert hnone
  refine exec_induction (P := fun es s => (∀ privacy, ServiceEvent.updatePrivacy privacy ∉ es) →
    s.config.privacy = config.privacy) ?_ ?_ h
  · intro _
    rfl
  · intro es s₁ e s₂ _ ih hstep hnone
    have hbefore := ih (fun privacy hmem => hnone privacy (List.mem_append_left _ hmem))
    cases step_config hstep with
    | kept hconfig => rw [hconfig, hbefore]
    | written id command stage next he htask hwrite => rw [write_privacy hwrite, hbefore]
    | settings privacy he hconfig =>
        subst he
        exact absurd (List.mem_append_right es (List.mem_singleton_self _)) (hnone privacy)

theorem task_of_called
    (h : exec (Service.step u sha256Hex) (new u sha256Hex config backing) es = some s)
    {n : Nat} (hcalled : es[n]? = some (.called id .policyMaybeChanged)) :
    ∃ stage, s.tasks id = some { command := .policyMaybeChanged, stage := stage } := by
  obtain ⟨s₁, hs₁, hrest⟩ := exec_take h n
  obtain ⟨hlt, hget⟩ := List.getElem?_eq_some_iff.mp hcalled
  rw [List.drop_eq_getElem_cons hlt, hget, exec_cons, Option.bind_eq_some_iff] at hrest
  obtain ⟨s₂, hstep, hrest⟩ := hrest
  have hplaced := (placed_run hs₁).step hstep
  have hreached : s₂.tasks id = some { command := .policyMaybeChanged, stage := .policyRead } := by
    simp only [step] at hstep
    split at hstep
    · obtain rfl := Option.some.inj hstep
      exact goto_tasks_self _ _ _ _
    · contradiction
  obtain ⟨stage, htask, -⟩ := caller_run hplaced hrest hreached
  exact ⟨stage, htask⟩

/-- Every update of the settings is followed by a comparison, and every comparison has returned. -/
structure CallersFinished (es : List ServiceEvent) (s : Service) : Prop where
  called : ∀ (n : Nat) privacy, es[n]? = some (.updatePrivacy privacy) →
    ∃ m id, n < m ∧ es[m]? = some (.called id .policyMaybeChanged)
  returned : ∀ id stage,
    s.tasks id = some { command := .policyMaybeChanged, stage := stage } →
      ∃ result, stage = .returned result

theorem CallersFinished.privacy_kept (hfinished : CallersFinished es s)
    (h : exec (Service.step u sha256Hex) (new u sha256Hex config backing) es = some s)
    (hnone : ∀ j n fingerprint,
      ¬ TakesGateAt u sha256Hex (new u sha256Hex config backing) es j n fingerprint) :
    s.config.privacy = config.privacy := by
  refine privacy_run h ?_
  intro privacy hmem
  obtain ⟨n, hn⟩ := List.mem_iff_getElem?.mp hmem
  obtain ⟨m, j, -, hcalled⟩ := hfinished.called n privacy hn
  obtain ⟨stage, htask⟩ := task_of_called h hcalled
  obtain ⟨result, rfl⟩ := hfinished.returned j stage htask
  obtain ⟨k, fingerprint, htakes⟩ := takesGateAt_of_pastGate h htask
    ⟨Stage.noConfusion, fun _ => Stage.noConfusion⟩
  exact hnone j k fingerprint htakes

/-- When all callers have finished, the gate has the fingerprint of the configuration if and only if
the caller that took its lock last read a configuration with this fingerprint. -/
theorem gate_current_iff
    (hrun : exec (Service.step u sha256Hex) (new u sha256Hex config backing) es = some s)
    (hfinished : CallersFinished es s) :
    s.gate.fingerprint = policyFingerprint u sha256Hex s.config.privacy ↔
      ∀ j n m t, TakesGateLastAt u sha256Hex (new u sha256Hex config backing) es j n →
        ReadsPolicyAt u sha256Hex (new u sha256Hex config backing) es j m t →
        policyFingerprint u sha256Hex t.config.privacy =
          policyFingerprint u sha256Hex s.config.privacy := by
  rcases gate_source hrun with ⟨hgate, hnone⟩ | ⟨j, n, hlast, t, t', htask, hat⟩
  · have hkept := hfinished.privacy_kept hrun hnone
    rw [hkept]
    refine iff_of_true hgate ?_
    rintro j n m t ⟨⟨fingerprint, htakes⟩, -⟩
    exact absurd htakes (hnone j n fingerprint)
  · obtain ⟨m, r, hread, hfingerprint⟩ := readsPolicyAt_of_policyGate hat.before htask
    obtain ⟨hread₁, r', hat'⟩ := hread
    have hread : ReadsPolicyAt u sha256Hex (new u sha256Hex config backing) es j m r :=
      ⟨hread₁, r', hat'.of_take.2⟩
    constructor
    · intro hcurrent j' n' m' t₁ hlast' hread'
      obtain ⟨f, htakes⟩ := hlast.1
      obtain ⟨f', htakes'⟩ := hlast'.1
      obtain rfl : n = n' :=
        Nat.le_antisymm (hlast'.2 j n f htakes) (hlast.2 j' n' f' htakes')
      obtain ⟨q, q', -, hq⟩ := htakes'
      have hsame := hat.event.symm.trans hq.event
      obtain rfl : j = j' := ServiceEvent.advance.inj (Option.some.inj hsame)
      rw [readsPolicyAt_unique hread' hread, ← hfingerprint, hcurrent]
    · intro hall
      rw [hfingerprint]
      exact hall j n m r hlast hread

end

/-- A configuration that shares nothing. -/
def withheldConfig : PrivacyConfig :=
  { defaultPrivacyConfig with sources := { application := false, media := false } }

/-- An update of the settings, and its comparison up to the gate. -/
def updatedBy (id : Nat) (privacy : PrivacyConfig) : List ServiceEvent :=
  [.updatePrivacy privacy, .called id .policyMaybeChanged, .advance id]

/-- A comparison that finds another fingerprint, from the gate on. -/
def adoptedBy (id : Nat) : List ServiceEvent := [.advance id, .advance id, .advance id]

/-- Two updates of a service with the default settings, one after the other. -/
def inTurn : List ServiceEvent :=
  updatedBy 0 withheldConfig ++ adoptedBy 0 ++ updatedBy 1 defaultPrivacyConfig ++ adoptedBy 1

/-- The service of these runs, with the preimages as digests. -/
def pairedById : Service :=
  new UnicodeData.ascii (fun preimage => preimage) pairedConfig (fun _ => none)

theorem callersFinished_of_two {es : List ServiceEvent} {s : Service} {m : Nat}
    (h : exec (Service.step UnicodeData.ascii (fun preimage => preimage)) pairedById es = some s)
    (hlast : es[m]? = some (.called 1 .policyMaybeChanged))
    (hnone : ∀ privacy, ServiceEvent.updatePrivacy privacy ∉ es.drop m)
    (hcalled : ∀ id, .called id .policyMaybeChanged ∈ es → id = 0 ∨ id = 1)
    (hfirst : s.tasks 0 = some { command := .policyMaybeChanged, stage := .returned (.ok none) })
    (hsecond : s.tasks 1 = some { command := .policyMaybeChanged, stage := .returned (.ok none) }) :
    CallersFinished es s where
  called := by
    intro n privacy hn
    refine ⟨m, 1, ?_, hlast⟩
    by_contra hle
    refine hnone privacy (List.mem_of_getElem? (i := n - m) ?_)
    rw [List.getElem?_drop, ← hn]
    congr 1
    omega
  returned := by
    intro id stage htask
    rcases hcalled id (called_of_task h htask) with rfl | rfl
    · rw [hfirst] at htask
      obtain ⟨-, rfl⟩ := Task.mk.inj (Option.some.inj htask)
      exact ⟨_, rfl⟩
    · rw [hsecond] at htask
      obtain ⟨-, rfl⟩ := Task.mk.inj (Option.some.inj htask)
      exact ⟨_, rfl⟩

theorem gate_current_inTurn :
    ∃ s,
      exec (Service.step UnicodeData.ascii (fun preimage => preimage)) pairedById inTurn = some s ∧
      (s.gate.fingerprint =
          policyFingerprint UnicodeData.ascii (fun preimage => preimage) s.config.privacy ↔
        ∀ j n m t,
          TakesGateLastAt UnicodeData.ascii (fun preimage => preimage) pairedById inTurn j n →
          ReadsPolicyAt UnicodeData.ascii (fun preimage => preimage) pairedById inTurn j m t →
          policyFingerprint UnicodeData.ascii (fun preimage => preimage) t.config.privacy =
            policyFingerprint UnicodeData.ascii (fun preimage => preimage) s.config.privacy) := by
  obtain ⟨s, hs, hok⟩ : ∃ s,
      exec (Service.step UnicodeData.ascii (fun preimage => preimage)) pairedById inTurn = some s ∧
      (s.tasks 0, s.tasks 1) =
        (some { command := .policyMaybeChanged, stage := .returned (.ok none) },
          some { command := .policyMaybeChanged, stage := .returned (.ok none) }) :=
    Option.map_eq_some_iff.mp (by decide +kernel)
  obtain ⟨hfirst, hsecond⟩ := Prod.mk.inj hok
  have hfinished : CallersFinished inTurn s := by
    refine callersFinished_of_two (m := 7) hs rfl ?_ ?_ hfirst hsecond
    · simp [inTurn, updatedBy, adoptedBy]
    · simp [inTurn, updatedBy, adoptedBy]
  exact ⟨s, hs, gate_current_iff hs hfinished⟩

/-- The first caller computes its fingerprint, the second one writes the default settings again and
finds nothing changed, and the first one takes the gate's lock. -/
def overtakenReading : List ServiceEvent :=
  updatedBy 0 withheldConfig ++ updatedBy 1 defaultPrivacyConfig ++ [.advance 1] ++ adoptedBy 0

/-- All callers have finished, and the gate has the fingerprint of settings that are no longer
stored. -/
theorem gate_lags_overtakenReading :
    ∃ s,
      exec (Service.step UnicodeData.ascii (fun preimage => preimage)) pairedById
        overtakenReading = some s ∧
      CallersFinished overtakenReading s ∧
      s.gate.fingerprint ≠
        policyFingerprint UnicodeData.ascii (fun preimage => preimage) s.config.privacy := by
  obtain ⟨s, hs, hok⟩ : ∃ s,
      exec (Service.step UnicodeData.ascii (fun preimage => preimage)) pairedById
        overtakenReading = some s ∧
      (s.tasks 0, s.tasks 1, s.config.privacy, decide (s.gate.fingerprint =
          policyFingerprint UnicodeData.ascii (fun preimage => preimage) s.config.privacy)) =
        (some { command := .policyMaybeChanged, stage := .returned (.ok none) },
          some { command := .policyMaybeChanged, stage := .returned (.ok none) },
          defaultPrivacyConfig, false) :=
    Option.map_eq_some_iff.mp (by decide +kernel)
  obtain ⟨hfirst, hok⟩ := Prod.mk.inj hok
  obtain ⟨hsecond, hok⟩ := Prod.mk.inj hok
  refine ⟨s, hs, ?_, of_decide_eq_false (Prod.mk.inj hok).2⟩
  refine callersFinished_of_two (m := 4) hs rfl ?_ ?_ hfirst hsecond
  · simp [overtakenReading, updatedBy, adoptedBy]
  · simp [overtakenReading, updatedBy, adoptedBy]

end Service

end YohakuCore
