import YohakuCore.Companion.ConsentPairing

/-! # A granted consent -/

namespace YohakuCore

open Framework

variable {u : UnicodeData} {sha256Hex : String → String}

namespace Coordinator

/-- Only under `P` is the coordinator disabled, or will its configure disable it. -/
structure DisabledOnlyIf (P : Prop) (c : Coordinator) : Prop where
  running : c.inner.stopping = false
  state : c.inner.state = .disabled → P
  refused : ∀ i, c.configures i = some ⟨c.inner.generation, .refused⟩ → P

theorem disabledOnlyIf_start {c : Coordinator} (hinv : c.Inv) (P : Prop)
    (hrunning : c.inner.stopping = false) : c.start.DisabledOnlyIf P := by
  have hstart : c.start = (c.beginNewGeneration .connecting).spawnConfigure := by
    rw [start, startLocked, hrunning]
    rfl
  rw [hstart]
  refine ⟨hrunning, fun hstate => (by cases hstate), ?_⟩
  intro i htask
  have htask : Function.update c.configures c.nextTask
      (some ⟨c.inner.generation + 1, .entry⟩) i =
        some ⟨c.inner.generation + 1, .refused⟩ := htask
  rw [Function.update_apply] at htask
  split at htask
  · simp at htask
  · have hle := (hinv.configures i _ htask).1
    have hle : c.inner.generation + 1 ≤ c.inner.generation := hle
    omega

/-- A configure is refused after a step because it was before, or because its gate found no enabled
connection in the step. -/
theorem step_refused {c c' : Coordinator} {e : CoordinatorEvent} (h : c.step e = some c') {i : Nat}
    {gen : Nat} (htask : c'.configures i = some ⟨gen, .refused⟩) :
    c.configures i = some ⟨gen, .refused⟩ ∨
      ∃ connection, e = .configureGate i connection ∧
        connection.filter (·.liveDeskEnabled) = none := by
  cases step_configure h htask with
  | kept hbefore => exact Or.inl hbefore
  | spawned hentry _ => contradiction
  | advanced pc _ hadvances =>
      cases hadvances with
      | stopped connection hoff => exact Or.inr ⟨connection, rfl, hoff⟩

theorem DisabledOnlyIf.step {P : Prop} {c c' : Coordinator} {e : CoordinatorEvent}
    (h : c.DisabledOnlyIf P) (hinv : c.Inv) (hstep : c.step e = some c')
    (hgoes : ¬ c.EndsGeneration e)
    (hgate : ∀ i connection, e = .configureGate i connection →
      connection.filter (·.liveDeskEnabled) = none → P) : c'.DisabledOnlyIf P := by
  have hrefused : ∀ i, c'.configures i = some ⟨c'.inner.generation, .refused⟩ → P := by
    intro i htask
    rcases step_refused hstep htask with hbefore | ⟨connection, he, hoff⟩
    · have hle := (hinv.configures i _ hbefore).1
      have hle : c'.inner.generation ≤ c.inner.generation := hle
      have hge := (step_grows hstep).generation
      have hsame : c'.inner.generation = c.inner.generation := by omega
      exact h.refused i (hsame ▸ hbefore)
    · exact hgate i connection he hoff
  have hkept {k : Control} (hcontrol : c'.control = k) (hrunning : k.stopping = false)
      (hstate : k.state = .disabled → P) : c'.DisabledOnlyIf P := by
    refine ⟨(congrArg Control.stopping hcontrol).trans hrunning, ?_, hrefused⟩
    intro hdisabled
    exact hstate ((congrArg Control.state hcontrol).symm.trans hdisabled)
  cases step_move hstep with
  | kept _ hcontrol => exact hkept hcontrol h.running h.state
  | started _ id heartbeats retries _ _ hcontrol =>
      exact hkept hcontrol h.running (fun hstate => by cases hstate)
  | ended _ state stopping heartbeats retries hends _ _ => exact absurd hends hgoes
  | released id hcontrol => exact hkept hcontrol rfl h.state
  | configured _ id gen pc pc' _ _ hcontrol => exact hkept hcontrol h.running h.state
  | outdated _ id gen pc _ _ hcontrol => exact hkept hcontrol h.running h.state
  | decided _ id pc hconfigure hdecides =>
      generalize hcontrol : c'.control = k at hdecides
      cases hdecides with
      | refused id => exact hkept hcontrol h.running (fun _ => h.refused _ hconfigure)
      | invalidServer id connection token =>
          exact hkept hcontrol h.running (fun hstate => by cases hstate)
      | updateRequired _ _ _ => exact hkept hcontrol h.running (fun hstate => by cases hstate)
      | retrying _ _ task state _ hwaiting =>
          refine hkept hcontrol h.running ?_
          intro hstate
          have hstate : state = .disabled := hstate
          rcases hwaiting with hdegraded | hunavailable
          · cases hstate.symm.trans hdegraded
          · cases hstate.symm.trans hunavailable
      | available _ _ task _ => exact hkept hcontrol h.running (fun hstate => by cases hstate)
  | ticked id gen _ hcontrol => exact hkept hcontrol h.running h.state
  | beaten id gen aborted next _ _ hcontrol => exact hkept hcontrol h.running h.state
  | elapsed id gen _ hcontrol => exact hkept hcontrol h.running h.state
  | dropped id gen aborted _ _ hcontrol => exact hkept hcontrol h.running h.state
  | published id call response _ hcontrol =>
      exact hkept hcontrol h.running (fun hstate => by cases hstate)
  | failed id call task error _ hcontrol =>
      exact hkept hcontrol h.running (fun hstate => by cases hstate)

end Coordinator

namespace Service

def Stage.writesFlag : Stage → Bool
  | .enable _ => true
  | .rollback => true
  | .disable => true
  | .unpairDisable _ => true
  | .pairStore _ => true
  | _ => false

/-- A write of the flag succeeds. -/
def WritesFlag (s : Service) (e : ServiceEvent) : Prop :=
  ∃ id command stage, e = .completed id true ∧
    s.tasks id = some { command := command, stage := stage } ∧ Stage.writesFlag stage = true

/-- No stored connection is disabled. -/
def NoneDisabled (s : Service) : Prop :=
  ∀ connection, s.config.connection = some connection → connection.liveDeskEnabled = true

theorem connection_of_not_writesFlag {s s' : Service} {e : ServiceEvent}
    (h : s.step u sha256Hex e = some s') (hnot : ¬ s.WritesFlag e) :
    s'.config.connection = s.config.connection ∨ s'.config.connection = none := by
  cases step_connection h with
  | kept hconnection => exact Or.inl hconnection
  | written id command stage next he htask hwrite =>
      have hwrites : ¬ Stage.writesFlag stage = true := fun hflag =>
        hnot ⟨id, command, stage, he, htask, hflag⟩
      cases stage with
      | pairToken result =>
          obtain ⟨hconfig, -⟩ := Prod.mk.inj (Option.some.inj hwrite)
          exact Or.inl (by rw [hconfig])
      | unpairForget =>
          obtain ⟨hconfig, -⟩ := Prod.mk.inj (Option.some.inj hwrite)
          exact Or.inr (by rw [← hconfig])
      | enable candidate => exact absurd rfl hwrites
      | rollback => exact absurd rfl hwrites
      | disable => exact absurd rfl hwrites
      | unpairDisable deviceId => exact absurd rfl hwrites
      | pairStore result => exact absurd rfl hwrites
      | _ => contradiction

theorem NoneDisabled.step {s s' : Service} {e : ServiceEvent} (henabled : s.NoneDisabled)
    (h : s.step u sha256Hex e = some s') (hnot : ¬ s.WritesFlag e) : s'.NoneDisabled := by
  intro connection hsome
  rcases connection_of_not_writesFlag h hnot with hkept | hnone
  · exact henabled connection (hkept ▸ hsome)
  · rw [hnone] at hsome
    contradiction

theorem noneDisabled_setLiveDesk {s : Service} {config : CoreConfig}
    (h : s.config = config.setLiveDesk true) : s.NoneDisabled := by
  intro connection hconnection
  rw [h, CoreConfig.setLiveDesk] at hconnection
  obtain ⟨before, -, rfl⟩ := Option.map_eq_some_iff.mp hconnection
  rfl

/-- A sleep or a shutdown of the coordinator is called. -/
def Stops (s : Service) (e : ServiceEvent) : Prop :=
  (∃ now, e = .desk (.coordinator (.handleSleepOrLock now))) ∨
  (∃ reason, e = .desk (.coordinator (.shutdown reason))) ∨
  ∃ id command next, e = .advance id ∧
    s.tasks id = some { command := command, stage := .shutdown next }

/-- The flag stands, and without a connection only is the coordinator disabled, or about to be. -/
structure Granted (s : Service) : Prop where
  desk : s.desk.Inv
  flag : s.NoneDisabled
  coordinator : s.desk.coordinator.DisabledOnlyIf (s.config.connection = none)

theorem DeskSource.stops {s : Service} {e : ServiceEvent} {f : CoordinatorEvent}
    (h : DeskSource s e (.coordinator f)) (hends : s.desk.coordinator.EndsGeneration f) :
    s.Stops e := by
  cases f with
  | handleSleepOrLock now =>
      cases h with
      | own he _ => exact Or.inl ⟨now, he⟩
      | segment id command stage _ _ hruns => cases stage <;> simp [Stage.runs] at hruns
      | removal id command deviceId _ _ hremoves => cases hremoves
  | shutdown reason =>
      cases h with
      | own he _ => exact Or.inr (Or.inl ⟨reason, he⟩)
      | segment id command stage he htask hruns =>
          cases stage with
          | shutdown next => exact Or.inr (Or.inr ⟨id, command, next, he, htask⟩)
          | _ => simp [Stage.runs] at hruns
      | removal id command deviceId _ _ hremoves => cases hremoves
  | _ => exact absurd hends not_false

theorem Granted.step {s s' : Service} {e : ServiceEvent} (hgranted : s.Granted)
    (h : s.step u sha256Hex e = some s') (hflag : ¬ s.WritesFlag e) (hstops : ¬ s.Stops e) :
    s'.Granted := by
  refine ⟨desk_inv_step hgranted.desk h, hgranted.flag.step h hflag, ?_⟩
  have hmove : s'.desk.coordinator.DisabledOnlyIf (s.config.connection = none) := by
    cases step_deskRun h with
    | kept hdesk => exact hdesk ▸ hgranted.coordinator
    | ran f hdesk hsource =>
        cases f with
        | writer f => exact (LiveDesk.step_writer hdesk).2 ▸ hgranted.coordinator
        | coordinator f =>
            refine hgranted.coordinator.step hgranted.desk.coordinator
              (LiveDesk.step_coordinator hdesk).1 (fun hends => hstops (hsource.stops hends)) ?_
            rintro i connection rfl hoff
            obtain ⟨-, rfl⟩ := hsource.gate
            -- The flag stands, so a gate that finds no enabled connection finds none.
            cases hconnection : s.config.connection with
            | none => rfl
            | some connection =>
                have henabled := hgranted.flag connection hconnection
                rw [hconnection, Option.filter_some, if_pos henabled] at hoff
                contradiction
  have hnone (hbefore : s.config.connection = none) : s'.config.connection = none := by
    rcases connection_of_not_writesFlag h hflag with hkept | hnone
    · exact hkept.trans hbefore
    · exact hnone
  exact ⟨hmove.running, fun hstate => hnone (hmove.state hstate),
    fun i htask => hnone (hmove.refused i htask)⟩

section

variable (u sha256Hex) (origin : Service) (es : List ServiceEvent)

/-- From instant `n` on no write of the flag succeeds. -/
def NoFlagWriteSince (n : Nat) : Prop :=
  ∀ m s₁ e s₂, n ≤ m → StepAt (Service.step u sha256Hex) origin es m s₁ e s₂ → ¬ s₁.WritesFlag e

/-- From instant `n` on no sleep and no shutdown is called. -/
def NoStopSince (n : Nat) : Prop :=
  ∀ m s₁ e s₂, n ≤ m → StepAt (Service.step u sha256Hex) origin es m s₁ e s₂ → ¬ s₁.Stops e

end

section

variable {config : CoreConfig} {backing : String → Option Int} {es : List ServiceEvent} {id : Nat}
  {ui : String}

theorem start_of_goesAt {origin s₁ s₂ : Service} {n : Nat}
    (h : GoesAt u sha256Hex origin es id (.confirmConsent ui) n s₁ .confirmStart
      (.returned (.ok none)) s₂) :
    s₂.config = s₁.config ∧ s₂.desk.coordinator = s₁.desk.coordinator.start := by
  obtain ⟨e, hat⟩ := h.step
  rcases step_segment hat.step h.before rfl with hkept | hadvance
  · rw [h.after] at hkept
    simp at hkept
  · simp only [advance, h.before] at hadvance
    obtain ⟨desk, hdesk, rfl⟩ := withDesk_eq_some.mp hadvance
    exact ⟨rfl, (Option.some.inj (LiveDesk.step_coordinator hdesk).1).symm⟩

theorem generation_start {c : Coordinator} (hrunning : c.inner.stopping = false) :
    c.start.inner.generation = c.inner.generation + 1 ∧ c.start.inner.state = .connecting := by
  rw [Coordinator.start, Coordinator.startLocked, hrunning]
  exact ⟨rfl, rfl⟩

/-- The flag of a consent's write stands until the next write. -/
theorem noneDisabled_since {origin s₁ s₂ t : Service} {w n : Nat}
    (hwritten : exec (Service.step u sha256Hex) origin (es.take (w + 1)) = some s₂)
    (hconfig : s₂.config = s₁.config.setLiveDesk true)
    (hkept : NoFlagWriteSince u sha256Hex origin es (w + 1)) (hle : w + 1 ≤ n)
    (ht : exec (Service.step u sha256Hex) origin (es.take n) = some t) : t.NoneDisabled := by
  have hsplit : (es.take n).take (w + 1) = es.take (w + 1) := by
    rw [List.take_take, Nat.min_eq_left hle]
  obtain ⟨r, hr, hrest⟩ := exec_take ht (w + 1)
  rw [hsplit, hwritten] at hr
  obtain rfl := Option.some.inj hr
  refine EveryStep.invariant (I := NoneDisabled) (noneDisabled_setLiveDesk hconfig)
    (fun _ _ _ henabled hnot hstep => henabled.step hstep hnot) ?_ hrest
  refine EveryStep.of_since (hsplit ▸ hwritten) ?_
  intro m t₁ e t₂ hm hat
  exact hkept m t₁ e t₂ hm hat.of_take.2

theorem granted_since {origin s₂ t : Service} {n m : Nat} (hs₂ : s₂.Granted)
    (hstarted : exec (Service.step u sha256Hex) origin (es.take (n + 1)) = some s₂)
    (hflag : NoFlagWriteSince u sha256Hex origin es (n + 1))
    (hstops : NoStopSince u sha256Hex origin es (n + 1)) (hlt : n < m)
    (ht : exec (Service.step u sha256Hex) origin (es.take m) = some t) : t.Granted := by
  have hsplit : (es.take m).take (n + 1) = es.take (n + 1) := by
    rw [List.take_take, Nat.min_eq_left hlt]
  obtain ⟨r, hr, hrest⟩ := exec_take ht (n + 1)
  rw [hsplit, hstarted] at hr
  obtain rfl := Option.some.inj hr
  refine EveryStep.invariant (I := Granted) (Q := fun t e _ => ¬ t.WritesFlag e ∧ ¬ t.Stops e) hs₂
    (fun _ _ _ hgranted hnot hstep => hgranted.step hstep hnot.1 hnot.2) ?_ hrest
  refine EveryStep.of_since (hsplit ▸ hstarted) ?_
  intro j t₁ e t₂ hj hat
  exact ⟨hflag j t₁ e t₂ hj hat.of_take.2, hstops j t₁ e t₂ hj hat.of_take.2⟩

/-- A consent that returned `Ok` has written the flag and called the coordinator's start after it.
When its write is the last one and no shutdown was in flight at that start, the start began a
generation; and while no sleep and no shutdown is called, the coordinator is never disabled under a
stored connection, which has the flag. -/
theorem consent_not_lost {s : Service}
    (hrun : exec (Service.step u sha256Hex) (new u sha256Hex config backing) es = some s)
    (hok : s.tasks id = some { command := .confirmConsent ui, stage := .returned (.ok none) }) :
    ∃ w n s₁ s₂, EnablesAt u sha256Hex (new u sha256Hex config backing) es id ui w ∧ w < n ∧
      GoesAt u sha256Hex (new u sha256Hex config backing) es id (.confirmConsent ui) n s₁
        .confirmStart (.returned (.ok none)) s₂ ∧
      (NoFlagWriteSince u sha256Hex (new u sha256Hex config backing) es (w + 1) →
        s₁.desk.coordinator.inner.stopping = false →
        s₂.desk.coordinator.inner.generation = s₁.desk.coordinator.inner.generation + 1 ∧
        s₂.desk.coordinator.inner.state = .connecting ∧
        (NoStopSince u sha256Hex (new u sha256Hex config backing) es (n + 1) →
          ∀ m t connection, n < m →
            exec (Service.step u sha256Hex) (new u sha256Hex config backing) (es.take m) = some t →
            t.config.connection = some connection → connection.liveDeskEnabled = true ∧
              t.desk.coordinator.inner.state ≠ .disabled)) := by
  obtain ⟨n, s₁, s₂, stage, stage', -, hstart, -, rfl, hsegment, -⟩ :=
    confirm_entry (S := fun stage => stage = .returned (.ok none)) hrun hok
      (fun heq => by cases heq) rfl
  cases hsegment with | started =>
  obtain ⟨i, slot, before, after, hpath⟩ := confirm_path hrun hok
  obtain ⟨t₁, t₂, hconfig, hwritten⟩ := hpath.written
  obtain ⟨b₁, b₂, -, hlast⟩ := hpath.revalidated
  have hlt : i.written < n := by
    obtain ⟨m, r₁, r₂, stage, hmn, hgoes, hsegment⟩ := hstart.earlier (fun heq => by cases heq)
    cases hsegment with | revalidated candidate after' hvalid =>
    obtain rfl := hgoes.unique hlast rfl (Nat.lt_succ_self _) (Nat.lt_succ_self _)
    have horder := hpath.order
    omega
  obtain ⟨e, hat⟩ := hstart.step
  obtain ⟨f, hatWritten⟩ := hwritten.step
  refine ⟨i.written, n, s₁, s₂, ⟨t₁, t₂, _, hwritten⟩, hlt, hstart, ?_⟩
  intro hflag hrunning
  obtain ⟨hsame, hstarted⟩ := start_of_goesAt hstart
  rw [hstarted]
  obtain ⟨hgeneration, hconnecting⟩ := generation_start hrunning
  refine ⟨hgeneration, hconnecting, ?_⟩
  intro hstops m t connection hm ht hconnection
  have hgranted : s₂.Granted := by
    have hinv := desk_inv_run hat.before
    refine ⟨desk_inv_run hat.after, ?_, ?_⟩
    · exact noneDisabled_since hatWritten.after hconfig hflag (Nat.succ_le_succ hlt.le) hat.after
    · rw [hstarted]
      exact Coordinator.disabledOnlyIf_start hinv.coordinator _ hrunning
  have hend := granted_since hgranted hat.after
    (fun j r₁ e' r₂ hj hat' => hflag j r₁ e' r₂ (by omega) hat') hstops hm ht
  refine ⟨hend.flag connection hconnection, fun hdisabled => ?_⟩
  rw [hend.coordinator.state hdisabled] at hconnection
  contradiction

theorem consent_not_lost_consentedOnly :
    ∃ s w n s₁ s₂,
      exec (Service.step UnicodeData.ascii (fun _ => "digest")) paired consentedOnly = some s ∧
      s.tasks 1 = some { command := .confirmConsent "digest", stage := .returned (.ok none) } ∧
      EnablesAt UnicodeData.ascii (fun _ => "digest") paired consentedOnly 1 "digest" w ∧ w < n ∧
      GoesAt UnicodeData.ascii (fun _ => "digest") paired consentedOnly 1
        (.confirmConsent "digest") n s₁ .confirmStart (.returned (.ok none)) s₂ ∧
      (NoFlagWriteSince UnicodeData.ascii (fun _ => "digest") paired consentedOnly (w + 1) →
        s₁.desk.coordinator.inner.stopping = false →
        s₂.desk.coordinator.inner.state = .connecting) := by
  have hrun : ∃ s,
      exec (Service.step UnicodeData.ascii (fun _ => "digest")) paired consentedOnly = some s ∧
      s.tasks 1 = some { command := .confirmConsent "digest", stage := .returned (.ok none) } :=
    ⟨_, rfl, rfl⟩
  obtain ⟨s, hs, hok⟩ := hrun
  obtain ⟨w, n, s₁, s₂, henables, hlt, hstart, hgranted⟩ := consent_not_lost hs hok
  exact ⟨s, w, n, s₁, s₂, hs, hok, henables, hlt, hstart,
    fun hflag hrunning => (hgranted hflag hrunning).2.1⟩

/-- A disable writes and begins its shutdown; then a consent past its first validation writes,
validates again and starts, and the shutdown ends. -/
def startedDuringShutdown : List ServiceEvent :=
  previewedBy 0 "editor" ++ clickedBy 1 "digest" ++ capturedBy 1 "editor" ++
    [ServiceEvent.called 2 .disableLiveDesk, .completed 2 true, .advance 2] ++
    enabledBy 1 "editor" ++
    [ServiceEvent.desk (.coordinator (.shutdownJoined 0 0)),
      .desk (.coordinator (.shutdownFinish 0)), .advance 2]

theorem event_after {es : List ServiceEvent} {n m : Nat} {e : ServiceEvent} (hle : n ≤ m)
    (h : es[m]? = some e) : e ∈ es.drop n := by
  rw [← Nat.add_sub_cancel' hle, ← List.getElem?_drop] at h
  exact List.mem_of_getElem? h

/-- The consent returned `Ok`, its write is the last one, no sleep and no shutdown is called after
its start; no generation has begun since the write, and the coordinator is left disabled with no
configure under a stored connection that has the flag. -/
theorem consent_lost_duringShutdown :
    ∃ s s₁ s₂ t,
      exec (Service.step UnicodeData.ascii (fun _ => "digest")) paired startedDuringShutdown =
        some s ∧
      s.tasks 1 = some { command := .confirmConsent "digest", stage := .returned (.ok none) } ∧
      EnablesAt UnicodeData.ascii (fun _ => "digest") paired startedDuringShutdown 1 "digest" 17 ∧
      NoFlagWriteSince UnicodeData.ascii (fun _ => "digest") paired startedDuringShutdown 18 ∧
      GoesAt UnicodeData.ascii (fun _ => "digest") paired startedDuringShutdown 1
        (.confirmConsent "digest") 23 s₁ .confirmStart (.returned (.ok none)) s₂ ∧
      NoStopSince UnicodeData.ascii (fun _ => "digest") paired startedDuringShutdown 24 ∧
      exec (Service.step UnicodeData.ascii (fun _ => "digest")) paired
        (startedDuringShutdown.take 18) = some t ∧
      s.desk.coordinator.inner.generation = t.desk.coordinator.inner.generation ∧
      s.desk.coordinator.inner.state = .disabled ∧
      (∀ i, s.desk.coordinator.configures i = none) ∧
      s.config.connection = some Coordinator.enabledConnection := by
  have hrun : ∃ s t,
      exec (Service.step UnicodeData.ascii (fun _ => "digest")) paired startedDuringShutdown =
        some s ∧
      exec (Service.step UnicodeData.ascii (fun _ => "digest")) paired
        (startedDuringShutdown.take 18) = some t ∧
      s.tasks 1 = some { command := .confirmConsent "digest", stage := .returned (.ok none) } ∧
      t.tasks 1 = some {
        command := .confirmConsent "digest", stage := .afterOptions (confirmationOf "editor") } ∧
      s.desk.coordinator.inner.generation = t.desk.coordinator.inner.generation ∧
      s.desk.coordinator.inner.state = .disabled ∧
      (∀ i, s.desk.coordinator.configures i = none) ∧
      s.config.connection = some Coordinator.enabledConnection :=
    ⟨_, _, rfl, rfl, rfl, rfl, rfl, rfl, fun _ => rfl, rfl⟩
  have hstates : ∃ r s₁ s₂ q,
      exec (Service.step UnicodeData.ascii (fun _ => "digest")) paired
        (startedDuringShutdown.take 17) = some r ∧
      r.tasks 1 = some {
        command := .confirmConsent "digest", stage := .enable (confirmationOf "editor") } ∧
      exec (Service.step UnicodeData.ascii (fun _ => "digest")) paired
        (startedDuringShutdown.take 23) = some s₁ ∧
      s₁.tasks 1 = some { command := .confirmConsent "digest", stage := .confirmStart } ∧
      exec (Service.step UnicodeData.ascii (fun _ => "digest")) paired
        (startedDuringShutdown.take 24) = some s₂ ∧
      s₂.tasks 1 = some { command := .confirmConsent "digest", stage := .returned (.ok none) } ∧
      exec (Service.step UnicodeData.ascii (fun _ => "digest")) paired
        (startedDuringShutdown.take 26) = some q ∧
      q.tasks 2 = some { command := .disableLiveDesk, stage := .shutdownWait 0 .disabled } :=
    ⟨_, _, _, _, rfl, rfl, rfl, rfl, rfl, rfl, rfl, rfl⟩
  obtain ⟨s, t, hs, ht, hok, hwritten, hgeneration, hdisabled, hconfigures, hconnection⟩ := hrun
  obtain ⟨r, s₁, s₂, q, hr, henable, hs₁, hstart, hs₂, hreturned, hq, hwaiting⟩ := hstates
  refine ⟨s, s₁, s₂, t, hs, hok, ⟨r, t, confirmationOf "editor", ?_⟩, ?_, ?_, ?_, ht, hgeneration,
    hdisabled, hconfigures, hconnection⟩
  · exact goesAt_of_take hr ht (by decide) henable hwritten
  · rintro m t₁ e t₂ hle hat ⟨id, command, stage, rfl, -⟩
    have hmem := event_after hle hat.event
    simp [startedDuringShutdown, previewedBy, clickedBy, capturedBy, enabledBy] at hmem
  · exact goesAt_of_take hs₁ hs₂ (by decide) hstart hreturned
  · intro m t₁ e t₂ hle hat hstops
    have hmem := event_after hle hat.event
    rcases hstops with ⟨now, rfl⟩ | ⟨reason, rfl⟩ | ⟨id, command, next, rfl, htask⟩
    · simp [startedDuringShutdown, previewedBy, clickedBy, capturedBy, enabledBy] at hmem
    · simp [startedDuringShutdown, previewedBy, clickedBy, capturedBy, enabledBy] at hmem
    · -- The only command left is the disable, which waits for its shutdown.
      have hlt : m < 27 := hat.lt_length
      have hevent := hat.event
      obtain rfl | rfl | rfl : m = 24 ∨ m = 25 ∨ m = 26 := by omega
      · simp [startedDuringShutdown, previewedBy, clickedBy, capturedBy, enabledBy] at hevent
      · simp [startedDuringShutdown, previewedBy, clickedBy, capturedBy, enabledBy] at hevent
      · obtain rfl : t₁ = q := Option.some.inj (hat.before.symm.trans hq)
        simp [startedDuringShutdown, previewedBy, clickedBy, capturedBy, enabledBy] at hevent
        subst hevent
        rw [hwaiting] at htask
        simp at htask

end

end Service

end YohakuCore
