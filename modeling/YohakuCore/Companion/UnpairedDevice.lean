import YohakuCore.Companion.ConsentPairing
import YohakuCore.Companion.ReleasedDevice

/-!
# What an unpair leaves running

Unless a consent enables the live desk in between, the coordinator has let the device go when an
unpair returns.
-/

namespace YohakuCore

open Framework

variable {u : UnicodeData} {sha256Hex : String → String}

namespace Service

/-- A pair persists its connection with the device. -/
def PairsDevice (deviceId : String) (s : Service) (e : ServiceEvent) : Prop :=
  ∃ id command result, e = .completed id true ∧
    s.tasks id = some { command := command, stage := .pairStore result } ∧
    result.deviceId = deviceId

/-- Neither the configuration nor the coordinator has anything of the device. -/
structure Unpaired (deviceId : String) (s : Service) : Prop where
  desk : s.desk.Inv
  stored : ∀ connection, s.config.connection = some connection → connection.deviceId ≠ deviceId
  released : s.desk.coordinator.Released deviceId

theorem Unpaired.stored_step {s s' : Service} {e : ServiceEvent} {deviceId : String}
    (hunpaired : Unpaired deviceId s) (h : s.step u sha256Hex e = some s')
    (hnot : ¬ PairsDevice deviceId s e) {connection : StoredConnection}
    (hconnection : s'.config.connection = some connection) : connection.deviceId ≠ deviceId := by
  rcases step_pairing h with hsame | ⟨id, command, result, rfl, htask⟩ | ⟨-, hnone⟩
  · rw [claimOf, hconnection, Option.map_some] at hsame
    obtain ⟨before, hbefore, hclaim⟩ := Option.map_eq_some_iff.mp hsame.symm
    obtain ⟨-, hdevice⟩ := Prod.mk.inj hclaim
    exact hdevice ▸ hunpaired.stored before hbefore
  · rw [step_written h htask rfl] at hconnection
    obtain rfl := Option.some.inj hconnection
    exact fun hdevice => hnot ⟨id, command, result, rfl, htask, hdevice⟩
  · rw [hnone] at hconnection
    contradiction

theorem Unpaired.step {s s' : Service} {e : ServiceEvent} {deviceId : String}
    (hunpaired : Unpaired deviceId s) (h : s.step u sha256Hex e = some s')
    (hnot : ¬ PairsDevice deviceId s e) : Unpaired deviceId s' where
  desk := desk_inv_step hunpaired.desk h
  stored _ hconnection := hunpaired.stored_step h hnot hconnection
  released := by
    cases step_desk h with
    | kept hdesk => exact hdesk ▸ hunpaired.released
    | moved f hf hgate =>
        cases f with
        | writer f => exact (LiveDesk.step_writer hf).2 ▸ hunpaired.released
        | coordinator f =>
            refine hunpaired.released.step hunpaired.desk.coordinator
              (LiveDesk.step_coordinator hf).1 ?_
            rintro i connection rfl
            exact hunpaired.stored connection (hgate i _ rfl).2.symm

/-- The step runs the mutation `k`, which touches the sequence state of the device. -/
def TouchesDevice (deviceId : String) (s : Service) (e : ServiceEvent) (s' : Service) (k : Nat) :
    Prop :=
  ∃ f, DeskSource s e f ∧ s.desk.step f = some s'.desk ∧
    LiveDesk.Touches deviceId s.desk f s'.desk k

theorem touchesDevice_of_entry {s s' : Service} {e : ServiceEvent} {deviceId : String} {v : Int}
    (h : s.step u sha256Hex e = some s') (hentry : s'.desk.writer.backing deviceId = some v)
    (hchanged : s.desk.writer.backing deviceId ≠ some v) :
    ∃ k, TouchesDevice deviceId s e s' k := by
  cases step_deskRun h with
  | kept hdesk =>
      rw [hdesk] at hentry
      exact absurd hentry hchanged
  | ran f hf hsource =>
      obtain ⟨k, htouches⟩ := LiveDesk.touches_of_entry hf hentry hchanged
      exact ⟨k, f, hsource, hf, htouches⟩

theorem abandoned_step {s s' : Service} {e : ServiceEvent} {deviceId : String} {t : LiveDesk}
    (hunpaired : Unpaired deviceId s) (habandoned : LiveDesk.Abandoned deviceId t s.desk)
    (h : s.step u sha256Hex e = some s') : LiveDesk.Abandoned deviceId t s'.desk := by
  cases step_desk h with
  | kept hdesk => exact hdesk ▸ habandoned
  | moved f hf _ => exact habandoned.step hunpaired.desk hunpaired.released hf

/-- The segments of the unpair `id`, with what each meets and leaves. -/
inductive UnpairSegment (s s' : Service) : Stage → Stage → Prop
  | absent (connection : s.config.connection = none) :
      UnpairSegment s s' .unpairEntry (.returned (.ok none))
  | entered (connection : StoredConnection) (stored : s.config.connection = some connection) :
      UnpairSegment s s' .unpairEntry (.unpairDisable connection.deviceId)
  | disabled (deviceId : String) (config : s'.config = s.config.setLiveDesk false) :
      UnpairSegment s s' (.unpairDisable deviceId) (.shutdown (.unpair deviceId))
  | joined (deviceId : String)
      (desk : s.desk.step (.coordinator (.shutdown .connectionRemoved)) = some s'.desk) :
      UnpairSegment s s' (.shutdown (.unpair deviceId)) (.unpairDiscard deviceId)
  | shutdown (deviceId : String) (task : Nat)
      (desk : s.desk.step (.coordinator (.shutdown .connectionRemoved)) = some s'.desk) :
      UnpairSegment s s' (.shutdown (.unpair deviceId)) (.shutdownWait task (.unpair deviceId))
  | waited (deviceId : String) (task : Nat) :
      UnpairSegment s s' (.shutdownWait task (.unpair deviceId)) (.unpairDiscard deviceId)
  | discarded (deviceId : String)
      (desk : s.desk.step (.coordinator .discardAuthority) = some s'.desk) :
      UnpairSegment s s' (.unpairDiscard deviceId) (.unpairDelete deviceId)
  | deleted (deviceId : String) :
      UnpairSegment s s' (.unpairDelete deviceId) (.unpairRemove deviceId)
  | removed (deviceId : String)
      (desk : s.desk.step (.writer (.remove deviceId)) = some s'.desk) :
      UnpairSegment s s' (.unpairRemove deviceId) .unpairForget
  | forgotten (desk : s'.desk = s.desk) (connection : s'.config.connection = none) :
      UnpairSegment s s' .unpairForget .unpairGate
  | cleared : UnpairSegment s s' .unpairGate .unpairSlot
  | dropped : UnpairSegment s s' .unpairSlot (.returned (.ok none))
  | failed (stage : Stage) (error : IpcErrorCode) :
      UnpairSegment s s' stage (.returned (.error error))

/-- The unpair `id` runs a segment of its own. -/
def UnpairReaches (id : Nat) (s s' : Service) (stage : Stage) : Prop :=
  ∃ stage', s'.tasks id = some { command := .unpair, stage := stage' } ∧
    UnpairSegment s s' stage stage'

theorem unpairReaches_goto {s r : Service} {id : Nat} {stage stage' : Stage}
    (h : UnpairSegment s (r.goto id .unpair stage') stage stage') :
    UnpairReaches id s (r.goto id .unpair stage') stage :=
  ⟨stage', goto_tasks_self _ _ _ _, h⟩

theorem AfterShutdown.eq_unpair {next : AfterShutdown} (h : Command.unpair = next.command) :
    ∃ deviceId, next = .unpair deviceId := by
  cases next with
  | unpair deviceId => exact ⟨deviceId, rfl⟩
  | _ => contradiction

theorem advance_unpair {s s' : Service} {id : Nat} {stage : Stage}
    (h : s.advance u sha256Hex id = some s')
    (htask : s.tasks id = some { command := .unpair, stage := stage })
    (hstage : stage.belongs .unpair = true) : UnpairReaches id s s' stage := by
  rw [advance, htask] at h
  cases stage with
  | unpairEntry =>
      dsimp only at h
      split at h
      · rename_i hnone
        obtain rfl := Option.some.inj h
        exact unpairReaches_goto (.absent hnone)
      · rename_i connection hconnection
        obtain rfl := Option.some.inj h
        exact unpairReaches_goto (.entered connection hconnection)
  | shutdown next =>
      obtain ⟨deviceId, rfl⟩ := AfterShutdown.eq_unpair (of_decide_eq_true hstage)
      obtain ⟨desk, hdesk, rfl⟩ := withDesk_eq_some.mp h
      refine ⟨_, goto_tasks_self _ _ _ _, ?_⟩
      split
      · exact .joined deviceId hdesk
      · exact .shutdown deviceId _ hdesk
  | shutdownWait task next =>
      obtain ⟨deviceId, rfl⟩ := AfterShutdown.eq_unpair (of_decide_eq_true hstage)
      dsimp only at h
      split at h
      · obtain rfl := Option.some.inj h
        exact unpairReaches_goto (.waited deviceId task)
      · contradiction
  | unpairDiscard deviceId =>
      obtain ⟨desk, hdesk, rfl⟩ := withDesk_eq_some.mp h
      exact ⟨_, goto_tasks_self _ _ _ _, .discarded deviceId hdesk⟩
  | unpairGate =>
      obtain rfl := Option.some.inj h
      exact unpairReaches_goto .cleared
  | unpairSlot =>
      obtain rfl := Option.some.inj h
      exact unpairReaches_goto .dropped
  | _ => contradiction

theorem completed_unpair {s s' : Service} {id : Nat} {succeeds : Bool} {stage : Stage}
    (h : s.completed id succeeds = some s')
    (htask : s.tasks id = some { command := .unpair, stage := stage })
    (hstage : stage.belongs .unpair = true) : UnpairReaches id s s' stage := by
  rw [completed, htask] at h
  cases stage with
  | unpairDisable deviceId =>
      dsimp only [Stage.write] at h
      split at h
      · obtain rfl := Option.some.inj h
        exact unpairReaches_goto (.disabled deviceId rfl)
      · obtain rfl := Option.some.inj h
        exact unpairReaches_goto (.failed _ .internal)
  | unpairDelete deviceId =>
      obtain rfl := Option.some.inj h
      exact unpairReaches_goto (.deleted deviceId)
  | unpairRemove deviceId =>
      dsimp only at h
      split at h
      · obtain ⟨desk, hdesk, rfl⟩ := withDesk_eq_some.mp h
        exact ⟨_, goto_tasks_self _ _ _ _, .removed deviceId hdesk⟩
      · obtain rfl := Option.some.inj h
        exact unpairReaches_goto (.failed _ .internal)
  | unpairForget =>
      dsimp only [Stage.write] at h
      split at h
      · obtain rfl := Option.some.inj h
        exact unpairReaches_goto (.forgotten rfl rfl)
      · obtain rfl := Option.some.inj h
        exact unpairReaches_goto (.failed _ .internal)
  | _ => contradiction

theorem unpair_awaits {stage : Stage} (h : stage.belongs .unpair = true) :
    stage.awaits = none ∨ stage.awaits = some .segment ∨ stage.awaits = some .write := by
  cases stage <;> simp [Stage.awaits, Stage.belongs, Command.previews, Command.uiFingerprint] at h ⊢

/-- An unpair stays, or runs one of its segments. -/
theorem step_unpair {s s' : Service} {e : ServiceEvent} {id : Nat} {stage : Stage}
    (hplaced : s.Placed) (h : s.step u sha256Hex e = some s')
    (htask : s.tasks id = some { command := .unpair, stage := stage }) :
    s'.tasks id = some { command := .unpair, stage := stage } ∨ UnpairReaches id s s' stage := by
  have hstage := hplaced id .unpair stage htask
  rcases step_segment_or_write h htask (unpair_awaits hstage) with
      hkept | hadvance | ⟨succeeds, hcompleted⟩
  · exact Or.inl hkept
  · exact Or.inr (advance_unpair hadvance htask hstage)
  · exact Or.inr (completed_unpair hcompleted htask hstage)

section

variable (u sha256Hex) (origin : Service) (es : List ServiceEvent) (id : Nat)

/-- At instant `w` the unpair `id` of the device writes the disabled flag. -/
def UnpairDisablesAt (deviceId : String) (w : Nat) : Prop :=
  ∃ s₁ s₂, GoesAt u sha256Hex origin es id .unpair w s₁ (.unpairDisable deviceId)
    (.shutdown (.unpair deviceId)) s₂

/-- At instant `f` the unpair `id` removes the connection. -/
def UnpairForgetsAt (f : Nat) : Prop :=
  ∃ s₁ s₂, GoesAt u sha256Hex origin es id .unpair f s₁ .unpairForget .unpairGate s₂

/-- The unpair `id` of the device writes the disabled flag at instant `w`, removes the connection at
instant `f` and returns `Ok` at instant `n`, in the state `t`. -/
structure UnpairsAt (deviceId : String) (w f n : Nat) (t : Service) : Prop where
  disables : UnpairDisablesAt u sha256Hex origin es id deviceId w
  forgets : UnpairForgetsAt u sha256Hex origin es id f
  returns : ∃ s₁, GoesAt u sha256Hex origin es id .unpair n s₁ .unpairSlot (.returned (.ok none)) t

/-- From instant `f` on no pair persists its connection with the device. -/
def NotPairedSince (deviceId : String) (f : Nat) : Prop :=
  ∀ m s₁ e s₂, f ≤ m → StepAt (Service.step u sha256Hex) origin es m s₁ e s₂ →
    ¬ PairsDevice deviceId s₁ e

/-- After instant `n` the sequence state of the device is touched by what `t` has left only. -/
def OnlyLeftOver (deviceId : String) (n : Nat) (t : Service) : Prop :=
  ∀ m s₁ e s₂, n < m → StepAt (Service.step u sha256Hex) origin es m s₁ e s₂ →
    (∀ k, TouchesDevice deviceId s₁ e s₂ k → t.desk.LeftOver s₁.desk k) ∧
    ∀ v, s₂.desk.writer.backing deviceId = some v → s₁.desk.writer.backing deviceId ≠ some v →
      ∃ k, TouchesDevice deviceId s₁ e s₂ k ∧ t.desk.LeftOver s₁.desk k

end

/-- The flag is off and the coordinator quiet. -/
structure Stopped (s : Service) : Prop where
  off : s.FlagOff
  quiet : s.desk.coordinator.Quiet

theorem Stopped.step {s s' : Service} {e : ServiceEvent} (hstopped : s.Stopped)
    (hplaced : s.Placed) (hinv : s.desk.Inv) (h : s.step u sha256Hex e = some s')
    (hnot : ¬ s.Enables e) : s'.Stopped :=
  ⟨hstopped.off.step hplaced h hnot, quiet_step hstopped.quiet hinv hstopped.off h⟩

theorem Stopped.unarmed_step {s s' : Service} {e : ServiceEvent} (hstopped : s.Stopped)
    (hunarmed : s.desk.coordinator.Unarmed) (h : s.step u sha256Hex e = some s') :
    s'.desk.coordinator.Unarmed := by
  cases step_desk h with
  | kept hdesk => exact hdesk ▸ hunarmed
  | moved f hf _ =>
      cases f with
      | writer f => exact (LiveDesk.step_writer hf).2 ▸ hunarmed
      | coordinator f => exact hunarmed.step hstopped.quiet (LiveDesk.step_coordinator hf).1

section

variable (u sha256Hex) (origin : Service) (es : List ServiceEvent) (id : Nat)

/-- The unpair `id` of the device has written the disabled flag, and `P` holds unless a consent has
enabled the live desk since. -/
def SinceDisable (deviceId : String) (P : Prop) : Prop :=
  ∃ w, UnpairDisablesAt u sha256Hex origin es id deviceId w ∧
    (NoneEnablesAfter u sha256Hex origin es w → P)

/-- The unpair `id` of the device has removed the connection, and `P` holds unless a consent has
enabled the live desk before that, or a pair has persisted the device since. -/
def SinceForget (deviceId : String) (P : Prop) : Prop :=
  ∃ w f, UnpairDisablesAt u sha256Hex origin es id deviceId w ∧
    UnpairForgetsAt u sha256Hex origin es id f ∧
    (NoneEnablesAfter u sha256Hex origin (es.take f) w →
      NotPairedSince u sha256Hex origin es deviceId f → P)

/-- The unpair `id` has found no connection. -/
def FoundAbsent : Prop :=
  ∃ n s₁ s₂, s₁.config.connection = none ∧
    GoesAt u sha256Hex origin es id .unpair n s₁ .unpairEntry (.returned (.ok none)) s₂

/-- The unpair `id` of the device has returned `Ok`, and since then the device is left alone, unless
a consent has enabled the live desk during the unpair or a pair has persisted the device since. -/
def SinceUnpair (deviceId : String) (s : Service) : Prop :=
  ∃ w f n t, UnpairsAt u sha256Hex origin es id deviceId w f n t ∧
    (NoneEnablesAfter u sha256Hex origin (es.take f) w →
      NotPairedSince u sha256Hex origin es deviceId f →
      Unpaired deviceId s ∧ LiveDesk.Abandoned deviceId t.desk s.desk ∧
        OnlyLeftOver u sha256Hex origin es deviceId n t)

/-- What the unpair `id` has done by the time it stands at a stage. -/
def UnpairPast (s : Service) : Stage → Prop
  | .shutdown (.unpair deviceId) => SinceDisable u sha256Hex origin es id deviceId s.FlagOff
  | .shutdownWait _ (.unpair deviceId) | .unpairDiscard deviceId =>
      SinceDisable u sha256Hex origin es id deviceId s.Stopped
  | .unpairDelete deviceId | .unpairRemove deviceId =>
      SinceDisable u sha256Hex origin es id deviceId
        (s.Stopped ∧ s.desk.coordinator.Unarmed)
  | .unpairForget => ∃ deviceId, SinceDisable u sha256Hex origin es id deviceId
      (s.Stopped ∧ s.desk.coordinator.Unarmed)
  | .unpairGate | .unpairSlot => ∃ deviceId,
      SinceForget u sha256Hex origin es id deviceId (Unpaired deviceId s)
  | .returned (.ok none) => FoundAbsent u sha256Hex origin es id ∨
      ∃ deviceId, SinceUnpair u sha256Hex origin es id deviceId s
  | _ => True

end

section

variable {origin s s' : Service} {es : List ServiceEvent} {e : ServiceEvent} {id : Nat}
  {deviceId : String}

theorem UnpairDisablesAt.append_right {w : Nat}
    (h : UnpairDisablesAt u sha256Hex origin es id deviceId w) (fs : List ServiceEvent) :
    UnpairDisablesAt u sha256Hex origin (es ++ fs) id deviceId w := by
  obtain ⟨s₁, s₂, hgoes⟩ := h
  exact ⟨s₁, s₂, hgoes.append_right fs⟩

theorem UnpairForgetsAt.append_right {f : Nat} (h : UnpairForgetsAt u sha256Hex origin es id f)
    (fs : List ServiceEvent) : UnpairForgetsAt u sha256Hex origin (es ++ fs) id f := by
  obtain ⟨s₁, s₂, hgoes⟩ := h
  exact ⟨s₁, s₂, hgoes.append_right fs⟩

theorem UnpairForgetsAt.lt_length {f : Nat} (h : UnpairForgetsAt u sha256Hex origin es id f) :
    f < es.length := by
  obtain ⟨s₁, s₂, hgoes⟩ := h
  obtain ⟨e, hat⟩ := hgoes.step
  exact hat.lt_length

theorem SinceDisable.keep {P P' : Prop} (h : SinceDisable u sha256Hex origin es id deviceId P)
    (hs : exec (Service.step u sha256Hex) origin es = some s)
    (hstep : s.step u sha256Hex e = some s') (hkept : P → ¬ s.Enables e → P') :
    SinceDisable u sha256Hex origin (es ++ [e]) id deviceId P' := by
  obtain ⟨w, hdisables, hP⟩ := h
  have hlt : w < es.length := by
    obtain ⟨s₁, s₂, hgoes⟩ := hdisables
    obtain ⟨f, hat⟩ := hgoes.step
    exact hat.lt_length
  refine ⟨w, hdisables.append_right [e], ?_⟩
  intro hnone
  apply hkept
  · exact hP (fun m s₁ f s₂ hm hat => hnone m s₁ f s₂ hm (hat.append_right [e]))
  · exact hnone es.length s e s' hlt (StepAt.last hs hstep)

theorem enabled_before_concat {f w : Nat} (hlt : f < es.length)
    (hnone : NoneEnablesAfter u sha256Hex origin ((es ++ [e]).take f) w) :
    NoneEnablesAfter u sha256Hex origin (es.take f) w := by
  rw [List.take_append_of_le_length hlt.le] at hnone
  exact hnone

theorem NotPairedSince.of_concat {f : Nat}
    (h : NotPairedSince u sha256Hex origin (es ++ [e]) deviceId f) :
    NotPairedSince u sha256Hex origin es deviceId f :=
  fun m s₁ g s₂ hm hat => h m s₁ g s₂ hm (hat.append_right [e])

theorem NotPairedSince.last {f : Nat}
    (h : NotPairedSince u sha256Hex origin (es ++ [e]) deviceId f) (hlt : f < es.length)
    (hs : exec (Service.step u sha256Hex) origin es = some s)
    (hstep : s.step u sha256Hex e = some s') : ¬ PairsDevice deviceId s e :=
  h es.length s e s' hlt.le (StepAt.last hs hstep)

theorem SinceForget.keep {P P' : Prop} (h : SinceForget u sha256Hex origin es id deviceId P)
    (hs : exec (Service.step u sha256Hex) origin es = some s)
    (hstep : s.step u sha256Hex e = some s') (hkept : P → ¬ PairsDevice deviceId s e → P') :
    SinceForget u sha256Hex origin (es ++ [e]) id deviceId P' := by
  obtain ⟨w, f, hdisables, hforgets, hP⟩ := h
  have hlt := hforgets.lt_length
  refine ⟨w, f, hdisables.append_right [e], hforgets.append_right [e], ?_⟩
  intro hnone hpaired
  exact hkept (hP (enabled_before_concat hlt hnone) hpaired.of_concat)
    (hpaired.last hlt hs hstep)

theorem OnlyLeftOver.concat {n : Nat} {t : Service}
    (h : OnlyLeftOver u sha256Hex origin es deviceId n t)
    (hunpaired : Unpaired deviceId s) (habandoned : LiveDesk.Abandoned deviceId t.desk s.desk)
    (hs : exec (Service.step u sha256Hex) origin es = some s)
    (hstep : s.step u sha256Hex e = some s') :
    OnlyLeftOver u sha256Hex origin (es ++ [e]) deviceId n t := by
  intro m s₁ g s₂ hm hat
  rcases hat.concat_cases hs hstep with hbefore | ⟨-, rfl, rfl, rfl⟩
  · exact h m s₁ g s₂ hm hbefore
  · have hleft (k : Nat) (htouches : TouchesDevice deviceId s₁ g s₂ k) :
        t.desk.LeftOver s₁.desk k := by
      obtain ⟨f, -, hf, htouches⟩ := htouches
      exact habandoned.leftOver hunpaired.desk hf htouches
    refine ⟨hleft, ?_⟩
    intro v hentry hchanged
    obtain ⟨k, htouches⟩ := touchesDevice_of_entry hstep hentry hchanged
    exact ⟨k, htouches, hleft k htouches⟩

theorem SinceUnpair.keep (h : SinceUnpair u sha256Hex origin es id deviceId s)
    (hs : exec (Service.step u sha256Hex) origin es = some s)
    (hstep : s.step u sha256Hex e = some s') :
    SinceUnpair u sha256Hex origin (es ++ [e]) id deviceId s' := by
  obtain ⟨w, f, n, t, ⟨hdisables, hforgets, s₁, hreturns⟩, hfinal⟩ := h
  have hlt := hforgets.lt_length
  refine ⟨w, f, n, t, ⟨hdisables.append_right [e], hforgets.append_right [e], s₁,
    hreturns.append_right [e]⟩, ?_⟩
  intro hnone hpaired
  obtain ⟨hunpaired, habandoned, honly⟩ :=
    hfinal (enabled_before_concat hlt hnone) hpaired.of_concat
  exact ⟨hunpaired.step hstep (hpaired.last hlt hs hstep),
    abandoned_step hunpaired habandoned hstep, honly.concat hunpaired habandoned hs hstep⟩

theorem UnpairPast.keep {stage : Stage} (h : UnpairPast u sha256Hex origin es id s stage)
    (hs : exec (Service.step u sha256Hex) origin es = some s) (hplaced : s.Placed)
    (hinv : s.desk.Inv) (hstep : s.step u sha256Hex e = some s') :
    UnpairPast u sha256Hex origin (es ++ [e]) id s' stage := by
  have hstopped (hbefore : s.Stopped) (hnot : ¬ s.Enables e) : s'.Stopped :=
    hbefore.step hplaced hinv hstep hnot
  have hunarmed (hbefore : s.Stopped ∧ s.desk.coordinator.Unarmed) (hnot : ¬ s.Enables e) :
      s'.Stopped ∧ s'.desk.coordinator.Unarmed :=
    ⟨hstopped hbefore.1 hnot, hbefore.1.unarmed_step hbefore.2 hstep⟩
  have hunpaired {deviceId : String} (hbefore : Unpaired deviceId s)
      (hnot : ¬ PairsDevice deviceId s e) : Unpaired deviceId s' := hbefore.step hstep hnot
  cases stage with
  | shutdown next =>
      cases next with
      | unpair deviceId =>
          exact SinceDisable.keep h hs hstep (fun hoff hnot => hoff.step hplaced hstep hnot)
      | _ => trivial
  | shutdownWait task next =>
      cases next with
      | unpair deviceId => exact SinceDisable.keep h hs hstep hstopped
      | _ => trivial
  | unpairDiscard deviceId => exact SinceDisable.keep h hs hstep hstopped
  | unpairDelete deviceId => exact SinceDisable.keep h hs hstep hunarmed
  | unpairRemove deviceId => exact SinceDisable.keep h hs hstep hunarmed
  | unpairForget =>
      obtain ⟨deviceId, h⟩ := h
      exact ⟨deviceId, h.keep hs hstep hunarmed⟩
  | unpairGate =>
      obtain ⟨deviceId, h⟩ := h
      exact ⟨deviceId, h.keep hs hstep hunpaired⟩
  | unpairSlot =>
      obtain ⟨deviceId, h⟩ := h
      exact ⟨deviceId, h.keep hs hstep hunpaired⟩
  | returned result =>
      match result, h with
      | .ok none, .inl ⟨n, s₁, s₂, hnone, hgoes⟩ =>
          exact Or.inl ⟨n, s₁, s₂, hnone, hgoes.append_right [e]⟩
      | .ok none, .inr ⟨deviceId, hsince⟩ => exact Or.inr ⟨deviceId, hsince.keep hs hstep⟩
      | .ok (some preview), _ => trivial
      | .error error, _ => trivial
  | _ => trivial

theorem UnpairPast.segment {stage stage' : Stage}
    (h : UnpairPast u sha256Hex origin es id s stage)
    (hs : exec (Service.step u sha256Hex) origin es = some s) (hplaced : s.Placed)
    (hinv : s.desk.Inv) (hstep : s.step u sha256Hex e = some s')
    (htask : s.tasks id = some { command := .unpair, stage := stage })
    (htask' : s'.tasks id = some { command := .unpair, stage := stage' })
    (hsegment : UnpairSegment s s' stage stage') :
    UnpairPast u sha256Hex origin (es ++ [e]) id s' stage' := by
  have hgoes : GoesAt u sha256Hex origin (es ++ [e]) id .unpair es.length s stage stage' s' :=
    ⟨⟨e, StepAt.last hs hstep⟩, htask, htask'⟩
  have hkept := h.keep hs hplaced hinv hstep
  cases hsegment with
  | absent hnone => exact Or.inl ⟨es.length, s, s', hnone, hgoes⟩
  | entered connection _ => trivial
  | disabled deviceId hconfig =>
      exact ⟨es.length, ⟨s, s', hgoes⟩, fun _ => flagOff_setLiveDesk hconfig⟩
  | joined deviceId hdesk =>
      obtain ⟨w, hdisables, hoff⟩ := hkept
      exact ⟨w, hdisables, fun hnone => ⟨hoff hnone, quiet_of_shutdown hinv hdesk⟩⟩
  | shutdown deviceId task hdesk =>
      obtain ⟨w, hdisables, hoff⟩ := hkept
      exact ⟨w, hdisables, fun hnone => ⟨hoff hnone, quiet_of_shutdown hinv hdesk⟩⟩
  | waited deviceId task => exact hkept
  | discarded deviceId hdesk =>
      obtain ⟨w, hdisables, hstopped⟩ := hkept
      refine ⟨w, hdisables, fun hnone => ⟨hstopped hnone, ?_⟩⟩
      rw [← Option.some.inj (LiveDesk.step_coordinator hdesk).1]
      exact ⟨rfl, rfl⟩
  | deleted deviceId => exact hkept
  | removed deviceId _ => exact ⟨deviceId, hkept⟩
  | forgotten hdesk hconnection =>
      obtain ⟨deviceId, w, hdisables, hbefore⟩ := h
      refine ⟨deviceId, w, es.length, hdisables.append_right [e], ⟨s, s', hgoes⟩, ?_⟩
      intro hnone _
      rw [List.take_left] at hnone
      obtain ⟨hstopped, hunarmed⟩ := hbefore hnone
      refine ⟨hdesk ▸ hinv, ?_, ?_⟩
      · intro connection hsome
        rw [hconnection] at hsome
        contradiction
      · rw [hdesk]
        exact hunarmed.released hstopped.quiet hinv.coordinator deviceId
  | cleared => exact hkept
  | dropped =>
      obtain ⟨deviceId, w, f, hdisables, hforgets, hunpaired⟩ := hkept
      refine Or.inr ⟨deviceId, w, f, es.length, s', ⟨hdisables, hforgets, s, hgoes⟩, ?_⟩
      intro hnone hpaired
      refine ⟨hunpaired hnone hpaired, LiveDesk.abandoned_self deviceId s'.desk, ?_⟩
      intro m s₁ g s₂ hm hat
      have hlt := hat.lt_length
      rw [List.length_append, List.length_singleton] at hlt
      omega
  | failed _ error => trivial

theorem unpairPast_run {config : CoreConfig} {backing : String → Option Int}
    (h : exec (Service.step u sha256Hex) (new u sha256Hex config backing) es = some s)
    {stage : Stage} (htask : s.tasks id = some { command := .unpair, stage := stage }) :
    UnpairPast u sha256Hex (new u sha256Hex config backing) es id s stage := by
  revert stage
  refine exec_induction (P := fun es s => ∀ {stage : Stage},
    s.tasks id = some { command := .unpair, stage := stage } →
      UnpairPast u sha256Hex (new u sha256Hex config backing) es id s stage) ?_ ?_ h
  · intro stage htask
    exact nomatch htask
  · intro es s₁ e s₂ hs₁ ih hstep stage' htask'
    have hplaced := placed_run hs₁
    have hinv := desk_inv_run hs₁
    rcases step_task_before hstep htask' with ⟨-, rfl⟩ | ⟨stage, htask⟩
    · trivial
    · rcases step_unpair hplaced hstep htask with hkept | ⟨stage'', htask'', hsegment⟩
      · rw [hkept] at htask'
        obtain ⟨-, rfl⟩ := Task.mk.inj (Option.some.inj htask')
        exact (ih htask).keep hs₁ hplaced hinv hstep
      · rw [htask''] at htask'
        obtain ⟨-, rfl⟩ := Task.mk.inj (Option.some.inj htask')
        exact (ih htask).segment hs₁ hplaced hinv hstep htask htask'' hsegment

end

/-- When an unpair has returned `Ok`, it found no connection, or it unpaired a device whose sequence
state only what it left touches: mutations called before the return and unfinished then, and the
clear of a shutdown then in flight. This holds until a pair persists the device again, and unless a
consent has enabled the live desk between the unpair's first write and its last. -/
theorem unpair_leaves_only {config : CoreConfig} {backing : String → Option Int}
    {es : List ServiceEvent} {s : Service} {id : Nat}
    (hrun : exec (Service.step u sha256Hex) (new u sha256Hex config backing) es = some s)
    (hok : s.tasks id = some { command := .unpair, stage := .returned (.ok none) }) :
    FoundAbsent u sha256Hex (new u sha256Hex config backing) es id ∨
      ∃ deviceId w f n t,
        UnpairsAt u sha256Hex (new u sha256Hex config backing) es id deviceId w f n t ∧
        (NoneEnablesAfter u sha256Hex (new u sha256Hex config backing) (es.take f) w →
          NotPairedSince u sha256Hex (new u sha256Hex config backing) es deviceId f →
          OnlyLeftOver u sha256Hex (new u sha256Hex config backing) es deviceId n t) := by
  rcases unpairPast_run hrun hok with habsent | ⟨deviceId, w, f, n, t, hunpairs, hfinal⟩
  · exact Or.inl habsent
  · refine Or.inr ⟨deviceId, w, f, n, t, hunpairs, ?_⟩
    intro hnone hpaired
    exact (hfinal hnone hpaired).2.2

/-- The steps of a call up to its first request. -/
def sentBy (call : Nat) : List ServiceEvent :=
  (LiveDesk.loadedBy call).map .desk ++
    [ServiceEvent.desk (.writer (.store call true)), .desk (.writer (.map call none))]

/-- An unpair of an active service, whose join of the final clear ends at its bound. -/
def unpairedPastBound (id : Nat) : List ServiceEvent :=
  [.completed id true, .advance id, .desk (.coordinator (.shutdownJoined 3 0)),
    .desk (.coordinator (.joinDone 4)), .desk (.coordinator (.shutdownFinish 3)), .advance id,
    .advance id, .completed id true, .completed id true, .completed id true, .advance id,
    .advance id]

/-- The unpair of an active service returns, and then its final clear reserves and sends. -/
def clearPastUnpair : List ServiceEvent :=
  startedByService ++ [.called 1 .unpair, .advance 1] ++ unpairedPastBound 1 ++ sentBy 0

theorem unpair_leaves_only_disabled :
    ∃ s deviceId w f n t,
      exec (Service.step UnicodeData.ascii (fun _ => "digest")) enabledService
        clearPastUnpair = some s ∧
      s.tasks 1 = some { command := .unpair, stage := .returned (.ok none) } ∧
      s.desk.writer.backing "device" = some 2 ∧
      UnpairsAt UnicodeData.ascii (fun _ => "digest") enabledService
        clearPastUnpair 1 deviceId w f n t ∧
      OnlyLeftOver UnicodeData.ascii (fun _ => "digest") enabledService
        clearPastUnpair deviceId n t := by
  obtain ⟨s, hs, hok, hstored⟩ : ∃ s,
      exec (Service.step UnicodeData.ascii (fun _ => "digest")) enabledService
        clearPastUnpair = some s ∧
      s.tasks 1 = some { command := .unpair, stage := .returned (.ok none) } ∧
      s.desk.writer.backing "device" = some 2 :=
    ⟨_, rfl, rfl, rfl⟩
  have hfound : ∀ k : Fin clearPastUnpair.length,
      (exec (Service.step UnicodeData.ascii (fun _ => "digest")) enabledService
        (clearPastUnpair.take k)).all (fun s =>
          s.tasks 1 != some { command := .unpair, stage := .unpairEntry } ||
            s.config.connection.isSome) = true := by
    decide +kernel
  -- The run calls a start and the unpair.
  have hcommand {n : Nat} {s₁ s₂ : Service} {e : ServiceEvent} {i : Nat} {command : Command}
      {stage : Stage}
      (hat : StepAt (Service.step UnicodeData.ascii (fun _ => "digest")) enabledService
        clearPastUnpair n s₁ e s₂)
      (htask : s₁.tasks i = some { command := command, stage := stage }) :
      command = .start ∨ command = .unpair := by
    have hmem := List.mem_of_mem_take (called_of_task hat.before htask)
    simp [clearPastUnpair, startedByService, negotiatedBy, Coordinator.configuredBy,
      unpairedPastBound, sentBy, LiveDesk.loadedBy] at hmem
    exact hmem.imp And.right And.right
  rcases unpair_leaves_only hs hok with habsent | ⟨deviceId, w, f, n, t, hunpairs, hfinal⟩
  · obtain ⟨n, s₁, s₂, habsent, ⟨e, hat⟩, htask, -⟩ := habsent
    have hbefore : exec (Service.step UnicodeData.ascii (fun _ => "digest")) enabledService
        (clearPastUnpair.take n) = some s₁ := hat.before
    have hsome := hfound ⟨n, hat.lt_length⟩
    rw [hbefore, Option.all_some, htask, habsent] at hsome
    contradiction
  · refine ⟨s, deviceId, w, f, n, t, hs, hok, hstored, hunpairs, hfinal ?_ ?_⟩
    · rintro m s₁ e s₂ - hat ⟨i, ui, candidate, -, htask, -⟩
      rcases hcommand hat.of_take.2 htask with hcommand | hcommand
      all_goals contradiction
    · rintro m s₁ e s₂ - hat ⟨i, command, result, -, htask, -⟩
      have hplaced := placed_run hat.before i command _ htask
      rcases hcommand hat htask with rfl | rfl
      all_goals contradiction

/-- The unpair `id` of the device returns `Ok` and leaves no entry of it. Without a pair the steps
`later` then store one: the mutation 0 reserves for the device and starts a request of it. -/
def SendsAfterUnpair (origin : Service) (id : Nat) (entered rest later : List ServiceEvent) :
    Prop :=
  ∃ s₀ s s',
    exec (Service.step UnicodeData.ascii (fun _ => "digest")) origin entered = some s₀ ∧
    s₀.tasks id = some { command := .unpair, stage := .unpairDisable "device" } ∧
    exec (Service.step UnicodeData.ascii (fun _ => "digest")) s₀ rest = some s ∧
    s.tasks id = some { command := .unpair, stage := .returned (.ok none) } ∧
    s.desk.writer.backing "device" = none ∧
    exec (Service.step UnicodeData.ascii (fun _ => "digest")) s later = some s' ∧
    s'.desk.writer.backing "device" = some 2 ∧
    s'.desk.writer.mutations 0 = some ⟨.sending false, some 1⟩ ∧
    EveryStep (Service.step UnicodeData.ascii (fun _ => "digest")) s later
      (fun t e _ => ¬ PairsDevice "device" t e)

/-- A consent enables the device after the first write of its unpair, and its configure reads the
connection and the token before they are removed. -/
def enabledDuringUnpair : List ServiceEvent :=
  [ServiceEvent.completed 2 true, .completed 1 true, .advance 2,
    .desk (.coordinator (.shutdownJoined 0 0)), .desk (.coordinator (.shutdownFinish 0)),
    .advance 2, .advance 2] ++ capturedBy 1 "editor" ++ [ServiceEvent.advance 1, .advance 1] ++
    (negotiatedBy 1).take 3 ++
    [ServiceEvent.completed 2 true, .completed 2 true, .completed 2 true, .advance 2, .advance 2]

/-- The clear of the unpair's own shutdown is not aborted at its bound; and a consent during the
unpair starts a refresh loop that outlives it. -/
theorem sends_after_unpair :
    SendsAfterUnpair (new UnicodeData.ascii (fun _ => "digest") enabledConfig (fun _ => none)) 1
        (startedByService ++ [.called 1 .unpair, .advance 1]) (unpairedPastBound 1) (sentBy 0) ∧
      SendsAfterUnpair paired 2
        (previewedBy 0 "editor" ++ clickedBy 1 "digest" ++ capturedBy 1 "editor" ++
          [.called 2 .unpair, .advance 2]) enabledDuringUnpair
        ((negotiatedBy 1).drop 3 ++ (LiveDesk.iteratedBy 3 2000).map .desk ++ sentBy 0) := by
  have hpairs {s : Service} {later : List ServiceEvent}
      (hdesk : ∀ e ∈ later, ∃ f, e = .desk f) :
      EveryStep (Service.step UnicodeData.ascii (fun _ => "digest")) s later
        (fun t e _ => ¬ PairsDevice "device" t e) := by
    rintro n t₁ e t₂ hat ⟨id, command, result, rfl, -⟩
    obtain ⟨f, hf⟩ := hdesk _ (List.mem_of_getElem? hat.event)
    contradiction
  refine ⟨⟨_, _, _, rfl, rfl, rfl, rfl, rfl, rfl, rfl, rfl, hpairs ?_⟩,
    ⟨_, _, _, rfl, rfl, rfl, rfl, rfl, rfl, rfl, rfl, hpairs ?_⟩⟩
  · simp [sentBy, LiveDesk.loadedBy]
  · simp [sentBy, LiveDesk.loadedBy, LiveDesk.iteratedBy, negotiatedBy, Coordinator.configuredBy]

end Service

end YohakuCore
