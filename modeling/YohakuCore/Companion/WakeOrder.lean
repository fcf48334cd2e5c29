import YohakuCore.Companion.ClearOrder

/-!
# The wake and the clear of the sleep before it

A wake joins the bounded wait for the sleep's clear, not the clear: its publish and the clear meet
in the sequencer's slot and nowhere else.
-/

namespace YohakuCore

open Framework

namespace Coordinator

/-- Publishes are called by generations that have begun. -/
def PublishesBegun (c : Coordinator) : Prop :=
  ∀ gen client snapshot lease, .replacePresence gen client snapshot lease ∈ c.calls →
    gen ≤ c.inner.generation

theorem PublishesBegun.step {c c' : Coordinator} {e : CoordinatorEvent} (h : c.PublishesBegun)
    (hstep : c.step e = some c') : c'.PublishesBegun := by
  have hgrows := step_grows hstep
  obtain ⟨later, hlater, hcalls⟩ := hgrows.calls
  intro gen client snapshot lease hmem
  rw [hcalls, List.mem_append] at hmem
  rcases hmem with hold | hnew
  · exact le_trans (h gen client snapshot lease hold) hgrows.generation
  · cases hlater with
    | none => simp at hnew
    | publish id snapshot' client' includeMedia capturing =>
        obtain ⟨rfl, -, -, -⟩ := PresenceCall.replacePresence.inj (List.mem_singleton.mp hnew)
        exact hgrows.generation
    | sleep now client' held effective => simp at hnew
    | shutdown id now reason ended client' pending joining => simp at hnew

end Coordinator

namespace LiveDesk

/-- A wake task takes the lock and starts a generation. -/
structure WakeStarts (s : LiveDesk) (e : LiveDeskEvent) (s' : LiveDesk) : Prop where
  event : ∃ i, e = .coordinator (.wakeResume i)
  step : s.step e = some s'
  starts : s.coordinator.inner.generation < s'.coordinator.inner.generation

/-- The call `k` is the clear of a sleep, and the sequencer has answered its reserve. -/
structure SleepCleared (s : LiveDesk) (client : PresenceClient) (k : Nat) : Prop where
  called : ∃ ended now, s.coordinator.calls[k]? = some (.clearPresence ended client .sleep now)
  past : s.writer.PastReserve k

/-- The call `p` is a publish of the generation `gen` for the device of `client`. -/
def IsPublishOf (s : LiveDesk) (gen : Nat) (client : PresenceClient) (p : Nat) : Prop :=
  ∃ publisher snapshot lease,
    s.coordinator.calls[p]? = some (.replacePresence gen publisher snapshot lease) ∧
    publisher.sequencer.deviceId = client.sequencer.deviceId

/-- What every step must meet: no store of one sequencer of the device falls into an operation of
another, and the device's entry is kept once the clear `k` is past its reserve. -/
structure KeepsReserve (deviceId : String) (k : Nat) (s : LiveDesk) (e : LiveDeskEvent) :
    Prop where
  cross : ¬ s.CrossesStore deviceId e
  kept : s.writer.PastReserve k → e ≠ .writer (.remove deviceId)

/-- What the clear `k` has reserved stays below the device's stored value. -/
structure ReserveKept (deviceId : String) (k : Nat) (s : LiveDesk) : Prop where
  inv : s.Inv
  reservesFirst : s.writer.ReservesFirst
  publishes : s.coordinator.PublishesBegun
  fresh : Writer.LoadsFresh s.coordinator.calls s.writer deviceId
  below : ∀ w, s.Reserved deviceId k w → w.toNat + 1 ≤ s.writer.storedNext deviceId

/-- Every call from the `n`th on reserves above the clear `k`. -/
def Outranks (deviceId : String) (n k : Nat) (s : LiveDesk) : Prop :=
  ∀ p v w, n ≤ p → s.Reserved deviceId p v → s.Reserved deviceId k w → w.toNat < v.toNat

theorem reserveKept_new (deviceId : String) (k : Nat) (backing : String → Option Int) :
    (new backing).ReserveKept deviceId k where
  inv := inv_new backing
  reservesFirst := Writer.reservesFirst_new backing
  publishes _ _ _ _ h := absurd h List.not_mem_nil
  fresh := loadsFresh_new deviceId backing
  below w h := by
    obtain ⟨m, hm, -⟩ := h.mutation
    exact nomatch hm

theorem Reserved.pastReserve {s : LiveDesk} (h : s.writer.ReservesFirst) {deviceId : String}
    {id : Nat} {v : UInt64} (hreserved : s.Reserved deviceId id v) : s.writer.PastReserve id := by
  obtain ⟨m, hm, hsequence⟩ := hreserved.mutation
  refine ⟨m, hm, h id m hm ?_⟩
  rw [hsequence]
  exact Option.some_ne_none v

theorem ReserveKept.step {deviceId : String} {k : Nat} {s s' : LiveDesk} {e : LiveDeskEvent}
    (h : s.ReserveKept deviceId k) (hcond : s.KeepsReserve deviceId k e)
    (hstep : s.step e = some s') : s'.ReserveKept deviceId k := by
  have hfresh := loadsFresh_step h.fresh h.inv hcond.cross hstep
  refine ⟨h.inv.step hstep, ?_, ?_, hfresh, ?_⟩
  · cases e with
    | coordinator e =>
        rw [(step_coordinator hstep).2]
        exact h.reservesFirst
    | writer e => exact h.reservesFirst.step h.inv.writer (step_writer hstep).1
  · cases e with
    | coordinator e => exact h.publishes.step (step_coordinator hstep).1
    | writer e =>
        rw [(step_writer hstep).2]
        exact h.publishes
  · intro w hw
    by_cases hremove : e = .writer (.remove deviceId)
    · -- The entry goes only while the clear has nothing reserved, and no reserve ends in this step.
      have hnot : ¬ s.writer.PastReserve k := fun hpast => hcond.kept hpast hremove
      rw [hremove] at hstep
      obtain ⟨hwriter, hcoordinator⟩ := step_writer hstep
      rw [Reserved, hcoordinator] at hw
      obtain ⟨m, hm, hsequence⟩ := hw.mutation
      have hsame : s'.writer.mutations = s.writer.mutations := by
        rw [← Option.some.inj hwriter]
      rw [hsame] at hm
      have hold : s.Reserved deviceId k w := ⟨hw.called, m, hm, hsequence⟩
      exact absurd (hold.pastReserve h.reservesFirst) hnot
    · obtain ⟨hmono, hreserved⟩ := storedNext_step h.fresh h.inv hremove hstep
      rcases hreserved k w hw with hold | ⟨-, -, hbelow⟩
      · exact le_trans (h.below w hold) hmono
      · exact hbelow

/-- Once the clear is past its reserve, whoever reserves does so from the stored value on. -/
theorem ReserveKept.outranks_step {deviceId : String} {n k : Nat} {s s' : LiveDesk}
    {e : LiveDeskEvent} (h : s.ReserveKept deviceId k) (hpast : s.writer.PastReserve k)
    (houtranks : s.Outranks deviceId n k) (hcond : s.KeepsReserve deviceId k e)
    (hstep : s.step e = some s') : s'.Outranks deviceId n k := by
  intro p v w hp hv hw
  have hcleared := reserved_of_pastReserve h.inv hstep hpast hw
  obtain ⟨-, hreserved⟩ := storedNext_step h.fresh h.inv (hcond.kept hpast) hstep
  rcases hreserved p v hv with hold | ⟨-, habove, -⟩
  · exact houtranks p v w hp hold hcleared
  · have hbelow := h.below w hcleared
    omega

theorem ReserveKept.outranks_next {deviceId : String} {k : Nat} {s : LiveDesk}
    (h : s.ReserveKept deviceId k) : s.Outranks deviceId s.coordinator.calls.length k := by
  intro p v w hp hv hw
  obtain ⟨m, hm, -⟩ := hv.mutation
  have hlt := h.inv.writer.called p m hm
  omega

theorem reserveKept_run {deviceId : String} {k : Nat} {backing : String → Option Int}
    {es : List LiveDeskEvent} {s : LiveDesk}
    (hrun : exec LiveDesk.step (new backing) es = some s)
    (hkeeps : EveryStep LiveDesk.step (new backing) es
      (fun s e _ => s.KeepsReserve deviceId k e)) : s.ReserveKept deviceId k :=
  EveryStep.invariant (I := fun s => s.ReserveKept deviceId k)
    (reserveKept_new deviceId k backing) (fun _ _ _ h hcond hstep => h.step hcond hstep) hkeeps hrun

theorem ReserveKept.isPublish_later {deviceId : String} {k p : Nat} {s s' : LiveDesk}
    (h : s.ReserveKept deviceId k) (hcalls : s.coordinator.calls <+: s'.coordinator.calls)
    {gen : Nat} {client : PresenceClient} (hgen : s.coordinator.inner.generation < gen)
    (hp : s'.IsPublishOf gen client p) : s.coordinator.calls.length ≤ p := by
  obtain ⟨publisher, snapshot, lease, hcall, -⟩ := hp
  by_contra hlt
  obtain ⟨later, hlater⟩ := hcalls
  rw [← hlater, List.getElem?_append_left (Nat.lt_of_not_le hlt)] at hcall
  have hle := h.publishes gen publisher snapshot lease (List.mem_of_getElem? hcall)
  omega

/-- When the clear of a sleep is past its reserve as a wake starts its generation, every publish of
that generation reserves above it, in every run that goes on from there. -/
theorem wake_outranks_clear {backing : String → Option Int} {before after : List LiveDeskEvent}
    {e : LiveDeskEvent} {s₁ s₂ s₃ : LiveDesk} {client : PresenceClient} {k : Nat}
    (hbefore : exec LiveDesk.step (new backing) before = some s₁)
    (hclear : s₁.SleepCleared client k) (hwake : s₁.WakeStarts e s₂)
    (hafter : exec LiveDesk.step s₂ after = some s₃)
    (hkeeps : EveryStep LiveDesk.step (new backing) (before ++ e :: after)
      (fun s e _ => s.KeepsReserve client.sequencer.deviceId k e)) :
    ∀ p v w, s₃.IsPublishOf s₂.coordinator.inner.generation client p →
      s₃.Reserved client.sequencer.deviceId p v → s₃.Reserved client.sequencer.deviceId k w →
      w.toNat < v.toNat := by
  have hrest : exec LiveDesk.step s₁ (e :: after) = some s₃ := by
    rw [exec_cons, hwake.step]
    exact hafter
  have hready : s₁.ReserveKept client.sequencer.deviceId k :=
    reserveKept_run hbefore hkeeps.append_left
  have hlast : s₃.Outranks client.sequencer.deviceId s₁.coordinator.calls.length k := by
    have hall := EveryStep.invariant
      (I := fun s => s.ReserveKept client.sequencer.deviceId k ∧ s.writer.PastReserve k ∧
        s.Outranks client.sequencer.deviceId s₁.coordinator.calls.length k)
      ⟨hready, hclear.past, hready.outranks_next⟩ ?_ (hkeeps.append_right hbefore) hrest
    · exact hall.2.2
    · rintro t₁ f t₂ ⟨hkept, hpast, houtranks⟩ hcond hstep
      exact ⟨hkept.step hcond hstep, pastReserve_step hkept.inv hstep hpast,
        hkept.outranks_step hpast houtranks hcond hstep⟩
  intro p v w hp hv hw
  have hlater := hready.isPublish_later (calls_grow_run hrest) hwake.starts hp
  exact hlast p v w hlater hv hw

/-- A published generation goes to sleep with a clear as the call 1. -/
def sleptAfterPublish : List LiveDeskEvent :=
  [LiveDeskEvent.coordinator .start] ++ startedBy 0 ++ iteratedBy 2 2000 ++
    [LiveDeskEvent.writer (.arrive 0)] ++ acceptedBy 0 1 ++
    [LiveDeskEvent.coordinator (.loopPublished 2 (.ok { acceptedSequence := 1 })),
      .coordinator (.loopHead 2 2000), .coordinator (.handleSleepOrLock 3000)]

/-- The clear is accepted and joined before the wake. -/
def sleptCleared : List LiveDeskEvent :=
  sleptAfterPublish ++ [LiveDeskEvent.writer (.arrive 1)] ++ acceptedBy 1 2 ++
    [LiveDeskEvent.coordinator .handleWakeOrUnlock, .coordinator (.joinDone 3)]

/-- The wake's generation publishes. -/
def wokenPublish : List LiveDeskEvent :=
  startedBy 5 ++ iteratedBy 7 6000 ++ loadedBy 2 ++ [LiveDeskEvent.writer (.store 2 true)]

theorem wake_outranks_clear_sleptCleared :
    ∃ s₁ s₂ s₃ client,
      exec LiveDesk.step (new (fun _ => none)) sleptCleared = some s₁ ∧
      s₁.step (.coordinator (.wakeResume 4)) = some s₂ ∧
      exec LiveDesk.step s₂ wokenPublish = some s₃ ∧
      s₃.IsPublishOf s₂.coordinator.inner.generation client 2 ∧
      s₃.Reserved client.sequencer.deviceId 1 2 ∧ s₃.Reserved client.sequencer.deviceId 2 3 ∧
      ∀ p v w, s₃.IsPublishOf s₂.coordinator.inner.generation client p →
        s₃.Reserved client.sequencer.deviceId p v → s₃.Reserved client.sequencer.deviceId 1 w →
        w.toNat < v.toNat := by
  have hruns : ∃ s₁ s₂ s₃ client,
      exec LiveDesk.step (new (fun _ => none)) sleptCleared = some s₁ ∧
      s₁.step (.coordinator (.wakeResume 4)) = some s₂ ∧
      exec LiveDesk.step s₂ wokenPublish = some s₃ ∧
      s₁.coordinator.calls[1]? = some (.clearPresence 1 client .sleep 3000) ∧
      (∃ m, s₁.writer.mutations 1 = some m ∧ m.stage.isPastReserve = true) ∧
      s₁.coordinator.inner.generation < s₂.coordinator.inner.generation ∧
      (∀ call ∈ s₃.coordinator.calls, call.client.sequencer.id = 0) ∧
      client.sequencer.deviceId = "device" ∧
      s₃.IsPublishOf s₂.coordinator.inner.generation client 2 ∧
      s₃.Reserved client.sequencer.deviceId 1 2 ∧ s₃.Reserved client.sequencer.deviceId 2 3 := by
    refine ⟨_, _, _, _, rfl, rfl, rfl, rfl, ⟨_, rfl, rfl⟩, ?_, ?_, rfl, ⟨_, _, _, rfl, rfl⟩,
      ⟨⟨_, rfl, by decide⟩, _, rfl, by decide⟩, ⟨⟨_, rfl, by decide⟩, _, rfl, by decide⟩⟩ <;>
    decide
  obtain ⟨s₁, s₂, s₃, client, hs₁, hs₂, hs₃, hcalled, hpast, hstarts, hone, hdevice, hpublish,
    hcleared, hpublished⟩ := hruns
  have hrun : exec LiveDesk.step (new (fun _ => none))
      (sleptCleared ++ .coordinator (.wakeResume 4) :: wokenPublish) = some s₃ := by
    rw [exec_append, hs₁, Option.bind_some, exec_cons, hs₂, Option.bind_some, hs₃]
  have hkeeps : EveryStep LiveDesk.step (new (fun _ => none))
      (sleptCleared ++ .coordinator (.wakeResume 4) :: wokenPublish)
      (fun s e _ => s.KeepsReserve client.sequencer.deviceId 1 e) := by
    have hcross := not_crossesStore_of_one_sequencer hrun hone client.sequencer.deviceId
    have hkept : ∀ e ∈ sleptCleared ++ .coordinator (.wakeResume 4) :: wokenPublish,
        e ≠ .writer (.remove "device") := by decide
    intro n t₁ e t₂ hat
    refine ⟨hcross n t₁ e t₂ hat, fun _ => ?_⟩
    rw [hdevice]
    exact hkept e (List.mem_of_getElem? hat.event)
  have hwake : s₁.WakeStarts (.coordinator (.wakeResume 4)) s₂ := ⟨⟨4, rfl⟩, hs₂, hstarts⟩
  exact ⟨s₁, s₂, s₃, client, hs₁, hs₂, hs₃, hpublish, hcleared, hpublished,
    wake_outranks_clear hs₁ ⟨⟨1, 3000, hcalled⟩, hpast⟩ hwake hs₃ hkeeps⟩

/-- The first sleep's clear is still sending when the bound of its join is over, the wake's
negotiation fails, and a second sleep clears through the same client: its clear waits in the send
slot. -/
def sleptTwice : List LiveDeskEvent :=
  sleptAfterPublish ++ loadedBy 1 ++ [LiveDeskEvent.writer (.store 1 true), .writer (.map 1 none),
    .coordinator .handleWakeOrUnlock, .coordinator (.joinDone 3), .coordinator (.wakeResume 4),
    .coordinator (.configureEntry 5),
    .coordinator (.configureGate 5 (some Coordinator.enabledConnection)),
    .coordinator (.configureToken 5 (some "token") true),
    .coordinator (.configureCapabilities 5 none), .coordinator (.handleSleepOrLock 4000),
    .writer (.arrive 2), .coordinator .handleWakeOrUnlock, .coordinator (.joinDone 7)]

/-- The second wake negotiates a new client and publishes; then the first clear is answered and
the second takes the slot. -/
def wokenBeforeClear : List LiveDeskEvent :=
  startedBy 9 ++ iteratedBy 11 8000 ++ loadedBy 3 ++ [LiveDeskEvent.writer (.store 3 true)] ++
    [LiveDeskEvent.writer (.answer 1 (.ok { acceptedSequence := 2 })), .writer (.enqueue 1),
      .writer (.load 1), .writer (.begin 2), .writer (.enqueue 2), .writer (.load 2),
      .writer (.store 2 true)]

/-- The publish of the second wake's generation reserves 3 and the clear of the sleep before it
reserves 4. -/
theorem wake_outranked_sleptTwice :
    ∃ s₁ s₂ s₃ client,
      exec LiveDesk.step (new (fun _ => none)) sleptTwice = some s₁ ∧
      s₁.WakeStarts (.coordinator (.wakeResume 8)) s₂ ∧
      exec LiveDesk.step s₂ wokenBeforeClear = some s₃ ∧
      s₁.coordinator.calls[2]? = some (.clearPresence 3 client .sleep 4000) ∧
      s₃.IsPublishOf s₂.coordinator.inner.generation client 3 ∧
      s₃.Reserved client.sequencer.deviceId 3 3 ∧ s₃.Reserved client.sequencer.deviceId 2 4 := by
  refine ⟨_, _, _, _, rfl, ⟨⟨8, rfl⟩, rfl, ?_⟩, rfl, rfl, ⟨_, _, _, rfl, rfl⟩,
    ⟨⟨_, rfl, by decide⟩, _, rfl, by decide⟩, ⟨⟨_, rfl, by decide⟩, _, rfl, by decide⟩⟩
  decide

end LiveDesk

end YohakuCore
