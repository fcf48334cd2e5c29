import YohakuCore.Companion.SendOrder
import YohakuCore.Companion.SequenceReuse

/-!
# The clear of an ended generation

A refresh iteration checks its generation and then asks for its client's send slot. A sleep or a
shutdown in between lets the clear ask first.
-/

namespace YohakuCore

open Framework

namespace Coordinator

/-- Clears, called or still to come, close generations that have ended. -/
structure ClosesEnded (c : Coordinator) : Prop where
  calls : ∀ ended client reason now,
    .clearPresence ended client reason now ∈ c.calls → ended < c.inner.generation
  joining : ∀ id reason ended client wasSuspended pending,
    c.shutdowns id = some (.joining reason ended client wasSuspended pending) →
      ended < c.inner.generation

theorem closesEnded_new : new.ClosesEnded where
  calls _ _ _ _ h := absurd h List.not_mem_nil
  joining _ _ _ _ _ _ h := nomatch h

theorem endsGeneration_step {c c' : Coordinator} {e : CoordinatorEvent} (hends : c.EndsGeneration e)
    (hstep : c.step e = some c') : c'.inner.generation = c.inner.generation + 1 := by
  cases e with
  | handleSleepOrLock now =>
      obtain rfl := Option.some.inj hstep
      have heffective : ¬ (c.inner.state = .suspended ∨ c.inner.stopping = true) := hends
      rw [handleSleepOrLock, if_neg heffective]
      dsimp only
      split <;> rfl
  | shutdown reason =>
      obtain rfl := Option.some.inj hstep
      have hstopping : c.inner.stopping = false := hends
      rw [shutdown, hstopping]
      rfl
  | _ => exact absurd hends id

theorem ClosesEnded.step {c c' : Coordinator} {e : CoordinatorEvent} (h : c.ClosesEnded)
    (hstep : c.step e = some c') : c'.ClosesEnded := by
  have hgrows := step_grows hstep
  refine ⟨?_, ?_⟩
  · intro ended client reason now hmem
    obtain ⟨later, hlater, hcalls⟩ := hgrows.calls
    rw [hcalls, List.mem_append] at hmem
    rcases hmem with hold | hnew
    · exact lt_of_lt_of_le (h.calls ended client reason now hold) hgrows.generation
    · cases hlater with
      | none => exact absurd hnew List.not_mem_nil
      | publish id snapshot client includeMedia capturing =>
          exact absurd (List.mem_singleton.mp hnew) (fun heq => nomatch heq)
      | sleep now' client' held effective =>
          obtain ⟨rfl, -, -, -⟩ :=
            PresenceCall.clearPresence.inj (List.mem_singleton.mp hnew)
          have hends : c.EndsGeneration (.handleSleepOrLock now') := effective
          have hnext := endsGeneration_step hends hstep
          omega
      | shutdown id now' reason' ended' client' pending joining =>
          obtain ⟨rfl, -, -, -⟩ :=
            PresenceCall.clearPresence.inj (List.mem_singleton.mp hnew)
          exact lt_of_lt_of_le (h.joining id _ _ _ _ _ joining) hgrows.generation
  · intro id reason ended client wasSuspended pending hjoining
    rcases hgrows.shutdowns id reason ended client wasSuspended pending hjoining with
      hold | ⟨hends, rfl, -⟩
    · exact lt_of_lt_of_le (h.joining id reason ended client wasSuspended pending hold)
        hgrows.generation
    · have hnext := endsGeneration_step hends hstep
      omega

/-- What holds after the generation `g` has ended with the client `held` and `n` calls made: later
publishes are of later generations, and a clear that closes `g` is a later call of that client. -/
structure HasEnded (g : Nat) (held : Option PresenceClient) (n : Nat) (c : Coordinator) :
    Prop where
  generation : g < c.inner.generation
  count : n ≤ c.calls.length
  publishes : ∀ p gen client snapshot lease,
    c.calls[p]? = some (.replacePresence gen client snapshot lease) → gen ≤ g → p < n
  clears : ∀ k client reason now,
    c.calls[k]? = some (.clearPresence g client reason now) → n ≤ k ∧ held = some client
  joining : ∀ id reason client wasSuspended pending,
    c.shutdowns id = some (.joining reason g client wasSuspended pending) → client = held

private theorem getElem?_append_cases {α : Type} {l later : List α} {i : Nat} {a : α}
    (h : (l ++ later)[i]? = some a) : l[i]? = some a ∨ (l.length ≤ i ∧ a ∈ later) := by
  rcases Nat.lt_or_ge i l.length with hlt | hge
  · rw [List.getElem?_append_left hlt] at h
    exact Or.inl h
  · rw [List.getElem?_append_right hge] at h
    exact Or.inr ⟨hge, List.mem_of_getElem? h⟩

theorem ClosesEnded.hasEnded {c c' : Coordinator} {e : CoordinatorEvent} (h : c.ClosesEnded)
    (hends : c.EndsGeneration e) (hstep : c.step e = some c') :
    c'.HasEnded c.inner.generation c.inner.client c.calls.length := by
  have hgrows := step_grows hstep
  have hnext := endsGeneration_step hends hstep
  obtain ⟨later, hlater, hcalls⟩ := hgrows.calls
  refine ⟨by omega, ?_, ?_, ?_, ?_⟩
  · rw [hcalls, List.length_append]
    exact Nat.le_add_right _ _
  · intro p gen client snapshot lease hp _
    rw [hcalls] at hp
    rcases getElem?_append_cases hp with hold | ⟨-, hnew⟩
    · exact (List.getElem?_eq_some_iff.mp hold).1
    · cases hlater with
      | none => exact absurd hnew List.not_mem_nil
      | publish id snapshot client includeMedia capturing => exact absurd hends not_false
      | sleep now client held effective =>
          exact absurd (List.mem_singleton.mp hnew) (fun heq => nomatch heq)
      | shutdown id now reason ended client pending joining => exact absurd hends not_false
  · intro k client reason now hk
    rw [hcalls] at hk
    rcases getElem?_append_cases hk with hold | ⟨hle, hnew⟩
    · exact absurd (h.calls _ _ _ _ (List.mem_of_getElem? hold)) (lt_irrefl _)
    · cases hlater with
      | none => exact absurd hnew List.not_mem_nil
      | publish id snapshot client includeMedia capturing => exact absurd hends not_false
      | sleep now client held effective =>
          obtain ⟨-, rfl, -, -⟩ := PresenceCall.clearPresence.inj (List.mem_singleton.mp hnew)
          exact ⟨hle, held⟩
      | shutdown id now reason ended client pending joining => exact absurd hends not_false
  · intro id reason client wasSuspended pending hjoining
    rcases hgrows.shutdowns id reason _ client wasSuspended pending hjoining with
      hold | ⟨-, -, hclient⟩
    · exact absurd (h.joining id reason _ client wasSuspended pending hold) (lt_irrefl _)
    · exact hclient

theorem HasEnded.step {g n : Nat} {held : Option PresenceClient} {c c' : Coordinator}
    {e : CoordinatorEvent} (h : c.HasEnded g held n) (hstep : c.step e = some c') :
    c'.HasEnded g held n := by
  have hgrows := step_grows hstep
  have hgeneration := h.generation
  have hcount := h.count
  obtain ⟨later, hlater, hcalls⟩ := hgrows.calls
  refine ⟨lt_of_lt_of_le hgeneration hgrows.generation, ?_, ?_, ?_, ?_⟩
  · rw [hcalls, List.length_append]
    exact Nat.le_add_right_of_le hcount
  · intro p gen client snapshot lease hp hgen
    rw [hcalls] at hp
    rcases getElem?_append_cases hp with hold | ⟨-, hnew⟩
    · exact h.publishes p gen client snapshot lease hold hgen
    · cases hlater with
      | none => exact absurd hnew List.not_mem_nil
      | publish id snapshot client includeMedia capturing =>
          obtain ⟨rfl, -, -, -⟩ := PresenceCall.replacePresence.inj (List.mem_singleton.mp hnew)
          omega
      | sleep now client held effective =>
          exact absurd (List.mem_singleton.mp hnew) (fun heq => nomatch heq)
      | shutdown id now reason ended client pending joining =>
          exact absurd (List.mem_singleton.mp hnew) (fun heq => nomatch heq)
  · intro k client reason now hk
    rw [hcalls] at hk
    rcases getElem?_append_cases hk with hold | ⟨hle, hnew⟩
    · exact h.clears k client reason now hold
    · cases hlater with
      | none => exact absurd hnew List.not_mem_nil
      | publish id snapshot client includeMedia capturing =>
          exact absurd (List.mem_singleton.mp hnew) (fun heq => nomatch heq)
      | sleep now client held effective =>
          obtain ⟨hg, -, -, -⟩ := PresenceCall.clearPresence.inj (List.mem_singleton.mp hnew)
          omega
      | shutdown id now reason ended client pending joining =>
          obtain ⟨rfl, rfl, -, -⟩ :=
            PresenceCall.clearPresence.inj (List.mem_singleton.mp hnew)
          exact ⟨le_trans hcount hle, (h.joining id _ _ _ _ joining).symm⟩
  · intro id reason client wasSuspended pending hjoining
    rcases hgrows.shutdowns id reason g client wasSuspended pending hjoining with
      hold | ⟨-, rfl, -⟩
    · exact h.joining id reason client wasSuspended pending hold
    · exact absurd hgeneration (lt_irrefl _)

end Coordinator

namespace LiveDesk

/-- A publish of the generation `g` or older, for the device of `client`. -/
def IsOldPublish (s : LiveDesk) (g : Nat) (client : PresenceClient) (p : Nat) : Prop :=
  ∃ gen publisher snapshot lease,
    s.coordinator.calls[p]? = some (.replacePresence gen publisher snapshot lease) ∧ gen ≤ g ∧
    publisher.sequencer.deviceId = client.sequencer.deviceId

/-- No old publish is on its way to the send slot: each has reserved, or has asked for the slot. -/
def PublishesAsked (s : LiveDesk) (g : Nat) (client : PresenceClient) : Prop :=
  ∀ p, s.IsOldPublish g client p →
    s.writer.PastReserve p ∨ p ∈ s.writer.sendSlots client.id

def Reserved (s : LiveDesk) (deviceId : String) (id : Nat) (v : UInt64) : Prop :=
  Writer.Reserved s.coordinator.calls s.writer deviceId id v

/-- The order between the clear `k` of the generation `g` and the old publishes that had not
reserved when `g` ended; `done` are those that had. -/
structure ClearsLast (g n : Nat) (held : Option PresenceClient) (done : Nat → Prop)
    (client : PresenceClient) (k : Nat) (s : LiveDesk) : Prop where
  inv : s.Inv
  reservesFirst : s.writer.ReservesFirst
  hasEnded : s.coordinator.HasEnded g held n
  fresh : ¬ s.writer.PastReserve k →
    Writer.LoadsFresh s.coordinator.calls s.writer client.sequencer.deviceId
  below : ¬ s.writer.PastReserve k → ∀ p v, s.IsOldPublish g client p → ¬ done p →
    s.Reserved client.sequencer.deviceId p v →
    v.toNat + 1 ≤ s.writer.storedNext client.sequencer.deviceId
  precedes : s.writer.mutations k ≠ none → ∀ p, s.IsOldPublish g client p →
    s.writer.Precedes client p k
  order : ∀ p v w, s.IsOldPublish g client p → ¬ done p →
    s.Reserved client.sequencer.deviceId p v → s.Reserved client.sequencer.deviceId k w →
    v.toNat < w.toNat

/-- What a step must meet for the order: until the clear `k` has reserved, no store of one
sequencer of the device falls into an operation of another, the device's entry is kept, and no old
publish is on its way to the send slot when the clear asks for it. -/
structure KeepsOrder (g : Nat) (client : PresenceClient) (k : Nat) (s : LiveDesk)
    (e : LiveDeskEvent) : Prop where
  cross : ¬ s.writer.PastReserve k → ¬ s.CrossesStore client.sequencer.deviceId e
  kept : ¬ s.writer.PastReserve k → e ≠ .writer (.remove client.sequencer.deviceId)
  asked : e = .writer (.arrive k) → s.PublishesAsked g client

theorem pastReserve_step {s s' : LiveDesk} {e : LiveDeskEvent} (hinv : s.Inv)
    (hstep : s.step e = some s') {id : Nat} (hpast : s.writer.PastReserve id) :
    s'.writer.PastReserve id := by
  cases e with
  | coordinator e =>
      rw [(step_coordinator hstep).2]
      exact hpast
  | writer e => exact hpast.step hinv.writer (step_writer hstep).1

theorem reserved_of_pastReserve {s s' : LiveDesk} {e : LiveDeskEvent} (hinv : s.Inv)
    (hstep : s.step e = some s') {deviceId : String} {id : Nat} {v : UInt64}
    (hpast : s.writer.PastReserve id) (hreserved : s'.Reserved deviceId id v) :
    s.Reserved deviceId id v := by
  cases e with
  | coordinator e =>
      obtain ⟨hcoordinator, hwriter⟩ := step_coordinator hstep
      obtain ⟨later, -, hcalls⟩ := Coordinator.step_calls hcoordinator
      rw [Reserved, hwriter, hcalls] at hreserved
      exact hinv.reserved_of_append hreserved
  | writer e =>
      obtain ⟨hwriter, hcoordinator⟩ := step_writer hstep
      obtain ⟨m, hm, hpast⟩ := hpast
      obtain ⟨m', hm', -, hsequence⟩ := Writer.pastReserve_step hinv.writer hwriter hm hpast
      obtain ⟨hcalled, n, hn, hv⟩ := hreserved
      rw [hm'] at hn
      obtain rfl := Option.some.inj hn
      rw [hcoordinator] at hcalled
      exact ⟨hcalled, m, hm, hsequence ▸ hv⟩

theorem isOldPublish_of_step {s s' : LiveDesk} {e : LiveDeskEvent} {g n : Nat}
    {held : Option PresenceClient} {client : PresenceClient} {p : Nat}
    (hended : s.coordinator.HasEnded g held n) (hended' : s'.coordinator.HasEnded g held n)
    (hstep : s.step e = some s') (hp : s'.IsOldPublish g client p) :
    s.IsOldPublish g client p := by
  obtain ⟨gen, publisher, snapshot, lease, hcall, hgen, hdevice⟩ := hp
  have hlt := hended'.publishes p gen publisher snapshot lease hcall hgen
  obtain ⟨later, hcalls⟩ := calls_grow hstep
  rw [← hcalls, List.getElem?_append_left (lt_of_lt_of_le hlt hended.count)] at hcall
  exact ⟨gen, publisher, snapshot, lease, hcall, hgen, hdevice⟩

theorem ClearsLast.precedes_step {g n : Nat} {held : Option PresenceClient} {done : Nat → Prop}
    {client : PresenceClient} {k : Nat} {s s' : LiveDesk} {e : LiveDeskEvent}
    (h : s.ClearsLast g n held done client k) (hcond : s.KeepsOrder g client k e)
    (hcall : ∀ call, s'.coordinator.calls[k]? = some call → call.client = client)
    (hstep : s.step e = some s') (harrived : s'.writer.mutations k ≠ none) (p : Nat)
    (hp : s.IsOldPublish g client p) : s'.writer.Precedes client p k := by
  cases e with
  | coordinator e =>
      obtain ⟨-, hwriter⟩ := step_coordinator hstep
      rw [hwriter] at harrived ⊢
      exact h.precedes harrived p hp
  | writer e =>
      obtain ⟨hwriter, hcoordinator⟩ := step_writer hstep
      obtain ⟨m', hm'⟩ := Option.ne_none_iff_exists'.mp harrived
      rw [hcoordinator] at hcall
      have hlt := (h.inv.writer.step hwriter).called k m' hm'
      obtain rfl := hcall _ (List.getElem?_eq_getElem hlt)
      have hcalled := List.getElem?_eq_getElem hlt
      cases hm : s.writer.mutations k with
      | some m =>
          have hprecedes := h.precedes (hm ▸ Option.some_ne_none m) p hp
          exact hprecedes.step h.inv.writer hcalled hwriter
      | none =>
          -- The clear arrives in this step.
          cases Writer.step_progress h.inv.writer hwriter with
          | idle _ hmutations _ =>
              rw [hmutations, hm] at harrived
              exact absurd rfl harrived
          | arrive id call _ _ hmutations _ =>
              have hid : k = id := by
                by_contra hne
                rw [hmutations, Function.update_of_ne hne, hm] at harrived
                exact harrived rfl
              subst hid
              exact Writer.precedes_arrive h.inv.writer hcalled hwriter (hcond.asked rfl p hp)
          | advance _ id call m m' _ hunder _ _ _ hmutations _ =>
              have hid : k ≠ id := by
                rintro rfl
                rw [hm] at hunder
                contradiction
              rw [hmutations, Function.update_of_ne hid, hm] at harrived
              exact absurd rfl harrived

theorem ClearsLast.order_step {g n : Nat} {held : Option PresenceClient} {done : Nat → Prop}
    {client : PresenceClient} {k : Nat} {reason : ClearReason} {now : Int} {s s' : LiveDesk}
    {e : LiveDeskEvent} (h : s.ClearsLast g n held done client k)
    (hcond : s.KeepsOrder g client k e)
    (hcall : ∀ call, s'.coordinator.calls[k]? = some call →
      call = .clearPresence g client reason now)
    (hstep : s.step e = some s') {p : Nat} {v w : UInt64} (hp : s.IsOldPublish g client p)
    (hp' : s'.IsOldPublish g client p) (hdone : ¬ done p)
    (hv : s'.Reserved client.sequencer.deviceId p v)
    (hw : s'.Reserved client.sequencer.deviceId k w) : v.toNat < w.toNat := by
  by_cases hpast : s.writer.PastReserve k
  · obtain ⟨m, hm, -⟩ := id hpast
    have hpastP := (h.precedes (hm ▸ Option.some_ne_none m) p hp).pastReserve hpast
    exact h.order p v w hp hdone (reserved_of_pastReserve h.inv hstep hpastP hv)
      (reserved_of_pastReserve h.inv hstep hpast hw)
  · obtain ⟨-, hreserved⟩ := storedNext_step (h.fresh hpast) h.inv (hcond.kept hpast) hstep
    rcases hreserved k w hw with hold | ⟨he, habove, -⟩
    · obtain ⟨m, hm, hsequence⟩ := hold.mutation
      have hset : m.sequence ≠ none := by
        rw [hsequence]
        exact Option.some_ne_none w
      exact absurd ⟨m, hm, h.reservesFirst k m hm hset⟩ hpast
    · rcases hreserved p v hv with hold | ⟨hep, -, -⟩
      · have hbelow := h.below hpast p v hp hdone hold
        omega
      · -- The clear reserves in this step, and the publish is another call.
        rw [he] at hep
        injection hep with hep
        injection hep with hep
        subst hep
        obtain ⟨gen, publisher, snapshot, lease, hpublish, -⟩ := hp'
        exact nomatch hcall _ hpublish

theorem ClearsLast.step {g n : Nat} {held : Option PresenceClient} {done : Nat → Prop}
    {client : PresenceClient} {k : Nat} {reason : ClearReason} {now : Int} {s s' : LiveDesk}
    {e : LiveDeskEvent} (h : s.ClearsLast g n held done client k)
    (hcond : s.KeepsOrder g client k e)
    (hcall : ∀ call, s'.coordinator.calls[k]? = some call →
      call = .clearPresence g client reason now)
    (hstep : s.step e = some s') : s'.ClearsLast g n held done client k := by
  have hbefore (hpast : ¬ s'.writer.PastReserve k) : ¬ s.writer.PastReserve k :=
    fun h' => hpast (pastReserve_step h.inv hstep h')
  have hended : s'.coordinator.HasEnded g held n := by
    cases e with
    | coordinator e => exact h.hasEnded.step (step_coordinator hstep).1
    | writer e =>
        rw [(step_writer hstep).2]
        exact h.hasEnded
  have hold (p : Nat) (hp : s'.IsOldPublish g client p) : s.IsOldPublish g client p :=
    isOldPublish_of_step h.hasEnded hended hstep hp
  refine ⟨h.inv.step hstep, ?_, hended, ?_, ?_, ?_, ?_⟩
  · cases e with
    | coordinator e =>
        rw [(step_coordinator hstep).2]
        exact h.reservesFirst
    | writer e => exact h.reservesFirst.step h.inv.writer (step_writer hstep).1
  · intro hpast
    have hpast := hbefore hpast
    exact loadsFresh_step (h.fresh hpast) h.inv (hcond.cross hpast) hstep
  · intro hpast p v hp hdone hv
    have hpast := hbefore hpast
    obtain ⟨hmono, hreserved⟩ :=
      storedNext_step (h.fresh hpast) h.inv (hcond.kept hpast) hstep
    rcases hreserved p v hv with hreservedBefore | ⟨-, -, hrange⟩
    · exact le_trans (h.below hpast p v (hold p hp) hdone hreservedBefore) hmono
    · exact hrange
  · intro harrived p hp
    refine h.precedes_step hcond ?_ hstep harrived p (hold p hp)
    intro call hk
    rw [hcall call hk]
    rfl
  · intro p v w hp hdone hv hw
    exact h.order_step hcond hcall hstep (hold p hp) hp hdone hv hw

theorem calls_grow_everyStep {s s' : LiveDesk} {es : List LiveDeskEvent}
    (h : exec LiveDesk.step s es = some s') :
    EveryStep LiveDesk.step s es
      (fun _ _ s₂ => s₂.coordinator.calls <+: s'.coordinator.calls) := by
  intro n s₁ e s₂ hat
  obtain ⟨t, ht, hrest⟩ := exec_take h (n + 1)
  obtain rfl : t = s₂ := Option.some.inj (ht.symm.trans hat.after)
  exact calls_grow_run hrest

/-- What holds when a generation is about to end, in a run without crossing stores so far. -/
structure BeforeEnd (deviceId : String) (s : LiveDesk) : Prop where
  inv : s.Inv
  reservesFirst : s.writer.ReservesFirst
  closesEnded : s.coordinator.ClosesEnded
  fresh : Writer.LoadsFresh s.coordinator.calls s.writer deviceId

theorem beforeEnd_new (backing : String → Option Int) (deviceId : String) :
    (new backing).BeforeEnd deviceId where
  inv := inv_new backing
  reservesFirst := Writer.reservesFirst_new backing
  closesEnded := Coordinator.closesEnded_new
  fresh := loadsFresh_new deviceId backing

theorem BeforeEnd.step {deviceId : String} {s s' : LiveDesk} {e : LiveDeskEvent}
    (h : s.BeforeEnd deviceId) (hcross : ¬ s.CrossesStore deviceId e)
    (hstep : s.step e = some s') : s'.BeforeEnd deviceId := by
  have hfresh := loadsFresh_step h.fresh h.inv hcross hstep
  have hinv := h.inv.step hstep
  cases e with
  | coordinator e =>
      obtain ⟨hcoordinator, hwriter⟩ := step_coordinator hstep
      exact ⟨hinv, hwriter ▸ h.reservesFirst, h.closesEnded.step hcoordinator, hfresh⟩
  | writer e =>
      obtain ⟨hwriter, hcoordinator⟩ := step_writer hstep
      exact ⟨hinv, h.reservesFirst.step h.inv.writer hwriter, hcoordinator ▸ h.closesEnded, hfresh⟩

theorem hasEnded_run {g n : Nat} {held : Option PresenceClient} {s s' : LiveDesk}
    {es : List LiveDeskEvent} (h : s.coordinator.HasEnded g held n)
    (hrun : exec LiveDesk.step s es = some s') : s'.coordinator.HasEnded g held n := by
  refine exec_invariant (I := fun s => s.coordinator.HasEnded g held n) h ?_ hrun
  intro s₁ e s₂ h hstep
  cases e with
  | coordinator e => exact h.step (step_coordinator hstep).1
  | writer e => exact (step_writer hstep).2 ▸ h

/-- In the state in which a generation has just ended its clear is still to ask for the slot. -/
theorem BeforeEnd.clearsLast {s s' : LiveDesk} {e : CoordinatorEvent} {client : PresenceClient}
    {k : Nat} (h : s.BeforeEnd client.sequencer.deviceId) (hends : s.coordinator.EndsGeneration e)
    (hk : s.coordinator.calls.length ≤ k) (hstep : s.step (.coordinator e) = some s') :
    s'.ClearsLast s.coordinator.inner.generation s.coordinator.calls.length
      s.coordinator.inner.client s.writer.PastReserve client k := by
  obtain ⟨hcoordinator, hwriter⟩ := step_coordinator hstep
  have hquiet : ¬ s.CrossesStore client.sequencer.deviceId (.coordinator e) := not_false
  have hbefore := h.step hquiet hstep
  have hnone : s'.writer.mutations k = none := by
    rw [hwriter]
    by_contra hsome
    obtain ⟨m, hm⟩ := Option.ne_none_iff_exists'.mp hsome
    exact absurd (h.inv.writer.called k m hm) (Nat.not_lt.mpr hk)
  refine ⟨hbefore.inv, hbefore.reservesFirst, h.closesEnded.hasEnded hends hcoordinator,
    fun _ => hbefore.fresh, ?_, fun harrived => absurd hnone harrived, ?_⟩
  · intro _ p v _ hdone hv
    obtain ⟨m, hm, hsequence⟩ := hv.mutation
    rw [hwriter] at hm
    have hset : m.sequence ≠ none := by
      rw [hsequence]
      exact Option.some_ne_none v
    exact absurd ⟨m, hm, h.reservesFirst p m hm hset⟩ hdone
  · intro p v w _ _ _ hw
    obtain ⟨m, hm, -⟩ := hw.mutation
    rw [hnone] at hm
    contradiction

/-- The clear of a generation goes through the client that the generation's end found, and it is
the last word of the generation: no publish of it or of an older one that had not reserved before
reserves a later sequence, if every publish has asked for the send slot when the clear does. -/
theorem clear_is_last {backing : String → Option Int} {before after : List LiveDeskEvent}
    {e : CoordinatorEvent} {s₁ s₂ s₃ : LiveDesk} {k : Nat} {client : PresenceClient}
    {reason : ClearReason} {now : Int}
    (hbefore : exec LiveDesk.step (new backing) before = some s₁)
    (hends : s₁.coordinator.EndsGeneration e)
    (hstep : s₁.step (.coordinator e) = some s₂)
    (hafter : exec LiveDesk.step s₂ after = some s₃)
    (hclear : s₃.coordinator.calls[k]? =
      some (.clearPresence s₁.coordinator.inner.generation client reason now))
    (hcross : EveryStep LiveDesk.step (new backing) before
      (fun s e _ => ¬ s.CrossesStore client.sequencer.deviceId e))
    (horder : EveryStep LiveDesk.step s₂ after
      (fun s e _ => s.KeepsOrder s₁.coordinator.inner.generation client k e)) :
    s₁.coordinator.inner.client = some client ∧
      ∀ p v w, s₃.IsOldPublish s₁.coordinator.inner.generation client p →
        ¬ s₁.writer.PastReserve p →
        s₃.Reserved client.sequencer.deviceId p v → s₃.Reserved client.sequencer.deviceId k w →
        v.toNat < w.toNat := by
  have hready : s₁.BeforeEnd client.sequencer.deviceId := by
    refine EveryStep.invariant (I := fun s => s.BeforeEnd client.sequencer.deviceId)
      (beforeEnd_new backing _) ?_ hcross hbefore
    intro t₁ f t₂ h hcond hstep
    exact h.step hcond hstep
  have hended := hready.closesEnded.hasEnded hends (step_coordinator hstep).1
  obtain ⟨hlater, hheld⟩ := (hasEnded_run hended hafter).clears k client reason now hclear
  have hstart := hready.clearsLast hends hlater hstep
  have hcalls := calls_grow_everyStep hafter
  have hlast := EveryStep.invariant
    (Q := fun s e s' => s.KeepsOrder s₁.coordinator.inner.generation client k e ∧
      s'.coordinator.calls <+: s₃.coordinator.calls)
    (I := fun s => s.ClearsLast s₁.coordinator.inner.generation s₁.coordinator.calls.length
      s₁.coordinator.inner.client s₁.writer.PastReserve client k)
    hstart ?_ (fun n t₁ f t₂ hat => ⟨horder n t₁ f t₂ hat, hcalls n t₁ f t₂ hat⟩) hafter
  · exact ⟨hheld, fun p v w hp hdone hv hw => hlast.order p v w hp hdone hv hw⟩
  · rintro t₁ f t₂ h ⟨hcond, hprefix⟩ hstep
    have hcall : ∀ call, t₂.coordinator.calls[k]? = some call →
        call = .clearPresence s₁.coordinator.inner.generation client reason now := by
      intro call hk
      have hlast := List.prefix_iff_getElem?.mp hprefix k (List.getElem?_eq_some_iff.mp hk).1
      rw [hclear, ← List.getElem?_eq_getElem, hk] at hlast
      exact (Option.some.inj hlast).symm
    exact h.step hcond hcall hstep

/-- A refresh iteration is past its check. -/
def publishChecked : List LiveDeskEvent :=
  [.coordinator .start] ++ startedBy 0 ++ iteratedBy 2 2000

/-- A call from its reserve to its end, accepted by the server. -/
def acceptedBy (call : Nat) (sequence : UInt64) : List LiveDeskEvent :=
  [.writer (.begin call), .writer (.enqueue call), .writer (.load call),
    .writer (.store call true), .writer (.map call none),
    .writer (.answer call (.ok { acceptedSequence := sequence })), .writer (.enqueue call),
    .writer (.load call)]

/-- The publish has asked for the slot before the sleep, and the clear waits for it. -/
theorem clear_is_last_publishQueued :
    ∃ s₁ s₂ s₃ client,
      exec LiveDesk.step (new (fun _ => none)) (publishChecked ++ [.writer (.arrive 0)]) =
        some s₁ ∧
      s₁.step (.coordinator (.handleSleepOrLock 2010)) = some s₂ ∧
      exec LiveDesk.step s₂ (.writer (.arrive 1) :: (acceptedBy 0 1 ++ acceptedBy 1 2)) =
        some s₃ ∧
      s₃.Reserved client.sequencer.deviceId 0 1 ∧ s₃.Reserved client.sequencer.deviceId 1 2 ∧
      s₁.coordinator.inner.client = some client ∧
      ∀ p v w, s₃.IsOldPublish s₁.coordinator.inner.generation client p →
        ¬ s₁.writer.PastReserve p → s₃.Reserved client.sequencer.deviceId p v →
        s₃.Reserved client.sequencer.deviceId 1 w → v.toNat < w.toNat := by
  have hruns : ∃ s₁ s₂ s₃ client,
      exec LiveDesk.step (new (fun _ => none)) (publishChecked ++ [.writer (.arrive 0)]) =
        some s₁ ∧
      s₁.step (.coordinator (.handleSleepOrLock 2010)) = some s₂ ∧
      exec LiveDesk.step s₂ (.writer (.arrive 1) :: (acceptedBy 0 1 ++ acceptedBy 1 2)) =
        some s₃ ∧
      s₂.coordinator.calls[1]? =
        some (.clearPresence s₁.coordinator.inner.generation client .sleep 2010) ∧
      s₂.coordinator.calls.length = 2 ∧ 0 ∈ s₂.writer.sendSlots client.id ∧
      s₃.coordinator.calls = s₂.coordinator.calls ∧
      (∀ call ∈ s₃.coordinator.calls, call.client.sequencer.id = 0) ∧
      ¬ (s₁.coordinator.inner.state = .suspended ∨ s₁.coordinator.inner.stopping = true) ∧
      client.sequencer.deviceId = "device" ∧
      s₃.Reserved client.sequencer.deviceId 0 1 ∧ s₃.Reserved client.sequencer.deviceId 1 2 := by
    refine ⟨_, _, _, _, rfl, rfl, rfl, rfl, rfl, ?_, rfl, ?_, ?_, rfl,
      ⟨⟨_, rfl, by decide⟩, _, rfl, by decide⟩, ⟨⟨_, rfl, by decide⟩, _, rfl, by decide⟩⟩ <;>
    decide
  obtain ⟨s₁, s₂, s₃, client, hs₁, hs₂, hs₃, hclear, hlength, hasked, hcalls, hone, hends,
    hdevice, hpublished, hcleared⟩ := hruns
  have hsleep : exec LiveDesk.step (new (fun _ => none)) ((publishChecked ++ [.writer (.arrive 0)])
      ++ [.coordinator (.handleSleepOrLock 2010)]) = some s₂ :=
    exec_concat_eq_some.mpr ⟨s₁, hs₁, hs₂⟩
  have hcross := not_crossesStore_of_one_sequencer
    (exec_append_eq_some.mpr ⟨s₂, hsleep, hs₃⟩) hone client.sequencer.deviceId
  have horder : EveryStep LiveDesk.step s₂
      (.writer (.arrive 1) :: (acceptedBy 0 1 ++ acceptedBy 1 2))
      (fun s e _ => s.KeepsOrder s₁.coordinator.inner.generation client 1 e) := by
    intro n t₁ e t₂ hat
    refine ⟨fun _ => hcross.append_right hsleep n t₁ e t₂ hat, ?_, ?_⟩
    · rintro - rfl
      have hkept : ∀ e ∈ LiveDeskEvent.writer (.arrive 1) :: (acceptedBy 0 1 ++ acceptedBy 1 2),
          e ≠ .writer (.remove "device") := by decide
      have hmem := List.mem_of_getElem? hat.event
      rw [hdevice] at hmem
      exact hkept _ hmem rfl
    · rintro rfl
      -- The clear arrives in the first step, with the publish in the slot.
      cases n with
      | succ n =>
          have hevent := hat.event
          rw [List.getElem?_cons_succ] at hevent
          exact absurd (List.mem_of_getElem? hevent) (by decide)
      | zero =>
          obtain rfl := Option.some.inj hat.before
          rintro p ⟨gen, publisher, snapshot, lease, hp, -⟩
          have hlt := (List.getElem?_eq_some_iff.mp hp).1
          rw [hlength] at hlt
          have hne : p ≠ 1 := by
            rintro rfl
            exact nomatch hclear.symm.trans hp
          obtain rfl : p = 0 := by omega
          exact Or.inr hasked
  refine ⟨s₁, s₂, s₃, client, hs₁, hs₂, hs₃, hpublished, hcleared, ?_⟩
  have hbefore := hcross.append_left.append_left
  exact clear_is_last (e := .handleSleepOrLock 2010) hs₁ hends hs₂ hs₃ (hcalls ▸ hclear) hbefore
    horder

/-- The publish is past its check and has not asked for the slot when the sleep's clear does: the
clear reserves 1 and the publish of the ended generation reserves 2. -/
theorem clear_overtaken_publishChecked :
    ∃ s₁ s₂ s₃ client, exec LiveDesk.step (new (fun _ => none)) publishChecked = some s₁ ∧
      s₁.coordinator.EndsGeneration (.handleSleepOrLock 2010) ∧
      s₁.step (.coordinator (.handleSleepOrLock 2010)) = some s₂ ∧
      exec LiveDesk.step s₂ ([.writer (.arrive 1)] ++ acceptedBy 1 1 ++
        [.writer (.arrive 0)] ++ acceptedBy 0 2) = some s₃ ∧
      s₃.coordinator.calls[1]? =
        some (.clearPresence s₁.coordinator.inner.generation client .sleep 2010) ∧
      s₃.IsOldPublish s₁.coordinator.inner.generation client 0 ∧ ¬ s₁.writer.PastReserve 0 ∧
      s₃.Reserved client.sequencer.deviceId 0 2 ∧ s₃.Reserved client.sequencer.deviceId 1 1 := by
  refine ⟨_, _, _, _, rfl, ?_, rfl, rfl, rfl, ?_, ?_, ?_, ?_⟩
  · rintro (hstate | hstopping)
    · exact nomatch hstate
    · exact nomatch hstopping
  · exact ⟨_, _, _, _, rfl, by decide, rfl⟩
  · rintro ⟨m, hm, -⟩
    exact nomatch hm
  · exact ⟨⟨_, rfl, by decide⟩, _, rfl, by decide⟩
  · exact ⟨⟨_, rfl, by decide⟩, _, rfl, by decide⟩

end LiveDesk

end YohakuCore
