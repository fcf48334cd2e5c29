import YohakuCore.Companion.PublishingGate
import YohakuCore.Companion.SequenceReuse
import YohakuCore.Companion.SingleFlight

/-!
# A device the coordinator has let go

A client of a device comes from a configure that has read a connection of it, or is handed on by the
lock, a loop or a shutdown.
-/

namespace YohakuCore

open Framework

/-- The client reserves or sends for the device. -/
def PresenceClient.OfDevice (client : PresenceClient) (deviceId : String) : Prop :=
  client.sequencer.deviceId = deviceId ∨ client.credential.deviceId = deviceId

/-- The connection that a configure past its gate has read. -/
def ConfigurePc.connection : ConfigurePc → Option StoredConnection
  | token connection => some connection
  | capabilities connection _ => some connection
  | _ => none

theorem ConfigurePc.isPastGate_of_connection {pc : ConfigurePc} {connection : StoredConnection}
    (h : pc.connection = some connection) : pc.isPastGate = true := by
  cases pc with
  | token _ => rfl
  | capabilities _ _ => rfl
  | _ => contradiction

theorem AuthorityRegistry.resolve_induction {registry : AuthorityRegistry}
    {P : PublishAuthority → Prop} {baseUrl deviceId : String} {factory : PublishAuthority}
    (hcurrent : ∀ key authority, registry.current = some (key, authority) → P authority)
    (hfactory : P factory) : P (registry.resolve baseUrl deviceId factory) := by
  rw [resolve]
  split
  · rename_i key authority hregistry
    split
    · exact hcurrent key authority hregistry
    · exact hfactory
  · exact hfactory

namespace Coordinator

/-- Neither the lock nor a task of the current generation has anything of the device. -/
structure Released (c : Coordinator) (deviceId : String) : Prop where
  client : ∀ client, c.inner.client = some client → ¬ client.OfDevice deviceId
  authority : ∀ key authority, c.inner.registry.current = some (key, authority) →
    authority.sequencer.deviceId ≠ deviceId
  loops : ∀ id client includeMedia,
    c.loops id = some ⟨c.inner.generation, .capturing client includeMedia⟩ →
    ¬ client.OfDevice deviceId
  configures : ∀ id pc connection, c.configures id = some ⟨c.inner.generation, pc⟩ →
    pc.connection = some connection → connection.deviceId ≠ deviceId

/-- The lock has no client and no authority. -/
def Unarmed (c : Coordinator) : Prop :=
  c.inner.client = none ∧ c.inner.registry.current = none

theorem Unarmed.step {c c' : Coordinator} {e : CoordinatorEvent} (h : c.Unarmed)
    (hquiet : c.Quiet) (hstep : c.step e = some c') : c'.Unarmed := by
  cases (step_hold hstep).authority with
  | kept hclient hregistry => exact ⟨hclient.trans h.1, (congrArg _ hregistry).trans h.2⟩
  | released hclient hregistry => exact ⟨hclient, (congrArg _ hregistry).trans h.2⟩
  | discarded hclient hregistry => exact ⟨hclient, congrArg _ hregistry⟩
  | installed id connection token configuration hconfigure =>
      exact absurd ⟨id, _, hconfigure, rfl, rfl⟩ hquiet.gate

theorem Unarmed.released {c : Coordinator} (h : c.Unarmed) (hquiet : c.Quiet) (hinv : c.Inv)
    (deviceId : String) : c.Released deviceId where
  client client hclient := by
    rw [h.1] at hclient
    contradiction
  authority key authority hregistry := by
    rw [h.2] at hregistry
    contradiction
  loops id client includeMedia hloop := absurd ((hinv.loops id _ hloop).2 rfl) hquiet.state
  configures id pc connection hconfigure hconnection :=
    absurd ⟨id, _, hconfigure, rfl, ConfigurePc.isPastGate_of_connection hconnection⟩ hquiet.gate

section

variable {c c' : Coordinator} {e : CoordinatorEvent} {deviceId : String}

/-- A client is negotiated with the credential of the connection and the sequencer of its
authority. -/
private theorem Released.install (h : c.Released deviceId) {connection : StoredConnection}
    (hdevice : connection.deviceId ≠ deviceId) {token : String}
    {configuration : NegotiatedPresenceConfiguration} :
    (∀ client, (c.install connection token configuration).inner.client = some client →
      ¬ client.OfDevice deviceId) ∧
    ∀ key authority,
      (c.install connection token configuration).inner.registry.current = some (key, authority) →
      authority.sequencer.deviceId ≠ deviceId := by
  have hresolved : (c.inner.registry.resolve connection.baseUrl connection.deviceId {
      sequencer := {
        id := c.nextObject
        deviceId := connection.deviceId
        pairingNextSequence := connection.pairingNextSequence }
      client := none }).sequencer.deviceId ≠ deviceId :=
    AuthorityRegistry.resolve_induction (P := fun authority =>
      authority.sequencer.deviceId ≠ deviceId) h.authority hdevice
  constructor
  · intro client hclient
    obtain rfl := Option.some.inj hclient
    rintro (hsequencer | hcredential)
    · exact hresolved hsequencer
    · exact hdevice hcredential
  · intro key authority hregistry
    obtain ⟨-, rfl⟩ := Prod.mk.inj (Option.some.inj hregistry)
    exact hresolved

private theorem Released.authority_step (h : c.Released deviceId) (hstep : c.step e = some c') :
    (∀ client, c'.inner.client = some client → ¬ client.OfDevice deviceId) ∧
    ∀ key authority, c'.inner.registry.current = some (key, authority) →
      authority.sequencer.deviceId ≠ deviceId := by
  cases (step_hold hstep).authority with
  | kept hclient hregistry =>
      rw [hclient, hregistry]
      exact ⟨h.client, h.authority⟩
  | released hclient hregistry =>
      rw [hclient, hregistry]
      exact ⟨fun client hsome => (nomatch hsome), h.authority⟩
  | discarded hclient hregistry =>
      rw [hclient, hregistry]
      exact ⟨fun client hsome => (nomatch hsome), fun key authority hsome => (nomatch hsome)⟩
  | installed id connection token configuration hconfigure hclient hregistry =>
      rw [hclient, hregistry]
      exact h.install (h.configures id _ connection hconfigure rfl)

private theorem Released.loops_step (h : c.Released deviceId) (hinv : c.Inv)
    (hstep : c.step e = some c') {id : Nat} {client : PresenceClient} {includeMedia : Bool}
    (hloop : c'.loops id = some ⟨c'.inner.generation, .capturing client includeMedia⟩) :
    ¬ client.OfDevice deviceId := by
  have hkept (hbefore : c.loops id =
      some ⟨c'.inner.generation, .capturing client includeMedia⟩) :
      ¬ client.OfDevice deviceId := by
    have hle : c'.inner.generation ≤ c.inner.generation := (hinv.loops id _ hbefore).1
    have hsame : c'.inner.generation = c.inner.generation :=
      Nat.le_antisymm hle (step_grows hstep).generation
    exact h.loops id client includeMedia (hsame ▸ hbefore)
  cases (step_hold hstep).loops with
  | kept hloops => exact hkept (hloops ▸ hloop)
  | spawned j gen _ hloops =>
      rw [hloops, Function.update_apply] at hloop
      split at hloop
      · simp at hloop
      · exact hkept hloop
  | exited j task _ _ hloops =>
      rw [hloops, Function.update_apply] at hloop
      split at hloop
      · contradiction
      · exact hkept hloop
  | advanced j pc pc' _ hadvances hloops =>
      rw [hloops, Function.update_apply] at hloop
      split at hloop
      · obtain ⟨-, rfl⟩ := Spawned.mk.inj (Option.some.inj hloop)
        cases hadvances with
        | capturing now waitMs _ hheld => exact h.client client hheld
      · exact hkept hloop

private theorem Released.configures_step (h : c.Released deviceId) (hinv : c.Inv)
    (hstep : c.step e = some c')
    (hgate : ∀ i connection, e = .configureGate i (some connection) →
      connection.deviceId ≠ deviceId) {id : Nat} {pc : ConfigurePc} {connection : StoredConnection}
    (hconfigure : c'.configures id = some ⟨c'.inner.generation, pc⟩)
    (hconnection : pc.connection = some connection) : connection.deviceId ≠ deviceId := by
  have hbefore {pc' : ConfigurePc} (hbefore : c.configures id = some ⟨c'.inner.generation, pc'⟩)
      (hread : pc'.connection = some connection) : connection.deviceId ≠ deviceId := by
    have hle : c'.inner.generation ≤ c.inner.generation := (hinv.configures id _ hbefore).1
    have hsame : c'.inner.generation = c.inner.generation :=
      Nat.le_antisymm hle (step_grows hstep).generation
    exact h.configures id pc' connection (hsame ▸ hbefore) hread
  cases step_configure hstep hconfigure with
  | kept hsame => exact hbefore hsame hconnection
  | spawned hentry _ =>
      have hentry : pc = .entry := hentry
      rw [hentry] at hconnection
      contradiction
  | advanced pc' hsame hadvances =>
      cases hadvances with
      | entered => contradiction
      | stopped _ _ => contradiction
      | passed read _ =>
          obtain rfl := Option.some.inj hconnection
          exact hgate id read rfl
      | accepted read token =>
          obtain rfl := Option.some.inj hconnection
          exact hbefore hsame rfl

/-- A released device comes back only through a pairing gate that reads a connection of it. -/
theorem Released.step (h : c.Released deviceId) (hinv : c.Inv) (hstep : c.step e = some c')
    (hgate : ∀ i connection, e = .configureGate i (some connection) →
      connection.deviceId ≠ deviceId) : c'.Released deviceId where
  client := (h.authority_step hstep).1
  authority := (h.authority_step hstep).2
  loops _ _ _ hloop := h.loops_step hinv hstep hloop
  configures _ _ _ hconfigure hconnection :=
    h.configures_step hinv hstep hgate hconfigure hconnection

/-- The shutdown `id` is in flight with a client whose clear is still to come. -/
def Clears (c : Coordinator) (id ended : Nat) (client : PresenceClient) (reason : ClearReason) :
    Prop :=
  ∃ pending, c.shutdowns id = some (.joining reason ended (some client) false pending)

theorem Released.calls (h : c.Released deviceId) {later : List PresenceCall}
    (hlater : c.Calls e later) {call : PresenceCall} (hcall : call ∈ later)
    (hdevice : call.client.OfDevice deviceId) :
    ∃ id ended client reason now, c.Clears id ended client reason ∧
      call = .clearPresence ended client reason now := by
  cases hlater with
  | none => exact absurd hcall List.not_mem_nil
  | publish id snapshot client includeMedia hcapturing =>
      obtain rfl := List.mem_singleton.mp hcall
      exact absurd hdevice (h.loops id client includeMedia hcapturing)
  | sleep now client hheld _ =>
      obtain rfl := List.mem_singleton.mp hcall
      exact absurd hdevice (h.client client hheld)
  | shutdown id now reason ended client pending hjoining =>
      exact ⟨id, ended, client, reason, now, ⟨pending, hjoining⟩, List.mem_singleton.mp hcall⟩

theorem Released.clears (h : c.Released deviceId) (hstep : c.step e = some c') {id ended : Nat}
    {client : PresenceClient} {reason : ClearReason} (hclears : c'.Clears id ended client reason)
    (hdevice : client.OfDevice deviceId) : c.Clears id ended client reason := by
  obtain ⟨pending, hjoining⟩ := hclears
  rcases (step_grows hstep).shutdowns _ _ _ _ _ _ hjoining with hbefore | ⟨-, -, hclient⟩
  · exact ⟨pending, hbefore⟩
  · exact absurd hdevice (h.client client hclient.symm)

end

end Coordinator

theorem Writer.store_unfinished {calls : List PresenceCall} {w w' : Writer} {id : Nat}
    {succeeds : Bool} (h : w.store calls id succeeds = some w') {m : Mutation}
    (hm : w.mutations id = some m) : m.stage.isFinished = false := by
  rw [store, hm] at h
  split at h
  · rename_i hsome
    obtain rfl := Option.some.inj hsome
    dsimp only at h
    split at h
    · rename_i hoperation
      exact (unfinished_of_operation hoperation).1
    · contradiction
  · contradiction

namespace LiveDesk

variable {s s' t : LiveDesk} {e : LiveDeskEvent} {deviceId : String} {k : Nat}

/-- The step of the mutation `k` stores an entry for the device, reserves a sequence for it, or
starts a request of it. -/
inductive Touches (deviceId : String) (s : LiveDesk) (e : LiveDeskEvent) (s' : LiveDesk) (k : Nat) :
    Prop
  | stores (call : PresenceCall) (called : s.coordinator.calls[k]? = some call)
      (device : call.client.sequencer.deviceId = deviceId) (event : e = .writer (.store k true))
  | reserves (call : PresenceCall) (m m' : Mutation) (sequence : UInt64)
      (called : s.coordinator.calls[k]? = some call)
      (device : call.client.sequencer.deviceId = deviceId)
      (before : s.writer.mutations k = some m) (fresh : m.sequence = none)
      (after : s'.writer.mutations k = some m') (reserved : m'.sequence = some sequence)
  | sends (call : PresenceCall) (m m' : Mutation) (retry : Bool)
      (called : s.coordinator.calls[k]? = some call)
      (device : call.client.credential.deviceId = deviceId)
      (before : s.writer.mutations k = some m) (idle : m.stage ≠ .sending retry)
      (after : s'.writer.mutations k = some m') (sending : m'.stage = .sending retry)

theorem Touches.called (h : Touches deviceId s e s' k) :
    ∃ call, s.coordinator.calls[k]? = some call ∧ call.client.OfDevice deviceId := by
  cases h with
  | stores call hcalled hdevice _ => exact ⟨call, hcalled, Or.inl hdevice⟩
  | reserves call _ _ _ hcalled hdevice => exact ⟨call, hcalled, Or.inl hdevice⟩
  | sends call _ _ _ hcalled hdevice => exact ⟨call, hcalled, Or.inr hdevice⟩

theorem Touches.not_finished (h : Touches deviceId s e s' k) (hinv : s.Inv)
    (hstep : s.step e = some s') : ¬ s.Finished k := by
  intro hfinished
  have hsame := hfinished.mutation hinv hstep
  cases h with
  | stores call _ _ hevent =>
      subst hevent
      obtain ⟨m, hm, hdone⟩ := hfinished
      rw [Writer.store_unfinished (step_writer hstep).1 hm] at hdone
      contradiction
  | reserves _ m m' sequence _ _ hbefore hfresh hafter hreserved =>
      rw [hafter, hbefore] at hsame
      rw [Option.some.inj hsame, hfresh] at hreserved
      contradiction
  | sends _ m m' retry _ _ hbefore hidle hafter hsending =>
      rw [hafter, hbefore] at hsame
      exact hidle (Option.some.inj hsame ▸ hsending)

theorem touches_of_entry {v : Int} (hstep : s.step e = some s')
    (hentry : s'.writer.backing deviceId = some v) (hchanged : s.writer.backing deviceId ≠ some v) :
    ∃ k, Touches deviceId s e s' k := by
  cases e with
  | coordinator e =>
      rw [(step_coordinator hstep).2] at hentry
      exact absurd hentry hchanged
  | writer e =>
      cases Writer.step_moved (step_writer hstep).1 with
      | remove device _ hremoved =>
          rw [hremoved, Function.update_apply] at hentry
          split at hentry
          · contradiction
          · exact absurd hentry hchanged
      | quiet _ id call m' _ _ hquiet =>
          rw [hquiet.backing] at hentry
          exact absurd hentry hchanged
      | store id call m' op current next result hcalled _ hstored =>
          rw [hstored.backing, Function.update_apply] at hentry
          split at hentry
          · rename_i hdevice
            exact ⟨id, .stores call hcalled hdevice.symm rfl⟩
          · exact absurd hentry hchanged

/-- The call is the clear of a shutdown that was in flight. -/
def PendingClear (t : LiveDesk) (call : PresenceCall) : Prop :=
  ∃ id ended client reason now, t.coordinator.Clears id ended client reason ∧
    call = .clearPresence ended client reason now

/-- What may still run of a mutation `k`: it was called before and had not finished, or it is the
clear of a shutdown that was in flight. -/
def LeftOver (t s : LiveDesk) (k : Nat) : Prop :=
  (k < t.coordinator.calls.length ∧ ¬ t.Finished k) ∨
    ∃ call, s.coordinator.calls[k]? = some call ∧ t.PendingClear call

/-- Since `t` nothing new was called for the device. -/
structure Abandoned (deviceId : String) (t s : LiveDesk) : Prop where
  calls : ∀ k call, t.coordinator.calls.length ≤ k → s.coordinator.calls[k]? = some call →
    call.client.OfDevice deviceId → t.PendingClear call
  clears : ∀ id ended client reason, s.coordinator.Clears id ended client reason →
    client.OfDevice deviceId → t.coordinator.Clears id ended client reason
  finished : ∀ k, t.Finished k → s.Finished k

theorem abandoned_self (deviceId : String) (t : LiveDesk) : Abandoned deviceId t t where
  calls _ _ hle hcall _ := absurd (List.getElem?_eq_some_iff.mp hcall).1 (Nat.not_lt.mpr hle)
  clears _ _ _ _ hclears _ := hclears
  finished _ hfinished := hfinished

theorem Abandoned.step (h : Abandoned deviceId t s) (hinv : s.Inv)
    (hreleased : s.coordinator.Released deviceId) (hstep : s.step e = some s') :
    Abandoned deviceId t s' := by
  have hfinished (k : Nat) (hdone : t.Finished k) : s'.Finished k :=
    (h.finished k hdone).step hinv hstep
  cases e with
  | writer e =>
      have hcoordinator := (step_writer hstep).2
      exact ⟨hcoordinator ▸ h.calls, hcoordinator ▸ h.clears, hfinished⟩
  | coordinator e =>
      have hmove := (step_coordinator hstep).1
      obtain ⟨later, hlater, hcalls⟩ := Coordinator.step_calls hmove
      refine ⟨?_, ?_, hfinished⟩
      · intro k call hle hcall hdevice
        rcases Nat.lt_or_ge k s.coordinator.calls.length with hlt | hge
        · rw [hcalls, List.getElem?_append_left hlt] at hcall
          exact h.calls k call hle hcall hdevice
        · rw [hcalls, List.getElem?_append_right hge] at hcall
          obtain ⟨id, ended, client, reason, now, hclears, rfl⟩ :=
            hreleased.calls hlater (List.mem_of_getElem? hcall) hdevice
          exact ⟨id, ended, client, reason, now, h.clears id ended client reason hclears hdevice,
            rfl⟩
      · intro id ended client reason hclears hdevice
        exact h.clears id ended client reason (hreleased.clears hmove hclears hdevice) hdevice

theorem Abandoned.leftOver (h : Abandoned deviceId t s) (hinv : s.Inv)
    (hstep : s.step e = some s') (htouches : Touches deviceId s e s' k) : t.LeftOver s k := by
  obtain ⟨call, hcall, hdevice⟩ := htouches.called
  rcases Nat.lt_or_ge k t.coordinator.calls.length with hlt | hge
  · refine Or.inl ⟨hlt, ?_⟩
    intro hfinished
    exact htouches.not_finished hinv hstep (h.finished k hfinished)
  · exact Or.inr ⟨call, hcall, h.calls k call hge hcall hdevice⟩

end LiveDesk

end YohakuCore
