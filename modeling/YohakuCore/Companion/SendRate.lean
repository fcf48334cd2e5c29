import YohakuCore.Companion.LoopMoves
import YohakuCore.Companion.NegotiatedParameters
import YohakuCore.Framework.Spacing

/-!
# The pace of the publishes

At most one loop is live, so no other iteration stamps while a loop sleeps for the rest of the
interval.
-/

namespace YohakuCore

open Framework

/-- What a refresh loop reads of the clock. -/
def CoordinatorEvent.reading : CoordinatorEvent → Option Int
  | .loopHead _ now => some now
  | .loopThrottled _ now => some now
  | _ => none

namespace Coordinator

/-- The segment after the sleep goes on to the capture; it stamps the send start. -/
structure StartsSend (c : Coordinator) (e : CoordinatorEvent) (now : Int) : Prop where
  segment : ∃ id waitMs client, e = .loopThrottled id now ∧
    c.loops id = some ⟨c.inner.generation, .throttled waitMs⟩ ∧ c.inner.client = some client

/-- A configure of the current generation installs what it negotiated. -/
structure Installs (c : Coordinator) (e : CoordinatorEvent)
    (configuration : NegotiatedPresenceConfiguration) : Prop where
  segment : ∃ id connection token,
    e = .configureCapabilities id (some (.available configuration)) ∧
    c.configures id = some ⟨c.inner.generation, .capabilities connection token⟩

/-- The interval of a rate, in milliseconds. -/
def intervalOf (requestsPerMinute : Nat) : Nat :=
  (60000 + requestsPerMinute - 1) / requestsPerMinute

inductive PaceMove (c : Coordinator) (e : CoordinatorEvent) (c' : Coordinator) : Prop
  | kept (stamp : c'.inner.lastSendStartedAt = c.inner.lastSendStartedAt)
      (interval : c'.inner.minSendIntervalMs = c.inner.minSendIntervalMs)
      (starts : ∀ now, ¬ c.StartsSend e now) (installs : ∀ k, ¬ c.Installs e k)
  | started (now : Int) (starts : c.StartsSend e now)
      (stamp : c'.inner.lastSendStartedAt = now)
      (interval : c'.inner.minSendIntervalMs = c.inner.minSendIntervalMs)
  | installed (configuration : NegotiatedPresenceConfiguration)
      (installs : c.Installs e configuration)
      (stamp : c'.inner.lastSendStartedAt = c.inner.lastSendStartedAt)
      (interval : c'.inner.minSendIntervalMs = intervalOf configuration.requestsPerMinute)

/-- What the throttle works with. -/
def pace (c : Coordinator) : Int × Nat := (c.inner.lastSendStartedAt, c.inner.minSendIntervalMs)

@[simp] theorem startLocked_pace (c : Coordinator) : c.startLocked.pace = c.pace := by
  rw [startLocked]
  split <;> rfl

@[simp] theorem triggerRefresh_pace (c : Coordinator) (gen : Nat) :
    (c.triggerRefresh gen).pace = c.pace := by
  rw [triggerRefresh]
  split <;> rfl

theorem paceMove_kept {c c' : Coordinator} {e : CoordinatorEvent} (h : c'.pace = c.pace)
    (hstarts : ∀ now, ¬ c.StartsSend e now) (hinstalls : ∀ k, ¬ c.Installs e k) :
    PaceMove c e c' :=
  .kept (congrArg Prod.fst h) (congrArg Prod.snd h) hstarts hinstalls

theorem step_pace_other {c c' : Coordinator} {e : CoordinatorEvent} (h : c.step e = some c')
    (hthrottled : ∀ id now, e ≠ .loopThrottled id now)
    (hconfigure : ∀ id k, e ≠ .configureCapabilities id (some (.available k))) :
    c'.pace = c.pace := by
  cases e with
  | start =>
      obtain rfl := Option.some.inj h
      exact startLocked_pace c
  | requestFreshSnapshot =>
      obtain rfl := Option.some.inj h
      rw [requestFreshSnapshot]
      split
      · exact triggerRefresh_pace c _
      · rfl
  | handleSleepOrLock now =>
      obtain rfl := Option.some.inj h
      rw [handleSleepOrLock]
      split
      · rfl
      · dsimp only
        split <;> rfl
  | handleWakeOrUnlock =>
      obtain rfl := Option.some.inj h
      rw [handleWakeOrUnlock]
      split <;> rfl
  | shutdown reason =>
      obtain rfl := Option.some.inj h
      rw [shutdown]
      split <;> rfl
  | discardAuthority =>
      obtain rfl := Option.some.inj h
      rfl
  | loopThrottled id now => exact absurd rfl (hthrottled id now)
  | configureCapabilities id negotiation =>
      simp only [step, configureCapabilities] at h
      split at h
      · split at h
        · obtain rfl := Option.some.inj h
          rfl
        · cases negotiation with
          | none =>
              obtain rfl := Option.some.inj h
              rfl
          | some outcome =>
              cases outcome with
              | available configuration => exact absurd rfl (hconfigure id configuration)
              | clientUpdateRequired | schemaUnsupported | featureUnavailable
              | invalidCapabilities =>
                  obtain rfl := Option.some.inj h
                  rfl
      · contradiction
  | loopPublished id result =>
      simp only [step, loopPublished] at h
      split at h
      · split at h
        · obtain rfl := Option.some.inj h
          rfl
        · split at h
          · obtain rfl := Option.some.inj h
            rfl
          · split at h
            · obtain rfl := Option.some.inj h
              exact startLocked_pace _
            · obtain rfl := Option.some.inj h
              rfl
      · contradiction
  | _ =>
      simp only [step, joinDone, wakeResume, shutdownJoined, shutdownFinish, retryElapse,
        retryFire, heartbeatTick, heartbeatFire, configureEntry, configureGate, configureRefuse,
        configureToken, loopHead, loopCheck] at h
      repeat' split at h
      all_goals first
        | contradiction
        | obtain rfl := Option.some.inj h
          first
            | rfl
            | exact startLocked_pace _
            | exact triggerRefresh_pace _ _

theorem loopThrottled_pace {c c' : Coordinator} {id : Nat} {now : Int}
    (h : c.loopThrottled id now = some c') : PaceMove c (.loopThrottled id now) c' := by
  have hinstalls (k : NegotiatedPresenceConfiguration) :
      ¬ c.Installs (.loopThrottled id now) k := by
    rintro ⟨id', connection, token, hevent, -⟩
    contradiction
  -- An iteration that ends leaves the stamp.
  have hexits (hstops : ∀ waitMs client,
      c.loops id = some ⟨c.inner.generation, .throttled waitMs⟩ → c.inner.client ≠ some client)
      (hc : c' = c.exitLoop id) : PaceMove c (.loopThrottled id now) c' := by
    refine paceMove_kept (by rw [hc]; rfl) ?_ hinstalls
    rintro t ⟨id', waitMs, client, hevent, hloop, hclient⟩
    obtain ⟨rfl, rfl⟩ := CoordinatorEvent.loopThrottled.inj hevent
    exact hstops waitMs client hloop hclient
  rw [loopThrottled] at h
  split at h
  · rename_i gen waitMs hloop
    split at h
    · rename_i hgen
      refine hexits ?_ (Option.some.inj h).symm
      intro waitMs' client hcurrent
      rw [hloop] at hcurrent
      exact absurd (Spawned.mk.inj (Option.some.inj hcurrent)).1 hgen
    · rename_i hgen
      obtain rfl : gen = c.inner.generation := not_not.mp hgen
      split at h
      · rename_i hnone
        refine hexits ?_ (Option.some.inj h).symm
        intro waitMs' client _ hclient
        rw [hnone] at hclient
        contradiction
      · rename_i client hclient
        obtain rfl := Option.some.inj h
        exact .started now ⟨id, waitMs, client, rfl, hloop, hclient⟩ rfl rfl
  · contradiction

theorem configureCapabilities_pace {c c' : Coordinator} {id : Nat}
    {k : NegotiatedPresenceConfiguration}
    (h : c.configureCapabilities id (some (.available k)) = some c') :
    PaceMove c (.configureCapabilities id (some (.available k))) c' := by
  have hstarts (now : Int) :
      ¬ c.StartsSend (.configureCapabilities id (some (.available k))) now := by
    rintro ⟨id', waitMs, client, hevent, -⟩
    contradiction
  rw [configureCapabilities] at h
  split at h
  · rename_i gen connection token hconfigure
    dsimp only at h
    split at h
    · rename_i hgen
      obtain rfl := Option.some.inj h
      refine paceMove_kept rfl hstarts ?_
      rintro k' ⟨id', connection', token', hevent, hcurrent⟩
      obtain ⟨rfl, -⟩ := CoordinatorEvent.configureCapabilities.inj hevent
      rw [hconfigure] at hcurrent
      exact hgen (Spawned.mk.inj (Option.some.inj hcurrent)).1
    · rename_i hgen
      obtain rfl : gen = c.inner.generation := not_not.mp hgen
      obtain rfl := Option.some.inj h
      have hpace := triggerRefresh_pace
        ((((c.setConfigure id none).install connection token k).setState .active).spawnHeartbeat
          c.inner.generation) c.inner.generation
      exact .installed k ⟨id, connection, token, rfl, hconfigure⟩ (congrArg Prod.fst hpace)
        (congrArg Prod.snd hpace)
  · contradiction

theorem step_pace {c c' : Coordinator} {e : CoordinatorEvent} (h : c.step e = some c') :
    PaceMove c e c' := by
  by_cases hthrottled : ∃ id now, e = .loopThrottled id now
  · obtain ⟨id, now, rfl⟩ := hthrottled
    exact loopThrottled_pace h
  by_cases hconfigure : ∃ id k, e = .configureCapabilities id (some (.available k))
  · obtain ⟨id, k, rfl⟩ := hconfigure
    exact configureCapabilities_pace h
  refine paceMove_kept (step_pace_other h ?_ ?_) ?_ ?_
  · rintro id now rfl
    exact hthrottled ⟨id, now, rfl⟩
  · rintro id k rfl
    exact hconfigure ⟨id, k, rfl⟩
  · rintro now ⟨id, waitMs, client, rfl, -⟩
    exact hthrottled ⟨id, now, rfl⟩
  · rintro k ⟨id, connection, token, rfl, -⟩
    exact hconfigure ⟨id, k, rfl⟩

/-- The step at instant `n` stamps a send start with the reading `now`. -/
def StartsSendAt (es : List CoordinatorEvent) (n : Nat) (now : Int) : Prop :=
  ∃ c e c', StepAt Coordinator.step new es n c e c' ∧ c.StartsSend e now

/-- The head at instant `k` and the segment after the sleep at instant `n` are of one iteration of
the loop `id`; `head` and `wake` are what they read of the clock. -/
structure Iteration (es : List CoordinatorEvent) (k n id : Nat) (head wake : Int) : Prop where
  head_event : es[k]? = some (.loopHead id head)
  wake_event : es[n]? = some (.loopThrottled id wake)
  lt : k < n
  between : ∀ j e, k < j → j < n → es[j]? = some e → e.loop ≠ some id

/-- What the head computes; it sleeps when this is positive. -/
def waitMs (c : Coordinator) (now : Int) : Int :=
  c.inner.lastSendStartedAt + c.inner.minSendIntervalMs - now

/-- The clock never steps back, and a sleep lasts at least as long as it was asked to. -/
structure Timed (es : List CoordinatorEvent) : Prop where
  clock : (es.filterMap CoordinatorEvent.reading).Pairwise (· ≤ ·)
  sleeps : ∀ k n id head wake c, Iteration es k n id head wake →
    exec Coordinator.step new (es.take k) = some c → 0 < c.waitMs head →
    head + c.waitMs head ≤ wake

theorem Timed.reading_le {es : List CoordinatorEvent} (h : Timed es) {m n : Nat}
    {e f : CoordinatorEvent} {a b : Int} (hlt : m < n) (he : es[m]? = some e)
    (hf : es[n]? = some f) (ha : e.reading = some a) (hb : f.reading = some b) : a ≤ b := by
  have hpairs := List.pairwise_filterMap.mp h.clock
  obtain ⟨hm, rfl⟩ := List.getElem?_eq_some_iff.mp he
  obtain ⟨hn, rfl⟩ := List.getElem?_eq_some_iff.mp hf
  exact List.pairwise_iff_getElem.mp hpairs m n hm hn hlt a ha b hb

/-- The reading of the last send start before an instant, and zero before the first. -/
inductive LastStart (es : List CoordinatorEvent) (n : Nat) : Int → Prop
  | never (none : ∀ m a, m < n → ¬ StartsSendAt es m a) : LastStart es n 0
  | sent (m : Nat) (a : Int) (starts : StartsSendAt es m a) (before : m < n)
      (latest : ∀ k b, m < k → k < n → ¬ StartsSendAt es k b) : LastStart es n a

theorem StartsSendAt.append_right {es : List CoordinatorEvent} {n : Nat} {a : Int}
    (h : StartsSendAt es n a) (fs : List CoordinatorEvent) : StartsSendAt (es ++ fs) n a := by
  obtain ⟨c, e, c', hat, hstarts⟩ := h
  exact ⟨c, e, c', hat.append_right fs, hstarts⟩

theorem StartsSendAt.lt_length {es : List CoordinatorEvent} {n : Nat} {a : Int}
    (h : StartsSendAt es n a) : n < es.length := by
  obtain ⟨c, e, c', hat, -⟩ := h
  exact hat.lt_length

theorem startsSendAt_append_iff {es fs : List CoordinatorEvent} {n : Nat} {a : Int}
    (hlen : n < es.length) : StartsSendAt (es ++ fs) n a ↔ StartsSendAt es n a := by
  constructor
  · rintro ⟨c, e, c', hat, hstarts⟩
    exact ⟨c, e, c', hat.of_append_right hlen, hstarts⟩
  · exact fun h => h.append_right fs

theorem startsSendAt_last {es : List CoordinatorEvent} {c c' : Coordinator} {e : CoordinatorEvent}
    {a : Int} (hc : exec Coordinator.step new es = some c) (hstep : c.step e = some c') :
    StartsSendAt (es ++ [e]) es.length a ↔ c.StartsSend e a := by
  constructor
  · rintro ⟨c₁, f, c₂, hat, hstarts⟩
    obtain h | ⟨-, rfl, rfl, -⟩ := hat.concat_cases hc hstep
    · exact absurd h.lt_length (Nat.lt_irrefl _)
    · exact hstarts
  · intro hstarts
    exact ⟨c, e, c', StepAt.last hc hstep, hstarts⟩

theorem StartsSendAt.event {es : List CoordinatorEvent} {n : Nat} {a : Int}
    (h : StartsSendAt es n a) : ∃ id, es[n]? = some (.loopThrottled id a) := by
  obtain ⟨c, e, c', hat, id, waitMs, client, rfl, -⟩ := h
  exact ⟨id, hat.event⟩

theorem StartsSendAt.unique {es : List CoordinatorEvent} {n : Nat} {a b : Int}
    (ha : StartsSendAt es n a) (hb : StartsSendAt es n b) : a = b := by
  obtain ⟨id, hid⟩ := ha.event
  obtain ⟨id', hid'⟩ := hb.event
  rw [hid] at hid'
  exact (CoordinatorEvent.loopThrottled.inj (Option.some.inj hid')).2

theorem LastStart.unique {es : List CoordinatorEvent} {n : Nat} {a b : Int}
    (ha : LastStart es n a) (hb : LastStart es n b) : a = b := by
  cases ha with
  | never hnone =>
      cases hb with
      | never _ => rfl
      | sent m b hstarts hlt _ => exact absurd hstarts (hnone m b hlt)
  | sent m a hstarts hlt hlatest =>
      cases hb with
      | never hnone => exact absurd hstarts (hnone m a hlt)
      | sent m' b hstarts' hlt' hlatest' =>
          rcases Nat.lt_trichotomy m m' with h | rfl | h
          · exact absurd hstarts' (hlatest m' b h hlt')
          · exact hstarts.unique hstarts'
          · exact absurd hstarts (hlatest' m a h hlt)

theorem LastStart.concat {es : List CoordinatorEvent} {a : Int} (h : LastStart es es.length a)
    {e : CoordinatorEvent} (hnone : ∀ b, ¬ StartsSendAt (es ++ [e]) es.length b) :
    LastStart (es ++ [e]) (es ++ [e]).length a := by
  have hbefore {k : Nat} {b : Int} (hk : k < (es ++ [e]).length)
      (hstarts : StartsSendAt (es ++ [e]) k b) : StartsSendAt es k b := by
    rw [List.length_append, List.length_singleton] at hk
    rcases Nat.lt_succ_iff_lt_or_eq.mp hk with hlt | rfl
    · exact (startsSendAt_append_iff hlt).mp hstarts
    · exact absurd hstarts (hnone b)
  cases h with
  | never hnever =>
      refine .never ?_
      intro m b hm hstarts
      have hes := hbefore hm hstarts
      exact hnever m b hes.lt_length hes
  | sent m a hstarts hlt hlatest =>
      refine .sent m a (hstarts.append_right [e]) ?_ ?_
      · rw [List.length_append]
        omega
      · intro k b hk hlen hb
        have hes := hbefore hlen hb
        exact hlatest k b hk hes.lt_length hes

theorem lastStart_run {es : List CoordinatorEvent} {c : Coordinator}
    (h : exec Coordinator.step new es = some c) :
    LastStart es es.length c.inner.lastSendStartedAt := by
  refine exec_induction (P := fun es c => LastStart es es.length c.inner.lastSendStartedAt)
    ?_ ?_ h
  · exact .never fun m a hm => absurd hm (Nat.not_lt_zero m)
  · intro es c e c' hc ih hstep
    have hlast (a : Int) := startsSendAt_last (a := a) hc hstep
    cases step_pace hstep with
    | kept hstamp _ hstarts _ =>
        rw [hstamp]
        exact ih.concat fun b hb => hstarts b ((hlast b).mp hb)
    | installed k hinstalls hstamp _ =>
        rw [hstamp]
        refine ih.concat ?_
        intro b hb
        obtain ⟨id, waitMs, client, rfl, -⟩ := (hlast b).mp hb
        obtain ⟨id', connection, token, hevent, -⟩ := hinstalls
        contradiction
    | started now hstarts hstamp _ =>
        rw [hstamp]
        refine .sent es.length now ((hlast now).mpr hstarts) ?_ ?_
        · rw [List.length_append]
          exact Nat.lt_succ_self _
        · intro k b hk hlen
          rw [List.length_append, List.length_singleton] at hlen
          omega

theorem lastStart_take {es : List CoordinatorEvent} {n : Nat} (hn : n ≤ es.length)
    {c : Coordinator} (h : exec Coordinator.step new (es.take n) = some c) :
    LastStart es n c.inner.lastSendStartedAt := by
  have hlast := lastStart_run h
  have hlen : (es.take n).length = n := by
    rw [List.length_take, Nat.min_eq_left hn]
  have hiff {m : Nat} {a : Int} (hm : m < n) :
      StartsSendAt es m a ↔ StartsSendAt (es.take n) m a := by
    have happend : StartsSendAt (es.take n ++ es.drop n) m a ↔ StartsSendAt (es.take n) m a :=
      startsSendAt_append_iff (by omega)
    rwa [List.take_append_drop] at happend
  rw [hlen] at hlast
  generalize hstamp : c.inner.lastSendStartedAt = stamp at hlast ⊢
  cases hlast with
  | never hnone => exact .never fun m a hm hstarts => hnone m a hm ((hiff hm).mp hstarts)
  | sent m a hstarts hlt hlatest =>
      exact .sent m _ ((hiff hlt).mpr hstarts) hlt
        fun k b hk hkn hb => hlatest k b hk hkn ((hiff hkn).mp hb)

theorem loopHead_wait {c c' : Coordinator} {id gen : Nat} {now wait : Int}
    (h : c.loopHead id now = some c') (hloop : c'.loops id = some ⟨gen, .throttled wait⟩) :
    c.loops id = some ⟨gen, .head⟩ ∧ wait = c.waitMs now := by
  rw [loopHead] at h
  split at h
  · rename_i gen' hhead
    split at h
    · obtain rfl := Option.some.inj h
      simp [exitLoop] at hloop
    · obtain rfl := Option.some.inj h
      simp only [setLoop, Function.update_self, Option.some.injEq, Spawned.mk.injEq,
        LoopPc.throttled.injEq] at hloop
      obtain ⟨rfl, rfl⟩ := hloop
      exact ⟨hhead, rfl⟩
  · contradiction

theorem throttled_entered {c c' : Coordinator} {e : CoordinatorEvent} (h : c.step e = some c')
    {id gen : Nat} {wait : Int} (hbefore : c.loops id ≠ some ⟨gen, .throttled wait⟩)
    (hafter : c'.loops id = some ⟨gen, .throttled wait⟩) : ∃ now, e = .loopHead id now := by
  cases (step_hold h).loops with
  | kept hloops =>
      rw [hloops] at hafter
      exact absurd hafter hbefore
  | spawned id' gen' _ hloops =>
      rw [hloops, Function.update_apply] at hafter
      split at hafter
      · simp at hafter
      · exact absurd hafter hbefore
  | advanced id' pc pc' _ hadvances hloops =>
      rw [hloops, Function.update_apply] at hafter
      split at hafter
      · rename_i hid
        obtain ⟨-, rfl⟩ := Spawned.mk.inj (Option.some.inj hafter)
        cases hadvances with
        | throttled now _ => exact ⟨now, by rw [hid]⟩
      · exact absurd hafter hbefore
  | exited id' task _ _ hloops =>
      rw [hloops, Function.update_apply] at hafter
      split at hafter
      · contradiction
      · exact absurd hafter hbefore

theorem throttled_left {c c' : Coordinator} {e : CoordinatorEvent} (h : c.step e = some c')
    {id gen : Nat} {wait : Int} (hbefore : c.loops id = some ⟨gen, .throttled wait⟩)
    (hevent : e.loop = some id) : c'.loops id ≠ some ⟨gen, .throttled wait⟩ := by
  cases e with
  | loopThrottled id' now =>
      obtain rfl := Option.some.inj hevent
      simp only [step, loopThrottled, hbefore] at h
      split at h
      · obtain rfl := Option.some.inj h
        simp [exitLoop]
      · split at h
        · obtain rfl := Option.some.inj h
          simp [exitLoop]
        · obtain rfl := Option.some.inj h
          simp [setLoop]
  | loopHead id' now =>
      obtain rfl := Option.some.inj hevent
      simp [step, loopHead, hbefore] at h
  | loopCheck id' snapshot =>
      obtain rfl := Option.some.inj hevent
      simp [step, loopCheck, hbefore] at h
  | loopPublished id' result =>
      obtain rfl := Option.some.inj hevent
      simp [step, loopPublished, hbefore] at h
  | _ => contradiction

/-- A sleeping loop has slept since its head computed the wait. -/
theorem throttled_origin {es : List CoordinatorEvent} {c : Coordinator}
    (h : exec Coordinator.step new es = some c) {id gen : Nat} {wait : Int}
    (hloop : c.loops id = some ⟨gen, .throttled wait⟩) :
    ∃ k head c₁, k < es.length ∧ es[k]? = some (.loopHead id head) ∧
      exec Coordinator.step new (es.take k) = some c₁ ∧ wait = c₁.waitMs head ∧
      (∀ j c₂, k < j → exec Coordinator.step new (es.take j) = some c₂ →
        c₂.loops id = some ⟨gen, .throttled wait⟩) ∧
      ∀ j e, k < j → es[j]? = some e → e.loop ≠ some id := by
  obtain ⟨k, c₁, e, c₂, hat, hbefore, hafter, hsince⟩ := exec_entry
    (P := fun c => c.loops id = some ⟨gen, .throttled wait⟩) h (by simp [new]) hloop
  obtain ⟨head, rfl⟩ := throttled_entered hat.step hbefore hafter
  refine ⟨k, head, c₁, hat.lt_length, hat.event, hat.before, (loopHead_wait hat.step hafter).2,
    hsince, ?_⟩
  intro j f hj hf hevent
  obtain ⟨d, d', hd⟩ := exec_stepAt h hf
  exact throttled_left hd.step (hsince j d hj hd.before) hevent
    (hsince (j + 1) d' (by omega) hd.after)

theorem LastStart.ge {es : List CoordinatorEvent} {m k : Nat} {a stamp : Int}
    (hlast : LastStart es k stamp) (htimed : Timed es) (hm : StartsSendAt es m a)
    (hlt : m < k) : a ≤ stamp := by
  obtain ⟨id, hevent⟩ := hm.event
  cases hlast with
  | never hnone => exact absurd hm (hnone m a hlt)
  | sent m' a' hstarts hbefore hlatest =>
      rcases Nat.lt_or_ge m' m with h | h
      · exact absurd hm (hlatest m a h hlt)
      · obtain ⟨id', hevent'⟩ := hstarts.event
        rcases Nat.eq_or_lt_of_le h with rfl | h
        · exact (hm.unique hstarts).le
        · exact htimed.reading_le h hevent hevent' rfl rfl

/-- Between a send start and a later one lies the head of the later iteration, and the interval
that head read. -/
theorem starts_spaced {es : List CoordinatorEvent} (htimed : Timed es) {m n : Nat} {a b : Int}
    (hm : StartsSendAt es m a) (hn : StartsSendAt es n b) (hlt : m < n) :
    ∃ k id head c₁, Iteration es k n id head b ∧ m < k ∧
      exec Coordinator.step new (es.take k) = some c₁ ∧ a + c₁.inner.minSendIntervalMs ≤ b := by
  obtain ⟨d, _, d', hat, id, wait, client, rfl, hloop, -⟩ := hn
  have hnlen := hat.lt_length
  obtain ⟨k, head, c₁, hk, hhead, hc₁, -, hsince, hbetween⟩ := throttled_origin hat.before hloop
  rw [List.length_take] at hk
  have hkn : k < n := by omega
  have htake {j : Nat} (hj : j < n) : (es.take n)[j]? = es[j]? := List.getElem?_take_of_lt hj
  rw [htake hkn] at hhead
  rw [List.take_take, Nat.min_eq_left (by omega)] at hc₁
  have hiteration : Iteration es k n id head b :=
    ⟨hhead, hat.event, hkn, fun j e hkj hjn he => hbetween j e hkj ((htake hjn).trans he)⟩
  -- The earlier start is no segment of the sleeping loop, and no other loop is live.
  have hmk : m < k := by
    obtain ⟨c₂, _, c₃, hat', id', wait', client', rfl, hloop', -⟩ := hm
    rcases Nat.lt_trichotomy m k with h | rfl | h
    · exact h
    · have hevent := hat'.event
      rw [hhead] at hevent
      simp at hevent
    · have hbefore := hat'.before
      have hshorter : (es.take n).take m = es.take m := by
        rw [List.take_take, Nat.min_eq_left (by omega)]
      have hsleeping := hsince m c₂ h (hshorter ▸ hbefore)
      obtain rfl := (inv_run hat'.before).flight.eq_of_some hloop' hsleeping
      exact absurd rfl (hbetween m _ h ((htake hlt).trans hat'.event))
  refine ⟨k, id, head, c₁, hiteration, hmk, hc₁, ?_⟩
  -- The stamp the head reads is that of the last start, which is no earlier than `a`.
  have hstamp : a ≤ c₁.inner.lastSendStartedAt :=
    (lastStart_take (by omega) hc₁).ge htimed hm hmk
  have hwake : head + c₁.waitMs head ≤ b := by
    rcases Int.lt_or_le 0 (c₁.waitMs head) with hpos | hle
    · exact htimed.sleeps k n id head b c₁ hiteration hc₁ hpos
    · have hclock := htimed.reading_le hkn hhead hat.event rfl rfl
      omega
  rw [waitMs] at hwake
  omega

/-- The configuration was negotiated and installed at instant `i`; until instant `j` no other rate
is installed, whatever generations begin and end. -/
structure InForce (es : List CoordinatorEvent) (i j : Nat)
    (configuration : NegotiatedPresenceConfiguration) : Prop where
  negotiated : IsNegotiated configuration
  installed : ∃ c e c', StepAt Coordinator.step new es i c e c' ∧ c.Installs e configuration
  kept : ∀ n c e c' k, i < n → n < j → StepAt Coordinator.step new es n c e c' →
    c.Installs e k → k.requestsPerMinute = configuration.requestsPerMinute

theorem Installs.pace {c c' : Coordinator} {e : CoordinatorEvent}
    {k : NegotiatedPresenceConfiguration} (h : c.Installs e k) (hstep : c.step e = some c') :
    c'.inner.minSendIntervalMs = intervalOf k.requestsPerMinute := by
  cases step_pace hstep with
  | kept _ _ _ hinstalls => exact absurd h (hinstalls k)
  | started now hstarts _ _ =>
      obtain ⟨id, connection, token, rfl, -⟩ := h
      obtain ⟨id', waitMs, client, hevent, -⟩ := hstarts
      contradiction
  | installed k' hinstalls _ hinterval =>
      obtain ⟨id, connection, token, rfl, -⟩ := h
      obtain ⟨id', connection', token', hevent, -⟩ := hinstalls
      obtain ⟨-, hk⟩ := CoordinatorEvent.configureCapabilities.inj hevent
      obtain rfl := PresenceNegotiation.available.inj (Option.some.inj hk)
      exact hinterval

theorem InForce.interval {es : List CoordinatorEvent} {i j : Nat}
    {configuration : NegotiatedPresenceConfiguration} (h : InForce es i j configuration) (n : Nat)
    (hi : i < n) (hj : n ≤ j) : ∀ c, exec Coordinator.step new (es.take n) = some c →
      c.inner.minSendIntervalMs = intervalOf configuration.requestsPerMinute := by
  induction n, hi using Nat.le_induction with
  | base =>
      intro c hc
      obtain ⟨d, e, d', hat, hinstalls⟩ := h.installed
      obtain rfl : d' = c := Option.some.inj (hat.after.symm.trans hc)
      exact hinstalls.pace hat.step
  | succ n hi ih =>
      intro c hc
      rw [List.take_add_one] at hc
      cases he : es[n]? with
      | none =>
          rw [he, Option.toList_none, List.append_nil] at hc
          exact ih (by omega) c hc
      | some e =>
          rw [he, Option.toList_some, exec_concat_eq_some] at hc
          obtain ⟨d, hd, hstep⟩ := hc
          have hbefore := ih (by omega) d hd
          cases step_pace hstep with
          | kept _ hinterval _ _ => rw [hinterval, hbefore]
          | started now _ _ hinterval => rw [hinterval, hbefore]
          | installed k hinstalls _ hinterval =>
              rw [hinterval, h.kept n d e c k hi (by omega) ⟨hd, he, hstep⟩ hinstalls]

theorem intervalOf_mul_le {requestsPerMinute : Nat} (h : 0 < requestsPerMinute) :
    60000 ≤ requestsPerMinute * intervalOf requestsPerMinute := by
  have hdiv := Nat.div_add_mod (60000 + requestsPerMinute - 1) requestsPerMinute
  have hmod := Nat.mod_lt (60000 + requestsPerMinute - 1) h
  rw [intervalOf]
  omega

/-- On a clock that never steps back, with sleeps that last as long as asked, any send start comes
at least the interval after every earlier one that the head of its own iteration read, whatever
generations end and configurations change in between. While one negotiated rate is in force, every
window of a minute holds at most that many send starts. -/
theorem publish_rate_limited {es : List CoordinatorEvent} (htimed : Timed es) :
    (∀ m n a b, StartsSendAt es m a → StartsSendAt es n b → m < n →
      ∃ k id head c₁, Iteration es k n id head b ∧ m < k ∧
        exec Coordinator.step new (es.take k) = some c₁ ∧
        a + c₁.inner.minSendIntervalMs ≤ b) ∧
    ∀ i j configuration, InForce es i j configuration → ∀ start : Int,
      {p : Nat × Int | i < p.1 ∧ p.1 < j ∧ StartsSendAt es p.1 p.2 ∧
        start ≤ p.2 ∧ p.2 < start + 60000}.encard ≤ configuration.requestsPerMinute := by
  refine ⟨fun m n a b hm hn hlt => starts_spaced htimed hm hn hlt, ?_⟩
  intro i j configuration hforce start
  have hpos := hforce.negotiated.bounds.1
  have hmul := intervalOf_mul_le hpos
  have hgap : 0 < intervalOf configuration.requestsPerMinute := by
    by_contra hzero
    rw [Nat.eq_zero_of_not_pos hzero] at hmul
    omega
  have hspaced {p q : Nat × Int} (hi : i < p.1) (hj : q.1 < j) (hp : StartsSendAt es p.1 p.2)
      (hq : StartsSendAt es q.1 q.2) (hlt : p.1 < q.1) :
      p.2 + intervalOf configuration.requestsPerMinute ≤ q.2 := by
    obtain ⟨k, id, head, c₁, hiteration, hk, hc₁, hle⟩ := starts_spaced htimed hp hq hlt
    have hkq := hiteration.lt
    rwa [hforce.interval k (by omega) (by omega) c₁ hc₁] at hle
  have hlimit : (60000 : Int) ≤ (configuration.requestsPerMinute : Nat) *
      (intervalOf configuration.requestsPerMinute : Nat) := by
    exact_mod_cast hmul
  refine encard_window_le Prod.snd (Int.natCast_pos.mpr hgap) ?_
    (fun p hp => ⟨hp.2.2.2.1, hp.2.2.2.2⟩) hlimit
  rintro p ⟨hpi, hpj, hp, -⟩ q ⟨hqi, hqj, hq, -⟩ hne
  rcases Nat.lt_trichotomy p.1 q.1 with hlt | heq | hlt
  · exact Or.inl (hspaced hpi hqj hp hq hlt)
  · rw [← heq] at hq
    exact absurd (Prod.ext heq (hp.unique hq)) hne
  · exact Or.inr (hspaced hqi hpj hq hp hlt)

/-- A lock during the capture: the next generation publishes after a sleep for the rest of the
interval that the stamp of the last one left. -/
def sleepAcrossLock : List CoordinatorEvent :=
  [.start] ++ configuredBy 0 ++
    [.loopHead 2 10000, .loopThrottled 2 10000, .handleSleepOrLock 10500,
      .loopCheck 2 ⟨10000, none, none⟩, .handleWakeOrUnlock, .joinDone 3, .wakeResume 4] ++
    configuredBy 5 ++ [.loopHead 7 11000, .loopThrottled 7 12000]

theorem sleepAcrossLock_heads : ∀ k : Fin 18, (match sleepAcrossLock[k.val]? with
    | some (.loopHead _ head) => (k.val = 5 && head = 10000) || (k.val = 16 && head = 11000)
    | _ => true) = true := by
  decide

theorem sleepAcrossLock_wakes : ∀ n : Fin 18, (match sleepAcrossLock[n.val]? with
    | some (.loopThrottled _ wake) => n.val ≤ 6 || wake = 12000
    | _ => true) = true := by
  decide

theorem timed_sleepAcrossLock : Timed sleepAcrossLock where
  clock := by decide
  sleeps k n id head wake c h hc hpos := by
    have hk := sleepAcrossLock_heads ⟨k, (List.getElem?_eq_some_iff.mp h.head_event).1⟩
    have hn := sleepAcrossLock_wakes ⟨n, (List.getElem?_eq_some_iff.mp h.wake_event).1⟩
    have hlt := h.lt
    simp only [h.head_event, Bool.or_eq_true, Bool.and_eq_true, decide_eq_true_eq] at hk
    simp only [h.wake_event, Bool.or_eq_true, decide_eq_true_eq] at hn
    have hwaits : (exec Coordinator.step new (sleepAcrossLock.take 5)).map
          (fun c => c.waitMs 10000) = some (-8000) ∧
        (exec Coordinator.step new (sleepAcrossLock.take 16)).map
          (fun c => c.waitMs 11000) = some 1000 := by
      decide +kernel
    rcases hk with ⟨rfl, rfl⟩ | ⟨rfl, rfl⟩
    · rw [hc, Option.map_some, Option.some.injEq] at hwaits
      omega
    · rw [hc, Option.map_some, Option.some.injEq] at hwaits
      omega

theorem sleepAcrossLock_installs : ∀ n : Fin 18, (match sleepAcrossLock[n.val]? with
    | some (.configureCapabilities _ (some (.available k))) => k = negotiatedConfiguration
    | _ => true) = true := by
  decide +kernel

theorem inForce_sleepAcrossLock : InForce sleepAcrossLock 4 18 negotiatedConfiguration where
  negotiated := isNegotiated_negotiatedConfiguration
  installed := by
    have hrun : (exec Coordinator.step new sleepAcrossLock).isSome = true := by decide +kernel
    obtain ⟨s, hs⟩ := Option.isSome_iff_exists.mp hrun
    have hevent : sleepAcrossLock[4]? =
        some (.configureCapabilities 0 (some (.available negotiatedConfiguration))) := rfl
    obtain ⟨c, c', hat⟩ := exec_stepAt hs hevent
    have hstate : (exec Coordinator.step new (sleepAcrossLock.take 4)).map
        (fun c => (c.configures 0, c.inner.generation)) =
        some (some ⟨1, .capabilities enabledConnection "token"⟩, 1) := by
      decide +kernel
    rw [hat.before, Option.map_some, Option.some.injEq, Prod.mk.injEq] at hstate
    refine ⟨c, _, c', hat, 0, enabledConnection, "token", rfl, ?_⟩
    rw [hstate.1, hstate.2]
  kept n c e c' k _ _ hat hinstalls := by
    obtain ⟨id, connection, token, rfl, -⟩ := hinstalls
    have hk := sleepAcrossLock_installs ⟨n, hat.lt_length⟩
    simp only [hat.event, decide_eq_true_eq] at hk
    rw [hk]

theorem startsSendAt_sleepAcrossLock :
    StartsSendAt sleepAcrossLock 6 10000 ∧ StartsSendAt sleepAcrossLock 17 12000 := by
  have hrun : (exec Coordinator.step new sleepAcrossLock).isSome = true := by decide +kernel
  obtain ⟨s, hs⟩ := Option.isSome_iff_exists.mp hrun
  have hfirst : sleepAcrossLock[6]? = some (.loopThrottled 2 10000) := rfl
  have hsecond : sleepAcrossLock[17]? = some (.loopThrottled 7 12000) := rfl
  have hstates : (exec Coordinator.step new (sleepAcrossLock.take 6)).map
        (fun c => (c.loops 2, c.inner.generation, c.inner.client.isSome)) =
        some (some ⟨1, .throttled (-8000)⟩, 1, true) ∧
      (exec Coordinator.step new (sleepAcrossLock.take 17)).map
        (fun c => (c.loops 7, c.inner.generation, c.inner.client.isSome)) =
        some (some ⟨3, .throttled 1000⟩, 3, true) := by
    decide +kernel
  refine ⟨?_, ?_⟩
  · obtain ⟨c, c', hat⟩ := exec_stepAt hs hfirst
    obtain ⟨hstate, -⟩ := hstates
    rw [hat.before, Option.map_some, Option.some.injEq, Prod.mk.injEq, Prod.mk.injEq] at hstate
    obtain ⟨hloop, hgeneration, hclient⟩ := hstate
    obtain ⟨client, hclient⟩ := Option.isSome_iff_exists.mp hclient
    exact ⟨c, _, c', hat, 2, _, client, rfl, hgeneration ▸ hloop, hclient⟩
  · obtain ⟨c, c', hat⟩ := exec_stepAt hs hsecond
    obtain ⟨-, hstate⟩ := hstates
    rw [hat.before, Option.map_some, Option.some.injEq, Prod.mk.injEq, Prod.mk.injEq] at hstate
    obtain ⟨hloop, hgeneration, hclient⟩ := hstate
    obtain ⟨client, hclient⟩ := Option.isSome_iff_exists.mp hclient
    exact ⟨c, _, c', hat, 7, _, client, rfl, hgeneration ▸ hloop, hclient⟩

theorem publish_rate_limited_sleepAcrossLock :
    (∃ k id head c, Iteration sleepAcrossLock k 17 id head 12000 ∧ 6 < k ∧
      exec Coordinator.step new (sleepAcrossLock.take k) = some c ∧
      10000 + c.inner.minSendIntervalMs ≤ (12000 : Int)) ∧
    {p : Nat × Int | 4 < p.1 ∧ p.1 < 18 ∧ StartsSendAt sleepAcrossLock p.1 p.2 ∧
      0 ≤ p.2 ∧ p.2 < 0 + 60000}.encard ≤ 30 :=
  ⟨(publish_rate_limited timed_sleepAcrossLock).1 6 17 10000 12000
      startsSendAt_sleepAcrossLock.1 startsSendAt_sleepAcrossLock.2 (by decide),
    (publish_rate_limited timed_sleepAcrossLock).2 4 18 negotiatedConfiguration
      inForce_sleepAcrossLock 0⟩

end Coordinator

end YohakuCore
