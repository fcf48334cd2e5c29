import YohakuCore.Capture.StoppedWatcher

/-!
# Changes of the foreground

A pass that sees another change key schedules a delivery; a debounce thread makes it, unless a later
change or a stop has cancelled it by then.
-/

namespace YohakuCore

open Framework

variable (u : UnicodeData) (toUppercase : Char → String)

/-- A pass registers the change to what it saw, under a new generation. -/
def Registers (delivery : ChangeDelivery) (w : ForegroundWatcher) (e : WatcherEvent)
    (w' : ForegroundWatcher) : Prop :=
  ∃ who, e = .sample who .register ∧ w.pollPlace who = some (.informed delivery.info) ∧
    w.watch.lastKey ≠ some (changeKey delivery.info) ∧
    w'.watch.lastKey = some (changeKey delivery.info) ∧
    w'.watch.debounceGeneration = delivery.generation

theorem Registers.key {delivery : ChangeDelivery} {w w' : ForegroundWatcher} {e : WatcherEvent}
    (h : Registers delivery w e w') : w'.watch.lastKey = some (changeKey delivery.info) := by
  obtain ⟨-, -, -, -, hkey, -⟩ := h
  exact hkey

theorem Registers.generation {delivery : ChangeDelivery} {w w' : ForegroundWatcher}
    {e : WatcherEvent} (h : Registers delivery w e w') :
    w'.watch.debounceGeneration = delivery.generation := by
  obtain ⟨-, -, -, -, -, hgeneration⟩ := h
  exact hgeneration

/-- The listener is called with what a delivery holds. -/
def CallsWith (listener : Nat) (delivery : ChangeDelivery) (w : ForegroundWatcher)
    (e : WatcherEvent) : Prop :=
  ∃ d listeners, e = .call d ∧ w.debounces[d]? = some ⟨delivery, .calling (listener :: listeners)⟩

namespace ForegroundWatcher

/-- A pass is about to spawn the thread of the delivery. -/
def Leaving (w : ForegroundWatcher) (who : Sampler) (delivery : ChangeDelivery) : Prop :=
  w.pollPlace who = some (.leaving (some delivery))

/-- No delivery is under way. -/
structure Settled (w : ForegroundWatcher) : Prop where
  left : ∀ who delivery, ¬ w.Leaving who delivery
  called : ∀ thread ∈ w.debounces, thread.place = .calling []

end ForegroundWatcher

/-- The thread has yet to call the listener, if nothing cancels it. -/
def DebouncePlace.Reaches (listener : Nat) : DebouncePlace → Prop
  | .sleeping | .checked => True
  | .calling listeners => listener ∈ listeners

namespace ForegroundWatcher

/-- The listener has yet to be called with the delivery. -/
def Owes (w : ForegroundWatcher) (listener : Nat) (delivery : ChangeDelivery) : Prop :=
  (∃ who, w.Leaving who delivery) ∨
    ∃ (d : Nat) (place : DebouncePlace), w.debounces[d]? = some ⟨delivery, place⟩ ∧
      place.Reaches listener

/-- Nobody but a thread that is past the listener holds a delivery of the generation. -/
structure CalledOnce (w : ForegroundWatcher) (listener generation : Nat) : Prop where
  old : generation ≤ w.watch.debounceGeneration
  left : ∀ who delivery, w.Leaving who delivery → delivery.generation ≠ generation
  past : ∀ (d : Nat) (delivery : ChangeDelivery) (place : DebouncePlace),
    w.debounces[d]? = some ⟨delivery, place⟩ → delivery.generation = generation →
      ∃ listeners, place = .calling listeners ∧ listener ∉ listeners

/-- Each generation has one delivery, which one thread holds. -/
structure Distinct (w : ForegroundWatcher) : Prop where
  leaving : ∀ who who' delivery delivery', w.Leaving who delivery → w.Leaving who' delivery' →
    delivery.generation = delivery'.generation → who = who'
  threads : ∀ (d d' : Nat) (thread thread' : DebounceThread), w.debounces[d]? = some thread →
    w.debounces[d']? = some thread' →
    thread.delivery.generation = thread'.delivery.generation → d = d'
  apart : ∀ who delivery (d : Nat) (thread : DebounceThread), w.Leaving who delivery →
    w.debounces[d]? = some thread → delivery.generation ≠ thread.delivery.generation
  leavingOld : ∀ who delivery, w.Leaving who delivery →
    delivery.generation ≤ w.watch.debounceGeneration
  threadsOld : ∀ (d : Nat) (thread : DebounceThread), w.debounces[d]? = some thread →
    thread.delivery.generation ≤ w.watch.debounceGeneration

/-- The listeners are distinct, and those that a thread has yet to call are too. -/
structure Listened (w : ForegroundWatcher) : Prop where
  distinct : w.listeners.Nodup
  old : ∀ listener ∈ w.listeners, listener < w.nextListenerId
  calling : ∀ (d : Nat) (delivery : ChangeDelivery) (listeners : List Nat),
    w.debounces[d]? = some ⟨delivery, .calling listeners⟩ → listeners.Nodup

/-- What a step does to the deliveries. -/
inductive DeliveryStep (w : ForegroundWatcher) : WatcherEvent → ForegroundWatcher → Prop where
  | keeps {e : WatcherEvent} {w' : ForegroundWatcher}
      (hleaving : ∀ who delivery, w'.Leaving who delivery ↔ w.Leaving who delivery)
      (hdebounces : w'.debounces = w.debounces)
      (hwatch : w'.watch.lastKey = w.watch.lastKey ∧
        w'.watch.debounceGeneration = w.watch.debounceGeneration ∨ w'.watch = w.watch.clear)
      (hcall : ∀ d, e ≠ .call d) : DeliveryStep w e w'
  | registers {who : Sampler} {info : Option ForegroundInfo} {w' : ForegroundWatcher}
      (hinformed : w.pollPlace who = some (.informed info))
      (hwatch : w'.watch = (w.watch.registerChangeKey (changeKey info)).1)
      (hself : w'.pollPlace who = some (.leaving
        (if (w.watch.registerChangeKey (changeKey info)).2 then
          some ⟨w'.watch.debounceGeneration, info⟩ else none)))
      (hothers : ∀ other, other ≠ who → w'.pollPlace other = w.pollPlace other)
      (hdebounces : w'.debounces = w.debounces) : DeliveryStep w (.sample who .register) w'
  | leaves {who : Sampler} {delivery : Option ChangeDelivery} {w' : ForegroundWatcher}
      (hleaving : w.pollPlace who = some (.leaving delivery))
      (hself : w'.pollPlace who = none)
      (hothers : ∀ other, other ≠ who → w'.pollPlace other = w.pollPlace other)
      (hwatch : w'.watch = w.watch)
      (hdebounces : w'.debounces =
        w.debounces ++ (delivery.map fun delivery => ⟨delivery, .sleeping⟩).toList) :
      DeliveryStep w (.sample who .leave) w'
  | wakes {d : Nat} {delivery : ChangeDelivery}
      (hget : w.debounces[d]? = some ⟨delivery, .sleeping⟩) :
      DeliveryStep w (.wake d) (w.moveDebounce d
        (if w.watch.debounceGeneration ≠ delivery.generation then .calling [] else .checked))
  | snapshots {d : Nat} {delivery : ChangeDelivery}
      (hget : w.debounces[d]? = some ⟨delivery, .checked⟩) :
      DeliveryStep w (.snapshot d) (w.moveDebounce d (.calling w.listeners))
  | calls {d : Nat} {delivery : ChangeDelivery} {listener : Nat} {listeners : List Nat}
      (hget : w.debounces[d]? = some ⟨delivery, .calling (listener :: listeners)⟩) :
      DeliveryStep w (.call d) (w.moveDebounce d (.calling listeners))

variable {u toUppercase}

theorem leaving_congr {w w' : ForegroundWatcher} (hloops : w'.loops = w.loops)
    (hresolvers : w'.resolvers = w.resolvers) (who : Sampler) (delivery : ChangeDelivery) :
    w'.Leaving who delivery ↔ w.Leaving who delivery := by
  rw [Leaving, Leaving, pollPlace_congr hloops (Or.inl hresolvers)]

theorem leaving_loops {w : ForegroundWatcher} (hw : w.PassSound) {f : LoopEvent Unit PollPlace}
    {loops : Loops Unit PollPlace} (h : w.loops.step pollLoop f = some loops)
    (hwork : ∀ i outcome, f ≠ .work i outcome) (who : Sampler) (delivery : ChangeDelivery) :
    ({ w with loops } : ForegroundWatcher).Leaving who delivery ↔ w.Leaving who delivery :=
  ⟨pollPlace_of_loops_step hw h hwork (by simp), pollPlace_loops_step h hwork⟩

theorem leaving_moveResolver {w : ForegroundWatcher} {r : Nat} {resolver : Resolver}
    (hget : w.resolvers[r]? = some resolver) (hout : ∀ place, resolver.place ≠ .polling place)
    {place : ResolverPlace} (hin : ∀ delivery, place ≠ .polling (.leaving (some delivery)))
    (who : Sampler) (delivery : ChangeDelivery) :
    (w.moveResolver r place).Leaving who delivery ↔ w.Leaving who delivery :=
  ⟨pollPlace_of_moveResolver (hin delivery), pollPlace_moveResolver hget hout place⟩

theorem deliveryStep_of_pollStep {w w₁ : ForegroundWatcher} {who : Sampler} {place : PollPlace}
    {step : SampleStep} {outcome : BodyOutcome Unit PollPlace}
    (hplace : w.pollPlace who = some place)
    (hpoll : w.pollStep u toUppercase who place step = some (w₁, outcome)) :
    w.DeliveryStep (.sample who step) (w₁.moveTo who outcome) := by
  obtain ⟨hplaces, -⟩ := pollStep_pass hpoll
  have hself := pollPlace_moveTo_self ((hplaces who).trans hplace) outcome
  have hothers (other : Sampler) (hne : other ≠ who) :
      (w₁.moveTo who outcome).pollPlace other = w.pollPlace other :=
    (pollPlace_moveTo_of_ne hne.symm outcome).trans (hplaces other)
  obtain ⟨hwatch₁, hdebounces₁⟩ := watch_moveTo w₁ who outcome
  rcases pollStep_watch hpoll with ⟨-, hkey, hgeneration, hdebounces, hout⟩ |
    ⟨info, rfl, rfl, hdebounces, hwatch, rfl⟩ | ⟨delivery, rfl, rfl, hwatch, hdebounces, rfl⟩
  · refine .keeps ?_ (hdebounces₁.trans hdebounces) (Or.inl ?_) (by simp)
    · intro other delivery
      by_cases hother : other = who
      · subst hother
        constructor
        · intro hleaving
          rw [Leaving, hself] at hleaving
          cases outcome with
          | goesOn place' => exact absurd (congrArg _ (Option.some.inj hleaving)) (hout _)
          | ends data | panics => contradiction
        · intro hleaving
          obtain rfl := Option.some.inj (hplace.symm.trans hleaving)
          cases step <;> simp only [pollStep, Option.some.injEq, Prod.mk.injEq, reduceCtorEq]
            at hpoll
          obtain ⟨rfl, -⟩ := hpoll
          simp at hdebounces
      · rw [Leaving, hothers other hother, Leaving]
    · rw [hwatch₁]
      exact ⟨hkey, hgeneration⟩
  · refine .registers hplace (hwatch₁.trans hwatch) ?_ hothers (hdebounces₁.trans hdebounces)
    rw [hwatch₁]
    exact hself
  · exact .leaves hplace hself hothers (hwatch₁.trans hwatch) (hdebounces₁.trans hdebounces)

theorem deliveryStep {w w' : ForegroundWatcher} (hw : w.PassSound) {e : WatcherEvent}
    (hstep : w.step u toUppercase e = some w') : w.DeliveryStep e w' := by
  cases e with
  | start =>
      obtain rfl := Option.some.inj hstep
      exact .keeps (leaving_loops hw (f := .start ()) rfl (by simp)) rfl (Or.inl ⟨rfl, rfl⟩)
        (by simp)
  | stop =>
      obtain rfl := Option.some.inj hstep
      exact .keeps (leaving_loops hw (f := .stop) rfl (by simp)) rfl (Or.inl ⟨rfl, rfl⟩) (by simp)
  | stopJoined k | check i timeout =>
      obtain ⟨loops, hf, rfl⟩ := Option.map_eq_some_iff.mp hstep
      exact .keeps (leaving_loops hw hf (by simp)) rfl (Or.inl ⟨rfl, rfl⟩) (by simp)
  | sample who step =>
      rcases sampleStep_cases hstep with ⟨place, w₁, outcome, hplace, hpoll, rfl⟩ |
        ⟨c, place, w₁, outcome, rfl, -, hcurrent, captures, rfl⟩
      · exact deliveryStep_of_pollStep hplace hpoll
      · obtain ⟨-, hkey, hgeneration, hdebounces⟩ := currentStep_watch hcurrent
        refine .keeps ?_ hdebounces (Or.inl ⟨hkey, hgeneration⟩) (by simp)
        intro who delivery
        refine (leaving_congr (w := w₁) rfl rfl who delivery).trans ?_
        rw [Leaving, (pollPlace_currentStep hcurrent who).1, Leaving]
  | stopCleared k =>
      obtain ⟨-, hstep⟩ := Option.ite_none_right_eq_some.mp hstep
      obtain rfl := Option.some.inj hstep
      exact .keeps (leaving_congr rfl rfl) rfl (Or.inr rfl) (by simp)
  | stopReturned k =>
      obtain ⟨-, hstep⟩ := Option.ite_none_right_eq_some.mp hstep
      obtain rfl := Option.some.inj hstep
      exact .keeps (leaving_congr rfl rfl) rfl (Or.inl ⟨rfl, rfl⟩) (by simp)
  | capture | onChange | unsubscribe listener =>
      obtain rfl := Option.some.inj hstep
      exact .keeps (leaving_congr rfl rfl) rfl (Or.inl ⟨rfl, rfl⟩) (by simp)
  | resolved r resolution =>
      simp only [ForegroundWatcher.step, resolve] at hstep
      split at hstep
      · rename_i key fallback hget
        cases resolution <;> obtain rfl := Option.some.inj hstep <;>
          exact .keeps (fun who delivery =>
            (leaving_moveResolver hget (by simp) (by simp) who delivery).trans
              (leaving_congr rfl rfl who delivery)) rfl (Or.inl ⟨rfl, rfl⟩) (by simp)
      · contradiction
  | forget r =>
      simp only [ForegroundWatcher.step] at hstep
      split at hstep
      · rename_i key fallback hget
        obtain rfl := Option.some.inj hstep
        exact .keeps (fun who delivery =>
          (leaving_moveResolver hget (by simp) (by simp) who delivery).trans
            (leaving_congr rfl rfl who delivery)) rfl (Or.inl ⟨rfl, rfl⟩) (by simp)
      · contradiction
  | wake d =>
      simp only [ForegroundWatcher.step, wake] at hstep
      split at hstep
      · rename_i delivery hget
        obtain rfl := Option.some.inj hstep
        exact .wakes hget
      · contradiction
  | snapshot d =>
      simp only [ForegroundWatcher.step] at hstep
      split at hstep
      · rename_i delivery hget
        obtain rfl := Option.some.inj hstep
        exact .snapshots hget
      · contradiction
  | call d =>
      simp only [ForegroundWatcher.step] at hstep
      split at hstep
      · rename_i delivery listener listeners hget
        obtain rfl := Option.some.inj hstep
        exact .calls hget
      · contradiction

theorem debounce_moveDebounce {w : ForegroundWatcher} {d : Nat} {thread : DebounceThread}
    (hget : w.debounces[d]? = some thread) (place : DebouncePlace) (d' : Nat) :
    (w.moveDebounce d place).debounces[d']? =
      if d = d' then some { thread with place } else w.debounces[d']? := by
  rw [moveDebounce, List.getElem?_modify]
  by_cases hd : d = d'
  · subst hd
    simp [hget]
  · simp [hd]

theorem Owes.step {w w' : ForegroundWatcher} {e : WatcherEvent} {listener : Nat}
    {delivery : ChangeDelivery} (h : w.Owes listener delivery) (hstep : w.DeliveryStep e w')
    (hlistener : listener ∈ w.listeners)
    (hcurrent : delivery.generation = w.watch.debounceGeneration) :
    CallsWith listener delivery w e ∨ w'.Owes listener delivery := by
  cases hstep with
  | keeps hleaving hdebounces hwatch hcall =>
      right
      rcases h with ⟨who, hwho⟩ | ⟨d, place, hget, hreaches⟩
      · exact Or.inl ⟨who, (hleaving who delivery).mpr hwho⟩
      · exact Or.inr ⟨d, place, hdebounces ▸ hget, hreaches⟩
  | @registers who info _ hinformed hwatch hself hothers hdebounces =>
      right
      rcases h with ⟨other, hother⟩ | ⟨d, place, hget, hreaches⟩
      · have hne : other ≠ who := by
          rintro rfl
          rw [Leaving, hinformed] at hother
          simp at hother
        exact Or.inl ⟨other, (hothers other hne).trans hother⟩
      · exact Or.inr ⟨d, place, hdebounces ▸ hget, hreaches⟩
  | @leaves who left _ hleaving hself hothers hwatch hdebounces =>
      right
      rcases h with ⟨other, hother⟩ | ⟨d, place, hget, hreaches⟩
      · by_cases hne : other = who
        · subst hne
          obtain rfl : left = some delivery := by
            simpa using hleaving.symm.trans hother
          refine Or.inr ⟨w.debounces.length, .sleeping, ?_, trivial⟩
          simp [hdebounces]
        · exact Or.inl ⟨other, (hothers other hne).trans hother⟩
      · refine Or.inr ⟨d, place, ?_, hreaches⟩
        have hlt := (List.getElem?_eq_some_iff.mp hget).1
        rw [hdebounces, List.getElem?_append_left hlt, hget]
  | @wakes d woken hget =>
      right
      rcases h with hleaving | ⟨d', place, hget', hreaches⟩
      · exact Or.inl hleaving
      · by_cases hd : d = d'
        · subst hd
          obtain ⟨rfl, rfl⟩ := DebounceThread.mk.inj (Option.some.inj (hget.symm.trans hget'))
          refine Or.inr ⟨d, .checked, ?_, trivial⟩
          rw [debounce_moveDebounce hget, if_pos rfl, if_neg (not_not_intro hcurrent.symm)]
        · exact Or.inr ⟨d', place, by rw [debounce_moveDebounce hget, if_neg hd, hget'], hreaches⟩
  | @snapshots d checked hget =>
      right
      rcases h with hleaving | ⟨d', place, hget', hreaches⟩
      · exact Or.inl hleaving
      · by_cases hd : d = d'
        · subst hd
          obtain ⟨rfl, rfl⟩ := DebounceThread.mk.inj (Option.some.inj (hget.symm.trans hget'))
          refine Or.inr ⟨d, .calling w.listeners, ?_, hlistener⟩
          rw [debounce_moveDebounce hget, if_pos rfl]
        · exact Or.inr ⟨d', place, by rw [debounce_moveDebounce hget, if_neg hd, hget'], hreaches⟩
  | @calls d called first listeners hget =>
      rcases h with hleaving | ⟨d', place, hget', hreaches⟩
      · exact Or.inr (Or.inl hleaving)
      · by_cases hd : d = d'
        · subst hd
          obtain ⟨rfl, rfl⟩ := DebounceThread.mk.inj (Option.some.inj (hget.symm.trans hget'))
          rcases List.mem_cons.mp hreaches with rfl | hlater
          · exact Or.inl ⟨d, listeners, rfl, hget⟩
          · refine Or.inr (Or.inr ⟨d, .calling listeners, ?_, hlater⟩)
            rw [debounce_moveDebounce hget, if_pos rfl]
        · refine Or.inr (Or.inr ⟨d', place, ?_, hreaches⟩)
          rw [debounce_moveDebounce hget, if_neg hd, hget']

theorem DeliveryStep.generation_le {w w' : ForegroundWatcher} {e : WatcherEvent}
    (h : w.DeliveryStep e w') : w.watch.debounceGeneration ≤ w'.watch.debounceGeneration := by
  cases h with
  | keeps hleaving hdebounces hwatch hcall =>
      rcases hwatch with ⟨-, hsame⟩ | hclear
      · omega
      · rw [hclear]
        exact Nat.le_succ _
  | registers hinformed hwatch hself hothers hdebounces =>
      rw [hwatch, WatchState.registerChangeKey]
      split
      · exact Nat.le_refl _
      · exact Nat.le_succ _
  | leaves hleaving hself hothers hwatch hdebounces => rw [hwatch]
  | wakes hget | snapshots hget | calls hget => exact Nat.le_refl _

theorem leaving_of_step {w w' : ForegroundWatcher} {e : WatcherEvent} (h : w.DeliveryStep e w')
    {who : Sampler} {delivery : ChangeDelivery} (hleaving : w'.Leaving who delivery) :
    w.Leaving who delivery ∨ Registers delivery w e w' ∧ e = .sample who .register ∧
      w.watch.debounceGeneration < delivery.generation := by
  cases h with
  | keeps hkept hdebounces hwatch hcall => exact Or.inl ((hkept who delivery).mp hleaving)
  | @registers other info _ hinformed hwatch hself hothers hdebounces =>
      by_cases hwho : who = other
      · subst hwho
        right
        rw [Leaving, hself] at hleaving
        by_cases hkey : w.watch.lastKey = some (changeKey info)
        · simp [WatchState.registerChangeKey, hkey] at hleaving
        · simp only [WatchState.registerChangeKey, if_neg hkey] at hwatch hleaving
          obtain rfl : _ = delivery := by simpa using hleaving
          refine ⟨⟨who, rfl, hinformed, hkey, ?_, rfl⟩, rfl, ?_⟩
          · rw [hwatch]
          · rw [hwatch]
            exact Nat.lt_succ_self _
      · exact Or.inl ((hothers who hwho).symm.trans hleaving)
  | @leaves other left _ hleft hself hothers hwatch hdebounces =>
      by_cases hwho : who = other
      · subst hwho
        rw [Leaving, hself] at hleaving
        contradiction
      · exact Or.inl ((hothers who hwho).symm.trans hleaving)
  | wakes hget | snapshots hget | calls hget => exact Or.inl hleaving

theorem thread_of_step {w w' : ForegroundWatcher} {e : WatcherEvent} (h : w.DeliveryStep e w')
    {d : Nat} {thread : DebounceThread} (hget' : w'.debounces[d]? = some thread) :
    (∃ place, w.debounces[d]? = some ⟨thread.delivery, place⟩ ∧
      ((∀ listeners, place ≠ .calling listeners) ∨ place = thread.place ∨
        ∃ listener listeners, place = .calling (listener :: listeners) ∧
          thread.place = .calling listeners)) ∨
    ∃ who, w.Leaving who thread.delivery ∧ (∀ delivery, ¬ w'.Leaving who delivery) ∧
      d = w.debounces.length ∧ thread.place = .sleeping := by
  have hmoved {d' : Nat} {old : DebounceThread} (hold : w.debounces[d']? = some old)
      {place : DebouncePlace} (hget : (w.moveDebounce d' place).debounces[d]? = some thread) :
      d' = d ∧ thread = { old with place } ∨ w.debounces[d]? = some thread := by
    rw [debounce_moveDebounce hold] at hget
    split at hget
    · rename_i hd
      exact Or.inl ⟨hd, (Option.some.inj hget).symm⟩
    · exact Or.inr hget
  cases h with
  | keeps hkept hdebounces hwatch hcall =>
      exact Or.inl ⟨thread.place, hdebounces ▸ hget', Or.inr (Or.inl rfl)⟩
  | registers hinformed hwatch hself hothers hdebounces =>
      exact Or.inl ⟨thread.place, hdebounces ▸ hget', Or.inr (Or.inl rfl)⟩
  | @leaves who left _ hleft hself hothers hwatch hdebounces =>
      rw [hdebounces] at hget'
      rcases Nat.lt_or_ge d w.debounces.length with hlt | hge
      · rw [List.getElem?_append_left hlt] at hget'
        exact Or.inl ⟨thread.place, hget', Or.inr (Or.inl rfl)⟩
      · rw [List.getElem?_append_right hge] at hget'
        cases left with
        | none => simp at hget'
        | some delivery =>
            simp only [Option.map_some, Option.toList_some, List.getElem?_singleton] at hget'
            split at hget'
            · rename_i hzero
              obtain rfl := Option.some.inj hget'
              refine Or.inr ⟨who, hleft, ?_, by omega, rfl⟩
              intro other hother
              rw [Leaving, hself] at hother
              contradiction
            · contradiction
  | wakes hget | snapshots hget =>
      rcases hmoved hget hget' with ⟨rfl, rfl⟩ | hsame
      · exact Or.inl ⟨_, hget, Or.inl (by simp)⟩
      · exact Or.inl ⟨thread.place, hsame, Or.inr (Or.inl rfl)⟩
  | calls hget =>
      rcases hmoved hget hget' with ⟨rfl, rfl⟩ | hsame
      · exact Or.inl ⟨_, hget, Or.inr (Or.inr ⟨_, _, rfl, rfl⟩)⟩
      · exact Or.inl ⟨thread.place, hsame, Or.inr (Or.inl rfl)⟩

theorem Distinct.step {w w' : ForegroundWatcher} {e : WatcherEvent} (h : w.Distinct)
    (hstep : w.DeliveryStep e w') : w'.Distinct := by
  have hle := hstep.generation_le
  constructor
  · intro who who' delivery delivery' hwho hwho' hsame
    rcases leaving_of_step hstep hwho with hold | ⟨-, hevent, hnew⟩
    · rcases leaving_of_step hstep hwho' with hold' | ⟨-, -, hnew'⟩
      · exact h.leaving who who' delivery delivery' hold hold' hsame
      · have hbound := h.leavingOld who delivery hold
        omega
    · rcases leaving_of_step hstep hwho' with hold' | ⟨-, hevent', -⟩
      · have hbound := h.leavingOld who' delivery' hold'
        omega
      · simpa using hevent.symm.trans hevent'
  · intro d d' thread thread' hget hget' hsame
    rcases thread_of_step hstep hget with ⟨place, hold, -⟩ | ⟨who, hleaving, -, rfl, -⟩
    · rcases thread_of_step hstep hget' with ⟨place', hold', -⟩ | ⟨who', hleaving', -⟩
      · exact h.threads d d' _ _ hold hold' hsame
      · have hne := h.apart who' _ d _ hleaving' hold
        exact absurd hsame.symm hne
    · rcases thread_of_step hstep hget' with ⟨place', hold', -⟩ | ⟨who', -, -, rfl, -⟩
      · have hne := h.apart who _ d' _ hleaving hold'
        exact absurd hsame hne
      · rfl
  · intro who delivery d thread hwho hget
    rcases leaving_of_step hstep hwho with hold | ⟨-, -, hnew⟩
    · rcases thread_of_step hstep hget with ⟨place, hthread, -⟩ | ⟨who', hleaving, hgone, -⟩
      · have hne := h.apart who delivery d _ hold hthread
        exact hne
      · intro hsame
        obtain rfl := h.leaving who who' _ _ hold hleaving hsame
        exact hgone delivery hwho
    · rcases thread_of_step hstep hget with ⟨place, hthread, -⟩ | ⟨who', hleaving, -⟩
      · have hbound := h.threadsOld d _ hthread
        dsimp only at hbound
        omega
      · have hbound := h.leavingOld who' _ hleaving
        omega
  · intro who delivery hwho
    rcases leaving_of_step hstep hwho with hold | ⟨⟨-, -, -, -, -, hgeneration⟩, -⟩
    · exact (h.leavingOld who delivery hold).trans hle
    · omega
  · intro d thread hget
    rcases thread_of_step hstep hget with ⟨place, hold, -⟩ | ⟨who, hleaving, -⟩
    · exact (h.threadsOld d _ hold).trans hle
    · exact (h.leavingOld who _ hleaving).trans hle

theorem CalledOnce.step {w w' : ForegroundWatcher} {e : WatcherEvent} {listener generation : Nat}
    (h : w.CalledOnce listener generation) (hstep : w.DeliveryStep e w') :
    w'.CalledOnce listener generation := by
  have hle := hstep.generation_le
  constructor
  · exact h.old.trans hle
  · intro who delivery hwho
    rcases leaving_of_step hstep hwho with hold | ⟨-, -, hnew⟩
    · exact h.left who delivery hold
    · have hbound := h.old
      omega
  · intro d delivery place hget hgeneration
    rcases thread_of_step hstep hget with ⟨before, hold, hmoves⟩ | ⟨who, hleaving, -⟩
    · obtain ⟨listeners, rfl, hpast⟩ := h.past d delivery before hold hgeneration
      rcases hmoves with hidle | hsame | ⟨first, rest, hbefore, hplace⟩
      · exact absurd rfl (hidle listeners)
      · exact ⟨listeners, hsame.symm, hpast⟩
      · obtain rfl := DebouncePlace.calling.inj hbefore
        exact ⟨rest, hplace, fun hmem => hpast (List.mem_cons_of_mem _ hmem)⟩
    · exact absurd hgeneration (h.left who delivery hleaving)

theorem calledOnce_of_call {w w' : ForegroundWatcher} {e : WatcherEvent} {listener : Nat}
    {delivery : ChangeDelivery} (hdistinct : w.Distinct) (hlistened : w.Listened)
    (hstep : w.DeliveryStep e w') (hcall : CallsWith listener delivery w e) :
    w'.CalledOnce listener delivery.generation := by
  obtain ⟨d, listeners, rfl, hget⟩ := hcall
  cases hstep with
  | keeps hleaving hdebounces hwatch hnot => exact absurd rfl (hnot d)
  | @calls _ called first rest hget' =>
      obtain ⟨rfl, hplace⟩ := DebounceThread.mk.inj (Option.some.inj (hget.symm.trans hget'))
      obtain ⟨rfl, rfl⟩ := List.cons.inj (DebouncePlace.calling.inj hplace)
      have hnodup := hlistened.calling d delivery _ hget
      constructor
      · exact hdistinct.threadsOld d _ hget
      · intro who other hwho
        exact hdistinct.apart who other d _ hwho hget
      · intro d' other place hget'' hgeneration
        by_cases hd : d = d'
        · subst hd
          rw [debounce_moveDebounce hget, if_pos rfl] at hget''
          obtain ⟨rfl, rfl⟩ := DebounceThread.mk.inj (Option.some.inj hget'')
          exact ⟨listeners, rfl, (List.nodup_cons.mp hnodup).1⟩
        · rw [debounce_moveDebounce hget, if_neg hd] at hget''
          exact absurd (hdistinct.threads d d' _ _ hget hget'' hgeneration.symm) hd

theorem currentStep_listeners {w w' : ForegroundWatcher} {place : CurrentPlace} {step : SampleStep}
    {outcome : BodyOutcome (Option ForegroundInfo) CurrentPlace}
    (h : w.currentStep u toUppercase place step = some (w', outcome)) :
    w'.listeners = w.listeners ∧ w'.nextListenerId = w.nextListenerId := by
  cases place <;> cases step <;> simp only [currentStep, Option.some.injEq, Prod.mk.injEq,
    reduceCtorEq] at h
  · obtain ⟨rfl, -⟩ := h
    exact ⟨rfl, rfl⟩
  · obtain ⟨rfl, -⟩ := h
    unfold claim
    split <;> exact ⟨rfl, rfl⟩
  · obtain ⟨rfl, -⟩ := h
    exact ⟨rfl, rfl⟩

theorem pollStep_listeners {w w' : ForegroundWatcher} {who : Sampler} {place : PollPlace}
    {step : SampleStep} {outcome : BodyOutcome Unit PollPlace}
    (h : w.pollStep u toUppercase who place step = some (w', outcome)) :
    w'.listeners = w.listeners ∧ w'.nextListenerId = w.nextListenerId := by
  cases place with
  | entering =>
      cases step <;> simp only [pollStep, Option.ite_none_right_eq_some, Option.some.injEq,
        Prod.mk.injEq, reduceCtorEq] at h
      obtain ⟨-, rfl, -⟩ := h
      exact ⟨rfl, rfl⟩
  | current place =>
      obtain ⟨⟨w₁, outcome₁⟩, hcurrent, hw⟩ := Option.map_eq_some_iff.mp h
      have hsame := currentStep_listeners hcurrent
      cases outcome₁ <;> obtain ⟨rfl, -⟩ := Prod.mk.inj hw <;> exact hsame
  | informed info =>
      cases step <;> simp only [pollStep, Option.some.injEq, Prod.mk.injEq, reduceCtorEq] at h
      obtain ⟨rfl, -⟩ := h
      exact ⟨rfl, rfl⟩
  | leaving delivery =>
      cases step <;> simp only [pollStep, Option.some.injEq, Prod.mk.injEq, reduceCtorEq] at h
      obtain ⟨rfl, -⟩ := h
      exact ⟨rfl, rfl⟩

theorem listeners_of_step {w w' : ForegroundWatcher} {e : WatcherEvent}
    (hstep : w.step u toUppercase e = some w') :
    w'.listeners = w.listeners ∧ w'.nextListenerId = w.nextListenerId ∨
    e = .onChange ∧ w'.listeners = w.listeners ++ [w.nextListenerId] ∧
      w'.nextListenerId = w.nextListenerId + 1 ∨
    ∃ listener, e = .unsubscribe listener ∧
      w'.listeners = w.listeners.filter (· ≠ listener) ∧ w'.nextListenerId = w.nextListenerId := by
  cases e with
  | onChange =>
      obtain rfl := Option.some.inj hstep
      exact Or.inr (Or.inl ⟨rfl, rfl, rfl⟩)
  | unsubscribe listener =>
      obtain rfl := Option.some.inj hstep
      exact Or.inr (Or.inr ⟨listener, rfl, rfl, rfl⟩)
  | sample who step =>
      left
      rcases sampleStep_cases hstep with ⟨place, w₁, outcome, hplace, hpoll, rfl⟩ |
        ⟨c, place, w₁, outcome, rfl, -, hcurrent, captures, rfl⟩
      · have hmoved : (w₁.moveTo who outcome).listeners = w₁.listeners ∧
            (w₁.moveTo who outcome).nextListenerId = w₁.nextListenerId := by
          cases who <;> cases outcome <;> exact ⟨rfl, rfl⟩
        rw [hmoved.1, hmoved.2]
        exact pollStep_listeners hpoll
      · have hsame := currentStep_listeners hcurrent
        exact hsame
  | start | stop | capture =>
      obtain rfl := Option.some.inj hstep
      exact Or.inl ⟨rfl, rfl⟩
  | stopJoined k | check i timeout =>
      obtain ⟨loops, -, rfl⟩ := Option.map_eq_some_iff.mp hstep
      exact Or.inl ⟨rfl, rfl⟩
  | stopCleared k | stopReturned k =>
      obtain ⟨-, hstep⟩ := Option.ite_none_right_eq_some.mp hstep
      obtain rfl := Option.some.inj hstep
      exact Or.inl ⟨rfl, rfl⟩
  | resolved r resolution =>
      simp only [ForegroundWatcher.step, resolve] at hstep
      split at hstep
      · cases resolution <;> obtain rfl := Option.some.inj hstep <;> exact Or.inl ⟨rfl, rfl⟩
      · contradiction
  | wake d =>
      simp only [ForegroundWatcher.step, wake] at hstep
      split at hstep
      · obtain rfl := Option.some.inj hstep
        exact Or.inl ⟨rfl, rfl⟩
      · contradiction
  | forget d | snapshot d | call d =>
      simp only [ForegroundWatcher.step] at hstep
      split at hstep
      · obtain rfl := Option.some.inj hstep
        exact Or.inl ⟨rfl, rfl⟩
      · contradiction

theorem mem_listeners_of_step {w w' : ForegroundWatcher} {e : WatcherEvent} {listener : Nat}
    (h : listener ∈ w.listeners) (hstep : w.step u toUppercase e = some w')
    (hstays : e ≠ .unsubscribe listener) : listener ∈ w'.listeners := by
  rcases listeners_of_step hstep with ⟨hsame, -⟩ | ⟨-, hnew, -⟩ | ⟨other, rfl, hgone, -⟩
  · exact hsame ▸ h
  · rw [hnew]
    exact List.mem_append_left _ h
  · have hne : listener ≠ other := fun heq => hstays (heq ▸ rfl)
    simp [hgone, h, hne]

theorem Listened.step {w w' : ForegroundWatcher} {e : WatcherEvent} (h : w.Listened)
    (hw : w.PassSound) (hstep : w.step u toUppercase e = some w') : w'.Listened := by
  have hlisteners : w'.listeners.Nodup ∧
      ∀ listener ∈ w'.listeners, listener < w'.nextListenerId := by
    rcases listeners_of_step hstep with ⟨hsame, hnext⟩ | ⟨-, hnew, hnext⟩ | ⟨other, -, hgone, hnext⟩
    · rw [hsame, hnext]
      exact ⟨h.distinct, h.old⟩
    · rw [hnew, hnext]
      constructor
      · refine List.nodup_append.mpr ⟨h.distinct, by simp, ?_⟩
        intro listener hmem next hnext'
        obtain rfl := List.mem_singleton.mp hnext'
        exact (h.old listener hmem).ne
      · intro listener hmem
        rcases List.mem_append.mp hmem with hold | hlast
        · exact (h.old listener hold).trans (Nat.lt_succ_self _)
        · rw [List.mem_singleton.mp hlast]
          exact Nat.lt_succ_self _
    · rw [hgone, hnext]
      exact ⟨h.distinct.filter _, fun listener hmem => h.old listener (List.mem_of_mem_filter hmem)⟩
  refine ⟨hlisteners.1, hlisteners.2, ?_⟩
  have hmoved {d' : Nat} {old : DebounceThread} (hold : w.debounces[d']? = some old)
      {place : DebouncePlace} (hplace : ∀ listeners, place = .calling listeners → listeners.Nodup)
      (d : Nat) (delivery : ChangeDelivery) (listeners : List Nat)
      (hget : (w.moveDebounce d' place).debounces[d]? = some ⟨delivery, .calling listeners⟩) :
      listeners.Nodup := by
    rw [debounce_moveDebounce hold] at hget
    split at hget
    · exact hplace listeners (DebounceThread.mk.inj (Option.some.inj hget)).2
    · exact h.calling d delivery listeners hget
  cases deliveryStep hw hstep with
  | keeps hkept hdebounces hwatch hcall =>
      rw [hdebounces]
      exact h.calling
  | registers hinformed hwatch hself hothers hdebounces =>
      rw [hdebounces]
      exact h.calling
  | leaves hleft hself hothers hwatch hdebounces =>
      intro d delivery listeners hget
      rw [hdebounces] at hget
      rcases Nat.lt_or_ge d w.debounces.length with hlt | hge
      · rw [List.getElem?_append_left hlt] at hget
        exact h.calling d delivery listeners hget
      · rw [List.getElem?_append_right hge] at hget
        have hmem := List.mem_of_getElem? hget
        simp at hmem
  | wakes hget =>
      refine hmoved hget ?_
      intro listeners hcalling
      split at hcalling
      · rw [← DebouncePlace.calling.inj hcalling]
        exact List.nodup_nil
      · contradiction
  | snapshots hget =>
      refine hmoved hget ?_
      intro listeners hcalling
      rw [← DebouncePlace.calling.inj hcalling]
      exact h.distinct
  | @calls d delivery first rest hget =>
      refine hmoved hget ?_
      intro listeners hcalling
      rw [← DebouncePlace.calling.inj hcalling]
      exact (List.nodup_cons.mp (h.calling d delivery _ hget)).2

theorem distinct_new : ({} : ForegroundWatcher).Distinct where
  leaving who _ _ _ h := by cases who <;> simp [Leaving, pollPlace, Loops.place] at h
  threads := by simp
  apart := by simp
  leavingOld who _ h := by cases who <;> simp [Leaving, pollPlace, Loops.place] at h
  threadsOld := by simp

theorem listened_new : ({} : ForegroundWatcher).Listened where
  distinct := List.nodup_nil
  old := by simp
  calling := by simp

theorem sound_of_run {events : List WatcherEvent} {w : ForegroundWatcher}
    (h : exec (ForegroundWatcher.step u toUppercase) {} events = some w) :
    w.PassSound ∧ w.Distinct ∧ w.Listened :=
  exec_invariant (I := fun w => w.PassSound ∧ w.Distinct ∧ w.Listened)
    ⟨passSound_new, distinct_new, listened_new⟩
    (fun _ _ _ hs hstep => ⟨hs.1.step hstep, hs.2.1.step (deliveryStep hs.1 hstep),
      hs.2.2.step hs.1 hstep⟩) h

theorem registered_of_run {events : List WatcherEvent} {w : ForegroundWatcher}
    (h : exec (ForegroundWatcher.step u toUppercase) {} events = some w) :
    (∀ who delivery, w.Leaving who delivery →
      Happened (ForegroundWatcher.step u toUppercase) {} events (Registers delivery)) ∧
    ∀ (d : Nat) (thread : DebounceThread), w.debounces[d]? = some thread →
      Happened (ForegroundWatcher.step u toUppercase) {} events (Registers thread.delivery) := by
  refine exec_induction (P := fun events w =>
    (∀ who delivery, w.Leaving who delivery →
      Happened (ForegroundWatcher.step u toUppercase) {} events (Registers delivery)) ∧
    ∀ (d : Nat) (thread : DebounceThread), w.debounces[d]? = some thread →
      Happened (ForegroundWatcher.step u toUppercase) {} events (Registers thread.delivery)) ?_ ?_ h
  · constructor
    · intro who delivery hwho
      cases who <;> simp [Leaving, pollPlace, Loops.place] at hwho
    · simp
  · intro events w₁ e w₂ hw₁ hboth hstep
    obtain ⟨hleaving, hthreads⟩ := hboth
    have hmoves := deliveryStep (sound_of_run hw₁).1 hstep
    constructor
    · intro who delivery hwho
      rcases leaving_of_step hmoves hwho with hold | ⟨hregisters, -⟩
      · exact (hleaving who delivery hold).append_right [e]
      · exact Happened.last hw₁ hstep hregisters
    · intro d thread hget
      rcases thread_of_step hmoves hget with ⟨place, hold, -⟩ | ⟨who, hold, -⟩
      · exact (hthreads d _ hold).append_right [e]
      · exact (hleaving who _ hold).append_right [e]

/-- What happened to a delivery between two instants of a run. -/
theorem calledOnce_of_run {events : List WatcherEvent} {n m : Nat} {w w' : ForegroundWatcher}
    (h : exec (ForegroundWatcher.step u toUppercase) {} (events.take n) = some w)
    (h' : exec (ForegroundWatcher.step u toUppercase) {} (events.take m) = some w') (hle : n ≤ m)
    {listener generation : Nat} (hcalled : w.CalledOnce listener generation) :
    w'.CalledOnce listener generation := by
  obtain ⟨w₁, hw₁, hrest⟩ := exec_take h' n
  rw [List.take_take, Nat.min_eq_left hle, h] at hw₁
  obtain rfl := Option.some.inj hw₁
  exact (exec_invariant (I := fun w => w.PassSound ∧ w.CalledOnce listener generation)
    ⟨(sound_of_run h).1, hcalled⟩
    (fun _ _ _ hs hstep => ⟨hs.1.step hstep, hs.2.step (deliveryStep hs.1 hstep)⟩) hrest).2

/-- A listener is not called twice with the delivery of one generation. -/
theorem call_not_before {events : List WatcherEvent} {n m : Nat} {w₁ w₂ w₃ w₄ : ForegroundWatcher}
    {e f : WatcherEvent} {listener : Nat} {delivery delivery' : ChangeDelivery}
    (h : StepAt (ForegroundWatcher.step u toUppercase) {} events n w₁ e w₂)
    (hcall : CallsWith listener delivery w₁ e)
    (h' : StepAt (ForegroundWatcher.step u toUppercase) {} events m w₃ f w₄)
    (hcall' : CallsWith listener delivery' w₃ f)
    (hsame : delivery'.generation = delivery.generation) : ¬ n < m := by
  intro hlt
  obtain ⟨hpass, hdistinct, hlistened⟩ := sound_of_run h.before
  have hcalled := calledOnce_of_call hdistinct hlistened (deliveryStep hpass h.step) hcall
  have hlater := calledOnce_of_run h.after h'.before hlt hcalled
  obtain ⟨d, listeners, -, hget⟩ := hcall'
  obtain ⟨rest, hplace, hpast⟩ := hlater.past d delivery' _ hget hsame
  obtain rfl := DebouncePlace.calling.inj hplace
  exact hpast List.mem_cons_self

theorem key_of_step {w w' : ForegroundWatcher} {e : WatcherEvent} (h : w.DeliveryStep e w') :
    (∃ who delivery, Registers delivery w e w' ∧ w'.Leaving who delivery) ∨
    w'.watch.lastKey = w.watch.lastKey ∧
      w'.watch.debounceGeneration = w.watch.debounceGeneration ∨
    w'.watch.lastKey = none := by
  cases h with
  | keeps hkept hdebounces hwatch hcall =>
      rcases hwatch with hsame | hclear
      · exact Or.inr (Or.inl hsame)
      · exact Or.inr (Or.inr (by rw [hclear, WatchState.clear]))
  | @registers who info _ hinformed hwatch hself hothers hdebounces =>
      by_cases hkey : w.watch.lastKey = some (changeKey info)
      · refine Or.inr (Or.inl ?_)
        simp [hwatch, WatchState.registerChangeKey, hkey]
      · refine Or.inl ⟨who, ⟨w'.watch.debounceGeneration, info⟩,
          ⟨who, rfl, hinformed, hkey, ?_, rfl⟩, ?_⟩
        · simp [hwatch, WatchState.registerChangeKey, hkey]
        · simp [Leaving, hself, WatchState.registerChangeKey, hkey]
  | leaves hleft hself hothers hwatch hdebounces => exact Or.inr (Or.inl (by simp [hwatch]))
  | wakes hget | snapshots hget | calls hget => exact Or.inr (Or.inl ⟨rfl, rfl⟩)

theorem leaving_of_registers {w w' : ForegroundWatcher} {e : WatcherEvent}
    {delivery : ChangeDelivery} (h : Registers delivery w e w') (hmoves : w.DeliveryStep e w') :
    ∃ who, w'.Leaving who delivery := by
  obtain ⟨who, rfl, hinformed, hfresh, hkey, hgeneration⟩ := h
  rcases key_of_step hmoves with
    ⟨who', delivery', ⟨_, heq, hinformed', -, -, hgeneration'⟩, hleaving⟩ | ⟨hsame, -⟩ | hnone
  · obtain ⟨rfl, -⟩ := WatcherEvent.sample.inj heq
    have hinfo := PollPlace.informed.inj (Option.some.inj (hinformed.symm.trans hinformed'))
    obtain rfl : delivery = delivery' := by
      cases delivery
      cases delivery'
      rw [ChangeDelivery.mk.injEq]
      exact ⟨hgeneration.symm.trans hgeneration', hinfo⟩
    exact ⟨_, hleaving⟩
  · exact absurd (hsame.symm.trans hkey) hfresh
  · rw [hnone] at hkey
    contradiction

theorem standing_of_run {events : List WatcherEvent} {w : ForegroundWatcher}
    (h : exec (ForegroundWatcher.step u toUppercase) {} events = some w) :
    ∀ key, w.watch.lastKey = some key → ∃ n w₁ e w₂ delivery,
      StepAt (ForegroundWatcher.step u toUppercase) {} events n w₁ e w₂ ∧
      Registers delivery w₁ e w₂ ∧ changeKey delivery.info = key ∧
      delivery.generation = w.watch.debounceGeneration := by
  refine exec_induction (P := fun events w => ∀ key, w.watch.lastKey = some key →
    ∃ n w₁ e w₂ delivery, StepAt (ForegroundWatcher.step u toUppercase) {} events n w₁ e w₂ ∧
      Registers delivery w₁ e w₂ ∧ changeKey delivery.info = key ∧
      delivery.generation = w.watch.debounceGeneration) ?_ ?_ h
  · intro key hkey
    contradiction
  · intro events w e w' hw ih hstep key hkey
    rcases key_of_step (deliveryStep (sound_of_run hw).1 hstep) with
      ⟨who, delivery, hregisters, -⟩ | ⟨hsame, hgeneration⟩ | hnone
    · refine ⟨events.length, w, e, w', delivery, StepAt.last hw hstep, hregisters, ?_,
        hregisters.generation.symm⟩
      exact Option.some.inj (hregisters.key.symm.trans hkey)
    · obtain ⟨n, w₁, e₁, w₂, delivery, hat, hregisters, hchange, hcurrent⟩ :=
        ih key (hsame.symm.trans hkey)
      exact ⟨n, w₁, e₁, w₂, delivery, hat.append_right [e], hregisters, hchange,
        hcurrent.trans hgeneration.symm⟩
    · rw [hnone] at hkey
      contradiction

/-- A delivery that nothing overtakes reaches every listener that stays, or has yet to. -/
theorem heard_since {w₁ w : ForegroundWatcher} {events : List WatcherEvent} {listener : Nat}
    {delivery : ChangeDelivery} (hsound : w₁.PassSound) (howes : w₁.Owes listener delivery)
    (hlistener : listener ∈ w₁.listeners)
    (hcurrent : w₁.watch.debounceGeneration = delivery.generation)
    (h : exec (ForegroundWatcher.step u toUppercase) w₁ events = some w)
    (hlast : w.watch.debounceGeneration = delivery.generation)
    (hstays : .unsubscribe listener ∉ events) :
    w.Owes listener delivery ∨ Happened (ForegroundWatcher.step u toUppercase) w₁ events
      fun w₂ e _ => CallsWith listener delivery w₂ e := by
  have hrun : w.PassSound ∧ delivery.generation ≤ w.watch.debounceGeneration ∧
      (w.watch.debounceGeneration = delivery.generation → .unsubscribe listener ∉ events →
        listener ∈ w.listeners ∧ (w.Owes listener delivery ∨
          Happened (ForegroundWatcher.step u toUppercase) w₁ events
            fun w₂ e _ => CallsWith listener delivery w₂ e)) := by
    refine exec_induction (P := fun events w => w.PassSound ∧
      delivery.generation ≤ w.watch.debounceGeneration ∧
      (w.watch.debounceGeneration = delivery.generation → .unsubscribe listener ∉ events →
        listener ∈ w.listeners ∧ (w.Owes listener delivery ∨
          Happened (ForegroundWatcher.step u toUppercase) w₁ events
            fun w₂ e _ => CallsWith listener delivery w₂ e))) ?_ ?_ h
    · exact ⟨hsound, hcurrent.ge, fun _ _ => ⟨hlistener, Or.inl howes⟩⟩
    · intro events w₂ e w₃ hw₂ ih hstep
      obtain ⟨hsound₂, hold, hheard⟩ := ih
      have hmoves := deliveryStep hsound₂ hstep
      have hgrows := hmoves.generation_le
      refine ⟨hsound₂.step hstep, hold.trans hgrows, ?_⟩
      intro hlast hstays
      rw [List.mem_append, List.mem_singleton, not_or] at hstays
      have hcurrent₂ : w₂.watch.debounceGeneration = delivery.generation := by omega
      obtain ⟨hmem, howes⟩ := hheard hcurrent₂ hstays.1
      refine ⟨mem_listeners_of_step hmem hstep (Ne.symm hstays.2), ?_⟩
      rcases howes with howes | hcalled
      · rcases howes.step hmoves hmem hcurrent₂.symm with hcall | hstill
        · exact Or.inr (Happened.last hw₂ hstep hcall)
        · exact Or.inl hstill
      · exact Or.inr (hcalled.append_right [e])
  exact (hrun.2.2 hlast hstays).2

theorem settled_of_lists {w : ForegroundWatcher}
    (hloops : ∀ thread ∈ w.loops.threads, ∀ delivery,
      thread.place ≠ .working (.leaving (some delivery)))
    (hresolvers : ∀ place ∈ w.resolvers.map (·.place), ∀ delivery,
      place ≠ .polling (.leaving (some delivery)))
    (hcalled : ∀ place ∈ w.debounces.map (·.place), place = .calling []) : w.Settled where
  left who delivery hleaving := by
    cases who with
    | loop i =>
        obtain ⟨epoch, hget⟩ := Loops.place_eq_some.mp (pollPlace_loop.mp hleaving)
        exact hloops _ (List.mem_of_getElem? hget) delivery rfl
    | resolver r =>
        obtain ⟨key, fallback, hget⟩ := pollPlace_resolver.mp hleaving
        exact hresolvers _ (List.mem_map_of_mem (List.mem_of_getElem? hget)) delivery rfl
    | capture c => contradiction
  called thread hmem := hcalled _ (List.mem_map_of_mem hmem)

theorem Settled.not_owes {w : ForegroundWatcher} (h : w.Settled) (listener : Nat)
    (delivery : ChangeDelivery) : ¬ w.Owes listener delivery := by
  rintro (⟨who, hwho⟩ | ⟨d, place, hget, hreaches⟩)
  · exact h.left who delivery hwho
  · have hdone := h.called _ (List.mem_of_getElem? hget)
    dsimp only at hdone
    rw [hdone] at hreaches
    exact absurd hreaches List.not_mem_nil

end ForegroundWatcher

/-- However slow its threads are: when no delivery is under way, the change key that stands was
registered by the last pass that saw a change, and after that every listener that was there then and
has not unsubscribed was called with what this pass saw. -/
theorem no_foreground_change_is_lost (events : List WatcherEvent) (w : ForegroundWatcher)
    (h : exec (ForegroundWatcher.step u toUppercase) {} events = some w) (hsettled : w.Settled)
    (key : String) (hkey : w.watch.lastKey = some key) :
    ∃ n w₁ e w₂ delivery,
      StepAt (ForegroundWatcher.step u toUppercase) {} events n w₁ e w₂ ∧
      Registers delivery w₁ e w₂ ∧ changeKey delivery.info = key ∧
      delivery.generation = w.watch.debounceGeneration ∧
      ∀ listener ∈ w₂.listeners, (∀ m, n < m → events[m]? ≠ some (.unsubscribe listener)) →
        ∃ m w₃ f w₄, n < m ∧
          StepAt (ForegroundWatcher.step u toUppercase) {} events m w₃ f w₄ ∧
          CallsWith listener delivery w₃ f := by
  obtain ⟨n, w₁, e, w₂, delivery, hat, hregisters, hchange, hcurrent⟩ :=
    ForegroundWatcher.standing_of_run h key hkey
  refine ⟨n, w₁, e, w₂, delivery, hat, hregisters, hchange, hcurrent, ?_⟩
  intro listener hlistener hstays
  obtain ⟨w₃, hw₃, hrest⟩ := exec_take h (n + 1)
  obtain rfl := Option.some.inj (hat.after.symm.trans hw₃)
  have hleaves := ForegroundWatcher.leaving_of_registers hregisters
    (ForegroundWatcher.deliveryStep (ForegroundWatcher.sound_of_run hat.before).1 hat.step)
  have hlater : .unsubscribe listener ∉ events.drop (n + 1) := by
    intro hmem
    obtain ⟨m, hm⟩ := List.mem_iff_getElem?.mp hmem
    rw [List.getElem?_drop] at hm
    exact hstays (n + 1 + m) (by omega) hm
  have hheard := ForegroundWatcher.heard_since (ForegroundWatcher.sound_of_run hat.after).1
    (Or.inl hleaves) hlistener hregisters.generation hrest hcurrent.symm hlater
  obtain ⟨m, w₄, f, w₅, hcalls, hcall⟩ :=
    hheard.resolve_left (hsettled.not_owes listener delivery)
  have hlong := StepAt.append_left hat.after hcalls
  have hlt := hat.lt_length
  rw [List.take_append_drop, List.length_take] at hlong
  exact ⟨_, w₄, f, w₅, by omega, hlong, hcall⟩

/-- The foreground changes while the first change is still to be delivered. -/
def overtaken : List WatcherEvent :=
  [.onChange, .start] ++ passOf (.loop 0) none false ++ [.check 0 true] ++
    passOf (.loop 0) (some notepad) true ++
    [.resolved 0 .undescribed, .forget 0, .wake 0, .wake 1, .snapshot 1, .call 1]

theorem no_foreground_change_is_lost_overtaken : ∃ n w₁ e w₂ delivery,
    StepAt (ForegroundWatcher.step .ascii Char.toString) {} overtaken n w₁ e w₂ ∧
      Registers delivery w₁ e w₂ ∧ delivery.generation = 2 ∧
      (1 ∈ w₂.listeners → ∃ m w₃ f w₄, n < m ∧
        StepAt (ForegroundWatcher.step .ascii Char.toString) {} overtaken m w₃ f w₄ ∧
        CallsWith 1 delivery w₃ f) := by
  have hrun : (exec (ForegroundWatcher.step .ascii Char.toString) {} overtaken).map (fun w =>
      ((w.loops.threads, w.resolvers.map (·.place), w.debounces.map (·.place)), w.watch.lastKey,
        w.watch.debounceGeneration)) =
      some (([LoopThread.mk 1 (.checking ())], [ResolverPlace.ended],
        [DebouncePlace.calling [], .calling []]), some "notepad.exe\\0", 2) := by
    decide +kernel
  obtain ⟨w, hw, hparts⟩ := Option.map_eq_some_iff.mp hrun
  simp only [Prod.mk.injEq] at hparts
  obtain ⟨⟨hthreads, hresolvers, hdebounces⟩, hkey, hgeneration⟩ := hparts
  have hsettled : w.Settled := by
    refine ForegroundWatcher.settled_of_lists ?_ ?_ ?_
    · simp [hthreads]
    · simp [hresolvers]
    · simp [hdebounces]
  obtain ⟨n, w₁, e, w₂, delivery, hat, hregisters, -, hcurrent, hheard⟩ :=
    no_foreground_change_is_lost .ascii Char.toString overtaken w hw hsettled _ hkey
  refine ⟨n, w₁, e, w₂, delivery, hat, hregisters, hcurrent.trans hgeneration, ?_⟩
  intro hmem
  refine hheard 1 hmem ?_
  intro m _ hevent
  have hgone := List.mem_of_getElem? hevent
  simp [overtaken, passOf] at hgone

/-- A listener is called only with what a pass has registered as a change, and no listener is called
twice for one registration, whatever threads poll, resolve names, wake and call at the same time. -/
theorem foreground_change_is_called_once (events : List WatcherEvent) {n : Nat}
    {w₁ w₂ : ForegroundWatcher} {e : WatcherEvent} {listener : Nat} {delivery : ChangeDelivery}
    (h : StepAt (ForegroundWatcher.step u toUppercase) {} events n w₁ e w₂)
    (hcall : CallsWith listener delivery w₁ e) :
    (∃ k v₁ g v₂, k < n ∧ StepAt (ForegroundWatcher.step u toUppercase) {} events k v₁ g v₂ ∧
      Registers delivery v₁ g v₂) ∧
    ∀ m w₃ f w₄ delivery', StepAt (ForegroundWatcher.step u toUppercase) {} events m w₃ f w₄ →
      CallsWith listener delivery' w₃ f → delivery'.generation = delivery.generation → m = n := by
  constructor
  · obtain ⟨d, listeners, -, hget⟩ := hcall
    obtain ⟨-, hthreads⟩ := ForegroundWatcher.registered_of_run h.before
    obtain ⟨k, v₁, g, v₂, hat, hregisters⟩ := hthreads d _ hget
    obtain ⟨hlt, hlong⟩ := hat.of_take
    exact ⟨k, v₁, g, v₂, hlt, hlong, hregisters⟩
  · intro m w₃ f w₄ delivery' h' hcall' hsame
    have hnotBefore := ForegroundWatcher.call_not_before h hcall h' hcall' hsame
    have hnotAfter := ForegroundWatcher.call_not_before h' hcall' h hcall hsame.symm
    omega

theorem foreground_change_is_called_once_overtaken :
    ∃ n w₁ e w₂ delivery k v₁ g v₂, CallsWith 1 delivery w₁ e ∧ k < n ∧
      StepAt (ForegroundWatcher.step .ascii Char.toString) {} overtaken n w₁ e w₂ ∧
      StepAt (ForegroundWatcher.step .ascii Char.toString) {} overtaken k v₁ g v₂ ∧
      Registers delivery v₁ g v₂ := by
  have hrun : ((exec (ForegroundWatcher.step .ascii Char.toString) {} (overtaken.take 19)).bind
      (fun w => w.debounces[1]?)).map (fun thread => (thread.delivery.generation, thread.place)) =
      some (2, DebouncePlace.calling [1]) := by
    decide +kernel
  obtain ⟨⟨delivery, place⟩, hget, hparts⟩ := Option.map_eq_some_iff.mp hrun
  obtain ⟨w₁, hw₁, hthread⟩ := Option.bind_eq_some_iff.mp hget
  obtain ⟨-, rfl⟩ := Prod.mk.inj hparts
  have hat : StepAt (ForegroundWatcher.step .ascii Char.toString) {} overtaken 19 w₁ (.call 1)
      (w₁.moveDebounce 1 (.calling [])) := ⟨hw₁, rfl, by simp [ForegroundWatcher.step, hthread]⟩
  have hcall : CallsWith 1 delivery w₁ (.call 1) := ⟨1, [], rfl, hthread⟩
  obtain ⟨⟨k, v₁, g, v₂, hlt, hregistered, hregisters⟩, -⟩ :=
    foreground_change_is_called_once .ascii Char.toString overtaken hat hcall
  exact ⟨19, w₁, _, _, delivery, k, v₁, g, v₂, hcall, hlt, hat, hregistered, hregisters⟩

end YohakuCore
