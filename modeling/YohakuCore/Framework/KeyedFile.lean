import Mathlib.Data.List.AList

/-!
# A file that holds a map

Every operation reads the whole file; a write replaces it, or fails and leaves it. Whether a write
succeeds is an argument.
-/

namespace YohakuCore.Framework

section Answers

variable {State Call Answer View : Type*}

/-- The calls of a run with their answers. -/
def answers (step : State → Call → State × Answer) : State → List Call → List (Call × Answer)
  | _, [] => []
  | s, c :: cs => (c, (step s c).2) :: answers step (step s c).1 cs

/-- The state after the calls. -/
def after (step : State → Call → State × Answer) (s : State) (cs : List Call) : State :=
  cs.foldl (fun s c => (step s c).1) s

variable {step : State → Call → State × Answer}

theorem after_append (s : State) (cs ds : List Call) :
    after step s (cs ++ ds) = after step (after step s cs) ds := by
  simp [after]

/-- What is seen of a state follows the answers alone: at each answer of a run, the state it was
given in looks as the answers before it say. -/
theorem answers_view (view : State → View) (update : View → Call × Answer → View)
    (hstep : ∀ s c, view (step s c).1 = update (view s) (c, (step s c).2)) {s : State}
    {cs : List Call} {before rest : List (Call × Answer)} {c : Call} {a : Answer}
    (h : answers step s cs = before ++ (c, a) :: rest) :
    ∃ s', view s' = before.foldl update (view s) ∧ a = (step s' c).2 := by
  induction cs generalizing s before with
  | nil => simp [answers] at h
  | cons d ds ih =>
      cases before with
      | nil =>
          simp only [answers, List.nil_append, List.cons.injEq, Prod.mk.injEq] at h
          obtain ⟨⟨rfl, rfl⟩, -⟩ := h
          exact ⟨s, rfl, rfl⟩
      | cons b before =>
          simp only [answers, List.cons_append, List.cons.injEq] at h
          obtain ⟨rfl, h⟩ := h
          obtain ⟨s', hview, hanswer⟩ := ih h
          refine ⟨s', ?_, hanswer⟩
          rw [hview, hstep, List.foldl_cons]

theorem answers_append (s : State) (cs ds : List Call) :
    answers step s (cs ++ ds) = answers step s cs ++ answers step (after step s cs) ds := by
  induction cs generalizing s with
  | nil => rfl
  | cons c cs ih => simp [answers, after, ih]

/-- What is seen at the end of a run is what its answers make of what was seen first, when the
invariant that this rests on is kept by the calls of the run. -/
theorem after_view (view : State → View) (update : View → Call × Answer → View) {I : State → Prop}
    {allowed : Call → Prop} (hkeep : ∀ s c, I s → allowed c → I (step s c).1)
    (hstep : ∀ s c, I s → allowed c → view (step s c).1 = update (view s) (c, (step s c).2))
    {s : State} (hs : I s) {cs : List Call} (hcs : ∀ c ∈ cs, allowed c) :
    I (after step s cs) ∧ view (after step s cs) = (answers step s cs).foldl update (view s) := by
  induction cs generalizing s with
  | nil => exact ⟨hs, rfl⟩
  | cons c cs ih =>
      have hc := hcs c List.mem_cons_self
      obtain ⟨hafter, hview⟩ := ih (hkeep s c hs hc) fun d hd => hcs d (List.mem_cons_of_mem _ hd)
      refine ⟨hafter, ?_⟩
      rw [answers, List.foldl_cons, ← hstep s c hs hc]
      exact hview

end Answers

/-- How maps are written as texts. -/
structure MapText (Text Key Value : Type*) where
  parse : Text → Option (AList fun _ : Key => Value)
  print : (AList fun _ : Key => Value) → Text

namespace MapText

variable {Text Key Value : Type*} (text : MapText Text Key Value)

def read (file : Option Text) : AList fun _ : Key => Value := (file.bind text.parse).getD ∅

theorem read_none : text.read none = ∅ := rfl

theorem read_some {t : Text} {m : AList fun _ : Key => Value} (h : text.parse t = some m) :
    text.read (some t) = m := by
  rw [read, Option.bind_some, h, Option.getD_some]

theorem eq_empty_of_keys {m : AList fun _ : Key => Value} (h : m.keys = []) : m = ∅ := by
  apply AList.ext
  exact List.map_eq_nil_iff.mp h

variable [DecidableEq Key]

/-- A map that was read is read back from its text with one entry written or one taken out. -/
structure Restores (writes : Value → Prop) : Prop where
  insert : ∀ file key value, writes value →
    text.parse (text.print ((text.read file).insert key value)) =
      some ((text.read file).insert key value)
  erase : ∀ file key, text.parse (text.print ((text.read file).erase key)) =
    some ((text.read file).erase key)

/-- Maps that are their own texts. -/
def documents : MapText (AList fun _ : Key => Value) Key Value where
  parse := some
  print m := m

theorem documents_restores (writes : Value → Prop) :
    (documents : MapText _ Key Value).Restores writes :=
  ⟨fun _ _ _ _ => rfl, fun _ _ => rfl⟩

/-- The new file, and whether the operation succeeded. -/
def put (file : Option Text) (key : Key) (value : Value) (writes : Bool) : Option Text × Bool :=
  if writes then (some (text.print ((text.read file).insert key value)), true) else (file, false)

/-- The disk is touched only when the key is there. A file left without keys may be deleted. -/
def drop (deletesEmpty : Bool) (file : Option Text) (key : Key) (writes : Bool) :
    Option Text × Bool :=
  if key ∈ text.read file then
    if writes then
      let rest := (text.read file).erase key
      (if deletesEmpty && rest.keys.isEmpty then none else some (text.print rest), true)
    else (file, false)
  else (file, true)

variable {text} {writesValue : Value → Prop} {file : Option Text} {key other : Key}
  {value : Value} {writes deletesEmpty : Bool}

theorem put_failed (h : (text.put file key value writes).2 = false) :
    (text.put file key value writes).1 = file := by
  cases writes with
  | false => rfl
  | true => simp [put] at h

theorem drop_failed (h : (text.drop deletesEmpty file key writes).2 = false) :
    (text.drop deletesEmpty file key writes).1 = file := by
  by_cases hkey : key ∈ text.read file
  · cases writes with
    | false => simp [drop, hkey]
    | true => simp [drop, hkey] at h
  · simp [drop, hkey]

theorem lookup_put (hrestores : text.Restores writesValue) (hvalue : writesValue value)
    (other : Key) :
    (text.read (text.put file key value writes).1).lookup other =
      if (text.put file key value writes).2 = true ∧ other = key then some value
      else (text.read file).lookup other := by
  cases writes with
  | false => simp [put]
  | true =>
      have hread : text.read (text.put file key value true).1 =
          (text.read file).insert key value :=
        read_some text (hrestores.insert file key value hvalue)
      rw [hread]
      by_cases hkey : other = key
      · subst hkey
        simp [put]
      · simp [put, hkey, AList.lookup_insert_ne]

theorem read_drop (hrestores : text.Restores writesValue) (hkey : key ∈ text.read file) :
    text.read (text.drop deletesEmpty file key true).1 = (text.read file).erase key := by
  simp only [drop, hkey, if_true]
  by_cases hempty : (deletesEmpty && ((text.read file).erase key).keys.isEmpty) = true
  · rw [if_pos hempty, read_none]
    simp only [Bool.and_eq_true, List.isEmpty_iff] at hempty
    exact (eq_empty_of_keys hempty.2).symm
  · rw [if_neg hempty]
    exact read_some text (hrestores.erase file key)

theorem lookup_drop (hrestores : text.Restores writesValue) (other : Key) :
    (text.read (text.drop deletesEmpty file key writes).1).lookup other =
      if (text.drop deletesEmpty file key writes).2 = true ∧ other = key then none
      else (text.read file).lookup other := by
  by_cases hkey : key ∈ text.read file
  · cases writes with
    | false => simp [drop, hkey]
    | true =>
        rw [read_drop hrestores hkey]
        by_cases hother : other = key
        · subst hother
          simp [drop, hkey]
        · simp [hother, AList.lookup_erase_ne]
  · simp only [drop, hkey, if_false, true_and]
    by_cases hother : other = key
    · subst hother
      rw [if_pos rfl]
      exact AList.lookup_eq_none.mpr hkey
    · rw [if_neg hother]

/-- A file disappears exactly when its last key is taken out and such files are deleted. -/
theorem drop_eq_none (hfile : file ≠ none) :
    (text.drop deletesEmpty file key writes).1 = none ↔
      (text.drop deletesEmpty file key writes).2 = true ∧ deletesEmpty = true ∧
        (text.read file).keys = [key] := by
  by_cases hkey : key ∈ text.read file
  · have hlast : ((text.read file).erase key).keys = [] ↔ (text.read file).keys = [key] := by
      have hne : (text.read file).keys ≠ [] := List.ne_nil_of_mem (AList.mem_keys.mp hkey)
      rw [AList.keys_erase, List.erase_eq_nil_iff]
      tauto
    cases writes with
    | false => simp [drop, hkey, hfile]
    | true =>
        rw [← hlast]
        simp only [drop, hkey, if_true, ← List.isEmpty_iff]
        by_cases hempty : ((text.read file).erase key).keys.isEmpty = true
        · cases deletesEmpty <;> simp [hempty, -AList.keys_erase]
        · cases deletesEmpty <;> simp [hempty, -AList.keys_erase]
  · have hkeys : (text.read file).keys ≠ [key] := by
      intro h
      apply hkey
      rw [AList.mem_keys, h, List.mem_singleton]
    simp [drop, hkey, hfile, hkeys]

end MapText

end YohakuCore.Framework
