import Mathlib.Data.List.Basic
import Mathlib.Data.List.Infix

/-!
# Canonical composition and lowercase

Normalization Form C and the default lowercase mapping, over any tables of the character data they
read.
-/

namespace YohakuCore.Framework

structure UnicodeTables where
  decomposition : Char → List Char
  combiningClass : Char → Nat
  composite : Char → Char → Option Char
  lowerChar : Char → List Char
  cased : Char → Bool
  caseIgnorable : Char → Bool

namespace UnicodeTables

variable (T : UnicodeTables)

/-- A mark moves behind the marks of lower class; marks of one class keep their order. -/
def insertMark (c : Char) : List Char → List Char
  | [] => [c]
  | d :: rest =>
      if 0 < T.combiningClass d ∧ T.combiningClass d < T.combiningClass c then
        d :: insertMark c rest
      else c :: d :: rest

def reorder : List Char → List Char
  | [] => []
  | c :: rest => T.insertMark c (reorder rest)

def nfd (text : List Char) : List Char := T.reorder (text.flatMap T.decomposition)

/-- No character kept between the starter and `c` blocks `c`. -/
def unblocked (kept : List Char) (c : Char) : Bool :=
  kept.all (fun d => T.combiningClass d < T.combiningClass c)

/-- What the starter becomes with `c`, when `c` reaches it and composes. -/
def joined (starter : Char) (kept : List Char) (c : Char) : Option Char :=
  if T.unblocked kept c then T.composite starter c else none

/-- Composition from a starter on, with the marks kept behind it so far. -/
def composeFrom (starter : Char) (kept : List Char) : List Char → List Char
  | [] => starter :: kept
  | c :: rest =>
      match T.joined starter kept c with
      | some p => composeFrom p kept rest
      | none =>
          if T.combiningClass c = 0 then starter :: (kept ++ composeFrom c [] rest)
          else composeFrom starter (kept ++ [c]) rest

/-- Marks before the first starter stay as they are. -/
def compose : List Char → List Char
  | [] => []
  | c :: rest =>
      if T.combiningClass c = 0 then T.composeFrom c [] rest else c :: compose rest

def nfc (text : List Char) : List Char := T.compose (T.nfd text)

/-- Behind any case-ignorable characters comes a cased one. -/
def casedNext (text : List Char) : Bool :=
  ((text.dropWhile T.caseIgnorable).head?).any T.cased

/-- `before` is the text already read, its last character first. -/
def markFinalSigmas (before : List Char) : List Char → List Char
  | [] => []
  | c :: rest =>
      (if c = 'Σ' ∧ T.casedNext before ∧ ¬ T.casedNext rest then 'ς' else c) ::
        markFinalSigmas (c :: before) rest

def lowercase (text : List Char) : List Char :=
  (T.markFinalSigmas [] text).flatMap T.lowerChar

section Ordering

theorem insertMark_perm (c : Char) (text : List Char) :
    (T.insertMark c text).Perm (c :: text) := by
  induction text with
  | nil => simp [insertMark]
  | cons d rest ih =>
      simp only [insertMark]
      split
      · exact (ih.cons d).trans (List.Perm.swap c d rest)
      · exact List.Perm.refl _

theorem reorder_perm (text : List Char) : (T.reorder text).Perm text := by
  induction text with
  | nil => simp [reorder]
  | cons c rest ih =>
      simp only [reorder]
      exact (T.insertMark_perm c _).trans (ih.cons c)

theorem mem_nfd {text : List Char} {x : Char} :
    x ∈ T.nfd text ↔ ∃ c ∈ text, x ∈ T.decomposition c := by
  rw [nfd, (T.reorder_perm _).mem_iff, List.mem_flatMap]

private theorem insertMark_map (f : Char → Char) (c : Char) {text : List Char}
    (hf : ∀ d ∈ c :: text, T.combiningClass (f d) = T.combiningClass d) :
    T.insertMark (f c) (text.map f) = (T.insertMark c text).map f := by
  induction text with
  | nil => simp [insertMark]
  | cons d rest ih =>
      have hc := hf c (by simp)
      have hd := hf d (by simp)
      have hrest := ih (fun e he => hf e (by simp at he ⊢; tauto))
      simp only [List.map_cons, insertMark, hc, hd]
      split
      · simp [hrest]
      · simp

theorem reorder_map (f : Char → Char) {text : List Char}
    (hf : ∀ c ∈ text, T.combiningClass (f c) = T.combiningClass c) :
    T.reorder (text.map f) = (T.reorder text).map f := by
  induction text with
  | nil => simp [reorder]
  | cons c rest ih =>
      have hrest := ih (fun d hd => hf d (List.mem_cons_of_mem c hd))
      simp only [List.map_cons, reorder, hrest]
      apply insertMark_map
      intro d hd
      apply hf
      simpa [(T.reorder_perm rest).mem_iff] using hd

end Ordering

/-- A starter that composes with nothing after it stands for itself. -/
theorem composeFrom_alone {starter : Char} (hnone : ∀ d, T.composite starter d = none)
    (kept text : List Char) :
    T.composeFrom starter kept text = starter :: (kept ++ T.compose text) := by
  induction text generalizing kept with
  | nil => simp [composeFrom, compose]
  | cons d rest ih =>
      have hj : T.joined starter kept d = none := by simp [joined, hnone]
      simp only [composeFrom, compose, hj]
      split
      · rfl
      · simp [ih]

/-! ### A character that nothing composes with

Such a character, of class zero and its own decomposition, cuts a text in two: the sides are
normalized on their own. -/

structure Inert (c : Char) : Prop where
  decomposition_eq : T.decomposition c = [c]
  combiningClass_eq : T.combiningClass c = 0
  composite_left : ∀ d, T.composite c d = none
  composite_right : ∀ d, T.composite d c = none

section Cut

variable {T}
variable {c : Char} (hc : T.Inert c)
include hc

theorem Inert.insertMark_cut (a : Char) (before after : List Char) :
    T.insertMark a (before ++ c :: after) = T.insertMark a before ++ c :: after := by
  induction before with
  | nil => simp [insertMark, hc.combiningClass_eq]
  | cons d rest ih =>
      simp only [List.cons_append, insertMark]
      split
      · simp [ih]
      · simp

theorem Inert.reorder_cut (before after : List Char) :
    T.reorder (before ++ c :: after) = T.reorder before ++ c :: T.reorder after := by
  induction before with
  | nil =>
      simp only [List.nil_append, reorder]
      cases T.reorder after with
      | nil => simp [insertMark]
      | cons d rest => simp [insertMark, hc.combiningClass_eq]
  | cons a rest ih => simp [reorder, ih, hc.insertMark_cut]

theorem Inert.nfd_cut (before after : List Char) :
    T.nfd (before ++ c :: after) = T.nfd before ++ c :: T.nfd after := by
  simp [nfd, hc.decomposition_eq, hc.reorder_cut]

theorem Inert.joined_right (d : Char) (kept : List Char) : T.joined d kept c = none := by
  simp [joined, hc.composite_right]

theorem Inert.composeFrom_cut (starter : Char) (kept before after : List Char) :
    T.composeFrom starter kept (before ++ c :: after) =
      T.composeFrom starter kept before ++ c :: T.compose after := by
  induction before generalizing starter kept with
  | nil =>
      simp [composeFrom, hc.joined_right, hc.combiningClass_eq,
        T.composeFrom_alone hc.composite_left]
  | cons d rest ih =>
      simp only [List.cons_append, composeFrom]
      split
      · apply ih
      · split
        · simp [ih]
        · apply ih

theorem Inert.compose_cut (before after : List Char) :
    T.compose (before ++ c :: after) = T.compose before ++ c :: T.compose after := by
  induction before with
  | nil => simp [compose, hc.combiningClass_eq,
        T.composeFrom_alone hc.composite_left]
  | cons d rest ih =>
      simp only [List.cons_append, compose]
      split
      · apply hc.composeFrom_cut
      · simp [ih]

theorem Inert.nfc_cut (before after : List Char) :
    T.nfc (before ++ c :: after) = T.nfc before ++ c :: T.nfc after := by
  simp [nfc, hc.nfd_cut, hc.compose_cut]

end Cut

end UnicodeTables

end YohakuCore.Framework
