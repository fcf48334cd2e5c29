import Mathlib.Data.List.Forall2
import Mathlib.Algebra.Group.Nat.Defs

/-!
# JSON documents and derived readers

An object keeps its members in document order, repeated keys included: the reader that a
structure derives takes its fields by name from an object, refuses a declared key that occurs
twice, and skips every other key. The same reader takes the fields by position from an array. A
field is required, optional (`null` or no key read as none) or defaulted (no key reads as none).
-/

namespace YohakuCore.Framework

/-- A number by the narrowest type that holds it; other numbers are kept as written. -/
inductive JsonNumber where
  | posInt (value : UInt64)
  | negInt (value : Int64)
  | other (literal : String)
  deriving DecidableEq

inductive Json where
  | null
  | bool (value : Bool)
  | number (value : JsonNumber)
  | string (value : String)
  | array (items : List Json)
  | object (members : List (String × Json))

namespace Json

variable {α β : Type*}

/-- The values of the members with this key, in document order. -/
def valuesOf (key : String) (members : List (String × Json)) : List Json :=
  (members.filter (fun m => m.1 = key)).map Prod.snd

def readString : Json → Option String
  | .string value => some value
  | _ => none

def readBool : Json → Option Bool
  | .bool value => some value
  | _ => none

def readU64 : Json → Option UInt64
  | .number (.posInt value) => some value
  | _ => none

/-- The integer of a number that fits 64 signed bits. -/
def asI64 : Json → Option Int
  | .number (.posInt value) => if value.toNat < 2 ^ 63 then some value.toNat else none
  | .number (.negInt value) => some value.toInt
  | _ => none

def readU32 : Json → Option UInt32
  | .number (.posInt value) => if value.toNat < 2 ^ 32 then some value.toUInt32 else none
  | _ => none

def readOption (read : Json → Option α) : Json → Option (Option α)
  | .null => some none
  | value => (read value).map some

def readList (read : Json → Option α) : Json → Option (List α)
  | .array items => items.mapM read
  | _ => none

/-- An enumeration without payloads: its name, or an object whose only member is the name with
`null`. -/
def readVariant (named : String → Option α) : Json → Option α
  | .string name => named name
  | .object [(name, .null)] => named name
  | _ => none

@[simp] theorem readString_string (value : String) : readString (.string value) = some value :=
  rfl

@[simp] theorem readBool_bool (value : Bool) : readBool (.bool value) = some value := rfl

@[simp] theorem readU64_posInt (value : UInt64) :
    readU64 (.number (.posInt value)) = some value := rfl

/-- A structure with this many fields is read from an object or from an array no longer. -/
def hasShape (fields : Nat) : Json → Bool
  | .object _ => true
  | .array items => items.length ≤ fields
  | _ => false

def required (read : Json → Option α) (position : Nat) (key : String) : Json → Option α
  | .object members =>
      match valuesOf key members with
      | [value] => read value
      | _ => none
  | .array items => items[position]?.bind read
  | _ => none

def optional (read : Json → Option α) (position : Nat) (key : String) :
    Json → Option (Option α)
  | .object members =>
      match valuesOf key members with
      | [] => some none
      | [value] => readOption read value
      | _ => none
  | .array items => items[position]?.bind (readOption read)
  | _ => none

def defaulted (read : Json → Option α) (position : Nat) (key : String) :
    Json → Option (Option α)
  | .object members =>
      match valuesOf key members with
      | [] => some none
      | [value] => (read value).map some
      | _ => none
  | .array items =>
      match items[position]? with
      | none => some none
      | some value => (read value).map some
  | _ => none

/-! ### Readers of values already parsed

A value that a whole document was parsed into keeps one member for each key, the last one. -/

/-- The member with this key; only objects have any. -/
def lookup (key : String) : Json → Option Json
  | .object members => (valuesOf key members).getLast?
  | _ => none

def field (read : Json → Option α) (position : Nat) (key : String) : Json → Option α
  | .array items => items[position]?.bind read
  | value => (lookup key value).bind read

/-! ### Documents

What an object says about one key, whatever else it holds and in whatever order. -/

/-- The key occurs once, with a value of this kind. -/
def HasMember (members : List (String × Json)) (key : String) (P : Json → Prop) : Prop :=
  ∃ value, valuesOf key members = [value] ∧ P value

def NoMember (members : List (String × Json)) (key : String) : Prop :=
  valuesOf key members = []

variable {read : Json → Option α} {P : Json → Prop} {position : Nat} {key : String}
  {members : List (String × Json)}

theorem required_object (h : HasMember members key P) {a : α}
    (hread : ∀ value, P value → read value = some a) :
    required read position key (.object members) = some a := by
  obtain ⟨value, hvalues, hvalue⟩ := h
  rw [required, hvalues]
  exact hread value hvalue

theorem required_of_eq {value : Json} (h : HasMember members key (· = value)) :
    required read position key (.object members) = read value := by
  obtain ⟨_, hvalues, rfl⟩ := h
  rw [required, hvalues]

theorem defaulted_object (h : HasMember members key P) {a : α}
    (hread : ∀ value, P value → read value = some a) :
    defaulted read position key (.object members) = some (some a) := by
  obtain ⟨value, hvalues, hvalue⟩ := h
  rw [defaulted, hvalues]
  simp only [hread value hvalue, Option.map_some]

theorem defaulted_object_of_noMember (h : NoMember members key) :
    defaulted read position key (.object members) = some none := by
  rw [defaulted, h]

/-- The items stand for the entries of a list, in order. -/
def ListDocument (D : α → Json → Prop) (l : List α) (j : Json) : Prop :=
  ∃ items, j = .array items ∧ List.Forall₂ D l items

theorem readList_document {D : α → Json → Prop} (hread : ∀ a value, D a value →
    read value = some a) {l : List α} {j : Json} (h : ListDocument D l j) :
    readList read j = some l := by
  obtain ⟨items, rfl, hitems⟩ := h
  induction hitems with
  | nil => rfl
  | cons hhead _ ih =>
      rw [readList] at ih ⊢
      rw [List.mapM_cons, hread _ _ hhead, ih]
      rfl

theorem listDocument_map {D : α → Json → Prop} {write : α → Json} {l : List α} :
    ListDocument D l (.array (l.map write)) ↔ ∀ a ∈ l, D a (write a) := by
  simp [ListDocument, List.forall₂_map_right_iff, List.forall₂_same]

/-- An optional value as it is written. -/
def writeOption (write : α → Json) : Option α → Json
  | none => .null
  | some a => write a

/-- The key stands for an optional value: with `null`, or left out, when there is none. -/
def HasOptional (members : List (String × Json)) (key : String) (D : α → Json → Prop) :
    Option α → Prop
  | none => HasMember members key (· = .null) ∨ NoMember members key
  | some a => HasMember members key (fun value => value ≠ .null ∧ D a value)

theorem hasOptional_writeOption {D : α → Json → Prop} (write : α → Json) {a : Option α}
    (hvalues : valuesOf key members = [writeOption write a])
    (hwrite : ∀ a, write a ≠ .null ∧ D a (write a)) : HasOptional members key D a := by
  cases a with
  | none => exact Or.inl ⟨_, hvalues, rfl⟩
  | some a => exact ⟨_, hvalues, hwrite a⟩

theorem optional_hasOptional {D : α → Json → Prop} (hread : ∀ a value, D a value →
    read value = some a) {a : Option α} (h : HasOptional members key D a) :
    optional read position key (.object members) = some a := by
  cases a with
  | none =>
      rcases h with ⟨_, hvalues, rfl⟩ | hnone
      · rw [optional, hvalues]
        rfl
      · rw [NoMember] at hnone
        rw [optional, hnone]
  | some a =>
      obtain ⟨value, hvalues, hnull, hvalue⟩ := h
      rw [optional, hvalues]
      cases value with
      | null => exact absurd rfl hnull
      | _ => simp only [readOption, hread a _ hvalue, Option.map_some]

end Json

/-- How documents are written as texts, and which document a text stands for. -/
structure JsonText (Text : Type*) where
  parse : Text → Option Json
  print : Json → Text

/-- The document is read back from its printed text. -/
def JsonText.Restores {Text : Type*} (json : JsonText Text) (j : Json) : Prop :=
  json.parse (json.print j) = some j

/-- Texts known by the documents they stand for. -/
def JsonText.documents : JsonText Json where
  parse := some
  print j := j

theorem JsonText.documents_restores (j : Json) : JsonText.documents.Restores j := rfl

end YohakuCore.Framework
