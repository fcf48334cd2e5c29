import Mathlib.Data.List.Sort
import YohakuCore.Framework.Json
import YohakuCore.Framework.PrefixCode

/-! # Compact JSON texts -/

namespace YohakuCore.Framework

def JsonNumber.print : JsonNumber → String
  | .posInt value => toString value.toNat
  | .negInt value => toString value.toInt
  | .other literal => literal

namespace Json

section Print

variable (quote : String → String)

mutual

def printChars : Json → List Char
  | .null => "null".toList
  | .bool value => (if value then "true" else "false").toList
  | .number value => value.print.toList
  | .string value => (quote value).toList
  | .array items => '[' :: (printItems items ++ [']'])
  | .object members => '\x7b' :: (printMembers members ++ ['\x7d'])

def printItems : List Json → List Char
  | [] => []
  | item :: items => printChars item ++ printMoreItems items

def printMoreItems : List Json → List Char
  | [] => []
  | item :: items => ',' :: (printChars item ++ printMoreItems items)

def printMembers : List (String × Json) → List Char
  | [] => []
  | (key, value) :: members =>
      (quote key).toList ++ ':' :: (printChars value ++ printMoreMembers members)

def printMoreMembers : List (String × Json) → List Char
  | [] => []
  | (key, value) :: members =>
      ',' :: ((quote key).toList ++ ':' :: (printChars value ++ printMoreMembers members))

end

def compact (value : Json) : String := String.ofList (printChars quote value)

private theorem printMoreItems_map {α : Type*} (document : α → Json) (items : List α) :
    printMoreItems quote (items.map document) =
      items.flatMap (fun item => ',' :: printChars quote (document item)) := by
  induction items with
  | nil => rfl
  | cons item items ih =>
      simp only [List.map_cons, printMoreItems, ih, List.flatMap_cons, List.cons_append]

theorem printItems_map {α : Type*} (document : α → Json) (items : List α) :
    printItems quote (items.map document) =
      separated ',' (fun item => printChars quote (document item)) items := by
  cases items with
  | nil => rfl
  | cons item items => simp only [List.map_cons, printItems, printMoreItems_map, separated]

end Print

section SortKeys

variable (before : String → String → Prop) [DecidableRel before]

mutual

def sortKeys : Json → Json
  | .array items => .array (sortKeysItems items)
  | .object members =>
      .object ((sortKeysMembers members).insertionSort (fun a b => before a.1 b.1))
  | value => value

def sortKeysItems : List Json → List Json
  | [] => []
  | item :: items => sortKeys item :: sortKeysItems items

def sortKeysMembers : List (String × Json) → List (String × Json)
  | [] => []
  | (key, value) :: members => (key, sortKeys value) :: sortKeysMembers members

end

end SortKeys

end Json

end YohakuCore.Framework
