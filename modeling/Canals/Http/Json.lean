import Mathlib.Data.List.Sort
import Mathlib.Data.Rat.Defs

/-! JSON values. An object is its list of properties in order; two values that
differ in the order of keys only are `Same`. -/
namespace Canals

inductive Json where
  | null
  | bool (b : Bool)
  | num (n : Rat)
  | str (s : String)
  | arr (items : List Json)
  | obj (properties : List (String × Json))

abbrev JsonObject := List (String × Json)

/-- `body[name]`, when it is a string. -/
def readStringField (body : Option JsonObject) (field : String) : Option String :=
  match body.bind (·.lookup field) with
  | some (.str s) => some s
  | _ => none

namespace Json

/-- An array index as a key: an object lists such keys first, by their value. -/
def arrayIndex (key : String) : Option Nat :=
  let digits := key.toList
  let value := digits.foldl (fun n c => 10 * n + (c.toNat - '0'.toNat)) 0
  if digits ≠ [] ∧ digits.all (·.isDigit) ∧ (digits.head? = some '0' → digits.length = 1) ∧
    value < 4294967295 then some value else none

/-- `Object.fromEntries` of entries with distinct keys. -/
def fromEntries (entries : JsonObject) : JsonObject :=
  (entries.filter fun entry => (arrayIndex entry.1).isSome).insertionSort
      (fun a b => (arrayIndex a.1).getD 0 ≤ (arrayIndex b.1).getD 0) ++
    entries.filter fun entry => (arrayIndex entry.1).isNone

section Canonical
variable (localeLe : String → String → Bool)

mutual
/-- Object keys sorted at every level, the order of arrays kept. -/
def canonicalize : Json → Json
  | .arr items => .arr (canonicalizeItems items)
  | .obj properties => .obj (fromEntries
      ((canonicalizeEntries properties).insertionSort fun a b => localeLe a.1 b.1))
  | value => value

def canonicalizeItems : List Json → List Json
  | [] => []
  | value :: items => canonicalize value :: canonicalizeItems items

def canonicalizeEntries : JsonObject → JsonObject
  | [] => []
  | (key, value) :: entries => (key, canonicalize value) :: canonicalizeEntries entries
end

end Canonical

def hexDigit (n : Nat) : Char := "0123456789abcdef".toList.getD n '0'

/-- What is written for a character of a string. -/
def escape (c : Char) : List Char :=
  if c = '"' then ['\\', '"']
  else if c = '\\' then ['\\', '\\']
  else if c.toNat = 8 then ['\\', 'b']
  else if c.toNat = 9 then ['\\', 't']
  else if c.toNat = 10 then ['\\', 'n']
  else if c.toNat = 12 then ['\\', 'f']
  else if c.toNat = 13 then ['\\', 'r']
  else if c.toNat < 32 then
    ['\\', 'u', '0', '0', hexDigit (c.toNat / 16), hexDigit (c.toNat % 16)]
  else [c]

/-- `JSON.stringify` of a string. -/
def quote (s : String) : String :=
  String.ofList ('"' :: s.toList.flatMap escape ++ ['"'])

section Text
variable (numberToString : Rat → String)

mutual
/-- `JSON.stringify`, without white space. -/
def stringify : Json → String
  | .null => "null"
  | .bool b => if b then "true" else "false"
  | .num n => numberToString n
  | .str s => quote s
  | .arr items => "[" ++ ",".intercalate (stringifyItems items) ++ "]"
  | .obj properties => "\x7b" ++ ",".intercalate (stringifyEntries properties) ++ "\x7d"

def stringifyItems : List Json → List String
  | [] => []
  | value :: items => stringify value :: stringifyItems items

def stringifyEntries : JsonObject → List String
  | [] => []
  | (key, value) :: entries => (quote key ++ ":" ++ stringify value) :: stringifyEntries entries
end

end Text

/-- One value turns into the other by permuting object keys at any levels. -/
inductive Same : Json → Json → Prop where
  | refl (v : Json) : Same v v
  | trans {u v w : Json} : Same u v → Same v w → Same u w
  | keys {ps qs : JsonObject} : ps.Perm qs → Same (.obj ps) (.obj qs)
  | item {v w : Json} (before after : List Json) : Same v w →
      Same (.arr (before ++ v :: after)) (.arr (before ++ w :: after))
  | property {v w : Json} (before after : JsonObject) (key : String) : Same v w →
      Same (.obj (before ++ (key, v) :: after)) (.obj (before ++ (key, w) :: after))

theorem Same.symm {v w : Json} (same : Same v w) : Same w v := by
  induction same with
  | refl v => exact .refl v
  | trans _ _ left right => exact right.trans left
  | keys perm => exact .keys perm.symm
  | item before after _ ih => exact .item before after ih
  | property before after key _ ih => exact .property before after key ih

theorem fromEntries_perm (entries : JsonObject) : (fromEntries entries).Perm entries := by
  refine ((List.perm_insertionSort _ _).append_right _).trans ?_
  simpa only [← Option.not_isSome] using
    List.filter_append_perm (fun entry : String × Json => (arrayIndex entry.1).isSome) entries

section Canonical
variable (localeLe : String → String → Bool)

mutual
/-- Canonicalizing a value only permutes keys. -/
theorem canonicalize_same (v : Json) : Same v (v.canonicalize localeLe) := by
  cases v with
  | arr items =>
    rw [canonicalize]
    exact canonicalizeItems_same [] items
  | obj properties =>
    rw [canonicalize]
    refine (canonicalizeEntries_same [] properties).trans (.keys ?_)
    exact ((fromEntries_perm _).trans (List.perm_insertionSort _ _)).symm
  | _ =>
    rw [canonicalize]
    · exact .refl _
    all_goals exact nofun

theorem canonicalizeItems_same (before items : List Json) :
    Same (.arr (before ++ items)) (.arr (before ++ canonicalizeItems localeLe items)) := by
  cases items with
  | nil => exact .refl _
  | cons value items =>
    rw [canonicalizeItems]
    refine (Same.item before items (canonicalize_same value)).trans ?_
    simpa using canonicalizeItems_same (before ++ [value.canonicalize localeLe]) items

theorem canonicalizeEntries_same (before entries : JsonObject) :
    Same (.obj (before ++ entries)) (.obj (before ++ canonicalizeEntries localeLe entries)) := by
  match entries with
  | [] => exact .refl _
  | (key, value) :: entries =>
    rw [canonicalizeEntries]
    refine (Same.property before entries key (canonicalize_same value)).trans ?_
    simpa using canonicalizeEntries_same (before ++ [(key, value.canonicalize localeLe)]) entries
end

end Canonical

end Json

end Canals
