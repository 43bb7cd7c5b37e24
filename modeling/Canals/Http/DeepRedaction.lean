import Canals.Graph.DeepCopy
import Canals.Http.Redaction
import Mathlib.Data.List.AList

/-! `redact` of any value: the walkers over plain objects, arrays and Errors, which may be
shared or refer to each other in a circle. What `seen` knows is the heap of the clones. -/
namespace Canals.Redaction
open DeepCopy

/-- A value; objects by their place in the heap. A number is known by how it prints. -/
inductive Value (A : Type) where
  | undefined
  | null
  | boolean (b : Bool)
  | number (printed : String)
  | bigint (i : Int)
  | symbol (id : Nat)
  | text (s : String)
  | date (time : Option Int)
  | object (at_ : A)
  deriving DecidableEq

/-- The own enumerable properties with string keys. An own `__proto__` is one of them. -/
abbrev Entries (A : Type) := AList fun _ : String => Value A

/-- What stands in the heap. The name, message and stack of an Error are not enumerable. -/
inductive Node (A : Type) where
  | plain (entries : Entries A)
  | array (items : List (Value A))
  | error (name message : String) (stack : Option String) (entries : Entries A)

section Rules

def lowered (key : String) : List Char := key.toList.map Char.toLower

/-- `/^(card_?number|pan)$/i` -/
def MASKED_KEY_PATTERN (key : String) : Bool :=
  lowered key ∈ ["cardnumber".toList, "card_number".toList, "pan".toList]

/-- `/^api_?key$/i` -/
def REDACTED_KEY_PATTERN (key : String) : Bool :=
  lowered key ∈ ["apikey".toList, "api_key".toList]

/-- Masks a value already known to be a card number, Luhn or not. -/
def maskCardValue (raw : String) : String :=
  let digits := raw.toList.filter isDigit
  if digits.length = 0 then raw else String.ofList (plain.maskDigits digits)

end Rules

section Walkers
variable {A : Type} [DecidableEq A]

/-- `seen`, and with it what the clones hold. -/
abbrev Clones (A : Type) := Copies A (Node A)

/-- The walk of a value gives what stands for it. -/
abbrev Walk (A : Type) := Value A → Clones A → Option (Value A × Clones A)

def Node.assign : Node A → String → Value A → Node A
  | .plain entries, key, value => .plain (entries.insert key value)
  | node, _, _ => node

def Node.push : Node A → Value A → Node A
  | .array items, value => .array (items ++ [value])
  | node, _ => node

/-- `clone[key] = value` -/
def assign (clones : Clones A) (a : A) (key : String) (value : Value A) : Option (Clones A) :=
  (clones a).map fun node => put clones a (node.assign key value)

/-- `clone.push(value)` -/
def push (clones : Clones A) (a : A) (value : Value A) : Option (Clones A) :=
  (clones a).map fun node => put clones a (node.push value)

/-- The clone of an Error before its own properties are walked. -/
def errorClone (name message : String) (stack : Option String) : Entries A :=
  (((∅ : Entries A).insert "name" (.text name)).insert "message"
    (.text (redact message))).insert "stack"
      (match stack with
        | none => .undefined
        | some stack => .text (redact stack))

variable (walk : Walk A) (a : A)

def errorField (clones : Clones A) (entry : Sigma fun _ : String => Value A) :
    Option (Clones A) := do
  let (value, clones) ← walk entry.2 clones
  assign clones a entry.1 value

def redactError (name message : String) (stack : Option String) (entries : Entries A)
    (seen : Clones A) : Option (Value A × Clones A) := do
  let seen := put seen a (.plain (errorClone name message stack))
  let clones ← entries.entries.foldlM (errorField walk a) seen
  return (.object a, clones)

def arrayItem (clones : Clones A) (item : Value A) : Option (Clones A) := do
  let (value, clones) ← walk item clones
  push clones a value

def redactArray (items : List (Value A)) (seen : Clones A) : Option (Value A × Clones A) := do
  let clones ← items.foldlM (arrayItem walk a) (put seen a (.array []))
  return (.object a, clones)

def objectField (clones : Clones A) (entry : Sigma fun _ : String => Value A) :
    Option (Clones A) :=
  if REDACTED_KEY_PATTERN entry.1 then
    assign clones a entry.1 (.text (String.ofList REDACTED_SECRET))
  else
    match MASKED_KEY_PATTERN entry.1, entry.2 with
    | true, .text raw => assign clones a entry.1 (.text (maskCardValue raw))
    | _, fieldValue => do
      let (value, clones) ← walk fieldValue clones
      assign clones a entry.1 value

def redactObject (entries : Entries A) (seen : Clones A) : Option (Value A × Clones A) := do
  let clones ← entries.entries.foldlM (objectField walk a) (put seen a (.plain ∅))
  return (.object a, clones)

/-- The fuel bounds how deep the walkers may call each other. -/
def redactValue (heap : A → Node A) : Nat → Walk A
  | fuel, value, seen =>
    match value with
    | .text s => some (.text (redact s), seen)
    | .object a =>
      if (seen a).isSome then some (.object a, seen)
      else
        match fuel with
        | 0 => none
        | fuel + 1 =>
          match heap a with
          | .error name message stack entries =>
            redactError (redactValue heap fuel) a name message stack entries seen
          | .array items => redactArray (redactValue heap fuel) a items seen
          | .plain entries => redactObject (redactValue heap fuel) a entries seen
    | value => some (value, seen)

/-- `redact(input)`: the output and the objects made for it. -/
def redactInput [Fintype A] (heap : A → Node A) (input : Value A) :
    Option (Value A × Clones A) :=
  redactValue heap (Fintype.card A) input fun _ => none

end Walkers

end Canals.Redaction
