import Canals.Http.DeepRedaction

/-! `redact` over the objects themselves: clones are allocated behind the input, `seen` knows
where they stand, and a Date is an object of its own that `seen` does not know. -/
namespace Canals.Redaction

/-- No Date without a place in the heap, and no object outside of it. -/
def Value.Within (size : Nat) : Value Nat → Prop
  | .object a => a < size
  | .date _ => False
  | _ => True

def Node.Within (size : Nat) : Node Nat → Prop
  | .array items => ∀ item ∈ items, item.Within size
  | .plain entries => ∀ entry ∈ entries.entries, entry.2.Within size
  | .error _ _ _ entries => ∀ entry ∈ entries.entries, entry.2.Within size

namespace Heap

/-- What stands at an address. -/
inductive Cell where
  | node (object : Node Nat)
  | date (time : Option Int)

def Cell.Within (size : Nat) : Cell → Prop
  | .node object => object.Within size
  | .date _ => True

def Cell.change (change : Node Nat → Node Nat) : Cell → Cell
  | .node object => .node (change object)
  | .date time => .date time

/-- The heap, and the `WeakMap` of one call. -/
structure Store where
  cells : List Cell
  seen : Nat → Option Nat

namespace Store

/-- A new object and its address. -/
def alloc (store : Store) (cell : Cell) : Nat × Store :=
  (store.cells.length, { store with cells := store.cells ++ [cell] })

/-- `seen.set(a, clone)` -/
def record (store : Store) (a clone : Nat) : Store :=
  { store with seen := Function.update store.seen a (some clone) }

/-- `clone[key] = value` and `clone.push(value)` -/
def write (store : Store) (clone : Nat) (change : Node Nat → Node Nat) : Store :=
  { store with cells := store.cells.modify clone (Cell.change change) }

end Store

section Walkers

abbrev Walk := Value Nat → Store → Option (Value Nat × Store)

variable (walk : Walk)

def errorField (clone : Nat) (store : Store) (entry : Sigma fun _ : String => Value Nat) :
    Option Store := do
  let (value, store) ← walk entry.2 store
  return store.write clone (·.assign entry.1 value)

def redactError (error : Nat) (name message : String) (stack : Option String)
    (entries : Entries Nat) (store : Store) : Option (Value Nat × Store) := do
  let (clone, store) := store.alloc (.node (.plain (errorClone name message stack)))
  let store := store.record error clone
  let store ← entries.entries.foldlM (errorField walk clone) store
  return (.object clone, store)

def arrayItem (clone : Nat) (store : Store) (item : Value Nat) : Option Store := do
  let (value, store) ← walk item store
  return store.write clone (·.push value)

def redactArray (array : Nat) (items : List (Value Nat)) (store : Store) :
    Option (Value Nat × Store) := do
  let (clone, store) := store.alloc (.node (.array []))
  let store := store.record array clone
  let store ← items.foldlM (arrayItem walk clone) store
  return (.object clone, store)

def objectField (clone : Nat) (store : Store) (entry : Sigma fun _ : String => Value Nat) :
    Option Store :=
  if REDACTED_KEY_PATTERN entry.1 then
    return store.write clone (·.assign entry.1 (.text (String.ofList REDACTED_SECRET)))
  else
    match MASKED_KEY_PATTERN entry.1, entry.2 with
    | true, .text raw => return store.write clone (·.assign entry.1 (.text (maskCardValue raw)))
    | _, fieldValue => do
      let (value, store) ← walk fieldValue store
      return store.write clone (·.assign entry.1 value)

def redactObject (object : Nat) (entries : Entries Nat) (store : Store) :
    Option (Value Nat × Store) := do
  let (clone, store) := store.alloc (.node (.plain ∅))
  let store := store.record object clone
  let store ← entries.entries.foldlM (objectField walk clone) store
  return (.object clone, store)

/-- The fuel bounds how deep the walkers may call each other. -/
def redactValue : Nat → Walk
  | fuel, value, store =>
    match value with
    | .text s => some (.text (redact s), store)
    | .object a =>
      match store.seen a, store.cells[a]? with
      | some clone, _ => some (.object clone, store)
      | none, none => none
      | none, some (.date time) =>
        let (clone, store) := store.alloc (.date time)
        some (.object clone, store)
      | none, some (.node node) =>
        match fuel with
        | 0 => none
        | fuel + 1 =>
          match node with
          | .error name message stack entries =>
            redactError (redactValue fuel) a name message stack entries store
          | .array items => redactArray (redactValue fuel) a items store
          | .plain entries => redactObject (redactValue fuel) a entries store
    | value => some (value, store)

end Walkers

/-- A finite heap and a value in it. -/
structure Input where
  cells : List Cell
  value : Value Nat
  closed : ∀ cell ∈ cells, cell.Within cells.length
  within : value.Within cells.length

/-- `redact(input)`: the output and the heap with all that was made for it. -/
def redactInput (input : Input) : Option (Value Nat × Store) :=
  redactValue input.cells.length input.value ⟨input.cells, fun _ => none⟩

end Heap

end Canals.Redaction
