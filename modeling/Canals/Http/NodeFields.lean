import Canals.Http.DeepRedactionSpec

/-! Plain objects, arrays and Errors by their fields: what a write to a clone changes, what
stands for each field in a copy, and the same node with other addresses in it. -/
namespace Canals.Redaction

variable {A B : Type}

/-- Where an object may hold a value: under a key or at an index. -/
inductive Field where
  | property (key : String)
  | item (i : Nat)
  deriving DecidableEq

def Node.get (node : Node A) : Field → Option (Value A)
  | .property key => node.property key
  | .item i => node.item i

inductive Kind where
  | plain
  | array
  | error

def Node.kind : Node A → Kind
  | .plain _ => .plain
  | .array _ => .array
  | .error .. => .error

/-- What an object is cloned to. -/
def Kind.copy : Kind → Kind
  | .array => .array
  | _ => .plain

@[simp] theorem assign_kind (node : Node A) (key : String) (value : Value A) :
    (node.assign key value).kind = node.kind := by
  cases node <;> rfl

@[simp] theorem push_kind (node : Node A) (value : Value A) :
    (node.push value).kind = node.kind := by
  cases node <;> rfl

@[simp] theorem copy_kind (node : Node A) : node.copy.kind = node.kind.copy := by
  cases node <;> rfl

/-- Only one field of the node is written. -/
def Written (node written : Node A) (field : Field) (value : Value A) : Prop :=
  ∀ other, written.get other = if other = field then some value else node.get other

theorem assign_written {node : Node A} (plain : node.kind = .plain) (key : String)
    (value : Value A) : Written node (node.assign key value) (.property key) value := by
  cases node with
  | plain entries =>
    intro other
    cases other with
    | item i => simp [Node.get, Node.assign, Node.item]
    | property other =>
      by_cases same : other = key
      · subst same
        simp [Node.get, Node.assign, Node.property]
      · simp [Node.get, Node.assign, Node.property, same]
  | _ => cases plain

theorem push_written {items : List (Value A)} (value : Value A) :
    Written (.array items) (Node.push (.array items) value) (.item items.length) value := by
  intro other
  cases other with
  | property key => simp [Node.get, Node.push, Node.property]
  | item i =>
    simp only [Node.get, Node.push, Node.item, Field.item.injEq]
    split
    · rename_i same
      rw [same, List.getElem?_concat_length]
    · rename_i other
      by_cases inside : i < items.length
      · rw [List.getElem?_append_left inside]
      · have outside : items.length < i := by omega
        rw [List.getElem?_eq_none (by simp; omega), List.getElem?_eq_none (by omega)]

/-- Each object put in the place of an address. -/
def Value.bind (at_ : A → Value B) : Value A → Value B
  | .object a => at_ a
  | .undefined => .undefined
  | .null => .null
  | .boolean b => .boolean b
  | .number printed => .number printed
  | .bigint i => .bigint i
  | .symbol id => .symbol id
  | .text s => .text s
  | .date time => .date time

def Entries.bind (at_ : A → Value B) (entries : Entries A) : Entries B :=
  ⟨entries.entries.map (.map id fun _ => Value.bind at_), entries.nodupKeys.map₂ _ _⟩

def Node.bind (at_ : A → Value B) : Node A → Node B
  | .plain entries => .plain (entries.bind at_)
  | .array items => .array (items.map (Value.bind at_))
  | .error name message stack entries => .error name message stack (entries.bind at_)

variable (at_ : A → Value B)

@[simp] theorem bind_kind (node : Node A) : (node.bind at_).kind = node.kind := by
  cases node <;> rfl

@[simp] theorem Entries.lookup_bind (entries : Entries A) (key : String) :
    (entries.bind at_).lookup key = (entries.lookup key).map (Value.bind at_) :=
  List.dlookup_map₂ key

@[simp] theorem get_bind (node : Node A) (field : Field) :
    (node.bind at_).get field = (node.get field).map (Value.bind at_) := by
  cases field with
  | property key =>
    cases node with
    | array items => rfl
    | _ => exact Entries.lookup_bind at_ _ key
  | item i =>
    cases node with
    | array items => exact List.getElem?_map ..
    | _ => rfl

theorem copy_date {value : Value A} {time : Option Int} (same : value.copy = .date time) :
    value = .date time := by
  cases value with
  | date _ => exact same
  | _ => cases same

/-- What stands for a value at a field of a node. -/
def Node.copyAt (node : Node A) : Field → Value A → Value A
  | .property key, value => node.propertyCopy key value
  | .item _, value => value.copy

theorem copy_get {node : Node A} {field : Field} {value : Value A}
    (here : node.get field = some value) :
    node.copy.get field = some (node.copyAt field value) := by
  cases field with
  | property key => exact copy_property here
  | item i => exact copy_item here

theorem lookup_errorClone (name message : String) (stack : Option String) (key : String) :
    (errorClone name message stack : Entries A).lookup key =
      if key = "stack" then some (stack.elim .undefined fun stack => .text (redact stack))
      else if key = "message" then some (.text (redact message))
      else if key = "name" then some (.text name) else none := by
  unfold errorClone
  by_cases isStack : key = "stack"
  · subst isStack
    rw [AList.lookup_insert, if_pos rfl]
    cases stack <;> rfl
  · rw [AList.lookup_insert_ne isStack, if_neg isStack]
    by_cases isMessage : key = "message"
    · subst isMessage
      rw [AList.lookup_insert, if_pos rfl]
    · rw [AList.lookup_insert_ne isMessage, if_neg isMessage]
      by_cases isName : key = "name"
      · subst isName
        rw [AList.lookup_insert, if_pos rfl]
      · rw [AList.lookup_insert_ne isName, if_neg isName, AList.lookup_empty]

/-- What stands in a clone before a field is walked. -/
def Node.start : Node A → Node A
  | .plain _ => .plain ∅
  | .array _ => .array []
  | .error name message stack _ => .plain (errorClone name message stack)

theorem copy_get_none {node : Node A} {field : Field} (none_ : node.get field = none) :
    node.copy.get field = node.start.get field := by
  cases field with
  | property key =>
    cases node with
    | array items => rfl
    | plain entries =>
      exact lookup_foldl_absent (AList.lookup_eq_none.mp none_) ∅
    | error name message stack entries =>
      exact @lookup_foldl_absent A (fun _ => Value.copy) key _ (AList.lookup_eq_none.mp none_) _
  | item i =>
    cases node with
    | array items =>
      refine (List.getElem?_map ..).trans ?_
      rw [show items[i]? = none from none_]
      rfl
    | _ => rfl

theorem start_get {node : Node A} {field : Field} {value : Value A}
    (here : node.start.get field = some value) :
    value = .undefined ∨ ∃ s, value = .text s := by
  cases node with
  | plain entries => cases field <;> cases here
  | array items => cases field <;> cases here
  | error name message stack entries =>
    cases field with
    | item i => cases here
    | property key =>
      have found := (lookup_errorClone name message stack key).symm.trans here
      split at found
      · cases stack with
        | none => exact .inl (Option.some.inj found).symm
        | some stack => exact .inr ⟨_, (Option.some.inj found).symm⟩
      · split at found
        · exact .inr ⟨_, (Option.some.inj found).symm⟩
        · split at found
          · exact .inr ⟨_, (Option.some.inj found).symm⟩
          · cases found

theorem copyAt_object {node : Node A} {field : Field} {value : Value A} {b : A}
    (here : node.get field = some value) (same : node.copyAt field value = .object b) :
    node.refers b := by
  cases field with
  | property key => exact (propertyCopy_object here same).2
  | item i =>
    cases node with
    | array items =>
      obtain rfl := copy_object same
      exact List.mem_of_getElem? here
    | _ => cases here

theorem Replaced.bind {key : String} {value : Value A} (replaced : Replaced key value) :
    Replaced key (value.bind at_) := by
  rcases replaced with secret | ⟨masked, raw, rfl⟩
  · exact .inl secret
  · exact .inr ⟨masked, raw, rfl⟩

theorem fieldCopy_replaced {key : String} {value : Value A} (replaced : Replaced key value) :
    ∃ s, fieldCopy key value = .text s ∧ fieldCopy key (value.bind at_) = .text s := by
  rcases replaced with secret | ⟨masked, raw, rfl⟩
  · exact ⟨_, fieldCopy_secret secret, fieldCopy_secret secret⟩
  · exact ⟨_, (fieldCopy_card masked).1 raw rfl, (fieldCopy_card masked).1 raw rfl⟩

end Canals.Redaction
