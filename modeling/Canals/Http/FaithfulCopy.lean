import Canals.Http.HeapRedactionSpec

/-! What `redact` gives back is a copy of the graph it got: the same path of fields leads to
an object and to its clone, one clone for each object however many paths lead there, but one
Date for each place of a Date. -/
namespace Canals.Redaction

namespace Heap

/-- Where a reference stands: it is handed to `redact`, or is a field of an object. -/
inductive Place where
  | root
  | field (a : Nat) (field : Field)

/-- The same path of fields leads to a place of the input, and what the input and the output
have there. -/
inductive Across (input : Input) (output : Value Nat) (store : Store) :
    Place → Value Nat → Value Nat → Prop
  | root : Across input output store .root input.value output
  | field {place : Place} {a b : Nat} {node clone : Node Nat} {f : Field} {value out : Value Nat} :
      Across input output store place (.object a) (.object b) →
      input.cells[a]? = some (.node node) → store.cells[b]? = some (.node clone) →
      node.get f = some value → clone.get f = some out →
      Across input output store (.field a f) value out

/-- A value that the key rules replace: it stands under its key in a plain object. -/
def Place.Replaces (input : Input) (value : Value Nat) : Place → Prop
  | .field a (.property key) => Replaced key value ∧
      ∃ entries, input.cells[a]? = some (.node (.plain entries))
  | _ => False

/-- The objects that a value leads to. -/
inductive Reaches (cells : List Cell) (value : Value Nat) : Nat → Prop
  | root {a : Nat} : value = .object a → Reaches cells value a
  | field {a b : Nat} {node : Node Nat} {f : Field} : Reaches cells value a →
      cells[a]? = some (.node node) → node.get f = some (.object b) → Reaches cells value b

/-- The clone of an array has its length and the clone of a plain object its keys. That of an
Error has what is pulled out of the Error besides, where the Error has no such key itself. -/
def Cell.Cloned : Cell → Cell → Prop
  | .date time, .date time' => time' = time
  | .node (.array items), .node (.array items') => items'.length = items.length
  | .node (.plain entries), .node (.plain entries') => ∀ key, key ∈ entries' ↔ key ∈ entries
  | .node (.error name message stack entries), .node (.plain entries') =>
    (∀ key ∈ entries, key ∈ entries') ∧ ∀ key, key ∉ entries →
      entries'.lookup key = (errorClone name message stack).lookup key
  | _, _ => False

def IsDate (input : Input) (a : Nat) : Prop := ∃ time, input.cells[a]? = some (.date time)

/-- The output is a copy of the input on objects of its own. -/
structure Faithful (input : Input) (output : Value Nat) (store : Store) : Prop where
  /-- The input is left as it was. -/
  unchanged : input.cells <+: store.cells
  /-- No object of the output belongs to the input. -/
  fresh : ∀ b, Reaches store.cells output b → input.cells.length ≤ b
  /-- Two references of the output lead to one object just when those of the input do, and
  it is no Date. -/
  sharing : ∀ p q a a' b b', Across input output store p (.object a) (.object b) →
    Across input output store q (.object a') (.object b') →
      (b = b' ↔ a = a' ∧ (p = q ∨ ¬ IsDate input a))
  /-- Each object that is not replaced has its clone in the same place. -/
  objects : ∀ p a out, Across input output store p (.object a) out →
    ¬ p.Replaces input (.object a) → ∃ b cell clone, out = .object b ∧
      input.cells[a]? = some cell ∧ store.cells[b]? = some clone ∧ cell.Cloned clone
  /-- Each other value that is not replaced has its copy in the same place. -/
  scalars : ∀ p value out, Across input output store p value out → ¬ p.Replaces input value →
    (∀ a, value ≠ .object a) → out = value.copy
  /-- The output has no other objects. -/
  origin : ∀ b, Reaches store.cells output b →
    ∃ p a, Across input output store p (.object a) (.object b)

section Copies
variable {input : Input} {store : Store} {output : Value Nat}
  {clones : Clones (Fin input.cells.length)}

/-- The input as the walk over values has it. -/
abbrev Input.read (input : Input) (value : Value Nat) : Value (Fin input.cells.length) :=
  value.bind (target input.cells)

theorem read_object {value : Value Nat} {a : Fin input.cells.length}
    (same : input.read value = .object a) :
    value = .object a ∧ ∃ node, input.cells[a.val]? = some (.node node) := by
  cases value with
  | object b =>
    simp only [Input.read, Value.bind, target] at same
    split at same
    · rename_i inside
      split at same
      · rename_i node here
        cases same
        exact ⟨rfl, node, List.getElem?_eq_some_iff.mpr ⟨inside, here⟩⟩
      · cases same
    · cases same
  | _ => cases same

theorem read_date {value : Value Nat} {time : Option Int}
    (within : value.Within input.cells.length) (same : input.read value = .date time) :
    ∃ a, value = .object a ∧ input.cells[a]? = some (.date time) := by
  cases value with
  | object b =>
    simp only [Input.read, Value.bind, target] at same
    split at same
    · rename_i inside
      split at same
      · cases same
      · rename_i here
        cases same
        exact ⟨b, rfl, List.getElem?_eq_some_iff.mpr ⟨inside, here⟩⟩
    · cases same
  | date _ => exact within.elim
  | _ => cases same

theorem within_get {size : Nat} {node : Node Nat} {field : Field} {value : Value Nat}
    (within : node.Within size) (here : node.get field = some value) : value.Within size := by
  cases field with
  | property key =>
    cases node with
    | plain entries => exact within _ (AList.mem_lookup_iff.mp here)
    | array items => cases here
    | error name message stack entries => exact within _ (AList.mem_lookup_iff.mp here)
  | item i =>
    cases node with
    | array items => exact within value (List.mem_of_getElem? here)
    | _ => cases here

/-- Only the key rules put something else than the copy in a place. -/
theorem copyAt_read {a : Nat} {node : Node Nat} {f : Field} {value : Value Nat}
    (object : input.cells[a]? = some (.node node)) (here : node.get f = some value) :
    (Place.Replaces input value (.field a f) ∧ ∃ s,
      (node.bind (target input.cells)).copyAt f (input.read value) = .text s) ∨
    (¬ Place.Replaces input value (.field a f) ∧
      (node.bind (target input.cells)).copyAt f (input.read value) = (input.read value).copy) := by
  cases f with
  | item i => exact .inr ⟨id, rfl⟩
  | property key =>
    have unreplaced : (∀ entries, node ≠ .plain entries) →
        ¬ Place.Replaces input value (.field a (.property key)) := by
      rintro other ⟨_, entries, plain⟩
      cases object.symm.trans plain
      exact other entries rfl
    cases node with
    | array items => cases here
    | error name message stack entries => exact .inr ⟨unreplaced (by rintro _ ⟨⟩), rfl⟩
    | plain entries =>
      by_cases replaced : Replaced key value
      · obtain ⟨s, _, text⟩ := fieldCopy_replaced (target input.cells) replaced
        exact .inl ⟨⟨replaced, entries, object⟩, s, text⟩
      · refine .inr ⟨fun replaces => replaced replaces.1, ?_⟩
        exact fieldCopy_open (mt replaced_target.mp replaced)

/-- A field of an object is a field of its clone. -/
theorem shown_some {node shown : Node Nat} {f : Field} {value : Value Nat}
    (whole : Shown store (node.bind (target input.cells)).copy shown)
    (here : node.get f = some value) : ∃ out, shown.get f = some out := by
  have own : (node.bind (target input.cells)).get f = some (input.read value) := by
    rw [get_bind, here]
    rfl
  have shows_ := whole.fields f
  rw [copy_get own] at shows_
  generalize shown.get f = found at shows_
  cases shows_ with
  | @some _ out _ => exact ⟨out, rfl⟩

/-- Where an object has no field its clone has what the walk began with. -/
theorem shown_none {node shown start : Node Nat} {f : Field}
    (whole : Shown store (node.bind (target input.cells)).copy shown)
    (begun : Begun (node.bind (target input.cells)).start start) (none_ : node.get f = none) :
    shown.get f = start.get f := by
  have own : (node.bind (target input.cells)).get f = none := by
    rw [get_bind, none_]
    rfl
  have shows_ := whole.fields f
  have first := begun.fields f
  rw [copy_get_none own] at shows_
  generalize (node.bind (target input.cells)).start.get f = value, shown.get f = out,
    start.get f = begun at shows_ first ⊢
  cases shows_ with
  | none =>
    cases first
    rfl
  | some shows_ =>
    cases first with
    | some flat =>
      rcases flat with ⟨rfl, rfl⟩ | ⟨s, rfl, rfl⟩
      · rw [show _ = Value.undefined from shows_]
      · rw [show _ = Value.text s from shows_]

theorem cloned_of_shown {node shown : Node Nat}
    (whole : Shown store (node.bind (target input.cells)).copy shown) :
    Cell.Cloned (.node node) (.node shown) := by
  have kind : shown.kind = node.kind.copy := by
    rw [whole.kind, copy_kind, bind_kind]
  cases node with
  | array items =>
    cases shown with
    | array shownItems =>
      have length := whole.length
      rw [List.length_map, List.length_map] at length
      exact length.symm
    | _ => cases kind
  | plain entries =>
    cases shown with
    | plain shownEntries =>
      intro key
      cases here : entries.lookup key with
      | none =>
        have absent := shown_none (f := .property key) whole begun_plain here
        have outside : key ∉ shownEntries := AList.lookup_eq_none.mp absent
        simp [outside, AList.lookup_eq_none.mp here]
      | some value =>
        obtain ⟨out, found⟩ := shown_some (f := .property key) whole here
        have inside : key ∈ shownEntries := AList.lookup_isSome.mp (Option.isSome_of_eq_some found)
        simp [inside, AList.lookup_isSome.mp (Option.isSome_of_eq_some here)]
    | _ => cases kind
  | error name message stack entries =>
    cases shown with
    | plain shownEntries =>
      constructor
      · intro key member
        obtain ⟨value, here⟩ := Option.isSome_iff_exists.mp (AList.lookup_isSome.mpr member)
        obtain ⟨out, found⟩ := shown_some (f := .property key) whole here
        exact AList.lookup_isSome.mp (Option.isSome_of_eq_some found)
      · intro key absent
        exact shown_none (f := .property key) whole (begun_error name message stack)
          (AList.lookup_eq_none.mpr absent)
    | _ => cases kind

/-- The clone of an object that is walked. -/
structure Clone (input : Input) (store : Store) (a : Fin input.cells.length) (b : Nat)
    (shown : Node Nat) : Prop where
  seen : store.seen a = some b
  behind : input.cells.length ≤ b
  there : store.cells[b]? = some (.node shown)
  whole : Shown store (input.heap a).copy shown

/-- All that is walked has its clone, and the output is that of the input. -/
structure Redacted (input : Input) (output : Value Nat) (store : Store)
    (clones : Clones (Fin input.cells.length)) : Prop where
  tracks : Tracks input store clones
  shows_ : Shows store (input.read input.value).copy output
  unheld : Unheld store output
  copied : ∀ a, Walked input.heap (input.read input.value) a → clones a = some (input.heap a).copy

/-- An object of the output, for an object of the input or for a Date. -/
inductive Linked (input : Input) (store : Store) (a b : Nat) : Prop
  | object {inside : a < input.cells.length} {node shown : Node Nat} :
      input.cells[a]? = some (.node node) →
      Walked input.heap (input.read input.value) ⟨a, inside⟩ →
      Clone input store ⟨a, inside⟩ b shown → Linked input store a b
  | date {time : Option Int} : input.cells[a]? = some (.date time) →
      input.cells.length ≤ b → store.cells[b]? = some (.date time) → Linked input store a b

variable (redacted : Redacted input output store clones)
include redacted

theorem Redacted.clone {a : Fin input.cells.length}
    (walked : Walked input.heap (input.read input.value) a) :
    ∃ b shown, Clone input store a b shown := by
  have copied := redacted.copied a walked
  obtain ⟨b, seen⟩ := Option.ne_none_iff_exists'.mp
    (redacted.tracks.known a (by simp [copied]))
  obtain ⟨_, node, shown, same, behind, there, whole⟩ := redacted.tracks.made a b seen
  cases same.symm.trans copied
  exact ⟨b, shown, seen, behind, there, whole⟩

theorem Redacted.clone_eq {a : Fin input.cells.length} {b : Nat}
    (walked : Walked input.heap (input.read input.value) a) (seen : store.seen a = some b) :
    ∃ shown, Clone input store a b shown := by
  obtain ⟨b', shown, clone⟩ := redacted.clone walked
  cases seen.symm.trans clone.seen
  exact ⟨shown, clone⟩

/-- What stands in a place of the output: the text of a key rule, or what shows the copy. -/
theorem Redacted.across {place : Place} {value out : Value Nat}
    (across : Across input output store place value out) : value.Within input.cells.length ∧
      ((place.Replaces input value ∧ ∃ s, out = .text s) ∨
        (Shows store (input.read value).copy out ∧
          ∀ a, input.read value = .object a → Walked input.heap (input.read input.value) a)) := by
  induction across with
  | root => exact ⟨input.within, .inr ⟨redacted.shows_, fun a same => ⟨a, same, .refl⟩⟩⟩
  | @field place a b node clone f value out parent object there here found ih =>
    obtain ⟨_, ⟨_, _, ⟨⟩⟩ | ⟨parentShows, parentWalked⟩⟩ := ih
    obtain ⟨inside, same, heap⟩ := target_node object
    have walked := parentWalked ⟨a, inside⟩ same
    rw [Input.read, Value.bind, same] at parentShows
    obtain ⟨_, seen, ⟨⟩⟩ := parentShows
    obtain ⟨shown, made⟩ := redacted.clone_eq walked seen
    cases there.symm.trans made.there
    have own : (input.heap ⟨a, inside⟩).get f = some (input.read value) := by
      rw [heap, get_bind, here]
      rfl
    have shows_ := made.whole.fields f
    rw [found, copy_get own, Option.rel_some_some] at shows_
    have within : value.Within input.cells.length :=
      within_get (input.closed (.node node) (List.mem_of_getElem? object)) here
    refine ⟨within, ?_⟩
    rcases copyAt_read object here with ⟨replaces, s, text⟩ | ⟨_, copy⟩
    · rw [heap, text] at shows_
      exact .inl ⟨replaces, s, shows_⟩
    · rw [← heap] at copy
      rw [copy] at shows_
      refine .inr ⟨shows_, ?_⟩
      intro c object
      rw [object] at own copy
      exact walked_step walked (copyAt_object own copy)

theorem Redacted.linked {place : Place} {value : Value Nat} {b : Nat}
    (across : Across input output store place value (.object b)) :
    ∃ a, value = .object a ∧ Linked input store a b := by
  obtain ⟨within, ⟨_, _, ⟨⟩⟩ | ⟨shows_, walked⟩⟩ := redacted.across across
  rcases shows_object shows_ with ⟨a, copy, seen⟩ | ⟨time, copy, behind, there⟩
  · have same := copy_object copy
    obtain ⟨rfl, node, object⟩ := read_object same
    obtain ⟨shown, clone⟩ := redacted.clone_eq (walked a same) seen
    exact ⟨a, rfl, .object object (walked a same) clone⟩
  · obtain ⟨a, rfl, date⟩ := read_date within (copy_date copy)
    exact ⟨a, rfl, .date date behind there⟩

theorem Redacted.linked_object {place : Place} {a b : Nat}
    (across : Across input output store place (.object a) (.object b)) :
    Linked input store a b := by
  obtain ⟨_, ⟨⟩, linked⟩ := redacted.linked across
  exact linked

/-- The field of an object lies across the same field of its clone. -/
theorem Redacted.field {a : Nat} {f : Field} {value out : Value Nat}
    (across : Across input output store (.field a f) value out) : ∃ node b shown,
      input.cells[a]? = some (.node node) ∧ node.get f = some value ∧ store.seen a = some b ∧
        store.cells[b]? = some (.node shown) ∧ shown.get f = some out := by
  cases across with
  | @field _ _ b node shown _ _ _ parent object there here found =>
    cases redacted.linked_object parent with
    | object _ _ clone => exact ⟨node, b, shown, object, here, clone.seen, there, found⟩
    | date date _ _ => cases object.symm.trans date

theorem Redacted.determined {place : Place} {value out value' out' : Value Nat}
    (across : Across input output store place value out)
    (across' : Across input output store place value' out') : value = value' ∧ out = out' := by
  cases place with
  | root =>
    cases across
    cases across'
    exact ⟨rfl, rfl⟩
  | field a f =>
    obtain ⟨node, b, shown, object, here, seen, there, found⟩ := redacted.field across
    obtain ⟨node', b', shown', object', here', seen', there', found'⟩ := redacted.field across'
    cases object.symm.trans object'
    cases seen.symm.trans seen'
    cases there.symm.trans there'
    exact ⟨Option.some.inj (here.symm.trans here'), Option.some.inj (found.symm.trans found')⟩

/-- A Date of the output stands in one place. -/
theorem Redacted.date_once {p q : Place} {a a' b : Nat} {time : Option Int}
    (date : store.cells[b]? = some (.date time))
    (across : Across input output store p (.object a) (.object b))
    (across' : Across input output store q (.object a') (.object b)) : p = q := by
  have holds : ∀ {a f value}, Across input output store (.field a f) value (.object b) →
      Holds store a f b := by
    intro a f value across
    obtain ⟨_, clone, shown, _, _, seen, there, found⟩ := redacted.field across
    exact ⟨clone, shown, seen, there, found⟩
  have root : ∀ {value}, Across input output store .root value (.object b) →
      ∀ a f, ¬ Holds store a f b := by
    intro value across
    generalize same : (Value.object b : Value Nat) = out at across
    cases across
    exact redacted.unheld b time same.symm date
  cases p with
  | root =>
    cases q with
    | root => rfl
    | field a' f' => exact (root across a' f' (holds across')).elim
  | field a f =>
    cases q with
    | root => exact (root across' a f (holds across)).elim
    | field a' f' =>
      obtain ⟨rfl, rfl⟩ := redacted.tracks.once a a' f f' b time (holds across) (holds across') date
      rfl

theorem Redacted.sharing {p q : Place} {a a' b b' : Nat}
    (across : Across input output store p (.object a) (.object b))
    (across' : Across input output store q (.object a') (.object b')) :
    b = b' ↔ a = a' ∧ (p = q ∨ ¬ IsDate input a) := by
  have linked := redacted.linked_object across
  have linked' := redacted.linked_object across'
  constructor
  · rintro rfl
    cases linked with
    | object object _ clone =>
      cases linked' with
      | object _ _ clone' =>
        refine ⟨redacted.tracks.apart a a' b clone.seen clone'.seen, .inr ?_⟩
        rintro ⟨time, date⟩
        cases object.symm.trans date
      | date _ _ there => cases clone.there.symm.trans there
    | date _ _ there =>
      cases linked' with
      | object _ _ clone' => cases clone'.there.symm.trans there
      | date _ _ _ =>
        obtain rfl := redacted.date_once there across across'
        obtain ⟨same, _⟩ := redacted.determined across across'
        exact ⟨Value.object.inj same, .inl rfl⟩
  · rintro ⟨rfl, rfl | other⟩
    · exact Value.object.inj (redacted.determined across across').2
    · cases linked with
      | date date _ _ => exact (other ⟨_, date⟩).elim
      | object _ _ clone =>
        cases linked' with
        | date date _ _ => exact (other ⟨_, date⟩).elim
        | object _ _ clone' => exact Option.some.inj (clone.seen.symm.trans clone'.seen)

theorem Redacted.origin {b : Nat} (reaches : Reaches store.cells output b) :
    ∃ p a, Across input output store p (.object a) (.object b) := by
  induction reaches with
  | @root b same =>
    have start : Across input output store .root input.value (.object b) := by
      rw [← same]
      exact .root
    obtain ⟨a, object, _⟩ := redacted.linked start
    exact ⟨.root, a, object ▸ start⟩
  | @field b c shown f reaches there found ih =>
    obtain ⟨p, a, across⟩ := ih
    cases redacted.linked_object across with
    | date _ _ date => cases there.symm.trans date
    | @object inside node _ object walked clone =>
      cases there.symm.trans clone.there
      obtain ⟨_, _, heap⟩ := target_node object
      have shows_ := clone.whole.fields f
      rw [found, heap] at shows_
      cases here : node.get f with
      | none =>
        -- what is pulled out of an Error is text
        have unwalked : (node.bind (target input.cells)).get f = none := by
          rw [get_bind, here]
          rfl
        rw [copy_get_none unwalked] at shows_
        cases pulled : (node.bind (target input.cells)).start.get f with
        | none =>
          rw [pulled] at shows_
          cases shows_
        | some value =>
          rw [pulled, Option.rel_some_some] at shows_
          rcases start_get pulled with rfl | ⟨s, rfl⟩
          · cases shows_
          · cases shows_
      | some value =>
        have next := Across.field across object there here found
        obtain ⟨a', rfl, _⟩ := redacted.linked next
        exact ⟨_, a', next⟩

theorem Redacted.objects {p : Place} {a : Nat} {out : Value Nat}
    (across : Across input output store p (.object a) out)
    (unreplaced : ¬ p.Replaces input (.object a)) : ∃ b cell clone, out = .object b ∧
      input.cells[a]? = some cell ∧ store.cells[b]? = some clone ∧ cell.Cloned clone := by
  obtain ⟨within, ⟨replaces, _⟩ | ⟨shows_, walked⟩⟩ := redacted.across across
  · exact (unreplaced replaces).elim
  · have here : input.cells[a]? = some input.cells[a] := List.getElem?_eq_getElem within
    cases cell : input.cells[a] with
    | date time =>
      rw [cell] at here
      rw [Input.read, Value.bind, target_date here] at shows_
      obtain ⟨b, _, there, rfl⟩ := shows_
      exact ⟨b, _, _, rfl, here, there, rfl⟩
    | node node =>
      rw [cell] at here
      obtain ⟨inside, same, heap⟩ := target_node here
      obtain ⟨b, shown, clone⟩ := redacted.clone (walked ⟨a, inside⟩ same)
      rw [Input.read, Value.bind, same] at shows_
      obtain ⟨_, seen, rfl⟩ := shows_
      cases seen.symm.trans clone.seen
      have whole := clone.whole
      rw [heap] at whole
      exact ⟨_, _, _, rfl, here, clone.there, cloned_of_shown whole⟩

theorem Redacted.scalars {p : Place} {value out : Value Nat}
    (across : Across input output store p value out) (unreplaced : ¬ p.Replaces input value)
    (scalar : ∀ a, value ≠ .object a) : out = value.copy := by
  obtain ⟨within, ⟨replaces, _⟩ | ⟨shows_, _⟩⟩ := redacted.across across
  · exact (unreplaced replaces).elim
  · cases value with
    | object a => exact (scalar a rfl).elim
    | date time => exact within.elim
    | _ => exact shows_

omit redacted in
theorem redactInput_redacted (input : Input) : ∃ output store clones,
    redactInput input = some (output, store) ∧ Redacted input output store clones := by
  obtain ⟨output, store, clones, same, tracks, shows_, unheld, copied⟩ := redactInput_shows input
  exact ⟨output, store, clones, same, tracks, shows_, unheld, copied⟩

omit redacted in
/-- A list that holds itself and a Date twice. -/
def ring : Input where
  cells := [.node (.array [.object 0, .object 1, .object 1]), .date none]
  value := .object 0
  closed := by simp [Cell.Within, Node.Within, Value.Within]
  within := Nat.zero_lt_two

/-- Its clone stands behind it and holds itself and two Dates. -/
example : (redactInput ring).map (fun redacted => (redacted.1, redacted.2.cells.length)) =
    some (.object 2, 5) := by decide

end Copies

end Heap

end Canals.Redaction
