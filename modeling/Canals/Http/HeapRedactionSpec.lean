import Canals.Http.HeapTracking

/-! The walk over the heap does what the walk over values does: each answer of the one is
shown by an answer of the other, and both return with the same fuel. -/
namespace Canals.Redaction

namespace Heap
open DeepCopy

section Walks
variable {input : Input} {store store' : Store} {clones clones' : Clones (Fin input.cells.length)}

section Keys
variable (walk : Walk) (clone : Nat) (store : Store) {key : String} {value : Value Nat}

theorem objectField_write (replaced : Replaced key value) :
    objectField walk clone store ⟨key, value⟩ =
      some (store.write clone (·.assign key (fieldCopy key value))) := by
  by_cases secret : REDACTED_KEY_PATTERN key
  · simp [objectField, fieldCopy, secret]
  · rcases replaced with other | ⟨masked, raw, rfl⟩
    · exact (secret other).elim
    · simp [objectField, fieldCopy, secret, masked]

theorem objectField_walk (open_ : ¬ Replaced key value) :
    objectField walk clone store ⟨key, value⟩ = errorField walk clone store ⟨key, value⟩ := by
  rw [Replaced, not_or] at open_
  unfold objectField
  rw [if_neg open_.1]
  split
  · rename_i raw masked text
    exact (open_.2 ⟨masked, raw, text⟩).elim
  · rfl

end Keys

/-- The walk over the heap answers what the walk over values does. -/
def Answers (input : Input) (store : Store) (result : Value (Fin input.cells.length))
    (clones' : Clones (Fin input.cells.length)) (answer : Option (Value Nat × Store)) : Prop :=
  ∃ out store', answer = some (out, store') ∧ Tracks input store' clones' ∧ Later store store' ∧
    Shows store' result out ∧ Unheld store' out

/-- Whatever a value is walked to, the heap has it too. -/
def Simulates (input : Input) (walk : Redaction.Walk (Fin input.cells.length)) (walk' : Walk) :
    Prop :=
  ∀ value store clones result clones', value.Within input.cells.length →
    Tracks input store clones →
    walk (value.bind (target input.cells)) clones = some (result, clones') →
      Answers input store result clones' (walk' value store)

variable {walk : Redaction.Walk (Fin input.cells.length)} {walk' : Walk}
  {a : Fin input.cells.length} {clone : Nat} {kind : Kind}

/-- The loops over the fields of an object, over values and over the heap, keep step. -/
theorem Building.loop {E E' : Type} {step : Clones (Fin input.cells.length) → E →
      Option (Clones (Fin input.cells.length))} {step' : Store → E' → Option Store} {read : E' → E}
    {es : List E'} (each : ∀ e ∈ es, ∀ store clones clones',
      Building input a clone kind store clones → step clones (read e) = some clones' →
        ∃ store', step' store e = some store' ∧ Building input a clone kind store' clones' ∧
          Later store store')
    (building : Building input a clone kind store clones)
    (ran : (es.map read).foldlM step clones = some clones') :
    ∃ store', es.foldlM step' store = some store' ∧ Building input a clone kind store' clones' ∧
      Later store store' := by
  induction es generalizing store clones with
  | nil =>
    cases ran
    exact ⟨store, rfl, building, .refl⟩
  | cons e es ih =>
    rw [List.map_cons, List.foldlM_cons] at ran
    obtain ⟨mid, first, rest⟩ := Option.bind_eq_some_iff.mp ran
    obtain ⟨store₁, stepped, kept, later⟩ :=
      each e List.mem_cons_self store clones mid building first
    obtain ⟨store', went, ended, after⟩ :=
      ih (fun e member => each e (List.mem_cons_of_mem _ member)) kept rest
    refine ⟨store', ?_, ended, later.trans after⟩
    rw [List.foldlM_cons, stepped]
    exact went

/-- The clone of `a` is complete. -/
theorem Building.done (building : Building input a clone kind store' clones')
    (later : Later store store') :
    Answers input store (.object a) clones' (some (.object clone, store')) := by
  refine ⟨_, store', rfl, building.tracks, later, ⟨clone, building.seen, rfl⟩, ?_⟩
  rintro _ time ⟨⟩ date
  obtain ⟨shown, there, _⟩ := building.object
  cases there.symm.trans date

/-- An object is entered: its clone is allocated and recorded before any field is walked. -/
theorem Tracks.enter (tracks : Tracks input store clones) {own shown : Node Nat}
    {node : Node (Fin input.cells.length)} (object : input.cells[a.val]? = some (.node own))
    (new : store.seen a = none) (begun : Begun node shown) :
    Building input a store.cells.length shown.kind
        ((store.alloc (.node shown)).2.record a store.cells.length) (put clones a node) ∧
      Later store ((store.alloc (.node shown)).2.record a store.cells.length) := by
  have there : (store.alloc (.node shown)).2.cells[store.cells.length]? = some (.node shown) :=
    List.getElem?_concat_length
  have unused : ∀ b, (store.alloc (.node shown)).2.seen b ≠ some store.cells.length := by
    intro b seen
    obtain ⟨_, _, _, _, _, old, _⟩ := tracks.made b _ seen
    obtain ⟨inside, _⟩ := List.getElem?_eq_some_iff.mp old
    omega
  have later := (later_alloc (.node shown)).trans (@later_record _ a store.cells.length new)
  refine ⟨⟨?_, ?_, ?_⟩, later⟩
  · exact (tracks.alloc (.node shown)).record object new tracks.kept.length_le there unused begun
  · exact Function.update_self _ _ _
  · exact ⟨shown, there, rfl⟩

theorem errorField_simulates (simulates : Simulates input walk walk')
    {e : Sigma fun _ : String => Value Nat} (within : e.2.Within input.cells.length)
    (building : Building input a clone .plain store clones)
    (ran : Redaction.errorField walk a clones ⟨e.1, e.2.bind (target input.cells)⟩ = some clones') :
    ∃ store', errorField walk' clone store e = some store' ∧
      Building input a clone .plain store' clones' ∧ Later store store' := by
  obtain ⟨⟨value, mid⟩, walked, assigned⟩ := Option.bind_eq_some_iff.mp ran
  obtain ⟨out, store₁, same, tracks, later, shows_, unheld⟩ :=
    simulates e.2 store clones value mid within building.tracks walked
  obtain ⟨kept, after⟩ := (building.later tracks later).assign shows_ unheld assigned
  refine ⟨_, ?_, kept, later.trans after⟩
  rw [errorField, same]
  rfl

theorem arrayItem_simulates (simulates : Simulates input walk walk') {item : Value Nat}
    (within : item.Within input.cells.length)
    (building : Building input a clone .array store clones)
    (ran : Redaction.arrayItem walk a clones (item.bind (target input.cells)) = some clones') :
    ∃ store', arrayItem walk' clone store item = some store' ∧
      Building input a clone .array store' clones' ∧ Later store store' := by
  obtain ⟨⟨value, mid⟩, walked, pushed⟩ := Option.bind_eq_some_iff.mp ran
  obtain ⟨out, store₁, same, tracks, later, shows_, unheld⟩ :=
    simulates item store clones value mid within building.tracks walked
  obtain ⟨kept, after⟩ := (building.later tracks later).push shows_ unheld pushed
  refine ⟨_, ?_, kept, later.trans after⟩
  rw [arrayItem, same]
  rfl

theorem objectField_simulates (simulates : Simulates input walk walk')
    {e : Sigma fun _ : String => Value Nat} (within : e.2.Within input.cells.length)
    (building : Building input a clone .plain store clones)
    (ran : Redaction.objectField walk a clones ⟨e.1, e.2.bind (target input.cells)⟩ =
      some clones') :
    ∃ store', objectField walk' clone store e = some store' ∧
      Building input a clone .plain store' clones' ∧ Later store store' := by
  obtain ⟨key, value⟩ := e
  by_cases replaced : Replaced key value
  · obtain ⟨s, text, textCopy⟩ := fieldCopy_replaced (target input.cells) replaced
    rw [objectField_replaced walk a clones (replaced_target.mpr replaced), textCopy] at ran
    have shows_ : Shows store (.text s : Value (Fin input.cells.length)) (.text s) := rfl
    have unheld : Unheld store (.text s) := by rintro _ _ ⟨⟩
    obtain ⟨kept, later⟩ := building.assign shows_ unheld ran
    refine ⟨_, ?_, kept, later⟩
    rw [objectField_write walk' clone store replaced, text]
  · rw [objectField_open walk a clones (mt replaced_target.mp replaced)] at ran
    rw [objectField_walk walk' clone store replaced]
    exact errorField_simulates simulates within building ran

theorem begun_plain {size : Nat} : Begun (.plain ∅ : Node (Fin size)) (.plain ∅) where
  kind := rfl
  fields := by
    rintro (key | i)
    · exact .none
    · exact .none

theorem begun_array {size : Nat} : Begun (.array [] : Node (Fin size)) (.array []) where
  kind := rfl
  fields := by
    rintro (key | i)
    · exact .none
    · exact .none

theorem begun_error {size : Nat} (name message : String) (stack : Option String) :
    Begun (.plain (errorClone name message stack) : Node (Fin size))
      (.plain (errorClone name message stack)) where
  kind := rfl
  fields := by
    rintro (key | i)
    · simp only [Node.get, Node.property, lookup_errorClone]
      by_cases isStack : key = "stack"
      · cases stack with
        | none => simp [isStack]
        | some stack => simp [isStack]
      · by_cases isMessage : key = "message"
        · simp [isMessage]
        · by_cases isName : key = "name"
          · simp [isName]
          · simp [isStack, isMessage, isName]
    · exact .none

theorem redactError_simulates (simulates : Simulates input walk walk')
    {name message : String} {stack : Option String} {entries : Entries Nat}
    {result : Value (Fin input.cells.length)}
    (object : input.cells[a.val]? = some (.node (.error name message stack entries)))
    (within : ∀ entry ∈ entries.entries, entry.2.Within input.cells.length)
    (tracks : Tracks input store clones) (new : store.seen a = none)
    (ran : Redaction.redactError walk a name message stack (entries.bind (target input.cells))
      clones = some (result, clones')) :
    Answers input store result clones'
      (redactError walk' a name message stack entries store) := by
  obtain ⟨ended, looped, same⟩ := Option.bind_eq_some_iff.mp ran
  cases same
  obtain ⟨building, later⟩ := tracks.enter object new (begun_error name message stack)
  obtain ⟨store', went, built, after⟩ := building.loop
    (fun e member _ _ _ here step => errorField_simulates simulates (within e member) here step)
    looped
  have answer : redactError walk' a name message stack entries store =
      some (.object store.cells.length, store') :=
    Option.bind_eq_some_iff.mpr ⟨store', went, rfl⟩
  rw [answer]
  exact built.done (later.trans after)

theorem redactArray_simulates (simulates : Simulates input walk walk') {items : List (Value Nat)}
    {result : Value (Fin input.cells.length)}
    (object : input.cells[a.val]? = some (.node (.array items)))
    (within : ∀ item ∈ items, item.Within input.cells.length)
    (tracks : Tracks input store clones) (new : store.seen a = none)
    (ran : Redaction.redactArray walk a (items.map (Value.bind (target input.cells))) clones =
      some (result, clones')) :
    Answers input store result clones' (redactArray walk' a items store) := by
  obtain ⟨ended, looped, same⟩ := Option.bind_eq_some_iff.mp ran
  cases same
  obtain ⟨building, later⟩ := tracks.enter object new begun_array
  obtain ⟨store', went, built, after⟩ := building.loop
    (fun item member _ _ _ here step =>
      arrayItem_simulates simulates (within item member) here step) looped
  have answer : redactArray walk' a items store =
      some (.object store.cells.length, store') :=
    Option.bind_eq_some_iff.mpr ⟨store', went, rfl⟩
  rw [answer]
  exact built.done (later.trans after)

theorem redactObject_simulates (simulates : Simulates input walk walk') {entries : Entries Nat}
    {result : Value (Fin input.cells.length)}
    (object : input.cells[a.val]? = some (.node (.plain entries)))
    (within : ∀ entry ∈ entries.entries, entry.2.Within input.cells.length)
    (tracks : Tracks input store clones) (new : store.seen a = none)
    (ran : Redaction.redactObject walk a (entries.bind (target input.cells)) clones =
      some (result, clones')) :
    Answers input store result clones' (redactObject walk' a entries store) := by
  obtain ⟨ended, looped, same⟩ := Option.bind_eq_some_iff.mp ran
  cases same
  obtain ⟨building, later⟩ := tracks.enter object new begun_plain
  obtain ⟨store', went, built, after⟩ := building.loop
    (fun e member _ _ _ here step => objectField_simulates simulates (within e member) here step)
    looped
  have answer : redactObject walk' a entries store =
      some (.object store.cells.length, store') :=
    Option.bind_eq_some_iff.mpr ⟨store', went, rfl⟩
  rw [answer]
  exact built.done (later.trans after)

theorem Tracks.cell (tracks : Tracks input store clones) {address : Nat} {cell : Cell}
    (here : input.cells[address]? = some cell) : store.cells[address]? = some cell := by
  obtain ⟨inside, same⟩ := List.getElem?_eq_some_iff.mp here
  rw [← same]
  exact List.prefix_iff_getElem?.mp tracks.kept address inside

/-- What is no object is walked to its copy. -/
theorem scalar_simulates {value : Value Nat} {fuel : Nat}
    {result : Value (Fin input.cells.length)} (scalar : ∀ a, value ≠ .object a)
    (within : value.Within input.cells.length) (tracks : Tracks input store clones)
    (ran : Redaction.redactValue input.heap fuel (value.bind (target input.cells)) clones =
      some (result, clones')) :
    Answers input store result clones' (redactValue fuel value store) := by
  have known : ∀ b, value.bind (target input.cells) = .object b → clones b ≠ none := by
    intro b same
    cases value with
    | object a => exact (scalar a rfl).elim
    | _ => cases same
  rw [redactValue_direct known] at ran
  cases ran
  have answer : redactValue fuel value store = some (value.copy, store) := by
    cases value with
    | object a => exact (scalar a rfl).elim
    | _ => cases fuel <;> rfl
  refine ⟨_, store, answer, tracks, .refl, ?_, ?_⟩
  · cases value with
    | object a => exact (scalar a rfl).elim
    | date time => exact within.elim
    | _ => rfl
  · intro date time same
    exact (scalar date (copy_object same)).elim

/-- An object that has its clone is not walked again. -/
theorem seen_simulates {fuel : Nat} {a clone : Nat} {own : Node Nat}
    {result : Value (Fin input.cells.length)} (object : input.cells[a]? = some (.node own))
    (seen : store.seen a = some clone) (tracks : Tracks input store clones)
    (ran : Redaction.redactValue input.heap fuel (Value.bind (target input.cells) (.object a))
      clones = some (result, clones')) :
    Answers input store result clones' (redactValue fuel (.object a) store) := by
  obtain ⟨inside, same, _⟩ := target_node object
  obtain ⟨_, node, shown, made, _, there, _⟩ := tracks.made a clone seen
  have known : ∀ b, Value.bind (target input.cells) (.object a) = .object b → clones b ≠ none := by
    intro b is
    cases (show target input.cells a = .object b from is).symm.trans same
    simp [made]
  rw [redactValue_direct known] at ran
  cases ran
  refine ⟨.object clone, store, ?_, tracks, .refl, ?_, ?_⟩
  · cases fuel <;> simp [redactValue, seen]
  · rw [Value.bind, same]
    exact ⟨clone, seen, rfl⟩
  · rintro _ time ⟨⟩ date
    cases there.symm.trans date

/-- A Date is made anew wherever it stands. -/
theorem date_simulates {fuel : Nat} {a : Nat} {time : Option Int}
    {result : Value (Fin input.cells.length)} (date : input.cells[a]? = some (.date time))
    (tracks : Tracks input store clones)
    (ran : Redaction.redactValue input.heap fuel (Value.bind (target input.cells) (.object a))
      clones = some (result, clones')) :
    Answers input store result clones' (redactValue fuel (.object a) store) := by
  rw [Value.bind, target_date date, redactValue_direct (by rintro b ⟨⟩)] at ran
  cases ran
  obtain ⟨shows_, unheld⟩ := tracks.date time
  refine ⟨_, _, ?_, tracks.alloc (.date time), later_alloc _, shows_, unheld⟩
  cases fuel <;> simp [redactValue, tracks.dates a time date, tracks.cell date, Store.alloc]

/-- It remains to enter an object that has no clone. -/
theorem simulates_of_entered {fuel : Nat} (entered : ∀ (a : Fin input.cells.length) own store
      clones result clones', input.cells[a.val]? = some (.node own) → store.seen a = none →
        Tracks input store clones → clones a = none →
          Redaction.redactValue input.heap fuel (.object a) clones = some (result, clones') →
            Answers input store result clones' (redactValue fuel (.object a) store)) :
    Simulates input (Redaction.redactValue input.heap fuel) (redactValue fuel) := by
  intro value store clones result clones' within tracks ran
  by_cases scalar : ∀ a, value ≠ .object a
  · exact scalar_simulates scalar within tracks ran
  · simp only [ne_eq, not_forall, not_not] at scalar
    obtain ⟨a, rfl⟩ := scalar
    have here : input.cells[a]? = some input.cells[a] := List.getElem?_eq_getElem within
    cases cell : input.cells[a] with
    | date time =>
      rw [cell] at here
      exact date_simulates here tracks ran
    | node own =>
      rw [cell] at here
      cases seen : store.seen a with
      | some clone => exact seen_simulates here seen tracks ran
      | none =>
        obtain ⟨inside, same, _⟩ := target_node here
        rw [Value.bind, same] at ran
        have unmade : clones ⟨a, inside⟩ = none := by
          by_contra made
          exact tracks.known _ made seen
        exact entered ⟨a, inside⟩ own store clones result clones' here seen tracks unmade ran

/-- With the same fuel the walk over the heap does what the walk over values does. -/
theorem redactValue_simulates (fuel : Nat) :
    Simulates input (Redaction.redactValue input.heap fuel) (redactValue fuel) := by
  induction fuel with
  | zero =>
    apply simulates_of_entered
    intro a own store clones result clones' here new tracks unmade ran
    simp [Redaction.redactValue, unmade] at ran
  | succ fuel ih =>
    apply simulates_of_entered
    intro a own store clones result clones' here new tracks unmade ran
    obtain ⟨_, _, same⟩ := target_node here
    have within : own.Within input.cells.length :=
      input.closed (.node own) (List.mem_of_getElem? here)
    rw [redactValue]
    rw [Redaction.redactValue] at ran
    simp only [new, tracks.cell here]
    simp only [unmade, Option.isSome_none, Bool.false_eq_true, if_false] at ran
    rw [show input.heap a = own.bind (target input.cells) from same] at ran
    cases own with
    | plain entries => exact redactObject_simulates ih here within tracks new ran
    | array items => exact redactArray_simulates ih here within tracks new ran
    | error name message stack entries =>
      exact redactError_simulates ih here within tracks new ran

/-- `redact` always returns. What it returns shows the copies of all that is walked. -/
theorem redactInput_shows (input : Input) : ∃ output store clones,
    redactInput input = some (output, store) ∧ Tracks input store clones ∧
      Shows store (input.value.bind (target input.cells)).copy output ∧ Unheld store output ∧
        ∀ a, Walked input.heap (input.value.bind (target input.cells)) a →
          clones a = some (input.heap a).copy := by
  obtain ⟨clones, ran, copied⟩ :=
    redactInput_spec input.heap (input.value.bind (target input.cells))
  have start : Tracks input ⟨input.cells, fun _ => none⟩ fun _ => none := by
    refine ⟨List.prefix_rfl, ?_, ?_, fun _ _ _ => rfl, ?_, ?_⟩
    · rintro a clone ⟨⟩
    · exact fun a none => (none rfl).elim
    · rintro a b clone ⟨⟩
    · rintro a b field field' date time ⟨clone, shown, ⟨⟩, _⟩
  rw [Redaction.redactInput, Fintype.card_fin] at ran
  obtain ⟨output, store, same, tracks, _, shows_, unheld⟩ :=
    redactValue_simulates input.cells.length input.value _ _ _ _ input.within start ran
  exact ⟨output, store, clones, same, tracks, shows_, unheld, copied⟩

end Walks

end Heap

end Canals.Redaction
