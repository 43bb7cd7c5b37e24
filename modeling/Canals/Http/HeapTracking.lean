import Canals.Http.HeapRedaction
import Canals.Http.NodeFields

/-! A store that shows the clones of a walk: the input as it was, and behind it an object for
each clone and for each place of a Date. Allocation, recording and writes keep it so. -/
namespace Canals.Redaction

namespace Heap
open DeepCopy

section Tracking

/-- What an address stands for: a Date, or an object that is walked. -/
def target (cells : List Cell) (a : Nat) : Value (Fin cells.length) :=
  if inside : a < cells.length then
    match cells[a] with
    | .node _ => .object ⟨a, inside⟩
    | .date time => .date time
  else .undefined

/-- The objects of the input, with each Date in the place of its address. -/
def Input.heap (input : Input) (a : Fin input.cells.length) : Node (Fin input.cells.length) :=
  match input.cells[a] with
  | .node node => node.bind (target input.cells)
  | .date _ => .plain ∅

variable {input : Input} {store store' : Store} {clones : Clones (Fin input.cells.length)}

theorem target_node {a : Nat} {node : Node Nat} (here : input.cells[a]? = some (.node node)) :
    ∃ inside, target input.cells a = .object ⟨a, inside⟩ ∧
      input.heap ⟨a, inside⟩ = node.bind (target input.cells) := by
  obtain ⟨inside, there⟩ := List.getElem?_eq_some_iff.mp here
  refine ⟨inside, ?_, ?_⟩
  · simp [target, inside, there]
  · simp [Input.heap, there]

theorem target_date {a : Nat} {time : Option Int}
    (here : input.cells[a]? = some (.date time)) : target input.cells a = .date time := by
  obtain ⟨inside, there⟩ := List.getElem?_eq_some_iff.mp here
  simp [target, inside, there]

theorem bind_target_text {value : Value Nat} {s : String}
    (same : value.bind (target input.cells) = .text s) : value = .text s := by
  cases value with
  | object a =>
    simp only [Value.bind, target] at same
    split at same
    · split at same
      · cases same
      · cases same
    · cases same
  | text _ => exact congrArg Value.text (Value.text.inj same)
  | _ => cases same

theorem replaced_target {key : String} {value : Value Nat} :
    Replaced key (value.bind (target input.cells)) ↔ Replaced key value := by
  constructor
  · rintro (secret | ⟨masked, raw, same⟩)
    · exact .inl secret
    · exact .inr ⟨masked, raw, bind_target_text same⟩
  · exact fun replaced => replaced.bind _

/-- What the store has for a value of the copy. -/
def Shows {size : Nat} (store : Store) : Value (Fin size) → Value Nat → Prop
  | .object a, shown => ∃ clone, store.seen a = some clone ∧ shown = .object clone
  | .date time, shown => ∃ date, size ≤ date ∧ store.cells[date]? = some (.date time) ∧
      shown = .object date
  | value, shown => shown = value.bind fun _ => .undefined

/-- What the store has for an object of the copy. -/
structure Shown {size : Nat} (store : Store) (node : Node (Fin size)) (shown : Node Nat) :
    Prop where
  kind : shown.kind = node.kind
  fields : ∀ field, Option.Rel (Shows store) (node.get field) (shown.get field)

/-- The clone of `a` refers to the object under the field. -/
def Holds (store : Store) (a : Nat) (field : Field) (object : Nat) : Prop :=
  ∃ clone shown, store.seen a = some clone ∧ store.cells[clone]? = some (.node shown) ∧
    shown.get field = some (.object object)

/-- No clone refers to a Date just made. -/
def Unheld (store : Store) (value : Value Nat) : Prop :=
  ∀ date time, value = .object date → store.cells[date]? = some (.date time) →
    ∀ a field, ¬ Holds store a field date

/-- The input stands as it was, and behind it the clones: one for each object that is seen,
and for each Date no more than one place. -/
structure Tracks (input : Input) (store : Store) (clones : Clones (Fin input.cells.length)) :
    Prop where
  kept : input.cells <+: store.cells
  made : ∀ a clone, store.seen a = some clone → ∃ inside node shown,
    clones ⟨a, inside⟩ = some node ∧ input.cells.length ≤ clone ∧
      store.cells[clone]? = some (.node shown) ∧ Shown store node shown
  known : ∀ a, clones a ≠ none → store.seen a ≠ none
  dates : ∀ a time, input.cells[a]? = some (.date time) → store.seen a = none
  apart : ∀ a b clone, store.seen a = some clone → store.seen b = some clone → a = b
  once : ∀ a b field field' date time, Holds store a field date → Holds store b field' date →
    store.cells[date]? = some (.date time) → a = b ∧ field = field'

/-- What no walk takes back. -/
structure Later (store store' : Store) : Prop where
  seen : ∀ a clone, store.seen a = some clone → store'.seen a = some clone
  dates : ∀ (date : Nat) time, store.cells[date]? = some (.date time) →
    store'.cells[date]? = some (.date time)
  kinds : ∀ (clone : Nat) shown, store.cells[clone]? = some (.node shown) →
    ∃ shown', store'.cells[clone]? = some (.node shown') ∧ shown'.kind = shown.kind

theorem Later.refl : Later store store where
  seen := fun _ _ here => here
  dates := fun _ _ here => here
  kinds := fun _ shown here => ⟨shown, here, rfl⟩

theorem Later.trans {store'' : Store} (first : Later store store') (second : Later store' store'') :
    Later store store'' where
  seen := fun a clone here => second.seen a clone (first.seen a clone here)
  dates := fun date time here => second.dates date time (first.dates date time here)
  kinds := by
    intro clone shown here
    obtain ⟨shown', there, same⟩ := first.kinds clone shown here
    obtain ⟨shown'', after, last⟩ := second.kinds clone shown' there
    exact ⟨shown'', after, last.trans same⟩

theorem rel_mono {A B : Type} {r r' : A → B → Prop} (imp : ∀ x y, r x y → r' x y)
    {a : Option A} {b : Option B} (related : Option.Rel r a b) : Option.Rel r' a b := by
  cases related with
  | none => exact .none
  | some here => exact .some (imp _ _ here)

theorem Shows.later {size : Nat} {value : Value (Fin size)} {shown : Value Nat}
    (shows_ : Shows store value shown) (later : Later store store') :
    Shows store' value shown := by
  cases value with
  | object a =>
    obtain ⟨clone, seen, same⟩ := shows_
    exact ⟨clone, later.seen a clone seen, same⟩
  | date time =>
    obtain ⟨date, behind, there, same⟩ := shows_
    exact ⟨date, behind, later.dates date time there, same⟩
  | _ => exact shows_

theorem Shown.later {size : Nat} {node : Node (Fin size)} {shown : Node Nat}
    (whole : Shown store node shown) (later : Later store store') :
    Shown store' node shown where
  kind := whole.kind
  fields := fun field => rel_mono (fun _ _ shows_ => shows_.later later) (whole.fields field)

theorem shows_object {size : Nat} {value : Value (Fin size)} {object : Nat}
    (shows_ : Shows store value (.object object)) :
    (∃ a, value = .object a ∧ store.seen a = some object) ∨
      ∃ time, value = .date time ∧ size ≤ object ∧ store.cells[object]? = some (.date time) := by
  cases value with
  | object a =>
    obtain ⟨clone, seen, same⟩ := shows_
    cases same
    exact .inl ⟨a, rfl, seen⟩
  | date time =>
    obtain ⟨date, behind, there, same⟩ := shows_
    cases same
    exact .inr ⟨time, rfl, behind, there⟩
  | _ => cases shows_

end Tracking

section Writes
variable {input : Input} {store store' : Store} {clones : Clones (Fin input.cells.length)}

/-- What a clone refers to stands in the store. -/
theorem Tracks.held (tracks : Tracks input store clones) {a object : Nat} {field : Field}
    (holds : Holds store a field object) :
    (∃ shown, store.cells[object]? = some (.node shown)) ∨
      ∃ time, store.cells[object]? = some (.date time) := by
  obtain ⟨clone, shown, seen, there, here⟩ := holds
  obtain ⟨_, node, shown', _, _, there', whole⟩ := tracks.made a clone seen
  cases there.symm.trans there'
  have related := whole.fields field
  rw [here] at related
  generalize node.get field = got at related
  cases related with
  | some shows_ =>
    rcases shows_object shows_ with ⟨b, _, known⟩ | ⟨time, _, _, date⟩
    · obtain ⟨_, _, shown', _, _, there', _⟩ := tracks.made b object known
      exact .inl ⟨shown', there'⟩
    · exact .inr ⟨time, date⟩

theorem cells_alloc {address : Nat} {old cell : Cell} (here : store.cells[address]? = some old) :
    (store.alloc cell).2.cells[address]? = some old := by
  obtain ⟨inside, _⟩ := List.getElem?_eq_some_iff.mp here
  exact (List.getElem?_append_left inside).trans here

theorem later_alloc (cell : Cell) : Later store (store.alloc cell).2 where
  seen := fun _ _ here => here
  dates := fun _ _ here => cells_alloc here
  kinds := fun _ shown here => ⟨shown, cells_alloc here, rfl⟩

theorem Tracks.holds_alloc (tracks : Tracks input store clones) {cell : Cell} {a object : Nat}
    {field : Field} (holds : Holds (store.alloc cell).2 a field object) :
    Holds store a field object := by
  obtain ⟨clone, shown, seen, there, here⟩ := holds
  obtain ⟨_, _, shown', _, _, there', _⟩ := tracks.made a clone seen
  cases there.symm.trans (cells_alloc there')
  exact ⟨clone, shown, seen, there', here⟩

theorem Tracks.alloc (tracks : Tracks input store clones) (cell : Cell) :
    Tracks input (store.alloc cell).2 clones where
  kept := tracks.kept.trans (List.prefix_append _ _)
  made := by
    intro a clone seen
    obtain ⟨inside, node, shown, same, behind, there, whole⟩ := tracks.made a clone seen
    exact ⟨inside, node, shown, same, behind, cells_alloc there, whole.later (later_alloc cell)⟩
  known := tracks.known
  dates := tracks.dates
  apart := tracks.apart
  once := by
    intro a b field field' date time holds holds' there
    have before := tracks.holds_alloc holds
    have before' := tracks.holds_alloc holds'
    rcases tracks.held before with ⟨shown, node⟩ | ⟨time', old⟩
    · cases (cells_alloc node).symm.trans there
    · exact tracks.once a b field field' date time' before before' old

/-- A Date is not entered in `seen`: what is made for it stands in no clone yet. -/
theorem Tracks.date (tracks : Tracks input store clones) (time : Option Int) :
    Shows (store.alloc (.date time)).2 (.date time : Value (Fin input.cells.length))
        (.object store.cells.length) ∧
      Unheld (store.alloc (.date time)).2 (.object store.cells.length) := by
  constructor
  · exact ⟨_, tracks.kept.length_le, List.getElem?_concat_length, rfl⟩
  · rintro _ _ ⟨⟩ _ a field holds
    rcases tracks.held (tracks.holds_alloc holds) with ⟨_, there⟩ | ⟨_, there⟩
    · obtain ⟨inside, _⟩ := List.getElem?_eq_some_iff.mp there
      omega
    · obtain ⟨inside, _⟩ := List.getElem?_eq_some_iff.mp there
      omega

/-- A clone that is only begun, with no object in it. -/
structure Begun {size : Nat} (node : Node (Fin size)) (shown : Node Nat) : Prop where
  kind : shown.kind = node.kind
  fields : ∀ field, Option.Rel
    (fun value out => (value = .undefined ∧ out = .undefined) ∨
      ∃ s, value = .text s ∧ out = .text s)
    (node.get field) (shown.get field)

theorem Begun.shown {size : Nat} {node : Node (Fin size)} {shown : Node Nat}
    (begun : Begun node shown) (store : Store) : Shown store node shown where
  kind := begun.kind
  fields := by
    intro field
    refine rel_mono ?_ (begun.fields field)
    rintro value out (⟨rfl, rfl⟩ | ⟨s, rfl, rfl⟩)
    · rfl
    · rfl

theorem Begun.empty {size : Nat} {node : Node (Fin size)} {shown : Node Nat}
    (begun : Begun node shown) (field : Field) (object : Nat) :
    shown.get field ≠ some (.object object) := by
  intro here
  have flat := begun.fields field
  rw [here] at flat
  generalize node.get field = got at flat
  cases flat with
  | some flat =>
    rcases flat with ⟨_, same⟩ | ⟨_, _, same⟩
    · cases same
    · cases same

theorem later_record {a clone : Nat} (new : store.seen a = none) :
    Later store (store.record a clone) where
  seen := by
    intro b known seen
    have other : b ≠ a := by
      rintro rfl
      cases new.symm.trans seen
    exact (Function.update_of_ne other _ _).trans seen
  dates := fun _ _ here => here
  kinds := fun _ shown here => ⟨shown, here, rfl⟩

theorem seen_record {a b clone known : Nat} (seen : (store.record a clone).seen b = some known) :
    (b = a ∧ known = clone) ∨ (b ≠ a ∧ store.seen b = some known) := by
  by_cases same : b = a
  · subst same
    exact .inl ⟨rfl, Option.some.inj (seen.symm.trans (Function.update_self b _ _))⟩
  · exact .inr ⟨same, (Function.update_of_ne same _ _).symm.trans seen⟩

theorem Tracks.record (tracks : Tracks input store clones) {a clone : Nat} {own shown : Node Nat}
    {inside : a < input.cells.length} {node : Node (Fin input.cells.length)}
    (object : input.cells[a]? = some (.node own)) (new : store.seen a = none)
    (behind : input.cells.length ≤ clone) (there : store.cells[clone]? = some (.node shown))
    (unused : ∀ b, store.seen b ≠ some clone) (begun : Begun node shown) :
    Tracks input (store.record a clone) (put clones ⟨a, inside⟩ node) where
  kept := tracks.kept
  made := by
    intro b known seen
    rcases seen_record seen with ⟨rfl, rfl⟩ | ⟨other, seen⟩
    · exact ⟨inside, node, shown, put_same, behind, there, begun.shown _⟩
    · obtain ⟨within, node', shown', same, after, there', whole⟩ := tracks.made b known seen
      have apart : (⟨b, within⟩ : Fin input.cells.length) ≠ ⟨a, inside⟩ := by
        intro same
        exact other (Fin.mk.inj same)
      refine ⟨within, node', shown', ?_, after, there', whole.later (later_record new)⟩
      rw [put_other apart, same]
  known := by
    intro b here
    by_cases same : b = ⟨a, inside⟩
    · subst same
      simp [Store.record]
    · rw [put_other same] at here
      obtain ⟨clone', seen⟩ := Option.ne_none_iff_exists'.mp (tracks.known b here)
      rw [(later_record new).seen b clone' seen]
      exact Option.some_ne_none _
  dates := by
    intro b time date
    have other : b ≠ a := by
      rintro rfl
      cases object.symm.trans date
    exact (Function.update_of_ne other _ _).trans (tracks.dates b time date)
  apart := by
    intro b c known seen seen'
    rcases seen_record seen with ⟨own, same⟩ | ⟨_, old⟩
    · rcases seen_record seen' with ⟨own', _⟩ | ⟨_, old'⟩
      · exact own.trans own'.symm
      · exact (unused c (same ▸ old')).elim
    · rcases seen_record seen' with ⟨_, same'⟩ | ⟨_, old'⟩
      · exact (unused b (same' ▸ old)).elim
      · exact tracks.apart b c known old old'
  once := by
    have before : ∀ b field date, Holds (store.record a clone) b field date →
        Holds store b field date := by
      rintro b field date ⟨known, shown', seen, there', here⟩
      rcases seen_record seen with ⟨rfl, rfl⟩ | ⟨_, seen⟩
      · cases there.symm.trans there'
        exact (begun.empty field date here).elim
      · exact ⟨known, shown', seen, there', here⟩
    intro b c field field' date time holds holds' date_
    exact tracks.once b c field field' date time (before _ _ _ holds) (before _ _ _ holds') date_

end Writes

section Changes
variable {input : Input} {store store' : Store} {clones clones' : Clones (Fin input.cells.length)}
  {clone : Nat} {change : Node Nat → Node Nat}

theorem write_same {shown : Node Nat} (there : store.cells[clone]? = some (.node shown)) :
    (store.write clone change).cells[clone]? = some (.node (change shown)) := by
  simp [Store.write, there, Cell.change]

theorem write_other {address : Nat} (other : address ≠ clone) :
    (store.write clone change).cells[address]? = store.cells[address]? := by
  simp [Store.write, Ne.symm other]

theorem write_date {date : Nat} {time : Option Int} :
    (store.write clone change).cells[date]? = some (.date time) ↔
      store.cells[date]? = some (.date time) := by
  by_cases same : date = clone
  · subst same
    cases there : store.cells[date]? with
    | none => simp [Store.write, there]
    | some cell => cases cell <;> simp [Store.write, there, Cell.change]
  · rw [write_other same]

theorem later_write (kinds : ∀ shown, (change shown).kind = shown.kind) :
    Later store (store.write clone change) where
  seen := fun _ _ here => here
  dates := fun _ _ here => write_date.mpr here
  kinds := by
    intro address shown here
    by_cases same : address = clone
    · subst same
      exact ⟨_, write_same here, kinds shown⟩
    · exact ⟨shown, (write_other same).trans here, rfl⟩

theorem Shown.written {size : Nat} {node node' : Node (Fin size)} {shown shown' : Node Nat}
    {field : Field} {value : Value (Fin size)} {out : Value Nat} (whole : Shown store node shown)
    (shows_ : Shows store value out) (copy : Written node node' field value)
    (write : Written shown shown' field out) (kind : node'.kind = node.kind)
    (kind' : shown'.kind = shown.kind) : Shown store node' shown' where
  kind := kind'.trans (whole.kind.trans kind.symm)
  fields := by
    intro other
    rw [copy other, write other]
    split
    · exact .some shows_
    · exact whole.fields other

theorem Shown.length {size : Nat} {items : List (Value (Fin size))} {shown : List (Value Nat)}
    (whole : Shown store (.array items) (.array shown)) : items.length = shown.length := by
  have last : ∀ i : Nat, items[i]? = none ↔ shown[i]? = none := by
    intro i
    have related : Option.Rel (Shows store) items[i]? shown[i]? := whole.fields (.item i)
    generalize items[i]? = value, shown[i]? = out at related
    cases related <;> simp
  have before := (last shown.length).mpr (List.getElem?_eq_none le_rfl)
  have after := (last items.length).mp (List.getElem?_eq_none le_rfl)
  rw [List.getElem?_eq_none_iff] at before after
  omega

/-- The clone of `a` gets what stands for a value under one of its fields. -/
theorem Tracks.write (tracks : Tracks input store clones) {a : Fin input.cells.length}
    {node : Node (Fin input.cells.length)} {shown : Node Nat} {field : Field} {out : Value Nat}
    (seen : store.seen a = some clone) (there : store.cells[clone]? = some (.node shown))
    (whole : Shown store node (change shown)) (write : Written shown (change shown) field out)
    (unheld : Unheld store out) (kinds : ∀ shown, (change shown).kind = shown.kind) :
    Tracks input (store.write clone change) (put clones a node) where
  kept := by
    rw [List.prefix_iff_getElem?]
    intro address inside
    obtain ⟨_, _, _, _, behind, _, _⟩ := tracks.made a clone seen
    rw [write_other (by omega)]
    exact List.prefix_iff_getElem?.mp tracks.kept address inside
  made := by
    intro b known found
    by_cases same : b = a
    · subst same
      obtain ⟨inside, _, _, _, behind, _, _⟩ := tracks.made a clone seen
      cases seen.symm.trans found
      exact ⟨inside, node, change shown, put_same, behind, write_same there,
        whole.later (later_write kinds)⟩
    · obtain ⟨inside, node', shown', same', behind, there', whole'⟩ := tracks.made b known found
      have other : known ≠ clone := by
        rintro rfl
        exact same (tracks.apart b a known found seen)
      refine ⟨inside, node', shown', ?_, behind, (write_other other).trans there',
        whole'.later (later_write kinds)⟩
      rw [put_other (fun same' => same (congrArg Fin.val same')), same']
  known := by
    intro b here
    by_cases same : b = a
    · subst same
      rw [show (store.write clone change).seen b = store.seen b from rfl, seen]
      exact Option.some_ne_none _
    · rw [put_other same] at here
      exact tracks.known b here
  dates := tracks.dates
  apart := tracks.apart
  once := by
    -- a place of the new store is the one just written, or one of the old store
    have before : ∀ b other date, Holds (store.write clone change) b other date →
        (b = a ∧ other = field ∧ out = .object date) ∨ Holds store b other date := by
      rintro b other date ⟨known, shown', found, there', here⟩
      by_cases same : known = clone
      · subst same
        have owner := tracks.apart b a known found seen
        cases (write_same there).symm.trans there'
        rw [write other] at here
        split at here
        · rename_i written
          exact .inl ⟨owner, written, Option.some.inj here⟩
        · exact .inr ⟨known, shown, found, there, here⟩
      · exact .inr ⟨known, shown', found, (write_other same).symm.trans there', here⟩
    intro b c other other' date time holds holds' there'
    have old := write_date.mp there'
    rcases before b other date holds with ⟨rfl, rfl, same⟩ | holds
    · rcases before c other' date holds' with ⟨rfl, rfl, _⟩ | holds'
      · exact ⟨rfl, rfl⟩
      · exact (unheld date time same old c other' holds').elim
    · rcases before c other' date holds' with ⟨rfl, rfl, same⟩ | holds'
      · exact (unheld date time same old b other holds).elim
      · exact tracks.once b c other other' date time holds holds' old

/-- The loop over the fields of `a` stands between two of them. -/
structure Building (input : Input) (a : Fin input.cells.length) (clone : Nat) (kind : Kind)
    (store : Store) (clones : Clones (Fin input.cells.length)) : Prop where
  tracks : Tracks input store clones
  seen : store.seen a = some clone
  object : ∃ shown, store.cells[clone]? = some (.node shown) ∧ shown.kind = kind

variable {a : Fin input.cells.length} {kind : Kind} {value : Value (Fin input.cells.length)}
  {out : Value Nat}

theorem Building.later (building : Building input a clone kind store clones)
    (tracks : Tracks input store' clones') (later : Later store store') :
    Building input a clone kind store' clones' where
  tracks := tracks
  seen := later.seen a clone building.seen
  object := by
    obtain ⟨shown, there, same⟩ := building.object
    obtain ⟨shown', there', same'⟩ := later.kinds clone shown there
    exact ⟨shown', there', same'.trans same⟩

/-- A write to the clone of `a`, and to the clone of the copy that it shows. -/
theorem Building.write (building : Building input a clone kind store clones)
    {node : Node (Fin input.cells.length)} {shown : Node Nat}
    (there : store.cells[clone]? = some (.node shown)) (whole : Shown store node (change shown))
    {field : Field} (write : Written shown (change shown) field out) (unheld : Unheld store out)
    (kinds : ∀ shown, (change shown).kind = shown.kind) :
    Building input a clone kind (store.write clone change) (put clones a node) ∧
      Later store (store.write clone change) := by
  have later : Later store (store.write clone change) := later_write kinds
  have tracks := building.tracks.write building.seen there whole write unheld kinds
  exact ⟨building.later tracks later, later⟩

theorem Building.pair (building : Building input a clone kind store clones) :
    ∃ node shown, clones a = some node ∧ node.kind = kind ∧
      store.cells[clone]? = some (.node shown) ∧ shown.kind = kind ∧ Shown store node shown := by
  obtain ⟨_, node, shown, same, _, there, whole⟩ := building.tracks.made a clone building.seen
  obtain ⟨shown', there', kept⟩ := building.object
  cases there.symm.trans there'
  exact ⟨node, shown, same, whole.kind.symm.trans kept, there, kept, whole⟩

theorem Building.assign (building : Building input a clone .plain store clones) {key : String}
    (shows_ : Shows store value out) (unheld : Unheld store out)
    (ran : Redaction.assign clones a key value = some clones') :
    Building input a clone .plain (store.write clone (·.assign key out)) clones' ∧
      Later store (store.write clone (·.assign key out)) := by
  obtain ⟨node, shown, same, plainCopy, there, plain, whole⟩ := building.pair
  rw [Redaction.assign, same] at ran
  cases ran
  have write := assign_written plain key out
  have copy := assign_written plainCopy key value
  refine building.write there (whole.written shows_ copy write ?_ ?_) write unheld ?_
  · exact assign_kind node key value
  · exact assign_kind shown key out
  · exact fun shown => assign_kind shown key out

theorem Building.push (building : Building input a clone .array store clones)
    (shows_ : Shows store value out) (unheld : Unheld store out)
    (ran : Redaction.push clones a value = some clones') :
    Building input a clone .array (store.write clone (·.push out)) clones' ∧
      Later store (store.write clone (·.push out)) := by
  obtain ⟨node, shown, same, arrayCopy, there, array, whole⟩ := building.pair
  rw [Redaction.push, same] at ran
  cases ran
  cases node with
  | array items =>
    cases shown with
    | array shownItems =>
      have write := @push_written Nat shownItems out
      have copy := @push_written _ items value
      rw [whole.length] at copy
      refine building.write there (whole.written shows_ copy write rfl rfl) write unheld ?_
      exact fun shown => push_kind shown out
    | _ => cases array
  | _ => cases arrayCopy

end Changes

end Heap

end Canals.Redaction
