import Canals.Http.Json
import Mathlib.Tactic.IntervalCases

/-! The text that `JSON.stringify` writes says which value it is of, whatever text follows it. -/
namespace Canals.Json

/-- The characters that `Number.prototype.toString` writes for a finite number. -/
def isNumberChar (c : Char) : Bool := c.isDigit || ['-', '+', '.', 'e'].contains c

/-- How the numbers that there are are written: each otherwise than the others. -/
structure NumberTexts (numberToString : Rat → String) (isNumber : Rat → Prop) : Prop where
  chars : ∀ n, isNumber n → ∀ c ∈ (numberToString n).toList, isNumberChar c
  nonempty : ∀ n, isNumber n → (numberToString n).toList ≠ []
  injective : ∀ m n, isNumber m → isNumber n → numberToString m = numberToString n → m = n

section Numbers
variable (isNumber : Rat → Prop)

mutual
/-- The numbers in the value are such as there are. -/
def Numbers : Json → Prop
  | .num n => isNumber n
  | .arr items => NumbersItems items
  | .obj properties => NumbersEntries properties
  | _ => True

def NumbersItems : List Json → Prop
  | [] => True
  | value :: items => Numbers value ∧ NumbersItems items

def NumbersEntries : JsonObject → Prop
  | [] => True
  | (_, value) :: entries => Numbers value ∧ NumbersEntries entries
end

end Numbers

theorem quote_toList (s : String) :
    (quote s).toList = '"' :: (s.toList.flatMap escape ++ ['"']) := by
  rw [quote, String.toList_ofList, List.cons_append]

/-- What follows a backslash. -/
def unescapeAfter : List Char → Option (Char × List Char)
  | 'u' :: '0' :: '0' :: high :: low :: rest =>
    some (Char.ofNat (16 * "0123456789abcdef".toList.idxOf high +
      "0123456789abcdef".toList.idxOf low), rest)
  | c :: rest =>
    some (if c = 'b' then Char.ofNat 8
      else if c = 't' then Char.ofNat 9
      else if c = 'n' then Char.ofNat 10
      else if c = 'f' then Char.ofNat 12
      else if c = 'r' then Char.ofNat 13
      else c, rest)
  | [] => none

/-- The character that is written first, and the text after it. -/
def unescape : List Char → Option (Char × List Char)
  | [] => none
  | c :: rest => if c = '\\' then unescapeAfter rest else some (c, rest)

theorem unescape_escape (c : Char) (rest : List Char) :
    unescape (escape c ++ rest) = some (c, rest) := by
  have control : ∀ n, c.toNat = n → c = Char.ofNat n := by
    rintro n rfl
    exact (Char.ofNat_toNat c).symm
  unfold escape
  split
  · rename_i same
    subst same
    rfl
  split
  · rename_i same
    subst same
    rfl
  split
  · rename_i same
    rw [control _ same]
    rfl
  split
  · rename_i same
    rw [control _ same]
    rfl
  split
  · rename_i same
    rw [control _ same]
    rfl
  split
  · rename_i same
    rw [control _ same]
    rfl
  split
  · rename_i same
    rw [control _ same]
    rfl
  split
  · rename_i small
    rw [control _ rfl]
    have plain : (Char.ofNat c.toNat).toNat = c.toNat := by rw [Char.ofNat_toNat]
    rw [plain]
    generalize c.toNat = n at small
    interval_cases n <;> rfl
  · rename_i plain _ _ _ _ _ _
    rw [List.singleton_append, unescape, if_neg plain]

theorem escape_head (c : Char) : ∃ first more, escape c = first :: more ∧ first ≠ '"' := by
  unfold escape
  split
  · exact ⟨_, _, rfl, by decide⟩
  · rename_i plain
    repeat' split
    all_goals first
      | exact ⟨_, _, rfl, by decide⟩
      | exact ⟨_, _, rfl, plain⟩

/-- A string ends at the first quote that is not escaped. -/
theorem quoted_prefix {s t rest rest' : List Char}
    (same : s.flatMap escape ++ '"' :: rest = t.flatMap escape ++ '"' :: rest') :
    s = t ∧ rest = rest' := by
  induction s generalizing t with
  | nil =>
      cases t with
      | nil => exact ⟨rfl, (List.cons.inj same).2⟩
      | cons d t =>
          obtain ⟨first, more, head, other⟩ := escape_head d
          rw [List.flatMap_cons, head] at same
          exact absurd (List.cons.inj same).1.symm other
  | cons c s ih =>
      cases t with
      | nil =>
          obtain ⟨first, more, head, other⟩ := escape_head c
          rw [List.flatMap_cons, head] at same
          exact absurd (List.cons.inj same).1 other
      | cons d t =>
          rw [List.flatMap_cons, List.flatMap_cons, List.append_assoc, List.append_assoc] at same
          have read := congrArg unescape same
          rw [unescape_escape, unescape_escape] at read
          obtain ⟨rfl, later⟩ := Prod.mk.inj (Option.some.inj read)
          obtain ⟨rfl, rest_⟩ := ih later
          exact ⟨rfl, rest_⟩

theorem quote_prefix {s t : String} {rest rest' : List Char}
    (same : (quote s).toList ++ rest = (quote t).toList ++ rest') : s = t ∧ rest = rest' := by
  rw [quote_toList, quote_toList, List.cons_append, List.cons_append, List.append_assoc,
    List.append_assoc] at same
  obtain ⟨chars, rest_⟩ := quoted_prefix (List.cons.inj same).2
  exact ⟨String.toList_inj.mp chars, rest_⟩

section Values
variable {numberToString : Rat → String} {isNumber : Rat → Prop}

/-- No number goes on here. -/
def Stops (rest : List Char) : Prop :=
  ∀ c more, rest = c :: more → isNumberChar c = false

theorem takeWhile_stops {rest : List Char} (stops : Stops rest) :
    rest.takeWhile isNumberChar = [] := by
  cases rest with
  | nil => rfl
  | cons c more => rw [List.takeWhile_cons_of_neg (by simp [stops c more rfl])]

theorem number_prefix (texts : NumberTexts numberToString isNumber) {m n : Rat}
    {rest rest' : List Char} (left : isNumber m) (right : isNumber n) (stops : Stops rest)
    (stops' : Stops rest')
    (same : (numberToString m).toList ++ rest = (numberToString n).toList ++ rest') :
    m = n ∧ rest = rest' := by
  have spans := congrArg (List.takeWhile isNumberChar) same
  rw [List.takeWhile_append_of_pos (texts.chars m left),
    List.takeWhile_append_of_pos (texts.chars n right), takeWhile_stops stops,
    takeWhile_stops stops', List.append_nil, List.append_nil] at spans
  rw [spans] at same
  exact ⟨texts.injective m n left right (String.toList_inj.mp spans),
    List.append_cancel_left same⟩

/-- What the first character of a value's text says of it. -/
def kindOf (c : Char) : Nat :=
  if c = 'n' then 0
  else if c = 't' then 1
  else if c = 'f' then 2
  else if c = '"' then 3
  else if c = '[' then 4
  else if c = '\x7b' then 5
  else 6

def kind : Json → Nat
  | .null => 0
  | .bool b => if b then 1 else 2
  | .str _ => 3
  | .arr _ => 4
  | .obj _ => 5
  | .num _ => 6

theorem kindOf_number {c : Char} (number : isNumberChar c) : kindOf c = 6 ∧ c ≠ ']' := by
  have others : ∀ d, isNumberChar d = false → c ≠ d := by
    rintro d plain rfl
    rw [number] at plain
    cases plain
  refine ⟨?_, others _ (by decide)⟩
  rw [kindOf, if_neg (others _ (by decide)), if_neg (others _ (by decide)),
    if_neg (others _ (by decide)), if_neg (others _ (by decide)), if_neg (others _ (by decide)),
    if_neg (others _ (by decide))]

theorem stringify_head (texts : NumberTexts numberToString isNumber) {v : Json}
    (numbers : Numbers isNumber v) : ∃ first more,
      (stringify numberToString v).toList = first :: more ∧ kindOf first = kind v ∧
        first ≠ ']' := by
  cases v with
  | null =>
      rw [stringify]
      exact ⟨'n', "ull".toList, rfl, rfl, by decide⟩
  | bool b =>
      rw [stringify]
      cases b with
      | false => exact ⟨'f', "alse".toList, rfl, rfl, by decide⟩
      | true => exact ⟨'t', "rue".toList, rfl, rfl, by decide⟩
  | num n =>
      rw [Numbers] at numbers
      rw [stringify]
      cases text : (numberToString n).toList with
      | nil => exact absurd text (texts.nonempty n numbers)
      | cons first more =>
          have number := texts.chars n numbers first (text ▸ List.mem_cons_self)
          obtain ⟨kind_, bracket⟩ := kindOf_number number
          exact ⟨first, more, rfl, kind_, bracket⟩
  | str s =>
      rw [stringify, quote_toList]
      exact ⟨_, _, rfl, rfl, by decide⟩
  | arr items =>
      rw [stringify, String.toList_append, String.toList_append]
      exact ⟨_, _, rfl, rfl, by decide⟩
  | obj properties =>
      rw [stringify, String.toList_append, String.toList_append]
      exact ⟨_, _, rfl, rfl, by decide⟩

/-- The items after the first, each after a comma. -/
def laterItems (numberToString : Rat → String) : List Json → List Char
  | [] => []
  | items => ',' :: (",".intercalate (stringifyItems numberToString items)).toList

theorem items_cons (v : Json) (items : List Json) :
    (",".intercalate (stringifyItems numberToString (v :: items))).toList =
      (stringify numberToString v).toList ++ laterItems numberToString items := by
  cases items with
  | nil =>
      rw [stringifyItems, stringifyItems, String.intercalate_singleton, laterItems,
        List.append_nil]
  | cons w items =>
      rw [stringifyItems, stringifyItems, String.intercalate_cons_cons, ← stringifyItems,
        laterItems, String.toList_append, String.toList_append, List.append_assoc]
      · rfl
      · rintro ⟨⟩

def entryText (numberToString : Rat → String) (key : String) (v : Json) : List Char :=
  (quote key).toList ++ ':' :: (stringify numberToString v).toList

def laterEntries (numberToString : Rat → String) : JsonObject → List Char
  | [] => []
  | entries => ',' :: (",".intercalate (stringifyEntries numberToString entries)).toList

theorem entries_cons (key : String) (v : Json) (entries : JsonObject) :
    (",".intercalate (stringifyEntries numberToString ((key, v) :: entries))).toList =
      entryText numberToString key v ++ laterEntries numberToString entries := by
  have entry : (quote key ++ ":" ++ stringify numberToString v).toList =
      entryText numberToString key v := by
    rw [String.toList_append, String.toList_append, List.append_assoc]
    rfl
  cases entries with
  | nil =>
      rw [stringifyEntries, stringifyEntries, String.intercalate_singleton, laterEntries,
        List.append_nil, entry]
  | cons next entries =>
      obtain ⟨key', w⟩ := next
      rw [stringifyEntries, stringifyEntries, String.intercalate_cons_cons, ← stringifyEntries,
        laterEntries, String.toList_append, String.toList_append, List.append_assoc, entry]
      · rfl
      · rintro ⟨⟩

/-- Two values whose texts begin alike are of one kind. -/
theorem kind_eq (texts : NumberTexts numberToString isNumber) {u v : Json}
    {rest rest' : List Char} (left : Numbers isNumber u) (right : Numbers isNumber v)
    (same : (stringify numberToString u).toList ++ rest =
      (stringify numberToString v).toList ++ rest') : kind u = kind v := by
  obtain ⟨first, more, text, kind_, _⟩ := stringify_head texts left
  obtain ⟨first', more', text', kind', _⟩ := stringify_head texts right
  rw [text, text', List.cons_append, List.cons_append] at same
  rw [← kind_, ← kind', (List.cons.inj same).1]

theorem stops_laterItems {items : List Json} {rest : List Char} :
    Stops (laterItems numberToString items ++ ']' :: rest) := by
  cases items with
  | nil =>
      rintro c more ⟨⟩
      decide
  | cons v items =>
      rintro c more ⟨⟩
      decide

theorem stops_laterEntries {entries : JsonObject} {rest : List Char} :
    Stops (laterEntries numberToString entries ++ '\x7d' :: rest) := by
  cases entries with
  | nil =>
      rintro c more ⟨⟩
      decide
  | cons entry entries =>
      rintro c more ⟨⟩
      decide

/-- An array that has items does not end at once. -/
theorem items_open (texts : NumberTexts numberToString isNumber) {v : Json} {items : List Json}
    {rest rest' : List Char} (numbers : Numbers isNumber v) :
    (",".intercalate (stringifyItems numberToString (v :: items))).toList ++ rest ≠
      ']' :: rest' := by
  intro same
  obtain ⟨first, more, text, _, bracket⟩ := stringify_head texts numbers
  rw [items_cons, text] at same
  exact bracket (List.cons.inj same).1

theorem entries_open {key : String} {v : Json} {entries : JsonObject} {rest rest' : List Char} :
    (",".intercalate (stringifyEntries numberToString ((key, v) :: entries))).toList ++ rest ≠
      '\x7d' :: rest' := by
  intro same
  rw [entries_cons, entryText, quote_toList] at same
  exact absurd (List.cons.inj same).1 (by decide)

mutual
/-- The text of a value ends where the value does. -/
theorem stringify_front (texts : NumberTexts numberToString isNumber) (u v : Json)
    {rest rest' : List Char} (left : Numbers isNumber u) (right : Numbers isNumber v)
    (stops : Stops rest) (stops' : Stops rest')
    (same : (stringify numberToString u).toList ++ rest =
      (stringify numberToString v).toList ++ rest') : u = v ∧ rest = rest' := by
  have kinds := kind_eq texts left right same
  cases u with
  | null =>
      cases v with
      | null => exact ⟨rfl, List.append_cancel_left same⟩
      | bool b => cases b <;> cases kinds
      | _ => cases kinds
  | bool b =>
      cases v with
      | bool b' =>
          obtain rfl : b = b' := by
            cases b <;> cases b' <;> first | rfl | cases kinds
          exact ⟨rfl, List.append_cancel_left same⟩
      | _ => cases b <;> cases kinds
  | num m =>
      cases v with
      | num n =>
          rw [stringify, stringify] at same
          obtain ⟨rfl, rest_⟩ := number_prefix texts left right stops stops' same
          exact ⟨rfl, rest_⟩
      | bool b => cases b <;> cases kinds
      | _ => cases kinds
  | str s =>
      cases v with
      | str t =>
          rw [stringify, stringify] at same
          obtain ⟨rfl, rest_⟩ := quote_prefix same
          exact ⟨rfl, rest_⟩
      | bool b => cases b <;> cases kinds
      | _ => cases kinds
  | arr items =>
      cases v with
      | arr items' =>
          rw [stringify, stringify] at same
          simp only [String.toList_append, List.append_assoc] at same
          obtain ⟨rfl, rest_⟩ := items_prefix texts items items' left right
            (List.cons.inj same).2
          exact ⟨rfl, rest_⟩
      | bool b => cases b <;> cases kinds
      | _ => cases kinds
  | obj properties =>
      cases v with
      | obj properties' =>
          rw [stringify, stringify] at same
          simp only [String.toList_append, List.append_assoc] at same
          obtain ⟨rfl, rest_⟩ := entries_prefix texts properties properties' left right
            (List.cons.inj same).2
          exact ⟨rfl, rest_⟩
      | bool b => cases b <;> cases kinds
      | _ => cases kinds

theorem items_prefix (texts : NumberTexts numberToString isNumber) (us vs : List Json)
    {rest rest' : List Char} (left : NumbersItems isNumber us) (right : NumbersItems isNumber vs)
    (same : (",".intercalate (stringifyItems numberToString us)).toList ++ ']' :: rest =
      (",".intercalate (stringifyItems numberToString vs)).toList ++ ']' :: rest') :
    us = vs ∧ rest = rest' := by
  cases us with
  | nil =>
      cases vs with
      | nil => exact ⟨rfl, List.cons.inj (List.append_cancel_left same) |>.2⟩
      | cons v vs =>
          rw [NumbersItems] at right
          exact absurd same.symm (items_open texts right.1)
  | cons u us =>
      rw [NumbersItems] at left
      cases vs with
      | nil => exact absurd same (items_open texts left.1)
      | cons v vs =>
          rw [NumbersItems] at right
          rw [items_cons, items_cons, List.append_assoc, List.append_assoc] at same
          obtain ⟨rfl, later⟩ := stringify_front texts u v left.1 right.1 stops_laterItems
            stops_laterItems same
          cases us with
          | nil =>
              cases vs with
              | nil => exact ⟨rfl, (List.cons.inj later).2⟩
              | cons w vs => exact absurd (List.cons.inj later).1 (by decide)
          | cons w us =>
              cases vs with
              | nil => exact absurd (List.cons.inj later).1 (by decide)
              | cons w' vs =>
                  obtain ⟨same', rest_⟩ := items_prefix texts (w :: us) (w' :: vs) left.2 right.2
                    (List.cons.inj later).2
                  exact ⟨by rw [same'], rest_⟩

theorem entries_prefix (texts : NumberTexts numberToString isNumber) (ps qs : JsonObject)
    {rest rest' : List Char} (left : NumbersEntries isNumber ps)
    (right : NumbersEntries isNumber qs)
    (same : (",".intercalate (stringifyEntries numberToString ps)).toList ++ '\x7d' :: rest =
      (",".intercalate (stringifyEntries numberToString qs)).toList ++ '\x7d' :: rest') :
    ps = qs ∧ rest = rest' := by
  match ps, qs with
  | [], [] => exact ⟨rfl, List.cons.inj (List.append_cancel_left same) |>.2⟩
  | [], (key, v) :: qs => exact absurd same.symm entries_open
  | (key, u) :: ps, [] => exact absurd same entries_open
  | (key, u) :: ps, (key', v) :: qs =>
      rw [NumbersEntries] at left right
      rw [entries_cons, entries_cons, entryText, entryText] at same
      simp only [List.append_assoc, List.cons_append] at same
      obtain ⟨rfl, valued⟩ := quote_prefix same
      obtain ⟨rfl, later⟩ := stringify_front texts u v left.1 right.1 stops_laterEntries
        stops_laterEntries (List.cons.inj valued).2
      cases ps with
      | nil =>
          cases qs with
          | nil => exact ⟨rfl, (List.cons.inj later).2⟩
          | cons next qs => exact absurd (List.cons.inj later).1 (by decide)
      | cons next ps =>
          cases qs with
          | nil => exact absurd (List.cons.inj later).1 (by decide)
          | cons next' qs =>
              obtain ⟨same', rest_⟩ := entries_prefix texts (next :: ps) (next' :: qs) left.2
                right.2 (List.cons.inj later).2
              exact ⟨by rw [same'], rest_⟩
end

/-- `JSON.stringify` writes different values differently. -/
theorem stringify_injective (texts : NumberTexts numberToString isNumber) {u v : Json}
    (left : Numbers isNumber u) (right : Numbers isNumber v)
    (same : stringify numberToString u = stringify numberToString v) : u = v := by
  have ends : Stops [] := by rintro c more ⟨⟩
  exact (stringify_front texts u v left right ends ends (by rw [same])).1

end Values

end Canals.Json
