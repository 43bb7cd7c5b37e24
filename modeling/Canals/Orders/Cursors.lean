import Canals.Orders.ListOrdersSpec
import Canals.Text.UuidInput

/-! Which texts sent as a cursor the listing can use. A cursor is taken apart and its first half
read as a `Date`; what the query makes of the two halves is for the database to say. -/
namespace Canals

/-- Postgres reads no other text as a `uuid`. -/
structure Readers.ReadsUuid (r : Readers) : Prop where
  uuid : ∀ text, (r.uuid text).isSome ↔ UuidInput.accepts text.toList

/-- The query is sent with no cursor, or with one whose halves pass their casts. -/
def Usable (r : Readers) (decoded : Option OrderCursor) : Prop :=
  ∀ cursor ∈ decoded, (r.toTimestamptz cursor.createdAt).isOk ∧ (r.toUuid cursor.id).isSome

/-- The text is refused as a bad request or passed on as a usable cursor, and no request that
carries it ends in an error of the database. -/
structure CursorHandled (r : Readers) (cursor : String) : Prop where
  refusedOrUsable :
    (given (some cursor)).mapM (decodeCursorOrThrow r) =
      .error (.badRequest s!"Invalid cursor: {cursor}") ∨
    ∃ decoded, (given (some cursor)).mapM (decodeCursorOrThrow r) = .ok decoded ∧ Usable r decoded
  noDatabaseError : ∀ (params : ListOrdersParams) (atPage atItems : OrdersTables) (e : DbError),
    params.Valid r →
      ListOrdersService.execute r atPage atItems { params with cursor := some cursor } ≠
        .error (.database e)

/-- The halves of what the text encodes, where it encodes two. -/
def cursorHalves (r : Readers) (cursor : String) : Option (String × String) :=
  match (r.utf8 (r.bytes cursor)).toList.splitOn '|' with
  | [createdAt, id] => some (String.ofList createdAt, String.ofList id)
  | _ => none

section Spec
variable {r : Readers} {params : ListOrdersParams} {text cursor : String}
  {atPage atItems : OrdersTables}

theorem mem_splitOn {separator c : Char} {chars part : List Char}
    (member : part ∈ chars.splitOn separator) (inside : c ∈ part) :
    c ∈ chars ∧ c ≠ separator := by
  induction chars generalizing part with
  | nil =>
      rw [List.splitOn_nil, List.mem_singleton] at member
      subst member
      cases inside
  | cons first rest ih =>
      rw [List.splitOn_cons_eq_if_modifyHead] at member
      split at member
      · cases List.mem_cons.mp member with
        | inl empty =>
            subst empty
            cases inside
        | inr later =>
            obtain ⟨there, other⟩ := ih later inside
            exact ⟨List.mem_cons_of_mem _ there, other⟩
      · rename_i plain
        cases parts : rest.splitOn separator with
        | nil => exact absurd parts (List.splitOn_ne_nil _ _)
        | cons head tail =>
            rw [parts, List.modifyHead_cons] at member
            cases List.mem_cons.mp member with
            | inl front =>
                subst front
                cases List.mem_cons.mp inside with
                | inl same => exact ⟨List.mem_cons.mpr (.inl same), same ▸ by simpa using plain⟩
                | inr later =>
                    obtain ⟨there, other⟩ := ih (by rw [parts]; exact List.mem_cons_self) later
                    exact ⟨List.mem_cons_of_mem _ there, other⟩
            | inr back =>
                have among : part ∈ rest.splitOn separator := by
                  rw [parts]
                  exact List.mem_cons_of_mem _ back
                obtain ⟨there, other⟩ := ih among inside
                exact ⟨List.mem_cons_of_mem _ there, other⟩

/-- The five groups between the hyphens of a `uuid`. -/
theorem isUuid_groups (uuid : isUuid text) : ∃ first second third fourth last : List Char,
    text.toList = first ++ '-' :: (second ++ '-' :: (third ++ '-' :: (fourth ++ '-' :: last))) ∧
      [first, second, third, fourth, last].map (·.length) = [8, 4, 4, 4, 12] ∧
      ∀ part ∈ [first, second, third, fourth, last], ∀ c ∈ part,
        c.isDigit || ('a' ≤ c && c ≤ 'f') := by
  rw [isUuid, Bool.and_eq_true, List.all_eq_true, decide_eq_true_eq] at uuid
  obtain ⟨letters, lengths⟩ := uuid
  obtain ⟨first, parts, split, eight, rest⟩ := List.map_eq_cons_iff.mp lengths
  obtain ⟨second, parts, rfl, four, rest⟩ := List.map_eq_cons_iff.mp rest
  obtain ⟨third, parts, rfl, four', rest⟩ := List.map_eq_cons_iff.mp rest
  obtain ⟨fourth, parts, rfl, four'', rest⟩ := List.map_eq_cons_iff.mp rest
  obtain ⟨last, parts, rfl, twelve, rest⟩ := List.map_eq_cons_iff.mp rest
  obtain rfl := List.map_eq_nil_iff.mp rest
  have whole : ['-'].intercalate (text.toList.splitOn '-') = text.toList :=
    List.intercalate_splitOn '-'
  refine ⟨first, second, third, fourth, last, ?_, split ▸ lengths, fun part member c inside => ?_⟩
  · rw [split] at whole
    simpa using whole.symm
  · obtain ⟨there, other⟩ := mem_splitOn (split ▸ member) inside
    have letter := letters c there
    simpa only [other, decide_false, Bool.or_false] using letter

/-- What is stored as a `uuid` is read as one. -/
theorem isUuid_accepts (uuid : isUuid text) : UuidInput.accepts text.toList := by
  obtain ⟨first, second, third, fourth, last, whole, lengths, letters⟩ := isUuid_groups uuid
  have sizes : first.length = 8 ∧ second.length = 4 ∧ third.length = 4 ∧ fourth.length = 4 ∧
      last.length = 12 := by simpa using lengths
  obtain ⟨eight, four, four', four'', twelve⟩ := sizes
  have digits : [first, second, third, fourth, last].all (·.all UuidInput.isHexDigit) := by
    simp only [List.all_eq_true]
    intro part member c inside
    rw [UuidInput.isHexDigit, letters part member c inside, Bool.true_or]
  rw [whole]
  exact UuidInput.accepts_standard eight four four' four'' twelve digits

theorem Readers.ReadsUuid.toUuid (reads : r.ReadsUuid) (text : String) :
    (r.toUuid text).isSome ↔ UuidInput.accepts text.toList := by
  rw [Readers.toUuid]
  split
  · rename_i stored
    exact iff_of_true rfl (isUuid_accepts stored)
  · exact reads.uuid text

theorem decodeCursor_eq (r : Readers) (cursor : String) : decodeCursor r cursor =
    (cursorHalves r cursor).bind fun (createdAt, id) =>
      if (r.parseDate createdAt).isNone then none else some ⟨createdAt, id⟩ := by
  unfold decodeCursor cursorHalves
  dsimp only
  generalize (r.utf8 (r.bytes cursor)).toList.splitOn '|' = parts
  rcases parts with _ | ⟨createdAt, _ | ⟨id, _ | ⟨other, rest⟩⟩⟩
  · rfl
  · rfl
  · rfl
  · rfl

theorem cursorCondition_usable {decoded : Option OrderCursor} (usable : Usable r decoded) :
    ∃ conditions, cursorCondition r decoded = .ok conditions := by
  cases decoded with
  | none => exact ⟨[], rfl⟩
  | some cursor =>
      obtain ⟨readable, id⟩ := usable cursor rfl
      obtain ⟨id, named⟩ := Option.isSome_iff_exists.mp id
      rw [cursorCondition, named]
      cases read : r.toTimestamptz cursor.createdAt with
      | error code =>
          rw [read] at readable
          cases readable
      | ok createdAt => exact ⟨_, rfl⟩

/-- With a cursor that is usable, valid parameters are answered. -/
theorem execute_usable {decoded : Option OrderCursor} (valid : params.Valid r)
    (read : (given (some cursor)).mapM (decodeCursorOrThrow r) = .ok decoded)
    (usable : Usable r decoded) : ∃ result,
      ListOrdersService.execute r atPage atItems { params with cursor := some cursor } =
        .ok result := by
  obtain ⟨conditions, made⟩ := cursorCondition_usable usable
  obtain ⟨filters, filtered, _⟩ := filterConditions_spec valid decoded
  have page : ∃ rows, findPage r atPage (params.filters r decoded) = .ok rows := by
    simp only [findPage, filtered, bind, Except.bind]
    rw [show (params.filters r decoded).cursor = decoded from rfl, made]
    exact ⟨_, rfl⟩
  obtain ⟨rows, page⟩ := page
  simp only [ListOrdersService.execute, bind, Except.bind, read]
  rw [show ({ params with cursor := some cursor } : ListOrdersParams).filters r decoded =
    params.filters r decoded from rfl, page]
  exact ⟨_, rfl⟩

theorem execute_refused {e : ListOrdersError}
    (refused : (given (some cursor)).mapM (decodeCursorOrThrow r) = .error e) :
    ListOrdersService.execute r atPage atItems { params with cursor := some cursor } =
      .error e := by
  simp only [ListOrdersService.execute, bind, Except.bind, refused]

/-- What becomes of the text before the query. -/
theorem read_cases (r : Readers) (cursor : String) :
    ((given (some cursor)).mapM (decodeCursorOrThrow r) = .ok none ∧
      decodeCursor r cursor = none) ∨
    ((given (some cursor)).mapM (decodeCursorOrThrow r) =
      .error (.badRequest s!"Invalid cursor: {cursor}") ∧ decodeCursor r cursor = none) ∨
    ∃ decoded, (given (some cursor)).mapM (decodeCursorOrThrow r) = .ok (some decoded) ∧
      decodeCursor r cursor = some decoded := by
  by_cases empty : cursor = ""
  · subst empty
    exact .inl ⟨rfl, decodeCursor_empty r⟩
  · rw [given_some empty, Option.mapM_some, decodeCursorOrThrow]
    cases decodeCursor r cursor with
    | none => exact .inr (.inl ⟨rfl, rfl⟩)
    | some decoded => exact .inr (.inr ⟨decoded, rfl, rfl⟩)

/-- Two halves, of which the first is a date, go on to the casts. -/
theorem CursorHandled.casts {createdAt id : String} (handled : CursorHandled r cursor)
    (halves : cursorHalves r cursor = some (createdAt, id))
    (date : (r.parseDate createdAt).isSome) :
    (r.toTimestamptz createdAt).isOk ∧ (r.toUuid id).isSome := by
  have decoded : decodeCursor r cursor = some ⟨createdAt, id⟩ := by
    rw [decodeCursor_eq, halves, Option.bind_some]
    dsimp only
    rw [if_neg]
    rw [Option.isNone_iff_eq_none]
    exact Option.isSome_iff_ne_none.mp date
  rcases read_cases r cursor with ⟨_, none⟩ | ⟨_, none⟩ | ⟨other, read, same⟩
  · cases none.symm.trans decoded
  · cases none.symm.trans decoded
  · obtain rfl := Option.some.inj (same.symm.trans decoded)
    rcases handled.refusedOrUsable with refused | ⟨passed, read', usable⟩
    · cases refused.symm.trans read
    · obtain rfl := Except.ok.inj (read'.symm.trans read)
      exact usable ⟨createdAt, id⟩ rfl

/-- Exactly the texts that encode two halves, the first of them a `Date` to V8, of which the
casts of the query do not accept both, go wrong. -/
theorem cursorHandled_iff (reads : r.ReadsUuid) : CursorHandled r cursor ↔
    ∀ createdAt id, cursorHalves r cursor = some (createdAt, id) →
      (r.parseDate createdAt).isSome →
      (r.toTimestamptz createdAt).isOk ∧ UuidInput.accepts id.toList := by
  constructor
  · intro handled createdAt id halves date
    obtain ⟨timestamp, uuid⟩ := handled.casts halves date
    exact ⟨timestamp, (reads.toUuid id).mp uuid⟩
  · intro fits
    have refusedOrUsable : (given (some cursor)).mapM (decodeCursorOrThrow r) =
        .error (.badRequest s!"Invalid cursor: {cursor}") ∨
        ∃ decoded, (given (some cursor)).mapM (decodeCursorOrThrow r) = .ok decoded ∧
          Usable r decoded := by
      rcases read_cases r cursor with ⟨read, _⟩ | ⟨read, _⟩ | ⟨decoded, read, same⟩
      · refine .inr ⟨none, read, ?_⟩
        rintro _ ⟨⟩
      · exact .inl read
      · refine .inr ⟨some decoded, read, ?_⟩
        rintro _ ⟨⟩
        rw [decodeCursor_eq] at same
        obtain ⟨⟨createdAt, id⟩, halves, same⟩ := Option.bind_eq_some_iff.mp same
        dsimp only at same
        split at same
        · cases same
        · rename_i date
          cases same
          rw [Option.isNone_iff_eq_none] at date
          obtain ⟨timestamp, uuid⟩ :=
            fits createdAt id halves (Option.isSome_iff_ne_none.mpr date)
          exact ⟨timestamp, (reads.toUuid id).mpr uuid⟩
    constructor
    · exact refusedOrUsable
    · intro params atPage atItems e valid failed
      rcases refusedOrUsable with refused | ⟨decoded, read, usable⟩
      · cases (execute_refused refused).symm.trans failed
      · have answered : ∃ result, ListOrdersService.execute r atPage atItems
            { params with cursor := some cursor } = .ok result := execute_usable valid read usable
        obtain ⟨result, answered⟩ := answered
        cases answered.symm.trans failed

end Spec

section Edited

/-- Of the texts in no form of the model, these read the other spellings of a `uuid`. -/
def uuidReaders : Readers where
  fromBase64 _ := []
  toString _ := "\uFFFD"
  newDate _ := none
  timestamptz _ := .error INVALID_DATETIME_FORMAT
  uuid text := if UuidInput.accepts text.toList then
      some (String.ofList (UuidInput.stored text.toList))
    else none

theorem uuidReaders_readsUuid : uuidReaders.ReadsUuid where
  uuid := by
    intro text
    rw [uuidReaders]
    dsimp only
    split
    · rename_i reads
      exact iff_of_true rfl reads
    · rename_i unread
      exact iff_of_false (by rintro ⟨⟩) unread

theorem cursorHalves_encodeCursor {cursor : OrderCursor} (r : Readers)
    (bar : '|' ∉ cursor.createdAt.toList) (bar' : '|' ∉ cursor.id.toList) :
    cursorHalves r (encodeCursor cursor) = some (cursor.createdAt, cursor.id) := by
  have parts : (cursor.createdAt ++ "|" ++ cursor.id).toList.splitOn '|' =
      [cursor.createdAt.toList, cursor.id.toList] := by
    rw [String.toList_append, String.toList_append, List.append_assoc,
      show "|".toList ++ cursor.id.toList = '|' :: cursor.id.toList from rfl,
      List.splitOn_append_cons_self_of_not_mem bar, List.splitOn_eq_singleton bar']
  rw [cursorHalves, encodeCursor, bytes_encode, utf8_toUTF8, parts]
  dsimp only
  rw [String.ofList_toList, String.ofList_toList]

def editedCursor : OrderCursor where
  createdAt := "2026-01-15T10:30:00.000000Z"
  id := "x"

/-- `2026-01-15T10:30:00.000000Z|x` is passed on to the cast. -/
theorem editedCursor_unhandled : encodeCursor editedCursor =
      "MjAyNi0wMS0xNVQxMDozMDowMC4wMDAwMDBafHg=" ∧
    uuidReaders.ReadsUuid ∧ ¬ CursorHandled uuidReaders (encodeCursor editedCursor) := by
  refine ⟨by decide +kernel, uuidReaders_readsUuid, ?_⟩
  intro handled
  have halves : cursorHalves uuidReaders (encodeCursor editedCursor) =
      some (editedCursor.createdAt, editedCursor.id) :=
    cursorHalves_encodeCursor uuidReaders (by decide) (by decide)
  obtain ⟨_, uuid⟩ := handled.casts halves (by decide +kernel)
  exact absurd ((uuidReaders_readsUuid.toUuid _).mp uuid) (by decide +kernel)

/-- Upper case and no hyphens, but a `uuid` all the same. -/
theorem cursorHandled_iff_spelled : CursorHandled uuidReaders (encodeCursor
    ⟨"2026-01-15T10:30:00.000000Z", "A0000000000040008000000000000001"⟩) := by
  apply (cursorHandled_iff uuidReaders_readsUuid).mpr
  intro createdAt id halves _
  rw [cursorHalves_encodeCursor uuidReaders (by decide) (by decide)] at halves
  obtain ⟨rfl, rfl⟩ := Prod.mk.inj (Option.some.inj halves)
  exact ⟨by decide +kernel, by decide +kernel⟩

end Edited

end Canals
