import Canals.Orders.ListOrders
import Canals.Pagination.Keyset

/-! Following `nextCursor` through `GET /orders` shows every order that matches
and was there from the start exactly once, newest first, whatever is inserted
on the way. The cursor says exactly which row a page ended at. -/
namespace Canals

/-- The filters as they are meant. -/
def ListOrdersParams.matches (r : Readers) (params : ListOrdersParams) (entry : OrderEntry) : Bool :=
  (given params.customerId).all (fun text => (r.toUuid text).any (entry.2.customerId = ·)) &&
  params.status.all (entry.2.status = ·) &&
  (given params.warehouseId).all (fun text =>
    (r.toUuid text).any (entry.2.warehouseId = some ·)) &&
  (given params.createdAtFrom).all (fun text => (r.parseDate text).any fun date =>
    date.toTimestamptz.us ≤ entry.2.createdAt.us) &&
  (given params.createdAtTo).all (fun text => (r.parseDate text).any fun date =>
    entry.2.createdAt.us ≤ date.toTimestamptz.us)

/-- What the controller's validation lets through: ids, dates and a page size
from 1 to 100. -/
structure ListOrdersParams.Valid (r : Readers) (params : ListOrdersParams) : Prop where
  customerId : ∀ text ∈ given params.customerId, (r.toUuid text).isSome
  warehouseId : ∀ text ∈ given params.warehouseId, (r.toUuid text).isSome
  createdAtFrom : ∀ text ∈ given params.createdAtFrom, (r.parseDate text).isSome
  createdAtTo : ∀ text ∈ given params.createdAtTo, (r.parseDate text).isSome
  pageSize : ∀ n ∈ params.pageSize, 1 ≤ n ∧ n ≤ 100

namespace OrdersTables

def matching (d : OrdersTables) (r : Readers) (params : ListOrdersParams) : List OrderEntry :=
  d.orders.entries.filter (params.matches r)

def itemsOf (d : OrdersTables) (orderId : Uuid) : List OrderItemReadRow :=
  (d.orderItems.filter (·.orderId = orderId)).map (·.toReadRow)

/-- Orders were inserted and no row changed; without `ORDER BY` the items of an
order come in any order. -/
structure Grows (d after : OrdersTables) : Prop where
  orders : ∀ {id row}, d.orders.lookup id = some row → after.orders.lookup id = some row
  items : ∀ {id}, (d.orders.lookup id).isSome → (after.itemsOf id).Perm (d.itemsOf id)

end OrdersTables

theorem given_some {text : String} (filled : text ≠ "") : given (some text) = some text :=
  Option.filter_eq_some_iff.mpr ⟨rfl, decide_eq_true filled⟩

section Cursor
variable {r : Readers} {entry : OrderEntry}

/-- An entry the tables can hold. -/
structure OrderEntry.Stored (entry : OrderEntry) : Prop where
  uuid : isUuid entry.1
  years : 1 ≤ Calendar.year entry.2.createdAt.us ∧ Calendar.year entry.2.createdAt.us ≤ 9999

def OrderEntry.cursor (entry : OrderEntry) : OrderCursor :=
  ⟨entry.toPageRow.cursorCreatedAt, entry.1⟩

theorem OrderEntry.Stored.ofText (stored : entry.Stored) :
    Calendar.ofText entry.toPageRow.cursorCreatedAt.toList = some entry.2.createdAt.us := by
  rw [OrderEntry.toPageRow, String.toList_ofList]
  exact Calendar.ofText_text (le_trans (by decide) stored.years.1) stored.years.2

theorem bytes_encode (r : Readers) (data : List UInt8) :
    r.bytes (String.ofList (Base64.encode data)) = data := by
  rw [Readers.bytes, String.toList_ofList, Base64.decode_encode, Option.getD_some]

theorem utf8_toUTF8 (r : Readers) (text : String) : r.utf8 text.toUTF8.data.toList = text := by
  have whole : (⟨text.toUTF8.data.toList.toArray⟩ : ByteArray) = text.toByteArray := by simp
  rw [Readers.utf8, whole, String.fromUTF8?, dif_pos text.isValidUTF8]
  rfl

theorem isUuid_no_bar {text : String} (uuid : isUuid text) : '|' ∉ text.toList := by
  intro member
  simp only [isUuid, Bool.and_eq_true, List.all_eq_true] at uuid
  exact absurd (uuid.1 _ member) (by decide)

theorem text_no_bar (us : Int) : '|' ∉ Calendar.text us := fun member =>
  absurd (Calendar.isDigit_or_of_mem_text member) (by decide)

/-- The text of a cursor is read back as it was written. -/
theorem decodeCursor_encodeCursor (stored : entry.Stored) :
    decodeCursor r (encodeCursor entry.cursor) = some entry.cursor := by
  have parts : (entry.cursor.createdAt ++ "|" ++ entry.cursor.id).toList.splitOn '|' =
      [Calendar.text entry.2.createdAt.us, entry.1.toList] := by
    simp only [OrderEntry.cursor, OrderEntry.toPageRow, String.toList_append, String.toList_ofList,
      List.append_assoc]
    rw [show "|".toList ++ entry.1.toList = '|' :: entry.1.toList from rfl,
      List.splitOn_append_cons_self_of_not_mem (text_no_bar _),
      List.splitOn_eq_singleton (isUuid_no_bar stored.uuid)]
  have date : r.parseDate entry.cursor.createdAt = some entry.2.createdAt.toDate := by
    rw [Readers.parseDate, OrderEntry.cursor, stored.ofText]
  rw [decodeCursor, encodeCursor, bytes_encode, utf8_toUTF8, parts]
  dsimp only
  rw [String.ofList_toList, show String.ofList _ = entry.cursor.createdAt from rfl, date]
  rfl

theorem decodeCursor_empty (r : Readers) : decodeCursor r "" = none := by
  have nothing : r.utf8 (r.bytes "") = "" := utf8_toUTF8 r ""
  rw [decodeCursor, nothing]
  rfl

theorem given_encodeCursor (r : Readers) (stored : entry.Stored) :
    given (some (encodeCursor entry.cursor)) = some (encodeCursor entry.cursor) := by
  refine given_some fun empty => ?_
  have read := decodeCursor_encodeCursor (r := r) stored
  rw [empty, decodeCursor_empty] at read
  cases read

theorem cursorCondition_cursor (stored : entry.Stored) :
    cursorCondition r (some entry.cursor) = .ok [fun other => other.key < entry.key] := by
  have createdAt : r.toTimestamptz entry.cursor.createdAt = .ok entry.2.createdAt := by
    rw [Readers.toTimestamptz, OrderEntry.cursor, stored.ofText]
    exact if_pos stored.years.1
  have id : r.toUuid entry.cursor.id = some entry.1 := if_pos stored.uuid
  simp only [cursorCondition, createdAt, id]
  rfl

end Cursor

section Filters
variable {r : Readers} {params : ListOrdersParams} {d : OrdersTables}

/-- A filter that is set holds of the rows that agree with it. -/
theorem fragment_spec {α β : Type} {filter : Option α} {cast : α → Option β} (code : String)
    (holds : β → Condition) (valid : ∀ a ∈ filter, (cast a).isSome) :
    ∃ conditions, fragment filter cast code holds = .ok conditions ∧ ∀ entry : OrderEntry,
      conditions.all (· entry) = filter.all fun a => (cast a).any fun b => holds b entry := by
  cases filter with
  | none => exact ⟨[], rfl, fun _ => rfl⟩
  | some a =>
    obtain ⟨b, bound⟩ := Option.isSome_iff_exists.mp (valid a rfl)
    refine ⟨[holds b], by simp only [fragment, bound], fun entry => ?_⟩
    simp [bound]

theorem filterConditions_spec (valid : params.Valid r) (cursor : Option OrderCursor) :
    ∃ conditions, filterConditions r (params.filters r cursor) = .ok conditions ∧
      ∀ entry : OrderEntry, conditions.all (· entry) = params.matches r entry := by
  have dates : ∀ {filter : Option String}, (∀ text ∈ filter, (r.parseDate text).isSome) →
      ∀ date ∈ filter.map r.parseDate, (id date).isSome := by
    intro filter valid date member
    obtain ⟨text, inside, rfl⟩ := Option.mem_map.mp member
    exact valid text inside
  obtain ⟨customer, customer', customers⟩ := fragment_spec INVALID_TEXT_REPRESENTATION
    (fun id entry => entry.2.customerId = id) valid.customerId
  obtain ⟨status, status', statuses⟩ := fragment_spec INVALID_TEXT_REPRESENTATION
    (fun status entry => entry.2.status = status) fun status (_ : status ∈ params.status) =>
      (rfl : (some status).isSome = true)
  obtain ⟨warehouse, warehouse', warehouses⟩ := fragment_spec INVALID_TEXT_REPRESENTATION
    (fun id entry => entry.2.warehouseId = some id) valid.warehouseId
  obtain ⟨first, first', firsts⟩ := fragment_spec INVALID_DATETIME_FORMAT
    (fun date entry => date.toTimestamptz.us ≤ entry.2.createdAt.us) (dates valid.createdAtFrom)
  obtain ⟨last, last', lasts⟩ := fragment_spec INVALID_DATETIME_FORMAT
    (fun date entry => entry.2.createdAt.us ≤ date.toTimestamptz.us) (dates valid.createdAtTo)
  refine ⟨customer ++ status ++ warehouse ++ first ++ last, ?_, fun entry => ?_⟩
  · simp only [filterConditions, ListOrdersParams.filters, customer', status', warehouse', first',
      last']
    rfl
  · simp only [List.all_append, customers, statuses, warehouses, firsts, lasts,
      ListOrdersParams.matches, Option.all_map]
    rfl

end Filters

section Items
variable {d : OrdersTables} {id : Uuid}

/-- Grouping keeps the items of an order, in their order. -/
theorem groupItems_lookup (items : List OrderItemReadRow) :
    ((groupItems items).lookup id).getD [] = items.filter (·.orderId = id) := by
  induction items using List.reverseRecOn with
  | nil => rfl
  | append_singleton items item ih =>
    rw [groupItems, List.foldl_concat, ← groupItems, List.filter_append]
    by_cases mine : item.orderId = id
    · subst mine
      cases found : (groupItems items).lookup item.orderId with
      | none =>
        rw [found] at ih
        simp only [AList.lookup_insert]
        simpa using ih
      | some existing =>
        rw [found] at ih
        simp only [AList.lookup_insert]
        simpa using ih
    · have other : id ≠ item.orderId := fun same => mine same.symm
      cases (groupItems items).lookup item.orderId with
      | none =>
        simp only [AList.lookup_insert_ne other]
        simpa [mine] using ih
      | some existing =>
        simp only [AList.lookup_insert_ne other]
        simpa [mine] using ih

theorem findItemsByOrderIds_filter {ids : List Uuid} (member : id ∈ ids) :
    (findItemsByOrderIds d ids).filter (·.orderId = id) = d.itemsOf id := by
  rw [findItemsByOrderIds, List.filter_map, List.filter_filter, OrdersTables.itemsOf]
  congr 1
  refine List.filter_congr fun item _ => ?_
  simp only [Function.comp_apply, StoredOrderItem.toReadRow]
  by_cases mine : item.orderId = id <;> simp [mine, member]

end Items

section Page
variable {r : Readers} {params : ListOrdersParams} {d atPage atItems : OrdersTables}

theorem OrdersTables.stored (d : OrdersTables) {entry : OrderEntry}
    (member : entry ∈ d.orders.entries) : entry.Stored :=
  ⟨d.uuids entry member, d.years entry member⟩

theorem OrdersTables.distinct (d : OrdersTables) (r : Readers) (params : ListOrdersParams) :
    ((d.matching r params).map OrderEntry.key).Nodup := by
  have keys : ((d.matching r params).map Sigma.fst).Nodup :=
    (show (d.orders.entries.map Sigma.fst).Nodup from d.orders.nodupKeys).sublist
      (List.filter_sublist.map Sigma.fst)
  refine List.Nodup.of_map (fun key => (ofLex key).2) ?_
  rw [List.map_map]
  exact keys

/-- The cursor a client sends along, and the row it stands for. -/
inductive Denotes : Option String → Option (Int ×ₗ Uuid) → Prop where
  | first : Denotes none none
  | after {entry : OrderEntry} : entry.Stored →
      Denotes (some (encodeCursor entry.cursor)) (some entry.key)

variable {cursor : Option String} {key : Option (Int ×ₗ Uuid)}

theorem Denotes.condition (denotes : Denotes cursor key) (r : Readers) :
    ∃ decoded conditions, (given cursor).mapM (decodeCursorOrThrow r) = .ok decoded ∧
      cursorCondition r decoded = .ok conditions ∧
      ∀ entry, conditions.all (· entry) = Keyset.under OrderEntry.key key entry := by
  cases denotes with
  | first => exact ⟨none, [], rfl, rfl, fun _ => rfl⟩
  | @after entry stored =>
    refine ⟨some entry.cursor, _, ?_, cursorCondition_cursor stored, fun other => ?_⟩
    · rw [given_encodeCursor r stored]
      simp only [Option.mapM_some, decodeCursorOrThrow, decodeCursor_encodeCursor stored]
      rfl
    · simp [Keyset.under]

/-- The rows a fetch can still show. -/
def OrdersTables.remaining (d : OrdersTables) (r : Readers) (params : ListOrdersParams)
    (key : Option (Int ×ₗ Uuid)) : List OrderEntry :=
  Keyset.remaining OrderEntry.key key (d.matching r params)

theorem findPage_spec (valid : params.Valid r) {decoded : Option OrderCursor}
    {conditions : List Condition} (cursor : cursorCondition r decoded = .ok conditions)
    (under : ∀ entry, conditions.all (· entry) = Keyset.under OrderEntry.key key entry) :
    findPage r d (params.filters r decoded) =
      .ok (((d.remaining r params key).take (params.size + 1)).map (·.toPageRow)) := by
  obtain ⟨filters, made, matched⟩ := filterConditions_spec valid decoded
  have rows : (d.orders.entries.filter fun entry => (filters ++ conditions).all (· entry)) =
      (d.matching r params).filter (Keyset.under OrderEntry.key key) := by
    rw [OrdersTables.matching, List.filter_filter]
    refine List.filter_congr fun entry _ => ?_
    rw [List.all_append, matched, under, Bool.and_comm]
  simp only [findPage, made, bind, Except.bind]
  rw [show (params.filters r decoded).cursor = decoded from rfl, cursor]
  simp only [rows]
  rfl

/-- The answer that shows the first rows under `key`. -/
def answer (r : Readers) (params : ListOrdersParams) (atPage atItems : OrdersTables)
    (key : Option (Int ×ₗ Uuid)) : ListOrdersResult where
  orders := ((atPage.remaining r params key).take params.size).map fun entry =>
    ⟨entry.toPageRow, atItems.itemsOf entry.1⟩
  hasMore := params.size < (atPage.remaining r params key).length
  nextCursor := if params.size < (atPage.remaining r params key).length then
      ((atPage.remaining r params key).take params.size).getLast?.map fun entry =>
        encodeCursor entry.cursor
    else none

theorem execute_spec (valid : params.Valid r) (denotes : Denotes cursor key) :
    ListOrdersService.execute r atPage atItems { params with cursor } =
      .ok (answer r params atPage atItems key) := by
  obtain ⟨decoded, conditions, read, made, under⟩ := denotes.condition r
  have page := findPage_spec (d := atPage) valid made under
  rw [answer]
  generalize atPage.remaining r params key = rows at page ⊢
  have longer : params.size < ((rows.take (params.size + 1)).map (·.toPageRow)).length ↔
      params.size < rows.length := by
    rw [List.length_map, List.length_take]
    omega
  have pageRows : (if params.size < ((rows.take (params.size + 1)).map (·.toPageRow)).length then
      ((rows.take (params.size + 1)).map (·.toPageRow)).take params.size
      else (rows.take (params.size + 1)).map (·.toPageRow)) =
      (rows.take params.size).map (·.toPageRow) := by
    rw [← List.map_take, List.take_take, Nat.min_eq_left (Nat.le_succ _)]
    split
    · rfl
    · rename_i short
      rw [longer, not_lt] at short
      rw [List.take_of_length_le short, List.take_of_length_le (Nat.le_succ_of_le short)]
  have shown : ((rows.take params.size).map (·.toPageRow)).map (fun row => (⟨row,
      ((groupItems (findItemsByOrderIds atItems (((rows.take params.size).map
        (·.toPageRow)).map (·.id)))).lookup row.id).getD []⟩ : ListOrdersOrder)) =
      (rows.take params.size).map fun entry => ⟨entry.toPageRow, atItems.itemsOf entry.1⟩ := by
    rw [List.map_map]
    refine List.map_congr_left fun entry member => ?_
    have listed : entry.1 ∈ ((rows.take params.size).map (·.toPageRow)).map (·.id) := by
      rw [List.map_map]
      exact List.mem_map_of_mem (f := fun entry : OrderEntry => entry.1) member
    exact congrArg (ListOrdersOrder.mk _)
      ((groupItems_lookup _).trans (findItemsByOrderIds_filter listed))
  simp only [ListOrdersService.execute, bind, Except.bind, read]
  rw [show ({ params with cursor } : ListOrdersParams).filters r decoded =
    params.filters r decoded from rfl, page]
  simp only [show ({ params with cursor } : ListOrdersParams).size = params.size from rfl]
  rw [pageRows, shown]
  simp only [longer, List.getLast?_map, Option.map_map]
  rfl

end Page

/-- One request: what its two queries saw and what it answered. -/
structure Fetch where
  atPage : OrdersTables
  atItems : OrdersTables
  result : ListOrdersResult

/-- The requests of a client that follows `nextCursor` until it is null, while
orders are inserted. -/
inductive Walks (r : Readers) (params : ListOrdersParams) :
    OrdersTables → Option String → List Fetch → OrdersTables → Prop where
  | last {d atPage atItems cursor result} : d.Grows atPage → atPage.Grows atItems →
      ListOrdersService.execute r atPage atItems { params with cursor } = .ok result →
      result.nextCursor = none → Walks r params d cursor [⟨atPage, atItems, result⟩] atItems
  | next {d atPage atItems cursor result nextCursor fetches final} :
      d.Grows atPage → atPage.Grows atItems →
      ListOrdersService.execute r atPage atItems { params with cursor } = .ok result →
      result.nextCursor = some nextCursor →
      Walks r params atItems (some nextCursor) fetches final →
      Walks r params d cursor (⟨atPage, atItems, result⟩ :: fetches) final

/-- A request answers with these rows, each with its own items, and says whether
a matching row follows the last of them. -/
structure Shows (r : Readers) (params : ListOrdersParams) (fetch : Fetch)
    (page : List OrderEntry) : Prop where
  orders : fetch.result.orders =
    page.map fun entry => ⟨entry.toPageRow, fetch.atItems.itemsOf entry.1⟩
  hasMore : fetch.result.hasMore ↔ ∃ last entry : OrderEntry, page.getLast? = some last ∧
    entry ∈ fetch.atPage.orders.entries ∧ params.matches r entry ∧ entry.key < last.key

section Walk
variable {r : Readers} {params : ListOrdersParams} {d after final : OrdersTables}
  {cursor : Option String} {key : Option (Int ×ₗ Uuid)} {fetches : List Fetch}

namespace OrdersTables.Grows

theorem refl (d : OrdersTables) : d.Grows d := ⟨id, fun _ => .refl _⟩

theorem trans {mid : OrdersTables} (first : d.Grows mid) (second : mid.Grows after) :
    d.Grows after where
  orders found := second.orders (first.orders found)
  items known := by
    obtain ⟨row, found⟩ := Option.isSome_iff_exists.mp known
    exact (second.items (by rw [first.orders found]; rfl)).trans (first.items known)

theorem entries (grows : d.Grows after) : d.orders.entries ⊆ after.orders.entries :=
  fun _ member => AList.mem_lookup_iff.mp (grows.orders (AList.mem_lookup_iff.mpr member))

theorem matching (grows : d.Grows after) : d.matching r params ⊆ after.matching r params := by
  intro entry member
  obtain ⟨inside, agrees⟩ := List.mem_filter.mp member
  exact List.mem_filter.mpr ⟨grows.entries inside, agrees⟩

end OrdersTables.Grows

theorem ListOrdersParams.Valid.size_pos (valid : params.Valid r) : 0 < params.size := by
  rw [size]
  cases given_ : params.pageSize with
  | none => decide
  | some n => exact (valid.pageSize n given_).1

variable {atPage atItems : OrdersTables}

theorem shows_answer (valid : params.Valid r) (key : Option (Int ×ₗ Uuid))
    (atPage atItems : OrdersTables) : Shows r params
    ⟨atPage, atItems, answer r params atPage atItems key⟩
      ((atPage.remaining r params key).take params.size) := by
  refine ⟨rfl, decide_eq_true_iff.trans ?_⟩
  refine (Keyset.lookahead_iff (atPage.distinct r params) valid.size_pos).trans ?_
  simp only [OrdersTables.matching, List.mem_filter, and_assoc]
  rfl

theorem answer_nextCursor (valid : params.Valid r) (key : Option (Int ×ₗ Uuid))
    (atPage atItems : OrdersTables) :
    ((atPage.remaining r params key).length ≤ params.size ∧
      (answer r params atPage atItems key).nextCursor = none) ∨
    (params.size < (atPage.remaining r params key).length ∧ ∃ entry,
      ((atPage.remaining r params key).take params.size).getLast? = some entry ∧
      (answer r params atPage atItems key).nextCursor = some (encodeCursor entry.cursor)) := by
  by_cases longer : params.size < (atPage.remaining r params key).length
  · obtain ⟨entry, -, ends, -⟩ :=
      (Keyset.lookahead_iff (atPage.distinct r params) valid.size_pos).mp longer
    refine .inr ⟨longer, entry, ends, ?_⟩
    rw [answer, if_pos longer, OrdersTables.remaining, ends]
    rfl
  · exact .inl ⟨not_lt.mp longer, if_neg longer⟩

/-- The client's requests are a walk along the keys. -/
theorem Walks.keyset (valid : params.Valid r) (walk : Walks r params d cursor fetches final)
    (denotes : Denotes cursor key) : ∃ pages after, after ⊆ final.matching r params ∧
      Keyset.Walk OrderEntry.key params.size (d.matching r params) key pages after ∧
      List.Forall₂ (Shows r params) fetches pages := by
  induction walk generalizing key with
  | @last d atPage atItems cursor result first second ran done =>
    cases (execute_spec valid denotes).symm.trans ran
    rcases answer_nextCursor valid key atPage atItems with
      ⟨short, -⟩ | ⟨-, entry, -, more⟩
    · refine ⟨_, _, second.matching, .last first.matching (atPage.distinct r params) short,
        .cons ?_ .nil⟩
      have page := shows_answer valid key atPage atItems
      rwa [List.take_of_length_le short] at page
    · cases done.symm.trans more
  | @next d atPage atItems cursor result nextCursor fetches final first second ran more rest ih =>
    cases (execute_spec valid denotes).symm.trans ran
    rcases answer_nextCursor valid key atPage atItems with
      ⟨-, done⟩ | ⟨longer, entry, ends, more'⟩
    · cases done.symm.trans more
    · have same := Option.some.inj (more'.symm.trans more)
      subst same
      have member := (List.mem_filter.mp (Keyset.mem_remaining.mp (Keyset.last_mem ends)).1).1
      obtain ⟨pages, after, included, walk, shown⟩ := ih (.after (atPage.stored member))
      exact ⟨_, after, included, .more first.matching (atPage.distinct r params) longer ends
        (walk.mono second.matching), .cons (shows_answer valid _ _ _) shown⟩

theorem Walks.grows_fetch (walk : Walks r params d cursor fetches final) {fetch : Fetch}
    (member : fetch ∈ fetches) : d.Grows fetch.atItems := by
  induction walk with
  | last first second _ _ =>
    cases List.mem_singleton.mp member
    exact first.trans second
  | next first second _ _ _ ih =>
    rcases List.mem_cons.mp member with rfl | later
    · exact first.trans second
    · exact (first.trans second).trans (ih later)

/-- Over tables that do not change, the client comes to the last page. -/
theorem walks_of_unchanged (valid : params.Valid r) (d : OrdersTables) :
    ∃ fetches, Walks r params d none fetches d := by
  have ends : ∀ key cursor, Denotes cursor key → ∃ fetches, Walks r params d cursor fetches d := by
    refine Keyset.descend OrderEntry.key (d.matching r params) (n := params.size) ?_
    intro key ih cursor denotes
    have ran : ListOrdersService.execute r d d { params with cursor } =
        .ok (answer r params d d key) := execute_spec valid denotes
    rcases answer_nextCursor valid key d d with
      ⟨-, done⟩ | ⟨-, entry, ends, more⟩
    · exact ⟨_, .last (.refl d) (.refl d) ran done⟩
    · have member := (List.mem_filter.mp (Keyset.mem_remaining.mp (Keyset.last_mem ends)).1).1
      obtain ⟨fetches, rest⟩ := ih entry ends _ (.after (d.stored member))
      exact ⟨_, .next (.refl d) (.refl d) ran more rest⟩
  exact ends none none .first

/-- Following the cursors shows every matching order that was there from the
start once, with its own items, in strictly decreasing order. -/
theorem complete_pagination (valid : params.Valid r) (d : OrdersTables) :
    (∃ fetches, Walks r params d none fetches d) ∧
    ∀ fetches final, Walks r params d none fetches final → ∃ pages : List (List OrderEntry),
      List.Forall₂ (Shows r params) fetches pages ∧
      (∀ page ∈ pages, page.length ≤ params.size) ∧
      pages.flatten.Pairwise (fun a b => b.key < a.key) ∧
      (∀ entry ∈ pages.flatten, entry ∈ final.orders.entries ∧ params.matches r entry) ∧
      (∀ entry ∈ d.orders.entries, params.matches r entry → entry ∈ pages.flatten) ∧
      (∀ fetch ∈ fetches, ∀ entry ∈ d.orders.entries,
        (fetch.atItems.itemsOf entry.1).Perm (d.itemsOf entry.1)) ∧
      (final.orders = d.orders → pages.flatten =
        (d.orders.entries.filter (params.matches r)).insertionSort fun a b => b.key ≤ a.key) := by
  refine ⟨walks_of_unchanged valid d, fun fetches final walk => ?_⟩
  obtain ⟨pages, after, included, keyset, shown⟩ := walk.keyset valid .first
  refine ⟨pages, shown, keyset.length_le, keyset.sorted.1, fun entry member => ?_,
    fun entry member agrees => ?_, fun fetch member entry inside => ?_, fun unchanged => ?_⟩
  · exact List.mem_filter.mp (included (keyset.sound entry member))
  · exact keyset.complete (List.mem_filter.mpr ⟨member, agrees⟩) rfl
  · refine (walk.grows_fetch member).items ?_
    rw [AList.mem_lookup_iff.mpr inside]
    rfl
  · have within : after ⊆ d.matching r params := fun entry member => by
      have inside := included member
      rwa [OrdersTables.matching, unchanged] at inside
    rw [keyset.flatten_eq within (d.distinct r params), Keyset.remaining]
    congr 1
    exact List.filter_eq_self.mpr fun _ _ => rfl

end Walk

section Lamp

def lampReaders : Readers where
  fromBase64 _ := []
  toString _ := "\uFFFD"
  newDate _ := none
  timestamptz _ := .error INVALID_DATETIME_FORMAT
  uuid _ := none

def lampCustomer : Uuid := "7d444840-9dc0-11d1-b245-5ffdce74fad2"

/-- Confirmed orders of one customer, two of them in the same microsecond. -/
def lampListed (n : Int) : OrderRow where
  orderNumber := s!"CNL-2026-00000{n}"
  customerId := lampCustomer
  warehouseId := none
  status := .CONFIRMED
  currency := "USD"
  totalCents := 1250
  shippingAddress := { recipient := "Ada", line1 := "1 Main St", city := "Denver", country := "US" }
  shippingLocation := ⟨-105, 40⟩
  reservationExpiresAt := none
  confirmedAt := none
  cancelledAt := none
  cancellationReason := none
  createdAt := ⟨1769212925132167 + n / 2⟩
  updatedAt := ⟨1769212925132167⟩

def lampTables : OrdersTables where
  orders := ((AList.singleton "a0000000-0000-4000-8000-000000000001" (lampListed 1)).insert
    "a0000000-0000-4000-8000-000000000002" (lampListed 2)).insert
    "a0000000-0000-4000-8000-000000000003" (lampListed 3)
  orderItems := [⟨⟨"a0000000-0000-4000-8000-000000000003", "lamp", 1, "SKU-1", "Lamp", 1250⟩, ⟨0⟩⟩]
  uuids := by decide +kernel
  years := by decide +kernel

def lampListing : ListOrdersParams where
  customerId := some lampCustomer
  status := some .CONFIRMED
  createdAtFrom := some "2026-01-01T00:00:00.000000Z"
  pageSize := some 2

theorem lampListing_valid : lampListing.Valid lampReaders where
  customerId := by decide +kernel
  warehouseId := nofun
  createdAtFrom := by decide +kernel
  createdAtTo := nofun
  pageSize := by decide +kernel

/-- The page ends between two orders of the same microsecond. -/
theorem complete_pagination_lamp :
    ((ListOrdersService.execute lampReaders lampTables lampTables lampListing).toOption.map
      fun result => (result.orders.map fun order => (order.order.id, order.items.length),
        result.hasMore)) =
      some ([("a0000000-0000-4000-8000-000000000003", 1),
        ("a0000000-0000-4000-8000-000000000002", 0)], true) ∧
    (∃ fetches, Walks lampReaders lampListing lampTables none fetches lampTables) ∧
    ∀ fetches final, Walks lampReaders lampListing lampTables none fetches final →
      ∃ pages : List (List OrderEntry),
        List.Forall₂ (Shows lampReaders lampListing) fetches pages ∧
        (∀ page ∈ pages, page.length ≤ 2) ∧
        pages.flatten.Pairwise (fun a b => b.key < a.key) ∧
        (∀ entry ∈ pages.flatten,
          entry ∈ final.orders.entries ∧ lampListing.matches lampReaders entry) ∧
        (∀ entry ∈ lampTables.orders.entries, lampListing.matches lampReaders entry →
          entry ∈ pages.flatten) ∧
        (∀ fetch ∈ fetches, ∀ entry ∈ lampTables.orders.entries,
          (fetch.atItems.itemsOf entry.1).Perm (lampTables.itemsOf entry.1)) ∧
        (final.orders = lampTables.orders → pages.flatten =
          (lampTables.orders.entries.filter (lampListing.matches lampReaders)).insertionSort
            fun a b => b.key ≤ a.key) :=
  ⟨by decide +kernel, complete_pagination lampListing_valid lampTables⟩

end Lamp

end Canals
