import Canals.Database.Schema
import Canals.Text.Base64
import Canals.Text.Calendar
import Mathlib.Data.List.Sort
import Mathlib.Data.Prod.Lex
import Mathlib.Data.String.Basic

/-! `GET /orders`: `ListOrdersService`, the cursor helpers and the queries of
`OrdersReadRepository` behind it. -/
namespace Canals

/-- Eight, four, four, four and twelve lower-case hexadecimal digits. -/
def isUuid (text : String) : Bool :=
  (text.toList.all fun c => c.isDigit || ('a' ≤ c && c ≤ 'f') || c = '-') &&
    (text.toList.splitOn '-').map List.length = [8, 4, 4, 4, 12]

/-- An `order_items` row as the listing reads it. -/
structure StoredOrderItem extends OrderItemRow where
  createdAt : Timestamptz
  deriving DecidableEq

/-- The tables of the listing. A `uuid` column holds uuids, and no order is from
outside the years 1 to 9999. -/
structure OrdersTables where
  orders : AList fun _ : Uuid => OrderRow
  orderItems : List StoredOrderItem
  uuids : ∀ entry ∈ orders.entries, isUuid entry.1
  years : ∀ entry ∈ orders.entries, 1 ≤ Calendar.year entry.2.createdAt.us ∧
    Calendar.year entry.2.createdAt.us ≤ 9999

/-- An entry of `orders`: primary key and columns. -/
abbrev OrderEntry := Σ _ : Uuid, OrderRow

/-- What V8, `Buffer` and Postgres make of texts in none of the forms below. A cast to
`timestamptz` that fails has its `SQLSTATE`. -/
structure Readers where
  fromBase64 : String → List UInt8
  toString : List UInt8 → String
  newDate : String → Option Date
  timestamptz : String → Except String Timestamptz
  uuid : String → Option Uuid

/-- 22P02 -/
def INVALID_TEXT_REPRESENTATION : String := "22P02"

/-- 22007 -/
def INVALID_DATETIME_FORMAT : String := "22007"

/-- 22008 -/
def DATETIME_FIELD_OVERFLOW : String := "22008"

namespace Readers
variable (r : Readers)

/-- `Buffer.from(text, 'base64')` -/
def bytes (text : String) : List UInt8 := (Base64.decode text.toList).getD (r.fromBase64 text)

/-- `Buffer.prototype.toString('utf8')` -/
def utf8 (bytes : List UInt8) : String :=
  (String.fromUTF8? ⟨bytes.toArray⟩).getD (r.toString bytes)

/-- `new Date(text)`, if it is a valid date; digits below the millisecond are cut. -/
def parseDate (text : String) : Option Date :=
  match Calendar.ofText text.toList with
  | some us => some (Timestamptz.toDate ⟨us⟩)
  | none => r.newDate text

/-- `$n::timestamptz`. There is no year zero. -/
def toTimestamptz (text : String) : Except String Timestamptz :=
  match Calendar.ofText text.toList with
  | some us => if 1 ≤ Calendar.year us then .ok ⟨us⟩ else .error DATETIME_FIELD_OVERFLOW
  | none => r.timestamptz text

/-- `$n::uuid` -/
def toUuid (text : String) : Option Uuid := if isUuid text then some text else r.uuid text

end Readers

structure OrderCursor where
  createdAt : String
  id : String
  deriving DecidableEq

inductive ListOrdersError where
  | badRequest (message : String)
  | database (e : DbError)
  deriving DecidableEq

def encodeCursor (params : OrderCursor) : String :=
  String.ofList (Base64.encode (params.createdAt ++ "|" ++ params.id).toUTF8.data.toList)

/-- `none` is an `InvalidCursorError`. -/
def decodeCursor (r : Readers) (cursor : String) : Option OrderCursor :=
  let decoded := r.utf8 (r.bytes cursor)
  match decoded.toList.splitOn '|' with
  | [createdAt, id] =>
    if (r.parseDate (String.ofList createdAt)).isNone then none
    else some { createdAt := String.ofList createdAt, id := String.ofList id }
  | _ => none

/-- A `new Date(…)` may be an invalid date, which is `none`. -/
structure OrdersPageFilters where
  customerId : Option String := none
  status : Option OrderStatus := none
  warehouseId : Option String := none
  createdAtFrom : Option (Option Date) := none
  createdAtTo : Option (Option Date) := none
  cursor : Option OrderCursor := none
  pageSize : Nat

structure OrderPageRow where
  id : Uuid
  orderNumber : String
  customerId : Uuid
  warehouseId : Option Uuid
  status : OrderStatus
  currency : String
  totalCents : String
  createdAt : Date
  cursorCreatedAt : String
  deriving DecidableEq

structure OrderItemReadRow where
  orderId : Uuid
  productId : Uuid
  quantity : Int
  productSkuSnapshot : String
  productNameSnapshot : String
  unitPriceCents : String
  createdAt : Date
  deriving DecidableEq

/-- A `bigint` is hydrated as text. -/
def OrderEntry.toPageRow (entry : OrderEntry) : OrderPageRow where
  id := entry.1
  orderNumber := entry.2.orderNumber
  customerId := entry.2.customerId
  warehouseId := entry.2.warehouseId
  status := entry.2.status
  currency := entry.2.currency
  totalCents := toString entry.2.totalCents
  createdAt := entry.2.createdAt.toDate
  cursorCreatedAt := String.ofList (Calendar.text entry.2.createdAt.us)

def StoredOrderItem.toReadRow (item : StoredOrderItem) : OrderItemReadRow where
  orderId := item.orderId
  productId := item.productId
  quantity := item.quantity
  productSkuSnapshot := item.productSkuSnapshot
  productNameSnapshot := item.productNameSnapshot
  unitPriceCents := toString item.unitPriceCents
  createdAt := item.createdAt.toDate

/-- `(created_at, id)` -/
def OrderEntry.key (entry : OrderEntry) : Int ×ₗ Uuid := toLex (entry.2.createdAt.us, entry.1)

/-- A fragment of the `WHERE` clause with its parameters bound. -/
abbrev Condition := OrderEntry → Bool

/-- `''` and `undefined` are no filters. -/
def given (text : Option String) : Option String := text.filter (· ≠ "")

/-- One fragment for a filter that is set; its text must be one of the column's type. -/
def fragment {α β : Type} (filter : Option α) (cast : α → Option β) (code : String)
    (holds : β → Condition) : Except ListOrdersError (List Condition) :=
  match filter with
  | none => .ok []
  | some value =>
    match cast value with
    | some bound => .ok [holds bound]
    | none => .error (.database (.other code))

def filterConditions (r : Readers) (filters : OrdersPageFilters) :
    Except ListOrdersError (List Condition) := do
  let customer ← fragment (given filters.customerId) r.toUuid INVALID_TEXT_REPRESENTATION
    fun id entry => entry.2.customerId = id
  let status ← fragment filters.status some INVALID_TEXT_REPRESENTATION
    fun status entry => entry.2.status = status
  let warehouse ← fragment (given filters.warehouseId) r.toUuid INVALID_TEXT_REPRESENTATION
    fun id entry => entry.2.warehouseId = some id
  let createdAtFrom ← fragment filters.createdAtFrom id INVALID_DATETIME_FORMAT
    fun date entry => date.toTimestamptz.us ≤ entry.2.createdAt.us
  let createdAtTo ← fragment filters.createdAtTo id INVALID_DATETIME_FORMAT
    fun date entry => entry.2.createdAt.us ≤ date.toTimestamptz.us
  return customer ++ status ++ warehouse ++ createdAtFrom ++ createdAtTo

/-- `(created_at, id) < ($n::timestamptz, $m::uuid)` -/
def cursorCondition (r : Readers) : Option OrderCursor → Except ListOrdersError (List Condition)
  | none => .ok []
  | some cursor =>
    match r.toTimestamptz cursor.createdAt, r.toUuid cursor.id with
    | .ok createdAt, some id => .ok [fun entry => entry.key < toLex (createdAt.us, id)]
    | .error code, _ => .error (.database (.other code))
    | .ok _, none => .error (.database (.other INVALID_TEXT_REPRESENTATION))

def findPage (r : Readers) (d : OrdersTables) (filters : OrdersPageFilters) :
    Except ListOrdersError (List OrderPageRow) := do
  let conditions ← filterConditions r filters
  let cursor ← cursorCondition r filters.cursor
  let rows := d.orders.entries.filter fun entry => (conditions ++ cursor).all (· entry)
  return ((rows.insertionSort fun a b => b.key ≤ a.key).take (filters.pageSize + 1)).map
    (·.toPageRow)

def findItemsByOrderIds (d : OrdersTables) (orderIds : List Uuid) : List OrderItemReadRow :=
  (d.orderItems.filter fun item => item.orderId ∈ orderIds).map (·.toReadRow)

structure ListOrdersParams where
  customerId : Option String := none
  status : Option OrderStatus := none
  warehouseId : Option String := none
  createdAtFrom : Option String := none
  createdAtTo : Option String := none
  cursor : Option String := none
  pageSize : Option Nat := none

structure ListOrdersOrder where
  order : OrderPageRow
  items : List OrderItemReadRow

structure ListOrdersResult where
  orders : List ListOrdersOrder
  hasMore : Bool
  nextCursor : Option String

def DEFAULT_PAGE_SIZE : Nat := 20

def ListOrdersParams.size (params : ListOrdersParams) : Nat :=
  params.pageSize.getD DEFAULT_PAGE_SIZE

/-- The loop over `items`. -/
def groupItems (items : List OrderItemReadRow) : AList fun _ : Uuid => List OrderItemReadRow :=
  items.foldl (fun itemsByOrderId item =>
    match itemsByOrderId.lookup item.orderId with
    | some existing => itemsByOrderId.insert item.orderId (existing ++ [item])
    | none => itemsByOrderId.insert item.orderId [item]) ∅

def decodeCursorOrThrow (r : Readers) (cursor : String) : Except ListOrdersError OrderCursor :=
  match decodeCursor r cursor with
  | some decoded => .ok decoded
  | none => .error (.badRequest s!"Invalid cursor: {cursor}")

def ListOrdersParams.filters (r : Readers) (params : ListOrdersParams)
    (cursor : Option OrderCursor) : OrdersPageFilters where
  customerId := params.customerId
  status := params.status
  warehouseId := params.warehouseId
  createdAtFrom := (given params.createdAtFrom).map r.parseDate
  createdAtTo := (given params.createdAtTo).map r.parseDate
  cursor
  pageSize := params.size

/-- Its two queries see the tables one after the other. -/
def ListOrdersService.execute (r : Readers) (atPage atItems : OrdersTables)
    (params : ListOrdersParams) : Except ListOrdersError ListOrdersResult := do
  let cursor ← (given params.cursor).mapM (decodeCursorOrThrow r)
  let rows ← findPage r atPage (params.filters r cursor)
  let hasMore := params.size < rows.length
  let pageRows := if hasMore then rows.take params.size else rows
  let itemsByOrderId := groupItems (findItemsByOrderIds atItems (pageRows.map (·.id)))
  let lastRow := pageRows.getLast?
  return {
    orders := pageRows.map fun row => ⟨row, (itemsByOrderId.lookup row.id).getD []⟩
    hasMore
    nextCursor := if hasMore then
        lastRow.map fun lastRow => encodeCursor ⟨lastRow.cursorCreatedAt, lastRow.id⟩
      else none }

end Canals
