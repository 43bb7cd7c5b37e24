import Canals.Allocation.Selection
import Canals.Http.CreateOrderDto
import Canals.Http.MoneyFormat
import Canals.Orders.Amounts
import Canals.Orders.ListOrders
import Canals.System.Shipments
import Canals.Text.IsoInstant

/-! `GET /orders/:id`: `GetOrderService`, its queries of `OrdersReadRepository`, and the
projections both reads end with. -/
namespace Canals

/-- The tables behind the reads. -/
structure ReadTables (Geography : Type) extends OrdersTables where
  payments : AList fun _ : Uuid => PaymentRow
  shipments : List ShipmentRow
  warehouses : AList fun _ : Uuid => WarehouseRow Geography

structure OrderDetailRow where
  id : Uuid
  orderNumber : String
  customerId : Uuid
  warehouseId : Option Uuid
  status : OrderStatus
  currency : String
  totalCents : String
  createdAt : Date
  shippingAddress : ShippingAddressProps
  warehouseName : Option String
  distanceMeters : Option Rat
  deriving DecidableEq

structure PaymentAttemptRow where
  attempt : Nat
  status : PaymentStatus
  amountCents : String
  currency : String
  failureCode : Option String
  settledAt : Option Date
  createdAt : Date
  deriving DecidableEq

/-- Nothing writes `delivered_at`. -/
structure ShipmentReadRow where
  status : ShipmentStatus
  carrier : Option String
  trackingNumber : Option String
  dispatchedAt : Option Date
  deliveredAt : Option Date
  deriving DecidableEq

def PaymentColumns.toAttemptRow (payment : PaymentRow) : PaymentAttemptRow where
  attempt := payment.attempt
  status := payment.status
  amountCents := toString payment.amountCents
  currency := payment.currency
  failureCode := payment.failureCode
  settledAt := payment.settledAt.map (·.toDate)
  createdAt := payment.createdAt.toDate

def ShipmentRow.toReadRow (shipment : ShipmentRow) : ShipmentReadRow where
  status := shipment.status
  carrier := some shipment.carrier
  trackingNumber := some shipment.trackingNumber
  dispatchedAt := some shipment.dispatchedAt.toDate
  deliveredAt := none

section Queries
variable {Geography : Type} (gis : PostGis Geography Rat) (tables : ReadTables Geography)

def findOrderById (id : Uuid) : Option OrderDetailRow :=
  (tables.orders.lookup id).map fun row =>
    let warehouse := row.warehouseId.bind tables.warehouses.lookup
    { id
      orderNumber := row.orderNumber
      customerId := row.customerId
      warehouseId := row.warehouseId
      status := row.status
      currency := row.currency
      totalCents := toString row.totalCents
      createdAt := row.createdAt.toDate
      shippingAddress := row.shippingAddress
      warehouseName := warehouse.map (·.name)
      distanceMeters := warehouse.map fun warehouse => gis.stDistance warehouse.location
        (gis.point row.shippingLocation.longitude row.shippingLocation.latitude) }

def findPaymentsByOrderId (orderId : Uuid) : List PaymentAttemptRow :=
  (((tables.payments.entries.map (·.2)).filter (·.orderId = orderId)).map
    (·.toAttemptRow)).insertionSort fun a b => a.attempt ≤ b.attempt

def findShipmentByOrderId (orderId : Uuid) : Option ShipmentReadRow :=
  (tables.shipments.find? (·.orderId = orderId)).map (·.toReadRow)

end Queries

structure GetOrderResult where
  order : OrderDetailRow
  items : List OrderItemReadRow
  payments : List PaymentAttemptRow
  shipment : Option ShipmentReadRow

inductive GetOrderError where
  | orderNotFound (orderId : String)
  | database (e : DbError)
  deriving DecidableEq

/-- The tables as each of the parallel queries finds them. -/
structure Snapshots (Geography : Type) where
  order : ReadTables Geography
  items : ReadTables Geography
  payments : ReadTables Geography
  shipment : ReadTables Geography

def GetOrderService.execute {Geography : Type} (r : Readers) (gis : PostGis Geography Rat)
    (snapshots : Snapshots Geography) (id : String) : Except GetOrderError GetOrderResult :=
  if isUUIDLoose (some (.str id)) then
    match r.toUuid id with
    | none => .error (.database (.other INVALID_TEXT_REPRESENTATION))
    | some orderId =>
      match findOrderById gis snapshots.order orderId with
      | none => .error (.orderNotFound id)
      | some order => .ok {
          order
          items := findItemsByOrderIds snapshots.items.toOrdersTables [orderId]
          payments := findPaymentsByOrderId snapshots.payments orderId
          shipment := findShipmentByOrderId snapshots.shipment orderId }
  else .error (.orderNotFound id)

/-- `toISOString` of a year with four digits. -/
def Date.toISOString (date : Date) : String :=
  String.ofList (Calendar.shorten 3 (Calendar.text date.toTimestamptz.us))

/-- Where `Number` of a text is infinite, it is `none`. -/
structure OrderResponseItem where
  productId : Uuid
  sku : String
  name : String
  quantity : Int
  unitPriceCents : Option Int
  unitPriceDollars : Option String
  deriving DecidableEq

structure OrderResponseWarehouse where
  id : Uuid
  name : String
  distance : DistanceBreakdown
  deriving DecidableEq

structure OrderDetailPaymentAttempt where
  attempt : Nat
  status : PaymentStatus
  amountCents : Option Int
  amountDollars : Option String
  currency : String
  failureCode : Option String
  settledAt : Option String
  createdAt : String
  deriving DecidableEq

structure OrderDetailShipment where
  status : ShipmentStatus
  carrier : Option String
  trackingNumber : Option String
  dispatchedAt : Option String
  deliveredAt : Option String
  deriving DecidableEq

structure OrderDetailResponse where
  id : Uuid
  orderNumber : String
  customerId : Uuid
  status : OrderStatus
  warehouse : Option OrderResponseWarehouse
  items : List OrderResponseItem
  payments : List OrderDetailPaymentAttempt
  shipment : Option OrderDetailShipment
  totalCents : Option Int
  totalDollars : Option String
  currency : String
  createdAt : String
  deriving DecidableEq

def OrderItemReadRow.toResponseItem (item : OrderItemReadRow) : OrderResponseItem :=
  let unitPriceCents := bigintNumberTransformer item.unitPriceCents
  { productId := item.productId
    sku := item.productSkuSnapshot
    name := item.productNameSnapshot
    quantity := item.quantity
    unitPriceCents
    unitPriceDollars := unitPriceCents.map formatCentsAsDollars }

/-- The response leaves out when the row was created. -/
def OrderItemRow.toResponseItem (item : OrderItemRow) : OrderResponseItem :=
  (StoredOrderItem.toReadRow ⟨item, ⟨0⟩⟩).toResponseItem

def PaymentAttemptRow.toResponse (payment : PaymentAttemptRow) : OrderDetailPaymentAttempt :=
  let amountCents := bigintNumberTransformer payment.amountCents
  { attempt := payment.attempt
    status := payment.status
    amountCents
    amountDollars := amountCents.map formatCentsAsDollars
    currency := payment.currency
    failureCode := payment.failureCode
    settledAt := payment.settledAt.map (·.toISOString)
    createdAt := payment.createdAt.toISOString }

def ShipmentReadRow.toResponse (shipment : ShipmentReadRow) : OrderDetailShipment where
  status := shipment.status
  carrier := shipment.carrier
  trackingNumber := shipment.trackingNumber
  dispatchedAt := shipment.dispatchedAt.map (·.toISOString)
  deliveredAt := shipment.deliveredAt.map (·.toISOString)

/-- An id or a name that is empty counts as none. -/
def OrderDetailRow.warehouse (order : OrderDetailRow) : Option OrderResponseWarehouse := do
  let id ← given order.warehouseId
  let name ← given order.warehouseName
  return { id, name, distance := formatDistance (order.distanceMeters.getD 0) }

def toOrderDetailResponse (result : GetOrderResult) : OrderDetailResponse :=
  let totalCents := bigintNumberTransformer result.order.totalCents
  { id := result.order.id
    orderNumber := result.order.orderNumber
    customerId := result.order.customerId
    status := result.order.status
    warehouse := result.order.warehouse
    items := result.items.map (·.toResponseItem)
    payments := result.payments.map (·.toResponse)
    shipment := result.shipment.map (·.toResponse)
    totalCents
    totalDollars := totalCents.map formatCentsAsDollars
    currency := result.order.currency
    createdAt := result.order.createdAt.toISOString }

structure OrderListItem where
  id : Uuid
  orderNumber : String
  customerId : Uuid
  status : OrderStatus
  warehouseId : Option Uuid
  totalCents : Option Int
  totalDollars : Option String
  currency : String
  createdAt : String
  items : List OrderResponseItem
  deriving DecidableEq

structure OrderListResponse where
  items : List OrderListItem
  nextCursor : Option String
  hasMore : Bool
  deriving DecidableEq

def toOrderListItem (order : OrderPageRow) (items : List OrderItemReadRow) : OrderListItem :=
  let totalCents := bigintNumberTransformer order.totalCents
  { id := order.id
    orderNumber := order.orderNumber
    customerId := order.customerId
    status := order.status
    warehouseId := order.warehouseId
    totalCents
    totalDollars := totalCents.map formatCentsAsDollars
    currency := order.currency
    createdAt := order.createdAt.toISOString
    items := items.map (·.toResponseItem) }

def toOrderListResponse (result : ListOrdersResult) : OrderListResponse where
  items := result.orders.map fun listed => toOrderListItem listed.order listed.items
  nextCursor := result.nextCursor
  hasMore := result.hasMore

end Canals
