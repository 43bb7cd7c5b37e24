import Canals.Domain.Order
import Mathlib.Data.Finmap
import Mathlib.Data.List.MinMax

/-! The tables the order flow reads and writes, and the row versions a
transaction can leave in them. Columns nothing here reads are left out: the ids
and creation times of order items, `inventory.updated_at`, a movement's reason. -/
namespace Canals

structure GeoPoint where
  longitude : Rat
  latitude : Rat
  deriving DecidableEq

/-- The columns of `orders` beside the primary key, over the type its timestamps
have: `Timestamptz` in the table, `Date` in the entity TypeORM hydrates. -/
structure OrderColumns (T : Type) where
  orderNumber : String
  customerId : Uuid
  warehouseId : Option Uuid
  status : OrderStatus
  currency : String
  totalCents : Int
  shippingAddress : ShippingAddressProps
  shippingLocation : GeoPoint
  reservationExpiresAt : Option T
  confirmedAt : Option T
  cancelledAt : Option T
  cancellationReason : Option String
  createdAt : T
  updatedAt : T
  deriving DecidableEq

abbrev OrderRow := OrderColumns Timestamptz

structure OrderOrmEntity extends OrderColumns Date where
  id : Uuid

def OrderColumns.map {T U : Type} (f : T → U) (order : OrderColumns T) : OrderColumns U where
  orderNumber := order.orderNumber
  customerId := order.customerId
  warehouseId := order.warehouseId
  status := order.status
  currency := order.currency
  totalCents := order.totalCents
  shippingAddress := order.shippingAddress
  shippingLocation := order.shippingLocation
  reservationExpiresAt := order.reservationExpiresAt.map f
  confirmedAt := order.confirmedAt.map f
  cancelledAt := order.cancelledAt.map f
  cancellationReason := order.cancellationReason
  createdAt := f order.createdAt
  updatedAt := f order.updatedAt

/-- The columns of `payments` beside the primary key. -/
structure PaymentColumns (T : Type) where
  orderId : Uuid
  attempt : Nat
  provider : String
  providerPaymentId : Option String
  idempotencyKey : String
  status : PaymentStatus
  amountCents : Int
  currency : String
  cardLast4 : Option String
  cardBrand : Option String
  failureCode : Option String
  settledAt : Option T
  createdAt : T
  updatedAt : T
  deriving DecidableEq

abbrev PaymentRow := PaymentColumns Timestamptz

structure PaymentOrmEntity extends PaymentColumns Date where
  id : Uuid

def PaymentColumns.map {T U : Type} (f : T → U) (payment : PaymentColumns T) :
    PaymentColumns U where
  orderId := payment.orderId
  attempt := payment.attempt
  provider := payment.provider
  providerPaymentId := payment.providerPaymentId
  idempotencyKey := payment.idempotencyKey
  status := payment.status
  amountCents := payment.amountCents
  currency := payment.currency
  cardLast4 := payment.cardLast4
  cardBrand := payment.cardBrand
  failureCode := payment.failureCode
  settledAt := payment.settledAt.map f
  createdAt := f payment.createdAt
  updatedAt := f payment.updatedAt

/-- An `order_items` row; unique by order and product. -/
structure OrderItemRow where
  orderId : Uuid
  productId : Uuid
  quantity : Int
  productSkuSnapshot : String
  productNameSnapshot : String
  unitPriceCents : Int
  deriving DecidableEq

/-- The balances of one `(warehouse_id, product_id)` row of `inventory`. -/
structure Balance where
  available : Int
  reserved : Int
  version : Int
  deriving DecidableEq

inductive MovementType where
  | RESERVE
  | RELEASE
  | COMMIT
  | RESTOCK
  | ADJUST
  deriving DecidableEq

/-- A row of the append-only `inventory_movements`. -/
structure Movement where
  id : Nat
  warehouseId : Uuid
  productId : Uuid
  orderId : Uuid
  type : MovementType
  quantityDelta : Int
  availableAfter : Int
  reservedAfter : Int
  deriving DecidableEq

/-- A pg-boss job with the `order.confirmed` payload. -/
structure Job where
  queue : String
  orderId : Uuid
  occurredAt : Date
  deriving DecidableEq

structure Db where
  orders : AList fun _ : Uuid => OrderRow := ∅
  orderItems : List OrderItemRow := []
  inventory : AList fun _ : Uuid × Uuid => Balance := ∅
  movements : List Movement := []
  payments : AList fun _ : Uuid => PaymentRow := ∅
  jobs : List Job := []

/-- A row version a transaction writes. -/
inductive Write where
  | putOrder (id : Uuid) (row : OrderRow)
  | addItems (items : List OrderItemRow)
  | putInventory (key : Uuid × Uuid) (balance : Balance)
  | addMovement (movement : Movement)
  | putPayment (id : Uuid) (row : PaymentRow)
  | addJob (job : Job)

namespace Db

def itemsOf (d : Db) (orderId : Uuid) : List OrderItemRow :=
  d.orderItems.filter (·.orderId = orderId)

def movementsOf (d : Db) (orderId productId : Uuid) : List Movement :=
  d.movements.filter fun m => m.orderId = orderId ∧ m.productId = productId

def apply (d : Db) : Write → Db
  | .putOrder id row => { d with orders := d.orders.insert id row }
  | .addItems items => { d with orderItems := d.orderItems ++ items }
  -- no statement of the flow creates an inventory row
  | .putInventory key balance =>
    if key ∈ d.inventory then { d with inventory := d.inventory.insert key balance } else d
  | .addMovement movement => { d with movements := d.movements ++ [movement] }
  | .putPayment id row => { d with payments := d.payments.insert id row }
  | .addJob job => { d with jobs := d.jobs ++ [job] }

end Db

end Canals
