import Canals.Database.OrderMapper
import Canals.Locking.Refinement
import Mathlib.Data.List.Sort
import Mathlib.Data.String.Basic

/-! The statements of the order flow and their meaning in Postgres. A row lock
is held to the end of its transaction; `FOR UPDATE` and every write take one. -/
namespace Canals
open Locking

/-- Which column or payload field a `new Date()` is for. -/
inductive DateField where
  | createdAt
  | updatedAt
  | confirmedAt
  | cancelledAt
  | occurredAt
  deriving DecidableEq

structure UpdateInventoryBalancesParams where
  warehouseId : Uuid
  productId : Uuid
  availableAfter : Int
  reservedAfter : Int

structure InsertMovementParams where
  warehouseId : Uuid
  productId : Uuid
  orderId : Uuid
  type : MovementType
  quantityDelta : Int
  availableAfter : Int
  reservedAfter : Int

structure InventoryRow where
  productId : Uuid
  quantityAvailable : Int
  quantityReserved : Int
  deriving DecidableEq

structure LatestMovementRow where
  type : MovementType
  quantityDelta : Int

structure PaymentResolution where
  paymentId : Uuid
  chargeResult : ChargeResult
  deriving DecidableEq

/-- `startTransaction` answers what `now()` is throughout the transaction and
`newDate` reads the process's clock; the others are the statements themselves. -/
inductive Sql where
  | startTransaction
  | newDate (field : DateField)
  | lockOrder (id : Uuid)
  | findOrder (id : Uuid)
  | saveOrder (entity : OrderOrmEntity)
  | updateReservation (warehouseId : Uuid) (expiresAt : Timestamptz) (orderId : Uuid)
  | saveItems (items : List OrderItemRow)
  | findItems (orderId : Uuid)
  | setLocalLockTimeout (timeout : String)
  | lockInventory (warehouseId : Uuid) (productIds : List Uuid)
  | updateInventory (params : UpdateInventoryBalancesParams)
  | latestMovement (orderId productId : Uuid)
  | insertMovement (params : InsertMovementParams)
  | settlePayment (payment : PaymentResolution) (now : Timestamptz)
  | insertPayment (entity : PaymentOrmEntity)
  | updatePayment (read entity : PaymentOrmEntity)
  | sendJob (job : Job)

abbrev Sql.Result : Sql → Type
  | .startTransaction => Timestamptz
  | .newDate _ => Date
  | .findOrder id => { entity : OrderOrmEntity // entity.id = id }
  | .findItems _ => List OrderItemRow
  | .lockInventory _ _ => List InventoryRow
  | .latestMovement _ _ => Option LatestMovementRow
  | _ => Unit

/-- The clock as a statement finds it and the next identity value. -/
structure Input where
  clock : Timestamptz
  nextval : Nat

inductive Lock where
  | order (id : Uuid)
  | stock (key : Uuid × Uuid)
  | payment (id : Uuid)
  deriving DecidableEq

def fitsInteger (n : Int) : Bool := -2147483648 ≤ n ∧ n ≤ 2147483647

/-- The row version of the guarded settlement update. -/
def PaymentRow.settle (row : PaymentRow) (result : ChargeResult) (now : Timestamptz) :
    PaymentRow :=
  { row with
    status := result.status
    providerPaymentId := result.providerPaymentId
    cardLast4 := result.cardLast4
    cardBrand := result.cardBrand
    failureCode := result.failureCode
    settledAt := some now
    updatedAt := now }

def PaymentColumns.unsettled {T : Type} (payment : PaymentColumns T) : Bool :=
  payment.status = .PENDING || payment.status = .UNKNOWN

def saveColumn {α β : Type} [DecidableEq α] (read value : α) (stored new : β) : β :=
  if read = value then stored else new

/-- `save` writes the columns in which the entity differs from what it read. -/
def PaymentRow.update (row : PaymentRow) (read entity : PaymentOrmEntity) : PaymentRow :=
  let new := entity.toPaymentColumns.map (·.toTimestamptz)
  { orderId := saveColumn read.orderId entity.orderId row.orderId new.orderId
    attempt := saveColumn read.attempt entity.attempt row.attempt new.attempt
    provider := saveColumn read.provider entity.provider row.provider new.provider
    providerPaymentId := saveColumn read.providerPaymentId entity.providerPaymentId
      row.providerPaymentId new.providerPaymentId
    idempotencyKey := saveColumn read.idempotencyKey entity.idempotencyKey
      row.idempotencyKey new.idempotencyKey
    status := saveColumn read.status entity.status row.status new.status
    amountCents := saveColumn read.amountCents entity.amountCents row.amountCents new.amountCents
    currency := saveColumn read.currency entity.currency row.currency new.currency
    cardLast4 := saveColumn read.cardLast4 entity.cardLast4 row.cardLast4 new.cardLast4
    cardBrand := saveColumn read.cardBrand entity.cardBrand row.cardBrand new.cardBrand
    failureCode := saveColumn read.failureCode entity.failureCode row.failureCode new.failureCode
    settledAt := saveColumn read.settledAt entity.settledAt row.settledAt new.settledAt
    createdAt := saveColumn read.createdAt entity.createdAt row.createdAt new.createdAt
    updatedAt := saveColumn read.updatedAt entity.updatedAt row.updatedAt new.updatedAt }

namespace Db

/-- `WHERE warehouse_id = $1 AND product_id = ANY($2) ORDER BY product_id`. -/
def inventoryRows (d : Db) (warehouseId : Uuid) (productIds : List Uuid) : List InventoryRow :=
  (productIds.dedup.insertionSort (· ≤ ·)).filterMap fun p =>
    (d.inventory.lookup (warehouseId, p)).map fun b => ⟨p, b.available, b.reserved⟩

/-- `ORDER BY id DESC LIMIT 1`. -/
def latest (d : Db) (orderId productId : Uuid) : Option Movement :=
  (d.movementsOf orderId productId).argmax (·.id)

/-- The unique index on order and product of `order_items`. -/
def acceptsItems (d : Db) (items : List OrderItemRow) : Bool :=
  (items.map fun item => (item.orderId, item.productId)).Nodup ∧
    ∀ item ∈ items, ∀ other ∈ d.itemsOf item.orderId, other.productId ≠ item.productId

end Db

open Db in
/-- A statement, with the checks of the schema that a request can run into. Whatever else it is
refused for (an order number that another order has, an amount outside `bigint`, a text that
a column does not take) is a fault, which may strike any statement. -/
def Sql.exec : (s : Sql) → Input → Db → Except DbError (s.Result × List Write)
  | .startTransaction, i, _ => .ok (i.clock, [])
  | .newDate _, i, _ => .ok (i.clock.toDate, [])
  | .lockOrder _, _, _ => .ok ((), [])
  | .findOrder id, _, d =>
    match d.orders.lookup id with
    | some row => .ok (⟨row.hydrate id, rfl⟩, [])
    | none => .error .entityNotFound
  | .saveOrder entity, _, d =>
    match d.orders.lookup entity.id with
    | some row => .ok ((), [.putOrder entity.id (row.save entity)])
    | none => .ok ((), [.putOrder entity.id (entity.toOrderColumns.map (·.toTimestamptz))])
  | .updateReservation warehouseId expiresAt orderId, _, d =>
    match d.orders.lookup orderId with
    | some row => .ok ((), [.putOrder orderId { row with
        warehouseId := some warehouseId, reservationExpiresAt := some expiresAt }])
    | none => .ok ((), [])
  | .saveItems items, _, d =>
    if items.all fun item => 0 < item.quantity && fitsInteger item.quantity then
      if d.acceptsItems items then .ok ((), [.addItems items]) else .error .uniqueViolation
    else .error .checkViolation
  | .findItems orderId, _, d => .ok (d.itemsOf orderId, [])
  | .setLocalLockTimeout _, _, _ => .ok ((), [])
  | .lockInventory warehouseId productIds, _, d =>
    .ok (d.inventoryRows warehouseId productIds, [])
  | .updateInventory params, _, d =>
    match d.inventory.lookup (params.warehouseId, params.productId) with
    | some b =>
      if 0 ≤ params.availableAfter ∧ fitsInteger params.availableAfter ∧
          0 ≤ params.reservedAfter ∧ fitsInteger params.reservedAfter then
        .ok ((), [.putInventory (params.warehouseId, params.productId)
          ⟨params.availableAfter, params.reservedAfter, b.version + 1⟩])
      else .error .checkViolation
    | none => .ok ((), [])
  | .latestMovement orderId productId, _, d =>
    .ok ((d.latest orderId productId).map fun m => ⟨m.type, m.quantityDelta⟩, [])
  | .insertMovement params, i, _ => .ok ((), [.addMovement {
      id := i.nextval
      warehouseId := params.warehouseId
      productId := params.productId
      orderId := params.orderId
      type := params.type
      quantityDelta := params.quantityDelta
      availableAfter := params.availableAfter
      reservedAfter := params.reservedAfter }])
  | .settlePayment payment now, _, d =>
    match d.payments.lookup payment.paymentId with
    | some row =>
      if row.unsettled then
        .ok ((), [.putPayment payment.paymentId (row.settle payment.chargeResult now)])
      else .ok ((), [])
    | none => .ok ((), [])
  | .insertPayment entity, _, d =>
    match d.payments.lookup entity.id with
    | some _ => .error .uniqueViolation
    | none => .ok ((), [.putPayment entity.id (entity.toPaymentColumns.map (·.toTimestamptz))])
  | .updatePayment read entity, _, d =>
    match d.payments.lookup entity.id with
    | some row => .ok ((), [.putPayment entity.id (row.update read entity)])
    | none => .ok ((), [])
  | .sendJob job, _, _ => .ok ((), [.addJob job])

/-- The locks a statement is issued under by every caller. -/
def Sql.need : Sql → List Lock
  | .findOrder id => [.order id]
  | .saveItems items => items.map (.order ·.orderId)
  | .findItems orderId => [.order orderId]
  | .updateInventory params => [.stock (params.warehouseId, params.productId)]
  | .latestMovement orderId _ => [.order orderId]
  | .insertMovement params =>
    [.order params.orderId, .stock (params.warehouseId, params.productId)]
  | _ => []

def Sql.gain : (s : Sql) → s.Result → List Lock
  | .lockOrder id, _ => [.order id]
  | .saveOrder entity, _ => [.order entity.id]
  | .updateReservation _ _ orderId, _ => [.order orderId]
  | .lockInventory warehouseId _, rows => rows.map fun row => .stock (warehouseId, row.productId)
  | .settlePayment payment _, _ => [.payment payment.paymentId]
  -- the foreign key also locks the order's row
  | .insertPayment entity, _ => [.payment entity.id, .order entity.orderId]
  | .updatePayment _ entity, _ => [.payment entity.id]
  | _, _ => []

/-- Identity values only grow, so a fresh one exceeds those of the rows that
the locks at hand guard. -/
def Sql.admits : Sql → Input → Db → Bool
  | .insertMovement params, i, d => d.movements.all fun m =>
      m.orderId = params.orderId ∨
        (m.warehouseId, m.productId) = (params.warehouseId, params.productId) → m.id < i.nextval
  | _, _, _ => true

theorem Sql.admits_insertMovement {params : InsertMovementParams} {i : Input} {d : Db} :
    (insertMovement params).admits i d ↔ ∀ m ∈ d.movements, m.orderId = params.orderId ∨
      (m.warehouseId, m.productId) = (params.warehouseId, params.productId) →
        m.id < i.nextval := by
  simp only [admits, List.all_eq_true, decide_eq_true_eq]

def store : Store Sql Sql.Result DbError Db Write Lock Input where
  exec := Sql.exec
  apply w d := d.apply w
  admits := Sql.admits
  need := Sql.need
  gain := Sql.gain

/-- A transaction body, or a part of one. -/
abbrev Tx (α : Type) := Program Sql Sql.Result DbError Thrown α

def query (s : Sql) : Tx s.Result := .exec s .database .pure

def liftExcept {α : Type} : Except Thrown α → Tx α
  | .ok a => .pure a
  | .error e => .throw e

/-- The transaction's connection; `now()` stands still in it. -/
structure EntityManager where
  now : Timestamptz

def transaction {α : Type} (body : EntityManager → Tx α) : Tx α := do
  let now ← query .startTransaction
  body ⟨now⟩

end Canals
