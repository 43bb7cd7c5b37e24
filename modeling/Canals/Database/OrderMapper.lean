import Canals.Database.Schema

/-! The mapper between `orders` rows and the domain, and what TypeORM's `save`
makes of an entity: it writes the columns whose hydrated value differs. -/
namespace Canals

def orderToDomain (entity : OrderOrmEntity) : Except Thrown Order := do
  let total ← Money.of entity.totalCents entity.currency
  let shippingAddress ← ShippingAddress.of entity.shippingAddress
  let shippingLocation ←
    Coordinates.of entity.shippingLocation.latitude entity.shippingLocation.longitude
  return {
    id := entity.id
    orderNumber := entity.orderNumber
    customerId := entity.customerId
    warehouseId := entity.warehouseId
    status := entity.status
    total
    shippingAddress
    shippingLocation
    reservationExpiresAt := entity.reservationExpiresAt
    confirmedAt := entity.confirmedAt
    cancelledAt := entity.cancelledAt
    cancellationReason := entity.cancellationReason
    createdAt := entity.createdAt
    updatedAt := entity.updatedAt }

/-- `createdAt` and `updatedAt` are the two clock readings the mapper takes, not
the order's own. -/
def orderToPersistence (order : Order) (createdAt updatedAt : Date) : OrderOrmEntity where
  id := order.id
  orderNumber := order.orderNumber
  customerId := order.customerId
  warehouseId := order.warehouseId
  status := order.status
  currency := order.total.currency
  totalCents := order.total.amountCents
  shippingAddress := order.shippingAddress.props
  shippingLocation := ⟨order.shippingLocation.longitude, order.shippingLocation.latitude⟩
  reservationExpiresAt := order.reservationExpiresAt
  confirmedAt := order.confirmedAt
  cancelledAt := order.cancelledAt
  cancellationReason := order.cancellationReason
  createdAt
  updatedAt

def orderItemToPersistence (item : OrderItem) : OrderItemRow where
  orderId := item.orderId
  productId := item.productId
  quantity := item.quantity
  productSkuSnapshot := item.productSkuSnapshot
  productNameSnapshot := item.productNameSnapshot
  unitPriceCents := item.unitPrice.amountCents

/-- A column `save` finds unchanged keeps its microseconds. -/
def saveTimestamp (stored : Timestamptz) (value : Date) : Timestamptz :=
  if stored.toDate = value then stored else value.toTimestamptz

def saveNullable (stored : Option Timestamptz) (value : Option Date) : Option Timestamptz :=
  if stored.map (·.toDate) = value then stored else value.map (·.toTimestamptz)

theorem saveTimestamp_eq_self {stored : Timestamptz} {value : Date} :
    saveTimestamp stored value = stored ↔ value = stored.toDate := by
  simp only [saveTimestamp]
  split
  · rename_i same
    simp [same]
  · rename_i other
    refine iff_of_false (fun same => other ?_) (fun same => other same.symm)
    rw [← same, Date.toDate_toTimestamptz]

@[simp] theorem saveNullable_self (stored : Option Timestamptz) :
    saveNullable stored (stored.map (·.toDate)) = stored := by
  simp [saveNullable]

/-- `save` on a stored order. -/
def OrderRow.save (row : OrderRow) (entity : OrderOrmEntity) : OrderRow :=
  { entity.toOrderColumns.map (·.toTimestamptz) with
    reservationExpiresAt := saveNullable row.reservationExpiresAt entity.reservationExpiresAt
    confirmedAt := saveNullable row.confirmedAt entity.confirmedAt
    cancelledAt := saveNullable row.cancelledAt entity.cancelledAt
    createdAt := saveTimestamp row.createdAt entity.createdAt
    updatedAt := saveTimestamp row.updatedAt entity.updatedAt }

/-- The entity of a domain order differs from the one it was read from only in
the mapper's own clock readings. -/
theorem orderToDomain_eq {entity : OrderOrmEntity} {order : Order}
    (read : orderToDomain entity = .ok order) (createdAt updatedAt : Date) :
    orderToPersistence order createdAt updatedAt = { entity with createdAt, updatedAt } := by
  simp only [orderToDomain, bind, Except.bind] at read
  split at read <;> try contradiction
  rename_i total money
  split at read <;> try contradiction
  rename_i address addressOk
  split at read <;> try contradiction
  rename_i location locationOk
  cases read
  obtain ⟨amount, currency⟩ := Money.of_eq money
  obtain ⟨latitude, longitude⟩ := Coordinates.of_eq locationOk
  have props := ShippingAddress.of_eq addressOk
  simp only [orderToPersistence, amount, currency, latitude, longitude, props]

/-- The entity the repository reads for the row stored under `id`. -/
def OrderRow.hydrate (row : OrderRow) (id : Uuid) : OrderOrmEntity :=
  { row.map (·.toDate) with id }

/-- Saving what was read leaves every column but the ones assigned since. -/
theorem OrderRow.save_hydrate (row : OrderRow) (id : Uuid) (status : OrderStatus)
    (confirmedAt cancelledAt : Option Date) (cancellationReason : Option String)
    (createdAt updatedAt : Date) :
    row.save { row.hydrate id with
      status, confirmedAt, cancelledAt, cancellationReason, createdAt, updatedAt } =
    { row with
      status
      confirmedAt := saveNullable row.confirmedAt confirmedAt
      cancelledAt := saveNullable row.cancelledAt cancelledAt
      cancellationReason
      createdAt := saveTimestamp row.createdAt createdAt
      updatedAt := saveTimestamp row.updatedAt updatedAt } := by
  simp [save, hydrate, OrderColumns.map]

theorem orderToDomain_id {entity : OrderOrmEntity} {order : Order}
    (read : orderToDomain entity = .ok order) : order.id = entity.id :=
  congrArg OrderOrmEntity.id (orderToDomain_eq read ⟨0⟩ ⟨0⟩)

theorem orderToDomain_status {entity : OrderOrmEntity} {order : Order}
    (read : orderToDomain entity = .ok order) : order.status = entity.status :=
  congrArg (·.status) (orderToDomain_eq read ⟨0⟩ ⟨0⟩)

theorem orderToDomain_warehouseId {entity : OrderOrmEntity} {order : Order}
    (read : orderToDomain entity = .ok order) : order.warehouseId = entity.warehouseId :=
  congrArg (·.warehouseId) (orderToDomain_eq read ⟨0⟩ ⟨0⟩)

end Canals
