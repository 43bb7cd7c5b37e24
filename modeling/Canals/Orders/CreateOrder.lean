import Canals.Geocoding.Normalisation
import Canals.Orders.Settlement

/-! The decisions of `CreateOrderUseCase` and of `AllocateInventoryUseCase`'s
attempts. What happens between them, step by step, is in `Canals.System`. -/
namespace Canals

structure Product where
  id : Uuid
  sku : String
  name : String
  unitPriceCents : Int
  isActive : Bool
  deleted : Bool
  deriving DecidableEq

/-- The customers without a deletion date, under every spelling of their `uuid`s that a query
finds them by, and all products. -/
structure Catalogue where
  customers : List Uuid
  products : List Product

structure CreateOrderCommand where
  customerId : Uuid
  shippingAddress : ShippingAddressProps
  lines : List OrderLine
  cardNumber : String
  deriving DecidableEq

inductive NoFulfilmentPossibleReason where
  | NO_CANDIDATES
  | RESERVATION_RACE_LOST
  deriving DecidableEq

/-- What `execute` throws: what one of its steps threw, or an error of its own. -/
inductive CreateOrderError where
  | thrown (e : Thrown)
  | customerNotFound (customerId : Uuid)
  | productNotFound (productIds : List Uuid)
  | geocodingFailed (message : String)
  | noFulfilmentPossible (productIds : List Uuid) (reason : NoFulfilmentPossibleReason)
  | paymentDeclined (orderId : Uuid) (failureCode : Option String)
  | paymentProviderUnavailable (orderId : Uuid) (failureCode : Option String)
  deriving DecidableEq

/-- What `geocode` resolves or rejects with. -/
abbrev Geocoded := Except Geocoding.GeocodeError Coordinates

/-- What `geocode` throws leaves `execute` as it is. -/
def CreateOrderError.ofGeocoding : Geocoding.GeocodeError → CreateOrderError
  | .failed _ message => .geocodingFailed message
  | .typeError message => .thrown (.error message)
  | .thrown e => .thrown e

def resolveCustomerAndProducts (catalogue : Catalogue) (command : CreateOrderCommand) :
    Except CreateOrderError (List Product) :=
  let requestedProductIds := command.lines.map (·.productId)
  let products := catalogue.products.filter fun product =>
    requestedProductIds.contains product.id && product.isActive && !product.deleted
  let missingProductIds := requestedProductIds.filter fun productId =>
    !products.any (·.id = productId)
  if ¬ catalogue.customers.contains command.customerId then
    .error (.customerNotFound command.customerId)
  else if missingProductIds ≠ [] then .error (.productNotFound missingProductIds)
  else .ok products

/-- A line with the product it was resolved to. -/
structure PricedLine where
  line : OrderLine
  product : Product
  deriving DecidableEq

/-- `productById.get(line.productId)!` for every line. -/
def priceLines (products : List Product) (lines : List OrderLine) : List PricedLine :=
  lines.filterMap fun line =>
    (products.find? (·.id = line.productId)).map fun product => ⟨line, product⟩

def orderTotal (lines : List PricedLine) : Except Thrown Money :=
  lines.foldlM (fun sum line => do
    let price ← Money.of line.product.unitPriceCents
    let amount ← price.multiply line.line.quantity
    sum.add amount) Money.zero

/-- What is fixed before the failover loop. -/
structure Draft where
  orderId : Uuid
  orderNumber : String
  customerId : Uuid
  total : Money
  shippingAddress : ShippingAddress
  shippingLocation : Coordinates
  lines : List PricedLine
  deriving DecidableEq

/-- The draft of a command whose address was geocoded to `geocoded`. -/
def draftOrder (command : CreateOrderCommand) (products : List Product)
    (geocoded : Geocoded) (orderNumber : String) (orderId : Uuid) :
    Except CreateOrderError Draft := do
  let shippingAddress ← (ShippingAddress.of command.shippingAddress).mapError .thrown
  let shippingLocation ← geocoded.mapError .ofGeocoding
  let lines := priceLines products command.lines
  let total ← (orderTotal lines).mapError .thrown
  return {
    orderId
    orderNumber
    customerId := command.customerId
    total
    shippingAddress
    shippingLocation
    lines }

def Draft.order (draft : Draft) (warehouseId : Uuid) (createdAt updatedAt : Date) : Order where
  id := draft.orderId
  orderNumber := draft.orderNumber
  customerId := draft.customerId
  warehouseId := some warehouseId
  status := .PENDING_PAYMENT
  total := draft.total
  shippingAddress := draft.shippingAddress
  shippingLocation := draft.shippingLocation
  reservationExpiresAt := none
  confirmedAt := none
  cancelledAt := none
  cancellationReason := none
  createdAt
  updatedAt

def draftItem (orderId : Uuid) (line : PricedLine) : Except Thrown OrderItem := do
  let unitPrice ← Money.of line.product.unitPriceCents
  OrderItem.new {
    orderId
    productId := line.line.productId
    quantity := line.line.quantity
    productSkuSnapshot := line.product.sku
    productNameSnapshot := line.product.name
    unitPrice }

def onBeforeReserve (draft : Draft) (warehouseId : Uuid) : Tx Order := do
  let createdAt ← query (.newDate .createdAt)
  let updatedAt ← query (.newDate .updatedAt)
  let order := draft.order warehouseId createdAt updatedAt
  saveOrder order
  let items ← liftExcept (draft.lines.mapM (draftItem draft.orderId))
  query (.saveItems (items.map orderItemToPersistence))
  return order

/-- One attempt of the failover loop, in a transaction of its own. -/
def attemptCandidate (draft : Draft) (warehouseId : Uuid) : Tx Order :=
  transaction fun manager => do
    let order ← onBeforeReserve draft warehouseId
    reserve manager {
      orderId := draft.orderId
      warehouseId
      lines := draft.lines.map (·.line) }
    return order

def initialPayment (order : Order) (id : Uuid) (createdAt updatedAt : Date) :
    PaymentOrmEntity where
  id
  orderId := order.id
  attempt := FIRST_PAYMENT_ATTEMPT
  provider := "mock-gateway"
  providerPaymentId := none
  idempotencyKey := buildChargeIdempotencyKey order.id FIRST_PAYMENT_ATTEMPT
  status := .PENDING
  amountCents := order.total.amountCents
  currency := order.total.currency
  cardLast4 := none
  cardBrand := none
  failureCode := none
  settledAt := none
  createdAt
  updatedAt

def isDefinitiveOutcome (status : PaymentStatus) : Bool :=
  status = .CAPTURED || status = .DECLINED

/-- The entity of the second save of `chargeOrder`. -/
def chargedPayment (pendingPayment : PaymentOrmEntity) (chargeResult : ChargeResult)
    (settledAt updatedAt : Date) : PaymentOrmEntity :=
  { pendingPayment with
    status := chargeResult.status
    providerPaymentId := chargeResult.providerPaymentId
    cardLast4 := chargeResult.cardLast4
    cardBrand := chargeResult.cardBrand
    failureCode := chargeResult.failureCode
    settledAt := if isDefinitiveOutcome chargeResult.status then some settledAt else none
    updatedAt }

/-- `save` of a payment whose stored row was `read` before. -/
def savePayment (read : Option PaymentOrmEntity) (entity : PaymentOrmEntity) : Tx Unit :=
  match read with
  | none => query (.insertPayment entity)
  | some read => query (.updatePayment read entity)

/-- The settlement `settleOrder` asks for; an unknown outcome is left alone. -/
def settlementOf (orderId : Uuid) (chargeResult : ChargeResult) : Option SettleCall :=
  match chargeResult.status with
  | .CAPTURED => some (.confirmCaptured orderId none)
  | .DECLINED => some (.failDeclined orderId none)
  | _ => none

theorem draftItem_eq {o : Uuid} {line : PricedLine} {item : OrderItem}
    (made : draftItem o line = .ok item) : item.orderId = o ∧
      item.productId = line.line.productId ∧ item.quantity = line.line.quantity ∧
      0 < item.quantity := by
  simp only [draftItem, bind, Except.bind, OrderItem.new] at made
  split at made <;> try contradiction
  split at made <;> try contradiction
  cases made
  exact ⟨rfl, rfl, rfl, by assumption⟩

/-- The items are the lines, each of a positive quantity. -/
theorem draftItems_eq {o : Uuid} {lines : List PricedLine} {items : List OrderItem}
    (made : lines.mapM (draftItem o) = .ok items) :
    (items.map fun item => (item.productId, item.quantity)) =
      (lines.map fun line => (line.line.productId, line.line.quantity)) ∧
    ∀ item ∈ items, item.orderId = o ∧ 0 < item.quantity := by
  induction lines generalizing items with
  | nil =>
    cases made
    simp
  | cons line lines ih =>
    simp only [List.mapM_cons, bind, Except.bind] at made
    split at made <;> try contradiction
    rename_i item first
    split at made <;> try contradiction
    rename_i rest others
    cases made
    obtain ⟨orderId, productId, quantity, positive⟩ := draftItem_eq first
    obtain ⟨same, owned⟩ := ih others
    exact ⟨by simp [productId, quantity, same], List.forall_mem_cons.mpr ⟨⟨orderId, positive⟩, owned⟩⟩

section Guards
open Locking Program
variable {held : List Lock}

theorem guarded_onBeforeReserve_bind {draft : Draft} {warehouseId : Uuid} {β : Type}
    {k : Order → Tx β}
    (rest : ∀ order more, .order draft.orderId ∈ more → (k order).Guarded store more) :
    (onBeforeReserve draft warehouseId >>= k).Guarded store held := by
  refine ⟨by simp [store, Sql.need], fun createdAt => ⟨by simp [store, Sql.need], ?_⟩⟩
  intro updatedAt
  refine ⟨by simp [store, Sql.need], fun c => ⟨by simp [store, Sql.need], fun u => ?_⟩⟩
  refine ⟨by simp [store, Sql.need], fun _ => ?_⟩
  show (liftExcept (draft.lines.mapM (draftItem draft.orderId)) >>= _ >>= k).Guarded store _
  cases made : draft.lines.mapM (draftItem draft.orderId) with
  | error e => trivial
  | ok items =>
    obtain ⟨-, owned⟩ := draftItems_eq made
    refine ⟨?_, fun _ => rest _ _ (by simp [store, Sql.gain, orderToPersistence, Draft.order])⟩
    intro l needed
    simp only [store, Sql.need, List.map_map, List.mem_map] at needed
    obtain ⟨item, member, rfl⟩ := needed
    simp [store, Sql.gain, orderToPersistence, Draft.order, orderItemToPersistence,
      (owned item member).1]

theorem guarded_attemptCandidate (draft : Draft) (warehouseId : Uuid) :
    (attemptCandidate draft warehouseId).Guarded store [] := by
  refine ⟨by simp [store, Sql.need], fun now => ?_⟩
  refine guarded_onBeforeReserve_bind fun order more inserted => ?_
  exact guarded_bind (guarded_reserve inserted) fun _ _ _ => trivial

theorem guarded_savePayment (read : Option PaymentOrmEntity) (entity : PaymentOrmEntity) :
    (savePayment read entity).Guarded store held := by
  cases read <;> exact guarded_query (by simp [Sql.need])

end Guards

end Canals
