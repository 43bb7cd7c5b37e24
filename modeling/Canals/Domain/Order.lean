import Canals.Domain.Values

/-! Orders and payments as the application sees them. The status of an order
changes only along `ORDER_TRANSITIONS`. -/
namespace Canals

inductive OrderStatus where
  | PENDING_PAYMENT
  | PAID
  | CONFIRMED
  | PAYMENT_FAILED
  | CANCELLED
  deriving DecidableEq

namespace OrderStatus

protected def toString : OrderStatus → String
  | PENDING_PAYMENT => "PENDING_PAYMENT"
  | PAID => "PAID"
  | CONFIRMED => "CONFIRMED"
  | PAYMENT_FAILED => "PAYMENT_FAILED"
  | CANCELLED => "CANCELLED"

instance : ToString OrderStatus := ⟨OrderStatus.toString⟩

end OrderStatus

def ORDER_TRANSITIONS : OrderStatus → List OrderStatus
  | .PENDING_PAYMENT => [.PAID, .PAYMENT_FAILED, .CANCELLED]
  | .PAID => [.CONFIRMED]
  | .CONFIRMED => []
  | .PAYMENT_FAILED => []
  | .CANCELLED => []

def canTransitionOrderStatus (source target : OrderStatus) : Bool :=
  (ORDER_TRANSITIONS source).contains target

def assertValidOrderTransition (source target : OrderStatus) : Except Thrown Unit :=
  if canTransitionOrderStatus source target then .ok ()
  else .error (.error s!"Illegal order status transition: {source} -> {target}")

structure Order where
  id : Uuid
  orderNumber : String
  customerId : Uuid
  warehouseId : Option Uuid
  status : OrderStatus
  total : Money
  shippingAddress : ShippingAddress
  shippingLocation : Coordinates
  reservationExpiresAt : Option Date
  confirmedAt : Option Date
  cancelledAt : Option Date
  cancellationReason : Option String
  createdAt : Date
  updatedAt : Date
  deriving DecidableEq

namespace Order

def markPaid (order : Order) : Except Thrown Order := do
  assertValidOrderTransition order.status .PAID
  return { order with status := .PAID }

def markPaymentFailed (order : Order) : Except Thrown Order := do
  assertValidOrderTransition order.status .PAYMENT_FAILED
  return { order with status := .PAYMENT_FAILED }

def confirm (order : Order) (now : Date) : Except Thrown Order := do
  assertValidOrderTransition order.status .CONFIRMED
  return { order with status := .CONFIRMED, confirmedAt := some now }

def cancel (order : Order) (now : Date) (reason : String) : Except Thrown Order := do
  assertValidOrderTransition order.status .CANCELLED
  return { order with
    status := .CANCELLED, cancelledAt := some now, cancellationReason := some reason }

section Transitions
variable {order order' : Order} {now : Date} {reason : String}

theorem bind_ok {α : Type} {check : Except Thrown Unit} {a b : α}
    (ok : (check >>= fun _ => pure a) = .ok b) : check = .ok () ∧ b = a := by
  cases check with
  | error e => cases ok
  | ok _ =>
    cases ok
    exact ⟨rfl, rfl⟩

theorem markPaid_eq (ok : order.markPaid = .ok order') : order' = { order with status := .PAID } :=
  (bind_ok ok).2

theorem markPaymentFailed_eq (ok : order.markPaymentFailed = .ok order') :
    order' = { order with status := .PAYMENT_FAILED } :=
  (bind_ok ok).2

theorem confirm_eq (ok : order.confirm now = .ok order') :
    order' = { order with status := .CONFIRMED, confirmedAt := some now } :=
  (bind_ok ok).2

theorem cancel_eq (ok : order.cancel now reason = .ok order') : order' = { order with
    status := .CANCELLED, cancelledAt := some now, cancellationReason := some reason } :=
  (bind_ok ok).2

end Transitions

end Order

structure OrderItem where
  orderId : Uuid
  productId : Uuid
  quantity : Int
  productSkuSnapshot : String
  productNameSnapshot : String
  unitPrice : Money
  deriving DecidableEq

def OrderItem.new (item : OrderItem) : Except Thrown OrderItem :=
  if 0 < item.quantity then .ok item
  else .error (.error s!"OrderItem quantity must be a positive integer, got {item.quantity}")

inductive PaymentStatus where
  | PENDING
  | AUTHORIZED
  | CAPTURED
  | DECLINED
  | FAILED
  | UNKNOWN
  | REFUNDED
  deriving DecidableEq

/-- What a charge or a status query came to. The redacted response body that
travels along is opaque to everything here and left out. -/
structure ChargeResult where
  status : PaymentStatus
  providerPaymentId : Option String
  cardLast4 : Option String
  cardBrand : Option String
  failureCode : Option String
  deriving DecidableEq

def buildChargeIdempotencyKey (orderId : Uuid) (attempt : Nat) : String :=
  s!"order:{orderId}:attempt:{attempt}"

def FIRST_PAYMENT_ATTEMPT : Nat := 1

/-- The key names the order it charges. -/
theorem buildChargeIdempotencyKey_inj {o o' : Uuid} {attempt : Nat}
    (same : buildChargeIdempotencyKey o attempt = buildChargeIdempotencyKey o' attempt) :
    o = o' := by
  simpa [buildChargeIdempotencyKey, String.ext_iff, toString] using same

end Canals
