import Canals.Domain.Order
import Canals.Http.Json

/-! The `201` body. Its two number formats are floating-point projections and
stand as parameters. -/
namespace Canals

/-- `BuildOrderResponseParams`, with the warehouse's raw distance. -/
structure OrderResponseParams where
  order : Order
  items : List OrderItem
  warehouseId : Uuid
  warehouseName : String
  distanceMeters : Rat
  paymentStatus : PaymentStatus
  deriving DecidableEq

def OrderStatus.text : OrderStatus → String
  | PENDING_PAYMENT => "PENDING_PAYMENT"
  | PAID => "PAID"
  | CONFIRMED => "CONFIRMED"
  | PAYMENT_FAILED => "PAYMENT_FAILED"
  | CANCELLED => "CANCELLED"

def PaymentStatus.text : PaymentStatus → String
  | PENDING => "PENDING"
  | AUTHORIZED => "AUTHORIZED"
  | CAPTURED => "CAPTURED"
  | DECLINED => "DECLINED"
  | FAILED => "FAILED"
  | UNKNOWN => "UNKNOWN"
  | REFUNDED => "REFUNDED"

section
variable (formatDistance : Rat → Json) (formatCentsAsDollars : Int → String)

def toOrderResponseItem (item : OrderItem) : Json := .obj [
  ("productId", .str item.productId),
  ("sku", .str item.productSkuSnapshot),
  ("name", .str item.productNameSnapshot),
  ("quantity", .num item.quantity),
  ("unitPriceCents", .num item.unitPrice.amountCents),
  ("unitPriceDollars", .str (formatCentsAsDollars item.unitPrice.amountCents))]

def toOrderResponse (params : OrderResponseParams) : Json := .obj [
  ("id", .str params.order.id),
  ("orderNumber", .str params.order.orderNumber),
  ("status", .str params.order.status.text),
  ("warehouse", .obj [
    ("id", .str params.warehouseId),
    ("name", .str params.warehouseName),
    ("distance", formatDistance params.distanceMeters)]),
  ("items", .arr (params.items.map (toOrderResponseItem formatCentsAsDollars))),
  ("totalCents", .num params.order.total.amountCents),
  ("totalDollars", .str (formatCentsAsDollars params.order.total.amountCents)),
  ("currency", .str params.order.total.currency),
  ("paymentStatus", .str params.paymentStatus.text)]

end

end Canals
