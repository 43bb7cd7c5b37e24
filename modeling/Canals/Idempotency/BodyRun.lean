import Canals.Arithmetic.BinaryFormat
import Canals.Idempotency.LifeCycle
import Canals.Payments.Gateway

/-! What the saga computes from the values of a body, up to the charge: types are
gone by then, so a value of another shape than declared goes wherever it is read. -/
namespace Canals.Idempotency

/-- `Money.of` an amount that is an integer or, where it is `none`, `Infinity`. -/
def moneyOfNumber (amountCents : Option Nat) (currency : String) : Except Thrown Money :=
  match amountCents with
  | some amountCents => Money.of amountCents currency
  | none => .error (.error "Money amount must be an integer number of cents, got Infinity")

/-- An integer result of JavaScript arithmetic, as a double. -/
def toNumber (n : Nat) : Option Nat := BinaryFormat.nearest 53 1024 n

def addNumber (a b : Money) : Except Thrown Money :=
  if a.currency = b.currency then
    moneyOfNumber (toNumber (a.amountCents.toNat + b.amountCents.toNat)) a.currency
  else .error (.error s!"Cannot combine {a.currency} with {b.currency}")

/-- `value`, when it is a text. -/
def textOf : Option Json → Option String
  | some (.str s) => some s
  | _ => none

section Values
-- `String(value)`, for the texts of errors
variable (toText : Option Json → String)

def multiplyNumber (a : Money) (quantity : Option Json) : Except Thrown Money :=
  match quantity with
  | some (.num q) =>
    if q.den = 1 ∧ 0 ≤ q then
      moneyOfNumber (toNumber (a.amountCents.toNat * q.num.toNat)) a.currency
    else .error (.error
      s!"Money can only be multiplied by a non-negative integer, got {toText quantity}")
  | _ => .error (.error
      s!"Money can only be multiplied by a non-negative integer, got {toText quantity}")

/-- `lines.map(…)` -/
def arrayItems (lines : Option Json) : Except Exception (List Json) :=
  match lines with
  | some (.arr items) => .ok items
  | none => .error (.other (.error "Cannot read properties of undefined (reading 'map')"))
  | some .null => .error (.other (.error "Cannot read properties of null (reading 'map')"))
  | some _ => .error (.other (.error "command.lines.map is not a function"))

def isProduct (productId : Option Json) (product : Product) : Bool :=
  textOf productId = some product.id

def resolveCustomerAndProducts (catalogue : Catalogue) (command : UntypedCommand) :
    Except Exception (List Product) := do
  let customerId := textOf command.customerId
  if customerId.any catalogue.customers.contains then
    let lines ← arrayItems command.lines
    let requestedProductIds ← lines.mapM fun line => readProperty (some line) "productId"
    let products := catalogue.products.filter fun product =>
      requestedProductIds.any (isProduct · product) && product.isActive && !product.deleted
    let missingProductIds := requestedProductIds.filter fun productId =>
      !products.any (isProduct productId)
    if missingProductIds.isEmpty then return products
    else .error (.productNotFound (missingProductIds.map fun id => (textOf id).getD ""))
  else .error (.customerNotFound (customerId.getD ""))

/-- `!props[field] || props[field].trim().length === 0` -/
def requireText (props : Option Json) (field : String) : Except Exception Unit := do
  let missing : Exception := .other (.error s!"ShippingAddress.{field} is required")
  match ← readProperty props field with
  | none | some .null | some (.bool false) => .error missing
  | some (.str s) => if isBlank s then .error missing else return
  | some (.num n) =>
    if n = 0 then .error missing
    else .error (.other (.error "props[field].trim is not a function"))
  | some _ => .error (.other (.error "props[field].trim is not a function"))

/-- The checks of `ShippingAddress.of`. -/
def checkShippingAddress (props : Option Json) : Except Exception Unit :=
  ["recipient", "line1", "city", "country"].forM (requireText props)

/-- `productById.get(line.productId)!` with the price read of it. -/
def productOf (products : List Product) (line : Json) : Except Exception Product := do
  let productId ← readProperty (some line) "productId"
  match products.find? (isProduct productId) with
  | some product => return product
  | none => .error (.other (.error
      "Cannot read properties of undefined (reading 'unitPriceCents')"))

def addLine (products : List Product) (sum : Money) (line : Json) : Except Exception Money := do
  let product ← productOf products line
  let unitPrice ← (Money.of product.unitPriceCents).mapError .other
  let quantity ← readProperty (some line) "quantity"
  let amount ← (multiplyNumber toText unitPrice quantity).mapError .other
  (addNumber sum amount).mapError .other

/-- `new OrderItem(…)` for a line. -/
def orderItem (orderId : Uuid) (products : List Product) (line : Json) :
    Except Exception OrderItem := do
  let product ← productOf products line
  let quantity ← readProperty (some line) "quantity"
  let unitPrice ← (Money.of product.unitPriceCents).mapError .other
  let invalid : Exception :=
    .other (.error s!"OrderItem quantity must be a positive integer, got {toText quantity}")
  match quantity with
  | some (.num q) =>
    if q.den = 1 ∧ 0 < q then return {
      orderId
      productId := product.id
      quantity := q.num
      productSkuSnapshot := product.sku
      productNameSnapshot := product.name
      unitPrice }
    else .error invalid
  | _ => .error invalid

/-- `describeCard`, whose first step is `pan.replace(…)`. -/
def describeCardNumber (pan : Option Json) : Except Exception CardDescription :=
  match pan with
  | some (.str pan) => .ok (describeCard pan)
  | none => .error (.other (.error "Cannot read properties of undefined (reading 'replace')"))
  | some .null => .error (.other (.error "Cannot read properties of null (reading 'replace')"))
  | some _ => .error (.other (.error "pan.replace is not a function"))

structure BodyValues where
  total : Money
  items : List OrderItem
  card : CardDescription

/-- The command, the address, the total, the items and the card, as the saga comes to them. -/
def runBody (catalogue : Catalogue) (orderId : Uuid) (dto : Json) (idempotencyKey : String) :
    Except Exception BodyValues := do
  let command ← createCommand dto idempotencyKey
  let products ← resolveCustomerAndProducts catalogue command
  checkShippingAddress command.shippingAddress
  let lines ← arrayItems command.lines
  let total ← lines.foldlM (addLine toText products) Money.zero
  let items ← lines.mapM (orderItem toText orderId products)
  let card ← describeCardNumber command.cardNumber
  return { total, items, card }

end Values

end Canals.Idempotency
