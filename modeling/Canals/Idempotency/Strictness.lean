import Canals.Idempotency.BodyRun

/-! Which accepted bodies the saga can work with. The decorators let a nested
object be missing or an array, its texts be blank and a quantity be as large as a
double, and the domain throws a plain `Error` at each. -/
namespace Canals.Idempotency

def isNotFound : Exception → Bool
  | .customerNotFound _ | .productNotFound _ => true
  | _ => false

/-- Nothing is thrown but that a customer or a product does not exist. -/
def Tolerated {α : Type} (result : Except Exception α) : Prop :=
  ∀ e, result = .error e → isNotFound e

/-- The least integer that is rounded to `Infinity`. -/
def OVERFLOW : Nat := BinaryFormat.overflow 53 1024

/-- An integer as the nearest double. -/
def asDouble (n : Nat) : Nat := BinaryFormat.rounded 53 n

/-- `line.productId` -/
def lineProductId : Json → Option Json
  | .obj line => line.lookup "productId"
  | _ => none

def lineQuantity : Json → Nat
  | .obj line =>
    match line.lookup "quantity" with
    | some (.num q) => q.num.toNat
    | _ => 0
  | _ => 0

/-- The product a line asks for, if it can be ordered. -/
def lineProduct (catalogue : Catalogue) (line : Json) : Option Product :=
  catalogue.products.find? fun product =>
    product.isActive && !product.deleted && isProduct (lineProductId line) product

/-- The customer exists, and the product of every line. -/
def resolves (catalogue : Catalogue) (body : JsonObject) : Bool :=
  (textOf (body.lookup "customerId")).any catalogue.customers.contains &&
    match body.lookup "items" with
    | some (.arr lines) => lines.all fun line => (lineProduct catalogue line).isSome
    | _ => false

/-- Neither a line nor the sum of the lines so far, each rounded to a double, overflows. -/
def TotalFits (catalogue : Catalogue) : Nat → List Json → Prop
  | _, [] => True
  | sum, line :: lines =>
    let price := ((lineProduct catalogue line).map (·.unitPriceCents.toNat)).getD 0
    let amount := price * lineQuantity line
    amount < OVERFLOW ∧ sum + asDouble amount < OVERFLOW ∧
      TotalFits catalogue (asDouble (sum + asDouble amount)) lines

/-- An address object whose required texts are not blank. -/
def addressComplete : Option Json → Bool
  | some (.obj address) => ["recipient", "line1", "city"].all fun field =>
    (textOf (address.lookup field)).any fun s => !isBlank s
  | _ => false

def isObject : Option Json → Bool
  | some (.obj _) => true
  | _ => false

/-- The lines of an accepted body. -/
def bodyLines (body : JsonObject) : List Json :=
  match body.lookup "items" with
  | some (.arr lines) => lines
  | _ => []

/-- The body has a payment and, where its customer and products exist, a complete address, a card
and a total that a double can hold. -/
def Workable (catalogue : Catalogue) : Json → Prop
  | .obj body => hasPayment (.obj body) ∧ (resolves catalogue body →
    addressComplete (body.lookup "shippingAddress") ∧ isObject (body.lookup "payment") ∧
      TotalFits catalogue 0 (bodyLines body))
  | _ => False

/-- The code works exactly under a condition; where that fails, it throws what is no 404. -/
inductive Decides {α : Type} (holds : Prop) (result : Except Exception α) : Prop where
  | works (a : α) : holds → result = .ok a → Decides holds result
  | fails (e : Exception) : ¬ holds → result = .error e → ¬ isNotFound e → Decides holds result

section Decides
variable {α β : Type} {p q : Prop} {result : Except Exception α}

theorem Decides.tolerated (decides : Decides p result) : Tolerated result ↔ p := by
  cases decides with
  | works a holds ok =>
      constructor
      · intro _
        exact holds
      · intro _ e impossible
        rw [ok] at impossible
        contradiction
  | fails e not thrown other =>
      constructor
      · intro tolerated
        exact absurd (tolerated e thrown) other
      · intro holds
        exact absurd holds not

theorem Decides.congr (decides : Decides p result) (same : p ↔ q) : Decides q result := by
  rw [← same]
  exact decides

/-- One part of the code after the other. -/
theorem Decides.bind {k : α → Except Exception β} (first : Decides p result)
    (rest : p → ∀ a, result = .ok a → Decides q (k a)) : Decides (p ∧ q) (result >>= k) := by
  cases first with
  | works a holds ok =>
      rw [ok]
      cases rest holds a ok with
      | works b also ok' => exact .works b ⟨holds, also⟩ ok'
      | fails e not thrown other => exact .fails e (fun both => not both.2) thrown other
  | fails e not thrown other =>
      rw [thrown]
      exact .fails e (fun both => not both.1) rfl other

end Decides

section Accepted
variable {properties : List DtoProperty} {object : JsonObject} {dto : Json}

theorem accepted_property (accepted : acceptsObject properties object) {property : DtoProperty}
    (member : property ∈ properties) : property.accepts (object.lookup property.name) := by
  rw [acceptsObject, Bool.and_eq_true] at accepted
  exact List.all_eq_true.mp accepted.2 property member

/-- All decorators of a required property hold of its value. -/
theorem accepted_required {name : String} {validators : List (Option Json → Bool)}
    (accepted : acceptsObject properties object)
    (member : { name, validators } ∈ properties) :
    ∀ validator ∈ validators, validator (object.lookup name) := by
  have holds := accepted_property accepted member
  simp only [DtoProperty.accepts, Bool.false_and, Bool.false_or] at holds
  exact List.all_eq_true.mp holds

theorem accepted_items {items : List Json} (accepted : acceptsItems properties items) :
    ∀ item ∈ items, acceptsNested properties item := by
  induction items with
  | nil =>
      intro item member
      cases member
  | cons first items ih =>
      rw [acceptsItems, Bool.and_eq_true] at accepted
      intro item member
      rcases List.mem_cons.mp member with rfl | later
      · exact accepted.1
      · exact ih accepted.2 item later

/-- What only accepts texts. -/
def OnlyText (validator : Option Json → Bool) : Prop :=
  ∀ value, validator value → ∃ s, value = some (.str s)

theorem onlyText_isString : OnlyText isString := by
  intro value holds
  unfold isString at holds
  split at holds
  · exact ⟨_, rfl⟩
  · cases holds

theorem onlyText_isUUIDLoose : OnlyText isUUIDLoose := by
  intro value holds
  unfold isUUIDLoose at holds
  split at holds
  · exact ⟨_, rfl⟩
  · cases holds

/-- A required text of an accepted object. -/
theorem accepted_text {name : String} {validator : Option Json → Bool} (only : OnlyText validator)
    (accepted : acceptsObject properties object)
    (member : { name, validators := [validator] } ∈ properties) :
    ∃ s, object.lookup name = some (.str s) :=
  only _ (accepted_required accepted member validator List.mem_cons_self)

/-- What an accepted body has in its lines: an order line, or an array. -/
inductive IsLine : Json → Prop where
  | line {line : JsonObject} {s : String} {q : Rat} : line.lookup "productId" = some (.str s) →
      line.lookup "quantity" = some (.num q) → q.den = 1 → 1 ≤ q → IsLine (.obj line)
  | array (items : List Json) : IsLine (.arr items)

theorem isLine_of_accepted {item : Json} (accepted : acceptsNested orderLineDto item)
    (some_ : item ≠ .null) : IsLine item := by
  cases item with
  | null => contradiction
  | arr items => exact .array items
  | obj line =>
      rw [acceptsNested] at accepted
      obtain ⟨s, productId⟩ : ∃ s, line.lookup "productId" = some (.str s) :=
        accepted_text onlyText_isUUIDLoose accepted List.mem_cons_self
      have quantity : isInt (line.lookup "quantity") ∧ Canals.min 1 (line.lookup "quantity") := by
        have member : { name := "quantity", validators := [isInt, Canals.min 1] } ∈
            orderLineDto := List.mem_cons_of_mem _ List.mem_cons_self
        have holds := accepted_required accepted member
        exact ⟨holds _ List.mem_cons_self, holds _ (List.mem_cons_of_mem _ List.mem_cons_self)⟩
      cases value : line.lookup "quantity" with
      | none =>
          rw [value] at quantity
          cases quantity.1
      | some number =>
          rw [value] at quantity
          cases number with
          | num q =>
              exact .line productId value (of_decide_eq_true quantity.1)
                (of_decide_eq_true quantity.2)
          | _ => cases quantity.1
  | _ => cases accepted

/-- The parts of an accepted body that the saga reads. -/
structure AcceptedBody (body : JsonObject) where
  customer : ∃ s, body.lookup "customerId" = some (.str s)
  lines : ∃ lines, body.lookup "items" = some (.arr lines) ∧ ∀ line ∈ lines, IsLine line
  address : validateNested shippingAddressDto (body.lookup "shippingAddress")
  payment : validateNested paymentDto (body.lookup "payment")

theorem acceptedBody {body : JsonObject} (accepted : acceptsCreateOrder (.obj body)) :
    AcceptedBody body := by
  rw [acceptsCreateOrder] at accepted
  have parts : ∀ property ∈ createOrderDto, property.accepts (body.lookup property.name) :=
    fun _ member => accepted_property accepted member
  simp only [createOrderDto, List.forall_mem_cons, DtoProperty.accepts, Bool.false_and,
    Bool.false_or, List.all_cons, List.all_nil, Bool.and_true, Bool.and_eq_true] at parts
  obtain ⟨customer, address, ⟨filled, nested, unique⟩, payment, -⟩ := parts
  refine ⟨onlyText_isUUIDLoose _ customer, ?_, address, payment⟩
  cases value : body.lookup "items" with
  | none =>
      rw [value] at filled
      cases filled
  | some items =>
      rw [value] at filled nested unique
      cases items with
      | arr lines =>
          refine ⟨lines, rfl, ?_⟩
          intro line member
          refine isLine_of_accepted (accepted_items nested line member) ?_
          rintro rfl
          rw [uniqueProductIds, Bool.and_eq_true] at unique
          have impossible := List.all_eq_true.mp unique.1 _ member
          cases impossible
      | _ => cases filled

end Accepted

section Parts
variable {body address : JsonObject}

theorem requireText_text {field s : String} (value : address.lookup field = some (.str s)) :
    requireText (some (.obj address)) field =
      if isBlank s then .error (.other (.error s!"ShippingAddress.{field} is required"))
      else .ok () := by
  rw [requireText, readProperty, value]
  rfl

theorem requireText_country (accepted : acceptsObject shippingAddressDto address) :
    requireText (some (.obj address)) "country" = .ok () := by
  have member : { name := "country", validators := [isIn [SUPPORTED_COUNTRY]] } ∈
      shippingAddressDto := List.mem_of_getLast? rfl
  have holds := accepted_required accepted member _ List.mem_cons_self
  cases value : address.lookup "country" with
  | none =>
      rw [value] at holds
      cases holds
  | some country =>
      rw [value] at holds
      cases country with
      | str s =>
          have only : s = SUPPORTED_COUNTRY := by simpa [isIn] using holds
          rw [requireText_text value, only]
          rfl
      | _ => cases holds

theorem requireText_decides {field s : String} (value : address.lookup field = some (.str s)) :
    Decides (isBlank s = false) (requireText (some (.obj address)) field) := by
  rw [requireText_text value]
  cases isBlank s with
  | true => exact .fails _ (by simp) rfl (by simp [isNotFound])
  | false => exact .works () rfl rfl

/-- The address is taken exactly when it is an object without blanks. -/
theorem checkShippingAddress_decides {value : Option Json}
    (accepted : validateNested shippingAddressDto value) :
    Decides (addressComplete value) (checkShippingAddress value) := by
  cases value with
  | none => exact .fails _ (by simp [addressComplete]) rfl (by simp [isNotFound])
  | some value =>
      rw [validateNested, Option.all_some] at accepted
      cases value with
      | null => exact .fails _ (by simp [addressComplete]) rfl (by simp [isNotFound])
      | arr items => exact .fails _ (by simp [addressComplete]) rfl (by simp [isNotFound])
      | obj address =>
          rw [acceptsNested] at accepted
          obtain ⟨recipient, hasRecipient⟩ : ∃ s, address.lookup "recipient" = some (.str s) :=
            accepted_text onlyText_isString accepted (by simp [shippingAddressDto])
          obtain ⟨line1, hasLine1⟩ : ∃ s, address.lookup "line1" = some (.str s) :=
            accepted_text onlyText_isString accepted (by simp [shippingAddressDto])
          obtain ⟨city, hasCity⟩ : ∃ s, address.lookup "city" = some (.str s) :=
            accepted_text onlyText_isString accepted (by simp [shippingAddressDto])
          have country : Decides True (requireText (some (.obj address)) "country") :=
            .works () trivial (requireText_country accepted)
          have steps := (requireText_decides hasRecipient).bind fun _ _ _ =>
            (requireText_decides hasLine1).bind fun _ _ _ =>
            (requireText_decides hasCity).bind fun _ _ _ =>
            country.bind fun _ _ _ => Decides.works () trivial rfl
          refine Decides.congr steps ?_
          simp [addressComplete, hasRecipient, hasLine1, hasCity, textOf]
      | _ => cases accepted

/-- The card is described exactly when the payment is an object. -/
theorem describeCardNumber_decides {payment cardNumber : Option Json}
    (accepted : validateNested paymentDto payment)
    (read : readProperty payment "cardNumber" = .ok cardNumber) :
    Decides (isObject payment) (describeCardNumber cardNumber) := by
  cases payment with
  | none => cases read
  | some payment =>
      rw [validateNested, Option.all_some] at accepted
      cases payment with
      | null => cases read
      | arr items =>
          cases read
          exact .fails _ (by simp [isObject]) rfl (by simp [isNotFound])
      | obj payment =>
          cases read
          rw [acceptsNested] at accepted
          have member : { name := "cardNumber", validators := [isString, matchesCardNumber] } ∈
              paymentDto := List.mem_cons_self
          have text := accepted_required accepted member _ List.mem_cons_self
          obtain ⟨s, hasCard⟩ := onlyText_isString _ text
          rw [hasCard]
          exact .works _ rfl rfl
      | _ => cases accepted

end Parts

section Total
variable {catalogue : Catalogue} {products : List Product} {toText : Option Json → String}
  {line : JsonObject} {s : String} {q : Rat} {product : Product} {sum : Money}

theorem toNumber_eq (n : Nat) :
    toNumber n = if n < OVERFLOW then some (asDouble n) else none := by
  rw [toNumber, BinaryFormat.nearest_eq (by decide) (by decide), OVERFLOW, asDouble]

theorem productOf_eq (id : line.lookup "productId" = some (.str s))
    (found : products.find? (isProduct (some (.str s))) = some product) :
    productOf products (.obj line) = .ok product := by
  simp only [productOf, readProperty, id, Bind.bind, Except.bind, found]
  rfl

theorem moneyOfNumber_eq {currency : String} (iso : isIsoCode currency) (n : Nat) :
    moneyOfNumber (some n) currency = .ok ⟨n, currency, Int.natCast_nonneg n, iso⟩ := by
  rw [moneyOfNumber, Money.of, dif_pos (Int.natCast_nonneg n), dif_pos iso]

/-- The exception of an amount that is rounded to `Infinity`. -/
def infiniteAmount : Thrown :=
  .error "Money amount must be an integer number of cents, got Infinity"

theorem multiplyNumber_eq {price : Money} (whole : q.den = 1) (nonneg : 0 ≤ q) :
    multiplyNumber toText price (some (.num q)) =
      if price.amountCents.toNat * q.num.toNat < OVERFLOW then
        .ok ⟨asDouble (price.amountCents.toNat * q.num.toNat), price.currency,
          Int.natCast_nonneg _, price.iso⟩
      else .error infiniteAmount := by
  rw [multiplyNumber, if_pos ⟨whole, nonneg⟩, toNumber_eq]
  split
  · rw [moneyOfNumber_eq price.iso]
  · rfl

theorem addNumber_eq {amount : Money} (same : sum.currency = amount.currency) :
    addNumber sum amount =
      if sum.amountCents.toNat + amount.amountCents.toNat < OVERFLOW then
        .ok ⟨asDouble (sum.amountCents.toNat + amount.amountCents.toNat), sum.currency,
          Int.natCast_nonneg _, sum.iso⟩
      else .error infiniteAmount := by
  rw [addNumber, if_pos same, toNumber_eq]
  split
  · rw [moneyOfNumber_eq sum.iso]
  · rfl

/-- A line is added as long as neither its amount nor the sum overflows. -/
theorem addLine_eq (id : line.lookup "productId" = some (.str s))
    (quantity : line.lookup "quantity" = some (.num q)) (whole : q.den = 1) (positive : 1 ≤ q)
    (found : products.find? (isProduct (some (.str s))) = some product)
    (price : 0 ≤ product.unitPriceCents) (dollars : sum.currency = "USD") :
    addLine toText products sum (.obj line) =
      if product.unitPriceCents.toNat * q.num.toNat < OVERFLOW then
        if sum.amountCents.toNat + asDouble (product.unitPriceCents.toNat * q.num.toNat) <
            OVERFLOW then
          .ok ⟨asDouble (sum.amountCents.toNat +
            asDouble (product.unitPriceCents.toNat * q.num.toNat)), sum.currency,
            Int.natCast_nonneg _, sum.iso⟩
        else .error (.other infiniteAmount)
      else .error (.other infiniteAmount) := by
  have iso : isIsoCode "USD" := by decide
  have unitPrice : Money.of product.unitPriceCents =
      .ok ⟨product.unitPriceCents, "USD", price, iso⟩ := by
    rw [Money.of, dif_pos price, dif_pos iso]
  simp only [addLine, productOf_eq id found, readProperty, quantity, unitPrice, Bind.bind,
    Except.bind, Except.mapError, multiplyNumber_eq whole (le_trans (by decide) positive)]
  by_cases fits : product.unitPriceCents.toNat * q.num.toNat < OVERFLOW
  · simp only [if_pos fits]
    rw [addNumber_eq (by exact dollars)]
    simp only [Int.toNat_natCast]
    by_cases sums : sum.amountCents.toNat +
        asDouble (product.unitPriceCents.toNat * q.num.toNat) < OVERFLOW
    · simp only [if_pos sums]
    · simp only [if_neg sums]
  · simp only [if_neg fits]

/-- A line whose product has been resolved, to one at a price that is no debt. -/
def Resolved (catalogue : Catalogue) (products : List Product) (line : Json) : Prop :=
  IsLine line ∧ ∃ product, lineProduct catalogue line = some product ∧
    products.find? (isProduct (lineProductId line)) = some product ∧ 0 ≤ product.unitPriceCents

/-- A resolved line is an object with a product and a quantity. -/
theorem Resolved.object {line : Json} (resolved : Resolved catalogue products line) :
    ∃ properties s q product, line = .obj properties ∧
      properties.lookup "productId" = some (.str s) ∧
      properties.lookup "quantity" = some (.num q) ∧ q.den = 1 ∧ 1 ≤ q ∧
      lineProduct catalogue line = some product ∧
      products.find? (isProduct (some (.str s))) = some product ∧ 0 ≤ product.unitPriceCents := by
  obtain ⟨isLine, product, asked, found, price⟩ := resolved
  cases isLine with
  | @line properties s q id quantity whole positive =>
      rw [lineProductId, id] at found
      exact ⟨properties, s, q, product, rfl, id, quantity, whole, positive, asked, found, price⟩
  | array items =>
      have nothing := List.find?_some found
      cases nothing

/-- Adding up resolved lines works exactly when neither an amount nor the sum overflows. -/
theorem total_decides {lines : List Json}
    (resolved : ∀ line ∈ lines, Resolved catalogue products line) (dollars : sum.currency = "USD") :
    Decides (TotalFits catalogue sum.amountCents.toNat lines)
      (lines.foldlM (addLine toText products) sum) := by
  induction lines generalizing sum with
  | nil => exact .works sum trivial rfl
  | cons line lines ih =>
      obtain ⟨here, others⟩ := List.forall_mem_cons.mp resolved
      obtain ⟨properties, s, q, product, rfl, id, quantity, whole, positive, asked, found,
        price⟩ := here.object
      have count : lineQuantity (.obj properties) = q.num.toNat := by
        rw [lineQuantity, quantity]
      rw [List.foldlM_cons, TotalFits,
        addLine_eq id quantity whole positive found price dollars, asked, count]
      simp only [Option.map_some, Option.getD_some]
      by_cases fits : product.unitPriceCents.toNat * q.num.toNat < OVERFLOW
      · by_cases sums : sum.amountCents.toNat +
            asDouble (product.unitPriceCents.toNat * q.num.toNat) < OVERFLOW
        · rw [if_pos fits, if_pos sums]
          refine Decides.congr (ih others (by exact dollars)) ?_
          simp only [fits, sums, true_and, Int.toNat_natCast]
        · rw [if_pos fits, if_neg sums]
          exact .fails _ (fun all => sums all.2.1) rfl (by simp [isNotFound])
      · rw [if_neg fits]
        exact .fails _ (fun all => fits all.1) rfl (by simp [isNotFound])

/-- The items of resolved lines are valid. -/
theorem orderItems_ok {lines : List Json} (orderId : Uuid)
    (resolved : ∀ line ∈ lines, Resolved catalogue products line) :
    ∃ items, lines.mapM (orderItem toText orderId products) = .ok items := by
  induction lines with
  | nil => exact ⟨[], rfl⟩
  | cons line lines ih =>
      obtain ⟨here, others⟩ := List.forall_mem_cons.mp resolved
      obtain ⟨items, rest⟩ := ih others
      obtain ⟨properties, s, q, product, rfl, id, quantity, whole, positive, -, found, price⟩ :=
        here.object
      have iso : isIsoCode "USD" := by decide
      have unitPrice : Money.of product.unitPriceCents =
          .ok ⟨product.unitPriceCents, "USD", price, iso⟩ := by
        rw [Money.of, dif_pos price, dif_pos iso]
      have more : q.den = 1 ∧ 0 < q := ⟨whole, lt_of_lt_of_le (by decide) positive⟩
      have first : ∃ item, orderItem toText orderId products (.obj properties) = .ok item := by
        simp only [orderItem, productOf_eq id found, readProperty, quantity, unitPrice, Bind.bind,
          Except.bind, Except.mapError, if_pos more]
        exact ⟨_, rfl⟩
      obtain ⟨item, first⟩ := first
      exact ⟨item :: items, by rw [List.mapM_cons, first, rest]; rfl⟩

end Total

section Resolution
variable {catalogue : Catalogue} {lines : List Json}

theorem productIds_eq (shape : ∀ line ∈ lines, IsLine line) :
    lines.mapM (fun line => readProperty (some line) "productId") =
      .ok (lines.map lineProductId) := by
  induction lines with
  | nil => rfl
  | cons line lines ih =>
      obtain ⟨here, shape⟩ := List.forall_mem_cons.mp shape
      have read : readProperty (some line) "productId" = .ok (lineProductId line) := by
        cases here <;> rfl
      rw [List.mapM_cons, read, ih shape]
      rfl

/-- The products fetched for the lines. -/
def fetched (catalogue : Catalogue) (lines : List Json) : List Product :=
  catalogue.products.filter fun product =>
    (lines.map lineProductId).any (isProduct · product) && product.isActive && !product.deleted

theorem find?_fetched {line : Json} (member : line ∈ lines) :
    (fetched catalogue lines).find? (isProduct (lineProductId line)) =
      lineProduct catalogue line := by
  rw [fetched, List.find?_filter, lineProduct]
  congr 1
  funext product
  rw [Bool.eq_iff_iff]
  simp only [Bool.and_eq_true, decide_eq_true_eq]
  constructor
  · rintro ⟨⟨⟨-, active⟩, kept⟩, asked⟩
    exact ⟨⟨active, kept⟩, asked⟩
  · rintro ⟨⟨active, kept⟩, asked⟩
    exact ⟨⟨⟨List.any_eq_true.mpr ⟨_, List.mem_map_of_mem member, asked⟩, active⟩, kept⟩, asked⟩

/-- The resolution ends in the products fetched, or with a 404. -/
theorem resolve_cases {customerId address cardNumber : Option Json} {key : String}
    (shape : ∀ line ∈ lines, IsLine line) :
    ((textOf customerId).any catalogue.customers.contains ∧
        (∀ line ∈ lines, (lineProduct catalogue line).isSome) ∧
        resolveCustomerAndProducts catalogue
          ⟨customerId, address, some (.arr lines), cardNumber, key⟩ =
            .ok (fetched catalogue lines)) ∨
      (¬ ((textOf customerId).any catalogue.customers.contains ∧
          ∀ line ∈ lines, (lineProduct catalogue line).isSome) ∧
        ∃ e, resolveCustomerAndProducts catalogue
          ⟨customerId, address, some (.arr lines), cardNumber, key⟩ = .error e ∧
          isNotFound e) := by
  have missing : ((lines.map lineProductId).filter fun productId =>
      !(fetched catalogue lines).any (isProduct productId)).isEmpty ↔
      ∀ line ∈ lines, (lineProduct catalogue line).isSome := by
    rw [List.isEmpty_iff, List.filter_eq_nil_iff, List.forall_mem_map]
    refine forall₂_congr fun line member => ?_
    rw [← find?_fetched member, List.find?_isSome, Bool.not_eq_true', Bool.not_eq_false,
      List.any_eq_true]
  simp only [resolveCustomerAndProducts, arrayItems, Bind.bind, Except.bind,
    productIds_eq shape]
  by_cases known : (textOf customerId).any catalogue.customers.contains
  · rw [if_pos known]
    by_cases all : ∀ line ∈ lines, (lineProduct catalogue line).isSome
    · exact .inl ⟨known, all, if_pos (missing.mpr all)⟩
    · exact .inr ⟨fun both => all both.2, _, if_neg (missing.not.mpr all), rfl⟩
  · rw [if_neg known]
    exact .inr ⟨fun both => known both.1, _, rfl, rfl⟩

end Resolution

section Whole
variable {catalogue : Catalogue} {body : JsonObject} {toText : Option Json → String}
  {orderId : Uuid} {key : String} {cardNumber : Option Json} {lines : List Json}

/-- A payment that is missing or `null` is read without a check. -/
theorem readCard_cases (body : JsonObject) :
    (hasPayment (.obj body) ∧ ∃ cardNumber,
        readProperty (body.lookup "payment") "cardNumber" = .ok cardNumber) ∨
      (¬ hasPayment (.obj body) ∧ ∃ e,
        readProperty (body.lookup "payment") "cardNumber" = .error e ∧ ¬ isNotFound e) := by
  rw [hasPayment]
  cases body.lookup "payment" with
  | none => exact .inr ⟨by simp, _, rfl, by simp [isNotFound]⟩
  | some payment =>
      cases payment with
      | null => exact .inr ⟨by simp, _, rfl, by simp [isNotFound]⟩
      | _ => exact .inl ⟨rfl, _, rfl⟩

theorem runBody_eq (read : readProperty (body.lookup "payment") "cardNumber" = .ok cardNumber)
    (hasLines : body.lookup "items" = some (.arr lines)) :
    runBody toText catalogue orderId (.obj body) key =
      (resolveCustomerAndProducts catalogue ⟨body.lookup "customerId",
          body.lookup "shippingAddress", some (.arr lines), cardNumber, key⟩ >>= fun products =>
        checkShippingAddress (body.lookup "shippingAddress") >>= fun _ =>
        lines.foldlM (addLine toText products) Money.zero >>= fun total =>
        lines.mapM (orderItem toText orderId products) >>= fun items =>
        describeCardNumber cardNumber >>= fun card => .ok { total, items, card }) := by
  have command : createCommand (.obj body) key = .ok ⟨body.lookup "customerId",
      body.lookup "shippingAddress", some (.arr lines), cardNumber, key⟩ := by
    rw [← hasLines]
    simp only [createCommand, Bind.bind, Except.bind, readProperty] at read ⊢
    rw [read]
    rfl
  rw [runBody, command]
  rfl

/-- The saga's code throws nothing but a 404 on the values of an accepted body exactly when the
body is workable. -/
theorem runBody_tolerated_iff {dto : Json} (accepted : acceptsCreateOrder dto)
    (prices : ∀ product ∈ catalogue.products, 0 ≤ product.unitPriceCents) :
    Tolerated (runBody toText catalogue orderId dto key) ↔ Workable catalogue dto := by
  obtain ⟨body, rfl⟩ : ∃ body, dto = .obj body := by
    cases dto with
    | obj body => exact ⟨body, rfl⟩
    | _ => cases accepted
  obtain ⟨-, ⟨lines, hasLines, shape⟩, address, payment⟩ := acceptedBody accepted
  rw [Workable, resolves, bodyLines, hasLines, Bool.and_eq_true, List.all_eq_true]
  rcases readCard_cases body with ⟨paid, cardNumber, read⟩ | ⟨unpaid, e, failed, other⟩
  · rw [runBody_eq read hasLines]
    simp only [paid, true_and]
    rcases resolve_cases shape with ⟨known, all, resolved⟩ | ⟨unknown, e, failed, notFound⟩
    · have every : ∀ line ∈ lines, Resolved catalogue (fetched catalogue lines) line := by
        intro line member
        obtain ⟨product, asked⟩ := Option.isSome_iff_exists.mp (all line member)
        exact ⟨shape line member, product, asked, (find?_fetched member).trans asked,
          prices product (List.mem_of_find?_eq_some asked)⟩
      obtain ⟨items, made⟩ := orderItems_ok orderId every
      rw [resolved]
      have sums : Decides (TotalFits catalogue 0 lines)
          (lines.foldlM (addLine toText (fetched catalogue lines)) Money.zero) :=
        total_decides every (show Money.zero.currency = "USD" from rfl)
      have steps := (checkShippingAddress_decides address).bind fun _ _ _ =>
        sums.bind fun _ total _ =>
        (Decides.works items trivial made).bind fun _ items _ =>
        (describeCardNumber_decides payment read).bind fun _ card _ =>
          Decides.works (BodyValues.mk total items card) trivial rfl
      refine (Decides.tolerated steps).trans ?_
      constructor
      · rintro ⟨complete, fits, -, card, -⟩ -
        exact ⟨complete, card, fits⟩
      · intro workable
        obtain ⟨complete, card, fits⟩ := workable ⟨known, all⟩
        exact ⟨complete, fits, trivial, card, trivial⟩
    · rw [failed]
      constructor
      · intro _ both
        exact absurd both unknown
      · rintro _ _ ⟨⟩
        exact notFound
  · have thrown : runBody toText catalogue orderId (.obj body) key = .error e := by
      simp only [runBody, createCommand, Bind.bind, Except.bind, readProperty] at failed ⊢
      rw [failed]
    constructor
    · intro tolerated
      exact absurd (tolerated e thrown) other
    · rintro ⟨paid, -⟩
      exact absurd paid unpaid

/-- Something else than a 404 is thrown. -/
def fails {α : Type} : Except Exception α → Bool
  | .error e => !isNotFound e
  | .ok _ => false

theorem not_tolerated {α : Type} {result : Except Exception α} (failed : fails result) :
    ¬ Tolerated result := by
  intro tolerated
  cases result with
  | ok a => cases failed
  | error e =>
      rw [fails, tolerated e rfl] at failed
      contradiction

/-- A catalogue of one customer and one lamp. -/
def shop : Catalogue where
  customers := ["11111111-1111-1111-1111-111111111111"]
  products := [⟨"22222222-2222-2222-2222-222222222222", "SKU-1", "Lamp", 1250, true, false⟩]

/-- An order of two lamps with this in the place of its payment. -/
def paidWith (payment : Json) : Json := .obj [
  ("customerId", .str "11111111-1111-1111-1111-111111111111"),
  ("shippingAddress", .obj [("recipient", .str "Ada"), ("line1", .str "1 Main St"),
    ("city", .str "Denver"), ("country", .str "US")]),
  ("items", .arr [.obj [("productId", .str "22222222-2222-2222-2222-222222222222"),
    ("quantity", .num 2)]]),
  ("payment", payment)]

theorem shop_prices : ∀ product ∈ shop.products, 0 ≤ product.unitPriceCents := by
  simp [shop]

theorem runBody_tolerated_iff_lamp :
    Tolerated (runBody (fun _ => "") shop "order"
      (paidWith (.obj [("cardNumber", .str "4111111111111111")])) "key") ↔
      Workable shop (paidWith (.obj [("cardNumber", .str "4111111111111111")])) :=
  runBody_tolerated_iff (by decide +kernel) shop_prices

/-- With an array for a payment the stock is reserved before the card turns out to be missing. -/
theorem payment_array_throws : ¬ ∀ (toText : Option Json → String) (catalogue : Catalogue)
    (orderId : Uuid) (dto : Json) (key : String), acceptsCreateOrder dto →
    (∀ product ∈ catalogue.products, 0 ≤ product.unitPriceCents) →
    Tolerated (runBody toText catalogue orderId dto key) := by
  intro claim
  have tolerated := claim (fun _ => "") shop "order" (paidWith (.arr [])) "key"
    (by decide +kernel) shop_prices
  exact not_tolerated (by decide +kernel) tolerated

end Whole

end Canals.Idempotency
