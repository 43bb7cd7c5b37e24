import Canals.Http.OrderResponse
import Canals.Idempotency.BodyRun
import Canals.Orders.CreateOrderSpec
import Canals.Orders.SettlementSpec
import Canals.Text.Decimal

/-! An order's amount in JavaScript's numbers: summed up from its lines, written to a column,
read back from the column's text and put into the `201` body. -/
namespace Canals
open Idempotency (addNumber moneyOfNumber toNumber)

/-- `Number.MAX_SAFE_INTEGER` -/
def MAX_SAFE_INTEGER : Int := 2 ^ 53 - 1

/-- `Number(value)` of the text of a `bigint` column. -/
def bigintNumberTransformer (value : String) : Option Int :=
  match value.toList with
  | '-' :: digits => (toNumber (Decimal.value digits)).map fun n : Nat => -(n : Int)
  | digits => (toNumber (Decimal.value digits)).map fun n : Nat => (n : Int)

/-- `unitPrice.multiply(quantity)` -/
def multiplyQuantity (unitPrice : Money) (quantity : Int) : Except Thrown Money :=
  if quantity < 0 then
    .error (.error s!"Money can only be multiplied by a non-negative integer, got {quantity}")
  else moneyOfNumber (toNumber (unitPrice.amountCents.toNat * quantity.toNat)) unitPrice.currency

def addLine (sum : Money) (line : PricedLine) : Except Thrown Money := do
  let price ← Money.of line.product.unitPriceCents
  let amount ← multiplyQuantity price line.line.quantity
  addNumber sum amount

/-- `orderTotal`, in numbers. -/
def orderTotalNumber (lines : List PricedLine) : Except Thrown Money :=
  lines.foldlM addLine Money.zero

/-- `draftOrder`, in numbers. -/
def draftOrderNumber (command : CreateOrderCommand) (products : List Product)
    (geocoded : Geocoded) (orderNumber : String) (orderId : Uuid) :
    Except CreateOrderError Draft := do
  let shippingAddress ← (ShippingAddress.of command.shippingAddress).mapError .thrown
  let shippingLocation ← geocoded.mapError .ofGeocoding
  let lines := priceLines products command.lines
  let total ← (orderTotalNumber lines).mapError .thrown
  return {
    orderId
    orderNumber
    customerId := command.customerId
    total
    shippingAddress
    shippingLocation
    lines }

/-- What the lines come to, exactly. -/
def linesTotal (lines : List PricedLine) : Int :=
  (lines.map fun line => line.product.unitPriceCents * line.line.quantity).sum

/-- What the rows of an order come to. -/
def Db.itemsTotal (d : Db) (orderId : Uuid) : Int :=
  ((d.itemsOf orderId).map fun item => item.unitPriceCents * item.quantity).sum

/-- `totalCents` of a body. -/
def totalCents : Json → Option Rat
  | .obj properties =>
    match properties.lookup "totalCents" with
    | some (.num n) => some n
    | _ => none
  | _ => none

theorem totalCents_toOrderResponse (formatDistance : Rat → Json)
    (formatCentsAsDollars : Int → String) (params : OrderResponseParams) :
    totalCents (toOrderResponse formatDistance formatCentsAsDollars params) =
      some (params.order.total.amountCents : Rat) := rfl

section Numbers
variable {n : Nat} {sum next total : Money} {line : PricedLine} {lines : List PricedLine}

theorem toNumber_exact (small : n ≤ MAX_SAFE_INTEGER) : toNumber n = some n := by
  have below : n < 2 ^ 53 := by
    rw [MAX_SAFE_INTEGER] at small
    omega
  exact BinaryFormat.nearest_of_lt (by decide) (by decide) below

/-- What was written to a column is read back from it. -/
theorem bigintNumberTransformer_exact {amount : Int} (least : 0 ≤ amount)
    (most : amount ≤ MAX_SAFE_INTEGER) :
    bigintNumberTransformer (toString amount) = some amount := by
  obtain ⟨n, rfl⟩ := Int.eq_ofNat_of_zero_le least
  have digits : (toString (n : Int)).toList = Nat.toDigits 10 n := by
    rw [show toString (n : Int) = toString n from rfl, Nat.toString_eq_ofList_toDigits,
      String.toList_ofList]
  rw [bigintNumberTransformer, digits]
  split
  · rename_i rest same
    have sign := Decimal.digits_toDigits n '-' (by simp [same])
    exact absurd sign (by decide)
  · rw [Decimal.value_toDigits, toNumber_exact most]
    rfl

theorem moneyOfNumber_exact {currency : String} {money : Money} (small : n ≤ MAX_SAFE_INTEGER)
    (made : moneyOfNumber (toNumber n) currency = .ok money) : money.amountCents = n := by
  rw [toNumber_exact small, moneyOfNumber] at made
  exact (Money.of_eq made).1

theorem ok_bind {ε α β : Type} (a : α) (rest : α → Except ε β) :
    (Except.ok a >>= rest) = rest a := rfl

theorem error_bind {ε α β : Type} (e : ε) (rest : α → Except ε β) :
    (Except.error e >>= rest) = .error e := rfl

theorem bind_eq_ok {ε α β : Type} {first : Except ε α} {rest : α → Except ε β} {b : β}
    (made : (first >>= rest) = .ok b) : ∃ a, first = .ok a ∧ rest a = .ok b := by
  cases first with
  | error e => cases made
  | ok a => exact ⟨a, rfl, made⟩

theorem multiplyQuantity_ok {unitPrice amount : Money} {quantity : Int}
    (made : multiplyQuantity unitPrice quantity = .ok amount) : 0 ≤ quantity ∧
      moneyOfNumber (toNumber (unitPrice.amountCents.toNat * quantity.toNat))
        unitPrice.currency = .ok amount := by
  rw [multiplyQuantity] at made
  split at made
  · cases made
  · exact ⟨Int.not_lt.mp ‹_›, made⟩

theorem addNumber_ok {a b : Money} (made : addNumber a b = .ok total) :
    moneyOfNumber (toNumber (a.amountCents.toNat + b.amountCents.toNat)) a.currency =
      .ok total := by
  rw [addNumber] at made
  split at made
  · exact made
  · cases made

/-- A line that is added is worth no less than nothing, and adds its worth where it is small. -/
theorem addLine_spec (made : addLine sum line = .ok next) :
    0 ≤ line.product.unitPriceCents * line.line.quantity ∧
      (sum.amountCents + line.product.unitPriceCents * line.line.quantity ≤ MAX_SAFE_INTEGER →
        next.amountCents = sum.amountCents +
          line.product.unitPriceCents * line.line.quantity) := by
  obtain ⟨price, priced, made⟩ := bind_eq_ok made
  obtain ⟨amount, multiplied, made⟩ := bind_eq_ok made
  obtain ⟨enough, multiplied⟩ := multiplyQuantity_ok multiplied
  obtain ⟨u, least⟩ := Int.eq_ofNat_of_zero_le price.nonneg
  obtain ⟨q, whole⟩ := Int.eq_ofNat_of_zero_le enough
  obtain ⟨already, before⟩ := Int.eq_ofNat_of_zero_le sum.nonneg
  rw [← (Money.of_eq priced).1, whole, least, ← Int.natCast_mul]
  rw [least, whole, Int.toNat_natCast, Int.toNat_natCast] at multiplied
  refine ⟨Int.natCast_nonneg _, fun fits => ?_⟩
  have small : ((u * q : Nat) : Int) ≤ MAX_SAFE_INTEGER := by omega
  have added := addNumber_ok made
  rw [moneyOfNumber_exact small multiplied, before, Int.toNat_natCast, Int.toNat_natCast] at added
  rw [before, ← Int.natCast_add] at fits ⊢
  exact moneyOfNumber_exact fits added

theorem foldlM_addLine (made : lines.foldlM addLine sum = .ok total) :
    0 ≤ linesTotal lines ∧ (sum.amountCents + linesTotal lines ≤ MAX_SAFE_INTEGER →
      total.amountCents = sum.amountCents + linesTotal lines) := by
  induction lines generalizing sum with
  | nil =>
      cases made
      simp [linesTotal]
  | cons line lines ih =>
      rw [List.foldlM_cons] at made
      obtain ⟨next, first, made⟩ := bind_eq_ok made
      obtain ⟨least, added⟩ := addLine_spec first
      obtain ⟨others, summed⟩ := ih made
      have whole : linesTotal (line :: lines) =
          line.product.unitPriceCents * line.line.quantity + linesTotal lines := rfl
      rw [whole]
      refine ⟨by omega, fun fits => ?_⟩
      have now := added (by omega)
      rw [summed (by omega), now, Int.add_assoc]

theorem multiplyQuantity_eq {unitPrice : Money} {quantity : Int} (least : 0 ≤ quantity)
    (small : unitPrice.amountCents * quantity ≤ MAX_SAFE_INTEGER) :
    multiplyQuantity unitPrice quantity = unitPrice.multiply quantity := by
  obtain ⟨u, price⟩ := Int.eq_ofNat_of_zero_le unitPrice.nonneg
  obtain ⟨q, rfl⟩ := Int.eq_ofNat_of_zero_le least
  have enough : ¬ (q : Int) < 0 := by omega
  rw [multiplyQuantity, Money.multiply, if_neg enough, if_neg enough, price, Int.toNat_natCast,
    Int.toNat_natCast, ← Int.natCast_mul]
  rw [price, ← Int.natCast_mul] at small
  rw [toNumber_exact small, moneyOfNumber]

theorem addNumber_eq {a b : Money} (small : a.amountCents + b.amountCents ≤ MAX_SAFE_INTEGER) :
    addNumber a b = a.add b := by
  obtain ⟨m, first⟩ := Int.eq_ofNat_of_zero_le a.nonneg
  obtain ⟨n, second⟩ := Int.eq_ofNat_of_zero_le b.nonneg
  rw [first, second, ← Int.natCast_add] at small
  rw [addNumber, Money.add, first, second, Int.toNat_natCast, Int.toNat_natCast,
    ← Int.natCast_add, toNumber_exact small, moneyOfNumber]

/-- `addLine` in integers. -/
def addLineExact (sum : Money) (line : PricedLine) : Except Thrown Money := do
  let price ← Money.of line.product.unitPriceCents
  let amount ← price.multiply line.line.quantity
  sum.add amount

theorem addLine_eq (counted : 0 ≤ line.line.quantity)
    (small : sum.amountCents + line.product.unitPriceCents * line.line.quantity ≤
      MAX_SAFE_INTEGER) : addLine sum line = addLineExact sum line := by
  have least := sum.nonneg
  rw [addLine, addLineExact]
  cases priced : Money.of line.product.unitPriceCents with
  | error e => rw [error_bind, error_bind]
  | ok price =>
      have worth := (Money.of_eq priced).1
      have fits : price.amountCents * line.line.quantity ≤ MAX_SAFE_INTEGER := by
        rw [worth]
        omega
      rw [ok_bind, ok_bind, multiplyQuantity_eq counted fits]
      cases multiplied : price.multiply line.line.quantity with
      | error e => rw [error_bind, error_bind]
      | ok amount =>
          rw [ok_bind, ok_bind]
          rw [Money.multiply, if_neg (by omega)] at multiplied
          apply addNumber_eq
          rw [(Money.of_eq multiplied).1, worth]
          exact small

theorem linesTotal_nonneg (least : ∀ line ∈ lines,
    0 ≤ line.product.unitPriceCents * line.line.quantity) : 0 ≤ linesTotal lines := by
  induction lines with
  | nil => exact Int.le_refl 0
  | cons line lines ih =>
      have first := least line List.mem_cons_self
      have rest := ih fun other inside => least other (List.mem_cons_of_mem line inside)
      have whole : linesTotal (line :: lines) =
          line.product.unitPriceCents * line.line.quantity + linesTotal lines := rfl
      omega

theorem foldlM_addLine_eq (priced : ∀ line ∈ lines, 0 ≤ line.product.unitPriceCents)
    (counted : ∀ line ∈ lines, 0 ≤ line.line.quantity)
    (small : sum.amountCents + linesTotal lines ≤ MAX_SAFE_INTEGER) :
    lines.foldlM addLine sum = lines.foldlM addLineExact sum := by
  induction lines generalizing sum with
  | nil => rw [List.foldlM_nil, List.foldlM_nil]
  | cons line lines ih =>
      have whole : linesTotal (line :: lines) =
          line.product.unitPriceCents * line.line.quantity + linesTotal lines := rfl
      have others : 0 ≤ linesTotal lines := by
        apply linesTotal_nonneg
        intro other inside
        have later := List.mem_cons_of_mem line inside
        exact Int.mul_nonneg (priced other later) (counted other later)
      rw [whole] at small
      have fits : sum.amountCents + line.product.unitPriceCents * line.line.quantity ≤
          MAX_SAFE_INTEGER := by omega
      rw [List.foldlM_cons, List.foldlM_cons, ← addLine_eq (counted line List.mem_cons_self) fits]
      cases added : addLine sum line with
      | error e => rw [error_bind, error_bind]
      | ok next =>
          have now := (addLine_spec added).2 fits
          exact ih (fun other inside => priced other (List.mem_cons_of_mem line inside))
            (fun other inside => counted other (List.mem_cons_of_mem line inside)) (by omega)

/-- While the sum is small, numbers are as good as integers. -/
theorem orderTotalNumber_eq (priced : ∀ line ∈ lines, 0 ≤ line.product.unitPriceCents)
    (counted : ∀ line ∈ lines, 0 ≤ line.line.quantity)
    (small : linesTotal lines ≤ MAX_SAFE_INTEGER) : orderTotalNumber lines = orderTotal lines := by
  have zero : Money.zero.amountCents = 0 := rfl
  rw [orderTotalNumber, foldlM_addLine_eq priced counted (by rwa [zero, Int.zero_add])]
  rfl

/-- A small total is the exact sum. -/
theorem orderTotalNumber_exact (made : orderTotalNumber lines = .ok total)
    (small : linesTotal lines ≤ MAX_SAFE_INTEGER) : total.amountCents = linesTotal lines := by
  have zero : Money.zero.amountCents = 0 := rfl
  have summed := (foldlM_addLine made).2
  rw [zero, Int.zero_add] at summed
  exact summed small

end Numbers

section Reservation
open Locking Program
variable {d after : Db} {draft : Draft} {w : Uuid} {order : Order}

theorem draftItems_amounts {o : Uuid} {lines : List PricedLine} {items : List OrderItem}
    (made : lines.mapM (draftItem o) = .ok items) :
    (items.map fun item => item.unitPrice.amountCents * item.quantity) =
      lines.map fun line => line.product.unitPriceCents * line.line.quantity := by
  induction lines generalizing items with
  | nil =>
      cases made
      rfl
  | cons line lines ih =>
      rw [List.mapM_cons] at made
      obtain ⟨item, first, made⟩ := bind_eq_ok made
      obtain ⟨others, rest, made⟩ := bind_eq_ok made
      cases made
      obtain ⟨price, priced, new⟩ := bind_eq_ok first
      rw [OrderItem.new] at new
      split at new
      · cases new
        rw [List.map_cons, List.map_cons, ih rest, (Money.of_eq priced).1]
      · cases new

/-- The saga inserts the rows of its draft's lines. -/
theorem onBeforeReserve_items (fresh : d.orders.lookup draft.orderId = none)
    (ran : (onBeforeReserve draft w).Completes store d after order) :
    ∃ items, draft.lines.mapM (draftItem draft.orderId) = .ok items ∧
      after.orderItems = d.orderItems ++ items.map orderItemToPersistence := by
  obtain ⟨createdAt, ran₁⟩ := completes_newDate ran
  obtain ⟨updatedAt, ran₂⟩ := completes_newDate ran₁
  obtain ⟨mid, _, saved, ran₃⟩ := completes_bind.mp ran₂
  obtain ⟨c, u, rfl⟩ := saveOrder_inserts fresh saved
  obtain ⟨items, made, ran₄⟩ := completes_liftExcept ran₃
  obtain ⟨_, _, stored, rfl, rfl⟩ := completes_bind.mp ran₄
  obtain ⟨i, ws, -, inserted, rfl⟩ := completes_query.mp stored
  refine ⟨items, made, ?_⟩
  simp only [Sql.exec] at inserted
  split at inserted <;> try contradiction
  split at inserted <;> try contradiction
  cases inserted
  rfl

/-- Whatever the products cost by then, the rows of an order come to what its lines did. -/
theorem attemptCandidate_items (fresh : d.orders.lookup draft.orderId = none)
    (ran : (attemptCandidate draft w).Completes store d after order) :
    ∃ items, after.orderItems = d.orderItems ++ items ∧
      (∀ item ∈ items, item.orderId = draft.orderId) ∧
      (items.map fun item => item.unitPriceCents * item.quantity).sum = linesTotal draft.lines := by
  obtain ⟨now, ran₁⟩ := completes_transaction ran
  obtain ⟨mid, _, inserted, ran₂⟩ := completes_bind.mp ran₁
  obtain ⟨items, made, grown⟩ := onBeforeReserve_items fresh inserted
  obtain ⟨_, _, row, rows, rfl, rfl, -, -, -, columns, -, distinct⟩ :=
    onBeforeReserve_spec fresh inserted
  obtain ⟨_, _, reserving, rfl, rfl⟩ := completes_bind.mp ran₂
  have products : rows.map (·.productId) = (draft.lines.map (·.line)).map (·.productId) := by
    simpa [Function.comp_def] using congrArg (List.map Prod.fst) columns
  obtain ⟨mid, _, posted, -, -, stamped⟩ := reserve_spec (products ▸ distinct) reserving
  obtain ⟨j, ws, -, updated, rfl⟩ := completes_query.mp stamped
  have stored : mid.orders.lookup draft.orderId = some row := by
    rw [posted.orders]
    exact AList.lookup_insert _
  simp only [Sql.exec, stored] at updated
  cases updated
  refine ⟨items.map orderItemToPersistence, posted.orderItems.trans grown, ?_, ?_⟩
  · intro item member
    obtain ⟨made_, inside, rfl⟩ := List.mem_map.mp member
    exact ((draftItems_eq made).2 made_ inside).1
  · rw [List.map_map, linesTotal, ← draftItems_amounts made]
    rfl

end Reservation

section Settlement
open Locking Program
variable {d after : Db} {call : SettleCall} {context : SettleContext} {result : SettlementResult}
  {order : Order}

theorem transition_total (ran : (call.transition context).Completes store d after order) :
    order.id = context.order.id ∧ order.total = context.order.total := by
  cases call with
  | confirmCaptured o payment =>
      obtain ⟨_, _, _, ran₁⟩ := completes_bind.mp ran
      obtain ⟨paid, marked, ran₂⟩ := completes_liftExcept ran₁
      obtain ⟨now, ran₃⟩ := completes_newDate ran₂
      obtain ⟨confirmed, new, ran₄⟩ := completes_liftExcept ran₃
      obtain ⟨_, _, _, ran₅⟩ := completes_bind.mp ran₄
      obtain ⟨occurredAt, ran₆⟩ := completes_newDate ran₅
      obtain ⟨_, _, _, rfl, rfl⟩ := completes_bind.mp ran₆
      rw [Order.confirm_eq new, Order.markPaid_eq marked]
      exact ⟨rfl, rfl⟩
  | failDeclined o payment =>
      obtain ⟨_, _, _, ran₁⟩ := completes_bind.mp ran
      obtain ⟨failed, new, ran₂⟩ := completes_liftExcept ran₁
      obtain ⟨_, _, _, rfl, rfl⟩ := completes_bind.mp ran₂
      rw [Order.markPaymentFailed_eq new]
      exact ⟨rfl, rfl⟩
  | cancelUnpaid o reason payment =>
      obtain ⟨_, _, _, ran₁⟩ := completes_bind.mp ran
      obtain ⟨now, ran₂⟩ := completes_newDate ran₁
      obtain ⟨cancelled, new, ran₃⟩ := completes_liftExcept ran₂
      obtain ⟨_, _, _, rfl, rfl⟩ := completes_bind.mp ran₃
      rw [Order.cancel_eq new]
      exact ⟨rfl, rfl⟩

/-- A settlement hands on the total of the row that it reloaded. -/
theorem settle_total (ran : call.run.Completes store d after result) :
    ∃ row, d.orders.lookup result.order.id = some row ∧
      result.order.total.amountCents = row.totalCents := by
  obtain ⟨events, ran⟩ := completes_iff_performs.mp ran
  obtain ⟨now, _, _, _, rfl, -, started, ran₁⟩ := performs_query.mp ran
  cases started
  obtain ⟨i, _, _, _, rfl, -, locked, ran₂⟩ := performs_query.mp ran₁
  cases locked
  obtain ⟨j, entity, _, _, rfl, -, found, ran₃⟩ := performs_query.mp ran₂
  obtain ⟨order, read, ran₄⟩ := performs_liftExcept.mp ran₃
  cases stored : d.orders.lookup call.orderId with
  | none => simp only [Sql.exec, Store.applyAll_nil, stored, reduceCtorEq] at found
  | some row =>
      simp only [Sql.exec, Store.applyAll_nil, stored] at found
      cases found
      have id : order.id = call.orderId := orderToDomain_id read
      have total : order.total.amountCents = row.totalCents :=
        congrArg (·.totalCents) (orderToDomain_eq read ⟨0⟩ ⟨0⟩)
      split at ran₄
      · obtain ⟨rfl, rfl, rfl⟩ := ran₄
        exact ⟨row, id ▸ stored, total⟩
      · obtain ⟨paid, _, first, _, rfl, paying, ran₅⟩ := performs_bind.mp ran₄
        obtain ⟨k, items, _, _, rfl, -, listed, ran₆⟩ := performs_query.mp ran₅
        obtain ⟨_, settled, last, _, rfl, moved, rfl, rfl, rfl⟩ := performs_bind.mp ran₆
        obtain ⟨same, kept⟩ := transition_total (completes_iff_performs.mpr ⟨_, moved⟩)
        refine ⟨row, ?_, ?_⟩
        · rw [same, id]
          exact stored
        · rw [kept]
          exact total

end Settlement
end Canals
