import Canals.Allocation.Postings
import Canals.Orders.Settlement

/-! What a settlement transaction does when it completes: nothing at all, or the
whole change of order, payment, ledger and outbox at once. -/
namespace Canals
open Locking Program

/-- The columns a settlement is meant to change. -/
def SettlementFrame (row row' : OrderRow) : Prop :=
  row' = { row with
    status := row'.status
    confirmedAt := row'.confirmedAt
    cancelledAt := row'.cancelledAt
    cancellationReason := row'.cancellationReason
    updatedAt := row'.updatedAt }

/-- The clock readings a run took for `createdAt`. -/
def createdAtReadings (events : List (Sql × Input)) : List Date :=
  events.filterMap fun
    | (.newDate .createdAt, i) => some i.clock.toDate
    | _ => none

namespace SettleCall

def closing : SettleCall → InventoryRow → Int → Posting
  | confirmCaptured _ _ => commitPosting
  | failDeclined _ _ | cancelUnpaid _ _ _ => releasePosting

def jobs (call : SettleCall) (occurredAt : Date) : List Job :=
  match call with
  | confirmCaptured orderId _ =>
    ["shipment.create", "customer.notify", "analytics.record"].map fun queue =>
      { queue, orderId, occurredAt }
  | failDeclined _ _ | cancelUnpaid _ _ _ => []

theorem closes (call : SettleCall) : Closing call.closing := by
  cases call with
  | confirmCaptured _ _ => exact closing_commit
  | failDeclined _ _ | cancelUnpaid _ _ _ => exact closing_release

end SettleCall

/-- The payments table after the guarded update. -/
def Db.settledPayments (d : Db) (payment : Option PaymentResolution) (now : Timestamptz) :
    AList fun _ : Uuid => PaymentRow :=
  match payment with
  | none => d.payments
  | some payment =>
    match d.payments.lookup payment.paymentId with
    | some row =>
      if row.unsettled then
        d.payments.insert payment.paymentId (row.settle payment.chargeResult now)
      else d.payments
    | none => d.payments

theorem settledPayments_cases (d : Db) (payment : Option PaymentResolution) (now : Timestamptz) :
    d.settledPayments payment now = d.payments ∨ ∃ p row, p ∈ payment ∧
      d.payments.lookup p.paymentId = some row ∧ row.unsettled ∧
      d.settledPayments payment now =
        d.payments.insert p.paymentId (row.settle p.chargeResult now) := by
  cases payment with
  | none => exact .inl rfl
  | some p =>
      rw [Db.settledPayments]
      split
      · rename_i row found
        split
        · rename_i open_
          exact .inr ⟨p, row, rfl, found, open_, rfl⟩
        · exact .inl rfl
      · exact .inl rfl

/-- The postings a settlement of `row` makes: one for each product of the order
that it still holds at its warehouse. -/
def ClosesReservation (call : SettleCall) (row : OrderRow) (d : Db) (x : Posting) : Prop :=
  ∃ item ∈ d.itemsOf call.orderId, ∃ stock q,
    d.openReservation call.orderId (row.warehouseId.getD "") item.productId = some (stock, q) ∧
    x = call.closing stock q

/-- `after` is `d` with the pending order of `call` settled; `createdAt` is the
clock reading its entity was saved with. -/
structure Settles (call : SettleCall) (createdAt : Date) (row : OrderRow) (d after : Db) :
    Prop where
  order : ∃ row', after.orders = d.orders.insert call.orderId row' ∧
    row'.status = call.target ∧ row'.createdAt = saveTimestamp row.createdAt createdAt ∧
    SettlementFrame { row with createdAt := row'.createdAt } row'
  orderItems : after.orderItems = d.orderItems
  payments : ∃ now, after.payments = d.settledPayments call.payment now
  jobs : ∃ occurredAt, after.jobs = d.jobs ++ call.jobs occurredAt
  postings : ∃ postings, Posted call.orderId (row.warehouseId.getD "") postings d
      { d with inventory := after.inventory, movements := after.movements } ∧
    distinctProducts postings ∧ ∀ x, x ∈ postings ↔ ClosesReservation call row d x

variable {d after : Db} {o : Uuid} {row : OrderRow} {order : Order}
  {events : List (Sql × Input)}

section Steps
variable {α β : Type} {b : β}

theorem performs_query {s : Sql} {k : s.Result → Tx β} :
    (query s >>= k).Performs store events d after b ↔ ∃ i r ws rest, events = (s, i) :: rest ∧
      s.admits i d ∧ s.exec i d = .ok (r, ws) ∧
      (k r).Performs store rest (store.applyAll ws d) after b := Iff.rfl

theorem performs_newDate {field : DateField} {k : Date → Tx β} :
    (query (.newDate field) >>= k).Performs store events d after b ↔ ∃ i rest,
      events = (.newDate field, i) :: rest ∧ (k i.clock.toDate).Performs store rest d after b := by
  constructor
  · rintro ⟨i, r, ws, rest, rfl, -, answered, ran⟩
    cases answered
    exact ⟨i, rest, rfl, ran⟩
  · rintro ⟨i, rest, rfl, ran⟩
    exact ⟨i, _, [], rest, rfl, rfl, rfl, ran⟩

theorem performs_liftExcept {result : Except Thrown α} {k : α → Tx β} :
    (liftExcept result >>= k).Performs store events d after b ↔
      ∃ a, result = .ok a ∧ (k a).Performs store events d after b := by
  cases result with
  | error e => simp [liftExcept, Performs]
  | ok a =>
    simp only [Except.ok.injEq, exists_eq_left']
    rfl

end Steps

/-- The domain order is the row that was read, up to what the order's own
methods assign. -/
def Carries (order : Order) (row : OrderRow) (o : Uuid) : Prop :=
  ∀ createdAt updatedAt, orderToPersistence order createdAt updatedAt = { row.hydrate o with
    status := order.status
    confirmedAt := order.confirmedAt
    cancelledAt := order.cancelledAt
    cancellationReason := order.cancellationReason
    createdAt
    updatedAt }

theorem carries_read (read : orderToDomain (row.hydrate o) = .ok order) :
    Carries order row o := by
  intro createdAt updatedAt
  change _ = { row.hydrate o with
    status := (orderToPersistence order createdAt updatedAt).status
    confirmedAt := (orderToPersistence order createdAt updatedAt).confirmedAt
    cancelledAt := (orderToPersistence order createdAt updatedAt).cancelledAt
    cancellationReason := (orderToPersistence order createdAt updatedAt).cancellationReason
    createdAt
    updatedAt }
  rw [orderToDomain_eq read]

theorem Carries.update (carries : Carries order row o) (status : OrderStatus)
    (confirmedAt cancelledAt : Option Date) (cancellationReason : Option String) :
    Carries { order with status, confirmedAt, cancelledAt, cancellationReason } row o := by
  intro createdAt updatedAt
  change { orderToPersistence order createdAt updatedAt with
    status, confirmedAt, cancelledAt, cancellationReason } = _
  rw [carries createdAt updatedAt]

/-- Saving an order rewrites its row within the frame, `created_at` apart. -/
theorem saveOrder_spec (carries : Carries order row o) (stored : d.orders.lookup o = some row)
    (ran : (saveOrder order).Performs store events d after ()) :
    ∃ createdAt row', createdAtReadings events = [createdAt] ∧
      after = { d with orders := d.orders.insert o row' } ∧ row'.status = order.status ∧
      row'.createdAt = saveTimestamp row.createdAt createdAt ∧
      SettlementFrame { row with createdAt := row'.createdAt } row' := by
  obtain ⟨i, _, rfl, ran₁⟩ := performs_newDate.mp ran
  obtain ⟨j, _, rfl, ran₂⟩ := performs_newDate.mp ran₁
  obtain ⟨k, _, ws, _, rfl, -, saved, rfl, rfl, -⟩ := ran₂
  have id : (orderToPersistence order i.clock.toDate j.clock.toDate).id = o :=
    congrArg (·.id) (carries _ _)
  have found : d.orders.lookup
      (orderToPersistence order i.clock.toDate j.clock.toDate).id = some row := by
    rw [id]
    exact stored
  simp only [store, Sql.exec, found] at saved
  cases saved
  refine ⟨i.clock.toDate, row.save (orderToPersistence order i.clock.toDate j.clock.toDate), rfl,
    ?_, ?_, ?_, ?_⟩
  · rw [id]
    rfl
  all_goals rw [carries, OrderRow.save_hydrate]
  rfl

@[simp] theorem createdAtReadings_append (first rest : List (Sql × Input)) :
    createdAtReadings (first ++ rest) = createdAtReadings first ++ createdAtReadings rest :=
  List.filterMap_append ..

theorem createdAtReadings_other {field : DateField} (other : field ≠ .createdAt) (i : Input)
    (rest : List (Sql × Input)) :
    createdAtReadings ((.newDate field, i) :: rest) = createdAtReadings rest := by
  cases field <;> first | contradiction | rfl

/-- The part of `Settles` a transition is responsible for. -/
structure Transitioned (call : SettleCall) (createdAt : Date) (row : OrderRow) (w : Uuid)
    (productIds : List Uuid) (d after : Db) : Prop where
  order : ∃ row', after.orders = d.orders.insert call.orderId row' ∧
    row'.status = call.target ∧ row'.createdAt = saveTimestamp row.createdAt createdAt ∧
    SettlementFrame { row with createdAt := row'.createdAt } row'
  orderItems : after.orderItems = d.orderItems
  payments : after.payments = d.payments
  jobs : ∃ occurredAt, after.jobs = d.jobs ++ call.jobs occurredAt
  postings : ∃ postings, Posted call.orderId w postings d
      { d with inventory := after.inventory, movements := after.movements } ∧
    distinctProducts postings ∧ ∀ x, x ∈ postings ↔ ∃ p ∈ productIds, ∃ stock q,
      d.openReservation call.orderId w p = some (stock, q) ∧ x = call.closing stock q

variable {call : SettleCall} {context : SettleContext} {mid : Db}

/-- Closing the reservation and then saving the order, with the jobs last. -/
theorem transitioned_of_parts (call : SettleCall) {order' : Order}
    (id : context.order.id = call.orderId)
    (closed : (endReservations call.closing context.command).Performs store events d mid ())
    (carries : Carries order' row call.orderId) (stored : d.orders.lookup call.orderId = some row)
    (status : order'.status = call.target) {events' : List (Sql × Input)} {saved : Db}
    (ran : (saveOrder order').Performs store events' mid saved ()) :
    ∃ createdAt, createdAtReadings events' = [createdAt] ∧ ∀ occurredAt,
      Transitioned call createdAt row context.warehouseId context.productIds d
        { saved with jobs := saved.jobs ++ call.jobs occurredAt } := by
  obtain ⟨postings, posted, distinct, only⟩ :=
    endReservations_spec call.closes (completes_iff_performs.mpr ⟨_, closed⟩)
  simp only [SettleContext.command, id] at posted only
  obtain ⟨createdAt, row', reading, rfl, status', created, kept⟩ :=
    saveOrder_spec carries (posted.orders ▸ stored) ran
  refine ⟨createdAt, reading, fun occurredAt => ⟨⟨row', ?_, status'.trans status, created, kept⟩,
    posted.orderItems, posted.payments, ⟨occurredAt, ?_⟩, postings, ?_, distinct, only⟩⟩
  · simp only [posted.orders]
  · simp only [posted.jobs]
  · exact posted.frame ▸ posted

theorem publish_spec {o : Uuid} {occurredAt : Date}
    (ran : (publish ⟨"order.confirmed", o, occurredAt⟩).Performs store events d after ()) :
    createdAtReadings events = [] ∧
      after = { d with jobs := d.jobs ++ (SettleCall.confirmCaptured o none).jobs occurredAt } := by
  obtain ⟨_, _, _, _, rfl, -, sent, _, _, _, _, rfl, -, sent', _, _, _, _, rfl, -, sent'',
    rfl, rfl, -⟩ := ran
  cases sent
  cases sent'
  cases sent''
  refine ⟨rfl, ?_⟩
  simp [store, Db.apply, SettleCall.jobs]

theorem transition_spec {order' : Order}
    (carries : Carries context.order row call.orderId) (id : context.order.id = call.orderId)
    (stored : d.orders.lookup call.orderId = some row)
    (ran : (call.transition context).Performs store events d after order') :
    order'.status = call.target ∧ ∃ earlier createdAt,
      createdAtReadings events = earlier ++ [createdAt] ∧
      Transitioned call createdAt row context.warehouseId context.productIds d after := by
  cases call with
  | confirmCaptured o payment =>
    obtain ⟨mid, _, first, _, rfl, closed, ran₁⟩ := performs_bind.mp ran
    obtain ⟨paid, marked, ran₂⟩ := performs_liftExcept.mp ran₁
    obtain ⟨i, _, rfl, ran₃⟩ := performs_newDate.mp ran₂
    obtain ⟨order, confirmed, ran₄⟩ := performs_liftExcept.mp ran₃
    obtain ⟨saved, _, second, _, rfl, saving, ran₅⟩ := performs_bind.mp ran₄
    obtain ⟨j, _, rfl, ran₆⟩ := performs_newDate.mp ran₅
    obtain ⟨_, _, third, _, rfl, published, rfl, rfl, rfl⟩ := performs_bind.mp ran₆
    have new := Order.confirm_eq confirmed
    rw [Order.markPaid_eq marked] at new
    have status : order'.status = .CONFIRMED := by rw [new]
    have carries' : Carries order' row o := new ▸ carries.update _ _ _ _
    have orderId : order'.id = o := by
      rw [new]
      exact id
    rw [orderId] at published
    obtain ⟨silent, rfl⟩ := publish_spec published
    obtain ⟨createdAt, reading, transitioned⟩ := transitioned_of_parts
      (.confirmCaptured o payment) id closed carries' stored status saving
    refine ⟨status, createdAtReadings first, createdAt, ?_, transitioned j.clock.toDate⟩
    simp [createdAtReadings_other, reading, silent]
  | failDeclined o payment =>
    obtain ⟨mid, _, first, _, rfl, closed, ran₁⟩ := performs_bind.mp ran
    obtain ⟨order, marked, ran₂⟩ := performs_liftExcept.mp ran₁
    obtain ⟨saved, _, second, _, rfl, saving, rfl, rfl, rfl⟩ := performs_bind.mp ran₂
    have new := Order.markPaymentFailed_eq marked
    have status : order'.status = .PAYMENT_FAILED := by rw [new]
    obtain ⟨createdAt, reading, transitioned⟩ := transitioned_of_parts
      (.failDeclined o payment) id closed (new ▸ carries.update _ _ _ _) stored status
      saving
    refine ⟨status, createdAtReadings first, createdAt, by simp [reading], ?_⟩
    simpa [SettleCall.jobs] using transitioned createdAt
  | cancelUnpaid o reason payment =>
    obtain ⟨mid, _, first, _, rfl, closed, ran₁⟩ := performs_bind.mp ran
    obtain ⟨i, _, rfl, ran₂⟩ := performs_newDate.mp ran₁
    obtain ⟨order, marked, ran₃⟩ := performs_liftExcept.mp ran₂
    obtain ⟨saved, _, second, _, rfl, saving, rfl, rfl, rfl⟩ := performs_bind.mp ran₃
    have new := Order.cancel_eq marked
    have status : order'.status = .CANCELLED := by rw [new]
    obtain ⟨createdAt, reading, transitioned⟩ := transitioned_of_parts
      (.cancelUnpaid o reason payment) id closed (new ▸ carries.update _ _ _ _) stored
      status saving
    refine ⟨status, createdAtReadings first, createdAt, ?_, ?_⟩
    · simp [createdAtReadings_other, reading]
    · simpa [SettleCall.jobs] using transitioned createdAt

theorem settlePayments_spec {payment : Option PaymentResolution} {now : Timestamptz}
    (ran : (payment.toList.forM fun payment => query (.settlePayment payment now)).Performs store
      events d after ()) : after = { d with payments := d.settledPayments payment now } := by
  cases payment with
  | none =>
    obtain ⟨-, rfl, -⟩ := ran
    rfl
  | some payment =>
    obtain ⟨i, r, ws, _, rfl, -, updated, -, rfl, -⟩ := ran
    simp only [store, Sql.exec] at updated
    rw [Db.settledPayments]
    cases found : d.payments.lookup payment.paymentId with
    | none =>
      rw [found] at updated
      cases updated
      rfl
    | some row =>
      rw [found] at updated
      dsimp only at updated ⊢
      split at updated
      · rename_i open_
        cases updated
        rw [if_pos open_]
        rfl
      · rename_i closed
        cases updated
        rw [if_neg closed]
        rfl

/-- The two ways a call can complete. -/
theorem settle_spec {result : SettlementResult}
    (ran : call.run.Performs store events d after result) :
    ∃ row, d.orders.lookup call.orderId = some row ∧
      ((result.outcome = .ALREADY_SETTLED ∧ row.status ≠ .PENDING_PAYMENT ∧ after = d ∧
          result.order.status = row.status) ∨
        (result.outcome = .SETTLED ∧ row.status = .PENDING_PAYMENT ∧
          result.order.status = call.target ∧ ∃ earlier createdAt,
            createdAtReadings events = earlier ++ [createdAt] ∧
            Settles call createdAt row d after)) := by
  obtain ⟨now, _, _, _, rfl, -, started, ran₁⟩ := performs_query.mp ran
  cases started
  obtain ⟨i, _, _, _, rfl, -, locked, ran₂⟩ := performs_query.mp ran₁
  cases locked
  obtain ⟨j, entity, _, _, rfl, -, found, ran₃⟩ := performs_query.mp ran₂
  obtain ⟨order, read, ran₄⟩ := performs_liftExcept.mp ran₃
  cases stored : d.orders.lookup call.orderId with
  | none => simp only [Sql.exec, Store.applyAll_nil, stored, reduceCtorEq] at found
  | some row =>
    simp only [Sql.exec, Store.applyAll_nil, stored] at found
    cases found
    simp only [Store.applyAll_nil] at ran₄
    refine ⟨row, rfl, ?_⟩
    have status : order.status = row.status := orderToDomain_status read
    split at ran₄
    · rename_i settled
      obtain ⟨rfl, rfl, rfl⟩ := ran₄
      exact .inl ⟨rfl, status ▸ settled, rfl, status⟩
    · rename_i pending
      obtain ⟨paid, _, first, _, rfl, paying, ran₅⟩ := performs_bind.mp ran₄
      obtain rfl := settlePayments_spec paying
      obtain ⟨k, items, _, _, rfl, -, listed, ran₆⟩ := performs_query.mp ran₅
      cases listed
      obtain ⟨_, settled, last, _, rfl, moved, rfl, rfl, rfl⟩ := performs_bind.mp ran₆
      rw [Store.applyAll_nil] at moved
      obtain ⟨target, earlier, createdAt, reading, done⟩ :=
        transition_spec (carries_read read) (orderToDomain_id read) (by exact stored) moved
      have warehouse : order.warehouseId = row.warehouseId := orderToDomain_warehouseId read
      refine .inr ⟨rfl, by simpa [status] using pending, target, createdAtReadings
        ((.startTransaction, now) :: (.lockOrder call.orderId, i) ::
          (.findOrder call.orderId, j) :: first ++ [(.findItems call.orderId, k)]) ++ earlier,
        createdAt, ?_, ⟨done.order, done.orderItems, ⟨_, done.payments⟩, done.jobs, ?_⟩⟩
      · rw [List.append_assoc, ← reading, ← createdAtReadings_append]
        simp
      · obtain ⟨postings, posted, distinct, only⟩ := done.postings
        refine ⟨postings, ?_, distinct, fun x => (only x).trans ?_⟩
        · rw [← warehouse]
          exact ⟨rfl, posted.balance, posted.balance_frame, posted.nonneg, posted.movements⟩
        · simp only [ClosesReservation, ← warehouse, List.mem_map, exists_exists_and_eq_and]
          exact Iff.rfl

/-- A settlement that completed: it wrote everything or nothing. -/
inductive Settled (call : SettleCall) (d after : Db) (result : SettlementResult) : Prop where
  | already (row : OrderRow) : d.orders.lookup call.orderId = some row →
      row.status ≠ .PENDING_PAYMENT → after = d → result.outcome = .ALREADY_SETTLED →
      result.order.status = row.status → Settled call d after result
  | now (row : OrderRow) (createdAt : Date) : d.orders.lookup call.orderId = some row →
      row.status = .PENDING_PAYMENT → Settles call createdAt row d after →
      result.outcome = .SETTLED → result.order.status = call.target → Settled call d after result

theorem settled_of_completes {result : SettlementResult}
    (ran : call.run.Completes store d after result) : Settled call d after result := by
  obtain ⟨events, ran⟩ := completes_iff_performs.mp ran
  obtain ⟨row, stored, ⟨outcome, settled, same, status⟩ |
    ⟨outcome, pending, status, _, createdAt, -, done⟩⟩ := settle_spec ran
  · exact .already row stored settled same outcome status
  · exact .now row createdAt stored pending done outcome status

section Lamp

/-- An order of two lamps, created at second 60 and reserved. -/
def lampRow : OrderRow where
  orderNumber := "CNL-2026-000001"
  customerId := "customer"
  warehouseId := some "denver"
  status := .PENDING_PAYMENT
  currency := "USD"
  totalCents := 2500
  shippingAddress := { recipient := "Ada", line1 := "1 Main St", city := "Denver", country := "US" }
  shippingLocation := ⟨-105, 40⟩
  reservationExpiresAt := some ⟨960000000⟩
  confirmedAt := none
  cancelledAt := none
  cancellationReason := none
  createdAt := ⟨60000000⟩
  updatedAt := ⟨60000000⟩

def lampDb : Db where
  orders := AList.singleton "order" lampRow
  orderItems := [⟨"order", "lamp", 2, "SKU-1", "Lamp", 1250⟩]
  inventory := AList.singleton ("denver", "lamp") ⟨3, 2, 1⟩
  movements := [⟨1, "denver", "lamp", "order", .RESERVE, -2, 3, 2⟩]

def lampInputs : List Input := (List.range 17).map fun n : Nat => ⟨⟨61000000 + n⟩, n + 2⟩

/-- Confirming the order one second later, statement by statement. -/
def lampConfirmed : List (Sql × Input) × Db × SettlementResult :=
  ((SettleCall.confirmCaptured "order" none).run.perform store lampInputs lampDb).get
    (by decide +kernel)

theorem lampConfirmed_perform :
    (SettleCall.confirmCaptured "order" none).run.perform store lampInputs lampDb =
      some lampConfirmed :=
  (Option.some_get _).symm

theorem lampConfirmed_performs : (SettleCall.confirmCaptured "order" none).run.Performs store
    lampConfirmed.1 lampDb lampConfirmed.2.1 lampConfirmed.2.2 :=
  performs_of_perform lampConfirmed_perform

def lampRow' : OrderRow :=
  { lampRow with
    status := .CONFIRMED
    confirmedAt := some ⟨61000000⟩
    createdAt := ⟨61000000⟩
    updatedAt := ⟨61000000⟩ }

end Lamp

end Canals
