import Canals.Allocation.Inventory

/-! `OrderSettlementService`: the one path on which an order is settled, shared
by the saga, the reaper and the reconciliation, and the outbox it writes to. -/
namespace Canals

inductive SettlementOutcome where
  | SETTLED
  | ALREADY_SETTLED
  deriving DecidableEq

structure SettlementResult where
  outcome : SettlementOutcome
  order : Order
  deriving DecidableEq

structure SettleContext where
  order : Order
  warehouseId : Uuid
  productIds : List Uuid

structure DomainEvent where
  type : String
  orderId : Uuid
  occurredAt : Date

def EVENT_ROUTING : String → Option (List String)
  | "order.confirmed" => some ["shipment.create", "customer.notify", "analytics.record"]
  | _ => none

/-- One job per target queue, through the caller's transaction. -/
def publish (event : DomainEvent) : Tx Unit :=
  match EVENT_ROUTING event.type with
  | some targets => targets.forM fun queue =>
      query (.sendJob { queue, orderId := event.orderId, occurredAt := event.occurredAt })
  | none => .throw (.unroutedEvent event.type)

/-- `manager.getRepository(OrderOrmEntity).save(orderToPersistence(order))` -/
def saveOrder (order : Order) : Tx Unit := do
  let createdAt ← query (.newDate .createdAt)
  let updatedAt ← query (.newDate .updatedAt)
  query (.saveOrder (orderToPersistence order createdAt updatedAt))

def settle (orderId : Uuid) (payment : Option PaymentResolution)
    (transition : SettleContext → Tx Order) : Tx SettlementResult :=
  transaction fun manager => do
    query (.lockOrder orderId)
    let orderRow ← query (.findOrder orderId)
    let order ← liftExcept (orderToDomain orderRow.val)
    if order.status ≠ .PENDING_PAYMENT then return { outcome := .ALREADY_SETTLED, order }
    else do
      payment.toList.forM fun payment => query (.settlePayment payment manager.now)
      let items ← query (.findItems orderId)
      let settled ← transition {
        order
        -- `NULL` equals no warehouse id, and no uuid is the empty text
        warehouseId := order.warehouseId.getD ""
        productIds := items.map (·.productId) }
      return { outcome := .SETTLED, order := settled }

def SettleContext.command (context : SettleContext) : ReleaseCommand where
  orderId := context.order.id
  warehouseId := context.warehouseId
  productIds := context.productIds

def confirmTransition (context : SettleContext) : Tx Order := do
  commit context.command
  let paid ← liftExcept context.order.markPaid
  let now ← query (.newDate .confirmedAt)
  let order ← liftExcept (paid.confirm now)
  saveOrder order
  let occurredAt ← query (.newDate .occurredAt)
  publish { type := "order.confirmed", orderId := order.id, occurredAt }
  return order

def failTransition (context : SettleContext) : Tx Order := do
  release context.command
  let order ← liftExcept context.order.markPaymentFailed
  saveOrder order
  return order

def cancelTransition (reason : String) (context : SettleContext) : Tx Order := do
  release context.command
  let now ← query (.newDate .cancelledAt)
  let order ← liftExcept (context.order.cancel now reason)
  saveOrder order
  return order

def confirmCaptured (orderId : Uuid) (payment : Option PaymentResolution) : Tx SettlementResult :=
  settle orderId payment confirmTransition

def failDeclined (orderId : Uuid) (payment : Option PaymentResolution) : Tx SettlementResult :=
  settle orderId payment failTransition

def cancelUnpaid (orderId : Uuid) (reason : String) (payment : Option PaymentResolution) :
    Tx SettlementResult :=
  settle orderId payment (cancelTransition reason)

/-- A call of the service, whoever makes it. -/
inductive SettleCall where
  | confirmCaptured (orderId : Uuid) (payment : Option PaymentResolution)
  | failDeclined (orderId : Uuid) (payment : Option PaymentResolution)
  | cancelUnpaid (orderId : Uuid) (reason : String) (payment : Option PaymentResolution)
  deriving DecidableEq

namespace SettleCall

def orderId : SettleCall → Uuid
  | confirmCaptured o _ | failDeclined o _ | cancelUnpaid o _ _ => o

def payment : SettleCall → Option PaymentResolution
  | confirmCaptured _ p | failDeclined _ p | cancelUnpaid _ _ p => p

/-- The status a successful call leaves the order in. -/
def target : SettleCall → OrderStatus
  | confirmCaptured _ _ => .CONFIRMED
  | failDeclined _ _ => .PAYMENT_FAILED
  | cancelUnpaid _ _ _ => .CANCELLED

def transition : SettleCall → SettleContext → Tx Order
  | confirmCaptured _ _ => confirmTransition
  | failDeclined _ _ => failTransition
  | cancelUnpaid _ reason _ => cancelTransition reason

def run (call : SettleCall) : Tx SettlementResult := settle call.orderId call.payment call.transition

theorem run_confirmCaptured (o : Uuid) (p : Option PaymentResolution) :
    (confirmCaptured o p).run = Canals.confirmCaptured o p := rfl

theorem run_failDeclined (o : Uuid) (p : Option PaymentResolution) :
    (failDeclined o p).run = Canals.failDeclined o p := rfl

theorem run_cancelUnpaid (o : Uuid) (reason : String) (p : Option PaymentResolution) :
    (cancelUnpaid o reason p).run = Canals.cancelUnpaid o reason p := rfl

end SettleCall

section Guards
open Locking Program
variable {held : List Lock} {context : SettleContext}

theorem guarded_liftExcept {α : Type} (result : Except Thrown α) :
    (liftExcept result).Guarded store held := by
  cases result <;> trivial

theorem guarded_saveOrder (order : Order) : (saveOrder order).Guarded store held := by
  refine guarded_bind (guarded_query (by simp [Sql.need])) fun _ _ _ => ?_
  refine guarded_bind (guarded_query (by simp [Sql.need])) fun _ _ _ => ?_
  exact guarded_query (by simp [Sql.need])

theorem guarded_publish (event : DomainEvent) : (publish event).Guarded store held := by
  rw [publish]
  split
  · exact guarded_forM fun _ _ _ _ => guarded_query (by simp [Sql.need])
  · trivial

theorem guarded_transition (call : SettleCall) (order : .order context.order.id ∈ held) :
    (call.transition context).Guarded store held := by
  cases call with
  | confirmCaptured _ _ =>
    refine guarded_bind (guarded_endReservations order fun _ _ => rfl) fun _ _ _ => ?_
    refine guarded_bind (guarded_liftExcept _) fun _ _ _ => ?_
    refine guarded_bind (guarded_query (by simp [Sql.need])) fun _ _ _ => ?_
    refine guarded_bind (guarded_liftExcept _) fun order _ _ => ?_
    refine guarded_bind (guarded_saveOrder order) fun _ _ _ => ?_
    refine guarded_bind (guarded_query (by simp [Sql.need])) fun _ _ _ => ?_
    exact guarded_bind (guarded_publish _) fun _ _ _ => trivial
  | failDeclined _ _ =>
    refine guarded_bind (guarded_endReservations order fun _ _ => rfl) fun _ _ _ => ?_
    refine guarded_bind (guarded_liftExcept _) fun order _ _ => ?_
    exact guarded_bind (guarded_saveOrder order) fun _ _ _ => trivial
  | cancelUnpaid _ _ _ =>
    refine guarded_bind (guarded_endReservations order fun _ _ => rfl) fun _ _ _ => ?_
    refine guarded_bind (guarded_query (by simp [Sql.need])) fun _ _ _ => ?_
    refine guarded_bind (guarded_liftExcept _) fun order _ _ => ?_
    exact guarded_bind (guarded_saveOrder order) fun _ _ _ => trivial

theorem SettleCall.guarded (call : SettleCall) : call.run.Guarded store [] := by
  refine ⟨by simp [store, Sql.need], fun now => ?_⟩
  refine ⟨by simp [store, Sql.need], fun _ => ⟨by simp [store, Sql.need, Sql.gain], ?_⟩⟩
  intro orderRow
  show (liftExcept (orderToDomain orderRow.val) >>= _ : Tx SettlementResult).Guarded store _
  cases read : orderToDomain orderRow.val with
  | error e => trivial
  | ok order =>
    have same : order.id = call.orderId := (orderToDomain_id read).trans orderRow.property
    show (ite _ _ _ : Tx SettlementResult).Guarded store _
    split
    · trivial
    · refine guarded_bind (guarded_forM fun p _ _ _ => guarded_query (by simp [Sql.need]))
        fun _ more included => ?_
      have order' : Lock.order call.orderId ∈ more := included (by simp [store, Sql.gain])
      refine guarded_bind (guarded_query (by simpa [Sql.need] using order')) ?_
      intro items more' included'
      refine guarded_bind (guarded_transition call ?_) fun _ _ _ => trivial
      rw [same]
      exact included' order'

end Guards

end Canals
