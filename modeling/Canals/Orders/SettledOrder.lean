import Canals.Orders.SettlementSpec

/-! The order a settlement resolves to: the stored row as it stands behind the
transaction, whoever settled it. -/
namespace Canals
open Locking Program

/-- The columns of the row that a response is made of. -/
structure Order.Shows (order : Order) (o : Uuid) (row : OrderRow) : Prop where
  id : order.id = o
  orderNumber : order.orderNumber = row.orderNumber
  customerId : order.customerId = row.customerId
  warehouseId : order.warehouseId = row.warehouseId
  status : order.status = row.status
  amount : order.total.amountCents = row.totalCents
  currency : order.total.currency = row.currency

section
variable {d after : Db} {o : Uuid} {row row' : OrderRow} {order : Order}
  {events : List (Sql × Input)} {call : SettleCall} {context : SettleContext}

theorem Carries.shows (carries : Carries order row o) (status : order.status = row'.status)
    (frame : SettlementFrame { row with createdAt := row'.createdAt } row') :
    order.Shows o row' := by
  have same := carries ⟨0⟩ ⟨0⟩
  rw [SettlementFrame] at frame
  rw [frame]
  exact ⟨congrArg (·.id) same, congrArg (·.orderNumber) same, congrArg (·.customerId) same,
    congrArg (·.warehouseId) same, status, congrArg (·.totalCents) same,
    congrArg (·.currency) same⟩

/-- The transitions assign what the order's own methods assign, and nothing else. -/
theorem transition_carries {order' : Order} (carries : Carries context.order row o)
    (ran : (call.transition context).Performs store events d after order') :
    Carries order' row o := by
  cases call with
  | confirmCaptured _ _ =>
    obtain ⟨_, _, _, _, rfl, -, ran₁⟩ := performs_bind.mp ran
    obtain ⟨paid, marked, ran₂⟩ := performs_liftExcept.mp ran₁
    obtain ⟨i, _, rfl, ran₃⟩ := performs_newDate.mp ran₂
    obtain ⟨order, confirmed, ran₄⟩ := performs_liftExcept.mp ran₃
    obtain ⟨_, _, _, _, rfl, -, ran₅⟩ := performs_bind.mp ran₄
    obtain ⟨j, _, rfl, ran₆⟩ := performs_newDate.mp ran₅
    obtain ⟨_, _, _, _, rfl, -, rfl, rfl, rfl⟩ := performs_bind.mp ran₆
    have new := Order.confirm_eq confirmed
    rw [Order.markPaid_eq marked] at new
    exact new ▸ carries.update _ _ _ _
  | failDeclined _ _ =>
    obtain ⟨_, _, _, _, rfl, -, ran₁⟩ := performs_bind.mp ran
    obtain ⟨order, marked, ran₂⟩ := performs_liftExcept.mp ran₁
    obtain ⟨_, _, _, _, rfl, -, rfl, rfl, rfl⟩ := performs_bind.mp ran₂
    exact Order.markPaymentFailed_eq marked ▸ carries.update _ _ _ _
  | cancelUnpaid _ _ _ =>
    obtain ⟨_, _, _, _, rfl, -, ran₁⟩ := performs_bind.mp ran
    obtain ⟨i, _, rfl, ran₂⟩ := performs_newDate.mp ran₁
    obtain ⟨order, marked, ran₃⟩ := performs_liftExcept.mp ran₂
    obtain ⟨_, _, _, _, rfl, -, rfl, rfl, rfl⟩ := performs_bind.mp ran₃
    exact Order.cancel_eq marked ▸ carries.update _ _ _ _

/-- What `settle` resolves to is carried by the row it found. -/
theorem settle_carries {result : SettlementResult}
    (ran : call.run.Performs store events d after result)
    (stored : d.orders.lookup call.orderId = some row) :
    Carries result.order row call.orderId := by
  obtain ⟨now, _, _, _, rfl, -, started, ran₁⟩ := performs_query.mp ran
  cases started
  obtain ⟨i, _, _, _, rfl, -, locked, ran₂⟩ := performs_query.mp ran₁
  cases locked
  obtain ⟨j, entity, _, _, rfl, -, found, ran₃⟩ := performs_query.mp ran₂
  obtain ⟨order, read, ran₄⟩ := performs_liftExcept.mp ran₃
  simp only [Sql.exec, Store.applyAll_nil, stored] at found
  cases found
  split at ran₄
  · obtain ⟨rfl, rfl, rfl⟩ := ran₄
    exact carries_read read
  · obtain ⟨_, _, _, _, rfl, -, ran₅⟩ := performs_bind.mp ran₄
    obtain ⟨k, items, _, _, rfl, -, listed, ran₆⟩ := performs_query.mp ran₅
    obtain ⟨_, settled, _, _, rfl, moved, rfl, rfl, rfl⟩ := performs_bind.mp ran₆
    exact transition_carries (carries_read read) moved

/-- Whether it settled the order or found it settled, the order returned is the row
behind the transaction, and that row is settled. -/
theorem settled_shows {result : SettlementResult}
    (ran : call.run.Completes store d after result) :
    ∃ row, after.orders.lookup call.orderId = some row ∧ row.status ≠ .PENDING_PAYMENT ∧
      result.order.Shows call.orderId row := by
  obtain ⟨events, ran⟩ := completes_iff_performs.mp ran
  obtain ⟨row, stored, ⟨-, closed, rfl, status⟩ | ⟨-, -, status, _, _, -, done⟩⟩ := settle_spec ran
  · exact ⟨row, stored, closed, (settle_carries ran stored).shows status rfl⟩
  · obtain ⟨row', inserted, target, -, frame⟩ := done.order
    refine ⟨row', by rw [inserted, AList.lookup_insert], ?_,
      (settle_carries ran stored).shows (status.trans target.symm) frame⟩
    rw [target]
    cases call <;> nofun

end

end Canals
