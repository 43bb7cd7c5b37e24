import Canals.Allocation.Absorption
import Canals.Orders.Ledger

/-! A settlement of a pending order, run alone on books that balance, commits. -/
namespace Canals
open Locking Program

variable {A₀ : Uuid × Uuid → Int} {d after : Db} {o p w : Uuid} {row : OrderRow}
  {status : OrderStatus} {call : SettleCall}

/-- What an order in a status holds is among the units in that status. -/
theorem Consistent.share_le (books : Consistent A₀ d) (placed : d.placed o status w) :
    d.shareOf o p ≤ d.quantityIn status w p := by
  rw [quantityIn_split d o status w p, if_pos placed]
  have others : 0 ≤ (((d.orderItems.filter fun item => !decide (item.orderId = o)).filter
      fun item => item.productId = p ∧ d.placed item.orderId status w).map (·.quantity)).sum := by
    apply sum_nonneg_of_items
    intro item member
    exact quantity_pos books (List.mem_of_mem_filter (List.mem_of_mem_filter member))
  omega

/-- The reservation of a pending order can be released and committed: the balances have room. -/
theorem Consistent.returnable (books : Consistent A₀ d) (room : ∀ key, A₀ key ≤ 2147483647)
    (stored : d.orders.lookup o = some row) (pending : row.status = .PENDING_PAYMENT) :
    d.Returnable o (row.warehouseId.getD "") p := by
  obtain ⟨w, own⟩ := books.orders o row stored
  rw [own.warehouseId, Option.getD_some]
  intro stock q held
  obtain ⟨-, ⟨v, balance⟩, m, newest, -, -⟩ := openReservation_eq held
  have logged : m ∈ d.movementsOf o p := List.argmax_mem newest
  obtain ⟨item, member, same⟩ := List.mem_map.mp (own.closed p m logged).2
  subst same
  obtain ⟨b, balance', open'⟩ := own.openReservation pending member
  obtain ⟨rfl, rfl⟩ := Prod.mk.inj (Option.some.inj (held.symm.trans open'))
  obtain ⟨available, reserved, total⟩ := books.balances w item.productId b balance'
  have positive := own.positive item member
  have placed : d.placed o .PENDING_PAYMENT w := by
    simp [Db.placed, stored, pending, own.warehouseId]
  have share : d.shareOf o item.productId ≤ _ := books.share_le placed
  rw [shareOf_eq own.distinct member] at share
  have sold : 0 ≤ d.quantityIn .CONFIRMED w item.productId := books.quantityIn_nonneg
  have most := room (w, item.productId)
  dsimp only
  omega

section Bodies
variable {context : SettleContext}

/-- A statement that no data makes fail. -/
theorem resolves_query {s : Sql} (answers : ∀ i d x, s.exec i d ≠ .error x) (d : Db) :
    (query s).Resolves store d :=
  resolves_exec (fun i x => answers i d x) fun _ r _ _ => resolves_pure r _

theorem resolves_newDate (field : DateField) (d : Db) :
    (query (.newDate field)).Resolves store d :=
  resolves_query (by simp [Sql.exec]) d

theorem resolves_liftExcept {α β : Type} {result : Except Thrown α} {a : α} {k : α → Tx β}
    (ok : result = .ok a) (rest : (k a).Resolves store d) :
    (liftExcept result >>= k).Resolves store d := by
  subst ok
  exact rest

theorem resolves_saveOrder (order : Order) (d : Db) : (saveOrder order).Resolves store d := by
  refine resolves_bind (resolves_newDate _ d) fun d _ _ => ?_
  refine resolves_bind (resolves_newDate _ d) fun d _ _ => resolves_query ?_ d
  intro i d x
  simp only [Sql.exec]
  split <;> simp

theorem resolves_forM {α : Type} {xs : List α} {step : α → Tx Unit}
    (each : ∀ a d, (step a).Resolves store d) (d : Db) : (xs.forM step).Resolves store d := by
  induction xs generalizing d with
  | nil => exact resolves_pure () d
  | cons a xs ih => exact resolves_bind (each a d) fun mid _ _ => ih mid

theorem resolves_publish (orderId : Uuid) (occurredAt : Date) (d : Db) :
    (publish { type := "order.confirmed", orderId, occurredAt }).Resolves store d :=
  resolves_forM (fun _ d => resolves_query (by simp [Sql.exec]) d) d

theorem resolves_settlePayment (payment : PaymentResolution) (now : Timestamptz) (d : Db) :
    (query (.settlePayment payment now)).Resolves store d := by
  refine resolves_query ?_ d
  intro i d x
  simp only [Sql.exec]
  split
  · split <;> simp
  · simp

theorem assertValidOrderTransition_ok {current target : OrderStatus}
    (listed : target ∈ ORDER_TRANSITIONS current) :
    assertValidOrderTransition current target = .ok () := by
  rw [assertValidOrderTransition, if_pos]
  exact List.contains_iff_mem.mpr listed

theorem transition_resolves (call : SettleCall) (pending : context.order.status = .PENDING_PAYMENT)
    (returnable : ∀ p, d.Returnable context.order.id context.warehouseId p) :
    (call.transition context).Resolves store d := by
  have ends : ∀ ending : Ending,
      (endReservations ending.closing context.command).Resolves store d :=
    fun ending result after ended => ⟨(), endReservations_resolves returnable ended⟩
  have valid : ∀ target ∈ ORDER_TRANSITIONS .PENDING_PAYMENT,
      assertValidOrderTransition context.order.status target = .ok () := by
    intro target member
    rw [pending]
    exact assertValidOrderTransition_ok member
  cases call with
  | confirmCaptured _ _ =>
      refine resolves_bind (ends .commit) fun d _ _ => ?_
      have paid : context.order.markPaid = .ok { context.order with status := .PAID } := by
        rw [Order.markPaid, valid .PAID (by decide)]
        rfl
      refine resolves_liftExcept paid ?_
      refine resolves_bind (resolves_newDate _ d) fun d now _ => ?_
      have confirmed : ({ context.order with status := .PAID } : Order).confirm now =
          .ok { context.order with status := .CONFIRMED, confirmedAt := some now } := by
        rw [Order.confirm, assertValidOrderTransition_ok (by simp [ORDER_TRANSITIONS])]
        rfl
      refine resolves_liftExcept confirmed ?_
      refine resolves_bind (resolves_saveOrder _ d) fun d _ _ => ?_
      refine resolves_bind (resolves_newDate _ d) fun d _ _ => ?_
      exact resolves_bind (resolves_publish _ _ d) fun d _ _ => resolves_pure _ d
  | failDeclined _ _ =>
      refine resolves_bind (ends .release) fun d _ _ => ?_
      have failed : context.order.markPaymentFailed =
          .ok { context.order with status := .PAYMENT_FAILED } := by
        rw [Order.markPaymentFailed, valid .PAYMENT_FAILED (by decide)]
        rfl
      refine resolves_liftExcept failed ?_
      exact resolves_bind (resolves_saveOrder _ d) fun d _ _ => resolves_pure _ d
  | cancelUnpaid _ reason _ =>
      refine resolves_bind (ends .release) fun d _ _ => ?_
      refine resolves_bind (resolves_newDate _ d) fun d now _ => ?_
      have cancelled : context.order.cancel now reason = .ok { context.order with
          status := .CANCELLED, cancelledAt := some now, cancellationReason := some reason } := by
        rw [Order.cancel, valid .CANCELLED (by decide)]
        rfl
      refine resolves_liftExcept cancelled ?_
      exact resolves_bind (resolves_saveOrder _ d) fun d _ _ => resolves_pure _ d

/-- The settlement of a pending order that can be read back. -/
theorem settle_resolves (books : Consistent A₀ d) (room : ∀ key, A₀ key ≤ 2147483647)
    (stored : d.orders.lookup call.orderId = some row) (pending : row.status = .PENDING_PAYMENT)
    {order : Order} (read : orderToDomain (row.hydrate call.orderId) = .ok order) :
    call.run.Resolves store d := by
  refine resolves_exec (by simp [store, Sql.exec]) fun _ now _ began => ?_
  cases began
  refine resolves_exec (by simp [store, Sql.exec]) fun _ _ _ locked => ?_
  cases locked
  refine resolves_exec (by simp [store, Sql.exec, stored]) fun _ entity _ found => ?_
  simp only [store, Sql.exec, Store.applyAll_nil, stored] at found
  cases found
  have status : order.status = .PENDING_PAYMENT := (orderToDomain_status read).trans pending
  have id : order.id = call.orderId := orderToDomain_id read
  have warehouse : order.warehouseId = row.warehouseId := orderToDomain_warehouseId read
  refine resolves_liftExcept read ?_
  rw [if_neg (not_not_intro status)]
  refine resolves_bind (resolves_forM (fun p d => resolves_settlePayment p _ d) _) ?_
  intro mid _ paid
  obtain ⟨_, paid⟩ := completes_iff_performs.mp paid
  obtain rfl := settlePayments_spec paid
  refine resolves_bind (resolves_query (by simp [Sql.exec]) _) fun after items listed => ?_
  obtain ⟨_, _, -, answered, rfl⟩ := completes_query.mp listed
  cases answered
  refine resolves_bind (transition_resolves call status fun p => ?_) fun d _ _ => resolves_pure _ d
  have returnable := books.returnable (p := p) room stored pending
  rw [← id, ← warehouse] at returnable
  exact returnable

/-- A settlement that returned has read the order back. -/
theorem read_of_completes {result : SettlementResult}
    (ran : call.run.Completes store d after result) : ∃ row order,
      d.orders.lookup call.orderId = some row ∧
      orderToDomain (row.hydrate call.orderId) = .ok order := by
  obtain ⟨events, ran⟩ := completes_iff_performs.mp ran
  obtain ⟨_, _, _, _, -, -, started, ran₁⟩ := performs_query.mp ran
  cases started
  obtain ⟨_, _, _, _, -, -, locked, ran₂⟩ := performs_query.mp ran₁
  cases locked
  obtain ⟨_, entity, _, _, -, -, found, ran₃⟩ := performs_query.mp ran₂
  obtain ⟨order, read, -⟩ := performs_liftExcept.mp ran₃
  cases stored : d.orders.lookup call.orderId with
  | none => simp only [Sql.exec, Store.applyAll_nil, stored, reduceCtorEq] at found
  | some row =>
      simp only [Sql.exec, Store.applyAll_nil, stored] at found
      cases found
      exact ⟨row, order, rfl, read⟩

end Bodies

/-- The order is pending and its row can be read back. -/
def Db.settleable (d : Db) (o : Uuid) : Bool :=
  (d.orders.lookup o).any fun row =>
    row.status = .PENDING_PAYMENT && (orderToDomain (row.hydrate o)).isOk

theorem settleable_iff : d.settleable o ↔ ∃ row order, d.orders.lookup o = some row ∧
    row.status = .PENDING_PAYMENT ∧ orderToDomain (row.hydrate o) = .ok order := by
  rw [Db.settleable, Option.any_eq_true]
  constructor
  · rintro ⟨row, stored, holds⟩
    obtain ⟨pending, read⟩ := Bool.and_eq_true_iff.mp holds
    cases outcome : orderToDomain (row.hydrate o) with
    | error e =>
        rw [outcome] at read
        contradiction
    | ok order => exact ⟨row, order, stored, of_decide_eq_true pending, outcome⟩
  · rintro ⟨row, order, stored, pending, read⟩
    refine ⟨row, stored, ?_⟩
    rw [read, pending]
    rfl

/-- On books that balance, a transaction settles its order or leaves the data as they are: the
first exactly when the order can be settled. -/
theorem settle_alone (books : Consistent A₀ d) (room : ∀ key, A₀ key ≤ 2147483647)
    {result : Except Thrown SettlementResult} (ran : call.run.Alone store d result after) :
    (d.settleable call.orderId ∧ ∃ row createdAt, d.orders.lookup call.orderId = some row ∧
        row.status = .PENDING_PAYMENT ∧ Settles call createdAt row d after) ∨
      (¬ d.settleable call.orderId ∧ after = d) := by
  by_cases able : d.settleable call.orderId
  · obtain ⟨row, order, stored, pending, read⟩ := settleable_iff.mp able
    obtain ⟨a, -, done⟩ := (settle_resolves books room stored pending read).alone ran
    refine .inl ⟨able, ?_⟩
    cases settled_of_completes done with
    | already row' stored' closed =>
        cases stored.symm.trans stored'
        exact absurd pending closed
    | now row' createdAt stored' pending' settles =>
        exact ⟨row', createdAt, stored', pending', settles⟩
  · refine .inr ⟨able, ?_⟩
    cases result with
    | error e => exact ran.1
    | ok a =>
        have done := completes_of_ends ran
        obtain ⟨row, order, stored, read⟩ := read_of_completes done
        cases settled_of_completes done with
        | already _ _ _ same => exact same
        | now row' _ stored' pending =>
            cases stored.symm.trans stored'
            exact absurd (settleable_iff.mpr ⟨row, order, stored, pending, read⟩) able

theorem target_ne_pending (call : SettleCall) : call.target ≠ .PENDING_PAYMENT := by
  cases call <;> simp [SettleCall.target]

/-- A settled order is no longer settleable; the others are as before. -/
theorem Settles.settleable {createdAt : Date} (done : Settles call createdAt row d after)
    (o : Uuid) : after.settleable o = (decide (o ≠ call.orderId) && d.settleable o) := by
  obtain ⟨row', stored', target, -, -, -, others⟩ := done.settledRow
  by_cases mine : o = call.orderId
  · have closed : row'.status ≠ .PENDING_PAYMENT := target ▸ target_ne_pending call
    subst mine
    simp [Db.settleable, stored', closed]
  · rw [Db.settleable, others o mine, Db.settleable]
    simp [mine]

end Canals
