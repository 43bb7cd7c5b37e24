import Canals.Allocation.Postings
import Canals.Orders.CreateOrder

/-! What a completed attempt of the failover loop leaves behind: the pending
order, its items and one RESERVE per item, all at the candidate's warehouse. -/
namespace Canals
open Locking Program

/-- `after` is `d` with the draft's order inserted and its stock reserved. -/
structure Reserved (draft : Draft) (w : Uuid) (d after : Db) : Prop where
  order : ∃ row, after.orders = d.orders.insert draft.orderId row ∧
    row.status = .PENDING_PAYMENT ∧ row.warehouseId = some w ∧
    row.totalCents = draft.total.amountCents ∧ row.currency = draft.total.currency
  payments : after.payments = d.payments
  jobs : after.jobs = d.jobs
  items : ∃ items postings, after.orderItems = d.orderItems ++ items ∧
    (∀ item ∈ items, item.orderId = draft.orderId ∧ 0 < item.quantity) ∧
    (items.map (·.productId)).Nodup ∧
    Posted draft.orderId w postings d
      { d with inventory := after.inventory, movements := after.movements } ∧
    postings.map (·.productId) = items.map (·.productId) ∧
    ∀ item ∈ items, ∃ b : Balance, d.inventory.lookup (w, item.productId) = some b ∧
      item.quantity ≤ b.available ∧ (⟨item.productId, .RESERVE, -item.quantity,
        b.available - item.quantity, b.reserved + item.quantity⟩ : Posting) ∈ postings

section Lines
variable {catalogue : Catalogue} {command : CreateOrderCommand} {products : List Product}

theorem mem_priceLines {line : PricedLine} (member : line ∈ priceLines products command.lines) :
    line.line ∈ command.lines ∧ line.product ∈ products := by
  obtain ⟨asked, listed, found⟩ := List.mem_filterMap.mp member
  obtain ⟨product, known, rfl⟩ := Option.map_eq_some_iff.mp found
  exact ⟨listed, List.mem_of_find?_eq_some known⟩

theorem resolved_subset (resolved : resolveCustomerAndProducts catalogue command = .ok products) :
    products ⊆ catalogue.products := by
  simp only [resolveCustomerAndProducts] at resolved
  split at resolved <;> try contradiction
  split at resolved <;> try contradiction
  cases resolved
  exact fun product member => List.mem_of_mem_filter member

end Lines

variable {d after : Db} {draft : Draft} {w : Uuid} {order : Order}

theorem completes_newDate {field : DateField} {β : Type} {k : Date → Tx β} {b : β}
    (ran : (query (.newDate field) >>= k).Completes store d after b) :
    ∃ now, (k now).Completes store d after b := by
  obtain ⟨i, r, ws, -, answered, ran⟩ := ran
  cases answered
  exact ⟨_, ran⟩

theorem completes_liftExcept {α β : Type} {result : Except Thrown α} {k : α → Tx β} {b : β}
    (ran : (liftExcept result >>= k).Completes store d after b) :
    ∃ a, result = .ok a ∧ (k a).Completes store d after b := by
  cases result with
  | error e => exact ran.elim
  | ok a => exact ⟨a, rfl, ran⟩

theorem completes_transaction {α : Type} {body : EntityManager → Tx α} {a : α}
    (ran : (transaction body).Completes store d after a) :
    ∃ now, (body ⟨now⟩).Completes store d after a := by
  obtain ⟨i, now, ws, -, started, ran⟩ := ran
  cases started
  exact ⟨i.clock, ran⟩

/-- Saving an order nobody has stored inserts it as it is. -/
theorem saveOrder_inserts (fresh : d.orders.lookup order.id = none)
    (ran : (saveOrder order).Completes store d after ()) : ∃ createdAt updatedAt, after = { d with
      orders := d.orders.insert order.id
        ((orderToPersistence order createdAt updatedAt).toOrderColumns.map (·.toTimestamptz)) } := by
  obtain ⟨createdAt, ran₁⟩ := completes_newDate ran
  obtain ⟨updatedAt, ran₂⟩ := completes_newDate ran₁
  obtain ⟨i, ws, -, saved, rfl⟩ := completes_query.mp ran₂
  have absent : d.orders.lookup (orderToPersistence order createdAt updatedAt).id = none := fresh
  simp only [Sql.exec, absent] at saved
  cases saved
  exact ⟨createdAt, updatedAt, rfl⟩

/-- The order and its items are in place when the reservation starts. -/
theorem onBeforeReserve_spec (fresh : d.orders.lookup draft.orderId = none)
    (ran : (onBeforeReserve draft w).Completes store d after order) :
    ∃ createdAt updatedAt row items, order = draft.order w createdAt updatedAt ∧
      after = { d with
        orders := d.orders.insert draft.orderId row
        orderItems := d.orderItems ++ items } ∧
      row.status = .PENDING_PAYMENT ∧ row.totalCents = draft.total.amountCents ∧
      row.currency = draft.total.currency ∧
      (items.map fun item => (item.productId, item.quantity)) =
        (draft.lines.map fun line => (line.line.productId, line.line.quantity)) ∧
      (∀ item ∈ items, item.orderId = draft.orderId ∧ 0 < item.quantity) ∧
      (items.map (·.productId)).Nodup := by
  obtain ⟨createdAt, ran₁⟩ := completes_newDate ran
  obtain ⟨updatedAt, ran₂⟩ := completes_newDate ran₁
  obtain ⟨mid, _, saved, ran₃⟩ := completes_bind.mp ran₂
  obtain ⟨c, u, rfl⟩ := saveOrder_inserts fresh saved
  obtain ⟨items, made, ran₄⟩ := completes_liftExcept ran₃
  obtain ⟨_, _, stored, rfl, rfl⟩ := completes_bind.mp ran₄
  obtain ⟨i, ws, -, inserted, rfl⟩ := completes_query.mp stored
  obtain ⟨columns, owned⟩ := draftItems_eq made
  have owned' : ∀ item ∈ items.map orderItemToPersistence,
      item.orderId = draft.orderId ∧ 0 < item.quantity := by
    simpa [orderItemToPersistence] using owned
  simp only [Sql.exec] at inserted
  split at inserted <;> try contradiction
  split at inserted <;> try contradiction
  rename_i accepted
  cases inserted
  refine ⟨createdAt, updatedAt, _, items.map orderItemToPersistence, rfl, rfl, rfl, rfl, rfl,
    ?_, owned', ?_⟩
  · simpa [orderItemToPersistence, Function.comp_def] using columns
  · simp only [Db.acceptsItems, decide_eq_true_eq] at accepted
    generalize items.map orderItemToPersistence = rows at owned' accepted
    have keys : rows.map
        (fun item => (item.orderId, item.productId)) =
        (rows.map (·.productId)).map (draft.orderId, ·) := by
      rw [List.map_map]
      refine List.map_congr_left fun item member => ?_
      simp only [Function.comp_apply, (owned' item member).1]
    exact (keys ▸ accepted.1).of_map

theorem attemptCandidate_spec (fresh : d.orders.lookup draft.orderId = none)
    (ran : (attemptCandidate draft w).Completes store d after order) :
    Reserved draft w d after ∧ ∃ createdAt updatedAt,
      order = draft.order w createdAt updatedAt := by
  obtain ⟨now, ran₁⟩ := completes_transaction ran
  obtain ⟨mid, _, inserted, ran₂⟩ := completes_bind.mp ran₁
  obtain ⟨createdAt, updatedAt, row, items, rfl, rfl, pending, total, currency, columns, owned,
    distinct⟩ := onBeforeReserve_spec fresh inserted
  obtain ⟨_, _, reserving, rfl, rfl⟩ := completes_bind.mp ran₂
  have products : items.map (·.productId) = (draft.lines.map (·.line)).map (·.productId) := by
    simpa [Function.comp_def] using congrArg (List.map Prod.fst) columns
  obtain ⟨mid, postings, posted, named, stocked, stamped⟩ :=
    reserve_spec (products ▸ distinct) reserving
  obtain ⟨j, ws, -, updated, rfl⟩ := completes_query.mp stamped
  have stored : mid.orders.lookup draft.orderId = some row := by
    rw [posted.orders]
    exact AList.lookup_insert _
  simp only [Sql.exec, stored] at updated
  cases updated
  refine ⟨⟨⟨{ row with
      warehouseId := some w
      reservationExpiresAt := some (now.addMinutes RESERVATION_TTL_MINUTES) },
    ?_, pending, rfl, total, currency⟩, posted.payments, posted.jobs, items, postings,
    posted.orderItems, owned, distinct, ?_, named.trans products.symm, ?_⟩, createdAt, updatedAt,
    rfl⟩
  · simp only [Store.applyAll_cons, Store.applyAll_nil, store, Db.apply, posted.orders,
      AList.insert_insert]
  · exact ⟨rfl, posted.balance, posted.balance_frame, posted.nonneg, posted.movements⟩
  · intro item member
    have column : (item.productId, item.quantity) ∈
        draft.lines.map fun line => (line.line.productId, line.line.quantity) :=
      columns ▸ List.mem_map_of_mem member
    obtain ⟨line, there, same⟩ := List.mem_map.mp column
    obtain ⟨b, balance, enough, posting⟩ := stocked line.line (List.mem_map_of_mem there)
    rw [Prod.mk.injEq] at same
    rw [same.1] at balance
    simp only [reservePosting, same.1, same.2] at enough posting
    exact ⟨b, balance, enough, posting⟩

end Canals
