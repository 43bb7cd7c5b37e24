import Canals.Locking.Refusal
import Canals.Orders.Resolving
import Canals.System.Failover
import Canals.System.History
import Canals.System.Outcomes
import Canals.System.SchemaIntegrity

/-! What the transactions can raise of themselves, in any interleaving: an attempt that finds
too little stock says so, and behind a reservation nothing is refused. So an order, once
reserved, is always read back and settled. -/
namespace Canals
open Locking Program

/-- The factories of the domain accept what the columns hold. -/
structure OrderColumns.Valid {T : Type} (row : OrderColumns T) : Prop where
  total : ∃ total, Money.of row.totalCents row.currency = .ok total
  shippingAddress : ∃ address, ShippingAddress.of row.shippingAddress = .ok address
  shippingLocation : ∃ location, Coordinates.of row.shippingLocation.latitude
    row.shippingLocation.longitude = .ok location

/-- Distinct products in quantities the column takes, at prices that are no debts. -/
structure Draft.Sellable (draft : Draft) : Prop where
  distinct : (draft.lines.map (·.line.productId)).Nodup
  quantity : ∀ line ∈ draft.lines, 0 < line.line.quantity ∧ line.line.quantity ≤ 2147483647
  price : ∀ line ∈ draft.lines, 0 ≤ line.product.unitPriceCents

/-- The products of which a warehouse has too little for the draft. -/
def Db.lacking (d : Db) (draft : Draft) (w : Uuid) : List Uuid :=
  ((draft.lines.map (·.line)).filter fun line =>
    (d.inventory.lookup (w, line.productId)).all (·.available < line.quantity)).map (·.productId)

section Reading
variable {d after : Db} {o w : Uuid} {row later : OrderRow} {draft : Draft} {order : Order}

/-- A valid row is read back. -/
theorem OrderColumns.Valid.read (valid : row.Valid) (o : Uuid) :
    ∃ order, orderToDomain (row.hydrate o) = .ok order := by
  obtain ⟨total, money⟩ := valid.total
  obtain ⟨address, made⟩ := valid.shippingAddress
  obtain ⟨location, there⟩ := valid.shippingLocation
  rw [orderToDomain]
  simp only [OrderRow.hydrate, OrderColumns.map, money, made, there]
  exact ⟨_, rfl⟩

/-- What an order becomes is read back as well. -/
theorem OrderColumns.Valid.becomes (valid : row.Valid) (becomes : row.Becomes later) :
    later.Valid := by
  rw [becomes.columns]
  exact ⟨valid.total, valid.shippingAddress, valid.shippingLocation⟩

/-- What the domain hands to the mapper is valid. -/
theorem valid_of_domain (order : Order) (createdAt updatedAt : Date) :
    ((orderToPersistence order createdAt updatedAt).toOrderColumns.map
      (·.toTimestamptz)).Valid where
  total := ⟨_, Money.of_self order.total⟩
  shippingAddress := ⟨_, ShippingAddress.of_self order.shippingAddress⟩
  shippingLocation := ⟨_, Coordinates.of_self order.shippingLocation⟩

theorem onBeforeReserve_valid (fresh : d.orders.lookup draft.orderId = none)
    (ran : (onBeforeReserve draft w).Completes store d after order) :
    ∃ row, after.orders.lookup draft.orderId = some row ∧ row.Valid := by
  obtain ⟨createdAt, ran₁⟩ := completes_newDate ran
  obtain ⟨updatedAt, ran₂⟩ := completes_newDate ran₁
  obtain ⟨mid, _, saved, ran₃⟩ := completes_bind.mp ran₂
  obtain ⟨c, u, rfl⟩ := saveOrder_inserts fresh saved
  obtain ⟨items, -, ran₄⟩ := completes_liftExcept ran₃
  obtain ⟨_, _, stored, rfl, rfl⟩ := completes_bind.mp ran₄
  obtain ⟨i, ws, -, inserted, rfl⟩ := completes_query.mp stored
  simp only [Sql.exec] at inserted
  split at inserted <;> try contradiction
  split at inserted <;> try contradiction
  cases inserted
  exact ⟨_, AList.lookup_insert _, valid_of_domain _ c u⟩

/-- An attempt that commits leaves a row that is read back, and that will expire. -/
theorem attemptCandidate_valid (fresh : d.orders.lookup draft.orderId = none)
    (ran : (attemptCandidate draft w).Completes store d after order) :
    ∃ row, after.orders = d.orders.insert draft.orderId row ∧ row.Valid ∧
      row.reservationExpiresAt.isSome := by
  obtain ⟨now, ran₁⟩ := completes_transaction ran
  obtain ⟨mid, _, inserted, ran₂⟩ := completes_bind.mp ran₁
  obtain ⟨row, stored, valid⟩ := onBeforeReserve_valid fresh inserted
  obtain ⟨_, _, row', items, rfl, rfl, -, -, -, columns, -, distinct⟩ :=
    onBeforeReserve_spec fresh inserted
  cases (AList.lookup_insert _).symm.trans stored
  obtain ⟨_, _, reserving, rfl, rfl⟩ := completes_bind.mp ran₂
  have products : items.map (·.productId) = (draft.lines.map (·.line)).map (·.productId) := by
    simpa [Function.comp_def] using congrArg (List.map Prod.fst) columns
  obtain ⟨mid, postings, posted, -, -, stamped⟩ := reserve_spec (products ▸ distinct) reserving
  obtain ⟨j, ws, -, updated, rfl⟩ := completes_query.mp stamped
  have found : mid.orders.lookup draft.orderId = some row := by
    rw [posted.orders]
    exact AList.lookup_insert _
  simp only [Sql.exec, found] at updated
  cases updated
  refine ⟨{ row with
    warehouseId := some w
    reservationExpiresAt := some (now.addMinutes RESERVATION_TTL_MINUTES) }, ?_,
    ⟨valid.total, valid.shippingAddress, valid.shippingLocation⟩, rfl⟩
  simp only [Store.applyAll_cons, Store.applyAll_nil, store, Db.apply, posted.orders,
    AList.insert_insert]

end Reading

section Attempts
variable {A₀ : Uuid × Uuid → Int} {d after : Db} {o w : Uuid} {draft : Draft} {order : Order}
  {command : ReserveCommand} {manager : EntityManager}

/-- Balances that the columns take can always be posted. -/
theorem resolves_post {x : Posting} (fits : (0 ≤ x.availableAfter ∧ fitsInteger x.availableAfter) ∧
    0 ≤ x.reservedAfter ∧ fitsInteger x.reservedAfter) (d : Db) :
    (post o w x).Resolves store d := by
  refine resolves_bind (resolves_query ?_ d) fun mid _ _ => resolves_query (by simp [Sql.exec]) mid
  intro i d e
  simp only [Sql.exec]
  split
  · simp [fits.1, fits.2]
  · simp

theorem mem_lacking {p : Uuid} : p ∈ d.lacking draft w ↔ ∃ line ∈ draft.lines,
    line.line.productId = p ∧
      (d.inventory.lookup (w, p)).all (·.available < line.line.quantity) := by
  simp only [Db.lacking, List.mem_map, List.mem_filter]
  constructor
  · rintro ⟨_, ⟨⟨line, member, rfl⟩, short⟩, rfl⟩
    exact ⟨line, member, rfl, short⟩
  · rintro ⟨line, member, rfl, short⟩
    exact ⟨_, ⟨⟨line, member, rfl⟩, short⟩, rfl⟩

/-- What is unmet by the rows that were read is what the warehouse lacks. -/
theorem isUnmet_inventoryRows {productIds : List Uuid} {line : OrderLine}
    (asked : line.productId ∈ productIds) : isUnmet (d.inventoryRows w productIds) line =
      (d.inventory.lookup (w, line.productId)).all (·.available < line.quantity) := by
  rw [isUnmet]
  split
  · rename_i row found
    obtain ⟨-, v, stored⟩ := rowOf_inventoryRows found
    rw [stored]
    rfl
  · rename_i missing
    rw [rowOf_none asked missing]
    rfl

theorem draftItem_ok {line : PricedLine} (quantity : 0 < line.line.quantity)
    (price : 0 ≤ line.product.unitPriceCents) : ∃ item, draftItem o line = .ok item := by
  have money : Money.of line.product.unitPriceCents =
      .ok ⟨line.product.unitPriceCents, "USD", price, by decide⟩ := by
    rw [Money.of, dif_pos price, dif_pos (by decide)]
  simp only [draftItem, money, OrderItem.new]
  exact ⟨_, if_pos quantity⟩

theorem mapM_returns {α β ε : Type} {f : α → Except ε β} {l : List α}
    (each : ∀ a ∈ l, ∃ b, f a = .ok b) : ∃ bs, l.mapM f = .ok bs := by
  induction l with
  | nil => exact ⟨[], rfl⟩
  | cons a l ih =>
    obtain ⟨b, first⟩ := each a List.mem_cons_self
    obtain ⟨bs, rest⟩ := ih fun a member => each a (List.mem_cons_of_mem _ member)
    exact ⟨b :: bs, by rw [List.mapM_cons, first, rest]; rfl⟩

theorem resolves_newDate_bind {field : DateField} {α : Type} {k : Date → Tx α}
    (rest : ∀ now, (k now).Resolves store d) : (query (.newDate field) >>= k).Resolves store d := by
  refine resolves_exec (by simp [store, Sql.exec]) fun i now ws answered => ?_
  cases answered
  exact rest _

/-- An order that has no items yet takes distinct ones. -/
theorem acceptsItems_of_nil (nothing : d.itemsOf o = []) {items : List OrderItemRow}
    (owned : ∀ item ∈ items, item.orderId = o) (distinct : (items.map (·.productId)).Nodup) :
    d.acceptsItems items := by
  rw [Db.acceptsItems, decide_eq_true_eq]
  constructor
  · refine List.Nodup.of_map Prod.snd ?_
    rw [List.map_map]
    exact distinct
  · intro item member other listed
    rw [owned item member, nothing] at listed
    cases listed

/-- The order and its items are always stored. -/
theorem onBeforeReserve_resolves (books : Consistent A₀ d)
    (fresh : d.orders.lookup draft.orderId = none) (sellable : draft.Sellable) :
    (onBeforeReserve draft w).Resolves store d := by
  refine resolves_newDate_bind fun createdAt => resolves_newDate_bind fun updatedAt => ?_
  refine resolves_bind (resolves_saveOrder _ _) fun mid _ saved => ?_
  obtain ⟨c, u, after⟩ := saveOrder_inserts fresh saved
  have same : mid.orderItems = d.orderItems := by rw [after]
  obtain ⟨items, made⟩ := mapM_returns (f := draftItem draft.orderId) fun line member =>
    draftItem_ok (sellable.quantity line member).1 (sellable.price line member)
  refine resolves_liftExcept made ?_
  obtain ⟨columns, owned⟩ := draftItems_eq made
  refine resolves_bind (resolves_exec ?_ fun _ r _ _ => resolves_pure r _) fun _ _ _ =>
    resolves_pure _ _
  have quantities : (items.map orderItemToPersistence).all fun item =>
      0 < item.quantity && fitsInteger item.quantity := by
    refine List.all_eq_true.mpr fun row member => ?_
    obtain ⟨item, listed, rfl⟩ := List.mem_map.mp member
    have column : (item.productId, item.quantity) ∈
        draft.lines.map fun line => (line.line.productId, line.line.quantity) :=
      columns ▸ List.mem_map_of_mem listed
    obtain ⟨line, there, same⟩ := List.mem_map.mp column
    obtain ⟨-, quantity⟩ := Prod.mk.inj same
    obtain ⟨positive, most⟩ := sellable.quantity line there
    rw [quantity] at positive most
    exact Bool.and_eq_true_iff.mpr ⟨decide_eq_true positive, decide_eq_true
      ⟨show (-2147483648 : Int) ≤ item.quantity by omega, most⟩⟩
  have nothing : d.itemsOf draft.orderId = [] := by
    refine List.filter_eq_nil_iff.mpr fun item member mine => ?_
    have known := books.itemsOwned item member
    rw [of_decide_eq_true mine, fresh] at known
    cases known
  have accepted : mid.acceptsItems (items.map orderItemToPersistence) := by
    apply acceptsItems_of_nil (o := draft.orderId)
    · rw [Db.itemsOf, same]
      exact nothing
    · intro row member
      obtain ⟨item, listed, rfl⟩ := List.mem_map.mp member
      exact (owned item listed).1
    · have products := congrArg (List.map Prod.fst) columns
      simp only [List.map_map, Function.comp_def, orderItemToPersistence] at products ⊢
      rw [products]
      exact sellable.distinct
  intro i e failed
  simp only [store, Sql.exec, quantities, if_true, accepted, reduceCtorEq] at failed

/-- What is reserved fits the columns: the units of a row never grow. -/
theorem reserveLine_resolves {rows : List InventoryRow} {line : OrderLine}
    (fits : ∀ row, rowOf rows line.productId = some row → line.quantity ≤ row.quantityAvailable ∧
      0 ≤ row.quantityReserved ∧ row.quantityAvailable + row.quantityReserved ≤ 2147483647)
    (present : (rowOf rows line.productId).isSome) (positive : 0 < line.quantity) (d : Db) :
    (reserveLine command rows line).Resolves store d := by
  obtain ⟨row, found⟩ := Option.isSome_iff_exists.mp present
  obtain ⟨enough, reserved, most⟩ := fits row found
  rw [reserveLine, found]
  refine resolves_post ⟨⟨?_, decide_eq_true ?_⟩, ?_, decide_eq_true ?_⟩ d <;>
    dsimp only [reservePosting] <;> omega

theorem resolves_forM_of_mem {α : Type} {xs : List α} {step : α → Tx Unit}
    (each : ∀ a ∈ xs, ∀ d, (step a).Resolves store d) (d : Db) :
    (xs.forM step).Resolves store d := by
  induction xs generalizing d with
  | nil => exact resolves_pure () d
  | cons a xs ih =>
    refine resolves_bind (each a List.mem_cons_self d) fun mid _ _ => ?_
    exact ih (fun a member => each a (List.mem_cons_of_mem _ member)) mid

theorem lockInventoryRows_mapError_resolves {productIds : List Uuid} (g : Thrown → Thrown) :
    ((lockInventoryRows w productIds).mapError g).Resolves store d := by
  intro result after ended
  obtain ⟨locked, read, same⟩ := ends_mapError ended
  obtain ⟨rfl, -⟩ := lockInventoryRows_resolves read
  exact ⟨_, same⟩

theorem raises_transaction {α : Type} {body : EntityManager → Tx α} {raised : Thrown → Prop}
    (rest : ∀ manager, (body manager).Raises store d raised) :
    (transaction body).Raises store d raised := by
  refine raises_exec (by simp [store, Sql.exec]) fun i now ws answered => ?_
  cases answered
  exact rest _

/-- An attempt raises one exception of itself: that the warehouse lacks something. -/
theorem attempt_raises (books : Consistent A₀ d) (room : ∀ key, A₀ key ≤ 2147483647)
    (fresh : d.orders.lookup draft.orderId = none) (sellable : draft.Sellable) :
    (attemptCandidate draft w).Raises store d fun e =>
      e = .insufficientStock (d.lacking draft w) ∧ d.lacking draft w ≠ [] := by
  refine raises_transaction fun manager => ?_
  refine raises_bind (onBeforeReserve_resolves books fresh sellable).raises ?_
  intro mid order inserted
  obtain ⟨_, _, row, items, rfl, same, -⟩ := onBeforeReserve_spec fresh inserted
  have inventory : mid.inventory = d.inventory := by rw [same]
  refine raises_bind ?_ fun mid' _ _ => (resolves_pure _ _).raises
  refine raises_bind (lockInventoryRows_mapError_resolves _).raises fun mid' rows locked => ?_
  obtain ⟨rfl, rfl⟩ := lockInventoryRows_spec (completes_mapError.mp locked)
  have unmet : ((draft.lines.map (·.line)).filter (isUnmet (mid'.inventoryRows w
      ((draft.lines.map (·.line)).map (·.productId))))).map (·.productId) = d.lacking draft w := by
    rw [Db.lacking, ← inventory]
    congr 1
    exact List.filter_congr fun line member => isUnmet_inventoryRows (List.mem_map_of_mem member)
  dsimp only
  rw [unmet]
  split
  · rename_i nothing
    refine Resolves.raises (resolves_bind (resolves_forM_of_mem ?_ _) fun mid _ _ => ?_)
    · intro line member
      obtain ⟨priced, listed, rfl⟩ := List.mem_map.mp member
      have met : ¬ (d.inventory.lookup (w, priced.line.productId)).all
          (·.available < priced.line.quantity) := by
        intro short
        have lacks := mem_lacking.mpr ⟨priced, listed, rfl, short⟩
        rw [nothing] at lacks
        cases lacks
      cases stored : d.inventory.lookup (w, priced.line.productId) with
      | none => exact absurd (by rw [stored]; rfl) met
      | some b =>
        rw [stored, Option.all_some, decide_eq_true_eq, not_lt] at met
        refine reserveLine_resolves (fun row found => ?_) ?_ (sellable.quantity priced listed).1
        · obtain ⟨-, v, balance⟩ := rowOf_inventoryRows found
          rw [inventory, stored, Option.some.injEq] at balance
          subst balance
          obtain ⟨-, reserved, total⟩ := books.balances w priced.line.productId _ stored
          have held : 0 ≤ d.quantityIn .PENDING_PAYMENT w priced.line.productId :=
            books.quantityIn_nonneg
          have sold : 0 ≤ d.quantityIn .CONFIRMED w priced.line.productId :=
            books.quantityIn_nonneg
          have most := room (w, priced.line.productId)
          dsimp only at reserved total met
          omega
        · by_contra missing
          have absent := rowOf_none (List.mem_map_of_mem member)
            (Option.not_isSome_iff_eq_none.mp missing)
          rw [inventory, stored] at absent
          cases absent
    · refine resolves_query (fun i d e => ?_) mid
      simp only [Sql.exec]
      split <;> simp
  · rename_i some
    exact raises_throw ⟨rfl, some⟩

end Attempts

section Endings
variable {A₀ : Uuid × Uuid → Int} {d : Db} {row : OrderRow} {call : SettleCall}

/-- The settlement of a stored order commits, whatever its status. -/
theorem call_resolves (books : Consistent A₀ d) (room : ∀ key, A₀ key ≤ 2147483647)
    (stored : d.orders.lookup call.orderId = some row) (valid : row.Valid) :
    call.run.Resolves store d := by
  obtain ⟨order, read⟩ := valid.read call.orderId
  by_cases pending : row.status = .PENDING_PAYMENT
  · exact settle_resolves books room stored pending read
  · refine resolves_exec (by simp [store, Sql.exec]) fun _ now _ began => ?_
    cases began
    refine resolves_exec (by simp [store, Sql.exec]) fun _ _ _ locked => ?_
    cases locked
    refine resolves_exec (by simp [store, Sql.exec, stored]) fun _ entity _ found => ?_
    simp only [store, Sql.exec, Store.applyAll_nil, stored] at found
    cases found
    have status : order.status = row.status := orderToDomain_status read
    refine resolves_liftExcept read ?_
    rw [if_pos (status ▸ pending)]
    exact resolves_pure _ _

theorem savePayment_resolves {read : Option PaymentOrmEntity} {payment : PaymentOrmEntity}
    (fresh : read = none → d.payments.lookup payment.id = none) :
    (savePayment read payment).Resolves store d := by
  cases read with
  | none =>
    refine resolves_exec (fun i e => ?_) fun _ r _ _ => resolves_pure r _
    simp [store, Sql.exec, fresh rfl]
  | some read =>
    refine resolves_query (fun i d e => ?_) d
    simp only [Sql.exec]
    split <;> simp

end Endings

/-- The orders a process is going to settle. -/
def Ctl.aims : Ctl → List Uuid
  | reserved saga | charging saga _ _ | charged saga _ _ => [saga.order.id]
  | finding save | saving save _ => [save.saga.order.id]
  | settling _ _ call => [call.orderId]
  | running tasks => tasks.map (·.orderId)
  | asking task _ rest => task.orderId :: rest.map (·.orderId)
  | resolving call rest => call.orderId :: rest.map (·.orderId)
  | _ => []

def Ctl.Aimed (d : Db) (ctl : Ctl) : Prop :=
  ∀ o ∈ ctl.aims, (d.orders.lookup o).isSome

/-- A payment that was not found when it was looked for is still not there. -/
def Ctl.Unsaved (d : Db) : Ctl → Prop
  | saving save none => d.payments.lookup save.payment.id = none
  | _ => True

/-- What the transactions behind a reservation rely on. -/
structure Ready {P : Type} (a : World P) : Prop where
  valid : ∀ {o row}, a.data.orders.lookup o = some row → row.Valid
  expires : ∀ {o row}, a.data.orders.lookup o = some row → row.reservationExpiresAt.isSome
  aimed : ∀ p, (a.ctl p).Aimed a.data
  unsaved : ∀ p, (a.ctl p).Unsaved a.data

section Steps
variable {d after : Db} {env env' : Env} {ctl ctl' : Ctl} {o : Uuid} {row : OrderRow}

/-- A settlement stores no order of its own. -/
theorem Settled.origin {call : SettleCall} {result : SettlementResult}
    (settled : Settled call d after result) (stored : after.orders.lookup o = some row) :
    ∃ old, d.orders.lookup o = some old ∧ old.Becomes row := by
  have known : (d.orders.lookup o).isSome := by
    cases settled with
    | already _ _ _ same =>
      rw [← same, stored]
      rfl
    | now before createdAt found _ done =>
      obtain ⟨row', inserted, -⟩ := done.order
      by_cases mine : o = call.orderId
      · rw [mine, found]
        rfl
      · rw [← AList.lookup_insert_ne mine, ← inserted, stored]
        rfl
  obtain ⟨old, found⟩ := Option.isSome_iff_exists.mp known
  obtain ⟨later, stored', becomes⟩ := settled.preserves.orders found
  cases stored.symm.trans stored'
  exact ⟨old, found, becomes⟩

/-- A stored order was stored before, or an attempt has just inserted it. -/
theorem Commits.origin (commits : Commits d ctl after ctl') (alone : ctl.Alone d)
    (stored : after.orders.lookup o = some row) :
    (∃ old, d.orders.lookup o = some old ∧ old.Becomes row) ∨
      row.Valid ∧ row.reservationExpiresAt.isSome := by
  have saved : ∀ {payment : PaymentOrmEntity} {read}, Saves payment d read after →
      after.orders = d.orders := by
    intro payment read saves
    cases saves <;> rfl
  cases commits with
  | @reserve allocation _ order ran =>
    obtain ⟨row', inserted, new⟩ := attemptCandidate_valid alone ran
    rw [inserted] at stored
    by_cases mine : o = allocation.draft.orderId
    · subst mine
      cases (AList.lookup_insert _).symm.trans stored
      exact .inr new
    · rw [AList.lookup_insert_ne mine] at stored
      exact .inl ⟨row, stored, .refl row⟩
  | insert _ saves | record _ _ saves | leave _ _ saves =>
    exact .inl ⟨row, saved saves ▸ stored, .refl row⟩
  | confirm _ settled | decline _ settled | resolve settled => exact .inl (settled.origin stored)

theorem Commits.aims (commits : Commits d ctl after ctl') (alone : ctl.Alone d)
    (aim : o ∈ ctl'.aims) : o ∈ ctl.aims ∨ (after.orders.lookup o).isSome := by
  cases commits with
  | reserve ran =>
    right
    obtain ⟨done, _, _, rfl⟩ := attemptCandidate_spec alone ran
    obtain ⟨row, inserted, -⟩ := done.order
    rw [List.mem_singleton.mp aim, inserted]
    exact Option.isSome_iff_exists.mpr ⟨row, AList.lookup_insert _⟩
  | insert _ _ => exact .inl aim
  | record _ settles _ =>
    left
    rw [Ctl.aims, (settlementOf_orderId settles).1] at aim
    exact aim
  | resolve _ => exact .inl (List.mem_cons_of_mem _ aim)
  | _ => cases aim

theorem Rewinds.aims (rewinds : Rewinds ctl ctl') (aim : o ∈ ctl'.aims) : o ∈ ctl.aims := by
  cases rewinds with
  | resolving => exact List.mem_cons_of_mem _ aim
  | _ => cases aim

theorem resolve_orderId {task : Task} {chargeResult : ChargeResult} {call : SettleCall}
    (resolved : task.resolve chargeResult = some call) : call.orderId = task.orderId := by
  unfold Task.resolve at resolved
  dsimp only at resolved
  split at resolved <;> cases resolved <;> rfl

/-- Nothing is settled but orders that are stored. -/
theorem Moves.aims (moves : Moves d env ctl env' ctl') (billed : d.Billed) (aim : o ∈ ctl'.aims) :
    o ∈ ctl.aims ∨ (d.orders.lookup o).isSome := by
  cases moves with
  | select selected =>
    right
    obtain ⟨task, listed, rfl⟩ := List.mem_map.mp aim
    have row := selected task listed
    cases task with
    | expired expired =>
      obtain ⟨order, stored, -⟩ := row
      exact Option.isSome_iff_exists.mpr ⟨order, stored⟩
    | unsettled unsettled =>
      obtain ⟨payment, stored, owner, -⟩ := row
      obtain ⟨-, order, -⟩ := billed (Db.bill_eq stored)
      rwa [owner] at order
  | decide _ resolved =>
    left
    rw [Ctl.aims, resolve_orderId resolved] at aim
    exact aim
  | skip => exact .inl (List.mem_cons_of_mem _ aim)
  | start _ _ | refuse _ | miss | idle => cases aim
  | _ => exact .inl aim

theorem Commits.unsaved (commits : Commits d ctl after ctl') : ctl'.Unsaved after := by
  cases commits <;> trivial

theorem Rewinds.unsaved (rewinds : Rewinds ctl ctl') : ctl'.Unsaved d := by
  cases rewinds <;> trivial

theorem Moves.unsaved (moves : Moves d env ctl env' ctl') : ctl'.Unsaved d := by
  cases moves with
  | @find save =>
    cases found : d.payments.lookup save.payment.id with
    | none => exact found
    | some row => trivial
  | _ => trivial

variable {P : Type} [DecidableEq P] {catalogue : Catalogue} {sha256 : String → String}
  {a b : World P}

theorem Ready.step (ready : Ready a) (does : Does sha256 a b) (owned : Owned a)
    (billed : a.data.Billed) : Ready b := by
  have still : ∀ {o}, (a.data.orders.lookup o).isSome → (b.data.orders.lookup o).isSome := by
    intro o known
    obtain ⟨row, stored⟩ := Option.isSome_iff_exists.mp known
    obtain ⟨later, stored', -⟩ := (preserves_step does owned).orders stored
    exact Option.isSome_iff_exists.mpr ⟨later, stored'⟩
  cases does with
  | @commit p after ctl commits =>
    obtain ⟨evolves, -⟩ := commits.owned (owned.alone p)
    refine ⟨fun stored => ?_, fun stored => ?_, Committed.forall_goto ?_ ?_,
      Committed.forall_goto ?_ ?_⟩
    · rcases commits.origin (owned.alone p) stored with ⟨old, found, becomes⟩ | ⟨valid, -⟩
      · exact (ready.valid found).becomes becomes
      · exact valid
    · rcases commits.origin (owned.alone p) stored with ⟨old, found, becomes⟩ | ⟨-, expires⟩
      · have expires := ready.expires found
        rw [becomes.columns]
        exact expires
      · exact expires
    · intro o aim
      exact (commits.aims (owned.alone p) aim).elim (fun old => still (ready.aimed p o old)) id
    · intro q other o aim
      exact still (ready.aimed q o aim)
    · exact commits.unsaved
    · intro q other
      have before := ready.unsaved q
      have apart := owned.exclusive q p
      cases here : a.ctl q with
      | saving save stored =>
        cases stored with
        | none =>
          rw [here] at before apart
          exact evolves.newPayments before fun mine =>
            other (apart _ (by simp [Ctl.owns]) mine)
        | some read => trivial
      | _ => trivial
  | @rewind p ctl rewinds =>
    refine ⟨ready.valid, ready.expires,
      Committed.forall_goto (fun o aim => ready.aimed p o (rewinds.aims aim))
        fun q _ => ready.aimed q,
      Committed.forall_goto rewinds.unsaved fun q _ => ready.unsaved q⟩
  | @move p env ctl moves =>
    refine ⟨ready.valid, ready.expires,
      Committed.forall_goto (fun o aim => ?_) fun q _ => ready.aimed q,
      Committed.forall_goto moves.unsaved fun q _ => ready.unsaved q⟩
    exact (moves.aims billed aim).elim (ready.aimed p o) id
  | happen _ => exact ⟨ready.valid, ready.expires, ready.aimed, ready.unsaved⟩

theorem Runs.ready {Meets : World P → World P → Prop} {stock : Stock} {clock : Timestamptz}
    {s : Processes P} (run : Runs catalogue sha256 Meets stock clock s) : Ready s.committed :=
  run.invariant ⟨nofun, nofun, fun _ _ => nofun, fun _ => trivial⟩ fun before ready does _ =>
    ready.step does before.owned before.billing.billed

end Steps

section Runs
variable {P : Type} [DecidableEq P] {catalogue : Catalogue} {sha256 : String → String}
  {stock : Stock} {clock : Timestamptz} {s : Processes P} {p : P}
  {tx : Open Sql Sql.Result DbError Thrown Write Ctl}

/-- What is refused is an attempt, and for want of stock. -/
theorem Runs.refuses (run : Reachable catalogue sha256 stock clock s)
    (room : ∀ key, stock.units key ≤ 2147483647) (isOpen : (s.session p).tx = some tx)
    {e : Thrown} (refuses : tx.Refuses store s.data e) : ∃ allocation,
      (s.session p).ctl = .allocating allocation ∧ (allocation.draft.Sellable →
        e = .insufficientStock (s.data.lacking allocation.draft allocation.candidate) ∧
        s.data.lacking allocation.draft allocation.candidate ≠ []) := by
  have replayable := run.replayable
  have books := run.consistent
  have ready := run.ready
  have settles : ∀ {call : SettleCall}, call.orderId ∈ (s.session p).ctl.aims →
      call.run.Resolves store s.data := by
    intro call aim
    obtain ⟨row, stored⟩ := Option.isSome_iff_exists.mp (ready.aimed p _ aim)
    exact call_resolves books room stored (ready.valid stored)
  have never : ∀ {body : Tx Ctl}, (s.session p).ctl.body = some body →
      body.Resolves store s.data → False := by
    intro body here resolves
    refine replayable.raised isOpen refuses (fun _ => False) fun prog body' => ?_
    cases Option.some.inj (here.symm.trans body')
    exact resolves.raises
  cases here : (s.session p).ctl with
  | allocating allocation =>
    refine ⟨allocation, rfl, fun sellable => ?_⟩
    have fresh := run.owned.alone p
    rw [show s.committed.ctl p = .allocating allocation from here] at fresh
    refine replayable.raised isOpen refuses (fun e =>
      e = .insufficientStock (s.data.lacking allocation.draft allocation.candidate) ∧
      s.data.lacking allocation.draft allocation.candidate ≠ []) fun prog body => ?_
    rw [here] at body
    cases body
    exact raises_bind (attempt_raises books room fresh sellable) fun _ _ _ =>
      (resolves_pure _ _).raises
  | saving save stored =>
    refine (never (congrArg Ctl.body here) (resolves_bind (savePayment_resolves ?_)
      fun _ _ _ => resolves_pure _ _)).elim
    rintro rfl
    have unsaved := ready.unsaved p
    rwa [show s.committed.ctl p = .saving save none from here] at unsaved
  | settling saga chargeResult call =>
    exact (never (congrArg Ctl.body here) (resolves_bind (settles (by simp [here, Ctl.aims]))
      fun _ _ _ => resolves_pure _ _)).elim
  | resolving call rest =>
    exact (never (congrArg Ctl.body here) (resolves_bind (settles (by simp [here, Ctl.aims]))
      fun _ _ _ => resolves_pure _ _)).elim
  | _ =>
    obtain ⟨prog, _, body, -⟩ := replayable.replays p tx isOpen
    rw [here] at body
    cases body

/-- In any interleaving the only exception a transaction raises of itself, without a fault of the
database, is that of an attempt whose warehouse lacks something, and it names exactly what is
lacking. No settlement and no save of a payment is ever refused: it takes its next step, or
waits for a row that another transaction has locked. An order number that is taken and an
amount outside `bigint` are among the faults, see `Sql.exec`. -/
theorem refused_for_stock (run : Reachable catalogue sha256 stock clock s)
    (room : ∀ key, stock.units key ≤ 2147483647) (isOpen : (s.session p).tx = some tx) :
    (∀ e, tx.Refuses store s.data e → ∃ allocation,
      (s.session p).ctl = .allocating allocation ∧ (allocation.draft.Sellable →
        e = .insufficientStock (s.data.lacking allocation.draft allocation.candidate) ∧
        s.data.lacking allocation.draft allocation.candidate ≠ [])) ∧
    ((∃ e, tx.Refuses store s.data e) ∨
      (∃ t, s.step store (system catalogue sha256) (.commit p) = some t) ∨
      (∃ t, s.step store (system catalogue sha256) (.exec p) = some t) ∨ ∃ l, s.locked p l) :=
  ⟨fun _ => run.refuses room isOpen, run.replayable.advances system_supplies isOpen⟩

end Runs

section Lamp

/-- Six lamps, of which there are five. -/
def lampMany : CreateOrderCommand := { lampCommand with lines := [⟨"lamp", 6⟩] }

/-- The attempt for them has read what there is. -/
def lampShort : Processes Bool :=
  ((initial Bool lampStock ⟨1000000⟩).run store (system lampCatalogue lampSha256)
    (.move true (.createOrder lampMany lampGeocoded "CNL-2026-000001" ["denver"] "order") ::
      .begin true :: List.replicate 9 (.exec true))).get (by decide +kernel)

theorem lampShort_reachable : Reachable lampCatalogue lampSha256 lampStock ⟨1000000⟩ lampShort :=
  reachable_of_run (Option.some_get _).symm

theorem lampStock_room (key : Uuid × Uuid) : lampStock.units key ≤ 2147483647 := by
  rw [Stock.units]
  cases found : lampStock.inventory.lookup key with
  | none => decide
  | some b =>
    have member := AList.mem_lookup_iff.mp found
    simp only [lampStock, AList.singleton, List.mem_singleton, Sigma.mk.injEq] at member
    obtain ⟨rfl, same⟩ := member
    cases eq_of_heq same
    decide

/-- What a transaction throws next, if it does. -/
def thrown (tx : Open Sql Sql.Result DbError Thrown Write Ctl) : Option Thrown :=
  match tx.rest with
  | .throw e => some e
  | _ => none

theorem refuses_thrown {tx : Open Sql Sql.Result DbError Thrown Write Ctl} {e : Thrown} {d : Db}
    (throws : thrown tx = some e) : tx.Refuses store d e := by
  obtain ⟨rest, ws⟩ := tx
  cases rest with
  | throw e' =>
    cases throws
    exact .throw
  | _ => cases throws

theorem refused_for_stock_lamp : ∃ tx, (lampShort.session true).tx = some tx ∧
    tx.Refuses store lampShort.data (.insufficientStock ["lamp"]) ∧
    (∀ e, tx.Refuses store lampShort.data e → ∃ allocation,
      (lampShort.session true).ctl = .allocating allocation ∧ (allocation.draft.Sellable →
        e = .insufficientStock (lampShort.data.lacking allocation.draft allocation.candidate) ∧
        lampShort.data.lacking allocation.draft allocation.candidate ≠ [])) ∧
    ((∃ e, tx.Refuses store lampShort.data e) ∨
      (∃ t, lampShort.step store (system lampCatalogue lampSha256) (.commit true) = some t) ∨
      (∃ t, lampShort.step store (system lampCatalogue lampSha256) (.exec true) = some t) ∨
      ∃ l, lampShort.locked true l) := by
  have throws : (lampShort.session true).tx.bind thrown = some (.insufficientStock ["lamp"]) := by
    decide +kernel
  obtain ⟨tx, isOpen, throws⟩ := Option.bind_eq_some_iff.mp throws
  exact ⟨tx, isOpen, refuses_thrown throws,
    refused_for_stock lampShort_reachable lampStock_room isOpen⟩

end Lamp

end Canals
