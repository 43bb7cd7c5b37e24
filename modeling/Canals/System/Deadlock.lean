import Canals.Locking.Waiting
import Canals.System.Ownership
import Mathlib.Data.Prod.Lex

/-! The row locks of the order flow as Postgres takes them, one row after the
other: orders before payments before inventory rows, and those by product.
The key-share locks of foreign keys to `orders` count; those to customers,
products and warehouses are in nobody's way. -/
namespace Canals
open Locking

/-- `newPayment` is a row being inserted, which nobody else sees before the
commit; `orderKey` is the `FOR KEY SHARE` of a row that refers to the order. -/
inductive RowLock where
  | newPayment (id : Uuid)
  | order (id : Uuid)
  | orderKey (id : Uuid)
  | payment (id : Uuid)
  | stock (key : Uuid × Uuid)
  deriving DecidableEq

namespace RowLock

def conflicts : RowLock → RowLock → Prop
  | orderKey _, orderKey _ => False
  | order o, orderKey o' | orderKey o, order o' => o = o'
  | l, l' => l = l'

/-- The one order in which all rows are locked. -/
def rank : RowLock → Nat ×ₗ Uuid
  | newPayment id => toLex (0, id)
  | order id | orderKey id => toLex (1, id)
  | payment id => toLex (2, id)
  | stock (_, productId) => toLex (3, productId)

theorem conflicts_symm {l l' : RowLock} (conflict : l.conflicts l') : l'.conflicts l := by
  cases l <;> cases l' <;> first | exact conflict | exact Eq.symm conflict

theorem rank_lt_stock {l : RowLock} (other : ∀ key, l ≠ .stock key) (p : Uuid) :
    l.rank < toLex (3, p) := by
  cases l with
  | stock key => exact absurd rfl (other key)
  | _ => exact Prod.Lex.toLex_lt_toLex.mpr (.inl (by simp))

theorem rank_of_conflicts {l l' : RowLock} (conflict : l.conflicts l') : l.rank = l'.rank := by
  cases l <;> cases l' <;> first | contradiction | (cases conflict; rfl)

end RowLock

/-- The rows of a statement in the order in which it locks them. -/
def Sql.rows : Sql → List RowLock
  | .lockOrder id => [.order id]
  | .saveOrder entity => [.order entity.id]
  | .updateReservation _ _ orderId => [.order orderId]
  | .saveItems items => items.map (.orderKey ·.orderId)
  | .lockInventory warehouseId productIds =>
    (productIds.dedup.insertionSort (· ≤ ·)).map fun p => .stock (warehouseId, p)
  | .updateInventory params => [.stock (params.warehouseId, params.productId)]
  | .insertMovement params => [.orderKey params.orderId]
  | .settlePayment payment _ => [.payment payment.paymentId]
  | .insertPayment entity => [.newPayment entity.id, .orderKey entity.orderId]
  -- the reference is checked again only if it was changed
  | .updatePayment read entity =>
    .payment entity.id :: if read.orderId = entity.orderId then [] else [.orderKey entity.orderId]
  | _ => []

/-- The rows a query or an update passes over because they are not there, or no
longer meet its condition. -/
def Sql.skips : Sql → RowLock → Db → Prop
  | .lockOrder _, .order id, d => d.orders.lookup id = none
  | .updateReservation _ _ _, .order id, d => d.orders.lookup id = none
  | .lockInventory _ _, .stock key, d => d.inventory.lookup key = none
  | .updateInventory _, .stock key, d => d.inventory.lookup key = none
  | .settlePayment _ _, .payment id, d => ∀ row, d.payments.lookup id = some row → ¬ row.unsettled
  | .updatePayment _ entity, _, d => d.payments.lookup entity.id = none
  | _, _, _ => False

/-- A locking query answers with rows it has locked; `findOrder` is the answer
of `lockOrder`. -/
def Sql.answered : (s : Sql) → s.Result → List RowLock
  | .findOrder id, _ => [.order id]
  | .saveOrder entity, _ => [.order entity.id]
  | .lockInventory warehouseId _, rows => rows.map fun row => .stock (warehouseId, row.productId)
  | _, _ => []

def rowLocks : RowLocks Sql Sql.Result Db RowLock where
  rows := Sql.rows
  skips := Sql.skips
  answered := Sql.answered
  conflicts := RowLock.conflicts

/-- The transactions that wait for rows. Either save of a payment is for the
order it was made for. -/
inductive FlowBody {α : Type} : Tx α → Prop where
  | attempt (draft : Draft) (warehouseId : Uuid) (k : Order → α) :
      FlowBody (attemptCandidate draft warehouseId >>= fun order => pure (k order))
  | settle (call : SettleCall) (k : SettlementResult → α) :
      FlowBody (call.run >>= fun result => pure (k result))
  | pay (read : Option PaymentOrmEntity) (payment : PaymentOrmEntity) (a : α) :
      (∀ stored, read = some stored → stored.orderId = payment.orderId) →
      FlowBody (savePayment read payment >>= fun _ => pure a)

/-- What the two jobs find with `FOR UPDATE SKIP LOCKED`. -/
inductive Selection (d : Db) (free : RowLock → Prop) : List RowLock → Prop where
  | expired (locked : Lock → Bool) (now : Timestamptz) :
      (∀ id, locked (.order id) = false ↔ free (.order id)) → Selection d free
        ((d.selectExpiredReservations locked now).map (.order ·.id))
  | unsettled (locked : Lock → Bool) (now : Timestamptz) :
      (∀ id, locked (.payment id) = false ↔ free (.payment id)) → Selection d free
        ((d.selectUnsettledPayments locked now).map (.payment ·.id))

section Calm
variable {sure : List RowLock} {o w : Uuid} {α β : Type}

theorem covers_self {l : RowLock} (member : l ∈ sure) : Covers rowLocks sure l :=
  ⟨l, member, fun _ conflict => conflict⟩

/-- Who has locked the order's row has also locked its key. -/
theorem covers_orderKey (member : .order o ∈ sure) : Covers rowLocks sure (.orderKey o) := by
  refine ⟨_, member, fun l' conflict => ?_⟩
  cases l' <;> first | contradiction | (cases conflict; rfl)

theorem calm_query {s : Sql} (covered : ∀ l ∈ s.rows, Covers rowLocks sure l) :
    Calm rowLocks (query s) sure :=
  ⟨covered, fun _ => trivial⟩

theorem calm_query_bind {s : Sql} {k : s.Result → Tx α} (none_ : s.rows = [])
    (rest : ∀ r, Calm rowLocks (k r) (sure ++ s.answered r)) :
    Calm rowLocks (query s >>= k) sure :=
  ⟨by simp [rowLocks, none_], rest⟩

theorem calm_forM {xs : List α} {step : α → Tx Unit}
    (each : ∀ a ∈ xs, ∀ more, sure ⊆ more → Calm rowLocks (step a) more) :
    Calm rowLocks (xs.forM step) sure := by
  induction xs generalizing sure with
  | nil => trivial
  | cons a xs ih =>
    refine calm_bind (each a (by simp) sure (List.Subset.refl _)) fun _ more included => ?_
    exact ih fun b member more' included' =>
      each b (by simp [member]) more' (List.Subset.trans included included')

theorem calm_liftExcept_bind {result : Except Thrown α} {k : α → Tx β}
    (rest : ∀ a, result = .ok a → Calm rowLocks (k a) sure) :
    Calm rowLocks (liftExcept result >>= k) sure := by
  cases made : result with
  | error e => trivial
  | ok a => exact rest a made

theorem calm_saveOrder {order : Order} (member : .order order.id ∈ sure) :
    Calm rowLocks (saveOrder order) sure := by
  refine ⟨by simp [rowLocks, Sql.rows], fun _ => ⟨by simp [rowLocks, Sql.rows], fun _ => ?_⟩⟩
  refine ⟨?_, fun _ => trivial⟩
  intro l asked
  cases List.mem_singleton.mp asked
  exact covers_self (by simp [rowLocks, Sql.answered, member, orderToPersistence])

theorem calm_publish (event : DomainEvent) : Calm rowLocks (publish event) sure := by
  rw [publish]
  split
  · exact calm_forM fun _ _ _ _ => calm_query (by simp [Sql.rows])
  · trivial

theorem calm_post {x : Posting} (order : .order o ∈ sure) (stock : .stock (w, x.productId) ∈ sure) :
    Calm rowLocks (post o w x) sure := by
  refine calm_bind (calm_query ?_) fun _ more included => calm_query ?_
  · intro l asked
    cases List.mem_singleton.mp asked
    exact covers_self stock
  · intro l asked
    cases List.mem_singleton.mp asked
    exact covers_orderKey (included order)

theorem stock_locked {rows : List InventoryRow} {p : Uuid} {row : InventoryRow}
    (found : rowOf rows p = some row) :
    .stock (w, p) ∈ rows.map fun row => RowLock.stock (w, row.productId) := by
  have same : row.productId = p := by simpa using List.find?_some found
  exact List.mem_map.mpr ⟨row, List.mem_of_find?_eq_some found, by rw [same]⟩

theorem calm_reserveLine {command : ReserveCommand} {rows : List InventoryRow} {line : OrderLine}
    (order : .order command.orderId ∈ sure)
    (locked : (rows.map fun row => RowLock.stock (command.warehouseId, row.productId)) ⊆ sure) :
    Calm rowLocks (reserveLine command rows line) sure := by
  rw [reserveLine]
  split
  · exact calm_post order (locked (stock_locked ‹_›))
  · trivial

theorem calm_endReservation {closing : InventoryRow → Int → Posting} {command : ReleaseCommand}
    {rows : List InventoryRow} {p : Uuid} (order : .order command.orderId ∈ sure)
    (locked : (rows.map fun row => RowLock.stock (command.warehouseId, row.productId)) ⊆ sure)
    (productId : ∀ row q, (closing row q).productId = row.productId) :
    Calm rowLocks (endReservation closing command rows p) sure := by
  refine ⟨by simp [rowLocks, Sql.rows], fun latest => ?_⟩
  cases latest with
  | none => trivial
  | some latest =>
    simp only [Program.bind]
    split
    · trivial
    · split
      · trivial
      · rename_i row found
        have same : row.productId = p := by simpa using List.find?_some found
        refine calm_post (List.mem_append_left _ order) (List.mem_append_left _ (locked ?_))
        rw [productId, same]
        exact stock_locked found

end Calm

section Ordered
variable {may sure : List RowLock} {α : Type}

/-- The rows of a statement without locks to take. -/
theorem ordered_query_bind {s : Sql} {k : s.Result → Tx α} (none_ : s.rows = [])
    (rest : ∀ r, Ordered rowLocks RowLock.rank (k r) may (sure ++ s.answered r)) :
    Ordered rowLocks RowLock.rank (query s >>= k) may sure := by
  refine ⟨by simp [rowLocks, none_, Climbs], fun r => ?_⟩
  show Ordered rowLocks RowLock.rank (k r) (may ++ s.rows) _
  rw [none_, List.append_nil]
  exact rest r

/-- Inventory rows are locked by product, after everything else. -/
theorem ordered_lockInventory {w : Uuid} {ids : List Uuid} {onFault : DbError → Thrown}
    {k : List InventoryRow → Tx α} (below : ∀ l ∈ may, ∀ p, l.rank < toLex (3, p))
    (rest : ∀ rows, Calm rowLocks (k rows)
      (sure ++ rows.map fun row => .stock (w, row.productId))) :
    Ordered rowLocks RowLock.rank (.exec (.lockInventory w ids) onFault k) may sure := by
  refine ⟨climbs_of_rising ?_ ?_, fun rows => (rest rows).ordered⟩
  · have distinct : (ids.dedup.insertionSort (· ≤ ·)).Nodup :=
      (List.perm_insertionSort _ _).nodup_iff.mpr ids.nodup_dedup
    have sorted : (ids.dedup.insertionSort (· ≤ ·)).Pairwise (· < ·) :=
      ((List.pairwise_insertionSort (· ≤ ·) _).and distinct).imp fun both =>
        lt_of_le_of_ne both.1 both.2
    refine List.pairwise_map.mpr (sorted.imp fun less => ?_)
    exact Prod.Lex.toLex_lt_toLex.mpr (.inr ⟨rfl, less⟩)
  · intro l held l' asked
    obtain ⟨p, -, rfl⟩ := List.mem_map.mp asked
    exact below l held p

theorem ordered_reserve_bind {manager : EntityManager} {command : ReserveCommand} {k : Unit → Tx α}
    (order : .order command.orderId ∈ sure) (below : ∀ l ∈ may, ∀ p, l.rank < toLex (3, p))
    (rest : ∀ more, Calm rowLocks (k ()) more) :
    Ordered rowLocks RowLock.rank (reserve manager command >>= k) may sure := by
  refine ordered_query_bind rfl fun _ => ordered_lockInventory below fun rows => ?_
  show Calm rowLocks ((ite _ _ _ : Tx Unit) >>= k) _
  refine calm_bind ?_ fun _ more _ => rest more
  split
  · refine calm_bind (calm_forM fun line _ more included => ?_) fun _ more included => ?_
    · exact calm_reserveLine (included (by simp [order])) fun l locked =>
        included (List.mem_append_right _ locked)
    · refine calm_query fun l asked => ?_
      cases List.mem_singleton.mp asked
      exact covers_self (included (by simp [order]))
  · trivial

theorem ordered_attemptCandidate (draft : Draft) (warehouseId : Uuid) (k : Order → α) :
    Ordered rowLocks RowLock.rank
      (attemptCandidate draft warehouseId >>= fun order => pure (k order)) [] [] := by
  refine ordered_query_bind rfl fun now => ordered_query_bind rfl fun createdAt => ?_
  refine ordered_query_bind rfl fun updatedAt => ordered_query_bind rfl fun _ => ?_
  refine ordered_query_bind rfl fun _ => ⟨?_, fun _ => ?_⟩
  · exact climbs_of_rising (List.pairwise_singleton _ _) nofun
  show Ordered _ _ (liftExcept (draft.lines.mapM (draftItem draft.orderId)) >>= _ >>= _ >>= _) _ _
  cases made : draft.lines.mapM (draftItem draft.orderId) with
  | error e => trivial
  | ok items =>
    obtain ⟨-, owned⟩ := draftItems_eq made
    refine ⟨climbs_of_covers fun l asked => ?_, fun _ => ?_⟩
    · simp only [rowLocks, Sql.rows, List.map_map, List.mem_map] at asked
      obtain ⟨item, member, rfl⟩ := asked
      refine covers_orderKey ?_
      simp [rowLocks, Sql.answered, orderToPersistence, orderItemToPersistence, Draft.order,
        (owned item member).1]
    · show Ordered _ _ ((reserve ⟨now⟩ _ >>= fun _ => pure (draft.order _ _ _)) >>= _) _ _
      rw [Program.bind_assoc']
      refine ordered_reserve_bind ?_ (fun l held p => ?_) fun _ => trivial
      · simp [rowLocks, Sql.answered, orderToPersistence, Draft.order]
      · simp only [List.nil_append, rowLocks, Sql.rows, List.mem_append, List.mem_map] at held
        refine RowLock.rank_lt_stock (fun key is => ?_) p
        subst is
        simp at held

/-- Each transition first ends the reservations and then only rewrites the order. -/
theorem ordered_endReservations_bind {closing : InventoryRow → Int → Posting}
    {command : ReleaseCommand} {k : Unit → Tx α} (order : .order command.orderId ∈ sure)
    (below : ∀ l ∈ may, ∀ p, l.rank < toLex (3, p))
    (productId : ∀ row q, (closing row q).productId = row.productId)
    (rest : ∀ more, sure ⊆ more → Calm rowLocks (k ()) more) :
    Ordered rowLocks RowLock.rank (endReservations closing command >>= k) may sure := by
  refine ordered_query_bind rfl fun _ => ordered_lockInventory below fun rows => ?_
  show Calm rowLocks ((command.productIds.forM _ : Tx Unit) >>= k) _
  refine calm_bind (calm_forM fun p _ more included => ?_) fun _ more included => ?_
  · exact calm_endReservation (included (by simp [order]))
      (fun l locked => included (List.mem_append_right _ locked)) productId
  · exact rest more fun l member => included (by simp [member])

theorem ordered_transition (call : SettleCall) {context : SettleContext} {k : Order → Tx α}
    (order : .order context.order.id ∈ sure) (below : ∀ l ∈ may, ∀ p, l.rank < toLex (3, p))
    (rest : ∀ o more, Calm rowLocks (k o) more) :
    Ordered rowLocks RowLock.rank (call.transition context >>= k) may sure := by
  cases call with
  | confirmCaptured _ _ =>
    show Ordered _ _ ((commit context.command >>= _) >>= k) _ _
    rw [Program.bind_assoc']
    refine ordered_endReservations_bind order below (fun _ _ => rfl) fun more included => ?_
    refine calm_bind (calm_liftExcept_bind fun paid moved => ?_) fun o more _ => rest o more
    cases Order.markPaid_eq moved
    refine calm_query_bind rfl fun now => calm_liftExcept_bind fun confirmed moved => ?_
    cases Order.confirm_eq moved
    refine calm_bind (calm_saveOrder (by simp [included order])) fun _ _ _ => ?_
    exact calm_query_bind rfl fun _ => calm_bind (calm_publish _) fun _ _ _ => trivial
  | failDeclined _ _ =>
    show Ordered _ _ ((release context.command >>= _) >>= k) _ _
    rw [Program.bind_assoc']
    refine ordered_endReservations_bind order below (fun _ _ => rfl) fun more included => ?_
    refine calm_bind (calm_liftExcept_bind fun failed moved => ?_) fun o more _ => rest o more
    cases Order.markPaymentFailed_eq moved
    exact calm_bind (calm_saveOrder (included order)) fun _ _ _ => trivial
  | cancelUnpaid _ _ _ =>
    show Ordered _ _ ((release context.command >>= _) >>= k) _ _
    rw [Program.bind_assoc']
    refine ordered_endReservations_bind order below (fun _ _ => rfl) fun more included => ?_
    refine calm_bind (calm_query_bind rfl fun now => ?_) fun o more _ => rest o more
    refine calm_liftExcept_bind fun cancelled moved => ?_
    cases Order.cancel_eq moved
    exact calm_bind (calm_saveOrder (by simp [included order])) fun _ _ _ => trivial

theorem ordered_settle (call : SettleCall) (k : SettlementResult → α) :
    Ordered rowLocks RowLock.rank (call.run >>= fun result => pure (k result)) [] [] := by
  refine ordered_query_bind rfl fun now => ⟨?_, fun _ => ordered_query_bind rfl fun row => ?_⟩
  · exact climbs_of_rising (List.pairwise_singleton _ _) nofun
  show Ordered _ _ (liftExcept (orderToDomain row.val) >>= _ >>= _ : Tx α) _ _
  cases read : orderToDomain row.val with
  | error e => trivial
  | ok order =>
    have same : order.id = call.orderId := (orderToDomain_id read).trans row.property
    show Ordered _ _ ((ite _ _ _ : Tx SettlementResult) >>= _) _ _
    split
    · trivial
    · have rest : ∀ may sure, .order order.id ∈ sure → (∀ l ∈ may, ∀ p, l.rank < toLex (3, p)) →
          Ordered rowLocks RowLock.rank ((query (.findItems call.orderId) >>= fun items =>
            call.transition ⟨order, order.warehouseId.getD "", items.map (·.productId)⟩ >>= fun o =>
              pure ⟨.SETTLED, o⟩) >>= fun result => pure (k result)) may sure := by
        intro may sure locked below
        refine ordered_query_bind rfl fun items => ?_
        show Ordered _ _ ((call.transition _ >>= _) >>= _) _ _
        rw [Program.bind_assoc']
        exact ordered_transition call (by simp [locked]) below fun _ _ => trivial
      cases resolved : call.payment with
      | none =>
        refine rest _ _ (by simp [same, Sql.answered]) fun l held p => ?_
        cases List.mem_singleton.mp held
        exact RowLock.rank_lt_stock (by simp) p
      | some payment =>
        refine ⟨climbs_of_rising (List.pairwise_singleton _ _) fun l held l' asked => ?_, fun _ =>
          rest _ _ (by simp [same, Sql.answered]) fun l held p => RowLock.rank_lt_stock ?_ p⟩
        · cases List.mem_singleton.mp held
          cases List.mem_singleton.mp asked
          exact Prod.Lex.toLex_lt_toLex.mpr (.inl Nat.one_lt_two)
        · rintro key rfl
          simp [rowLocks, Sql.rows] at held

theorem ordered_savePayment {read : Option PaymentOrmEntity} {payment : PaymentOrmEntity} (a : α)
    (same : ∀ stored, read = some stored → stored.orderId = payment.orderId) :
    Ordered rowLocks RowLock.rank (savePayment read payment >>= fun _ => pure a) [] [] := by
  cases read with
  | none =>
    refine ⟨climbs_of_rising ?_ nofun, fun _ => trivial⟩
    exact List.pairwise_pair.mpr (Prod.Lex.toLex_lt_toLex.mpr (.inl Nat.zero_lt_one))
  | some stored =>
    refine ⟨climbs_of_rising ?_ nofun, fun _ => trivial⟩
    simp [rowLocks, Sql.rows, same stored rfl]

theorem FlowBody.ordered {body : Tx α} (flow : FlowBody body) :
    Ordered rowLocks RowLock.rank body [] [] := by
  cases flow with
  | attempt draft warehouseId k => exact ordered_attemptCandidate draft warehouseId k
  | settle call k => exact ordered_settle call k
  | pay read payment a same => exact ordered_savePayment a same

end Ordered

/-- Any number of these transactions, each taking its rows one at a time. -/
abbrev LockStep {α P : Type} [DecidableEq P] :
    LockTable Sql Sql.Result DbError Thrown Db Write RowLock α P →
      LockTable Sql Sql.Result DbError Thrown Db Write RowLock α P → Prop :=
  LockTable.Step store rowLocks (fun _ => FlowBody) Selection

/-- No transactions wait in a circle for rows of `orders`, `payments` and `inventory`. -/
theorem no_deadlock {α P : Type} [DecidableEq P] {d : Db}
    {s : LockTable Sql Sql.Result DbError Thrown Db Write RowLock α P}
    (run : Relation.ReflTransGen LockStep { data := d } s) (p : P) :
    ¬ Relation.TransGen (s.WaitsFor rowLocks) p p :=
  LockTable.free_of_deadlock RowLock.conflicts_symm RowLock.rank_of_conflicts FlowBody.ordered run p

/-- A row found before its payment is saved belongs to the payment's order. -/
def Ctl.Rereads : Ctl → Prop
  | .saving save (some stored) => stored.orderId = save.payment.orderId
  | _ => True

section Processes
variable {P : Type} [DecidableEq P] {catalogue : Catalogue} {sha256 : String → String}
  {stock : Stock} {clock : Timestamptz} {s : Processes P}

theorem Moves.rereads {d : Db} {env env' : Env} {ctl ctl' : Ctl}
    (moves : Moves d env ctl env' ctl') (alone : ctl.Alone d) : ctl'.Rereads := by
  cases moves with
  | @find save =>
    cases found : d.payments.lookup save.payment.id with
    | none => trivial
    | some row => exact (alone.1 row found).1
  | _ => trivial

theorem Commits.rereads {d after : Db} {ctl ctl' : Ctl} (commits : Commits d ctl after ctl') :
    ctl'.Rereads := by
  cases commits <;> trivial

theorem Rewinds.rereads {ctl ctl' : Ctl} (rewinds : Rewinds ctl ctl') : ctl'.Rereads := by
  cases rewinds <;> trivial

theorem Runs.rereads (run : Reachable catalogue sha256 stock clock s) (p : P) :
    (s.session p).ctl.Rereads := by
  refine run.invariant (I := fun a => ∀ p, (a.ctl p).Rereads) (fun _ => trivial) ?_ p
  intro u b before rereads does _
  cases does with
  | commit commits => exact Committed.forall_goto commits.rereads fun q _ => rereads q
  | rewind rewinds => exact Committed.forall_goto rewinds.rereads fun q _ => rereads q
  | move moves =>
    exact Committed.forall_goto (moves.rereads (before.owned.alone _)) fun q _ => rereads q
  | happen _ => exact rereads

/-- Every transaction the processes begin is one of these. -/
theorem Runs.flowBody (run : Reachable catalogue sha256 stock clock s) {p : P} {body : Tx Ctl}
    (here : (s.session p).ctl.body = some body) : FlowBody body := by
  have rereads := run.rereads p
  cases at_ : (s.session p).ctl <;> rw [at_] at here rereads <;> cases here
  case allocating allocation =>
    exact .attempt allocation.draft allocation.candidate fun order =>
      Ctl.reserved ⟨allocation.command, order⟩
  case saving save stored =>
    refine .pay stored save.payment save.saved ?_
    rintro read rfl
    exact rereads
  case settling saga chargeResult call => exact .settle call (saga.settled chargeResult)
  case resolving call rest => exact .settle call fun _ => Ctl.running rest

/-- A transaction that a process of some reachable state is about to begin. -/
def Begun (P : Type) [DecidableEq P] (catalogue : Catalogue) (sha256 : String → String)
    (stock : Stock) (clock : Timestamptz) (body : Tx Ctl) : Prop :=
  ∃ (s : Processes P) (p : P), Reachable catalogue sha256 stock clock s ∧
    (s.session p).ctl.body = some body

/-- So the sagas and the jobs, whatever states of the system their transactions come from, never
wait for each other's rows in a circle. -/
theorem processes_free_of_deadlock {d : Db}
    {t : LockTable Sql Sql.Result DbError Thrown Db Write RowLock Ctl P}
    (run : Relation.ReflTransGen (LockTable.Step store rowLocks
      (fun _ => Begun P catalogue sha256 stock clock) Selection) { data := d } t) (p : P) :
    ¬ Relation.TransGen (t.WaitsFor rowLocks) p p := by
  refine LockTable.free_of_deadlock RowLock.conflicts_symm RowLock.rank_of_conflicts ?_ run p
  rintro d body ⟨s, q, reached, here⟩
  exact (reached.flowBody here).ordered

end Processes

section Witness
variable {P : Type} [DecidableEq P]
  {s t : LockTable Sql Sql.Result DbError Thrown Db Write RowLock SettlementResult P} {p : P}

theorem put_put {tx tx' : Waiter Sql Sql.Result DbError Thrown Write RowLock SettlementResult} :
    (s.put p tx).put p tx' = s.put p tx' := by
  simp [LockTable.put]

theorem put_tx {tx : Waiter Sql Sql.Result DbError Thrown Write RowLock SettlementResult} :
    (s.put p tx).tx p = some tx := by
  simp [LockTable.put]

theorem lockStep_issue {stmt : Sql} {onFault : DbError → Thrown}
    {next : stmt.Result → Tx SettlementResult} {writes : List Write} :
    LockStep (s.put p ⟨.exec stmt onFault next, writes, none⟩)
      (s.put p ⟨.exec stmt onFault next, writes, some stmt.rows⟩) := by
  have issued : LockStep (s.put p ⟨.exec stmt onFault next, writes, none⟩) _ := .issue put_tx
  rwa [put_put] at issued

theorem lockStep_startTransaction {onFault : DbError → Thrown}
    {next : Timestamptz → Tx SettlementResult} :
    LockStep (s.put p ⟨.exec .startTransaction onFault next, [], some []⟩)
      (s.put p ⟨next ⟨0⟩, [], none⟩) := by
  have started : LockStep (s.put p ⟨.exec .startTransaction onFault next, [], some []⟩) _ :=
    .exec (i := ⟨⟨0⟩, 0⟩) put_tx rfl nofun
  rwa [put_put] at started

/-- A settlement comes to ask for its order's row. -/
theorem settlement_asks (run : Relation.ReflTransGen LockStep t s) (idle : s.tx p = none)
    (call : SettleCall) : ∃ rest, Relation.ReflTransGen LockStep t
      (s.put p ⟨rest, [], some [.order call.orderId]⟩) := by
  have begins : LockStep s (s.put p { rest := call.run >>= fun result => pure result }) :=
    .begin idle (.settle call id)
  exact ⟨_, (((run.tail begins).tail lockStep_issue).tail
    lockStep_startTransaction).tail lockStep_issue⟩

theorem settlement_locks (run : Relation.ReflTransGen LockStep t s) (idle : s.tx p = none)
    (call : SettleCall) (free : s.Free rowLocks p (.order call.orderId)) :
    ∃ rest, Relation.ReflTransGen LockStep t
      { s.put p ⟨rest, [], some []⟩ with held := s.held ++ [(.order call.orderId, p)] } := by
  obtain ⟨rest, asks⟩ := settlement_asks run idle call
  have locks : LockStep (s.put p ⟨rest, [], some [.order call.orderId]⟩) _ := .acquire put_tx free
  rw [put_put] at locks
  exact ⟨rest, asks.tail locks⟩

/-- Two settlements of one order: the second waits for the first. -/
theorem no_deadlock_lamp :
    ∃ s : LockTable Sql Sql.Result DbError Thrown Db Write RowLock SettlementResult Bool,
      Relation.ReflTransGen LockStep { data := {} } s ∧ s.WaitsFor rowLocks true false ∧
      ∀ p, ¬ Relation.TransGen (s.WaitsFor rowLocks) p p := by
  obtain ⟨_, locks⟩ := settlement_locks (s := { data := {} }) (p := false) .refl rfl
    (.failDeclined "order 0" none) nofun
  obtain ⟨_, run⟩ := settlement_asks (p := true) locks (by simp [LockTable.put])
    (.cancelUnpaid "order 0" "" none)
  refine ⟨_, run, ⟨by decide, ?_⟩, no_deadlock run⟩
  exact ⟨_, _, .order "order 0", _, .order "order 0", put_tx, List.mem_singleton.mpr rfl, rfl⟩

end Witness

end Canals
