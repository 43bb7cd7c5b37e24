import Canals.Orders.CreateOrderSpec
import Canals.Orders.SettlementSpec
import Mathlib.Algebra.BigOperators.Group.List.Basic

/-! The books. An order's movements are determined by its status, and the stock
of a warehouse by the orders allocated to it: `Consistent`. Reserving an order
and settling one keep it so. -/
namespace Canals

/-- The movements an order in this status has of a line of quantity `q`. -/
def OrderStatus.ledger : OrderStatus → Int → List (MovementType × Int)
  | .PENDING_PAYMENT, q => [(.RESERVE, -q)]
  | .CONFIRMED, q => [(.RESERVE, -q), (.COMMIT, 0)]
  | .PAYMENT_FAILED, q | .CANCELLED, q => [(.RESERVE, -q), (.RELEASE, q)]
  | .PAID, _ => []

def Movement.entry (m : Movement) : MovementType × Int := (m.type, m.quantityDelta)

namespace Db

/-- Order `o` has this status and is allocated to `w`. -/
def placed (d : Db) (o : Uuid) (status : OrderStatus) (w : Uuid) : Bool :=
  (d.orders.lookup o).any fun row => row.status = status ∧ row.warehouseId = some w

/-- The units of `p` over the orders in this status allocated to `w`. -/
def quantityIn (d : Db) (status : OrderStatus) (w p : Uuid) : Int :=
  ((d.orderItems.filter fun item =>
    item.productId = p ∧ d.placed item.orderId status w).map (·.quantity)).sum

/-- The units of `p` in order `o`. -/
def shareOf (d : Db) (o p : Uuid) : Int :=
  (((d.itemsOf o).filter (·.productId = p)).map (·.quantity)).sum

end Db

/-- Order `o` is at a warehouse that stocks its lines, and its movements are
those of its status. -/
structure OrderConsistent (d : Db) (o : Uuid) (row : OrderRow) (w : Uuid) : Prop where
  status : row.status ≠ .PAID
  warehouseId : row.warehouseId = some w
  distinct : ((d.itemsOf o).map (·.productId)).Nodup
  positive : ∀ item ∈ d.itemsOf o, 0 < item.quantity
  stocked : ∀ item ∈ d.itemsOf o, (d.inventory.lookup (w, item.productId)).isSome
  ledger : ∀ item ∈ d.itemsOf o,
    (d.movementsOf o item.productId).map (·.entry) = row.status.ledger item.quantity
  sorted : ∀ p, (d.movementsOf o p).Pairwise (·.id < ·.id)
  closed : ∀ p, ∀ m ∈ d.movementsOf o p, m.warehouseId = w ∧ p ∈ (d.itemsOf o).map (·.productId)

/-- The books balance: `A₀` is what each inventory row started with. -/
structure Consistent (A₀ : Uuid × Uuid → Int) (d : Db) : Prop where
  orders : ∀ o row, d.orders.lookup o = some row → ∃ w, OrderConsistent d o row w
  itemsOwned : ∀ item ∈ d.orderItems, (d.orders.lookup item.orderId).isSome
  movementsOwned : ∀ m ∈ d.movements, (d.orders.lookup m.orderId).isSome
  balances : ∀ w p b, d.inventory.lookup (w, p) = some b → 0 ≤ b.available ∧
    b.reserved = d.quantityIn .PENDING_PAYMENT w p ∧
    b.available + b.reserved + d.quantityIn .CONFIRMED w p = A₀ (w, p)

variable {A₀ : Uuid × Uuid → Int} {d after : Db} {o p w : Uuid} {row : OrderRow}
  {status : OrderStatus}

theorem sum_filter_split {α : Type} (l : List α) (inside wanted : α → Bool) (f : α → Int) :
    ((l.filter wanted).map f).sum = (((l.filter inside).filter wanted).map f).sum +
      (((l.filter fun a => !inside a).filter wanted).map f).sum := by
  induction l with
  | nil => rfl
  | cons a l ih =>
    cases within : inside a <;> cases want : wanted a <;>
      simp_all <;> omega

/-- The units in a status, with order `o`'s own share apart. -/
theorem quantityIn_split (d : Db) (o : Uuid) (status : OrderStatus) (w p : Uuid) :
    d.quantityIn status w p = (if d.placed o status w then d.shareOf o p else 0) +
      (((d.orderItems.filter fun item => !decide (item.orderId = o)).filter fun item =>
        item.productId = p ∧ d.placed item.orderId status w).map (·.quantity)).sum := by
  rw [Db.quantityIn, sum_filter_split d.orderItems (fun item => decide (item.orderId = o))]
  congr 1
  split
  · rename_i here
    rw [Db.shareOf, Db.itemsOf]
    congr 2
    refine List.filter_congr fun item member => ?_
    have mine : item.orderId = o := by simpa using (List.mem_filter.mp member).2
    simp [mine, here]
  · rename_i other
    have none_of : ((d.orderItems.filter fun item => decide (item.orderId = o)).filter fun item =>
        decide (item.productId = p ∧ d.placed item.orderId status w)) = [] := by
      refine List.filter_eq_nil_iff.mpr fun item member => ?_
      have mine : item.orderId = o := by simpa using (List.mem_filter.mp member).2
      simp [mine, other]
    rw [none_of]
    rfl

/-- What the other orders hold does not depend on order `o`. -/
theorem quantityElsewhere_congr (orders : ∀ o' ≠ o, after.orders.lookup o' = d.orders.lookup o')
    (items : (after.orderItems.filter fun item => !decide (item.orderId = o)) =
      d.orderItems.filter fun item => !decide (item.orderId = o)) :
    (((after.orderItems.filter fun item => !decide (item.orderId = o)).filter fun item =>
        item.productId = p ∧ after.placed item.orderId status w).map (·.quantity)).sum =
      (((d.orderItems.filter fun item => !decide (item.orderId = o)).filter fun item =>
        item.productId = p ∧ d.placed item.orderId status w).map (·.quantity)).sum := by
  rw [items]
  congr 2
  refine List.filter_congr fun item member => ?_
  have other : item.orderId ≠ o := by simpa using (List.mem_filter.mp member).2
  have same : after.placed item.orderId status w = d.placed item.orderId status w := by
    simp only [Db.placed, orders _ other]
  rw [same]

theorem sum_filter_unique {items : List OrderItemRow} (distinct : (items.map (·.productId)).Nodup)
    {item : OrderItemRow} (member : item ∈ items) :
    ((items.filter (·.productId = item.productId)).map (·.quantity)).sum = item.quantity := by
  induction items with
  | nil => cases member
  | cons head items ih =>
    obtain ⟨fresh, distinct⟩ := List.nodup_cons.mp distinct
    rcases List.mem_cons.mp member with rfl | later
    · have rest : items.filter (·.productId = item.productId) = [] := by
        refine List.filter_eq_nil_iff.mpr fun other there same => fresh ?_
        exact List.mem_map.mpr ⟨other, there, by simpa using same⟩
      simp [rest]
    · have other : head.productId ≠ item.productId := by
        intro same
        exact fresh (List.mem_map.mpr ⟨item, later, same.symm⟩)
      simpa [List.filter_cons, other] using ih distinct later

theorem shareOf_eq (distinct : ((d.itemsOf o).map (·.productId)).Nodup) {item : OrderItemRow}
    (member : item ∈ d.itemsOf o) : d.shareOf o item.productId = item.quantity :=
  sum_filter_unique distinct member

theorem shareOf_eq_zero (absent : p ∉ (d.itemsOf o).map (·.productId)) : d.shareOf o p = 0 := by
  have none_of : (d.itemsOf o).filter (·.productId = p) = [] := by
    refine List.filter_eq_nil_iff.mpr fun item member same => absent ?_
    exact List.mem_map.mpr ⟨item, member, by simpa using same⟩
  simp [Db.shareOf, none_of]

theorem OrderConsistent.shareOf_pos {w' : Uuid} (books : OrderConsistent d o row w')
    {item : OrderItemRow} (member : item ∈ d.itemsOf o) :
    d.shareOf o item.productId = item.quantity ∧ 0 < item.quantity :=
  ⟨shareOf_eq books.distinct member, books.positive item member⟩

/-- A pending line is held open, in the amount it was reserved in. -/
theorem OrderConsistent.openReservation (books : OrderConsistent d o row w)
    (pending : row.status = .PENDING_PAYMENT) {item : OrderItemRow}
    (member : item ∈ d.itemsOf o) : ∃ b : Balance,
      d.inventory.lookup (w, item.productId) = some b ∧
      d.openReservation o w item.productId =
        some (⟨item.productId, b.available, b.reserved⟩, item.quantity) := by
  obtain ⟨b, balance⟩ := Option.isSome_iff_exists.mp (books.stocked item member)
  have log := books.ledger item member
  rw [pending] at log
  obtain ⟨m, only, entry⟩ := List.map_eq_singleton_iff.mp log
  obtain ⟨reserve, delta⟩ := Prod.mk.inj entry
  refine ⟨b, balance, ?_⟩
  have newest : d.latest o item.productId = some m := by
    simp [Db.latest, only]
  have positive := books.positive item member
  simp only [Db.openReservation, newest, balance, reserve, delta, Int.natAbs_neg]
  simp [Int.natAbs_of_nonneg (Int.le_of_lt positive)]

/-- Only what an order's own rows say matters to its consistency. -/
theorem OrderConsistent.congr (books : OrderConsistent d o row w)
    (items : after.itemsOf o = d.itemsOf o)
    (movements : ∀ p, after.movementsOf o p = d.movementsOf o p)
    (inventory : ∀ k, (d.inventory.lookup k).isSome → (after.inventory.lookup k).isSome) :
    OrderConsistent after o row w where
  status := books.status
  warehouseId := books.warehouseId
  distinct := items ▸ books.distinct
  positive := items ▸ books.positive
  stocked item member := inventory _ (books.stocked item (items ▸ member))
  ledger item member := by
    rw [movements]
    exact books.ledger item (items ▸ member)
  sorted p := movements p ▸ books.sorted p
  closed p m member := by
    rw [items]
    exact books.closed p m (movements p ▸ member)

theorem Posted.stocked {postings : List Posting} (posted : Posted o w postings d after)
    (k : Uuid × Uuid) (known : (d.inventory.lookup k).isSome) :
    (after.inventory.lookup k).isSome := by
  by_cases hit : ∃ x ∈ postings, k = (w, x.productId)
  · obtain ⟨x, member, rfl⟩ := hit
    obtain ⟨v, found⟩ := posted.balance x member
    simp [found]
  · rw [posted.balance_frame k fun x member same => hit ⟨x, member, same⟩]
    exact known

/-- The books do not speak of payments and jobs. -/
theorem Consistent.congr (books : Consistent A₀ d) (orders : after.orders = d.orders)
    (orderItems : after.orderItems = d.orderItems) (inventory : after.inventory = d.inventory)
    (movements : after.movements = d.movements) : Consistent A₀ after := by
  refine ⟨fun o row found => ?_, ?_, ?_, fun w p b found => ?_⟩
  · obtain ⟨w, own⟩ := books.orders o row (orders ▸ found)
    refine ⟨w, own.congr ?_ (fun p => ?_) fun k known => inventory ▸ known⟩
    · simp only [Db.itemsOf, orderItems]
    · simp only [Db.movementsOf, movements]
  · exact orders ▸ orderItems ▸ books.itemsOwned
  · exact orders ▸ movements ▸ books.movementsOwned
  · simp only [Db.quantityIn, Db.placed, orders, orderItems]
    exact books.balances w p b (inventory ▸ found)

theorem quantity_pos (books : Consistent A₀ d) {item : OrderItemRow}
    (member : item ∈ d.orderItems) : 0 < item.quantity := by
  obtain ⟨row, stored⟩ := Option.isSome_iff_exists.mp (books.itemsOwned item member)
  obtain ⟨w, own⟩ := books.orders _ _ stored
  exact own.positive item (List.mem_filter.mpr ⟨member, decide_eq_true rfl⟩)

theorem sum_nonneg_of_items {items : List OrderItemRow}
    (positive : ∀ item ∈ items, 0 < item.quantity) : 0 ≤ (items.map (·.quantity)).sum := by
  induction items with
  | nil => exact le_rfl
  | cons item items ih =>
      have head := positive item List.mem_cons_self
      have tail := ih fun other member => positive other (List.mem_cons_of_mem item member)
      rw [List.map_cons, List.sum_cons]
      omega

theorem Consistent.quantityIn_nonneg (books : Consistent A₀ d) : 0 ≤ d.quantityIn status w p := by
  apply sum_nonneg_of_items
  intro item member
  exact quantity_pos books (List.mem_of_mem_filter member)

section Settles
variable {call : SettleCall} {createdAt : Date} {row' : OrderRow}

/-- The settled order keeps its warehouse, and no other order is touched. -/
theorem Settles.settledRow (done : Settles call createdAt row d after) : ∃ row',
    after.orders.lookup call.orderId = some row' ∧ row'.status = call.target ∧
    row'.warehouseId = row.warehouseId ∧ row'.totalCents = row.totalCents ∧
    row'.currency = row.currency ∧
    ∀ o ≠ call.orderId, after.orders.lookup o = d.orders.lookup o := by
  obtain ⟨row', inserted, status, -, frame⟩ := done.order
  have columns := congrArg (fun r : OrderRow => (r.warehouseId, r.totalCents, r.currency)) frame
  simp only [Prod.mk.injEq] at columns
  refine ⟨row', ?_, status, columns.1, columns.2.1, columns.2.2, fun o other => ?_⟩
  · rw [inserted]
    exact AList.lookup_insert _
  · rw [inserted]
    exact AList.lookup_insert_ne other

/-- A settlement posts once for each line, out of the line's current balance. -/
theorem closesReservation_iff (books : OrderConsistent d call.orderId row w)
    (pending : row.status = .PENDING_PAYMENT) {x : Posting} :
    ClosesReservation call row d x ↔ ∃ item ∈ d.itemsOf call.orderId, ∃ b : Balance,
      d.inventory.lookup (w, item.productId) = some b ∧
      x = call.closing ⟨item.productId, b.available, b.reserved⟩ item.quantity := by
  have warehouse : row.warehouseId.getD "" = w := by simp [books.warehouseId]
  rw [ClosesReservation, warehouse]
  refine exists_congr fun item => and_congr_right fun member => ?_
  obtain ⟨b, balance, held⟩ := books.openReservation pending member
  constructor
  · rintro ⟨stock, q, held', rfl⟩
    cases held.symm.trans held'
    exact ⟨b, balance, rfl⟩
  · rintro ⟨b', balance', rfl⟩
    cases balance.symm.trans balance'
    exact ⟨_, _, held, rfl⟩

theorem SettleCall.ledger_closing (call : SettleCall) (stock : InventoryRow) (q : Int) :
    OrderStatus.PENDING_PAYMENT.ledger q ++
      [((call.closing stock q).type, (call.closing stock q).quantityDelta)] =
        call.target.ledger q := by
  cases call <;> rfl

/-- What a settlement does to the units in each status. -/
theorem Settles.quantityIn (done : Settles call createdAt row d after)
    (stored : d.orders.lookup call.orderId = some row) (pending : row.status = .PENDING_PAYMENT)
    (warehouse : row.warehouseId = some w) (status : OrderStatus) (w' p : Uuid) :
    after.quantityIn status w' p = d.quantityIn status w' p +
      if w' = w then (if status = call.target then d.shareOf call.orderId p else 0) -
        (if status = .PENDING_PAYMENT then d.shareOf call.orderId p else 0) else 0 := by
  obtain ⟨row', stored', target, warehouse', -, -, others⟩ := done.settledRow
  have share : after.shareOf call.orderId p = d.shareOf call.orderId p := by
    simp only [Db.shareOf, Db.itemsOf, done.orderItems]
  rw [quantityIn_split after call.orderId, quantityIn_split d call.orderId, share,
    quantityElsewhere_congr others (by rw [done.orderItems])]
  simp only [Db.placed, stored, stored', Option.any_some, target, warehouse', warehouse, pending,
    decide_eq_true_eq, Option.some.injEq]
  by_cases here : w' = w
  · subst here
    simp only [and_true, if_true, eq_comm]
    omega
  · simp [here, Ne.symm here]

/-- The postings of a settlement, line by line. -/
theorem Settles.posted (done : Settles call createdAt row d after)
    (books : OrderConsistent d call.orderId row w) (pending : row.status = .PENDING_PAYMENT) :
    ∃ postings, Posted call.orderId w postings d
        { d with inventory := after.inventory, movements := after.movements } ∧
      distinctProducts postings ∧ ∀ x, x ∈ postings ↔ ∃ item ∈ d.itemsOf call.orderId,
        ∃ b : Balance, d.inventory.lookup (w, item.productId) = some b ∧
        x = call.closing ⟨item.productId, b.available, b.reserved⟩ item.quantity := by
  obtain ⟨postings, posted, distinct, only⟩ := done.postings
  have warehouse : row.warehouseId.getD "" = w := by simp [books.warehouseId]
  exact ⟨postings, warehouse ▸ posted, distinct,
    fun x => (only x).trans (closesReservation_iff books pending)⟩

/-- Every line of the settled order gets one more movement, the closing one. -/
theorem Settles.line (done : Settles call createdAt row d after)
    (books : OrderConsistent d call.orderId row w) (pending : row.status = .PENDING_PAYMENT)
    {item : OrderItemRow} (member : item ∈ d.itemsOf call.orderId) : ∃ m : Movement,
      m.warehouseId = w ∧
      OrderStatus.PENDING_PAYMENT.ledger item.quantity ++ [m.entry] =
        call.target.ledger item.quantity ∧
      after.movementsOf call.orderId item.productId =
        d.movementsOf call.orderId item.productId ++ [m] ∧
      ∀ m' ∈ d.movementsOf call.orderId item.productId, m'.id < m.id := by
  obtain ⟨postings, posted, distinct, only⟩ := done.posted books pending
  obtain ⟨b, balance⟩ := Option.isSome_iff_exists.mp (books.stocked item member)
  have inside := (only _).mpr ⟨item, member, b, balance, rfl⟩
  obtain ⟨m, record, grown, newer⟩ := posted.movementsOf_posted distinct inside
  rw [call.closes.productId] at grown newer
  refine ⟨m, record.warehouseId, ?_, grown, newer⟩
  rw [Movement.entry, record.type, record.quantityDelta]
  exact call.ledger_closing _ _

/-- Products the order does not have keep their movements. -/
theorem Settles.line_frame (done : Settles call createdAt row d after)
    (books : OrderConsistent d call.orderId row w) (pending : row.status = .PENDING_PAYMENT)
    {o p : Uuid} (other : o ≠ call.orderId ∨ p ∉ (d.itemsOf call.orderId).map (·.productId)) :
    after.movementsOf o p = d.movementsOf o p := by
  obtain ⟨postings, posted, distinct, only⟩ := done.posted books pending
  refine posted.movementsOf_frame (other.imp_right fun absent x inside same => absent ?_)
  obtain ⟨item, member, b, -, rfl⟩ := (only x).mp inside
  exact List.mem_map.mpr ⟨item, member, (call.closes.productId _ _).symm.trans same⟩

/-- The settled order's own rows: one closing movement behind each RESERVE. -/
theorem Settles.orderConsistent (done : Settles call createdAt row d after)
    (books : OrderConsistent d call.orderId row w) (pending : row.status = .PENDING_PAYMENT)
    {row' : OrderRow} (target : row'.status = call.target)
    (warehouse' : row'.warehouseId = row.warehouseId) :
    OrderConsistent after call.orderId row' w := by
  have items : after.itemsOf call.orderId = d.itemsOf call.orderId := by
    simp only [Db.itemsOf, done.orderItems]
  obtain ⟨postings, posted, -, -⟩ := done.posted books pending
  refine ⟨?_, warehouse'.trans books.warehouseId, items ▸ books.distinct, items ▸ books.positive,
    fun item member => ?_, fun item member => ?_, fun p => ?_, fun p m member => ?_⟩
  · rw [target]
    intro failed
    cases call <;> cases failed
  · exact posted.stocked _ (books.stocked item (items ▸ member))
  · rw [items] at member
    obtain ⟨m, -, log, grown, -⟩ := done.line books pending member
    rw [grown, List.map_append, books.ledger item member, pending, target, ← log]
    rfl
  · by_cases ordered : p ∈ (d.itemsOf call.orderId).map (·.productId)
    · obtain ⟨item, member, rfl⟩ := List.mem_map.mp ordered
      obtain ⟨m, -, -, grown, newer⟩ := done.line books pending member
      rw [grown, List.pairwise_append]
      exact ⟨books.sorted _, by simp, by simpa using newer⟩
    · exact done.line_frame books pending (.inr ordered) ▸ books.sorted p
  · rw [items]
    by_cases ordered : p ∈ (d.itemsOf call.orderId).map (·.productId)
    · refine ⟨?_, ordered⟩
      obtain ⟨item, inside, rfl⟩ := List.mem_map.mp ordered
      obtain ⟨m', warehouse, -, grown, -⟩ := done.line books pending inside
      rw [grown, List.mem_append, List.mem_singleton] at member
      rcases member with old | rfl
      · exact (books.closed _ m old).1
      · exact warehouse
    · exact books.closed p m (done.line_frame books pending (.inr ordered) ▸ member)

/-- The balances move with the units: what is closed leaves the reserved
column, and returns to the available one unless it was sold. -/
theorem Settles.balances (done : Settles call createdAt row d after) (books : Consistent A₀ d)
    (stored : d.orders.lookup call.orderId = some row) (pending : row.status = .PENDING_PAYMENT)
    (own : OrderConsistent d call.orderId row w) {w' p : Uuid} {b' : Balance}
    (found : after.inventory.lookup (w', p) = some b') : 0 ≤ b'.available ∧
      b'.reserved = after.quantityIn .PENDING_PAYMENT w' p ∧
      b'.available + b'.reserved + after.quantityIn .CONFIRMED w' p = A₀ (w', p) := by
  obtain ⟨postings, posted, -, only⟩ := done.posted own pending
  rw [done.quantityIn stored pending own.warehouseId, done.quantityIn stored pending own.warehouseId]
  by_cases line : w' = w ∧ p ∈ (d.itemsOf call.orderId).map (·.productId)
  · obtain ⟨rfl, ordered⟩ := line
    obtain ⟨item, member, rfl⟩ := List.mem_map.mp ordered
    obtain ⟨b, balance⟩ := Option.isSome_iff_exists.mp (own.stocked item member)
    have inside := (only _).mpr ⟨item, member, b, balance, rfl⟩
    obtain ⟨v, found'⟩ := posted.balance _ inside
    rw [call.closes.productId] at found'
    cases found.symm.trans found'
    obtain ⟨share, positive⟩ := own.shareOf_pos member
    obtain ⟨available, reserved, total⟩ := books.balances _ _ b balance
    rw [share]
    cases call <;> simp [SettleCall.closing, commitPosting, releasePosting, SettleCall.target] <;>
      omega
  · have same : after.inventory.lookup (w', p) = d.inventory.lookup (w', p) := by
      refine posted.balance_frame _ fun x inside same => line ?_
      obtain ⟨item, member, b, -, rfl⟩ := (only x).mp inside
      rw [call.closes.productId, Prod.mk.injEq] at same
      exact ⟨same.1, List.mem_map.mpr ⟨item, member, same.2.symm⟩⟩
    have none_of : w' = w → d.shareOf call.orderId p = 0 := fun here =>
      shareOf_eq_zero fun ordered => line ⟨here, ordered⟩
    have kept : ∀ status : OrderStatus, (if w' = w then
        (if status = call.target then d.shareOf call.orderId p else 0) -
          (if status = .PENDING_PAYMENT then d.shareOf call.orderId p else 0) else 0) = 0 := by
      intro status
      split
      · simp [none_of ‹_›]
      · rfl
    rw [kept, kept, Int.add_zero, Int.add_zero]
    exact books.balances w' p b' (same ▸ found)

/-- Settling an order keeps the books. -/
theorem Settles.consistent (done : Settles call createdAt row d after) (books : Consistent A₀ d)
    (stored : d.orders.lookup call.orderId = some row) (pending : row.status = .PENDING_PAYMENT) :
    Consistent A₀ after := by
  obtain ⟨w, own⟩ := books.orders _ _ stored
  obtain ⟨row', stored', target, warehouse', -, -, others⟩ := done.settledRow
  obtain ⟨postings, posted, -, -⟩ := done.posted own pending
  have known : ∀ o, (d.orders.lookup o).isSome → (after.orders.lookup o).isSome := by
    intro o here
    by_cases mine : o = call.orderId
    · rw [mine, stored']
      rfl
    · exact others o mine ▸ here
  refine ⟨fun o found lookup => ?_, fun item member => ?_, fun m member => ?_, ?_⟩
  · by_cases mine : o = call.orderId
    · subst mine
      cases stored'.symm.trans lookup
      exact ⟨w, done.orderConsistent own pending target warehouse'⟩
    · rw [others o mine] at lookup
      obtain ⟨w', theirs⟩ := books.orders o found lookup
      refine ⟨w', theirs.congr ?_ (fun p => done.line_frame own pending (.inl mine)) ?_⟩
      · simp only [Db.itemsOf, done.orderItems]
      · exact posted.stocked
  · exact known _ (books.itemsOwned item (done.orderItems ▸ member))
  · obtain ⟨ms, added, records, -⟩ := posted.movements
    simp only at added
    rw [added, List.mem_append] at member
    rcases member with old | new
    · exact known _ (books.movementsOwned m old)
    · obtain ⟨x, -, record⟩ := forall₂_right records new
      rw [record.orderId, stored']
      rfl
  · exact fun w' p b' found => done.balances books stored pending own found

end Settles

theorem Consistent.itemsOf_fresh (books : Consistent A₀ d) (fresh : d.orders.lookup o = none) :
    d.itemsOf o = [] := by
  refine List.filter_eq_nil_iff.mpr fun item member mine => ?_
  have owned := books.itemsOwned item member
  rw [show item.orderId = o by simpa using mine, fresh] at owned
  simp at owned

theorem Consistent.movementsOf_fresh (books : Consistent A₀ d) (fresh : d.orders.lookup o = none)
    (p : Uuid) : d.movementsOf o p = [] := by
  refine List.filter_eq_nil_iff.mpr fun m member mine => ?_
  have owned := books.movementsOwned m member
  simp only [decide_eq_true_eq] at mine
  rw [mine.1, fresh] at owned
  simp at owned

section Reserved
variable {draft : Draft} {items : List OrderItemRow}

theorem itemsOf_added (added : after.orderItems = d.orderItems ++ items)
    (owned : ∀ item ∈ items, item.orderId = draft.orderId) (o : Uuid) :
    after.itemsOf o = d.itemsOf o ++ if o = draft.orderId then items else [] := by
  rw [Db.itemsOf, added, List.filter_append, Db.itemsOf]
  congr 1
  split
  · rename_i here
    exact List.filter_eq_self.mpr fun item member => by simp [owned item member, here]
  · rename_i other
    refine List.filter_eq_nil_iff.mpr fun item member mine => other ?_
    rw [← owned item member]
    exact (by simpa using mine : item.orderId = o).symm

theorem Reserved.quantityIn (done : Reserved draft w d after)
    (fresh : d.orders.lookup draft.orderId = none) (status : OrderStatus) (w' p : Uuid) :
    after.quantityIn status w' p = d.quantityIn status w' p +
      if status = .PENDING_PAYMENT ∧ w' = w then after.shareOf draft.orderId p else 0 := by
  obtain ⟨row, inserted, pending, warehouse, -, -⟩ := done.order
  obtain ⟨items, postings, added, owned, -⟩ := done.items
  have others : ∀ o ≠ draft.orderId, after.orders.lookup o = d.orders.lookup o := by
    intro o other
    rw [inserted]
    exact AList.lookup_insert_ne other
  have outside : (after.orderItems.filter fun item => !decide (item.orderId = draft.orderId)) =
      d.orderItems.filter fun item => !decide (item.orderId = draft.orderId) := by
    have none_of : (items.filter fun item => !decide (item.orderId = draft.orderId)) = [] :=
      List.filter_eq_nil_iff.mpr fun item member => by simp [(owned item member).1]
    rw [added, List.filter_append, none_of, List.append_nil]
  have placed : after.placed draft.orderId status w' =
      decide (status = .PENDING_PAYMENT ∧ w' = w) := by
    simp only [Db.placed, inserted, AList.lookup_insert, Option.any_some, pending, warehouse,
      Option.some.injEq, eq_comm]
  have unplaced : d.placed draft.orderId status w' = false := by
    simp [Db.placed, fresh]
  rw [quantityIn_split after draft.orderId, quantityIn_split d draft.orderId, placed, unplaced,
    quantityElsewhere_congr others outside]
  simp only [decide_eq_true_eq, Bool.false_eq_true, if_false]
  omega

/-- The new order's own rows: one RESERVE for each item. -/
theorem Reserved.orderConsistent (done : Reserved draft w d after) (books : Consistent A₀ d)
    (fresh : d.orders.lookup draft.orderId = none) {row : OrderRow}
    (stored : after.orders.lookup draft.orderId = some row) :
    OrderConsistent after draft.orderId row w := by
  obtain ⟨row', inserted, pending, warehouse, -, -⟩ := done.order
  rw [inserted, AList.lookup_insert] at stored
  cases stored
  obtain ⟨items, postings, added, owned, distinct, posted, products, stocked⟩ := done.items
  have mine : after.itemsOf draft.orderId = items := by
    rw [itemsOf_added added fun item member => (owned item member).1,
      books.itemsOf_fresh fresh]
    simp
  have line : ∀ item ∈ items, ∃ m : Movement, m.warehouseId = w ∧
      m.entry = (.RESERVE, -item.quantity) ∧
      after.movementsOf draft.orderId item.productId = [m] := by
    intro item member
    obtain ⟨b, -, -, posting⟩ := stocked item member
    obtain ⟨m, record, grown, -⟩ := posted.movementsOf_posted
      (by simpa [distinctProducts, products] using distinct) posting
    rw [books.movementsOf_fresh fresh] at grown
    exact ⟨m, record.warehouseId, Prod.ext record.type record.quantityDelta, grown⟩
  have empty : ∀ p, p ∉ items.map (·.productId) → after.movementsOf draft.orderId p = [] := by
    intro p absent
    refine (posted.movementsOf_frame (.inr fun x inside same => absent ?_)).trans
      (books.movementsOf_fresh fresh p)
    rw [← products]
    exact List.mem_map.mpr ⟨x, inside, same⟩
  refine ⟨by simp [pending], warehouse, mine ▸ distinct,
    mine ▸ fun item member => (owned item member).2, ?_, ?_, fun p => ?_, fun p m member => ?_⟩
  · intro item member
    obtain ⟨b, balance, -⟩ := stocked item (mine ▸ member)
    exact posted.stocked _ (by simp [balance])
  · intro item member
    obtain ⟨m, -, entry, only⟩ := line item (mine ▸ member)
    rw [only, pending]
    simp [entry, OrderStatus.ledger]
  · by_cases ordered : p ∈ items.map (·.productId)
    · obtain ⟨item, member, rfl⟩ := List.mem_map.mp ordered
      obtain ⟨m, -, -, only⟩ := line item member
      simp [only]
    · simp [empty p ordered]
  · rw [mine]
    by_cases ordered : p ∈ items.map (·.productId)
    · refine ⟨?_, ordered⟩
      obtain ⟨item, inside, rfl⟩ := List.mem_map.mp ordered
      obtain ⟨m', there, -, only⟩ := line item inside
      rw [only, List.mem_singleton] at member
      exact member ▸ there
    · simp [empty p ordered] at member

theorem Reserved.balances (done : Reserved draft w d after) (books : Consistent A₀ d)
    (fresh : d.orders.lookup draft.orderId = none) {w' p : Uuid} {b' : Balance}
    (found : after.inventory.lookup (w', p) = some b') : 0 ≤ b'.available ∧
      b'.reserved = after.quantityIn .PENDING_PAYMENT w' p ∧
      b'.available + b'.reserved + after.quantityIn .CONFIRMED w' p = A₀ (w', p) := by
  rw [done.quantityIn fresh, done.quantityIn fresh]
  obtain ⟨items, postings, added, owned, distinct, posted, products, stocked⟩ := done.items
  have mine : after.itemsOf draft.orderId = items := by
    rw [itemsOf_added added fun item member => (owned item member).1,
      books.itemsOf_fresh fresh]
    simp
  by_cases line : w' = w ∧ p ∈ items.map (·.productId)
  · obtain ⟨rfl, ordered⟩ := line
    obtain ⟨item, member, rfl⟩ := List.mem_map.mp ordered
    obtain ⟨b, balance, enough, posting⟩ := stocked item member
    obtain ⟨v, found'⟩ := posted.balance _ posting
    cases found.symm.trans found'
    obtain ⟨available, reserved, total⟩ := books.balances _ _ b balance
    rw [shareOf_eq (mine ▸ distinct) (mine ▸ member)]
    simp only [and_self, if_true, reduceCtorEq, false_and, if_false]
    omega
  · have same : after.inventory.lookup (w', p) = d.inventory.lookup (w', p) := by
      refine posted.balance_frame _ fun x inside same => line ?_
      obtain ⟨rfl, rfl⟩ := Prod.mk.inj same
      exact ⟨rfl, products ▸ List.mem_map_of_mem inside⟩
    have none_of : w' = w → after.shareOf draft.orderId p = 0 := fun here =>
      shareOf_eq_zero fun ordered => line ⟨here, mine ▸ ordered⟩
    have kept : ∀ status : OrderStatus, (if status = .PENDING_PAYMENT ∧ w' = w then
        after.shareOf draft.orderId p else 0) = 0 := by
      intro status
      split
      · rename_i here
        exact none_of here.2
      · rfl
    rw [kept, kept, Int.add_zero, Int.add_zero]
    exact books.balances w' p b' (same ▸ found)

/-- Reserving a new order keeps the books. -/
theorem Reserved.consistent (done : Reserved draft w d after) (books : Consistent A₀ d)
    (fresh : d.orders.lookup draft.orderId = none) : Consistent A₀ after := by
  obtain ⟨row, inserted, -⟩ := done.order
  obtain ⟨items, postings, added, owned, -, posted, -⟩ := done.items
  have stored : after.orders.lookup draft.orderId = some row := by
    rw [inserted]
    exact AList.lookup_insert _
  have others : ∀ o ≠ draft.orderId, after.orders.lookup o = d.orders.lookup o := by
    intro o other
    rw [inserted]
    exact AList.lookup_insert_ne other
  have known : ∀ o, (d.orders.lookup o).isSome → (after.orders.lookup o).isSome := by
    intro o here
    by_cases mine : o = draft.orderId
    · rw [mine, stored]
      rfl
    · exact others o mine ▸ here
  refine ⟨fun o found lookup => ?_, fun item member => ?_, fun m member => ?_,
    fun w' p b' found => done.balances books fresh found⟩
  · by_cases mine : o = draft.orderId
    · subst mine
      exact ⟨w, done.orderConsistent books fresh lookup⟩
    · rw [others o mine] at lookup
      obtain ⟨w', theirs⟩ := books.orders o found lookup
      refine ⟨w', theirs.congr ?_ (fun p => ?_) posted.stocked⟩
      · rw [itemsOf_added added fun item member => (owned item member).1]
        simp [mine]
      · exact posted.movementsOf_frame (.inl mine)
  · rw [added, List.mem_append] at member
    rcases member with old | new
    · exact known _ (books.itemsOwned item old)
    · rw [(owned item new).1, stored]
      rfl
  · obtain ⟨ms, grown, records, -⟩ := posted.movements
    simp only at grown
    rw [grown, List.mem_append] at member
    rcases member with old | new
    · exact known _ (books.movementsOwned m old)
    · obtain ⟨x, -, record⟩ := forall₂_right records new
      rw [record.orderId, stored]
      rfl

end Reserved

end Canals
