import Canals.System.Charges

/-! The constraints of `InitialSchema` on the tables of the order flow. The statements check
the balances, the quantities and the products of an order, and `UNIQUE (order_number)` is left
to the database; the foreign keys and the unique indexes of `payments` hold in every reachable
state, so no statement is ever refused for them. That an order is billed once carries the
latter. -/
namespace Canals
open Locking

/-- The order and the attempt a payments row is for. -/
def Db.bill (d : Db) (i : Uuid) : Option (Uuid × Nat) :=
  (d.payments.lookup i).map fun row => (row.orderId, row.attempt)

def Db.Unbilled (d : Db) (o : Uuid) : Prop :=
  ∀ i attempt, d.bill i ≠ some (o, attempt)

/-- Each payments row is the first attempt of an order and its only one. -/
def Db.Billed (d : Db) : Prop :=
  ∀ {i o attempt}, d.bill i = some (o, attempt) → attempt = FIRST_PAYMENT_ATTEMPT ∧
    (d.orders.lookup o).isSome ∧ ∀ {j attempt'}, d.bill j = some (o, attempt') → i = j

/-- The constraints of `InitialSchema` beside the primary keys and the unique `order_number`.
A product and a warehouse are there when the inventory has a row of them, which references
both. -/
structure Db.Upholds (d : Db) : Prop where
  availableCheck : ∀ {key b}, d.inventory.lookup key = some b → 0 ≤ b.available
  reservedCheck : ∀ {key b}, d.inventory.lookup key = some b → 0 ≤ b.reserved
  itemOrder : ∀ item ∈ d.orderItems, ∃ row w, d.orders.lookup item.orderId = some row ∧
    row.warehouseId = some w ∧ (d.inventory.lookup (w, item.productId)).isSome
  itemQuantity : ∀ item ∈ d.orderItems, 0 < item.quantity
  itemUnique : d.orderItems.Pairwise fun item other =>
    item.orderId = other.orderId → item.productId ≠ other.productId
  movementOrder : ∀ m ∈ d.movements, (d.orders.lookup m.orderId).isSome
  movementStock : ∀ m ∈ d.movements, (d.inventory.lookup (m.warehouseId, m.productId)).isSome
  paymentOrder : ∀ {i row}, d.payments.lookup i = some row → (d.orders.lookup row.orderId).isSome
  paymentKey : ∀ {i j row other}, d.payments.lookup i = some row →
    d.payments.lookup j = some other → row.idempotencyKey = other.idempotencyKey → i = j
  paymentAttempt : ∀ {i j row other}, d.payments.lookup i = some row →
    d.payments.lookup j = some other → row.orderId = other.orderId →
      row.attempt = other.attempt → i = j
  oneCaptured : ∀ {i j row other}, d.payments.lookup i = some row →
    d.payments.lookup j = some other → row.orderId = other.orderId →
      row.status = .CAPTURED → other.status = .CAPTURED → i = j

/-- A first attempt whose row is there. -/
def PaymentOrmEntity.Filed (d : Db) (payment : PaymentOrmEntity) : Prop :=
  payment.attempt = FIRST_PAYMENT_ATTEMPT ∧ (d.bill payment.id).isSome

/-- Until its first save the order has no payments row, from then on it has. -/
def PaymentSave.Bills (d : Db) (save : PaymentSave) : Prop :=
  save.payment.attempt = FIRST_PAYMENT_ATTEMPT ∧
    (save.chargeResult = none → d.Unbilled save.saga.order.id) ∧
    (save.chargeResult ≠ none → (d.bill save.payment.id).isSome)

def Ctl.Bills (d : Db) : Ctl → Prop
  | allocating allocation => d.Unbilled allocation.draft.orderId
  | reserved saga => d.Unbilled saga.order.id
  | finding save | saving save _ => save.Bills d
  | charging _ payment _ | charged _ payment _ => payment.Filed d
  | _ => True

structure Billing {P : Type} (a : World P) : Prop where
  billed : a.data.Billed
  ctl : ∀ p, (a.ctl p).Bills a.data

section Bills
variable {d after : Db} {mine : List Uuid} {ctl : Ctl} {o : Uuid}

theorem Db.bill_eq {i : Uuid} {row : PaymentRow} (found : d.payments.lookup i = some row) :
    d.bill i = some (row.orderId, row.attempt) := by
  rw [bill, found]
  rfl

/-- A commit that adds no payments row, or the one that adds the first of its order. -/
inductive Bookkeeps (d after : Db) : List Uuid → Prop where
  | same {ids} : (∀ i, after.bill i = d.bill i) → Bookkeeps d after ids
  | first {i o} : d.bill i = none → d.Unbilled o → (d.orders.lookup o).isSome →
      (∀ j, after.bill j = if j = i then some (o, FIRST_PAYMENT_ATTEMPT) else d.bill j) →
      Bookkeeps d after [o, i]

theorem Bookkeeps.billed (keeps : Bookkeeps d after mine) (billed : d.Billed)
    (orders : ∀ {o}, (d.orders.lookup o).isSome → (after.orders.lookup o).isSome) :
    after.Billed := by
  intro i o attempt found
  cases keeps with
  | same same =>
    rw [same] at found
    obtain ⟨first, order, single⟩ := billed found
    exact ⟨first, orders order, fun other => single ((same _).symm.trans other)⟩
  | @first i' o' fresh unbilled order new =>
    rw [new] at found
    split at found
    · rename_i here
      cases found
      refine ⟨rfl, orders order, fun {j attempt'} other => ?_⟩
      rw [new] at other
      split at other
      · rename_i there
        exact here.trans there.symm
      · exact absurd other (unbilled j attempt')
    · obtain ⟨first, order, single⟩ := billed found
      refine ⟨first, orders order, fun {j attempt'} other => ?_⟩
      rw [new] at other
      split at other
      · cases other
        exact absurd found (unbilled i attempt)
      · exact single other

theorem Bookkeeps.isSome (keeps : Bookkeeps d after mine) {i : Uuid}
    (found : (d.bill i).isSome) : (after.bill i).isSome := by
  cases keeps with
  | same same => rwa [same]
  | first fresh unbilled order new =>
    rw [new]
    split
    · rfl
    · exact found

theorem Bookkeeps.unbilled (keeps : Bookkeeps d after mine) (apart : o ∉ mine)
    (unbilled : d.Unbilled o) : after.Unbilled o := by
  intro j attempt found
  cases keeps with
  | same same => exact unbilled j attempt ((same j).symm.trans found)
  | first fresh other order new =>
    rw [new] at found
    split at found
    · cases found
      exact apart (by simp)
    · exact unbilled j attempt found

/-- What another process commits leaves the bills of a process alone. -/
theorem Ctl.Bills.keeps (bills : ctl.Bills d) (keeps : Bookkeeps d after mine)
    (apart : ∀ i ∈ ctl.owns, i ∉ mine) : ctl.Bills after := by
  cases ctl with
  | allocating allocation => exact keeps.unbilled (apart _ (by simp [owns])) bills
  | reserved saga => exact keeps.unbilled (apart _ (by simp [owns])) bills
  | finding save =>
    exact ⟨bills.1, fun first => keeps.unbilled (apart _ (by simp [owns])) (bills.2.1 first),
      fun second => keeps.isSome (bills.2.2 second)⟩
  | saving save stored =>
    exact ⟨bills.1, fun first => keeps.unbilled (apart _ (by simp [owns])) (bills.2.1 first),
      fun second => keeps.isSome (bills.2.2 second)⟩
  | charging _ payment _ => exact ⟨bills.1, keeps.isSome bills.2⟩
  | charged _ payment _ => exact ⟨bills.1, keeps.isSome bills.2⟩
  | _ => trivial

/-- The second save finds the row the first has left. -/
theorem Saves.bill_updated {payment : PaymentOrmEntity} {stored : Option PaymentOrmEntity}
    (saves : Saves payment d stored after) (own : payment.Mine d) (billed : d.Billed)
    (filed : payment.Filed d) (i : Uuid) : after.bill i = d.bill i := by
  cases saves with
  | inserted absent =>
    have known := filed.2
    rw [Db.bill, absent] at known
    cases known
  | missed => rfl
  | @updated read row present =>
    by_cases same : i = payment.id
    · subst same
      have attempt : row.attempt = payment.attempt :=
        (billed (Db.bill_eq present)).1.trans filed.1.symm
      rw [Db.bill_eq present, Db.bill_eq (AList.lookup_insert _)]
      simp only [PaymentRow.update, saveColumn, PaymentColumns.map, (own row present).1, attempt,
        ite_self]
    · simp only [Db.bill, AList.lookup_insert_ne same]

theorem Saves.bill_inserted {payment : PaymentOrmEntity}
    (saves : Saves payment d none after) (first : payment.attempt = FIRST_PAYMENT_ATTEMPT) :
    d.bill payment.id = none ∧ ∀ j, after.bill j =
      if j = payment.id then some (payment.orderId, FIRST_PAYMENT_ATTEMPT) else d.bill j := by
  cases saves with
  | inserted absent =>
    refine ⟨by rw [Db.bill, absent]; rfl, fun j => ?_⟩
    split
    · rename_i same
      subst same
      rw [Db.bill_eq (AList.lookup_insert _), ← first]
      rfl
    · rename_i other
      simp only [Db.bill, AList.lookup_insert_ne other]

theorem Settled.bill {call : SettleCall} {result : SettlementResult}
    (settled : Settled call d after result) (i : Uuid) : after.bill i = d.bill i := by
  cases settled with
  | already _ _ _ same => rw [same]
  | now row createdAt stored pending done =>
    obtain ⟨now, payments⟩ := done.payments
    rw [Db.bill, payments]
    rcases settledPayments_spec d call.payment now i with same | ⟨row, payment, there, -, -, -, new⟩
    · rw [same]
      rfl
    · rw [new, Db.bill_eq there]
      rfl

end Bills

section Steps
variable {d after : Db} {env env' : Env} {ctl ctl' : Ctl} {service : Provider.ChargeService}

theorem Commits.bills (commits : Commits d ctl after ctl') (alone : ctl.Alone d)
    (backed : ctl.Backed d service) (billed : d.Billed) (bills : ctl.Bills d) :
    ctl'.Bills after ∧ Bookkeeps d after ctl.owns := by
  have second : ∀ {save : PaymentSave} {stored chargeResult},
      save.chargeResult = some chargeResult → Saves save.payment d stored after →
      save.Alone d → save.Bills d → ∀ i, after.bill i = d.bill i := by
    intro save stored chargeResult has saves alone bills
    exact saves.bill_updated alone.1 billed ⟨bills.1, bills.2.2 (by rw [has]; nofun)⟩
  cases commits with
  | reserve ran =>
    obtain ⟨done, createdAt, updatedAt, rfl⟩ := attemptCandidate_spec alone ran
    have same : ∀ i, after.bill i = d.bill i := fun i => by rw [Db.bill, done.payments]; rfl
    exact ⟨fun i attempt found => bills i attempt ((same i).symm.trans found), .same same⟩
  | @insert save stored _ first saves =>
    cases alone.2 first
    obtain ⟨fresh, new⟩ := saves.bill_inserted bills.1
    obtain ⟨row, placed, -⟩ := backed.placed
    rw [backed.pays.1] at new
    refine ⟨⟨bills.1, ?_⟩, .first fresh (bills.2.1 first) (by rw [placed]; rfl) new⟩
    rw [new, if_pos rfl]
    rfl
  | record has _ saves => exact ⟨trivial, .same (second has saves alone.1 bills)⟩
  | leave has _ saves => exact ⟨trivial, .same (second has saves alone.1 bills)⟩
  | confirm _ settled => exact ⟨trivial, .same settled.bill⟩
  | decline _ settled => exact ⟨trivial, .same settled.bill⟩
  | resolve settled => exact ⟨trivial, .same settled.bill⟩

theorem Rewinds.bills (rewinds : Rewinds ctl ctl') (bills : ctl.Bills d) : ctl'.Bills d := by
  cases rewinds with
  | retry => exact bills
  | _ => trivial

theorem Moves.bills (moves : Moves d env ctl env' ctl') (billed : d.Billed)
    (orders : ∀ {o row}, d.orders.lookup o = some row → o ∈ env.ids) (bills : ctl.Bills d) :
    ctl'.Bills d := by
  cases moves with
  | @start orderId allocation fresh mine =>
    intro i attempt found
    obtain ⟨-, order, -⟩ := billed found
    obtain ⟨row, stored⟩ := Option.isSome_iff_exists.mp order
    exact fresh (mine ▸ orders stored)
  | pay fresh => exact ⟨rfl, fun _ => bills, fun second => absurd rfl second⟩
  | find => exact bills
  | sendCharge _ | retryCharge _ _ | charge _ => exact bills
  | record => exact ⟨bills.1, nofun, fun _ => bills.2⟩
  | _ => trivial

variable {P : Type} [DecidableEq P] {catalogue : Catalogue} {sha256 : String → String}
  {a b : World P}

theorem Billing.step (billing : Billing a) (does : Does sha256 a b) (owned : Owned a)
    (backed : Backed a) : Billing b := by
  cases does with
  | @commit p after ctl commits =>
    obtain ⟨next, keeps⟩ :=
      commits.bills (owned.alone p) (backed.ctl p) billing.billed (billing.ctl p)
    obtain ⟨evolves, -⟩ := commits.owned (owned.alone p)
    refine ⟨keeps.billed billing.billed fun known => ?_, Committed.forall_goto next
      fun q other => (billing.ctl q).keeps keeps fun i theirs own =>
        other (owned.exclusive q p i theirs own)⟩
    obtain ⟨row, found⟩ := Option.isSome_iff_exists.mp known
    obtain ⟨later, found', -⟩ := evolves.orders found
    exact Option.isSome_iff_exists.mpr ⟨later, found'⟩
  | rewind rewinds =>
    exact ⟨billing.billed, Committed.forall_goto (rewinds.bills (billing.ctl _))
      fun q _ => billing.ctl q⟩
  | move moves =>
    exact ⟨billing.billed, Committed.forall_goto
      (moves.bills billing.billed owned.orders (billing.ctl _)) fun q _ => billing.ctl q⟩
  | happen _ => exact ⟨billing.billed, billing.ctl⟩

omit [DecidableEq P] in
theorem billing_initial {stock : Stock} {clock : Timestamptz} :
    Billing (initial P stock clock).committed :=
  ⟨nofun, fun _ => trivial⟩

theorem Runs.billing {Meets : World P → World P → Prop} {stock : Stock} {clock : Timestamptz}
    {s : Processes P} (run : Runs catalogue sha256 Meets stock clock s) : Billing s.committed :=
  run.invariant billing_initial fun before billing does _ =>
    billing.step does before.owned before.backed

end Steps

section Constraints
variable {A₀ : Uuid × Uuid → Int} {d : Db}

/-- Distinct products within each order make order and product distinct throughout. -/
theorem pairwise_of_itemsOf {items : List OrderItemRow}
    (distinct : ∀ o, ((items.filter (·.orderId = o)).map (·.productId)).Nodup) :
    items.Pairwise fun item other =>
      item.orderId = other.orderId → item.productId ≠ other.productId := by
  induction items with
  | nil => exact .nil
  | cons item items ih =>
    refine .cons (fun other member same product => ?_) (ih fun o => ?_)
    · have here := distinct item.orderId
      rw [List.filter_cons_of_pos (by simp), List.map_cons, List.nodup_cons] at here
      refine here.1 (product ▸ List.mem_map_of_mem (List.mem_filter.mpr ⟨member, ?_⟩))
      simpa using same.symm
    · have here := distinct o
      rw [List.filter_cons] at here
      split at here
      · exact (List.nodup_cons.mp here).2
      · exact here

theorem Consistent.orderOf (books : Consistent A₀ d) {o : Uuid}
    (known : (d.orders.lookup o).isSome) :
    ∃ row w, d.orders.lookup o = some row ∧ OrderConsistent d o row w := by
  obtain ⟨row, found⟩ := Option.isSome_iff_exists.mp known
  obtain ⟨w, own⟩ := books.orders o row found
  exact ⟨row, w, found, own⟩

/-- Balanced books and orders billed once are what the constraints ask for. -/
theorem Consistent.upholds (books : Consistent A₀ d) (billed : d.Billed)
    (keyed : ∀ {i row}, d.payments.lookup i = some row →
      row.idempotencyKey = chargeKey row.orderId) : d.Upholds := by
  have single : ∀ {i j row other}, d.payments.lookup i = some row →
      d.payments.lookup j = some other → row.orderId = other.orderId → i = j :=
    fun found found' same => (billed (same ▸ Db.bill_eq found)).2.2 (Db.bill_eq found')
  have itemOf : ∀ {item}, item ∈ d.orderItems → item ∈ d.itemsOf item.orderId :=
    fun member => List.mem_filter.mpr ⟨member, by simp⟩
  refine {
    availableCheck := fun {key b} found => (books.balances key.1 key.2 b found).1
    reservedCheck := fun {key b} found =>
      (books.balances key.1 key.2 b found).2.1 ▸ books.quantityIn_nonneg
    itemOrder := fun item member => ?_
    itemQuantity := fun item member => ?_
    itemUnique := pairwise_of_itemsOf fun o => ?_
    movementOrder := books.movementsOwned
    movementStock := fun m member => ?_
    paymentOrder := fun found => (billed (Db.bill_eq found)).2.1
    paymentKey := fun found found' same =>
      single found found' (chargeKey_inj ((keyed found).symm.trans (same.trans (keyed found'))))
    paymentAttempt := fun found found' same _ => single found found' same
    oneCaptured := fun found found' same _ _ => single found found' same }
  · obtain ⟨row, w, found, own⟩ := books.orderOf (books.itemsOwned item member)
    exact ⟨row, w, found, own.warehouseId, own.stocked item (itemOf member)⟩
  · obtain ⟨row, w, -, own⟩ := books.orderOf (books.itemsOwned item member)
    exact own.positive item (itemOf member)
  · by_cases any : ∃ item ∈ d.orderItems, item.orderId = o
    · obtain ⟨item, member, rfl⟩ := any
      obtain ⟨row, w, -, own⟩ := books.orderOf (books.itemsOwned item member)
      exact own.distinct
    · rw [List.filter_eq_nil_iff.mpr fun item member mine =>
        any ⟨item, member, by simpa using mine⟩]
      exact .nil
  · obtain ⟨row, w, -, own⟩ := books.orderOf (books.movementsOwned m member)
    have mine : m ∈ d.movementsOf m.orderId m.productId := List.mem_filter.mpr ⟨member, by simp⟩
    obtain ⟨same, ordered⟩ := own.closed m.productId m mine
    obtain ⟨item, listed, product⟩ := List.mem_map.mp ordered
    rw [same, ← product]
    exact own.stocked item listed

end Constraints

section Runs
variable {P : Type} [DecidableEq P] {catalogue : Catalogue} {sha256 : String → String}
  {stock : Stock} {clock : Timestamptz} {s : Processes P}

/-- In every reachable state the tables uphold these constraints of the schema, and each
order has one payments row at most. A saga before the first save of its payment finds no
row of its order or its key there. -/
theorem schema_upheld (run : Reachable catalogue sha256 stock clock s) :
    s.data.Upholds ∧
    (∀ {i j row other}, s.data.payments.lookup i = some row →
      s.data.payments.lookup j = some other → row.orderId = other.orderId →
        i = j ∧ row.attempt = FIRST_PAYMENT_ATTEMPT) ∧
    ∀ {p save stored}, (s.session p).ctl = .saving save stored → save.chargeResult = none →
      ∀ {i row}, s.data.payments.lookup i = some row →
        row.orderId ≠ save.payment.orderId ∧ row.idempotencyKey ≠ save.payment.idempotencyKey := by
  have billing := run.billing
  have backed := run.backed
  refine ⟨run.consistent.upholds billing.billed backed.payments,
    fun {i j row other} found found' same => ?_, fun {p save stored} before first i row found => ?_⟩
  · obtain ⟨attempt, -, single⟩ := billing.billed (Db.bill_eq found)
    exact ⟨single (same ▸ Db.bill_eq found'), attempt⟩
  · have bills := billing.ctl p
    have rests := backed.ctl p
    rw [show s.committed.ctl p = .saving save stored from before] at bills rests
    obtain ⟨orderId, key⟩ := rests.pays
    have other : row.orderId ≠ save.saga.order.id := by
      intro mine
      exact bills.2.1 first i row.attempt (mine ▸ Db.bill_eq found)
    refine ⟨orderId ▸ other, fun same => other (chargeKey_inj ?_)⟩
    exact (backed.payments found).symm.trans (same.trans key)

theorem schema_upheld_lamp : (lampSold.data.payments.keys.length = 1 ∧
    lampSold.data.orderItems.length = 1) ∧ lampSold.data.Upholds :=
  ⟨by decide +kernel, (schema_upheld lampSold_reachable).1⟩

end Runs

end Canals
