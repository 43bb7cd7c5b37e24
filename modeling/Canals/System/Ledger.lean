import Canals.Orders.Replay
import Canals.System.Ownership

/-! The books in every state the system can reach: each order's movements follow
from its status, and each inventory row from the orders at its warehouse. -/
namespace Canals
open Locking

variable {P : Type} [DecidableEq P] {catalogue : Catalogue} {sha256 : String → String}

section Invariant
variable {a b : World P} {A₀ : Uuid × Uuid → Int} {d after : Db}

theorem Settled.consistent {call : SettleCall} {result : SettlementResult}
    (settled : Settled call d after result) (books : Consistent A₀ d) : Consistent A₀ after := by
  cases settled with
  | already row _ _ same => exact same ▸ books
  | now row createdAt stored pending done => exact done.consistent books stored pending

theorem Saves.consistent {payment : PaymentOrmEntity} {stored : Option PaymentOrmEntity}
    (saves : Saves payment d stored after) (books : Consistent A₀ d) : Consistent A₀ after := by
  cases saves with
  | inserted _ => exact books.congr rfl rfl rfl rfl
  | updated _ => exact books.congr rfl rfl rfl rfl
  | missed _ => exact books

theorem consistent_step (does : Does sha256 a b) (owned : Owned a)
    (books : Consistent A₀ a.data) : Consistent A₀ b.data := by
  cases does with
  | @commit p after ctl commits =>
    have alone := owned.alone p
    generalize a.ctl p = before at commits alone
    cases commits with
    | reserve ran => exact (attemptCandidate_spec alone ran).1.consistent books alone
    | insert _ saves | record _ _ saves | leave _ _ saves => exact saves.consistent books
    | confirm _ settled | decline _ settled | resolve settled => exact settled.consistent books
  | rewind _ => exact books
  | move _ => exact books
  | happen _ => exact books

theorem Settled.replayed {call : SettleCall} {result : SettlementResult}
    {start : Uuid × Uuid → Option (Int × Int)} (settled : Settled call d after result)
    (books : Consistent A₀ d) (replayed : Replayed start d) : Replayed start after := by
  cases settled with
  | already row _ _ same => exact same ▸ replayed
  | now row createdAt stored pending done =>
    obtain ⟨w, own⟩ := books.orders _ _ stored
    exact done.replayed own pending replayed

theorem Saves.replayed {payment : PaymentOrmEntity} {stored : Option PaymentOrmEntity}
    {start : Uuid × Uuid → Option (Int × Int)} (saves : Saves payment d stored after)
    (replayed : Replayed start d) : Replayed start after := by
  cases saves with
  | inserted _ => exact replayed.congr rfl rfl
  | updated _ => exact replayed.congr rfl rfl
  | missed _ => exact replayed

theorem replayed_step {start : Uuid × Uuid → Option (Int × Int)} (does : Does sha256 a b)
    (owned : Owned a) (books : Consistent A₀ a.data) (replayed : Replayed start a.data) :
    Replayed start b.data := by
  cases does with
  | @commit p after ctl commits =>
    have alone := owned.alone p
    generalize a.ctl p = before at commits alone
    cases commits with
    | reserve ran => exact (attemptCandidate_spec alone ran).1.replayed books alone replayed
    | insert _ saves | record _ _ saves | leave _ _ saves => exact saves.replayed replayed
    | confirm _ settled | decline _ settled | resolve settled =>
      exact settled.replayed books replayed
  | rewind _ => exact replayed
  | move _ => exact replayed
  | happen _ => exact replayed

/-- No inventory row disappears. -/
def Db.Stocks (d : Db) (key : Uuid × Uuid) : Prop := (d.inventory.lookup key).isSome

theorem stocks_step {key : Uuid × Uuid} (does : Does sha256 a b) (owned : Owned a)
    (stocks : a.data.Stocks key) : b.data.Stocks key := by
  cases does with
  | @commit p after ctl commits =>
    have alone := owned.alone p
    generalize a.ctl p = before at commits alone
    have settles : ∀ {call result}, Settled call a.data after result → after.Stocks key := by
      rintro call result (⟨row, _, _, rfl⟩ | ⟨row, createdAt, _, _, done⟩)
      · exact stocks
      · obtain ⟨postings, posted, -⟩ := done.postings
        exact posted.stocked key stocks
    cases commits with
    | reserve ran =>
      obtain ⟨items, postings, -, -, -, posted, -⟩ := (attemptCandidate_spec alone ran).1.items
      exact posted.stocked key stocks
    | insert _ saves | record _ _ saves | leave _ _ saves => cases saves <;> exact stocks
    | confirm _ settled | decline _ settled | resolve settled => exact settles settled
  | rewind _ => exact stocks
  | move _ => exact stocks
  | happen _ => exact stocks

theorem consistent_stock (stock : Stock) :
    Consistent stock.units { inventory := stock.inventory } where
  orders o row found := by simp at found
  itemsOwned item member := by simp at member
  movementsOwned m member := by simp at member
  balances w p b found := by
    obtain ⟨available, reserved⟩ := stock.unreserved found
    have units : stock.units (w, p) = b.available := by
      simp only [Stock.units]
      rw [show stock.inventory.lookup (w, p) = some b from found]
      rfl
    refine ⟨available, reserved, ?_⟩
    rw [units, reserved]
    simp [Db.quantityIn]

end Invariant

section Lamp

def lampCatalogue : Catalogue where
  customers := ["customer"]
  products := [⟨"lamp", "SKU-1", "Lamp", 1250, true, false⟩]

def lampCommand : CreateOrderCommand where
  customerId := "customer"
  shippingAddress := { recipient := "Ada", line1 := "1 Main St", city := "Denver", country := "US" }
  lines := [⟨"lamp", 2⟩]
  cardNumber := "4111111111111111"

def lampGeocoded : Geocoded := (Coordinates.of 40 (-105)).mapError .thrown

def lampStock : Stock where
  inventory := AList.singleton ("denver", "lamp") ⟨5, 0, 0⟩
  unreserved {key b} found := by
    have member := AList.mem_lookup_iff.mp found
    simp only [AList.singleton, List.mem_singleton, Sigma.mk.injEq] at member
    obtain ⟨rfl, same⟩ := member
    cases eq_of_heq same
    decide

/-- The digest of the one request body the runs below send. -/
def lampSha256 (text : String) : String :=
  if text = "1111|2500|USD|Order CNL-2026-000001" then
    "6d7c463abbb6fbec097f79586f246b94fc9aef21280f2afb2ca83a78290fe4c2"
  else ""

def lampKey : String := "order:order:attempt:1"

def lampCharge : Provider.Payload :=
  .charge lampKey ⟨"4111111111111111", 2500, "USD", "Order CNL-2026-000001"⟩

abbrev LampAction := Action DbError Move Event Bool

def transact (p : Bool) (statements : Nat) : List LampAction :=
  .begin p :: List.replicate statements (.exec p) ++ [.commit p]

/-- Reserving two lamps in a first process. -/
def lampReserve : List LampAction :=
  .move true (.createOrder lampCommand lampGeocoded "CNL-2026-000001"
    ["denver"] "order") :: transact true 12

/-- The pending payment and the charge, which the provider approves. -/
def lampPay : List LampAction :=
  [.move true (.startPayment "payment" ⟨1000⟩ ⟨1000⟩), .move true .findPayment] ++
    transact true 1 ++ [.move true .send]

def lampApprove : List LampAction :=
  [.event (.deliver ⟨0, lampCharge⟩ ⟨"1", "now"⟩), .event (.fire lampKey ⟨"2", "later"⟩),
    .move true (.receive 0 false)]

def lampRecord : List LampAction :=
  [.move true (.recordOutcome ⟨1000⟩ ⟨1000⟩), .move true .findPayment] ++ transact true 1

/-- Two lamps of five are sold. -/
def lampSold : Processes Bool :=
  ((initial Bool lampStock ⟨1000000⟩).run store (system lampCatalogue lampSha256)
    (lampReserve ++ lampPay ++ lampApprove ++ lampRecord ++ transact true 17)).get
    (by decide +kernel)

theorem lampSold_run : (initial Bool lampStock ⟨1000000⟩).run store
    (system lampCatalogue lampSha256)
    (lampReserve ++ lampPay ++ lampApprove ++ lampRecord ++ transact true 17) = some lampSold :=
  (Option.some_get _).symm

theorem lampSold_reachable :
    Reachable lampCatalogue lampSha256 lampStock ⟨1000000⟩ lampSold :=
  reachable_of_run lampSold_run

def lampSoldRow : OrderRow :=
  (lampSold.data.orders.lookup "order").get (by decide +kernel)

theorem lampSold_stored : lampSold.data.orders.lookup "order" = some lampSoldRow :=
  (Option.some_get _).symm

end Lamp

section Runs
variable {Meets : World P → World P → Prop} {stock : Stock} {clock : Timestamptz}
  {s : Processes P}

theorem Runs.consistent (run : Runs catalogue sha256 Meets stock clock s) :
    Consistent stock.units s.data :=
  run.invariant (consistent_stock stock) fun before books does _ =>
    consistent_step does before.owned books

theorem Runs.stocks (run : Runs catalogue sha256 Meets stock clock s) (key : Uuid × Uuid)
    (stocked : (stock.inventory.lookup key).isSome) : s.data.Stocks key :=
  run.invariant (I := fun a => a.data.Stocks key) stocked fun before stocks does _ =>
    stocks_step does before.owned stocks

/-- The balances the stock starts with. -/
def Stock.balances (stock : Stock) (key : Uuid × Uuid) : Option (Int × Int) :=
  (stock.inventory.lookup key).map fun b => (b.available, b.reserved)

theorem Runs.replayed (run : Runs catalogue sha256 Meets stock clock s) :
    Replayed stock.balances s.data := by
  refine run.invariant (I := fun a => Replayed stock.balances a.data) ?_
    fun before replayed does _ => replayed_step does before.owned before.consistent replayed
  refine ⟨fun {w p b} found => ⟨.nil, _, ?_, rfl⟩, nofun⟩
  rw [Stock.balances, show stock.inventory.lookup (w, p) = some b from found]
  rfl

/-- The movements of every row, in id order, lead from its first balances to
those it has, step by step; the repository's own check finds nothing. -/
theorem ledger_replays (run : Reachable catalogue sha256 stock clock s) :
    (∀ w p b, s.data.inventory.lookup (w, p) = some b → ∃ b₀ : Balance,
      stock.inventory.lookup (w, p) = some b₀ ∧ (s.data.ledger w p).Pairwise (·.id < ·.id) ∧
      Replays s.data.Continues Movement.after (b₀.available, b₀.reserved) (s.data.ledger w p)
        (b.available, b.reserved)) ∧
    (∀ w p, s.data.inventory.lookup (w, p) = none →
      stock.inventory.lookup (w, p) = none ∧ s.data.ledger w p = []) ∧
    s.data.verifyLedger = [] := by
  have replayed := run.replayed
  refine ⟨fun w p b found => ?_, fun w p missing => ⟨?_, ?_⟩, replayed.verifyLedger⟩
  · obtain ⟨sorted, first, started, replays⟩ := replayed.rows found
    obtain ⟨b₀, stocked, rfl⟩ := Option.map_eq_some_iff.mp started
    rw [replayed.ledger_eq found]
    exact ⟨b₀, stocked, sorted, replays⟩
  · cases stocked : stock.inventory.lookup (w, p) with
    | none => rfl
    | some b₀ =>
      have kept := run.stocks (w, p) (by rw [stocked]; rfl)
      rw [Db.Stocks, missing] at kept
      cases kept
  · have none_of : s.data.rowMovements w p = [] := by
      refine List.filter_eq_nil_iff.mpr fun m member same => ?_
      have known := replayed.stocked m member
      simp only [decide_eq_true_eq] at same
      rw [same.1, same.2, missing] at known
      cases known
    rw [Db.ledger, none_of]
    rfl

theorem ledger_replays_lamp :
    (lampSold.data.ledger "denver" "lamp").map Movement.after = [(3, 2), (3, 0)] ∧
    (∀ w p b, lampSold.data.inventory.lookup (w, p) = some b → ∃ b₀ : Balance,
      lampStock.inventory.lookup (w, p) = some b₀ ∧
      (lampSold.data.ledger w p).Pairwise (·.id < ·.id) ∧
      Replays lampSold.data.Continues Movement.after (b₀.available, b₀.reserved)
        (lampSold.data.ledger w p) (b.available, b.reserved)) ∧
    (∀ w p, lampSold.data.inventory.lookup (w, p) = none →
      lampStock.inventory.lookup (w, p) = none ∧ lampSold.data.ledger w p = []) ∧
    lampSold.data.verifyLedger = [] :=
  ⟨by decide +kernel, ledger_replays lampSold_reachable⟩

/-- Every reachable order's movements are those of its status, line by line, at
its warehouse, and there are no others. -/
theorem movements_of_status (run : Reachable catalogue sha256 stock clock s) {o : Uuid}
    {row : OrderRow} (stored : s.data.orders.lookup o = some row) :
    row.status ≠ .PAID ∧ ∃ w, row.warehouseId = some w ∧
      (∀ item ∈ s.data.itemsOf o,
        (s.data.movementsOf o item.productId).Pairwise (·.id < ·.id) ∧
        (s.data.movementsOf o item.productId).map (fun m => (m.type, m.quantityDelta)) =
          row.status.ledger item.quantity) ∧
      ∀ m ∈ s.data.movements, m.orderId = o → m.warehouseId = w ∧
        ∃ item ∈ s.data.itemsOf o, m.productId = item.productId := by
  obtain ⟨w, own⟩ := run.consistent.orders o row stored
  refine ⟨own.status, w, own.warehouseId, fun item member => ⟨own.sorted _, own.ledger item member⟩,
    fun m member mine => ?_⟩
  obtain ⟨there, product⟩ := own.closed m.productId m
    (List.mem_filter.mpr ⟨member, by simp [mine]⟩)
  obtain ⟨item, inside, same⟩ := List.mem_map.mp product
  exact ⟨there, item, inside, same.symm⟩

theorem movements_of_status_lamp : lampSoldRow.status = .CONFIRMED ∧
    lampSoldRow.status ≠ .PAID ∧ ∃ w, lampSoldRow.warehouseId = some w ∧
      (∀ item ∈ lampSold.data.itemsOf "order",
        (lampSold.data.movementsOf "order" item.productId).Pairwise (·.id < ·.id) ∧
        (lampSold.data.movementsOf "order" item.productId).map
          (fun m => (m.type, m.quantityDelta)) = lampSoldRow.status.ledger item.quantity) ∧
      ∀ m ∈ lampSold.data.movements, m.orderId = "order" → m.warehouseId = w ∧
        ∃ item ∈ lampSold.data.itemsOf "order", m.productId = item.productId :=
  ⟨by decide +kernel, movements_of_status lampSold_reachable lampSold_stored⟩

/-- Nothing is oversold and no stock is lost: what a row starts with is what is
available, what pending orders hold and what confirmed orders took. -/
theorem stock_conserved (run : Reachable catalogue sha256 stock clock s) {w p : Uuid} {b₀ : Balance}
    (started : stock.inventory.lookup (w, p) = some b₀) : ∃ b : Balance,
      s.data.inventory.lookup (w, p) = some b ∧ 0 ≤ b.available ∧ 0 ≤ b.reserved ∧
      b.reserved = s.data.quantityIn .PENDING_PAYMENT w p ∧
      b.available + b.reserved + s.data.quantityIn .CONFIRMED w p = b₀.available ∧
      b.available ≤ b₀.available ∧ b.reserved ≤ b₀.available ∧
      (fitsInteger b₀.available → fitsInteger b.available ∧ fitsInteger b.reserved) := by
  have books := run.consistent
  obtain ⟨b, found⟩ := Option.isSome_iff_exists.mp
    (run.stocks (w, p) (by rw [started]; rfl))
  obtain ⟨available, reserved, total⟩ := books.balances w p b found
  have units : stock.units (w, p) = b₀.available := by
    simp only [Stock.units]
    rw [started]
    rfl
  have held : 0 ≤ s.data.quantityIn .PENDING_PAYMENT w p := books.quantityIn_nonneg
  have sold : 0 ≤ s.data.quantityIn .CONFIRMED w p := books.quantityIn_nonneg
  rw [units] at total
  refine ⟨b, found, available, by omega, reserved, total, by omega, by omega, fun fits => ?_⟩
  simp only [fitsInteger, decide_eq_true_eq] at fits ⊢
  omega

theorem stock_conserved_lamp : ∃ b : Balance,
    lampSold.data.inventory.lookup ("denver", "lamp") = some b ∧ 0 ≤ b.available ∧
    0 ≤ b.reserved ∧ b.reserved = lampSold.data.quantityIn .PENDING_PAYMENT "denver" "lamp" ∧
    b.available + b.reserved + lampSold.data.quantityIn .CONFIRMED "denver" "lamp" = 5 ∧
    b.available ≤ 5 ∧ b.reserved ≤ 5 ∧
    (fitsInteger 5 → fitsInteger b.available ∧ fitsInteger b.reserved) :=
  stock_conserved lampSold_reachable
    (show lampStock.inventory.lookup ("denver", "lamp") = some ⟨5, 0, 0⟩ from rfl)

end Runs

end Canals
