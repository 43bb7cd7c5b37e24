import Canals.Allotment.Book
import Canals.System.Ledger

/-! What the order flow is for: goods allotted out of stock. On what is committed,
every step of the processes is one operation of the abstract book, or none. -/
namespace Canals
open Locking
open Allotment (Book Claim Stage)

/-- Between reservation and confirmation an order only holds its goods. -/
def OrderStatus.stage : OrderStatus → Stage
  | PENDING_PAYMENT | PAID => .held
  | CONFIRMED => .taken
  | PAYMENT_FAILED | CANCELLED => .givenUp

namespace Db

def claim (d : Db) (o : Uuid) (row : OrderRow) : Claim Uuid Uuid where
  site := row.warehouseId.getD ""
  amount := d.shareOf o
  stage := row.status.stage

def available (d : Db) (w p : Uuid) : Int := ((d.inventory.lookup (w, p)).map (·.available)).getD 0

def reserved (d : Db) (w p : Uuid) : Int := ((d.inventory.lookup (w, p)).map (·.reserved)).getD 0

/-- The book the tables keep. -/
def book (d : Db) : Book Uuid Uuid Uuid where
  claims o := (d.orders.lookup o).map (d.claim o)
  free := d.available
  held := d.reserved
  taken w p := d.quantityIn .CONFIRMED w p

end Db

section Steps
variable {A₀ : Uuid × Uuid → Int} {d after : Db} {o w : Uuid} {row : OrderRow}

theorem Db.claim_congr (items : after.itemsOf o = d.itemsOf o) :
    after.claim o row = d.claim o row := by
  have share : after.shareOf o = d.shareOf o := by
    funext p
    rw [Db.shareOf, items, Db.shareOf]
  rw [Db.claim, Db.claim, share]

/-- One order's row was written, and no other order's lines. -/
theorem claims_insert (inserted : after.orders = d.orders.insert o row)
    (items : ∀ o' ≠ o, after.itemsOf o' = d.itemsOf o') :
    after.book.claims = Function.update d.book.claims o (some (after.claim o row)) := by
  funext o'
  simp only [Db.book, inserted]
  by_cases mine : o' = o
  · subst mine
    simp
  · rw [Function.update_of_ne mine, AList.lookup_insert_ne mine]
    cases d.orders.lookup o' with
    | none => rfl
    | some other => exact congrArg some (Db.claim_congr (items o' mine))

/-- Postings that move `a` times a line's quantity into the available column and `r` times
into the reserved one, for each of the order's lines. -/
structure Shifts (a r : Int) (o w : Uuid) (d after : Db) : Prop where
  distinct : ((after.itemsOf o).map (·.productId)).Nodup
  line : ∀ item ∈ after.itemsOf o, ∃ b b' : Balance,
    d.inventory.lookup (w, item.productId) = some b ∧
    after.inventory.lookup (w, item.productId) = some b' ∧
    b'.available = b.available + a * item.quantity ∧
    b'.reserved = b.reserved + r * item.quantity
  frame : ∀ k, (∀ item ∈ after.itemsOf o, k ≠ (w, item.productId)) →
    after.inventory.lookup k = d.inventory.lookup k

variable {a r : Int}

theorem Shifts.columns (shifts : Shifts a r o w d after) (w' p : Uuid) :
    after.available w' p = d.available w' p + (if w' = w then a * after.shareOf o p else 0) ∧
      after.reserved w' p = d.reserved w' p + if w' = w then r * after.shareOf o p else 0 := by
  by_cases ordered : p ∈ (after.itemsOf o).map (·.productId)
  · obtain ⟨item, member, rfl⟩ := List.mem_map.mp ordered
    by_cases here : w' = w
    · subst here
      obtain ⟨b, b', before, behind, available, reserved⟩ := shifts.line item member
      rw [shareOf_eq shifts.distinct member]
      simp [Db.available, Db.reserved, before, behind, available, reserved]
    · have same := shifts.frame (w', item.productId) fun _ _ same => here (Prod.mk.inj same).1
      simp [Db.available, Db.reserved, same, here]
  · have same := shifts.frame (w', p) fun item member same =>
      ordered (List.mem_map.mpr ⟨item, member, (Prod.mk.inj same).2.symm⟩)
    simp [Db.available, Db.reserved, same, shareOf_eq_zero ordered]

theorem update_site {f g : Uuid → Uuid → Int} {row : Uuid → Int}
    (there : ∀ p, g w p = row p) (others : ∀ w' ≠ w, ∀ p, g w' p = f w' p) :
    g = Function.update f w row := by
  funext w' p
  by_cases same : w' = w
  · subst same
    rw [Function.update_self, there]
  · rw [Function.update_of_ne same, others w' same]

theorem Reserved.shifts {draft : Draft} (done : Reserved draft w d after)
    (books : Consistent A₀ d) (fresh : d.orders.lookup draft.orderId = none) :
    Shifts (-1) 1 draft.orderId w d after ∧
      ∀ item ∈ after.itemsOf draft.orderId, 0 < item.quantity ∧
        item.quantity ≤ d.available w item.productId := by
  obtain ⟨items, postings, added, owned, distinct, posted, products, stocked⟩ := done.items
  have mine : after.itemsOf draft.orderId = items := by
    rw [itemsOf_added added fun item member => (owned item member).1, books.itemsOf_fresh fresh]
    simp
  rw [← mine] at distinct products stocked owned
  refine ⟨⟨distinct, fun item member => ?_, fun k apart => ?_⟩, fun item member => ?_⟩
  · obtain ⟨b, balance, -, posting⟩ := stocked item member
    obtain ⟨v, found⟩ := posted.balance _ posting
    exact ⟨b, _, balance, found, by dsimp only; omega, by dsimp only; omega⟩
  · refine posted.balance_frame k fun x inside same => ?_
    have named : x.productId ∈ (after.itemsOf draft.orderId).map (·.productId) :=
      products ▸ List.mem_map_of_mem inside
    obtain ⟨item, member, eq⟩ := List.mem_map.mp named
    exact apart item member (eq ▸ same)
  · obtain ⟨b, balance, enough, -⟩ := stocked item member
    exact ⟨(owned item member).2, by simpa [Db.available, balance] using enough⟩

/-- A committed reservation stakes a claim. -/
theorem Reserved.stakes {draft : Draft} (done : Reserved draft w d after)
    (books : Consistent A₀ d) (fresh : d.orders.lookup draft.orderId = none) :
    Allotment.Step d.book after.book := by
  obtain ⟨shifts, lines⟩ := done.shifts books fresh
  obtain ⟨row, inserted, pending, warehouse, -⟩ := done.order
  obtain ⟨items, _, added, owned, -⟩ := done.items
  have absent : d.book.claims draft.orderId = none := by simp [Db.book, fresh]
  have room : ∀ p, 0 ≤ after.shareOf draft.orderId p ∧
      after.shareOf draft.orderId p ≤ d.book.free w p := by
    intro p
    by_cases ordered : p ∈ (after.itemsOf draft.orderId).map (·.productId)
    · obtain ⟨item, member, rfl⟩ := List.mem_map.mp ordered
      rw [shareOf_eq shifts.distinct member]
      exact ⟨(lines item member).1.le, (lines item member).2⟩
    · rw [shareOf_eq_zero ordered]
      refine ⟨le_rfl, ?_⟩
      show 0 ≤ d.available w p
      cases found : d.inventory.lookup (w, p) with
      | none => simp [Db.available, found]
      | some b => simpa [Db.available, found] using (books.balances w p b found).1
  have stake := Allotment.Step.stake absent room
  have same : d.book.stake draft.orderId w (after.shareOf draft.orderId) = after.book := by
    refine Book.ext ?_ ?_ ?_ ?_
    · rw [claims_insert inserted fun o' other => ?_]
      · simp [Book.stake, Db.claim, pending, warehouse, OrderStatus.stage]
      · rw [itemsOf_added added fun item member => (owned item member).1]
        simp [other]
    · refine (update_site (fun p => ?_) fun w' other p => ?_).symm
      · simpa [Db.book, sub_eq_add_neg] using (shifts.columns w p).1
      · simpa [Db.book, other] using (shifts.columns w' p).1
    · refine (update_site (fun p => ?_) fun w' other p => ?_).symm
      · simpa [Db.book] using (shifts.columns w p).2
      · simpa [Db.book, other] using (shifts.columns w' p).2
    · funext w' p
      simp [Book.stake, Db.book, done.quantityIn fresh]
  exact same ▸ stake

/-- How many of a line's units a settlement gives back to the available column. -/
def SettleCall.freed : SettleCall → Int
  | confirmCaptured _ _ => 0
  | failDeclined _ _ | cancelUnpaid _ _ _ => 1

variable {call : SettleCall} {createdAt : Date}

theorem SettleCall.closing_columns (call : SettleCall) (stock : InventoryRow) (q : Int) :
    (call.closing stock q).availableAfter = stock.quantityAvailable + call.freed * q ∧
      (call.closing stock q).reservedAfter = stock.quantityReserved + -1 * q := by
  cases call <;> simp [SettleCall.closing, commitPosting, releasePosting, SettleCall.freed] <;> rfl

theorem SettleCall.confirms_or_frees (call : SettleCall) :
    (call.freed = 0 ∧ call.target = .CONFIRMED) ∨
      (call.freed = 1 ∧ call.target.stage = .givenUp ∧ call.target ≠ .CONFIRMED) := by
  cases call with
  | confirmCaptured _ _ => exact .inl ⟨rfl, rfl⟩
  | failDeclined _ _ | cancelUnpaid _ _ _ => exact .inr ⟨rfl, rfl, by simp [SettleCall.target]⟩

theorem Settles.shifts (done : Settles call createdAt row d after)
    (own : OrderConsistent d call.orderId row w) (pending : row.status = .PENDING_PAYMENT) :
    Shifts call.freed (-1) call.orderId w d after := by
  obtain ⟨postings, posted, -, only⟩ := done.posted own pending
  have items : after.itemsOf call.orderId = d.itemsOf call.orderId := by
    simp only [Db.itemsOf, done.orderItems]
  refine ⟨items ▸ own.distinct, fun item member => ?_, fun k apart => ?_⟩
  · rw [items] at member
    obtain ⟨b, balance⟩ := Option.isSome_iff_exists.mp (own.stocked item member)
    have inside := (only _).mpr ⟨item, member, b, balance, rfl⟩
    obtain ⟨v, found⟩ := posted.balance _ inside
    rw [call.closes.productId] at found
    obtain ⟨available, reserved⟩ := call.closing_columns
      ⟨item.productId, b.available, b.reserved⟩ item.quantity
    exact ⟨b, _, balance, found, available, reserved⟩
  · refine posted.balance_frame k fun x inside same => ?_
    obtain ⟨item, member, b, -, rfl⟩ := (only x).mp inside
    rw [call.closes.productId] at same
    exact apart item (items ▸ member) same

/-- A settlement decides the claim: what was confirmed is taken, the rest given up. -/
theorem Settles.decides (done : Settles call createdAt row d after) (books : Consistent A₀ d)
    (stored : d.orders.lookup call.orderId = some row) (pending : row.status = .PENDING_PAYMENT) :
    Allotment.Step d.book after.book := by
  obtain ⟨w, own⟩ := books.orders _ _ stored
  have shifts := done.shifts own pending
  obtain ⟨row', stored', target, warehouse, -⟩ := done.settledRow
  have items : ∀ o, after.itemsOf o = d.itemsOf o := fun o => by
    simp only [Db.itemsOf, done.orderItems]
  have share : after.shareOf call.orderId = d.shareOf call.orderId := by
    funext p
    rw [Db.shareOf, items, Db.shareOf]
  have held : d.book.claims call.orderId = some ⟨w, d.shareOf call.orderId, .held⟩ := by
    simp [Db.book, Db.claim, stored, own.warehouseId, pending, OrderStatus.stage]
  obtain ⟨row₁, inserted, -⟩ := done.order
  have claims := claims_insert inserted fun o' _ => items o'
  have same : row₁ = row' := by
    rw [inserted, AList.lookup_insert] at stored'
    exact Option.some.inj stored'
  subst same
  have claim : after.claim call.orderId row₁ =
      ⟨w, d.shareOf call.orderId, call.target.stage⟩ := by
    simp [Db.claim, share, warehouse, own.warehouseId, target]
  have free : after.book.free = Function.update d.book.free w
      (d.book.free w + fun p => call.freed * d.shareOf call.orderId p) := by
    refine update_site (fun p => ?_) fun w' other p => ?_
    · simpa [Db.book, share] using (shifts.columns w p).1
    · simpa [Db.book, other] using (shifts.columns w' p).1
  have reserved : after.book.held = Function.update d.book.held w
      (d.book.held w - d.shareOf call.orderId) := by
    refine update_site (fun p => ?_) fun w' other p => ?_
    · simpa [Db.book, share, sub_eq_add_neg] using (shifts.columns w p).2
    · simpa [Db.book, other] using (shifts.columns w' p).2
  have sold := fun w' p => done.quantityIn stored pending own.warehouseId .CONFIRMED w' p
  rcases call.confirms_or_frees with ⟨freed, confirms⟩ | ⟨freed, stage, failed⟩
  · have step := Allotment.Step.take held
    have eq : d.book.take call.orderId w (d.shareOf call.orderId) = after.book := by
      refine Book.ext ?_ ?_ reserved.symm ?_
      · rw [claims, claim, confirms]
        rfl
      · simp [free, freed, Book.take, ← Pi.zero_def]
      · refine (update_site (fun p => ?_) fun w' other p => ?_).symm
        · simp [Db.book, sold, confirms]
        · simp [Db.book, sold, other]
    exact eq ▸ step
  · have step := Allotment.Step.giveUp held
    have eq : d.book.giveUp call.orderId w (d.shareOf call.orderId) = after.book := by
      refine Book.ext ?_ ?_ reserved.symm ?_
      · rw [claims, claim, stage]
        rfl
      · simp only [free, freed, Book.giveUp, one_mul]
      · funext w' p
        simp [Db.book, Book.giveUp, sold, failed.symm]
    exact eq ▸ step

theorem Settled.book {result : SettlementResult} (settled : Settled call d after result)
    (books : Consistent A₀ d) : after.book = d.book ∨ Allotment.Step d.book after.book := by
  cases settled with
  | already _ _ _ same => exact .inl (congrArg Db.book same)
  | now _ _ stored pending done => exact .inr (done.decides books stored pending)

theorem Saves.book {payment : PaymentOrmEntity} {stored : Option PaymentOrmEntity}
    (saves : Saves payment d stored after) : after.book = d.book := by
  cases saves <;> rfl

end Steps

section Runs
variable {P : Type} [DecidableEq P] {catalogue : Catalogue} {sha256 : String → String}
  {stock : Stock} {clock : Timestamptz} {s t : Processes P} {a b : World P}

theorem book_step {A₀ : Uuid × Uuid → Int} (does : Does sha256 a b) (owned : Owned a)
    (books : Consistent A₀ a.data) :
    b.data.book = a.data.book ∨ Allotment.Step a.data.book b.data.book := by
  cases does with
  | @commit p after ctl commits =>
    have alone := owned.alone p
    generalize a.ctl p = before at commits alone
    cases commits with
    | reserve ran => exact .inr ((attemptCandidate_spec alone ran).1.stakes books alone)
    | insert _ saves | record _ _ saves | leave _ _ saves => exact .inl saves.book
    | confirm _ settled | decline _ settled | resolve settled => exact settled.book books
  | rewind _ | move _ | happen _ => exact .inl rfl

/-- The book before the first order. -/
def Stock.book (stock : Stock) : Book Uuid Uuid Uuid where
  claims _ := none
  free w p := stock.units (w, p)
  held := 0
  taken := 0

omit [DecidableEq P] in
theorem initial_book : (initial P stock clock).data.book = stock.book := by
  refine Book.ext ?_ rfl ?_ ?_
  · funext o
    simp [Db.book, initial, Stock.book]
  · funext w p
    show ((stock.inventory.lookup (w, p)).map (·.reserved)).getD 0 = 0
    cases found : stock.inventory.lookup (w, p) with
    | none => rfl
    | some b => exact (stock.unreserved found).2
  · funext w p
    simp [Db.book, initial, Stock.book, Db.quantityIn]

theorem Runs.book_next (run : Reachable catalogue sha256 stock clock s)
    (next : State.Next store (system catalogue sha256) s t) :
    t.data.book = s.data.book ∨ Allotment.Step s.data.book t.data.book := by
  rcases run.step next with same | does
  · exact .inl (congrArg (fun a => a.data.book) same)
  · exact book_step does run.owned run.consistent

theorem Runs.book_steps (run : Reachable catalogue sha256 stock clock s)
    (more : Relation.ReflTransGen (State.Next store (system catalogue sha256)) s t) :
    Reachable catalogue sha256 stock clock t ∧
      Relation.ReflTransGen Allotment.Step s.data.book t.data.book := by
  induction more with
  | refl => exact ⟨run, .refl⟩
  | tail _ last ih =>
    obtain ⟨reached, steps⟩ := ih
    refine ⟨reached.tail ⟨last, trivial⟩, ?_⟩
    rcases reached.book_next last with same | step
    · exact same ▸ steps
    · exact steps.tail step

theorem Stock.book_total (stock : Stock) (w p : Uuid) :
    stock.book.total w p = stock.units (w, p) := by
  simp [Book.total, Stock.book]

/-- The interleaved statements of all processes, with their lock waits, rollbacks and
crashes, are a run of the abstract book: each step is one of its operations or none. So
no unit appears or is lost, and a claim keeps its site, its goods and what was decided. -/
theorem allotment_refined (run : Reachable catalogue sha256 stock clock s) :
    Relation.ReflTransGen Allotment.Step stock.book s.data.book ∧
      (∀ t, State.Next store (system catalogue sha256) s t →
        t.data.book = s.data.book ∨ Allotment.Step s.data.book t.data.book) ∧
      (∀ w p, s.data.book.total w p = stock.units (w, p)) ∧
      ∀ t, Relation.ReflTransGen (State.Next store (system catalogue sha256)) s t →
        ∀ o claim, s.data.book.claims o = some claim →
          ∃ later, t.data.book.claims o = some later ∧ claim.Leads later := by
  have start : Reachable catalogue sha256 stock clock (initial P stock clock) := .refl
  have taken : Relation.ReflTransGen (State.Next store (system catalogue sha256))
      (initial P stock clock) s := run.lift id fun _ _ step => step.1
  have steps := (start.book_steps taken).2
  rw [initial_book] at steps
  refine ⟨steps, fun t next => run.book_next next, fun w p => ?_, fun t more o claim found => ?_⟩
  · rw [Allotment.steps_total steps, stock.book_total]
  · exact Allotment.steps_lead (run.book_steps more).2 found

theorem allotment_refined_lamp :
    (lampSold.data.book.claims "order").map (·.stage) = some .taken ∧
    Relation.ReflTransGen Allotment.Step lampStock.book lampSold.data.book ∧
      (∀ t, State.Next store (system lampCatalogue lampSha256) lampSold t →
        t.data.book = lampSold.data.book ∨ Allotment.Step lampSold.data.book t.data.book) ∧
      (∀ w p, lampSold.data.book.total w p = lampStock.units (w, p)) ∧
      ∀ t, Relation.ReflTransGen (State.Next store (system lampCatalogue lampSha256)) lampSold t →
        ∀ o claim, lampSold.data.book.claims o = some claim →
          ∃ later, t.data.book.claims o = some later ∧ claim.Leads later :=
  ⟨by decide +kernel, allotment_refined lampSold_reachable⟩

end Runs

end Canals
