import Canals.Orders.Ledger

/-! Replaying the ledger. Read in id order, the movements of an inventory row
lead from its first balances to those it has now: `available_after` moves by
`quantity_delta`, and `reserved_after` by what the same order reserved, which a
`COMMIT` does not say itself. -/
namespace Canals

section Replays
variable {B M : Type} {continues continues' : B → M → Prop} {snapshot : M → B} {b b' : B}
  {m : M} {ms : List M}

/-- Entries that each continue the snapshot of the one before. -/
def Replays (continues : B → M → Prop) (snapshot : M → B) : B → List M → B → Prop
  | b, [], b' => b' = b
  | b, m :: ms, b' => continues b m ∧ Replays continues snapshot (snapshot m) ms b'

theorem replays_concat : Replays continues snapshot b (ms ++ [m]) b' ↔
    ∃ mid, Replays continues snapshot b ms mid ∧ continues mid m ∧ b' = snapshot m := by
  induction ms generalizing b with
  | nil => simp [Replays]
  | cons first ms ih =>
    simp only [List.cons_append, Replays, ih]
    constructor
    · rintro ⟨here, mid, rest, last⟩
      exact ⟨mid, ⟨here, rest⟩, last⟩
    · rintro ⟨mid, ⟨here, rest⟩, last⟩
      exact ⟨here, mid, rest, last⟩

theorem Replays.imp (replays : Replays continues snapshot b ms b')
    (each : ∀ m ∈ ms, ∀ b, continues b m → continues' b m) :
    Replays continues' snapshot b ms b' := by
  induction ms generalizing b with
  | nil => exact replays
  | cons first ms ih =>
    obtain ⟨here, rest⟩ := replays
    exact ⟨each first (by simp) b here, ih rest fun m member => each m (by simp [member])⟩

end Replays

/-- What a movement of a line of `q` units does to the reserved units. -/
def MovementType.reserves : MovementType → Int → Int
  | .RESERVE, q => q
  | .RELEASE, q | .COMMIT, q => -q
  | .RESTOCK, _ | .ADJUST, _ => 0

/-- The balances a movement leaves. -/
def Movement.after (m : Movement) : Int × Int := (m.availableAfter, m.reservedAfter)

structure LedgerMismatch where
  warehouseId : Uuid
  productId : Uuid
  expectedAvailable : Int
  actualAvailable : Int
  expectedReserved : Int
  actualReserved : Int

namespace Db

/-- The movements of an inventory row. -/
def rowMovements (d : Db) (w p : Uuid) : List Movement :=
  d.movements.filter fun m => m.warehouseId = w ∧ m.productId = p

/-- `ORDER BY id`. -/
def ledger (d : Db) (w p : Uuid) : List Movement :=
  (d.rowMovements w p).insertionSort (·.id ≤ ·.id)

/-- `m` continues the balances before it, where `-r.quantityDelta` is what its
order reserved of the product. -/
def Continues (d : Db) (before : Int × Int) (m : Movement) : Prop :=
  m.availableAfter = before.1 + m.quantityDelta ∧
    ∃ r, (d.movementsOf m.orderId m.productId).filter (·.type = .RESERVE) = [r] ∧
      m.type ∈ [.RESERVE, .RELEASE, .COMMIT] ∧
      m.reservedAfter = before.2 + m.type.reserves (-r.quantityDelta)

/-- `SELECT DISTINCT ON (warehouse_id, product_id) … ORDER BY …, id DESC`. -/
def latestMovement (d : Db) (w p : Uuid) : Option Movement := (d.rowMovements w p).argmax (·.id)

/-- verify-ledger.sql -/
def verifyLedger (d : Db) : List LedgerMismatch :=
  d.inventory.entries.filterMap fun ⟨(warehouseId, productId), i⟩ =>
    match d.latestMovement warehouseId productId with
    | some lm =>
      if i.available ≠ lm.availableAfter ∨ i.reserved ≠ lm.reservedAfter then some {
        warehouseId
        productId
        expectedAvailable := lm.availableAfter
        actualAvailable := i.available
        expectedReserved := lm.reservedAfter
        actualReserved := i.reserved }
      else none
    | none => none

end Db

/-- Every inventory row is the replay of its movements from `start`. -/
structure Replayed (start : Uuid × Uuid → Option (Int × Int)) (d : Db) : Prop where
  rows : ∀ {w p b}, d.inventory.lookup (w, p) = some b →
    (d.rowMovements w p).Pairwise (·.id < ·.id) ∧ ∃ first, start (w, p) = some first ∧
      Replays d.Continues Movement.after first (d.rowMovements w p) (b.available, b.reserved)
  stocked : ∀ m ∈ d.movements, (d.inventory.lookup (m.warehouseId, m.productId)).isSome

variable {start : Uuid × Uuid → Option (Int × Int)} {A₀ : Uuid × Uuid → Int} {d after : Db}
  {o p w : Uuid} {postings : List Posting} {x : Posting}

theorem Replayed.congr (replayed : Replayed start d) (inventory : after.inventory = d.inventory)
    (movements : after.movements = d.movements) : Replayed start after := by
  have same : after.Continues = d.Continues := by
    funext before m
    simp only [Db.Continues, Db.movementsOf, movements]
  refine ⟨fun found => ?_, fun m member => ?_⟩
  · simp only [Db.rowMovements, movements, same]
    exact replayed.rows (inventory ▸ found)
  · rw [inventory]
    exact replayed.stocked m (movements ▸ member)

/-- A posting adds one movement, the newest both of its order and of its row. -/
theorem Posted.movement (posted : Posted o w postings d after)
    (distinct : distinctProducts postings) (member : x ∈ postings) : ∃ m, x.Records o w m ∧
      after.movementsOf o x.productId = d.movementsOf o x.productId ++ [m] ∧
      after.rowMovements w x.productId = d.rowMovements w x.productId ++ [m] ∧
      ∀ m' ∈ d.rowMovements w x.productId, m'.id < m.id := by
  obtain ⟨ms, added, records, newer⟩ := posted.movements
  obtain ⟨m, there, record, only⟩ := filter_records records distinct member
  have here : ms.filter (fun m => m.warehouseId = w ∧ m.productId = x.productId) = [m] := by
    rw [← only]
    refine List.filter_congr fun m' inside => ?_
    obtain ⟨y, -, record'⟩ := forall₂_right records inside
    simp [record'.orderId, record'.warehouseId]
  refine ⟨m, record, ?_, ?_, fun m' old => ?_⟩
  · rw [Db.movementsOf, added, List.filter_append, only]
    rfl
  · rw [Db.rowMovements, added, List.filter_append, here]
    rfl
  · obtain ⟨old, same⟩ := List.mem_filter.mp old
    simp only [decide_eq_true_eq] at same
    exact newer m there m' old (.inr (by rw [same.1, same.2, record.warehouseId, record.productId]))

theorem Posted.rowMovements_frame (posted : Posted o w postings d after) {w' : Uuid}
    (other : ∀ x ∈ postings, (w', p) ≠ (w, x.productId)) :
    after.rowMovements w' p = d.rowMovements w' p := by
  obtain ⟨ms, added, records, -⟩ := posted.movements
  have none_of : ms.filter (fun m => m.warehouseId = w' ∧ m.productId = p) = [] := by
    refine List.filter_eq_nil_iff.mpr fun m inside same => ?_
    obtain ⟨x, member, record⟩ := forall₂_right records inside
    simp only [decide_eq_true_eq] at same
    exact other x member (by rw [← same.1, ← same.2, record.warehouseId, record.productId])
  rw [Db.rowMovements, added, List.filter_append, none_of, List.append_nil]
  rfl

/-- Postings that each continue the row's balance, out of what their order
reserved, keep the ledger replayable. -/
theorem Posted.replayed (posted : Posted o w postings d after)
    (distinct : distinctProducts postings) (replayed : Replayed start d)
    (kept : ∀ m ∈ d.movements, (after.movementsOf m.orderId m.productId).filter (·.type = .RESERVE) =
      (d.movementsOf m.orderId m.productId).filter (·.type = .RESERVE))
    (continues : ∀ x ∈ postings, ∃ b : Balance, d.inventory.lookup (w, x.productId) = some b ∧
      ∀ m, x.Records o w m →
        after.movementsOf o x.productId = d.movementsOf o x.productId ++ [m] →
        after.Continues (b.available, b.reserved) m) : Replayed start after := by
  have old : ∀ m ∈ d.movements, ∀ before, d.Continues before m → after.Continues before m := by
    rintro m member before ⟨available, r, reserve, reserved⟩
    exact ⟨available, r, (kept m member).trans reserve, reserved⟩
  refine ⟨fun {w' p b'} found => ?_, fun m member => ?_⟩
  · by_cases hit : ∃ x ∈ postings, (w', p) = (w, x.productId)
    · obtain ⟨x, member, here⟩ := hit
      cases here
      obtain ⟨b, balance, next⟩ := continues x member
      obtain ⟨m, record, ofOrder, ofRow, newer⟩ := posted.movement distinct member
      obtain ⟨sorted, first, started, replays⟩ := replayed.rows balance
      obtain ⟨v, found'⟩ := posted.balance x member
      cases found.symm.trans found'
      rw [ofRow]
      refine ⟨List.pairwise_append.mpr ⟨sorted, by simp, by simpa using newer⟩, first, started, ?_⟩
      refine replays_concat.mpr ⟨_, replays.imp fun m member => ?_, next m record ofOrder, ?_⟩
      · exact old m (List.mem_of_mem_filter member)
      · exact Prod.ext record.availableAfter.symm record.reservedAfter.symm
    · have other : ∀ x ∈ postings, (w', p) ≠ (w, x.productId) := fun x member same =>
        hit ⟨x, member, same⟩
      rw [posted.balance_frame _ other] at found
      rw [posted.rowMovements_frame other]
      obtain ⟨sorted, first, started, replays⟩ := replayed.rows found
      exact ⟨sorted, first, started, replays.imp fun m member => old m (List.mem_of_mem_filter member)⟩
  · obtain ⟨ms, added, records, -⟩ := posted.movements
    rcases List.mem_append.mp (added ▸ member) with before | new
    · exact posted.stocked _ (replayed.stocked m before)
    · obtain ⟨x, inside, record⟩ := forall₂_right records new
      obtain ⟨v, found⟩ := posted.balance x inside
      rw [record.warehouseId, record.productId, found]
      rfl

theorem SettleCall.records_terminal (call : SettleCall) {stock : InventoryRow} {q : Int}
    {m : Movement} (record : (call.closing stock q).Records o w m) :
    m.type = .RELEASE ∨ m.type = .COMMIT :=
  record.type ▸ call.closes.terminal stock q

/-- Closing a reservation continues its row by what the line had reserved. -/
theorem Settles.replayed {call : SettleCall} {createdAt : Date} {row : OrderRow}
    (done : Settles call createdAt row d after) (own : OrderConsistent d call.orderId row w)
    (pending : row.status = .PENDING_PAYMENT) (replayed : Replayed start d) :
    Replayed start after := by
  obtain ⟨postings, posted, distinct, only⟩ := done.posted own pending
  have reserved : ∀ item ∈ d.itemsOf call.orderId, ∃ r, r.entry = (.RESERVE, -item.quantity) ∧
      d.movementsOf call.orderId item.productId = [r] := by
    intro item member
    have log := own.ledger item member
    rw [pending] at log
    obtain ⟨r, only, entry⟩ := List.map_eq_singleton_iff.mp log
    exact ⟨r, entry, only⟩
  have next := posted.replayed distinct replayed (fun m member => ?_) fun x inside => ?_
  · exact next.congr rfl rfl
  · by_cases hit : m.orderId = call.orderId ∧ ∃ x ∈ postings, x.productId = m.productId
    · obtain ⟨mine, x, inside, same⟩ := hit
      obtain ⟨m', record, grown, -⟩ := posted.movement distinct inside
      rw [mine, ← same, grown, List.filter_append]
      obtain ⟨item, -, b, -, rfl⟩ := (only x).mp inside
      rcases call.records_terminal record with terminal | terminal <;> simp [terminal]
    · rw [posted.movementsOf_frame]
      by_cases mine : m.orderId = call.orderId
      · exact .inr fun x inside same => hit ⟨mine, x, inside, same⟩
      · exact .inl mine
  · obtain ⟨item, member, b, balance, rfl⟩ := (only x).mp inside
    rw [call.closes.productId]
    refine ⟨b, balance, fun m record grown => ?_⟩
    obtain ⟨r, entry, first⟩ := reserved item member
    obtain ⟨reserve, delta⟩ := Prod.mk.inj entry
    refine ⟨?_, r, ?_, ?_, ?_⟩
    · rw [record.availableAfter, record.quantityDelta]
      cases call <;> simp [SettleCall.closing, commitPosting, releasePosting]
    · rw [record.orderId, record.productId, call.closes.productId, grown, first]
      rcases call.records_terminal record with terminal | terminal <;> simp [reserve, terminal]
    · rcases call.records_terminal record with terminal | terminal <;> simp [terminal]
    · rw [record.reservedAfter, record.type, delta, Int.neg_neg]
      cases call <;> exact Int.sub_eq_add_neg

/-- A new order's reservations continue their rows by their own quantity. -/
theorem Reserved.replayed {draft : Draft} (done : Reserved draft w d after)
    (books : Consistent A₀ d) (fresh : d.orders.lookup draft.orderId = none)
    (replayed : Replayed start d) : Replayed start after := by
  obtain ⟨items, postings, added, owned, distinct, posted, products, stocked⟩ := done.items
  have apart : distinctProducts postings := by simpa [distinctProducts, products] using distinct
  have next := posted.replayed apart replayed (fun m member => ?_) fun x inside => ?_
  · exact next.congr rfl rfl
  · rw [posted.movementsOf_frame (.inl fun mine => ?_)]
    have known := books.movementsOwned m member
    rw [mine, fresh] at known
    cases known
  · have ordered : x.productId ∈ items.map (·.productId) := products ▸ List.mem_map_of_mem inside
    obtain ⟨item, member, same⟩ := List.mem_map.mp ordered
    obtain ⟨b, balance, -, posting⟩ := stocked item member
    cases List.inj_on_of_nodup_map apart posting inside same
    refine ⟨b, balance, fun m record grown => ?_⟩
    rw [books.movementsOf_fresh fresh, List.nil_append] at grown
    refine ⟨?_, m, ?_, ?_, ?_⟩
    · rw [record.availableAfter, record.quantityDelta]
      exact Int.sub_eq_add_neg
    · rw [record.orderId, record.productId, grown]
      simp [record.type]
    · simp [record.type]
    · rw [record.reservedAfter, record.type, record.quantityDelta, Int.neg_neg]
      rfl

theorem Replayed.ledger_eq (replayed : Replayed start d) {b : Balance}
    (found : d.inventory.lookup (w, p) = some b) : d.ledger w p = d.rowMovements w p :=
  ((replayed.rows found).1.imp Nat.le_of_lt).insertionSort_eq

/-- The newest movement of a row leaves what the row holds. -/
theorem Replayed.latestMovement (replayed : Replayed start d) {b : Balance}
    (found : d.inventory.lookup (w, p) = some b) {m : Movement}
    (newest : d.latestMovement w p = some m) : (b.available, b.reserved) = m.after := by
  obtain ⟨sorted, first, -, replays⟩ := replayed.rows found
  rw [Db.latestMovement] at newest
  rcases List.eq_nil_or_concat' (d.rowMovements w p) with none_ | ⟨ms, last, split⟩
  · simp [none_] at newest
  · rw [split] at sorted replays newest
    obtain ⟨mid, -, -, same⟩ := replays_concat.mp replays
    rw [argmax_newest fun m' member => (List.pairwise_append.mp sorted).2.2 m' member last
      (by simp)] at newest
    cases newest
    exact same

theorem Replayed.verifyLedger (replayed : Replayed start d) : d.verifyLedger = [] := by
  refine List.filterMap_eq_nil_iff.mpr ?_
  rintro ⟨⟨w, p⟩, b⟩ entry
  have found : d.inventory.lookup (w, p) = some b := AList.mem_lookup_iff.mpr entry
  dsimp only
  split
  · rename_i m newest
    obtain ⟨available, reserved⟩ := Prod.mk.inj (replayed.latestMovement found newest)
    simp [available, reserved]
  · rfl

end Canals
