import Canals.Allocation.Inventory

/-! What the inventory operations leave behind: a list of postings, each one
balance and one movement. The loops are followed line by line, the rest of the
development only sees `Posted`. -/
namespace Canals
open Locking

variable {o w p : Uuid} {d mid after : Db}

/-- Movement `m` records posting `x` for order `o` at warehouse `w`. -/
structure Posting.Records (o w : Uuid) (x : Posting) (m : Movement) : Prop where
  orderId : m.orderId = o
  warehouseId : m.warehouseId = w
  productId : m.productId = x.productId
  type : m.type = x.type
  quantityDelta : m.quantityDelta = x.quantityDelta
  availableAfter : m.availableAfter = x.availableAfter
  reservedAfter : m.reservedAfter = x.reservedAfter

/-- `after` is `d` with the postings applied in order: one ledger row each, the
balances they name, and nothing else. -/
structure Posted (o w : Uuid) (postings : List Posting) (d after : Db) : Prop where
  frame : after = { d with inventory := after.inventory, movements := after.movements }
  balance : ∀ x ∈ postings, ∃ v,
    after.inventory.lookup (w, x.productId) = some ⟨x.availableAfter, x.reservedAfter, v⟩
  balance_frame : ∀ k, (∀ x ∈ postings, k ≠ (w, x.productId)) →
    after.inventory.lookup k = d.inventory.lookup k
  nonneg : ∀ x ∈ postings, 0 ≤ x.availableAfter ∧ 0 ≤ x.reservedAfter
  movements : ∃ ms, after.movements = d.movements ++ ms ∧
    List.Forall₂ (Posting.Records o w) postings ms ∧
    ∀ m ∈ ms, ∀ m' ∈ d.movements, m'.orderId = o ∨
      (m'.warehouseId, m'.productId) = (m.warehouseId, m.productId) → m'.id < m.id

def distinctProducts (postings : List Posting) : Prop := (postings.map (·.productId)).Nodup

theorem forall₂_right {α β : Type} {R : α → β → Prop} {xs : List α} {ys : List β} {y : β}
    (related : List.Forall₂ R xs ys) (member : y ∈ ys) : ∃ x ∈ xs, R x y := by
  induction related with
  | nil => cases member
  | cons head _ ih =>
    rcases List.mem_cons.mp member with rfl | later
    · exact ⟨_, by simp, head⟩
    · obtain ⟨x, there, related⟩ := ih later
      exact ⟨x, by simp [there], related⟩

theorem filter_records {postings : List Posting} {ms : List Movement} {x : Posting}
    (records : List.Forall₂ (Posting.Records o w) postings ms)
    (distinct : distinctProducts postings) (member : x ∈ postings) :
    ∃ m ∈ ms, x.Records o w m ∧
      ms.filter (fun m => m.orderId = o ∧ m.productId = x.productId) = [m] := by
  induction records with
  | nil => cases member
  | @cons y m postings ms head tail ih =>
    obtain ⟨fresh, distinct⟩ := List.nodup_cons.mp distinct
    rcases List.mem_cons.mp member with rfl | later
    · refine ⟨m, by simp, head, ?_⟩
      have rest : ms.filter (fun m => m.orderId = o ∧ m.productId = x.productId) = [] := by
        refine List.filter_eq_nil_iff.mpr fun m' there => ?_
        obtain ⟨y, inside, record⟩ := forall₂_right tail there
        simp only [record.productId, decide_eq_true_eq, not_and]
        exact fun _ same => fresh (List.mem_map.mpr ⟨y, inside, same⟩)
      rw [List.filter_cons_of_pos (by simp [head.orderId, head.productId]), rest]
    · obtain ⟨m', there, record, only⟩ := ih distinct later
      refine ⟨m', by simp [there], record, ?_⟩
      have other : y.productId ≠ x.productId := by
        intro same
        exact fresh (List.mem_map.mpr ⟨x, later, same.symm⟩)
      rw [List.filter_cons_of_neg (by simp [head.productId, other]), only]

namespace Posted

theorem nil : Posted o w [] d d :=
  ⟨rfl, by simp, fun _ _ => rfl, by simp, [], by simp⟩

section Frame
variable {postings : List Posting} (posted : Posted o w postings d after)
include posted

theorem orders : after.orders = d.orders := by rw [posted.frame]

theorem orderItems : after.orderItems = d.orderItems := by rw [posted.frame]

theorem payments : after.payments = d.payments := by rw [posted.frame]

theorem jobs : after.jobs = d.jobs := by rw [posted.frame]

end Frame

theorem cons {x : Posting} {xs : List Posting} (first : Posted o w [x] d mid)
    (rest : Posted o w xs mid after) (fresh : x.productId ∉ xs.map (·.productId)) :
    Posted o w (x :: xs) d after where
  frame := by
    rw [rest.frame, first.frame]
  balance y member := by
    rcases List.mem_cons.mp member with rfl | later
    · obtain ⟨v, found⟩ := first.balance y (by simp)
      refine ⟨v, (rest.balance_frame _ fun z there same => fresh ?_).trans found⟩
      exact List.mem_map.mpr ⟨z, there, (Prod.mk.inj same).2.symm⟩
    · exact rest.balance y later
  balance_frame k other :=
    (rest.balance_frame k fun y member => other y (by simp [member])).trans
      (first.balance_frame k fun y member => other y (by simp_all))
  nonneg y member := by
    rcases List.mem_cons.mp member with rfl | later
    · exact first.nonneg y (by simp)
    · exact rest.nonneg y later
  movements := by
    obtain ⟨ms, added, records, newer⟩ := first.movements
    obtain ⟨ms', added', records', newer'⟩ := rest.movements
    cases records with | cons one none =>
    cases none
    refine ⟨_ :: ms', by simp [added', added], .cons one records', ?_⟩
    intro m member m' old shared
    rcases List.mem_cons.mp member with rfl | later
    · exact newer _ (by simp) m' old shared
    · exact newer' m later m' (by simp [added, old]) shared

/-- Movements of other orders, and of products without a posting, stay. -/
theorem movementsOf_frame {postings : List Posting} (posted : Posted o w postings d after)
    {o' : Uuid} (other : o' ≠ o ∨ ∀ x ∈ postings, x.productId ≠ p) :
    after.movementsOf o' p = d.movementsOf o' p := by
  obtain ⟨ms, added, records, -⟩ := posted.movements
  have none_of : ms.filter (fun m => m.orderId = o' ∧ m.productId = p) = [] := by
    refine List.filter_eq_nil_iff.mpr fun m member => ?_
    obtain ⟨x, there, record⟩ := forall₂_right records member
    simp only [record.orderId, record.productId, decide_eq_true_eq, not_and]
    rintro rfl
    exact other.resolve_left (by simp) x there
  rw [Db.movementsOf, added, List.filter_append, none_of, List.append_nil]
  rfl

/-- A posting adds one movement of its product, newer than those before. -/
theorem movementsOf_posted {postings : List Posting} (posted : Posted o w postings d after)
    (distinct : distinctProducts postings) {x : Posting} (member : x ∈ postings) :
    ∃ m, x.Records o w m ∧
      after.movementsOf o x.productId = d.movementsOf o x.productId ++ [m] ∧
      ∀ m' ∈ d.movementsOf o x.productId, m'.id < m.id := by
  obtain ⟨ms, added, records, newer⟩ := posted.movements
  obtain ⟨m, there, record, only⟩ := filter_records records distinct member
  refine ⟨m, record, ?_, fun m' old => ?_⟩
  · rw [Db.movementsOf, added, List.filter_append, only]
    rfl
  · obtain ⟨old, same⟩ := List.mem_filter.mp old
    simp only [decide_eq_true_eq] at same
    exact newer m there m' old (.inl same.1)

end Posted

/-- Two statements, one posting. -/
theorem post_spec {x : Posting} (present : (d.inventory.lookup (w, x.productId)).isSome)
    (ran : (post o w x).Completes store d after ()) : Posted o w [x] d after := by
  obtain ⟨i, r, ws, -, updated, i', r', ws', newer, inserted, rfl, -⟩ := ran
  obtain ⟨b, found⟩ := Option.isSome_iff_exists.mp present
  have known : (w, x.productId) ∈ d.inventory := AList.lookup_isSome.mp present
  simp only [store, Sql.exec, found] at updated
  split at updated <;> try contradiction
  rename_i fits
  cases updated
  cases inserted
  have applied : store.applyAll [.putInventory (w, x.productId)
      ⟨x.availableAfter, x.reservedAfter, b.version + 1⟩] d = { d with
        inventory := d.inventory.insert (w, x.productId)
          ⟨x.availableAfter, x.reservedAfter, b.version + 1⟩ } := by
    simp [store, Db.apply, known]
  rw [applied] at newer ⊢
  refine ⟨rfl, ?_, ?_, ?_, ⟨_, rfl, .cons ⟨rfl, rfl, rfl, rfl, rfl, rfl, rfl⟩ .nil, ?_⟩⟩
  · intro y member
    cases List.mem_singleton.mp member
    exact ⟨_, AList.lookup_insert _⟩
  · intro k other
    exact AList.lookup_insert_ne (other x (by simp))
  · intro y member
    cases List.mem_singleton.mp member
    exact ⟨fits.1, fits.2.2.1⟩
  · intro m member m' old shared
    cases List.mem_singleton.mp member
    exact Sql.admits_insertMovement.mp newer m' old shared

theorem rowOf_inventoryRows {productIds : List Uuid} {row : InventoryRow}
    (found : rowOf (d.inventoryRows w productIds) p = some row) :
    row.productId = p ∧ ∃ v, d.inventory.lookup (w, p) =
      some ⟨row.quantityAvailable, row.quantityReserved, v⟩ := by
  have same : row.productId = p := by simpa using List.find?_some found
  exact ⟨same, same ▸ (Db.mem_inventoryRows.mp (List.mem_of_find?_eq_some found)).2⟩

theorem rowOf_none {productIds : List Uuid} (asked : p ∈ productIds)
    (missing : rowOf (d.inventoryRows w productIds) p = none) :
    d.inventory.lookup (w, p) = none := by
  cases found : d.inventory.lookup (w, p) with
  | none => rfl
  | some b =>
    have member : (⟨p, b.available, b.reserved⟩ : InventoryRow) ∈
        d.inventoryRows w productIds := Db.mem_inventoryRows.mpr ⟨asked, b.version, found⟩
    simpa using List.find?_eq_none.mp missing _ member

theorem completes_query {s : Sql} {r : s.Result} :
    (query s).Completes store d after r ↔
      ∃ i ws, s.admits i d ∧ s.exec i d = .ok (r, ws) ∧ after = store.applyAll ws d := by
  simp only [query, Program.Completes]
  constructor
  · rintro ⟨i, r', ws, admits, ran, rfl, rfl⟩
    exact ⟨i, ws, admits, ran, rfl⟩
  · rintro ⟨i, ws, admits, ran, rfl⟩
    exact ⟨i, r, ws, admits, ran, rfl, rfl⟩

theorem lockInventoryRows_spec {productIds : List Uuid} {rows : List InventoryRow}
    (ran : (lockInventoryRows w productIds).Completes store d after rows) :
    after = d ∧ rows = d.inventoryRows w productIds := by
  obtain ⟨mid, u, first, second⟩ := Program.completes_bind.mp ran
  obtain ⟨_, _, -, done, rfl⟩ := completes_query.mp first
  cases done
  obtain ⟨_, _, -, done, rfl⟩ := completes_query.mp second
  cases done
  exact ⟨rfl, rfl⟩

/-- The read balances still stand for the products a loop has not reached. -/
def Agrees (rows : List InventoryRow) (w : Uuid) (d : Db) (p : Uuid) : Prop :=
  ∀ row, rowOf rows p = some row → row.productId = p ∧ ∃ v,
    d.inventory.lookup (w, p) = some ⟨row.quantityAvailable, row.quantityReserved, v⟩

theorem Posted.agrees {x : Posting} {rows : List InventoryRow} (one : Posted o w [x] d after)
    (other : x.productId ≠ p) (agrees : Agrees rows w d p) : Agrees rows w after p := by
  intro row found
  rw [one.balance_frame (w, p) fun y member same => ?_]
  · exact agrees row found
  · cases List.mem_singleton.mp member
    exact other (Prod.mk.inj same).2.symm

theorem reserveLines_spec {command : ReserveCommand} {lines : List OrderLine}
    {rows : List InventoryRow} (distinct : (lines.map (·.productId)).Nodup)
    (agrees : ∀ line ∈ lines, Agrees rows command.warehouseId d line.productId)
    (ran : (lines.forM (reserveLine command rows)).Completes store d after ()) :
    ∃ postings, Posted command.orderId command.warehouseId postings d after ∧
      postings.map (·.productId) = lines.map (·.productId) ∧
      ∀ line ∈ lines, ∃ row, rowOf rows line.productId = some row ∧
        reservePosting row line ∈ postings := by
  induction lines generalizing d with
  | nil =>
    obtain ⟨rfl, -⟩ := ran
    exact ⟨[], .nil, rfl, by simp⟩
  | cons line lines ih =>
    obtain ⟨fresh, distinct⟩ := List.nodup_cons.mp distinct
    obtain ⟨mid, _, first, rest⟩ := Program.completes_bind.mp ran
    cases got : rowOf rows line.productId with
    | none => simp [reserveLine, got] at first
    | some row =>
      obtain ⟨-, v, balance⟩ := agrees line (by simp) row got
      simp only [reserveLine, got] at first
      have one := post_spec (by simp [reservePosting, balance]) first
      obtain ⟨postings, posted, products, reserved⟩ := ih distinct (fun other member => by
        refine one.agrees (fun same => fresh ?_) (agrees other (by simp [member]))
        exact List.mem_map.mpr ⟨other, member, same.symm⟩) rest
      refine ⟨_ :: postings, one.cons posted (by simpa [products, reservePosting] using fresh),
        by simp [reservePosting, products], ?_⟩
      intro other member
      rcases List.mem_cons.mp member with rfl | later
      · exact ⟨row, got, by simp⟩
      · obtain ⟨row', found, inside⟩ := reserved other later
        exact ⟨row', found, by simp [inside]⟩

/-- A completed reservation posts one RESERVE per line, out of balances that
suffice, and stamps the order with the warehouse and the expiry. -/
theorem reserve_spec {manager : EntityManager} {command : ReserveCommand}
    (distinct : (command.lines.map (·.productId)).Nodup)
    (ran : (reserve manager command).Completes store d after ()) :
    ∃ mid postings, Posted command.orderId command.warehouseId postings d mid ∧
      postings.map (·.productId) = command.lines.map (·.productId) ∧
      (∀ line ∈ command.lines, ∃ b : Balance,
        d.inventory.lookup (command.warehouseId, line.productId) = some b ∧
        line.quantity ≤ b.available ∧
        reservePosting ⟨line.productId, b.available, b.reserved⟩ line ∈ postings) ∧
      (query (.updateReservation command.warehouseId
        (manager.now.addMinutes RESERVATION_TTL_MINUTES) command.orderId)).Completes
          store mid after () := by
  obtain ⟨d', rows, locked, rest⟩ := Program.completes_bind.mp ran
  obtain ⟨rfl, rfl⟩ := lockInventoryRows_spec (Program.completes_mapError.mp locked)
  dsimp only at rest
  split at rest
  · rename_i allMet
    obtain ⟨mid, _, looped, stamped⟩ := Program.completes_bind.mp rest
    obtain ⟨postings, posted, products, reserved⟩ := reserveLines_spec distinct
      (fun line _ row found => rowOf_inventoryRows found) looped
    refine ⟨mid, postings, posted, products, fun line member => ?_, stamped⟩
    obtain ⟨row, found, inside⟩ := reserved line member
    obtain ⟨same, v, balance⟩ := rowOf_inventoryRows found
    refine ⟨_, balance, ?_, inside⟩
    have met := List.filter_eq_nil_iff.mp (List.map_eq_nil_iff.mp allMet) line member
    simpa [isUnmet, found] using met
  · exact (Program.completes_throw rest).elim

/-- The amount an order still holds of a product at a warehouse, with the row
it is held in; `none` when the latest movement is terminal. -/
def Db.openReservation (d : Db) (o w p : Uuid) : Option (InventoryRow × Int) :=
  match d.latest o p, d.inventory.lookup (w, p) with
  | some m, some b =>
    if m.type = .RELEASE ∨ m.type = .COMMIT then none
    else some (⟨p, b.available, b.reserved⟩, m.quantityDelta.natAbs)
  | _, _ => none

theorem openReservation_congr {a b : Db} (ledger : a.movementsOf o p = b.movementsOf o p)
    (balance : a.inventory.lookup (w, p) = b.inventory.lookup (w, p)) :
    a.openReservation o w p = b.openReservation o w p := by
  simp only [Db.openReservation, Db.latest, ledger, balance]

theorem argmax_newest {ms : List Movement} {m : Movement} (newer : ∀ m' ∈ ms, m'.id < m.id) :
    (ms ++ [m]).argmax (·.id) = some m := by
  rw [List.argmax_concat]
  cases found : ms.argmax (·.id) with
  | none => rfl
  | some m' => exact if_pos (newer m' (List.argmax_mem found))

theorem latest_append {m : Movement} (added : after.movementsOf o p = d.movementsOf o p ++ [m])
    (newer : ∀ m' ∈ d.movementsOf o p, m'.id < m.id) : after.latest o p = some m := by
  rw [Db.latest, added, argmax_newest newer]

/-- What a closing posting must look like for the loop to stop at it. -/
structure Closing (closing : InventoryRow → Int → Posting) : Prop where
  productId : ∀ row q, (closing row q).productId = row.productId
  terminal : ∀ row q, (closing row q).type = .RELEASE ∨ (closing row q).type = .COMMIT

theorem closing_release : Closing releasePosting := ⟨fun _ _ => rfl, fun _ _ => .inl rfl⟩

theorem closing_commit : Closing commitPosting := ⟨fun _ _ => rfl, fun _ _ => .inr rfl⟩

variable {closing : InventoryRow → Int → Posting} {command : ReleaseCommand}
  {rows : List InventoryRow}

/-- What an open reservation is made of. -/
theorem openReservation_eq {row : InventoryRow} {q : Int}
    (held : d.openReservation o w p = some (row, q)) :
    row.productId = p ∧
      (∃ v, d.inventory.lookup (w, p) =
        some ⟨row.quantityAvailable, row.quantityReserved, v⟩) ∧
      ∃ m, d.latest o p = some m ∧ ¬ (m.type = .RELEASE ∨ m.type = .COMMIT) ∧
        q = m.quantityDelta.natAbs := by
  simp only [Db.openReservation] at held
  split at held <;> try contradiction
  rename_i m b newest balance
  split at held <;> try contradiction
  rename_i nonterminal
  cases held
  exact ⟨rfl, ⟨b.version, balance⟩, m, newest, nonterminal, rfl⟩

/-- The line's latest movement is terminal. -/
def Db.Closed (d : Db) (o p : Uuid) : Prop :=
  ∃ m, d.latest o p = some m ∧ (m.type = .RELEASE ∨ m.type = .COMMIT)

theorem Db.Closed.openReservation (closed : d.Closed o p) :
    d.openReservation o w p = none := by
  obtain ⟨m, newest, terminal⟩ := closed
  cases balance : d.inventory.lookup (w, p) <;>
    simp [Db.openReservation, newest, balance, terminal]

/-- A closed line stays as it is; an open one gets its closing posting. -/
theorem endReservation_spec
    (agrees : d.Closed command.orderId p ∨ Agrees rows command.warehouseId d p)
    (missing : rowOf rows p = none → d.inventory.lookup (command.warehouseId, p) = none)
    (closes : Closing closing)
    (ran : (endReservation closing command rows p).Completes store d after ()) :
    (d.openReservation command.orderId command.warehouseId p = none ∧ after = d) ∨
    ∃ row q, d.openReservation command.orderId command.warehouseId p = some (row, q) ∧
      row.productId = p ∧ Posted command.orderId command.warehouseId [closing row q] d after := by
  obtain ⟨d', latest, read, rest⟩ := Program.completes_bind.mp ran
  obtain ⟨i, ws, -, answered, rfl⟩ := completes_query.mp read
  cases answered
  cases newest : d.latest command.orderId p with
  | none =>
    simp only [newest, Option.map_none] at rest
    exact .inl ⟨by simp [Db.openReservation, newest], rest.1⟩
  | some m =>
    simp only [newest, Option.map_some] at rest
    split at rest
    · rename_i terminal
      exact .inl ⟨Db.Closed.openReservation ⟨m, newest, terminal⟩, rest.1⟩
    · rename_i held
      cases got : rowOf rows p with
      | none =>
        simp only [got] at rest
        exact .inl ⟨by simp [Db.openReservation, newest, missing got], rest.1⟩
      | some row =>
        simp only [got] at rest
        have agrees : Agrees rows command.warehouseId d p := by
          refine agrees.resolve_left ?_
          rintro ⟨m', newest', terminal⟩
          cases newest.symm.trans newest'
          exact held terminal
        obtain ⟨rfl, v, balance⟩ := agrees row got
        refine .inr ⟨row, m.quantityDelta.natAbs, ?_, rfl, post_spec ?_ rest⟩
        · simp [Db.openReservation, newest, balance, held]
        · rw [closes.productId, balance]
          rfl

theorem closed_after {x : Posting} (one : Posted o w [x] d after)
    (terminal : x.type = .RELEASE ∨ x.type = .COMMIT) : after.Closed o x.productId := by
  obtain ⟨m, record, added, newer⟩ := one.movementsOf_posted (by simp [distinctProducts])
    (List.mem_singleton_self x)
  exact ⟨m, latest_append added newer, record.type ▸ terminal⟩

/-- The loop over any list of products posts once for each open one. -/
theorem endReservationLoop_spec {productIds : List Uuid} (closes : Closing closing)
    (agrees : ∀ p ∈ productIds, d.Closed command.orderId p ∨ Agrees rows command.warehouseId d p)
    (missing : ∀ p ∈ productIds, rowOf rows p = none →
      d.inventory.lookup (command.warehouseId, p) = none)
    (ran : (productIds.forM (endReservation closing command rows)).Completes store d after ()) :
    ∃ postings, Posted command.orderId command.warehouseId postings d after ∧
      distinctProducts postings ∧ ∀ x, x ∈ postings ↔ ∃ p ∈ productIds, ∃ row q,
        d.openReservation command.orderId command.warehouseId p = some (row, q) ∧
        x = closing row q := by
  induction productIds generalizing d with
  | nil =>
    obtain ⟨rfl, -⟩ := ran
    exact ⟨[], .nil, .nil, by simp⟩
  | cons p productIds ih =>
    obtain ⟨mid, _, first, rest⟩ := Program.completes_bind.mp ran
    rcases endReservation_spec (agrees p (by simp)) (missing p (by simp)) closes first with
      ⟨closed, rfl⟩ | ⟨row, q, held, rfl, one⟩
    · obtain ⟨postings, posted, distinct, only⟩ := ih
        (fun p' member => agrees p' (by simp [member]))
        (fun p' member => missing p' (by simp [member])) rest
      refine ⟨postings, posted, distinct, fun x => (only x).trans ?_⟩
      simp [closed]
    · have closed := closed_after one (closes.terminal row q)
      rw [closes.productId] at closed
      have frame : ∀ p' ≠ row.productId, mid.movementsOf command.orderId p' =
          d.movementsOf command.orderId p' ∧
          mid.inventory.lookup (command.warehouseId, p') =
            d.inventory.lookup (command.warehouseId, p') := by
        intro p' other
        have apart : (closing row q).productId ≠ p' := by
          rw [closes.productId]
          exact other.symm
        refine ⟨one.movementsOf_frame (.inr ?_), one.balance_frame _ ?_⟩
        · intro x member
          cases List.mem_singleton.mp member
          exact apart
        · intro x member same
          cases List.mem_singleton.mp member
          exact apart (Prod.mk.inj same).2.symm
      obtain ⟨postings, posted, distinct, only⟩ := ih (fun p' member => by
          by_cases here : p' = row.productId
          · exact .inl (here ▸ closed)
          · have same := frame p' here
            refine (agrees p' (by simp [member])).imp ?_ ?_
            · simp only [Db.Closed, Db.latest, same.1, imp_self]
            · simp only [Agrees, same.2, imp_self]) (fun p' member unread => by
          by_cases here : p' = row.productId
          · have gone := missing p' (by simp [member]) unread
            rw [here] at gone
            simp [Db.openReservation, gone] at held
          · rw [(frame p' here).2]
            exact missing p' (by simp [member]) unread) rest
      have reopened : ∀ p' row' q',
          mid.openReservation command.orderId command.warehouseId p' = some (row', q') ↔
          p' ≠ row.productId ∧
            d.openReservation command.orderId command.warehouseId p' = some (row', q') := by
        intro p' row' q'
        by_cases here : p' = row.productId
        · simp [here, closed.openReservation]
        · simp [here, openReservation_congr (frame p' here).1 (frame p' here).2]
      have fresh : (closing row q).productId ∉ postings.map (·.productId) := by
        rintro member
        obtain ⟨x, inside, same⟩ := List.mem_map.mp member
        obtain ⟨p', -, row', q', held', rfl⟩ := (only x).mp inside
        have other := ((reopened p' row' q').mp held').1
        rw [closes.productId, closes.productId, (openReservation_eq held').1] at same
        exact other same
      refine ⟨_, one.cons posted fresh, List.nodup_cons.mpr ⟨fresh, distinct⟩, fun x => ?_⟩
      simp only [List.mem_cons, only, reopened]
      constructor
      · rintro (rfl | ⟨p', member, row', q', ⟨-, held'⟩, rfl⟩)
        · exact ⟨_, .inl rfl, row, q, held, rfl⟩
        · exact ⟨p', .inr member, row', q', held', rfl⟩
      · rintro ⟨p', member, row', q', held', rfl⟩
        by_cases here : p' = row.productId
        · subst here
          cases held.symm.trans held'
          exact .inl rfl
        · exact .inr ⟨p', member.resolve_left here, row', q', ⟨here, held'⟩, rfl⟩

/-- `release` and `commit` post once for every listed product the order still
holds at the warehouse, and for no other. -/
theorem endReservations_spec (closes : Closing closing)
    (ran : (endReservations closing command).Completes store d after ()) :
    ∃ postings, Posted command.orderId command.warehouseId postings d after ∧
      distinctProducts postings ∧ ∀ x, x ∈ postings ↔ ∃ p ∈ command.productIds, ∃ row q,
        d.openReservation command.orderId command.warehouseId p = some (row, q) ∧
        x = closing row q := by
  obtain ⟨d', rows, locked, looped⟩ := Program.completes_bind.mp ran
  obtain ⟨rfl, rfl⟩ := lockInventoryRows_spec locked
  exact endReservationLoop_spec closes (fun p _ => .inr fun row => rowOf_inventoryRows)
    (fun p => rowOf_none) looped

end Canals
