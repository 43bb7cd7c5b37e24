import Canals.Allocation.Inventory
import Canals.Locking.Endings

/-! `SELECT … ORDER BY product_id FOR UPDATE` row by row: other transactions may
run between two of its locks, and each row is read as it stands once it is
locked. Run alone, a body does the same either way. -/
namespace Canals
open Locking Program

def lockEach (warehouseId : Uuid) (onFault : DbError → Thrown) :
    List Uuid → Tx (List InventoryRow)
  | [] => .pure []
  | productId :: productIds => .exec (.lockInventory warehouseId [productId]) onFault fun row => do
    let rows ← lockEach warehouseId onFault productIds
    return row ++ rows

/-- The body, with its inventory rows locked one after the other. -/
def byRow {α : Type} : Tx α → Tx α
  | .pure a => .pure a
  | .throw e => .throw e
  | .exec (.lockInventory warehouseId productIds) onFault next => do
    let rows ← lockEach warehouseId onFault (productIds.dedup.insertionSort (· ≤ ·))
    byRow (next rows)
  | .exec s onFault next => .exec s onFault fun r => byRow (next r)

abbrev SqlStore := Store Sql Sql.Result DbError Db Write Lock Input

/-- The store answers the statement with the rows as they are, and locks them. -/
structure LocksRows (S : SqlStore) : Prop where
  exec : ∀ w ps i d, S.exec (.lockInventory w ps) i d = .ok (d.inventoryRows w ps, [])
  admits : ∀ w ps i d, S.admits (.lockInventory w ps) i d
  need : ∀ w ps, S.need (.lockInventory w ps) = []
  gain : ∀ w ps rows, S.gain (.lockInventory w ps) rows =
    rows.map fun row => .stock (w, row.productId)

variable {S : SqlStore} {w : Uuid} {onFault : DbError → Thrown} {d after : Db}
  {productIds : List Uuid} {α : Type}

/-- The rows found for these products, in their order. -/
def Db.rowsOf (d : Db) (w : Uuid) (productIds : List Uuid) : List InventoryRow :=
  productIds.filterMap fun p => (d.inventory.lookup (w, p)).map fun b => ⟨p, b.available, b.reserved⟩

theorem inventoryRows_singleton (d : Db) (w p : Uuid) :
    d.inventoryRows w [p] = d.rowsOf w [p] := by
  simp [Db.inventoryRows, Db.rowsOf]

theorem lockEach_ends (locks : LocksRows S) {result : Except Thrown (List InventoryRow)}
    (ended : (lockEach w onFault productIds).Ends S d result after) :
    result = .ok (d.rowsOf w productIds) ∧ after = d := by
  induction productIds generalizing result after with
  | nil => exact ended
  | cons p ps ih =>
    obtain ⟨i, -, ⟨x, failed, -⟩ | ⟨row, ws, answered, rest⟩⟩ := ended
    · cases (locks.exec w [p] i d).symm.trans failed
    · cases (locks.exec w [p] i d).symm.trans answered
      rcases ends_bind.mp rest with ⟨e, -, raised⟩ | ⟨mid, rows, done, last, rfl⟩
      · cases (ih raised).1
      · obtain ⟨same, rfl⟩ := ih done
        cases same
        refine ⟨last.trans ?_, rfl⟩
        rw [inventoryRows_singleton]
        exact congrArg Except.ok (List.filterMap_append (l := [p]) ..).symm

/-- Run alone, the body ends as if all rows were locked at once. -/
theorem byRow_ends (locks : LocksRows S) {body : Tx α} {result : Except Thrown α}
    (ended : (byRow body).Ends S d result after) : body.Ends S d result after := by
  induction body generalizing d with
  | pure a => exact ended
  | throw e => exact ended
  | exec s onFault next ih =>
    have step : (∃ w ps, s = .lockInventory w ps) ∨
        byRow (.exec s onFault next) = .exec s onFault fun r => byRow (next r) := by
      cases s <;> simp [byRow]
    rcases step with ⟨w, ps, rfl⟩ | same
    · rcases ends_bind.mp ended with ⟨e, -, raised⟩ | ⟨mid, rows, done, rest⟩
      · cases (lockEach_ends locks raised).1
      · obtain ⟨answer, rfl⟩ := lockEach_ends locks done
        cases answer
        have input : Input := ⟨⟨0⟩, 0⟩
        exact ⟨input, locks.admits w ps input mid, .inr ⟨_, [], locks.exec w ps input mid, ih _ rest⟩⟩
    · rw [same] at ended
      obtain ⟨i, admits, failed | ⟨r, ws, answered, rest⟩⟩ := ended
      · exact ⟨i, admits, .inl failed⟩
      · exact ⟨i, admits, .inr ⟨r, ws, answered, ih r rest⟩⟩

theorem guarded_lockEach (locks : LocksRows S) {held : List Lock}
    {k : List InventoryRow → Tx α}
    (rest : ∀ rows more, held ++ rows.map (fun row => Lock.stock (w, row.productId)) ⊆ more →
      (k rows).Guarded S more) : (lockEach w onFault productIds >>= k).Guarded S held := by
  induction productIds generalizing held k with
  | nil => exact rest [] held (by simp)
  | cons p ps ih =>
    refine ⟨by simp [locks.need], fun row => ?_⟩
    have assoc : ((lockEach w onFault ps >>= fun rows => Pure.pure (row ++ rows)) >>= k) =
        (lockEach w onFault ps >>= fun rows => k (row ++ rows)) := bind_assoc' ..
    show ((lockEach w onFault ps >>= fun rows => Pure.pure (row ++ rows)) >>= k).Guarded S _
    rw [assoc]
    refine ih fun rows more included => rest (row ++ rows) more ?_
    simpa [locks.gain, List.append_assoc] using included

/-- Locks are taken earlier, never later. -/
theorem guarded_byRow (locks : LocksRows S) {body : Tx α} {held : List Lock}
    (guarded : body.Guarded S held) : (byRow body).Guarded S held := by
  induction body generalizing held with
  | pure a => trivial
  | throw e => trivial
  | exec s onFault next ih =>
    have step : (∃ w ps, s = .lockInventory w ps) ∨
        byRow (.exec s onFault next) = .exec s onFault fun r => byRow (next r) := by
      cases s <;> simp [byRow]
    rcases step with ⟨w, ps, rfl⟩ | same
    · refine guarded_lockEach locks fun rows more included => ?_
      refine ih rows ((guarded.2 rows).mono ?_)
      simpa [locks.gain] using included
    · rw [same]
      exact ⟨guarded.1, fun r => ih r (guarded.2 r)⟩

end Canals
