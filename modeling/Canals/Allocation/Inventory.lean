import Canals.Database.Lawful

/-! `InventoryService` and its helpers. None of the three methods opens a
transaction: they are parts of their callers' bodies. -/
namespace Canals

structure OrderLine where
  productId : Uuid
  quantity : Int
  deriving DecidableEq

structure ReserveCommand where
  orderId : Uuid
  warehouseId : Uuid
  lines : List OrderLine

structure ReleaseCommand where
  orderId : Uuid
  warehouseId : Uuid
  productIds : List Uuid

def RESERVATION_TTL_MINUTES : Int := 15

def LOCK_TIMEOUT : String := "3s"

def Timestamptz.addMinutes (t : Timestamptz) (minutes : Int) : Timestamptz :=
  ⟨t.us + minutes * 60000000⟩

/-- One ledger entry with the balances it leaves. -/
structure Posting where
  productId : Uuid
  type : MovementType
  quantityDelta : Int
  availableAfter : Int
  reservedAfter : Int

def lockInventoryRows (warehouseId : Uuid) (productIds : List Uuid) : Tx (List InventoryRow) := do
  query (.setLocalLockTimeout LOCK_TIMEOUT)
  query (.lockInventory warehouseId productIds)

/-- `byProductId.get(productId)`. -/
def rowOf (byProductId : List InventoryRow) (productId : Uuid) : Option InventoryRow :=
  byProductId.find? (·.productId = productId)

/-- `updateInventoryBalances` followed by `insertMovement`. -/
def post (orderId warehouseId : Uuid) (posting : Posting) : Tx Unit := do
  query (.updateInventory {
    warehouseId
    productId := posting.productId
    availableAfter := posting.availableAfter
    reservedAfter := posting.reservedAfter })
  query (.insertMovement {
    warehouseId
    productId := posting.productId
    orderId
    type := posting.type
    quantityDelta := posting.quantityDelta
    availableAfter := posting.availableAfter
    reservedAfter := posting.reservedAfter })

def isUnmet (byProductId : List InventoryRow) (line : OrderLine) : Bool :=
  match rowOf byProductId line.productId with
  | some row => row.quantityAvailable < line.quantity
  | none => true

def reservePosting (row : InventoryRow) (line : OrderLine) : Posting where
  productId := line.productId
  type := .RESERVE
  quantityDelta := -line.quantity
  availableAfter := row.quantityAvailable - line.quantity
  reservedAfter := row.quantityReserved + line.quantity

def reserveLine (command : ReserveCommand) (byProductId : List InventoryRow) (line : OrderLine) :
    Tx Unit :=
  match rowOf byProductId line.productId with
  | some row => post command.orderId command.warehouseId (reservePosting row line)
  | none => .throw (.error "Cannot read properties of undefined (reading 'quantity_available')")

def reserve (manager : EntityManager) (command : ReserveCommand) : Tx Unit := do
  let productIds := command.lines.map (·.productId)
  let byProductId ← (lockInventoryRows command.warehouseId productIds).mapError fun
    | .database .lockTimeout => .insufficientStock productIds
    | error => error
  let unmetProductIds := (command.lines.filter (isUnmet byProductId)).map (·.productId)
  if unmetProductIds = [] then do
    command.lines.forM (reserveLine command byProductId)
    query (.updateReservation command.warehouseId
      (manager.now.addMinutes RESERVATION_TTL_MINUTES) command.orderId)
  else .throw (.insufficientStock unmetProductIds)

/-- The loop body of `release` and `commit`: a line whose latest movement is
terminal, or that has no row, is left alone. -/
def endReservation (closing : InventoryRow → Int → Posting) (command : ReleaseCommand)
    (byProductId : List InventoryRow) (productId : Uuid) : Tx Unit := do
  let latest ← query (.latestMovement command.orderId productId)
  match latest with
  | none => return
  | some latest =>
    if latest.type = .RELEASE ∨ latest.type = .COMMIT then return
    else match rowOf byProductId productId with
      | none => return
      | some row =>
        post command.orderId command.warehouseId (closing row latest.quantityDelta.natAbs)

def endReservations (closing : InventoryRow → Int → Posting) (command : ReleaseCommand) :
    Tx Unit := do
  let byProductId ← lockInventoryRows command.warehouseId command.productIds
  command.productIds.forM (endReservation closing command byProductId)

def releasePosting (row : InventoryRow) (reservedQuantity : Int) : Posting where
  productId := row.productId
  type := .RELEASE
  quantityDelta := reservedQuantity
  availableAfter := row.quantityAvailable + reservedQuantity
  reservedAfter := row.quantityReserved - reservedQuantity

/-- The units left the available pool when they were reserved. -/
def commitPosting (row : InventoryRow) (reservedQuantity : Int) : Posting where
  productId := row.productId
  type := .COMMIT
  quantityDelta := 0
  availableAfter := row.quantityAvailable
  reservedAfter := row.quantityReserved - reservedQuantity

def release : ReleaseCommand → Tx Unit := endReservations releasePosting

def commit : ReleaseCommand → Tx Unit := endReservations commitPosting

section Guards
open Locking Program
variable {o w : Uuid} {held : List Lock} {x : Posting}

theorem guarded_query {s : Sql} (needed : ∀ l ∈ s.need, l ∈ held) :
    (query s).Guarded store held :=
  ⟨needed, fun _ => trivial⟩

theorem guarded_forM {α : Type} {xs : List α} {step : α → Tx Unit}
    (each : ∀ a ∈ xs, ∀ more, held ⊆ more → (step a).Guarded store more) :
    (xs.forM step).Guarded store held := by
  induction xs generalizing held with
  | nil => trivial
  | cons a xs ih =>
    refine guarded_bind (each a (by simp) held (List.Subset.refl _)) fun _ more included => ?_
    exact ih fun b member more' included' =>
      each b (by simp [member]) more' (List.Subset.trans included included')

theorem guarded_post (order : .order o ∈ held) (stock : .stock (w, x.productId) ∈ held) :
    (post o w x).Guarded store held := by
  refine guarded_bind (guarded_query (by simpa [Sql.need] using stock)) fun _ more included => ?_
  refine guarded_query ?_
  simpa [Sql.need] using ⟨included order, included stock⟩

theorem stock_held {rows : List InventoryRow} {p : Uuid} {row : InventoryRow}
    (found : rowOf rows p = some row) :
    .stock (w, p) ∈ rows.map fun row => Lock.stock (w, row.productId) := by
  have same : row.productId = p := by simpa using List.find?_some found
  exact List.mem_map.mpr ⟨row, List.mem_of_find?_eq_some found, by rw [same]⟩

theorem guarded_reserve {manager : EntityManager} {command : ReserveCommand}
    (order : .order command.orderId ∈ held) : (reserve manager command).Guarded store held := by
  refine ⟨by simp [store, Sql.need], fun _ => ⟨by simp [store, Sql.need], fun rows => ?_⟩⟩
  show (ite _ _ _ : Tx Unit).Guarded store _
  split
  · refine guarded_bind (guarded_forM fun line _ more included => ?_) fun _ more included => ?_
    · rw [reserveLine]
      split
      · rename_i row found
        refine guarded_post (included ?_) (included ?_)
        · simp [order]
        · exact List.mem_append_right _ (stock_held found)
      · trivial
    · exact guarded_query (by simp [Sql.need])
  · trivial

theorem guarded_endReservations {closing : InventoryRow → Int → Posting}
    {command : ReleaseCommand} (order : .order command.orderId ∈ held)
    (productId : ∀ row q, (closing row q).productId = row.productId) :
    (endReservations closing command).Guarded store held := by
  refine ⟨by simp [store, Sql.need], fun _ => ⟨by simp [store, Sql.need], fun rows => ?_⟩⟩
  refine guarded_forM fun p _ more included => ?_
  refine ⟨?_, fun latest => ?_⟩
  · simpa [store, Sql.need] using included (List.mem_append_left _ (by simp [order]))
  · show (match latest with | none => _ | some latest => _ : Tx Unit).Guarded store _
    split
    · trivial
    · split
      · trivial
      · split
        · trivial
        · rename_i row found
          have same : row.productId = p := by simpa using List.find?_some found
          refine guarded_post ?_ ?_
          · exact List.mem_append_left _ (included (by simp [order]))
          · rw [productId, same]
            exact List.mem_append_left _ (included (List.mem_append_right _ (stock_held found)))

end Guards

end Canals
