import Canals.Allocation.RowLocks
import Canals.Database.Sequence
import Canals.Locking.Serial

/-! Transactions that each run `reserve`, in any interleaving of their lock,
check and write steps. A movement needs only its inventory row to be locked
here: nobody looks for an order's latest movement. -/
namespace Canals
open Locking Program

def Sql.ofReserve : Sql → Bool
  | startTransaction | setLocalLockTimeout _ | lockInventory _ _ | updateInventory _
  | insertMovement _ | updateReservation _ _ _ => true
  | _ => false

/-- The statements of `reserve`, with what they rely on. -/
def reservations : SqlStore where
  exec s i d := if s.ofReserve then s.exec i d else .error .entityNotFound
  apply w d := d.apply w
  admits
    | .insertMovement params, i, d => d.movements.all fun m =>
        (m.warehouseId, m.productId) = (params.warehouseId, params.productId) → m.id < i.nextval
    | _, _, _ => true
  need
    | .updateInventory params => [.stock (params.warehouseId, params.productId)]
    | .insertMovement params => [.stock (params.warehouseId, params.productId)]
    | _ => []
  gain := Sql.gain

theorem reservations_locksRows : LocksRows reservations where
  exec _ _ _ _ := rfl
  admits _ _ _ _ := rfl
  need _ _ := rfl
  gain _ _ _ := rfl

namespace Reservations

def Same : Lock → Db → Db → Prop
  | .order o, a, b => a.orders.lookup o = b.orders.lookup o
  | .stock k, a, b => (Lock.stock k).Same a b
  | .payment _, _, _ => True

def Reads : Sql → Lock → Prop
  | .updateReservation _ _ orderId, l => l = .order orderId
  | .lockInventory warehouseId productIds, l => ∃ p ∈ productIds, l = .stock (warehouseId, p)
  | .updateInventory params, l => l = .stock (params.warehouseId, params.productId)
  | .insertMovement params, l => l = .stock (params.warehouseId, params.productId)
  | _, _ => False

def Touches : Write → Lock → Prop
  | .putOrder id _, l => l = .order id
  | .putInventory key _, l => l = .stock key
  | .addMovement m, l => l = .stock (m.warehouseId, m.productId)
  | _, _ => False

theorem admits_insertMovement {params : InsertMovementParams} {i : Input} {d : Db} :
    reservations.admits (.insertMovement params) i d ↔ ∀ m ∈ d.movements,
      (m.warehouseId, m.productId) = (params.warehouseId, params.productId) →
        m.id < i.nextval := by
  simp only [reservations, List.all_eq_true, decide_eq_true_eq]

theorem exec_kept {s : Sql} {i : Input} {d : Db} {r : s.Result} {ws : List Write}
    (ran : reservations.exec s i d = .ok (r, ws)) :
    s.ofReserve ∧ s.exec i d = .ok (r, ws) := by
  simp only [reservations] at ran
  split at ran
  · exact ⟨‹_›, ran⟩
  · cases ran

theorem exec_same {s : Sql} {i : Input} {a b : Db} (same : ∀ l, Reads s l → Same l a b) :
    reservations.exec s i a = reservations.exec s i b := by
  cases s with
  | lockInventory w productIds =>
    have agree := Db.inventoryRows_same fun p member => same (.stock (w, p)) ⟨p, member, rfl⟩
    simp only [reservations, Sql.exec, agree]
  | updateInventory params =>
    have agree : (Lock.stock _).Same a b := same _ rfl
    simp only [reservations, Sql.exec, agree.1]
  | updateReservation w expiresAt o =>
    have agree : a.orders.lookup o = b.orders.lookup o := same _ rfl
    simp only [reservations, Sql.exec, agree]
  | _ => rfl

theorem admits_same {s : Sql} {i : Input} {a b : Db} (same : ∀ l, Reads s l → Same l a b)
    (admits : reservations.admits s i a) : reservations.admits s i b := by
  cases s <;> try rfl
  case insertMovement params =>
    rw [admits_insertMovement] at admits ⊢
    intro m member row
    have agree : (Lock.stock _).Same a b := same _ rfl
    have here : m ∈ b.movements.filter fun m =>
        (m.warehouseId, m.productId) = (params.warehouseId, params.productId) :=
      List.mem_filter.mpr ⟨member, by simpa using row⟩
    rw [← agree.2] at here
    exact admits m (List.mem_of_mem_filter here) row

theorem apply_same {l : Lock} {w : Write} {a b : Db} (same : Same l a b) :
    Same l (a.apply w) (b.apply w) := by
  cases l with
  | order o =>
    cases w with
    | putOrder id new =>
      by_cases here : o = id
      · subst here
        simp [Same, Db.apply]
      · simpa [Same, Db.apply, AList.lookup_insert_ne here] using same
    | putInventory _ _ =>
      simp only [Db.apply]
      split <;> split <;> exact same
    | _ => exact same
  | stock k => exact Db.apply_same (l := .stock k) same
  | payment _ => trivial

theorem apply_frame {l : Lock} {w : Write} {d : Db} (untouched : ¬ Touches w l) :
    Same l d (d.apply w) := by
  cases l with
  | order o =>
    cases w with
    | putOrder id new =>
      have other : o ≠ id := by simpa [Touches] using untouched
      exact (AList.lookup_insert_ne other).symm
    | putInventory _ _ =>
      simp only [Db.apply]
      split <;> rfl
    | _ => rfl
  | stock k =>
    refine Db.apply_frame (l := .stock k) fun touched => untouched ?_
    cases w with
    | addMovement m =>
      rcases touched with other | same
      · cases other
      · exact same
    | addItems items =>
      obtain ⟨item, -, same⟩ := List.mem_map.mp touched
      cases same
    | putInventory key balance => exact touched
    | _ => cases touched
  | payment _ => trivial

theorem covers {s : Sql} {i : Input} {d : Db} {r : s.Result} {ws : List Write} {l : Lock}
    (ran : reservations.exec s i d = .ok (r, ws)) (read : Reads s l) :
    l ∈ reservations.need s ∨ l ∈ reservations.gain s r ∨ l.Frozen d := by
  obtain ⟨-, ran⟩ := exec_kept ran
  cases s with
  | lockInventory w productIds => exact (Sql.reads_covered ran read).imp_left nofun
  | updateReservation w expiresAt o => exact .inr (.inl (List.mem_singleton.mpr read))
  | updateInventory params => exact .inl (List.mem_singleton.mpr read)
  | insertMovement params => exact .inl (List.mem_singleton.mpr read)
  | _ => cases read

theorem writes {s : Sql} {i : Input} {d : Db} {r : s.Result} {ws : List Write} {w : Write}
    {l : Lock} (ran : reservations.exec s i d = .ok (r, ws)) (written : w ∈ ws)
    (touched : Touches w l) : l ∈ reservations.need s ∨ l ∈ reservations.gain s r := by
  obtain ⟨kept, ran⟩ := exec_kept ran
  cases s <;> simp only [Sql.ofReserve, Bool.false_eq_true] at kept <;>
    simp only [Sql.exec] at ran <;> (repeat' split at ran) <;> cases ran <;>
    simp only [List.mem_singleton, List.not_mem_nil] at written <;> subst written <;>
    simp_all [Touches, reservations, Sql.gain]

theorem lawful : reservations.Lawful Same Reads Touches Lock.Frozen where
  same_refl l d := by cases l <;> simp [Same, Lock.Same]
  same_trans {l} a b c first second := by
    cases l with
    | order _ => exact Eq.trans first second
    | stock _ => exact ⟨first.1.trans second.1, first.2.trans second.2⟩
    | payment _ => trivial
  exec_same := exec_same
  admits_same := admits_same
  apply_same := apply_same
  apply_frame := apply_frame
  covers := covers
  writes := writes
  frozen_gain ran gained := store_lawful.frozen_gain (exec_kept ran).2 gained
  frozen_apply := Lock.frozen_apply

end Reservations

/-- `dataSource.transaction(manager => inventoryService.reserve(manager, command))`. -/
def reserveTransaction (command : ReserveCommand) : Tx Unit :=
  transaction fun manager => reserve manager command

/-- The database's clock and the last movement id drawn. -/
structure ReserverEnv where
  clock : Timestamptz
  lastMovementId : Nat

def reservers : Client Sql Sql.Result DbError Thrown Db Lock Input ReserverEnv
    (Shot ReserveCommand Thrown Unit) Empty Timestamptz :=
  oneShot (fun command => byRow (reserveTransaction command))
    (fun env => (⟨env.clock, env.lastMovementId + 1⟩,
      { env with lastMovementId := env.lastMovementId + 1 }))
    (fun env clock => some { env with clock })

abbrev Reservers (P : Type) :=
  State Sql Sql.Result DbError Thrown Db Write Lock ReserverEnv
    (Shot ReserveCommand Thrown Unit) P

/-- Nobody has begun, and the movements' ids have been drawn. -/
structure Reservers.Start {P : Type} (commands : P → ReserveCommand) (s : Reservers P) : Prop where
  waiting : ∀ p, s.session p = { ctl := .waiting (commands p) }
  unlocked : s.locks = []
  recorded : Recorded s.env.lastMovementId s.data

/-- Every step but crashes and faults that are not the data's, such as timeouts. -/
def Reservers.Steps {P : Type} [DecidableEq P] : Reservers P → Reservers P → Prop :=
  Relation.ReflTransGen fun s t => ∃ a, s.step reservations reservers a = some t ∧
    s.Sound reservations reservers a

theorem reservers_supplies : reservers.Supplies reservations
    (fun e => Recorded e.lastMovementId) (fun e => Drawn e.lastMovementId) := by
  have supplies : reservers.Supplies store
      (fun e => Recorded e.lastMovementId) (fun e => Drawn e.lastMovementId) := by
    refine supplies_of_sequence (fun _ => ⟨rfl, rfl⟩) (fun {_ _ _ _ m} _ => m.elim) ?_
    intro e clock e' happened
    cases happened
    exact Nat.le_refl _
  refine { supplies with admits := ?_, exec := ?_ }
  · intro e d s recorded
    cases s with
    | insertMovement params =>
      exact Reservations.admits_insertMovement.mpr fun m member _ =>
        Nat.lt_succ_of_le (recorded m member)
    | _ => rfl
  · intro e d s r ws w recorded answered member
    exact supplies.exec recorded (Reservations.exec_kept answered).2 member

theorem guarded_reserveLine {command : ReserveCommand} {rows : List InventoryRow}
    {line : OrderLine} {held : List Lock}
    (locked : rows.map (fun row => Lock.stock (command.warehouseId, row.productId)) ⊆ held) :
    (reserveLine command rows line).Guarded reservations held := by
  unfold reserveLine
  split
  · rename_i row found
    have stock : .stock (command.warehouseId, line.productId) ∈ held := locked (stock_held found)
    have needed : ∀ {s : Sql}, reservations.need s = [.stock (command.warehouseId,
        line.productId)] → ∀ l ∈ reservations.need s, l ∈ held := by
      intro s is l member
      rw [is] at member
      cases List.mem_singleton.mp member
      exact stock
    refine ⟨needed rfl, fun _ => ⟨fun l member => ?_, fun _ => trivial⟩⟩
    exact List.mem_append_left _ (needed (s := .insertMovement _) rfl l member)
  · trivial

theorem guarded_reserveTransaction (command : ReserveCommand) :
    (reserveTransaction command).Guarded reservations [] := by
  refine ⟨nofun, fun now => ⟨nofun, fun _ => ⟨nofun, fun rows => ?_⟩⟩⟩
  show (ite _ _ _ : Tx Unit).Guarded reservations _
  split
  · refine guarded_bind ?_ fun _ more _ => ⟨nofun, fun _ => trivial⟩
    have locked : rows.map (fun row => Lock.stock (command.warehouseId, row.productId)) ⊆
        [] ++ reservations.gain .startTransaction now ++
          reservations.gain (.setLocalLockTimeout LOCK_TIMEOUT) () ++
          reservations.gain (.lockInventory command.warehouseId
            (command.lines.map (·.productId))) rows := List.subset_append_right _ _
    generalize [] ++ reservations.gain .startTransaction now ++
      reservations.gain (.setLocalLockTimeout LOCK_TIMEOUT) () ++
      reservations.gain (.lockInventory command.warehouseId
        (command.lines.map (·.productId))) rows = held at locked
    generalize command.lines = lines
    induction lines generalizing held with
    | nil => trivial
    | cons line lines ih =>
      refine guarded_bind (guarded_reserveLine locked) fun _ more included => ih more ?_
      exact List.Subset.trans locked included
  · trivial

end Canals
