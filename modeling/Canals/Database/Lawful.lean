import Canals.Database.Sql
import Mathlib.Data.List.Dedup

/-! What each lock guards, and that the statements keep to the locks their
callers hold: the hypothesis under which transactions are indivisible. -/
namespace Canals
open Locking

/-- Equal as far as lock `l` guards: an order with its items and movements, an
inventory row with its movements, or a payments row. -/
def Lock.Same : Lock → Db → Db → Prop
  | .order o, a, b => a.orders.lookup o = b.orders.lookup o ∧ a.itemsOf o = b.itemsOf o ∧
      a.movements.filter (·.orderId = o) = b.movements.filter (·.orderId = o)
  | .stock k, a, b => a.inventory.lookup k = b.inventory.lookup k ∧
      a.movements.filter (fun m => (m.warehouseId, m.productId) = k) =
        b.movements.filter fun m => (m.warehouseId, m.productId) = k
  | .payment id, a, b => a.payments.lookup id = b.payments.lookup id

/-- What the answer to a statement depends on. -/
def Sql.reads : Sql → Lock → Prop
  | .findOrder id, l => l = .order id
  | .saveOrder entity, l => l = .order entity.id
  | .updateReservation _ _ orderId, l => l = .order orderId
  | .saveItems items, l => l ∈ items.map (Lock.order ·.orderId)
  | .findItems orderId, l => l = .order orderId
  | .lockInventory warehouseId productIds, l => ∃ p ∈ productIds, l = .stock (warehouseId, p)
  | .updateInventory params, l => l = .stock (params.warehouseId, params.productId)
  | .latestMovement orderId _, l => l = .order orderId
  | .insertMovement params, l =>
      l = .order params.orderId ∨ l = .stock (params.warehouseId, params.productId)
  | .settlePayment payment _, l => l = .payment payment.paymentId
  | .insertPayment entity, l => l = .payment entity.id
  | .updatePayment _ entity, l => l = .payment entity.id
  | _, _ => False

def Write.touches : Write → Lock → Prop
  | .putOrder id _, l => l = .order id
  | .addItems items, l => l ∈ items.map (Lock.order ·.orderId)
  | .putInventory key _, l => l = .stock key
  | .addMovement m, l => l = .order m.orderId ∨ l = .stock (m.warehouseId, m.productId)
  | .putPayment id _, l => l = .payment id
  | .addJob _, _ => False

/-- No statement creates an inventory row, so a missing one stays missing. -/
def Lock.Frozen : Lock → Db → Prop
  | .stock k, d => d.inventory.lookup k = none
  | _, _ => False

namespace Db
variable {a b d : Db} {o p w : Uuid}

theorem latest_same (same : (Lock.order o).Same a b) (p : Uuid) :
    a.latest o p = b.latest o p := by
  have split : ∀ d : Db, d.movementsOf o p =
      (d.movements.filter (·.orderId = o)).filter (·.productId = p) := by
    intro d
    simp [movementsOf, List.filter_filter, and_comm]
  simp only [latest, split, same.2.2]

theorem inventoryRows_same {productIds : List Uuid}
    (same : ∀ p ∈ productIds, (Lock.stock (w, p)).Same a b) :
    a.inventoryRows w productIds = b.inventoryRows w productIds := by
  refine List.filterMap_congr fun p member => ?_
  have asked : p ∈ productIds := List.mem_dedup.mp ((List.mem_insertionSort _).mp member)
  rw [(same p asked).1]

theorem acceptsItems_same {items : List OrderItemRow}
    (same : ∀ item ∈ items, (Lock.order item.orderId).Same a b) :
    a.acceptsItems items = b.acceptsItems items := by
  simp only [acceptsItems, decide_eq_decide]
  refine and_congr_right fun _ => forall₂_congr fun item member => ?_
  rw [(same item member).2.1]

theorem mem_inventoryRows {productIds : List Uuid} {row : InventoryRow} :
    row ∈ d.inventoryRows w productIds ↔ row.productId ∈ productIds ∧
      ∃ v, d.inventory.lookup (w, row.productId) =
        some ⟨row.quantityAvailable, row.quantityReserved, v⟩ := by
  simp only [inventoryRows, List.mem_filterMap, List.mem_insertionSort, List.mem_dedup,
    Option.map_eq_some_iff]
  constructor
  · rintro ⟨p, member, b, found, rfl⟩
    exact ⟨member, b.version, found⟩
  · rintro ⟨member, v, found⟩
    exact ⟨row.productId, member, _, found, rfl⟩

end Db

theorem Sql.exec_same {s : Sql} {i : Input} {a b : Db}
    (same : ∀ l, s.reads l → l.Same a b) : s.exec i a = s.exec i b := by
  cases s with
  | startTransaction | newDate _ | lockOrder _ | setLocalLockTimeout _ | insertMovement _
  | sendJob _ => rfl
  | findOrder id | saveOrder entity | updateReservation _ _ _ =>
    simp only [exec, (same _ rfl).1]
  | findItems o => simp only [exec, (same _ rfl).2.1]
  | saveItems items =>
    have agree := Db.acceptsItems_same fun item member =>
      same (.order item.orderId) (List.mem_map_of_mem member)
    simp only [exec, agree]
  | lockInventory w productIds =>
    have agree := Db.inventoryRows_same fun p member => same (.stock (w, p)) ⟨p, member, rfl⟩
    simp only [exec, agree]
  | updateInventory params => simp only [exec, (same _ rfl).1]
  | latestMovement o p => simp only [exec, Db.latest_same (same _ rfl)]
  | settlePayment payment _ =>
    have agree : a.payments.lookup _ = b.payments.lookup _ := same _ rfl
    simp only [exec, agree]
  | insertPayment entity | updatePayment _ entity =>
    have agree : a.payments.lookup _ = b.payments.lookup _ := same _ rfl
    simp only [exec, agree]

theorem Sql.admits_same {s : Sql} {i : Input} {a b : Db}
    (same : ∀ l, s.reads l → l.Same a b) (admits : s.admits i a) : s.admits i b := by
  cases s <;> try rfl
  case insertMovement params =>
    rw [Sql.admits_insertMovement] at admits ⊢
    intro m member guarded
    rcases guarded with order | stock
    · have here : m ∈ b.movements.filter (·.orderId = params.orderId) :=
        List.mem_filter.mpr ⟨member, by simpa using order⟩
      rw [← (same _ (.inl rfl)).2.2] at here
      exact admits m (List.mem_of_mem_filter here) (.inl order)
    · have here : m ∈ b.movements.filter fun m =>
          (m.warehouseId, m.productId) = (params.warehouseId, params.productId) :=
        List.mem_filter.mpr ⟨member, by simpa using stock⟩
      rw [← (same _ (.inr rfl)).2] at here
      exact admits m (List.mem_of_mem_filter here) (.inr stock)

theorem Db.apply_same {l : Lock} {w : Write} {a b : Db} (same : l.Same a b) :
    l.Same (a.apply w) (b.apply w) := by
  cases l with
  | order o =>
    obtain ⟨row, items, movements⟩ := same
    cases w with
    | putOrder id new =>
      refine ⟨?_, items, movements⟩
      by_cases here : o = id
      · subst here
        simp [apply]
      · simpa [apply, AList.lookup_insert_ne here] using row
    | addItems new => exact ⟨row, by simpa [apply, itemsOf] using items, movements⟩
    | putInventory key balance =>
      simp only [apply]
      split <;> split <;> exact ⟨row, items, movements⟩
    | addMovement m => exact ⟨row, items, by simpa [apply] using movements⟩
    | putPayment _ _ | addJob _ => exact ⟨row, items, movements⟩
  | stock k =>
    obtain ⟨balance, movements⟩ := same
    cases w with
    | putInventory key new =>
      have known : ∀ d : Db, key ∈ d.inventory ↔ (d.inventory.lookup key).isSome :=
        fun d => AList.lookup_isSome.symm
      by_cases here : k = key
      · subst here
        simp only [apply, known, balance]
        split
        · exact ⟨by simp, movements⟩
        · exact ⟨balance, movements⟩
      · simp only [apply]
        split <;> split <;>
          exact ⟨by simpa [AList.lookup_insert_ne here] using balance, movements⟩
    | addMovement m => exact ⟨balance, by simpa [apply] using movements⟩
    | putOrder _ _ | addItems _ | putPayment _ _ | addJob _ => exact ⟨balance, movements⟩
  | payment id =>
    cases w with
    | putPayment other new =>
      by_cases here : id = other
      · subst here
        simp [Lock.Same, apply]
      · simpa [Lock.Same, apply, AList.lookup_insert_ne here] using same
    | putInventory _ _ =>
      simp only [apply]
      split <;> split <;> exact same
    | putOrder _ _ | addItems _ | addMovement _ | addJob _ => exact same

theorem Db.apply_frame {l : Lock} {w : Write} {d : Db} (untouched : ¬ w.touches l) :
    l.Same d (d.apply w) := by
  cases l with
  | order o =>
    cases w with
    | putOrder id new =>
      have other : o ≠ id := by simpa [Write.touches] using untouched
      exact ⟨(AList.lookup_insert_ne other).symm, rfl, rfl⟩
    | addItems new =>
      refine ⟨rfl, ?_, rfl⟩
      have none_of : new.filter (·.orderId = o) = [] := by
        refine List.filter_eq_nil_iff.mpr fun item member same => untouched ?_
        exact List.mem_map.mpr ⟨item, member, by simpa using same⟩
      simp [apply, itemsOf, none_of]
    | putInventory _ _ =>
      simp only [apply]
      split <;> exact ⟨rfl, rfl, rfl⟩
    | addMovement m =>
      have other : m.orderId ≠ o := by
        rintro rfl
        exact untouched (.inl rfl)
      exact ⟨rfl, rfl, by simp [apply, other]⟩
    | putPayment _ _ | addJob _ => exact ⟨rfl, rfl, rfl⟩
  | stock k =>
    cases w with
    | putInventory key new =>
      have other : k ≠ key := by simpa [Write.touches] using untouched
      simp only [apply]
      split
      · exact ⟨(AList.lookup_insert_ne other).symm, rfl⟩
      · exact ⟨rfl, rfl⟩
    | addMovement m =>
      have other : (m.warehouseId, m.productId) ≠ k := by
        rintro rfl
        exact untouched (.inr rfl)
      exact ⟨rfl, by simp [apply, other]⟩
    | putOrder _ _ | addItems _ | putPayment _ _ | addJob _ => exact ⟨rfl, rfl⟩
  | payment id =>
    cases w with
    | putPayment other new =>
      have different : id ≠ other := by simpa [Write.touches] using untouched
      exact (AList.lookup_insert_ne different).symm
    | putInventory _ _ =>
      simp only [apply]
      split <;> rfl
    | putOrder _ _ | addItems _ | addMovement _ | addJob _ => rfl

/-- Statements read and write only what they are issued under or lock. -/
theorem Sql.writes_covered {s : Sql} {i : Input} {d : Db} {r : s.Result} {ws : List Write}
    {w : Write} {l : Lock} (ran : s.exec i d = .ok (r, ws)) (written : w ∈ ws)
    (touched : w.touches l) : l ∈ s.need ∨ l ∈ s.gain r := by
  cases s <;> simp only [exec] at ran <;> (repeat' split at ran) <;> cases ran <;>
    simp only [List.mem_singleton, List.not_mem_nil] at written <;> subst written <;>
    simp_all [Write.touches, need, gain]

theorem Sql.reads_covered {s : Sql} {i : Input} {d : Db} {r : s.Result} {ws : List Write}
    {l : Lock} (ran : s.exec i d = .ok (r, ws)) (read : s.reads l) :
    l ∈ s.need ∨ l ∈ s.gain r ∨ l.Frozen d := by
  cases s with
  | lockInventory w productIds =>
    obtain ⟨p, asked, rfl⟩ := read
    cases ran
    cases found : d.inventory.lookup (w, p) with
    | none => exact .inr (.inr found)
    | some b =>
      refine .inr (.inl (List.mem_map.mpr ⟨⟨p, b.available, b.reserved⟩, ?_, rfl⟩))
      exact Db.mem_inventoryRows.mpr ⟨asked, b.version, found⟩
  | insertMovement params => exact .inl (by simpa [reads, need] using read)
  | saveItems items => exact .inl read
  | insertPayment entity => exact .inr (.inl (by simp_all [reads, gain]))
  | startTransaction | newDate _ | lockOrder _ | setLocalLockTimeout _ | sendJob _ => cases read
  | findOrder _ | saveOrder _ | updateReservation _ _ _ | findItems _ | updateInventory _
  | latestMovement _ _ | settlePayment _ _ | updatePayment _ _ =>
    simp_all [reads, need, gain]

theorem Lock.frozen_apply {l : Lock} {w : Write} {d : Db} :
    l.Frozen (d.apply w) ↔ l.Frozen d := by
  cases l with
  | order _ | payment _ => rfl
  | stock k =>
    cases w with
    | putInventory key balance =>
      simp only [Frozen, Db.apply]
      split
      · rename_i present
        by_cases here : k = key
        · subst here
          have found := AList.lookup_isSome.mpr present
          simp only [AList.lookup_insert, reduceCtorEq, false_iff]
          intro missing
          simp [missing] at found
        · rw [AList.lookup_insert_ne here]
      · rfl
    | putOrder _ _ | addItems _ | addMovement _ | putPayment _ _ | addJob _ => rfl

/-- The locking discipline of the whole statement set. -/
theorem store_lawful : store.Lawful Lock.Same Sql.reads Write.touches Lock.Frozen where
  same_refl l d := by cases l <;> simp [Lock.Same]
  same_trans {l} a b c first second := by
    cases l with
    | order _ =>
      exact ⟨first.1.trans second.1, first.2.1.trans second.2.1, first.2.2.trans second.2.2⟩
    | stock _ => exact ⟨first.1.trans second.1, first.2.trans second.2⟩
    | payment _ => exact first.trans second
  exec_same := Sql.exec_same
  admits_same := Sql.admits_same
  apply_same := Db.apply_same
  apply_frame := Db.apply_frame
  covers := Sql.reads_covered
  writes := Sql.writes_covered
  frozen_gain {s i d r ws l} ran gained absent := by
    cases s <;> simp only [store, Sql.gain, List.not_mem_nil, List.mem_singleton] at gained <;>
      try (subst gained; exact absent)
    case lockInventory w productIds =>
      cases ran
      obtain ⟨row, member, rfl⟩ := List.mem_map.mp gained
      obtain ⟨_, v, found⟩ := Db.mem_inventoryRows.mp member
      have missing : d.inventory.lookup (w, row.productId) = none := absent
      simp [missing] at found
    case insertPayment entity =>
      rcases List.mem_pair.mp gained with rfl | rfl <;> exact absent
  frozen_apply := Lock.frozen_apply

end Canals
