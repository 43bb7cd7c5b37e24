import Canals.Allocation.Reservations

/-! Concurrent reservations end as they would one at a time. What one comes to
depends on the stock alone, so any serial run in the order in which they ended
comes to the same. -/
namespace Canals
open Locking Program

/-- A ledger row without its id. -/
def Movement.unnumbered (m : Movement) : Movement := { m with id := 0 }

/-- The same stock, and the same ledger up to the ids of its rows. -/
structure Db.SameLedger (a b : Db) : Prop where
  inventory : ∀ k, a.inventory.lookup k = b.inventory.lookup k
  movements : a.movements.map (·.unnumbered) = b.movements.map (·.unnumbered)

section Agreement
variable {a b : Db} {i j : Input}

theorem Db.SameLedger.rows (same : a.SameLedger b) (w : Uuid) (productIds : List Uuid) :
    a.inventoryRows w productIds = b.inventoryRows w productIds := by
  simp only [Db.inventoryRows, same.inventory]

theorem Db.SameLedger.putInventory (same : a.SameLedger b) (key : Uuid × Uuid)
    (balance : Balance) :
    (a.apply (.putInventory key balance)).SameLedger (b.apply (.putInventory key balance)) := by
  have known : ∀ d : Db, key ∈ d.inventory ↔ (d.inventory.lookup key).isSome :=
    fun d => AList.lookup_isSome.symm
  simp only [Db.apply, known, same.inventory key]
  split
  · refine ⟨fun k => ?_, same.movements⟩
    by_cases here : k = key
    · subst here
      simp
    · simpa [AList.lookup_insert_ne here] using same.inventory k
  · exact same

theorem agree_post (o w : Uuid) (x : Posting) :
    Agree reservations Db.SameLedger (post o w x) (post o w x) := by
  refine agree_exec fun {a b i j} same => ?_
  have update : (∃ e, reservations.exec (.updateInventory ⟨w, x.productId, x.availableAfter,
        x.reservedAfter⟩) i a = .error e ∧ reservations.exec (.updateInventory ⟨w, x.productId,
          x.availableAfter, x.reservedAfter⟩) j b = .error e) ∨
      ∃ ws, reservations.exec (.updateInventory ⟨w, x.productId, x.availableAfter,
        x.reservedAfter⟩) i a = .ok ((), ws) ∧ reservations.exec (.updateInventory ⟨w, x.productId,
          x.availableAfter, x.reservedAfter⟩) j b = .ok ((), ws) ∧
        (reservations.applyAll ws a).SameLedger (reservations.applyAll ws b) := by
    simp only [reservations, Sql.ofReserve, if_true, Sql.exec, same.inventory (w, x.productId)]
    split
    · split
      · exact .inr ⟨_, rfl, rfl, same.putInventory _ _⟩
      · exact .inl ⟨_, rfl, rfl⟩
    · exact .inr ⟨_, rfl, rfl, same⟩
  rcases update with failed | ⟨ws, answered, answered', later⟩
  · exact .inl failed
  · refine .inr ⟨(), (), ws, ws, answered, answered', later, ?_⟩
    refine agree_exec fun {a b i j} same => .inr ⟨(), (), _, _, rfl, rfl, ⟨same.inventory, ?_⟩,
      agree_pure ()⟩
    simp only [Store.applyAll_cons, Store.applyAll_nil, reservations, Db.apply, List.map_append,
      same.movements]
    rfl

theorem agree_reserve (manager manager' : EntityManager) (command : ReserveCommand) :
    Agree reservations Db.SameLedger (reserve manager command) (reserve manager' command) := by
  refine agree_bind (agree_mapError _ ?_) fun rows => ?_
  · refine agree_exec fun {a b i j} same => .inr ⟨(), (), _, _, rfl, rfl, same, ?_⟩
    refine agree_exec fun {a b i j} same => .inr ⟨_, _, [], [], rfl, rfl, same, ?_⟩
    rw [same.rows]
    exact agree_pure _
  · show Agree reservations Db.SameLedger (ite _ _ _) (ite _ _ _)
    split
    · refine agree_bind ?_ fun _ => ?_
      · generalize command.lines = lines
        induction lines with
        | nil => exact agree_pure ()
        | cons line lines ih =>
          refine agree_bind ?_ fun _ => ih
          unfold reserveLine
          split
          · exact agree_post _ _ _
          · exact agree_throw _
      · refine agree_exec fun {a b i j} same => .inr ?_
        have stamp : ∀ (d : Db) (i : Input) (t : Timestamptz), ∃ ws, reservations.exec
            (.updateReservation command.warehouseId t command.orderId) i d = .ok ((), ws) ∧
            (reservations.applyAll ws d).inventory = d.inventory ∧
            (reservations.applyAll ws d).movements = d.movements := by
          intro d i t
          simp only [reservations, Sql.ofReserve, if_true, Sql.exec]
          split <;> exact ⟨_, rfl, rfl, rfl⟩
        obtain ⟨ws, answered, stock, ledger⟩ := stamp a i _
        obtain ⟨ws', answered', stock', ledger'⟩ := stamp b j _
        refine ⟨(), (), ws, ws', answered, answered', ⟨?_, ?_⟩, agree_pure ()⟩
        · rw [stock, stock']
          exact same.inventory
        · rw [ledger, ledger']
          exact same.movements
    · exact agree_throw _

/-- What a reservation comes to depends on the stock alone, not on the ids and
the time its statements draw. -/
theorem agree_reserveTransaction (command : ReserveCommand) : Agree reservations Db.SameLedger
    (reserveTransaction command) (reserveTransaction command) :=
  agree_exec fun {_ _ i j} same => .inr ⟨i.clock, j.clock, [], [], rfl, rfl, same,
    agree_reserve _ _ command⟩

end Agreement

section Outcome
variable {d after : Db} {command : ReserveCommand} {result : Except Thrown Unit}

theorem lockInventoryRows_ends {w : Uuid} {productIds : List Uuid}
    {rows : Except Thrown (List InventoryRow)}
    (ended : (lockInventoryRows w productIds).Ends reservations d rows after) :
    rows = .ok (d.inventoryRows w productIds) ∧ after = d := by
  obtain ⟨-, ended⟩ := ends_exec (r := fun _ => ()) (w := fun _ => []) (fun _ => rfl) ended
  obtain ⟨-, ended⟩ := ends_exec (r := fun _ => _) (w := fun _ => []) (fun _ => rfl) ended
  exact ended

/-- What is left of `reserve` once the rows are locked. -/
theorem reserveTransaction_ends
    (ended : (reserveTransaction command).Ends reservations d result after) :
    ∃ expiresAt, (if (command.lines.filter (isUnmet (d.inventoryRows command.warehouseId
          (command.lines.map (·.productId))))).map (·.productId) = [] then do
        command.lines.forM (reserveLine command
          (d.inventoryRows command.warehouseId (command.lines.map (·.productId))))
        query (.updateReservation command.warehouseId expiresAt command.orderId)
      else .throw (.insufficientStock ((command.lines.filter (isUnmet (d.inventoryRows
        command.warehouseId (command.lines.map (·.productId))))).map (·.productId))) :
        Tx Unit).Ends reservations d result after := by
  obtain ⟨i, ended⟩ := ends_exec (r := fun i => i.clock) (w := fun _ => []) (fun _ => rfl) ended
  refine ⟨i.clock.addMinutes RESERVATION_TTL_MINUTES, ?_⟩
  have ended : (reserve ⟨i.clock⟩ command).Ends reservations d result after := ended
  rcases ends_bind.mp ended with ⟨e, rfl, raised⟩ | ⟨mid, rows, locked, rest⟩
  · obtain ⟨rows, locked, failed⟩ := ends_mapError raised
    obtain ⟨rfl, -⟩ := lockInventoryRows_ends locked
    cases failed
  · obtain ⟨rows', locked, answered⟩ := ends_mapError locked
    obtain ⟨rfl, rfl⟩ := lockInventoryRows_ends locked
    cases answered
    exact rest

/-- A posting that the columns can hold. -/
theorem post_ends {o w : Uuid} {x : Posting} {b : Balance}
    (stored : d.inventory.lookup (w, x.productId) = some b)
    (available : 0 ≤ x.availableAfter ∧ fitsInteger x.availableAfter)
    (reserved : 0 ≤ x.reservedAfter ∧ fitsInteger x.reservedAfter)
    (ended : (post o w x).Ends reservations d result after) : result = .ok () ∧
      after.inventory.lookup (w, x.productId) =
        some ⟨x.availableAfter, x.reservedAfter, b.version + 1⟩ := by
  have known : (w, x.productId) ∈ d.inventory := AList.lookup_isSome.mp (by simp [stored])
  have updated : ∀ i, reservations.exec (.updateInventory ⟨w, x.productId, x.availableAfter,
      x.reservedAfter⟩) i d = .ok ((), [.putInventory (w, x.productId)
        ⟨x.availableAfter, x.reservedAfter, b.version + 1⟩]) := by
    intro i
    simp [reservations, Sql.ofReserve, Sql.exec, stored, available, reserved]
  obtain ⟨-, ended⟩ := ends_exec updated ended
  obtain ⟨j, ended⟩ := ends_exec (r := fun _ => ()) (fun _ => rfl) ended
  obtain ⟨rfl, rfl⟩ := ended
  refine ⟨rfl, ?_⟩
  simp [reservations, Db.apply, known]

/-- One unit of a row: taken while there is one. -/
theorem reserve_one_unit {x : Uuid} {b : Balance} (unit : command.lines = [⟨x, 1⟩])
    (stored : d.inventory.lookup (command.warehouseId, x) = some b)
    (available : 0 ≤ b.available) (reserved : 0 ≤ b.reserved)
    (fits : b.available + b.reserved ≤ 2147483647)
    (ran : (reserveTransaction command).Alone reservations d result after) :
    (0 < b.available ∧ result = .ok () ∧ after.inventory.lookup (command.warehouseId, x) =
      some ⟨b.available - 1, b.reserved + 1, b.version + 1⟩) ∨
    (b.available = 0 ∧ result = .error (.insufficientStock [x]) ∧ after = d) := by
  have rows : d.inventoryRows command.warehouseId [x] = [⟨x, b.available, b.reserved⟩] := by
    simp [Db.inventoryRows, stored]
  have ended : ∃ last, (reserveTransaction command).Ends reservations d result last ∧
      (result = .ok () → after = last) ∧ ∀ e, result = .error e → after = d := by
    cases result with
    | ok _ =>
      refine ⟨after, ran, fun _ => rfl, ?_⟩
      rintro _ ⟨⟩
    | error e =>
      obtain ⟨rolled, mid, raised⟩ := ran
      refine ⟨mid, raised, ?_, fun _ _ => rolled⟩
      rintro ⟨⟩
  obtain ⟨last, ended, kept, rolled⟩ := ended
  obtain ⟨expiresAt, rest⟩ := reserveTransaction_ends ended
  simp only [unit, List.map_cons, List.map_nil, rows] at rest
  by_cases enough : b.available < 1
  · have none_left : b.available = 0 := by omega
    simp only [isUnmet, rowOf, List.filter_cons, List.find?_cons, decide_true, enough, if_true,
      List.filter_nil, List.map_cons, List.map_nil, List.cons_ne_nil, if_false] at rest
    obtain ⟨rfl, -⟩ := rest
    exact .inr ⟨none_left, rfl, rolled _ rfl⟩
  · have some_left : 0 < b.available := by omega
    have known : rowOf [⟨x, b.available, b.reserved⟩] x = some ⟨x, b.available, b.reserved⟩ := by
      simp [rowOf]
    simp only [isUnmet, known, List.filter_cons, enough, decide_false, Bool.false_eq_true,
      if_false, List.filter_nil, List.map_nil, if_true, List.forM_eq_forM, List.forM_cons,
      List.forM_nil, reserveLine] at rest
    have posted : ∀ {outcome mid}, ((do
        post command.orderId command.warehouseId
          (reservePosting ⟨x, b.available, b.reserved⟩ ⟨x, 1⟩)
        Pure.pure PUnit.unit) : Tx Unit).Ends reservations d outcome mid → outcome = .ok () ∧
          mid.inventory.lookup (command.warehouseId, x) =
            some ⟨b.available - 1, b.reserved + 1, b.version + 1⟩ := by
      intro outcome mid done
      have columns : ∀ {outcome mid}, (post command.orderId command.warehouseId
          (reservePosting ⟨x, b.available, b.reserved⟩ ⟨x, 1⟩)).Ends reservations d outcome mid →
          outcome = .ok () ∧ mid.inventory.lookup (command.warehouseId, x) =
            some ⟨b.available - 1, b.reserved + 1, b.version + 1⟩ := by
        intro outcome mid done
        refine post_ends (x := reservePosting ⟨x, b.available, b.reserved⟩ ⟨x, 1⟩) stored ?_ ?_ done
        · exact ⟨Int.sub_nonneg_of_le some_left, decide_eq_true (by dsimp [reservePosting]; omega)⟩
        · exact ⟨by dsimp [reservePosting]; omega, decide_eq_true (by dsimp [reservePosting]; omega)⟩
      rcases ends_bind.mp done with ⟨e, -, raised⟩ | ⟨mid', _, first, rfl, rfl⟩
      · cases (columns raised).1
      · exact ⟨rfl, (columns first).2⟩
    rcases ends_bind.mp rest with ⟨e, -, raised⟩ | ⟨mid, _, first, stamped⟩
    · cases (posted raised).1
    · have balance := (posted first).2
      have stamp : ∀ i, ∃ ws, reservations.exec
          (.updateReservation command.warehouseId expiresAt command.orderId) i mid =
            .ok ((), ws) ∧ (reservations.applyAll ws mid).inventory = mid.inventory := by
        intro i
        simp only [reservations, Sql.ofReserve, if_true, Sql.exec]
        split <;> exact ⟨_, rfl, rfl⟩
      choose ws answers stock using stamp
      obtain ⟨i, rfl, rfl⟩ := ends_exec (r := fun _ => ()) answers stamped
      refine .inl ⟨some_left, rfl, ?_⟩
      rw [kept rfl, stock]
      exact balance

end Outcome

/-- The transactions that succeeded. -/
def succeeded {P : Type} (ran : List (P × Except Thrown Unit)) : List P :=
  (ran.filter (·.2.isOk)).map (·.1)

section Serial
variable {P : Type} {commands : P → ReserveCommand} {d after : Db}
  {ran : List (P × Except Thrown Unit)}

/-- One after the other, unit orders of one row succeed until it is empty. -/
theorem serial_units {w x : Uuid} {b : Balance}
    (unit : ∀ p, (commands p).warehouseId = w ∧ (commands p).lines = [⟨x, 1⟩])
    (stored : d.inventory.lookup (w, x) = some b) (available : 0 ≤ b.available)
    (reserved : 0 ≤ b.reserved) (fits : b.available + b.reserved ≤ 2147483647)
    (serial : Serially reservations (fun p => reserveTransaction (commands p)) d ran after) :
    ((succeeded ran).length : Int) = min b.available ran.length ∧ ∃ v,
      after.inventory.lookup (w, x) = some ⟨b.available - (succeeded ran).length,
        b.reserved + (succeeded ran).length, v⟩ := by
  induction serial with
  | nil => exact ⟨by simp [succeeded, available], b.version, by simp [succeeded, stored]⟩
  | @next ran mid p result after _ alone ih =>
    obtain ⟨count, v, balance⟩ := ih
    obtain ⟨rfl, lines⟩ := unit p
    have left : 0 ≤ b.available - (succeeded ran).length := by omega
    have held : 0 ≤ b.reserved + (succeeded ran).length := by omega
    rcases reserve_one_unit lines balance left held (by simp only; omega) alone with
        ⟨more, rfl, balance'⟩ | ⟨empty, rfl, rfl⟩
    · have one : succeeded (ran ++ [(p, .ok ())]) = succeeded ran ++ [p] := by
        simp [succeeded, Except.isOk, Except.toBool]
      simp only at more
      refine ⟨?_, v + 1, ?_⟩
      · simp only [one, List.length_append, List.length_singleton]
        omega
      · rw [balance', one, List.length_append, List.length_singleton]
        simp only [Option.some.injEq, Balance.mk.injEq, and_true]
        omega
    · have none' : succeeded (ran ++ [(p, .error (.insufficientStock [x]))]) = succeeded ran := by
        simp [succeeded, Except.isOk, Except.toBool]
      simp only at empty
      rw [none']
      refine ⟨?_, v, balance⟩
      simp only [List.length_append, List.length_singleton]
      omega

variable [DecidableEq P] {s t : Reservers P}

/-- Concurrent reservations are serialisable: those that have ended, and the
stock and the ledger they left, are those of the same transactions run one at a
time in some order, and any such run in that order comes to the same up to the
ids of the ledger. Of unit orders of one row, as many succeed as it has units. -/
theorem reservations_serialisable (start : Reservers.Start commands s) (run : s.Steps t) :
    ∃ ran : List (P × Except Thrown Unit), (ran.map (·.1)).Nodup ∧
      (∀ p result, (t.session p).ctl = .done result ↔ (p, result) ∈ ran) ∧
      Serially reservations (fun p => reserveTransaction (commands p)) s.data ran t.data ∧
      (∀ ran' after, ran'.map (·.1) = ran.map (·.1) →
        Serially reservations (fun p => reserveTransaction (commands p)) s.data ran' after →
        ran' = ran ∧ after.SameLedger t.data) ∧
      ∀ w x b, (∀ p, (commands p).warehouseId = w ∧ (commands p).lines = [⟨x, 1⟩]) →
        s.data.inventory.lookup (w, x) = some b → 0 ≤ b.available → 0 ≤ b.reserved →
        b.available + b.reserved ≤ 2147483647 →
        ((succeeded ran).length : Int) = min b.available ran.length := by
  have replayable : State.Replayable reservations reservers
      (fun e => Recorded e.lastMovementId) (fun e => Drawn e.lastMovementId) s := by
    refine ⟨?_, start.recorded, ?_, ?_⟩
    · intro l p q here
      rw [start.unlocked] at here
      cases here
    · intro p tx isOpen
      rw [start.waiting p] at isOpen
      cases isOpen
    · intro p tx isOpen
      rw [start.waiting p] at isOpen
      cases isOpen
  have ready : ∀ command, (byRow (reserveTransaction command)).Guarded reservations [] :=
    fun command => guarded_byRow reservations_locksRows (guarded_reserveTransaction command)
  have waiting : ∀ p, (s.session p).ctl = .waiting (commands p) := by
    intro p
    rw [start.waiting p]
  obtain ⟨ran, inv⟩ := serialises Reservations.lawful reservers_supplies ready replayable waiting run
  have serial : Serially reservations (fun p => reserveTransaction (commands p)) s.data ran
      t.data := by
    refine inv.serial.mono fun {p d result after} alone => ?_
    cases result with
    | ok _ => exact byRow_ends reservations_locksRows alone
    | error e =>
      obtain ⟨rolled, mid, raised⟩ := alone
      exact ⟨rolled, mid, byRow_ends reservations_locksRows raised⟩
  refine ⟨ran, inv.once, fun p result => ⟨fun done => ?_, inv.done p result⟩, serial,
    fun ran' after order serial' => ?_, fun w x b unit stored available reserved fits => ?_⟩
  · by_cases ended : p ∈ ran.map (·.1)
    · obtain ⟨⟨q, result'⟩, member, rfl⟩ := List.mem_map.mp ended
      cases (inv.done _ _ member).symm.trans done
      exact member
    · cases (inv.waiting p ended).symm.trans done
  · exact serial'.agree (fun p => agree_reserveTransaction (commands p))
      ⟨fun _ => rfl, rfl⟩ serial order
  · exact (serial_units unit stored available reserved fits serial).1

end Serial

section Lamp

def lampOrdered (orderNumber : String) : OrderRow where
  orderNumber
  customerId := "customer"
  warehouseId := none
  status := .PENDING_PAYMENT
  currency := "USD"
  totalCents := 1250
  shippingAddress := { recipient := "Ada", line1 := "1 Main St", city := "Denver", country := "US" }
  shippingLocation := ⟨-105, 40⟩
  reservationExpiresAt := none
  confirmedAt := none
  cancelledAt := none
  cancellationReason := none
  createdAt := ⟨60000000⟩
  updatedAt := ⟨60000000⟩

/-- Two orders for the last lamp. -/
def lampBuyers (p : Bool) : ReserveCommand where
  orderId := if p then "order 1" else "order 0"
  warehouseId := "denver"
  lines := [⟨"lamp", 1⟩]

def lampShelf : Reservers Bool where
  data := {
    orders := (AList.singleton "order 0" (lampOrdered "CNL-2026-000001")).insert "order 1"
      (lampOrdered "CNL-2026-000002")
    inventory := AList.singleton ("denver", "lamp") ⟨1, 0, 0⟩ }
  env := ⟨⟨61000000⟩, 0⟩
  session p := { ctl := .waiting (lampBuyers p) }

theorem lampShelf_start : lampShelf.Start lampBuyers where
  waiting _ := rfl
  unlocked := rfl
  recorded := nofun

/-- Both begin, the second waits for the row the first has locked. -/
def lampRace : List (Action DbError Empty Timestamptz Bool) :=
  [.begin false, .exec false, .begin true, .exec true, .exec false, .exec true, .exec false,
    .exec false, .exec false, .exec false, .commit false, .exec true, .rollback true]

def Action.plain : Action DbError Empty Timestamptz Bool → Bool
  | .fault _ _ | .crash _ => false
  | _ => true

def lampSoldOut : Reservers Bool :=
  (lampRace.foldlM (fun s a =>
    if Action.plain a then s.step reservations reservers a else none) lampShelf).get
    (by decide +kernel)

theorem steps_of_plain {s t : Reservers Bool} {actions : List (Action DbError Empty Timestamptz Bool)}
    (ran : actions.foldlM (fun s a =>
      if Action.plain a then s.step reservations reservers a else none) s = some t) :
    s.Steps t := by
  induction actions generalizing s with
  | nil =>
    cases ran
    exact .refl
  | cons a actions ih =>
    simp only [List.foldlM_cons, Option.bind_eq_bind] at ran
    obtain ⟨u, stepped, rest⟩ := Option.bind_eq_some_iff.mp ran
    split at stepped <;> try contradiction
    refine (ih rest).head ⟨a, stepped, ?_⟩
    cases a <;> trivial

theorem reservations_serialisable_lamp : ∃ ran : List (Bool × Except Thrown Unit),
    (ran.map (·.1)).Nodup ∧
      (∀ p result, (lampSoldOut.session p).ctl = .done result ↔ (p, result) ∈ ran) ∧
      Serially reservations (fun p => reserveTransaction (lampBuyers p)) lampShelf.data ran
        lampSoldOut.data ∧
      (∀ ran' after, ran'.map (·.1) = ran.map (·.1) →
        Serially reservations (fun p => reserveTransaction (lampBuyers p)) lampShelf.data ran'
          after → ran' = ran ∧ after.SameLedger lampSoldOut.data) ∧
      ∀ w x b, (∀ p, (lampBuyers p).warehouseId = w ∧ (lampBuyers p).lines = [⟨x, 1⟩]) →
        lampShelf.data.inventory.lookup (w, x) = some b → 0 ≤ b.available → 0 ≤ b.reserved →
        b.available + b.reserved ≤ 2147483647 →
        ((succeeded ran).length : Int) = min b.available ran.length :=
  reservations_serialisable lampShelf_start (steps_of_plain (Option.some_get _).symm)

end Lamp

end Canals
