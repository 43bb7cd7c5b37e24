import Canals.Allocation.Postings
import Canals.Allocation.Serial

/-! `release` and `commit` after a reservation, in any number and any order: the
first call that names a line ends it, the others leave it as it is. -/
namespace Canals
open Locking Program

inductive Ending where
  | release
  | commit
  deriving DecidableEq

/-- A call of `release` or `commit` for one order and warehouse. -/
structure EndingCall where
  ending : Ending
  productIds : List Uuid
  deriving DecidableEq

def Ending.closing : Ending → InventoryRow → Int → Posting
  | release => releasePosting
  | commit => commitPosting

/-- `dataSource.transaction(manager => inventoryService.release(manager, …))`, or `commit`. -/
def EndingCall.transact (orderId warehouseId : Uuid) (call : EndingCall) : Tx Unit :=
  transaction fun _ =>
    match call.ending with
    | .release => release ⟨orderId, warehouseId, call.productIds⟩
    | .commit => commit ⟨orderId, warehouseId, call.productIds⟩

/-- The calls made one after the other, each in a transaction of its own, with their results. -/
inductive Calls (o w : Uuid) : Db → List (EndingCall × Except Thrown Unit) → Db → Prop
  | nil {d : Db} : Calls o w d [] d
  | cons {d mid after : Db} {call : EndingCall} {result : Except Thrown Unit}
      {calls : List (EndingCall × Except Thrown Unit)} :
      (call.transact o w).Alone store d result mid → Calls o w mid calls after →
      Calls o w d ((call, result) :: calls) after

/-- The columns of an inventory row hold no negative number and no more than 32 bits. -/
def Balance.Fits (b : Balance) : Prop :=
  (0 ≤ b.available ∧ fitsInteger b.available) ∧ 0 ≤ b.reserved ∧ fitsInteger b.reserved

/-- Units and ledger of a line are the same; the numbers of the ledger's rows may differ. -/
structure Db.SameLine (o w p : Uuid) (a b : Db) : Prop where
  units : (a.inventory.lookup (w, p)).map (fun x => (x.available, x.reserved)) =
    (b.inventory.lookup (w, p)).map fun x => (x.available, x.reserved)
  movements : (a.movementsOf o p).map (·.unnumbered) = (b.movementsOf o p).map (·.unnumbered)

/-- Nothing of the line was written. -/
structure Db.KeepsLine (o w p : Uuid) (a b : Db) : Prop where
  balance : b.inventory.lookup (w, p) = a.inventory.lookup (w, p)
  movements : b.movementsOf o p = a.movementsOf o p

section Lines
variable {o w p : Uuid} {a b c d after : Db}

theorem Db.KeepsLine.refl : Db.KeepsLine o w p a a := ⟨rfl, rfl⟩

theorem Db.KeepsLine.trans (first : Db.KeepsLine o w p a b) (second : Db.KeepsLine o w p b c) :
    Db.KeepsLine o w p a c :=
  ⟨second.balance.trans first.balance, second.movements.trans first.movements⟩

theorem Db.KeepsLine.open (kept : Db.KeepsLine o w p a b) :
    b.openReservation o w p = a.openReservation o w p :=
  openReservation_congr kept.movements kept.balance

theorem Posted.keepsLine {postings : List Posting} (posted : Posted o w postings d after)
    (other : ∀ x ∈ postings, x.productId ≠ p) : Db.KeepsLine o w p d after where
  balance := posted.balance_frame (w, p) fun x member same =>
    other x member (Prod.mk.inj same).2.symm
  movements := posted.movementsOf_frame (.inr other)

theorem Db.KeepsLine.same (left : Db.KeepsLine o w p d a) (right : Db.KeepsLine o w p d b) :
    Db.SameLine o w p a b := by
  constructor
  · rw [left.balance, right.balance]
  · rw [left.movements, right.movements]

/-- The line was ended by the posting. -/
structure Db.EndsLine (o w p : Uuid) (x : Posting) (d after : Db) : Prop where
  units : (after.inventory.lookup (w, p)).map (fun b => (b.available, b.reserved)) =
    some (x.availableAfter, x.reservedAfter)
  movement : ∃ m, x.Records o w m ∧ after.movementsOf o p = d.movementsOf o p ++ [m]
  closed : after.Closed o p

theorem Posted.endsLine {postings : List Posting} {x : Posting}
    (posted : Posted o w postings d after) (distinct : distinctProducts postings)
    (member : x ∈ postings) (terminal : x.type = .RELEASE ∨ x.type = .COMMIT) :
    Db.EndsLine o w x.productId x d after := by
  obtain ⟨m, record, added, newer⟩ := posted.movementsOf_posted distinct member
  obtain ⟨v, balance⟩ := posted.balance x member
  refine ⟨by rw [balance]; rfl, ⟨m, record, added⟩, m, latest_append added newer, ?_⟩
  rw [record.type]
  exact terminal

/-- A row is determined by the posting it records, up to its number. -/
theorem Posting.Records.unnumbered {x : Posting} {m m' : Movement} (first : x.Records o w m)
    (second : x.Records o w m') : m.unnumbered = m'.unnumbered := by
  simp only [Movement.unnumbered, first.orderId, first.warehouseId, first.productId, first.type,
    first.quantityDelta, first.availableAfter, first.reservedAfter, second.orderId,
    second.warehouseId, second.productId, second.type, second.quantityDelta,
    second.availableAfter, second.reservedAfter]

theorem Db.EndsLine.same {x : Posting} (first : Db.EndsLine o w p x d a)
    (second : Db.EndsLine o w p x d b) : Db.SameLine o w p a b := by
  obtain ⟨m, record, added⟩ := first.movement
  obtain ⟨m', record', added'⟩ := second.movement
  refine ⟨first.units.trans second.units.symm, ?_⟩
  rw [added, added', List.map_append, List.map_append, List.map_singleton, List.map_singleton,
    record.unnumbered record']

theorem Db.EndsLine.keep {x : Posting} (ends : Db.EndsLine o w p x d a)
    (kept : Db.KeepsLine o w p a b) : Db.EndsLine o w p x d b := by
  obtain ⟨m, record, added⟩ := ends.movement
  refine ⟨by rw [kept.balance]; exact ends.units, ⟨m, record, kept.movements.trans added⟩, ?_⟩
  rw [Db.Closed, Db.latest, kept.movements]
  exact ends.closed

theorem Db.KeepsLine.end {x : Posting} (kept : Db.KeepsLine o w p d a)
    (ends : Db.EndsLine o w p x a b) : Db.EndsLine o w p x d b := by
  obtain ⟨m, record, added⟩ := ends.movement
  exact ⟨ends.units, ⟨m, record, by rw [added, kept.movements]⟩, ends.closed⟩

end Lines

section Step
variable {o w p : Uuid} {d mid after : Db} {call : EndingCall} {closing : InventoryRow → Int → Posting}
  {command : ReleaseCommand} {rows : List InventoryRow} {result : Except Thrown Unit}

/-- Both endings of the line leave what its columns can hold. -/
def Db.Returnable (d : Db) (o w p : Uuid) : Prop :=
  ∀ row q, d.openReservation o w p = some (row, q) →
    0 ≤ row.quantityAvailable ∧ 0 ≤ q ∧ q ≤ row.quantityReserved ∧
      row.quantityAvailable + q ≤ 2147483647 ∧ row.quantityReserved - q ≤ 2147483647

theorem Ending.closes (ending : Ending) : Closing ending.closing := by
  cases ending with
  | release => exact closing_release
  | commit => exact closing_commit

theorem Ending.fits (ending : Ending) {row : InventoryRow} {q : Int}
    (available : 0 ≤ row.quantityAvailable) (positive : 0 ≤ q)
    (reserved : q ≤ row.quantityReserved) (most : row.quantityAvailable + q ≤ 2147483647)
    (left : row.quantityReserved - q ≤ 2147483647) :
    (0 ≤ (ending.closing row q).availableAfter ∧
        fitsInteger (ending.closing row q).availableAfter) ∧
      0 ≤ (ending.closing row q).reservedAfter ∧
        fitsInteger (ending.closing row q).reservedAfter := by
  have small : ∀ n : Int, 0 ≤ n → n ≤ 2147483647 → 0 ≤ n ∧ fitsInteger n := fun n low high =>
    ⟨low, decide_eq_true (by omega)⟩
  cases ending with
  | release =>
      dsimp only [Ending.closing, releasePosting]
      exact ⟨small _ (by omega) most, small _ (by omega) left⟩
  | commit =>
      dsimp only [Ending.closing, commitPosting]
      exact ⟨small _ available (by omega), small _ (by omega) left⟩

/-- A posting that the columns can hold is made. -/
theorem post_resolves {x : Posting} {b : Balance}
    (stored : d.inventory.lookup (w, x.productId) = some b)
    (fits : (0 ≤ x.availableAfter ∧ fitsInteger x.availableAfter) ∧
      0 ≤ x.reservedAfter ∧ fitsInteger x.reservedAfter)
    (ended : (post o w x).Ends store d result after) : result = .ok () := by
  have updated : ∀ i, store.exec (.updateInventory ⟨w, x.productId, x.availableAfter,
      x.reservedAfter⟩) i d = .ok ((), [.putInventory (w, x.productId)
        ⟨x.availableAfter, x.reservedAfter, b.version + 1⟩]) := by
    intro i
    simp [store, Sql.exec, stored, fits.1, fits.2]
  obtain ⟨-, ended⟩ := ends_exec updated ended
  obtain ⟨i, ended⟩ := ends_exec (r := fun _ => ()) (fun _ => rfl) ended
  obtain ⟨done, -⟩ := ended
  exact done

theorem latestMovement_ends {latest : Except Thrown (Option LatestMovementRow)}
    (ended : (query (.latestMovement o p) : Tx _).Ends store d latest after) :
    latest = .ok ((d.latest o p).map fun m => ⟨m.type, m.quantityDelta⟩) ∧ after = d := by
  obtain ⟨-, ended⟩ := ends_exec (r := fun _ => _) (w := fun _ => []) (fun _ => rfl) ended
  exact ended

theorem endReservation_resolves {ending : Ending}
    (ready : d.Closed command.orderId p ∨ Agrees rows command.warehouseId d p ∧
      d.Returnable command.orderId command.warehouseId p)
    (ended : (endReservation ending.closing command rows p).Ends store d result after) :
    result = .ok () := by
  rcases ends_bind.mp ended with ⟨e, -, raised⟩ | ⟨mid, latest, read, rest⟩
  · obtain ⟨impossible, -⟩ := latestMovement_ends raised
    contradiction
  · obtain ⟨answered, rfl⟩ := latestMovement_ends read
    obtain rfl := Except.ok.inj answered
    cases newest : mid.latest command.orderId p with
    | none =>
        simp only [newest, Option.map_none] at rest
        obtain ⟨done, -⟩ := rest
        exact done
    | some m =>
        simp only [newest, Option.map_some] at rest
        split at rest
        · obtain ⟨done, -⟩ := rest
          exact done
        · rename_i held
          cases got : rowOf rows p with
          | none =>
              simp only [got] at rest
              obtain ⟨done, -⟩ := rest
              exact done
          | some row =>
              simp only [got] at rest
              obtain ⟨agrees, returnable⟩ := ready.resolve_left fun ⟨m', newest', terminal⟩ =>
                held (Option.some.inj (newest.symm.trans newest') ▸ terminal)
              obtain ⟨rfl, v, balance⟩ := agrees row got
              have isOpen : mid.openReservation command.orderId command.warehouseId
                  row.productId = some (row, (m.quantityDelta.natAbs : Int)) := by
                simp [Db.openReservation, newest, balance, held]
              obtain ⟨available, positive, reserved, most, left⟩ := returnable _ _ isOpen
              have stored : mid.inventory.lookup (command.warehouseId,
                  (ending.closing row m.quantityDelta.natAbs).productId) =
                    some ⟨row.quantityAvailable, row.quantityReserved, v⟩ := by
                rw [ending.closes.productId, balance]
              exact post_resolves stored (ending.fits available positive reserved most left) rest

/-- The other lines of a single posting, and the line itself. -/
theorem ready_after {x : Posting} {o : Uuid} (one : Posted o w [x] d after)
    (terminal : x.type = .RELEASE ∨ x.type = .COMMIT) {p' : Uuid}
    (ready : d.Closed o p' ∨ Agrees rows w d p' ∧ d.Returnable o w p') :
    after.Closed o p' ∨ Agrees rows w after p' ∧ after.Returnable o w p' := by
  by_cases here : p' = x.productId
  · rw [here]
    exact .inl (closed_after one terminal)
  · have kept : Db.KeepsLine o w p' d after := one.keepsLine fun y member => by
      rw [List.mem_singleton.mp member]
      exact fun same => here same.symm
    refine ready.imp ?_ ?_
    · intro closed
      simpa only [Db.Closed, Db.latest, kept.movements] using closed
    · rintro ⟨agrees, returnable⟩
      constructor
      · simpa only [Agrees, kept.balance] using agrees
      · simpa only [Db.Returnable, kept.open] using returnable

theorem endReservationLoop_resolves {ending : Ending} {productIds : List Uuid}
    (ready : ∀ p ∈ productIds, d.Closed command.orderId p ∨
      Agrees rows command.warehouseId d p ∧ d.Returnable command.orderId command.warehouseId p)
    (missing : ∀ p ∈ productIds, rowOf rows p = none →
      d.inventory.lookup (command.warehouseId, p) = none)
    (ended : (productIds.forM (endReservation ending.closing command rows)).Ends store d result
      after) : result = .ok () := by
  induction productIds generalizing d with
  | nil =>
      obtain ⟨done, -⟩ := ended
      exact done
  | cons p productIds ih =>
      have now := ready p List.mem_cons_self
      rcases ends_bind.mp ended with ⟨e, -, raised⟩ | ⟨mid, _, first, rest⟩
      · have impossible := endReservation_resolves now raised
        contradiction
      · have agrees := now.imp_right And.left
        rcases endReservation_spec agrees (missing p List.mem_cons_self) ending.closes
            (completes_of_ends first) with ⟨-, rfl⟩ | ⟨row, q, held, rfl, one⟩
        · exact ih (fun p' member => ready p' (List.mem_cons_of_mem p member))
            (fun p' member => missing p' (List.mem_cons_of_mem p member)) rest
        · refine ih (fun p' member => ?_) (fun p' member unread => ?_) rest
          · exact ready_after one (ending.closes.terminal row q)
              (ready p' (List.mem_cons_of_mem _ member))
          · have gone := missing p' (List.mem_cons_of_mem _ member) unread
            have other : (ending.closing row q).productId ≠ p' := by
              intro same
              obtain ⟨-, ⟨v, balance⟩, -⟩ := openReservation_eq held
              rw [← same, ending.closes.productId, balance] at gone
              contradiction
            have kept : Db.KeepsLine _ _ p' d mid := one.keepsLine fun y inside =>
              List.mem_singleton.mp inside ▸ other
            rw [kept.balance, gone]

variable {lines : List Uuid}

theorem lockInventoryRows_resolves {productIds : List Uuid}
    {locked : Except Thrown (List InventoryRow)}
    (ended : (lockInventoryRows w productIds).Ends store d locked after) :
    locked = .ok (d.inventoryRows w productIds) ∧ after = d := by
  obtain ⟨-, ended⟩ := ends_exec (r := fun _ => ()) (w := fun _ => []) (fun _ => rfl) ended
  obtain ⟨-, ended⟩ := ends_exec (r := fun _ => _) (w := fun _ => []) (fun _ => rfl) ended
  exact ended

theorem endReservations_resolves {ending : Ending}
    (returnable : ∀ p, d.Returnable command.orderId command.warehouseId p)
    (ended : (endReservations ending.closing command).Ends store d result after) :
    result = .ok () := by
  rcases ends_bind.mp ended with ⟨e, -, raised⟩ | ⟨mid, rows, locked, looped⟩
  · obtain ⟨impossible, -⟩ := lockInventoryRows_resolves raised
    contradiction
  · obtain ⟨read, rfl⟩ := lockInventoryRows_resolves locked
    obtain rfl := Except.ok.inj read
    exact endReservationLoop_resolves
      (fun p _ => .inr ⟨fun row => rowOf_inventoryRows, returnable p⟩) (fun p => rowOf_none) looped

/-- The body of a call's transaction. -/
theorem transact_ends (ended : (call.transact o w).Ends store d result after) :
    (endReservations call.ending.closing ⟨o, w, call.productIds⟩).Ends store d result after := by
  obtain ⟨clock, body⟩ := ends_exec (r := fun i => i.clock) (w := fun _ => []) (fun _ => rfl) ended
  cases same : call.ending with
  | release =>
      simp only [same] at body
      exact body
  | commit =>
      simp only [same] at body
      exact body

/-- A call ends the listed lines that are open, and writes nothing else. -/
theorem transact_spec (ran : (call.transact o w).Ends store d (.ok ()) after) :
    (∀ p ∈ call.productIds, ∀ row q, d.openReservation o w p = some (row, q) →
      Db.EndsLine o w p (call.ending.closing row q) d after) ∧
    (∀ p, (p ∈ call.productIds → d.openReservation o w p = none) → Db.KeepsLine o w p d after) ∧
    (∀ key, key.1 ≠ w → after.inventory.lookup key = d.inventory.lookup key) ∧
    ∀ o' p, o' ≠ o → after.movementsOf o' p = d.movementsOf o' p := by
  obtain ⟨postings, posted, distinct, only⟩ :=
    endReservations_spec call.ending.closes (completes_of_ends (transact_ends ran))
  have closes := call.ending.closes
  refine ⟨?_, ?_, ?_, ?_⟩
  · intro p member row q held
    have inside := (only _).mpr ⟨p, member, row, q, held, rfl⟩
    have ends := posted.endsLine distinct inside (closes.terminal row q)
    rwa [closes.productId, (openReservation_eq held).1] at ends
  · intro p shut
    refine posted.keepsLine fun x inside same => ?_
    obtain ⟨p', member, row, q, held, rfl⟩ := (only x).mp inside
    rw [closes.productId, (openReservation_eq held).1] at same
    subst same
    rw [shut member] at held
    contradiction
  · intro key other
    exact posted.balance_frame key fun x _ same => other (congrArg Prod.fst same)
  · intro o' p other
    exact posted.movementsOf_frame (.inl other)

end Step

section Run
variable {o w p : Uuid} {d mid after : Db} {call : EndingCall} {result : Except Thrown Unit}
  {calls : List (EndingCall × Except Thrown Unit)}

/-- The calls that name the product. -/
def EndingCall.names (call : EndingCall) (p : Uuid) : Bool := p ∈ call.productIds

/-- What a series of calls comes to, line by line. -/
structure Absorbed (o w : Uuid) (d : Db) (calls : List (EndingCall × Except Thrown Unit))
    (after : Db) : Prop where
  results : ∀ call ∈ calls, call.2 = .ok ()
  ended : ∀ p row q call, d.openReservation o w p = some (row, q) →
    (calls.map (·.1)).find? (·.names p) = some call →
    Db.EndsLine o w p (call.ending.closing row q) d after
  kept : ∀ p, (d.openReservation o w p = none ∨ (calls.map (·.1)).find? (·.names p) = none) →
    Db.KeepsLine o w p d after
  elsewhere : ∀ key, key.1 ≠ w → after.inventory.lookup key = d.inventory.lookup key
  others : ∀ o' p, o' ≠ o → after.movementsOf o' p = d.movementsOf o' p

theorem transact_returnable (returnable : ∀ p, d.Returnable o w p)
    (ran : (call.transact o w).Ends store d (.ok ()) mid) (p : Uuid) : mid.Returnable o w p := by
  obtain ⟨ends, keeps, -⟩ := transact_spec ran
  cases held : d.openReservation o w p with
  | none =>
      intro row q still
      rw [(keeps p fun _ => held).open, held] at still
      contradiction
  | some open' =>
      by_cases member : p ∈ call.productIds
      · intro row q still
        rw [(ends p member open'.1 open'.2 held).closed.openReservation] at still
        contradiction
      · intro row q still
        rw [(keeps p fun inside => absurd inside member).open] at still
        exact returnable p row q still

/-- The first call that names an open line ends it; for the calls after it the line is closed. -/
theorem Absorbed.cons (ran : (call.transact o w).Ends store d (.ok ()) mid)
    (rest : Absorbed o w mid calls after) : Absorbed o w d ((call, .ok ()) :: calls) after := by
  obtain ⟨ends, keeps, elsewhere, others⟩ := transact_spec ran
  refine ⟨?_, ?_, ?_, ?_, ?_⟩
  · intro other member
    rcases List.mem_cons.mp member with rfl | later
    · rfl
    · exact rest.results other later
  · intro p row q first held found
    rw [List.map_cons, List.find?_cons] at found
    cases named : call.names p with
    | true =>
        simp only [named, Option.some.injEq] at found
        subst found
        have ended := ends p (of_decide_eq_true named) row q held
        exact ended.keep (rest.kept p (.inl ended.closed.openReservation))
    | false =>
        simp only [named] at found
        have kept := keeps p fun member => absurd member (of_decide_eq_false named)
        exact kept.end (rest.ended p row q first (kept.open.trans held) found)
  · intro p idle
    rw [List.map_cons, List.find?_cons] at idle
    cases named : call.names p with
    | true =>
        simp only [named, reduceCtorEq, or_false] at idle
        have kept := keeps p fun _ => idle
        exact kept.trans (rest.kept p (.inl (kept.open.trans idle)))
    | false =>
        simp only [named] at idle
        have kept := keeps p fun member => absurd member (of_decide_eq_false named)
        exact kept.trans (rest.kept p (idle.imp_left kept.open.trans))
  · intro key other
    exact (rest.elsewhere key other).trans (elsewhere key other)
  · intro o' p other
    exact (rest.others o' p other).trans (others o' p other)

theorem transact_resolves (returnable : ∀ p, d.Returnable o w p)
    (ran : (call.transact o w).Alone store d result mid) :
    result = .ok () ∧ (call.transact o w).Ends store d (.ok ()) mid := by
  cases result with
  | ok _ => exact ⟨rfl, ran⟩
  | error e =>
      obtain ⟨-, later, raised⟩ := ran
      have whole : ∀ p, d.Returnable (ReleaseCommand.mk o w call.productIds).orderId w p := returnable
      have impossible := endReservations_resolves whole (transact_ends raised)
      contradiction

theorem Calls.absorbed (returnable : ∀ p, d.Returnable o w p) (ran : Calls o w d calls after) :
    Absorbed o w d calls after := by
  induction ran with
  | nil => exact ⟨by simp, by simp, fun _ _ => .refl, fun _ _ => rfl, fun _ _ _ => rfl⟩
  | cons first rest ih =>
      obtain ⟨rfl, ended⟩ := transact_resolves returnable first
      exact (ih (transact_returnable returnable ended)).cons ended

/-- Two series whose first calls on the line are the same leave the same line. -/
theorem Absorbed.same {a b : Db} {calls' : List (EndingCall × Except Thrown Unit)}
    (left : Absorbed o w d calls a) (right : Absorbed o w d calls' b)
    (first : (calls.map (·.1)).find? (·.names p) = (calls'.map (·.1)).find? (·.names p)) :
    Db.SameLine o w p a b := by
  cases held : d.openReservation o w p with
  | none => exact (left.kept p (.inl held)).same (right.kept p (.inl held))
  | some taken =>
      cases named : (calls.map (·.1)).find? (·.names p) with
      | none => exact (left.kept p (.inr named)).same (right.kept p (.inr (first ▸ named)))
      | some call =>
          exact (left.ended p taken.1 taken.2 call held named).same
            (right.ended p taken.1 taken.2 call held (first ▸ named))

/-- Once a call has named the line, nothing of it is open. -/
theorem Absorbed.shut (absorbed : Absorbed o w d calls after)
    (named : ∃ call ∈ calls, call.1.names p) : after.openReservation o w p = none := by
  cases held : d.openReservation o w p with
  | none => exact (absorbed.kept p (.inl held)).open.trans held
  | some taken =>
      obtain ⟨call, member, names⟩ := named
      have found : ((calls.map (·.1)).find? (·.names p)).isSome :=
        List.find?_isSome.mpr ⟨call.1, List.mem_map_of_mem member, names⟩
      obtain ⟨first, found⟩ := Option.isSome_iff_exists.mp found
      exact (absorbed.ended p taken.1 taken.2 first held found).closed.openReservation

end Run

section Reserved
variable {o w p : Uuid} {d mid after : Db} {command : ReserveCommand} {rows : List InventoryRow}

/-- Units of the line were taken from the row as it was read. -/
structure Db.Taken (d : Db) (o w p : Uuid) (row : InventoryRow) (q : Int) : Prop where
  positive : 0 < q
  enough : q ≤ row.quantityAvailable
  balance : ∃ v, d.inventory.lookup (w, p) =
    some ⟨row.quantityAvailable - q, row.quantityReserved + q, v⟩
  latest : ∃ m, d.latest o p = some m ∧ m.type = .RESERVE ∧ m.quantityDelta = -q

theorem Db.Taken.keep {row : InventoryRow} {q : Int} (taken : d.Taken o w p row q)
    (kept : Db.KeepsLine o w p d after) : after.Taken o w p row q := by
  refine ⟨taken.positive, taken.enough, ?_, ?_⟩
  · rw [kept.balance]
    exact taken.balance
  · rw [Db.latest, kept.movements]
    exact taken.latest

/-- What a reservation took can go back, or go out. -/
theorem Db.Taken.returnable {row : InventoryRow} {q : Int} (taken : d.Taken o w p row q)
    (available : row.quantityAvailable ≤ 2147483647)
    (reserved : 0 ≤ row.quantityReserved ∧ row.quantityReserved ≤ 2147483647) :
    d.Returnable o w p := by
  intro row' q' held
  obtain ⟨v, balance⟩ := taken.balance
  obtain ⟨m, newest, type, delta⟩ := taken.latest
  obtain ⟨-, ⟨v', balance'⟩, m', newest', -, rfl⟩ := openReservation_eq held
  obtain rfl := Option.some.inj (newest.symm.trans newest')
  have same := Option.some.inj (balance.symm.trans balance')
  simp only [Balance.mk.injEq] at same
  obtain ⟨left, units, -⟩ := same
  have positive := taken.positive
  have enough := taken.enough
  rw [delta]
  omega

theorem reserveLine_taken {line : OrderLine}
    (present : (d.inventory.lookup (command.warehouseId, line.productId)).isSome)
    (positive : 0 < line.quantity)
    (met : ∀ row, rowOf rows line.productId = some row → line.quantity ≤ row.quantityAvailable)
    (ran : (reserveLine command rows line).Completes store d after ()) :
    ∃ row, rowOf rows line.productId = some row ∧
      after.Taken command.orderId command.warehouseId line.productId row line.quantity ∧
      Posted command.orderId command.warehouseId [reservePosting row line] d after := by
  cases got : rowOf rows line.productId with
  | none => simp [reserveLine, got] at ran
  | some row =>
      simp only [reserveLine, got] at ran
      have one := post_spec (x := reservePosting row line) present ran
      obtain ⟨m, record, added, newer⟩ := one.movementsOf_posted (by simp [distinctProducts])
        (List.mem_singleton_self _)
      refine ⟨row, rfl, ⟨positive, met row got, ?_, ?_⟩, one⟩
      · exact one.balance _ (List.mem_singleton_self _)
      · exact ⟨m, latest_append added newer, record.type, record.quantityDelta⟩

/-- A line given more than once is posted from the row as it was read, and its last posting
stands: the lines need not be of different products. -/
theorem reserveLines_taken {lines : List OrderLine}
    (present : ∀ line ∈ lines,
      (d.inventory.lookup (command.warehouseId, line.productId)).isSome)
    (positive : ∀ line ∈ lines, 0 < line.quantity)
    (met : ∀ line ∈ lines, ∀ row, rowOf rows line.productId = some row →
      line.quantity ≤ row.quantityAvailable)
    (ran : (lines.forM (reserveLine command rows)).Completes store d after ()) :
    (∀ p ∈ lines.map (·.productId), ∃ row q, rowOf rows p = some row ∧
      after.Taken command.orderId command.warehouseId p row q) ∧
    ∀ p ∉ lines.map (·.productId),
      Db.KeepsLine command.orderId command.warehouseId p d after := by
  induction lines generalizing d with
  | nil =>
      obtain ⟨rfl, -⟩ := ran
      exact ⟨by simp, fun _ _ => .refl⟩
  | cons line lines ih =>
      obtain ⟨mid, _, first, rest⟩ := completes_bind.mp ran
      obtain ⟨row, got, taken, one⟩ := reserveLine_taken (present line List.mem_cons_self)
        (positive line List.mem_cons_self) (met line List.mem_cons_self) first
      have kept : ∀ p ≠ line.productId,
          Db.KeepsLine command.orderId command.warehouseId p d mid := fun p other =>
        one.keepsLine fun x member => List.mem_singleton.mp member ▸ other.symm
      have stillPresent : ∀ other ∈ lines,
          (mid.inventory.lookup (command.warehouseId, other.productId)).isSome := by
        intro other member
        by_cases here : other.productId = line.productId
        · obtain ⟨v, balance⟩ := taken.balance
          rw [here, balance]
          rfl
        · rw [(kept _ here).balance]
          exact present other (List.mem_cons_of_mem _ member)
      obtain ⟨later, untouched⟩ := ih stillPresent
        (fun other member => positive other (List.mem_cons_of_mem _ member))
        (fun other member => met other (List.mem_cons_of_mem _ member)) rest
      constructor
      · intro p member
        by_cases again : p ∈ lines.map (·.productId)
        · exact later p again
        · rw [List.map_cons, List.mem_cons] at member
          obtain rfl := member.resolve_right again
          exact ⟨row, line.quantity, got, taken.keep (untouched _ again)⟩
      · intro p fresh
        rw [List.map_cons, List.mem_cons, not_or] at fresh
        exact (kept p fresh.1).trans (untouched p fresh.2)

theorem updateReservation_keepsLine {expiresAt : Timestamptz} {o' : Uuid}
    (ran : (query (.updateReservation w expiresAt o')).Completes store d after ()) :
    Db.KeepsLine o w p d after := by
  obtain ⟨_, _, -, stamped, rfl⟩ := completes_query.mp ran
  simp only [Sql.exec] at stamped
  split at stamped <;>
  · cases stamped
    exact ⟨rfl, rfl⟩

theorem reserve_taken {manager : EntityManager}
    (positive : ∀ line ∈ command.lines, 0 < line.quantity)
    (ran : (reserve manager command).Completes store d after ()) :
    (∀ p ∈ command.lines.map (·.productId), ∃ row q v,
      d.inventory.lookup (command.warehouseId, p) =
        some ⟨row.quantityAvailable, row.quantityReserved, v⟩ ∧
      after.Taken command.orderId command.warehouseId p row q) ∧
    ∀ p ∉ command.lines.map (·.productId),
      Db.KeepsLine command.orderId command.warehouseId p d after := by
  obtain ⟨d', rows, locked, rest⟩ := completes_bind.mp ran
  obtain ⟨same, rfl⟩ := lockInventoryRows_spec (completes_mapError.mp locked)
  subst same
  dsimp only at rest
  split at rest
  · rename_i allMet
    obtain ⟨mid, _, looped, stamped⟩ := completes_bind.mp rest
    have met : ∀ line ∈ command.lines, ∃ row,
        rowOf (d'.inventoryRows command.warehouseId (command.lines.map (·.productId)))
          line.productId = some row ∧ line.quantity ≤ row.quantityAvailable := by
      intro line member
      have known := List.filter_eq_nil_iff.mp (List.map_eq_nil_iff.mp allMet) line member
      cases got : rowOf (d'.inventoryRows command.warehouseId
          (command.lines.map (·.productId))) line.productId with
      | none => simp [isUnmet, got] at known
      | some row => exact ⟨row, rfl, by simpa [isUnmet, got] using known⟩
    obtain ⟨took, untouched⟩ := reserveLines_taken (fun line member => by
        obtain ⟨row, found, -⟩ := met line member
        obtain ⟨-, v, balance⟩ := rowOf_inventoryRows found
        rw [balance]
        rfl) positive (fun line member row found => by
        obtain ⟨row', found', enough⟩ := met line member
        rwa [Option.some.inj (found.symm.trans found')]) looped
    constructor
    · intro p member
      obtain ⟨row, q, found, taken⟩ := took p member
      obtain ⟨-, v, balance⟩ := rowOf_inventoryRows found
      exact ⟨row, q, v, balance, taken.keep (updateReservation_keepsLine stamped)⟩
    · intro p fresh
      exact (untouched p fresh).trans (updateReservation_keepsLine stamped)
  · exact (completes_throw rest).elim

/-- A reservation that succeeded, alone, took units of each of its products and left the other
lines as they were. -/
theorem reserveTransaction_taken (positive : ∀ line ∈ command.lines, 0 < line.quantity)
    (reserved : (reserveTransaction command).Alone store d (.ok ()) after) :
    (∀ p ∈ command.lines.map (·.productId), ∃ row q v,
      d.inventory.lookup (command.warehouseId, p) =
        some ⟨row.quantityAvailable, row.quantityReserved, v⟩ ∧
      after.Taken command.orderId command.warehouseId p row q) ∧
    ∀ p ∉ command.lines.map (·.productId),
      Db.KeepsLine command.orderId command.warehouseId p d after := by
  obtain ⟨_, clock, began, body⟩ := completes_bind.mp (completes_of_ends reserved)
  obtain ⟨_, _, -, done, rfl⟩ := completes_query.mp began
  cases done
  exact reserve_taken positive body

/-- The calls of which the line would see only the first that names it. -/
def onlyFirst (p : Uuid) (calls : List EndingCall) : List EndingCall :=
  (calls.find? (·.names p)).toList

theorem find?_onlyFirst (p : Uuid) (calls : List EndingCall) :
    (onlyFirst p calls).find? (·.names p) = calls.find? (·.names p) := by
  rw [onlyFirst]
  cases found : calls.find? (·.names p) with
  | none => rfl
  | some call => simp [List.find?_some found]

/-- After a reservation every call of `release` and `commit` succeeds. A line ends as if only the
first call that names it had been made: a later one writes nothing of it, and the lines of
products that were not reserved, of other warehouses and of other orders stay as they were. -/
theorem endings_absorbed {start reserved : Db} {calls : List (EndingCall × Except Thrown Unit)}
    (columns : ∀ key b, start.inventory.lookup key = some b → b.Fits)
    (fresh : ∀ p ∉ command.lines.map (·.productId),
      start.openReservation command.orderId command.warehouseId p = none)
    (positive : ∀ line ∈ command.lines, 0 < line.quantity)
    (took : (reserveTransaction command).Alone store start (.ok ()) reserved)
    (ran : Calls command.orderId command.warehouseId reserved calls after) :
    (∀ call ∈ calls, call.2 = .ok ()) ∧
    (∀ p single once, Calls command.orderId command.warehouseId reserved single once →
      single.map (·.1) = onlyFirst p (calls.map (·.1)) →
      Db.SameLine command.orderId command.warehouseId p after once) ∧
    (∀ call result final p,
      (EndingCall.transact command.orderId command.warehouseId call).Alone store after result
        final → (∃ earlier ∈ calls, earlier.1.names p) →
      Db.KeepsLine command.orderId command.warehouseId p after final) ∧
    (∀ p ∉ command.lines.map (·.productId),
      Db.KeepsLine command.orderId command.warehouseId p reserved after) ∧
    (∀ key, key.1 ≠ command.warehouseId →
      after.inventory.lookup key = reserved.inventory.lookup key) ∧
    ∀ o p, o ≠ command.orderId → after.movementsOf o p = reserved.movementsOf o p := by
  obtain ⟨taken, kept⟩ := reserveTransaction_taken positive took
  have shut : ∀ p ∉ command.lines.map (·.productId),
      reserved.openReservation command.orderId command.warehouseId p = none := fun p other =>
    (kept p other).open.trans (fresh p other)
  have returnable : ∀ p, reserved.Returnable command.orderId command.warehouseId p := by
    intro p
    by_cases member : p ∈ command.lines.map (·.productId)
    · obtain ⟨row, q, v, stored, took⟩ := taken p member
      obtain ⟨⟨-, most⟩, least, limit⟩ := columns _ _ stored
      simp only [fitsInteger, decide_eq_true_eq] at most limit
      exact took.returnable most.2 ⟨least, limit.2⟩
    · intro row q held
      rw [shut p member] at held
      contradiction
  have absorbed := ran.absorbed returnable
  refine ⟨absorbed.results, ?_, ?_, ?_, absorbed.elsewhere, absorbed.others⟩
  · intro p single once alone first
    exact absorbed.same (alone.absorbed returnable) (by rw [first, find?_onlyFirst])
  · intro call result final p alone named
    cases result with
    | ok _ => exact (transact_spec alone).2.1 p fun _ => absorbed.shut named
    | error e =>
        obtain ⟨rfl, -⟩ := alone
        exact .refl
  · intro p other
    exact absorbed.kept p (.inl (shut p other))

end Reserved

section Lamp

theorem alone_of_perform {body : Tx Unit} {inputs : List Input} {d : Db}
    {ran : List (Sql × Input) × Db × Unit} (performed : body.perform store inputs d = some ran) :
    body.Alone store d (.ok ()) ran.2.1 :=
  ends_of_completes (completes_iff_performs.mpr ⟨ran.1, performs_of_perform performed⟩)

def endingInputs (n : Nat) : List Input :=
  (List.range n).map fun k => ⟨⟨62000000⟩, k + 1⟩

def lampTaken : List (Sql × Input) × Db × Unit :=
  ((reserveTransaction (lampBuyers false)).perform store (endingInputs 6) lampShelf.data).get
    (by decide +kernel)

/-- The lamp twice, and a product that was not reserved. -/
def lampReleasing : EndingCall := ⟨.release, ["lamp", "lamp", "vase"]⟩

def lampReleased : List (Sql × Input) × Db × Unit :=
  ((lampReleasing.transact "order 0" "denver").perform store
    ((endingInputs 12).drop 4) lampTaken.2.1).get (by decide +kernel)

def lampCommitting : EndingCall := ⟨.commit, ["lamp"]⟩

def lampCommitted : List (Sql × Input) × Db × Unit :=
  ((lampCommitting.transact "order 0" "denver").perform store (endingInputs 4)
    lampReleased.2.1).get (by decide +kernel)

theorem lampEndings : Calls "order 0" "denver" lampTaken.2.1
    [(lampReleasing, .ok ()), (lampCommitting, .ok ())] lampCommitted.2.1 :=
  .cons (alone_of_perform (Option.some_get _).symm)
    (.cons (alone_of_perform (Option.some_get _).symm) .nil)

theorem endings_absorbed_lamp :
    Db.SameLine "order 0" "denver" "lamp" lampCommitted.2.1 lampReleased.2.1 := by
  have released : Calls "order 0" "denver" lampTaken.2.1 [(lampReleasing, .ok ())]
      lampReleased.2.1 := .cons (alone_of_perform (Option.some_get _).symm) .nil
  have took : (reserveTransaction (lampBuyers false)).Alone store lampShelf.data (.ok ())
      lampTaken.2.1 := alone_of_perform (Option.some_get _).symm
  refine (endings_absorbed ?_ ?_ ?_ took lampEndings).2.1 "lamp" _ _ released rfl
  · intro key b stored
    have only : b = ⟨1, 0, 0⟩ := by
      have member := AList.mem_lookup_iff.mp stored
      simpa [lampShelf, AList.singleton] using congrArg (·.2) (List.mem_singleton.mp member)
    subst only
    exact ⟨⟨by decide, by decide⟩, by decide, by decide⟩
  · intro p _
    rfl
  · simp [lampBuyers]

end Lamp

end Canals
