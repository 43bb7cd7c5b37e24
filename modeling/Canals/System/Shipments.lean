import Canals.System.Ledger

/-! Shipments. `shipment.create` jobs are delivered at least once, in any order
and concurrently; each delivery draws a carrier of its own, reads the order when
its statement begins and inserts unless the order has a shipment by then. -/
namespace Canals
open Locking

inductive ShipmentStatus where
  | PENDING_DISPATCH
  | DISPATCHED
  | IN_TRANSIT
  | DELIVERED
  | CANCELLED
  deriving DecidableEq

/-- A row of `shipments`; unique by order. -/
structure ShipmentRow where
  orderId : Uuid
  warehouseId : Uuid
  status : ShipmentStatus
  carrier : String
  trackingNumber : String
  dispatchedAt : Timestamptz
  deriving DecidableEq

/-- What a delivery draws: `randomInt` and `new Date()`. -/
structure Draw where
  carrier : Nat
  digits : Nat → Nat
  now : Date

def CARRIERS : List String := ["UPS", "FedEx", "USPS", "DHL"]

def pickRandomCarrier (draw : Draw) : String := CARRIERS.getD (draw.carrier % CARRIERS.length) ""

def randomDigits (draw : Draw) (length : Nat) : String :=
  String.ofList ((List.range length).map fun i => Nat.digitChar (draw.digits i % 10))

def generateTrackingNumber (draw : Draw) : String → String
  | "UPS" => "1Z" ++ randomDigits draw 16
  | "FedEx" => randomDigits draw 12
  | "USPS" => randomDigits draw 22
  | "DHL" => randomDigits draw 10
  | _ => randomDigits draw 12

/-- An `INSERT_SHIPMENT_SQL` under way, its subquery evaluated. -/
structure ShipmentInsert where
  orderId : Uuid
  warehouseId : Option Uuid
  carrier : String
  trackingNumber : String
  dispatchedAt : Date

/-- `createForOrder` up to the statement's snapshot. -/
def createForOrder (d : Db) (orderId : Uuid) (draw : Draw) : ShipmentInsert where
  orderId
  warehouseId := (d.orders.lookup orderId).bind (·.warehouseId)
  carrier := pickRandomCarrier draw
  trackingNumber := generateTrackingNumber draw (pickRandomCarrier draw)
  dispatchedAt := draw.now

/-- 23502 -/
def NOT_NULL_VIOLATION : DbError := .other "23502"

/-- 23503 -/
def FOREIGN_KEY_VIOLATION : DbError := .other "23503"

/-- The row constraints come first, then `ON CONFLICT (order_id) DO NOTHING`,
then the reference to the order. -/
def ShipmentInsert.exec (insert : ShipmentInsert) (d : Db) (shipments : List ShipmentRow) :
    Except DbError (List ShipmentRow) :=
  match insert.warehouseId with
  | none => .error NOT_NULL_VIOLATION
  | some warehouseId =>
    if shipments.any (·.orderId = insert.orderId) then .ok shipments
    else if (d.orders.lookup insert.orderId).isNone then .error FOREIGN_KEY_VIOLATION
    else .ok (shipments ++ [{
      orderId := insert.orderId
      warehouseId
      status := .DISPATCHED
      carrier := insert.carrier
      trackingNumber := insert.trackingNumber
      dispatchedAt := insert.dispatchedAt.toTimestamptz }])

/-- The processes, the shipments, the inserts under way and the orders for which
a delivery has succeeded. -/
structure Fulfilment (P : Type) where
  processes : Processes P
  shipments : List ShipmentRow := []
  inserts : List ShipmentInsert := []
  delivered : List Uuid := []

namespace Fulfilment
variable {P : Type} [DecidableEq P]

def begin (s : Fulfilment P) (orderId : Uuid) (draw : Draw) : Fulfilment P :=
  { s with inserts := createForOrder s.processes.data orderId draw :: s.inserts }

/-- A job stays deliverable however often it was delivered. -/
inductive Step (catalogue : Catalogue) (sha256 : String → String) :
    Fulfilment P → Fulfilment P → Prop where
  | process {s t} : State.Next store (system catalogue sha256) s.processes t →
      Step catalogue sha256 s { s with processes := t }
  | deliver {s job} (draw : Draw) : job ∈ s.processes.data.jobs → job.queue = "shipment.create" →
      Step catalogue sha256 s (s.begin job.orderId draw)
  /-- A delivery for an order that does not exist. -/
  | stray {s orderId} (draw : Draw) : s.processes.data.orders.lookup orderId = none →
      Step catalogue sha256 s (s.begin orderId draw)
  | insert {s before insert after shipments} : s.inserts = before ++ insert :: after →
      insert.exec s.processes.data s.shipments = .ok shipments → Step catalogue sha256 s { s with
        shipments
        inserts := before ++ after
        delivered := insert.orderId :: s.delivered }
  /-- The statement fails, or the attempt before it. -/
  | fail {s before insert after} : s.inserts = before ++ insert :: after →
      Step catalogue sha256 s { s with inserts := before ++ after }

end Fulfilment

section Confirmed
variable {d after : Db} {ctl ctl' : Ctl} {o w : Uuid} {row : OrderRow}

/-- The order is confirmed, at this warehouse. -/
def Db.Confirmed (d : Db) (o w : Uuid) : Prop :=
  ∃ row, d.orders.lookup o = some row ∧ row.status = .CONFIRMED ∧ row.warehouseId = some w

/-- Nothing is written to an order that is settled. -/
theorem Commits.keeps_settled (commits : Commits d ctl after ctl') (alone : ctl.Alone d)
    (stored : d.orders.lookup o = some row) (settled : row.status ≠ .PENDING_PAYMENT) :
    after.orders.lookup o = some row := by
  have settles : ∀ {call result}, Settled call d after result →
      after.orders.lookup o = some row := by
    rintro call result (⟨_, _, _, rfl⟩ | ⟨row', createdAt, stored', pending, done⟩)
    · exact stored
    · obtain ⟨_, -, -, -, -, -, others⟩ := done.settledRow
      refine (others o ?_).trans stored
      rintro rfl
      cases stored.symm.trans stored'
      exact settled pending
  cases commits with
  | reserve ran =>
    obtain ⟨_, inserted, -⟩ := (attemptCandidate_spec alone ran).1.order
    rw [inserted, AList.lookup_insert_ne, stored]
    rintro rfl
    cases alone.symm.trans stored
  | insert _ saves | record _ _ saves | leave _ _ saves => cases saves <;> exact stored
  | confirm _ settled | decline _ settled | resolve settled => exact settles settled

theorem Db.Confirmed.commits (confirmed : d.Confirmed o w) (commits : Commits d ctl after ctl')
    (alone : ctl.Alone d) : after.Confirmed o w := by
  obtain ⟨row, stored, status, warehouse⟩ := confirmed
  exact ⟨row, commits.keeps_settled alone stored (by simp [status]), status, warehouse⟩

/-- Jobs are sent for confirmed orders only. -/
def Db.JobsConfirmed (d : Db) : Prop := ∀ job ∈ d.jobs, ∃ w, d.Confirmed job.orderId w

theorem Settled.jobs {call : SettleCall} {result : SettlementResult} {A₀ : Uuid × Uuid → Int}
    (settled : Settled call d after result) (books : Consistent A₀ d) {job : Job}
    (sent : job ∈ after.jobs) : job ∈ d.jobs ∨ ∃ w, after.Confirmed job.orderId w := by
  cases settled with
  | already _ _ _ same => exact .inl (same ▸ sent)
  | now row createdAt stored pending done =>
    obtain ⟨occurredAt, jobs⟩ := done.jobs
    rcases List.mem_append.mp (jobs ▸ sent) with old | new
    · exact .inl old
    · obtain ⟨row', stored', target, warehouse, -⟩ := done.settledRow
      obtain ⟨w, own⟩ := books.orders _ _ stored
      refine .inr ⟨w, row', ?_⟩
      cases call with
      | confirmCaptured o payment =>
        obtain ⟨queue, -, rfl⟩ := List.mem_map.mp new
        exact ⟨stored', target, warehouse.trans own.warehouseId⟩
      | _ => cases new

theorem Commits.jobs {A₀ : Uuid × Uuid → Int} (commits : Commits d ctl after ctl')
    (alone : ctl.Alone d) (books : Consistent A₀ d) {job : Job} (sent : job ∈ after.jobs) :
    job ∈ d.jobs ∨ ∃ w, after.Confirmed job.orderId w := by
  cases commits with
  | reserve ran =>
    rw [(attemptCandidate_spec alone ran).1.jobs] at sent
    exact .inl sent
  | insert _ saves | record _ _ saves | leave _ _ saves => cases saves <;> exact .inl sent
  | confirm _ settled | decline _ settled | resolve settled => exact settled.jobs books sent

end Confirmed

section Invariant
variable {P : Type} [DecidableEq P] {catalogue : Catalogue} {sha256 : String → String}
  {stock : Stock} {clock : Timestamptz} {s t : Fulfilment P} {a b : World P} {o w : Uuid}

theorem confirmed_step (does : Does sha256 a b) (owned : Owned a)
    (confirmed : a.data.Confirmed o w) : b.data.Confirmed o w := by
  cases does with
  | commit commits => exact confirmed.commits commits (owned.alone _)
  | rewind _ => exact confirmed
  | move _ => exact confirmed
  | happen _ => exact confirmed

theorem jobsConfirmed_step {A₀ : Uuid × Uuid → Int} (does : Does sha256 a b) (owned : Owned a)
    (books : Consistent A₀ a.data) (jobs : a.data.JobsConfirmed) : b.data.JobsConfirmed := by
  cases does with
  | commit commits =>
    intro job sent
    rcases commits.jobs (owned.alone _) books sent with old | new
    · obtain ⟨w, confirmed⟩ := jobs job old
      exact ⟨w, confirmed.commits commits (owned.alone _)⟩
    · exact new
  | rewind _ => exact jobs
  | move _ => exact jobs
  | happen _ => exact jobs

theorem Runs.jobsConfirmed {u : Processes P} (run : Reachable catalogue sha256 stock clock u) :
    u.data.JobsConfirmed :=
  run.invariant (I := fun a => a.data.JobsConfirmed) nofun fun before jobs does _ =>
    jobsConfirmed_step does before.owned before.consistent jobs

/-- Shipments are distinct and of confirmed orders, and so is what the inserts
under way have read. -/
structure Shipped (catalogue : Catalogue) (sha256 : String → String) (stock : Stock)
    (clock : Timestamptz) (s : Fulfilment P) : Prop where
  reachable : Reachable catalogue sha256 stock clock s.processes
  distinct : (s.shipments.map (·.orderId)).Nodup
  confirmed : ∀ row ∈ s.shipments, s.processes.data.Confirmed row.orderId row.warehouseId
  reads : ∀ insert ∈ s.inserts, ∀ w, insert.warehouseId = some w →
    s.processes.data.Confirmed insert.orderId w
  delivered : ∀ o ∈ s.delivered, ∃ row ∈ s.shipments, row.orderId = o

theorem ShipmentInsert.exec_eq {insert : ShipmentInsert} {d : Db}
    {shipments shipments' : List ShipmentRow} (ran : insert.exec d shipments = .ok shipments') :
    ∃ w, insert.warehouseId = some w ∧
      ((shipments' = shipments ∧ ∃ row ∈ shipments, row.orderId = insert.orderId) ∨
      ∃ row, shipments' = shipments ++ [row] ∧ row.orderId = insert.orderId ∧
        row.warehouseId = w ∧ ∀ old ∈ shipments, old.orderId ≠ insert.orderId) := by
  unfold exec at ran
  split at ran
  · cases ran
  · rename_i w read
    split at ran
    · rename_i known
      cases ran
      exact ⟨w, read, .inl ⟨rfl, by simpa using known⟩⟩
    · rename_i fresh
      split at ran
      · cases ran
      · cases ran
        exact ⟨w, read, .inr ⟨_, rfl, rfl, rfl, by simpa using fresh⟩⟩

theorem Shipped.step (inv : Shipped catalogue sha256 stock clock s)
    (step : Fulfilment.Step catalogue sha256 s t) : Shipped catalogue sha256 stock clock t := by
  cases step with
  | @process u next =>
    have later : Reachable catalogue sha256 stock clock u := inv.reachable.tail ⟨next, trivial⟩
    have keeps : ∀ {o w}, s.processes.data.Confirmed o w → u.data.Confirmed o w := by
      intro o w confirmed
      rcases inv.reachable.step next with same | does
      · have kept : u.data = s.processes.data := congrArg Committed.data same
        exact kept ▸ confirmed
      · exact confirmed_step does inv.reachable.owned confirmed
    exact ⟨later, inv.distinct, fun row member => keeps (inv.confirmed row member),
      fun insert member w read => keeps (inv.reads insert member w read), inv.delivered⟩
  | @deliver job draw sent _ =>
    refine ⟨inv.reachable, inv.distinct, inv.confirmed, fun insert member w read => ?_,
      inv.delivered⟩
    rcases List.mem_cons.mp member with rfl | old
    · obtain ⟨w', row, stored, status, -⟩ := inv.reachable.jobsConfirmed job sent
      simp only [createForOrder, stored, Option.bind_some] at read
      exact ⟨row, stored, status, read⟩
    · exact inv.reads insert old w read
  | @stray orderId draw absent =>
    refine ⟨inv.reachable, inv.distinct, inv.confirmed, fun insert member w read => ?_,
      inv.delivered⟩
    rcases List.mem_cons.mp member with rfl | old
    · simp [createForOrder, absent] at read
    · exact inv.reads insert old w read
  | @insert before insert after shipments split ran =>
    have rest : ∀ other ∈ before ++ after, other ∈ s.inserts := by
      intro other member
      rw [split]
      exact (List.Sublist.append_left (List.sublist_cons_self insert after) before).subset member
    obtain ⟨w, read, ⟨rfl, row, member, mine⟩ | ⟨row, rfl, mine, there, fresh⟩⟩ :=
      ShipmentInsert.exec_eq ran
    · refine ⟨inv.reachable, inv.distinct, inv.confirmed,
        fun other member => inv.reads other (rest other member), fun o done => ?_⟩
      rcases List.mem_cons.mp done with rfl | old
      · exact ⟨row, member, mine⟩
      · exact inv.delivered o old
    · refine ⟨inv.reachable, ?_, fun other member => ?_,
        fun other member => inv.reads other (rest other member), fun o done => ?_⟩
      · rw [List.map_append, List.nodup_append]
        refine ⟨inv.distinct, List.nodup_singleton _, ?_⟩
        intro o known o' last same
        obtain ⟨old, older, rfl⟩ := List.mem_map.mp known
        rw [List.map_singleton, List.mem_singleton, mine] at last
        exact fresh old older (same.trans last)
      · rcases List.mem_append.mp member with old | last
        · exact inv.confirmed other old
        · rw [List.mem_singleton.mp last, mine, there]
          exact inv.reads insert (by simp [split]) w read
      · rcases List.mem_cons.mp done with rfl | old
        · exact ⟨row, by simp, mine⟩
        · obtain ⟨old, member, same⟩ := inv.delivered o old
          exact ⟨old, List.mem_append_left _ member, same⟩
  | @fail before insert after split =>
    refine ⟨inv.reachable, inv.distinct, inv.confirmed, fun other member => ?_, inv.delivered⟩
    refine inv.reads other ?_
    rw [split]
    exact (List.Sublist.append_left (List.sublist_cons_self insert after) before).subset member

theorem Shipped.steps (inv : Shipped catalogue sha256 stock clock s)
    (run : Relation.ReflTransGen (Fulfilment.Step catalogue sha256) s t) :
    Shipped catalogue sha256 stock clock t := by
  induction run with
  | refl => exact inv
  | tail _ step ih => exact ih.step step

/-- Rows are only ever added. -/
theorem Fulfilment.Step.shipments (step : Fulfilment.Step catalogue sha256 s t) :
    s.shipments <+: t.shipments := by
  cases step with
  | insert split ran =>
    obtain ⟨-, -, ⟨rfl, -⟩ | ⟨row, rfl, -⟩⟩ := ShipmentInsert.exec_eq ran
    · exact List.prefix_rfl
    · exact List.prefix_append _ _
  | process | deliver | stray | fail => exact List.prefix_rfl

theorem Fulfilment.steps_shipments
    (run : Relation.ReflTransGen (Fulfilment.Step catalogue sha256) s t) :
    s.shipments <+: t.shipments := by
  induction run with
  | refl => exact List.prefix_rfl
  | tail _ step ih => exact ih.trans step.shipments

theorem Shipped.initial :
    Shipped (P := P) catalogue sha256 stock clock { processes := initial P stock clock } where
  reachable := .refl
  distinct := List.nodup_nil
  confirmed := by simp
  reads := by simp
  delivered := by simp

/-- Where orders are distinct, an order's rows are the one row there is. -/
theorem filter_orderId {shipments : List ShipmentRow} {row : ShipmentRow}
    (distinct : (shipments.map (·.orderId)).Nodup) (member : row ∈ shipments) :
    shipments.filter (·.orderId = row.orderId) = [row] := by
  induction shipments with
  | nil => cases member
  | cons head rest ih =>
    rw [List.map_cons, List.nodup_cons] at distinct
    rcases List.mem_cons.mp member with rfl | later
    · have none : rest.filter (·.orderId = row.orderId) = [] := by
        rw [List.filter_eq_nil_iff]
        intro other member same
        exact distinct.1 (List.mem_map.mpr ⟨other, member, by simpa using same⟩)
      rw [List.filter_cons_of_pos (by simp), none]
    · have other : head.orderId ≠ row.orderId := by
        intro same
        exact distinct.1 (List.mem_map.mpr ⟨row, later, same.symm⟩)
      rw [List.filter_cons_of_neg (by simpa using other)]
      exact ih distinct.2 later

/-- At most one shipment per order, of a confirmed order and from its warehouse;
once a delivery has succeeded the order's row is there and stays as it is; a
delivery for an order that does not exist writes nothing. -/
theorem shipments_once (run : Relation.ReflTransGen (Fulfilment.Step catalogue sha256)
      { processes := initial P stock clock } s) :
    (s.shipments.map (·.orderId)).Nodup ∧
    (∀ row ∈ s.shipments, ∃ order, s.processes.data.orders.lookup row.orderId = some order ∧
      order.status = .CONFIRMED ∧ order.warehouseId = some row.warehouseId) ∧
    (∀ o ∈ s.delivered, ∃ row, s.shipments.filter (·.orderId = o) = [row] ∧
      ∀ t, Relation.ReflTransGen (Fulfilment.Step catalogue sha256) s t →
        t.shipments.filter (·.orderId = o) = [row]) ∧
    ∀ o, s.processes.data.orders.lookup o = none → ∀ draw d shipments,
      (createForOrder s.processes.data o draw).exec d shipments = .error NOT_NULL_VIOLATION := by
  have inv := Shipped.initial.steps run
  refine ⟨inv.distinct, inv.confirmed, ?_, ?_⟩
  · intro o done
    obtain ⟨row, member, rfl⟩ := inv.delivered o done
    refine ⟨row, filter_orderId inv.distinct member, ?_⟩
    intro t later
    exact filter_orderId (inv.steps later).distinct
      ((Fulfilment.steps_shipments later).subset member)
  · intro o absent draw d shipments
    simp [ShipmentInsert.exec, createForOrder, absent]

end Invariant

section Lamp

def lampDraw : Draw := ⟨1, fun i => i, ⟨1700⟩⟩

def lampShipment : ShipmentRow :=
  ⟨"order", "denver", .DISPATCHED, "FedEx", "012345678901", (⟨1700⟩ : Date).toTimestamptz⟩

/-- The lamps that were sold are shipped. -/
def lampShipped : Fulfilment Bool where
  processes := lampSold
  shipments := [lampShipment]
  delivered := ["order"]

theorem lampShipped_reached : Relation.ReflTransGen (Fulfilment.Step lampCatalogue lampSha256)
    { processes := initial Bool lampStock ⟨1000000⟩ } lampShipped := by
  have sold : Relation.ReflTransGen (Fulfilment.Step lampCatalogue lampSha256)
      { processes := initial Bool lampStock ⟨1000000⟩ } { processes := lampSold } := by
    have run := State.reaches_of_run lampSold_run
    exact run.lift (Fulfilment.mk · [] [] []) fun a b next =>
      Fulfilment.Step.process (s := Fulfilment.mk a [] [] []) next
  have sent : ∃ job ∈ lampSold.data.jobs,
      job.orderId = "order" ∧ job.queue = "shipment.create" := by decide +kernel
  obtain ⟨⟨_, _, _⟩, sent, rfl, queue⟩ := sent
  have read : (createForOrder lampSold.data "order" lampDraw).exec lampSold.data [] =
      .ok [lampShipment] := by decide +kernel
  have inserted := @Fulfilment.Step.insert Bool _ lampCatalogue lampSha256
    (Fulfilment.begin { processes := lampSold } "order" lampDraw) [] _ [] _ rfl read
  exact (sold.tail (.deliver lampDraw sent queue)).tail inserted

theorem shipments_once_lamp :
    (lampShipped.shipments.map (·.orderId)).Nodup ∧
    (∀ row ∈ lampShipped.shipments, ∃ order, lampSold.data.orders.lookup row.orderId = some order ∧
      order.status = .CONFIRMED ∧ order.warehouseId = some row.warehouseId) ∧
    (∀ o ∈ lampShipped.delivered, ∃ row, lampShipped.shipments.filter (·.orderId = o) = [row] ∧
      ∀ t, Relation.ReflTransGen (Fulfilment.Step lampCatalogue lampSha256) lampShipped t →
        t.shipments.filter (·.orderId = o) = [row]) ∧
    ∀ o, lampSold.data.orders.lookup o = none → ∀ draw d shipments,
      (createForOrder lampSold.data o draw).exec d shipments = .error NOT_NULL_VIOLATION :=
  shipments_once lampShipped_reached

end Lamp

end Canals
