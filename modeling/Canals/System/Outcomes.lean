import Canals.System.Finality

/-! Whether the saga tells its client the truth. `settleOrder` takes an order
another process has settled for its own result, so what `execute` answers is the
order's status as long as nobody has cancelled the order before. -/
namespace Canals
open Locking
open Provider (Stored)

/-- The order's row has this status. -/
def Db.HasStatus (d : Db) (o : Uuid) (status : OrderStatus) : Prop :=
  ∃ row, d.orders.lookup o = some row ∧ row.status = status

/-- Each line of the order was reserved and released again. -/
def Db.Released (d : Db) (o : Uuid) : Prop :=
  ∀ item ∈ d.itemsOf o,
    (d.movementsOf o item.productId).map (fun m => (m.type, m.quantityDelta)) =
      [(.RESERVE, -item.quantity), (.RELEASE, item.quantity)]

/-- What a finished saga has told is so. -/
def Ctl.Truthful (d : Db) : Ctl → Prop
  | finished saga (.ok _) => d.HasStatus saga.order.id .CONFIRMED
  | finished saga (.error (.paymentDeclined o _)) =>
    o = saga.order.id ∧ d.HasStatus o .PAYMENT_FAILED
  | _ => True

/-- When a saga's settlement commits, nobody has cancelled the order. -/
def SettlesBeforeCancelled {P : Type} (a b : World P) : Prop :=
  ∀ p saga chargeResult call result row, a.ctl p = .settling saga chargeResult call →
    b.ctl p = saga.settled chargeResult result →
    a.data.orders.lookup saga.order.id = some row → row.status ≠ .CANCELLED

section Steps
variable {P : Type} [DecidableEq P] {catalogue : Catalogue} {sha256 : String → String}
  {a b : World P} {d after : Db} {mine : List Uuid} {ctl ctl' : Ctl} {o : Uuid}

theorem Db.HasStatus.evolves {status : OrderStatus} (has : d.HasStatus o status)
    (evolves : Evolves mine d after) (final : status ≠ .PENDING_PAYMENT) :
    after.HasStatus o status := by
  obtain ⟨row, found, rfl⟩ := has
  obtain ⟨row', found', -, -, same⟩ := evolves.orders found
  exact ⟨row', found', same final⟩

theorem Ctl.Truthful.evolves (truthful : ctl.Truthful d) (evolves : Evolves mine d after) :
    ctl.Truthful after := by
  unfold Ctl.Truthful at truthful ⊢
  split at truthful
  · exact truthful.evolves evolves nofun
  · exact ⟨truthful.1, truthful.2.evolves evolves nofun⟩
  · trivial

/-- Only a settlement's commit makes a saga tell its client how the order ended. -/
theorem Rewinds.truthful (rewinds : Rewinds ctl ctl') : ctl'.Truthful d := by
  cases rewinds <;> trivial

theorem Moves.truthful {env env' : Env} (moves : Moves d env ctl env' ctl') :
    ctl'.Truthful d := by
  cases moves <;> trivial

/-- The status a settlement leaves is the one asked for, once nothing else has
cancelled the order: the provider has stored one answer only. -/
theorem Settled.hasStatus {call : SettleCall} {result : SettlementResult} {service}
    (settled : Settled call d after result) (backed : call.Backed service)
    (orders : ∀ {o row}, d.orders.lookup o = some row →
      (row.status = .CONFIRMED → Stored service (chargeKey o) .approved) ∧
      (row.status = .PAYMENT_FAILED → Stored service (chargeKey o) .declined))
    (unpaid : ∀ {o row}, d.orders.lookup o = some row → row.status ≠ .PAID)
    (alive : ∀ {row}, d.orders.lookup call.orderId = some row → row.status ≠ .CANCELLED)
    (charged : call.target ≠ .CANCELLED) : after.HasStatus call.orderId call.target := by
  cases settled with
  | now row createdAt stored pending done =>
    obtain ⟨row', stored', target, -⟩ := done.settledRow
    exact ⟨row', stored', target⟩
  | already row stored closed same =>
    subst same
    have one : ∀ {o}, Stored service (chargeKey o) .approved →
        ¬ Stored service (chargeKey o) .declined := by
      rintro o ⟨record, found, approved⟩ ⟨record', found', declined⟩
      cases found.symm.trans found'
      rw [approved] at declined
      cases declined
    refine ⟨row, stored, ?_⟩
    obtain ⟨sold, failed⟩ := orders stored
    cases call with
    | confirmCaptured o payment =>
      cases status : row.status with
      | PENDING_PAYMENT => exact absurd status closed
      | PAID => exact absurd status (unpaid stored)
      | CONFIRMED => rfl
      | PAYMENT_FAILED => exact absurd (failed status) (one backed)
      | CANCELLED => exact absurd status (alive stored)
    | failDeclined o payment =>
      cases status : row.status with
      | PENDING_PAYMENT => exact absurd status closed
      | PAID => exact absurd status (unpaid stored)
      | CONFIRMED => exact absurd backed (one (sold status))
      | PAYMENT_FAILED => rfl
      | CANCELLED => exact absurd status (alive stored)
    | cancelUnpaid o reason payment => exact absurd rfl charged

theorem settlementOf_orderId {chargeResult : ChargeResult} {call : SettleCall}
    (asks : settlementOf o chargeResult = some call) :
    call.orderId = o ∧ call.target ≠ .CANCELLED := by
  unfold settlementOf at asks
  split at asks <;> cases asks <;> exact ⟨rfl, nofun⟩

theorem truthful_step (does : Does sha256 a b) (owned : Owned a) (backed : Backed a)
    (records : ∀ p, (a.ctl p).Records)
    (unpaid : ∀ {o row}, a.data.orders.lookup o = some row → row.status ≠ .PAID)
    (alive : SettlesBeforeCancelled a b) (truthful : ∀ p, (a.ctl p).Truthful a.data) (p : P) :
    (b.ctl p).Truthful b.data := by
  cases does with
  | @commit q after ctl commits =>
    have alone := owned.alone q
    obtain ⟨evolves, -⟩ := commits.owned alone
    refine Committed.forall_goto ?_ (fun r _ => (truthful r).evolves evolves) p
    have rests := backed.ctl q
    have records := records q
    have alive := alive q
    generalize a.ctl q = before at commits alone rests records alive
    have asked : ∀ {saga chargeResult call result},
        ctl = saga.settled chargeResult result → before = .settling saga chargeResult call →
        Settled call a.data after result → settlementOf saga.order.id chargeResult = some call ∧
          after.HasStatus saga.order.id call.target := by
      rintro saga chargeResult call result same rfl settled
      obtain ⟨mine, charged⟩ := settlementOf_orderId records
      refine ⟨records, mine ▸ settled.hasStatus rests backed.orders unpaid (fun stored => ?_) charged⟩
      exact alive saga chargeResult call result _ rfl (by simp [Committed.goto, same])
        (mine ▸ stored)
    cases commits with
    | @confirm saga chargeResult call _ result captured settled =>
      obtain ⟨asks, has⟩ := asked (by simp [Saga.settled, captured]) rfl settled
      simp only [settlementOf, captured, Option.some.injEq] at asks
      subst asks
      exact has
    | @decline saga chargeResult call _ result other settled =>
      obtain ⟨asks, has⟩ := asked (by simp [Saga.settled, other]) rfl settled
      refine ⟨rfl, ?_⟩
      unfold settlementOf at asks
      split at asks <;> cases asks
      · contradiction
      · exact has
    | _ => trivial
  | rewind rewinds => exact Committed.forall_goto rewinds.truthful (fun r _ => truthful r) p
  | move moves => exact Committed.forall_goto moves.truthful (fun r _ => truthful r) p
  | happen _ => exact truthful p

end Steps

variable {P : Type} [DecidableEq P] {catalogue : Catalogue} {sha256 : String → String}
  {stock : Stock} {clock : Timestamptz} {s : Processes P}

/-- An order that ended without a sale has given its stock back. -/
theorem Runs.released {Meets : World P → World P → Prop}
    (run : Runs catalogue sha256 Meets stock clock s) {o : Uuid} {row : OrderRow}
    (found : s.data.orders.lookup o = some row)
    (ended : row.status = .CANCELLED ∨ row.status = .PAYMENT_FAILED) : s.data.Released o := by
  obtain ⟨w, own⟩ := run.consistent.orders o row found
  intro item member
  have log := own.ledger item member
  rcases ended with is | is <;> rw [is] at log <;> exact log

/-- In every run in which no order is cancelled before its saga settles it, a
saga that resolves has its order confirmed, and one that throws a declined
payment has its order failed and the stock released. -/
theorem saga_tells_truth (run : Runs catalogue sha256 SettlesBeforeCancelled stock clock s)
    (p : P) (saga : Saga) :
    (∀ result, (s.session p).ctl = .finished saga (.ok result) →
      ∃ row, s.data.orders.lookup saga.order.id = some row ∧ row.status = .CONFIRMED) ∧
    ∀ o failureCode,
      (s.session p).ctl = .finished saga (.error (.paymentDeclined o failureCode)) →
      o = saga.order.id ∧ ∃ row, s.data.orders.lookup o = some row ∧
        row.status = .PAYMENT_FAILED ∧ s.data.Released o := by
  have truthful : ∀ p, (s.session p).ctl.Truthful s.data := by
    refine run.invariant (I := fun a => ∀ p, (a.ctl p).Truthful a.data) (fun _ => trivial) ?_
    intro u b before inv does alive
    refine truthful_step does before.owned before.backed before.records (fun found => ?_) alive inv
    obtain ⟨w, own⟩ := before.consistent.orders _ _ found
    exact own.status
  constructor
  · intro result told
    have so := truthful p
    rw [told] at so
    exact so
  · intro o failureCode told
    have so := truthful p
    rw [told] at so
    obtain ⟨mine, row, found, failed⟩ := so
    exact ⟨mine, row, found, failed, run.released found (.inr failed)⟩

section Lamp

/-- No saga stands before the settlement of a cancelled order. -/
def lampAlive (s : Processes Bool) : Bool :=
  [true, false].all fun p =>
    match (s.session p).ctl with
    | .settling saga _ _ => (s.data.orders.lookup saga.order.id).all (·.status ≠ .CANCELLED)
    | _ => true

theorem lampAlive_meets (s t : Processes Bool) (alive : lampAlive s) (_ : lampAlive t) :
    SettlesBeforeCancelled s.committed t.committed := by
  intro p saga chargeResult call result row here _ found
  have checked := List.all_eq_true.mp alive p (by cases p <;> simp)
  change (s.session p).ctl = _ at here
  rw [here] at checked
  simpa [show s.data.orders.lookup saga.order.id = some row from found] using checked

theorem lampAlive_isSome : ((initial Bool lampStock ⟨1000000⟩).runWhile lampAlive store
    (system lampCatalogue lampSha256)
    (lampReserve ++ lampPay ++ lampApprove ++ lampRecord ++ transact true 17)).isSome := by
  decide +kernel

/-- The saga of a control point that has resolved. -/
def Ctl.resolved : Ctl → Option Saga
  | finished saga (.ok _) => some saga
  | _ => none

theorem Ctl.resolved_eq {ctl : Ctl} {saga : Saga} (same : ctl.resolved = some saga) :
    ∃ result, ctl = .finished saga (.ok result) := by
  unfold resolved at same
  split at same <;> cases same
  exact ⟨_, rfl⟩

theorem lampAlive_resolved :
    ((Option.get _ lampAlive_isSome).session true).ctl.resolved.isSome := by
  decide +kernel

theorem saga_tells_truth_lamp : ∃ row, (Option.get _ lampAlive_isSome).data.orders.lookup
    (Option.get _ lampAlive_resolved).order.id = some row ∧ row.status = .CONFIRMED := by
  obtain ⟨result, told⟩ := Ctl.resolved_eq (Option.some_get lampAlive_resolved).symm
  exact (saga_tells_truth (State.reaches_of_runWhile lampAlive_meets (by decide +kernel)
    (Option.some_get lampAlive_isSome).symm) true _).1 result told

/-- The reservation expires before the payment is inserted, and a second
process cancels the order as never charged. -/
def lampExpire : List LampAction :=
  [.event (.tick ⟨1000000000⟩), .move false .reap, .move false .next] ++ transact false 13

theorem lampMisled_isSome : ((initial Bool lampStock ⟨1000000⟩).run store
    (system lampCatalogue lampSha256) (lampReserve ++ lampExpire ++ lampPay ++ lampApprove ++
      lampRecord ++ transact true 3)).isSome := by
  decide +kernel

theorem lampMisled_resolved :
    ((Option.get _ lampMisled_isSome).session true).ctl.resolved.isSome := by
  decide +kernel

/-- The saga then charges the card and resolves, its order cancelled. -/
theorem saga_misleads :
    ¬ ∀ (catalogue : Catalogue) (sha256 : String → String) (stock : Stock) (clock : Timestamptz)
      (s : Processes Bool) (p : Bool) (saga : Saga), Reachable catalogue sha256 stock clock s →
      (∀ result, (s.session p).ctl = .finished saga (.ok result) →
        ∃ row, s.data.orders.lookup saga.order.id = some row ∧ row.status = .CONFIRMED) ∧
      ∀ o failureCode,
        (s.session p).ctl = .finished saga (.error (.paymentDeclined o failureCode)) →
        o = saga.order.id ∧ ∃ row, s.data.orders.lookup o = some row ∧
          row.status = .PAYMENT_FAILED ∧ s.data.Released o := by
  intro claim
  obtain ⟨result, told⟩ := Ctl.resolved_eq (Option.some_get lampMisled_resolved).symm
  obtain ⟨row, found, confirmed⟩ := (claim lampCatalogue lampSha256 lampStock ⟨1000000⟩ _ true _
    (reachable_of_run (Option.some_get lampMisled_isSome).symm)).1 result told
  have cancelled : ((Option.get _ lampMisled_isSome).data.orders.lookup
      (Option.get _ lampMisled_resolved).order.id).map (·.status) = some .CANCELLED := by
    decide +kernel
  rw [found, Option.map_some, confirmed] at cancelled
  cases cancelled

end Lamp

end Canals
