import Canals.Database.Sequence
import Canals.Orders.Ledger

/-! Any number of callers of the settlement service, each with one call, over
one database. Statements interleave, and any of them may fault or crash. -/
namespace Canals
open Locking

/-- A caller before and after its call. -/
inductive Settler where
  | waiting (call : SettleCall)
  | returned (call : SettleCall) (result : SettlementResult)
  | threw (call : SettleCall)

namespace Settler

def body : Settler → Option (Tx Settler)
  | waiting call => some do
    let result ← call.run
    return .returned call result
  | _ => none

/-- A caller whose transaction rolled back; what has returned stays so. -/
def abort : Settler → Settler
  | waiting call => .threw call
  | settler => settler

/-- The call settled order `o`. -/
def SettledOrder (o : Uuid) : Settler → Prop
  | returned call result => call.orderId = o ∧ result.outcome = .SETTLED
  | _ => False

end Settler

/-- The database's clock and the last movement id drawn. -/
structure SettlerEnv where
  clock : Timestamptz
  lastMovementId : Nat

/-- Callers have no steps outside their transaction; only the clock moves. -/
def settlers : Client Sql Sql.Result DbError Thrown Db Lock Input SettlerEnv Settler Empty
    Timestamptz where
  body := Settler.body
  failed settler _ := settler.abort
  crashed := Settler.abort
  draw env := (⟨env.clock, env.lastMovementId + 1⟩,
    { env with lastMovementId := env.lastMovementId + 1 })
  move _ _ _ _ m := m.elim
  event env clock := some { env with clock }

abbrev Settlers (P : Type) :=
  State Sql Sql.Result DbError Thrown Db Write Lock SettlerEnv Settler P

/-- Callers about to call, over data whose movement ids have been drawn. -/
structure Settlers.Start {P : Type} (s : Settlers P) : Prop where
  waiting : ∀ p, ∃ call, s.session p = { ctl := .waiting call }
  unlocked : s.locks = []
  recorded : Recorded s.env.lastMovementId s.data

def CONFIRMED_QUEUES : List String := ["shipment.create", "customer.notify", "analytics.record"]

def Db.queuesOf (d : Db) (o : Uuid) : List String :=
  (d.jobs.filter (·.orderId = o)).map (·.queue)

/-- At most one call has settled the order, none while it is pending, and the
jobs sent for it are those of its status. -/
structure SettledOnce {P : Type} (o : Uuid) (row : OrderRow)
    (a : Committed Db SettlerEnv Settler P) : Prop where
  stored : a.data.orders.lookup o = some row
  pending : row.status = .PENDING_PAYMENT → ∀ p, ¬ (a.ctl p).SettledOrder o
  unique : ∀ p q, (a.ctl p).SettledOrder o → (a.ctl q).SettledOrder o → p = q
  queues : a.data.queuesOf o = if row.status = .CONFIRMED then CONFIRMED_QUEUES else []

section Steps
variable {P : Type} [DecidableEq P] {o : Uuid} {row : OrderRow} {d after : Db}
  {a b : Committed Db SettlerEnv Settler P}

theorem settlers_supplies : settlers.Supplies store
    (fun e => Recorded e.lastMovementId) (fun e => Drawn e.lastMovementId) := by
  refine supplies_of_sequence (fun _ => ⟨rfl, rfl⟩) (fun {_ _ _ _ m} _ => m.elim) ?_
  intro e clock e' happened
  cases happened
  exact Nat.le_refl _

theorem settlers_guarded (settler : Settler) (body : Tx Settler)
    (here : settler.body = some body) : body.Guarded store [] := by
  cases settler <;> cases here
  exact Program.guarded_bind (SettleCall.guarded _) fun _ _ _ => trivial

/-- What a settlement of one order does to the jobs of any. -/
theorem Settles.queuesOf {call : SettleCall} {createdAt : Date}
    (done : Settles call createdAt row d after) (o : Uuid) : after.queuesOf o = d.queuesOf o ++
      if call.orderId = o ∧ call.target = .CONFIRMED then CONFIRMED_QUEUES else [] := by
  obtain ⟨occurredAt, jobs⟩ := done.jobs
  rw [Db.queuesOf, jobs, List.filter_append, List.map_append, Db.queuesOf]
  congr 1
  cases call with
  | confirmCaptured o' _ =>
    by_cases mine : o' = o <;>
      simp [SettleCall.jobs, SettleCall.orderId, SettleCall.target, CONFIRMED_QUEUES, mine]
  | _ => simp [SettleCall.jobs, SettleCall.target]

theorem goto_settledOrder {p : P} {settler : Settler} {q : P}
    (settled : ((a.goto p settler).ctl q).SettledOrder o) :
    (q = p ∧ settler.SettledOrder o) ∨ (q ≠ p ∧ (a.ctl q).SettledOrder o) := by
  by_cases same : q = p
  · subst same
    exact .inl ⟨rfl, by simpa [Committed.goto] using settled⟩
  · exact .inr ⟨same, by simpa [Committed.goto, same] using settled⟩

/-- A step that changes neither the order nor its jobs, nor who settled it. -/
theorem SettledOnce.keep (once : SettledOnce o row a) {p : P} {settler : Settler}
    (stored : after.orders.lookup o = some row) (queues : after.queuesOf o = a.data.queuesOf o)
    (same : settler.SettledOrder o → (a.ctl p).SettledOrder o) :
    SettledOnce o row { a.goto p settler with data := after } := by
  have before : ∀ q, ((a.goto p settler).ctl q).SettledOrder o → (a.ctl q).SettledOrder o := by
    intro q settled
    rcases goto_settledOrder settled with ⟨rfl, new⟩ | ⟨-, old⟩
    · exact same new
    · exact old
  exact ⟨stored, fun pending q settled => once.pending pending q (before q settled),
    fun q r hq hr => once.unique q r (before q hq) (before r hr), queues.trans once.queues⟩

theorem abort_settledOrder {settler : Settler} (settled : settler.abort.SettledOrder o) :
    settler.SettledOrder o := by
  cases settler <;> exact settled

/-- One transaction of one caller: the order is settled by it, or stays as it is. -/
theorem SettledOnce.step (once : SettledOnce o row a) (step : Committed.Step store settlers a b) :
    ∃ row', SettledOnce o row' b ∧ (row.status ≠ .PENDING_PAYMENT → row'.status = row.status) := by
  cases step with
  | @commit p body after settler here ran =>
    change (a.ctl p).body = some body at here
    cases stands : a.ctl p with
    | waiting call =>
      rw [stands] at here
      cases here
      obtain ⟨_, result, ran', rfl, rfl⟩ := Program.completes_bind.mp ran
      cases settled_of_completes ran' with
      | already row₀ _ _ same outcome _ =>
        subst same
        exact ⟨row, once.keep once.stored rfl fun new => by simp [Settler.SettledOrder, outcome] at new,
          fun _ => rfl⟩
      | now row₀ createdAt stored pending done outcome _ =>
        obtain ⟨row', stored', target, -, -, -, others⟩ := done.settledRow
        by_cases mine : o = call.orderId
        · subst mine
          cases once.stored.symm.trans stored
          refine ⟨row', ⟨stored', fun still => ?_, fun q r hq hr => ?_, ?_⟩,
            fun closed => absurd pending closed⟩
          · rw [target] at still
            cases call <;> cases still
          · have nobody := once.pending pending
            rcases goto_settledOrder hq with ⟨rfl, -⟩ | ⟨-, old⟩
            · rcases goto_settledOrder hr with ⟨rfl, -⟩ | ⟨-, old⟩
              · rfl
              · exact absurd old (nobody r)
            · exact absurd old (nobody q)
          · change after.queuesOf call.orderId = _
            rw [done.queuesOf, once.queues, pending, target]
            simp
        · refine ⟨row, once.keep ((others o mine).trans once.stored) ?_ fun new => ?_, fun _ => rfl⟩
          · rw [done.queuesOf]
            simp [Ne.symm mine]
          · exact absurd new.1.symm mine
    | _ =>
      rw [stands] at here
      cases here
  | fail _ _ =>
    exact ⟨row, once.keep once.stored rfl abort_settledOrder, fun _ => rfl⟩
  | crash => exact ⟨row, once.keep once.stored rfl abort_settledOrder, fun _ => rfl⟩
  | @move p m _ _ _ moved => exact m.elim
  | draw => exact ⟨row, ⟨once.stored, once.pending, once.unique, once.queues⟩, fun _ => rfl⟩
  | event happened => exact ⟨row, ⟨once.stored, once.pending, once.unique, once.queues⟩, fun _ => rfl⟩

/-- Any number of steps. -/
theorem SettledOnce.steps (once : SettledOnce o row a)
    (steps : Relation.ReflTransGen (Committed.Step store settlers) a b) :
    ∃ row', SettledOnce o row' b ∧ (row.status ≠ .PENDING_PAYMENT → row'.status = row.status) := by
  induction steps with
  | refl => exact ⟨row, once, fun _ => rfl⟩
  | tail _ last ih =>
    obtain ⟨row₁, once₁, kept₁⟩ := ih
    obtain ⟨row₂, once₂, kept₂⟩ := once₁.step last
    refine ⟨row₂, once₂, fun closed => ?_⟩
    have same := kept₁ closed
    exact (kept₂ (same ▸ closed)).trans same

end Steps

section Runs
variable {P : Type} [DecidableEq P] {o : Uuid} {row : OrderRow} {s t : Settlers P}

omit [DecidableEq P] in
theorem Settlers.Start.replayable (start : s.Start) : State.Replayable store settlers
    (fun e => Recorded e.lastMovementId) (fun e => Drawn e.lastMovementId) s := by
  have closed : ∀ {p tx}, (s.session p).tx = some tx → False := by
    intro p tx isOpen
    obtain ⟨call, same⟩ := start.waiting p
    simp [same] at isOpen
  refine ⟨?_, start.recorded, fun p tx isOpen => (closed isOpen).elim,
    fun p tx isOpen => (closed isOpen).elim⟩
  simp [start.unlocked]

/-- However many calls race for one pending order, one settles it: the others
write nothing, its status is final, and its jobs are sent once, on confirmation. -/
theorem one_settlement (start : s.Start) (stored : s.data.orders.lookup o = some row)
    (pending : row.status = .PENDING_PAYMENT) (silent : ∀ job ∈ s.data.jobs, job.orderId ≠ o)
    (run : Relation.ReflTransGen (State.Next store settlers) s t) :
    ∃ row', t.data.orders.lookup o = some row' ∧
      (∀ p q, (t.session p).ctl.SettledOrder o → (t.session q).ctl.SettledOrder o → p = q) ∧
      (∀ p call result u, t.step store settlers (.commit p) = some u →
        (u.session p).ctl = .returned call result →
        result.outcome = .SETTLED ∨ result.outcome = .ALREADY_SETTLED ∧ u.data = t.data) ∧
      (∀ p u row'', (t.session p).ctl.SettledOrder o →
        Relation.ReflTransGen (State.Next store settlers) t u →
        u.data.orders.lookup o = some row'' → row''.status = row'.status) ∧
      t.data.queuesOf o = if row'.status = .CONFIRMED then CONFIRMED_QUEUES else [] := by
  have nobody : ∀ p, ¬ (s.session p).ctl.SettledOrder o := by
    intro p
    obtain ⟨call, same⟩ := start.waiting p
    simp [same, Settler.SettledOrder]
  have once : SettledOnce o row s.committed := by
    refine ⟨stored, fun _ => nobody, fun p _ settled _ => absurd settled (nobody p), ?_⟩
    have none_of : s.data.jobs.filter (·.orderId = o) = [] :=
      List.filter_eq_nil_iff.mpr fun job member => by simpa using silent job member
    simp [State.committed, Db.queuesOf, none_of, pending]
  obtain ⟨inv, steps⟩ :=
    State.run_refines store_lawful settlers_supplies settlers_guarded start.replayable run
  obtain ⟨row', once', -⟩ := once.steps steps
  refine ⟨row', once'.stored, once'.unique, ?_, ?_, once'.queues⟩
  · intro p call result u stepped returned
    obtain ⟨body, here, ran⟩ := inv.commits stepped
    rw [returned] at ran
    change (t.session p).ctl.body = some body at here
    cases stands : (t.session p).ctl with
    | waiting call =>
      rw [stands] at here
      cases here
      obtain ⟨_, result, ran', rfl, same⟩ := Program.completes_bind.mp ran
      cases same
      cases settled_of_completes ran' with
      | already _ _ _ unchanged outcome _ => exact .inr ⟨outcome, unchanged⟩
      | now _ _ _ _ _ outcome _ => exact .inl outcome
    | _ =>
      rw [stands] at here
      cases here
  · intro p u row'' settled more found
    obtain ⟨-, later⟩ :=
      State.run_refines store_lawful settlers_supplies settlers_guarded inv more
    obtain ⟨row₁, once₁, kept⟩ := once'.steps later
    cases once₁.stored.symm.trans found
    exact kept fun still => once'.pending still p settled

/-- One process confirms the pending lamp order while another cancels it. -/
def lampSettlers : Settlers Bool where
  data := lampDb
  env := ⟨⟨61000000⟩, 1⟩
  session
    | true => { ctl := .waiting (.confirmCaptured "order" none) }
    | false => { ctl := .waiting (.cancelUnpaid "order" "RESERVATION_EXPIRED_NO_PAYMENT" none) }

theorem lampSettlers_start : lampSettlers.Start where
  waiting
    | true => ⟨_, rfl⟩
    | false => ⟨_, rfl⟩
  unlocked := rfl
  recorded := by simp [Recorded, lampSettlers, lampDb]

/-- The canceller has begun before the confirmation takes the order's lock. -/
def lampSettlersRun : List (Action DbError Empty Timestamptz Bool) :=
  [.begin false, .exec false, .begin true] ++ List.replicate 17 (.exec true) ++
    [.commit true, .exec false, .exec false, .commit false]

def lampSettlersEnd : Settlers Bool :=
  (lampSettlers.run store settlers lampSettlersRun).get (by decide +kernel)

theorem one_settlement_lamp :
    (∃ row', lampSettlersEnd.data.orders.lookup "order" = some row' ∧
      (∀ p q, (lampSettlersEnd.session p).ctl.SettledOrder "order" →
        (lampSettlersEnd.session q).ctl.SettledOrder "order" → p = q) ∧
      (∀ p call result u, lampSettlersEnd.step store settlers (.commit p) = some u →
        (u.session p).ctl = .returned call result →
        result.outcome = .SETTLED ∨
          result.outcome = .ALREADY_SETTLED ∧ u.data = lampSettlersEnd.data) ∧
      (∀ p u row'', (lampSettlersEnd.session p).ctl.SettledOrder "order" →
        Relation.ReflTransGen (State.Next store settlers) lampSettlersEnd u →
        u.data.orders.lookup "order" = some row'' → row''.status = row'.status) ∧
      lampSettlersEnd.data.queuesOf "order" =
        if row'.status = .CONFIRMED then CONFIRMED_QUEUES else []) ∧
    lampSettlersEnd.data.queuesOf "order" = CONFIRMED_QUEUES :=
  ⟨one_settlement lampSettlers_start (show lampDb.orders.lookup "order" = some lampRow from rfl)
      rfl nofun (State.reaches_of_run (Option.some_get _).symm),
    by decide +kernel⟩

end Runs

end Canals
