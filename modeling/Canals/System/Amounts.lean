import Canals.Orders.Amounts
import Canals.System.Charges

/-! The amount of an order, from its lines to the answer of the shop. The products are read anew
for every order, at the prices of that moment, and its total is summed up in numbers. -/
namespace Canals
open Locking
open Provider (Payload)

/-- `startAllocation`, in numbers. -/
def startAllocationNumber (catalogue : Catalogue) (command : CreateOrderCommand)
    (geocoded : Geocoded) (orderNumber : String) (candidates : List Uuid)
    (orderId : Uuid) : Ctl :=
  match (do
    let products ← resolveCustomerAndProducts catalogue command
    draftOrderNumber command products geocoded orderNumber orderId) with
  | .error e => .refused e
  | .ok draft =>
    match candidates with
    | [] => .refused (.noFulfilmentPossible (command.lines.map (·.productId)) .NO_CANDIDATES)
    | candidate :: rest => .allocating {
        command
        draft
        candidate
        rest
        unmetProductIds := [] }

/-- A move at the products of the moment. -/
def Ctl.moveNumber (catalogue : Catalogue) (d : Db) (locked : Lock → Bool) (env : Env) :
    Ctl → Move → Option (Env × Ctl)
  | .idle, .createOrder command geocoded orderNumber candidates orderId =>
    (env.draw orderId).map fun env =>
      (env, startAllocationNumber catalogue command geocoded orderNumber candidates orderId)
  | ctl, m => ctl.move catalogue d locked env m

/-- The system in numbers, every move with the catalogue it finds. -/
def shop (sha256 : String → String) : Client Sql Sql.Result DbError Thrown Db Lock Input Env Ctl
    (Catalogue × Move) Event where
  body := Ctl.body
  failed := Ctl.failed
  crashed _ := .idle
  draw env := (⟨env.clock, env.lastMovementId + 1⟩,
    { env with lastMovementId := env.lastMovementId + 1 })
  move d locked env ctl m := ctl.moveNumber m.1 d locked env m.2
  event := Env.event sha256

/-- An action of a process that finds this catalogue. -/
def atPrices {P : Type} (catalogue : Catalogue) :
    Action DbError Move Event P → Action DbError (Catalogue × Move) Event P
  | .begin p => .begin p
  | .exec p => .exec p
  | .fault p x => .fault p x
  | .rollback p => .rollback p
  | .commit p => .commit p
  | .crash p => .crash p
  | .move p m => .move p (catalogue, m)
  | .event e => .event e

/-- An order whose total no number rounds, at prices and in quantities that are no debts. -/
structure CreateOrderCommand.Unrounded (catalogue : Catalogue) (command : CreateOrderCommand) :
    Prop where
  prices : ∀ product ∈ catalogue.products, 0 ≤ product.unitPriceCents
  quantities : ∀ line ∈ command.lines, 0 ≤ line.quantity
  total : ∀ products, resolveCustomerAndProducts catalogue command = .ok products →
    linesTotal (priceLines products command.lines) ≤ MAX_SAFE_INTEGER

section Exactly
variable {catalogue : Catalogue} {sha256 : String → String} {command : CreateOrderCommand}
  {geocoded : Geocoded} {orderNumber : String} {candidates : List Uuid} {orderId : Uuid}

theorem startAllocationNumber_eq (unrounded : command.Unrounded catalogue) :
    startAllocationNumber catalogue command geocoded orderNumber candidates orderId =
      startAllocation catalogue command geocoded orderNumber candidates orderId := by
  rw [startAllocationNumber, startAllocation]
  cases resolved : resolveCustomerAndProducts catalogue command with
  | error e => rfl
  | ok products =>
      have same : orderTotalNumber (priceLines products command.lines) =
          orderTotal (priceLines products command.lines) := by
        refine orderTotalNumber_eq (fun line member => ?_) (fun line member => ?_)
          (unrounded.total products resolved)
        · exact unrounded.prices _ (resolved_subset resolved (mem_priceLines member).2)
        · exact unrounded.quantities _ (mem_priceLines member).1
      have drafted : draftOrderNumber command products geocoded orderNumber orderId =
          draftOrder command products geocoded orderNumber orderId := by
        rw [draftOrderNumber, draftOrder]
        dsimp only
        rw [same]
      rw [ok_bind, ok_bind]
      generalize draftOrderNumber command products geocoded orderNumber orderId = numbered
        at drafted ⊢
      subst drafted
      rfl

variable {P : Type} [DecidableEq P] {s : Processes P}

/-- At prices that stay, the shop does with such orders what the system does in integers. -/
theorem shop_run_eq {actions : List (Action DbError Move Event P)}
    (unrounded : ∀ p command geocoded orderNumber candidates orderId,
      .move p (.createOrder command geocoded orderNumber candidates orderId) ∈ actions →
        command.Unrounded catalogue) :
    s.run store (shop sha256) (actions.map (atPrices catalogue)) =
      s.run store (system catalogue sha256) actions := by
  have step : ∀ a ∈ actions, ∀ s : Processes P,
      s.step store (shop sha256) (atPrices catalogue a) =
        s.step store (system catalogue sha256) a := by
    intro a member s
    cases a with
    | move p m =>
        have same : ∀ ctl : Ctl, ctl.moveNumber catalogue s.data (s.locked p) s.env m =
            ctl.move catalogue s.data (s.locked p) s.env m := by
          intro ctl
          unfold Ctl.moveNumber
          split
          · rw [startAllocationNumber_eq (unrounded _ _ _ _ _ _ member)]
            rfl
          · rfl
        simp only [atPrices, State.step, shop, system, same]
    | _ => rfl
  induction actions generalizing s with
  | nil => rfl
  | cons a actions ih =>
      rw [List.map_cons, State.run, State.run, List.foldlM_cons, List.foldlM_cons,
        step a List.mem_cons_self s]
      refine congrArg _ (funext fun t => ih ?_ ?_)
      · exact fun p command geocoded orderNumber candidates orderId inside =>
          unrounded p command geocoded orderNumber candidates orderId
            (List.mem_cons_of_mem a inside)
      · exact fun b inside => step b (List.mem_cons_of_mem a inside)

end Exactly

/-- What a step decides beyond `Does`: the total of a draft, and the order that a settlement
hands on. -/
def Ctl.Made (d : Db) : Ctl → Prop
  | allocating allocation => orderTotalNumber allocation.draft.lines = .ok allocation.draft.total
  | finished _ (.ok result) => ∃ row, d.orders.lookup result.order.id = some row ∧
    result.order.total.amountCents = row.totalCents
  | _ => True

section Steps
variable {catalogue : Catalogue} {sha256 : String → String} {d after : Db} {env env' : Env}
  {ctl ctl' : Ctl} {locked : Lock → Bool} {m : Move}

theorem draftOrderNumber_eq {command : CreateOrderCommand} {products : List Product}
    {geocoded : Geocoded} {orderNumber : String} {orderId : Uuid} {draft : Draft}
    (made : draftOrderNumber command products geocoded orderNumber orderId = .ok draft) :
    draft.orderId = orderId ∧ orderTotalNumber draft.lines = .ok draft.total := by
  obtain ⟨shippingAddress, -, made⟩ := bind_eq_ok made
  obtain ⟨shippingLocation, -, made⟩ := bind_eq_ok made
  obtain ⟨total, summed, made⟩ := bind_eq_ok made
  cases made
  refine ⟨rfl, ?_⟩
  cases summing : orderTotalNumber (priceLines products command.lines) with
  | error e =>
      rw [summing] at summed
      cases summed
  | ok sum =>
      rw [summing] at summed
      cases summed
      rfl

theorem moves_startNumber {orderId : Uuid} (fresh : orderId ∉ env.ids)
    (command : CreateOrderCommand) (geocoded : Geocoded) (orderNumber : String)
    (candidates : List Uuid) :
    Moves d env .idle { env with ids := orderId :: env.ids }
      (startAllocationNumber catalogue command geocoded orderNumber candidates orderId) ∧
    (startAllocationNumber catalogue command geocoded orderNumber candidates orderId).Made d := by
  unfold startAllocationNumber
  split
  · exact ⟨.refuse fresh, trivial⟩
  · rename_i draft made
    obtain ⟨products, -, made⟩ := bind_eq_ok made
    obtain ⟨mine, total⟩ := draftOrderNumber_eq made
    split
    · exact ⟨.refuse fresh, trivial⟩
    · exact ⟨.start fresh mine, total⟩

/-- Only a command leads to an allocation. -/
theorem move_allocating {allocation : Allocation}
    (moved : ctl.move catalogue d locked env m = some (env', .allocating allocation)) :
    ctl = .idle ∧ ∃ command geocoded orderNumber candidates orderId,
      m = .createOrder command geocoded orderNumber candidates orderId := by
  have start : ctl = .idle := by
    cases moves_of_move moved with
    | start _ _ => rfl
  subst start
  refine ⟨rfl, ?_⟩
  cases m with
  | createOrder command geocoded orderNumber candidates orderId => exact ⟨_, _, _, _, _, rfl⟩
  | _ => simp [Ctl.move, Ctl.exchange] at moved

theorem Moves.made (moves : Moves d env ctl env' ctl')
    (other : ∀ allocation, ctl' ≠ .allocating allocation) : ctl'.Made d := by
  cases moves with
  | start _ _ => exact absurd rfl (other _)
  | _ => trivial

theorem moves_of_moveNumber (moved : ctl.moveNumber catalogue d locked env m = some (env', ctl')) :
    Moves d env ctl env' ctl' ∧ ctl'.Made d := by
  unfold Ctl.moveNumber at moved
  split at moved
  · obtain ⟨drawn, made, same⟩ := Option.map_eq_some_iff.mp moved
    cases same
    obtain ⟨fresh, rfl⟩ := draw_eq made
    exact moves_startNumber fresh _ _ _ _
  · rename_i other
    have moves := moves_of_move moved
    refine ⟨moves, moves.made ?_⟩
    rintro allocation rfl
    obtain ⟨idle, command, geocoded, orderNumber, candidates, orderId, create⟩ :=
      move_allocating moved
    exact other _ _ _ _ _ idle create

theorem made_of_body {body : Tx Ctl} (here : ctl.body = some body)
    (ran : body.Completes store d after ctl') : ctl'.Made d := by
  cases ctl <;> cases here <;> obtain ⟨_, _, done, rfl, rfl⟩ := Program.completes_bind.mp ran
  case allocating => trivial
  case saving save stored =>
    unfold PaymentSave.saved
    split
    · trivial
    · unfold Saga.settle
      split <;> trivial
  case settling saga chargeResult call =>
    unfold Saga.settled
    split
    · exact settle_total done
    · trivial
  case resolving => trivial

theorem Ctl.Made.failed (made : ctl.Made d) (e : Thrown) : (ctl.failed e).Made d := by
  cases ctl with
  | allocating allocation =>
      simp only [Ctl.failed, Allocation.failed]
      split
      · split
        · exact made
        · trivial
      · trivial
  | finished saga outcome => exact made
  | _ => trivial

variable {P : Type} [DecidableEq P] {a b : World P}

/-- Every step of the shop is one of the system, with its totals summed up in numbers. -/
theorem shop_step (step : Committed.Step store (shop sha256) a b)
    (made : ∀ p, (a.ctl p).Made a.data) :
    Does sha256 a b ∧ ∀ p, (b.ctl p).Made a.data := by
  cases step with
  | commit body ran =>
      exact ⟨.commit (commits_of_body body ran),
        Committed.forall_goto (made_of_body body ran) fun q _ => made q⟩
  | fail body raised =>
      exact ⟨.rewind (rewinds_of_body body _),
        Committed.forall_goto ((made _).failed _) fun q _ => made q⟩
  | crash => exact ⟨.rewind .crash, Committed.forall_goto trivial fun q _ => made q⟩
  | move moved =>
      obtain ⟨moves, new⟩ := moves_of_moveNumber moved
      exact ⟨.move moves, Committed.forall_goto new fun q _ => made q⟩
  | draw => exact ⟨.happen .tick, made⟩
  | event happened => exact ⟨.happen (happens_of_event happened), made⟩

end Steps

/-- The payment on its way has the amount of its order. -/
def Ctl.Billed : Ctl → Prop
  | finding save | saving save _ =>
    save.payment.amountCents = save.saga.order.total.amountCents
  | charging saga pendingPayment _ | charged saga pendingPayment _ =>
    pendingPayment.amountCents = saga.order.total.amountCents
  | _ => True

/-- Every order is worth what its rows come to. -/
def Db.Totalled (d : Db) : Prop :=
  ∀ o row, d.orders.lookup o = some row → 0 ≤ row.totalCents ∧
    (d.itemsTotal o ≤ MAX_SAFE_INTEGER → row.totalCents = d.itemsTotal o)

/-- Every payment is worth what its order is. -/
def Db.Charged (d : Db) : Prop :=
  ∀ i payment, d.payments.lookup i = some payment → ∃ row,
    d.orders.lookup payment.orderId = some row ∧ payment.amountCents = row.totalCents

structure Priced {P : Type} (a : World P) : Prop where
  totalled : a.data.Totalled
  charged : a.data.Charged
  billed : ∀ p, (a.ctl p).Billed
  made : ∀ p, (a.ctl p).Made a.data

section Invariant
variable {sha256 : String → String} {d after : Db} {env env' : Env} {ctl ctl' : Ctl}
  {mine : List Uuid}

theorem Ctl.Made.evolves (made : ctl.Made d) (evolves : Evolves mine d after) :
    ctl.Made after := by
  cases ctl with
  | finished saga outcome =>
      cases outcome with
      | error e => trivial
      | ok result =>
          obtain ⟨row, stored, total⟩ := made
          obtain ⟨row', stored', same, -⟩ := evolves.orders stored
          exact ⟨row', stored', total.trans same.symm⟩
  | allocating allocation => exact made
  | _ => trivial

/-- An order that is not new had its total before. -/
theorem Evolves.back (evolves : Evolves mine d after) {o : Uuid} (old : o ∉ mine)
    {row' : OrderRow} (stored : after.orders.lookup o = some row') :
    ∃ row, d.orders.lookup o = some row ∧ row'.totalCents = row.totalCents := by
  cases before : d.orders.lookup o with
  | none => cases (evolves.newOrders before old).symm.trans stored
  | some row =>
      obtain ⟨row'', stored', total, -⟩ := evolves.orders before
      cases stored.symm.trans stored'
      exact ⟨row, rfl, total⟩

theorem Moves.billed (moves : Moves d env ctl env' ctl') (billed : ctl.Billed) : ctl'.Billed := by
  cases moves with
  | find => exact billed
  | sendCharge _ => exact billed
  | retryCharge _ _ => exact billed
  | charge _ => exact billed
  | record => exact billed
  | pay _ => rfl
  | _ => trivial

theorem Rewinds.billed (rewinds : Rewinds ctl ctl') : ctl'.Billed := by
  cases rewinds <;> trivial

theorem Commits.billed (commits : Commits d ctl after ctl') (billed : ctl.Billed) :
    ctl'.Billed := by
  cases commits with
  | insert _ _ => exact billed
  | _ => trivial

theorem Db.Totalled.keeps (totalled : d.Totalled) (items : after.orderItems = d.orderItems)
    (back : ∀ o row', after.orders.lookup o = some row' →
      ∃ row, d.orders.lookup o = some row ∧ row'.totalCents = row.totalCents) :
    after.Totalled := by
  intro o row' stored
  obtain ⟨row, before, same⟩ := back o row' stored
  have total : after.itemsTotal o = d.itemsTotal o := by
    rw [Db.itemsTotal, Db.itemsTotal, Db.itemsOf, Db.itemsOf, items]
  rw [same, total]
  exact totalled o row before

theorem Db.Charged.keeps (charged : d.Charged) (evolves : Evolves mine d after)
    (back : ∀ i payment', after.payments.lookup i = some payment' → ∃ payment,
      d.payments.lookup i = some payment ∧ payment'.orderId = payment.orderId ∧
        payment'.amountCents = payment.amountCents) : after.Charged := by
  intro i payment' stored
  obtain ⟨payment, before, order, amount⟩ := back i payment' stored
  obtain ⟨row, found, same⟩ := charged i payment before
  obtain ⟨row', found', total, -⟩ := evolves.orders found
  exact ⟨row', order ▸ found', amount.trans (same.trans total.symm)⟩

/-- A new order is worth what its lines come to at the prices that were read for it. -/
theorem Db.Totalled.reserve (totalled : d.Totalled)
    (itemsOwned : ∀ item ∈ d.orderItems, (d.orders.lookup item.orderId).isSome)
    {draft : Draft} {w : Uuid} {order : Order} (fresh : d.orders.lookup draft.orderId = none)
    (made : orderTotalNumber draft.lines = .ok draft.total)
    (ran : (attemptCandidate draft w).Completes store d after order) : after.Totalled := by
  obtain ⟨items, grown, mine, total⟩ := attemptCandidate_items fresh ran
  obtain ⟨⟨row, inserted, -, -, amount, -⟩, -⟩ := (attemptCandidate_spec fresh ran).1
  intro o row' stored
  rw [inserted] at stored
  by_cases same : o = draft.orderId
  · subst same
    cases (AList.lookup_insert _).symm.trans stored
    have none_before : d.itemsOf draft.orderId = [] := by
      rw [Db.itemsOf, List.filter_eq_nil_iff]
      intro item member own
      have known := itemsOwned item member
      rw [of_decide_eq_true own, fresh] at known
      cases known
    have all_new : items.filter (fun item => item.orderId = draft.orderId) = items := by
      rw [List.filter_eq_self]
      intro item member
      exact decide_eq_true (mine item member)
    have worth : after.itemsTotal draft.orderId = linesTotal draft.lines := by
      rw [Db.itemsTotal, Db.itemsOf, grown, List.filter_append, all_new, ← total]
      rw [Db.itemsOf] at none_before
      rw [none_before, List.nil_append]
    rw [amount, worth]
    exact ⟨draft.total.nonneg, orderTotalNumber_exact made⟩
  · rw [AList.lookup_insert_ne same] at stored
    have none_new : items.filter (fun item => item.orderId = o) = [] := by
      rw [List.filter_eq_nil_iff]
      intro item member own
      exact same ((of_decide_eq_true own).symm.trans (mine item member))
    have worth : after.itemsTotal o = d.itemsTotal o := by
      rw [Db.itemsTotal, Db.itemsTotal, Db.itemsOf, Db.itemsOf, grown, List.filter_append,
        none_new, List.append_nil]
    rw [worth]
    exact totalled o row' stored

/-- A payment is saved with the amount of its order. -/
theorem Saves.charged {save : PaymentSave} {stored : Option PaymentOrmEntity}
    {service : Provider.ChargeService} (saves : Saves save.payment d stored after)
    (charged : d.Charged) (alone : save.payment.Mine d) (backed : save.Backed d service)
    (billed : save.payment.amountCents = save.saga.order.total.amountCents) : after.Charged := by
  obtain ⟨row, found, total, -⟩ := backed.placed
  have worth : save.payment.amountCents = row.totalCents := billed.trans total
  have order : d.orders.lookup save.payment.orderId = some row := backed.pays.1 ▸ found
  cases saves with
  | inserted absent =>
      intro i payment there
      by_cases same : i = save.payment.id
      · subst same
        cases (AList.lookup_insert _).symm.trans there
        exact ⟨row, order, worth⟩
      · exact charged i payment ((AList.lookup_insert_ne same).symm.trans there)
  | @updated stored before present =>
      intro i payment there
      by_cases same : i = save.payment.id
      · subst same
        cases (AList.lookup_insert _).symm.trans there
        have mine := (alone before present).1
        obtain ⟨row', found', amount⟩ := charged _ before present
        rw [mine] at found'
        cases order.symm.trans found'
        have kept : (before.update stored save.payment).orderId = save.payment.orderId := by
          simp only [PaymentRow.update, saveColumn, mine, PaymentColumns.map, ite_self]
        refine ⟨row, ?_, ?_⟩
        · rw [kept]
          exact order
        · simp only [PaymentRow.update, saveColumn, PaymentColumns.map, amount, worth, ite_self]
      · exact charged i payment ((AList.lookup_insert_ne same).symm.trans there)
  | missed _ => exact charged

theorem Saves.amounts {save : PaymentSave} {stored : Option PaymentOrmEntity}
    {service : Provider.ChargeService} (saves : Saves save.payment d stored after)
    (totalled : d.Totalled) (charged : d.Charged) (alone : save.payment.Mine d)
    (backed : save.Backed d service)
    (billed : save.payment.amountCents = save.saga.order.total.amountCents) :
    after.Totalled ∧ after.Charged := by
  have items : after.orderItems = d.orderItems := by cases saves <;> rfl
  refine ⟨totalled.keeps items fun o row' found => ?_, saves.charged charged alone backed billed⟩
  rw [(saves.spec alone).1] at found
  exact ⟨row', found, rfl⟩

theorem Settled.amounts {call : SettleCall} {result : SettlementResult}
    (settled : Settled call d after result) (totalled : d.Totalled) (charged : d.Charged) :
    after.Totalled ∧ after.Charged := by
  have evolves : Evolves [] d after := settled.evolves
  cases settled with
  | already row _ _ same => exact same ▸ ⟨totalled, charged⟩
  | now row createdAt stored pending done =>
      obtain ⟨now, payments⟩ := done.payments
      refine ⟨totalled.keeps done.orderItems fun o row' => evolves.back (by simp),
        charged.keeps evolves fun i payment' found => ?_⟩
      rw [payments] at found
      rcases settledPayments_spec d call.payment now i with same | ⟨before, _, there, -, -, -, new⟩
      · exact ⟨payment', same ▸ found, rfl, rfl⟩
      · cases new.symm.trans found
        exact ⟨before, there, rfl, rfl⟩

variable {P : Type} [DecidableEq P] {a b : World P} {A₀ : Uuid × Uuid → Int}

theorem priced_step (priced : Priced a) (owned : Owned a) (backed : Backed a)
    (books : Consistent A₀ a.data) (does : Does sha256 a b)
    (made : ∀ p, (b.ctl p).Made a.data) : Priced b := by
  cases does with
  | @commit p after ctl commits =>
      obtain ⟨evolves, -, -⟩ := commits.owned (owned.alone p)
      have amounts : after.Totalled ∧ after.Charged := by
        have alone := owned.alone p
        have placed := backed.ctl p
        have billed := priced.billed p
        have drafted := priced.made p
        generalize a.ctl p = before at commits alone placed billed drafted evolves
        cases commits with
        | reserve ran =>
            obtain ⟨reserved, -⟩ := attemptCandidate_spec alone ran
            refine ⟨priced.totalled.reserve books.itemsOwned alone drafted ran,
              priced.charged.keeps evolves fun i payment found => ?_⟩
            rw [reserved.payments] at found
            exact ⟨payment, found, rfl, rfl⟩
        | insert _ saves =>
            exact saves.amounts priced.totalled priced.charged alone.1.1 placed billed
        | record _ _ saves =>
            exact saves.amounts priced.totalled priced.charged alone.1.1 placed billed
        | leave _ _ saves =>
            exact saves.amounts priced.totalled priced.charged alone.1.1 placed billed
        | confirm _ settled => exact settled.amounts priced.totalled priced.charged
        | decline _ settled => exact settled.amounts priced.totalled priced.charged
        | resolve settled => exact settled.amounts priced.totalled priced.charged
      exact ⟨amounts.1, amounts.2, Committed.forall_goto (commits.billed (priced.billed p))
        fun q _ => priced.billed q, fun q => (made q).evolves evolves⟩
  | rewind rewinds =>
      exact ⟨priced.totalled, priced.charged,
        Committed.forall_goto rewinds.billed fun q _ => priced.billed q, made⟩
  | @move p env ctl moves =>
      exact ⟨priced.totalled, priced.charged,
        Committed.forall_goto (moves.billed (priced.billed p)) fun q _ => priced.billed q, made⟩
  | happen _ => exact ⟨priced.totalled, priced.charged, priced.billed, made⟩

end Invariant

section Runs
variable {P : Type} [DecidableEq P] {sha256 : String → String} {stock : Stock}
  {clock : Timestamptz} {s : Processes P}

/-- A run of the shop, whatever its products cost from one step to the next. -/
def Trades (sha256 : String → String) (stock : Stock) (clock : Timestamptz) (s : Processes P) :
    Prop :=
  Relation.ReflTransGen (State.Next store (shop sha256)) (initial P stock clock) s

theorem shop_supplies : (shop sha256).Supplies store
    (fun e => Recorded e.lastMovementId) (fun e => Drawn e.lastMovementId) := by
  apply supplies_of_sequence fun _ => ⟨rfl, rfl⟩
  · intro _ _ _ _ _ _ _ moved
    exact Nat.le_of_eq (moves_last (moves_of_moveNumber moved).1).symm
  · intro _ _ _ happened
    exact event_last happened

omit [DecidableEq P] in
theorem shop_replayable : State.Replayable store (shop sha256)
    (fun e => Recorded e.lastMovementId) (fun e => Drawn e.lastMovementId)
    (initial P stock clock) := by
  have same : State.Replayable store (system ⟨[], []⟩ sha256)
    (fun e => Recorded e.lastMovementId) (fun e => Drawn e.lastMovementId)
    (initial P stock clock) := initial_replayable
  exact ⟨same.exclusive, same.recorded, same.drawn, same.replays⟩

theorem Trades.committed (trades : Trades sha256 stock clock s) :
    Relation.ReflTransGen (Committed.Step store (shop sha256)) (initial P stock clock).committed
      s.committed :=
  (State.run_refines store_lawful shop_supplies system_guarded shop_replayable trades).2

/-- Throughout a run of the shop, its rows belong together and agree on their amounts. -/
theorem Trades.priced (trades : Trades sha256 stock clock s) :
    Priced s.committed ∧ Backed s.committed := by
  have all : Owned s.committed ∧ Backed s.committed ∧ Consistent stock.units s.committed.data ∧
      Priced s.committed := by
    have steps := trades.committed
    generalize s.committed = a at steps
    induction steps with
    | refl =>
        refine ⟨owned_initial, backed_initial, consistent_stock stock, ?_⟩
        refine ⟨?_, ?_, fun _ => trivial, fun _ => trivial⟩
        · intro o row stored
          cases stored
        · intro i payment stored
          cases stored
    | tail _ step ih =>
        obtain ⟨owned, backed, books, priced⟩ := ih
        obtain ⟨does, made⟩ := shop_step step priced.made
        exact ⟨owned.step does, backed.step owned does, consistent_step does owned books,
          priced_step priced owned backed books does made⟩
  exact ⟨all.2.2.2, all.2.1⟩

/-- What an order is worth, wherever the shop keeps it, sends it or tells it. -/
structure OneAmount (s : Processes P) (o : Uuid) (amount : Int) : Prop where
  order : ∀ row, s.data.orders.lookup o = some row → row.totalCents = amount
  reloaded : bigintNumberTransformer (toString amount) = some amount
  payments : ∀ i payment, s.data.payments.lookup i = some payment → payment.orderId = o →
    payment.amountCents = amount
  sent : ∀ request ∈ s.env.network, ∀ body, request.payload = .charge (chargeKey o) body →
    body.amountCents = amount
  recorded : ∀ record, s.env.service.records.lookup (chargeKey o) = some record →
    record.amountCents = amount
  answered : ∀ p saga result, (s.session p).ctl = .finished saga (.ok result) →
    result.order.id = o → ∀ formatDistance formatCentsAsDollars params,
      params.order = result.order →
        totalCents (toOrderResponse formatDistance formatCentsAsDollars params) =
          some (amount : Rat)

/-- In every state of every run, a reserved order whose rows come to no more than
`MAX_SAFE_INTEGER` is worth just that. -/
theorem one_amount (trades : Trades sha256 stock clock s) {o : Uuid} {row : OrderRow}
    (reserved : s.data.orders.lookup o = some row)
    (small : s.data.itemsTotal o ≤ MAX_SAFE_INTEGER) : OneAmount s o (s.data.itemsTotal o) := by
  obtain ⟨priced, backed⟩ := trades.priced
  obtain ⟨least, total⟩ := priced.totalled o row reserved
  have worth := total small
  have asked : ∀ {key body}, Asked s.data key body → key = chargeKey o →
      body.amountCents = s.data.itemsTotal o := by
    rintro key body ⟨o', row', same, found, amount, -⟩ rfl
    cases chargeKey_inj same
    cases reserved.symm.trans found
    exact amount.trans worth
  constructor
  · intro row' found
    cases reserved.symm.trans found
    exact worth
  · rw [worth] at least
    exact bigintNumberTransformer_exact least small
  · rintro i payment found rfl
    obtain ⟨row', found', amount⟩ := priced.charged i payment found
    cases reserved.symm.trans found'
    exact amount.trans worth
  · intro request member body payload
    exact asked (backed.network request member payload) rfl
  · intro record found
    obtain ⟨body, asks, charged, -⟩ := backed.faithful.recorded found
    exact charged.trans (asked asks rfl)
  · rintro p saga result ended rfl formatDistance formatCentsAsDollars params same
    have made := priced.made p
    rw [show s.committed.ctl p = .finished saga (.ok result) from ended] at made
    obtain ⟨row', found, amount⟩ := made
    cases reserved.symm.trans found
    rw [totalCents_toOrderResponse, same, amount, worth]
    rfl

end Runs

section Lamp

/-- Lamps cost twice as much as soon as the two are ordered. -/
def dearerCatalogue : Catalogue where
  customers := ["customer"]
  products := [⟨"lamp", "SKU-1", "Lamp", 2500, true, false⟩]

def lampTrade : List (Action DbError (Catalogue × Move) Event Bool) :=
  lampReserve.map (atPrices lampCatalogue) ++
    (lampPay ++ lampApprove ++ lampRecord ++ transact true 17).map (atPrices dearerCatalogue)

def lampTraded : Processes Bool :=
  ((initial Bool lampStock ⟨1000000⟩).run store (shop lampSha256) lampTrade).get
    (by decide +kernel)

theorem lampTraded_trades : Trades lampSha256 lampStock ⟨1000000⟩ lampTraded :=
  State.reaches_of_run (Option.some_get _).symm

theorem lampTraded_stored : (lampTraded.data.orders.lookup "order").isSome := by
  decide +kernel

theorem one_amount_lamp : lampTraded.data.itemsTotal "order" = 2500 ∧
    OneAmount lampTraded "order" (lampTraded.data.itemsTotal "order") := by
  obtain ⟨row, stored⟩ := Option.isSome_iff_exists.mp lampTraded_stored
  have total : lampTraded.data.itemsTotal "order" = 2500 := by decide +kernel
  have small : lampTraded.data.itemsTotal "order" ≤ MAX_SAFE_INTEGER := by
    rw [total]
    decide
  exact ⟨total, one_amount lampTraded_trades stored small⟩

end Lamp
end Canals
