import Canals.System.Ledger

/-! What the system knows of a charge is so. A settled order, a settlement about
to be made, a charge result and a response on its way all rest on a record the
provider has stored under the order's own key; records are never lost. -/
namespace Canals
open Locking
open Provider (ChargeService ChargeRequestBody Payload Request Response Stored Extends Faithful)

/-- The key of the one charge an order has. -/
def chargeKey (orderId : Uuid) : String := buildChargeIdempotencyKey orderId FIRST_PAYMENT_ATTEMPT

theorem chargeKey_inj {o o' : Uuid} (same : chargeKey o = chargeKey o') : o = o' :=
  buildChargeIdempotencyKey_inj same

/-- The order has a payments row. -/
def Db.PaymentOf (d : Db) (o : Uuid) : Prop :=
  ∃ i payment, d.payments.lookup i = some payment ∧ payment.orderId = o

/-- A charge asks what its order totals to, and the order has a payments row. -/
def Asked (d : Db) (key : String) (body : ChargeRequestBody) : Prop :=
  ∃ o row, key = chargeKey o ∧ d.orders.lookup o = some row ∧
    body.amountCents = row.totalCents ∧ body.currency = row.currency ∧ d.PaymentOf o

def Saga.Placed (d : Db) (saga : Saga) : Prop :=
  ∃ row, d.orders.lookup saga.order.id = some row ∧
    saga.order.total.amountCents = row.totalCents ∧ saga.order.total.currency = row.currency

def Saga.Pays (saga : Saga) (payment : PaymentOrmEntity) : Prop :=
  payment.orderId = saga.order.id ∧ payment.idempotencyKey = chargeKey saga.order.id

def Task.Keyed (task : Task) : Prop :=
  ∀ i key, task.payment = some (i, key) → key = chargeKey task.orderId

/-- The request in flight is the exchange's own. -/
def Exchange.Sent (exchange : Exchange) : Prop :=
  ∀ request, exchange.request = some request → request.payload = exchange.payload

/-- The provider has stored what the settlement is about. -/
def SettleCall.Backed (service : ChargeService) : SettleCall → Prop
  | confirmCaptured o _ => Stored service (chargeKey o) .approved
  | failDeclined o _ => Stored service (chargeKey o) .declined
  | cancelUnpaid _ _ _ => True

structure PaymentSave.Backed (d : Db) (service : ChargeService) (save : PaymentSave) : Prop where
  placed : save.saga.Placed d
  pays : save.saga.Pays save.payment
  reports : ∀ chargeResult, save.chargeResult = some chargeResult →
    chargeResult.Reports service (chargeKey save.saga.order.id)

def Ctl.Backed (d : Db) (service : ChargeService) : Ctl → Prop
  | reserved saga => saga.Placed d
  | finding save | saving save _ => save.Backed d service
  | charging saga pendingPayment exchange => saga.Placed d ∧ saga.Pays pendingPayment ∧
    exchange.Sent ∧ ∃ body, exchange.payload = .charge (chargeKey saga.order.id) body ∧
      Asked d (chargeKey saga.order.id) body
  | charged saga pendingPayment chargeResult => saga.Placed d ∧ saga.Pays pendingPayment ∧
    chargeResult.Reports service (chargeKey saga.order.id)
  | settling _ _ call => call.Backed service
  | running tasks => ∀ task ∈ tasks, task.Keyed
  | asking task exchange rest => task.Keyed ∧ (∀ task ∈ rest, task.Keyed) ∧ exchange.Sent ∧
    exchange.payload = .getStatus (chargeKey task.orderId)
  | resolving call rest => call.Backed service ∧ ∀ task ∈ rest, task.Keyed
  | _ => True

structure Backed {P : Type} (a : World P) : Prop where
  faithful : Faithful (Asked a.data) a.env.service
  network : ∀ request ∈ a.env.network, ∀ {key body}, request.payload = .charge key body →
    Asked a.data key body
  responses : ∀ response ∈ a.env.responses, response.Holds a.env.service
  payments : ∀ {i row}, a.data.payments.lookup i = some row →
    row.idempotencyKey = chargeKey row.orderId
  orders : ∀ {o row}, a.data.orders.lookup o = some row →
    (row.status = .CONFIRMED → Stored a.env.service (chargeKey o) .approved) ∧
    (row.status = .PAYMENT_FAILED → Stored a.env.service (chargeKey o) .declined)
  ctl : ∀ p, (a.ctl p).Backed a.data a.env.service

section Growth
variable {d after : Db} {service service' : ChargeService} {mine : List Uuid} {ctl ctl' : Ctl}

theorem Db.PaymentOf.evolves {o : Uuid} (has : d.PaymentOf o) (evolves : Evolves mine d after) :
    after.PaymentOf o := by
  obtain ⟨i, payment, found, orderId⟩ := has
  obtain ⟨payment', found', same, -⟩ := evolves.payments found
  exact ⟨i, payment', found', same.trans orderId⟩

theorem Asked.evolves {key : String} {body : ChargeRequestBody} (asked : Asked d key body)
    (evolves : Evolves mine d after) : Asked after key body := by
  obtain ⟨o, row, same, found, amount, currency, has⟩ := asked
  obtain ⟨row', found', total', currency', -⟩ := evolves.orders found
  exact ⟨o, row', same, found', amount.trans total'.symm, currency.trans currency'.symm,
    has.evolves evolves⟩

theorem Saga.Placed.evolves {saga : Saga} (placed : saga.Placed d)
    (evolves : Evolves mine d after) : saga.Placed after := by
  obtain ⟨row, found, total, currency⟩ := placed
  obtain ⟨row', found', total', currency', -⟩ := evolves.orders found
  exact ⟨row', found', total.trans total'.symm, currency.trans currency'.symm⟩

theorem SettleCall.Backed.grow {call : SettleCall} (backed : call.Backed service)
    (grown : Extends service service') : call.Backed service' := by
  cases call with
  | cancelUnpaid _ _ _ => trivial
  | _ => exact Extends.stored grown backed

/-- Rows that evolve and records that are added take nothing back. -/
theorem Ctl.Backed.grow (backed : ctl.Backed d service) (evolves : Evolves mine d after)
    (grown : Extends service service') : ctl.Backed after service' := by
  cases ctl with
  | reserved saga => exact Saga.Placed.evolves backed evolves
  | finding save | saving save stored =>
    exact ⟨backed.placed.evolves evolves, backed.pays,
      fun result same => (backed.reports result same).mono grown⟩
  | charging saga payment exchange =>
    obtain ⟨placed, pays, sent, body, payload, asked⟩ := backed
    exact ⟨placed.evolves evolves, pays, sent, body, payload, asked.evolves evolves⟩
  | charged saga payment chargeResult =>
    exact ⟨backed.1.evolves evolves, backed.2.1, backed.2.2.mono grown⟩
  | settling saga chargeResult call => exact SettleCall.Backed.grow backed grown
  | resolving call rest => exact ⟨backed.1.grow grown, backed.2⟩
  | running tasks => exact backed
  | asking task exchange rest => exact backed
  | _ => trivial

end Growth

section Commits
variable {d after : Db} {service : ChargeService} {ctl ctl' : Ctl}

theorem settlementOf_backed {o : Uuid} {chargeResult : ChargeResult} {call : SettleCall}
    (reports : chargeResult.Reports service (chargeKey o))
    (same : settlementOf o chargeResult = some call) : call.orderId = o ∧ call.Backed service := by
  unfold settlementOf at same
  split at same <;> cases same
  · exact ⟨rfl, reports.captured ‹_›⟩
  · exact ⟨rfl, reports.declined ‹_›⟩

/-- The order a settlement closed rests on what the settlement did. -/
theorem Settled.backed {call : SettleCall} {result : SettlementResult}
    (settled : Settled call d after result) (backed : call.Backed service)
    (before : ∀ {o row}, d.orders.lookup o = some row →
      (row.status = .CONFIRMED → Stored service (chargeKey o) .approved) ∧
      (row.status = .PAYMENT_FAILED → Stored service (chargeKey o) .declined))
    {o : Uuid} {row : OrderRow} (found : after.orders.lookup o = some row) :
    (row.status = .CONFIRMED → Stored service (chargeKey o) .approved) ∧
      (row.status = .PAYMENT_FAILED → Stored service (chargeKey o) .declined) := by
  cases settled with
  | already _ _ _ same => exact before (same ▸ found)
  | now row₀ createdAt stored pending done =>
    obtain ⟨row', stored', target, -, -, -, others⟩ := done.settledRow
    by_cases mine : o = call.orderId
    · subst mine
      cases stored'.symm.trans found
      rw [target]
      cases call with
      | confirmCaptured o payment => exact ⟨fun _ => backed, nofun⟩
      | failDeclined o payment => exact ⟨nofun, fun _ => backed⟩
      | cancelUnpaid o reason payment => exact ⟨nofun, nofun⟩
    · exact before ((others o mine).symm.trans found)

end Commits

section Moves
variable {d : Db} {env env' : Env} {ctl ctl' : Ctl} {exchange : Exchange}

theorem resolve_backed {service : ChargeService} {task : Task} {chargeResult : ChargeResult}
    {call : SettleCall} (reports : chargeResult.Reports service (chargeKey task.orderId))
    (same : task.resolve chargeResult = some call) : call.Backed service := by
  unfold Task.resolve at same
  dsimp only at same
  split at same <;> cases same
  · exact reports.captured ‹_›
  · exact reports.declined ‹_›
  · trivial

/-- What the answer to a charge comes to, the provider has stored. -/
theorem Answers.charge_reports {outcome : Except AttemptError ProviderResponse} {key : String}
    {body : ChargeRequestBody} (answers : Answers env exchange outcome) (cardNumber : String)
    (holds : ∀ response ∈ env.responses, response.Holds env.service) (sent : exchange.Sent)
    (payload : exchange.payload = .charge key body) :
    (chargeResultOf cardNumber outcome).Reports env.service key := by
  cases answers with
  | failed => exact chargeResultOf_error _
  | answered member mine =>
    exact chargeResultOf_reports ((sent _ mine).trans payload) (holds _ member)

theorem Answers.status_reports {outcome : Except AttemptError ProviderResponse} {key : String}
    (answers : Answers env exchange outcome)
    (holds : ∀ response ∈ env.responses, response.Holds env.service) (sent : exchange.Sent)
    (payload : exchange.payload = .getStatus key) :
    (statusResultOf outcome).Reports env.service key := by
  cases answers with
  | failed => exact statusResultOf_error _
  | answered member mine =>
    exact statusResultOf_reports ((sent _ mine).trans payload) (holds _ member)

theorem selected_keyed (payments : ∀ {i row}, d.payments.lookup i = some row →
    row.idempotencyKey = chargeKey row.orderId) {task : Task} (selected : task.Selected d) :
    task.Keyed := by
  intro i key same
  cases task with
  | expired row =>
    obtain ⟨-, -, -, latest⟩ := selected
    obtain ⟨payment, found, orderId, key'⟩ := latestPayment_some (latest.symm.trans same)
    exact key'.symm.trans ((payments found).trans (congrArg chargeKey orderId))
  | unsettled row =>
    obtain ⟨payment, found, orderId, key'⟩ := selected
    cases same
    exact key'.symm.trans ((payments found).trans (congrArg chargeKey orderId))

theorem Exchange.sent_of_unsent (unsent : exchange.request = none) : exchange.Sent := by
  intro request same
  cases unsent.symm.trans same

theorem send_sent (env : Env) (exchange : Exchange) : (env.send exchange).2.Sent := by
  intro request same
  cases same
  rfl

/-- What is sent is asked, be it a charge or a query. -/
theorem send_asked (query : ∀ {key body}, exchange.payload = .charge key body → Asked d key body) :
    ∀ request ∈ (env.send exchange).1.network, request ∈ env.network ∨
      ∀ {key body}, request.payload = .charge key body → Asked d key body := by
  intro request member
  rcases List.mem_append.mp member with old | new
  · exact .inl old
  · rw [List.mem_singleton.mp new]
    exact .inr query

/-- A move passes on what is so, and sends only what is asked. -/
theorem Moves.backed (moves : Moves d env ctl env' ctl') (backed : ctl.Backed d env.service)
    (payments : ∀ {i row}, d.payments.lookup i = some row →
      row.idempotencyKey = chargeKey row.orderId)
    (responses : ∀ response ∈ env.responses, response.Holds env.service) :
    ctl'.Backed d env.service ∧ env'.service = env.service ∧ env'.responses = env.responses ∧
      ∀ request ∈ env'.network, request ∈ env.network ∨
        ∀ {key body}, request.payload = .charge key body → Asked d key body := by
  have silent : ∀ {ctl' : Ctl}, ctl'.Backed d env.service → ctl'.Backed d env.service ∧
      env.service = env.service ∧ env.responses = env.responses ∧
      ∀ request ∈ env.network, request ∈ env.network ∨
        ∀ {key body}, request.payload = .charge key body → Asked d key body :=
    fun so => ⟨so, rfl, rfl, fun _ => .inl⟩
  cases moves with
  | start _ _ => exact ⟨trivial, rfl, rfl, fun _ => .inl⟩
  | refuse _ => exact ⟨trivial, rfl, rfl, fun _ => .inl⟩
  | pay _ => exact ⟨⟨backed, ⟨rfl, rfl⟩, nofun⟩, rfl, rfl, fun _ => .inl⟩
  | find => exact silent backed
  | sendCharge _ =>
    obtain ⟨placed, pays, -, body, asks, asked⟩ := backed
    refine ⟨⟨placed, pays, send_sent _ _, body, asks, asked⟩, rfl, rfl, send_asked ?_⟩
    intro key body' payload
    cases asks.symm.trans payload
    exact asked
  | sendQuery _ =>
    obtain ⟨keyed, rest, -, asks⟩ := backed
    refine ⟨⟨keyed, rest, send_sent _ _, asks⟩, rfl, rfl, send_asked fun payload => ?_⟩
    cases asks.symm.trans payload
  | retryCharge payload unsent =>
    obtain ⟨placed, pays, -, body, asks, asked⟩ := backed
    exact silent ⟨placed, pays, Exchange.sent_of_unsent unsent, body, payload.trans asks, asked⟩
  | retryQuery payload unsent =>
    obtain ⟨keyed, rest, -, asks⟩ := backed
    exact silent ⟨keyed, rest, Exchange.sent_of_unsent unsent, payload.trans asks⟩
  | charge answers =>
    obtain ⟨placed, pays, sent, body, asks, -⟩ := backed
    exact silent ⟨placed, pays, answers.charge_reports _ responses sent asks⟩
  | decide answers resolved =>
    obtain ⟨-, rest, sent, asks⟩ := backed
    exact silent ⟨resolve_backed (answers.status_reports responses sent asks) resolved, rest⟩
  | skip => exact silent backed.2.1
  | record =>
    obtain ⟨placed, pays, reports⟩ := backed
    refine silent ⟨placed, pays, fun result same => ?_⟩
    cases same
    exact reports
  | select selected => exact silent fun task member => selected_keyed payments (selected task member)
  | cancel => exact silent ⟨trivial, (List.forall_mem_cons.mp backed).2⟩
  | @ask task rest i key same =>
    obtain ⟨keyed, rest⟩ := List.forall_mem_cons.mp backed
    exact silent ⟨keyed, rest, nofun, congrArg _ (keyed i key same)⟩
  | miss | idle => exact silent trivial

end Moves

section Worlds
variable {P : Type} [DecidableEq P] {catalogue : Catalogue} {sha256 : String → String}
  {a b : World P}

/-- The parts of the invariant that speak of orders and payments, after a commit. -/
theorem Commits.backed {d after : Db} {service : ChargeService} {ctl ctl' : Ctl}
    (commits : Commits d ctl after ctl') (alone : ctl.Alone d) (backed : ctl.Backed d service)
    (payments : ∀ {i row}, d.payments.lookup i = some row →
      row.idempotencyKey = chargeKey row.orderId)
    (orders : ∀ {o row}, d.orders.lookup o = some row →
      (row.status = .CONFIRMED → Stored service (chargeKey o) .approved) ∧
      (row.status = .PAYMENT_FAILED → Stored service (chargeKey o) .declined)) :
    ctl'.Backed after service ∧
      (∀ {i row}, after.payments.lookup i = some row →
        row.idempotencyKey = chargeKey row.orderId) ∧
      ∀ {o row}, after.orders.lookup o = some row →
        (row.status = .CONFIRMED → Stored service (chargeKey o) .approved) ∧
        (row.status = .PAYMENT_FAILED → Stored service (chargeKey o) .declined) := by
  have kept : ∀ {mine i row}, Evolves mine d after → i ∉ mine →
      after.payments.lookup i = some row → row.idempotencyKey = chargeKey row.orderId := by
    intro mine i row evolves apart found
    cases before : d.payments.lookup i with
    | none => cases (evolves.newPayments before apart).symm.trans found
    | some old =>
      obtain ⟨_, found', orderId, key⟩ := evolves.payments before
      cases found.symm.trans found'
      rw [key, orderId, payments before]
  have settles : ∀ {call : SettleCall} {result}, Settled call d after result →
      call.Backed service → (∀ {i row}, after.payments.lookup i = some row →
        row.idempotencyKey = chargeKey row.orderId) ∧ ∀ {o row}, after.orders.lookup o = some row →
          (row.status = .CONFIRMED → Stored service (chargeKey o) .approved) ∧
          (row.status = .PAYMENT_FAILED → Stored service (chargeKey o) .declined) :=
    fun settled call => ⟨kept (settled.evolves : Evolves [] d after) (by simp),
      settled.backed call orders⟩
  have saved : ∀ {save : PaymentSave} {stored}, Saves save.payment d stored after →
      save.Alone d → save.Backed d service → save.Backed after service ∧
        (∀ {i row}, after.payments.lookup i = some row →
          row.idempotencyKey = chargeKey row.orderId) ∧
        ∀ {o row}, after.orders.lookup o = some row →
          (row.status = .CONFIRMED → Stored service (chargeKey o) .approved) ∧
          (row.status = .PAYMENT_FAILED → Stored service (chargeKey o) .declined) := by
    intro save stored saves alone backed
    obtain ⟨same, own, evolves⟩ := saves.spec alone.1
    refine ⟨⟨backed.placed.evolves evolves, backed.pays, backed.reports⟩, fun {i row} found => ?_,
      fun {o row} found => orders (same ▸ found)⟩
    by_cases mine : i = save.payment.id
    · subst mine
      obtain ⟨orderId, key⟩ := own row found
      rw [key, orderId, backed.pays.2, backed.pays.1]
    · exact kept evolves (by simpa using mine) found
  cases commits with
  | @reserve allocation _ order ran =>
    obtain ⟨done, createdAt, updatedAt, rfl⟩ := attemptCandidate_spec alone ran
    obtain ⟨row, inserted, pending, -, total, currency⟩ := done.order
    refine ⟨⟨row, ?_, total.symm, currency.symm⟩, fun {i row} found => ?_, fun {o row'} found => ?_⟩
    · rw [inserted]
      exact AList.lookup_insert _
    · exact payments (done.payments ▸ found)
    · rw [inserted] at found
      by_cases mine : o = allocation.draft.orderId
      · subst mine
        cases (AList.lookup_insert _).symm.trans found
        simp [pending]
      · exact orders ((AList.lookup_insert_ne mine).symm.trans found)
  | @insert save stored _ first saves =>
    obtain ⟨backed', rows⟩ := saved saves alone.1 backed
    refine ⟨⟨backed'.placed, backed'.pays, nofun, _, rfl, ?_⟩, rows⟩
    cases alone.2 first
    cases saves with
    | inserted _ =>
      obtain ⟨row, found, total, currency⟩ := backed'.placed
      exact ⟨_, row, rfl, found, total, currency, save.payment.id, _, AList.lookup_insert _,
        backed'.pays.1⟩
  | record charged asks saves =>
    obtain ⟨backed', rows⟩ := saved saves alone.1 backed
    exact ⟨(settlementOf_backed (backed'.reports _ charged) asks).2, rows⟩
  | leave _ _ saves => exact ⟨trivial, (saved saves alone.1 backed).2⟩
  | confirm _ settled => exact ⟨trivial, settles settled backed⟩
  | decline _ settled => exact ⟨trivial, settles settled backed⟩
  | resolve settled => exact ⟨backed.2, settles settled backed.1⟩

theorem Rewinds.backed {d : Db} {service : ChargeService} {ctl ctl' : Ctl}
    (rewinds : Rewinds ctl ctl') (backed : ctl.Backed d service) : ctl'.Backed d service := by
  cases rewinds with
  | resolving => exact backed.2
  | _ => trivial

/-- The provider adds records and true replies. -/
theorem Happens.backed {d : Db} {env env' : Env} (happens : Happens sha256 env env')
    (faithful : Faithful (Asked d) env.service)
    (network : ∀ request ∈ env.network, ∀ {key body}, request.payload = .charge key body →
      Asked d key body)
    (responses : ∀ response ∈ env.responses, response.Holds env.service) :
    Faithful (Asked d) env'.service ∧ Extends env.service env'.service ∧
      env'.network ⊆ env.network ∧ ∀ response ∈ env'.responses, response.Holds env'.service := by
  cases happens with
  | tick => exact ⟨faithful, Extends.refl, List.Subset.refl _, responses⟩
  | @deliver request stamp member =>
    obtain ⟨kept, extended, replies⟩ :=
      Provider.deliver_spec sha256 request stamp faithful (network request member)
    refine ⟨kept, extended, List.erase_subset, fun response there => ?_⟩
    rcases List.mem_append.mp there with old | new
    · exact (responses response old).mono extended
    · exact (replies response new).2
  | @fire key stamp service replies fired =>
    obtain ⟨kept, extended, answered⟩ := Provider.fire_spec faithful fired
    refine ⟨kept, extended, List.Subset.refl _, fun response there => ?_⟩
    rcases List.mem_append.mp there with old | new
    · exact (responses response old).mono extended
    · exact (answered response new).2
  | drop => exact ⟨faithful, Extends.refl, List.erase_subset, responses⟩

theorem Backed.step (inv : Backed a) (owned : Owned a) (does : Does sha256 a b) :
    Backed b := by
  cases does with
  | @commit p after ctl commits =>
    have alone := owned.alone p
    obtain ⟨evolves, -, -⟩ := commits.owned alone
    obtain ⟨backed, payments, orders⟩ := commits.backed alone (inv.ctl p) inv.payments inv.orders
    exact ⟨inv.faithful.mono fun asked => asked.evolves evolves,
      fun request member {key body} payload =>
        (inv.network request member payload).evolves evolves,
      inv.responses, payments, orders,
      Committed.forall_goto backed fun q _ => (inv.ctl q).grow evolves Extends.refl⟩
  | @rewind p ctl rewinds =>
    exact ⟨inv.faithful, inv.network, inv.responses, inv.payments, inv.orders,
      Committed.forall_goto (rewinds.backed (inv.ctl p)) fun q _ => inv.ctl q⟩
  | @move p env ctl moves =>
    obtain ⟨backed, service, responses, sent⟩ :=
      moves.backed (inv.ctl p) inv.payments inv.responses
    refine ⟨service ▸ inv.faithful, fun request member => ?_, ?_, inv.payments,
      service ▸ inv.orders, service ▸ Committed.forall_goto backed fun q _ => inv.ctl q⟩
    · rcases sent request member with old | new
      · exact inv.network request old
      · exact new
    · simp only [service, responses]
      exact inv.responses
  | happen happens =>
    obtain ⟨faithful, grown, network, responses⟩ :=
      happens.backed inv.faithful inv.network inv.responses
    exact ⟨faithful, fun request member => inv.network request (network member), responses,
      inv.payments, fun found => ⟨fun sold => grown.stored ((inv.orders found).1 sold),
        fun failed => grown.stored ((inv.orders found).2 failed)⟩,
      fun q => (inv.ctl q).grow (Evolves.refl : Evolves [] a.data a.data) grown⟩

omit [DecidableEq P] in
theorem backed_initial {stock : Stock} {clock : Timestamptz} :
    Backed (initial P stock clock).committed where
  faithful := ⟨nofun, nofun, nofun, nofun⟩
  network := nofun
  responses := nofun
  payments := nofun
  orders := nofun
  ctl _ := trivial

section Runs
variable {Meets : World P → World P → Prop} {stock : Stock} {clock : Timestamptz}
  {s : Processes P}

theorem Runs.backed (run : Runs catalogue sha256 Meets stock clock s) : Backed s.committed :=
  run.invariant backed_initial fun before backed does _ => backed.step before.owned does

/-- In every reachable state a confirmed order is paid: the provider has stored
an approved charge of its total under its own key. A failed one was declined. -/
theorem settled_orders_charged (run : Reachable catalogue sha256 stock clock s) {o : Uuid}
    {row : OrderRow} (stored : s.data.orders.lookup o = some row) :
    (row.status = .CONFIRMED → ∃ record,
      s.env.service.records.lookup (buildChargeIdempotencyKey o FIRST_PAYMENT_ATTEMPT) =
        some record ∧ record.status = .approved ∧ record.amountCents = row.totalCents) ∧
    (row.status = .PAYMENT_FAILED → ∃ record,
      s.env.service.records.lookup (buildChargeIdempotencyKey o FIRST_PAYMENT_ATTEMPT) =
        some record ∧ record.status = .declined) := by
  have backed := run.backed
  constructor
  · intro confirmed
    obtain ⟨record, found, approved⟩ := (backed.orders stored).1 confirmed
    obtain ⟨body, ⟨o', row', key, stored', amount, -⟩, charged, -⟩ := backed.faithful.recorded found
    cases chargeKey_inj key
    cases stored.symm.trans stored'
    exact ⟨record, found, approved, charged.trans amount⟩
  · intro failed
    obtain ⟨record, found, declined⟩ := (backed.orders stored).2 failed
    exact ⟨record, found, declined⟩

theorem settled_orders_charged_lamp : ∃ record,
    lampSold.env.service.records.lookup (buildChargeIdempotencyKey "order" FIRST_PAYMENT_ATTEMPT) =
      some record ∧ record.status = .approved ∧ record.amountCents = lampSoldRow.totalCents :=
  (settled_orders_charged lampSold_reachable lampSold_stored).1 (by decide +kernel)

end Runs

end Worlds

end Canals
