import Canals.Locking.Session
import Canals.Orders.CreateOrder
import Canals.Payments.Gateway

/-! Any number of processes, each running sagas (`CreateOrderUseCase.execute`),
reaper runs and reconciliation runs one after the other, over one database and
one provider. Between two transactions of a process anything may happen. -/
namespace Canals
open Locking
open Provider (ChargeService Request Response Stamp)

def REAPER_BATCH_SIZE : Nat := 50
def RECONCILIATION_BATCH_SIZE : Nat := 50
def RECONCILIATION_GRACE_MINUTES : Int := 2

/-- A selected order with its latest payment and that payment's key, if any. -/
structure ExpiredReservationRow where
  id : Uuid
  payment : Option (Uuid × String)

structure UnsettledPaymentRow where
  id : Uuid
  orderId : Uuid
  idempotencyKey : String

namespace Db

/-- `LEFT JOIN LATERAL (… ORDER BY attempt DESC LIMIT 1)`. -/
def latestPayment (d : Db) (orderId : Uuid) : Option (Uuid × String) :=
  ((d.payments.entries.filter (·.2.orderId = orderId)).argmax (·.2.attempt)).map fun entry =>
    (entry.1, entry.2.idempotencyKey)

/-- Of rows that expire together the first of the table come first; `ORDER BY` leaves it open. -/
def selectExpiredReservations (d : Db) (locked : Lock → Bool) (now : Timestamptz) :
    List ExpiredReservationRow :=
  let rows := d.orders.entries.filter fun entry =>
    entry.2.status = .PENDING_PAYMENT &&
      (entry.2.reservationExpiresAt.any fun expiresAt => expiresAt.us < now.us) &&
      !locked (.order entry.1)
  let expiry (row : OrderRow) : Int := (row.reservationExpiresAt.map (·.us)).getD 0
  ((rows.insertionSort fun a b => expiry a.2 ≤ expiry b.2).take REAPER_BATCH_SIZE).map
    fun entry => ⟨entry.1, d.latestPayment entry.1⟩

/-- Ties are broken as above. -/
def selectUnsettledPayments (d : Db) (locked : Lock → Bool) (now : Timestamptz) :
    List UnsettledPaymentRow :=
  let rows := d.payments.entries.filter fun entry =>
    entry.2.settledAt.isNone && entry.2.unsettled &&
      entry.2.createdAt.us < now.us - RECONCILIATION_GRACE_MINUTES * 60000000 &&
      !locked (.payment entry.1)
  ((rows.insertionSort fun a b => a.2.createdAt.us ≤ b.2.createdAt.us).take
    RECONCILIATION_BATCH_SIZE).map fun entry =>
      ⟨entry.1, entry.2.orderId, entry.2.idempotencyKey⟩

end Db

/-- A row one of the two jobs still has to resolve. -/
inductive Task where
  | expired (row : ExpiredReservationRow)
  | unsettled (row : UnsettledPaymentRow)

namespace Task

def orderId : Task → Uuid
  | expired row => row.id
  | unsettled row => row.orderId

def payment : Task → Option (Uuid × String)
  | expired row => row.payment
  | unsettled row => some (row.id, row.idempotencyKey)

/-- `resolveReservation` and `resolvePayment`, once `getStatus` has resolved. -/
def resolve (task : Task) (chargeResult : ChargeResult) : Option SettleCall :=
  let payment := task.payment.map fun payment => ⟨payment.1, chargeResult⟩
  match task, chargeResult.status with
  | _, .CAPTURED => some (.confirmCaptured task.orderId payment)
  | _, .DECLINED => some (.failDeclined task.orderId payment)
  | expired row, .FAILED =>
    some (.cancelUnpaid row.id "RESERVATION_EXPIRED_NOT_CHARGED" payment)
  | _, _ => none

end Task

/-- A saga whose stock is reserved. -/
structure Saga where
  command : CreateOrderCommand
  order : Order

def Saga.chargeCommand (saga : Saga) : ChargeCommand where
  cardNumber := saga.command.cardNumber
  amountMinor := saga.order.total.amountCents
  currency := saga.order.total.currency
  description := s!"Order {saga.order.orderNumber}"
  idempotencyKey := buildChargeIdempotencyKey saga.order.id FIRST_PAYMENT_ATTEMPT

/-- The failover loop at `candidate`, with the candidates left after it. -/
structure Allocation where
  command : CreateOrderCommand
  draft : Draft
  candidate : Uuid
  rest : List Uuid
  unmetProductIds : List Uuid

/-- One of the two `payments` saves; the second has the gateway's result. -/
structure PaymentSave where
  saga : Saga
  payment : PaymentOrmEntity
  chargeResult : Option ChargeResult

structure CreateOrderResult where
  order : Order
  chargeResult : ChargeResult

/-- Where a process stands between two of its steps. -/
inductive Ctl where
  | idle
  | allocating (allocation : Allocation)
  | refused (e : CreateOrderError)
  | reserved (saga : Saga)
  | finding (save : PaymentSave)
  | saving (save : PaymentSave) (stored : Option PaymentOrmEntity)
  | charging (saga : Saga) (pendingPayment : PaymentOrmEntity) (exchange : Exchange)
  | charged (saga : Saga) (pendingPayment : PaymentOrmEntity) (chargeResult : ChargeResult)
  | settling (saga : Saga) (chargeResult : ChargeResult) (call : SettleCall)
  | finished (saga : Saga) (outcome : Except CreateOrderError CreateOrderResult)
  | running (tasks : List Task)
  | asking (task : Task) (exchange : Exchange) (rest : List Task)
  | resolving (call : SettleCall) (rest : List Task)

/-- A `Set` to which ids are added in order. -/
def addAll (ids more : List Uuid) : List Uuid :=
  more.foldl (fun ids id => if id ∈ ids then ids else ids ++ [id]) ids

/-- The saga up to the selection of its candidates. -/
def startAllocation (catalogue : Catalogue) (command : CreateOrderCommand)
    (geocoded : Geocoded) (orderNumber : String) (candidates : List Uuid) (orderId : Uuid) : Ctl :=
  match (do
    let products ← resolveCustomerAndProducts catalogue command
    draftOrder command products geocoded orderNumber orderId) with
  | .error e => .refused e
  | .ok draft =>
    match candidates with
    | [] => .refused (.noFulfilmentPossible (command.lines.map (·.productId)) .NO_CANDIDATES)
    | candidate :: rest => .allocating {
        command
        draft
        candidate
        rest
        unmetProductIds := [] }

/-- The handler around an attempt: only a lack of stock leads to the next one. -/
def Allocation.failed (allocation : Allocation) (e : Thrown) : Ctl :=
  match e with
  | .insufficientStock productIds =>
    let unmetProductIds := addAll allocation.unmetProductIds productIds
    match allocation.rest with
    | candidate :: rest => .allocating { allocation with candidate, rest, unmetProductIds }
    | [] => .refused (.noFulfilmentPossible unmetProductIds .RESERVATION_RACE_LOST)
  | e => .refused (.thrown e)

/-- `settleOrder` up to its transaction, if it needs one. -/
def Saga.settle (saga : Saga) (chargeResult : ChargeResult) : Ctl :=
  match settlementOf saga.order.id chargeResult with
  | some call => .settling saga chargeResult call
  | none => .finished saga
      (.error (.paymentProviderUnavailable saga.order.id chargeResult.failureCode))

/-- `settleOrder` behind its transaction: the outcome is not looked at. -/
def Saga.settled (saga : Saga) (chargeResult : ChargeResult) (result : SettlementResult) : Ctl :=
  if chargeResult.status = .CAPTURED then .finished saga (.ok ⟨result.order, chargeResult⟩)
  else .finished saga (.error (.paymentDeclined saga.order.id chargeResult.failureCode))

/-- `chargeOrder` behind one of its saves. -/
def PaymentSave.saved (save : PaymentSave) : Ctl :=
  match save.chargeResult with
  | none => .charging save.saga save.payment { payload := chargePayload save.saga.chargeCommand }
  | some chargeResult => save.saga.settle chargeResult

namespace Ctl

/-- The transaction a control point stands before. -/
def body : Ctl → Option (Tx Ctl)
  | allocating allocation => some do
    let order ← attemptCandidate allocation.draft allocation.candidate
    return .reserved ⟨allocation.command, order⟩
  | saving save stored => some do
    savePayment stored save.payment
    return save.saved
  | settling saga chargeResult call => some do
    let result ← call.run
    return saga.settled chargeResult result
  | resolving call rest => some do
    let _ ← call.run
    return .running rest
  | _ => none

/-- The exceptions of a job are logged, one row at a time. -/
def failed : Ctl → Thrown → Ctl
  | allocating allocation, e => allocation.failed e
  | saving save _, e => .finished save.saga (.error (.thrown e))
  | settling saga _ _, e => .finished saga (.error (.thrown e))
  | resolving _ rest, _ => .running rest
  | ctl, _ => ctl

def exchange : Ctl → Option Exchange
  | charging _ _ exchange | asking _ exchange _ => some exchange
  | _ => none

/-- Control after an attempt of the exchange under way. -/
def resume : Ctl → Attempted → Ctl
  | charging saga pendingPayment _, .again exchange => .charging saga pendingPayment exchange
  | charging saga pendingPayment _, .done outcome =>
    .charged saga pendingPayment (chargeResultOf saga.command.cardNumber outcome)
  | asking task _ rest, .again exchange => .asking task exchange rest
  | asking task _ rest, .done outcome =>
    match task.resolve (statusResultOf outcome) with
    | some call => .resolving call rest
    | none => .running rest
  | ctl, _ => ctl

/-- The head of a job's loop. -/
def next (task : Task) (rest : List Task) : Ctl :=
  match task.payment with
  | none => .resolving (.cancelUnpaid task.orderId "RESERVATION_EXPIRED_NO_PAYMENT" none) rest
  | some (_, idempotencyKey) => .asking task { payload := .getStatus idempotencyKey } rest

end Ctl

/-- What the processes share beside the database: the database's clock and the
movements' identity sequence, the ids drawn so far, and the provider with the
requests on their way to it and its responses. -/
structure Env where
  clock : Timestamptz
  lastMovementId : Nat := 0
  ids : List Uuid := []
  requests : Nat := 0
  network : List Request := []
  service : ChargeService := {}
  responses : List Response := []

inductive Move where
  | createOrder (command : CreateOrderCommand) (geocoded : Geocoded) (orderNumber : String)
      (candidates : List Uuid) (orderId : Uuid)
  | startPayment (paymentId : Uuid) (createdAt updatedAt : Date)
  | findPayment
  | failToFind (e : DbError)
  | send
  | receive (position : Nat) (garbled : Bool)
  | abandon (e : AttemptError)
  | recordOutcome (settledAt updatedAt : Date)
  | reap
  | reconcile
  | next

inductive Event where
  | tick (clock : Timestamptz)
  | deliver (request : Request) (stamp : Stamp)
  | fire (idempotencyKey : String) (stamp : Stamp)
  | drop (request : Request)

def PaymentRow.hydrate (row : PaymentRow) (id : Uuid) : PaymentOrmEntity :=
  { row.map (·.toDate) with id }

namespace Env

/-- `randomUUID`, which never draws an id twice. -/
def draw (env : Env) (id : Uuid) : Option Env :=
  if id ∈ env.ids then none else some { env with ids := id :: env.ids }

def send (env : Env) (exchange : Exchange) : Env × Exchange :=
  let request : Request := ⟨env.requests, exchange.payload⟩
  ({ env with requests := env.requests + 1, network := env.network ++ [request] },
    { exchange with request := some request })

end Env

/-- A step outside any transaction; a `SELECT` reads what is committed. -/
def Ctl.move (catalogue : Catalogue) (d : Db) (locked : Lock → Bool) (env : Env) :
    Ctl → Move → Option (Env × Ctl)
  | .idle, .createOrder command geocoded orderNumber candidates orderId =>
    (env.draw orderId).map fun env =>
      (env, startAllocation catalogue command geocoded orderNumber candidates orderId)
  | .reserved saga, .startPayment paymentId createdAt updatedAt =>
    (env.draw paymentId).map fun env =>
      (env, .finding ⟨saga, initialPayment saga.order paymentId createdAt updatedAt, none⟩)
  | .finding save, .findPayment =>
    some (env, .saving save
      ((d.payments.lookup save.payment.id).map (PaymentRow.hydrate · save.payment.id)))
  | .finding save, .failToFind e =>
    some (env, .finished save.saga (.error (.thrown (.database e))))
  | ctl, .send =>
    match ctl.exchange with
    | some exchange =>
      if exchange.request.isNone then
        some ((env.send exchange).1, ctl.resume (.again (env.send exchange).2))
      else none
    | none => none
  | ctl, .receive position garbled =>
    match ctl.exchange, env.responses[position]? with
    | some exchange, some response =>
      if exchange.request = some response.request then
        some (env, ctl.resume (exchange.attempted (toProviderResponse response garbled)))
      else none
    | _, _ => none
  -- the breaker rejects before anything is sent; the rest may strike after it
  | ctl, .abandon e =>
    match ctl.exchange with
    | some exchange =>
      if e = .circuitOpen ↔ exchange.request.isNone then
        some (env, ctl.resume (exchange.attempted (.error e)))
      else none
    | none => none
  | .charged saga pendingPayment chargeResult, .recordOutcome settledAt updatedAt =>
    some (env, .finding
      ⟨saga, chargedPayment pendingPayment chargeResult settledAt updatedAt, some chargeResult⟩)
  | .idle, .reap =>
    some (env, .running ((d.selectExpiredReservations locked env.clock).map .expired))
  | .idle, .reconcile =>
    some (env, .running ((d.selectUnsettledPayments locked env.clock).map .unsettled))
  | .running [], .next => some (env, .idle)
  | .running (task :: rest), .next => some (env, Ctl.next task rest)
  | .refused _, .next => some (env, .idle)
  | .finished _ _, .next => some (env, .idle)
  | _, _ => none

def Env.event (sha256 : String → String) (env : Env) : Event → Option Env
  | .tick clock => some { env with clock }
  | .deliver request stamp =>
    if request ∈ env.network then
      let (service, replies) := Provider.deliver sha256 env.service request stamp
      some { env with
        network := env.network.erase request
        service
        responses := env.responses ++ replies }
    else none
  | .fire key stamp =>
    (Provider.fire sha256 env.service key stamp).map fun (service, replies) =>
      { env with service, responses := env.responses ++ replies }
  | .drop request => some { env with network := env.network.erase request }

/-- The processes, with what they find in the catalogue and the provider's hash. -/
def system (catalogue : Catalogue) (sha256 : String → String) :
    Client Sql Sql.Result DbError Thrown Db Lock Input Env Ctl Move Event where
  body := Ctl.body
  failed := Ctl.failed
  crashed _ := .idle
  draw env := (⟨env.clock, env.lastMovementId + 1⟩,
    { env with lastMovementId := env.lastMovementId + 1 })
  move := Ctl.move catalogue
  event := Env.event sha256

end Canals
