import Canals.Orders.CreateOrderSpec
import Canals.Orders.SettlementSpec
import Canals.System.Machine

/-! What one step of the system can do once transactions are indivisible, by
the kind of step: `Commits`, `Rewinds`, `Moves` and `Happens`. Every invariant
of the system is proved from these and never unfolds the machine. -/
namespace Canals
open Locking Program
open Provider (ChargeService Request Response Stamp)

abbrev World (P : Type) := Committed Db Env Ctl P

/-- A payments save that completed. -/
inductive Saves (payment : PaymentOrmEntity) (d : Db) : Option PaymentOrmEntity → Db → Prop where
  | inserted : d.payments.lookup payment.id = none → Saves payment d none { d with
      payments := d.payments.insert payment.id
        (payment.toPaymentColumns.map (·.toTimestamptz)) }
  | updated {stored row} : d.payments.lookup payment.id = some row →
      Saves payment d (some stored)
        { d with payments := d.payments.insert payment.id (row.update stored payment) }
  | missed {stored} : d.payments.lookup payment.id = none → Saves payment d (some stored) d

inductive Commits (d : Db) : Ctl → Db → Ctl → Prop where
  | reserve {allocation after order} :
      (attemptCandidate allocation.draft allocation.candidate).Completes store d after order →
      Commits d (.allocating allocation) after (.reserved ⟨allocation.command, order⟩)
  | insert {save stored after} : save.chargeResult = none →
      Saves save.payment d stored after → Commits d (.saving save stored) after
        (.charging save.saga save.payment { payload := chargePayload save.saga.chargeCommand })
  | record {save stored after chargeResult call} : save.chargeResult = some chargeResult →
      settlementOf save.saga.order.id chargeResult = some call →
      Saves save.payment d stored after →
      Commits d (.saving save stored) after (.settling save.saga chargeResult call)
  | leave {save stored after chargeResult} : save.chargeResult = some chargeResult →
      settlementOf save.saga.order.id chargeResult = none →
      Saves save.payment d stored after → Commits d (.saving save stored) after
        (.finished save.saga (.error
          (.paymentProviderUnavailable save.saga.order.id chargeResult.failureCode)))
  | confirm {saga chargeResult call after result} : chargeResult.status = .CAPTURED →
      Settled call d after result → Commits d (.settling saga chargeResult call) after
        (.finished saga (.ok ⟨result.order, chargeResult⟩))
  | decline {saga chargeResult call after result} : chargeResult.status ≠ .CAPTURED →
      Settled call d after result → Commits d (.settling saga chargeResult call) after
        (.finished saga (.error (.paymentDeclined saga.order.id chargeResult.failureCode)))
  | resolve {call rest after result} : Settled call d after result →
      Commits d (.resolving call rest) after (.running rest)

/-- Control after a rollback or a crash. -/
inductive Rewinds : Ctl → Ctl → Prop where
  | crash {ctl} : Rewinds ctl .idle
  | retry {allocation : Allocation} {candidate rest unmetProductIds} :
      Rewinds (.allocating allocation)
        (.allocating { allocation with candidate, rest, unmetProductIds })
  | refuse {allocation e} : Rewinds (.allocating allocation) (.refused e)
  | saving {save stored e} :
      Rewinds (.saving save stored) (.finished save.saga (.error (.thrown e)))
  | settling {saga chargeResult call e} :
      Rewinds (.settling saga chargeResult call) (.finished saga (.error (.thrown e)))
  | resolving {call rest} : Rewinds (.resolving call rest) (.running rest)

/-- What the row of a task was when it was selected. -/
def Task.Selected (d : Db) : Task → Prop
  | .expired row => ∃ order, d.orders.lookup row.id = some order ∧
      order.status = .PENDING_PAYMENT ∧ row.payment = d.latestPayment row.id
  | .unsettled row => ∃ payment, d.payments.lookup row.id = some payment ∧
      payment.orderId = row.orderId ∧ payment.idempotencyKey = row.idempotencyKey

/-- How an attempt can end. -/
inductive Answers (env : Env) (exchange : Exchange) : Except AttemptError ProviderResponse → Prop
  | failed {e} : Answers env exchange (.error e)
  | answered {response garbled} : response ∈ env.responses →
      exchange.request = some response.request →
      Answers env exchange (toProviderResponse response garbled)

inductive Moves (d : Db) (env : Env) : Ctl → Env → Ctl → Prop where
  | start {orderId allocation} : orderId ∉ env.ids → allocation.draft.orderId = orderId →
      Moves d env .idle { env with ids := orderId :: env.ids } (.allocating allocation)
  | refuse {orderId e} : orderId ∉ env.ids →
      Moves d env .idle { env with ids := orderId :: env.ids } (.refused e)
  | pay {saga paymentId createdAt updatedAt} : paymentId ∉ env.ids →
      Moves d env (.reserved saga) { env with ids := paymentId :: env.ids }
        (.finding ⟨saga, initialPayment saga.order paymentId createdAt updatedAt, none⟩)
  | find {save} : Moves d env (.finding save) env (.saving save
      ((d.payments.lookup save.payment.id).map (PaymentRow.hydrate · save.payment.id)))
  | miss {save e} : Moves d env (.finding save) env
      (.finished save.saga (.error (.thrown (.database e))))
  | sendCharge {saga pendingPayment exchange} : exchange.request = none →
      Moves d env (.charging saga pendingPayment exchange) (env.send exchange).1
        (.charging saga pendingPayment (env.send exchange).2)
  | sendQuery {task exchange rest} : exchange.request = none →
      Moves d env (.asking task exchange rest) (env.send exchange).1
        (.asking task (env.send exchange).2 rest)
  | retryCharge {saga pendingPayment} {exchange next : Exchange} :
      next.payload = exchange.payload → next.request = none →
      Moves d env (.charging saga pendingPayment exchange) env
        (.charging saga pendingPayment next)
  | retryQuery {task rest} {exchange next : Exchange} :
      next.payload = exchange.payload → next.request = none →
      Moves d env (.asking task exchange rest) env (.asking task next rest)
  | charge {saga pendingPayment exchange outcome} : Answers env exchange outcome →
      Moves d env (.charging saga pendingPayment exchange) env
        (.charged saga pendingPayment (chargeResultOf saga.command.cardNumber outcome))
  | decide {task exchange rest outcome call} : Answers env exchange outcome →
      task.resolve (statusResultOf outcome) = some call →
      Moves d env (.asking task exchange rest) env (.resolving call rest)
  | skip {task exchange rest} : Moves d env (.asking task exchange rest) env (.running rest)
  | record {saga pendingPayment chargeResult settledAt updatedAt} :
      Moves d env (.charged saga pendingPayment chargeResult) env (.finding
        ⟨saga, chargedPayment pendingPayment chargeResult settledAt updatedAt, some chargeResult⟩)
  | select {tasks} : (∀ task ∈ tasks, Task.Selected d task) → Moves d env .idle env (.running tasks)
  | cancel {orderId rest} : Moves d env (.running (.expired ⟨orderId, none⟩ :: rest)) env
      (.resolving (.cancelUnpaid orderId "RESERVATION_EXPIRED_NO_PAYMENT" none) rest)
  | ask {task rest paymentId idempotencyKey} : task.payment = some (paymentId, idempotencyKey) →
      Moves d env (.running (task :: rest)) env
        (.asking task { payload := .getStatus idempotencyKey } rest)
  | idle {ctl} : Moves d env ctl env .idle

/-- What the clock, the provider and the network do. -/
inductive Happens (sha256 : String → String) (env : Env) : Env → Prop where
  | tick {clock lastMovementId} : Happens sha256 env { env with clock, lastMovementId }
  | deliver {request stamp} : request ∈ env.network → Happens sha256 env { env with
      network := env.network.erase request
      service := (Provider.deliver sha256 env.service request stamp).1
      responses := env.responses ++ (Provider.deliver sha256 env.service request stamp).2 }
  | fire {key stamp service replies} :
      Provider.fire sha256 env.service key stamp = some (service, replies) →
      Happens sha256 env { env with service, responses := env.responses ++ replies }
  | drop {request} : Happens sha256 env { env with network := env.network.erase request }

variable {P : Type} [DecidableEq P]

/-- One indivisible step of the system. -/
inductive Does (sha256 : String → String) (a : World P) : World P → Prop where
  | commit {p after ctl} : Commits a.data (a.ctl p) after ctl →
      Does sha256 a { a.goto p ctl with data := after }
  | rewind {p ctl} : Rewinds (a.ctl p) ctl → Does sha256 a (a.goto p ctl)
  | move {p env ctl} : Moves a.data a.env (a.ctl p) env ctl →
      Does sha256 a { a.goto p ctl with env }
  | happen {env} : Happens sha256 a.env env → Does sha256 a { a with env }

section Inversion
variable {catalogue : Catalogue} {sha256 : String → String} {d after : Db} {env env' : Env}
  {ctl ctl' : Ctl}

theorem savePayment_spec {stored : Option PaymentOrmEntity} {payment : PaymentOrmEntity}
    (ran : (savePayment stored payment).Completes store d after ()) :
    Saves payment d stored after := by
  cases stored with
  | none =>
    obtain ⟨i, ws, -, answered, rfl⟩ := completes_query.mp ran
    simp only [Sql.exec] at answered
    split at answered <;> cases answered
    exact .inserted ‹_›
  | some stored =>
    obtain ⟨i, ws, -, answered, rfl⟩ := completes_query.mp ran
    simp only [Sql.exec] at answered
    split at answered <;> cases answered
    · exact .updated ‹_›
    · exact .missed ‹_›

theorem commits_save {save : PaymentSave} {stored : Option PaymentOrmEntity}
    (saves : Saves save.payment d stored after) :
    Commits d (.saving save stored) after save.saved := by
  unfold PaymentSave.saved
  split
  · exact .insert ‹_› saves
  · unfold Saga.settle
    split
    · exact .record ‹_› ‹_› saves
    · exact .leave ‹_› ‹_› saves

theorem commits_settle {saga : Saga} {chargeResult : ChargeResult} {call : SettleCall}
    {result : SettlementResult} (settled : Settled call d after result) :
    Commits d (.settling saga chargeResult call) after (saga.settled chargeResult result) := by
  unfold Saga.settled
  split
  · exact .confirm ‹_› settled
  · exact .decline ‹_› settled

theorem commits_of_body {body : Tx Ctl} (here : ctl.body = some body)
    (ran : body.Completes store d after ctl') : Commits d ctl after ctl' := by
  cases ctl <;> cases here <;> obtain ⟨_, _, done, rfl, rfl⟩ := completes_bind.mp ran
  case allocating => exact .reserve done
  case saving => exact commits_save (savePayment_spec done)
  case settling => exact commits_settle (settled_of_completes done)
  case resolving => exact .resolve (settled_of_completes done)

theorem rewinds_allocation (allocation : Allocation) (e : Thrown) :
    Rewinds (.allocating allocation) (allocation.failed e) := by
  unfold Allocation.failed
  split
  · dsimp only
    split
    · exact .retry
    · exact .refuse
  · exact .refuse

theorem rewinds_of_body {body : Tx Ctl} (here : ctl.body = some body) (e : Thrown) :
    Rewinds ctl (ctl.failed e) := by
  cases ctl <;> cases here
  case allocating allocation => exact rewinds_allocation allocation e
  case saving => exact .saving
  case settling => exact .settling
  case resolving => exact .resolving

theorem latestPayment_some {o : Uuid} {payment : Uuid × String}
    (found : d.latestPayment o = some payment) : ∃ row, d.payments.lookup payment.1 = some row ∧
      row.orderId = o ∧ row.idempotencyKey = payment.2 := by
  obtain ⟨entry, latest, rfl⟩ := Option.map_eq_some_iff.mp found
  have member := List.mem_filter.mp (List.argmax_mem latest)
  exact ⟨entry.2, AList.mem_lookup_iff.mpr member.1, by simpa using member.2, rfl⟩

theorem latestPayment_none {o : Uuid} (absent : d.latestPayment o = none) {id : Uuid}
    {row : PaymentRow} (found : d.payments.lookup id = some row) : row.orderId ≠ o := by
  intro mine
  have none_of := List.argmax_eq_none.mp (Option.map_eq_none_iff.mp absent)
  have member : (⟨id, row⟩ : Sigma fun _ : Uuid => PaymentRow) ∈ d.payments.entries :=
    AList.mem_lookup_iff.mp found
  exact List.filter_eq_nil_iff.mp none_of _ member (by simpa using mine)

theorem selectExpiredReservations_selected {locked : Lock → Bool} {now : Timestamptz}
    {row : ExpiredReservationRow} (chosen : row ∈ d.selectExpiredReservations locked now) :
    (Task.expired row).Selected d := by
  obtain ⟨entry, taken, rfl⟩ := List.mem_map.mp chosen
  have sorted := (List.perm_insertionSort _ _).mem_iff.mp (List.mem_of_mem_take taken)
  obtain ⟨member, wanted⟩ := List.mem_filter.mp sorted
  simp only [Bool.and_eq_true, decide_eq_true_eq] at wanted
  exact ⟨entry.2, AList.mem_lookup_iff.mpr member, wanted.1.1, rfl⟩

theorem selectUnsettledPayments_selected {locked : Lock → Bool} {now : Timestamptz}
    {row : UnsettledPaymentRow} (chosen : row ∈ d.selectUnsettledPayments locked now) :
    (Task.unsettled row).Selected d := by
  obtain ⟨entry, taken, rfl⟩ := List.mem_map.mp chosen
  have sorted := (List.perm_insertionSort _ _).mem_iff.mp (List.mem_of_mem_take taken)
  obtain ⟨member, -⟩ := List.mem_filter.mp sorted
  exact ⟨entry.2, AList.mem_lookup_iff.mpr member, rfl, rfl⟩

theorem draw_eq {id : Uuid} (drawn : env.draw id = some env') :
    id ∉ env.ids ∧ env' = { env with ids := id :: env.ids } := by
  simp only [Env.draw] at drawn
  split at drawn <;> cases drawn
  exact ⟨‹_›, rfl⟩

theorem draftOrder_orderId {command : CreateOrderCommand} {products : List Product}
    {geocoded : Geocoded} {orderNumber : String} {orderId : Uuid} {draft : Draft}
    (made : draftOrder command products geocoded orderNumber orderId = .ok draft) :
    draft.orderId = orderId := by
  simp only [draftOrder, Bind.bind, Except.bind] at made
  split at made <;> try contradiction
  split at made <;> try contradiction
  split at made <;> try contradiction
  cases made
  rfl

theorem moves_start {orderId : Uuid} (fresh : orderId ∉ env.ids) (command : CreateOrderCommand)
    (geocoded : Geocoded) (orderNumber : String) (candidates : List Uuid) :
    Moves d env .idle { env with ids := orderId :: env.ids }
      (startAllocation catalogue command geocoded orderNumber candidates orderId) := by
  unfold startAllocation
  split
  · exact .refuse fresh
  · rename_i draft made
    simp only [Bind.bind, Except.bind] at made
    split at made <;> try contradiction
    cases draftOrder_orderId made
    split
    · exact .refuse fresh
    · exact .start fresh rfl

theorem moves_send {exchange : Exchange} (under : ctl.exchange = some exchange)
    (unsent : exchange.request = none) :
    Moves d env ctl (env.send exchange).1 (ctl.resume (.again (env.send exchange).2)) := by
  cases ctl <;> cases under
  case charging => exact .sendCharge unsent
  case asking => exact .sendQuery unsent

theorem moves_attempt {exchange : Exchange} {outcome : Except AttemptError ProviderResponse}
    (under : ctl.exchange = some exchange) (answers : Answers env exchange outcome) :
    Moves d env ctl env (ctl.resume (exchange.attempted outcome)) := by
  have again : (∃ next : Exchange, exchange.attempted outcome = .again next ∧
      next.payload = exchange.payload ∧ next.request = none) ∨
      exchange.attempted outcome = .done outcome := by
    unfold Exchange.attempted
    split
    · exact .inr rfl
    · split
      · exact .inr rfl
      · exact .inl ⟨_, rfl, rfl, rfl⟩
  obtain ⟨next, same, payload, unsent⟩ | same := again <;> rw [same] <;> cases ctl <;> cases under
  · exact .retryCharge payload unsent
  · exact .retryQuery payload unsent
  · exact .charge answers
  · simp only [Ctl.resume]
    split
    · exact .decide answers ‹_›
    · exact .skip

theorem moves_next (task : Task) (rest : List Task) :
    Moves d env (.running (task :: rest)) env (Ctl.next task rest) := by
  unfold Ctl.next
  split
  · rename_i unpaid
    cases task with
    | expired row =>
      obtain ⟨orderId, payment⟩ := row
      cases show payment = none from unpaid
      exact .cancel
    | unsettled row => cases unpaid
  · exact .ask ‹_›

theorem moves_of_move {locked : Lock → Bool} {m : Move}
    (moved : ctl.move catalogue d locked env m = some (env', ctl')) :
    Moves d env ctl env' ctl' := by
  unfold Ctl.move at moved
  split at moved
  case h_1 =>
    obtain ⟨drawn, made, same⟩ := Option.map_eq_some_iff.mp moved
    cases same
    obtain ⟨fresh, rfl⟩ := draw_eq made
    exact moves_start fresh ..
  case h_2 =>
    obtain ⟨drawn, made, same⟩ := Option.map_eq_some_iff.mp moved
    cases same
    obtain ⟨fresh, rfl⟩ := draw_eq made
    exact .pay fresh
  case h_3 => cases moved; exact .find
  case h_4 => cases moved; exact .miss
  case h_5 =>
    split at moved <;> try contradiction
    split at moved <;> try contradiction
    cases moved
    exact moves_send ‹_› (by simpa using ‹Option.isNone _ = true›)
  case h_6 =>
    split at moved <;> try contradiction
    rename_i exchange response under found
    split at moved <;> try contradiction
    cases moved
    exact moves_attempt under (.answered (List.mem_of_getElem? found) ‹_›)
  case h_7 =>
    split at moved <;> try contradiction
    split at moved <;> try contradiction
    cases moved
    exact moves_attempt ‹_› .failed
  case h_8 => cases moved; exact .record
  case h_9 =>
    cases moved
    refine .select fun task chosen => ?_
    obtain ⟨row, member, rfl⟩ := List.mem_map.mp chosen
    exact selectExpiredReservations_selected member
  case h_10 =>
    cases moved
    refine .select fun task chosen => ?_
    obtain ⟨row, member, rfl⟩ := List.mem_map.mp chosen
    exact selectUnsettledPayments_selected member
  case h_12 => cases moved; exact moves_next _ _
  case h_15 => cases moved
  all_goals cases moved; exact .idle

theorem happens_of_event {e : Event} (happened : env.event sha256 e = some env') :
    Happens sha256 env env' := by
  cases e with
  | tick clock =>
    cases happened
    exact .tick
  | deliver request stamp =>
    simp only [Env.event] at happened
    split at happened <;> cases happened
    exact .deliver ‹_›
  | fire key stamp =>
    obtain ⟨⟨service, replies⟩, fired, same⟩ := Option.map_eq_some_iff.mp happened
    cases same
    exact .fire fired
  | drop request =>
    cases happened
    exact .drop

/-- Every step of the system is one of the four kinds. -/
theorem does_of_step {a b : World P} (step : Committed.Step store (system catalogue sha256) a b) :
    Does sha256 a b := by
  cases step with
  | commit body ran => exact .commit (commits_of_body body ran)
  | fail body raised => exact .rewind (rewinds_of_body body _)
  | crash => exact .rewind .crash
  | move moved => exact .move (moves_of_move moved)
  | draw => exact .happen .tick
  | event happened => exact .happen (happens_of_event happened)

end Inversion

end Canals
