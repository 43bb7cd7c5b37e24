import Canals.Idempotency.BodyRun
import Canals.Idempotency.Origin
import Canals.System.OrderIds
import Canals.System.Told

/-! `POST /orders` as a whole: the calls with their idempotency rows, and the saga of
each over the shop's database, beside the jobs of the worker. -/
namespace Canals
open Locking
open Idempotency (CreateOrderIdempotentParams Platform Service UntypedCommand textOf)
open Provider (Stored)

section Commands

/-- A nested text that may be left out or `null`. -/
def optionalText : Option Json → Option Optional
  | none => some none
  | some .null => some (some none)
  | some (.str s) => some (some (some s))
  | some _ => none

def shippingAddressOf : Option Json → Option ShippingAddressProps
  | some (.obj address) => do
    return {
      recipient := ← textOf (address.lookup "recipient")
      line1 := ← textOf (address.lookup "line1")
      line2 := ← optionalText (address.lookup "line2")
      city := ← textOf (address.lookup "city")
      state := ← optionalText (address.lookup "state")
      postalCode := ← optionalText (address.lookup "postalCode")
      country := ← textOf (address.lookup "country") }
  | _ => none

def orderLineOf : Json → Option OrderLine
  | .obj line =>
    match line.lookup "productId", line.lookup "quantity" with
    | some (.str productId), some (.num quantity) =>
      if quantity.den = 1 then some { productId, quantity := quantity.num } else none
    | _, _ => none
  | _ => none

def orderLinesOf : Option Json → Option (List OrderLine)
  | some (.arr items) => items.mapM orderLineOf
  | _ => none

/-- The values are those of the body, each of its declared type. A card that is no text is
passed on: the gateway throws at it. -/
structure Idempotency.UntypedCommand.Carries (command : UntypedCommand)
    (typed : CreateOrderCommand) : Prop where
  customerId : textOf command.customerId = some typed.customerId
  shippingAddress : shippingAddressOf command.shippingAddress = some typed.shippingAddress
  lines : orderLinesOf command.lines = some typed.lines
  cardNumber : ∀ cardNumber, textOf command.cardNumber = some cardNumber →
    typed.cardNumber = cardNumber

end Commands

/-- The calls with their table; the processes, `inl` for the saga of a call and `inr` for
a job of the worker; and the order id each saga has drawn. -/
structure Storefront (P W : Type) where
  service : Service P
  processes : Processes (P ⊕ W)
  drawn : P → Option Uuid := fun _ => none

/-- What a process does by itself: the saga of a call is begun and ended by the call, and
no job creates an order. -/
def byItself {P W : Type} : Locking.Action DbError Move Event (P ⊕ W) → Bool
  | .move (.inl _) (.createOrder _ _ _ _ _) | .move (.inl _) .reap
  | .move (.inl _) .reconcile | .move (.inl _) .next => false
  | .move (.inr _) (.createOrder _ _ _ _ _) => false
  | _ => true

section Settled
variable {P : Type} [DecidableEq P] {catalogue : Catalogue} {sha256 : String → String}
  {stock : Stock} {clock : Timestamptz} {s : Processes P} {o : Uuid} {row : OrderRow}

theorem Provider.Stored.not_declined {service : Provider.ChargeService} {key : String}
    (approved : Stored service key .approved) : ¬ Stored service key .declined := by
  rintro ⟨record, found, declined⟩
  obtain ⟨record', found', approved⟩ := approved
  cases found.symm.trans found'
  cases declined.symm.trans approved

/-- A key has one record, so a settled order ended as its charge did or was cancelled. -/
theorem Runs.paid (run : Reachable catalogue sha256 stock clock s)
    (stored : s.data.orders.lookup o = some row) (closed : row.status ≠ .PENDING_PAYMENT)
    (approved : Stored s.env.service (chargeKey o) .approved) :
    row.status = .CONFIRMED ∨ row.status = .CANCELLED := by
  obtain ⟨w, own⟩ := run.consistent.orders o row stored
  cases status : row.status with
  | PENDING_PAYMENT => exact absurd status closed
  | PAID => exact absurd status own.status
  | PAYMENT_FAILED => exact (approved.not_declined ((run.backed.orders stored).2 status)).elim
  | CONFIRMED => exact .inl rfl
  | CANCELLED => exact .inr rfl

theorem Runs.unpaid (run : Reachable catalogue sha256 stock clock s)
    (stored : s.data.orders.lookup o = some row) (closed : row.status ≠ .PENDING_PAYMENT)
    (declined : Stored s.env.service (chargeKey o) .declined) :
    row.status = .PAYMENT_FAILED ∨ row.status = .CANCELLED := by
  obtain ⟨w, own⟩ := run.consistent.orders o row stored
  cases status : row.status with
  | PENDING_PAYMENT => exact absurd status closed
  | PAID => exact absurd status own.status
  | CONFIRMED =>
    have approved : Stored _ _ _ := (run.backed.orders stored).1 status
    exact (approved.not_declined declined).elim
  | PAYMENT_FAILED => exact .inl rfl
  | CANCELLED => exact .inr rfl

end Settled

namespace Storefront
variable {P W : Type} [DecidableEq P] [DecidableEq W]

def opening (P W : Type) (stock : Stock) (clock : Timestamptz) : Storefront P W where
  service := { clock }
  processes := initial (P ⊕ W) stock clock

/-- `execute` throws plainly, before its order or with its process. -/
def abandoned (s : Storefront P W) (p : P) : Prop :=
  (s.processes.session (.inl p)).ctl = .idle

inductive Step (platform : Platform) (params : P → CreateOrderIdempotentParams)
    (catalogue : Catalogue) (sha256 : String → String) :
    Storefront P W → Storefront P W → Prop where
  | call {s a service} : a.own → s.service.step platform params a = some service →
      Step platform params catalogue sha256 s { s with service }
  | work {s a processes} : byItself a →
      s.processes.step store (system catalogue sha256) a = some processes →
      Step platform params catalogue sha256 s { s with processes }
  | enter {s p id untyped command geocoded orderNumber candidates orderId processes} :
      s.service.ctl p = .running id untyped → s.drawn p = none → untyped.Carries command →
      s.processes.step store (system catalogue sha256) (.move (.inl p)
        (.createOrder command geocoded orderNumber candidates orderId)) = some processes →
      Step platform params catalogue sha256 s
        { s with processes, drawn := Function.update s.drawn p (some orderId) }
  -- the response is built of the saga's result, or building it throws
  | resolve {s p saga} {result : CreateOrderResult} {response : OrderResponseParams}
      {thrown : Option Thrown} {service processes} :
      (s.processes.session (.inl p)).ctl = .finished saga (.ok result) →
      response.order = result.order → saga.order.warehouseId = some response.warehouseId →
      response.paymentStatus = result.chargeResult.status →
      s.service.step platform params (.resolve p response (thrown.map .other)) = some service →
      s.processes.step store (system catalogue sha256) (.move (.inl p) .next) = some processes →
      Step platform params catalogue sha256 s { s with service, processes }
  | reject {s p e service processes} :
      (s.processes.session (.inl p)).ctl = .refused e ∨
        (∃ saga, (s.processes.session (.inl p)).ctl = .finished saga (.error e)) →
      s.service.step platform params (.reject p e.toException) = some service →
      s.processes.step store (system catalogue sha256) (.move (.inl p) .next) = some processes →
      Step platform params catalogue sha256 s { s with service, processes }
  | abandon {s p thrown service} : s.abandoned p →
      s.service.step platform params (.reject p (.other thrown)) = some service →
      Step platform params catalogue sha256 s { s with service }

/-- The saga's result, as the tables and the provider have it. -/
def Good (s : Storefront P W) (p : P) (response : OrderResponseParams) : Prop :=
  ∃ o row, s.drawn p = some o ∧ s.processes.data.orders.lookup o = some row ∧
    row.status ≠ .PENDING_PAYMENT ∧ response.order.Shows o row ∧
    response.paymentStatus = .CAPTURED ∧ Stored s.processes.env.service (chargeKey o) .approved

/-- A problem that speaks of an order speaks of the call's own. -/
inductive Fair (s : Storefront P W) (p : P) : Exception → Prop where
  | plain {e} : Idempotency.PlainProblem e → Fair s p e
  | declined {o row failureCode} : s.drawn p = some o →
      s.processes.data.orders.lookup o = some row → row.status ≠ .PENDING_PAYMENT →
      Stored s.processes.env.service (chargeKey o) .declined →
      Fair s p (.paymentDeclined o failureCode)
  | unavailable {o row failureCode} : s.drawn p = some o →
      s.processes.data.orders.lookup o = some row →
      Fair s p (.paymentProviderUnavailable o failureCode)

structure Kept (platform : Platform) (params : P → CreateOrderIdempotentParams)
    (catalogue : Catalogue) (sha256 : String → String) (stock : Stock) (clock : Timestamptz)
    (s : Storefront P W) : Prop where
  service : Idempotency.Kept platform params s.service
  reachable : Reachable catalogue sha256 stock clock s.processes
  begun : ∀ {p o}, s.drawn p = some o → ∃ id, (s.service.ctl p).begun = some id
  known : ∀ {p o}, s.drawn p = some o → o ∈ s.processes.env.ids
  distinct : ∀ {p q o}, s.drawn p = some o → s.drawn q = some o → p = q
  sagas : ∀ {p o}, (s.processes.session (.inl p)).ctl.orderId = some o → s.drawn p = some o
  jobs : ∀ {w o}, (s.processes.session (.inr w)).ctl.orderId ≠ some o
  rows : ∀ {o row}, s.processes.data.orders.lookup o = some row → ∃ p, s.drawn p = some o
  honest : ∀ p, (s.service.ctl p).Honest platform (s.Good p) (s.Fair p)

/-- What later states keep of what a call may say. -/
structure Grows (s t : Storefront P W) : Prop where
  drawn : ∀ {p o}, s.drawn p = some o → t.drawn p = some o
  data : Preserves s.processes.data t.processes.data
  provider : ∀ {key status}, Stored s.processes.env.service key status →
    Stored t.processes.env.service key status

section Grows
variable {s t : Storefront P W} {p : P}

omit [DecidableEq P] [DecidableEq W] in
theorem Good.grows {response : OrderResponseParams} (good : s.Good p response)
    (grows : s.Grows t) : t.Good p response := by
  obtain ⟨o, row, mine, stored, closed, shows, captured, approved⟩ := good
  obtain ⟨later, stored', becomes⟩ := grows.data.orders stored
  cases becomes.settled closed
  exact ⟨o, row, grows.drawn mine, stored', closed, shows, captured,
    grows.provider approved⟩

omit [DecidableEq P] [DecidableEq W] in
theorem Fair.grows {e : Exception} (fair : s.Fair p e) (grows : s.Grows t) : t.Fair p e := by
  cases fair with
  | plain plain => exact .plain plain
  | declined mine stored closed declined =>
    obtain ⟨later, stored', becomes⟩ := grows.data.orders stored
    cases becomes.settled closed
    exact .declined (grows.drawn mine) stored' closed (grows.provider declined)
  | unavailable mine stored =>
    obtain ⟨later, stored', -⟩ := grows.data.orders stored
    exact .unavailable (grows.drawn mine) stored'

end Grows

section Steps
variable {platform : Platform} {params : P → CreateOrderIdempotentParams} {catalogue : Catalogue}
  {sha256 : String → String} {stock : Stock} {clock : Timestamptz} {s t : Storefront P W}

variable {a : Locking.Action DbError Move Event (P ⊕ W)} {processes : Processes (P ⊕ W)}
  {drawn : P → Option Uuid}

/-- The processes take a step, whoever draws an order id at it. -/
theorem Kept.grows (kept : Kept platform params catalogue sha256 stock clock s)
    (stepped : s.processes.step store (system catalogue sha256) a = some processes)
    (more : ∀ {p o}, s.drawn p = some o → drawn p = some o) :
    s.Grows { s with processes, drawn } := by
  have next : State.Next store (system catalogue sha256) s.processes processes := ⟨a, stepped⟩
  rcases kept.reachable.step next with same | does
  · have data : processes.data = s.processes.data := congrArg (·.data) same
    have env : processes.env = s.processes.env := congrArg (·.env) same
    refine ⟨more, ?_, ?_⟩
    · show Preserves s.processes.data processes.data
      rw [data]
      exact .refl _
    · intro key status known
      show Stored processes.env.service key status
      rwa [env]
  · refine ⟨more, preserves_step does kept.reachable.owned, fun known => ?_⟩
    exact Provider.Extends.stored (does.extends kept.reachable.backed) known

/-- What a step of the processes leaves, once the ids drawn at it are accounted for. -/
theorem Kept.proceed (kept : Kept platform params catalogue sha256 stock clock s)
    (stepped : s.processes.step store (system catalogue sha256) a = some processes)
    (more : ∀ {p o}, s.drawn p = some o → drawn p = some o)
    (begun : ∀ {p o}, drawn p = some o → ∃ id, (s.service.ctl p).begun = some id)
    (known : ∀ {p o}, drawn p = some o → o ∈ processes.env.ids)
    (distinct : ∀ {p q o}, drawn p = some o → drawn q = some o → p = q)
    (created : ∀ {r command geocoded orderNumber candidates o},
      a = .move r (.createOrder command geocoded orderNumber candidates o) →
        ∃ p, r = .inl p ∧ drawn p = some o) :
    Kept platform params catalogue sha256 stock clock { s with processes, drawn } := by
  have grows := kept.grows stepped more
  have next : State.Next store (system catalogue sha256) s.processes processes := ⟨a, stepped⟩
  refine ⟨kept.service, kept.reachable.tail ⟨next, trivial⟩, begun, known, distinct, ?_, ?_, ?_,
    fun p => (kept.honest p).mono (fun _ good => good.grows grows) fun _ fair => fair.grows grows⟩
  · intro p o works
    rcases kept.reachable.works stepped works with before | ⟨_, _, _, _, same⟩
    · exact more (kept.sagas before)
    · obtain ⟨q, mine, new⟩ := created same
      cases mine
      exact new
  · intro w o works
    rcases kept.reachable.works stepped works with before | ⟨_, _, _, _, same⟩
    · exact kept.jobs before
    · obtain ⟨q, mine, -⟩ := created same
      cases mine
  · intro o row stored
    have stored : processes.data.orders.lookup o = some row := stored
    have old : ∀ {row}, s.processes.data.orders.lookup o = some row → ∃ p, drawn p = some o := by
      intro row before
      obtain ⟨p, mine⟩ := kept.rows before
      exact ⟨p, more mine⟩
    cases before : s.processes.data.orders.lookup o with
    | some row => exact old before
    | none =>
      rcases kept.reachable.step next with same | does
      · have data : processes.data = s.processes.data := congrArg (·.data) same
        rw [data] at stored
        exact old stored
      · obtain ⟨r | w, works⟩ := does.newOrder kept.reachable.owned before stored
        · exact ⟨r, more (kept.sagas works)⟩
        · exact absurd works kept.jobs

/-- A step by which no order id is drawn. -/
theorem Kept.works (kept : Kept platform params catalogue sha256 stock clock s)
    (stepped : s.processes.step store (system catalogue sha256) a = some processes)
    (quiet : ∀ r command geocoded orderNumber candidates o,
      a ≠ .move r (.createOrder command geocoded orderNumber candidates o)) :
    Kept platform params catalogue sha256 stock clock { s with processes } := by
  have next : State.Next store (system catalogue sha256) s.processes processes := ⟨a, stepped⟩
  refine kept.proceed stepped id kept.begun (fun mine => ?_) kept.distinct
    fun same => absurd same (quiet _ _ _ _ _ _)
  rcases kept.reachable.step next with same | does
  · have env : processes.env = s.processes.env := congrArg (·.env) same
    rw [env]
    exact kept.known mine
  · exact does.ids_subset (kept.known mine)

/-- A step of the service, after which every call is still honest. -/
theorem Kept.answers (kept : Kept platform params catalogue sha256 stock clock s)
    {a : Idempotency.Action P} {service : Service P}
    (stepped : s.service.step platform params a = some service)
    (honest : ∀ p, (service.ctl p).Honest platform (s.Good p) (s.Fair p)) :
    Kept platform params catalogue sha256 stock clock { s with service } := by
  have does := Idempotency.does_of_step stepped
  have grows : s.Grows { s with service } := ⟨id, .refl _, id⟩
  refine ⟨kept.service.step does, kept.reachable, fun mine => ?_, kept.known, kept.distinct,
    kept.sagas, kept.jobs, kept.rows, fun p =>
      (honest p).mono (fun _ good => good.grows grows) fun _ fair => fair.grows grows⟩
  obtain ⟨id, begun⟩ := kept.begun mine
  exact ⟨id, does.begun begun⟩

/-- What the saga of a call is told becomes what the call has to say. -/
theorem Kept.resolved (kept : Kept platform params catalogue sha256 stock clock s) {p : P}
    {saga : Saga} {result : CreateOrderResult} {response : OrderResponseParams}
    (ended : (s.processes.session (.inl p)).ctl = .finished saga (.ok result))
    (order : response.order = result.order)
    (status : response.paymentStatus = result.chargeResult.status) : s.Good p response := by
  have told := kept.reachable.told (.inl p)
  have mine : s.drawn p = some saga.order.id := kept.sagas (by rw [ended]; rfl)
  rw [ended] at told
  obtain ⟨captured, approved, row, stored, closed, shows⟩ := told
  exact ⟨_, row, mine, stored, closed, order ▸ shows, status.trans captured, approved⟩

theorem Kept.rejected (kept : Kept platform params catalogue sha256 stock clock s) {p : P}
    {e : CreateOrderError}
    (ended : (s.processes.session (.inl p)).ctl = .refused e ∨
      ∃ saga, (s.processes.session (.inl p)).ctl = .finished saga (.error e)) :
    s.Fair p e.toException := by
  have told := kept.reachable.told (.inl p)
  obtain ⟨drawn, tells, mine⟩ : ∃ drawn, e.Tells s.processes.data s.processes.env.service drawn ∧
      ∀ o, drawn = some o → s.drawn p = some o := by
    rcases ended with refused | ⟨saga, finished⟩
    · rw [refused] at told
      exact ⟨none, told, nofun⟩
    · rw [finished] at told
      refine ⟨some saga.order.id, told, fun o same => kept.sagas ?_⟩
      rw [finished]
      exact same
  cases e with
  | paymentDeclined o failureCode =>
    obtain ⟨own, declined, row, stored, closed⟩ := tells
    exact .declined (mine o own) stored closed declined
  | paymentProviderUnavailable o failureCode =>
    obtain ⟨own, row, stored⟩ := tells
    exact .unavailable (mine o own) stored
  | noFulfilmentPossible productIds reason =>
    cases reason <;>
    exact .plain ⟨by simp [CreateOrderError.toException, buildProblem],
      by simp [CreateOrderError.toException, buildProblem],
      by simp [CreateOrderError.toException, buildProblem]⟩
  | _ =>
    exact .plain ⟨by simp [CreateOrderError.toException, buildProblem],
      by simp [CreateOrderError.toException, buildProblem],
      by simp [CreateOrderError.toException, buildProblem]⟩

/-- A call whose saga ends goes on to record the outcome. -/
theorem Kept.ends (kept : Kept platform params catalogue sha256 stock clock s) {p : P}
    {a : Idempotency.Action P} {service : Service P}
    (stepped : s.service.step platform params a = some service)
    (said : (∃ response, ∃ thrown : Option Thrown,
        a = .resolve p response (thrown.map .other) ∧ s.Good p response) ∨
      ∃ e, a = .reject p e ∧ s.Fair p e) :
    Kept platform params catalogue sha256 stock clock { s with service } := by
  refine kept.answers stepped fun q => ?_
  have moved : ∀ {ctl : Idempotency.Ctl}, ctl.Honest platform (s.Good p) (s.Fair p) →
      ((s.service.goto p ctl).ctl q).Honest platform (s.Good q) (s.Fair q) := fun new =>
    Idempotency.forall_goto (I := fun q ctl => ctl.Honest platform (s.Good q) (s.Fair q)) new
      (fun r _ => kept.honest r) q
  rcases said with ⟨response, thrown, rfl, good⟩ | ⟨e, rfl, fair⟩
  · simp only [Service.step] at stepped
    split at stepped <;> cases stepped
    cases thrown with
    | none => exact moved good
    | some e => exact moved (.plain (Idempotency.plain_other e))
  · simp only [Service.step] at stepped
    split at stepped <;> cases stepped
    exact moved fair

/-- The id a saga draws for its call is nobody else's. -/
theorem Kept.enters (kept : Kept platform params catalogue sha256 stock clock s) {p : P}
    {id : Uuid} {untyped : UntypedCommand} {command : CreateOrderCommand}
    {geocoded : Geocoded} {orderNumber : String} {candidates : List Uuid}
    {orderId : Uuid} (here : s.service.ctl p = .running id untyped) (undrawn : s.drawn p = none)
    (stepped : s.processes.step store (system catalogue sha256) (.move (.inl p)
      (.createOrder command geocoded orderNumber candidates orderId)) = some processes) :
    Kept platform params catalogue sha256 stock clock
      { s with processes, drawn := Function.update s.drawn p (some orderId) } := by
  obtain ⟨fresh, ids⟩ : orderId ∉ s.processes.env.ids ∧
      processes.env.ids = orderId :: s.processes.env.ids := by
    simp only [State.step] at stepped
    split at stepped <;> try contradiction
    obtain ⟨⟨env, ctl⟩, moved, rfl⟩ := Option.map_eq_some_iff.mp stepped
    exact createOrder_draws moved
  have cases_ : ∀ {q o}, Function.update s.drawn p (some orderId) q = some o →
      (q = p ∧ o = orderId) ∨ s.drawn q = some o := by
    intro q o mine
    by_cases own : q = p
    · subst own
      rw [Function.update_self] at mine
      exact .inl ⟨rfl, (Option.some.inj mine).symm⟩
    · exact .inr (by rwa [Function.update_of_ne own] at mine)
  refine kept.proceed stepped (fun {q o} mine => ?_) (fun mine => ?_) (fun mine => ?_)
    (fun {q r o} mine theirs => ?_) ?_
  · have other : q ≠ p := by
      rintro rfl
      cases undrawn.symm.trans mine
    rwa [Function.update_of_ne other]
  · rcases cases_ mine with ⟨rfl, -⟩ | old
    · exact ⟨id, by rw [here]; rfl⟩
    · exact kept.begun old
  · rw [ids]
    rcases cases_ mine with ⟨-, rfl⟩ | old
    · exact List.mem_cons_self
    · exact List.mem_cons_of_mem _ (kept.known old)
  · rcases cases_ mine with ⟨rfl, rfl⟩ | old <;> rcases cases_ theirs with ⟨rfl, same⟩ | old'
    · rfl
    · exact absurd (kept.known old') fresh
    · exact absurd (kept.known (same ▸ old)) fresh
    · exact kept.distinct old old'
  · rintro r command' geocoded' orderNumber' candidates' o ⟨⟩
    exact ⟨p, rfl, Function.update_self ..⟩

theorem Kept.step (kept : Kept platform params catalogue sha256 stock clock s)
    (step : Step platform params catalogue sha256 s t) :
    Kept platform params catalogue sha256 stock clock t := by
  have next_quiet : ∀ (p : P) (r : P ⊕ W) command geocoded orderNumber candidates o,
      (.move (.inl p) .next : Locking.Action DbError Move Event (P ⊕ W)) ≠
        .move r (.createOrder command geocoded orderNumber candidates o) := by
    rintro _ _ _ _ _ _ _ ⟨⟩
  cases step with
  | call own stepped =>
    exact kept.answers stepped
      (Idempotency.step_honest (fun _ _ plain => .plain plain) own stepped kept.honest)
  | work alone stepped =>
    refine kept.works stepped ?_
    rintro (p | w) command geocoded orderNumber candidates o rfl <;> cases alone
  | enter here undrawn _ stepped => exact kept.enters here undrawn stepped
  | resolve ended order _ status answered stepped =>
    have good := kept.resolved ended order status
    exact (kept.ends answered (.inl ⟨_, _, rfl, good⟩)).works stepped (next_quiet _)
  | reject ended answered stepped =>
    have fair := kept.rejected ended
    exact (kept.ends answered (.inr ⟨_, rfl, fair⟩)).works stepped (next_quiet _)
  | abandon _ answered =>
    exact kept.ends answered (.inr ⟨_, rfl, .plain (Idempotency.plain_other _)⟩)

theorem Kept.opening : Kept platform params catalogue sha256 stock clock
    (opening P W stock clock) where
  service :=
    have start : Service.Reachable platform params clock { clock } := .refl
    start.kept
  reachable := .refl
  begun := nofun
  known := nofun
  distinct := nofun
  sagas := nofun
  jobs := nofun
  rows := nofun
  honest _ := trivial

theorem Kept.steps (kept : Kept platform params catalogue sha256 stock clock s)
    (more : Relation.ReflTransGen (Step platform params catalogue sha256) s t) :
    Kept platform params catalogue sha256 stock clock t := by
  induction more with
  | refl => exact kept
  | tail _ last ih => exact ih.step last

/-- Every order and every charge the provider has stored stems from the saga of exactly one call,
and calls with one `Idempotency-Key` have one such call among them at most. -/
theorem one_order_per_key
    (run : Relation.ReflTransGen (Step platform params catalogue sha256)
      (opening P W stock clock) s) :
    (∀ o row, s.processes.data.orders.lookup o = some row → ∃! p, s.drawn p = some o) ∧
    (∀ key record, s.processes.env.service.records.lookup key = some record →
      ∃! p, ∃ o row, s.drawn p = some o ∧ key = chargeKey o ∧
        s.processes.data.orders.lookup o = some row ∧ record.amountCents = row.totalCents) ∧
    ∀ p q o o', (params p).idempotencyKey = (params q).idempotencyKey →
      s.drawn p = some o → s.drawn q = some o' → p = q ∧ o = o' := by
  have kept : Kept platform params catalogue sha256 stock clock s := Kept.opening.steps run
  refine ⟨fun o row stored => ?_, fun key record found => ?_, ?_⟩
  · obtain ⟨p, mine⟩ := kept.rows stored
    exact ⟨p, mine, fun q theirs => kept.distinct theirs mine⟩
  · obtain ⟨body, ⟨o, row, same, stored, amount, -⟩, charged, -⟩ :=
      kept.reachable.backed.faithful.recorded found
    obtain ⟨p, mine⟩ := kept.rows stored
    refine ⟨p, ⟨o, row, mine, same, stored, charged.trans amount⟩, ?_⟩
    rintro q ⟨o', row', theirs, same', -⟩
    obtain rfl := chargeKey_inj (same'.symm.trans same)
    exact kept.distinct theirs mine
  · intro p q o o' same mine theirs
    obtain ⟨id, here⟩ := kept.begun mine
    obtain ⟨id', there⟩ := kept.begun theirs
    obtain rfl := kept.service.owners here there same
    exact ⟨rfl, Option.some.inj (mine.symm.trans theirs)⟩

/-- Whatever a client is told of an order, at first or on a replay, is so: a `201` shows the
row of an order that is paid and settled, a `402` one whose charge was declined, and a `502`
names an order there is. It is the order of the one call with this key. -/
theorem answers_true
    (run : Relation.ReflTransGen (Step platform params catalogue sha256)
      (opening P W stock clock) s) {q : P} {id : Option Uuid} {answer : Idempotency.Answer}
    (answered : s.service.ctl q = .answered id answer) :
    ∃ p, (params p).idempotencyKey = (params q).idempotencyKey ∧
      ((answer.response (params q)).status = 201 → ∃ o row result,
        s.drawn p = some o ∧ s.processes.data.orders.lookup o = some row ∧
        (row.status = .CONFIRMED ∨ row.status = .CANCELLED) ∧
        Stored s.processes.env.service (chargeKey o) .approved ∧ result.order.Shows o row ∧
        result.paymentStatus = .CAPTURED ∧
        (platform.orderResponse result).Same (answer.response (params q)).body) ∧
      ((answer.response (params q)).status = 402 → ∃ o row,
        s.drawn p = some o ∧ s.processes.data.orders.lookup o = some row ∧
        (row.status = .PAYMENT_FAILED ∨ row.status = .CANCELLED) ∧
        Stored s.processes.env.service (chargeKey o) .declined) ∧
      ((answer.response (params q)).status = 502 → ∃ o row failureCode,
        s.drawn p = some o ∧ s.processes.data.orders.lookup o = some row ∧
        (catchProblem (params p).instancePath (params p).correlationId
          (.paymentProviderUnavailable o failureCode)).body.Same
            (answer.response (params q)).body) := by
  have kept : Kept platform params catalogue sha256 stock clock s := Kept.opening.steps run
  obtain ⟨p, id', origin, there, first, key, same, shown⟩ :=
    kept.service.origin kept.honest answered
  refine ⟨p, key, ?_⟩
  rw [← same]
  have honest := kept.honest p
  rw [there] at honest
  cases origin with
  | replay status body => exact absurd rfl (first status body)
  | resolved status body =>
    obtain ⟨rfl, result, ⟨o, row, mine, stored, closed, shows, captured, approved⟩, rfl⟩ := honest
    refine ⟨fun _ => ⟨o, row, result, mine, stored, ?_, approved, shows, captured, shown⟩, ?_, ?_⟩
    · exact kept.reachable.paid stored closed approved
    · intro other
      cases other
    · intro other
      cases other
  | threw e =>
    have fair : s.Fair p e := honest
    cases fair with
    | plain plain =>
      exact ⟨fun other => absurd other plain.1, fun other => absurd other plain.2.1,
        fun other => absurd other plain.2.2⟩
    | @declined o row failureCode mine stored closed declined =>
      refine ⟨?_, fun _ => ⟨o, row, mine, stored, ?_, declined⟩, ?_⟩
      · intro other
        cases other
      · exact kept.reachable.unpaid stored closed declined
      · intro other
        cases other
    | @unavailable o row failureCode mine stored =>
      refine ⟨?_, ?_, fun _ => ⟨o, row, failureCode, mine, stored, shown⟩⟩
      · intro other
        cases other
      · intro other
        cases other

/-- The service alone takes these steps. -/
theorem calls_of_run {actions : List (Idempotency.Action P)} {service : Service P}
    (ran : s.service.runWhile (fun _ a => a.own) platform params actions = some service) :
    Relation.ReflTransGen (Step platform params catalogue sha256) s { s with service } := by
  induction actions generalizing s with
  | nil =>
    cases ran
    exact .refl
  | cons action actions ih =>
    simp only [Service.runWhile, List.foldlM_cons, Option.bind_eq_bind] at ran
    obtain ⟨mid, stepped, rest⟩ := Option.bind_eq_some_iff.mp ran
    split at stepped <;> try contradiction
    have first : Step platform params catalogue sha256 s { s with service := mid } :=
      .call ‹_› stepped
    exact .head first (ih rest)

/-- The processes alone take these steps. -/
theorem works_of_run {actions : List (Locking.Action DbError Move Event (P ⊕ W))}
    (ran : s.processes.run store (system catalogue sha256) actions = some processes)
    (alone : ∀ a ∈ actions, byItself a) :
    Relation.ReflTransGen (Step platform params catalogue sha256) s { s with processes } := by
  induction actions generalizing s with
  | nil =>
    cases ran
    exact .refl
  | cons action actions ih =>
    simp only [State.run, List.foldlM_cons, Option.bind_eq_bind] at ran
    obtain ⟨mid, stepped, rest⟩ := Option.bind_eq_some_iff.mp ran
    have first : Step platform params catalogue sha256 s { s with processes := mid } :=
      .work (alone _ (by simp)) stepped
    exact .head first (ih rest fun a member => alone a (by simp [member]))

end Steps

end Storefront

section Lamp
open Storefront (Step opening)

def shopBody : Json := .obj [
  ("customerId", .str "customer"),
  ("shippingAddress", .obj [("recipient", .str "Ada"), ("line1", .str "1 Main St"),
    ("city", .str "Denver"), ("country", .str "US")]),
  ("items", .arr [.obj [("productId", .str "lamp"), ("quantity", .num 2)]]),
  ("payment", .obj [("cardNumber", .str "4111111111111111")])]

def shopText : String :=
  (shopBody.canonicalize Idempotency.lampLe).stringify Idempotency.lampNumber

/-- With the digest of the body. -/
def shopPlatform : Platform :=
  { Idempotency.lampPlatform with sha256 := fun text =>
      if text = shopText then
        "7b71f0f55fccb6a6be83d963cbb520f25c94ab094ce5fae47a8a3e4834d06f74"
      else "" }

/-- Two calls for two lamps, with one key. -/
def shopCalls (_ : Bool) : CreateOrderIdempotentParams where
  idempotencyKey := some "33333333-3333-4333-8333-333333333333"
  dto := shopBody
  instancePath := "/orders"
  correlationId := some "correlation"

/-- What a process of the lamp's run does, done for a call. -/
def forCall : LampAction → Locking.Action DbError Move Event (Bool ⊕ Unit)
  | .begin p => .begin (.inl p)
  | .exec p => .exec (.inl p)
  | .fault p x => .fault (.inl p) x
  | .rollback p => .rollback (.inl p)
  | .commit p => .commit (.inl p)
  | .crash p => .crash (.inl p)
  | .move p m => .move (.inl p) m
  | .event e => .event e

/-- A call whose saga is under way, with its row's id and its command. -/
def Idempotency.Ctl.underWay : Idempotency.Ctl → Option (Uuid × UntypedCommand)
  | running id command => some (id, command)
  | _ => none

theorem Idempotency.Ctl.underWay_eq {ctl : Idempotency.Ctl} {call : Uuid × UntypedCommand}
    (same : ctl.underWay = some call) : ctl = .running call.1 call.2 := by
  unfold underWay at same
  split at same <;> cases same
  rfl

def Ctl.resolvedWith : Ctl → Option (Saga × CreateOrderResult)
  | finished saga (.ok result) => some (saga, result)
  | _ => none

theorem Ctl.resolvedWith_eq {ctl : Ctl} {ended : Saga × CreateOrderResult}
    (same : ctl.resolvedWith = some ended) : ctl = .finished ended.1 (.ok ended.2) := by
  unfold resolvedWith at same
  split at same <;> cases same
  rfl

/-- The first call has its row. -/
def shopAsked : Service Bool :=
  (({ clock := ⟨1000000⟩ } : Service Bool).runWhile (fun _ a => a.own)
    shopPlatform shopCalls [.receive true, .exec true "row" ⟨0⟩]).get (by decide +kernel)

def shopCall : Uuid × UntypedCommand := (shopAsked.ctl true).underWay.get (by decide +kernel)

def shopEntered : Processes (Bool ⊕ Unit) :=
  ((initial (Bool ⊕ Unit) lampStock ⟨1000000⟩).step store (system lampCatalogue lampSha256)
    (.move (.inl true) (.createOrder lampCommand lampGeocoded
      "CNL-2026-000001" ["denver"] "order"))).get (by decide +kernel)

def shopWork : List (Locking.Action DbError Move Event (Bool ⊕ Unit)) :=
  (transact true 12 ++ lampPay ++ lampApprove ++ lampRecord ++ transact true 17).map forCall

/-- The saga of the first call has resolved. -/
def shopSettled : Processes (Bool ⊕ Unit) :=
  (shopEntered.run store (system lampCatalogue lampSha256) shopWork).get (by decide +kernel)

def shopEnded : Saga × CreateOrderResult :=
  (shopSettled.session (.inl true)).ctl.resolvedWith.get (by decide +kernel)

theorem shopPrice_nonneg : (0 : Int) ≤ 1250 := by decide

theorem shopPrice_isIsoCode : isIsoCode "USD" := by decide

def shopResponse : OrderResponseParams where
  order := shopEnded.2.order
  items := [⟨"order", "lamp", 2, "SKU-1", "Lamp",
    ⟨1250, "USD", shopPrice_nonneg, shopPrice_isIsoCode⟩⟩]
  warehouseId := "denver"
  warehouseName := "Denver"
  distanceMeters := 0
  paymentStatus := shopEnded.2.chargeResult.status

def shopTold : Service Bool :=
  (shopAsked.step shopPlatform shopCalls (.resolve true shopResponse none)).get
    (by decide +kernel)

def shopIdle : Processes (Bool ⊕ Unit) :=
  (shopSettled.step store (system lampCatalogue lampSha256) (.move (.inl true) .next)).get
    (by decide +kernel)

/-- The outcome is recorded, and the second call has been answered. -/
def shopServed : Service Bool :=
  (shopTold.runWhile (fun _ a => a.own) shopPlatform shopCalls
    [.exec true "" ⟨0⟩, .receive false, .exec false "row 2" ⟨0⟩, .exec false "" ⟨0⟩]).get
    (by decide +kernel)

def shopfront : Storefront Bool Unit where
  service := shopServed
  processes := shopIdle
  drawn := Function.update (fun _ => none) true (some "order")

theorem shopCall_carries : shopCall.2.Carries lampCommand where
  customerId := by decide +kernel
  shippingAddress := by decide +kernel
  lines := by decide +kernel
  cardNumber := by
    have text : textOf shopCall.2.cardNumber = some lampCommand.cardNumber := by decide +kernel
    intro cardNumber same
    exact Option.some.inj (text.symm.trans same)

theorem shopfront_reached : Relation.ReflTransGen
    (Step shopPlatform shopCalls lampCatalogue lampSha256)
    (opening Bool Unit lampStock ⟨1000000⟩) shopfront := by
  have asked : ({ clock := ⟨1000000⟩ } : Service Bool).runWhile (fun _ a => a.own)
      shopPlatform shopCalls [.receive true, .exec true "row" ⟨0⟩] = some shopAsked :=
    (Option.some_get _).symm
  have under : shopAsked.ctl true = .running shopCall.1 shopCall.2 :=
    Idempotency.Ctl.underWay_eq (Option.some_get _).symm
  have entered : (initial (Bool ⊕ Unit) lampStock ⟨1000000⟩).step store
      (system lampCatalogue lampSha256) (.move (.inl true) (.createOrder lampCommand
        lampGeocoded "CNL-2026-000001" ["denver"] "order")) =
      some shopEntered := (Option.some_get _).symm
  have worked : shopEntered.run store (system lampCatalogue lampSha256) shopWork =
      some shopSettled := (Option.some_get _).symm
  have ended : (shopSettled.session (.inl true)).ctl = .finished shopEnded.1 (.ok shopEnded.2) :=
    Ctl.resolvedWith_eq (Option.some_get _).symm
  have reserved : shopEnded.1.order.warehouseId = some shopResponse.warehouseId := by
    decide +kernel
  have told : shopAsked.step shopPlatform shopCalls
      (.resolve true shopResponse ((none : Option Thrown).map .other)) = some shopTold :=
    (Option.some_get _).symm
  have idle : shopSettled.step store (system lampCatalogue lampSha256) (.move (.inl true) .next) =
      some shopIdle := (Option.some_get _).symm
  have served : shopTold.runWhile (fun _ a => a.own) shopPlatform shopCalls
      [.exec true "" ⟨0⟩, .receive false, .exec false "row 2" ⟨0⟩, .exec false "" ⟨0⟩] =
      some shopServed := (Option.some_get _).symm
  refine (Storefront.calls_of_run asked).trans ?_
  refine .head (Step.enter under rfl shopCall_carries entered) ?_
  refine (Storefront.works_of_run worked (by decide +kernel)).trans ?_
  refine .head (Step.resolve ended rfl reserved rfl told idle) ?_
  exact Storefront.calls_of_run served

def shopReplay : Int × Json :=
  (shopServed.ctl false).replayed.get (by decide +kernel)

theorem shopReplay_told :
    shopfront.service.ctl false = .answered none (.replay shopReplay.1 shopReplay.2) :=
  Idempotency.Ctl.replayed_eq (show (shopServed.ctl false).replayed = some shopReplay from
    (Option.some_get _).symm)

theorem Storefront.one_order_per_key_lamp :
    shopfront.processes.data.orders.keys = ["order"] ∧
    (∀ o row, shopfront.processes.data.orders.lookup o = some row →
      ∃! p, shopfront.drawn p = some o) ∧
    (∀ key record, shopfront.processes.env.service.records.lookup key = some record →
      ∃! p, ∃ o row, shopfront.drawn p = some o ∧ key = chargeKey o ∧
        shopfront.processes.data.orders.lookup o = some row ∧
        record.amountCents = row.totalCents) ∧
    ∀ p q o o', (shopCalls p).idempotencyKey = (shopCalls q).idempotencyKey →
      shopfront.drawn p = some o → shopfront.drawn q = some o' → p = q ∧ o = o' :=
  ⟨by decide +kernel, Storefront.one_order_per_key shopfront_reached⟩

/-- The second call replays what the first was told. -/
theorem Storefront.answers_true_lamp : shopReplay.1 = 201 ∧ ∃ p o row result,
    shopfront.drawn p = some o ∧ shopfront.processes.data.orders.lookup o = some row ∧
      (row.status = .CONFIRMED ∨ row.status = .CANCELLED) ∧ result.order.Shows o row ∧
      (shopPlatform.orderResponse result).Same shopReplay.2 := by
  have created : shopReplay.1 = 201 := by decide +kernel
  obtain ⟨p, -, paid, -, -⟩ := Storefront.answers_true shopfront_reached shopReplay_told
  simp only [Idempotency.Answer.response] at paid
  obtain ⟨o, row, result, mine, stored, settled, -, shows, -, same⟩ := paid created
  exact ⟨created, p, o, row, result, mine, stored, settled, shows, same⟩

end Lamp

end Canals
