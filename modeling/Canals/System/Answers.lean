import Canals.Geocoding.Failures
import Canals.Locking.Results
import Canals.System.Cards
import Canals.System.Refusals

/-! An order that the domain can take never ends in an internal error: as long as neither the
database nor the geocoder fails of itself, a saga resolves or rejects with one of the
documented problems. -/
namespace Canals
open Geocoding (GeocodeError)
open Geocoding.Caching (Clean)
open Locking Program

/-- What the domain and the columns ask of a command. -/
structure CreateOrderCommand.Sound (command : CreateOrderCommand) : Prop where
  recipient : isBlank command.shippingAddress.recipient = false
  line1 : isBlank command.shippingAddress.line1 = false
  city : isBlank command.shippingAddress.city = false
  country : isBlank command.shippingAddress.country = false
  distinct : (command.lines.map (·.productId)).Nodup
  quantity : ∀ line ∈ command.lines, 0 < line.quantity ∧ line.quantity ≤ 2147483647

/-- The statuses that `POST /orders` documents for a saga that rejects. -/
def sagaStatuses : List Int := [402, 404, 409, 422, 502]

def CreateOrderError.Documented (e : CreateOrderError) : Prop :=
  (buildProblem e.toException).status ∈ sagaStatuses

/-- The way to a documented outcome. -/
def Ctl.Documented : Ctl → Prop
  | allocating allocation => allocation.draft.Sellable
  | refused e => e.Documented
  | finished _ (.error e) => e.Documented
  | _ => True

/-- No fault of the database, in a transaction or at a `SELECT` outside one, which is also what
it refuses beyond the checks of `Sql.exec`: an order number that is taken, an amount outside
`bigint`. A geocoder rejects with a `GeocodingFailedError` only. -/
def Faultless {P : Type} : Action DbError Move Event P → Prop
  | .fault _ _ | .move _ (.failToFind _) => False
  | .move _ (.createOrder _ geocoded _ _ _) => Clean geocoded
  | _ => True

section Starting
variable {catalogue : Catalogue} {command : CreateOrderCommand} {products : List Product}
  {geocoded : Geocoded} {orderNumber : String} {orderId : Uuid} {draft : Draft}
  {lines : List PricedLine}

theorem CreateOrderError.documented {e : CreateOrderError} (known : ∀ x, e ≠ .thrown x) :
    e.Documented := by
  unfold Documented
  cases e with
  | thrown x => exact (known x rfl).elim
  | noFulfilmentPossible productIds reason =>
    cases reason <;> simp [CreateOrderError.toException, buildProblem, sagaStatuses]
  | _ => simp [CreateOrderError.toException, buildProblem, sagaStatuses]

theorem CreateOrderCommand.Sound.address (sound : command.Sound) :
    ∃ address, ShippingAddress.of command.shippingAddress = .ok address := by
  simp [ShippingAddress.of, sound.recipient, sound.line1, sound.city, sound.country]

theorem money_of_ok {amountCents : Int} (nonneg : 0 ≤ amountCents) :
    ∃ money : Money, Money.of amountCents = .ok money ∧ money.amountCents = amountCents ∧
      money.currency = "USD" := by
  have iso : isIsoCode "USD" := by decide
  exact ⟨⟨amountCents, "USD", nonneg, iso⟩, by simp [Money.of, nonneg, iso], rfl, rfl⟩

theorem addLine_ok {line : PricedLine} {sum : Money} (price : 0 ≤ line.product.unitPriceCents)
    (count : 0 < line.line.quantity) (dollars : sum.currency = "USD") :
    ∃ more : Money, more.currency = "USD" ∧ (do
      let price ← Money.of line.product.unitPriceCents
      let amount ← price.multiply line.line.quantity
      sum.add amount) = .ok more := by
  obtain ⟨unit, made, cents, currency⟩ := money_of_ok price
  obtain ⟨amount, multiplied, amountCents, same⟩ := money_of_ok (Int.mul_nonneg price count.le)
  obtain ⟨more, added, -, total⟩ := money_of_ok (Int.add_nonneg sum.nonneg amount.nonneg)
  refine ⟨more, total, ?_⟩
  rw [made]
  show (unit.multiply line.line.quantity >>= fun amount => sum.add amount) = _
  rw [Money.multiply, if_neg (not_lt.mpr count.le), cents, currency, multiplied]
  show sum.add amount = _
  rw [Money.add, if_pos (dollars.trans same.symm), dollars, added]

theorem orderTotal_ok (priced : ∀ line ∈ lines, 0 ≤ line.product.unitPriceCents)
    (counted : ∀ line ∈ lines, 0 < line.line.quantity) : ∃ total, orderTotal lines = .ok total := by
  suffices ∀ sum : Money, sum.currency = "USD" → ∃ total, lines.foldlM (fun sum line => do
      let price ← Money.of line.product.unitPriceCents
      let amount ← price.multiply line.line.quantity
      sum.add amount) sum = .ok total from this Money.zero rfl
  induction lines with
  | nil => exact fun sum _ => ⟨sum, rfl⟩
  | cons line lines ih =>
    intro sum dollars
    obtain ⟨price, prices⟩ := List.forall_mem_cons.mp priced
    obtain ⟨count, counts⟩ := List.forall_mem_cons.mp counted
    obtain ⟨more, currency, added⟩ := addLine_ok price count dollars
    obtain ⟨total, made⟩ := ih prices counts more currency
    exact ⟨total, by rw [List.foldlM_cons, added]; exact made⟩

theorem draftOrder_priced (drafted : draftOrder command products geocoded orderNumber orderId =
    .ok draft) : draft.lines = priceLines products command.lines := by
  simp only [draftOrder, Bind.bind, Except.bind] at drafted
  split at drafted <;> try contradiction
  split at drafted <;> try contradiction
  split at drafted <;> try contradiction
  cases drafted
  rfl

theorem draftOrder_lost {address : ShippingAddress} {total : Money} {e : CreateOrderError}
    (made : ShippingAddress.of command.shippingAddress = .ok address)
    (summed : orderTotal (priceLines products command.lines) = .ok total)
    (drafted : draftOrder command products geocoded orderNumber orderId = .error e) :
    ∃ failure, geocoded = .error failure ∧ e = .ofGeocoding failure := by
  cases geocoded with
  | error failure =>
    simp only [draftOrder, made, Except.mapError, Bind.bind, Except.bind] at drafted
    cases drafted
    exact ⟨failure, rfl, rfl⟩
  | ok location =>
    simp only [draftOrder, made, summed, Except.mapError, Bind.bind, Except.bind] at drafted
    cases drafted

/-- A sound command is drafted, unless its address is not found. -/
theorem startAllocation_documented (prices : ∀ product ∈ catalogue.products,
    0 ≤ product.unitPriceCents) (sound : command.Sound) (clean : Clean geocoded)
    (candidates : List Uuid) :
    (startAllocation catalogue command geocoded orderNumber candidates orderId).Documented := by
  unfold startAllocation
  cases resolved : resolveCustomerAndProducts catalogue command with
  | error e =>
    refine CreateOrderError.documented fun x same => ?_
    subst same
    simp only [resolveCustomerAndProducts] at resolved
    split at resolved <;> try split at resolved
    all_goals cases resolved
  | ok products =>
    have priced : ∀ line ∈ priceLines products command.lines, 0 ≤ line.product.unitPriceCents :=
      fun line member => prices _ (resolved_subset resolved (mem_priceLines member).2)
    have counted : ∀ line ∈ priceLines products command.lines,
        0 < line.line.quantity ∧ line.line.quantity ≤ 2147483647 :=
      fun line member => sound.quantity _ (mem_priceLines member).1
    cases drafted : draftOrder command products geocoded orderNumber orderId with
    | error e =>
      obtain ⟨address, made⟩ := sound.address
      obtain ⟨total, summed⟩ := orderTotal_ok priced fun line member => (counted line member).1
      obtain ⟨failure, rfl, rfl⟩ := draftOrder_lost made summed drafted
      obtain ⟨⟨reason, text, rfl⟩, -⟩ := clean failure rfl
      simp only [Bind.bind, Except.bind, drafted]
      exact CreateOrderError.documented (by simp [CreateOrderError.ofGeocoding])
    | ok draft =>
      simp only [Bind.bind, Except.bind, drafted]
      cases candidates with
      | nil => exact CreateOrderError.documented (by simp)
      | cons candidate rest =>
        have lines := draftOrder_priced drafted
        refine ⟨?_, lines ▸ counted, lines ▸ priced⟩
        have ids := congrArg (List.map OrderLine.productId) (draftOrder_lines resolved drafted)
        rw [List.map_map] at ids
        exact ids ▸ sound.distinct

end Starting

section Steps
variable {ctl ctl' : Ctl}

theorem settle_documented (saga : Saga) (chargeResult : ChargeResult) :
    (saga.settle chargeResult).Documented := by
  unfold Saga.settle
  split
  · trivial
  · exact CreateOrderError.documented (by simp)

theorem body_documented {body : Tx Ctl} (here : ctl.body = some body) :
    body.Yields Ctl.Documented := by
  cases ctl with
  | allocating allocation =>
    cases here
    exact (yields_true _).bind fun _ _ => trivial
  | saving save stored =>
    cases here
    refine (yields_true _).bind fun _ _ => ?_
    show save.saved.Documented
    unfold PaymentSave.saved
    split
    · trivial
    · exact settle_documented ..
  | settling saga chargeResult call =>
    cases here
    refine (yields_true _).bind fun result _ => ?_
    show (saga.settled chargeResult result).Documented
    unfold Saga.settled
    split
    · trivial
    · exact CreateOrderError.documented (by simp)
  | resolving call rest =>
    cases here
    exact (yields_true _).bind fun _ _ => trivial
  | _ => cases here

/-- An attempt that lacks stock leads to the next candidate or to a documented refusal. -/
theorem failed_documented {allocation : Allocation} (sellable : allocation.draft.Sellable)
    (productIds : List Uuid) :
    (Ctl.failed (.allocating allocation) (.insufficientStock productIds)).Documented := by
  simp only [Ctl.failed, Allocation.failed]
  split
  · exact sellable
  · exact CreateOrderError.documented (by simp)

theorem resume_documented {exchange : Exchange} (under : ctl.exchange = some exchange)
    (attempted : Attempted) : (ctl.resume attempted).Documented := by
  cases ctl <;> cases under
  case charging => cases attempted <;> trivial
  case asking =>
    cases attempted with
    | again exchange => trivial
    | done outcome =>
      simp only [Ctl.resume]
      split <;> trivial

theorem move_documented {catalogue : Catalogue} {d : Db} {locked : Lock → Bool} {env env' : Env}
    {m : Move} (prices : ∀ product ∈ catalogue.products, 0 ≤ product.unitPriceCents)
    (sound : ∀ command geocoded orderNumber candidates orderId,
      m = .createOrder command geocoded orderNumber candidates orderId →
        command.Sound ∧ Clean geocoded)
    (answered : ∀ e, m ≠ .failToFind e)
    (moved : ctl.move catalogue d locked env m = some (env', ctl')) : ctl'.Documented := by
  unfold Ctl.move at moved
  split at moved
  case h_1 command geocoded orderNumber candidates orderId =>
    obtain ⟨drawn, -, same⟩ := Option.map_eq_some_iff.mp moved
    cases same
    obtain ⟨sound, clean⟩ := sound _ _ _ _ _ rfl
    exact startAllocation_documented prices sound clean candidates
  case h_2 =>
    obtain ⟨drawn, -, same⟩ := Option.map_eq_some_iff.mp moved
    cases same
    trivial
  case h_4 => exact (answered _ rfl).elim
  case h_5 =>
    split at moved <;> try contradiction
    split at moved <;> try contradiction
    cases moved
    exact resume_documented ‹_› _
  case h_6 =>
    split at moved <;> try contradiction
    rename_i under _
    split at moved <;> try contradiction
    cases moved
    exact resume_documented under _
  case h_7 =>
    split at moved <;> try contradiction
    split at moved <;> try contradiction
    cases moved
    exact resume_documented ‹_› _
  case h_12 task rest =>
    cases moved
    unfold Ctl.next
    split <;> trivial
  case h_15 => cases moved
  all_goals
    cases moved
    trivial

end Steps

section Runs
variable {P : Type} [DecidableEq P] {catalogue : Catalogue} {sha256 : String → String}
  {stock : Stock} {clock : Timestamptz} {s t : Processes P}
  {actions : List (Action DbError Move Event P)}

/-- Without a fault of the database every step stays on the way to a documented outcome. -/
theorem documented_step (prices : ∀ product ∈ catalogue.products, 0 ≤ product.unitPriceCents)
    (room : ∀ key, stock.units key ≤ 2147483647) (run : Reachable catalogue sha256 stock clock s)
    (documented : s.Results Ctl.Documented) {a : Action DbError Move Event P}
    (stepped : s.step store (system catalogue sha256) a = some t) (faultless : Faultless a)
    (sound : ∀ order ∈ placing a, order.2.Sound) : t.Results Ctl.Documented := by
  refine documented.step stepped (fun c prog _ here => body_documented here) (fun _ => trivial)
    ?_ ?_ ?_
  · rintro p x rfl
    exact faultless.elim
  · rintro p ⟨rest, ws⟩ e isOpen rfl
    obtain ⟨allocation, here, refused⟩ := run.refuses room isOpen .throw
    have sellable := documented.ctl p
    rw [here] at sellable ⊢
    obtain ⟨rfl, -⟩ := refused sellable
    exact failed_documented sellable _
  · rintro p m rfl env c moved
    refine move_documented prices ?_ ?_ moved
    · rintro command geocoded orderNumber candidates orderId rfl
      exact ⟨sound (orderId, command) rfl, faultless⟩
    · rintro e rfl
      exact faultless

theorem documented_run (prices : ∀ product ∈ catalogue.products, 0 ≤ product.unitPriceCents)
    (room : ∀ key, stock.units key ≤ 2147483647) (run : Reachable catalogue sha256 stock clock s)
    (documented : s.Results Ctl.Documented)
    (ran : s.run store (system catalogue sha256) actions = some t)
    (faultless : ∀ a ∈ actions, Faultless a)
    (sound : ∀ order ∈ actions.filterMap placing, order.2.Sound) : t.Results Ctl.Documented := by
  induction actions generalizing s with
  | nil =>
    cases ran
    exact documented
  | cons a actions ih =>
    rw [State.run, List.foldlM_cons] at ran
    obtain ⟨mid, stepped, rest⟩ := Option.bind_eq_some_iff.mp ran
    obtain ⟨first, others⟩ := List.forall_mem_cons.mp faultless
    refine ih (run.tail ⟨⟨a, stepped⟩, trivial⟩) (documented_step prices room run documented
        stepped first fun order places => sound order ?_) rest others
      fun order member => sound order ?_
    · exact List.mem_filterMap.mpr ⟨a, List.mem_cons_self, places⟩
    · obtain ⟨b, listed, places⟩ := List.mem_filterMap.mp member
      exact List.mem_filterMap.mpr ⟨b, List.mem_cons_of_mem _ listed, places⟩

end Runs

section Lamp

def lampRefuse : List LampAction :=
  .move true (.createOrder lampMany lampGeocoded "CNL-2026-000001"
    ["denver"] "order") :: .begin true :: List.replicate 9 (.exec true) ++ [.rollback true]

def lampRefused : Processes Bool :=
  ((initial Bool lampStock ⟨1000000⟩).run store (system lampCatalogue lampSha256) lampRefuse).get
    (by decide +kernel)

/-- What a saga that was refused has thrown. -/
def Ctl.refusal : Ctl → Option CreateOrderError
  | refused e => some e
  | _ => none

theorem Ctl.outcome_of_refusal {ctl : Ctl} {e : CreateOrderError} (refused : ctl.refusal = some e) :
    ctl.outcome = some (.error e) := by
  cases ctl <;> cases refused
  rfl

theorem lampMany_sound : lampMany.Sound := by
  constructor <;> decide +kernel

end Lamp

end Canals
