import Canals.Locking.Renaming
import Canals.Payments.Cards
import Canals.System.Charges
import Canals.System.OrderIds

/-! The full card number never shows behind the idempotency layer: with another number of the
same last four digits and brand on any of the orders, the tables of the sagas and the jobs,
the provider's records, its answers and what every saga tells its caller are the same,
whatever the processes do in which order. -/
namespace Canals
open Locking
open Provider (Request Response ChargeService)

namespace CardRenaming
variable (r : CardRenaming)

def command (orderId : Uuid) (command : CreateOrderCommand) : CreateOrderCommand :=
  { command with cardNumber := r.card (chargeKey orderId) command.cardNumber }

def allocation (allocation : Allocation) : Allocation :=
  { allocation with command := r.command allocation.draft.orderId allocation.command }

def saga (saga : Saga) : Saga := { saga with command := r.command saga.order.id saga.command }

def save (save : PaymentSave) : PaymentSave := { save with saga := r.saga save.saga }

def ctl : Ctl → Ctl
  | .idle => .idle
  | .allocating allocation => .allocating (r.allocation allocation)
  | .refused e => .refused e
  | .reserved saga => .reserved (r.saga saga)
  | .finding save => .finding (r.save save)
  | .saving save stored => .saving (r.save save) stored
  | .charging saga pendingPayment exchange =>
    .charging (r.saga saga) pendingPayment (r.exchange exchange)
  | .charged saga pendingPayment chargeResult => .charged (r.saga saga) pendingPayment chargeResult
  | .settling saga chargeResult call => .settling (r.saga saga) chargeResult call
  | .finished saga outcome => .finished (r.saga saga) outcome
  | .running tasks => .running tasks
  | .asking task exchange rest => .asking task (r.exchange exchange) rest
  | .resolving call rest => .resolving call rest

def env (env : Env) : Env :=
  { env with
    network := env.network.map r.request
    service := r.service env.service
    responses := env.responses.map r.response }

def move : Move → Move
  | .createOrder command geocoded orderNumber candidates orderId =>
    .createOrder (r.command orderId command) geocoded orderNumber candidates orderId
  | m => m

def event : Event → Event
  | .deliver request stamp => .deliver (r.request request) stamp
  | .drop request => .drop (r.request request)
  | e => e

section Controls

theorem saga_settle (saga : Saga) (chargeResult : ChargeResult) :
    (r.saga saga).settle chargeResult = r.ctl (saga.settle chargeResult) := by
  simp only [Saga.settle, show (r.saga saga).order = saga.order from rfl]
  split <;> rfl

theorem saga_settled (saga : Saga) (chargeResult : ChargeResult) (result : SettlementResult) :
    (r.saga saga).settled chargeResult result = r.ctl (saga.settled chargeResult result) := by
  simp only [Saga.settled, show (r.saga saga).order = saga.order from rfl]
  split <;> rfl

theorem save_saved (save : PaymentSave) : (r.save save).saved = r.ctl save.saved := by
  obtain ⟨saga, payment, chargeResult⟩ := save
  cases chargeResult with
  | none => rfl
  | some chargeResult => exact r.saga_settle ..

/-- An attempt returns the order that was drafted. -/
theorem attemptCandidate_yields (draft : Draft) (warehouseId : Uuid) :
    (attemptCandidate draft warehouseId).Yields fun order => order.id = draft.orderId := by
  intro now
  have inserted : (onBeforeReserve draft warehouseId).Yields fun order =>
      order.id = draft.orderId := by
    intro createdAt updatedAt
    refine (Program.yields_true _).bind fun _ _ => ?_
    refine (Program.yields_true _).bind fun _ _ => ?_
    refine (Program.yields_true _).bind fun _ _ => ?_
    exact (Program.yields_true _).bind fun _ _ => (rfl : draft.orderId = draft.orderId)
  exact inserted.bind fun order same => (Program.yields_true _).bind fun _ _ => same

theorem body_ctl (c : Ctl) : (r.ctl c).body = c.body.map (Program.rename r.ctl) := by
  cases c with
  | allocating allocation =>
    refine congrArg some ?_
    rw [Program.rename, Program.bind_assoc']
    refine (attemptCandidate_yields allocation.draft allocation.candidate).bind_congr
      fun order same => ?_
    show Program.pure (Ctl.reserved _) = .pure (r.ctl (.reserved _))
    simp only [ctl, saga, same, CardRenaming.allocation]
  | saving save stored =>
    refine congrArg some ?_
    rw [Program.rename, Program.bind_assoc', r.save_saved]
    rfl
  | settling saga chargeResult call =>
    refine congrArg some ?_
    rw [Program.rename, Program.bind_assoc']
    exact congrArg _ (funext fun result => congrArg Program.pure (r.saga_settled ..))
  | resolving call rest =>
    refine congrArg some ?_
    rw [Program.rename, Program.bind_assoc']
    rfl
  | _ => rfl

theorem failed_ctl (c : Ctl) (e : Thrown) : (r.ctl c).failed e = r.ctl (c.failed e) := by
  cases c with
  | allocating under =>
    simp only [ctl, Ctl.failed, Allocation.failed]
    cases e with
    | insufficientStock productIds =>
      simp only [show (r.allocation under).rest = under.rest from rfl]
      cases under.rest <;> rfl
    | _ => rfl
  | _ => rfl

theorem exchange_ctl (c : Ctl) : (r.ctl c).exchange = c.exchange.map r.exchange := by
  cases c <;> rfl

theorem resume_ctl (c : Ctl) (attempted : Attempted) :
    (r.ctl c).resume (r.attempted attempted) = r.ctl (c.resume attempted) := by
  cases c with
  | charging saga pendingPayment exchange =>
    cases attempted with
    | again exchange => rfl
    | done outcome =>
      simp only [ctl, CardRenaming.attempted, Ctl.resume]
      rw [show (r.saga saga).command.cardNumber =
        r.card (chargeKey saga.order.id) saga.command.cardNumber from rfl, r.chargeResultOf_card]
  | asking task exchange rest =>
    cases attempted with
    | again exchange => rfl
    | done outcome =>
      simp only [ctl, CardRenaming.attempted, Ctl.resume]
      split <;> rfl
  | _ => cases attempted <;> rfl

theorem startAllocation_command (catalogue : Catalogue) (command : CreateOrderCommand)
    (geocoded : Geocoded) (orderNumber : String) (candidates : List Uuid)
    (orderId : Uuid) :
    startAllocation catalogue (r.command orderId command) geocoded orderNumber candidates orderId =
      r.ctl (startAllocation catalogue command geocoded orderNumber candidates orderId) := by
  have same : ∀ products, draftOrder (r.command orderId command) products geocoded orderNumber
      orderId = draftOrder command products geocoded orderNumber orderId := fun _ => rfl
  have resolved : resolveCustomerAndProducts catalogue (r.command orderId command) =
    resolveCustomerAndProducts catalogue command := rfl
  simp only [startAllocation, resolved, same]
  split
  · rfl
  · rename_i draft made
    cases candidates with
    | nil => rfl
    | cons candidate rest =>
      simp only [Bind.bind, Except.bind] at made
      split at made <;> try contradiction
      obtain rfl := draftOrder_orderId made
      rfl

theorem draw_env (e : Env) (id : Uuid) : (r.env e).draw id = (e.draw id).map r.env := by
  simp only [Env.draw, show (r.env e).ids = e.ids from rfl]
  split <;> rfl

theorem send_env (e : Env) (exchange : Exchange) :
    (r.env e).send (r.exchange exchange) = (e.send exchange).map r.env r.exchange := by
  simp only [Env.send, Prod.map, env, List.map_append, List.map_cons, List.map_nil]
  rfl

theorem move_ctl (catalogue : Catalogue) (d : Db) (locked : Lock → Bool) (e : Env) (c : Ctl)
    (m : Move) : Ctl.move catalogue d locked (r.env e) (r.ctl c) (r.move m) =
      (Ctl.move catalogue d locked e c m).map (Prod.map r.env r.ctl) := by
  cases m with
  | createOrder command geocoded orderNumber candidates orderId =>
    cases c with
    | idle =>
      show ((r.env e).draw orderId).map _ = ((e.draw orderId).map _).map _
      rw [r.draw_env, r.startAllocation_command]
      cases e.draw orderId <;> rfl
    | _ => rfl
  | startPayment paymentId createdAt updatedAt =>
    cases c with
    | reserved saga =>
      show ((r.env e).draw paymentId).map _ = ((e.draw paymentId).map _).map _
      rw [r.draw_env]
      cases e.draw paymentId <;> rfl
    | _ => rfl
  | send =>
    have resumed : ∀ sent, (r.ctl c).resume (.again (r.exchange sent)) =
      r.ctl (c.resume (.again sent)) := fun sent => r.resume_ctl c (.again sent)
    simp only [move, Ctl.move, r.exchange_ctl]
    cases c.exchange with
    | none => rfl
    | some exchange =>
      simp only [Option.map_some, r.send_env, Prod.map, resumed]
      simp only [CardRenaming.exchange, Option.isNone_map]
      split <;> rfl
  | receive position garbled =>
    simp only [move, Ctl.move, r.exchange_ctl, env, List.getElem?_map]
    cases c.exchange with
    | none => rfl
    | some exchange =>
      cases e.responses[position]? with
      | none => rfl
      | some response =>
        have answered : (r.exchange exchange).request = some (r.response response).request ↔
            exchange.request = some response.request :=
          (Option.map_injective r.request_injective).eq_iff (b := some response.request)
        have same : toProviderResponse (r.response response) garbled =
          toProviderResponse response garbled := rfl
        simp only [Option.map_some, answered, same, r.attempted_exchange, r.resume_ctl]
        split <;> rfl
  | abandon error =>
    simp only [move, Ctl.move, r.exchange_ctl]
    cases c.exchange with
    | none => rfl
    | some exchange =>
      simp only [Option.map_some, r.attempted_exchange, r.resume_ctl]
      simp only [CardRenaming.exchange, Option.isNone_map]
      split <;> rfl
  | next =>
    cases c with
    | running tasks =>
      cases tasks with
      | nil => rfl
      | cons task rest =>
        show some (_, Ctl.next task rest) = some (_, r.ctl (Ctl.next task rest))
        unfold Ctl.next
        split <;> rfl
    | _ => rfl
  | _ => cases c <;> rfl

theorem event_env (sha256 : String → String) (e : Env) (happening : Event) :
    (r.env e).event sha256 (r.event happening) = (e.event sha256 happening).map r.env := by
  have erased : ∀ request, (e.network.map r.request).erase (r.request request) =
      (e.network.erase request).map r.request := fun _ =>
    (List.map_erase r.request_injective e.network).symm
  cases happening with
  | tick clock => rfl
  | deliver request stamp =>
    have sent : r.request request ∈ (r.env e).network ↔ request ∈ e.network :=
      List.mem_map_of_injective r.request_injective
    simp only [event, Env.event, sent]
    split
    · simp only [env, r.deliver_service, Prod.map, erased, Option.map_some, List.map_append]
    · rfl
  | fire key stamp =>
    simp only [event, Env.event, show (r.env e).service = r.service e.service from rfl,
      r.fire_service]
    cases Provider.fire sha256 e.service key stamp with
    | none => rfl
    | some fired => simp only [env, Option.map_some, Prod.map, List.map_append]
  | drop request =>
    simp only [event, Env.event, env, erased, Option.map_some]

end Controls

/-- The whole system does the same with the other card numbers. -/
def renamedSystem (catalogue : Catalogue) (sha256 : String → String) :
    Renaming (system catalogue sha256) (system catalogue sha256) where
  env := r.env
  ctl := r.ctl
  move := r.move
  event := r.event
  body := r.body_ctl
  failed := r.failed_ctl
  crashed _ := rfl
  drawn _ := rfl
  moved := r.move_ctl catalogue
  happened := r.event_env sha256

end CardRenaming

/-- The order a step places, with its command. -/
def placing {P : Type} : Action DbError Move Event P → Option (Uuid × CreateOrderCommand)
  | .move _ (.createOrder command _ _ _ orderId) => some (orderId, command)
  | _ => none

/-- The step with the card numbers `card` instead; a request it names is told by its number. -/
def Recarded {P : Type} (card : Uuid → String) (a a' : Action DbError Move Event P) : Prop :=
  match a with
  | .move p (.createOrder command geocoded orderNumber candidates orderId) =>
    a' = .move p (.createOrder { command with cardNumber := card orderId } geocoded orderNumber
      candidates orderId)
  | .event (.deliver request stamp) =>
    ∃ request' : Request, request'.number = request.number ∧ a' = .event (.deliver request' stamp)
  | .event (.drop request) =>
    ∃ request' : Request, request'.number = request.number ∧ a' = .event (.drop request')
  | a => a' = a

/-- What a saga has told its caller. -/
def Ctl.outcome : Ctl → Option (Except CreateOrderError CreateOrderResult)
  | refused e => some (.error e)
  | finished _ outcome => some outcome
  | _ => none

section Runs
variable {P : Type} {catalogue : Catalogue} {sha256 : String → String} {stock : Stock}
  {clock : Timestamptz} {s t : Processes P} {actions : List (Action DbError Move Event P)}
  {card : Uuid → String}

/-- The steps of the renamed system are those with the numbers `card`. -/
theorem recarded_action (r : CardRenaming) {a : Action DbError Move Event P}
    (recards : ∀ order ∈ placing a, r.card (chargeKey order.1) order.2.cardNumber = card order.1) :
    Recarded card a ((r.renamedSystem catalogue sha256).action a) := by
  cases a with
  | move p m =>
    cases m with
    | createOrder command geocoded orderNumber candidates orderId =>
      have same := recards (orderId, command) rfl
      show Action.move p (Move.createOrder { command with
        cardNumber := r.card (chargeKey orderId) command.cardNumber } _ _ _ _) = _
      rw [show r.card (chargeKey orderId) command.cardNumber = card orderId from same]
    | _ => rfl
  | event e =>
    cases e with
    | deliver request stamp => exact ⟨r.request request, rfl, rfl⟩
    | drop request => exact ⟨r.request request, rfl, rfl⟩
    | _ => rfl
  | _ => rfl

variable [DecidableEq P]

/-- What a step places takes an id that was free and stays taken. -/
theorem placed_step {a : Action DbError Move Event P}
    (run : Reachable catalogue sha256 stock clock s)
    (stepped : s.step store (system catalogue sha256) a = some t) : s.env.ids ⊆ t.env.ids ∧
      ∀ order ∈ placing a, order.1 ∉ s.env.ids ∧ order.1 ∈ t.env.ids := by
  constructor
  · rcases run.step ⟨a, stepped⟩ with same | does
    · rw [show t.env = s.env from congrArg Committed.env same]
      exact List.Subset.refl _
    · exact does.ids_subset
  · intro order places
    cases a with
    | move p m =>
      cases m with
      | createOrder command geocoded orderNumber candidates orderId =>
        cases Option.some.inj places
        simp only [State.step] at stepped
        split at stepped <;> try contradiction
        obtain ⟨⟨env, ctl⟩, moved, rfl⟩ := Option.map_eq_some_iff.mp stepped
        obtain ⟨fresh, drawn⟩ := createOrder_draws moved
        exact ⟨fresh, by simp [drawn]⟩
      | _ => cases places
    | _ => cases places

theorem placed_once (run : Reachable catalogue sha256 stock clock s)
    (ran : s.run store (system catalogue sha256) actions = some t) :
    (∀ order ∈ actions.filterMap placing, order.1 ∉ s.env.ids) ∧
      ((actions.filterMap placing).map (·.1)).Nodup := by
  induction actions generalizing s with
  | nil => simp
  | cons a actions ih =>
    rw [State.run, List.foldlM_cons] at ran
    obtain ⟨mid, stepped, rest⟩ := Option.bind_eq_some_iff.mp ran
    obtain ⟨kept, drawn⟩ := placed_step run stepped
    obtain ⟨later, once⟩ := ih (run.tail ⟨⟨a, stepped⟩, trivial⟩) rest
    cases here : placing a with
    | none =>
      rw [List.filterMap_cons_none here]
      exact ⟨fun order member taken => later order member (kept taken), once⟩
    | some order =>
      rw [List.filterMap_cons_some here, List.map_cons, List.nodup_cons]
      obtain ⟨fresh, taken⟩ := drawn order here
      refine ⟨List.forall_mem_cons.mpr ⟨fresh, fun other member drawn =>
        later other member (kept drawn)⟩, fun again => ?_, once⟩
      obtain ⟨other, member, same⟩ := List.mem_map.mp again
      exact later other member (same ▸ taken)

/-- The renaming that gives every order of a run the card number `card`. -/
theorem renaming_exists (run : Reachable catalogue sha256 stock clock s)
    (ran : s.run store (system catalogue sha256) actions = some t)
    (alike : ∀ order ∈ actions.filterMap placing, CardsAlike (card order.1) order.2.cardNumber) :
    ∃ r : CardRenaming, ∀ order ∈ actions.filterMap placing,
      r.card (chargeKey order.1) order.2.cardNumber = card order.1 := by
  classical
  have own : ∀ o, ∃ number, CardsAlike (card o) number ∧
      ∀ order ∈ actions.filterMap placing, order.1 = o → order.2.cardNumber = number := by
    intro o
    by_cases used : ∃ order ∈ actions.filterMap placing, order.1 = o
    · obtain ⟨order, member, rfl⟩ := used
      refine ⟨_, alike order member, fun other member' same => ?_⟩
      rw [List.inj_on_of_nodup_map (placed_once run ran).2 member' member same]
    · exact ⟨card o, ⟨rfl, Iff.rfl⟩, fun order member same => (used ⟨order, member, same⟩).elim⟩
  choose number alike own using own
  obtain ⟨swap, swapped, others⟩ : ∃ swap : String → Equiv.Perm String,
      (∀ o, swap (chargeKey o) = Equiv.swap (number o) (card o)) ∧
      ∀ key, (¬ ∃ o, chargeKey o = key) → swap key = Equiv.refl String :=
    ⟨Function.extend chargeKey (fun o => Equiv.swap (number o) (card o)) fun _ => Equiv.refl String,
      Function.Injective.extend_apply (fun _ _ => chargeKey_inj) _ _,
      fun key unused => Function.extend_apply' _ _ _ unused⟩
  refine ⟨⟨fun key => swap key, fun key => (swap key).injective, fun key n => ?_⟩,
    fun order member => ?_⟩
  · by_cases used : ∃ o, chargeKey o = key
    · obtain ⟨o, rfl⟩ := used
      rw [swapped, Equiv.swap_apply_def]
      split
      · subst n
        exact alike o
      · split
        · subst n
          exact ⟨(alike o).described.symm, (alike o).missing.symm⟩
        · exact ⟨rfl, Iff.rfl⟩
    · rw [others key used]
      exact ⟨rfl, Iff.rfl⟩
  · show swap (chargeKey order.1) order.2.cardNumber = card order.1
    rw [swapped, own order.1 order member rfl]
    exact Equiv.swap_apply_left ..

/-- What the sagas, the jobs and the provider do depends on a card number by its last four digits,
its brand and its presence only: with any other such numbers on the orders of a run, the run is
possible again step for step and ends in the same tables, the same charges, the same answers of
the provider and the same outcomes. The fingerprint of a request, which `idempotency_keys`
keeps, is not among these tables: it is one of the whole body. -/
theorem card_unseen (card : Uuid → String)
    (ran : (initial P stock clock).run store (system catalogue sha256) actions = some s)
    (alike : ∀ order ∈ actions.filterMap placing, CardsAlike (card order.1) order.2.cardNumber) :
    ∃ actions' t, List.Forall₂ (Recarded card) actions actions' ∧
      (initial P stock clock).run store (system catalogue sha256) actions' = some t ∧
      t.data = s.data ∧ t.env.service.records = s.env.service.records ∧
      (t.env.responses.map fun answer => (answer.request.number, answer.httpStatus, answer.body)) =
        (s.env.responses.map fun answer =>
          (answer.request.number, answer.httpStatus, answer.body)) ∧
      ∀ p, (t.session p).ctl.outcome = (s.session p).ctl.outcome := by
  obtain ⟨r, recards⟩ := renaming_exists Relation.ReflTransGen.refl ran alike
  have again := (r.renamedSystem catalogue sha256).run_eq (S := store) (initial P stock clock)
    actions
  rw [ran] at again
  refine ⟨_, _, ?_, again, rfl, rfl, ?_, fun p => ?_⟩
  · refine List.forall₂_map_right_iff.mpr (List.forall₂_same.mpr fun a member => ?_)
    exact recarded_action r fun order places =>
      recards order (List.mem_filterMap.mpr ⟨a, member, places⟩)
  · exact List.map_map ..
  · show (r.ctl (s.session p).ctl).outcome = _
    cases (s.session p).ctl <;> rfl

end Runs

section Lamp

/-- Another Visa card that ends in 1111. -/
def lampOtherCard (_ : Uuid) : String := "4000000000001111"

theorem lampOtherCard_alike : ∀ order ∈ (lampReserve ++ lampPay ++ lampApprove ++ lampRecord ++
    transact true 17).filterMap placing, CardsAlike (lampOtherCard order.1) order.2.cardNumber := by
  intro order member
  have only : order = ("order", lampCommand) := by
    simpa [lampReserve, lampPay, lampApprove, lampRecord, transact, placing, List.filterMap_cons]
      using member
  subst only
  exact ⟨congrArg₂ CardDescription.mk (by decide +kernel) (by decide +kernel), by decide +kernel⟩

/-- The two lamps, bought with the other card. -/
theorem card_unseen_lamp : ∃ actions' t, List.Forall₂ (Recarded lampOtherCard)
      (lampReserve ++ lampPay ++ lampApprove ++ lampRecord ++ transact true 17) actions' ∧
    (initial Bool lampStock ⟨1000000⟩).run store (system lampCatalogue lampSha256) actions' =
      some t ∧
    t.data = lampSold.data ∧ t.env.service.records = lampSold.env.service.records ∧
    (t.env.responses.map fun answer => (answer.request.number, answer.httpStatus, answer.body)) =
      (lampSold.env.responses.map fun answer =>
        (answer.request.number, answer.httpStatus, answer.body)) ∧
    ∀ p, (t.session p).ctl.outcome = (lampSold.session p).ctl.outcome :=
  card_unseen lampOtherCard lampSold_run lampOtherCard_alike

end Lamp

end Canals
