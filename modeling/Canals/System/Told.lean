import Canals.Orders.SettledOrder
import Canals.System.Finality
import Canals.System.History

/-! What a saga has told its caller, against the tables and the provider: an order it
names is its own and stored, and one it calls paid or declined is settled. -/
namespace Canals
open Locking
open Provider (ChargeService Extends Stored)

/-- The row behind the order a saga resolved with. -/
def CreateOrderResult.Tells (d : Db) (service : ChargeService) (o : Uuid)
    (result : CreateOrderResult) : Prop :=
  result.chargeResult.status = .CAPTURED ∧ Stored service (chargeKey o) .approved ∧
    ∃ row, d.orders.lookup o = some row ∧ row.status ≠ .PENDING_PAYMENT ∧ result.order.Shows o row

/-- An error that names an order names the one the saga drew, if it drew any. -/
def CreateOrderError.Tells (d : Db) (service : ChargeService) (drawn : Option Uuid) :
    CreateOrderError → Prop
  | paymentDeclined o _ => drawn = some o ∧ Stored service (chargeKey o) .declined ∧
    ∃ row, d.orders.lookup o = some row ∧ row.status ≠ .PENDING_PAYMENT
  | paymentProviderUnavailable o _ => drawn = some o ∧ ∃ row, d.orders.lookup o = some row
  | _ => True

def Ctl.Told (d : Db) (service : ChargeService) : Ctl → Prop
  | finished saga (.ok result) => result.Tells d service saga.order.id
  | finished saga (.error e) => e.Tells d service (some saga.order.id)
  | refused e => e.Tells d service none
  | _ => True

section Steps
variable {d after : Db} {service service' : ChargeService} {drawn : Option Uuid} {o : Uuid}
  {ctl ctl' : Ctl} {env env' : Env}

theorem CreateOrderResult.Tells.mono {result : CreateOrderResult} (tells : result.Tells d service o)
    (preserves : Preserves d after) (grown : Extends service service') :
    result.Tells after service' o := by
  obtain ⟨captured, approved, row, stored, closed, shows⟩ := tells
  obtain ⟨later, stored', becomes⟩ := preserves.orders stored
  cases becomes.settled closed
  exact ⟨captured, grown.stored approved, row, stored', closed, shows⟩

theorem CreateOrderError.Tells.mono {e : CreateOrderError} (tells : e.Tells d service drawn)
    (preserves : Preserves d after) (grown : Extends service service') :
    e.Tells after service' drawn := by
  cases e with
  | paymentDeclined o failureCode =>
    obtain ⟨mine, declined, row, stored, closed⟩ := tells
    obtain ⟨later, stored', becomes⟩ := preserves.orders stored
    cases becomes.settled closed
    exact ⟨mine, grown.stored declined, row, stored', closed⟩
  | paymentProviderUnavailable o failureCode =>
    obtain ⟨mine, row, stored⟩ := tells
    obtain ⟨later, stored', -⟩ := preserves.orders stored
    exact ⟨mine, later, stored'⟩
  | _ => trivial

theorem Ctl.Told.mono (told : ctl.Told d service) (preserves : Preserves d after)
    (grown : Extends service service') : ctl.Told after service' := by
  unfold Told at told ⊢
  split at told
  · exact told.mono preserves grown
  · exact CreateOrderError.Tells.mono told preserves grown
  · exact CreateOrderError.Tells.mono told preserves grown
  · trivial

theorem allocation_told (allocation : Allocation) (e : Thrown) :
    (allocation.failed e).Told d service := by
  unfold Allocation.failed
  split
  · dsimp only
    split <;> trivial
  · trivial

/-- After a rollback nothing is told but what was thrown. -/
theorem failed_told {body : Tx Ctl} (here : ctl.body = some body) (e : Thrown) :
    (ctl.failed e).Told d service := by
  cases ctl <;> cases here
  case allocating allocation => exact allocation_told allocation e
  case saving | settling | resolving => trivial

theorem mapError_error {ε ε' α : Type} {f : ε → ε'} {result : Except ε α} {e : ε'}
    (failed : result.mapError f = .error e) : ∃ x, e = f x := by
  cases result with
  | error x =>
    cases failed
    exact ⟨x, rfl⟩
  | ok a => cases failed

theorem draftOrder_error {command : CreateOrderCommand} {products : List Product}
    {geocoded : Geocoded} {orderNumber : String} {orderId : Uuid} {e : CreateOrderError}
    (failed : draftOrder command products geocoded orderNumber orderId = .error e) :
    (∃ message, e = .geocodingFailed message) ∨ ∃ thrown, e = .thrown thrown := by
  simp only [draftOrder, Bind.bind, Except.bind] at failed
  split at failed
  · rename_i read
    cases failed
    exact .inr (mapError_error read)
  · split at failed
    · rename_i located
      cases failed
      obtain ⟨failure, rfl⟩ := mapError_error located
      cases failure with
      | failed reason message => exact .inl ⟨message, rfl⟩
      | typeError message => exact .inr ⟨.error message, rfl⟩
      | thrown thrown => exact .inr ⟨thrown, rfl⟩
    · split at failed
      · rename_i summed
        cases failed
        exact .inr (mapError_error summed)
      · cases failed

theorem Moves.service_eq (moves : Moves d env ctl env' ctl') : env'.service = env.service := by
  cases moves <;> rfl

/-- No order is named before one is stored. -/
theorem startAllocation_told (catalogue : Catalogue) (command : CreateOrderCommand)
    (geocoded : Geocoded) (orderNumber : String) (candidates : List Uuid) (orderId : Uuid) :
    (startAllocation catalogue command geocoded orderNumber candidates orderId).Told d service := by
  unfold startAllocation
  split
  · rename_i e failed
    simp only [Bind.bind, Except.bind] at failed
    split at failed
    · rename_i e' missing
      cases failed
      unfold resolveCustomerAndProducts at missing
      dsimp only at missing
      split at missing <;> try split at missing
      all_goals cases missing
      all_goals trivial
    · rcases draftOrder_error failed with ⟨message, rfl⟩ | ⟨thrown, rfl⟩ <;> trivial
  · split <;> trivial

theorem resume_told {exchange : Exchange} (under : ctl.exchange = some exchange)
    (attempted : Attempted) : (ctl.resume attempted).Told d service := by
  cases ctl <;> cases under
  case charging => cases attempted <;> trivial
  case asking =>
    cases attempted with
    | again exchange => trivial
    | done outcome =>
      simp only [Ctl.resume]
      split <;> trivial

theorem move_told {catalogue : Catalogue} {locked : Lock → Bool} {m : Move}
    (moved : ctl.move catalogue d locked env m = some (env', ctl')) : ctl'.Told d service := by
  unfold Ctl.move at moved
  split at moved
  case h_1 =>
    obtain ⟨drawn, -, same⟩ := Option.map_eq_some_iff.mp moved
    cases same
    exact startAllocation_told ..
  case h_2 =>
    obtain ⟨drawn, -, same⟩ := Option.map_eq_some_iff.mp moved
    cases same
    trivial
  case h_5 =>
    split at moved <;> try contradiction
    split at moved <;> try contradiction
    cases moved
    exact resume_told ‹_› _
  case h_6 =>
    split at moved <;> try contradiction
    rename_i under _
    split at moved <;> try contradiction
    cases moved
    exact resume_told under _
  case h_7 =>
    split at moved <;> try contradiction
    split at moved <;> try contradiction
    cases moved
    exact resume_told ‹_› _
  case h_12 task rest =>
    cases moved
    unfold Ctl.next
    split <;> trivial
  case h_15 => cases moved
  all_goals
    cases moved
    trivial

/-- What is told behind a settlement is what it did. -/
theorem settled_told {saga : Saga} {chargeResult : ChargeResult} {call : SettleCall}
    {result : SettlementResult} (asks : settlementOf saga.order.id chargeResult = some call)
    (backed : call.Backed service) (ran : call.run.Completes store d after result) :
    (saga.settled chargeResult result).Told after service := by
  obtain ⟨row, stored, closed, shows⟩ := settled_shows ran
  unfold settlementOf at asks
  split at asks <;> cases asks
  · rename_i captured
    simp only [Saga.settled, captured, if_true]
    exact ⟨captured, backed, row, stored, closed, shows⟩
  · rename_i declined
    simp only [Saga.settled, declined, reduceCtorEq, if_false]
    exact ⟨rfl, backed, row, stored, closed⟩

theorem saved_told {save : PaymentSave} (placed : save.saga.Placed d) :
    save.saved.Told d service := by
  unfold PaymentSave.saved
  split
  · trivial
  · unfold Saga.settle
    split
    · trivial
    · obtain ⟨row, stored, -⟩ := placed
      exact ⟨rfl, row, stored⟩

theorem body_told {body : Tx Ctl} (here : ctl.body = some body) (alone : ctl.Alone d)
    (backed : ctl.Backed d service) (records : ctl.Records)
    (ran : body.Completes store d after ctl') : ctl'.Told after service := by
  have evolves := ((commits_of_body here ran).owned alone).1
  cases ctl <;> cases here <;> obtain ⟨_, _, done, rfl, rfl⟩ := Program.completes_bind.mp ran
  case allocating | resolving => trivial
  case saving => exact saved_told (backed.placed.evolves evolves)
  case settling => exact settled_told records backed done

end Steps

section Worlds
variable {P : Type} [DecidableEq P] {catalogue : Catalogue} {sha256 : String → String}
  {a b : World P} {stock : Stock} {clock : Timestamptz} {s t : Processes P}
  {Meets : World P → World P → Prop}

theorem Does.extends (does : Does sha256 a b) (backed : Backed a) :
    Extends a.env.service b.env.service := by
  cases does with
  | commit _ | rewind _ => exact Extends.refl
  | move moves =>
    rw [show _ = a.env.service from moves.service_eq]
    exact Extends.refl
  | happen happens =>
    exact (happens.backed backed.faithful backed.network backed.responses).2.1

theorem told_step (step : Committed.Step store (system catalogue sha256) a b) (owned : Owned a)
    (backed : Backed a) (records : ∀ p, (a.ctl p).Records)
    (told : ∀ p, (a.ctl p).Told a.data a.env.service) (p : P) :
    (b.ctl p).Told b.data b.env.service := by
  have does := does_of_step step
  have preserves := preserves_step does owned
  have grown : Extends a.env.service b.env.service := does.extends backed
  cases step with
  | @commit q body after ctl here ran =>
    exact Committed.forall_goto
      (body_told here (owned.alone q) (backed.ctl q) (records q) ran)
      (fun r _ => (told r).mono preserves grown) p
  | fail here _ => exact Committed.forall_goto (failed_told here _) (fun r _ => told r) p
  | crash => exact Committed.forall_goto trivial (fun r _ => told r) p
  | move moved =>
    exact Committed.forall_goto (move_told moved) (fun r _ => (told r).mono preserves grown) p
  | draw => exact told p
  | event _ => exact (told p).mono preserves grown

/-- As `Runs.step`, with the transaction that committed. -/
theorem Runs.committed_step (run : Runs catalogue sha256 Meets stock clock s)
    (next : State.Next store (system catalogue sha256) s t) :
    t.committed = s.committed ∨
      Committed.Step store (system catalogue sha256) s.committed t.committed := by
  have inv := (State.run_refines store_lawful system_supplies system_guarded initial_replayable
    (run.lift id fun _ _ step => step.1)).1
  obtain ⟨action, stepped⟩ := next
  exact (State.step_refines store_lawful system_supplies system_guarded inv stepped).2

theorem Runs.told (run : Runs catalogue sha256 Meets stock clock s) (p : P) :
    (s.session p).ctl.Told s.data s.env.service := by
  induction run generalizing p with
  | refl => trivial
  | @tail u t before last ih =>
    have before : Runs catalogue sha256 Meets stock clock u := before
    rcases before.committed_step last.1 with same | step
    · have told : ∀ p, (u.committed.ctl p).Told u.committed.data u.committed.env.service := ih
      rw [← same] at told
      exact told p
    · exact told_step step before.owned before.backed before.records ih p

end Worlds

end Canals
