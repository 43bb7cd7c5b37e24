import Canals.System.Ownership

/-! Which order a process works on: the one its saga drew, until it is idle again. A
process takes up an order by `createOrder` only, and inserts no other. -/
namespace Canals
open Locking

def Ctl.orderId : Ctl → Option Uuid
  | allocating allocation => some allocation.draft.orderId
  | finding save | saving save _ => some save.saga.order.id
  | reserved saga | charging saga _ _ | charged saga _ _ | settling saga _ _ | finished saga _ =>
    some saga.order.id
  | _ => none

section Steps
variable {d after : Db} {env env' : Env} {ctl ctl' : Ctl} {o : Uuid} {row : OrderRow}

theorem Commits.orderId (commits : Commits d ctl after ctl') (alone : ctl.Alone d)
    (works : ctl'.orderId = some o) : ctl.orderId = some o := by
  cases commits with
  | reserve ran =>
    obtain ⟨-, createdAt, updatedAt, rfl⟩ := attemptCandidate_spec alone ran
    exact works
  | resolve _ => cases works
  | _ => exact works

theorem Commits.newOrder (commits : Commits d ctl after ctl') (alone : ctl.Alone d)
    (absent : d.orders.lookup o = none) (stored : after.orders.lookup o = some row) :
    ctl.orderId = some o := by
  have settled : ∀ {call : SettleCall} {result : SettlementResult},
      Settled call d after result → False := by
    intro call result settled
    have evolves : Evolves [] d after := settled.evolves
    cases (evolves.newOrders absent List.not_mem_nil).symm.trans stored
  have saved : ∀ {save : PaymentSave} {found}, save.payment.Mine d →
      Saves save.payment d found after → False := by
    intro save found own saves
    rw [(saves.spec own).1, absent] at stored
    cases stored
  cases commits with
  | @reserve allocation _ _ ran =>
    obtain ⟨done, -⟩ := attemptCandidate_spec alone ran
    have evolves := done.evolves alone
    by_contra other
    have apart : o ∉ [allocation.draft.orderId] := fun member =>
      other (congrArg some (List.mem_singleton.mp member).symm)
    cases (evolves.newOrders absent apart).symm.trans stored
  | insert _ saves | record _ _ saves | leave _ _ saves => exact (saved alone.1.1 saves).elim
  | confirm _ done | decline _ done | resolve done => exact (settled done).elim

theorem Rewinds.orderId (rewinds : Rewinds ctl ctl') (works : ctl'.orderId = some o) :
    ctl.orderId = some o := by
  cases rewinds with
  | crash | refuse | resolving => cases works
  | _ => exact works

theorem Moves.orderId (moves : Moves d env ctl env' ctl') (busy : ctl ≠ .idle)
    (works : ctl'.orderId = some o) : ctl.orderId = some o := by
  cases moves with
  | start _ _ | refuse _ | select _ => exact absurd rfl busy
  | sendQuery _ | retryQuery _ _ | decide _ _ | skip | cancel | ask _ | idle => cases works
  | _ => exact works

/-- A job selects its tasks, and names no order of its own. -/
theorem idle_move {catalogue : Catalogue} {locked : Lock → Bool} {m : Move}
    (moved : Ctl.idle.move catalogue d locked env m = some (env', ctl')) :
    (∃ command geocoded orderNumber candidates orderId,
      m = .createOrder command geocoded orderNumber candidates orderId) ∨
    ((m = .reap ∨ m = .reconcile) ∧ ctl'.orderId = none) := by
  cases m with
  | createOrder command geocoded orderNumber candidates orderId => exact .inl ⟨_, _, _, _, _, rfl⟩
  | reap | reconcile =>
    cases moved
    exact .inr ⟨by simp, rfl⟩
  | _ => cases moved

theorem createOrder_draws {catalogue : Catalogue} {locked : Lock → Bool}
    {command : CreateOrderCommand} {geocoded : Geocoded} {orderNumber : String}
    {candidates : List Uuid} {orderId : Uuid} (moved : ctl.move catalogue d locked env
      (.createOrder command geocoded orderNumber candidates orderId) = some (env', ctl')) :
    orderId ∉ env.ids ∧ env'.ids = orderId :: env.ids := by
  cases ctl with
  | idle =>
    obtain ⟨drawn, made, same⟩ := Option.map_eq_some_iff.mp moved
    cases same
    obtain ⟨fresh, rfl⟩ := draw_eq made
    exact ⟨fresh, rfl⟩
  | running tasks => cases tasks <;> cases moved
  | _ => cases moved

theorem startAllocation_orderId {catalogue : Catalogue} {command : CreateOrderCommand}
    {geocoded : Geocoded} {orderNumber : String} {candidates : List Uuid}
    {orderId : Uuid} (works : (startAllocation catalogue command geocoded orderNumber candidates
      orderId).orderId = some o) : o = orderId := by
  unfold startAllocation at works
  split at works
  · cases works
  · rename_i draft made
    simp only [Bind.bind, Except.bind] at made
    split at made <;> try contradiction
    cases draftOrder_orderId made
    split at works
    · cases works
    · exact (Option.some.inj works).symm

end Steps

section Worlds
variable {P : Type} [DecidableEq P] {sha256 : String → String} {a b : World P} {p q : P}
  {o : Uuid} {ctl : Ctl}

theorem goto_orderId (mine : a.ctl q ≠ .idle → ctl.orderId = some o → (a.ctl q).orderId = some o)
    (busy : a.ctl p ≠ .idle) (works : ((a.goto q ctl).ctl p).orderId = some o) :
    (a.ctl p).orderId = some o := by
  by_cases own : p = q
  · subst own
    exact mine busy (by simpa [Committed.goto] using works)
  · simpa [Committed.goto, own] using works

/-- What is under way goes on with its own order. -/
theorem Does.orderId (does : Does sha256 a b) (owned : Owned a) (busy : a.ctl p ≠ .idle)
    (works : (b.ctl p).orderId = some o) : (a.ctl p).orderId = some o := by
  cases does with
  | commit commits => exact goto_orderId (fun _ => commits.orderId (owned.alone _)) busy works
  | rewind rewinds => exact goto_orderId (fun _ => rewinds.orderId) busy works
  | move moves => exact goto_orderId moves.orderId busy works
  | happen _ => exact works

theorem Does.ids_subset (does : Does sha256 a b) : a.env.ids ⊆ b.env.ids := by
  cases does with
  | commit _ | rewind _ => exact List.Subset.refl _
  | move moves => exact moves.ids_subset
  | happen happens => exact fun _ member => happens.ids ▸ member

/-- A new row is the order some process works on. -/
theorem Does.newOrder (does : Does sha256 a b) (owned : Owned a) {row : OrderRow}
    (absent : a.data.orders.lookup o = none) (stored : b.data.orders.lookup o = some row) :
    ∃ p, (a.ctl p).orderId = some o := by
  cases does with
  | commit commits => exact ⟨_, commits.newOrder (owned.alone _) absent stored⟩
  | rewind _ | move _ | happen _ => cases absent.symm.trans stored

end Worlds

section Runs
variable {P : Type} [DecidableEq P] {catalogue : Catalogue} {sha256 : String → String}
  {stock : Stock} {clock : Timestamptz} {s t : Processes P} {p : P} {o : Uuid}
  {a : Locking.Action DbError Move Event P}

/-- An idle process is put to work by a move of its own only. -/
theorem Runs.taken_up (run : Reachable catalogue sha256 stock clock s)
    (stepped : s.step store (system catalogue sha256) a = some t)
    (idle : (s.session p).ctl = .idle) (busy : (t.session p).ctl ≠ .idle) :
    ∃ m env, a = .move p m ∧ Ctl.idle.move catalogue s.data (s.locked p) s.env m =
      some (env, (t.session p).ctl) := by
  have mine : a.process = some p := by
    by_contra other
    exact busy (State.step_session stepped other ▸ idle)
  have closed : (s.session p).tx = none := by
    cases open_ : (s.session p).tx with
    | none => rfl
    | some tx =>
      have inv := (State.run_refines store_lawful system_supplies system_guarded
        initial_replayable (run.lift id fun _ _ step => step.1)).1
      obtain ⟨prog, -, body, -⟩ := inv.replays p tx open_
      rw [show ((id s).session p).ctl = .idle from idle] at body
      cases body
  cases a with
  | event e => cases mine
  | begin q => 
    cases mine
    simp [State.step, closed, idle, system, Ctl.body] at stepped
  | exec q | fault q x | rollback q | commit q =>
    cases mine
    simp [State.step, closed] at stepped
  | crash q =>
    cases mine
    cases stepped
    simp [State.close, system] at busy
  | move q m =>
    cases mine
    simp only [State.step, closed] at stepped
    obtain ⟨⟨env, ctl⟩, moved, rfl⟩ := Option.map_eq_some_iff.mp stepped
    refine ⟨m, env, rfl, ?_⟩
    simp only [Function.update_self]
    exact idle ▸ moved

/-- A process works on what it has worked on before, or on an order it just drew. -/
theorem Runs.works (run : Reachable catalogue sha256 stock clock s)
    (stepped : s.step store (system catalogue sha256) a = some t)
    (works : (t.session p).ctl.orderId = some o) : (s.session p).ctl.orderId = some o ∨
      ∃ command geocoded orderNumber candidates,
        a = .move p (.createOrder command geocoded orderNumber candidates o) := by
  have busy : (t.session p).ctl ≠ .idle := by
    intro idle
    rw [idle] at works
    cases works
  by_cases idle : (s.session p).ctl = .idle
  · obtain ⟨m, env, rfl, moved⟩ := run.taken_up stepped idle busy
    rcases idle_move moved with
      ⟨command, geocoded, orderNumber, candidates, orderId, rfl⟩ | ⟨-, none_⟩
    · obtain ⟨drawn, -, same⟩ := Option.map_eq_some_iff.mp moved
      rw [Prod.mk.injEq] at same
      rw [← same.2] at works
      obtain rfl := startAllocation_orderId works
      exact .inr ⟨command, geocoded, orderNumber, candidates, rfl⟩
    · cases none_.symm.trans works
  · refine .inl ?_
    have next : State.Next store (system catalogue sha256) s t := ⟨a, stepped⟩
    rcases run.step next with same | does
    · have still : (t.session p).ctl = (s.session p).ctl := congrArg (fun a => a.ctl p) same
      rwa [still] at works
    · exact does.orderId run.owned idle works

end Runs

end Canals
