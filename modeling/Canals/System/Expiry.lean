import Canals.System.Outcomes

/-! Whether a paid order can lose its stock. The reaper cancels an expired order
as never charged when it finds no payment or the provider answers 404; that is
right as long as no charge for the order can still be on its way. -/
namespace Canals
open Locking
open Provider (ChargeService Request Response Stored SameAt Faithful)

namespace Ctl

/-- The process may still send a charge for the order. -/
def MayCharge (o : Uuid) : Ctl → Prop
  | allocating allocation => allocation.draft.orderId = o
  | reserved saga | charging saga _ _ => saga.order.id = o
  | finding save | saving save _ => save.chargeResult = none ∧ save.saga.order.id = o
  | _ => False

/-- The rows a job still has to look at. -/
def tasks : Ctl → List Task
  | running tasks => tasks
  | asking task _ rest => task :: rest
  | resolving _ rest => rest
  | _ => []

/-- The reaper has it that the order was never charged: it has selected it
without a payment, been answered 404, or is about to cancel it. -/
def TakesAsUncharged (responses : List Response) (o : Uuid) (ctl : Ctl) : Prop :=
  .expired ⟨o, none⟩ ∈ ctl.tasks ∨
    match ctl with
    | asking (.expired row) exchange _ => row.id = o ∧ ∃ response ∈ responses,
      exchange.request = some response.request ∧ response.httpStatus = 404
    | resolving (.cancelUnpaid o' _ _) _ => o' = o
    | _ => False

end Ctl

/-- A charge for the order can still reach the provider, or waits there. -/
def ChargeOutstanding {P : Type} (a : World P) (o : Uuid) : Prop :=
  (∃ p, (a.ctl p).MayCharge o) ∨
    (∃ request ∈ a.env.network, request.Charges (chargeKey o)) ∨
    (a.env.service.pending.lookup (chargeKey o)).isSome

/-- Whenever the reaper has it that an order was never charged, no charge for it
is outstanding. -/
def ReapsOnlySettledCharges {P : Type} (_ b : World P) : Prop :=
  ∀ p o, (b.ctl p).TakesAsUncharged b.env.responses o → ¬ ChargeOutstanding b o

/-- The order was never charged and never will be. -/
structure NeverCharged {P : Type} (a : World P) (o : Uuid) : Prop where
  known : o ∈ a.env.ids
  unrecorded : a.env.service.records.lookup (chargeKey o) = none
  quiet : ¬ ChargeOutstanding a o

section Never
variable {P : Type} [DecidableEq P] {catalogue : Catalogue} {sha256 : String → String}
  {a b : World P} {d after : Db} {env env' : Env} {ctl ctl' : Ctl} {o : Uuid}

theorem Commits.mayCharge (commits : Commits d ctl after ctl') (alone : ctl.Alone d)
    (may : ctl'.MayCharge o) : ctl.MayCharge o := by
  cases commits with
  | reserve ran =>
    obtain ⟨-, createdAt, updatedAt, rfl⟩ := attemptCandidate_spec alone ran
    exact may
  | insert first _ => exact ⟨first, may⟩
  | _ => exact may.elim

theorem Rewinds.mayCharge (rewinds : Rewinds ctl ctl') (may : ctl'.MayCharge o) :
    ctl.MayCharge o := by
  cases rewinds with
  | retry => exact may
  | _ => exact may.elim

theorem Moves.mayCharge (moves : Moves d env ctl env' ctl') (known : o ∈ env.ids)
    (may : ctl'.MayCharge o) : ctl.MayCharge o := by
  cases moves with
  | start fresh mine => exact absurd known ((mine.symm.trans may) ▸ fresh)
  | pay _ => exact may.2
  | find | sendCharge _ | retryCharge _ _ => exact may
  | record => exact absurd may.1 nofun
  | _ => exact may.elim

/-- Only a process that may charge the order sends a charge for it. -/
theorem Moves.sends (moves : Moves d env ctl env' ctl') (backed : ctl.Backed d env.service) :
    env'.service = env.service ∧ ∀ request ∈ env'.network, request ∈ env.network ∨
      (request.Charges (chargeKey o) → ctl.MayCharge o) := by
  cases moves with
  | sendCharge _ =>
    refine ⟨rfl, fun request member => ?_⟩
    rcases List.mem_append.mp member with old | new
    · exact .inl old
    · refine .inr fun ⟨body, payload⟩ => ?_
      rw [List.mem_singleton.mp new] at payload
      obtain ⟨-, -, -, _, asks, -⟩ := backed
      exact chargeKey_inj (Provider.Payload.charge.inj (asks.symm.trans payload)).1
  | sendQuery _ =>
    refine ⟨rfl, fun request member => ?_⟩
    rcases List.mem_append.mp member with old | new
    · exact .inl old
    · refine .inr fun ⟨body, payload⟩ => ?_
      rw [List.mem_singleton.mp new] at payload
      cases backed.2.2.2.symm.trans payload
  | _ => exact ⟨rfl, fun _ => .inl⟩

/-- A key that no request charges and that is not pending stays as it is. -/
theorem Happens.sameAt {key : String} (happens : Happens sha256 env env')
    (uncharged : ∀ request ∈ env.network, ¬ request.Charges key)
    (idle : env.service.pending.lookup key = none) :
    env'.network ⊆ env.network ∧ SameAt key env.service env'.service := by
  cases happens with
  | tick => exact ⟨List.Subset.refl _, rfl, rfl⟩
  | @deliver request stamp member =>
    exact ⟨List.erase_subset, Provider.deliver_frame sha256 stamp (uncharged request member)⟩
  | @fire key' stamp service replies fired =>
    refine ⟨List.Subset.refl _, Provider.fire_frame fired ?_⟩
    rintro rfl
    obtain ⟨charge, found, -⟩ := Option.map_eq_some_iff.mp fired
    cases idle.symm.trans found
  | drop => exact ⟨List.erase_subset, rfl, rfl⟩

theorem goto_mayCharge {p q : P} (quiet : ¬ ctl.MayCharge o)
    (nobody : ∀ q, ¬ (a.ctl q).MayCharge o) : ¬ ((a.goto p ctl).ctl q).MayCharge o := by
  intro may
  by_cases same : q = p
  · subst same
    exact quiet (by simpa [Committed.goto] using may)
  · exact nobody q (by simpa [Committed.goto, same] using may)

theorem NeverCharged.step (never : NeverCharged a o) (does : Does sha256 a b)
    (owned : Owned a) (backed : Backed a) : NeverCharged b o := by
  obtain ⟨known, unrecorded, quiet⟩ := never
  simp only [ChargeOutstanding, not_or, not_exists, not_and] at quiet
  obtain ⟨nobody, unsent, idle⟩ := quiet
  cases does with
  | @commit p after ctl commits =>
    have quiet : ¬ ctl.MayCharge o := fun may => nobody p (commits.mayCharge (owned.alone p) may)
    refine ⟨known, unrecorded, ?_⟩
    rintro (⟨q, may⟩ | ⟨request, member, charges⟩ | pending)
    · exact goto_mayCharge quiet nobody may
    · exact unsent request member charges
    · exact idle pending
  | @rewind p ctl rewinds =>
    have quiet : ¬ ctl.MayCharge o := fun may => nobody p (rewinds.mayCharge may)
    refine ⟨known, unrecorded, ?_⟩
    rintro (⟨q, may⟩ | ⟨request, member, charges⟩ | pending)
    · exact goto_mayCharge quiet nobody may
    · exact unsent request member charges
    · exact idle pending
  | @move p env ctl moves =>
    obtain ⟨service, sends⟩ := moves.sends (o := o) (backed.ctl p)
    have quiet : ¬ ctl.MayCharge o := fun may => nobody p (moves.mayCharge known may)
    refine ⟨moves.ids_subset known, service ▸ unrecorded, ?_⟩
    rintro (⟨q, may⟩ | ⟨request, member, charges⟩ | pending)
    · exact goto_mayCharge quiet nobody may
    · rcases sends request member with old | new
      · exact unsent request old charges
      · exact nobody p (new charges)
    · exact idle (service ▸ pending)
  | happen happens =>
    have absent : a.env.service.pending.lookup (chargeKey o) = none := by simpa using idle
    obtain ⟨network, records, pending⟩ := happens.sameAt unsent absent
    have known' := happens.ids ▸ known
    refine ⟨known', records.trans unrecorded, ?_⟩
    rintro (⟨q, may⟩ | ⟨request, member, charges⟩ | still)
    · exact nobody q may
    · exact unsent request (network member) charges
    · rw [pending] at still
      exact idle still

end Never

/-- The orders a job still looks at exist. -/
def Ctl.Known (ids : List Uuid) (ctl : Ctl) : Prop :=
  ∀ row, .expired row ∈ ctl.tasks → row.id ∈ ids

/-- What the reaper takes as uncharged, and whatever is cancelled, is so for good. -/
structure Spared {P : Type} (a : World P) : Prop where
  known : ∀ p, (a.ctl p).Known a.env.ids
  sent : ∀ request ∈ a.env.network, request.number < a.env.requests
  answered : ∀ response ∈ a.env.responses, ∀ {key},
    response.request.payload = .getStatus key → response.request.number < a.env.requests
  never : ∀ {o}, a.data.HasStatus o .CANCELLED ∨
    (∃ p, (a.ctl p).TakesAsUncharged a.env.responses o) → NeverCharged a o

section Taking
variable {catalogue : Catalogue} {sha256 : String → String} {d after : Db} {env env' : Env}
  {ctl ctl' : Ctl} {o : Uuid} {responses : List Response} {task : Task}

theorem Commits.tasks (commits : Commits d ctl after ctl') : ctl'.tasks ⊆ ctl.tasks := by
  cases commits with
  | resolve _ => exact List.Subset.refl _
  | _ => exact List.nil_subset _

theorem Rewinds.tasks (rewinds : Rewinds ctl ctl') : ctl'.tasks ⊆ ctl.tasks := by
  cases rewinds with
  | resolving => exact List.Subset.refl _
  | _ => exact List.nil_subset _

theorem Moves.tasks (moves : Moves d env ctl env' ctl') (member : task ∈ ctl'.tasks) :
    task ∈ ctl.tasks ∨ task.Selected d := by
  cases moves with
  | select selected => exact .inr (selected task member)
  | sendQuery _ | retryQuery _ _ | ask _ => exact .inl member
  | decide _ _ | skip | cancel => exact .inl (List.mem_cons_of_mem _ member)
  | _ => cases member

theorem Commits.takes (commits : Commits d ctl after ctl')
    (takes : ctl'.TakesAsUncharged responses o) : ctl.TakesAsUncharged responses o := by
  rcases takes with listed | decided
  · exact .inl (commits.tasks listed)
  · cases commits <;> exact decided.elim

theorem Rewinds.takes (rewinds : Rewinds ctl ctl')
    (takes : ctl'.TakesAsUncharged responses o) : ctl.TakesAsUncharged responses o := by
  rcases takes with listed | decided
  · exact .inl (rewinds.tasks listed)
  · cases rewinds <;> exact decided.elim

/-- Only a 404, given to the reaper, leads to a cancellation. -/
theorem resolve_cancelUnpaid {chargeResult : ChargeResult} {reason : String}
    {payment : Option PaymentResolution}
    (resolved : task.resolve chargeResult = some (.cancelUnpaid o reason payment)) :
    ∃ row, task = .expired row ∧ row.id = o ∧ chargeResult.status = .FAILED := by
  unfold Task.resolve at resolved
  dsimp only at resolved
  split at resolved <;> cases resolved
  exact ⟨_, rfl, rfl, ‹_›⟩

/-- A move makes the reaper take an order as uncharged only by selecting it. -/
theorem Moves.takes (moves : Moves d env ctl env' ctl') (backed : ctl.Backed d env.service)
    (answered : ∀ response ∈ env.responses, ∀ {key},
      response.request.payload = .getStatus key → response.request.number < env.requests)
    (takes : ctl'.TakesAsUncharged env'.responses o) :
    ctl.TakesAsUncharged env.responses o ∨ (Task.expired ⟨o, none⟩).Selected d := by
  rcases takes with listed | decided
  · exact (moves.tasks listed).imp_left .inl
  refine .inl ?_
  cases moves with
  | @sendQuery task exchange rest _ =>
    cases task with
    | unsettled row => exact decided.elim
    | expired row =>
      -- the number is new, so no response can bear it yet
      obtain ⟨-, response, member, mine, -⟩ := decided
      have same : response.request = ⟨env.requests, exchange.payload⟩ := (Option.some.inj mine).symm
      have query : response.request.payload = .getStatus (chargeKey row.id) := by
        rw [same]
        exact backed.2.2.2
      have older := answered response member query
      rw [same] at older
      exact absurd older (Nat.lt_irrefl _)
  | @retryQuery task rest _ _ _ unsent =>
    cases task with
    | unsettled row => exact decided.elim
    | expired row =>
      obtain ⟨-, response, -, mine, -⟩ := decided
      cases unsent.symm.trans mine
  | @decide _ _ _ outcome call answers resolved =>
    cases call with
    | cancelUnpaid o' reason payment =>
      cases decided
      obtain ⟨row, rfl, rfl, failed⟩ := resolve_cancelUnpaid resolved
      cases answers with
      | failed => exact absurd failed (statusResultOf_error_ne_failed _)
      | @answered response garbled member mine =>
        exact .inr ⟨rfl, response, member, mine, statusResultOf_failed failed⟩
    | _ => exact decided.elim
  | cancel =>
    cases decided
    exact .inl (List.mem_cons_self ..)
  | @ask task rest _ _ _ =>
    cases task with
    | unsettled row => exact decided.elim
    | expired row =>
      obtain ⟨-, _, -, mine, -⟩ := decided
      cases mine
  | _ => exact decided.elim

/-- A 404 that arrives has found no record, and there is none behind it. -/
theorem Happens.takes (happens : Happens sha256 env env')
    (faithful : Faithful (Asked d) env.service)
    (network : ∀ request ∈ env.network, ∀ {key body}, request.payload = .charge key body →
      Asked d key body)
    (backed : ctl.Backed d env.service) (takes : ctl.TakesAsUncharged env'.responses o) :
    ctl.TakesAsUncharged env.responses o ∨
      env'.service.records.lookup (chargeKey o) = none ∧
        ∃ row, .expired row ∈ ctl.tasks ∧ row.id = o := by
  rcases takes with listed | decided
  · exact .inl (.inl listed)
  cases ctl with
  | resolving call rest =>
    cases call with
    | cancelUnpaid => exact .inl (.inr decided)
    | _ => exact decided.elim
  | asking task exchange rest =>
    cases task with
    | unsettled row => exact decided.elim
    | expired row =>
      obtain ⟨rfl, response, member, mine, missing⟩ := decided
      obtain ⟨-, -, sent, asks⟩ := backed
      have query : response.request.payload = .getStatus (chargeKey row.id) :=
        (sent _ mine).trans asks
      cases happens with
      | tick | drop => exact .inl (.inr ⟨rfl, response, member, mine, missing⟩)
      | @deliver request stamp sending =>
        rcases List.mem_append.mp member with old | new
        · exact .inl (.inr ⟨rfl, response, old, mine, missing⟩)
        · obtain ⟨-, -, answers⟩ :=
            Provider.deliver_spec sha256 request stamp faithful (network request sending)
          have asked := query
          rw [(answers response new).1] at asked
          simp only [Provider.deliver, asked, List.mem_singleton] at new ⊢
          rw [new] at missing
          exact .inr ⟨Provider.statusReply_missing missing, row, List.mem_cons_self .., rfl⟩
      | @fire key stamp service replies fired =>
        rcases List.mem_append.mp member with old | new
        · exact .inl (.inr ⟨rfl, response, old, mine, missing⟩)
        · obtain ⟨-, -, answers⟩ := Provider.fire_spec faithful fired
          obtain ⟨⟨body, charge⟩, -⟩ := answers response new
          cases query.symm.trans charge
  | _ => exact decided.elim

/-- Only the reaper, when it takes an order as uncharged, cancels one. -/
theorem Settled.cancelled {call : SettleCall} {result : SettlementResult}
    (settled : Settled call d after result) (cancelled : after.HasStatus o .CANCELLED) :
    d.HasStatus o .CANCELLED ∨ call.orderId = o ∧ call.target = .CANCELLED := by
  cases settled with
  | already _ _ _ same => exact .inl (same ▸ cancelled)
  | now _ _ _ _ done =>
    obtain ⟨row, found, is⟩ := cancelled
    obtain ⟨row', stored, target, -, -, -, others⟩ := done.settledRow
    by_cases mine : o = call.orderId
    · subst mine
      cases stored.symm.trans found
      exact .inr ⟨rfl, target.symm.trans is⟩
    · exact .inl ⟨row, (others o mine).symm.trans found, is⟩

theorem Commits.cancelled (commits : Commits d ctl after ctl') (alone : ctl.Alone d)
    (records : ctl.Records) (cancelled : after.HasStatus o .CANCELLED) :
    d.HasStatus o .CANCELLED ∨ ctl.TakesAsUncharged responses o := by
  cases commits with
  | @reserve allocation _ order ran =>
    obtain ⟨row, inserted, pending, -⟩ := (attemptCandidate_spec alone ran).1.order
    obtain ⟨row', found, is⟩ := cancelled
    rw [inserted] at found
    by_cases mine : o = allocation.draft.orderId
    · subst mine
      cases (AList.lookup_insert _).symm.trans found
      cases pending.symm.trans is
    · exact .inl ⟨row', (AList.lookup_insert_ne mine).symm.trans found, is⟩
  | insert _ saves | record _ _ saves | leave _ _ saves =>
    obtain ⟨row, found, is⟩ := cancelled
    exact .inl ⟨row, (saves.spec alone.1.1).1 ▸ found, is⟩
  | confirm _ settled | decline _ settled =>
    refine (settled.cancelled cancelled).imp_right fun settles => ?_
    exact absurd settles.2 (settlementOf_orderId records).2
  | @resolve call rest _ _ settled =>
    refine (settled.cancelled cancelled).imp_right fun settles => ?_
    cases call with
    | cancelUnpaid => exact .inr settles.1
    | _ => cases settles.2

end Taking

section Sparing
variable {P : Type} [DecidableEq P] {sha256 : String → String} {a b : World P} {o : Uuid}

theorem goto_takes {p q : P} {ctl : Ctl} {responses : List Response}
    (takes : ((a.goto p ctl).ctl q).TakesAsUncharged responses o) :
    ctl.TakesAsUncharged responses o ∨
      (a.ctl q).TakesAsUncharged responses o := by
  by_cases same : q = p
  · subst same
    exact .inl (by simpa [Committed.goto] using takes)
  · exact .inr (by simpa [Committed.goto, same] using takes)

omit [DecidableEq P] in
/-- An order selected without a payment has no charge stored. -/
theorem Backed.unrecorded (backed : Backed a) (selected : (Task.expired ⟨o, none⟩).Selected a.data) :
    a.env.service.records.lookup (chargeKey o) = none := by
  obtain ⟨-, -, -, unpaid⟩ := selected
  cases found : a.env.service.records.lookup (chargeKey o) with
  | none => rfl
  | some record =>
    obtain ⟨body, ⟨o', row, same, -, -, -, i, payment, paid, mine⟩, -⟩ :=
      backed.faithful.recorded found
    exact absurd (mine.trans (chargeKey_inj same).symm) (latestPayment_none unpaid.symm paid)

/-- What the reaper takes as uncharged after a step it took so before, or it does
so now and rightly: no charge is stored. -/
theorem takes_step (does : Does sha256 a b) (owned : Owned a) (backed : Backed a)
    (spared : Spared a) {p : P} (takes : (b.ctl p).TakesAsUncharged b.env.responses o) :
    (∃ p, (a.ctl p).TakesAsUncharged a.env.responses o) ∨
      o ∈ b.env.ids ∧ b.env.service.records.lookup (chargeKey o) = none := by
  cases does with
  | @commit q after ctl commits =>
    rcases goto_takes takes with mine | other
    · exact .inl ⟨_, commits.takes mine⟩
    · exact .inl ⟨_, other⟩
  | @rewind q ctl rewinds =>
    rcases goto_takes takes with mine | other
    · exact .inl ⟨_, rewinds.takes mine⟩
    · exact .inl ⟨_, other⟩
  | @move q env ctl moves =>
    obtain ⟨-, service, responses, -⟩ :=
      moves.backed (backed.ctl q) backed.payments backed.responses
    rcases goto_takes takes with mine | other
    · refine (moves.takes (backed.ctl q) spared.answered mine).imp (fun takes => ⟨_, takes⟩)
        fun selected => ⟨moves.ids_subset ?_, ?_⟩
      · obtain ⟨row, found, -⟩ := selected
        exact owned.orders found
      · exact service ▸ backed.unrecorded selected
    · exact .inl ⟨_, responses ▸ other⟩
  | happen happens =>
    refine (happens.takes backed.faithful backed.network (backed.ctl p) takes).imp
      (fun takes => ⟨_, takes⟩) ?_
    rintro ⟨absent, row, listed, rfl⟩
    exact ⟨happens.ids ▸ spared.known p row listed, absent⟩

/-- What is on the network or answered has been sent. -/
theorem Moves.numbered {d : Db} {env env' : Env} {ctl ctl' : Ctl}
    (moves : Moves d env ctl env' ctl')
    (sent : ∀ request ∈ env.network, request.number < env.requests) :
    env.requests ≤ env'.requests ∧ ∀ request ∈ env'.network, request.number < env'.requests := by
  have sends : ∀ exchange, ∀ request ∈ (env.send exchange).1.network,
      request.number < env.requests + 1 := by
    intro exchange request member
    rcases List.mem_append.mp member with old | new
    · exact Nat.lt_succ_of_lt (sent request old)
    · rw [List.mem_singleton.mp new]
      exact Nat.lt_succ_self _
  cases moves with
  | sendCharge _ | sendQuery _ => exact ⟨Nat.le_succ _, sends _⟩
  | _ => exact ⟨Nat.le_refl _, sent⟩

theorem Happens.numbered {d : Db} {env env' : Env} (happens : Happens sha256 env env')
    (faithful : Faithful (Asked d) env.service)
    (network : ∀ request ∈ env.network, ∀ {key body}, request.payload = .charge key body →
      Asked d key body)
    (sent : ∀ request ∈ env.network, request.number < env.requests)
    (answered : ∀ response ∈ env.responses, ∀ {key},
      response.request.payload = .getStatus key → response.request.number < env.requests) :
    (∀ request ∈ env'.network, request.number < env'.requests) ∧
      ∀ response ∈ env'.responses, ∀ {key},
        response.request.payload = .getStatus key → response.request.number < env'.requests := by
  cases happens with
  | tick => exact ⟨sent, answered⟩
  | drop => exact ⟨fun request member => sent request (List.mem_of_mem_erase member), answered⟩
  | @deliver request stamp sending =>
    refine ⟨fun request member => sent request (List.mem_of_mem_erase member), ?_⟩
    intro response member key query
    rcases List.mem_append.mp member with old | new
    · exact answered response old query
    · obtain ⟨-, -, answers⟩ :=
        Provider.deliver_spec sha256 request stamp faithful (network request sending)
      rw [(answers response new).1]
      exact sent request sending
  | @fire key stamp service replies fired =>
    refine ⟨sent, fun response member {key} query => ?_⟩
    rcases List.mem_append.mp member with old | new
    · exact answered response old query
    · obtain ⟨⟨body, charge⟩, -⟩ := (Provider.fire_spec faithful fired).2.2 response new
      cases query.symm.trans charge

theorem Spared.step (spared : Spared a) (owned : Owned a) (backed : Backed a)
    (records : ∀ p, (a.ctl p).Records) (does : Does sha256 a b)
    (settled : ReapsOnlySettledCharges a b) : Spared b := by
  have never : ∀ {o}, b.data.HasStatus o .CANCELLED ∨
      (∃ p, (b.ctl p).TakesAsUncharged b.env.responses o) → NeverCharged b o := by
    rintro o (cancelled | ⟨p, takes⟩)
    · refine (spared.never ?_).step does owned backed
      cases does with
      | @commit p _ _ commits =>
        exact (commits.cancelled (owned.alone p) (records p) cancelled).imp_right fun takes => ⟨p, takes⟩
      | rewind _ | move _ | happen _ => exact .inl cancelled
    · rcases takes_step does owned backed spared takes with before | ⟨known, unrecorded⟩
      · exact (spared.never (.inr before)).step does owned backed
      · exact ⟨known, unrecorded, settled p o takes⟩
  have known : ∀ p, (b.ctl p).Known b.env.ids := by
    cases does with
    | @commit p _ ctl commits =>
      have new : ctl.Known a.env.ids := fun row listed => spared.known p row (commits.tasks listed)
      exact Committed.forall_goto new fun q _ => spared.known q
    | @rewind p ctl rewinds =>
      have new : ctl.Known a.env.ids := fun row listed => spared.known p row (rewinds.tasks listed)
      exact Committed.forall_goto new fun q _ => spared.known q
    | @move p env ctl moves =>
      have new : ctl.Known env.ids := by
        intro row listed
        rcases moves.tasks listed with before | ⟨order, found, -⟩
        · exact moves.ids_subset (spared.known p row before)
        · exact moves.ids_subset (owned.orders found)
      exact Committed.forall_goto new fun q _ row listed =>
        moves.ids_subset (spared.known q row listed)
    | happen happens => exact fun p row listed => happens.ids ▸ spared.known p row listed
  cases does with
  | commit _ | rewind _ => exact ⟨known, spared.sent, spared.answered, never⟩
  | @move p env ctl moves =>
    obtain ⟨-, -, responses, -⟩ := moves.backed (backed.ctl p) backed.payments backed.responses
    obtain ⟨later, sent⟩ := moves.numbered spared.sent
    refine ⟨known, sent, fun response member key query => ?_, never⟩
    exact Nat.lt_of_lt_of_le (spared.answered response (responses ▸ member) query) later
  | happen happens =>
    obtain ⟨sent, answered⟩ :=
      happens.numbered backed.faithful backed.network spared.sent spared.answered
    exact ⟨known, sent, answered, never⟩

end Sparing

variable {P : Type} [DecidableEq P] {catalogue : Catalogue} {sha256 : String → String}
  {stock : Stock} {clock : Timestamptz} {s : Processes P}

theorem Runs.spared (run : Runs catalogue sha256 ReapsOnlySettledCharges stock clock s) :
    Spared s.committed := by
  refine run.invariant ⟨nofun, nofun, nofun, ?_⟩ fun before spared does settled =>
    spared.step before.owned before.backed before.records does settled
  rintro o (⟨row, found, -⟩ | ⟨p, listed | decided⟩)
  · cases found
  · cases listed
  · exact decided.elim

/-- The provider holds an approved charge for an order that has ended without a
sale and given its stock back. -/
structure ReturnsPaidStock (s : Processes P) (o : Uuid) : Prop where
  paid : ∃ record, s.env.service.records.lookup
    (buildChargeIdempotencyKey o FIRST_PAYMENT_ATTEMPT) = some record ∧ record.status = .approved
  ended : ∃ row, s.data.orders.lookup o = some row ∧
    (row.status = .CANCELLED ∨ row.status = .PAYMENT_FAILED)
  released : s.data.Released o

/-- In every run in which the reaper takes no order as uncharged while a charge
for it is outstanding, no paid order's stock is given back. -/
theorem paid_stock_kept (run : Runs catalogue sha256 ReapsOnlySettledCharges stock clock s)
    (o : Uuid) : ¬ ReturnsPaidStock s o := by
  rintro ⟨⟨record, charged, approved⟩, ⟨row, found, cancelled | failed⟩, -⟩
  · have never := run.spared.never (.inl ⟨row, found, cancelled⟩)
    cases never.unrecorded.symm.trans charged
  · obtain ⟨record', charged', declined⟩ := (run.backed.orders found).2 failed
    cases charged'.symm.trans charged
    cases declined.symm.trans approved

section Lamp

namespace Ctl

def isJob : Ctl → Bool
  | running _ | asking _ _ _ | resolving _ _ => true
  | _ => false

def isSaga : Ctl → Bool
  | idle => false
  | ctl => !ctl.isJob

theorem TakesAsUncharged.isJob {responses : List Response} {ctl : Ctl} {o : Uuid}
    (takes : ctl.TakesAsUncharged responses o) : ctl.isJob := by
  cases ctl with
  | running _ | asking _ _ _ | resolving _ _ => rfl
  | _ => exact takes.elim nofun False.elim

theorem MayCharge.isSaga {ctl : Ctl} {o : Uuid} (may : ctl.MayCharge o) : ctl.isSaga := by
  cases ctl with
  | allocating _ | reserved _ | finding _ | saving _ _ | charging _ _ _ => rfl
  | _ => exact may.elim

end Ctl

/-- No job runs, or nothing but jobs does and no charge is under way. -/
def lampQuiet (s : Processes Bool) : Bool :=
  [true, false].all (fun p => !(s.session p).ctl.isJob) ||
  [true, false].all (fun p => !(s.session p).ctl.isSaga) && s.env.network.isEmpty &&
    s.env.service.pending.entries.isEmpty

theorem lampQuiet_meets (s t : Processes Bool) (_ : lampQuiet s) (quiet : lampQuiet t) :
    ReapsOnlySettledCharges s.committed t.committed := by
  intro p o takes
  simp only [lampQuiet, Bool.or_eq_true, Bool.and_eq_true, List.all_eq_true] at quiet
  rcases quiet with jobless | ⟨⟨alone, unsent⟩, idle⟩
  · have job : (t.session p).ctl.isJob := takes.isJob
    simpa [job] using jobless p (by cases p <;> simp)
  · rintro (⟨q, may⟩ | ⟨request, member, -⟩ | pending)
    · have saga : (t.session q).ctl.isSaga := may.isSaga
      simpa [saga] using alone q (by cases q <;> simp)
    · rw [show t.committed.env.network = [] from List.isEmpty_iff.mp unsent] at member
      cases member
    · obtain ⟨charge, found⟩ := Option.isSome_iff_exists.mp pending
      have member := AList.mem_lookup_iff.mp found
      rw [show t.committed.env.service.pending.entries = [] from List.isEmpty_iff.mp idle] at member
      cases member

/-- The saga has crashed with its stock reserved, and the reaper gives it back. -/
def lampAbandoned : Processes Bool :=
  ((initial Bool lampStock ⟨1000000⟩).runWhile lampQuiet store
    (system lampCatalogue lampSha256) (lampReserve ++ [.crash true] ++ lampExpire)).get (by decide +kernel)

theorem paid_stock_kept_lamp :
    (lampAbandoned.data.orders.lookup "order").map (·.status) = some .CANCELLED ∧
      ¬ ReturnsPaidStock lampAbandoned "order" :=
  ⟨by decide +kernel, paid_stock_kept (State.reaches_of_runWhile lampQuiet_meets
    (by decide +kernel) (Option.some_get _).symm) "order"⟩

def lampReturned : Processes Bool :=
  ((initial Bool lampStock ⟨1000000⟩).run store
    (system lampCatalogue lampSha256)
    (lampReserve ++ lampExpire ++ lampPay ++ lampApprove.take 2)).get (by decide +kernel)

theorem lampReturned_isPlaced : (lampReturned.data.orders.lookup "order").isSome := by
  decide +kernel

theorem lampReturned_isCharged : (lampReturned.env.service.records.lookup lampKey).isSome := by
  decide +kernel

/-- The reaper cancels an order without a payments row while its saga stands
before that insert; the card is charged afterwards. -/
theorem paid_stock_returned :
    ¬ ∀ (catalogue : Catalogue) (sha256 : String → String) (stock : Stock) (clock : Timestamptz)
      (s : Processes Bool) (o : Uuid), Reachable catalogue sha256 stock clock s →
      ¬ ReturnsPaidStock s o := by
  intro claim
  refine claim lampCatalogue lampSha256 lampStock ⟨1000000⟩ lampReturned "order"
    (reachable_of_run (Option.some_get _).symm) ⟨?_, ?_, ?_⟩
  · exact ⟨_, (Option.some_get lampReturned_isCharged).symm, by decide +kernel⟩
  · exact ⟨_, (Option.some_get lampReturned_isPlaced).symm, by decide +kernel⟩
  · unfold Db.Released
    decide +kernel

end Lamp

end Canals
