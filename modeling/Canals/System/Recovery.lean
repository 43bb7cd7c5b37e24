import Canals.Locking.Restart
import Canals.System.Expiry
import Canals.System.Refusals

/-! No order stays pending for good. Whatever state sagas, jobs, crashes and lost messages have
led to: once the reservations have expired, a restart and the reaper alone settle every pending
order, each as the provider's records say, and give back all stock that is still reserved. -/
namespace Canals
open Locking Program
open Provider (ChargeService Request Response)

/-- What becomes of an order, by the provider's record of its charge. -/
def verdict (service : ChargeService) (o : Uuid) : OrderStatus :=
  match service.records.lookup (chargeKey o) with
  | some record => if record.status = .approved then .CONFIRMED else .PAYMENT_FAILED
  | none => .CANCELLED

/-- The steps of a recovery: anyone may be restarted, `p` runs the reaper, and the provider answers
its queries. Nobody else takes a step. -/
def Recovers {P : Type} (p : P) : Action DbError Move Event P → Prop
  | .crash _ => True
  | .event (.deliver request _) => ∃ key, request.payload = .getStatus key
  | .begin q | .exec q | .commit q => q = p
  | .move q .reap | .move q .next | .move q .send | .move q (.receive _ false) => q = p
  | _ => False

/-- Orders are settled as the provider's records say, or left alone; none are added. -/
structure Decides (service : ChargeService) (d after : Db) : Prop where
  rows : ∀ {o row}, d.orders.lookup o = some row → ∃ later, after.orders.lookup o = some later ∧
    row.Becomes later ∧ (later = row ∨ later.status = verdict service o)
  only : ∀ {o}, d.orders.lookup o = none → after.orders.lookup o = none

/-- The orders that are pending. -/
def Db.pending (d : Db) : Finset Uuid :=
  ((d.orders.entries.filter (·.2.status = .PENDING_PAYMENT)).map (·.1)).toFinset

/-- All pending orders have expired by the clock. -/
def Db.Expired (d : Db) (now : Timestamptz) : Prop :=
  ∀ o row, d.orders.lookup o = some row → row.status = .PENDING_PAYMENT →
    row.reservationExpiresAt.any fun expiresAt => expiresAt.us < now.us

instance (d : Db) (now : Timestamptz) : Decidable (d.Expired now) :=
  decidable_of_iff (∀ entry ∈ d.orders.entries, entry.2.status = .PENDING_PAYMENT →
      entry.2.reservationExpiresAt.any fun expiresAt => expiresAt.us < now.us)
    ⟨fun all _ _ found => all _ (AList.mem_lookup_iff.mp found),
      fun all _ member => all _ _ (AList.mem_lookup_iff.mpr member)⟩

section Orders
variable {service : ChargeService} {d mid after : Db} {o : Uuid} {row : OrderRow}

theorem verdict_ne_pending : verdict service o ≠ .PENDING_PAYMENT := by
  unfold verdict
  split
  · split <;> simp
  · simp

theorem Decides.refl (service : ChargeService) (d : Db) : Decides service d d :=
  ⟨fun found => ⟨_, found, .refl _, .inl rfl⟩, id⟩

theorem Decides.trans (first : Decides service d mid) (second : Decides service mid after) :
    Decides service d after := by
  refine ⟨fun found => ?_, fun absent => second.only (first.only absent)⟩
  obtain ⟨between, found', before, kept⟩ := first.rows found
  obtain ⟨later, found'', becomes, kept'⟩ := second.rows found'
  refine ⟨later, found'', before.trans becomes, ?_⟩
  rcases kept with rfl | settled
  · exact kept'
  · have closed : between.status ≠ .PENDING_PAYMENT := settled ▸ verdict_ne_pending
    rw [becomes.settled closed]
    exact .inr settled

theorem mem_pending : o ∈ d.pending ↔
    ∃ row, d.orders.lookup o = some row ∧ row.status = .PENDING_PAYMENT := by
  simp only [Db.pending, List.mem_toFinset, List.mem_map, List.mem_filter, decide_eq_true_eq]
  constructor
  · rintro ⟨entry, ⟨member, pending⟩, rfl⟩
    exact ⟨entry.2, AList.mem_lookup_iff.mpr member, pending⟩
  · rintro ⟨row, found, pending⟩
    exact ⟨⟨o, row⟩, ⟨AList.mem_lookup_iff.mp found, pending⟩, rfl⟩

/-- What is pending afterwards was pending before, and is as it was. -/
theorem Decides.pending_before (decides : Decides service d after)
    (stored : after.orders.lookup o = some row) (pending : row.status = .PENDING_PAYMENT) :
    d.orders.lookup o = some row := by
  cases before : d.orders.lookup o with
  | none => cases (decides.only before).symm.trans stored
  | some old =>
    obtain ⟨later, stored', -, kept⟩ := decides.rows before
    cases stored.symm.trans stored'
    rcases kept with rfl | settled
    · rfl
    · exact absurd (settled ▸ pending) verdict_ne_pending

theorem Decides.pending_subset (decides : Decides service d after) :
    after.pending ⊆ d.pending := by
  intro o member
  obtain ⟨row, found, pending⟩ := mem_pending.mp member
  exact mem_pending.mpr ⟨row, decides.pending_before found pending, pending⟩

theorem Decides.expired {now : Timestamptz} (decides : Decides service d after)
    (expired : d.Expired now) : after.Expired now := by
  intro o row stored pending
  exact expired o row (decides.pending_before stored pending) pending

/-- Without pending orders nothing is reserved. -/
theorem Consistent.unreserved {A₀ : Uuid × Uuid → Int} (books : Consistent A₀ d)
    (nothing : d.pending = ∅) {key : Uuid × Uuid} {b : Balance}
    (found : d.inventory.lookup key = some b) : b.reserved = 0 := by
  obtain ⟨-, reserved, -⟩ := books.balances key.1 key.2 b found
  have unplaced : ∀ o, ¬ d.placed o .PENDING_PAYMENT key.1 := by
    intro o placed
    obtain ⟨row, stored, here⟩ := (Option.any_eq_true _ _).mp placed
    have pending := mem_pending.mpr ⟨row, stored, (of_decide_eq_true here).1⟩
    rw [nothing] at pending
    cases pending
  rw [reserved, Db.quantityIn]
  simp [unplaced]

end Orders

/-- A row the reaper has selected: without a payment there is no charge. -/
def Task.Judged (service : ChargeService) (task : Task) : Prop :=
  ∃ row, task = .expired row ∧
    (row.payment = none → service.records.lookup (chargeKey row.id) = none)

section Queries
variable {service : ChargeService} {task : Task} {request : Request} {key : String}

theorem status_answered (service : ChargeService) (request : Request) (key : String) : ∃ response,
    toProviderResponse (Provider.statusReply service request key) false = .ok response := by
  unfold Provider.statusReply
  split <;> exact ⟨_, rfl⟩

theorem statusReply_request : (Provider.statusReply service request key).request = request := by
  unfold Provider.statusReply
  split <;> rfl

/-- What `getStatus` reads of a record. -/
theorem status_recorded (request : Request) {record : Provider.ChargeRecord}
    (found : service.records.lookup key = some record) :
    (statusResultOf (toProviderResponse (Provider.statusReply service request key) false)).status =
      if record.status = .approved then .CAPTURED else .DECLINED := by
  rw [Provider.statusReply, found]
  cases status : record.status <;>
    simp [statusResultOf, toProviderResponse, mapStatusResponse, readStringField,
      Provider.toChargeStatusResponse, status, Provider.ChargeStatus.text, List.lookup_cons]

/-- An answered query settles the order as the provider's records say. -/
theorem resolve_verdict (judged : task.Judged service) (request : Request) :
    ∃ call, task.resolve (statusResultOf (toProviderResponse
        (Provider.statusReply service request (chargeKey task.orderId)) false)) = some call ∧
      call.orderId = task.orderId ∧ call.target = verdict service task.orderId := by
  obtain ⟨row, rfl, -⟩ := judged
  change ∃ call, (Task.expired row).resolve (statusResultOf (toProviderResponse
    (Provider.statusReply service request (chargeKey row.id)) false)) = some call ∧
    call.orderId = row.id ∧ call.target = verdict service row.id
  cases found : service.records.lookup (chargeKey row.id) with
  | none =>
    rw [verdict, Provider.statusReply, found]
    exact ⟨_, rfl, rfl, rfl⟩
  | some record =>
    have status := status_recorded request found
    rw [verdict, found]
    cases approved : record.status with
    | approved =>
      simp only [approved, if_true] at status ⊢
      simp only [Task.resolve, status]
      exact ⟨_, rfl, rfl, rfl⟩
    | declined =>
      simp only [approved, reduceCtorEq, if_false] at status ⊢
      simp only [Task.resolve, status]
      exact ⟨_, rfl, rfl, rfl⟩

/-- A settlement that asks for the verdict decides. -/
theorem Settled.decides {call : SettleCall} {d after : Db} {result : SettlementResult}
    (settled : Settled call d after result) (just : call.target = verdict service call.orderId) :
    Decides service d after ∧ call.orderId ∉ after.pending := by
  refine ⟨⟨fun {o row} found => ?_, fun absent => ?_⟩, fun member => ?_⟩
  · obtain ⟨later, found', becomes⟩ := settled.preserves.orders found
    refine ⟨later, found', becomes, ?_⟩
    cases settled with
    | already _ _ _ same =>
      rw [same] at found'
      exact .inl (Option.some.inj (found'.symm.trans found))
    | now before createdAt stored _ done =>
      obtain ⟨row', inserted, target, -⟩ := done.order
      rw [inserted] at found'
      by_cases mine : o = call.orderId
      · subst mine
        cases (AList.lookup_insert _).symm.trans found'
        exact .inr (target.trans just)
      · rw [AList.lookup_insert_ne mine, found] at found'
        exact .inl (Option.some.inj found').symm
  · refine Option.eq_none_iff_forall_ne_some.mpr fun row stored => ?_
    obtain ⟨old, found, -⟩ := settled.origin stored
    cases absent.symm.trans found
  · obtain ⟨row, found, pending⟩ := mem_pending.mp member
    cases settled with
    | already before stored closed same =>
      rw [same] at found
      cases stored.symm.trans found
      exact closed pending
    | now before createdAt stored _ done =>
      obtain ⟨row', inserted, target, -⟩ := done.order
      rw [inserted] at found
      cases (AList.lookup_insert _).symm.trans found
      exact verdict_ne_pending (just.symm.trans (target.symm.trans pending))

/-- What the reaper selects is pending, and judged. -/
theorem judged_of_selected {P : Type} {a : World P} (backed : Backed a)
    {row : ExpiredReservationRow} (selected : (Task.expired row).Selected a.data) :
    (Task.expired row).Judged a.env.service ∧ row.id ∈ a.data.pending := by
  refine ⟨⟨row, rfl, fun unpaid => ?_⟩, ?_⟩
  · obtain ⟨o, payment⟩ := row
    cases unpaid
    exact backed.unrecorded selected
  · obtain ⟨order, stored, pending, -⟩ := selected
    exact mem_pending.mpr ⟨order, stored, pending⟩

end Queries

section Working
variable {P : Type} [DecidableEq P] {catalogue : Catalogue} {sha256 : String → String}
  {stock : Stock} {clock : Timestamptz} {s t u : Processes P} {p : P} {c c' : Ctl} {d : Db}
  {found : Env} {task : Task} {rest : List Task}

/-- `p` gets from one state to the other by steps of a recovery. -/
def Works (catalogue : Catalogue) (sha256 : String → String) (p : P) (s t : Processes P) : Prop :=
  ∃ actions, (∀ a ∈ actions, Recovers p a) ∧
    s.run store (system catalogue sha256) actions = some t

theorem Works.refl (s : Processes P) : Works catalogue sha256 p s s := ⟨[], by simp, rfl⟩

theorem Works.trans (first : Works catalogue sha256 p s t) (second : Works catalogue sha256 p t u) :
    Works catalogue sha256 p s u := by
  obtain ⟨actions, ok, ran⟩ := first
  obtain ⟨more, ok', ran'⟩ := second
  refine ⟨actions ++ more, List.forall_mem_append.mpr ⟨ok, ok'⟩, ?_⟩
  rw [State.run_append, ran]
  exact ran'

theorem Works.step {a : Action DbError Move Event P} (ok : Recovers p a)
    (stepped : s.step store (system catalogue sha256) a = some t) :
    Works catalogue sha256 p s t := by
  refine ⟨[a], by simpa using ok, ?_⟩
  rw [State.run, List.foldlM_cons, stepped]
  rfl

theorem Works.reachable (run : Reachable catalogue sha256 stock clock s)
    (works : Works catalogue sha256 p s t) : Reachable catalogue sha256 stock clock t := by
  obtain ⟨actions, -, ran⟩ := works
  exact run.trans ((State.reaches_of_run ran).lift id fun _ _ step => ⟨step, trivial⟩)

/-- In a reachable state where all is quiet, `p` stands at `c`; the provider's records and the
clock are those the recovery found. -/
structure Stands (catalogue : Catalogue) (sha256 : String → String) (stock : Stock)
    (clock : Timestamptz) (found : Env) (p : P) (c : Ctl) (d : Db) (s : Processes P) : Prop where
  run : Reachable catalogue sha256 stock clock s
  quiet : s.Quiet p
  ctl : (s.session p).ctl = c
  data : s.data = d
  service : s.env.service = found.service
  clock : s.env.clock = found.clock

theorem Stands.move (here : Stands catalogue sha256 stock clock found p c d s) {m : Move}
    {env : Env} (moved : c.move catalogue d (fun _ => false) s.env m = some (env, c'))
    (ok : Recovers p (.move p m))
    (same : env.service = s.env.service ∧ env.clock = s.env.clock) :
    ∃ t, Works catalogue sha256 p s t ∧
      Stands catalogue sha256 stock clock found p c' d t ∧ t.env = env := by
  have free : s.locked p = fun _ => false := by
    funext l
    rw [State.locked, here.quiet.locks]
    rfl
  have stepped : s.step store (system catalogue sha256) (.move p m) = some { s with
      env, session := Function.update s.session p { ctl := c' } } := by
    have moved : (system catalogue sha256).move s.data (s.locked p) s.env (s.session p).ctl m =
        some (env, c') := by
      rw [free, here.ctl, here.data]
      exact moved
    simp only [State.step, here.quiet.closed, moved, Option.map_some]
  have works := Works.step ok stepped
  exact ⟨_, works, ⟨works.reachable here.run, ⟨here.quiet.locks, by simp⟩, by simp, here.data,
    same.1.trans here.service, same.2.trans here.clock⟩, rfl⟩

theorem Stands.event (here : Stands catalogue sha256 stock clock found p c d s) {e : Event}
    {env : Env} (happened : s.env.event sha256 e = some env) (ok : Recovers p (.event e))
    (same : env.service = s.env.service ∧ env.clock = s.env.clock) :
    ∃ t, Works catalogue sha256 p s t ∧
      Stands catalogue sha256 stock clock found p c d t ∧ t.env = env := by
  have stepped : s.step store (system catalogue sha256) (.event e) = some { s with env } := by
    simp only [State.step, show (system catalogue sha256).event s.env e = some env from happened,
      Option.map_some]
  have works := Works.step ok stepped
  exact ⟨_, works, ⟨works.reachable here.run, ⟨here.quiet.locks, here.quiet.closed⟩, here.ctl,
    here.data, same.1.trans here.service, same.2.trans here.clock⟩, rfl⟩

theorem draws_same {env env' : Env} (draws : (system catalogue sha256).Draws env env') :
    env'.service = env.service ∧ env'.clock = env.clock := by
  induction draws with
  | done => exact ⟨rfl, rfl⟩
  | next _ ih => exact ih

/-- A query is sent, delivered and answered, and its answer read. -/
theorem Stands.ask (judged : task.Judged found.service)
    (here : Stands catalogue sha256 stock clock found p
      (.asking task { payload := .getStatus (chargeKey task.orderId) } rest) d s) :
    ∃ t call, Works catalogue sha256 p s t ∧
      Stands catalogue sha256 stock clock found p (.resolving call rest) d t ∧
      call.orderId = task.orderId ∧ call.target = verdict found.service task.orderId := by
  let exchange : Exchange := { payload := .getStatus (chargeKey task.orderId) }
  let request : Request := ⟨s.env.requests, exchange.payload⟩
  let reply := Provider.statusReply found.service request (chargeKey task.orderId)
  have send : Ctl.move catalogue d (fun _ => false) s.env (.asking task exchange rest) .send =
      some ((s.env.send exchange).1,
        .asking task { exchange with request := some request } rest) := rfl
  obtain ⟨t, sent, there, same⟩ := here.move send rfl ⟨rfl, rfl⟩
  have waiting : request ∈ t.env.network := by
    rw [same]
    exact List.mem_append_right _ List.mem_cons_self
  have deliver : t.env.event sha256 (.deliver request ⟨"", ""⟩) = some { t.env with
      network := t.env.network.erase request
      responses := t.env.responses ++ [reply] } := by
    simp only [Env.event, if_pos waiting, Provider.deliver, request, exchange]
    rw [there.service]
  obtain ⟨u, delivered, near, same'⟩ := there.event deliver ⟨_, rfl⟩ ⟨rfl, rfl⟩
  obtain ⟨call, resolved, mine, just⟩ := resolve_verdict judged request
  have last : u.env.responses[t.env.responses.length]? = some reply := by
    rw [same']
    exact List.getElem?_concat_length
  have receive : Ctl.move catalogue d (fun _ => false) u.env
      (.asking task { exchange with request := some request } rest)
      (.receive t.env.responses.length false) = some (u.env, .resolving call rest) := by
    obtain ⟨response, answered⟩ := status_answered found.service request (chargeKey task.orderId)
    rw [answered] at resolved
    have asked : some request = some reply.request := congrArg some statusReply_request.symm
    simp only [Ctl.move, last, Ctl.exchange]
    rw [if_pos asked]
    simp only [reply, answered, Exchange.attempted, Ctl.resume, resolved]
  obtain ⟨v, read, back, -⟩ := near.move receive rfl ⟨rfl, rfl⟩
  exact ⟨v, call, (sent.trans delivered).trans read, back, mine, just⟩

/-- The settlement of a stored order is carried out. -/
theorem Stands.settle {call : SettleCall} (room : ∀ key, stock.units key ≤ 2147483647)
    (here : Stands catalogue sha256 stock clock found p (.resolving call rest) d s) :
    ∃ t after result, Works catalogue sha256 p s t ∧
      Stands catalogue sha256 stock clock found p (.running rest) after t ∧
      Settled call d after result := by
  have ready := here.run.ready
  have books : Consistent stock.units d := here.data ▸ here.run.consistent
  have body : (system catalogue sha256).body (s.session p).ctl = some (do
      let _ ← call.run
      return .running rest) := by
    rw [here.ctl]
    rfl
  have known : (d.orders.lookup call.orderId).isSome := by
    have aimed := ready.aimed p call.orderId
    rw [show s.committed.ctl p = .resolving call rest from here.ctl] at aimed
    exact here.data ▸ aimed List.mem_cons_self
  obtain ⟨row, stored⟩ := Option.isSome_iff_exists.mp known
  have valid : row.Valid := ready.valid (here.data ▸ stored)
  have resolves := resolves_bind (call_resolves books room stored valid) fun mid _ _ =>
    resolves_pure (E := Thrown) (Ctl.running rest) mid
  obtain ⟨n, t, ran, quiet, completes, draws⟩ := here.run.replayable.finishes system_supplies
    here.quiet body (by rw [here.data]; exact resolves)
  have works : Works catalogue sha256 p s t := by
    refine ⟨_, fun a member => ?_, ran⟩
    rcases List.mem_append.mp member with opening | last
    · rcases List.mem_cons.mp opening with rfl | statement
      · rfl
      · rw [List.eq_of_mem_replicate statement]
        rfl
    · rw [List.mem_singleton.mp last]
      rfl
  rw [here.data] at completes
  obtain ⟨mid, result, settled, same, ctl⟩ := completes_bind.mp completes
  have kept := draws_same draws
  exact ⟨t, t.data, result, works, ⟨works.reachable here.run, quiet, ctl, rfl,
    kept.1.trans here.service, kept.2.trans here.clock⟩, settled_of_completes (same ▸ settled)⟩

/-- The head of the reaper's loop leads to the settlement that the provider's records ask for. -/
theorem Stands.next (judged : task.Judged found.service)
    (here : Stands catalogue sha256 stock clock found p (.running (task :: rest)) d s) :
    ∃ t call, Works catalogue sha256 p s t ∧
      Stands catalogue sha256 stock clock found p (.resolving call rest) d t ∧
      call.orderId = task.orderId ∧ call.target = verdict found.service task.orderId := by
  have keyed := here.run.backed.ctl p
  rw [show s.committed.ctl p = .running (task :: rest) from here.ctl] at keyed
  have keyed : task.Keyed := keyed task List.mem_cons_self
  have next : Ctl.move catalogue d (fun _ => false) s.env (.running (task :: rest)) .next =
      some (s.env, Ctl.next task rest) := rfl
  obtain ⟨t, works, there, -⟩ := here.move next rfl ⟨rfl, rfl⟩
  cases paid : task.payment with
  | none =>
    rw [Ctl.next, paid] at there
    refine ⟨t, _, works, there, rfl, ?_⟩
    obtain ⟨row, rfl, unpaid⟩ := judged
    have absent : found.service.records.lookup (chargeKey (Task.expired row).orderId) = none :=
      unpaid paid
    rw [verdict, absent]
    rfl
  | some payment =>
    rw [Ctl.next, paid] at there
    dsimp only at there
    rw [keyed payment.1 payment.2 paid] at there
    obtain ⟨u, call, works', near, mine, just⟩ := there.ask judged
    exact ⟨u, call, works.trans works', near, mine, just⟩

/-- One turn of the reaper's loop settles its row. -/
theorem Stands.turn (room : ∀ key, stock.units key ≤ 2147483647)
    (judged : task.Judged found.service)
    (here : Stands catalogue sha256 stock clock found p (.running (task :: rest)) d s) :
    ∃ t after, Works catalogue sha256 p s t ∧
      Stands catalogue sha256 stock clock found p (.running rest) after t ∧
      Decides found.service d after ∧ task.orderId ∉ after.pending := by
  obtain ⟨t, call, works, there, mine, just⟩ := here.next judged
  obtain ⟨u, after, result, works', near, settled⟩ := there.settle room
  obtain ⟨decides, closed⟩ := settled.decides (just.trans (congrArg _ mine.symm))
  exact ⟨u, after, works.trans works', near, decides, mine ▸ closed⟩

/-- A run of the reaper settles every row it has selected. -/
theorem Stands.turns (room : ∀ key, stock.units key ≤ 2147483647) {tasks : List Task}
    (judged : ∀ task ∈ tasks, task.Judged found.service)
    (here : Stands catalogue sha256 stock clock found p (.running tasks) d s) :
    ∃ t after, Works catalogue sha256 p s t ∧
      Stands catalogue sha256 stock clock found p .idle after t ∧
      Decides found.service d after ∧ ∀ task ∈ tasks, task.orderId ∉ after.pending := by
  induction tasks generalizing d s with
  | nil =>
    have next : Ctl.move catalogue d (fun _ => false) s.env (.running []) .next =
        some (s.env, .idle) := rfl
    obtain ⟨t, works, there, -⟩ := here.move next rfl ⟨rfl, rfl⟩
    exact ⟨t, d, works, there, .refl _ d, by simp⟩
  | cons task rest ih =>
    obtain ⟨t, mid, works, there, decides, closed⟩ := here.turn room (judged _ List.mem_cons_self)
    obtain ⟨u, after, works', near, decides', others⟩ :=
      ih (fun task member => judged task (List.mem_cons_of_mem _ member)) there
    refine ⟨u, after, works.trans works', near, decides.trans decides', fun other member => ?_⟩
    rcases List.mem_cons.mp member with rfl | later
    · exact fun pending => closed (decides'.pending_subset pending)
    · exact others other later

/-- Where there is an expired reservation, the reaper selects one. -/
theorem selectExpiredReservations_ne_nil {now : Timestamptz} {o : Uuid} {row : OrderRow}
    (stored : d.orders.lookup o = some row) (pending : row.status = .PENDING_PAYMENT)
    (expired : row.reservationExpiresAt.any fun expiresAt => expiresAt.us < now.us) :
    d.selectExpiredReservations (fun _ => false) now ≠ [] := by
  intro nothing
  rw [Db.selectExpiredReservations] at nothing
  have none_sorted := (List.take_eq_nil_iff.mp (List.map_eq_nil_iff.mp nothing)).resolve_left
    (by decide)
  have none_due := List.Perm.nil_eq (none_sorted ▸ List.perm_insertionSort _ _)
  have due := List.filter_eq_nil_iff.mp none_due.symm ⟨o, row⟩ (AList.mem_lookup_iff.mp stored)
  simp [pending, expired] at due

/-- Runs of the reaper, one after the other, settle all that has expired. -/
theorem Stands.reaps (room : ∀ key, stock.units key ≤ 2147483647) (expired : d.Expired found.clock)
    (here : Stands catalogue sha256 stock clock found p .idle d s) :
    ∃ t after, Works catalogue sha256 p s t ∧
      Stands catalogue sha256 stock clock found p .idle after t ∧
      Decides found.service d after ∧ after.pending = ∅ := by
  induction size : d.pending.card using Nat.strongRecOn generalizing d s with
  | ind n ih =>
    by_cases done : d.pending = ∅
    · exact ⟨s, d, .refl s, here, .refl _ d, done⟩
    · obtain ⟨o, member⟩ := Finset.nonempty_iff_ne_empty.mpr done
      obtain ⟨row, stored, pending⟩ := mem_pending.mp member
      have some_due := selectExpiredReservations_ne_nil stored pending (expired _ _ stored pending)
      obtain ⟨first, chosen⟩ := List.exists_mem_of_ne_nil _ some_due
      have reap : Ctl.move catalogue d (fun _ => false) s.env .idle .reap = some (s.env, .running
          ((d.selectExpiredReservations (fun _ => false) s.env.clock).map .expired)) := rfl
      obtain ⟨t, works, there, -⟩ := here.move reap rfl ⟨rfl, rfl⟩
      rw [here.clock] at there
      have judged : ∀ row ∈ d.selectExpiredReservations (fun _ => false) found.clock,
          (Task.expired row).Judged found.service ∧ row.id ∈ d.pending := by
        intro row chosen
        have selected := selectExpiredReservations_selected chosen
        rw [← here.service, ← here.data]
        exact judged_of_selected here.run.backed (by rw [← here.data] at selected; exact selected)
      obtain ⟨u, mid, works', near, decides, closed⟩ := there.turns room fun task listed => by
        obtain ⟨row, chosen, rfl⟩ := List.mem_map.mp listed
        exact (judged row chosen).1
      have fewer : mid.pending ⊂ d.pending := by
        refine ⟨decides.pending_subset, fun all => ?_⟩
        exact closed _ (List.mem_map_of_mem chosen) (all (judged first chosen).2)
      obtain ⟨v, after, works'', back, decides', nothing⟩ :=
        ih _ (size ▸ Finset.card_lt_card fewer) (decides.expired expired) near rfl
      exact ⟨v, after, (works.trans works').trans works'', back, decides.trans decides', nothing⟩

/-- Once the reservations have expired, restarts and the reaper of any one process `p` lead on from
every reachable state to one without pending orders. Each order that was pending is then as the
provider's records say, no other order has changed, none is added, and no stock is reserved. -/
theorem recovers (run : Reachable catalogue sha256 stock clock s)
    (room : ∀ key, stock.units key ≤ 2147483647) (expired : s.data.Expired s.env.clock) (p : P) :
    ∃ actions t, (∀ a ∈ actions, Recovers p a) ∧
      s.run store (system catalogue sha256) actions = some t ∧
      (∀ o row, s.data.orders.lookup o = some row → ∃ later, t.data.orders.lookup o = some later ∧
        row.Becomes later ∧
        (row.status = .PENDING_PAYMENT → later.status = verdict s.env.service o)) ∧
      (∀ o, s.data.orders.lookup o = none → t.data.orders.lookup o = none) ∧
      t.data.pending = ∅ ∧ ∀ key b, t.data.inventory.lookup key = some b → b.reserved = 0 := by
  obtain ⟨t, crashed, data, env, quiet, c, idle⟩ :=
    s.quiet_of_crashes (S := store) (C := system catalogue sha256) p
  have restart : Works catalogue sha256 p s t := by
    refine ⟨_, fun a member => ?_, crashed⟩
    obtain ⟨q, -, rfl⟩ := List.mem_map.mp member
    trivial
  have stands : Stands catalogue sha256 stock clock s.env p .idle s.data t :=
    ⟨restart.reachable run, quiet, idle, data, by rw [env], by rw [env]⟩
  obtain ⟨u, after, works, there, decides, nothing⟩ := stands.reaps room expired
  obtain ⟨actions, ok, ran⟩ := restart.trans works
  cases there.data
  refine ⟨actions, u, ok, ran, fun o row found => ?_, fun o absent => decides.only absent, nothing,
    fun key b stored => there.run.consistent.unreserved nothing stored⟩
  obtain ⟨later, found', becomes, kept⟩ := decides.rows found
  refine ⟨later, found', becomes, fun pending => kept.resolve_left ?_⟩
  rintro rfl
  have still := mem_pending.mpr ⟨later, found', pending⟩
  rw [nothing] at still
  cases still

end Working

section Lamp

/-- The charge for the two lamps is approved, but its answer was never read in time. -/
def lampOverdue : Processes Bool :=
  ((initial Bool lampStock ⟨1000000⟩).run store (system lampCatalogue lampSha256)
    (lampReserve ++ lampPay ++ lampApprove ++ [.event (.tick ⟨1000000000⟩)])).get
    (by decide +kernel)

theorem lampOverdue_reachable :
    Reachable lampCatalogue lampSha256 lampStock ⟨1000000⟩ lampOverdue :=
  reachable_of_run (Option.some_get _).symm

theorem recovers_lamp : "order" ∈ lampOverdue.data.pending ∧
    verdict lampOverdue.env.service "order" = .CONFIRMED ∧
    ∃ actions t, (∀ a ∈ actions, Recovers false a) ∧
      lampOverdue.run store (system lampCatalogue lampSha256) actions = some t ∧
      (∀ o row, lampOverdue.data.orders.lookup o = some row →
        ∃ later, t.data.orders.lookup o = some later ∧ row.Becomes later ∧
          (row.status = .PENDING_PAYMENT → later.status = verdict lampOverdue.env.service o)) ∧
      (∀ o, lampOverdue.data.orders.lookup o = none → t.data.orders.lookup o = none) ∧
      t.data.pending = ∅ ∧ ∀ key b, t.data.inventory.lookup key = some b → b.reserved = 0 :=
  ⟨by decide +kernel, by decide +kernel,
    recovers lampOverdue_reachable lampStock_room (by decide +kernel) false⟩

end Lamp

end Canals
