import Canals.Locking.Observed
import Canals.System.Charges
import Canals.System.Failover

/-! How often the provider is asked to charge. The requests under the key of an order come from
the one saga that owns the order, at most `MAX_ATTEMPTS` of them, all with the same body: a crash,
a job or another process never asks again. -/
namespace Canals
open Locking
open Provider (Payload ChargeRequestBody)

/-- The payload is a charge under the key. -/
def chargesUnder (key : String) : Payload → Bool
  | .charge key' _ => key' = key
  | .getStatus _ => false

/-- What a move sends to the provider. -/
def Ctl.sends (ctl : Ctl) : Move → List Payload
  | .send => ((ctl.exchange.filter (·.request.isNone)).map (·.payload)).toList
  | _ => []

def sends {P : Type} (s : Processes P) : Action DbError Move Event P → List Payload
  | .move p m => (s.session p).ctl.sends m
  | _ => []

/-- The charges a move asks for under the key of an order. -/
def Ctl.asks (ctl : Ctl) (m : Move) (o : Uuid) : List Payload :=
  (ctl.sends m).filter (chargesUnder (chargeKey o))

/-- Before its charge the owner of an order has asked nothing; while it is charging, each attempt
before the current one has asked at most once, and so has the current one once it has sent. -/
def Ctl.Within (o : Uuid) (asked : List Payload) : Ctl → Prop
  | allocating allocation => allocation.draft.orderId = o → asked = []
  | reserved saga => saga.order.id = o → asked = []
  | finding save | saving save _ =>
    save.saga.order.id = o → save.chargeResult = none → asked = []
  | charging saga _ exchange => saga.order.id = o → exchange.attempt ≤ MAX_ATTEMPTS ∧
    asked.length + (if exchange.request.isNone then 1 else 0) ≤ exchange.attempt ∧
    ∀ payload ∈ asked, payload = exchange.payload
  | _ => True

/-- The charges asked for under the key of an order so far. -/
structure Sparing {P : Type} (o : Uuid) (asked : List Payload) (a : World P) : Prop where
  fresh : o ∉ a.env.ids → asked = []
  ctl : ∀ p, (a.ctl p).Within o asked
  few : asked.length ≤ MAX_ATTEMPTS
  same : ∀ payload ∈ asked, ∀ other ∈ asked, payload = other
  placed : ∀ payload ∈ asked, ∃ body, payload = .charge (chargeKey o) body ∧
    Asked a.data (chargeKey o) body

section Controls
variable {d after : Db} {env env' : Env} {ctl ctl' : Ctl} {o : Uuid} {asked more : List Payload}
  {catalogue : Catalogue} {locked : Lock → Bool} {m : Move} {service : Provider.ChargeService}

theorem Ctl.Within.of_append (within : ctl.Within o (asked ++ more)) : ctl.Within o asked := by
  cases ctl with
  | allocating _ | reserved _ => exact fun mine => (List.append_eq_nil_iff.mp (within mine)).1
  | finding _ | saving _ _ =>
    exact fun mine first => (List.append_eq_nil_iff.mp (within mine first)).1
  | charging saga payment exchange =>
    intro mine
    obtain ⟨most, count, same⟩ := within mine
    rw [List.length_append] at count
    exact ⟨most, by omega, fun payload member => same payload (List.mem_append_left _ member)⟩
  | _ => trivial

/-- Whoever does not own the order has no part in its charge. -/
theorem Ctl.Within.of_not_owns (other : o ∉ ctl.owns) : ctl.Within o asked := by
  cases ctl with
  | allocating _ | reserved _ => exact fun mine => (other (by simp [Ctl.owns, mine])).elim
  | finding _ | saving _ _ => exact fun mine => (other (by simp [Ctl.owns, mine])).elim
  | charging _ _ _ => exact fun mine => (other (by simp [Ctl.owns, mine])).elim
  | _ => trivial

/-- An exchange asks when its request is due and charges under the key. -/
theorem asks_send {exchange : Exchange} (under : ctl.exchange = some exchange) :
    ctl.asks .send o =
      if exchange.request.isNone ∧ chargesUnder (chargeKey o) exchange.payload
      then [exchange.payload] else [] := by
  cases unsent : exchange.request.isNone <;>
    cases mine : chargesUnder (chargeKey o) exchange.payload <;>
    simp [Ctl.asks, Ctl.sends, under, Option.filter_some, unsent, mine]

/-- Only the saga that is charging the order asks for a charge. -/
theorem Ctl.Backed.asks (backed : ctl.Backed d service) (some_asked : ctl.asks m o ≠ []) :
    ∃ saga payment exchange body, ctl = .charging saga payment exchange ∧ saga.order.id = o ∧
      exchange.request.isNone ∧ ctl.asks m o = [exchange.payload] ∧
      exchange.payload = .charge (chargeKey o) body ∧ Asked d (chargeKey o) body := by
  cases m with
  | send =>
    cases ctl with
    | charging saga payment exchange =>
      obtain ⟨-, -, -, body, payload, placed⟩ := backed
      rw [asks_send rfl] at some_asked ⊢
      obtain ⟨unsent, mine⟩ := not_imp_comm.mp (if_neg ·) some_asked
      rw [payload] at mine
      cases chargeKey_inj (of_decide_eq_true mine)
      refine ⟨saga, payment, exchange, body, rfl, rfl, unsent, ?_, payload, placed⟩
      rw [if_pos ⟨unsent, payload ▸ mine⟩]
    | asking task exchange rest =>
      obtain ⟨-, -, -, payload⟩ := backed
      rw [asks_send rfl, payload] at some_asked
      exact (some_asked (if_neg fun due => Bool.false_ne_true due.2)).elim
    | _ => exact (some_asked rfl).elim
  | _ => exact (some_asked rfl).elim

theorem Commits.within (commits : Commits d ctl after ctl') (alone : ctl.Alone d)
    (within : ctl.Within o asked) : ctl'.Within o asked := by
  cases commits with
  | reserve ran =>
    obtain ⟨-, _, _, rfl⟩ := attemptCandidate_spec alone ran
    exact within
  | insert first _ =>
    intro mine
    rw [within mine first]
    exact ⟨show 1 ≤ 3 by decide, le_refl 1, by simp⟩
  | _ => trivial

theorem Rewinds.within (rewinds : Rewinds ctl ctl') (within : ctl.Within o asked) :
    ctl'.Within o asked := by
  cases rewinds with
  | retry => exact within
  | _ => trivial

/-- Attempts are counted: a further one is due when the last has sent its request and failed. -/
theorem within_attempted {saga : Saga} {payment : PaymentOrmEntity} {exchange : Exchange}
    {outcome : Except AttemptError ProviderResponse}
    (within : (Ctl.charging saga payment exchange).Within o asked)
    (sent : ∀ e, outcome = .error e → isRetryable e → exchange.request.isSome) :
    ((Ctl.charging saga payment exchange).resume (exchange.attempted outcome)).Within o asked := by
  unfold Exchange.attempted
  split
  · trivial
  · split
    · trivial
    · rename_i e goes
      intro mine
      obtain ⟨most, count, same⟩ := within mine
      obtain ⟨again, retried⟩ := not_or.mp goes
      have sent := sent e rfl (not_not.mp retried)
      rw [if_neg (by simpa [Option.isSome_iff_ne_none] using sent)] at count
      exact ⟨Nat.lt_of_le_of_ne most again, by simpa using count, same⟩

theorem within_charging {saga : Saga} {payment : PaymentOrmEntity} {exchange : Exchange}
    (moved : (Ctl.charging saga payment exchange).move catalogue d locked env m =
      some (env', ctl'))
    (within : (Ctl.charging saga payment exchange).Within o asked)
    (key : saga.order.id = o → ∃ body, exchange.payload = .charge (chargeKey o) body) :
    ctl'.Within o (asked ++ (Ctl.charging saga payment exchange).asks m o) := by
  cases m with
  | send =>
    simp only [Ctl.move, Ctl.exchange] at moved
    split at moved <;> try contradiction
    rename_i unsent
    cases moved
    intro mine
    obtain ⟨most, count, same⟩ := within mine
    obtain ⟨body, payload⟩ := key mine
    have asks : (Ctl.charging saga payment exchange).asks .send o = [exchange.payload] := by
      rw [asks_send rfl, if_pos ⟨unsent, by simp [payload, chargesUnder]⟩]
    rw [asks]
    rw [if_pos unsent] at count
    refine ⟨most, by simpa [Env.send] using count, fun other member => ?_⟩
    rcases List.mem_append.mp member with old | new
    · exact same other old
    · exact List.mem_singleton.mp new
  | receive position garbled =>
    rw [show (Ctl.charging saga payment exchange).asks (.receive position garbled) o = [] from rfl,
      List.append_nil]
    simp only [Ctl.move, Ctl.exchange] at moved
    split at moved <;> try contradiction
    rename_i under _
    cases under
    split at moved <;> try contradiction
    rename_i sent
    cases moved
    refine within_attempted within fun _ _ _ => ?_
    rw [sent]
    rfl
  | abandon e =>
    rw [show (Ctl.charging saga payment exchange).asks (.abandon e) o = [] from rfl,
      List.append_nil]
    simp only [Ctl.move, Ctl.exchange] at moved
    split at moved <;> try contradiction
    rename_i struck
    cases moved
    refine within_attempted within fun thrown same retryable => ?_
    cases same
    cases request : exchange.request with
    | some request => rfl
    | none =>
      cases struck.mpr (by rw [request]; rfl)
      cases retryable
  | _ => cases moved

/-- A move asks for what is due, and an order that is drawn is fresh. -/
theorem within_move (moved : ctl.move catalogue d locked env m = some (env', ctl'))
    (backed : ctl.Backed d service) (fresh : o ∉ env.ids → asked = [])
    (within : ctl.Within o asked) : ctl'.Within o (asked ++ ctl.asks m o) := by
  by_cases charges : ∃ saga payment exchange, ctl = .charging saga payment exchange
  · obtain ⟨saga, payment, exchange, rfl⟩ := charges
    refine within_charging moved within fun mine => ?_
    obtain ⟨-, -, -, body, payload, -⟩ := backed
    exact ⟨body, mine ▸ payload⟩
  · have nothing : ctl.asks m o = [] := by
      by_contra some_asked
      obtain ⟨saga, payment, exchange, -, same, -⟩ := backed.asks some_asked
      exact charges ⟨saga, payment, exchange, same⟩
    rw [nothing, List.append_nil]
    cases moves_of_move moved with
    | start unused mine => exact fun same => fresh (mine.symm.trans same ▸ unused)
    | pay _ => exact fun mine _ => within mine
    | find => exact within
    | record => exact fun _ first => by cases first
    | sendCharge _ | retryCharge _ _ => exact (charges ⟨_, _, _, rfl⟩).elim
    | _ => trivial

end Controls

section Worlds
variable {P : Type} [DecidableEq P] {catalogue : Catalogue} {sha256 : String → String}
  {stock : Stock} {clock : Timestamptz} {a b : World P} {s t : Processes P} {o : Uuid}
  {asked more : List Payload}

omit [DecidableEq P] in
theorem Sparing.of_append (sparing : Sparing o (asked ++ more) a) : Sparing o asked a where
  fresh unused := (List.append_eq_nil_iff.mp (sparing.fresh unused)).1
  ctl p := (sparing.ctl p).of_append
  few := le_trans (by simp) sparing.few
  same payload here other there :=
    sparing.same payload (List.mem_append_left _ here) other (List.mem_append_left _ there)
  placed payload here := sparing.placed payload (List.mem_append_left _ here)

theorem Sparing.goto (sparing : Sparing o asked a) {p : P} {ctl : Ctl}
    (within : ctl.Within o asked) : Sparing o asked (a.goto p ctl) :=
  ⟨sparing.fresh, Committed.forall_goto within fun q _ => sparing.ctl q, sparing.few, sparing.same,
    sparing.placed⟩

omit [DecidableEq P] in
theorem Sparing.env (sparing : Sparing o asked a) {env : Env} (ids : a.env.ids ⊆ env.ids) :
    Sparing o asked { a with env } :=
  ⟨fun unused => sparing.fresh fun known => unused (ids known), sparing.ctl, sparing.few,
    sparing.same, sparing.placed⟩

/-- The step of a process, with the charge it asks for. -/
theorem Sparing.move (sparing : Sparing o asked a) (owned : Owned a) (backed : Backed a) {p : P}
    {m : Move} {locked : Lock → Bool} {env : Env} {ctl : Ctl}
    (moved : (a.ctl p).move catalogue a.data locked a.env m = some (env, ctl)) :
    Sparing o (asked ++ (a.ctl p).asks m o) { a.goto p ctl with env } := by
  have within := within_move moved (backed.ctl p) sparing.fresh (sparing.ctl p)
  have ids : a.env.ids ⊆ env.ids := (moves_of_move moved).ids_subset
  by_cases quiet : (a.ctl p).asks m o = []
  · rw [quiet, List.append_nil] at within ⊢
    exact (sparing.goto within).env ids
  · obtain ⟨saga, payment, exchange, body, here, mine, unsent, asks, payload, placed⟩ :=
      (backed.ctl p).asks quiet
    have owns : o ∈ (a.ctl p).owns := by simp [here, Ctl.owns, mine]
    have due := sparing.ctl p
    rw [here] at due
    obtain ⟨most, count, same⟩ := due mine
    rw [if_pos unsent] at count
    rw [asks] at within ⊢
    have all : ∀ other ∈ asked ++ [exchange.payload], other = exchange.payload := by
      intro other member
      rcases List.mem_append.mp member with old | new
      · exact same other old
      · exact List.mem_singleton.mp new
    refine ⟨fun unused => (unused (ids (owned.drawn p o owns))).elim,
      Committed.forall_goto within fun q other => .of_not_owns fun theirs =>
        other (owned.exclusive q p o theirs owns), ?_,
      fun one here other there => (all one here).trans (all other there).symm,
      fun one here => ⟨body, (all one here).trans payload, placed⟩⟩
    rw [List.length_append]
    exact le_trans count most

theorem Sparing.does (sparing : Sparing o asked a) (owned : Owned a) (backed : Backed a)
    (step : Committed.Step store (system catalogue sha256) a b) : Sparing o asked b := by
  cases step with
  | @commit p prog after c body ran =>
    have commits := commits_of_body body ran
    obtain ⟨evolves, -⟩ := commits.owned (owned.alone p)
    have moved := sparing.goto (p := p) (commits.within (owned.alone p) (sparing.ctl p))
    refine ⟨moved.fresh, moved.ctl, moved.few, moved.same, fun payload member => ?_⟩
    obtain ⟨body, same, placed⟩ := sparing.placed payload member
    exact ⟨body, same, placed.evolves evolves⟩
  | @fail p prog e body raised =>
    exact sparing.goto ((rewinds_of_body body e).within (sparing.ctl p))
  | @crash p => exact sparing.goto (Rewinds.crash.within (sparing.ctl p))
  | move moved => exact (sparing.move owned backed moved).of_append
  | draw => exact sparing.env (List.Subset.refl _)
  | event happened =>
    apply sparing.env
    rw [(happens_of_event happened).ids]
    exact List.Subset.refl _

theorem Sparing.step (run : Reachable catalogue sha256 stock clock s)
    (sparing : Sparing o asked s.committed) {action : Action DbError Move Event P}
    (stepped : s.step store (system catalogue sha256) action = some t) :
    Sparing o (asked ++ (sends s action).filter (chargesUnder (chargeKey o))) t.committed := by
  by_cases moves : ∃ p m, action = .move p m
  · obtain ⟨p, m, rfl⟩ := moves
    simp only [State.step] at stepped
    split at stepped <;> try contradiction
    obtain ⟨⟨env, c⟩, moved, rfl⟩ := Option.map_eq_some_iff.mp stepped
    rw [State.committed_update]
    exact sparing.move run.owned run.backed moved
  · have silent : sends s action = [] := by
      cases action with
      | move p m => exact (moves ⟨p, m, rfl⟩).elim
      | _ => rfl
    rw [silent, List.filter_nil, List.append_nil]
    rcases (State.step_refines store_lawful system_supplies system_guarded run.replayable
      stepped).2 with same | step
    · exact same ▸ sparing
    · exact sparing.does run.owned run.backed step

/-- Over a whole run from the start, with any crashes, jobs, lost messages and other orders in
between, the provider is asked at most `MAX_ATTEMPTS` times to charge an order. All requests are
alike, and ask for what the stored order totals to. -/
theorem charges_bounded {actions : List (Action DbError Move Event P)}
    (ran : (initial P stock clock).run store (system catalogue sha256) actions = some s)
    (o : Uuid) : ∃ n ≤ MAX_ATTEMPTS, ∃ body,
      ((State.noted store (system catalogue sha256) sends (initial P stock clock) actions).filter
        (chargesUnder (chargeKey o))) = List.replicate n (.charge (chargeKey o) body) ∧
      (0 < n → ∃ row, s.data.orders.lookup o = some row ∧ body.amountCents = row.totalCents ∧
        body.currency = row.currency) := by
  obtain ⟨-, sparing⟩ : Reachable catalogue sha256 stock clock s ∧ Sparing o
      (([] ++ State.noted store (system catalogue sha256) sends (initial P stock clock)
        actions).filter (chargesUnder (chargeKey o))) s.committed := by
    refine State.noted_run (I := fun seen u => Reachable catalogue sha256 stock clock u ∧
      Sparing o (seen.filter (chargesUnder (chargeKey o))) u.committed) ran ⟨.refl, ?_⟩ ?_
    · exact ⟨fun _ => rfl, fun _ => trivial, Nat.zero_le _, by simp, by simp⟩
    · intro seen u a v kept stepped
      obtain ⟨run, sparing⟩ := kept
      refine ⟨run.tail ⟨⟨a, stepped⟩, trivial⟩, ?_⟩
      rw [List.filter_append]
      exact sparing.step run stepped
  rw [List.nil_append] at sparing
  revert sparing
  generalize (State.noted store (system catalogue sha256) sends (initial P stock clock)
    actions).filter (chargesUnder (chargeKey o)) = asked
  intro sparing
  cases asked with
  | nil => exact ⟨0, by decide, ⟨"", 0, "", ""⟩, rfl, by simp⟩
  | cons first rest =>
    obtain ⟨body, same, placed⟩ := sparing.placed first List.mem_cons_self
    refine ⟨(first :: rest).length, sparing.few, body, List.eq_replicate_iff.mpr ⟨rfl, ?_⟩, ?_⟩
    · intro payload member
      exact (sparing.same payload member first List.mem_cons_self).trans same
    · intro _
      obtain ⟨o', row, key, stored, amount, currency, -⟩ := placed
      cases chargeKey_inj key
      exact ⟨row, stored, amount, currency⟩

end Worlds

section Lamp

/-- The charge for the two lamps times out three times, and the process is restarted. -/
def lampTimeouts : List LampAction :=
  lampReserve ++ lampPay ++ [.move true (.abandon .timeout), .move true .send,
    .move true (.abandon .timeout), .move true .send, .move true (.abandon .timeout), .crash true]

def lampUnanswered : Processes Bool :=
  ((initial Bool lampStock ⟨1000000⟩).run store (system lampCatalogue lampSha256)
    lampTimeouts).get (by decide +kernel)

/-- The bound is reached. -/
theorem charges_bounded_lamp :
    (State.noted store (system lampCatalogue lampSha256) sends
      (initial Bool lampStock ⟨1000000⟩) lampTimeouts).length = MAX_ATTEMPTS ∧
    ∃ n ≤ MAX_ATTEMPTS, ∃ body,
      ((State.noted store (system lampCatalogue lampSha256) sends
        (initial Bool lampStock ⟨1000000⟩) lampTimeouts).filter
        (chargesUnder (chargeKey "order"))) = List.replicate n (.charge (chargeKey "order") body) ∧
      (0 < n → ∃ row, lampUnanswered.data.orders.lookup "order" = some row ∧
        body.amountCents = row.totalCents ∧ body.currency = row.currency) :=
  ⟨by decide +kernel, charges_bounded (Option.some_get _).symm "order"⟩

end Lamp

end Canals
