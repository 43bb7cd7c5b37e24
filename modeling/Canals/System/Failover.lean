import Canals.System.Ledger

/-! `AllocateInventoryUseCase.execute`, watched through a run. The candidates are
tried in order, each in a transaction of its own; what the process itself changes
is the one attempt that commits, whatever the others do in between. -/
namespace Canals
open Locking

/-- A transaction of the failover loop and how it ended. -/
structure Attempt where
  candidate : Uuid
  outcome : Except Thrown Order

/-- A step of the process itself: what was committed before and after it, and the
attempt it ended, if it ended one. -/
structure OwnStep where
  before : Db
  after : Db
  attempt : Option Attempt

def attempts (history : List OwnStep) : List Attempt := history.filterMap (·.attempt)

/-- The failed attempts of the loop and the ids they reported, together. -/
structure Lacked (attempts : List Attempt) (unmetProductIds : List Uuid) : Prop where
  failed : ∀ attempt ∈ attempts, ∃ productIds,
    attempt.outcome = .error (.insufficientStock productIds)
  distinct : unmetProductIds.Nodup
  union : ∀ productId, productId ∈ unmetProductIds ↔ ∃ attempt ∈ attempts, ∃ productIds,
    attempt.outcome = .error (.insufficientStock productIds) ∧ productId ∈ productIds

/-- Where `execute` stands after some attempts. -/
inductive Stage (command : CreateOrderCommand) (draft : Draft) (candidates : List Uuid) :
    List Attempt → Ctl → Prop
  | empty : candidates = [] → Stage command draft candidates []
      (.refused (.noFulfilmentPossible (command.lines.map (·.productId)) .NO_CANDIDATES))
  | trying {tried candidate rest unmetProductIds} : Lacked tried unmetProductIds →
      candidates = tried.map (·.candidate) ++ candidate :: rest →
      Stage command draft candidates tried
        (.allocating { command, draft, candidate, rest, unmetProductIds })
  | returned {tried candidate rest unmetProductIds order} : Lacked tried unmetProductIds →
      candidates = tried.map (·.candidate) ++ candidate :: rest →
      Stage command draft candidates (tried ++ [⟨candidate, .ok order⟩])
        (.reserved ⟨command, order⟩)
  | lost {tried unmetProductIds} : Lacked tried unmetProductIds → candidates ≠ [] →
      candidates = tried.map (·.candidate) → Stage command draft candidates tried
        (.refused (.noFulfilmentPossible unmetProductIds .RESERVATION_RACE_LOST))
  | thrown {tried candidate rest unmetProductIds e} : Lacked tried unmetProductIds →
      candidates = tried.map (·.candidate) ++ candidate :: rest →
      (∀ productIds, e ≠ .insufficientStock productIds) →
      Stage command draft candidates (tried ++ [⟨candidate, .error e⟩]) (.refused (.thrown e))

section Loop
variable {command : CreateOrderCommand} {draft : Draft} {candidates : List Uuid}

theorem mem_addAll {ids more : List Uuid} {id : Uuid} :
    id ∈ addAll ids more ↔ id ∈ ids ∨ id ∈ more := by
  induction more generalizing ids with
  | nil => simp [addAll]
  | cons head more ih =>
    have unfolded : addAll ids (head :: more) =
        addAll (if head ∈ ids then ids else ids ++ [head]) more := rfl
    rw [unfolded, ih, List.mem_cons]
    split
    · rename_i known
      constructor
      · exact Or.imp_right .inr
      · rintro (old | rfl | new)
        · exact .inl old
        · exact .inl known
        · exact .inr new
    · rw [List.mem_append, List.mem_singleton, or_assoc]

theorem nodup_addAll {ids more : List Uuid} (distinct : ids.Nodup) : (addAll ids more).Nodup := by
  induction more generalizing ids with
  | nil => exact distinct
  | cons head more ih =>
    show (addAll (if head ∈ ids then ids else ids ++ [head]) more).Nodup
    refine ih ?_
    split
    · exact distinct
    · rename_i fresh
      simpa using distinct.concat fresh

theorem Lacked.add {tried : List Attempt} {unmetProductIds productIds : List Uuid}
    (lacked : Lacked tried unmetProductIds) (candidate : Uuid) :
    Lacked (tried ++ [⟨candidate, .error (.insufficientStock productIds)⟩])
      (addAll unmetProductIds productIds) where
  failed attempt member := by
    rcases List.mem_append.mp member with before | last
    · exact lacked.failed attempt before
    · rw [List.mem_singleton.mp last]
      exact ⟨productIds, rfl⟩
  distinct := nodup_addAll lacked.distinct
  union productId := by
    rw [mem_addAll, lacked.union]
    constructor
    · rintro (⟨attempt, before, reported⟩ | new)
      · exact ⟨attempt, List.mem_append_left _ before, reported⟩
      · exact ⟨_, List.mem_append_right _ (List.mem_singleton_self _), productIds, rfl, new⟩
    · rintro ⟨attempt, member, reported, failed, inside⟩
      rcases List.mem_append.mp member with before | last
      · exact .inl ⟨attempt, before, reported, failed, inside⟩
      · rw [List.mem_singleton.mp last] at failed
        cases failed
        exact .inr inside

/-- The loop's head. -/
theorem Stage.start (candidates : List Uuid) {catalogue : Catalogue} {products : List Product}
    {geocoded : Geocoded} {orderNumber : String}
    (resolved : resolveCustomerAndProducts catalogue command = .ok products)
    (drafted : draftOrder command products geocoded orderNumber draft.orderId = .ok draft) :
    Stage command draft candidates []
      (startAllocation catalogue command geocoded orderNumber candidates draft.orderId) := by
  have none_tried : Lacked [] [] := ⟨by simp, by simp, by simp⟩
  simp only [startAllocation, resolved, bind, Except.bind, drafted]
  cases candidates with
  | nil => exact .empty rfl
  | cons candidate rest => exact .trying none_tried rfl

/-- What a failed attempt leads to. -/
theorem Stage.failed {tried : List Attempt} {allocation : Allocation}
    (stage : Stage command draft candidates tried (.allocating allocation)) (e : Thrown) :
    Stage command draft candidates (tried ++ [⟨allocation.candidate, .error e⟩])
      (allocation.failed e) := by
  cases stage with
  | @trying _ candidate rest unmetProductIds lacked order =>
    unfold Allocation.failed
    split
    · rename_i productIds
      cases rest with
      | nil => exact .lost (lacked.add candidate) (by simp [order]) (by simpa using order)
      | cons next rest => exact .trying (lacked.add candidate) (by simpa using order)
    · rename_i other
      exact .thrown lacked order other

/-- What a committed attempt leads to. -/
theorem Stage.committed {tried : List Attempt} {allocation : Allocation}
    (stage : Stage command draft candidates tried (.allocating allocation)) (order : Order) :
    Stage command draft candidates (tried ++ [⟨allocation.candidate, .ok order⟩])
      (.reserved ⟨allocation.command, order⟩) := by
  cases stage with
  | trying lacked order => exact .returned lacked order

end Loop

section Watched
variable {P : Type} [DecidableEq P]

/-- The attempt that an action ends in a session. -/
def endedAttempt (session : Session Sql Sql.Result DbError Thrown Write Ctl)
    (action : Action DbError Move Event P) : Option Attempt :=
  match session.ctl, session.tx, action with
  | .allocating allocation, some ⟨.exec _ onFault _, _⟩, .fault _ e =>
    some ⟨allocation.candidate, .error (onFault e)⟩
  | .allocating allocation, some ⟨.throw e, _⟩, .rollback _ =>
    some ⟨allocation.candidate, .error e⟩
  | .allocating allocation, some ⟨.pure (.reserved saga), _⟩, .commit _ =>
    some ⟨allocation.candidate, .ok saga.order⟩
  | _, _, _ => none

/-- `execute`, called by `p` in `s` for this draft and these candidates, up to the
moment it returns or throws; the others do what they like meanwhile. -/
inductive Executing (catalogue : Catalogue) (sha256 : String → String) (p : P)
    (command : CreateOrderCommand) (draft : Draft) (candidates : List Uuid) (s : Processes P) :
    List OwnStep → Processes P → Prop
  | call {products geocoded orderNumber t} :
      resolveCustomerAndProducts catalogue command = .ok products →
      draftOrder command products geocoded orderNumber draft.orderId = .ok draft →
      s.step store (system catalogue sha256)
        (.move p (.createOrder command geocoded orderNumber candidates draft.orderId)) = some t →
      Executing catalogue sha256 p command draft candidates s [] t
  | own {history t u action allocation} :
      Executing catalogue sha256 p command draft candidates s history t →
      (t.session p).ctl = .allocating allocation → action.process = some p → action ≠ .crash p →
      t.step store (system catalogue sha256) action = some u →
      Executing catalogue sha256 p command draft candidates s
        (history ++ [⟨t.data, u.data, endedAttempt (t.session p) action⟩]) u
  | other {history t u action allocation} :
      Executing catalogue sha256 p command draft candidates s history t →
      (t.session p).ctl = .allocating allocation → action.process ≠ some p →
      t.step store (system catalogue sha256) action = some u →
      Executing catalogue sha256 p command draft candidates s history u

end Watched

section Steps
variable {P : Type} [DecidableEq P] {catalogue : Catalogue} {sha256 : String → String}
  {stock : Stock} {clock : Timestamptz} {s t u : Processes P} {p : P} {allocation : Allocation}
  {action : Action DbError Move Event P}

theorem Runs.replayable (run : Reachable catalogue sha256 stock clock s) :
    State.Replayable store (system catalogue sha256) (fun e => Recorded e.lastMovementId)
      (fun e => Drawn e.lastMovementId) s :=
  (State.run_refines store_lawful system_supplies system_guarded initial_replayable
    (run.lift id fun _ _ step => step.1)).1

/-- What a step of the process can be inside the loop: a statement of its own, the
end of a failed attempt or the commit of one. -/
inductive InLoop (p : P) (allocation : Allocation) (t u : Processes P) : Option Attempt → Prop
  | statement : (u.session p).ctl = .allocating allocation → u.data = t.data →
      InLoop p allocation t u none
  | failed {e} : u = t.close p (allocation.failed e) →
      InLoop p allocation t u (some ⟨allocation.candidate, .error e⟩)
  | committed {order} : (u.session p).ctl = .reserved ⟨allocation.command, order⟩ →
      (attemptCandidate allocation.draft allocation.candidate).Completes store t.data u.data order →
      InLoop p allocation t u (some ⟨allocation.candidate, .ok order⟩)

theorem inLoop_of_step (run : Reachable catalogue sha256 stock clock t)
    (here : (t.session p).ctl = .allocating allocation) (mine : action.process = some p)
    (alive : action ≠ .crash p) (stepped : t.step store (system catalogue sha256) action = some u) :
    InLoop p allocation t u (endedAttempt (t.session p) action) := by
  cases action with
  | begin q =>
    cases Option.some.inj mine
    simp only [State.step] at stepped
    split at stepped <;> try contradiction
    rename_i prog closed body
    cases Option.some.inj stepped
    simp only [endedAttempt, here, closed]
    exact .statement (by simp) rfl
  | exec q =>
    cases Option.some.inj mine
    simp only [State.step] at stepped
    split at stepped <;> try contradiction
    rename_i isOpen
    split at stepped <;> try contradiction
    split at stepped <;> try contradiction
    cases Option.some.inj stepped
    simp only [endedAttempt, here, isOpen]
    exact .statement (by simp) rfl
  | fault q e =>
    cases Option.some.inj mine
    simp only [State.step] at stepped
    split at stepped <;> try contradiction
    rename_i isOpen
    cases Option.some.inj stepped
    simp only [endedAttempt, here, isOpen]
    exact .failed rfl
  | rollback q =>
    cases Option.some.inj mine
    simp only [State.step] at stepped
    split at stepped <;> try contradiction
    rename_i isOpen
    cases Option.some.inj stepped
    simp only [endedAttempt, here, isOpen]
    exact .failed rfl
  | commit q =>
    cases Option.some.inj mine
    obtain ⟨prog, body, ran⟩ := run.replayable.commits stepped
    rw [here] at body
    cases body
    obtain ⟨_, order, done, rfl, reserved⟩ := Program.completes_bind.mp ran
    simp only [State.step] at stepped
    split at stepped <;> try contradiction
    rename_i c ws isOpen
    cases Option.some.inj stepped
    have there : c = .reserved ⟨allocation.command, order⟩ := by simpa [State.close] using reserved
    simp only [endedAttempt, here, isOpen, there]
    exact .committed (by simp [State.close]) done
  | crash q =>
    cases Option.some.inj mine
    exact absurd rfl alive
  | move q m =>
    cases Option.some.inj mine
    simp only [State.step] at stepped
    split at stepped <;> try contradiction
    obtain ⟨_, moved, -⟩ := Option.map_eq_some_iff.mp stepped
    rw [here] at moved
    cases m <;> cases moved
  | event e => cases mine

end Steps

section Effects
variable {command : CreateOrderCommand} {draft : Draft} {d after : Db} {w : Uuid} {order : Order}

/-- The order is stored with its items at `w`, and every line is reserved in full
there: the units move from what is available to what is reserved. -/
structure Placed (command : CreateOrderCommand) (o w : Uuid) (d after : Db) : Prop where
  order : ∃ row, after.orders.lookup o = some row ∧ row.status = .PENDING_PAYMENT ∧
    row.warehouseId = some w
  items : (after.itemsOf o).map (fun item => (item.productId, item.quantity)) =
    command.lines.map fun line => (line.productId, line.quantity)
  reserved : ∀ line ∈ command.lines, ∃ b v, d.inventory.lookup (w, line.productId) = some b ∧
    line.quantity ≤ b.available ∧ after.inventory.lookup (w, line.productId) =
      some ⟨b.available - line.quantity, b.reserved + line.quantity, v⟩ ∧
    ∃ m ∈ after.movements, m.orderId = o ∧ m.warehouseId = w ∧ m.productId = line.productId ∧
      m.type = .RESERVE ∧ m.quantityDelta = -line.quantity
  others : ∀ key, (∀ line ∈ command.lines, key ≠ (w, line.productId)) →
    after.inventory.lookup key = d.inventory.lookup key

theorem priceLines_lines {products : List Product} {lines : List OrderLine}
    (known : ∀ line ∈ lines, ∃ product ∈ products, product.id = line.productId) :
    (priceLines products lines).map (·.line) = lines := by
  induction lines with
  | nil => rfl
  | cons line lines ih =>
    obtain ⟨here, later⟩ := List.forall_mem_cons.mp known
    have some_ : (products.find? (·.id = line.productId)).isSome := by simpa using here
    obtain ⟨product, found⟩ := Option.isSome_iff_exists.mp some_
    have split : priceLines products (line :: lines) =
        ⟨line, product⟩ :: priceLines products lines := by
      simp [priceLines, found]
    rw [split, List.map_cons, ih later]

/-- The draft has the command's lines. -/
theorem draftOrder_lines {catalogue : Catalogue} {products : List Product}
    {geocoded : Geocoded} {orderNumber : String} {orderId : Uuid}
    (resolved : resolveCustomerAndProducts catalogue command = .ok products)
    (drafted : draftOrder command products geocoded orderNumber orderId = .ok draft) :
    draft.lines.map (·.line) = command.lines := by
  have known : ∀ line ∈ command.lines, ∃ product ∈ products, product.id = line.productId := by
    intro line member
    simp only [resolveCustomerAndProducts] at resolved
    split at resolved <;> try contradiction
    split at resolved <;> try contradiction
    rename_i complete
    cases resolved
    have found := List.filter_eq_nil_iff.mp (not_not.mp complete) line.productId
      (List.mem_map_of_mem member)
    rw [Bool.not_eq_true', Bool.not_eq_false] at found
    obtain ⟨product, inside, same⟩ := List.any_eq_true.mp found
    exact ⟨product, inside, of_decide_eq_true same⟩
  have lines : draft.lines = priceLines products command.lines := by
    simp only [draftOrder, bind, Except.bind] at drafted
    split at drafted <;> try contradiction
    split at drafted <;> try contradiction
    split at drafted <;> try contradiction
    cases drafted
    rfl
  rw [lines, priceLines_lines known]

/-- The items are the draft's lines. -/
theorem attemptCandidate_columns (fresh : d.orders.lookup draft.orderId = none)
    (ran : (attemptCandidate draft w).Completes store d after order) :
    ∃ items, after.orderItems = d.orderItems ++ items ∧
      (items.map fun item => (item.productId, item.quantity)) =
        draft.lines.map fun line => (line.line.productId, line.line.quantity) := by
  obtain ⟨now, ran₁⟩ := completes_transaction ran
  obtain ⟨mid, _, inserted, ran₂⟩ := Program.completes_bind.mp ran₁
  obtain ⟨_, _, row, items, rfl, rfl, -, -, -, columns, -, distinct⟩ :=
    onBeforeReserve_spec fresh inserted
  obtain ⟨_, _, reserving, rfl, rfl⟩ := Program.completes_bind.mp ran₂
  have products : items.map (·.productId) = (draft.lines.map (·.line)).map (·.productId) := by
    simpa [Function.comp_def] using congrArg (List.map Prod.fst) columns
  obtain ⟨mid, postings, posted, -, -, stamped⟩ := reserve_spec (products ▸ distinct) reserving
  obtain ⟨j, ws, -, updated, rfl⟩ := completes_query.mp stamped
  refine ⟨items, ?_, columns⟩
  simp only [Sql.exec] at updated
  split at updated <;> cases updated <;> exact posted.orderItems

theorem placed_of_completes {A₀ : Uuid × Uuid → Int} (books : Consistent A₀ d)
    (lines : draft.lines.map (·.line) = command.lines)
    (fresh : d.orders.lookup draft.orderId = none)
    (ran : (attemptCandidate draft w).Completes store d after order) :
    Placed command draft.orderId w d after := by
  obtain ⟨done, -⟩ := attemptCandidate_spec fresh ran
  obtain ⟨row, inserted, pending, warehouse, -⟩ := done.order
  obtain ⟨items, postings, added, owned, distinct, posted, named, stocked⟩ := done.items
  obtain ⟨items', added', columns⟩ := attemptCandidate_columns fresh ran
  cases List.append_cancel_left (added'.symm.trans added)
  have columns' : items.map (fun item => (item.productId, item.quantity)) =
      command.lines.map fun line => (line.productId, line.quantity) := by
    rw [columns, ← lines, List.map_map]
    rfl
  have none_before : d.itemsOf draft.orderId = [] := by
    refine List.filter_eq_nil_iff.mpr fun item member mine => ?_
    have stored := books.itemsOwned item member
    rw [of_decide_eq_true mine, fresh] at stored
    cases stored
  have mine : after.itemsOf draft.orderId = items := by
    have all : items.filter (·.orderId = draft.orderId) = items :=
      List.filter_eq_self.mpr fun item member => by simpa using (owned item member).1
    rw [Db.itemsOf, added, List.filter_append, all]
    exact (congrArg (· ++ items) none_before).trans (List.nil_append items)
  refine ⟨⟨row, by rw [inserted, AList.lookup_insert], pending, warehouse⟩, mine ▸ columns', ?_, ?_⟩
  · intro line member
    have column : (line.productId, line.quantity) ∈
        items.map fun item => (item.productId, item.quantity) :=
      columns' ▸ List.mem_map_of_mem member
    obtain ⟨item, inside, same⟩ := List.mem_map.mp column
    rw [Prod.mk.injEq] at same
    obtain ⟨b, balance, enough, posting⟩ := stocked item inside
    rw [same.1] at balance
    rw [same.1, same.2] at posting
    rw [same.2] at enough
    obtain ⟨v, stored⟩ := posted.balance _ posting
    obtain ⟨ms, appended, records, -⟩ := posted.movements
    obtain ⟨m, recorded, record⟩ := forall₂_right
      (List.Forall₂.flip (R := fun m x => Posting.Records draft.orderId w x m) records) posting
    refine ⟨b, v, balance, enough, stored, m, ?_, record.orderId, record.warehouseId,
      record.productId, record.type, record.quantityDelta⟩
    rw [appended]
    exact List.mem_append_right _ recorded
  · intro key apart
    refine posted.balance_frame key fun x member same => ?_
    have product : x.productId ∈ items.map (·.productId) := named ▸ List.mem_map_of_mem member
    obtain ⟨item, inside, here⟩ := List.mem_map.mp product
    have column : (item.productId, item.quantity) ∈
        command.lines.map fun line => (line.productId, line.quantity) :=
      columns' ▸ List.mem_map_of_mem inside
    obtain ⟨line, among, named⟩ := List.mem_map.mp column
    rw [Prod.mk.injEq] at named
    exact apart line among (by rw [same, named.1, here])

end Effects

section Lost
variable {P : Type} [DecidableEq P] {sha256 : String → String} {a b : World P} {o : Uuid}

/-- An id that was drawn, belongs to nobody any more and has no order. -/
structure Lost (o : Uuid) (a : World P) : Prop where
  drawn : o ∈ a.env.ids
  free : ∀ q, o ∉ (a.ctl q).owns
  absent : a.data.orders.lookup o = none

theorem Lost.goto (lost : Lost o a) {p : P} {ctl : Ctl} (moved : o ∉ ctl.owns) (q : P) :
    o ∉ ((a.goto p ctl).ctl q).owns := by
  by_cases same : q = p
  · subst same
    simpa [Committed.goto] using moved
  · simpa [Committed.goto, same] using lost.free q

/-- It never gets one. -/
theorem Lost.step (lost : Lost o a) (owned : Owned a) (does : Does sha256 a b) : Lost o b := by
  cases does with
  | @commit p after ctl commits =>
    obtain ⟨evolves, included, -⟩ := commits.owned (owned.alone p)
    exact ⟨lost.drawn, lost.goto fun mine => lost.free p (included mine),
      evolves.newOrders lost.absent (lost.free p)⟩
  | @rewind p ctl rewinds =>
    obtain ⟨included, -⟩ := rewinds.owned (owned.alone p)
    exact ⟨lost.drawn, lost.goto fun mine => lost.free p (included mine), lost.absent⟩
  | @move p env ctl moves =>
    obtain ⟨-, owns⟩ := moves.owned (owned.alone p) owned.orders owned.payments
    refine ⟨moves.ids_subset lost.drawn, lost.goto fun mine => ?_, lost.absent⟩
    rcases owns with ⟨-, included⟩ | ⟨i, fresh, -, included⟩
    · exact lost.free p (included mine)
    · rcases List.mem_cons.mp (included mine) with rfl | old
      · exact fresh lost.drawn
      · exact lost.free p old
  | happen happens => exact ⟨happens.ids ▸ lost.drawn, lost.free, lost.absent⟩

end Lost

section Execution
variable {P : Type} [DecidableEq P] {catalogue : Catalogue} {sha256 : String → String}
  {stock : Stock} {clock : Timestamptz} {s t u : Processes P} {p : P}
  {command : CreateOrderCommand} {draft : Draft} {candidates : List Uuid}
  {history : List OwnStep}

theorem Stage.allocation {tried : List Attempt} {allocation : Allocation}
    (stage : Stage command draft candidates tried (.allocating allocation)) :
    allocation.command = command ∧ allocation.draft = draft := by
  cases stage
  exact ⟨rfl, rfl⟩

theorem Stage.reserved {tried : List Attempt} {saga : Saga}
    (stage : Stage command draft candidates tried (.reserved saga)) :
    ∃ earlier candidate, tried = earlier ++ [⟨candidate, .ok saga.order⟩] := by
  cases stage
  exact ⟨_, _, rfl⟩

theorem lost_of_close {allocation : Allocation} {e : CreateOrderError} (owned : Owned t.committed)
    (here : (t.session p).ctl = .allocating allocation) :
    Lost allocation.draft.orderId (t.close p (.refused e)).committed := by
  have at_p : t.committed.ctl p = .allocating allocation := here
  have mine : allocation.draft.orderId ∈ (t.committed.ctl p).owns := by simp [at_p, Ctl.owns]
  refine ⟨owned.drawn p _ mine, fun q theirs => ?_, ?_⟩
  · by_cases same : q = p
    · subst same
      simp [State.close, State.committed, Ctl.owns] at theirs
    · refine same (owned.exclusive q p _ ?_ mine)
      simpa [State.close, State.committed, same] using theirs
  · have alone := owned.alone p
    rw [at_p] at alone
    exact alone

/-- What is known of `execute` at any time. -/
structure Progression (catalogue : Catalogue) (sha256 : String → String) (stock : Stock)
    (clock : Timestamptz) (p : P) (command : CreateOrderCommand) (draft : Draft)
    (candidates : List Uuid) (history : List OwnStep) (t : Processes P) : Prop where
  reachable : Reachable catalogue sha256 stock clock t
  lines : draft.lines.map (·.line) = command.lines
  stage : Stage command draft candidates (attempts history) (t.session p).ctl
  kept : (∀ saga, (t.session p).ctl ≠ .reserved saga) → ∀ step ∈ history, step.after = step.before
  placed : ∀ saga, (t.session p).ctl = .reserved saga → ∃ earlier last candidate,
    history = earlier ++ [last] ∧ (∀ step ∈ earlier, step.after = step.before) ∧
    last.attempt = some ⟨candidate, .ok saga.order⟩ ∧ saga.order.id = draft.orderId ∧
    saga.order.warehouseId = some candidate ∧
    Placed command draft.orderId candidate last.before last.after
  lost : ∀ e, (t.session p).ctl = .refused e → Lost draft.orderId t.committed

theorem Progression.call {products : List Product} {geocoded : Geocoded}
    {orderNumber : String} (reachable : Reachable catalogue sha256 stock clock s)
    (resolved : resolveCustomerAndProducts catalogue command = .ok products)
    (drafted : draftOrder command products geocoded orderNumber draft.orderId = .ok draft)
    (stepped : s.step store (system catalogue sha256)
      (.move p (.createOrder command geocoded orderNumber candidates draft.orderId)) = some t) :
    Progression catalogue sha256 stock clock p command draft candidates [] t := by
  have later : Reachable catalogue sha256 stock clock t := reachable.tail ⟨⟨_, stepped⟩, trivial⟩
  have starts := Stage.start candidates resolved drafted
  have owned := reachable.owned
  simp only [State.step] at stepped
  split at stepped <;> try contradiction
  obtain ⟨⟨env, ctl⟩, moved, rfl⟩ := Option.map_eq_some_iff.mp stepped
  change Ctl.move catalogue _ _ _ _ _ = _ at moved
  cases here : (s.session p).ctl <;> rw [here] at moved <;> try cases moved
  obtain ⟨env', drawn, same⟩ := Option.map_eq_some_iff.mp moved
  cases same
  simp only [Env.draw] at drawn
  split at drawn <;> cases drawn
  rename_i fresh
  have stage : Stage command draft candidates (attempts []) _ := starts
  refine ⟨later, draftOrder_lines resolved drafted, by simpa using stage, by simp, ?_, ?_⟩
  · intro saga reserved
    have reserved' : startAllocation catalogue command geocoded orderNumber candidates
        draft.orderId = .reserved saga := by simpa using reserved
    rw [reserved'] at starts
    obtain ⟨earlier, candidate, tried⟩ := starts.reserved
    simp at tried
  · intro e refused
    have refused' : startAllocation catalogue command geocoded orderNumber candidates
        draft.orderId = .refused e := by simpa using refused
    refine ⟨List.mem_cons_self, fun q theirs => ?_, ?_⟩
    · by_cases same : q = p
      · subst same
        simp [State.committed, refused', Ctl.owns] at theirs
      · exact fresh (owned.drawn q _ (by simpa [State.committed, same] using theirs))
    · cases stored : s.data.orders.lookup draft.orderId with
      | none => exact stored
      | some row => exact absurd (owned.orders stored) fresh

theorem Progression.other (progress : Progression catalogue sha256 stock clock p command draft
      candidates history t) {action : Action DbError Move Event P} {allocation : Allocation}
    (here : (t.session p).ctl = .allocating allocation) (others : action.process ≠ some p)
    (stepped : t.step store (system catalogue sha256) action = some u) :
    Progression catalogue sha256 stock clock p command draft candidates history u := by
  have same := State.step_session stepped others
  have still : (u.session p).ctl = .allocating allocation := same ▸ here
  refine ⟨progress.reachable.tail ⟨⟨_, stepped⟩, trivial⟩, progress.lines,
    same ▸ progress.stage, fun _ => progress.kept (by simp [here]), ?_, ?_⟩
  · intro saga reserved
    cases still.symm.trans reserved
  · intro e refused
    cases still.symm.trans refused

theorem Progression.own (progress : Progression catalogue sha256 stock clock p command draft
      candidates history t) {action : Action DbError Move Event P} {allocation : Allocation}
    (here : (t.session p).ctl = .allocating allocation) (mine : action.process = some p)
    (alive : action ≠ .crash p)
    (stepped : t.step store (system catalogue sha256) action = some u) :
    Progression catalogue sha256 stock clock p command draft candidates
      (history ++ [⟨t.data, u.data, endedAttempt (t.session p) action⟩]) u := by
  have later : Reachable catalogue sha256 stock clock u :=
    progress.reachable.tail ⟨⟨_, stepped⟩, trivial⟩
  have stage : Stage command draft candidates (attempts history) (.allocating allocation) :=
    here ▸ progress.stage
  have before := progress.kept (by simp [here])
  have inside := inLoop_of_step progress.reachable here mine alive stepped
  obtain ⟨same_command, same_draft⟩ := stage.allocation
  generalize endedAttempt (t.session p) action = ended at inside
  have added : ∀ ended, attempts (history ++ [⟨t.data, u.data, ended⟩]) =
      attempts history ++ ended.toList := by
    intro ended
    cases ended <;> simp [attempts]
  have all_kept : u.data = t.data →
      ∀ step ∈ history ++ [⟨t.data, u.data, ended⟩], step.after = step.before := by
    intro data step member
    rcases List.mem_append.mp member with old | last
    · exact before step old
    · rw [List.mem_singleton.mp last]
      exact data
  cases inside with
  | statement still data =>
    refine ⟨later, progress.lines, ?_, fun _ => all_kept data, ?_, ?_⟩
    · rw [added, still]
      simpa using stage
    · intro saga reserved
      cases still.symm.trans reserved
    · intro e refused
      cases still.symm.trans refused
  | @failed e closed =>
    have moved : (u.session p).ctl = allocation.failed e := by simp [closed, State.close]
    have next := stage.failed e
    refine ⟨later, progress.lines, ?_, fun _ => all_kept (closed ▸ rfl), ?_, ?_⟩
    · rw [added, moved]
      exact next
    · intro saga reserved
      rw [← moved, reserved] at next
      obtain ⟨earlier, candidate, tried⟩ := next.reserved
      simp at tried
    · intro e' refused
      rw [closed, moved.symm.trans refused, ← same_draft]
      exact lost_of_close progress.reachable.owned here
  | @committed order reserved ran =>
    have alone := progress.reachable.owned.alone p
    rw [show t.committed.ctl p = .allocating allocation from here] at alone
    rw [same_draft] at ran
    refine ⟨later, progress.lines, ?_, fun none_reserved => absurd reserved (none_reserved _), ?_, ?_⟩
    · rw [added, reserved]
      exact stage.committed order
    · intro saga same
      cases reserved.symm.trans same
      obtain ⟨-, createdAt, updatedAt, rfl⟩ := attemptCandidate_spec (same_draft ▸ alone) ran
      exact ⟨history, _, allocation.candidate, rfl, before, rfl, rfl, rfl,
        placed_of_completes progress.reachable.consistent progress.lines (same_draft ▸ alone) ran⟩
    · intro e refused
      cases reserved.symm.trans refused

theorem Executing.progress (reachable : Reachable catalogue sha256 stock clock s)
    (run : Executing catalogue sha256 p command draft candidates s history t) :
    Progression catalogue sha256 stock clock p command draft candidates history t := by
  induction run with
  | call resolved drafted stepped => exact .call reachable resolved drafted stepped
  | own _ here mine alive stepped ih => exact ih.own here mine alive stepped
  | other _ here others stepped ih => exact ih.other here others stepped

theorem Stage.candidates_prefix {tried : List Attempt} {ctl : Ctl}
    (stage : Stage command draft candidates tried ctl) :
    tried.map (·.candidate) <+: candidates := by
  cases stage with
  | empty => exact List.nil_prefix
  | trying _ order => exact ⟨_, order.symm⟩
  | lost _ _ order => exact order ▸ List.prefix_rfl
  | @returned tried candidate rest _ _ _ order | @thrown tried candidate rest _ _ _ order =>
    rw [order, List.map_append]
    exact List.prefix_append_right_inj _ |>.mpr ⟨rest, rfl⟩

theorem Stage.lacked {tried earlier later : List Attempt} {attempt : Attempt} {ctl : Ctl}
    (stage : Stage command draft candidates tried ctl) (split : tried = earlier ++ attempt :: later)
    (more : later ≠ []) : ∃ productIds, attempt.outcome = .error (.insufficientStock productIds) := by
  have among : ∀ {tried : List Attempt} {last : Attempt},
      tried ++ [last] = earlier ++ attempt :: later → attempt ∈ tried := by
    intro tried last same
    obtain ⟨front, final, rfl⟩ := List.eq_nil_or_concat' later |>.resolve_left more
    rw [← List.cons_append, ← List.append_assoc] at same
    rw [(List.append_inj' same rfl).1]
    simp
  cases stage with
  | empty => simp at split
  | trying lacked _ => exact lacked.failed attempt (by simp [split])
  | lost lacked _ _ => exact lacked.failed attempt (by simp [split])
  | returned lacked _ => exact lacked.failed attempt (among split)
  | thrown lacked _ _ => exact lacked.failed attempt (among split)

theorem Stage.noCandidates_iff {tried : List Attempt} {ctl : Ctl}
    (stage : Stage command draft candidates tried ctl) (productIds : List Uuid) :
    ctl = .refused (.noFulfilmentPossible productIds .NO_CANDIDATES) ↔
      candidates = [] ∧ productIds = command.lines.map (·.productId) := by
  cases stage with
  | empty none => simp [none, eq_comm]
  | trying _ order => simp [order]
  | returned _ order => simp [order]
  | lost _ some_ _ => simp [some_]
  | thrown _ order => simp [order]

/-- `execute` returned this order's allocation at `candidate`. -/
structure Returned (command : CreateOrderCommand) (draft : Draft) (history : List OwnStep)
    (order : Order) (candidate : Uuid) : Prop where
  id : order.id = draft.orderId
  warehouseId : order.warehouseId = some candidate
  once : ∃ earlier last, history = earlier ++ [last] ∧
    (∀ step ∈ earlier, step.after = step.before) ∧
    last.attempt = some ⟨candidate, .ok order⟩ ∧
    Placed command draft.orderId candidate last.before last.after

/-- `execute` threw `e`. -/
structure Threw (catalogue : Catalogue) (sha256 : String → String) (draft : Draft)
    (candidates : List Uuid) (history : List OwnStep) (t : Processes P) (e : CreateOrderError) :
    Prop where
  unchanged : ∀ step ∈ history, step.after = step.before
  nothing : ∀ u, Relation.ReflTransGen (State.Next store (system catalogue sha256)) t u →
    u.data.orders.lookup draft.orderId = none ∧ u.data.itemsOf draft.orderId = [] ∧
    ∀ m ∈ u.data.movements, m.orderId ≠ draft.orderId
  raceLost : ∀ productIds, e = .noFulfilmentPossible productIds .RESERVATION_RACE_LOST →
    (attempts history).map (·.candidate) = candidates ∧ productIds.Nodup ∧
    ∀ productId, productId ∈ productIds ↔ ∃ attempt ∈ attempts history, ∃ reported,
      attempt.outcome = .error (.insufficientStock reported) ∧ productId ∈ reported
  thrown : (∃ productIds reason, e = .noFulfilmentPossible productIds reason) ∨
    ∃ earlier candidate cause, attempts history = earlier ++ [⟨candidate, .error cause⟩] ∧
      e = .thrown cause ∧ ∀ productIds, cause ≠ .insufficientStock productIds

theorem Lost.nothing {o : Uuid} {A₀ : Uuid × Uuid → Int} {d : Db} (books : Consistent A₀ d)
    (absent : d.orders.lookup o = none) :
    d.itemsOf o = [] ∧ ∀ m ∈ d.movements, m.orderId ≠ o := by
  constructor
  · refine List.filter_eq_nil_iff.mpr fun item member mine => ?_
    have stored := books.itemsOwned item member
    rw [of_decide_eq_true mine, absent] at stored
    cases stored
  · rintro m member rfl
    have stored := books.movementsOwned m member
    rw [absent] at stored
    cases stored

theorem Progression.threw (progress : Progression catalogue sha256 stock clock p command draft
      candidates history t) {e : CreateOrderError} (refused : (t.session p).ctl = .refused e) :
    Threw catalogue sha256 draft candidates history t e where
  unchanged := progress.kept (by simp [refused])
  nothing u later := by
    have lost : Lost draft.orderId u.committed :=
      Runs.stable progress.reachable (later.lift id fun _ _ next => ⟨next, trivial⟩)
        (progress.lost e refused) fun run lost does _ => lost.step run.owned does
    have run : Reachable catalogue sha256 stock clock u :=
      progress.reachable.trans (later.lift id fun _ _ next => ⟨next, trivial⟩)
    exact ⟨lost.absent, Lost.nothing run.consistent lost.absent⟩
  raceLost productIds same := by
    have stage := progress.stage
    rw [refused, same] at stage
    generalize attempts history = done at stage ⊢
    cases stage with
    | lost lacked _ order => exact ⟨order.symm, lacked.distinct, lacked.union⟩
  thrown := by
    have stage := progress.stage
    rw [refused] at stage
    generalize tried : attempts history = done at stage
    cases stage with
    | empty _ | lost _ _ _ => exact .inl ⟨_, _, rfl⟩
    | thrown _ _ other => exact .inr ⟨_, _, _, rfl, rfl, other⟩

/-- Failover is all or nothing. The candidates are tried in order, none after a
success or after an error other than a lack of stock. A call that returns has
committed one attempt, its last step, and changed nothing before; one that throws
has changed nothing, and no row of its order ever appears. -/
theorem failover_all_or_nothing (reachable : Reachable catalogue sha256 stock clock s)
    (run : Executing catalogue sha256 p command draft candidates s history t) :
    (attempts history).map (·.candidate) <+: candidates ∧
    (∀ earlier attempt later, attempts history = earlier ++ attempt :: later → later ≠ [] →
      ∃ productIds, attempt.outcome = .error (.insufficientStock productIds)) ∧
    (∀ productIds, (t.session p).ctl = .refused (.noFulfilmentPossible productIds .NO_CANDIDATES) ↔
      candidates = [] ∧ productIds = command.lines.map (·.productId)) ∧
    ((∃ allocation, (t.session p).ctl = .allocating allocation) ∨
      (∃ order candidate, (t.session p).ctl = .reserved ⟨command, order⟩ ∧
        Returned command draft history order candidate) ∨
      ∃ e, (t.session p).ctl = .refused e ∧
        Threw catalogue sha256 draft candidates history t e) := by
  have progress := run.progress reachable
  have stage := progress.stage
  refine ⟨stage.candidates_prefix, fun _ _ _ split more => stage.lacked split more,
    stage.noCandidates_iff, ?_⟩
  generalize tried : attempts history = done at stage
  generalize here : (t.session p).ctl = ctl at stage
  cases stage with
  | trying _ _ => exact .inl ⟨_, rfl⟩
  | @returned _ _ _ _ order _ _ =>
    obtain ⟨earlier, last, candidate, split, kept, ended, id, warehouseId, placed⟩ :=
      progress.placed _ here
    exact .inr (.inl ⟨order, candidate, rfl, id, warehouseId, earlier, last, split, kept, ended,
      placed⟩)
  | empty _ | lost _ _ _ | thrown _ _ _ => exact .inr (.inr ⟨_, rfl, progress.threw here⟩)

end Execution

section Lamp

/-- `p`'s own steps inside the loop, with nothing in between. -/
def watch {P : Type} [DecidableEq P] (catalogue : Catalogue) (sha256 : String → String) (p : P) :
    List (Action DbError Move Event P) → List OwnStep → Processes P →
      Option (List OwnStep × Processes P)
  | [], history, t => some (history, t)
  | action :: actions, history, t =>
    match (t.session p).ctl with
    | .allocating _ =>
      if action.process = some p ∧ action.crashes = false then do
        let u ← t.step store (system catalogue sha256) action
        watch catalogue sha256 p actions
          (history ++ [⟨t.data, u.data, endedAttempt (t.session p) action⟩]) u
      else none
    | _ => none

theorem executing_of_watch {P : Type} [DecidableEq P] {catalogue : Catalogue}
    {sha256 : String → String} {p : P} {command : CreateOrderCommand} {draft : Draft}
    {candidates : List Uuid} {s t t' : Processes P} {history history' : List OwnStep}
    {actions : List (Action DbError Move Event P)}
    (run : Executing catalogue sha256 p command draft candidates s history t)
    (ran : watch catalogue sha256 p actions history t = some (history', t')) :
    Executing catalogue sha256 p command draft candidates s history' t' := by
  induction actions generalizing history t with
  | nil =>
    cases ran
    exact run
  | cons action actions ih =>
    rw [watch] at ran
    split at ran <;> try contradiction
    rename_i allocation here
    split at ran <;> try contradiction
    rename_i own
    obtain ⟨u, stepped, rest⟩ := Option.bind_eq_some_iff.mp ran
    refine ih (run.own here own.1 ?_ stepped) rest
    rintro rfl
    cases own.2

def lampDraft : Draft :=
  (draftOrder lampCommand lampCatalogue.products lampGeocoded
    "CNL-2026-000001" "order").toOption.get (by decide +kernel)

theorem lampResolved : resolveCustomerAndProducts lampCatalogue lampCommand =
    .ok lampCatalogue.products := by decide +kernel

theorem lampDrafted : draftOrder lampCommand lampCatalogue.products lampGeocoded
    "CNL-2026-000001" lampDraft.orderId = .ok lampDraft := by decide +kernel

/-- The first warehouse has no lamps, the second sells two. -/
def lampCalled : Processes Bool :=
  ((initial Bool lampStock ⟨1000000⟩).step store
    (system lampCatalogue lampSha256) (.move true (.createOrder lampCommand lampGeocoded
      "CNL-2026-000001" ["austin", "denver"] lampDraft.orderId))).get (by decide +kernel)

def lampFailover : List OwnStep × Processes Bool :=
  (watch lampCatalogue lampSha256 true
    (.begin true :: List.replicate 9 (.exec true) ++ .rollback true :: transact true 12)
    [] lampCalled).get (by decide +kernel)

theorem lampFailover_watch : watch lampCatalogue lampSha256 true
    (.begin true :: List.replicate 9 (.exec true) ++ .rollback true :: transact true 12)
    [] lampCalled = some lampFailover :=
  (Option.some_get _).symm

theorem lampFailover_executing : Executing lampCatalogue lampSha256 true lampCommand lampDraft
    ["austin", "denver"] (initial Bool lampStock ⟨1000000⟩) lampFailover.1 lampFailover.2 :=
  executing_of_watch (.call lampResolved lampDrafted (Option.some_get _).symm) lampFailover_watch

theorem failover_all_or_nothing_lamp :
    ((attempts lampFailover.1).map (·.candidate) = ["austin", "denver"] ∧
      (lampFailover.2.session true).ctl.owns = ["order"]) ∧
    ((attempts lampFailover.1).map (·.candidate) <+: ["austin", "denver"] ∧
    (∀ earlier attempt later, attempts lampFailover.1 = earlier ++ attempt :: later → later ≠ [] →
      ∃ productIds, attempt.outcome = .error (.insufficientStock productIds)) ∧
    (∀ productIds, (lampFailover.2.session true).ctl =
        .refused (.noFulfilmentPossible productIds .NO_CANDIDATES) ↔
      ["austin", "denver"] = [] ∧ productIds = lampCommand.lines.map (·.productId)) ∧
    ((∃ allocation, (lampFailover.2.session true).ctl = .allocating allocation) ∨
      (∃ order candidate, (lampFailover.2.session true).ctl = .reserved ⟨lampCommand, order⟩ ∧
        Returned lampCommand lampDraft lampFailover.1 order candidate) ∨
      ∃ e, (lampFailover.2.session true).ctl = .refused e ∧
        Threw lampCatalogue lampSha256 lampDraft ["austin", "denver"] lampFailover.1
          lampFailover.2 e)) :=
  ⟨by decide +kernel, failover_all_or_nothing .refl lampFailover_executing⟩

end Lamp

end Canals
