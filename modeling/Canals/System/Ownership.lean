import Canals.Orders.Ledger
import Canals.System.Runs

/-! Who may create which rows. A saga draws the ids of its order and of its
payment and works on them alone until its charge is recorded, so no other
process can insert or rewrite their rows behind its back. -/
namespace Canals
open Locking

/-- A commit by the owner of `mine`: rows are only added under owned ids, none is
lost, and what identifies a row stays. -/
structure Evolves (mine : List Uuid) (d after : Db) : Prop where
  orders : ∀ {o row}, d.orders.lookup o = some row → ∃ row', after.orders.lookup o = some row' ∧
    row'.totalCents = row.totalCents ∧ row'.currency = row.currency ∧
    (row.status ≠ .PENDING_PAYMENT → row'.status = row.status)
  newOrders : ∀ {o}, d.orders.lookup o = none → o ∉ mine → after.orders.lookup o = none
  payments : ∀ {i row}, d.payments.lookup i = some row → ∃ row', after.payments.lookup i = some row' ∧
    row'.orderId = row.orderId ∧ row'.idempotencyKey = row.idempotencyKey
  newPayments : ∀ {i}, d.payments.lookup i = none → i ∉ mine → after.payments.lookup i = none

theorem Evolves.refl {mine : List Uuid} {d : Db} : Evolves mine d d where
  orders found := ⟨_, found, rfl, rfl, fun _ => rfl⟩
  newOrders absent _ := absent
  payments found := ⟨_, found, rfl, rfl⟩
  newPayments absent _ := absent

/-- The row stored under the payment's id is this payment's. -/
def PaymentOrmEntity.Mine (d : Db) (payment : PaymentOrmEntity) : Prop :=
  ∀ row, d.payments.lookup payment.id = some row →
    row.orderId = payment.orderId ∧ row.idempotencyKey = payment.idempotencyKey

/-- Before the first of the two saves there is no row yet. -/
def PaymentSave.Alone (d : Db) (save : PaymentSave) : Prop :=
  save.payment.Mine d ∧
    (save.chargeResult = none → d.payments.lookup save.payment.id = none)

namespace Ctl

/-- The ids a process has drawn and still works on. -/
def owns : Ctl → List Uuid
  | allocating allocation => [allocation.draft.orderId]
  | reserved saga => [saga.order.id]
  | finding save | saving save _ => [save.saga.order.id, save.payment.id]
  | charging saga payment _ | charged saga payment _ => [saga.order.id, payment.id]
  | _ => []

def Alone (d : Db) : Ctl → Prop
  | allocating allocation => d.orders.lookup allocation.draft.orderId = none
  | finding save => save.Alone d
  | saving save stored => save.Alone d ∧ (save.chargeResult = none → stored = none)
  | charging _ payment _ | charged _ payment _ => payment.Mine d
  | _ => True

end Ctl

structure Owned {P : Type} (a : World P) : Prop where
  drawn : ∀ p, ∀ i ∈ (a.ctl p).owns, i ∈ a.env.ids
  exclusive : ∀ p q, ∀ i ∈ (a.ctl p).owns, i ∈ (a.ctl q).owns → p = q
  orders : ∀ {o row}, a.data.orders.lookup o = some row → o ∈ a.env.ids
  payments : ∀ {i row}, a.data.payments.lookup i = some row → i ∈ a.env.ids
  alone : ∀ p, (a.ctl p).Alone a.data

section Evolution
variable {d after : Db} {mine : List Uuid} {ctl ctl' : Ctl} {payment : PaymentOrmEntity}
  {stored : Option PaymentOrmEntity}

theorem PaymentOrmEntity.Mine.evolves (own : payment.Mine d) (evolves : Evolves mine d after)
    (apart : payment.id ∉ mine) : payment.Mine after := by
  intro row' found
  cases before : d.payments.lookup payment.id with
  | none =>
    rw [evolves.newPayments before apart] at found
    cases found
  | some row =>
    obtain ⟨_, found', orderId, key⟩ := evolves.payments before
    cases found.symm.trans found'
    exact ⟨orderId.trans (own row before).1, key.trans (own row before).2⟩

/-- What another process commits leaves a process alone. -/
theorem Ctl.Alone.evolves (alone : ctl.Alone d) (evolves : Evolves mine d after)
    (apart : ∀ i ∈ ctl.owns, i ∉ mine) : ctl.Alone after := by
  cases ctl with
  | allocating allocation => exact evolves.newOrders alone (apart _ (by simp [owns]))
  | finding save =>
    have other : save.payment.id ∉ mine := apart _ (by simp [owns])
    exact ⟨alone.1.evolves evolves other, fun first => evolves.newPayments (alone.2 first) other⟩
  | saving save stored =>
    have other : save.payment.id ∉ mine := apart _ (by simp [owns])
    exact ⟨⟨alone.1.1.evolves evolves other,
      fun first => evolves.newPayments (alone.1.2 first) other⟩, alone.2⟩
  | charging _ payment _ => exact PaymentOrmEntity.Mine.evolves alone evolves (apart _ (by simp [owns]))
  | charged _ payment _ => exact PaymentOrmEntity.Mine.evolves alone evolves (apart _ (by simp [owns]))
  | _ => trivial

/-- What a save leaves under the payment's id, and what it leaves alone. -/
theorem Saves.spec (saves : Saves payment d stored after) (own : payment.Mine d) :
    after.orders = d.orders ∧ payment.Mine after ∧ Evolves [payment.id] d after := by
  cases saves with
  | inserted absent =>
    refine ⟨rfl, ?_, ⟨fun found => ⟨_, found, rfl, rfl, fun _ => rfl⟩, fun absent _ => absent, ?_, ?_⟩⟩
    · intro row found
      cases (AList.lookup_insert _).symm.trans found
      exact ⟨rfl, rfl⟩
    · intro i row found
      have other : i ≠ payment.id := by
        rintro rfl
        cases absent.symm.trans found
      exact ⟨row, (AList.lookup_insert_ne other).trans found, rfl, rfl⟩
    · intro i missing other
      exact (AList.lookup_insert_ne (by simpa using other)).trans missing
  | @updated read row present =>
    have columns : (row.update read payment).orderId = payment.orderId ∧
        (row.update read payment).idempotencyKey = payment.idempotencyKey := by
      obtain ⟨orderId, key⟩ := own row present
      constructor
      · simp only [PaymentRow.update, saveColumn, orderId, PaymentColumns.map, ite_self]
      · simp only [PaymentRow.update, saveColumn, key, PaymentColumns.map, ite_self]
    refine ⟨rfl, ?_, ⟨fun found => ⟨_, found, rfl, rfl, fun _ => rfl⟩, fun absent _ => absent, ?_, ?_⟩⟩
    · intro row' found
      cases (AList.lookup_insert _).symm.trans found
      exact columns
    · intro i row' found
      by_cases same : i = payment.id
      · subst same
        cases present.symm.trans found
        exact ⟨_, AList.lookup_insert _, columns.1.trans (own _ present).1.symm,
          columns.2.trans (own _ present).2.symm⟩
      · exact ⟨row', (AList.lookup_insert_ne same).trans found, rfl, rfl⟩
    · intro i missing other
      exact (AList.lookup_insert_ne (by simpa using other)).trans missing
  | missed => exact ⟨rfl, own, .refl⟩

/-- The guarded update touches one row and keeps what identifies it. -/
theorem settledPayments_spec (d : Db) (resolution : Option PaymentResolution) (now : Timestamptz)
    (i : Uuid) : (d.settledPayments resolution now).lookup i = d.payments.lookup i ∨
      ∃ row payment, d.payments.lookup i = some row ∧ row.unsettled ∧
        resolution = some payment ∧ payment.paymentId = i ∧
        (d.settledPayments resolution now).lookup i =
          some (row.settle payment.chargeResult now) := by
  rcases settledPayments_cases d resolution now with same | ⟨payment, row, chosen, found, open_, same⟩
  · exact .inl (by rw [same])
  · rw [same]
    by_cases own : i = payment.paymentId
    · subst own
      exact .inr ⟨row, payment, found, open_, chosen, rfl, AList.lookup_insert _⟩
    · exact .inl (AList.lookup_insert_ne own)

theorem Settles.evolves {call : SettleCall} {createdAt : Date} {row : OrderRow}
    (done : Settles call createdAt row d after) (stored : d.orders.lookup call.orderId = some row)
    (pending : row.status = .PENDING_PAYMENT) : Evolves mine d after := by
  obtain ⟨row', stored', -, -, total, currency, others⟩ := done.settledRow
  obtain ⟨now, payments⟩ := done.payments
  refine ⟨fun {o found} lookup => ?_, fun {o} absent _ => ?_, fun {i found} lookup => ?_,
    fun {i} absent _ => ?_⟩
  · by_cases same : o = call.orderId
    · subst same
      cases stored.symm.trans lookup
      exact ⟨row', stored', total, currency, fun closed => absurd pending closed⟩
    · exact ⟨found, (others o same).trans lookup, rfl, rfl, fun _ => rfl⟩
  · have other : o ≠ call.orderId := by
      rintro rfl
      cases stored.symm.trans absent
    exact (others o other).trans absent
  · rw [payments]
    rcases settledPayments_spec d call.payment now i with same | ⟨row, payment, there, -, -, -, new⟩
    · exact ⟨found, same.trans lookup, rfl, rfl⟩
    · cases there.symm.trans lookup
      exact ⟨_, new, rfl, rfl⟩
  · rw [payments]
    rcases settledPayments_spec d call.payment now i with same | ⟨row, payment, there, -⟩
    · exact same.trans absent
    · cases there.symm.trans absent

theorem Settled.evolves {call : SettleCall} {result : SettlementResult}
    (settled : Settled call d after result) : Evolves mine d after := by
  cases settled with
  | already row _ _ same => exact same ▸ .refl
  | now row createdAt stored pending done => exact done.evolves stored pending

theorem Reserved.evolves {draft : Draft} {w : Uuid} (done : Reserved draft w d after)
    (fresh : d.orders.lookup draft.orderId = none) : Evolves [draft.orderId] d after := by
  obtain ⟨row, inserted, -⟩ := done.order
  refine ⟨fun {o found} lookup => ?_, fun {o} absent other => ?_, fun lookup => ?_,
    fun absent _ => ?_⟩
  · have other : o ≠ draft.orderId := by
      rintro rfl
      cases fresh.symm.trans lookup
    exact ⟨found, by rw [inserted, AList.lookup_insert_ne other, lookup], rfl, rfl, fun _ => rfl⟩
  · rw [inserted, AList.lookup_insert_ne (by simpa using other), absent]
  · exact ⟨_, done.payments ▸ lookup, rfl, rfl⟩
  · exact done.payments ▸ absent

theorem Evolves.mono {more : List Uuid} (evolves : Evolves mine d after) (included : mine ⊆ more) :
    Evolves more d after where
  orders := evolves.orders
  newOrders absent other := evolves.newOrders absent fun member => other (included member)
  payments := evolves.payments
  newPayments absent other := evolves.newPayments absent fun member => other (included member)

/-- A commit adds rows under the ids of its process only, and passes these on. -/
theorem Commits.owned (commits : Commits d ctl after ctl') (alone : ctl.Alone d) :
    Evolves ctl.owns d after ∧ ctl'.owns ⊆ ctl.owns ∧ ctl'.Alone after := by
  have saved : ∀ {save : PaymentSave} {stored}, Saves save.payment d stored after →
      save.Alone d → save.payment.Mine after ∧
        Evolves [save.saga.order.id, save.payment.id] d after := by
    intro save stored saves alone
    obtain ⟨-, own, evolves⟩ := saves.spec alone.1
    exact ⟨own, evolves.mono (by simp)⟩
  cases commits with
  | reserve ran =>
    obtain ⟨done, createdAt, updatedAt, rfl⟩ := attemptCandidate_spec alone ran
    exact ⟨done.evolves alone, List.Subset.refl _, trivial⟩
  | insert _ saves =>
    obtain ⟨own, evolves⟩ := saved saves alone.1
    exact ⟨evolves, List.Subset.refl _, own⟩
  | record _ _ saves => exact ⟨(saved saves alone.1).2, List.nil_subset _, trivial⟩
  | leave _ _ saves => exact ⟨(saved saves alone.1).2, List.nil_subset _, trivial⟩
  | confirm _ settled => exact ⟨settled.evolves, List.nil_subset _, trivial⟩
  | decline _ settled => exact ⟨settled.evolves, List.nil_subset _, trivial⟩
  | resolve settled => exact ⟨settled.evolves, List.nil_subset _, trivial⟩

theorem Rewinds.owned (rewinds : Rewinds ctl ctl') (alone : ctl.Alone d) :
    ctl'.owns ⊆ ctl.owns ∧ ctl'.Alone d := by
  cases rewinds with
  | retry => exact ⟨List.Subset.refl _, alone⟩
  | _ => exact ⟨List.nil_subset _, trivial⟩

end Evolution

section Moves
variable {sha256 : String → String} {d : Db} {env env' : Env} {ctl ctl' : Ctl}

/-- A move draws at most one id, which nobody has used. -/
theorem Moves.owned (moves : Moves d env ctl env' ctl') (alone : ctl.Alone d)
    (orders : ∀ {o row}, d.orders.lookup o = some row → o ∈ env.ids)
    (payments : ∀ {i row}, d.payments.lookup i = some row → i ∈ env.ids) :
    ctl'.Alone d ∧ ((env'.ids = env.ids ∧ ctl'.owns ⊆ ctl.owns) ∨
      ∃ i, i ∉ env.ids ∧ env'.ids = i :: env.ids ∧ ctl'.owns ⊆ i :: ctl.owns) := by
  have same : ∀ {ctl' : Ctl}, ctl'.owns ⊆ ctl.owns → (env.ids = env.ids ∧ ctl'.owns ⊆ ctl.owns) ∨
      ∃ i, i ∉ env.ids ∧ env.ids = i :: env.ids ∧ ctl'.owns ⊆ i :: ctl.owns :=
    fun included => .inl ⟨rfl, included⟩
  cases moves with
  | @start orderId allocation fresh mine =>
    refine ⟨?_, .inr ⟨orderId, fresh, rfl, by simp [Ctl.owns, mine]⟩⟩
    cases before : d.orders.lookup allocation.draft.orderId with
    | none => exact before
    | some row => exact absurd (mine ▸ orders before) fresh
  | refuse fresh => exact ⟨trivial, .inr ⟨_, fresh, rfl, List.nil_subset _⟩⟩
  | @pay saga paymentId createdAt updatedAt fresh =>
    have absent : d.payments.lookup paymentId = none := by
      cases before : d.payments.lookup paymentId with
      | none => rfl
      | some row => exact absurd (payments before) fresh
    refine ⟨⟨fun row found => ?_, fun _ => absent⟩, .inr ⟨paymentId, fresh, rfl, ?_⟩⟩
    · cases absent.symm.trans found
    · simp [Ctl.owns, initialPayment]
  | find =>
    refine ⟨⟨alone, fun first => ?_⟩, same (List.Subset.refl _)⟩
    rw [alone.2 first]
    rfl
  | record => exact ⟨⟨alone, nofun⟩, same (List.Subset.refl _)⟩
  | sendCharge _ | retryCharge _ _ | charge _ => exact ⟨alone, same (List.Subset.refl _)⟩
  | _ => exact ⟨trivial, same (List.nil_subset _)⟩

theorem Moves.ids_subset (moves : Moves d env ctl env' ctl') : env.ids ⊆ env'.ids := by
  cases moves with
  | start _ _ | refuse _ | pay _ => exact List.subset_cons_self _ _
  | _ => exact List.Subset.refl _

theorem Happens.ids (happens : Happens sha256 env env') : env'.ids = env.ids := by
  cases happens <;> rfl

end Moves

section Worlds
variable {P : Type} [DecidableEq P] {catalogue : Catalogue} {sha256 : String → String}
  {a b : World P}

/-- Whoever moves on keeps what it owned or adds what nobody had. -/
theorem Owned.goto (owned : Owned a) {p : P} {ctl : Ctl} (fresh : List Uuid)
    (included : ctl.owns ⊆ fresh ++ (a.ctl p).owns) (unused : ∀ i ∈ fresh, i ∉ a.env.ids) :
    (∀ q, ∀ i ∈ ((a.goto p ctl).ctl q).owns, i ∈ fresh ++ a.env.ids) ∧
      ∀ q r, ∀ i ∈ ((a.goto p ctl).ctl q).owns, i ∈ ((a.goto p ctl).ctl r).owns → q = r := by
  have before : ∀ q, ∀ i ∈ ((a.goto p ctl).ctl q).owns, (q = p ∧ i ∈ fresh) ∨
      i ∈ (a.ctl q).owns := by
    intro q i member
    by_cases same : q = p
    · subst same
      have added := included (by simpa [Committed.goto] using member)
      exact (List.mem_append.mp added).imp_left fun new => ⟨rfl, new⟩
    · exact .inr (by simpa [Committed.goto, same] using member)
  constructor
  · intro q i member
    rcases before q i member with ⟨-, new⟩ | old
    · exact List.mem_append_left _ new
    · exact List.mem_append_right _ (owned.drawn q i old)
  · intro q r i here there
    rcases before q i here with ⟨rfl, new⟩ | old <;> rcases before r i there with ⟨rfl, new'⟩ | old'
    · rfl
    · exact absurd (owned.drawn r i old') (unused i new)
    · exact absurd (owned.drawn q i old) (unused i new')
    · exact owned.exclusive q r i old old'

theorem Owned.step (owned : Owned a) (does : Does sha256 a b) : Owned b := by
  cases does with
  | @commit p after ctl commits =>
    obtain ⟨evolves, included, alone⟩ := commits.owned (owned.alone p)
    obtain ⟨drawn, exclusive⟩ := owned.goto [] included (by simp)
    have mine : ∀ i ∈ (a.ctl p).owns, i ∈ a.env.ids := owned.drawn p
    refine ⟨drawn, exclusive, fun {o row} found => ?_, fun {i row} found => ?_,
      Committed.forall_goto alone fun q other => ?_⟩
    · by_contra unknown
      have absent : a.data.orders.lookup o = none :=
        Option.eq_none_iff_forall_ne_some.mpr fun row found => unknown (owned.orders found)
      cases (evolves.newOrders absent fun own => unknown (mine o own)).symm.trans found
    · by_contra unknown
      have absent : a.data.payments.lookup i = none :=
        Option.eq_none_iff_forall_ne_some.mpr fun row found => unknown (owned.payments found)
      cases (evolves.newPayments absent fun own => unknown (mine i own)).symm.trans found
    · exact (owned.alone q).evolves evolves fun i theirs own =>
        other (owned.exclusive q p i theirs own)
  | @rewind p ctl rewinds =>
    obtain ⟨included, alone⟩ := rewinds.owned (owned.alone p)
    obtain ⟨drawn, exclusive⟩ := owned.goto [] included (by simp)
    exact ⟨drawn, exclusive, owned.orders, owned.payments,
      Committed.forall_goto alone fun q _ => owned.alone q⟩
  | @move p env ctl moves =>
    obtain ⟨alone, ⟨ids, included⟩ | ⟨i, fresh, ids, included⟩⟩ :=
      moves.owned (owned.alone p) owned.orders owned.payments
    · obtain ⟨drawn, exclusive⟩ := owned.goto [] included (by simp)
      exact ⟨fun q i member => ids ▸ drawn q i member, exclusive,
        fun found => ids ▸ owned.orders found, fun found => ids ▸ owned.payments found,
        Committed.forall_goto alone fun q _ => owned.alone q⟩
    · obtain ⟨drawn, exclusive⟩ := owned.goto [i] included (by simpa using fresh)
      exact ⟨fun q j member => ids ▸ drawn q j member, exclusive,
        fun found => ids ▸ List.mem_cons_of_mem i (owned.orders found),
        fun found => ids ▸ List.mem_cons_of_mem i (owned.payments found),
        Committed.forall_goto alone fun q _ => owned.alone q⟩
  | happen happens =>
    exact ⟨fun p i member => happens.ids ▸ owned.drawn p i member, owned.exclusive,
      fun found => happens.ids ▸ owned.orders found,
      fun found => happens.ids ▸ owned.payments found, owned.alone⟩

omit [DecidableEq P] in
theorem owned_initial {stock : Stock} {clock : Timestamptz} :
    Owned (initial P stock clock).committed :=
  ⟨nofun, nofun, nofun, nofun, fun _ => trivial⟩

theorem Runs.owned {Meets : World P → World P → Prop} {stock : Stock} {clock : Timestamptz}
    {s : Processes P} (run : Runs catalogue sha256 Meets stock clock s) : Owned s.committed :=
  run.invariant owned_initial fun _ owned does _ => owned.step does

end Worlds

end Canals
