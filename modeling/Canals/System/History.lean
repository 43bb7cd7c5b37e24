import Canals.System.Ledger

/-! What later steps can do to what is stored: orders move once, out of
`PENDING_PAYMENT`, their lines stay, and movements and jobs are only appended. -/
namespace Canals
open Locking

/-- A row of `orders` later on. Settling an order is the one change there is. -/
structure OrderColumns.Becomes (row later : OrderRow) : Prop where
  columns : later = { row with
    status := later.status
    confirmedAt := later.confirmedAt
    cancelledAt := later.cancelledAt
    cancellationReason := later.cancellationReason
    createdAt := later.createdAt
    updatedAt := later.updatedAt }
  status : later.status = row.status ∨ (row.status = .PENDING_PAYMENT ∧
    (later.status = .CONFIRMED ∨ later.status = .PAYMENT_FAILED ∨ later.status = .CANCELLED))
  settled : row.status ≠ .PENDING_PAYMENT → later = row

structure Preserves (d after : Db) : Prop where
  orders : ∀ {o row}, d.orders.lookup o = some row →
    ∃ later, after.orders.lookup o = some later ∧ row.Becomes later
  items : ∀ {o row}, d.orders.lookup o = some row → after.itemsOf o = d.itemsOf o
  payments : ∀ {i row}, d.payments.lookup i = some row → ∃ later,
    after.payments.lookup i = some later ∧ later.orderId = row.orderId ∧
      later.idempotencyKey = row.idempotencyKey
  movements : d.movements <+: after.movements
  jobs : d.jobs <+: after.jobs

theorem OrderColumns.Becomes.refl (row : OrderRow) : row.Becomes row :=
  ⟨rfl, .inl rfl, fun _ => rfl⟩

theorem OrderColumns.Becomes.trans {first second third : OrderRow} (before : first.Becomes second)
    (after : second.Becomes third) : first.Becomes third := by
  by_cases open_ : second.status = .PENDING_PAYMENT
  · refine ⟨?_, ?_, fun settled => ?_⟩
    · rw [after.columns, before.columns]
    · have still : first.status = .PENDING_PAYMENT := by
        rcases before.status with same | ⟨pending, -⟩
        · rw [← same, open_]
        · exact pending
      rcases after.status with same | ⟨-, moved⟩
      · exact .inl (by rw [same, open_, still])
      · exact .inr ⟨still, moved⟩
    · have same := before.settled settled
      rw [same] at open_
      exact absurd open_ settled
  · rw [after.settled open_]
    exact before

namespace Preserves
variable {d mid after : Db}

theorem refl (d : Db) : Preserves d d where
  orders found := ⟨_, found, .refl _⟩
  items _ := rfl
  payments found := ⟨_, found, rfl, rfl⟩
  movements := List.prefix_rfl
  jobs := List.prefix_rfl

theorem trans (first : Preserves d mid) (second : Preserves mid after) : Preserves d after where
  orders found := by
    obtain ⟨row, there, before⟩ := first.orders found
    obtain ⟨later, here, becomes⟩ := second.orders there
    exact ⟨later, here, before.trans becomes⟩
  items found := by
    obtain ⟨row, there, -⟩ := first.orders found
    exact (second.items there).trans (first.items found)
  payments found := by
    obtain ⟨row, there, order, key⟩ := first.payments found
    obtain ⟨later, here, order', key'⟩ := second.payments there
    exact ⟨later, here, order'.trans order, key'.trans key⟩
  movements := first.movements.trans second.movements
  jobs := first.jobs.trans second.jobs

end Preserves

section Steps
variable {A₀ : Uuid × Uuid → Int} {d after : Db} {o w : Uuid} {row : OrderRow}

theorem Reserved.preserves {draft : Draft} (done : Reserved draft w d after)
    (fresh : d.orders.lookup draft.orderId = none) : Preserves d after := by
  obtain ⟨row, inserted, -⟩ := done.order
  obtain ⟨items, postings, added, owned, -, posted, -⟩ := done.items
  obtain ⟨ms, grown, -⟩ := posted.movements
  have other : ∀ {o row}, d.orders.lookup o = some row → o ≠ draft.orderId := by
    rintro o row found rfl
    cases fresh.symm.trans found
  refine ⟨fun found => ⟨_, ?_, .refl _⟩, fun found => ?_, fun found => ⟨_, ?_, rfl, rfl⟩,
    ⟨ms, grown.symm⟩, done.jobs ▸ List.prefix_rfl⟩
  · rw [inserted, AList.lookup_insert_ne (other found)]
    exact found
  · rw [itemsOf_added added fun item member => (owned item member).1, if_neg (other found),
      List.append_nil]
  · rw [done.payments]
    exact found

theorem Settles.preserves {call : SettleCall} {createdAt : Date}
    (done : Settles call createdAt row d after) (stored : d.orders.lookup call.orderId = some row)
    (pending : row.status = .PENDING_PAYMENT) : Preserves d after := by
  obtain ⟨row', inserted, target, -, frame⟩ := done.order
  obtain ⟨occurredAt, sent⟩ := done.jobs
  obtain ⟨postings, posted, -⟩ := done.postings
  obtain ⟨ms, grown, -⟩ := posted.movements
  have becomes : row.Becomes row' := by
    refine ⟨frame, .inr ⟨pending, ?_⟩, fun settled => absurd pending settled⟩
    rw [target]
    cases call with
    | confirmCaptured _ _ => exact .inl rfl
    | failDeclined _ _ => exact .inr (.inl rfl)
    | cancelUnpaid _ _ _ => exact .inr (.inr rfl)
  have evolves : Evolves [] d after := done.evolves stored pending
  refine ⟨fun {o found} lookup => ?_, fun _ => ?_, evolves.payments, ⟨ms, grown.symm⟩,
    sent ▸ List.prefix_append _ _⟩
  · by_cases same : o = call.orderId
    · subst same
      cases stored.symm.trans lookup
      exact ⟨row', by rw [inserted, AList.lookup_insert], becomes⟩
    · exact ⟨found, by rw [inserted, AList.lookup_insert_ne same, lookup], .refl found⟩
  · simp only [Db.itemsOf, done.orderItems]

theorem Settled.preserves {call : SettleCall} {result : SettlementResult}
    (settled : Settled call d after result) : Preserves d after := by
  cases settled with
  | already _ _ _ same => exact same ▸ .refl d
  | now _ _ stored pending done => exact done.preserves stored pending

theorem Saves.preserves {payment : PaymentOrmEntity} {stored : Option PaymentOrmEntity}
    (saves : Saves payment d stored after) (own : payment.Mine d) : Preserves d after := by
  have evolves := (saves.spec own).2.2
  cases saves with
  | inserted _ | updated _ =>
    exact ⟨fun found => ⟨_, found, .refl _⟩, fun _ => rfl, evolves.payments,
      List.prefix_rfl, List.prefix_rfl⟩
  | missed _ => exact .refl d

theorem Commits.preserves {ctl ctl' : Ctl} (commits : Commits d ctl after ctl')
    (alone : ctl.Alone d) : Preserves d after := by
  cases commits with
  | reserve ran => exact (attemptCandidate_spec alone ran).1.preserves alone
  | insert _ saves | record _ _ saves | leave _ _ saves => exact saves.preserves alone.1.1
  | confirm _ settled | decline _ settled | resolve settled => exact settled.preserves

end Steps

section Runs
variable {P : Type} [DecidableEq P] {catalogue : Catalogue} {sha256 : String → String}
  {stock : Stock} {clock : Timestamptz} {s t : Processes P} {a b : World P}

theorem preserves_step (does : Does sha256 a b) (owned : Owned a) : Preserves a.data b.data := by
  cases does with
  | commit commits => exact commits.preserves (owned.alone _)
  | rewind _ | move _ | happen _ => exact .refl _

end Runs

section Lamp

/-- Two lamps are reserved and not paid for. -/
def lampReserved : Processes Bool :=
  ((initial Bool lampStock ⟨1000000⟩).run store (system lampCatalogue lampSha256)
    lampReserve).get (by decide +kernel)

theorem lampReserved_run : (initial Bool lampStock ⟨1000000⟩).run store
    (system lampCatalogue lampSha256) lampReserve = some lampReserved :=
  (Option.some_get _).symm

theorem lampReserved_sold :
    Relation.ReflTransGen (State.Next store (system lampCatalogue lampSha256))
      lampReserved lampSold := by
  have run := lampSold_run
  rw [List.append_assoc, List.append_assoc, List.append_assoc, State.run_append,
    lampReserved_run, Option.bind_some] at run
  exact State.reaches_of_run run

end Lamp

end Canals
