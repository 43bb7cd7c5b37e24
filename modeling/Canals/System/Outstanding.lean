import Canals.Orders.Resolving
import Canals.Relational.Query
import Canals.System.Steps

/-! What the reaper and the reconciliation still have to resolve, oldest first. A
run selects the head of it; settling the order of a row takes that row off. -/
namespace Canals
open Locking Relational

deriving instance DecidableEq for ExpiredReservationRow
deriving instance DecidableEq for UnsettledPaymentRow
deriving instance DecidableEq for Task

/-- What `getStatus` resolves to for an idempotency key; `none` where it throws. -/
abbrev StatusAnswers := String → Option ChargeResult

/-- `resolveReservation` and `resolvePayment` up to the settlement they call, if any. -/
def Task.call (getStatus : StatusAnswers) (task : Task) : Option SettleCall :=
  match task.payment with
  | none => some (.cancelUnpaid task.orderId "RESERVATION_EXPIRED_NO_PAYMENT" none)
  | some (_, idempotencyKey) => (getStatus idempotencyKey).bind task.resolve

/-- The row's answer is definitive: the order is to be settled. -/
def Task.decides (getStatus : StatusAnswers) (o : Uuid) (task : Task) : Bool :=
  task.orderId = o && (task.call getStatus).isSome

/-- One turn of the loop, which no exception ends. -/
inductive Turn (getStatus : StatusAnswers) (task : Task) (d : Db) : Db → Prop where
  | left : task.call getStatus = none → Turn getStatus task d d
  | settled {call result after} : task.call getStatus = some call →
      call.run.Alone store d result after → Turn getStatus task d after

/-- The loop over the rows of one batch. -/
inductive Worked (getStatus : StatusAnswers) : List Task → Db → Db → Prop where
  | nil {d} : Worked getStatus [] d d
  | cons {task rest d mid after} : Turn getStatus task d mid → Worked getStatus rest mid after →
      Worked getStatus (task :: rest) d after

inductive JobHandler where
  | reservationReaper
  | paymentReconciliation

namespace JobHandler

/-- The selection a run begins with; nobody else holds a lock. -/
def select (handler : JobHandler) (d : Db) (now : Timestamptz) : List Task :=
  match handler with
  | reservationReaper => (d.selectExpiredReservations (fun _ => false) now).map .expired
  | paymentReconciliation => (d.selectUnsettledPayments (fun _ => false) now).map .unsettled

/-- The rows the handler has to resolve sooner or later, with the time they go by. -/
def outstanding (handler : JobHandler) (d : Db) : List (Int × Task) :=
  match handler with
  | reservationReaper =>
    (d.orders.entries.filter fun entry => entry.2.status = .PENDING_PAYMENT &&
      entry.2.reservationExpiresAt.isSome).map fun entry =>
        ((entry.2.reservationExpiresAt.map (·.us)).getD 0,
          .expired ⟨entry.1, d.latestPayment entry.1⟩)
  | paymentReconciliation =>
    (d.payments.entries.filter fun entry => entry.2.settledAt.isNone && entry.2.unsettled).map
      fun entry => (entry.2.createdAt.us,
        .unsettled ⟨entry.1, entry.2.orderId, entry.2.idempotencyKey⟩)

/-- A row is due when its time lies before this. -/
def due (handler : JobHandler) (now : Timestamptz) : Int :=
  match handler with
  | reservationReaper => now.us
  | paymentReconciliation => now.us - RECONCILIATION_GRACE_MINUTES * 60000000

/-- The whole backlog, oldest first: the selection without its `LIMIT`. -/
def backlog (handler : JobHandler) (d : Db) (now : Timestamptz) : List Task :=
  (below (·.1) (handler.due now) (handler.outstanding d)).map (·.2)

def BATCH_SIZE : JobHandler → Nat
  | reservationReaper => REAPER_BATCH_SIZE
  | paymentReconciliation => RECONCILIATION_BATCH_SIZE

/-- Attempting the row leaves it where it is: its answer settles nothing, or its order cannot be
settled, or an earlier row of the queue settles the same order. -/
def stays (d : Db) (getStatus : StatusAnswers) (queue : List Task) (task : Task) : Bool :=
  !(d.settleable task.orderId && queue.find? (·.decides getStatus task.orderId) = some task)

variable {handler : JobHandler} {d : Db} {now : Timestamptz}

theorem select_eq : handler.select d now = (handler.backlog d now).take handler.BATCH_SIZE := by
  cases handler with
  | reservationReaper =>
      simp only [select, Db.selectExpiredReservations, backlog, outstanding, below_map,
        List.map_map, List.map_take]
      rw [below, List.filter_filter]
      refine congrArg (fun rows => ((List.insertionSort _ rows).map _).take _) ?_
      refine List.filter_congr fun entry _ => ?_
      cases entry.2.reservationExpiresAt with
      | none => simp
      | some expiresAt =>
          simp only [Option.any_some, Bool.not_false, Bool.and_true, Option.isSome_some, due,
            Option.map_some, Option.getD_some]
          exact Bool.and_comm ..
  | paymentReconciliation =>
      simp only [select, Db.selectUnsettledPayments, backlog, outstanding, below_map,
        List.map_map, List.map_take]
      rw [below, List.filter_filter]
      refine congrArg (fun rows => ((List.insertionSort _ rows).map _).take _) ?_
      refine List.filter_congr fun entry _ => ?_
      rw [Bool.not_false, Bool.and_true]
      exact Bool.and_comm ..

end JobHandler

/-- Runs of `handle` one after the other, at these times, with no other writes; with the batch each
of them worked on. -/
inductive Handled (handler : JobHandler) (getStatus : StatusAnswers) :
    List Timestamptz → Db → List (List Task) → Db → Prop where
  | nil {d} : Handled handler getStatus [] d [] d
  | cons {now later d mid batches after} : Worked getStatus (handler.select d now) d mid →
      Handled handler getStatus later mid batches after →
      Handled handler getStatus (now :: later) d (handler.select d now :: batches) after

section Removal
variable {β : Uuid → Type} {k k' : Uuid}

theorem kerase_eq_filter {entries : List (Sigma β)} (distinct : entries.NodupKeys) :
    entries.kerase k = entries.filter (·.1 ≠ k) := by
  induction entries with
  | nil => rfl
  | cons entry entries ih =>
      obtain ⟨absent, distinct⟩ := List.nodupKeys_cons.mp distinct
      by_cases here : k = entry.1
      · have others : entries.filter (·.1 ≠ k) = entries := by
          apply List.filter_eq_self.mpr
          intro other member
          rw [decide_eq_true_iff, here]
          intro same
          exact absent (same ▸ List.mem_keys_of_mem member)
        rw [List.kerase_cons_eq here, List.filter_cons_of_neg (by simp [here]), others]
      · rw [List.kerase_cons_ne here, ih distinct,
          List.filter_cons_of_pos (by simpa using Ne.symm here)]

/-- Rewriting a row takes it out of those that satisfy a condition it no longer does. -/
theorem filter_insert {rows : AList β} {row : β k} (holds : Sigma β → Bool)
    (out : holds ⟨k, row⟩ = false) : (rows.insert k row).entries.filter holds =
      (rows.entries.filter holds).filter (·.1 ≠ k) := by
  rw [AList.entries_insert, List.filter_cons_of_neg (by simp [out]),
    kerase_eq_filter rows.nodupKeys, List.filter_comm]

end Removal

section Calls
variable {getStatus : StatusAnswers} {task : Task} {call : SettleCall}

theorem call_orderId (called : task.call getStatus = some call) : call.orderId = task.orderId := by
  rw [Task.call] at called
  split at called
  · cases called
    rfl
  · obtain ⟨chargeResult, -, resolved⟩ := Option.bind_eq_some_iff.mp called
    unfold Task.resolve at resolved
    dsimp only at resolved
    split at resolved <;> cases resolved <;> rfl

/-- The payment a settlement resolves is the one of the row. -/
theorem call_payment (called : task.call getStatus = some call) :
    call.payment.map (·.paymentId) = task.payment.map (·.1) := by
  rw [Task.call] at called
  split at called
  · rename_i none
    cases called
    rw [none]
    rfl
  · rename_i paymentId key some
    obtain ⟨chargeResult, -, resolved⟩ := Option.bind_eq_some_iff.mp called
    unfold Task.resolve at resolved
    dsimp only at resolved
    split at resolved <;> cases resolved <;> rw [some] <;> rfl

end Calls

section Outstanding
variable {handler : JobHandler} {d after : Db} {getStatus : StatusAnswers} {task : Task}
  {call : SettleCall} {createdAt : Date} {row : OrderRow} {o o' : Uuid}
  {payment : Option PaymentResolution} {now : Timestamptz}

/-- Settling a payment of one order leaves the latest payment of another. -/
theorem latestPayment_frame (payments : after.payments = d.settledPayments payment now)
    (owned : ∀ p ∈ payment, ∀ row, d.payments.lookup p.paymentId = some row → row.orderId = o)
    (other : o' ≠ o) : after.latestPayment o' = d.latestPayment o' := by
  rcases settledPayments_cases d payment now with same | ⟨p, row, chosen, found, -, same⟩
  · rw [Db.latestPayment, payments, same, Db.latestPayment]
  · have mine := owned p chosen row found
    have out : decide ((row.settle p.chargeResult now).orderId = o') = false :=
      decide_eq_false (mine ▸ Ne.symm other)
    have kept : ((d.payments.entries.filter (·.2.orderId = o')).filter (·.1 ≠ p.paymentId)) =
        d.payments.entries.filter (·.2.orderId = o') := by
      apply List.filter_eq_self.mpr
      intro entry member
      obtain ⟨inside, his⟩ := List.mem_filter.mp member
      rw [decide_eq_true_iff] at his ⊢
      intro same
      have stored : d.payments.lookup p.paymentId = some entry.2 :=
        AList.mem_lookup_iff.mpr (same ▸ inside)
      cases found.symm.trans stored
      exact other (his.symm.trans mine)
    have rows : (d.payments.insert p.paymentId (row.settle p.chargeResult now)).entries.filter
        (·.2.orderId = o') = _ := filter_insert _ out
    rw [Db.latestPayment, payments, same, rows, kept, Db.latestPayment]

/-- A row of the task is one of the table it is selected from. -/
theorem mem_outstanding (listed : task ∈ (handler.outstanding d).map (·.2)) :
    match handler with
    | .reservationReaper => ∃ row, d.orders.lookup task.orderId = some row ∧
        row.status = .PENDING_PAYMENT ∧
        task = .expired ⟨task.orderId, d.latestPayment task.orderId⟩
    | .paymentReconciliation => ∃ i row, d.payments.lookup i = some row ∧ row.unsettled ∧
        task = .unsettled ⟨i, row.orderId, row.idempotencyKey⟩ := by
  obtain ⟨_, member, rfl⟩ := List.mem_map.mp listed
  cases handler with
  | reservationReaper =>
      obtain ⟨entry, kept, rfl⟩ := List.mem_map.mp member
      obtain ⟨inside, wanted⟩ := List.mem_filter.mp kept
      simp only [Bool.and_eq_true, decide_eq_true_eq] at wanted
      exact ⟨entry.2, AList.mem_lookup_iff.mpr inside, wanted.1, rfl⟩
  | paymentReconciliation =>
      obtain ⟨entry, kept, rfl⟩ := List.mem_map.mp member
      obtain ⟨inside, wanted⟩ := List.mem_filter.mp kept
      simp only [Bool.and_eq_true] at wanted
      exact ⟨entry.1, entry.2, AList.mem_lookup_iff.mpr inside, wanted.2, rfl⟩

/-- Settling the order of a row takes that row, and no other, off the list. -/
theorem outstanding_settled (listed : task ∈ (handler.outstanding d).map (·.2))
    (called : task.call getStatus = some call) (done : Settles call createdAt row d after) :
    handler.outstanding after = (handler.outstanding d).filter (·.2 ≠ task) := by
  obtain ⟨now, payments⟩ := done.payments
  have mine := call_orderId called
  cases handler with
  | reservationReaper =>
      obtain ⟨order, stored, pending, same⟩ := mem_outstanding listed
      obtain ⟨order', inserted, target, -⟩ := done.order
      have closed : order'.status ≠ .PENDING_PAYMENT := target ▸ target_ne_pending call
      have paid : ∀ p ∈ call.payment, ∀ row, d.payments.lookup p.paymentId = some row →
          row.orderId = call.orderId := by
        intro p resolved row found
        have latest := call_payment called
        rw [same, resolved] at latest
        obtain ⟨⟨i, key⟩, newest, id⟩ := Option.map_eq_some_iff.mp latest.symm
        obtain ⟨entry, argmax, pair⟩ := Option.map_eq_some_iff.mp newest
        cases pair
        obtain ⟨inside, his⟩ := List.mem_filter.mp (List.argmax_mem argmax)
        have there := AList.mem_lookup_iff.mpr inside
        rw [show entry.1 = p.paymentId from id] at there
        cases found.symm.trans there
        rw [mine]
        exact of_decide_eq_true his
      have others : ∀ entry : (_ : Uuid) × OrderRow, entry.1 ≠ call.orderId ↔
          Task.expired ⟨entry.1, d.latestPayment entry.1⟩ ≠ task := by
        intro entry
        rw [same, mine]
        constructor
        · intro other equal
          exact other (congrArg Task.orderId equal)
        · intro other equal
          rw [equal] at other
          exact other rfl
      simp only [JobHandler.outstanding, inserted]
      rw [filter_insert _ (by simp [closed]), List.filter_map,
        List.filter_congr fun entry _ => decide_eq_decide.mpr (others entry)]
      apply List.map_congr_left
      intro entry kept
      have other := (others entry).mpr (of_decide_eq_true (List.mem_filter.mp kept).2)
      rw [latestPayment_frame payments paid other]
  | paymentReconciliation =>
      obtain ⟨i, payment, stored, unsettled, same⟩ := mem_outstanding listed
      have resolved := call_payment called
      rw [same] at resolved
      obtain ⟨p, chosen, id⟩ := Option.map_eq_some_iff.mp resolved
      change p.paymentId = i at id
      have inserted : after.payments = d.payments.insert i (payment.settle p.chargeResult now) := by
        rw [payments, chosen, Db.settledPayments, id]
        simp only [stored, unsettled, if_true]
      have others : ∀ entry ∈ d.payments.entries, entry.1 ≠ i ↔ Task.unsettled
          ⟨entry.1, entry.2.orderId, entry.2.idempotencyKey⟩ ≠ task := by
        intro entry inside
        rw [same]
        constructor
        · intro other equal
          exact other (UnsettledPaymentRow.mk.inj (Task.unsettled.inj equal)).1
        · intro other equal
          apply other
          have there : d.payments.lookup i = some entry.2 :=
            AList.mem_lookup_iff.mpr (equal ▸ inside)
          cases stored.symm.trans there
          rw [equal]
      simp only [JobHandler.outstanding, inserted]
      rw [filter_insert _ (by simp [PaymentRow.settle]), List.filter_map]
      refine congrArg _ (List.filter_congr fun entry kept => decide_eq_decide.mpr ?_)
      exact others entry (List.mem_of_mem_filter kept)

theorem mem_backlog (listed : task ∈ handler.backlog d now) :
    task ∈ (handler.outstanding d).map (·.2) := by
  obtain ⟨entry, due, rfl⟩ := List.mem_map.mp listed
  exact List.mem_map_of_mem (mem_below.mp due).1

theorem backlog_settled (listed : task ∈ (handler.outstanding d).map (·.2))
    (called : task.call getStatus = some call) (done : Settles call createdAt row d after)
    (now : Timestamptz) : handler.backlog after now =
      (handler.backlog d now).filter (· ≠ task) := by
  rw [JobHandler.backlog, outstanding_settled listed called done, ← filter_below,
    JobHandler.backlog, List.filter_map]
  rfl

theorem backlog_prefix {later : Timestamptz} (order : now.us ≤ later.us) :
    handler.backlog d now <+: handler.backlog d later := by
  refine ( below_prefix ?_ _).map _
  cases handler with
  | reservationReaper => exact order
  | paymentReconciliation => exact Int.sub_le_sub_right order _

/-- The row a task is about, in the table of its handler. -/
def Task.rowId : Task → Uuid
  | .expired row => row.id
  | .unsettled row => row.id

theorem nodup_backlog : (handler.backlog d now).Nodup := by
  have rows : ((handler.outstanding d).map fun entry => entry.2.rowId).Nodup := by
    cases handler with
    | reservationReaper =>
        rw [JobHandler.outstanding, List.map_map]
        exact (List.filter_sublist.map _).nodup d.orders.nodupKeys
    | paymentReconciliation =>
        rw [JobHandler.outstanding, List.map_map]
        exact (List.filter_sublist.map _).nodup d.payments.nodupKeys
  have due : ((below (·.1) (handler.due now) (handler.outstanding d)).map
      fun entry => entry.2.rowId).Nodup := by
    apply ((List.perm_insertionSort _ _).map _).nodup_iff.mpr
    exact (List.filter_sublist.map _).nodup rows
  apply List.Nodup.of_map Task.rowId
  rw [JobHandler.backlog, List.map_map]
  exact due

end Outstanding

end Canals
