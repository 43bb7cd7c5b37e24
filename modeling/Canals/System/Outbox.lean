import Canals.Orders.Settlers
import Canals.System.Ledger

/-! The outbox: an order that is confirmed has one job in each of its queues from
the moment it is confirmed on, and no other order has any. -/
namespace Canals
open Locking

def Db.announced (d : Db) (o : Uuid) : Bool :=
  (d.orders.lookup o).any fun row => row.status = .CONFIRMED

def Db.Outbox (d : Db) : Prop :=
  ∀ o, d.queuesOf o = if d.announced o then CONFIRMED_QUEUES else []

section Steps
variable {A₀ : Uuid × Uuid → Int} {d after : Db} {w : Uuid} {row : OrderRow}

theorem Db.Outbox.congr (outbox : d.Outbox) (jobs : after.jobs = d.jobs)
    (announced : ∀ o, after.announced o = d.announced o) : after.Outbox := by
  intro o
  rw [Db.queuesOf, jobs, announced]
  exact outbox o

theorem Reserved.outbox {draft : Draft} (done : Reserved draft w d after)
    (fresh : d.orders.lookup draft.orderId = none) (outbox : d.Outbox) : after.Outbox := by
  obtain ⟨row, inserted, pending, -⟩ := done.order
  refine outbox.congr done.jobs fun o => ?_
  by_cases mine : o = draft.orderId
  · subst mine
    simp [Db.announced, inserted, fresh, pending]
  · rw [Db.announced, inserted, AList.lookup_insert_ne mine, Db.announced]

theorem Settles.outbox {call : SettleCall} {createdAt : Date}
    (done : Settles call createdAt row d after) (stored : d.orders.lookup call.orderId = some row)
    (pending : row.status = .PENDING_PAYMENT) (outbox : d.Outbox) : after.Outbox := by
  obtain ⟨row', stored', target, -, -, -, others⟩ := done.settledRow
  intro o
  rw [done.queuesOf, outbox o]
  by_cases mine : o = call.orderId
  · subst mine
    simp [Db.announced, stored, stored', pending, target]
  · have same : after.announced o = d.announced o := by
      rw [Db.announced, others o mine, Db.announced]
    simp only [same, Ne.symm mine, false_and, if_false, List.append_nil]

theorem Settled.outbox {call : SettleCall} {result : SettlementResult}
    (settled : Settled call d after result) (outbox : d.Outbox) : after.Outbox := by
  cases settled with
  | already _ _ _ same => exact same ▸ outbox
  | now _ _ stored pending done => exact done.outbox stored pending outbox

theorem Saves.outbox {payment : PaymentOrmEntity} {stored : Option PaymentOrmEntity}
    (saves : Saves payment d stored after) (outbox : d.Outbox) : after.Outbox := by
  cases saves <;> exact outbox

end Steps

section Runs
variable {P : Type} [DecidableEq P] {catalogue : Catalogue} {sha256 : String → String}
  {stock : Stock} {clock : Timestamptz} {s : Processes P} {a b : World P}

theorem outbox_step (does : Does sha256 a b) (owned : Owned a) (outbox : a.data.Outbox) :
    b.data.Outbox := by
  cases does with
  | @commit p after ctl commits =>
    have alone := owned.alone p
    generalize a.ctl p = before at commits alone
    cases commits with
    | reserve ran => exact (attemptCandidate_spec alone ran).1.outbox alone outbox
    | insert _ saves | record _ _ saves | leave _ _ saves => exact saves.outbox outbox
    | confirm _ settled | decline _ settled | resolve settled => exact settled.outbox outbox
  | rewind _ | move _ | happen _ => exact outbox

theorem Runs.outbox (run : Reachable catalogue sha256 stock clock s) : s.data.Outbox := by
  refine run.invariant (I := fun a => a.data.Outbox) (fun o => ?_) fun before outbox does _ =>
    outbox_step does before.owned outbox
  simp [Db.queuesOf, Db.announced, State.committed, initial]

end Runs

section Jobs
variable {d : Db} {o : Uuid} {queue : String}

/-- Where an order's queues are distinct, a queue's job for it has one number. -/
theorem jobs_unique (distinct : (d.queuesOf o).Nodup) {i j : Nat} {job job' : Job}
    (here : d.jobs[i]? = some job) (there : d.jobs[j]? = some job') (mine : job.orderId = o)
    (mine' : job'.orderId = o) (same : job.queue = job'.queue) : i = j := by
  rw [Db.queuesOf, List.nodup_iff_pairwise_ne, List.pairwise_map, List.pairwise_filter,
    List.pairwise_iff_getElem] at distinct
  obtain ⟨below, rfl⟩ := List.getElem?_eq_some_iff.mp here
  obtain ⟨below', rfl⟩ := List.getElem?_eq_some_iff.mp there
  by_contra apart
  rcases Nat.lt_or_gt_of_ne apart with less | less
  · exact distinct i j below below' less (by simpa using mine) (by simpa using mine') same
  · exact distinct j i below' below less (by simpa using mine') (by simpa using mine) same.symm

theorem Db.Outbox.distinct (outbox : d.Outbox) (o : Uuid) : (d.queuesOf o).Nodup := by
  rw [outbox o]
  split
  · decide
  · exact List.nodup_nil

/-- A confirmed order's job in one of its queues. -/
theorem Db.Outbox.job (outbox : d.Outbox) (announced : d.announced o)
    (routed : queue ∈ CONFIRMED_QUEUES) :
    ∃ (i : Nat) (job : Job), d.jobs[i]? = some job ∧ job.queue = queue ∧ job.orderId = o := by
  have listed : queue ∈ d.queuesOf o := by
    rw [outbox o, if_pos announced]
    exact routed
  obtain ⟨job, member, rfl⟩ := List.mem_map.mp listed
  obtain ⟨sent, mine⟩ := List.mem_filter.mp member
  obtain ⟨i, found⟩ := List.mem_iff_getElem?.mp sent
  exact ⟨i, job, found, rfl, by simpa using mine⟩

theorem Db.Outbox.announced (outbox : d.Outbox) {job : Job} (sent : job ∈ d.jobs) :
    d.announced job.orderId ∧ job.queue ∈ CONFIRMED_QUEUES := by
  have listed : job.queue ∈ d.queuesOf job.orderId :=
    List.mem_map_of_mem (List.mem_filter.mpr ⟨sent, by simp⟩)
  rw [outbox job.orderId] at listed
  split at listed
  · exact ⟨‹_›, listed⟩
  · cases listed

end Jobs

end Canals
