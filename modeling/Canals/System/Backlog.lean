import Canals.Queueing.Backlog
import Canals.System.Outstanding
import Canals.Text.Decimal

/-! The backlogs of the reaper and of the reconciliation. A run works on the
oldest fifty rows that are still open; a row leaves only when its order is
settled, so the rows that stay are selected again, ahead of the rest. -/
namespace Canals
open Locking Relational

section Turns
variable {handler : JobHandler} {A₀ : Uuid × Uuid → Int} {d mid after : Db}
  {getStatus : StatusAnswers} {task : Task} {now : Timestamptz} {mark : Task → Bool}

/-- A turn settles the order of its row, or changes nothing. -/
theorem turn_cases (books : Consistent A₀ d) (room : ∀ key, A₀ key ≤ 2147483647)
    (turn : Turn getStatus task d after) :
    (d.settleable task.orderId ∧ Consistent A₀ after ∧ ∃ call createdAt row,
        task.call getStatus = some call ∧ Settles call createdAt row d after) ∨
      (¬ (d.settleable task.orderId ∧ (task.call getStatus).isSome) ∧ after = d) := by
  cases turn with
  | left none =>
      refine .inr ⟨?_, rfl⟩
      rintro ⟨-, some⟩
      rw [none] at some
      contradiction
  | settled called ran =>
      have mine := call_orderId called
      rcases settle_alone books room ran with
          ⟨able, row, createdAt, stored, pending, done⟩ | ⟨unable, same⟩
      · exact .inl ⟨mine ▸ able, done.consistent books stored pending, _, createdAt, row, called,
          done⟩
      · exact .inr ⟨fun both => unable (mine ▸ both.1), same⟩

theorem find?_others {rows : List Task} {holds : Task → Bool} (out : holds task = false) :
    (rows.filter (· ≠ task)).find? holds = rows.find? holds := by
  rw [List.find?_filter]
  congr 1
  funext other
  by_cases same : other = task
  · simp [same, out]
  · simp [same]

/-- Once an order is settled, its other rows stay. -/
theorem stays_settled {call : SettleCall} {createdAt : Date} {row : OrderRow} {rows : List Task}
    (called : task.call getStatus = some call) (done : Settles call createdAt row d after)
    (other : Task) : JobHandler.stays after getStatus (rows.filter (· ≠ task)) other =
      (decide (other.orderId = task.orderId) || JobHandler.stays d getStatus rows other) := by
  rw [JobHandler.stays, JobHandler.stays, done.settleable, call_orderId called]
  by_cases mine : other.orderId = task.orderId
  · simp [mine]
  · rw [find?_others (by simp [Task.decides, Ne.symm mine])]
    simp [mine]

theorem stays_eq_false {rows : List Task} : JobHandler.stays d getStatus rows task = false ↔
    d.settleable task.orderId ∧ rows.find? (·.decides getStatus task.orderId) = some task := by
  rw [JobHandler.stays, Bool.not_eq_false', Bool.and_eq_true, decide_eq_true_iff]

/-- The first row that decides its order, those before it staying, leaves. -/
theorem leaves_of_first {rows front rest : List Task} (shape : rows = front ++ task :: rest)
    (old : ∀ other ∈ front, JobHandler.stays d getStatus rows other)
    (able : d.settleable task.orderId) (decides : task.decides getStatus task.orderId) :
    JobHandler.stays d getStatus rows task = false := by
  refine stays_eq_false.mpr ⟨able, ?_⟩
  cases earlier : front.find? (·.decides getStatus task.orderId) with
  | none => rw [shape, List.find?_append, earlier, List.find?_cons_of_pos decides, Option.none_or]
  | some other =>
      have found : rows.find? (·.decides getStatus task.orderId) = some other := by
        rw [shape, List.find?_append, earlier, Option.some_or]
      have mine : other.orderId = task.orderId := by
        have holds := List.find?_some earlier
        rw [Task.decides, Bool.and_eq_true, decide_eq_true_iff] at holds
        exact holds.1
      have stays := old other (List.mem_of_find?_eq_some earlier)
      rw [stays_eq_false.mpr ⟨mine ▸ able, mine ▸ found⟩] at stays
      contradiction

/-- The database with the rows of its backlog marked as those that stay. -/
structure Marked (handler : JobHandler) (A₀ : Uuid × Uuid → Int) (getStatus : StatusAnswers)
    (now : Timestamptz) (mark : Task → Bool) (d : Db) : Prop where
  books : Consistent A₀ d
  marks : ∀ task ∈ handler.backlog d now,
    JobHandler.stays d getStatus (handler.backlog d now) task = mark task

/-- None but rows of the batch have left the backlog, at whatever time it is looked at. -/
def Thinned (handler : JobHandler) (batch : List Task) (d after : Db) : Prop :=
  ∃ keep : Task → Bool, (∀ other, other ∉ batch → keep other) ∧
    ∀ now, handler.backlog after now = (handler.backlog d now).filter keep

theorem Thinned.refl (batch : List Task) : Thinned handler batch d d :=
  ⟨fun _ => true, fun _ _ => rfl, fun _ => (List.filter_true _).symm⟩

theorem Thinned.trans {batch batch' : List Task} (first : Thinned handler batch d mid)
    (second : Thinned handler batch' mid after) : Thinned handler (batch ++ batch') d after := by
  obtain ⟨keep, others, first⟩ := first
  obtain ⟨keep', others', second⟩ := second
  refine ⟨_, ?_, fun now => by rw [second, first, List.filter_filter]⟩
  intro other absent
  rw [List.mem_append, not_or] at absent
  simp [others other absent.1, others' other absent.2]

theorem Thinned.mem {batch : List Task} (thinned : Thinned handler batch d after) {other : Task}
    (absent : other ∉ batch) (member : other ∈ handler.backlog d now) :
    other ∈ handler.backlog after now := by
  obtain ⟨keep, others, left⟩ := thinned
  rw [left]
  exact List.mem_filter.mpr ⟨member, others other absent⟩

theorem thinned_of_settled {call : SettleCall} {createdAt : Date} {row : OrderRow}
    (listed : task ∈ (handler.outstanding d).map (·.2)) (called : task.call getStatus = some call)
    (done : Settles call createdAt row d after) : Thinned handler [task] d after := by
  refine ⟨_, ?_, backlog_settled listed called done⟩
  intro other absent
  rw [decide_eq_true_iff]
  exact List.ne_of_not_mem_cons absent

/-- The row at hand leaves unless it is marked; those before it have had their turn. -/
theorem Marked.turn (marked : Marked handler A₀ getStatus now mark d)
    (room : ∀ key, A₀ key ≤ 2147483647) {front rest : List Task}
    (shape : handler.backlog d now = front ++ task :: rest) (old : ∀ other ∈ front, mark other)
    (turn : Turn getStatus task d after) : Marked handler A₀ getStatus now mark after ∧
      Thinned handler [task] d after ∧
      handler.backlog after now = front ++ [task].filter mark ++ rest := by
  have listed : task ∈ handler.backlog d now := by
    rw [shape]
    exact List.mem_append_right front List.mem_cons_self
  have front_stays : ∀ other ∈ front,
      JobHandler.stays d getStatus (handler.backlog d now) other := by
    intro other member
    have inside : other ∈ handler.backlog d now := shape ▸ List.mem_append_left _ member
    rw [marked.marks other inside]
    exact old other member
  rcases turn_cases marked.books room turn with
      ⟨able, books, call, createdAt, row, called, done⟩ | ⟨unable, same⟩
  · have decides : task.decides getStatus task.orderId := by simp [Task.decides, called]
    have leaves := leaves_of_first shape front_stays able decides
    have left := backlog_settled (mem_backlog listed) called done
    have others : (front ++ task :: rest).filter (· ≠ task) = front ++ rest := by
      have distinct : (front ++ task :: rest).Nodup := shape ▸ nodup_backlog
      rw [List.nodup_middle, List.nodup_cons] at distinct
      rw [List.filter_append, List.filter_cons_of_neg (by simp), ← List.filter_append]
      apply List.filter_eq_self.mpr
      intro other member
      rw [decide_eq_true_iff]
      rintro rfl
      exact distinct.1 member
    refine ⟨⟨books, ?_⟩, thinned_of_settled (mem_backlog listed) called done, ?_⟩
    · intro other member
      rw [left] at member ⊢
      obtain ⟨inside, apart⟩ := List.mem_filter.mp member
      rw [stays_settled called done, ← marked.marks other inside, Bool.or_eq_right_iff_imp]
      intro mine
      have found := (stays_eq_false.mp leaves).2
      rw [JobHandler.stays, of_decide_eq_true mine, found]
      simp [Ne.symm (of_decide_eq_true apart)]
    · rw [left, shape, others, List.filter_singleton, ← marked.marks task listed, leaves]
      simp
  · subst same
    refine ⟨marked, .refl _, ?_⟩
    have kept : mark task := by
      rw [← marked.marks task listed]
      by_contra out
      obtain ⟨able, found⟩ := stays_eq_false.mp (Bool.eq_false_iff.mpr out)
      have decides := List.find?_some found
      rw [Task.decides, Bool.and_eq_true] at decides
      exact unable ⟨able, decides.2⟩
    rw [shape, List.filter_singleton, kept, List.append_assoc]
    rfl

/-- Where every row of the backlog stays, a row that came due later changes none of them. -/
theorem Marked.turn_later (marked : Marked handler A₀ getStatus now mark d)
    (room : ∀ key, A₀ key ≤ 2147483647) {later : Timestamptz}
    (all : ∀ other ∈ handler.backlog d now, mark other) (listed : task ∈ handler.backlog d later)
    (new : task ∉ handler.backlog d now) (turn : Turn getStatus task d after) :
    Marked handler A₀ getStatus now mark after ∧ Thinned handler [task] d after ∧
      handler.backlog after now = handler.backlog d now := by
  rcases turn_cases marked.books room turn with
      ⟨able, books, call, createdAt, row, called, done⟩ | ⟨-, same⟩
  · have left := backlog_settled (mem_backlog listed) called done
    have others : (handler.backlog d now).filter (· ≠ task) = handler.backlog d now := by
      apply List.filter_eq_self.mpr
      intro other member
      rw [decide_eq_true_iff]
      rintro rfl
      exact new member
    refine ⟨⟨books, ?_⟩, thinned_of_settled (mem_backlog listed) called done,
      (left now).trans others⟩
    intro other member
    rw [left, others] at member
    rw [left, stays_settled called done, marked.marks other member, all other member,
      Bool.or_true]
  · subst same
    exact ⟨marked, .refl _, rfl⟩

/-- A batch of the rows at the head of the backlog. -/
theorem Marked.work (marked : Marked handler A₀ getStatus now mark d)
    (room : ∀ key, A₀ key ≤ 2147483647) {front batch rest : List Task}
    (shape : handler.backlog d now = front ++ batch ++ rest) (old : ∀ other ∈ front, mark other)
    (worked : Worked getStatus batch d after) : Marked handler A₀ getStatus now mark after ∧
      Thinned handler batch d after ∧
      handler.backlog after now = front ++ batch.filter mark ++ rest := by
  induction worked generalizing front with
  | nil => exact ⟨marked, .refl _, shape⟩
  | @cons task batch d mid after turn worked ih =>
      rw [List.append_assoc, List.cons_append] at shape
      obtain ⟨marked, thinned, shape⟩ := marked.turn room shape old turn
      rw [← List.append_assoc] at shape
      have kept : ∀ other ∈ front ++ [task].filter mark, mark other := by
        intro other member
        rcases List.mem_append.mp member with before | here
        · exact old other before
        · exact (List.mem_filter.mp here).2
      obtain ⟨marked, thinned', shape⟩ := ih marked shape kept
      refine ⟨marked, thinned.trans thinned', ?_⟩
      rw [shape, List.append_assoc front, ← List.filter_append]
      rfl

/-- The rest of the batch, which came due later. -/
theorem Marked.work_later (marked : Marked handler A₀ getStatus now mark d)
    (room : ∀ key, A₀ key ≤ 2147483647) {later : Timestamptz} {batch : List Task}
    (all : ∀ other ∈ handler.backlog d now, mark other) (distinct : batch.Nodup)
    (listed : ∀ task ∈ batch, task ∈ handler.backlog d later)
    (new : ∀ task ∈ batch, task ∉ handler.backlog d now)
    (worked : Worked getStatus batch d after) : Marked handler A₀ getStatus now mark after ∧
      Thinned handler batch d after ∧ handler.backlog after now = handler.backlog d now := by
  induction worked with
  | nil => exact ⟨marked, .refl _, rfl⟩
  | @cons task batch d mid after turn worked ih =>
      obtain ⟨apart, distinct⟩ := List.nodup_cons.mp distinct
      obtain ⟨due, listed⟩ := List.forall_mem_cons.mp listed
      obtain ⟨fresh, new⟩ := List.forall_mem_cons.mp new
      obtain ⟨marked, thinned, same⟩ := marked.turn_later room all due fresh turn
      have still : ∀ other ∈ batch, other ∈ handler.backlog mid later := by
        intro other member
        refine thinned.mem ?_ (listed other member)
        rw [List.mem_singleton]
        rintro rfl
        exact apart member
      rw [← same] at all new
      obtain ⟨marked, thinned', same'⟩ := ih marked all distinct still new
      exact ⟨marked, thinned.trans thinned', same'.trans same⟩

theorem worked_append {first second : List Task}
    (worked : Worked getStatus (first ++ second) d after) :
    ∃ mid, Worked getStatus first d mid ∧ Worked getStatus second mid after := by
  induction first generalizing d with
  | nil => exact ⟨d, .nil, worked⟩
  | cons task first ih =>
      cases worked with
      | cons turn worked =>
          obtain ⟨mid, front, back⟩ := ih worked
          exact ⟨mid, .cons turn front, back⟩

/-- A whole run serves the queue, whatever else has come due. -/
theorem Marked.handle (marked : Marked handler A₀ getStatus now mark d)
    (room : ∀ key, A₀ key ≤ 2147483647) {later : Timestamptz} (order : now.us ≤ later.us)
    (worked : Worked getStatus (handler.select d later) d after) :
    Marked handler A₀ getStatus now mark after ∧
      Thinned handler (handler.select d later) d after ∧ handler.backlog after now =
        Backlog.serve handler.BATCH_SIZE mark (handler.backlog d now) := by
  obtain ⟨extra, behind⟩ : handler.backlog d now <+: handler.backlog d later :=
    backlog_prefix order
  have distinct : (handler.backlog d now ++ extra).Nodup := behind ▸ nodup_backlog
  rw [JobHandler.select_eq, ← behind, List.take_append] at worked ⊢
  obtain ⟨mid, first, second⟩ := worked_append worked
  have shape : handler.backlog d now = [] ++ (handler.backlog d now).take handler.BATCH_SIZE ++
      (handler.backlog d now).drop handler.BATCH_SIZE := by
    rw [List.nil_append, List.take_append_drop]
  obtain ⟨marked', thinned, served⟩ := marked.work room shape (by simp) first
  rw [List.nil_append] at served
  by_cases full : handler.BATCH_SIZE ≤ (handler.backlog d now).length
  · rw [Nat.sub_eq_zero_of_le full, List.take_zero] at second ⊢
    cases second
    rw [List.append_nil]
    exact ⟨marked', thinned, served⟩
  · have none : (handler.backlog d now).drop handler.BATCH_SIZE = [] :=
      List.drop_of_length_le (by omega)
    have all : ∀ other ∈ handler.backlog mid now, mark other := by
      intro other member
      rw [served, none, List.append_nil] at member
      exact (List.mem_filter.mp member).2
    have apart := List.disjoint_of_nodup_append distinct
    have due : ∀ task ∈ extra.take (handler.BATCH_SIZE - (handler.backlog d now).length),
        task ∈ handler.backlog mid later := by
      intro task member
      have inside := List.mem_of_mem_take member
      refine thinned.mem (fun old => apart (List.mem_of_mem_take old) inside) ?_
      rw [← behind]
      exact List.mem_append_right _ inside
    have new : ∀ task ∈ extra.take (handler.BATCH_SIZE - (handler.backlog d now).length),
        task ∉ handler.backlog mid now := by
      intro task member old
      rw [served, none, List.append_nil] at old
      exact apart (List.mem_of_mem_take (List.mem_of_mem_filter old)) (List.mem_of_mem_take member)
    have distinct' := (List.take_sublist (handler.BATCH_SIZE - (handler.backlog d now).length)
      extra).nodup (List.nodup_append.mp distinct).2.1
    obtain ⟨marked', thinned', same⟩ :=
      Marked.work_later marked' room all distinct' due new second
    exact ⟨marked', thinned.trans thinned', same.trans served⟩

/-- Of the rows of the queue, a run selects those at its head. -/
theorem mem_select {later : Timestamptz} (order : now.us ≤ later.us)
    (known : task ∈ handler.backlog d later → task ∈ handler.backlog d now) :
    task ∈ handler.select d later ↔ task ∈ (handler.backlog d now).take handler.BATCH_SIZE := by
  obtain ⟨extra, behind⟩ : handler.backlog d now <+: handler.backlog d later :=
    backlog_prefix order
  have distinct : (handler.backlog d now ++ extra).Nodup := behind ▸ nodup_backlog
  rw [JobHandler.select_eq, ← behind, List.take_append, List.mem_append]
  constructor
  · rintro (here | new)
    · exact here
    · exfalso
      have inside := List.mem_of_mem_take new
      have old := known (behind ▸ List.mem_append_right _ inside)
      exact List.disjoint_of_nodup_append distinct old inside
  · exact .inl

/-- Run after run, the batches are those that serve the queue. -/
theorem Marked.handled {queue : List Task} {nows : List Timestamptz}
    {batches : List (List Task)} (ran : Handled handler getStatus nows d batches after)
    (marked : Marked handler A₀ getStatus now mark d) (room : ∀ key, A₀ key ≤ 2147483647)
    (order : ∀ later ∈ nows, now.us ≤ later.us)
    (known : ∀ x ∈ queue, ∀ later, x ∈ handler.backlog d later → x ∈ handler.backlog d now) :
    ∀ x ∈ queue, (∃ batch ∈ batches, x ∈ batch) ↔ ∃ batch ∈
      Backlog.batches handler.BATCH_SIZE mark nows.length (handler.backlog d now), x ∈ batch := by
  induction ran with
  | nil =>
      intro x _
      simp [Backlog.batches]
  | @cons later nows d mid batches after worked ran ih =>
      obtain ⟨first, order⟩ := List.forall_mem_cons.mp order
      obtain ⟨marked, ⟨keep, -, left⟩, served⟩ := marked.handle room first worked
      have known' : ∀ x ∈ queue, ∀ later, x ∈ handler.backlog mid later →
          x ∈ handler.backlog mid now := by
        intro x member later there
        rw [left] at there ⊢
        obtain ⟨there, kept⟩ := List.mem_filter.mp there
        exact List.mem_filter.mpr ⟨known x member later there, kept⟩
      have rest := ih marked order known'
      intro x member
      rw [List.length_cons, Backlog.batches, List.exists_mem_cons_iff, List.exists_mem_cons_iff,
        mem_select first (known x member later), rest x member, served]

end Turns

section Backlogs
variable {handler : JobHandler} {A₀ : Uuid × Uuid → Int} {d after : Db}
  {getStatus : StatusAnswers} {now : Timestamptz} {nows : List Timestamptz}
  {batches : List (List Task)}

/-- However many runs there are, they attempt the whole backlog exactly when it can be cut into as
many groups that fit a batch with the rows that stay from the groups before. -/
theorem backlog_reached_iff (books : Consistent A₀ d) (room : ∀ key, A₀ key ≤ 2147483647)
    (order : ∀ later ∈ nows, now.us ≤ later.us)
    (ran : Handled handler getStatus nows d batches after) :
    (∀ task ∈ handler.backlog d now, ∃ batch ∈ batches, task ∈ batch) ↔
      Backlog.Cuttable handler.BATCH_SIZE
        (JobHandler.stays d getStatus (handler.backlog d now)) nows.length
        (handler.backlog d now) := by
  have marked : Marked handler A₀ getStatus now
      (JobHandler.stays d getStatus (handler.backlog d now)) d := ⟨books, fun _ _ => rfl⟩
  have known : ∀ x ∈ handler.backlog d now, ∀ later, x ∈ handler.backlog d later →
      x ∈ handler.backlog d now := fun x member _ _ => member
  have reached := marked.handled ran room order known
  rw [← Backlog.reached_iff nodup_backlog]
  exact forall₂_congr reached

/-- As many runs as the backlog has batches attempt every row of it exactly when the rows that stay
leave room for the rest. -/
theorem backlog_worked_iff (books : Consistent A₀ d) (room : ∀ key, A₀ key ≤ 2147483647)
    (order : ∀ later ∈ nows, now.us ≤ later.us)
    (enough : nows.length = ((handler.backlog d now).length + 49) / 50)
    (ran : Handled handler getStatus nows d batches after) :
    (∀ task ∈ handler.backlog d now, ∃ batch ∈ batches, task ∈ batch) ↔
      Backlog.Cuttable 50 (JobHandler.stays d getStatus (handler.backlog d now))
        (((handler.backlog d now).length + 49) / 50) (handler.backlog d now) := by
  rw [← enough, backlog_reached_iff books room order ran]
  cases handler <;> exact Iff.rfl

end Backlogs

section Crowd
variable {n k : Nat}

/-- The id of the `k`-th row of a table. -/
def serial (k : Nat) : Uuid := String.ofList (Nat.toDigits 10 k)

theorem serial_inj {j k : Nat} : serial j = serial k ↔ j = k := by
  constructor
  · intro same
    exact Decimal.toDigits_inj (String.ofList_injective same)
  · intro same
    rw [same]

theorem filter_serial {α : Type} {row : Nat → α} {wanted : α → Bool} (inside : k < n)
    (only : ∀ j, wanted (row j) = decide (j = k)) :
    ((List.range n).map row).filter wanted = [row k] := by
  have same : wanted ∘ row = fun j => decide (j = k) := funext only
  rw [List.filter_map, same, List.filter_eq,
    List.count_eq_one_of_mem List.nodup_range (List.mem_range.mpr inside)]
  rfl

/-- The `k`-th of many orders of one lamp each, its reservation over at microsecond `k`. -/
def crowdRow (k : Nat) : OrderRow :=
  { lampRow with
    orderNumber := "CNL-2026-" ++ String.ofList (Decimal.lpad (Nat.toDigits 10 k) 6 '0')
    totalCents := 1250
    reservationExpiresAt := some ⟨k⟩ }

def crowdPayment (k : Nat) : PaymentRow where
  orderId := serial k
  attempt := FIRST_PAYMENT_ATTEMPT
  provider := "mock-gateway"
  providerPaymentId := none
  idempotencyKey := buildChargeIdempotencyKey (serial k) FIRST_PAYMENT_ATTEMPT
  status := .UNKNOWN
  amountCents := 1250
  currency := "USD"
  cardLast4 := some "4242"
  cardBrand := some "visa"
  failureCode := some "TIMEOUT"
  settledAt := none
  createdAt := ⟨k⟩
  updatedAt := ⟨k⟩

theorem nodup_serial (n : Nat) : ((List.range n).map serial).Nodup :=
  List.nodup_range.map fun _ _ => serial_inj.mp

/-- `n` such orders, each charged with an unknown outcome. -/
def crowd (n : Nat) : Db where
  orders := ⟨(List.range n).map fun k => ⟨serial k, crowdRow k⟩, by
    rw [List.NodupKeys, List.keys, List.map_map]
    exact nodup_serial n⟩
  orderItems := (List.range n).map fun k => ⟨serial k, "lamp", 1, "SKU-1", "Lamp", 1250⟩
  inventory := AList.singleton ("denver", "lamp") ⟨0, n, n⟩
  movements := (List.range n).map fun k =>
    ⟨k + 1, "denver", "lamp", serial k, .RESERVE, -1, n - (k + 1), k + 1⟩
  payments := ⟨(List.range n).map fun k => ⟨serial k, crowdPayment k⟩, by
    rw [List.NodupKeys, List.keys, List.map_map]
    exact nodup_serial n⟩

theorem crowd_order {o : Uuid} {row : OrderRow} (stored : (crowd n).orders.lookup o = some row) :
    ∃ k < n, o = serial k ∧ row = crowdRow k := by
  obtain ⟨k, inside, same⟩ := List.mem_map.mp (AList.mem_lookup_iff.mp stored)
  cases same
  exact ⟨k, List.mem_range.mp inside, rfl, rfl⟩

theorem crowd_stored (inside : k < n) : (crowd n).orders.lookup (serial k) = some (crowdRow k) :=
  AList.mem_lookup_iff.mpr (List.mem_map.mpr ⟨k, List.mem_range.mpr inside, rfl⟩)

theorem crowd_itemsOf (inside : k < n) :
    (crowd n).itemsOf (serial k) = [⟨serial k, "lamp", 1, "SKU-1", "Lamp", 1250⟩] :=
  filter_serial inside fun _ => decide_eq_decide.mpr serial_inj

theorem crowd_movementsOf (inside : k < n) (p : Uuid) : (crowd n).movementsOf (serial k) p =
    if p = "lamp" then [⟨k + 1, "denver", "lamp", serial k, .RESERVE, -1, n - (k + 1), k + 1⟩]
    else [] := by
  split
  · rename_i same
    subst same
    exact filter_serial inside fun j => by simp [serial_inj]
  · rename_i other
    apply List.filter_eq_nil_iff.mpr
    intro m member
    obtain ⟨j, -, rfl⟩ := List.mem_map.mp member
    simp [Ne.symm other]

theorem crowd_quantityIn (status : OrderStatus) : (crowd n).quantityIn status "denver" "lamp" =
    if status = .PENDING_PAYMENT then (n : Int) else 0 := by
  have placed : ∀ k < n, (crowd n).placed (serial k) status "denver" =
      decide (status = .PENDING_PAYMENT) := by
    intro k inside
    rw [Db.placed, crowd_stored inside]
    simp [crowdRow, lampRow, eq_comm]
  have kept : ∀ item ∈ (crowd n).orderItems, (decide (item.productId = "lamp" ∧
      (crowd n).placed item.orderId status "denver")) = decide (status = .PENDING_PAYMENT) := by
    intro item member
    obtain ⟨k, inside, rfl⟩ := List.mem_map.mp member
    simp [placed k (List.mem_range.mp inside)]
  rw [Db.quantityIn, List.filter_congr kept]
  split
  · rename_i pending
    simp [pending, crowd, Function.comp_def]
  · rename_i other
    simp [other]

theorem consistent_crowd (n : Nat) : Consistent (fun _ => n) (crowd n) where
  orders o row stored := by
    obtain ⟨k, inside, rfl, rfl⟩ := crowd_order stored
    refine ⟨"denver", ?_, rfl, ?_, ?_, ?_, ?_, ?_, ?_⟩
    · simp [crowdRow, lampRow]
    · simp [crowd_itemsOf inside]
    · simp [crowd_itemsOf inside]
    · intro item member
      rw [crowd_itemsOf inside, List.mem_singleton] at member
      subst member
      rfl
    · simp [crowd_itemsOf inside, crowd_movementsOf inside, crowdRow, lampRow,
        OrderStatus.ledger, Movement.entry]
    · intro p
      rw [crowd_movementsOf inside]
      split <;> simp
    · intro p m member
      rw [crowd_movementsOf inside] at member
      split at member
      · rename_i same
        rw [List.mem_singleton] at member
        subst member same
        simp [crowd_itemsOf inside]
      · contradiction
  itemsOwned item member := by
    obtain ⟨k, inside, rfl⟩ := List.mem_map.mp member
    rw [crowd_stored (List.mem_range.mp inside)]
    rfl
  movementsOwned m member := by
    obtain ⟨k, inside, rfl⟩ := List.mem_map.mp member
    rw [crowd_stored (List.mem_range.mp inside)]
    rfl
  balances w p b found := by
    have member := AList.mem_lookup_iff.mp found
    obtain ⟨⟨rfl, rfl⟩, rfl⟩ : (w = "denver" ∧ p = "lamp") ∧ b = ⟨0, n, n⟩ := by
      simpa [crowd, AList.singleton] using member
    rw [crowd_quantityIn, crowd_quantityIn]
    simp

def noon : Timestamptz := ⟨43200000000⟩

/-- The provider knows the outcome of no charge. -/
def unknownAnswers : StatusAnswers :=
  fun _ => some (buildUnknownResult .timeout none none)

theorem crowd_latestPayment (inside : k < n) :
    (crowd n).latestPayment (serial k) = some (serial k, (crowdPayment k).idempotencyKey) := by
  have mine : (crowd n).payments.entries.filter (·.2.orderId = serial k) =
      [⟨serial k, crowdPayment k⟩] :=
    filter_serial inside fun _ => decide_eq_decide.mpr serial_inj
  rw [Db.latestPayment, mine]
  rfl

theorem crowd_call {task : Task}
    (listed : task ∈ JobHandler.reservationReaper.backlog (crowd n) noon) :
    task.call unknownAnswers = none := by
  obtain ⟨row, stored, -, same⟩ := mem_outstanding (mem_backlog listed)
  obtain ⟨k, inside, mine, -⟩ := crowd_order stored
  rw [same, mine, Task.call, Task.payment, crowd_latestPayment inside]
  rfl

theorem crowd_backlog (few : n ≤ 43200000000) :
    (JobHandler.reservationReaper.backlog (crowd n) noon).length = n := by
  have pending : (crowd n).orders.entries.filter (fun entry =>
      entry.2.status = .PENDING_PAYMENT && entry.2.reservationExpiresAt.isSome) =
      (crowd n).orders.entries := by
    apply List.filter_eq_self.mpr
    intro entry member
    obtain ⟨k, -, rfl⟩ := List.mem_map.mp member
    rfl
  have due : (JobHandler.reservationReaper.outstanding (crowd n)).filter
      (·.1 < JobHandler.reservationReaper.due noon) =
      JobHandler.reservationReaper.outstanding (crowd n) := by
    apply List.filter_eq_self.mpr
    intro row member
    obtain ⟨entry, kept, rfl⟩ := List.mem_map.mp member
    obtain ⟨k, inside, rfl⟩ := List.mem_map.mp (List.mem_of_mem_filter kept)
    have before := List.mem_range.mp inside
    apply decide_eq_true
    change (k : Int) < 43200000000
    omega
  rw [JobHandler.backlog, List.length_map, below, List.length_insertionSort, due,
    JobHandler.outstanding, List.length_map, pending]
  simp [crowd]

theorem worked_none {getStatus : StatusAnswers} {batch : List Task} {d : Db}
    (none : ∀ task ∈ batch, task.call getStatus = none) : Worked getStatus batch d d := by
  induction batch with
  | nil => exact .nil
  | cons task batch ih =>
      obtain ⟨here, none⟩ := List.forall_mem_cons.mp none
      exact .cons (.left here) (ih none)

/-- Runs over the crowd find the same batch over and over. -/
theorem crowd_handled (n times : Nat) : Handled .reservationReaper unknownAnswers
    (List.replicate times noon) (crowd n)
    (List.replicate times (JobHandler.reservationReaper.select (crowd n) noon)) (crowd n) := by
  induction times with
  | zero => exact .nil
  | succ times ih =>
      refine .cons (worked_none fun task chosen => ?_) ih
      rw [JobHandler.select_eq] at chosen
      exact crowd_call (List.mem_of_mem_take chosen)

theorem backlog_worked_iff_crowd :
    (∀ task ∈ JobHandler.reservationReaper.backlog (crowd 50) noon, ∃ batch ∈
      [JobHandler.reservationReaper.select (crowd 50) noon], task ∈ batch) ↔
    Backlog.Cuttable 50 (JobHandler.stays (crowd 50) unknownAnswers
        (JobHandler.reservationReaper.backlog (crowd 50) noon))
      (((JobHandler.reservationReaper.backlog (crowd 50) noon).length + 49) / 50)
      (JobHandler.reservationReaper.backlog (crowd 50) noon) :=
  backlog_worked_iff (consistent_crowd 50) (fun _ => by decide) (by simp)
    (by rw [crowd_backlog (by decide)]; rfl) (crowd_handled 50 1)

/-- Two runs over fifty-one reservations with unknown outcomes never get to the last of them. -/
theorem backlog_starves : ¬ ∀ (handler : JobHandler) (A₀ : Uuid × Uuid → Int) (d after : Db)
    (getStatus : StatusAnswers) (now : Timestamptz) (nows : List Timestamptz)
    (batches : List (List Task)), Consistent A₀ d → (∀ key, A₀ key ≤ 2147483647) →
    (∀ later ∈ nows, now.us ≤ later.us) →
    nows.length = ((handler.backlog d now).length + 49) / 50 →
    Handled handler getStatus nows d batches after →
    ∀ task ∈ handler.backlog d now, ∃ batch ∈ batches, task ∈ batch := by
  intro claim
  have count := crowd_backlog (n := 51) (by decide)
  have reached := claim .reservationReaper _ (crowd 51) (crowd 51) unknownAnswers noon
    (List.replicate 2 noon) _ (consistent_crowd 51) (fun _ => by decide) (by simp)
    (by rw [count]; rfl) (crowd_handled 51 2)
  have first : JobHandler.reservationReaper.backlog (crowd 51) noon ⊆
      (JobHandler.reservationReaper.backlog (crowd 51) noon).take 50 := by
    intro task member
    obtain ⟨batch, chosen, taken⟩ := reached task member
    rw [List.eq_of_mem_replicate chosen, JobHandler.select_eq] at taken
    exact taken
  have few := (List.subperm_of_subset nodup_backlog first).length_le
  rw [List.length_take, count] at few
  omega

end Crowd

end Canals
