import Canals.Queueing.Redelivery
import Canals.System.History
import Canals.System.Outbox
import Canals.System.Shipments

/-! The worker: `JobRunner` hands the outbox's jobs to their handlers. Any number of
workers fetch, any of them may crash, and an attempt may outlast its time and run
beside the next. Jobs are numbered in the order they were sent; when they are fetched, how
often, and what becomes of them then is left to the queue service. -/
namespace Canals
open Locking
open Redelivery (Metadata Service)

/-- The handlers of routed events; the scheduled ones are processes of the system. -/
inductive EventHandler where
  | shipmentCreate
  | customerNotify
  | analyticsRecord
  deriving DecidableEq

/-- `JOB_HANDLERS` by the queue each one names. -/
def eventHandler : String → Option EventHandler
  | "shipment.create" => some .shipmentCreate
  | "customer.notify" => some .customerNotify
  | "analytics.record" => some .analyticsRecord
  | _ => none

inductive LogLine where
  | event (event queue : String) (orderId : Uuid)
  | attemptFailed (queue : String) (jobId attempt retryLimit : Nat)
  deriving DecidableEq

/-- The line of a handler that only logs. -/
def EventHandler.line (job : Job) : EventHandler → Option LogLine
  | shipmentCreate => none
  | customerNotify => some (.event "notification sent" job.queue job.orderId)
  | analyticsRecord => some (.event "order.confirmed" job.queue job.orderId)

/-- How far a handler's promise is. -/
inductive Handling where
  | started
  | inserting (insert : ShipmentInsert)
  | resolved
  | rejected

/-- A job handed to its handler. -/
structure JobAttempt where
  jobId : Nat
  metadata : Metadata
  handling : Handling := .started

structure Delivery (P Q : Type) where
  processes : Processes P
  queue : Q
  running : List JobAttempt := []
  shipments : List ShipmentRow := []
  lines : List LogLine := []

namespace Delivery
variable {P Q : Type} [DecidableEq P] (service : Service Q)

def jobs (s : Delivery P Q) : List Job := s.processes.data.jobs

/-- Nothing ordered, and nothing fetched. -/
def opening (stock : Stock) (clock : Timestamptz) : Delivery P Q where
  processes := initial P stock clock
  queue := service.start

/-- One attempt goes on or ends: the service completes a job whose handler has resolved, and
fails one whose handler has rejected. -/
inductive Runs (s : Delivery P Q) (attempt : JobAttempt) (job : Job) :
    Option Handling → Q → List ShipmentRow → List LogLine → Prop where
  | read (draw : Draw) : attempt.handling = .started →
      eventHandler job.queue = some .shipmentCreate →
      Runs s attempt job (some (.inserting (createForOrder s.processes.data job.orderId draw)))
        s.queue s.shipments s.lines
  | insert {insert shipments} : attempt.handling = .inserting insert →
      insert.exec s.processes.data s.shipments = .ok shipments →
      Runs s attempt job (some .resolved) s.queue shipments s.lines
  | log {handler line} : attempt.handling = .started → eventHandler job.queue = some handler →
      handler.line job = some line →
      Runs s attempt job (some .resolved) s.queue s.shipments (s.lines ++ [line])
  /-- The statement fails, or the connection before it. -/
  | reject : attempt.handling ≠ .resolved →
      Runs s attempt job (some .rejected) s.queue s.shipments s.lines
  | complete {queue} : attempt.handling = .resolved →
      service.complete s.queue attempt.jobId queue →
      Runs s attempt job none queue s.shipments s.lines
  | fail {queue} : attempt.handling = .rejected → service.fail s.queue attempt.jobId queue →
      Runs s attempt job none queue s.shipments (s.lines ++
        [.attemptFailed job.queue attempt.jobId (attempt.metadata.retryCount + 1)
          attempt.metadata.retryLimit])

inductive Step (catalogue : Catalogue) (sha256 : String → String) :
    Delivery P Q → Delivery P Q → Prop where
  | process {s t} : State.Next store (system catalogue sha256) s.processes t →
      Step catalogue sha256 s { s with processes := t }
  | fetch {s jobId metadata queue} : jobId < s.jobs.length →
      service.fetch s.queue jobId metadata queue →
      Step catalogue sha256 s { s with
        queue
        running := ⟨jobId, metadata, .started⟩ :: s.running }
  | run {s before attempt after job handling queue shipments lines} :
      s.running = before ++ attempt :: after → s.jobs[attempt.jobId]? = some job →
      Runs service s attempt job handling queue shipments lines → Step catalogue sha256 s { s with
        queue
        running := before ++
          (handling.map fun handling => { attempt with handling }).toList ++ after
        shipments
        lines }
  /-- The attempts of a worker that crashes are lost. -/
  | crash {s running} : running.Sublist s.running → Step catalogue sha256 s { s with running }
  | work {s queue} : service.work s.queue queue → Step catalogue sha256 s { s with queue }

/-- What the job is for has been done. -/
def Carried (s : Delivery P Q) (job : Job) : Prop :=
  match eventHandler job.queue with
  | some .shipmentCreate => ∃ row ∈ s.shipments, row.orderId = job.orderId
  | some handler => ∃ line, handler.line job = some line ∧ line ∈ s.lines
  | none => False

/-- How an attempt stands to the tables. -/
def Fits (s : Delivery P Q) (job : Job) : Handling → Prop
  | .inserting insert => eventHandler job.queue = some .shipmentCreate ∧
      insert.orderId = job.orderId ∧ ∃ w, insert.warehouseId = some w ∧
        s.processes.data.Confirmed job.orderId w
  | .resolved => s.Carried job
  | _ => True

/-- A shipment and an event line stem from a job for their order. -/
structure Sent (s : Delivery P Q) : Prop where
  shipments : ∀ row ∈ s.shipments, ∃ job ∈ s.jobs,
    job.queue = "shipment.create" ∧ job.orderId = row.orderId
  lines : ∀ event queue o, LogLine.event event queue o ∈ s.lines →
    ∃ job ∈ s.jobs, job.queue = queue ∧ job.orderId = o

structure Kept (catalogue : Catalogue) (sha256 : String → String) (stock : Stock)
    (clock : Timestamptz) (s : Delivery P Q) : Prop where
  reachable : Reachable catalogue sha256 stock clock s.processes
  running : ∀ attempt ∈ s.running, ∃ job, s.jobs[attempt.jobId]? = some job ∧
    s.Fits job attempt.handling
  distinct : (s.shipments.map (·.orderId)).Nodup
  sent : s.Sent

/-- What counts as completed has been carried out. -/
def Completed (s : Delivery P Q) : Prop :=
  ∀ i, service.completed s.queue i → ∃ job, s.jobs[i]? = some job ∧ s.Carried job

/-- Nothing that was stored, sent or logged is lost. -/
structure Grows (s t : Delivery P Q) : Prop where
  jobs : s.jobs <+: t.jobs
  shipments : s.shipments ⊆ t.shipments
  lines : s.lines ⊆ t.lines
  confirmed : ∀ {o w}, s.processes.data.Confirmed o w → t.processes.data.Confirmed o w

section Steps
variable {service : Service Q} {catalogue : Catalogue} {sha256 : String → String} {stock : Stock}
  {clock : Timestamptz} {s t : Delivery P Q} {job : Job} {attempt : JobAttempt}
  {handling : Option Handling} {queue : Q} {shipments : List ShipmentRow} {lines : List LogLine}

omit [DecidableEq P] in
theorem Grows.numbered (grows : s.Grows t) {i : Nat} (found : s.jobs[i]? = some job) :
    t.jobs[i]? = some job := by
  obtain ⟨more, same⟩ := grows.jobs
  obtain ⟨below, -⟩ := List.getElem?_eq_some_iff.mp found
  rw [← same, List.getElem?_append_left below, found]

omit [DecidableEq P] in
theorem Carried.grows (carried : s.Carried job) (grows : s.Grows t) : t.Carried job := by
  unfold Carried at carried ⊢
  split
  · rename_i handled
    rw [handled] at carried
    obtain ⟨row, member, mine⟩ := carried
    exact ⟨row, grows.shipments member, mine⟩
  · rename_i handler other handled
    rw [handled] at carried
    obtain ⟨line, logs, member⟩ : ∃ line, handler.line job = some line ∧ line ∈ s.lines := by
      cases handler with
      | shipmentCreate => exact (other rfl).elim
      | customerNotify => exact carried
      | analyticsRecord => exact carried
    exact ⟨line, logs, grows.lines member⟩
  · rename_i handled
    rw [handled] at carried
    exact carried

omit [DecidableEq P] in
theorem Fits.grows {handling : Handling} (fits : s.Fits job handling) (grows : s.Grows t) :
    t.Fits job handling := by
  cases handling with
  | started | rejected => trivial
  | inserting insert =>
    obtain ⟨handled, mine, w, read, confirmed⟩ := fits
    exact ⟨handled, mine, w, read, grows.confirmed confirmed⟩
  | resolved => exact Carried.grows fits grows

omit [DecidableEq P] in
theorem Sent.process (sent : s.Sent) {processes : Processes P}
    (jobs : s.processes.data.jobs <+: processes.data.jobs) :
    Sent { s with processes } where
  shipments row member := by
    obtain ⟨job, there, found⟩ := sent.shipments row member
    exact ⟨job, jobs.subset there, found⟩
  lines event queue o member := by
    obtain ⟨job, there, found⟩ := sent.lines event queue o member
    exact ⟨job, jobs.subset there, found⟩

omit [DecidableEq P] in
theorem Carried.shipment (handled : eventHandler job.queue = some .shipmentCreate) :
    s.Carried job ↔ ∃ row ∈ s.shipments, row.orderId = job.orderId := by
  rw [Carried, handled]

/-- One attempt goes on to `handling` or ends; the rest is as before or has grown. -/
theorem Kept.advance (kept : Kept catalogue sha256 stock clock s) {before after : List JobAttempt}
    (split : s.running = before ++ attempt :: after)
    (found : s.jobs[attempt.jobId]? = some job) {running : List JobAttempt}
    (moved : running = before ++
      (handling.map fun handling => { attempt with handling }).toList ++ after)
    (more : s.shipments ⊆ shipments) (logged : s.lines ⊆ lines)
    (distinct : (shipments.map (·.orderId)).Nodup)
    (fits : ∀ h ∈ handling, Fits { s with queue, running, shipments, lines } job h)
    (sent : Sent { s with queue, running, shipments, lines }) :
    Kept catalogue sha256 stock clock { s with queue, running, shipments, lines } := by
  have grows : s.Grows { s with queue, running, shipments, lines } :=
    ⟨List.prefix_rfl, more, logged, id⟩
  refine ⟨kept.reachable, fun other member => ?_, distinct, sent⟩
  have cases : other ∈ s.running ∨ ∃ h ∈ handling, other = { attempt with handling := h } := by
    simp only [moved, List.mem_append, Option.mem_toList, Option.map_eq_some_iff] at member
    rw [split]
    rcases member with (old | ⟨h, here, rfl⟩) | old
    · exact .inl (List.mem_append_left _ old)
    · exact .inr ⟨h, here, rfl⟩
    · exact .inl (List.mem_append_right _ (List.mem_cons_of_mem _ old))
  rcases cases with old | ⟨h, here, rfl⟩
  · obtain ⟨job', there, fits'⟩ := kept.running other old
    exact ⟨job', there, fits'.grows grows⟩
  · exact ⟨job, found, fits h here⟩

theorem eventHandler_shipment (handled : eventHandler job.queue = some .shipmentCreate) :
    job.queue = "shipment.create" := by
  unfold eventHandler at handled
  split at handled <;> first | assumption | cases handled

/-- The handlers that only log name their queue and the order. -/
theorem line_event {handler : EventHandler} {line : LogLine} (logs : handler.line job = some line) :
    ∃ event, line = .event event job.queue job.orderId := by
  cases handler <;> cases logs
  · exact ⟨_, rfl⟩
  · exact ⟨_, rfl⟩

theorem Kept.run (kept : Kept catalogue sha256 stock clock s) {before after : List JobAttempt}
    (split : s.running = before ++ attempt :: after)
    (found : s.jobs[attempt.jobId]? = some job)
    (runs : Runs service s attempt job handling queue shipments lines) :
    Kept catalogue sha256 stock clock { s with
      queue
      running := before ++ (handling.map fun handling => { attempt with handling }).toList ++ after
      shipments
      lines } := by
  have member : attempt ∈ s.running := by simp [split]
  have there : job ∈ s.jobs := List.mem_of_getElem? found
  obtain ⟨job', found', fits⟩ := kept.running attempt member
  cases found.symm.trans found'
  cases runs with
  | read draw started handled =>
    refine kept.advance split found rfl (List.Subset.refl _) (List.Subset.refl _)
      kept.distinct ?_ ⟨kept.sent.shipments, kept.sent.lines⟩
    rintro _ ⟨⟩
    obtain ⟨w, confirmed⟩ := kept.reachable.jobsConfirmed job there
    obtain ⟨row, stored, -, warehouse⟩ := id confirmed
    refine ⟨handled, rfl, w, ?_, confirmed⟩
    simp [createForOrder, stored, warehouse]
  | @insert insert shipments inserting ran =>
    rw [inserting] at fits
    obtain ⟨handled, mine, -⟩ := fits
    obtain ⟨w, -, ⟨rfl, row, old, same⟩ | ⟨row, rfl, same, -, fresh⟩⟩ := ShipmentInsert.exec_eq ran
    · refine kept.advance split found rfl (List.Subset.refl _) (List.Subset.refl _)
        kept.distinct ?_ ⟨kept.sent.shipments, kept.sent.lines⟩
      rintro _ ⟨⟩
      exact (Carried.shipment handled).mpr ⟨row, old, same.trans mine⟩
    · refine kept.advance split found rfl (List.subset_append_left _ _)
        (List.Subset.refl _) ?_ ?_ ⟨fun other member => ?_, kept.sent.lines⟩
      · rw [List.map_append, List.nodup_append]
        refine ⟨kept.distinct, List.nodup_singleton _, ?_⟩
        rintro o known o' last rfl
        obtain ⟨other, older, eq⟩ := List.mem_map.mp known
        rw [List.map_singleton, List.mem_singleton, same] at last
        exact fresh other older (eq.trans last)
      · rintro _ ⟨⟩
        exact (Carried.shipment handled).mpr ⟨row, by simp, same.trans mine⟩
      · rcases List.mem_append.mp member with old | last
        · exact kept.sent.shipments other old
        · rw [List.mem_singleton.mp last]
          exact ⟨job, there, eventHandler_shipment handled, (same.trans mine).symm⟩
  | @log handler line started handled logs =>
    refine kept.advance split found rfl (List.Subset.refl _)
      (List.subset_append_left _ _) kept.distinct ?_
      ⟨kept.sent.shipments, fun event queue o member => ?_⟩
    · rintro _ ⟨⟩
      show Carried _ job
      cases handler with
      | shipmentCreate => cases logs
      | customerNotify | analyticsRecord =>
        rw [Carried, handled]
        exact ⟨line, logs, by simp⟩
    · rcases List.mem_append.mp member with old | last
      · exact kept.sent.lines event queue o old
      · obtain ⟨event', same⟩ := line_event logs
        cases (List.mem_singleton.mp last).trans same
        exact ⟨job, there, rfl, rfl⟩
  | reject _ =>
    refine kept.advance split found rfl (List.Subset.refl _) (List.Subset.refl _)
      kept.distinct ?_ ⟨kept.sent.shipments, kept.sent.lines⟩
    rintro _ ⟨⟩
    trivial
  | complete _ _ =>
    exact kept.advance split found rfl (List.Subset.refl _) (List.Subset.refl _) kept.distinct
      (by rintro _ ⟨⟩) ⟨kept.sent.shipments, kept.sent.lines⟩
  | fail _ _ =>
    refine kept.advance split found rfl (List.Subset.refl _)
      (List.subset_append_left _ _) kept.distinct (by rintro _ ⟨⟩)
      ⟨kept.sent.shipments, fun event queue o member => ?_⟩
    rcases List.mem_append.mp member with old | last
    · exact kept.sent.lines event queue o old
    · cases List.mem_singleton.mp last

theorem confirmed_next (reachable : Reachable catalogue sha256 stock clock s.processes)
    {processes : Processes P}
    (next : State.Next store (system catalogue sha256) s.processes processes) :
    s.Grows { s with processes } := by
  have grown : s.processes.data.jobs <+: processes.data.jobs ∧
      ∀ {o w}, s.processes.data.Confirmed o w → processes.data.Confirmed o w := by
    rcases reachable.step next with same | does
    · have kept : processes.data = s.processes.data := congrArg Committed.data same
      rw [kept]
      exact ⟨List.prefix_rfl, id⟩
    · exact ⟨(preserves_step does reachable.owned).jobs, confirmed_step does reachable.owned⟩
  exact ⟨grown.1, List.Subset.refl _, List.Subset.refl _, grown.2⟩

theorem Kept.step (kept : Kept catalogue sha256 stock clock s)
    (step : Step service catalogue sha256 s t) : Kept catalogue sha256 stock clock t := by
  cases step with
  | @process u next =>
    have grows := confirmed_next kept.reachable next
    refine ⟨kept.reachable.tail ⟨next, trivial⟩, fun attempt member => ?_, kept.distinct,
      kept.sent.process grows.jobs⟩
    obtain ⟨job, found, fits⟩ := kept.running attempt member
    exact ⟨job, grows.numbered found, fits.grows grows⟩
  | @fetch jobId metadata queue below fetched =>
    refine ⟨kept.reachable, fun attempt member => ?_, kept.distinct,
      ⟨kept.sent.shipments, kept.sent.lines⟩⟩
    rcases List.mem_cons.mp member with rfl | old
    · exact ⟨s.jobs[jobId], List.getElem?_eq_getElem below, trivial⟩
    · exact kept.running attempt old
  | run split found runs => exact kept.run split found runs
  | crash less =>
    exact ⟨kept.reachable, fun attempt member => kept.running attempt (less.subset member),
      kept.distinct, ⟨kept.sent.shipments, kept.sent.lines⟩⟩
  | work _ =>
    exact ⟨kept.reachable, kept.running, kept.distinct, ⟨kept.sent.shipments, kept.sent.lines⟩⟩

theorem Kept.opening :
    Kept (P := P) catalogue sha256 stock clock (opening service stock clock) where
  reachable := .refl
  running := nofun
  distinct := List.nodup_nil
  sent := ⟨nofun, nofun⟩

theorem Kept.steps (kept : Kept catalogue sha256 stock clock s)
    (run : Relation.ReflTransGen (Step service catalogue sha256) s t) :
    Kept catalogue sha256 stock clock t := by
  induction run with
  | refl => exact kept
  | tail _ step ih => exact ih.step step

omit [DecidableEq P] in
theorem Completed.grows (completed : s.Completed service) (grows : s.Grows t)
    (only : ∀ i, service.completed t.queue i → service.completed s.queue i) :
    t.Completed service := by
  intro i done
  obtain ⟨job, found, carried⟩ := completed i (only i done)
  exact ⟨job, grows.numbered found, Carried.grows carried grows⟩

/-- Only an attempt whose handler has resolved completes its job. -/
theorem Completed.step (completed : s.Completed service) (honest : service.Honest)
    (kept : Kept catalogue sha256 stock clock s) (step : Step service catalogue sha256 s t) :
    t.Completed service := by
  have still : ∀ {queue : Q} {running shipments lines}, s.shipments ⊆ shipments →
      s.lines ⊆ lines → s.Grows { s with queue, running, shipments, lines } :=
    fun more logged => ⟨List.prefix_rfl, more, logged, id⟩
  cases step with
  | @process u next => exact completed.grows (confirmed_next kept.reachable next) fun _ => id
  | fetch below fetched =>
    exact completed.grows (still (List.Subset.refl _) (List.Subset.refl _))
      fun _ => honest.fetch fetched
  | @run before attempt after job handling queue shipments lines split found runs =>
    cases runs with
    | read _ _ _ | reject _ =>
      exact completed.grows (still (List.Subset.refl _) (List.Subset.refl _)) fun _ => id
    | insert inserting ran =>
      refine completed.grows (still ?_ (List.Subset.refl _)) fun _ => id
      obtain ⟨-, -, ⟨rfl, -⟩ | ⟨row, rfl, -⟩⟩ := ShipmentInsert.exec_eq ran
      · exact List.Subset.refl _
      · exact List.subset_append_left _ _
    | log _ _ _ =>
      exact completed.grows (still (List.Subset.refl _) (List.subset_append_left _ _)) fun _ => id
    | complete resolved completes =>
      have grows : s.Grows { s with queue, running := before ++ [] ++ after } :=
        still (List.Subset.refl _) (List.Subset.refl _)
      intro i done
      rcases honest.complete completes done with old | rfl
      · obtain ⟨job', there, carried⟩ := completed i old
        exact ⟨job', there, Carried.grows carried grows⟩
      · obtain ⟨job', there, fits⟩ := kept.running attempt (by simp [split])
        rw [resolved] at fits
        exact ⟨job', there, Carried.grows fits grows⟩
    | fail _ fails =>
      exact completed.grows (still (List.Subset.refl _) (List.subset_append_left _ _))
        fun _ => honest.fail fails
  | crash _ =>
    exact completed.grows (still (List.Subset.refl _) (List.Subset.refl _)) fun _ => id
  | work works =>
    exact completed.grows (still (List.Subset.refl _) (List.Subset.refl _))
      fun _ => honest.work works

theorem completed_of_run (honest : service.Honest)
    (run : Relation.ReflTransGen (Step service catalogue sha256) (opening service stock clock) s) :
    s.Completed service := by
  induction run with
  | refl => exact fun i done => absurd done (honest.start i)
  | tail before step ih => exact ih.step honest (Kept.opening.steps before) step

variable (service) in
/-- The one job sent to a queue for an order, and what has become of it. -/
structure Accounted (s : Delivery P Q) (o : Uuid) (queue : String) (jobId : Nat) : Prop where
  sent : ∃ job, s.jobs[jobId]? = some job ∧ job.queue = queue ∧ job.orderId = o
  unique : ∀ other job, s.jobs[other]? = some job → job.queue = queue → job.orderId = o →
    other = jobId
  completed : service.completed s.queue jobId →
    ∃ job, s.jobs[jobId]? = some job ∧ s.Carried job

/-- No confirmed order is forgotten by the worker, and no other order is acted on: each of its
three jobs is sent once, whatever the service makes of it later, and carried out where it counts
as completed. -/
theorem confirmed_orders_accounted (honest : service.Honest)
    (run : Relation.ReflTransGen (Step service catalogue sha256) (opening service stock clock) s)
    {o : Uuid} {row : OrderRow} (stored : s.processes.data.orders.lookup o = some row) :
    (row.status = .CONFIRMED → ∀ queue ∈ CONFIRMED_QUEUES, ∃ jobId,
      s.Accounted service o queue jobId) ∧
    (row.status ≠ .CONFIRMED → (∀ job ∈ s.jobs, job.orderId ≠ o) ∧
      (∀ shipment ∈ s.shipments, shipment.orderId ≠ o) ∧
      ∀ event queue, LogLine.event event queue o ∉ s.lines) := by
  have kept : Kept catalogue sha256 stock clock s := Kept.opening.steps run
  have outbox := kept.reachable.outbox
  refine ⟨fun confirmed queue routed => ?_, fun other => ?_⟩
  · have announced : s.processes.data.announced o := by
      simp [Db.announced, stored, confirmed]
    obtain ⟨jobId, job, found, same, mine⟩ := outbox.job announced routed
    refine ⟨jobId, ⟨job, found, same, mine⟩, fun other job' found' same' mine' => ?_,
      completed_of_run honest run jobId⟩
    exact jobs_unique (outbox.distinct o) found' found mine' mine (same'.trans same.symm)
  · have silent : ∀ job ∈ s.jobs, job.orderId ≠ o := by
      rintro job sent rfl
      have announced := (outbox.announced sent).1
      simp [Db.announced, stored, other] at announced
    refine ⟨silent, fun shipment member mine => ?_, fun event queue member => ?_⟩
    · obtain ⟨job, sent, -, same⟩ := kept.sent.shipments shipment member
      exact silent job sent (same.trans mine)
    · obtain ⟨job, sent, -, mine⟩ := kept.sent.lines event queue o member
      exact silent job sent mine

end Steps

section Progress
variable {service : Service Q} {catalogue : Catalogue} {sha256 : String → String} {stock : Stock}
  {clock : Timestamptz} {s : Delivery P Q} {job : Job} {attempt : JobAttempt}

/-- What was read of a confirmed order can be inserted. -/
theorem exec_confirmed {insert : ShipmentInsert} {d : Db} {w : Uuid}
    (read : insert.warehouseId = some w) (confirmed : d.Confirmed insert.orderId w)
    (shipments : List ShipmentRow) : ∃ shipments', insert.exec d shipments = .ok shipments' ∧
      ∃ row ∈ shipments', row.orderId = insert.orderId := by
  obtain ⟨row, stored, -⟩ := confirmed
  simp only [ShipmentInsert.exec, read, stored, Option.isNone_some, Bool.false_eq_true, if_false]
  split
  · rename_i known
    simp only [List.any_eq_true, decide_eq_true_eq] at known
    exact ⟨_, rfl, known⟩
  · exact ⟨_, rfl, _, List.mem_append_right _ (List.mem_singleton_self _), rfl⟩

/-- An attempt goes on beside the others. -/
theorem Step.proceeds {before after : List JobAttempt} {handling : Handling}
    {shipments : List ShipmentRow} {lines : List LogLine}
    (split : s.running = before ++ attempt :: after) (found : s.jobs[attempt.jobId]? = some job)
    (runs : Runs service s attempt job (some handling) s.queue shipments lines) :
    Step service catalogue sha256 s { s with
      running := before ++ { attempt with handling } :: after
      shipments
      lines } := by
  have step : Step service catalogue sha256 s _ := Step.run split found runs
  rwa [Option.map_some, Option.toList_some, List.append_assoc, List.singleton_append] at step

variable (service) in
/-- An attempt its handler has not rejected can go on until it is resolved. -/
theorem attempt_resolves (kept : Kept catalogue sha256 stock clock s)
    {before after : List JobAttempt} (split : s.running = before ++ attempt :: after)
    (found : s.jobs[attempt.jobId]? = some job) (going : attempt.handling ≠ .rejected) :
    ∃ shipments lines, Relation.ReflTransGen (Step service catalogue sha256) s { s with
      running := before ++ { attempt with handling := .resolved } :: after
      shipments
      lines } := by
  have sent : job ∈ s.jobs := List.mem_of_getElem? found
  cases here : attempt.handling with
  | rejected => exact absurd here going
  | resolved =>
    refine ⟨s.shipments, s.lines, ?_⟩
    rw [show ({ attempt with handling := .resolved } : JobAttempt) = attempt by rw [← here],
      ← split]
  | inserting insert =>
    obtain ⟨job', there, fits⟩ := kept.running attempt (by simp [split])
    rw [here] at fits
    obtain ⟨-, mine, w, read, confirmed⟩ := fits
    obtain ⟨shipments, ran, -⟩ := exec_confirmed read (mine ▸ confirmed) s.shipments
    exact ⟨shipments, s.lines, .single (Step.proceeds split found (.insert here ran))⟩
  | started =>
    have routed := (kept.reachable.outbox.announced sent).2
    have handled : ∃ handler, eventHandler job.queue = some handler := by
      simp only [CONFIRMED_QUEUES, List.mem_cons, List.not_mem_nil, or_false] at routed
      rcases routed with same | same | same <;> rw [same] <;> exact ⟨_, rfl⟩
    obtain ⟨handler, handled⟩ := handled
    cases handler with
    | shipmentCreate =>
      obtain ⟨w, confirmed⟩ := kept.reachable.jobsConfirmed job sent
      obtain ⟨row, stored, -, warehouse⟩ := id confirmed
      have draw : Draw := ⟨0, fun _ => 0, ⟨0⟩⟩
      have read : (createForOrder s.processes.data job.orderId draw).warehouseId = some w := by
        simp [createForOrder, stored, warehouse]
      obtain ⟨shipments, ran, -⟩ := exec_confirmed read confirmed s.shipments
      have reads : Step service catalogue sha256 s { s with
          running := before ++ { attempt with
            handling := .inserting (createForOrder s.processes.data job.orderId draw) } :: after } :=
        Step.proceeds split found (.read draw here handled)
      have inserts : Step service catalogue sha256 { s with
          running := before ++ { attempt with
            handling := .inserting (createForOrder s.processes.data job.orderId draw) } :: after }
          _ :=
        Step.proceeds rfl found (.insert rfl ran)
      exact ⟨shipments, s.lines, (Relation.ReflTransGen.single reads).tail inserts⟩
    | customerNotify | analyticsRecord =>
      exact ⟨s.shipments, _, .single (Step.proceeds split found (.log here handled rfl))⟩

/-- A job is never refused by the tables it meets: its handler can always resolve, whatever else
is under way, and then the job has been carried out. -/
theorem jobs_deliverable
    (run : Relation.ReflTransGen (Step service catalogue sha256) (opening service stock clock) s) :
    (∀ attempt ∈ s.running, ∀ insert, attempt.handling = .inserting insert →
      ∃ shipments, insert.exec s.processes.data s.shipments = .ok shipments) ∧
    ∀ attempt ∈ s.running, attempt.handling ≠ .rejected →
      ∃ t job, Relation.ReflTransGen (Step service catalogue sha256) s t ∧
        t.processes = s.processes ∧ t.queue = s.queue ∧
        { attempt with handling := .resolved } ∈ t.running ∧
        t.jobs[attempt.jobId]? = some job ∧ t.Carried job := by
  have kept : Kept catalogue sha256 stock clock s := Kept.opening.steps run
  refine ⟨fun attempt member insert inserting => ?_, fun attempt member going => ?_⟩
  · obtain ⟨job, -, fits⟩ := kept.running attempt member
    rw [inserting] at fits
    obtain ⟨-, mine, w, read, confirmed⟩ := fits
    obtain ⟨shipments, ran, -⟩ := exec_confirmed read (mine ▸ confirmed) s.shipments
    exact ⟨shipments, ran⟩
  · obtain ⟨before, after, split⟩ := List.append_of_mem member
    obtain ⟨job, found, -⟩ := kept.running attempt member
    obtain ⟨shipments, lines, resolves⟩ :=
      attempt_resolves service kept split found going
    have there : { attempt with handling := .resolved } ∈
        before ++ { attempt with handling := .resolved } :: after := by simp
    obtain ⟨job', found', carried⟩ := (kept.steps resolves).running _ there
    exact ⟨_, job', resolves, rfl, rfl, there, found', carried⟩

end Progress

section Lamp

/-- Five attempts, if all of them fail. -/
def lampService : Service Redelivery.Queue := Redelivery.queue 4

def lampPhase (phase : Redelivery.Phase) : Redelivery.Queue :=
  Function.update lampService.start 0 { phase }

/-- The lamps are sold, and the first attempt at their shipment has begun. -/
def lampFetched : Delivery Bool Redelivery.Queue where
  processes := lampSold
  queue := lampPhase .active
  running := [⟨0, ⟨0, 4⟩, .started⟩]

theorem Step.front {s : Delivery P Q} {service : Service Q} {catalogue : Catalogue}
    {sha256 : String → String} {attempt : JobAttempt} {rest : List JobAttempt} {job : Job}
    {handling : Option Handling} {queue : Q} {shipments : List ShipmentRow} {lines : List LogLine}
    (front : s.running = attempt :: rest) (found : s.jobs[attempt.jobId]? = some job)
    (runs : Runs service s attempt job handling queue shipments lines) :
    Step service catalogue sha256 s { s with
      queue
      running := (handling.map fun handling => { attempt with handling }).toList ++ rest
      shipments
      lines } :=
  Step.run (show s.running = [] ++ attempt :: rest from front) found runs

theorem lampFetched_reached : Relation.ReflTransGen (Step lampService lampCatalogue lampSha256)
    (opening lampService lampStock ⟨1000000⟩) lampFetched := by
  have sold : Relation.ReflTransGen (Step lampService lampCatalogue lampSha256)
      (opening lampService lampStock ⟨1000000⟩)
      { processes := lampSold, queue := lampService.start } := by
    have run := State.reaches_of_run lampSold_run
    exact run.lift (Delivery.mk · lampService.start [] [] []) fun a b next =>
      Step.process (s := Delivery.mk a lampService.start [] [] []) next
  have below : 0 < lampSold.data.jobs.length := by decide +kernel
  have fetched : lampService.fetch lampService.start 0 ⟨0, 4⟩ (lampPhase .active) :=
    ⟨rfl, _, rfl, rfl, rfl⟩
  exact sold.tail (.fetch below fetched)

/-- The shipment is there, and its job is completed. -/
def lampCompleted : Delivery Bool Redelivery.Queue where
  processes := lampSold
  queue := lampPhase .completed
  shipments := [lampShipment]

theorem lampCompleted_reached : Relation.ReflTransGen (Step lampService lampCatalogue lampSha256)
    (opening lampService lampStock ⟨1000000⟩) lampCompleted := by
  have first : lampSold.data.jobs.head?.any
      fun job => job.orderId = "order" ∧ job.queue = "shipment.create" := by decide +kernel
  rw [Option.any_eq_true] at first
  obtain ⟨⟨_, _, sentAt⟩, sent, named⟩ := first
  obtain ⟨rfl, rfl⟩ := of_decide_eq_true named
  have found := List.head?_eq_getElem?.symm.trans sent
  have made : (createForOrder lampSold.data "order" lampDraw).exec lampSold.data [] =
      .ok [lampShipment] := by decide +kernel
  have completes : lampService.complete (lampPhase .active) 0 (lampPhase .completed) :=
    (Function.update_idem ..).symm
  let at_ (handling : Handling) (shipments : List ShipmentRow) : Delivery Bool Redelivery.Queue :=
    { lampFetched with running := [⟨0, ⟨0, 4⟩, handling⟩], shipments }
  let insert := createForOrder lampSold.data "order" lampDraw
  let job : Job := ⟨"shipment.create", "order", sentAt⟩
  have read : Runs lampService lampFetched ⟨0, ⟨0, 4⟩, .started⟩ job (some (.inserting insert))
      (lampPhase .active) [] [] := .read lampDraw rfl rfl
  have inserted : Runs lampService (at_ (.inserting insert) []) ⟨0, ⟨0, 4⟩, .inserting insert⟩ job
      (some .resolved) (lampPhase .active) [lampShipment] [] := .insert rfl made
  have completed : Runs lampService (at_ .resolved [lampShipment]) ⟨0, ⟨0, 4⟩, .resolved⟩ job
      none (lampPhase .completed) [lampShipment] [] := .complete rfl completes
  have reads := lampFetched_reached.tail (.front rfl found read)
  have inserts := reads.tail (.front rfl found inserted)
  have ends := inserts.tail (.front rfl found completed)
  exact ends

theorem confirmed_orders_accounted_lamp :
    lampService.completed lampCompleted.queue 0 ∧
    (lampSoldRow.status = .CONFIRMED → ∀ queue ∈ CONFIRMED_QUEUES, ∃ jobId,
      lampCompleted.Accounted lampService "order" queue jobId) ∧
    (lampSoldRow.status ≠ .CONFIRMED → (∀ job ∈ lampCompleted.jobs, job.orderId ≠ "order") ∧
      (∀ shipment ∈ lampCompleted.shipments, shipment.orderId ≠ "order") ∧
      ∀ event queue, LogLine.event event queue "order" ∉ lampCompleted.lines) :=
  ⟨rfl, confirmed_orders_accounted (Redelivery.queue_honest 4) lampCompleted_reached
    lampSold_stored⟩

theorem jobs_deliverable_lamp :
    (∀ attempt ∈ lampFetched.running, ∀ insert, attempt.handling = .inserting insert →
      ∃ shipments, insert.exec lampSold.data lampFetched.shipments = .ok shipments) ∧
    ∀ attempt ∈ lampFetched.running, attempt.handling ≠ .rejected →
      ∃ t job, Relation.ReflTransGen (Step lampService lampCatalogue lampSha256) lampFetched t ∧
        t.processes = lampSold ∧ t.queue = lampFetched.queue ∧
        { attempt with handling := .resolved } ∈ t.running ∧
        t.jobs[attempt.jobId]? = some job ∧ t.Carried job :=
  jobs_deliverable lampFetched_reached

end Lamp

end Delivery

end Canals
