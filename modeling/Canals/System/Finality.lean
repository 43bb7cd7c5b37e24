import Canals.System.Charges

/-! Whether a resolved payment stays resolved. Settlements only update rows that
are unsettled, but the saga's second save goes by the row's id alone: a resolved
row is final exactly as long as that save comes in time or agrees with it. -/
namespace Canals
open Locking

def PaymentColumns.Resolved {T : Type} (payment : PaymentColumns T) : Prop :=
  (payment.status = .CAPTURED ∨ payment.status = .DECLINED ∨ payment.status = .FAILED) ∧
    payment.settledAt.isSome

/-- The outcome save writes what the gateway returned, which is never `FAILED`. -/
def PaymentSave.Records (save : PaymentSave) : Prop :=
  ∀ chargeResult, save.chargeResult = some chargeResult →
    save.payment.status = chargeResult.status ∧ chargeResult.status ≠ .FAILED ∧
    (isDefinitiveOutcome chargeResult.status → save.payment.settledAt.isSome)

def Ctl.Records : Ctl → Prop
  | finding save | saving save _ => save.Records
  | charged _ _ chargeResult => chargeResult.status ≠ .FAILED
  | settling saga chargeResult call => settlementOf saga.order.id chargeResult = some call
  | _ => True

section Results
variable {d after : Db} {env env' : Env} {ctl ctl' : Ctl}

theorem chargeResultOf_ne_failed (cardNumber : String)
    (outcome : Except AttemptError ProviderResponse) :
    (chargeResultOf cardNumber outcome).status ≠ .FAILED := by
  unfold chargeResultOf
  dsimp only
  split
  · unfold mapChargeResponse
    dsimp only
    split
    · exact nofun
    · split <;> exact nofun
  · exact nofun

theorem Commits.records (commits : Commits d ctl after ctl') : ctl'.Records := by
  cases commits with
  | record _ asks _ => exact asks
  | _ => trivial

theorem Rewinds.records (rewinds : Rewinds ctl ctl') : ctl'.Records := by
  cases rewinds <;> trivial

theorem Moves.records (moves : Moves d env ctl env' ctl') (records : ctl.Records) :
    ctl'.Records := by
  cases moves with
  | pay _ => exact nofun
  | find => exact records
  | charge _ => exact chargeResultOf_ne_failed _ _
  | record =>
    intro result same
    cases same
    exact ⟨rfl, records, fun definitive => by simp [chargedPayment, definitive]⟩
  | _ => trivial

end Results

variable {P : Type} [DecidableEq P] {catalogue : Catalogue} {sha256 : String → String}
  {Meets : World P → World P → Prop} {stock : Stock} {clock : Timestamptz} {s t : Processes P}

theorem Runs.records (run : Runs catalogue sha256 Meets stock clock s) (p : P) :
    (s.session p).ctl.Records :=
  run.forall_ctl trivial (fun commits _ => commits.records) (fun rewinds _ => rewinds.records)
    Moves.records p

/-- When a saga's outcome save commits, its row is not resolved otherwise. -/
def OutcomeSavedInTime (a b : World P) : Prop :=
  ∀ p save stored chargeResult row, a.ctl p = .saving save stored → b.ctl p = save.saved →
    save.chargeResult = some chargeResult →
    a.data.payments.lookup save.payment.id = some row → row.Resolved →
    row.status = chargeResult.status

section Finality
variable {a b : World P} {d after : Db} {i : Uuid} {row : PaymentRow}

/-- Both statuses the guarded update looks for are unresolved. -/
theorem unsettled_not_resolved (unsettled : row.unsettled) : ¬ row.Resolved := by
  rintro ⟨status, -⟩
  simp only [PaymentColumns.unsettled, Bool.or_eq_true, decide_eq_true_eq] at unsettled
  rcases unsettled with is | is <;> simp [is] at status

theorem Settled.keeps_resolved {call : SettleCall} {result : SettlementResult}
    (settled : Settled call d after result) (found : d.payments.lookup i = some row)
    (resolved : row.Resolved) : after.payments.lookup i = some row := by
  cases settled with
  | already _ _ _ same => exact same ▸ found
  | now _ _ _ _ done =>
    obtain ⟨now, payments⟩ := done.payments
    rw [payments]
    rcases settledPayments_spec d call.payment now i with same | ⟨row', _, there, open_, -⟩
    · exact same.trans found
    · cases there.symm.trans found
      exact absurd resolved (unsettled_not_resolved open_)

/-- A save that agrees with the resolved row on the status keeps it resolved. -/
theorem update_resolved {stored payment : PaymentOrmEntity} (resolved : row.Resolved)
    (status : row.status = payment.status) (settled : payment.settledAt.isSome) :
    (row.update stored payment).status = row.status ∧
      (row.update stored payment).settledAt.isSome := by
  constructor
  · simp only [PaymentRow.update, saveColumn, PaymentColumns.map, status, ite_self]
  · simp only [PaymentRow.update, saveColumn, PaymentColumns.map]
    split
    · exact resolved.2
    · simpa using settled

/-- What a save leaves of a resolved payment, if it comes in time. -/
theorem Saves.keeps_resolved {save : PaymentSave} {stored : Option PaymentOrmEntity}
    (saves : Saves save.payment d stored after) (alone : save.Alone d) (records : save.Records)
    (inTime : ∀ chargeResult row, save.chargeResult = some chargeResult →
      d.payments.lookup save.payment.id = some row → row.Resolved →
      row.status = chargeResult.status)
    (found : d.payments.lookup i = some row) (resolved : row.Resolved) :
    ∃ row', after.payments.lookup i = some row' ∧ row'.status = row.status ∧
      row'.settledAt.isSome := by
  cases saves with
  | missed _ => exact ⟨row, found, rfl, resolved.2⟩
  | inserted absent =>
    have other : i ≠ save.payment.id := by
      rintro rfl
      cases absent.symm.trans found
    exact ⟨row, (AList.lookup_insert_ne other).trans found, rfl, resolved.2⟩
  | @updated read row' present =>
    by_cases mine : i = save.payment.id
    · subst mine
      cases present.symm.trans found
      cases charged : save.chargeResult with
      | none => cases (alone.2 charged).symm.trans present
      | some chargeResult =>
        obtain ⟨written, passed, definitive⟩ := records chargeResult charged
        have agrees := inTime chargeResult row charged present resolved
        have settled : save.payment.settledAt.isSome := by
          refine definitive ?_
          rcases resolved.1 with is | is | is <;> rw [agrees] at is
          · simp [isDefinitiveOutcome, is]
          · simp [isDefinitiveOutcome, is]
          · exact absurd is passed
        exact ⟨_, AList.lookup_insert _,
          update_resolved resolved (agrees.trans written.symm) settled⟩
    · exact ⟨row, (AList.lookup_insert_ne mine).trans found, rfl, resolved.2⟩

theorem resolved_step (does : Does sha256 a b) (owned : Owned a)
    (records : ∀ p, (a.ctl p).Records) (inTime : OutcomeSavedInTime a b)
    (found : a.data.payments.lookup i = some row) (resolved : row.Resolved) :
    ∃ row', b.data.payments.lookup i = some row' ∧ row'.status = row.status ∧
      row'.settledAt.isSome := by
  have kept : ∀ {after : Db}, after.payments.lookup i = some row → ∃ row',
      after.payments.lookup i = some row' ∧ row'.status = row.status ∧ row'.settledAt.isSome :=
    fun same => ⟨row, same, rfl, resolved.2⟩
  cases does with
  | @commit p after ctl commits =>
    have alone := owned.alone p
    have outcome := records p
    have timely := inTime p
    generalize a.ctl p = before at commits alone outcome timely
    cases commits with
    | reserve ran => exact kept ((attemptCandidate_spec alone ran).1.payments ▸ found)
    | @insert save stored _ first saves =>
      refine saves.keeps_resolved alone.1 outcome (fun chargeResult _ charged => ?_) found resolved
      cases first.symm.trans charged
    | @record save stored _ chargeResult call charged asks saves =>
      refine saves.keeps_resolved alone.1 outcome (fun result row same => ?_) found resolved
      exact timely save stored result row rfl
        (by simp [Committed.goto, PaymentSave.saved, Saga.settle, charged, asks]) same
    | @leave save stored _ chargeResult charged asks saves =>
      refine saves.keeps_resolved alone.1 outcome (fun result row same => ?_) found resolved
      exact timely save stored result row rfl
        (by simp [Committed.goto, PaymentSave.saved, Saga.settle, charged, asks]) same
    | confirm _ settled | decline _ settled | resolve settled =>
      exact kept (settled.keeps_resolved found resolved)
  | rewind _ | move _ | happen _ => exact kept found

end Finality

/-- In every run whose outcome saves come in time or agree, a resolved payment
keeps its status and its settlement time. -/
theorem resolved_payment_final
    (run : Runs catalogue sha256 OutcomeSavedInTime stock clock s)
    (more : Relation.ReflTransGen (fun s t => State.Next store (system catalogue sha256) s t ∧
      OutcomeSavedInTime s.committed t.committed) s t) {i : Uuid} {row : PaymentRow}
    (found : s.data.payments.lookup i = some row) (resolved : row.Resolved) :
    ∃ row', t.data.payments.lookup i = some row' ∧ row'.status = row.status ∧
      row'.settledAt.isSome := by
  refine run.stable (I := fun a => ∃ row', a.data.payments.lookup i = some row' ∧
    row'.status = row.status ∧ row'.settledAt.isSome) more ⟨row, found, rfl, resolved.2⟩ ?_
  rintro u b before ⟨row₁, found₁, status₁, settled₁⟩ does inTime
  obtain ⟨row₂, found₂, status₂, settled₂⟩ := resolved_step does before.owned before.records inTime
    found₁ ⟨status₁ ▸ resolved.1, settled₁⟩
  exact ⟨row₂, found₂, status₂.trans status₁, settled₂⟩

section Lamp

/-- No payment about to be saved is settled. -/
def lampTimely (s : Processes Bool) : Bool :=
  [true, false].all fun p =>
    match (s.session p).ctl with
    | .saving save _ => (s.data.payments.lookup save.payment.id).all (·.settledAt.isNone)
    | _ => true

theorem lampTimely_meets (s t : Processes Bool) (timely : lampTimely s) (_ : lampTimely t) :
    OutcomeSavedInTime s.committed t.committed := by
  intro p save stored chargeResult row here _ _ found resolved
  have checked := List.all_eq_true.mp timely p (by cases p <;> simp)
  change (s.session p).ctl = _ at here
  rw [here] at checked
  have unsettled : row.settledAt = none := by
    simpa [show s.data.payments.lookup save.payment.id = some row from found] using checked
  simp [PaymentColumns.Resolved, unsettled] at resolved

/-- The saga has saved its payment as captured. -/
def lampCaptured : Processes Bool :=
  ((initial Bool lampStock ⟨1000000⟩).runWhile lampTimely store
    (system lampCatalogue lampSha256)
    (lampReserve ++ lampPay ++ lampApprove ++ lampRecord)).get (by decide +kernel)

theorem lampConfirmed_isSome : (lampCaptured.runWhile lampTimely store
    (system lampCatalogue lampSha256) (transact true 17)).isSome := by
  decide +kernel

theorem lampCaptured_isPaid : (lampCaptured.data.payments.lookup "payment").isSome := by
  decide +kernel

theorem resolved_payment_final_lamp : ∃ row',
    (Option.get _ lampConfirmed_isSome).data.payments.lookup "payment" = some row' ∧
      row'.status = (Option.get _ lampCaptured_isPaid).status ∧ row'.settledAt.isSome :=
  resolved_payment_final
    (State.reaches_of_runWhile lampTimely_meets (by decide +kernel)
      (Option.some_get _).symm)
    (State.reaches_of_runWhile lampTimely_meets (by decide +kernel)
      (Option.some_get lampConfirmed_isSome).symm)
    (Option.some_get lampCaptured_isPaid).symm ⟨by decide +kernel, by decide +kernel⟩

/-- The charge is approved, but the first process never gets the response and
its two retries are lost. -/
def lampLose : List LampAction :=
  [.event (.deliver ⟨0, lampCharge⟩ ⟨"1", "now"⟩), .event (.fire lampKey ⟨"2", "later"⟩),
    .move true (.abandon .timeout), .move true .send, .event (.drop ⟨1, lampCharge⟩),
    .move true (.abandon .timeout), .move true .send, .event (.drop ⟨2, lampCharge⟩),
    .move true (.abandon .timeout),
    .move true (.recordOutcome ⟨2000⟩ ⟨2000⟩), .move true .findPayment]

/-- Three minutes later the reconciliation finds the charge and settles it. -/
def lampReconcile : List LampAction :=
  [.event (.tick ⟨181000000⟩), .move false .reconcile, .move false .next, .move false .send,
    .event (.deliver ⟨3, .getStatus lampKey⟩ ⟨"3", "query"⟩), .move false (.receive 1 false)] ++
    transact false 18

def lampReconciled : Processes Bool :=
  ((initial Bool lampStock ⟨1000000⟩).run store
    (system lampCatalogue lampSha256)
    (lampReserve ++ lampPay ++ lampLose ++ lampReconcile)).get (by decide +kernel)

theorem lampReconciled_isPaid : (lampReconciled.data.payments.lookup "payment").isSome := by
  decide +kernel

theorem lampOverwritten_isSome : (lampReconciled.run store (system lampCatalogue lampSha256)
    (transact true 1)).isSome := by
  decide +kernel

/-- The first process now saves that it knows nothing: `UNKNOWN` over `CAPTURED`. -/
theorem resolved_payment_overwritten :
    ¬ ∀ (catalogue : Catalogue) (sha256 : String → String) (stock : Stock) (clock : Timestamptz)
      (s t : Processes Bool) (i : Uuid) (row : PaymentRow),
      Reachable catalogue sha256 stock clock s →
      Relation.ReflTransGen (State.Next store (system catalogue sha256)) s t →
      s.data.payments.lookup i = some row → row.Resolved →
      ∃ row', t.data.payments.lookup i = some row' ∧ row'.status = row.status ∧
        row'.settledAt.isSome := by
  intro claim
  obtain ⟨row', found, status, -⟩ := claim lampCatalogue lampSha256 lampStock ⟨1000000⟩
    lampReconciled _ "payment" (Option.get _ lampReconciled_isPaid)
    (reachable_of_run (Option.some_get _).symm)
    (State.reaches_of_run (Option.some_get lampOverwritten_isSome).symm)
    (Option.some_get lampReconciled_isPaid).symm ⟨by decide +kernel, by decide +kernel⟩
  have captured : (Option.get _ lampReconciled_isPaid).status = .CAPTURED := by decide +kernel
  have unknown : ((Option.get _ lampOverwritten_isSome).data.payments.lookup "payment").map
      (·.status) = some .UNKNOWN := by decide +kernel
  rw [found, Option.map_some, status, captured] at unknown
  cases unknown

end Lamp

end Canals
