import Canals.Payments.Gateway
import Canals.Resilience.Retry

/-! `charge` and `getStatus` over every sequence of attempt outcomes, and the results
that the outcome deciding it allows. -/
namespace Canals
open Provider (Payload)

/-- The properties of a thrown value that `classifyFetchError` reads, where they are strings. -/
structure FetchError where
  name : Option String
  causeCode : Option String

inductive FetchErrorKind where
  | timeout
  | connection_refused
  | network_error

def classifyFetchError (error : FetchError) : FetchErrorKind :=
  if error.name = some "TimeoutError" then .timeout
  else if error.causeCode = some "ECONNREFUSED" then .connection_refused
  -- unknown shapes fall back to network_error
  else .network_error

def classifyNetworkError (error : FetchError) : AttemptError :=
  match classifyFetchError error with
  | .timeout => .timeout
  | .connection_refused => .connectionRefused
  | .network_error => .networkError

/-- What an attempt meets. `json` is what `response.json()` resolves to, `none` when it rejects. -/
inductive AttemptOutcome where
  | circuitOpen
  | rejected (error : FetchError)
  | responded (httpStatus : Nat) (json : Option Json)

/-- `asRecord`: an array is not a record. -/
def asRecord : Json → Option JsonObject
  | .obj properties => some properties
  | _ => none

/-- The body as the mapping functions see it. -/
def recordOf (json : Option Json) : Option JsonObject := json.bind asRecord

/-- Attempt `number`: the request it sends, unless the breaker rejects it, and its outcome. -/
def AttemptOutcome.attempt (payload : Payload) (number : Nat) :
    AttemptOutcome → Option Payload × Except AttemptError ProviderResponse
  | circuitOpen => (none, .error .circuitOpen)
  | rejected error => (some payload, .error (classifyNetworkError error))
  | responded httpStatus json =>
    (some payload, toProviderResponse ⟨⟨number, payload⟩, httpStatus, recordOf json⟩ json.isNone)

/-- `isTransient` of the gateway; a value is never transient. -/
def isTransientAttempt : Except AttemptError ProviderResponse → Bool
  | .ok _ => false
  | .error e => isRetryable e

/-- What `classifyThrownFailure` makes of what `withRetry` throws. -/
def RetryError.attemptError : RetryError AttemptError → AttemptError
  | thrown e => e
  | exhausted => .networkError

structure HttpPaymentGateway where
  maxAttempts : Option Rat := none

namespace HttpPaymentGateway

def attempts (gateway : HttpPaymentGateway) : Rat := gateway.maxAttempts.getD MAX_ATTEMPTS

def runAttempts (gateway : HttpPaymentGateway) (payload : Payload)
    (outcomes : Nat → AttemptOutcome) :
    List Payload × Except (RetryError AttemptError) ProviderResponse :=
  let (made, outcome) := withRetry gateway.attempts isTransientAttempt
    fun number => ((outcomes number).attempt payload number).2
  (made.filterMap fun number => ((outcomes number).attempt payload number).1, outcome)

/-- The requests sent, and what the promise comes to. -/
def charge (gateway : HttpPaymentGateway) (command : ChargeCommand)
    (outcomes : Nat → AttemptOutcome) :
    List Payload × Except (RetryError AttemptError) ChargeResult :=
  let card := describeCard command.cardNumber
  let (requests, outcome) := gateway.runAttempts (chargePayload command) outcomes
  (requests, tryCatch (do return mapChargeResponse (← outcome) card.last4 card.brand) fun error =>
    return buildUnknownResult error.attemptError (some card.last4) (some card.brand))

def getStatus (gateway : HttpPaymentGateway) (idempotencyKey : String)
    (outcomes : Nat → AttemptOutcome) :
    List Payload × Except (RetryError AttemptError) ChargeResult :=
  let (requests, outcome) := gateway.runAttempts (.getStatus idempotencyKey) outcomes
  (requests, tryCatch (do return mapStatusResponse (← outcome)) fun error =>
    return buildUnknownResult error.attemptError none none)

end HttpPaymentGateway

/-- The attempt is repeated, if there is one left. -/
def AttemptOutcome.retried : AttemptOutcome → Bool
  | circuitOpen => false
  | rejected _ => true
  | responded httpStatus _ => 500 ≤ httpStatus

/-- The outcome that decides: the first, among the attempts allowed, that is not retried. -/
def HttpPaymentGateway.deciding (gateway : HttpPaymentGateway) (outcomes : Nat → AttemptOutcome) :
    Option AttemptOutcome :=
  ((List.range' 1 gateway.attempts.floor.toNat).map outcomes).find? fun outcome => !outcome.retried

def statusField (json : Option Json) : Option String := readStringField (recordOf json) "status"

/-- What `charge` may say, by the table of the design. -/
def chargedStatus : Option AttemptOutcome → PaymentStatus
  | some (.responded httpStatus json) =>
    if httpStatus = 200 ∧ statusField json = some "approved" then .CAPTURED
    else if httpStatus = 402 then .DECLINED
    else .UNKNOWN
  | _ => .UNKNOWN

/-- What `getStatus` may say. -/
def reportedStatus : Option AttemptOutcome → PaymentStatus
  | some (.responded httpStatus json) =>
    if httpStatus = 200 ∧ statusField json = some "approved" then .CAPTURED
    else if httpStatus = 200 ∧ statusField json = some "declined" then .DECLINED
    else if httpStatus = 404 then .FAILED
    else .UNKNOWN
  | _ => .UNKNOWN

/-- A 200 that does not say `approved`. -/
def Unapproved (outcome : Option AttemptOutcome) : Prop :=
  ∃ json, outcome = some (.responded 200 json) ∧ statusField json ≠ some "approved"

section Spec
variable {gateway : HttpPaymentGateway} {payload : Payload} {outcomes : Nat → AttemptOutcome}
  {outcome : AttemptOutcome} {number : Nat} {cardNumber : String}

theorem attempt_responded (payload : Payload) (number httpStatus : Nat) (json : Option Json) :
    ((AttemptOutcome.responded httpStatus json).attempt payload number).2 =
      if 500 ≤ httpStatus then .error .providerError else .ok ⟨httpStatus, recordOf json⟩ := by
  cases json <;> rfl

theorem attempt_request {request : Payload}
    (sent : (outcome.attempt payload number).1 = some request) : request = payload := by
  cases outcome with
  | circuitOpen => contradiction
  | rejected | responded => exact (Option.some.inj sent).symm

theorem isTransient_attempt (outcome : AttemptOutcome) (payload : Payload) (number : Nat) :
    isTransientAttempt (outcome.attempt payload number).2 = outcome.retried := by
  cases outcome with
  | circuitOpen => rfl
  | rejected error =>
      simp only [AttemptOutcome.attempt, isTransientAttempt, classifyNetworkError]
      cases classifyFetchError error <;> rfl
  | responded httpStatus json =>
      rw [attempt_responded]
      simp only [AttemptOutcome.retried]
      split <;> simp_all [isTransientAttempt, isRetryable]

theorem runAttempts_requests (gateway : HttpPaymentGateway) (payload : Payload)
    (outcomes : Nat → AttemptOutcome) :
    (gateway.runAttempts payload outcomes).1.length ≤ gateway.attempts.floor.toNat ∧
      ∀ request ∈ (gateway.runAttempts payload outcomes).1, request = payload := by
  constructor
  · exact (List.length_filterMap_le _ _).trans (retryFrom_length _ _)
  · intro request member
    obtain ⟨number, -, sent⟩ := List.mem_filterMap.mp member
    exact attempt_request sent

theorem runAttempts_decided (decided : gateway.deciding outcomes = some outcome) :
    ∃ number, (gateway.runAttempts payload outcomes).2 =
      (outcome.attempt payload number).2.mapError .thrown := by
  rw [HttpPaymentGateway.deciding, List.find?_map] at decided
  obtain ⟨number, found, same⟩ := Option.map_eq_some_iff.mp decided
  subst same
  refine ⟨number, retryFrom_decided (Nat.add_comm _ _) ?_⟩
  simp only [isTransient_attempt]
  exact found

theorem runAttempts_undecided (undecided : gateway.deciding outcomes = none) :
    ∃ error, (gateway.runAttempts payload outcomes).2 = .error error := by
  have transient : ∀ number ∈ List.range' 1 gateway.attempts.floor.toNat,
      isTransientAttempt ((outcomes number).attempt payload number).2 := by
    intro number member
    have retried := List.find?_eq_none.mp undecided (outcomes number)
      (List.mem_map_of_mem member)
    rw [isTransient_attempt]
    simpa using retried
  have outcome : (gateway.runAttempts payload outcomes).2 = _ ∨ _ := retryFrom_undecided transient
  rcases outcome with own | ⟨a, failed, last⟩
  · exact ⟨_, own⟩
  · cases thrown : ((outcomes a).attempt payload a).2 with
    | ok response => simp [isTransientAttempt, thrown] at failed
    | error e =>
        rw [thrown] at last
        exact ⟨_, last⟩

/-- `charge` never rejects: what its attempts throw becomes a result. -/
theorem charge_resolves (gateway : HttpPaymentGateway) (command : ChargeCommand)
    (outcomes : Nat → AttemptOutcome) : (gateway.charge command outcomes).2 =
      .ok (chargeResultOf command.cardNumber
        ((gateway.runAttempts (chargePayload command) outcomes).2.mapError
          RetryError.attemptError)) := by
  simp only [HttpPaymentGateway.charge]
  cases (gateway.runAttempts (chargePayload command) outcomes).2 <;> rfl

theorem getStatus_resolves (gateway : HttpPaymentGateway) (idempotencyKey : String)
    (outcomes : Nat → AttemptOutcome) : (gateway.getStatus idempotencyKey outcomes).2 =
      .ok (statusResultOf
        ((gateway.runAttempts (.getStatus idempotencyKey) outcomes).2.mapError
          RetryError.attemptError)) := by
  simp only [HttpPaymentGateway.getStatus]
  cases (gateway.runAttempts (.getStatus idempotencyKey) outcomes).2 <;> rfl

theorem mapError_attemptError (result : Except AttemptError ProviderResponse) :
    (result.mapError RetryError.thrown).mapError RetryError.attemptError = result := by
  cases result <;> rfl

/-- The mapping of a charge's response looks at its body for the payment's id only. -/
theorem chargeResultOf_responded (cardNumber : String) (payload : Payload)
    (number httpStatus : Nat) (json : Option Json) :
    (chargeResultOf cardNumber
      ((AttemptOutcome.responded httpStatus json).attempt payload number).2).status =
      if httpStatus = 200 then .CAPTURED else if httpStatus = 402 then .DECLINED else .UNKNOWN := by
  rw [attempt_responded]
  split
  · rename_i server
    have other : httpStatus ≠ 200 ∧ httpStatus ≠ 402 := by omega
    rw [if_neg other.1, if_neg other.2]
    rfl
  · simp only [chargeResultOf, mapChargeResponse]
    split
    · rfl
    · split <;> rfl

theorem chargeResultOf_status (cardNumber : String) (outcome : AttemptOutcome)
    (payload : Payload) (number : Nat) :
    (chargeResultOf cardNumber (outcome.attempt payload number).2).status =
        chargedStatus (some outcome) ↔ ¬ Unapproved (some outcome) := by
  cases outcome with
  | circuitOpen => exact iff_of_true rfl (by simp [Unapproved])
  | rejected error => exact iff_of_true rfl (by simp [Unapproved])
  | responded httpStatus json =>
      rw [chargeResultOf_responded]
      by_cases ok : httpStatus = 200
      · subst ok
        by_cases approved : statusField json = some "approved" <;>
          simp [chargedStatus, Unapproved, approved]
      · simp [chargedStatus, Unapproved, ok]

theorem statusResultOf_status (outcome : AttemptOutcome) (payload : Payload) (number : Nat) :
    (statusResultOf (outcome.attempt payload number).2).status = reportedStatus (some outcome) := by
  cases outcome with
  | circuitOpen => rfl
  | rejected error => rfl
  | responded httpStatus json =>
      rw [attempt_responded]
      split
      · rename_i server
        have other : httpStatus ≠ 200 ∧ httpStatus ≠ 404 := by omega
        simp only [reportedStatus, other.1, other.2, false_and, if_false]
        rfl
      · simp only [statusResultOf, mapStatusResponse, reportedStatus, statusField]
        by_cases missing : httpStatus = 404
        · simp [missing]
        · simp only [missing, if_false]
          split
          · rfl
          · split <;> rfl

/-- A call keeps to its attempts and its key, resolves, and says what the deciding outcome
allows. -/
def Allowed (gateway : HttpPaymentGateway) (key : String)
    (call : List Payload × Except (RetryError AttemptError) ChargeResult)
    (status : PaymentStatus) : Prop :=
  call.1.length ≤ gateway.attempts.floor.toNat ∧ (∀ request ∈ call.1, request.key = key) ∧
    ∃ result, call.2 = .ok result ∧ result.status = status

theorem getStatus_allowed (gateway : HttpPaymentGateway) (key : String)
    (outcomes : Nat → AttemptOutcome) :
    Allowed gateway key (gateway.getStatus key outcomes)
      (reportedStatus (gateway.deciding outcomes)) := by
  obtain ⟨few, same⟩ := runAttempts_requests gateway (.getStatus key) outcomes
  refine ⟨few, ?_, _, getStatus_resolves gateway key outcomes, ?_⟩
  · intro request member
    rw [same request member]
    rfl
  · cases decided : gateway.deciding outcomes with
    | none =>
        obtain ⟨error, failed⟩ := runAttempts_undecided decided
        rw [failed]
        rfl
    | some outcome =>
        obtain ⟨number, ran⟩ := runAttempts_decided decided
        rw [ran, mapError_attemptError, statusResultOf_status]

theorem charge_status_iff (gateway : HttpPaymentGateway) (command : ChargeCommand)
    (outcomes : Nat → AttemptOutcome) :
    (chargeResultOf command.cardNumber
      ((gateway.runAttempts (chargePayload command) outcomes).2.mapError
        RetryError.attemptError)).status = chargedStatus (gateway.deciding outcomes) ↔
      ¬ Unapproved (gateway.deciding outcomes) := by
  cases decided : gateway.deciding outcomes with
  | none =>
      obtain ⟨error, failed⟩ := runAttempts_undecided decided
      rw [failed]
      exact iff_of_true rfl (by simp [Unapproved])
  | some outcome =>
      obtain ⟨number, ran⟩ := runAttempts_decided decided
      rw [ran, mapError_attemptError, chargeResultOf_status]

/-- `charge` takes every deciding 200 for a capture; it guesses exactly where that one does not
say `approved`. `getStatus` never guesses. -/
theorem gateway_allowed_iff (gateway : HttpPaymentGateway) (command : ChargeCommand) (key : String)
    (charged asked : Nat → AttemptOutcome) :
    (Allowed gateway command.idempotencyKey (gateway.charge command charged)
        (chargedStatus (gateway.deciding charged)) ∧
      Allowed gateway key (gateway.getStatus key asked)
        (reportedStatus (gateway.deciding asked))) ↔
      ¬ Unapproved (gateway.deciding charged) := by
  rw [← charge_status_iff gateway command charged]
  obtain ⟨few, same⟩ := runAttempts_requests gateway (chargePayload command) charged
  constructor
  · rintro ⟨⟨-, -, result, resolves, status⟩, -⟩
    rw [charge_resolves] at resolves
    rw [Except.ok.inj resolves, status]
  · intro status
    refine ⟨⟨few, ?_, _, charge_resolves gateway command charged, status⟩,
      getStatus_allowed gateway key asked⟩
    intro request member
    rw [same request member]
    rfl

/-- A charge, answered by a 200 that says `declined`. -/
def declinedCharge : ChargeCommand where
  cardNumber := "4242424242424242"
  amountMinor := 1999
  currency := "USD"
  description := "Order CNL-2026-000001"
  idempotencyKey := "order:1"

def declining (_ : Nat) : AttemptOutcome := .responded 200 (some (.obj [("status", .str "declined")]))

theorem charge_guesses :
    (∃ result, (HttpPaymentGateway.charge {} declinedCharge declining).2 = .ok result ∧
      result.status = .CAPTURED) ∧
    ¬ Allowed {} declinedCharge.idempotencyKey (HttpPaymentGateway.charge {} declinedCharge declining)
      (chargedStatus (HttpPaymentGateway.deciding {} declining)) := by
  constructor
  · exact ⟨_, rfl, rfl⟩
  · rintro ⟨-, -, result, resolves, status⟩
    rw [charge_resolves] at resolves
    have approves := (charge_status_iff {} declinedCharge declining).mp
      ((congrArg ChargeResult.status (Except.ok.inj resolves)).trans status)
    exact approves ⟨_, rfl, by decide⟩

end Spec

end Canals
