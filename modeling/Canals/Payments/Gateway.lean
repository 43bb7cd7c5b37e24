import Canals.Domain.Order
import Canals.Payments.Provider

/-! `HttpPaymentGateway`: up to three attempts at an exchange with the provider,
and how their outcome reads as a `ChargeResult`. The breaker may reject any
attempt; its counters are not modelled. The redacted body is left out. -/
namespace Canals
open Provider (Payload Request Response ChargeService Stored digitsOf)

/-- `Number` of a run of digits; of none it is 0. -/
def numberOf (digits : List Char) : Nat :=
  digits.foldl (fun n c => 10 * n + (c.toNat - '0'.toNat)) 0

def isMastercard (digits : List Char) : Bool :=
  let twoDigitPrefix := numberOf (digits.take 2)
  let fourDigitPrefix := numberOf (digits.take 4)
  (51 ≤ twoDigitPrefix && twoDigitPrefix ≤ 55) ||
    (2221 ≤ fourDigitPrefix && fourDigitPrefix ≤ 2720)

def isDiscover (digits : List Char) : Bool :=
  let threeDigitPrefix := numberOf (digits.take 3)
  "6011".toList.isPrefixOf digits || (644 ≤ threeDigitPrefix && threeDigitPrefix ≤ 649) ||
    "65".toList.isPrefixOf digits

def describeBrand (digits : List Char) : String :=
  if "4".toList.isPrefixOf digits then "visa"
  else if isMastercard digits then "mastercard"
  else if "34".toList.isPrefixOf digits || "37".toList.isPrefixOf digits then "amex"
  else if isDiscover digits then "discover"
  else "unknown"

structure CardDescription where
  last4 : String
  brand : String

def describeCard (pan : String) : CardDescription where
  last4 := Provider.cardLast4 pan
  brand := describeBrand (digitsOf pan)

structure ChargeCommand where
  cardNumber : String
  amountMinor : Int
  currency : String
  description : String
  idempotencyKey : String

/-- What an attempt throws; all but `circuitOpen` are `RetryableProviderError`s. -/
inductive AttemptError where
  | circuitOpen
  | timeout
  | providerError
  | connectionRefused
  | networkError
  deriving DecidableEq

def isRetryable : AttemptError → Bool
  | .circuitOpen => false
  | _ => true

structure ProviderResponse where
  httpStatus : Nat
  body : Option JsonObject

/-- `garbled` when the body does not arrive as JSON. -/
def toProviderResponse (response : Response) (garbled : Bool) :
    Except AttemptError ProviderResponse :=
  if 500 ≤ response.httpStatus then .error .providerError
  else .ok ⟨response.httpStatus, if garbled then none else response.body⟩

def classifyThrownFailure : AttemptError → String
  | .circuitOpen => "CIRCUIT_OPEN"
  | .timeout => "TIMEOUT"
  | .providerError => "PROVIDER_ERROR"
  | .connectionRefused => "CONNECTION_REFUSED"
  | .networkError => "NETWORK_ERROR"

def buildUnknownResult (e : AttemptError) (cardLast4 cardBrand : Option String) :
    ChargeResult where
  status := .UNKNOWN
  providerPaymentId := none
  cardLast4
  cardBrand
  failureCode := some (classifyThrownFailure e)

def mapChargeResponse (response : ProviderResponse) (last4 brand : String) : ChargeResult :=
  let providerPaymentId := readStringField response.body "id"
  if response.httpStatus = 200 then
    ⟨.CAPTURED, providerPaymentId, some last4, some brand, none⟩
  else if response.httpStatus = 402 then
    ⟨.DECLINED, providerPaymentId, some last4, some brand, some "CARD_DECLINED"⟩
  -- 400 / 422: a bug on our side, not a card outcome
  else ⟨.UNKNOWN, providerPaymentId, some last4, some brand, some "INVALID_REQUEST"⟩

def mapStatusResponse (response : ProviderResponse) : ChargeResult :=
  if response.httpStatus = 404 then ⟨.FAILED, none, none, none, some "NOT_FOUND"⟩
  else
    let providerPaymentId := readStringField response.body "id"
    let cardLast4 := readStringField response.body "cardLast4"
    let providerStatus := readStringField response.body "status"
    if response.httpStatus = 200 ∧ providerStatus = some "approved" then
      ⟨.CAPTURED, providerPaymentId, cardLast4, none, none⟩
    else if response.httpStatus = 200 ∧ providerStatus = some "declined" then
      ⟨.DECLINED, providerPaymentId, cardLast4, none, some "CARD_DECLINED"⟩
    else ⟨.UNKNOWN, providerPaymentId, cardLast4, none, some "INVALID_REQUEST"⟩

def chargePayload (command : ChargeCommand) : Payload :=
  .charge command.idempotencyKey {
    cardNumber := command.cardNumber
    amountCents := command.amountMinor
    currency := command.currency
    description := command.description }

/-- What `charge` resolves to when its attempts come to `outcome`. -/
def chargeResultOf (cardNumber : String) (outcome : Except AttemptError ProviderResponse) :
    ChargeResult :=
  let card := describeCard cardNumber
  match outcome with
  | .ok response => mapChargeResponse response card.last4 card.brand
  | .error e => buildUnknownResult e (some card.last4) (some card.brand)

/-- What `getStatus` resolves to. -/
def statusResultOf (outcome : Except AttemptError ProviderResponse) : ChargeResult :=
  match outcome with
  | .ok response => mapStatusResponse response
  | .error e => buildUnknownResult e none none

def MAX_ATTEMPTS : Nat := 3

/-- `runAttempts` under way: the attempt it is at, and its request once sent. -/
structure Exchange where
  payload : Payload
  attempt : Nat := 1
  request : Option Request := none

inductive Attempted where
  | again (exchange : Exchange)
  | done (outcome : Except AttemptError ProviderResponse)

/-- One turn of the loop in `withRetry`. A resolved value is never transient. -/
def Exchange.attempted (exchange : Exchange)
    (outcome : Except AttemptError ProviderResponse) : Attempted :=
  match outcome with
  | .ok response => .done (.ok response)
  | .error e =>
    if exchange.attempt = MAX_ATTEMPTS ∨ ¬ isRetryable e then .done (.error e)
    else .again { exchange with attempt := exchange.attempt + 1, request := none }

/-- A definitive result is what the provider has stored under the key. -/
structure ChargeResult.Reports (service : ChargeService) (key : String) (result : ChargeResult) :
    Prop where
  captured : result.status = .CAPTURED → Stored service key .approved
  declined : result.status = .DECLINED → Stored service key .declined

section Spec
variable {service after : ChargeService} {key cardNumber : String} {response : Response}
  {garbled : Bool}

theorem ChargeResult.Reports.mono {result : ChargeResult} (grown : Provider.Extends service after)
    (reports : result.Reports service key) : result.Reports after key :=
  ⟨fun status => grown.stored (reports.captured status),
    fun status => grown.stored (reports.declined status)⟩

theorem chargeResultOf_error (e : AttemptError) :
    (chargeResultOf cardNumber (.error e)).Reports service key := ⟨nofun, nofun⟩

theorem statusResultOf_error (e : AttemptError) :
    (statusResultOf (.error e)).Reports service key := ⟨nofun, nofun⟩

theorem chargeResultOf_reports {body : Provider.ChargeRequestBody}
    (payload : response.request.payload = .charge key body) (holds : response.Holds service) :
    (chargeResultOf cardNumber (toProviderResponse response garbled)).Reports service key := by
  simp only [Response.Holds, payload] at holds
  unfold toProviderResponse
  split
  · exact chargeResultOf_error _
  · simp only [chargeResultOf, mapChargeResponse]
    split
    · refine ⟨fun _ => holds.1 ‹_›, fun declined => ?_⟩
      cases declined
    · split
      · refine ⟨fun captured => ?_, fun _ => holds.2 ‹_›⟩
        cases captured
      · refine ⟨fun captured => ?_, fun declined => ?_⟩
        · cases captured
        · cases declined

theorem mapStatusResponse_spec (response : ProviderResponse) :
    ((mapStatusResponse response).status = .CAPTURED → response.httpStatus = 200 ∧
      readStringField response.body "status" = some "approved") ∧
    ((mapStatusResponse response).status = .DECLINED → response.httpStatus = 200 ∧
      readStringField response.body "status" = some "declined") ∧
    ((mapStatusResponse response).status = .FAILED → response.httpStatus = 404) := by
  simp only [mapStatusResponse]
  split
  · exact ⟨nofun, nofun, fun _ => ‹_›⟩
  · split
    · exact ⟨fun _ => ‹_›, nofun, nofun⟩
    · split
      · exact ⟨nofun, fun _ => ‹_›, nofun⟩
      · exact ⟨nofun, nofun, nofun⟩

theorem statusResultOf_reports (payload : response.request.payload = .getStatus key)
    (holds : response.Holds service) :
    (statusResultOf (toProviderResponse response garbled)).Reports service key := by
  simp only [Response.Holds, payload] at holds
  have stored : ∀ status : Provider.ChargeStatus, response.httpStatus = 200 ∧
      readStringField (if garbled then none else response.body) "status" = some status.text →
      Stored service key status := by
    rintro status ⟨ok, said⟩
    obtain ⟨actual, known, text⟩ := holds ok
    cases garbled with
    | true => cases said
    | false =>
      simp only [Bool.false_eq_true, if_false, text, Option.some.injEq] at said
      cases actual <;> cases status <;> first | exact known | exact absurd said (by decide)
  unfold toProviderResponse
  split
  · exact statusResultOf_error _
  · obtain ⟨captured, declined, -⟩ := mapStatusResponse_spec
      ⟨response.httpStatus, if garbled then none else response.body⟩
    exact ⟨fun status => stored .approved (captured status),
      fun status => stored .declined (declined status)⟩

/-- Only a 404 reads as `FAILED`. -/
theorem statusResultOf_failed
    (failed : (statusResultOf (toProviderResponse response garbled)).status = .FAILED) :
    response.httpStatus = 404 := by
  unfold toProviderResponse at failed
  split at failed
  · contradiction
  · exact (mapStatusResponse_spec _).2.2 failed

theorem statusResultOf_error_ne_failed (e : AttemptError) :
    (statusResultOf (.error e)).status ≠ .FAILED := nofun

end Spec

end Canals
