import Canals.Http.Json
import Canals.Orders.CreateOrder

/-! `buildProblem` and `ProblemDetailsFilter`: every exception of a request as
the status and the RFC 9457 body its client gets. -/
namespace Canals

/-- The `message` of a `BadRequestException`'s response. -/
inductive BadRequestMessage where
  | text (message : String)
  | list (messages : List String)

/-- What a request can throw, as far as the filter tells apart. -/
inductive Exception where
  | badRequest (message : BadRequestMessage)
  | customerNotFound (customerId : String)
  | productNotFound (productIds : List String)
  | orderNotFound (orderId : String)
  | noFulfilmentPossible (productIds : List String) (reason : NoFulfilmentPossibleReason)
  | geocodingFailed (message : String)
  | paymentDeclined (orderId : Uuid) (failureCode : Option String)
  | paymentProviderUnavailable (orderId : Uuid) (failureCode : Option String)
  | http (status : Int) (name message : String)
  /-- `http-errors` of the body parser, with a `status` and `expose: true`. -/
  | exposed (status : Int) (name message : String)
  | other (e : Thrown)

/-- What a saga throws. -/
def CreateOrderError.toException : CreateOrderError → Exception
  | thrown e => .other e
  | customerNotFound customerId => .customerNotFound customerId
  | productNotFound productIds => .productNotFound productIds
  | geocodingFailed message => .geocodingFailed message
  | noFulfilmentPossible productIds reason => .noFulfilmentPossible productIds reason
  | paymentDeclined orderId failureCode => .paymentDeclined orderId failureCode
  | paymentProviderUnavailable orderId failureCode =>
    .paymentProviderUnavailable orderId failureCode

structure ProblemDetailsErrorItem where
  field : String
  message : String

structure ProblemShape where
  status : Int
  type : String
  title : String
  detail : String
  errors : Option (List ProblemDetailsErrorItem) := none
  orderId : Option String := none

structure ProblemDetails where
  type : String
  title : String
  status : Int
  detail : String
  instancePath : String
  correlationId : String
  errors : Option (List ProblemDetailsErrorItem)
  orderId : Option String

/-- A string that is neither absent nor empty. -/
def truthy (s : Option String) : Option String := s.filter (· ≠ "")

/-- `/^property (.+) should not exist$/`, with the field it captures. -/
def matchWhitelistViolation (text : String) : Option String :=
  let start := "property ".toList
  let stop := " should not exist".toList
  let cs := text.toList
  let field := (cs.drop start.length).take (cs.length - start.length - stop.length)
  let newlines := ['\n', '\r', Char.ofNat 0x2028, Char.ofNat 0x2029]
  if start.isPrefixOf cs ∧ stop.isSuffixOf (cs.drop start.length) ∧ field ≠ [] ∧
    field.all (fun c => !newlines.contains c) then some (String.ofList field) else none

def extractValidationErrors : BadRequestMessage → Option (List ProblemDetailsErrorItem)
  | .text _ => none
  | .list messages => some (messages.map fun text =>
    match matchWhitelistViolation text with
    | some field => ⟨field, text⟩
    -- up to the first space, if there is one
    | none => ⟨String.ofList (text.toList.takeWhile (· ≠ ' ')), text⟩)

/-- ` (code)`, or nothing. -/
def inParentheses (failureCode : Option String) : String :=
  match truthy failureCode with
  | some code => " (" ++ code ++ ")"
  | none => ""

def buildProblem : Exception → ProblemShape
  | .badRequest message => {
      status := 400
      type := "urn:problem-type:invalid-payload"
      title := "Invalid payload"
      detail := "The request body or headers failed validation."
      errors := extractValidationErrors message }
  | .customerNotFound customerId => {
      status := 404
      type := "urn:problem-type:not-found"
      title := "Resource not found"
      detail := "Customer not found: " ++ customerId }
  | .productNotFound productIds => {
      status := 404
      type := "urn:problem-type:not-found"
      title := "Resource not found"
      detail := "Product not found or inactive: " ++ ", ".intercalate productIds }
  | .orderNotFound orderId => {
      status := 404
      type := "urn:problem-type:not-found"
      title := "Resource not found"
      detail := "Order not found: " ++ orderId }
  | .noFulfilmentPossible productIds .RESERVATION_RACE_LOST => {
      status := 409
      type := "urn:problem-type:inventory-reservation-conflict"
      title := "Inventory reservation conflict"
      detail := "No fulfilment possible for product ids: " ++ ", ".intercalate productIds }
  | .noFulfilmentPossible productIds .NO_CANDIDATES => {
      status := 422
      type := "urn:problem-type:no-fulfilment-possible"
      title := "No fulfilment possible"
      detail := "No fulfilment possible for product ids: " ++ ", ".intercalate productIds }
  | .geocodingFailed message => {
      status := 422
      type := "urn:problem-type:geocoding-failed"
      title := "Geocoding failed"
      detail := message }
  | .paymentDeclined _ failureCode => {
      status := 402
      type := "urn:problem-type:payment-declined"
      title := "Payment declined"
      detail := "Payment declined" ++ inParentheses failureCode }
  | .paymentProviderUnavailable orderId failureCode => {
      status := 502
      type := "urn:problem-type:payment-provider-unavailable"
      title := "Payment provider unavailable"
      detail := "Payment outcome unknown" ++ inParentheses failureCode ++ ". Order " ++ orderId ++
        " is pending confirmation — poll GET /orders/" ++ orderId ++
        "; do not retry with a new Idempotency-Key."
      orderId := some orderId }
  | .http status name message | .exposed status name message => {
      status
      type := "about:blank"
      title := name
      detail := message }
  | .other _ => {
      status := 500
      type := "about:blank"
      title := "Internal server error"
      detail := "An unexpected error occurred." }

def ProblemDetails.toJson (problem : ProblemDetails) : Json :=
  .obj ([("type", .str problem.type), ("title", .str problem.title),
      ("status", .num problem.status), ("detail", .str problem.detail),
      ("instance", .str problem.instancePath), ("correlationId", .str problem.correlationId)] ++
    (problem.errors.map fun errors => ("errors", Json.arr (errors.map fun item =>
      .obj [("field", .str item.field), ("message", .str item.message)]))).toList ++
    (problem.orderId.map fun orderId => ("orderId", Json.str orderId)).toList)

structure HttpResponse where
  status : Int
  body : Json

/-- `ProblemDetailsFilter.catch`, for a request with this URL and correlation id. -/
def catchProblem (originalUrl : String) (correlationId : Option String) (exception : Exception) :
    HttpResponse :=
  let problem := buildProblem exception
  let body : ProblemDetails := {
    type := problem.type
    title := problem.title
    status := problem.status
    detail := problem.detail
    instancePath := originalUrl
    correlationId := correlationId.getD ""
    errors := problem.errors
    orderId := truthy problem.orderId }
  ⟨problem.status, body.toJson⟩

end Canals
