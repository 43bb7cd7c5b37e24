import Canals.Http.CreateOrderDto
import Canals.Http.OrderResponse
import Canals.Http.Problem

/-! `CreateOrderIdempotentService` over the `idempotency_keys` table: any number
of calls, each one statement or one saga at a time. Every statement commits by
itself; it applies or fails without effect. -/
namespace Canals.Idempotency

/-- What the service takes from its libraries and from Postgres: `jsonb` refuses
some values and may reorder the keys of the others. -/
structure Platform where
  isUUID : String → Bool
  sha256 : String → String
  localeLe : String → String → Bool
  numberToString : Rat → String
  formatDistance : Rat → Json
  formatCentsAsDollars : Int → String
  jsonb : Json → Option Json
  jsonb_same : ∀ {v w}, jsonb v = some w → v.Same w

def computeRequestFingerprint (platform : Platform) (body : Json) : String :=
  platform.sha256 ((body.canonicalize platform.localeLe).stringify platform.numberToString)

inductive IdempotencyState where
  | IN_PROGRESS
  | COMPLETED
  deriving DecidableEq

structure IdempotencyKeyRow where
  scope : String
  idempotencyKey : String
  requestFingerprint : String
  state : IdempotencyState
  orderId : Option Uuid := none
  responseStatus : Option Int := none
  responseBody : Option Json := none
  expiresAt : Timestamptz

abbrev KeyRows := AList fun _ : Uuid => IdempotencyKeyRow

def SCOPE : String := "POST /orders"

def IDEMPOTENCY_KEY_TTL_HOURS : Int := 24

section Statements

/-- The primary key and `uq_idempotency` raise the same code. -/
def insertInProgress (rows : KeyRows) (id : Uuid) (now : Date)
    (idempotencyKey requestFingerprint : String) : Except DbError KeyRows :=
  let expiresAt : Date := ⟨now.ms + IDEMPOTENCY_KEY_TTL_HOURS * 60 * 60 * 1000⟩
  if (rows.lookup id).isSome ∨ rows.entries.any fun entry =>
      entry.2.scope = SCOPE && entry.2.idempotencyKey = idempotencyKey then
    .error .uniqueViolation
  else .ok (rows.insert id {
    scope := SCOPE
    idempotencyKey
    requestFingerprint
    state := .IN_PROGRESS
    expiresAt := expiresAt.toTimestamptz })

def findActiveByKey (rows : KeyRows) (now : Timestamptz) (idempotencyKey : String) :
    Option IdempotencyKeyRow :=
  (rows.entries.find? fun entry => entry.2.scope = SCOPE &&
    entry.2.idempotencyKey = idempotencyKey && now.us < entry.2.expiresAt.us).map (·.2)

structure MarkCompletedParams where
  id : Uuid
  orderId : Option Uuid
  responseStatus : Int
  responseBody : Json

def fitsSmallint (n : Int) : Bool := -32768 ≤ n && n ≤ 32767

/-- `none` when the status or the body cannot be stored. -/
def markCompleted (platform : Platform) (rows : KeyRows) (params : MarkCompletedParams) :
    Option KeyRows :=
  if fitsSmallint params.responseStatus then
    (platform.jsonb params.responseBody).map fun responseBody =>
      match rows.lookup params.id with
      | some row => rows.insert params.id { row with
          state := .COMPLETED
          orderId := params.orderId
          responseStatus := some params.responseStatus
          responseBody := some responseBody }
      | none => rows
  else none

end Statements

/-- A request: the header, the validated body, its URL and its correlation id. -/
structure CreateOrderIdempotentParams where
  idempotencyKey : Option String
  dto : Json
  instancePath : String
  correlationId : Option String

/-- The command as built, its fields as untyped as the body's. -/
structure UntypedCommand where
  customerId : Option Json
  shippingAddress : Option Json
  lines : Option Json
  cardNumber : Option Json
  idempotencyKey : String

/-- `value.name`, on an `undefined` (`none`) or a JSON value. -/
def readProperty (value : Option Json) (name : String) : Except Exception (Option Json) :=
  match value with
  | none => .error (.other (.error
      s!"Cannot read properties of undefined (reading '{name}')"))
  | some .null => .error (.other (.error s!"Cannot read properties of null (reading '{name}')"))
  | some (.obj properties) => .ok (properties.lookup name)
  | some _ => .ok none

def createCommand (dto : Json) (idempotencyKey : String) : Except Exception UntypedCommand := do
  let customerId ← readProperty (some dto) "customerId"
  let shippingAddress ← readProperty (some dto) "shippingAddress"
  let lines ← readProperty (some dto) "items"
  let payment ← readProperty (some dto) "payment"
  let cardNumber ← readProperty payment "cardNumber"
  return {
    customerId
    shippingAddress
    lines
    cardNumber
    idempotencyKey }

/-- How `execute` ends: `replay` and `resolved` are what it resolves to. -/
inductive Answer where
  | replay (status : Int) (body : Json)
  | resolved (status : Int) (body : Json)
  | threw (exception : Exception)

/-- What the client of a call gets: the controller's answer or the filter's. -/
def Answer.response (params : CreateOrderIdempotentParams) : Answer → HttpResponse
  | replay status body | resolved status body => ⟨status, body⟩
  | threw exception => catchProblem params.instancePath params.correlationId exception

/-- Where a call stands, from `insertInProgress` on with the id of its row. An
answered call has its row's id, if it inserted one. -/
inductive Ctl where
  | received
  | inserting (idempotencyKey requestFingerprint : String)
  | looking (idempotencyKey requestFingerprint : String) (e : DbError)
  | running (id : Uuid) (command : UntypedCommand)
  | completing (id : Uuid) (result : OrderResponseParams)
  | failing (id : Uuid) (exception : Exception)
  | answered (id : Option Uuid) (answer : Answer)
  | crashed (id : Option Uuid)

def assertValidIdempotencyKey (platform : Platform) (idempotencyKey : Option String) :
    Except Exception String :=
  match truthy idempotencyKey with
  | none => .error (.badRequest (.text "Idempotency-Key header is required"))
  | some key =>
    if platform.isUUID key then .ok key
    else .error (.badRequest (.text "Idempotency-Key header must be a UUID"))

/-- `execute` up to its first statement. -/
def beginRequest (platform : Platform) (params : CreateOrderIdempotentParams) : Ctl :=
  match assertValidIdempotencyKey platform params.idempotencyKey with
  | .ok key => .inserting key (computeRequestFingerprint platform params.dto)
  | .error exception => .answered none (.threw exception)

/-- The handler around the insert. -/
def insertFailed (idempotencyKey requestFingerprint : String) (e : DbError) : Ctl :=
  if e = .uniqueViolation then .looking idempotencyKey requestFingerprint e
  else .answered none (.threw (.other (.database e)))

/-- What a conflict comes to, from the row found. -/
def resolveConflict (existing : Option IdempotencyKeyRow) (requestFingerprint : String)
    (e : DbError) : Answer :=
  match existing with
  | none => .threw (.other (.database e))
  | some existing =>
    if existing.requestFingerprint ≠ requestFingerprint then
      .threw (.http 422 "UnprocessableEntityException"
        "Idempotency-Key was already used with a different request body")
    else if existing.state = .IN_PROGRESS then
      .threw (.http 409 "ConflictException"
        "A request with this Idempotency-Key is still being processed")
    else .replay (existing.responseStatus.getD 200) (existing.responseBody.getD .null)

/-- `runAndRecord` up to the saga: the command is built outside the `try`. -/
def runAndRecord (id : Uuid) (idempotencyKey : String) (dto : Json) : Ctl :=
  match createCommand dto idempotencyKey with
  | .ok command => .running id command
  | .error exception => .answered (some id) (.threw exception)

def Platform.orderResponse (platform : Platform) (result : OrderResponseParams) : Json :=
  toOrderResponse platform.formatDistance platform.formatCentsAsDollars result

/-- The body `runAndRecord` stores for an exception. -/
def storedProblem (params : CreateOrderIdempotentParams) (exception : Exception) :
    ProblemDetails :=
  let problem := buildProblem exception
  { type := problem.type
    title := problem.title
    status := problem.status
    detail := problem.detail
    instancePath := params.instancePath
    correlationId := params.correlationId.getD ""
    errors := problem.errors
    orderId := truthy problem.orderId }

/-- 402 and 502 are thrown only after the order row exists. -/
def recordedOrderId : Exception → Option Uuid
  | .paymentDeclined orderId _ | .paymentProviderUnavailable orderId _ => some orderId
  | _ => none

def completion (platform : Platform) (id : Uuid) (result : OrderResponseParams) :
    MarkCompletedParams where
  id
  orderId := some result.order.id
  responseStatus := 201
  responseBody := platform.orderResponse result

def failure (params : CreateOrderIdempotentParams) (id : Uuid) (exception : Exception) :
    MarkCompletedParams where
  id
  orderId := recordedOrderId exception
  responseStatus := (buildProblem exception).status
  responseBody := (storedProblem params exception).toJson

/-- The statement a call stands before, when it does not fail. -/
def Ctl.exec (platform : Platform) (params : CreateOrderIdempotentParams) (rows : KeyRows)
    (clock : Timestamptz) (id : Uuid) (now : Date) : Ctl → Option (KeyRows × Ctl)
  | inserting key fingerprint =>
    match insertInProgress rows id now key fingerprint with
    | .ok rows => some (rows, runAndRecord id key params.dto)
    | .error e => some (rows, insertFailed key fingerprint e)
  | looking key fingerprint e =>
    some (rows, answered none (resolveConflict (findActiveByKey rows clock key) fingerprint e))
  | completing id result =>
    (markCompleted platform rows (completion platform id result)).map fun rows =>
      (rows, answered (some id) (.resolved 201 (platform.orderResponse result)))
  | failing id exception =>
    (markCompleted platform rows (failure params id exception)).map fun rows =>
      (rows, answered (some id) (.threw exception))
  | _ => none

/-- The statement fails. Behind the saga, its error goes to the same handler. -/
def Ctl.fail (e : DbError) : Ctl → Option Ctl
  | inserting key fingerprint => some (insertFailed key fingerprint e)
  | looking _ _ _ => some (answered none (.threw (.other (.database e))))
  | completing id _ => some (failing id (.other (.database e)))
  | failing id _ => some (answered (some id) (.threw (.other (.database e))))
  | _ => none

/-- The row a call has inserted. -/
def Ctl.begun : Ctl → Option Uuid
  | running id _ | completing id _ | failing id _ => some id
  | answered id _ | crashed id => id
  | _ => none

/-- The table, the database's clock and the calls, with the sagas that have been
started and those that resolved. -/
structure Service (P : Type) where
  rows : KeyRows := ∅
  clock : Timestamptz
  ctl : P → Ctl := fun _ => .received
  sagas : List (P × UntypedCommand) := []
  confirmed : List (P × OrderResponseParams) := []

inductive Action (P : Type) where
  | receive (p : P)
  | exec (p : P) (id : Uuid) (now : Date)
  | fail (p : P) (e : DbError)
  /-- The saga resolves; building the response may still throw. -/
  | resolve (p : P) (result : OrderResponseParams) (thrown : Option Exception)
  | reject (p : P) (exception : Exception)
  | crash (p : P)
  | tick (clock : Timestamptz)

def Ctl.command : Ctl → Option UntypedCommand
  | running _ command => some command
  | _ => none

namespace Service
variable {P : Type} [DecidableEq P]

def goto (s : Service P) (p : P) (ctl : Ctl) : Service P :=
  { s with ctl := Function.update s.ctl p ctl }

def step (platform : Platform) (params : P → CreateOrderIdempotentParams) (s : Service P) :
    Action P → Option (Service P)
  | .receive p =>
    match s.ctl p with
    | .received => some (s.goto p (beginRequest platform (params p)))
    | _ => none
  | .exec p id now =>
    ((s.ctl p).exec platform (params p) s.rows s.clock id now).map fun (rows, ctl) =>
      { s.goto p ctl with
        rows
        sagas := s.sagas ++ (ctl.command.map fun command => (p, command)).toList }
  | .fail p e => ((s.ctl p).fail e).map (s.goto p)
  | .resolve p result thrown =>
    match s.ctl p with
    | .running id _ =>
      let ctl := match thrown with
        | none => .completing id result
        | some exception => .failing id exception
      some { s.goto p ctl with confirmed := s.confirmed ++ [(p, result)] }
    | _ => none
  | .reject p exception =>
    match s.ctl p with
    | .running id _ => some (s.goto p (.failing id exception))
    | _ => none
  | .crash p =>
    match s.ctl p with
    | .answered _ _ => none
    | ctl => some (s.goto p (.crashed ctl.begun))
  | .tick clock => some { s with clock }

/-- Runs from an empty table under a restriction of the steps. -/
def Runs (platform : Platform) (params : P → CreateOrderIdempotentParams)
    (Allowed : Service P → Action P → Prop) (clock : Timestamptz) (s : Service P) : Prop :=
  Relation.ReflTransGen (fun s t => ∃ a, s.step platform params a = some t ∧ Allowed s a)
    { clock } s

/-- The state after these steps, if each is possible and passes the check. -/
def runWhile (check : Service P → Action P → Bool) (platform : Platform)
    (params : P → CreateOrderIdempotentParams) (s : Service P) (actions : List (Action P)) :
    Option (Service P) :=
  actions.foldlM (fun s a => if check s a then s.step platform params a else none) s

theorem runs_of_runWhile {Allowed : Service P → Action P → Prop}
    {check : Service P → Action P → Bool} {platform : Platform}
    {params : P → CreateOrderIdempotentParams} {clock : Timestamptz} {s t : Service P}
    {actions : List (Action P)} (meets : ∀ s a, check s a → Allowed s a)
    (start : Runs platform params Allowed clock s)
    (ran : s.runWhile check platform params actions = some t) :
    Runs platform params Allowed clock t := by
  induction actions generalizing s with
  | nil =>
    cases ran
    exact start
  | cons action actions ih =>
    simp only [runWhile, List.foldlM_cons, Option.bind_eq_bind] at ran
    obtain ⟨u, stepped, rest⟩ := Option.bind_eq_some_iff.mp ran
    split at stepped <;> try contradiction
    exact ih (start.tail ⟨action, stepped, meets _ _ ‹_›⟩) rest

abbrev Reachable (platform : Platform) (params : P → CreateOrderIdempotentParams)
    (clock : Timestamptz) (s : Service P) : Prop :=
  Runs platform params (fun _ _ => True) clock s

end Service

end Canals.Idempotency
