import Mathlib.Algebra.Order.Ring.Unbundled.Rat
import Mathlib.Data.List.Basic

/-! `CircuitBreaker` and the calls that go through it. What runs between two
`await`s is one step: the synchronous part of `execute`, the recording of an
operation that has settled, and the `finally` of the probe's call after it. -/
namespace Canals

inductive BreakerState where
  | CLOSED
  | OPEN
  | HALF_OPEN
  deriving DecidableEq

def BREAKER_FAILURE_THRESHOLD : Rat := 5

def BREAKER_OPEN_MS : Rat := 30000

structure CircuitBreakerOptions where
  name : String
  failureThreshold : Rat := BREAKER_FAILURE_THRESHOLD
  openMs : Rat := BREAKER_OPEN_MS

structure CircuitOpenError where
  message : String
  deriving DecidableEq

def CircuitOpenError.new (breakerName : String) : CircuitOpenError :=
  ⟨s!"Circuit breaker '{breakerName}' is open"⟩

/-- What `transitionTo` logs: the state left, the state entered. -/
structure TransitionLine where
  breaker : String
  left : BreakerState
  entered : BreakerState
  consecutiveFailures : Nat
  deriving DecidableEq

structure CircuitBreaker where
  currentState : BreakerState := .CLOSED
  consecutiveFailures : Nat := 0
  openedAt : Option Rat := none
  halfOpenProbeInFlight : Bool := false
  /-- The lines logged so far. -/
  warnings : List TransitionLine := []

namespace CircuitBreaker
variable (options : CircuitBreakerOptions) (now : Rat)

def transitionTo (b : CircuitBreaker) (next : BreakerState) : CircuitBreaker :=
  { b with
    currentState := next
    warnings := b.warnings ++ [⟨options.name, b.currentState, next, b.consecutiveFailures⟩] }

def maybeHalfOpen (b : CircuitBreaker) : CircuitBreaker :=
  let openLongEnough := b.openedAt.any fun openedAt => options.openMs ≤ now - openedAt
  if b.currentState = .OPEN ∧ openLongEnough then b.transitionTo options .HALF_OPEN else b

def onSuccess (b : CircuitBreaker) : CircuitBreaker :=
  if b.currentState = .HALF_OPEN then
    { b with consecutiveFailures := 0 }.transitionTo options .CLOSED
  -- not only while closed: a late success resets the counter of an open breaker too
  else { b with consecutiveFailures := 0 }

def onFailure (b : CircuitBreaker) : CircuitBreaker :=
  if b.currentState = .HALF_OPEN then
    { b with openedAt := some now }.transitionTo options .OPEN
  else
    let b := { b with consecutiveFailures := b.consecutiveFailures + 1 }
    if options.failureThreshold ≤ b.consecutiveFailures then
      { b with openedAt := some now }.transitionTo options .OPEN
    else b

/-- `execute` up to the call of its operation, and whether that is the probe. -/
def execute (b : CircuitBreaker) : Except CircuitOpenError Bool × CircuitBreaker :=
  let b := b.maybeHalfOpen options now
  match b.currentState with
  | .OPEN => (.error (.new options.name), b)
  | .HALF_OPEN =>
    if b.halfOpenProbeInFlight then (.error (.new options.name), b)
    else (.ok true, { b with halfOpenProbeInFlight := true })
  | .CLOSED => (.ok false, b)

end CircuitBreaker

namespace Breaker

/-- A call is in flight until it has settled: for the probe, until its `finally` has run. -/
inductive Phase where
  | running
  | recorded
  | settled
  deriving DecidableEq

/-- A call whose operation was started. -/
structure Call where
  probe : Bool
  /-- How many state changes had been logged when it was. -/
  startedAfter : Nat
  phase : Phase := .running

/-- The breaker, its clock and the calls, in the order they were started. -/
structure World where
  breaker : CircuitBreaker := {}
  clock : Rat
  calls : List Call := []

inductive Action where
  | execute
  /-- The operation of call `i` resolves or throws. -/
  | complete (i : Nat) (resolved : Bool)
  /-- `finally` of call `i`. -/
  | leave (i : Nat)
  | advance (now : Rat)
  deriving DecidableEq

def World.step (options : CircuitBreakerOptions) (w : World) : Action → Option World
  | .execute =>
    match w.breaker.execute options w.clock with
    | (.error _, breaker) => some { w with breaker }
    | (.ok probe, breaker) =>
      some { w with breaker, calls := w.calls ++ [⟨probe, breaker.warnings.length, .running⟩] }
  | .complete i resolved =>
    match w.calls[i]? with
    | some ⟨probe, startedAfter, .running⟩ => some { w with
        breaker := if resolved then w.breaker.onSuccess options
          else w.breaker.onFailure options w.clock
        calls := w.calls.set i ⟨probe, startedAfter, if probe then .recorded else .settled⟩ }
    | _ => none
  | .leave i =>
    match w.calls[i]? with
    | some ⟨probe, startedAfter, .recorded⟩ => some { w with
        breaker := { w.breaker with halfOpenProbeInFlight := false }
        calls := w.calls.set i ⟨probe, startedAfter, .settled⟩ }
    | _ => none
  | .advance now => if w.clock ≤ now then some { w with clock := now } else none

/-- One step of a run. -/
structure Transition where
  source : World
  action : Action
  target : World

/-- The runs from the time `start` on, with what happened in them. -/
inductive Run (options : CircuitBreakerOptions) (start : Rat) : List Transition → World → Prop
  | start : Run options start [] { clock := start }
  | step {trace : List Transition} {s t : World} {action : Action} : Run options start trace s →
      s.step options action = some t → Run options start (trace ++ [⟨s, action, t⟩]) t

end Breaker

end Canals
