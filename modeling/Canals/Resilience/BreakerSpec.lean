import Canals.Resilience.CircuitBreaker
import Mathlib.Tactic.Linarith

/-! Runs of a breaker with any number of calls: what each transition can do, the
probe of a half-open period, and the safety of the open window. -/
namespace Canals
open Breaker

namespace CircuitBreaker
variable {options : CircuitBreakerOptions} {now : Rat} {b : CircuitBreaker}

@[simp] theorem currentState_transitionTo (next : BreakerState) :
    (b.transitionTo options next).currentState = next := rfl

@[simp] theorem consecutiveFailures_transitionTo (next : BreakerState) :
    (b.transitionTo options next).consecutiveFailures = b.consecutiveFailures := rfl

@[simp] theorem openedAt_transitionTo (next : BreakerState) :
    (b.transitionTo options next).openedAt = b.openedAt := rfl

@[simp] theorem halfOpenProbeInFlight_transitionTo (next : BreakerState) :
    (b.transitionTo options next).halfOpenProbeInFlight = b.halfOpenProbeInFlight := rfl

@[simp] theorem length_warnings_transitionTo (next : BreakerState) :
    (b.transitionTo options next).warnings.length = b.warnings.length + 1 := by
  simp [transitionTo]

theorem maybeHalfOpen_cases (options : CircuitBreakerOptions) (now : Rat) (b : CircuitBreaker) :
    b.maybeHalfOpen options now = b ∨
      b.currentState = .OPEN ∧ (∃ t, b.openedAt = some t ∧ options.openMs ≤ now - t) ∧
        b.maybeHalfOpen options now = b.transitionTo options .HALF_OPEN := by
  rw [maybeHalfOpen]
  split
  · rename_i both
    refine .inr ⟨both.1, ?_, rfl⟩
    cases known : b.openedAt with
    | none => simp [known] at both
    | some t =>
        rw [known] at both
        exact ⟨t, rfl, by simpa using both.2⟩
  · exact .inl rfl

/-- Nothing but the state changes, and the log. -/
theorem maybeHalfOpen_frame (options : CircuitBreakerOptions) (now : Rat) (b : CircuitBreaker) :
    (b.maybeHalfOpen options now).consecutiveFailures = b.consecutiveFailures ∧
      (b.maybeHalfOpen options now).openedAt = b.openedAt ∧
      (b.maybeHalfOpen options now).halfOpenProbeInFlight = b.halfOpenProbeInFlight := by
  rcases maybeHalfOpen_cases options now b with same | ⟨-, -, opened⟩
  · rw [same]
    exact ⟨rfl, rfl, rfl⟩
  · rw [opened]
    exact ⟨rfl, rfl, rfl⟩

theorem maybeHalfOpen_of_ne (notOpen : b.currentState ≠ .OPEN) :
    b.maybeHalfOpen options now = b := by
  rcases maybeHalfOpen_cases options now b with same | ⟨opened, -, -⟩
  · exact same
  · exact absurd opened notOpen

theorem closed_of_maybeHalfOpen (closed : (b.maybeHalfOpen options now).currentState = .CLOSED) :
    b.currentState = .CLOSED := by
  rcases maybeHalfOpen_cases options now b with same | ⟨-, -, opened⟩
  · rwa [same] at closed
  · simp [opened] at closed

theorem onSuccess_state : (b.onSuccess options).currentState =
    if b.currentState = .HALF_OPEN then .CLOSED else b.currentState := by
  rw [onSuccess]
  split <;> rfl

@[simp] theorem onSuccess_consecutiveFailures : (b.onSuccess options).consecutiveFailures = 0 := by
  rw [onSuccess]
  split <;> rfl

@[simp] theorem onSuccess_openedAt : (b.onSuccess options).openedAt = b.openedAt := by
  rw [onSuccess]
  split <;> rfl

@[simp] theorem onSuccess_probe :
    (b.onSuccess options).halfOpenProbeInFlight = b.halfOpenProbeInFlight := by
  rw [onSuccess]
  split <;> rfl

/-- A failure opens the breaker, or it is counted and nothing else. -/
theorem onFailure_cases (options : CircuitBreakerOptions) (now : Rat) (b : CircuitBreaker) :
    ((b.onFailure options now).currentState = .OPEN ∧
      (b.onFailure options now).openedAt = some now ∧
      (b.onFailure options now).warnings.length = b.warnings.length + 1) ∨
    (b.currentState ≠ .HALF_OPEN ∧ (b.consecutiveFailures + 1 : Nat) < options.failureThreshold ∧
      b.onFailure options now = { b with consecutiveFailures := b.consecutiveFailures + 1 }) := by
  rw [onFailure]
  split
  · exact .inl ⟨rfl, rfl, length_warnings_transitionTo _⟩
  · rename_i notHalf
    dsimp only
    split
    · exact .inl ⟨rfl, rfl, length_warnings_transitionTo _⟩
    · rename_i below
      exact .inr ⟨notHalf, not_le.mp below, rfl⟩

@[simp] theorem onFailure_probe :
    (b.onFailure options now).halfOpenProbeInFlight = b.halfOpenProbeInFlight := by
  rw [onFailure]
  split
  · rfl
  · dsimp only
    split <;> rfl

/-- `execute` rejects, lets the probe through, or passes a call while closed. -/
theorem execute_cases (options : CircuitBreakerOptions) (now : Rat) (b : CircuitBreaker) :
    (∃ error, b.execute options now = (.error error, b.maybeHalfOpen options now)) ∨
    ((b.maybeHalfOpen options now).currentState = .HALF_OPEN ∧
      (b.maybeHalfOpen options now).halfOpenProbeInFlight = false ∧
      b.execute options now =
        (.ok true, { b.maybeHalfOpen options now with halfOpenProbeInFlight := true })) ∨
    (b.currentState = .CLOSED ∧ b.execute options now = (.ok false, b)) := by
  cases reached : (b.maybeHalfOpen options now).currentState with
  | CLOSED =>
      have closed := closed_of_maybeHalfOpen reached
      have same : b.maybeHalfOpen options now = b := maybeHalfOpen_of_ne (by simp [closed])
      exact .inr (.inr ⟨closed, by simp [execute, same, closed]⟩)
  | OPEN => exact .inl ⟨.new options.name, by simp [execute, reached]⟩
  | HALF_OPEN =>
      cases flag : (b.maybeHalfOpen options now).halfOpenProbeInFlight with
      | true => exact .inl ⟨.new options.name, by simp [execute, reached, flag]⟩
      | false => exact .inr (.inl ⟨rfl, rfl, by simp [execute, reached, flag]⟩)

theorem onSuccess_not_half : (b.onSuccess options).currentState ≠ .HALF_OPEN := by
  rw [onSuccess_state]
  split
  · simp
  · assumption

theorem onFailure_not_half : (b.onFailure options now).currentState ≠ .HALF_OPEN := by
  rcases b.onFailure_cases options now with ⟨opened, -, -⟩ | ⟨notHalf, -, counted⟩
  · simp [opened]
  · rw [counted]
    exact notHalf

end CircuitBreaker

namespace Breaker
open BreakerState
variable {options : CircuitBreakerOptions} {start : Rat} {s t w : World} {action : Action}
  {trace : List Transition}

/-- A probe whose call has not settled. -/
def Call.probing (call : Call) : Bool := call.probe && call.phase != .settled

/-- The synchronous part of `execute` ends with a rejection. -/
def World.Rejects (options : CircuitBreakerOptions) (w : World) : Prop :=
  ∃ error, (w.breaker.execute options w.clock).1 = .error error

/-- What a step can do. -/
inductive Step (options : CircuitBreakerOptions) : World → Action → World → Prop
  | rejected {w : World} : w.Rejects options →
      Step options w .execute { w with breaker := w.breaker.maybeHalfOpen options w.clock }
  | started {w : World} : w.breaker.currentState = CLOSED →
      Step options w .execute { w with
        calls := w.calls ++ [⟨false, w.breaker.warnings.length, .running⟩] }
  | probed {w : World} {b : CircuitBreaker} : w.breaker.maybeHalfOpen options w.clock = b →
      b.currentState = HALF_OPEN → b.halfOpenProbeInFlight = false →
      Step options w .execute { w with
        breaker := { b with halfOpenProbeInFlight := true }
        calls := w.calls ++ [⟨true, b.warnings.length, .running⟩] }
  | resolved {w : World} {i : Nat} {call : Call} : w.calls[i]? = some call →
      call.phase = .running →
      Step options w (.complete i true) { w with
        breaker := w.breaker.onSuccess options
        calls := w.calls.set i { call with phase := if call.probe then .recorded else .settled } }
  | threw {w : World} {i : Nat} {call : Call} : w.calls[i]? = some call →
      call.phase = .running →
      Step options w (.complete i false) { w with
        breaker := w.breaker.onFailure options w.clock
        calls := w.calls.set i { call with phase := if call.probe then .recorded else .settled } }
  | left {w : World} {i : Nat} {call : Call} : w.calls[i]? = some call →
      call.phase = .recorded →
      Step options w (.leave i) { w with
        breaker := { w.breaker with halfOpenProbeInFlight := false }
        calls := w.calls.set i { call with phase := .settled } }
  | advanced {w : World} {now : Rat} : w.clock ≤ now →
      Step options w (.advance now) { w with clock := now }

theorem step_execute (taken : s.step options .execute = some t) : Step options s .execute t := by
  simp only [World.step] at taken
  rcases s.breaker.execute_cases options s.clock with ⟨error, refused⟩ | ⟨half, free, probe⟩ |
    ⟨closed, plain⟩
  · rw [refused] at taken
    obtain rfl := Option.some.inj taken
    exact .rejected ⟨error, by rw [refused]⟩
  · rw [probe] at taken
    obtain rfl := Option.some.inj taken
    exact .probed rfl half free
  · rw [plain] at taken
    obtain rfl := Option.some.inj taken
    exact .started closed

theorem step_complete {i : Nat} {resolved : Bool}
    (taken : s.step options (.complete i resolved) = some t) :
    Step options s (.complete i resolved) t := by
  simp only [World.step] at taken
  split at taken
  · rename_i probe startedAfter found
    obtain rfl := Option.some.inj taken
    cases resolved with
    | true => exact .resolved found rfl
    | false => exact .threw found rfl
  · contradiction

theorem step_leave {i : Nat} (taken : s.step options (.leave i) = some t) :
    Step options s (.leave i) t := by
  simp only [World.step] at taken
  split at taken
  · rename_i probe startedAfter found
    obtain rfl := Option.some.inj taken
    exact .left found rfl
  · contradiction

theorem World.step_spec (taken : s.step options action = some t) : Step options s action t := by
  cases action with
  | execute => exact step_execute taken
  | complete i resolved => exact step_complete taken
  | leave i => exact step_leave taken
  | advance now =>
      simp only [World.step] at taken
      split at taken
      · rename_i later
        obtain rfl := Option.some.inj taken
        exact .advanced later
      · contradiction

/-- What every run keeps. -/
structure Sound (options : CircuitBreakerOptions) (w : World) : Prop where
  /-- The flag counts the unsettled probes. -/
  probes : w.calls.countP Call.probing = w.breaker.halfOpenProbeInFlight.toNat
  recorded : ∀ call ∈ w.calls, call.phase = .recorded → call.probe
  older : ∀ call ∈ w.calls, call.startedAfter ≤ w.breaker.warnings.length
  current : w.breaker.currentState = HALF_OPEN → ∀ call ∈ w.calls,
    call.startedAfter = w.breaker.warnings.length → call.probe ∧ call.phase = .running

theorem Sound.initial : Sound options { clock := start } :=
  ⟨rfl, by simp, by simp, by simp⟩

theorem Sound.maybeHalfOpen (sound : Sound options w) :
    Sound options { w with breaker := w.breaker.maybeHalfOpen options w.clock } := by
  rcases w.breaker.maybeHalfOpen_cases options w.clock with same | ⟨-, -, opened⟩
  · rw [same]
    exact sound
  · rw [opened]
    refine ⟨sound.probes, sound.recorded, ?_, ?_⟩
    · intro call member
      have bound := sound.older call member
      simp only [CircuitBreaker.length_warnings_transitionTo]
      omega
    · intro half call member now
      have bound := sound.older call member
      simp only [CircuitBreaker.length_warnings_transitionTo] at now
      omega

theorem length_onSuccess (b : CircuitBreaker) :
    b.warnings.length ≤ (b.onSuccess options).warnings.length := by
  rw [CircuitBreaker.onSuccess]
  split
  · simp [CircuitBreaker.transitionTo]
  · exact le_rfl

theorem length_onFailure (b : CircuitBreaker) (now : Rat) :
    b.warnings.length ≤ (b.onFailure options now).warnings.length := by
  rcases b.onFailure_cases options now with ⟨-, -, longer⟩ | ⟨-, -, counted⟩
  · omega
  · rw [counted]

/-- A completion leaves the flag to `finally`, and the breaker it leaves is not half open
unless it was opened and half-opened again. -/
theorem Sound.complete {i : Nat} {call : Call} {b : CircuitBreaker} (sound : Sound options w)
    (found : w.calls[i]? = some call) (running : call.phase = .running)
    (flag : b.halfOpenProbeInFlight = w.breaker.halfOpenProbeInFlight)
    (longer : w.breaker.warnings.length ≤ b.warnings.length)
    (decided : b.currentState ≠ HALF_OPEN) :
    Sound options { w with
      breaker := b
      calls := w.calls.set i { call with
        phase := if call.probe then .recorded else .settled } } := by
  obtain ⟨bound, here⟩ := List.getElem?_eq_some_iff.mp found
  have member : call ∈ w.calls := List.mem_of_getElem? found
  refine ⟨?_, ?_, ?_, fun half => absurd half decided⟩
  · have same : Call.probing
        { call with phase := if call.probe then .recorded else .settled } = call.probing := by
      cases probe : call.probe with
      | true =>
          simp only [Call.probing, running, probe, if_true]
          rfl
      | false => simp only [Call.probing, probe, Bool.false_and]
    have counted := sound.probes
    simp only [List.countP_set bound, here, same, flag]
    split
    · rename_i probing
      have positive : 0 < w.calls.countP Call.probing :=
        List.countP_pos_iff.mpr ⟨call, member, probing⟩
      omega
    · omega
  · intro other inside recorded
    rcases List.mem_or_eq_of_mem_set inside with old | rfl
    · exact sound.recorded other old recorded
    · cases probe : call.probe with
      | true => rfl
      | false => simp [probe] at recorded
  · intro other inside
    rcases List.mem_or_eq_of_mem_set inside with old | rfl
    · exact (sound.older other old).trans longer
    · exact (sound.older call member).trans longer

theorem Sound.leave {i : Nat} {call : Call} (sound : Sound options w)
    (found : w.calls[i]? = some call) (recorded : call.phase = .recorded) :
    Sound options { w with
      breaker := { w.breaker with halfOpenProbeInFlight := false }
      calls := w.calls.set i { call with phase := .settled } } := by
  obtain ⟨bound, here⟩ := List.getElem?_eq_some_iff.mp found
  have member : call ∈ w.calls := List.mem_of_getElem? found
  have probing : call.probing := by
    simp [Call.probing, sound.recorded call member recorded, recorded]
  have settled : Call.probing { call with phase := .settled } = false := by
    simp [Call.probing]
  refine ⟨?_, ?_, ?_, ?_⟩
  · have counted := sound.probes
    have flags := Bool.toNat_le w.breaker.halfOpenProbeInFlight
    simp only [List.countP_set bound, here, probing, settled, if_true, Bool.toNat_false]
    simp only [Bool.false_eq_true, if_false]
    omega
  · intro other inside phase
    rcases List.mem_or_eq_of_mem_set inside with old | rfl
    · exact sound.recorded other old phase
    · simp at phase
  · intro other inside
    rcases List.mem_or_eq_of_mem_set inside with old | rfl
    · exact sound.older other old
    · exact sound.older call member
  · intro half other inside now
    rcases List.mem_or_eq_of_mem_set inside with old | rfl
    · exact sound.current half other old now
    · have phase := (sound.current half call member now).2
      rw [recorded] at phase
      contradiction

theorem Sound.started (sound : Sound options w) (closed : w.breaker.currentState = CLOSED) :
    Sound options { w with
      calls := w.calls ++ [⟨false, w.breaker.warnings.length, .running⟩] } := by
  refine ⟨?_, ?_, ?_, ?_⟩
  · simpa [Call.probing] using sound.probes
  · intro call member
    rcases List.mem_append.mp member with old | new
    · exact sound.recorded call old
    · obtain rfl := List.mem_singleton.mp new
      intro recorded
      contradiction
  · intro call member
    rcases List.mem_append.mp member with old | new
    · exact sound.older call old
    · obtain rfl := List.mem_singleton.mp new
      exact le_rfl
  · intro half
    simp [closed] at half

theorem Sound.probed (sound : Sound options w) (free : w.breaker.halfOpenProbeInFlight = false) :
    Sound options { w with
      breaker := { w.breaker with halfOpenProbeInFlight := true }
      calls := w.calls ++ [⟨true, w.breaker.warnings.length, .running⟩] } := by
  refine ⟨?_, ?_, ?_, ?_⟩
  · have counted := sound.probes
    simp only [free, Bool.toNat_false] at counted
    simp [Call.probing, List.countP_append, counted]
  · intro call member
    rcases List.mem_append.mp member with old | new
    · exact sound.recorded call old
    · obtain rfl := List.mem_singleton.mp new
      exact fun _ => rfl
  · intro call member
    rcases List.mem_append.mp member with old | new
    · exact sound.older call old
    · obtain rfl := List.mem_singleton.mp new
      exact le_rfl
  · intro half call member now
    rcases List.mem_append.mp member with old | new
    · exact sound.current half call old now
    · obtain rfl := List.mem_singleton.mp new
      exact ⟨rfl, rfl⟩

theorem Sound.step (sound : Sound options s) (step : Step options s action t) :
    Sound options t := by
  cases step with
  | rejected refused => exact sound.maybeHalfOpen
  | started closed => exact sound.started closed
  | probed reached half free =>
      subst reached
      exact sound.maybeHalfOpen.probed free
  | resolved found running =>
      exact sound.complete found running CircuitBreaker.onSuccess_probe
        (length_onSuccess _) CircuitBreaker.onSuccess_not_half
  | threw found running =>
      exact sound.complete found running CircuitBreaker.onFailure_probe
        (length_onFailure _ _) CircuitBreaker.onFailure_not_half
  | left found recorded => exact sound.leave found recorded
  | advanced later => exact ⟨sound.probes, sound.recorded, sound.older, sound.current⟩

theorem Run.sound (run : Run options start trace w) : Sound options w := by
  induction run with
  | start => exact .initial
  | step run taken ih => exact ih.step (World.step_spec taken)

/-- What has happened when a step of a run is taken is a run itself. -/
theorem Run.split {before after : List Transition} {x : Transition}
    (run : Run options start (before ++ x :: after) w) :
    Run options start before x.source ∧ Step options x.source x.action x.target := by
  generalize shape : before ++ x :: after = trace at run
  induction run generalizing after with
  | start => simp at shape
  | step run taken ih =>
      rcases List.eq_nil_or_concat after with rfl | ⟨init, last, rfl⟩
      · obtain ⟨rfl, same⟩ := List.append_inj' shape rfl
        obtain rfl := List.singleton_inj.mp same
        exact ⟨run, World.step_spec taken⟩
      · rw [List.concat_eq_append, ← List.cons_append, ← List.append_assoc] at shape
        exact ih (List.append_inj' shape rfl).1

theorem Run.step_of_mem {x : Transition} (run : Run options start trace w) (member : x ∈ trace) :
    Sound options x.source ∧ Step options x.source x.action x.target := by
  obtain ⟨before, after, rfl⟩ := List.append_of_mem member
  exact ⟨run.split.1.sound, run.split.2⟩

/-! ### The open window -/

/-- `transitionTo` is called with `OPEN`, from any state. -/
def Transition.opens (x : Transition) : Prop :=
  ∃ line, x.target.breaker.warnings = x.source.breaker.warnings ++ [line] ∧ line.entered = OPEN

/-- An operation is started. -/
def Transition.starts (x : Transition) : Prop :=
  x.source.calls.length < x.target.calls.length

/-- The breaker that was opened at `opened` still is, or its window has passed. -/
def Held (options : CircuitBreakerOptions) (opened : Rat) (w : World) : Prop :=
  opened ≤ w.clock ∧
    ((w.breaker.currentState = OPEN ∧ ∃ at', w.breaker.openedAt = some at' ∧ opened ≤ at') ∨
      opened + options.openMs ≤ w.clock)

theorem Held.window {opened : Rat} (held : Held options opened w)
    (notOpen : w.breaker.currentState ≠ OPEN) : opened + options.openMs ≤ w.clock := by
  rcases held.2 with ⟨still, -⟩ | passed
  · exact absurd still notOpen
  · exact passed

theorem Held.half {opened : Rat} (held : Held options opened w)
    (notOpen : (w.breaker.maybeHalfOpen options w.clock).currentState ≠ OPEN) :
    opened + options.openMs ≤ w.clock := by
  rcases w.breaker.maybeHalfOpen_cases options w.clock with same | ⟨-, ⟨since, known, long⟩, -⟩
  · rw [same] at notOpen
    exact held.window notOpen
  · rcases held.2 with ⟨-, at', recorded, after⟩ | passed
    · obtain rfl := Option.some.inj (known.symm.trans recorded)
      linarith
    · exact passed

theorem Held.maybeHalfOpen {opened : Rat} (held : Held options opened w) :
    Held options opened { w with breaker := w.breaker.maybeHalfOpen options w.clock } := by
  refine ⟨held.1, ?_⟩
  by_cases opened' : (w.breaker.maybeHalfOpen options w.clock).currentState = OPEN
  · rcases held.2 with ⟨still, at', recorded, after⟩ | passed
    · have frame := w.breaker.maybeHalfOpen_frame options w.clock
      exact .inl ⟨opened', at', frame.2.1.trans recorded, after⟩
    · exact .inr passed
  · exact .inr (held.half opened')

theorem Held.step {opened : Rat} (held : Held options opened s) (step : Step options s action t) :
    Held options opened t := by
  cases step with
  | rejected refused => exact held.maybeHalfOpen
  | started closed => exact held
  | probed reached half free =>
      subst reached
      exact held.maybeHalfOpen
  | resolved found running =>
      refine ⟨held.1, held.2.imp_left fun ⟨still, since⟩ => ⟨?_, ?_⟩⟩
      · simp [CircuitBreaker.onSuccess_state, still]
      · simpa using since
  | threw found running =>
      refine ⟨held.1, held.2.imp_left fun ⟨still, since⟩ => ?_⟩
      rcases s.breaker.onFailure_cases options s.clock with ⟨opens, now, -⟩ | ⟨-, -, counted⟩
      · exact ⟨opens, s.clock, now, held.1⟩
      · rw [counted]
        exact ⟨still, since⟩
  | left found recorded => exact held
  | advanced later =>
      exact ⟨held.1.trans later, held.2.imp_right fun passed => passed.trans later⟩

theorem maybeHalfOpen_line {b : CircuitBreaker} {now : Rat} {line : TransitionLine}
    (logged : (b.maybeHalfOpen options now).warnings = b.warnings ++ [line]) :
    line.entered = HALF_OPEN := by
  rcases b.maybeHalfOpen_cases options now with same | ⟨-, -, opened⟩
  · simp [same] at logged
  · rw [opened] at logged
    obtain rfl := List.singleton_inj.mp (List.append_cancel_left logged)
    rfl

theorem onSuccess_line {b : CircuitBreaker} {line : TransitionLine}
    (logged : (b.onSuccess options).warnings = b.warnings ++ [line]) : line.entered = CLOSED := by
  rw [CircuitBreaker.onSuccess] at logged
  split at logged
  · obtain rfl := List.singleton_inj.mp (List.append_cancel_left logged)
    rfl
  · simp at logged

theorem held_of_opens (opens : Transition.opens ⟨s, action, t⟩)
    (step : Step options s action t) : Held options s.clock t := by
  obtain ⟨line, logged, entered⟩ := opens
  cases step with
  | rejected refused =>
      have half := maybeHalfOpen_line logged
      simp [half] at entered
  | probed reached half free =>
      subst reached
      have half := maybeHalfOpen_line logged
      simp [half] at entered
  | resolved found running =>
      have closed := onSuccess_line logged
      simp [closed] at entered
  | threw found running =>
      rcases s.breaker.onFailure_cases options s.clock with ⟨opens, now, -⟩ | ⟨-, -, counted⟩
      · exact ⟨le_rfl, .inl ⟨opens, s.clock, now, le_rfl⟩⟩
      · simp [counted] at logged
  | started | left | advanced => simp at logged

/-- The window of every opening holds until it has passed. -/
theorem Run.held {x : Transition} (run : Run options start trace w) (member : x ∈ trace)
    (opens : x.opens) : Held options x.source.clock w := by
  induction run with
  | start => contradiction
  | step run taken ih =>
      rcases List.mem_append.mp member with old | new
      · exact (ih old).step (World.step_spec taken)
      · obtain rfl := List.mem_singleton.mp new
        exact held_of_opens opens (World.step_spec taken)

theorem Held.starts {opened : Rat} (held : Held options opened s)
    (step : Step options s action t) (starts : Transition.starts ⟨s, action, t⟩) :
    opened + options.openMs ≤ s.clock := by
  cases step with
  | started closed =>
      apply held.window
      simp [closed]
  | probed reached half free =>
      subst reached
      apply held.half
      simp [half]
  | rejected | resolved | threw | left | advanced => simp [Transition.starts] at starts

/-! ### The counter -/

def Action.resolved : Action → Bool
  | .complete _ resolved => resolved
  | _ => false

def Action.threw : Action → Bool
  | .complete _ resolved => !resolved
  | _ => false

/-- The breaker closes. -/
def Transition.closes (x : Transition) : Bool :=
  x.source.breaker.currentState != CLOSED && x.target.breaker.currentState == CLOSED

/-- The failed completions since the later of the last success and the last closing. -/
def recentFailures (trace : List Transition) : Nat :=
  (trace.reverse.takeWhile fun x => !(x.action.resolved || x.closes)).countP (·.action.threw)

theorem recentFailures_snoc (x : Transition) : recentFailures (trace ++ [x]) =
    if x.action.resolved || x.closes then 0
    else recentFailures trace + if x.action.threw then 1 else 0 := by
  rw [recentFailures, List.reverse_append, List.reverse_singleton, List.singleton_append,
    List.takeWhile_cons]
  cases reset : x.action.resolved || x.closes with
  | true => rfl
  | false => exact List.countP_cons

/-- The counter of a closed breaker. -/
def Counted (options : CircuitBreakerOptions) (trace : List Transition) (w : World) : Prop :=
  w.breaker.currentState = CLOSED →
    (w.breaker.consecutiveFailures : Rat) < options.failureThreshold ∧
      w.breaker.consecutiveFailures = recentFailures trace

/-- A step that neither completes a call nor closes the breaker. -/
theorem Counted.frame (counted : Counted options trace s)
    (closed : t.breaker.currentState = CLOSED → s.breaker.currentState = CLOSED)
    (counter : t.breaker.consecutiveFailures = s.breaker.consecutiveFailures)
    (resolved : action.resolved = false) (threw : action.threw = false) :
    Counted options (trace ++ [⟨s, action, t⟩]) t := by
  intro now
  obtain ⟨below, same⟩ := counted (closed now)
  rw [recentFailures_snoc, counter]
  refine ⟨below, ?_⟩
  simp [resolved, threw, Transition.closes, closed now, same]

/-- A success resets the counter whatever the state; a failure is counted unless it opens. -/
theorem Counted.step (positive : 1 ≤ options.failureThreshold) (counted : Counted options trace s)
    (step : Step options s action t) : Counted options (trace ++ [⟨s, action, t⟩]) t := by
  cases step with
  | rejected refused =>
      have frame := s.breaker.maybeHalfOpen_frame options s.clock
      refine counted.frame ?_ frame.1 rfl rfl
      exact CircuitBreaker.closed_of_maybeHalfOpen
  | probed reached half free =>
      subst reached
      refine counted.frame ?_ (s.breaker.maybeHalfOpen_frame options s.clock).1 rfl rfl
      exact CircuitBreaker.closed_of_maybeHalfOpen
  | started closed => exact counted.frame id rfl rfl rfl
  | left found recorded => exact counted.frame id rfl rfl rfl
  | advanced later => exact counted.frame id rfl rfl rfl
  | resolved found running =>
      intro closed
      rw [recentFailures_snoc]
      have reset : (s.breaker.onSuccess options).consecutiveFailures = 0 := by simp
      refine ⟨?_, reset⟩
      simp only [reset, Nat.cast_zero]
      linarith
  | @threw i call found running =>
      intro closed
      rcases s.breaker.onFailure_cases options s.clock with ⟨opens, -, -⟩ | ⟨-, below, kept⟩
      · simp only [opens] at closed
        contradiction
      · have state : s.breaker.currentState = CLOSED := by simpa only [kept] using closed
        have before := (counted state).2
        rw [recentFailures_snoc]
        simp only [kept]
        refine ⟨below, ?_⟩
        simp [Action.resolved, Action.threw, Transition.closes, state, before]

theorem Run.counted (positive : 1 ≤ options.failureThreshold) (run : Run options start trace w) :
    Counted options trace w := by
  induction run with
  | start => exact fun _ => ⟨by simpa using one_pos.trans_le positive, rfl⟩
  | step run taken ih => exact ih.step positive (World.step_spec taken)

theorem Sound.flag (sound : Sound options w) : w.calls.countP Call.probing ≤ 1 ∧
    (w.breaker.halfOpenProbeInFlight = true ↔ ∃ call ∈ w.calls, call.probing) := by
  rw [← List.countP_pos_iff, sound.probes]
  cases w.breaker.halfOpenProbeInFlight <;> simp

theorem Run.window {before middle after : List Transition} {opening starting : Transition}
    (run : Run options start (before ++ opening :: middle ++ starting :: after) w)
    (opens : opening.opens) (starts : starting.starts) :
    opening.source.clock + options.openMs ≤ starting.source.clock := by
  obtain ⟨until', step⟩ := run.split
  have member : opening ∈ before ++ opening :: middle :=
    List.mem_append_right before List.mem_cons_self
  exact (until'.held member opens).starts step starts

theorem rejected_frame (step : Step options s .execute t) (rejects : s.Rejects options) :
    t.calls = s.calls ∧ t.breaker.consecutiveFailures = s.breaker.consecutiveFailures ∧
      t.breaker.openedAt = s.breaker.openedAt ∧
      t.breaker.halfOpenProbeInFlight = s.breaker.halfOpenProbeInFlight := by
  obtain ⟨error, refused⟩ := rejects
  cases step with
  | rejected => exact ⟨rfl, s.breaker.maybeHalfOpen_frame options s.clock⟩
  | started closed =>
      have same : s.breaker.maybeHalfOpen options s.clock = s.breaker :=
        CircuitBreaker.maybeHalfOpen_of_ne (by simp [closed])
      simp [CircuitBreaker.execute, same, closed] at refused
  | probed reached half free =>
      subst reached
      simp [CircuitBreaker.execute, half, free] at refused

/-- The flag is the unsettled probe's, and there is at most one; an operation is started only
when the window of every opening before it has passed; a closed breaker counts the failures
since the last success, below its threshold; a rejected call changes nothing of these. -/
theorem breaker_safe (positive : 1 ≤ options.failureThreshold) (run : Run options start trace w) :
    (w.calls.countP Call.probing ≤ 1 ∧
      (w.breaker.halfOpenProbeInFlight = true ↔ ∃ call ∈ w.calls, call.probing)) ∧
    (∀ before opening middle starting after,
      trace = before ++ opening :: middle ++ starting :: after → opening.opens → starting.starts →
        opening.source.clock + options.openMs ≤ starting.source.clock) ∧
    (w.breaker.currentState = CLOSED →
      (w.breaker.consecutiveFailures : Rat) < options.failureThreshold ∧
        w.breaker.consecutiveFailures = recentFailures trace) ∧
    (∀ x ∈ trace, x.action = .execute → x.source.Rejects options →
      x.target.calls = x.source.calls ∧
        x.target.breaker.consecutiveFailures = x.source.breaker.consecutiveFailures ∧
        x.target.breaker.openedAt = x.source.breaker.openedAt ∧
        x.target.breaker.halfOpenProbeInFlight = x.source.breaker.halfOpenProbeInFlight) := by
  refine ⟨run.sound.flag, ?_, run.counted positive, ?_⟩
  · intro before opening middle starting after shape opens starts
    subst shape
    exact run.window opens starts
  · intro x member action rejects
    have step := (run.step_of_mem member).2
    rw [action] at step
    exact rejected_frame step rejects

/-- A run that takes the given actions, one after the other. -/
def follow (options : CircuitBreakerOptions) :
    World → List Action → Option (List Transition × World)
  | w, [] => some ([], w)
  | w, action :: rest => do
    let t ← w.step options action
    let (trace, last) ← follow options t rest
    return (⟨w, action, t⟩ :: trace, last)

theorem Run.follow {actions : List Action} {more : List Transition}
    (run : Run options start trace s) (followed : follow options s actions = some (more, w)) :
    Run options start (trace ++ more) w := by
  induction actions generalizing trace more s with
  | nil =>
      simp only [Breaker.follow, Option.some.injEq, Prod.mk.injEq] at followed
      obtain ⟨rfl, rfl⟩ := followed
      simpa using run
  | cons action rest ih =>
      simp only [Breaker.follow, bind, Option.bind_eq_some_iff] at followed
      obtain ⟨t, taken, ⟨later, last⟩, remaining, same⟩ := followed
      obtain ⟨rfl, rfl⟩ := Prod.mk.inj (Option.some.inj same)
      simpa using ih (run.step taken) remaining

/-- One failure opens this breaker, for the usual time. -/
def touchy : CircuitBreakerOptions := { name := "payments", failureThreshold := 1 }

/-- Two calls start while the breaker is closed; the first throws and opens it. When the window
has passed a probe starts, and then the second call settles. -/
def overtaken : List Transition × World :=
  (follow touchy { clock := 0 } [.execute, .execute, .complete 0 false, .advance 30000, .execute,
    .complete 1 true]).get (by decide +kernel)

theorem overtaken_run : Run touchy 0 overtaken.1 overtaken.2 :=
  Run.start.follow (Option.some_get _).symm

theorem breaker_safe_overtaken : overtaken.2.calls.countP Call.probing ≤ 1 :=
  (breaker_safe (show 1 ≤ touchy.failureThreshold from le_rfl) overtaken_run).1.1

end Breaker

end Canals
