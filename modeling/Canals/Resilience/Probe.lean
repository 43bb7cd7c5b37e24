import Canals.Resilience.BreakerSpec

/-! What ends a half-open period: its probe, or a call that was started before it. -/
namespace Canals
namespace Breaker
open BreakerState
variable {options : CircuitBreakerOptions} {start : Rat} {s t w : World} {action : Action}
  {trace : List Transition}

def Transition.endsHalfOpen (x : Transition) : Prop :=
  x.source.breaker.currentState = HALF_OPEN ∧ x.target.breaker.currentState ≠ HALF_OPEN

/-- The one call started in the half-open period settles, a probe, and decides the state. -/
def Transition.byProbe (x : Transition) : Prop :=
  ∃ i resolved call, x.action = .complete i resolved ∧ x.source.calls[i]? = some call ∧
    call.probe = true ∧
    (∀ (j : Nat) other, x.source.calls[j]? = some other →
      (other.startedAfter = x.source.breaker.warnings.length ↔ j = i)) ∧
    x.target.breaker.currentState = if resolved then CLOSED else OPEN

/-- A call that was started before the half-open period settles in it. -/
def Transition.overtakes (x : Transition) : Prop :=
  x.source.breaker.currentState = HALF_OPEN ∧ ∃ i resolved call, x.action = .complete i resolved ∧
    x.source.calls[i]? = some call ∧ call.startedAfter < x.source.breaker.warnings.length

theorem single_index {α : Type} {p : α → Bool} {l : List α} {i j : Nat} {a b : α}
    (few : l.countP p ≤ 1) (first : l[i]? = some a) (second : l[j]? = some b) (left : p a)
    (right : p b) : i = j := by
  induction l generalizing i j with
  | nil => simp at first
  | cons head tail ih =>
      cases i with
      | zero =>
          cases j with
          | zero => rfl
          | succ j =>
              obtain rfl : head = a := by simpa using first
              have member : b ∈ tail := List.mem_of_getElem? (by simpa using second)
              have counted : 0 < tail.countP p := List.countP_pos_iff.mpr ⟨b, member, right⟩
              rw [List.countP_cons_of_pos left] at few
              omega
      | succ i =>
          have member : a ∈ tail := List.mem_of_getElem? (by simpa using first)
          have counted : 0 < tail.countP p := List.countP_pos_iff.mpr ⟨a, member, left⟩
          cases j with
          | zero =>
              obtain rfl : head = b := by simpa using second
              rw [List.countP_cons_of_pos right] at few
              omega
          | succ j =>
              have fewer : tail.countP p ≤ 1 := by
                rw [List.countP_cons] at few
                omega
              have same := ih fewer (by simpa using first) (by simpa using second)
              omega

/-- In a half-open period the calls started in it are one running probe. -/
theorem Sound.only (sound : Sound options w) (half : w.breaker.currentState = HALF_OPEN)
    {i j : Nat} {a b : Call} (first : w.calls[i]? = some a) (second : w.calls[j]? = some b)
    (left : a.startedAfter = w.breaker.warnings.length)
    (right : b.startedAfter = w.breaker.warnings.length) : i = j := by
  have probing : ∀ call ∈ w.calls, call.startedAfter = w.breaker.warnings.length →
      call.probing := by
    intro call member now
    obtain ⟨probe, running⟩ := sound.current half call member now
    simp [Call.probing, probe, running]
  exact single_index sound.flag.1 first second
    (probing a (List.mem_of_getElem? first) left) (probing b (List.mem_of_getElem? second) right)

/-- Only a completion ends a half-open period. -/
theorem half_of_step (step : Step options s action t) (half : s.breaker.currentState = HALF_OPEN)
    (quiet : ∀ i resolved, action ≠ .complete i resolved) :
    t.breaker.currentState = HALF_OPEN := by
  have same : s.breaker.maybeHalfOpen options s.clock = s.breaker :=
    CircuitBreaker.maybeHalfOpen_of_ne (by simp [half])
  cases step with
  | rejected refused => simpa only [same] using half
  | probed reached state free =>
      subst reached
      exact state
  | started | left | advanced => exact half
  | resolved | threw => exact absurd rfl (quiet _ _)

/-- Every completion in a half-open period ends it, whichever call it is of. -/
theorem decided_of_step {i : Nat} {resolved : Bool} (step : Step options s (.complete i resolved) t)
    (half : s.breaker.currentState = HALF_OPEN) :
    t.breaker.currentState = if resolved then CLOSED else OPEN := by
  cases step with
  | resolved found running => simp [CircuitBreaker.onSuccess_state, half]
  | threw found running =>
      rcases s.breaker.onFailure_cases options s.clock with ⟨opens, -, -⟩ | ⟨notHalf, -, -⟩
      · simp [opens]
      · exact absurd half notHalf

theorem found_of_step {i : Nat} {resolved : Bool} (step : Step options s (.complete i resolved) t) :
    ∃ call, s.calls[i]? = some call := by
  cases step with
  | resolved found running => exact ⟨_, found⟩
  | threw found running => exact ⟨_, found⟩

theorem byProbe_of_step (sound : Sound options s) (step : Step options s action t)
    (ends : Transition.endsHalfOpen ⟨s, action, t⟩)
    (kept : ¬ Transition.overtakes ⟨s, action, t⟩) : Transition.byProbe ⟨s, action, t⟩ := by
  obtain ⟨half, left⟩ := ends
  cases action with
  | complete i resolved =>
      obtain ⟨call, found⟩ := found_of_step step
      have member : call ∈ s.calls := List.mem_of_getElem? found
      have bound := sound.older call member
      have late : ¬ call.startedAfter < s.breaker.warnings.length := fun early =>
        kept ⟨half, i, resolved, call, rfl, found, early⟩
      have now : call.startedAfter = s.breaker.warnings.length := by omega
      refine ⟨i, resolved, call, rfl, found, (sound.current half call member now).1, ?_,
        decided_of_step step half⟩
      intro j other at'
      constructor
      · intro during
        exact sound.only half at' found during now
      · intro same
        subst same
        obtain rfl := Option.some.inj (found.symm.trans at')
        exact now
  | execute | leave | advance => exact absurd (half_of_step step half (by simp)) left

theorem not_byProbe (step : Step options s action t)
    (overtakes : Transition.overtakes ⟨s, action, t⟩) :
    Transition.endsHalfOpen ⟨s, action, t⟩ ∧ ¬ Transition.byProbe ⟨s, action, t⟩ := by
  obtain ⟨half, i, resolved, call, rfl, found, early⟩ := overtakes
  constructor
  · refine ⟨half, ?_⟩
    simp only [decided_of_step step half]
    cases resolved <;> simp
  · intro decides
    obtain ⟨j, also, other, same, -, -, only, -⟩ := decides
    obtain ⟨rfl, rfl⟩ : i = j ∧ resolved = also := by simpa using same
    have now := (only i call found).mpr rfl
    omega

/-- The half-open periods of a run are ended by their probes exactly when none of the calls
started before such a period settles in it. -/
theorem probe_decides_iff (run : Run options start trace w) :
    (∀ x ∈ trace, x.endsHalfOpen → x.byProbe) ↔ ∀ x ∈ trace, ¬ x.overtakes := by
  constructor
  · intro decides x member overtakes
    obtain ⟨ends, other⟩ := not_byProbe (run.step_of_mem member).2 overtakes
    exact other (decides x member ends)
  · intro kept x member ends
    obtain ⟨sound, step⟩ := run.step_of_mem member
    exact byProbe_of_step sound step ends (kept x member)

theorem probe_decides_touchy : (∀ x ∈ overtaken.1, x.endsHalfOpen → x.byProbe) ↔
    ∀ x ∈ overtaken.1, ¬ x.overtakes :=
  probe_decides_iff overtaken_run

/-- The last step of the run. -/
def overtaking : Transition := overtaken.1.getLast (by decide +kernel)

theorem overtaking_overtakes : overtaking.overtakes := by
  obtain ⟨half, action, old, logged⟩ : overtaking.source.breaker.currentState = HALF_OPEN ∧
      overtaking.action = .complete 1 true ∧
      overtaking.source.calls[1]?.map Call.startedAfter = some 0 ∧
      overtaking.source.breaker.warnings.length = 2 := by decide +kernel
  obtain ⟨call, found, early⟩ := Option.map_eq_some_iff.mp old
  exact ⟨half, 1, true, call, action, found, by omega⟩

/-- It closes the breaker while the probe is still running. -/
theorem overtaken_decides : Run touchy 0 overtaken.1 overtaken.2 ∧
    ∃ x ∈ overtaken.1, x.endsHalfOpen ∧ ¬ x.byProbe := by
  have member : overtaking ∈ overtaken.1 := List.getLast_mem _
  have step := (overtaken_run.step_of_mem member).2
  exact ⟨overtaken_run, overtaking, member, not_byProbe step overtaking_overtakes⟩

end Breaker

end Canals
