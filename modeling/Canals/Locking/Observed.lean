import Canals.Locking.Session

/-! What an observer notes down of a run, step by step, and the rule for what holds of the notes
and of the state they lead to. -/
namespace Locking
variable {Stmt : Type} {Result : Stmt → Type} {Fault Data Write Lock Input E : Type}
  {Env Ctl Move Event P O : Type} [DecidableEq P] [DecidableEq Lock]

namespace State

/-- The notes on a run, each made before the step it is about. -/
def noted (S : Store Stmt Result Fault Data Write Lock Input)
    (C : Client Stmt Result Fault E Data Lock Input Env Ctl Move Event)
    (note : State Stmt Result Fault E Data Write Lock Env Ctl P → Action Fault Move Event P →
      List O) :
    State Stmt Result Fault E Data Write Lock Env Ctl P → List (Action Fault Move Event P) → List O
  | _, [] => []
  | s, a :: actions => note s a ++ (s.step S C a).elim [] fun t => noted S C note t actions

variable {S : Store Stmt Result Fault Data Write Lock Input}
  {C : Client Stmt Result Fault E Data Lock Input Env Ctl Move Event}
  {note : State Stmt Result Fault E Data Write Lock Env Ctl P → Action Fault Move Event P → List O}
  {s t : State Stmt Result Fault E Data Write Lock Env Ctl P}
  {actions : List (Action Fault Move Event P)} {seen : List O}
  {I : List O → State Stmt Result Fault E Data Write Lock Env Ctl P → Prop}

/-- What holds at the start and survives every step, its note added, holds of the whole run. -/
theorem noted_run (ran : s.run S C actions = some t) (start : I seen s)
    (keeps : ∀ {seen u a v}, I seen u → u.step S C a = some v → I (seen ++ note u a) v) :
    I (seen ++ noted S C note s actions) t := by
  induction actions generalizing s seen with
  | nil =>
    cases ran
    simpa [noted] using start
  | cons a actions ih =>
    rw [run, List.foldlM_cons] at ran
    obtain ⟨mid, stepped, rest⟩ := Option.bind_eq_some_iff.mp ran
    rw [noted, stepped, Option.elim_some, ← List.append_assoc]
    exact ih rest (keeps start stepped)

end State

end Locking
