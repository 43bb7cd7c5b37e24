import Canals.Locking.Session

/-! What holds of every control a session reaches: it is enough to look at the results of the
bodies, at what a failure leads to and at the moves, whatever the data are. -/
namespace Locking
variable {Stmt : Type} {Result : Stmt → Type} {Fault Data Write Lock Input E α β : Type}

namespace Program

/-- Every result the body can return satisfies `holds`. -/
def Yields (holds : α → Prop) : Program Stmt Result Fault E α → Prop
  | .pure a => holds a
  | .throw _ => True
  | .exec _ _ next => ∀ r, (next r).Yields holds

theorem Yields.bind {holds : α → Prop} {holds' : β → Prop} {p : Program Stmt Result Fault E α}
    {k : α → Program Stmt Result Fault E β} (first : p.Yields holds)
    (rest : ∀ a, holds a → (k a).Yields holds') : (p >>= k).Yields holds' := by
  induction p with
  | pure a => exact rest a first
  | throw e => trivial
  | exec s onFault next ih => exact fun r => ih r (first r)

theorem yields_true (p : Program Stmt Result Fault E α) : p.Yields fun _ => True := by
  induction p with
  | pure _ | throw _ => trivial
  | exec s onFault next ih => exact ih

/-- What only the results tell apart is the same body where the results agree. -/
theorem Yields.bind_congr {holds : α → Prop} {p : Program Stmt Result Fault E α}
    {k k' : α → Program Stmt Result Fault E β} (yields : p.Yields holds)
    (same : ∀ a, holds a → k a = k' a) : p >>= k = p >>= k' := by
  induction p with
  | pure a => exact same a yields
  | throw e => rfl
  | exec s onFault next ih =>
    simp only [exec_bind]
    exact congrArg _ (funext fun r => ih r (yields r))

end Program

variable {Env Ctl Move Event P : Type} {S : Store Stmt Result Fault Data Write Lock Input}
  {C : Client Stmt Result Fault E Data Lock Input Env Ctl Move Event} {holds : Ctl → Prop}
  {s t : State Stmt Result Fault E Data Write Lock Env Ctl P} {a : Action Fault Move Event P}
  {p : P}

/-- Every session is at a good control, and its transaction can only end at one. -/
structure State.Results (holds : Ctl → Prop)
    (s : State Stmt Result Fault E Data Write Lock Env Ctl P) : Prop where
  ctl : ∀ p, holds (s.session p).ctl
  tx : ∀ p tx, (s.session p).tx = some tx → tx.rest.Yields holds

namespace State.Results
variable [DecidableEq P]

/-- One session moved on, the others stand where they stood. -/
theorem update (results : s.Results holds) {c : Ctl}
    {opened : Option (Open Stmt Result Fault E Write Ctl)} (here : holds c)
    (ends : ∀ tx, opened = some tx → tx.rest.Yields holds)
    (moved : t.session = Function.update s.session p ⟨c, opened⟩) : t.Results holds := by
  constructor
  · intro q
    rw [moved]
    by_cases same : q = p
    · subst same
      rwa [Function.update_self]
    · rw [Function.update_of_ne same]
      exact results.ctl q
  · intro q tx
    rw [moved]
    by_cases same : q = p
    · subst same
      rw [Function.update_self]
      exact ends tx
    · rw [Function.update_of_ne same]
      exact results.tx q tx

variable [DecidableEq Lock]

theorem step (results : s.Results holds) (stepped : s.step S C a = some t)
    (body : ∀ c prog, holds c → C.body c = some prog → prog.Yields holds)
    (crashed : ∀ c, holds (C.crashed c))
    (fault : ∀ p x, a = .fault p x → ∀ e, holds (C.failed (s.session p).ctl e))
    (raised : ∀ p tx e, (s.session p).tx = some tx → tx.rest = .throw e →
      holds (C.failed (s.session p).ctl e))
    (move : ∀ p m, a = .move p m → ∀ env c,
      C.move s.data (s.locked p) s.env (s.session p).ctl m = some (env, c) → holds c) :
    t.Results holds := by
  have closed : ∀ tx : Open Stmt Result Fault E Write Ctl, none = some tx →
      tx.rest.Yields holds := by
    intro tx opened
    cases opened
  cases a with
  | begin p =>
    simp only [State.step] at stepped
    split at stepped <;> try contradiction
    rename_i prog _ here
    cases stepped
    refine results.update (results.ctl p) (fun tx opened => ?_) rfl
    cases opened
    exact body _ prog (results.ctl p) here
  | exec p =>
    simp only [State.step] at stepped
    split at stepped <;> try contradiction
    rename_i isOpen
    split at stepped <;> try contradiction
    split at stepped <;> try contradiction
    cases stepped
    refine results.update (results.ctl p) (fun tx opened => ?_) rfl
    cases opened
    exact results.tx p _ isOpen _
  | fault p x =>
    simp only [State.step] at stepped
    split at stepped <;> try contradiction
    cases stepped
    exact results.update (fault p x rfl _) closed rfl
  | rollback p =>
    simp only [State.step] at stepped
    split at stepped <;> try contradiction
    rename_i isOpen
    cases stepped
    exact results.update (raised p _ _ isOpen rfl) closed rfl
  | commit p =>
    simp only [State.step] at stepped
    split at stepped <;> try contradiction
    rename_i isOpen
    cases stepped
    exact results.update (show holds _ from results.tx p _ isOpen) closed rfl
  | crash p =>
    cases stepped
    exact results.update (crashed _) closed rfl
  | move p m =>
    simp only [State.step] at stepped
    split at stepped <;> try contradiction
    obtain ⟨⟨env, c⟩, moved, rfl⟩ := Option.map_eq_some_iff.mp stepped
    exact results.update (move p m rfl env c moved) closed rfl
  | event e =>
    obtain ⟨env, -, rfl⟩ := Option.map_eq_some_iff.mp stepped
    exact ⟨results.ctl, results.tx⟩

end State.Results

end Locking
