import Canals.Locking.Program

/-! Sessions interleaving statement by statement over one store. A session holds
the row locks its statements took until its transaction ends; its writes stay
private until commit and vanish on a fault, a throw or a crash. Plain reads see
what is committed, never another session's pending writes. -/
namespace Locking
variable {Stmt : Type} {Result : Stmt → Type} {Fault Data Write Lock Input E : Type}

/-- What a process does between statements: the transaction a control point
runs, where control goes when it rolls back, and its steps outside any
transaction. The environment supplies each statement's input. -/
structure Client (Stmt : Type) (Result : Stmt → Type)
    (Fault E Data Lock Input Env Ctl Move Event : Type) where
  body : Ctl → Option (Program Stmt Result Fault E Ctl)
  failed : Ctl → E → Ctl
  crashed : Ctl → Ctl
  draw : Env → Input × Env
  move : Data → (Lock → Bool) → Env → Ctl → Move → Option (Env × Ctl)
  event : Env → Event → Option Env

/-- An open transaction: what is left to run and what it wrote so far. -/
structure Open (Stmt : Type) (Result : Stmt → Type) (Fault E Write Ctl : Type) where
  rest : Program Stmt Result Fault E Ctl
  writes : List Write

structure Session (Stmt : Type) (Result : Stmt → Type) (Fault E Write Ctl : Type) where
  ctl : Ctl
  tx : Option (Open Stmt Result Fault E Write Ctl) := none

structure State (Stmt : Type) (Result : Stmt → Type)
    (Fault E Data Write Lock Env Ctl P : Type) where
  data : Data
  env : Env
  locks : List (Lock × P) := []
  session : P → Session Stmt Result Fault E Write Ctl

inductive Action (Fault Move Event P : Type) where
  | begin (p : P)
  | exec (p : P)
  | fault (p : P) (x : Fault)
  | rollback (p : P)
  | commit (p : P)
  | crash (p : P)
  | move (p : P) (m : Move)
  | event (e : Event)
  deriving Repr

variable {Env Ctl Move Event P : Type} [DecidableEq P] [DecidableEq Lock]

/-- Whose session acts; an event is nobody's. -/
def Action.process : Action Fault Move Event P → Option P
  | begin p | exec p | fault p _ | rollback p | commit p | crash p | move p _ => some p
  | event _ => none

def Action.crashes : Action Fault Move Event P → Bool
  | crash _ => true
  | _ => false

namespace State

def locked (s : State Stmt Result Fault E Data Write Lock Env Ctl P) (p : P) (l : Lock) : Bool :=
  s.locks.any fun entry => entry.1 = l ∧ entry.2 ≠ p

/-- End `p`'s transaction: its control moves on and its locks are released. -/
def close (s : State Stmt Result Fault E Data Write Lock Env Ctl P) (p : P) (c : Ctl) :
    State Stmt Result Fault E Data Write Lock Env Ctl P :=
  { s with
    locks := s.locks.filter fun entry => entry.2 ≠ p
    session := Function.update s.session p { ctl := c } }

/-- One scheduler step. A statement waits until every row it would lock is free. -/
def step (S : Store Stmt Result Fault Data Write Lock Input)
    (C : Client Stmt Result Fault E Data Lock Input Env Ctl Move Event)
    (s : State Stmt Result Fault E Data Write Lock Env Ctl P) :
    Action Fault Move Event P → Option (State Stmt Result Fault E Data Write Lock Env Ctl P)
  | .begin p =>
    match (s.session p).tx, C.body (s.session p).ctl with
    | none, some prog => some { s with
        session := Function.update s.session p { ctl := (s.session p).ctl, tx := some ⟨prog, []⟩ } }
    | _, _ => none
  | .exec p =>
    match (s.session p).tx with
    | some ⟨.exec stmt _ next, ws⟩ =>
      match S.exec stmt (C.draw s.env).1 (S.applyAll ws s.data) with
      | .ok (r, more) =>
        if (S.gain stmt r).all (fun l => !s.locked p l) then
          some { s with
            env := (C.draw s.env).2
            locks := s.locks ++ (S.gain stmt r).map (·, p)
            session := Function.update s.session p
              { ctl := (s.session p).ctl, tx := some ⟨next r, ws ++ more⟩ } }
        else none
      | .error _ => none
    | _ => none
  | .fault p x =>
    match (s.session p).tx with
    | some ⟨.exec _ onFault _, _⟩ => some (s.close p (C.failed (s.session p).ctl (onFault x)))
    | _ => none
  | .rollback p =>
    match (s.session p).tx with
    | some ⟨.throw e, _⟩ => some (s.close p (C.failed (s.session p).ctl e))
    | _ => none
  | .commit p =>
    match (s.session p).tx with
    | some ⟨.pure c, ws⟩ => some { s.close p c with data := S.applyAll ws s.data }
    | _ => none
  | .crash p => some (s.close p (C.crashed (s.session p).ctl))
  | .move p m =>
    match (s.session p).tx with
    | none => (C.move s.data (s.locked p) s.env (s.session p).ctl m).map fun (env, c) =>
        { s with env, session := Function.update s.session p { ctl := c } }
    | some _ => none
  | .event e => (C.event s.env e).map fun env => { s with env }

def run (S : Store Stmt Result Fault Data Write Lock Input)
    (C : Client Stmt Result Fault E Data Lock Input Env Ctl Move Event)
    (s : State Stmt Result Fault E Data Write Lock Env Ctl P)
    (actions : List (Action Fault Move Event P)) :
    Option (State Stmt Result Fault E Data Write Lock Env Ctl P) :=
  actions.foldlM (step S C) s

/-- As `run`, while every state reached satisfies `holds`. -/
def runWhile (holds : State Stmt Result Fault E Data Write Lock Env Ctl P → Bool)
    (S : Store Stmt Result Fault Data Write Lock Input)
    (C : Client Stmt Result Fault E Data Lock Input Env Ctl Move Event)
    (s : State Stmt Result Fault E Data Write Lock Env Ctl P)
    (actions : List (Action Fault Move Event P)) :
    Option (State Stmt Result Fault E Data Write Lock Env Ctl P) :=
  actions.foldlM (fun s action => (step S C s action).filter holds) s

/-- A session is changed by its own actions only. -/
theorem step_session {S : Store Stmt Result Fault Data Write Lock Input}
    {C : Client Stmt Result Fault E Data Lock Input Env Ctl Move Event}
    {s t : State Stmt Result Fault E Data Write Lock Env Ctl P} {a : Action Fault Move Event P}
    {p : P} (stepped : s.step S C a = some t) (other : a.process ≠ some p) :
    t.session p = s.session p := by
  have apart : ∀ {q : P}, some q ≠ some p → p ≠ q := fun other same => other (same ▸ rfl)
  cases a with
  | begin q | fault q _ | rollback q | commit q =>
    simp only [step] at stepped
    split at stepped <;> try contradiction
    cases Option.some.inj stepped
    simp [close, Function.update_of_ne (apart other)]
  | exec q =>
    simp only [step] at stepped
    split at stepped <;> try contradiction
    split at stepped <;> try contradiction
    split at stepped <;> try contradiction
    cases Option.some.inj stepped
    exact Function.update_of_ne (apart other) _ _
  | crash q =>
    cases Option.some.inj stepped
    simp [close, Function.update_of_ne (apart other)]
  | move q m =>
    simp only [step] at stepped
    split at stepped <;> try contradiction
    obtain ⟨_, -, rfl⟩ := Option.map_eq_some_iff.mp stepped
    exact Function.update_of_ne (apart other) _ _
  | event e =>
    obtain ⟨_, -, rfl⟩ := Option.map_eq_some_iff.mp stepped
    rfl

/-- Some scheduler step leads from `s` to `t`. -/
def Next (S : Store Stmt Result Fault Data Write Lock Input)
    (C : Client Stmt Result Fault E Data Lock Input Env Ctl Move Event)
    (s t : State Stmt Result Fault E Data Write Lock Env Ctl P) : Prop :=
  ∃ action, s.step S C action = some t

end State

/-- The committed side of a state: no transaction is open in it. -/
structure Committed (Data Env Ctl P : Type) where
  data : Data
  env : Env
  ctl : P → Ctl

namespace Committed

def goto (a : Committed Data Env Ctl P) (p : P) (c : Ctl) : Committed Data Env Ctl P :=
  { a with ctl := Function.update a.ctl p c }

/-- What the control moved to and all others satisfy. -/
theorem forall_goto {a : Committed Data Env Ctl P} {p : P} {c : Ctl} {holds : Ctl → Prop}
    (new : holds c) (others : ∀ q ≠ p, holds (a.ctl q)) (q : P) :
    holds ((a.goto p c).ctl q) := by
  by_cases same : q = p
  · subst same
    simpa [goto] using new
  · simpa [goto, same] using others q same

/-- The abstract system: a transaction is one indivisible step on the committed
data, or has no effect. -/
inductive Step (S : Store Stmt Result Fault Data Write Lock Input)
    (C : Client Stmt Result Fault E Data Lock Input Env Ctl Move Event) :
    Committed Data Env Ctl P → Committed Data Env Ctl P → Prop where
  | commit {a p prog after c} : C.body (a.ctl p) = some prog → prog.Completes S a.data after c →
      Step S C a { a.goto p c with data := after }
  | fail {a p prog e} : C.body (a.ctl p) = some prog → prog.Fails S a.data e →
      Step S C a (a.goto p (C.failed (a.ctl p) e))
  | crash {a p} : Step S C a (a.goto p (C.crashed (a.ctl p)))
  | move {a p m locked env c} : C.move a.data locked a.env (a.ctl p) m = some (env, c) →
      Step S C a { a.goto p c with env }
  | draw {a} : Step S C a { a with env := (C.draw a.env).2 }
  | event {a e env} : C.event a.env e = some env → Step S C a { a with env }

end Committed

def State.committed (s : State Stmt Result Fault E Data Write Lock Env Ctl P) :
    Committed Data Env Ctl P :=
  ⟨s.data, s.env, fun p => (s.session p).ctl⟩

end Locking
