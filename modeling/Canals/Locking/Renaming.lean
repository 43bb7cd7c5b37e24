import Canals.Locking.Results

/-! Two clients of one store, the second carrying other values in its controls, environment,
moves and events where nothing the store sees depends on them. The runs of the second are
the renamed runs of the first, step for step. -/
namespace Locking
variable {Stmt : Type} {Result : Stmt → Type} {Fault Data Write Lock Input E α β : Type}

namespace Program

/-- The body with another value for each of its results. -/
def rename (f : α → β) (p : Program Stmt Result Fault E α) : Program Stmt Result Fault E β :=
  p >>= fun a => .pure (f a)

end Program

variable {Env Env' Ctl Ctl' Move Move' Event Event' P : Type}

/-- The second client does with renamed values what the first one does. -/
structure Renaming (C : Client Stmt Result Fault E Data Lock Input Env Ctl Move Event)
    (C' : Client Stmt Result Fault E Data Lock Input Env' Ctl' Move' Event') where
  env : Env → Env'
  ctl : Ctl → Ctl'
  move : Move → Move'
  event : Event → Event'
  body : ∀ c, C'.body (ctl c) = (C.body c).map (Program.rename ctl)
  failed : ∀ c e, C'.failed (ctl c) e = ctl (C.failed c e)
  crashed : ∀ c, C'.crashed (ctl c) = ctl (C.crashed c)
  drawn : ∀ a, C'.draw (env a) = ((C.draw a).1, env (C.draw a).2)
  moved : ∀ d locked a c m, C'.move d locked (env a) (ctl c) (move m) =
    (C.move d locked a c m).map (Prod.map env ctl)
  happened : ∀ a e, C'.event (env a) (event e) = (C.event a e).map env

namespace Renaming
variable {C : Client Stmt Result Fault E Data Lock Input Env Ctl Move Event}
  {C' : Client Stmt Result Fault E Data Lock Input Env' Ctl' Move' Event'} (r : Renaming C C')

def tx (tx : Open Stmt Result Fault E Write Ctl) : Open Stmt Result Fault E Write Ctl' :=
  ⟨tx.rest.rename r.ctl, tx.writes⟩

def session (session : Session Stmt Result Fault E Write Ctl) :
    Session Stmt Result Fault E Write Ctl' :=
  ⟨r.ctl session.ctl, session.tx.map r.tx⟩

@[simp] theorem tx_exec (stmt : Stmt) (onFault : Fault → E)
    (next : Result stmt → Program Stmt Result Fault E Ctl) (writes : List Write) :
    r.tx ⟨.exec stmt onFault next, writes⟩ =
      ⟨.exec stmt onFault fun answer => (next answer).rename r.ctl, writes⟩ := rfl

/-- Data and locks are not touched by the renaming. -/
def state (s : State Stmt Result Fault E Data Write Lock Env Ctl P) :
    State Stmt Result Fault E Data Write Lock Env' Ctl' P where
  data := s.data
  env := r.env s.env
  locks := s.locks
  session p := r.session (s.session p)

def action : Action Fault Move Event P → Action Fault Move' Event' P
  | .begin p => .begin p
  | .exec p => .exec p
  | .fault p x => .fault p x
  | .rollback p => .rollback p
  | .commit p => .commit p
  | .crash p => .crash p
  | .move p m => .move p (r.move m)
  | .event e => .event (r.event e)

section State
variable {s : State Stmt Result Fault E Data Write Lock Env Ctl P} {p : P}

@[simp] theorem state_data : (r.state s).data = s.data := rfl

@[simp] theorem state_env : (r.state s).env = r.env s.env := rfl

@[simp] theorem state_ctl : ((r.state s).session p).ctl = r.ctl (s.session p).ctl := rfl

@[simp] theorem state_tx : ((r.state s).session p).tx = (s.session p).tx.map r.tx := rfl

variable [DecidableEq P]

theorem state_locked [DecidableEq Lock] : (r.state s).locked p = s.locked p := rfl

/-- One session of the renamed state is the renamed session. -/
theorem state_update (data : Data) (env : Env) (locks : List (Lock × P))
    (session : Session Stmt Result Fault E Write Ctl) :
    r.state { data, env, locks, session := Function.update s.session p session } =
      { data, env := r.env env, locks
        session := Function.update (r.state s).session p (r.session session) } :=
  congrArg (State.mk data (r.env env) locks)
    (funext fun q => Function.apply_update (fun _ => r.session) s.session p session q)

theorem state_close (c : Ctl) : r.state (s.close p c) = (r.state s).close p (r.ctl c) :=
  r.state_update ..

end State

variable [DecidableEq P] [DecidableEq Lock] {S : Store Stmt Result Fault Data Write Lock Input}

/-- A step of the renamed state by the renamed action is the renamed step. -/
theorem step_eq (s : State Stmt Result Fault E Data Write Lock Env Ctl P)
    (a : Action Fault Move Event P) :
    (r.state s).step S C' (r.action a) = (s.step S C a).map r.state := by
  cases a with
  | begin p =>
    simp only [action, State.step, state_tx, state_ctl, r.body]
    cases (s.session p).tx with
    | some tx => rfl
    | none =>
      cases C.body (s.session p).ctl with
      | none => rfl
      | some prog =>
        simp only [Option.map_some, Option.map_none, r.state_update]
        rfl
  | exec p =>
    simp only [action, State.step, state_tx, state_data, state_env, state_ctl, state_locked,
      r.drawn]
    rcases (s.session p).tx with _ | ⟨_ | _ | ⟨stmt, onFault, next⟩, ws⟩ <;> try rfl
    simp only [Option.map_some, tx_exec]
    cases S.exec stmt (C.draw s.env).1 (S.applyAll ws s.data) with
    | error x => rfl
    | ok answer =>
      dsimp only
      split
      · simp only [Option.map_some, r.state_update]
        rfl
      · rfl
  | fault p x =>
    simp only [action, State.step, state_tx, state_ctl]
    rcases (s.session p).tx with _ | ⟨_ | _ | ⟨stmt, onFault, next⟩, ws⟩ <;> try rfl
    exact congrArg some ((r.failed .. ▸ r.state_close _).symm)
  | rollback p =>
    simp only [action, State.step, state_tx, state_ctl]
    rcases (s.session p).tx with _ | ⟨_ | e | _, ws⟩ <;> try rfl
    exact congrArg some ((r.failed .. ▸ r.state_close _).symm)
  | commit p =>
    simp only [action, State.step, state_tx, state_data]
    rcases (s.session p).tx with _ | ⟨c | _ | _, ws⟩ <;> try rfl
    simp only [Option.map_some, State.close, r.state_update]
    rfl
  | crash p => exact congrArg some ((r.crashed _ ▸ r.state_close _).symm)
  | move p m =>
    simp only [action, State.step, state_tx, state_ctl, state_data, state_env, state_locked,
      r.moved]
    cases (s.session p).tx with
    | some tx => rfl
    | none =>
      cases C.move s.data (s.locked p) s.env (s.session p).ctl m with
      | none => rfl
      | some moved =>
        simp only [Option.map_some, Option.map_none, r.state_update]
        rfl
  | event e =>
    simp only [action, State.step, state_env, r.happened]
    cases C.event s.env e with
    | none => rfl
    | some env => rfl

/-- So are its runs. -/
theorem run_eq (s : State Stmt Result Fault E Data Write Lock Env Ctl P)
    (actions : List (Action Fault Move Event P)) :
    (r.state s).run S C' (actions.map r.action) = (s.run S C actions).map r.state := by
  induction actions generalizing s with
  | nil => rfl
  | cons a actions ih =>
    simp only [State.run, List.map_cons, List.foldlM_cons, r.step_eq] at ih ⊢
    cases s.step S C a with
    | none => rfl
    | some t => exact ih t

end Renaming

end Locking
