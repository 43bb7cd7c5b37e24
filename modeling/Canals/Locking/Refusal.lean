import Canals.Locking.Serial

/-! What a transaction can raise of itself. Run alone or interleaved with others, it raises the
same; short of that it takes its next step, commits, or waits for a lock. -/
namespace Locking
variable {Stmt : Type} {Result : Stmt → Type} {Fault Data Write Lock Input E E' α β : Type}

namespace Program

/-- Run alone from `data`, the body raises these exceptions only. -/
def Raises (S : Store Stmt Result Fault Data Write Lock Input)
    (p : Program Stmt Result Fault E α) (data : Data) (raised : E → Prop) : Prop :=
  ∀ e after, p.Ends S data (.error e) after → raised e

variable {S : Store Stmt Result Fault Data Write Lock Input} {raised : E → Prop} {data : Data}

theorem Resolves.raises {p : Program Stmt Result Fault E α} (resolves : p.Resolves S data) :
    p.Raises S data raised := by
  intro e after ended
  obtain ⟨a, impossible⟩ := resolves _ _ ended
  cases impossible

theorem raises_throw {e : E} (here : raised e) :
    (.throw e : Program Stmt Result Fault E α).Raises S data raised := by
  rintro e' after ⟨same, -⟩
  cases same
  exact here

theorem raises_exec {s : Stmt} {onFault : Fault → E}
    {next : Result s → Program Stmt Result Fault E α}
    (fails : ∀ i x, S.exec s i data = .error x → raised (onFault x))
    (rest : ∀ i r ws, S.exec s i data = .ok (r, ws) →
      (next r).Raises S (S.applyAll ws data) raised) :
    (Program.exec s onFault next).Raises S data raised := by
  rintro e after ⟨i, -, ⟨x, failed, same, -⟩ | ⟨r, ws, answered, ended⟩⟩
  · cases same
    exact fails i x failed
  · exact rest i r ws answered e after ended

theorem raises_bind {p : Program Stmt Result Fault E α} {k : α → Program Stmt Result Fault E β}
    (first : p.Raises S data raised)
    (rest : ∀ mid a, p.Completes S data mid a → (k a).Raises S mid raised) :
    (p >>= k).Raises S data raised := by
  intro e after ended
  rcases ends_bind.mp ended with ⟨e', same, stopped⟩ | ⟨mid, a, done, ended⟩
  · cases same
    exact first e after stopped
  · exact rest mid a (completes_of_ends done) e after ended

end Program

section Interleaved
variable {Env Ctl Move Event P : Type} {S : Store Stmt Result Fault Data Write Lock Input}
  {C : Client Stmt Result Fault E Data Lock Input Env Ctl Move Event}
  {recorded : Env → Data → Prop} {drawn : Env → Write → Prop}
  {s : State Stmt Result Fault E Data Write Lock Env Ctl P} {p : P}
  {tx : Open Stmt Result Fault E Write Ctl} {e : E} {data : Data}

/-- The transaction is about to raise `e`: by itself, or for a statement that fails on what it
finds. -/
inductive Open.Refuses (S : Store Stmt Result Fault Data Write Lock Input) (data : Data) :
    Open Stmt Result Fault E Write Ctl → E → Prop where
  | throw {e ws} : Refuses S data ⟨.throw e, ws⟩ e
  | exec {stmt onFault next ws i x} : S.admits stmt i (S.applyAll ws data) →
      S.exec stmt i (S.applyAll ws data) = .error x →
      Refuses S data ⟨.exec stmt onFault next, ws⟩ (onFault x)

theorem Open.Refuses.ends (refuses : tx.Refuses S data e) :
    tx.rest.Ends S (S.applyAll tx.writes data) (.error e) (S.applyAll tx.writes data) := by
  cases refuses with
  | throw => exact ⟨rfl, rfl⟩
  | exec admits failed => exact ⟨_, admits, .inl ⟨_, failed, rfl, rfl⟩⟩

namespace State

/-- Interleaved with others, a transaction raises what it would raise alone. -/
theorem Replayable.raised (inv : Replayable S C recorded drawn s)
    (isOpen : (s.session p).tx = some tx) (refuses : tx.Refuses S s.data e)
    (raised : E → Prop) (alone : ∀ prog, C.body (s.session p).ctl = some prog →
      prog.Raises S s.data raised) : raised e := by
  obtain ⟨prog, body, ended⟩ := inv.ends isOpen refuses.ends
  exact alone prog body e _ ended

variable [DecidableEq P] [DecidableEq Lock]

/-- An open transaction refuses, commits, takes its next step or waits for another one. -/
theorem Replayable.advances (inv : Replayable S C recorded drawn s)
    (supplies : C.Supplies S recorded drawn) (isOpen : (s.session p).tx = some tx) :
    (∃ e, tx.Refuses S s.data e) ∨ (∃ t, s.step S C (.commit p) = some t) ∨
      (∃ t, s.step S C (.exec p) = some t) ∨ ∃ l, s.locked p l := by
  obtain ⟨rest, ws⟩ := tx
  cases rest with
  | pure c =>
    right; left
    simp only [step, isOpen]
    exact ⟨_, rfl⟩
  | throw e => exact .inl ⟨e, .throw⟩
  | exec stmt onFault next =>
    have admits := supplies.admits (s := stmt)
      (recorded_applyAll supplies inv.recorded (inv.drawn p _ isOpen))
    cases answered : S.exec stmt (C.draw s.env).1 (S.applyAll ws s.data) with
    | error x => exact .inl ⟨_, .exec admits answered⟩
    | ok answer =>
      obtain ⟨r, more⟩ := answer
      right; right
      by_cases free : (S.gain stmt r).all fun l => !s.locked p l
      · left
        simp only [step, isOpen, answered, if_pos free]
        exact ⟨_, rfl⟩
      · right
        simp only [List.all_eq_true, Bool.not_eq_true', not_forall] at free
        obtain ⟨l, -, taken⟩ := free
        exact ⟨l, by simpa using taken⟩

end State

end Interleaved

end Locking
