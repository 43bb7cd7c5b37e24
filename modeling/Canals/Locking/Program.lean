import Mathlib.Logic.Function.Basic
import Mathlib.Data.List.Basic

/-! Transaction bodies as trees of database statements, and the meaning of a
body that runs alone. A statement draws its clock readings and sequence values
from an input, reads the data as the transaction sees it and answers with the
row versions it writes. Everything here is independent of the statements. -/
namespace Locking

/-- A transaction body. Every statement may fault; `onFault` is the exception
the surrounding code raises for it, after which the transaction rolls back. -/
inductive Program (Stmt : Type) (Result : Stmt → Type) (Fault E α : Type) where
  | pure (a : α)
  | throw (e : E)
  | exec (s : Stmt) (onFault : Fault → E) (next : Result s → Program Stmt Result Fault E α)

namespace Program
variable {Stmt : Type} {Result : Stmt → Type} {Fault E E' α β : Type}

def bind : Program Stmt Result Fault E α → (α → Program Stmt Result Fault E β) →
    Program Stmt Result Fault E β
  | .pure a, k => k a
  | .throw e, _ => .throw e
  | .exec s onFault next, k => .exec s onFault fun r => (next r).bind k

/-- A handler that rethrows: no statement can run after a fault. -/
def mapError (g : E → E') : Program Stmt Result Fault E α → Program Stmt Result Fault E' α
  | .pure a => .pure a
  | .throw e => .throw (g e)
  | .exec s onFault next => .exec s (fun x => g (onFault x)) fun r => (next r).mapError g

instance : Monad (Program Stmt Result Fault E) where
  pure := .pure
  bind := bind

@[simp] theorem pure_bind' (a : α) (k : α → Program Stmt Result Fault E β) :
    (Pure.pure a >>= k) = k a := rfl

@[simp] theorem throw_bind (e : E) (k : α → Program Stmt Result Fault E β) :
    (Program.throw e >>= k) = .throw e := rfl

@[simp] theorem exec_bind (s : Stmt) (onFault : Fault → E)
    (next : Result s → Program Stmt Result Fault E α) (k : α → Program Stmt Result Fault E β) :
    (Program.exec s onFault next >>= k) = .exec s onFault fun r => next r >>= k := rfl

theorem bind_assoc' {γ : Type} (p : Program Stmt Result Fault E α)
    (k : α → Program Stmt Result Fault E β) (k' : β → Program Stmt Result Fault E γ) :
    (p >>= k >>= k') = (p >>= fun a => k a >>= k') := by
  induction p with
  | pure a => rfl
  | throw e => rfl
  | exec s onFault next ih => simp only [exec_bind, ih]

end Program

/-- What the statements mean: the row versions they write, the locks they take
and the locks a body must already hold when it issues them. -/
structure Store (Stmt : Type) (Result : Stmt → Type) (Fault Data Write Lock Input : Type) where
  exec : (s : Stmt) → Input → Data → Except Fault (Result s × List Write)
  apply : Write → Data → Data
  /-- The inputs a statement can meet: a sequence never hands out an old value. -/
  admits : Stmt → Input → Data → Bool
  need : Stmt → List Lock
  gain : (s : Stmt) → Result s → List Lock

variable {Stmt : Type} {Result : Stmt → Type} {Fault Data Write Lock Input E E' α β : Type}

/-- The data as a transaction sees it after its own writes. -/
def Store.applyAll (S : Store Stmt Result Fault Data Write Lock Input) (writes : List Write)
    (data : Data) : Data :=
  writes.foldl (fun d w => S.apply w d) data

namespace Program
variable (S : Store Stmt Result Fault Data Write Lock Input)

/-- The body runs alone from `data` to its end, leaving `after`. -/
def Completes : Program Stmt Result Fault E α → Data → Data → α → Prop
  | .pure a, data, after, b => after = data ∧ b = a
  | .throw _, _, _, _ => False
  | .exec s _ next, data, after, b => ∃ i r ws, S.admits s i data ∧
      S.exec s i data = .ok (r, ws) ∧ (next r).Completes (S.applyAll ws data) after b

/-- As `Completes`, with the statements it issued and the inputs they drew. -/
def Performs : Program Stmt Result Fault E α → List (Stmt × Input) → Data → Data → α → Prop
  | .pure a, events, data, after, b => events = [] ∧ after = data ∧ b = a
  | .throw _, _, _, _, _ => False
  | .exec s _ next, events, data, after, b => ∃ i r ws rest, events = (s, i) :: rest ∧
      S.admits s i data ∧ S.exec s i data = .ok (r, ws) ∧
      (next r).Performs rest (S.applyAll ws data) after b

/-- The run that draws its inputs from a list, with what it issued. -/
def perform : Program Stmt Result Fault E α → List Input → Data →
    Option (List (Stmt × Input) × Data × α)
  | .pure a, [], data => some ([], data, a)
  | .exec s _ next, i :: inputs, data =>
    match S.admits s i data, S.exec s i data with
    | true, .ok (r, ws) =>
      ((next r).perform inputs (S.applyAll ws data)).map fun (events, rest) =>
        ((s, i) :: events, rest)
    | _, _ => none
  | _, _, _ => none

/-- The body, run alone, raises `e`, of its own or at a faulting statement. -/
def Fails : Program Stmt Result Fault E α → Data → E → Prop
  | .pure _, _, _ => False
  | .throw e, _, e' => e' = e
  | .exec s onFault next, data, e' => (∃ x, e' = onFault x) ∨ ∃ i r ws, S.admits s i data ∧
      S.exec s i data = .ok (r, ws) ∧ (next r).Fails (S.applyAll ws data) e'

/-- Each statement is issued under the locks it relies on, whatever the
earlier statements answered. -/
def Guarded : Program Stmt Result Fault E α → List Lock → Prop
  | .pure _, _ => True
  | .throw _, _ => True
  | .exec s _ next, held => (∀ l ∈ S.need s, l ∈ held) ∧
      ∀ r, (next r).Guarded (held ++ S.gain s r)

variable {S}

@[simp] theorem completes_pure {data after : Data} {a b : α} :
    (Pure.pure a : Program Stmt Result Fault E α).Completes S data after b ↔
      after = data ∧ b = a := Iff.rfl

@[simp] theorem completes_throw {data after : Data} {e : E} {b : α} :
    ¬ (Program.throw e : Program Stmt Result Fault E α).Completes S data after b := id

theorem completes_bind {p : Program Stmt Result Fault E α}
    {k : α → Program Stmt Result Fault E β} {data after : Data} {b : β} :
    (p >>= k).Completes S data after b ↔
      ∃ mid a, p.Completes S data mid a ∧ (k a).Completes S mid after b := by
  induction p generalizing data with
  | pure a =>
    constructor
    · intro h
      exact ⟨data, a, ⟨rfl, rfl⟩, h⟩
    · rintro ⟨mid, a', ⟨rfl, rfl⟩, h⟩
      exact h
  | throw e => simp [Completes]
  | exec s onFault next ih =>
    simp only [exec_bind, Completes, ih]
    constructor
    · rintro ⟨i, r, ws, ok, ran, mid, a, first, rest⟩
      exact ⟨mid, a, ⟨i, r, ws, ok, ran, first⟩, rest⟩
    · rintro ⟨mid, a, ⟨i, r, ws, ok, ran, first⟩, rest⟩
      exact ⟨i, r, ws, ok, ran, mid, a, first, rest⟩

theorem completes_iff_performs {p : Program Stmt Result Fault E α} {data after : Data} {a : α} :
    p.Completes S data after a ↔ ∃ events, p.Performs S events data after a := by
  induction p generalizing data with
  | pure _ => simp [Completes, Performs]
  | throw _ => simp [Completes, Performs]
  | exec s onFault next ih =>
    simp only [Completes, Performs, ih]
    constructor
    · rintro ⟨i, r, ws, ok, ran, events, rest⟩
      exact ⟨_, i, r, ws, events, rfl, ok, ran, rest⟩
    · rintro ⟨_, i, r, ws, events, rfl, ok, ran, rest⟩
      exact ⟨i, r, ws, ok, ran, events, rest⟩

theorem performs_of_perform {p : Program Stmt Result Fault E α} {inputs : List Input}
    {events : List (Stmt × Input)} {data after : Data} {a : α}
    (ran : p.perform S inputs data = some (events, after, a)) :
    p.Performs S events data after a := by
  induction p generalizing inputs events data with
  | pure b =>
    cases inputs <;> cases ran
    exact ⟨rfl, rfl, rfl⟩
  | throw _ => cases inputs <;> cases ran
  | exec s onFault next ih =>
    cases inputs with
    | nil => cases ran
    | cons i inputs =>
      simp only [perform] at ran
      split at ran <;> try contradiction
      rename_i r ws admits answered
      obtain ⟨⟨rest, after', a'⟩, done, same⟩ := Option.map_eq_some_iff.mp ran
      cases same
      exact ⟨i, r, ws, rest, rfl, admits, answered, ih r done⟩

theorem performs_bind {p : Program Stmt Result Fault E α}
    {k : α → Program Stmt Result Fault E β} {events : List (Stmt × Input)} {data after : Data}
    {b : β} : (p >>= k).Performs S events data after b ↔ ∃ mid a first rest,
      events = first ++ rest ∧ p.Performs S first data mid a ∧
      (k a).Performs S rest mid after b := by
  induction p generalizing data events with
  | pure a =>
    constructor
    · intro h
      exact ⟨data, a, [], events, rfl, ⟨rfl, rfl, rfl⟩, h⟩
    · rintro ⟨mid, a', _, rest, rfl, ⟨rfl, rfl, rfl⟩, h⟩
      exact h
  | throw e => simp [Performs]
  | exec s onFault next ih =>
    simp only [exec_bind, Performs, ih]
    constructor
    · rintro ⟨i, r, ws, _, rfl, ok, ran, mid, a, first, rest, rfl, done, more⟩
      exact ⟨mid, a, (s, i) :: first, rest, rfl, ⟨i, r, ws, first, rfl, ok, ran, done⟩, more⟩
    · rintro ⟨mid, a, _, rest, rfl, ⟨i, r, ws, first, rfl, ok, ran, done⟩, more⟩
      exact ⟨i, r, ws, first ++ rest, rfl, ok, ran, mid, a, first, rest, rfl, done, more⟩

/-- Rethrowing under another name does not touch the successful runs. -/
@[simp] theorem completes_mapError {p : Program Stmt Result Fault E α} {g : E → E'}
    {data after : Data} {a : α} :
    (p.mapError g).Completes S data after a ↔ p.Completes S data after a := by
  induction p generalizing data with
  | pure _ => rfl
  | throw _ => rfl
  | exec s onFault next ih => simp only [mapError, Completes, ih]

theorem guarded_bind {p : Program Stmt Result Fault E α}
    {k : α → Program Stmt Result Fault E β} {held : List Lock} (first : p.Guarded S held)
    (rest : ∀ a more, held ⊆ more → (k a).Guarded S more) : (p >>= k).Guarded S held := by
  induction p generalizing held with
  | pure a => exact rest a held (fun _ h => h)
  | throw e => trivial
  | exec s onFault next ih =>
    refine ⟨first.1, fun r => ih r (first.2 r) ?_⟩
    intro a more included
    exact rest a more fun l member => included (List.mem_append_left _ member)

/-- Holding more locks never hurts. -/
theorem Guarded.mono {p : Program Stmt Result Fault E α} {held more : List Lock}
    (guarded : p.Guarded S held) (included : held ⊆ more) : p.Guarded S more := by
  induction p generalizing held more with
  | pure _ => trivial
  | throw _ => trivial
  | exec s onFault next ih =>
    refine ⟨fun l needed => included (guarded.1 l needed), fun r => ih r (guarded.2 r) ?_⟩
    exact List.append_subset.mpr ⟨fun l h => List.mem_append_left _ (included h),
      List.subset_append_right _ _⟩

end Program

end Locking
