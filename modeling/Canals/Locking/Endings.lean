import Canals.Locking.Refinement

/-! How a body run alone ends: with a value, with an exception of its own, or
with the one raised for a statement that fails on the data. Two bodies agree
when they cannot be told apart by how they end. -/
namespace Locking
variable {Stmt : Type} {Result : Stmt → Type} {Fault Data Write Lock Input E E' α β : Type}

namespace Program

/-- The body, run alone from `data`, comes to this result over this data. -/
def Ends (S : Store Stmt Result Fault Data Write Lock Input) :
    Program Stmt Result Fault E α → Data → Except E α → Data → Prop
  | .pure a, data, result, after => result = .ok a ∧ after = data
  | .throw e, data, result, after => result = .error e ∧ after = data
  | .exec s onFault next, data, result, after => ∃ i, S.admits s i data ∧
      ((∃ x, S.exec s i data = .error x ∧ result = .error (onFault x) ∧ after = data) ∨
        ∃ r ws, S.exec s i data = .ok (r, ws) ∧
          (next r).Ends S (S.applyAll ws data) result after)

/-- A whole transaction, run alone: what raises an exception is rolled back. -/
def Alone (S : Store Stmt Result Fault Data Write Lock Input)
    (p : Program Stmt Result Fault E α) (data : Data) (result : Except E α) (after : Data) :
    Prop :=
  match result with
  | .ok a => p.Ends S data (.ok a) after
  | .error e => after = data ∧ ∃ mid, p.Ends S data (.error e) mid

/-- From data related by `R`, both bodies come to the same result and to data
related by `R`. -/
def Agree (S : Store Stmt Result Fault Data Write Lock Input) (R : Data → Data → Prop)
    (p q : Program Stmt Result Fault E α) : Prop :=
  ∀ ⦃a b x y a' b'⦄, R a b → p.Ends S a x a' → q.Ends S b y b' → x = y ∧ R a' b'

/-- Run alone from `data`, the body raises nothing. -/
def Resolves (S : Store Stmt Result Fault Data Write Lock Input)
    (p : Program Stmt Result Fault E α) (data : Data) : Prop :=
  ∀ result after, p.Ends S data result after → ∃ a, result = .ok a

variable {S : Store Stmt Result Fault Data Write Lock Input} {R : Data → Data → Prop}

theorem ends_of_completes {p : Program Stmt Result Fault E α} {data after : Data} {a : α}
    (ran : p.Completes S data after a) : p.Ends S data (.ok a) after := by
  induction p generalizing data with
  | pure b =>
    obtain ⟨rfl, rfl⟩ := ran
    exact ⟨rfl, rfl⟩
  | throw e => exact ran.elim
  | exec s onFault next ih =>
    obtain ⟨i, r, ws, admits, answered, rest⟩ := ran
    exact ⟨i, admits, .inr ⟨r, ws, answered, ih r rest⟩⟩

theorem completes_of_ends {p : Program Stmt Result Fault E α} {data after : Data} {a : α}
    (ended : p.Ends S data (.ok a) after) : p.Completes S data after a := by
  induction p generalizing data with
  | pure b =>
    obtain ⟨same, rfl⟩ := ended
    cases same
    exact ⟨rfl, rfl⟩
  | throw e => cases ended.1
  | exec s onFault next ih =>
    obtain ⟨i, admits, ⟨x, -, same, -⟩ | ⟨r, ws, answered, rest⟩⟩ := ended
    · cases same
    · exact ⟨i, r, ws, admits, answered, ih r rest⟩

/-- A statement that cannot fail here answers. -/
theorem ends_exec {s : Stmt} {onFault : Fault → E}
    {next : Result s → Program Stmt Result Fault E α} {data after : Data} {result : Except E α}
    {r : Input → Result s} {w : Input → List Write}
    (answers : ∀ i, S.exec s i data = .ok (r i, w i))
    (ended : (Program.exec s onFault next).Ends S data result after) :
    ∃ i, (next (r i)).Ends S (S.applyAll (w i) data) result after := by
  obtain ⟨i, -, ⟨x, failed, -⟩ | ⟨r', ws', answered, rest⟩⟩ := ended
  · cases (answers i).symm.trans failed
  · cases (answers i).symm.trans answered
    exact ⟨i, rest⟩

theorem ends_bind {p : Program Stmt Result Fault E α} {k : α → Program Stmt Result Fault E β}
    {data after : Data} {result : Except E β} : (p >>= k).Ends S data result after ↔
      (∃ e, result = .error e ∧ p.Ends S data (.error e) after) ∨
        ∃ mid a, p.Ends S data (.ok a) mid ∧ (k a).Ends S mid result after := by
  induction p generalizing data with
  | pure a =>
    constructor
    · intro ended
      exact .inr ⟨data, a, ⟨rfl, rfl⟩, ended⟩
    · rintro (⟨e, -, same, -⟩ | ⟨mid, b, ⟨same, rfl⟩, ended⟩)
      · cases same
      · cases same
        exact ended
  | throw e =>
    constructor
    · rintro ⟨rfl, rfl⟩
      exact .inl ⟨e, rfl, rfl, rfl⟩
    · rintro (⟨e', rfl, same, rfl⟩ | ⟨mid, b, ⟨same, -⟩, -⟩)
      · cases same
        exact ⟨rfl, rfl⟩
      · cases same
  | exec s onFault next ih =>
    simp only [exec_bind, Ends, ih]
    constructor
    · rintro ⟨i, admits, ⟨x, failed, rfl, rfl⟩ | ⟨r, ws, answered, rest⟩⟩
      · exact .inl ⟨_, rfl, i, admits, .inl ⟨x, failed, rfl, rfl⟩⟩
      · rcases rest with ⟨e, rfl, raised⟩ | ⟨mid, a, first, ended⟩
        · exact .inl ⟨e, rfl, i, admits, .inr ⟨r, ws, answered, raised⟩⟩
        · exact .inr ⟨mid, a, ⟨i, admits, .inr ⟨r, ws, answered, first⟩⟩, ended⟩
    · rintro (⟨e, rfl, i, admits, ended⟩ | ⟨mid, a, ⟨i, admits, ended⟩, rest⟩)
      · refine ⟨i, admits, ?_⟩
        rcases ended with ⟨x, failed, same, rfl⟩ | ⟨r, ws, answered, raised⟩
        · cases same
          exact .inl ⟨x, failed, rfl, rfl⟩
        · exact .inr ⟨r, ws, answered, .inl ⟨e, rfl, raised⟩⟩
      · rcases ended with ⟨x, -, same, -⟩ | ⟨r, ws, answered, first⟩
        · cases same
        · exact ⟨i, admits, .inr ⟨r, ws, answered, .inr ⟨mid, a, first, rest⟩⟩⟩

theorem resolves_pure (a : α) (data : Data) :
    (Pure.pure a : Program Stmt Result Fault E α).Resolves S data := by
  rintro _ _ ⟨rfl, -⟩
  exact ⟨a, rfl⟩

theorem resolves_exec {s : Stmt} {onFault : Fault → E}
    {next : Result s → Program Stmt Result Fault E α} {data : Data}
    (answers : ∀ i x, S.exec s i data ≠ .error x)
    (rest : ∀ i r ws, S.exec s i data = .ok (r, ws) →
      (next r).Resolves S (S.applyAll ws data)) :
    (Program.exec s onFault next).Resolves S data := by
  rintro result after ⟨i, -, ⟨x, failed, -⟩ | ⟨r, ws, answered, ended⟩⟩
  · exact absurd failed (answers i x)
  · exact rest i r ws answered result after ended

theorem resolves_bind {p : Program Stmt Result Fault E α} {k : α → Program Stmt Result Fault E β}
    {data : Data} (first : p.Resolves S data)
    (rest : ∀ mid a, p.Completes S data mid a → (k a).Resolves S mid) :
    (p >>= k).Resolves S data := by
  intro result after ended
  rcases ends_bind.mp ended with ⟨e, -, raised⟩ | ⟨mid, a, done, ended⟩
  · obtain ⟨a, impossible⟩ := first _ _ raised
    contradiction
  · exact rest mid a (completes_of_ends done) result after ended

/-- A whole transaction that raises nothing commits. -/
theorem Resolves.alone {p : Program Stmt Result Fault E α} {data after : Data}
    {result : Except E α} (resolves : p.Resolves S data) (ran : p.Alone S data result after) :
    ∃ a, result = .ok a ∧ p.Completes S data after a := by
  cases result with
  | ok a => exact ⟨a, rfl, completes_of_ends ran⟩
  | error e =>
      obtain ⟨-, mid, raised⟩ := ran
      obtain ⟨a, impossible⟩ := resolves _ _ raised
      contradiction

theorem ends_mapError {p : Program Stmt Result Fault E α} {g : E → E'} {data after : Data}
    {result : Except E' α} (ended : (p.mapError g).Ends S data result after) :
    ∃ result', p.Ends S data result' after ∧ result = result'.mapError g := by
  induction p generalizing data with
  | pure a => exact ⟨.ok a, ⟨rfl, ended.2⟩, ended.1⟩
  | throw e => exact ⟨.error e, ⟨rfl, ended.2⟩, ended.1⟩
  | exec s onFault next ih =>
    obtain ⟨i, admits, ⟨x, failed, rfl, rfl⟩ | ⟨r, ws, answered, rest⟩⟩ := ended
    · exact ⟨_, ⟨i, admits, .inl ⟨x, failed, rfl, rfl⟩⟩, rfl⟩
    · obtain ⟨result', ended, same⟩ := ih r rest
      exact ⟨result', ⟨i, admits, .inr ⟨r, ws, answered, ended⟩⟩, same⟩

theorem agree_pure (a : α) :
    Agree S R (Pure.pure a : Program Stmt Result Fault E α) (Pure.pure a) := by
  rintro _ _ x y _ _ related ⟨rfl, rfl⟩ ⟨rfl, rfl⟩
  exact ⟨rfl, related⟩

theorem agree_throw (e : E) :
    Agree S R (.throw e : Program Stmt Result Fault E α) (.throw e) := by
  rintro _ _ x y _ _ related ⟨rfl, rfl⟩ ⟨rfl, rfl⟩
  exact ⟨rfl, related⟩

theorem agree_bind {p q : Program Stmt Result Fault E α}
    {k k' : α → Program Stmt Result Fault E β} (first : Agree S R p q)
    (rest : ∀ a, Agree S R (k a) (k' a)) : Agree S R (p >>= k) (q >>= k') := by
  intro a b x y a' b' related left right
  rcases ends_bind.mp left with ⟨e, rfl, raised⟩ | ⟨mid, v, done, left⟩ <;>
    rcases ends_bind.mp right with ⟨e', rfl, raised'⟩ | ⟨mid', v', done', right⟩
  · obtain ⟨same, related⟩ := first related raised raised'
    cases same
    exact ⟨rfl, related⟩
  · cases (first related raised done').1
  · cases (first related done raised').1
  · obtain ⟨same, related⟩ := first related done done'
    cases same
    exact rest v related left right

theorem agree_mapError {p q : Program Stmt Result Fault E α} (g : E → E')
    (agree : Agree S R p q) : Agree S R (p.mapError g) (q.mapError g) := by
  intro a b x y a' b' related left right
  obtain ⟨x', ended, rfl⟩ := ends_mapError left
  obtain ⟨y', ended', rfl⟩ := ends_mapError right
  obtain ⟨same, related⟩ := agree related ended ended'
  exact ⟨congrArg _ same, related⟩

/-- Two statements fail alike or answer alike on related data. -/
theorem agree_exec {s s' : Stmt} {onFault : Fault → E}
    {next : Result s → Program Stmt Result Fault E α}
    {next' : Result s' → Program Stmt Result Fault E α}
    (alike : ∀ {a b i j}, R a b →
      (∃ x, S.exec s i a = .error x ∧ S.exec s' j b = .error x) ∨
      ∃ r r' ws ws', S.exec s i a = .ok (r, ws) ∧ S.exec s' j b = .ok (r', ws') ∧
        R (S.applyAll ws a) (S.applyAll ws' b) ∧ Agree S R (next r) (next' r')) :
    Agree S R (.exec s onFault next) (.exec s' onFault next') := by
  rintro a b x y a' b' related ⟨i, -, left⟩ ⟨j, -, right⟩
  rcases alike (i := i) (j := j) related with
      ⟨z, failed, failed'⟩ | ⟨r, r', ws, ws', answered, answered', later, agree⟩
  · simp only [failed, failed', Except.error.injEq, reduceCtorEq, false_and, exists_false,
      or_false, exists_eq_left'] at left right
    obtain ⟨rfl, rfl⟩ := left
    obtain ⟨rfl, rfl⟩ := right
    exact ⟨rfl, related⟩
  · simp only [answered, answered', reduceCtorEq, false_and, exists_false, false_or,
      Except.ok.injEq, Prod.mk.injEq] at left right
    obtain ⟨_, _, ⟨rfl, rfl⟩, left⟩ := left
    obtain ⟨_, _, ⟨rfl, rfl⟩, right⟩ := right
    exact agree later left right

/-- A transaction run alone on related data comes to the same. -/
theorem Agree.alone {p q : Program Stmt Result Fault E α} (agree : Agree S R p q) {a b : Data}
    {x y : Except E α} {a' b' : Data} (related : R a b) (left : p.Alone S a x a')
    (right : q.Alone S b y b') : x = y ∧ R a' b' := by
  cases x with
  | ok v =>
    cases y with
    | ok v' => exact agree related left right
    | error e =>
      obtain ⟨-, mid, raised⟩ := right
      cases (agree related left raised).1
  | error e =>
    obtain ⟨rfl, mid, raised⟩ := left
    cases y with
    | ok v' => cases (agree related raised right).1
    | error e' =>
      obtain ⟨rfl, mid', raised'⟩ := right
      exact ⟨congrArg _ (Except.error.inj (agree related raised raised').1), related⟩

end Program

theorem Reaches.ends {S : Store Stmt Result Fault Data Write Lock Input} {d after : Data}
    {start rest : Program Stmt Result Fault E α} {ws : List Write} {held : List Lock}
    (run : Reaches S d start rest ws held) {result : Except E α}
    (ended : rest.Ends S (S.applyAll ws d) result after) : start.Ends S d result after := by
  induction run with
  | start => exact ended
  | exec _ admits ran ih =>
    exact ih ⟨_, admits, .inr ⟨_, _, ran, Store.applyAll_append (S := S) .. ▸ ended⟩⟩

end Locking
