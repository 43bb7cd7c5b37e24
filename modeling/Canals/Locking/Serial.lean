import Canals.Locking.Endings
import Mathlib.Data.List.Nodup

/-! Processes that run one transaction each. However their statements
interleave, they end as the same transactions run alone, one after the other, in
the order in which they ended. -/
namespace Locking
variable {Stmt : Type} {Result : Stmt → Type} {Fault Data Write Lock Input E α : Type}
  {Env Event K P : Type}

/-- A process before and after its only transaction. -/
inductive Shot (K E α : Type) where
  | waiting (k : K)
  | done (result : Except E α)

/-- A process has no steps outside its transaction. -/
def oneShot (body : K → Program Stmt Result Fault E α) (draw : Env → Input × Env)
    (event : Env → Event → Option Env) :
    Client Stmt Result Fault E Data Lock Input Env (Shot K E α) Empty Event where
  body
    | .waiting k => some do
      let a ← body k
      return .done (.ok a)
    | .done _ => none
  failed _ e := .done (.error e)
  crashed shot := shot
  draw
  move _ _ _ _ m := m.elim
  event

/-- These transactions, each alone from its beginning to its end. -/
inductive Serially (S : Store Stmt Result Fault Data Write Lock Input)
    (bodies : P → Program Stmt Result Fault E α) : Data → List (P × Except E α) → Data → Prop where
  | nil {d} : Serially S bodies d [] d
  | next {d ran mid p result after} : Serially S bodies d ran mid →
      (bodies p).Alone S mid result after → Serially S bodies d (ran ++ [(p, result)]) after

/-- Nobody crashes, and a statement fails only for what it finds in the data. -/
def State.Sound {Ctl Move : Type} (S : Store Stmt Result Fault Data Write Lock Input)
    (C : Client Stmt Result Fault E Data Lock Input Env Ctl Move Event)
    (s : State Stmt Result Fault E Data Write Lock Env Ctl P) : Action Fault Move Event P → Prop
  | .crash _ => False
  | .fault p x => ∃ stmt onFault next ws, (s.session p).tx = some ⟨.exec stmt onFault next, ws⟩ ∧
      S.exec stmt (C.draw s.env).1 (S.applyAll ws s.data) = .error x
  | _ => True

section Order
variable {S : Store Stmt Result Fault Data Write Lock Input}
  {bodies : P → Program Stmt Result Fault E α} {R : Data → Data → Prop}

theorem Serially.mono {bodies' : P → Program Stmt Result Fault E α} {a a' : Data}
    (alone : ∀ {p d result after}, (bodies p).Alone S d result after →
      (bodies' p).Alone S d result after) {ran : List (P × Except E α)}
    (serial : Serially S bodies a ran a') : Serially S bodies' a ran a' := by
  induction serial with
  | nil => exact .nil
  | next _ last ih => exact .next ih (alone last)

/-- In one order, transactions that agree with themselves come to one result. -/
theorem Serially.agree (alike : ∀ p, Program.Agree S R (bodies p) (bodies p)) {a b a' b' : Data}
    {ran ran' : List (P × Except E α)} (left : Serially S bodies a ran a') (related : R a b)
    (right : Serially S bodies b ran' b') (order : ran.map (·.1) = ran'.map (·.1)) :
    ran = ran' ∧ R a' b' := by
  induction left generalizing ran' b' with
  | nil =>
    cases right with
    | nil => exact ⟨rfl, related⟩
    | next _ _ => simp at order
  | @next ran mid p result after _ alone ih =>
    cases right with
    | nil => simp at order
    | @next ran' mid' p' result' after' right alone' =>
      simp only [List.map_append, List.map_cons, List.map_nil] at order
      obtain ⟨earlier, last⟩ := List.append_inj' order rfl
      cases last
      obtain ⟨rfl, later⟩ := ih right earlier
      obtain ⟨rfl, related⟩ := (alike p).alone later alone alone'
      exact ⟨rfl, related⟩

end Order

namespace State
variable {S : Store Stmt Result Fault Data Write Lock Input} {Ctl Move : Type}
  {C : Client Stmt Result Fault E Data Lock Input Env Ctl Move Event}
  {recorded : Env → Data → Prop} {drawn : Env → Write → Prop}
  {s : State Stmt Result Fault E Data Write Lock Env Ctl P} {p : P}

/-- An open transaction ends as its body would, run alone. -/
theorem Replayable.ends (inv : Replayable S C recorded drawn s)
    {tx : Open Stmt Result Fault E Write Ctl} (isOpen : (s.session p).tx = some tx)
    {result : Except E Ctl} {after : Data}
    (ended : tx.rest.Ends S (S.applyAll tx.writes s.data) result after) :
    ∃ prog, C.body (s.session p).ctl = some prog ∧ prog.Ends S s.data result after := by
  obtain ⟨prog, held, body, run, -⟩ := inv.replays p tx isOpen
  exact ⟨prog, body, run.ends ended⟩

end State

section Shots
variable {S : Store Stmt Result Fault Data Write Lock Input}
  {body : K → Program Stmt Result Fault E α} {draw : Env → Input × Env}
  {event : Env → Event → Option Env} {recorded : Env → Data → Prop} {drawn : Env → Write → Prop}
  {Same : Lock → Data → Data → Prop} {reads : Stmt → Lock → Prop}
  {touches : Write → Lock → Prop} {frozen : Lock → Data → Prop}
  {s t : State Stmt Result Fault E Data Write Lock Env (Shot K E α) P} {k : P → K} {d : Data}
  {ran : List (P × Except E α)} {p : P}

/-- So far these transactions have ended, and the data is theirs. -/
structure Serialised (S : Store Stmt Result Fault Data Write Lock Input)
    (body : K → Program Stmt Result Fault E α) (k : P → K) (d : Data)
    (s : State Stmt Result Fault E Data Write Lock Env (Shot K E α) P)
    (ran : List (P × Except E α)) : Prop where
  serial : Serially S (body ∘ k) d ran s.data
  once : (ran.map (·.1)).Nodup
  waiting : ∀ p ∉ ran.map (·.1), (s.session p).ctl = .waiting (k p)
  done : ∀ p result, (p, result) ∈ ran → (s.session p).ctl = .done result

theorem Serialised.waits (inv : Serialised S body k d s ran) {prog}
    (here : ((oneShot body draw event :
      Client Stmt Result Fault E Data Lock Input Env (Shot K E α) Empty Event).body
        (s.session p).ctl) = some prog) :
    p ∉ ran.map (·.1) ∧ prog = (body (k p) >>= fun a => Pure.pure (.done (.ok a))) := by
  by_cases ended : p ∈ ran.map (·.1)
  · obtain ⟨⟨q, result⟩, member, rfl⟩ := List.mem_map.mp ended
    rw [inv.done _ _ member] at here
    cases here
  · rw [inv.waiting p ended] at here
    cases here
    exact ⟨ended, rfl⟩

variable [DecidableEq P]

/-- The next transaction ends. -/
theorem Serialised.close (inv : Serialised S body k d s ran) {result : Except E α} {after : Data}
    (fresh : p ∉ ran.map (·.1)) (alone : (body (k p)).Alone S s.data result after) :
    Serialised S body k d { s.close p (.done result) with data := after }
      (ran ++ [(p, result)]) where
  serial := .next inv.serial alone
  once := by
    rw [List.map_append]
    refine List.Nodup.append inv.once (by simp) ?_
    intro q before last
    cases List.mem_singleton.mp last
    exact fresh before
  waiting q later := by
    simp only [List.map_append, List.map_cons, List.map_nil, List.mem_append, List.mem_singleton,
      not_or] at later
    simpa [State.close, later.2] using inv.waiting q later.1
  done q result' member := by
    rcases List.mem_append.mp member with before | last
    · have apart : q ≠ p := by
        rintro rfl
        exact fresh (List.mem_map_of_mem before)
      simpa [State.close, apart] using inv.done q result' before
    · cases List.mem_singleton.mp last
      simp [State.close]

/-- Nothing but locks, inputs and an open transaction has changed. -/
theorem Serialised.keep (inv : Serialised S body k d s ran) {env : Env} {locks : List (Lock × P)}
    {tx : Option (Open Stmt Result Fault E Write (Shot K E α))} :
    Serialised S body k d { s with
      env, locks, session := Function.update s.session p ⟨(s.session p).ctl, tx⟩ } ran where
  serial := inv.serial
  once := inv.once
  waiting q later := by
    by_cases same : q = p
    · subst same
      simpa using inv.waiting q later
    · simpa [same] using inv.waiting q later
  done q result member := by
    by_cases same : q = p
    · subst same
      simpa using inv.done q result member
    · simpa [same] using inv.done q result member

variable [DecidableEq Lock]

theorem Serialised.step (inv : Serialised S body k d s ran)
    (replayable : State.Replayable S (oneShot body draw event) recorded drawn s)
    (supplies : (oneShot body draw event).Supplies S recorded drawn)
    {a : Action Fault Empty Event P} (stepped : s.step S (oneShot body draw event) a = some t)
    (sound : s.Sound S (oneShot body draw event) a) : ∃ ran, Serialised S body k d t ran := by
  cases a with
  | begin p =>
    simp only [State.step] at stepped
    split at stepped <;> cases stepped
    exact ⟨ran, inv.keep⟩
  | exec p =>
    simp only [State.step] at stepped
    split at stepped <;> try contradiction
    split at stepped <;> try contradiction
    split at stepped <;> cases stepped
    exact ⟨ran, inv.keep⟩
  | fault p x =>
    obtain ⟨stmt, onFault, next, ws, isOpen, failed⟩ := sound
    simp only [State.step, isOpen, Option.some.injEq] at stepped
    subst stepped
    have view := State.recorded_applyAll supplies replayable.recorded
      (replayable.drawn p _ isOpen)
    have faulted : (Program.exec stmt onFault next).Ends S (S.applyAll ws s.data)
        (.error (onFault x)) (S.applyAll ws s.data) :=
      ⟨_, supplies.admits view, .inl ⟨x, failed, rfl, rfl⟩⟩
    obtain ⟨prog, here, ended⟩ := replayable.ends isOpen faulted
    obtain ⟨fresh, rfl⟩ := inv.waits here
    rcases Program.ends_bind.mp ended with ⟨e, same, raised⟩ | ⟨mid, a, -, same, -⟩
    · cases same
      exact ⟨_, inv.close fresh ⟨rfl, _, raised⟩⟩
    · cases same
  | rollback p =>
    simp only [State.step] at stepped
    split at stepped <;> cases stepped
    rename_i e ws isOpen
    obtain ⟨prog, here, ended⟩ := replayable.ends isOpen ⟨rfl, rfl⟩
    obtain ⟨fresh, rfl⟩ := inv.waits here
    rcases Program.ends_bind.mp ended with ⟨e, same, raised⟩ | ⟨mid, a, -, same, -⟩
    · cases same
      exact ⟨_, inv.close fresh ⟨rfl, _, raised⟩⟩
    · cases same
  | commit p =>
    simp only [State.step] at stepped
    split at stepped <;> cases stepped
    rename_i shot ws isOpen
    obtain ⟨prog, here, ended⟩ := replayable.ends isOpen ⟨rfl, rfl⟩
    obtain ⟨fresh, rfl⟩ := inv.waits here
    rcases Program.ends_bind.mp ended with ⟨e, same, -⟩ | ⟨mid, a, done, same, after⟩
    · cases same
    · cases same
      have alone : (body (k p)).Alone S s.data (.ok a) (S.applyAll ws s.data) := after ▸ done
      exact ⟨_, inv.close fresh alone⟩
  | crash p => exact sound.elim
  | move p m => exact m.elim
  | event e =>
    obtain ⟨env, -, rfl⟩ := Option.map_eq_some_iff.mp stepped
    exact ⟨ran, inv.serial, inv.once, inv.waiting, inv.done⟩

/-- Two-phase locking serialises: at any time, what has ended so far ended as in
a run of these transactions one at a time. -/
theorem serialises (lawful : S.Lawful Same reads touches frozen)
    (supplies : (oneShot body draw event).Supplies S recorded drawn)
    (ready : ∀ k, (body k).Guarded S [])
    (start : State.Replayable S (oneShot body draw event) recorded drawn s)
    (waiting : ∀ p, (s.session p).ctl = .waiting (k p))
    (run : Relation.ReflTransGen (fun s t => ∃ a, s.step S (oneShot body draw event) a = some t ∧
      s.Sound S (oneShot body draw event) a) s t) :
    ∃ ran, Serialised S body k s.data t ran := by
  have guarded : ∀ shot prog, (oneShot body draw event :
      Client Stmt Result Fault E Data Lock Input Env (Shot K E α) Empty Event).body shot =
      some prog → prog.Guarded S [] := by
    intro shot prog here
    cases shot <;> cases here
    exact Program.guarded_bind (ready _) fun _ _ _ => trivial
  have both : State.Replayable S (oneShot body draw event) recorded drawn t ∧
      ∃ ran, Serialised S body k s.data t ran := by
    induction run with
    | refl => exact ⟨start, [], .nil, List.nodup_nil, fun p _ => waiting p, nofun⟩
    | tail _ last ih =>
      obtain ⟨a, stepped, sound⟩ := last
      obtain ⟨replayable, ran, inv⟩ := ih
      obtain ⟨next, -⟩ := State.step_refines lawful supplies guarded replayable stepped
      exact ⟨next, inv.step replayable supplies stepped sound⟩
  exact both.2

end Shots

end Locking
