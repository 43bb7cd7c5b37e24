import Canals.Locking.Serial

/-! A process that nobody is in the way of. Once all who hold a lock have crashed, its
transaction, if it raises nothing when it runs alone, runs to its commit. -/
namespace Locking
variable {Stmt : Type} {Result : Stmt → Type} {Fault Data Write Lock Input E : Type}
  {Env Ctl Move Event P : Type} {S : Store Stmt Result Fault Data Write Lock Input}
  {C : Client Stmt Result Fault E Data Lock Input Env Ctl Move Event}

/-- The environment after some inputs were drawn from it. -/
inductive Client.Draws (C : Client Stmt Result Fault E Data Lock Input Env Ctl Move Event) :
    Env → Env → Prop where
  | done {e} : Draws C e e
  | next {e after} : Draws C (C.draw e).2 after → Draws C e after

namespace State
variable [DecidableEq P] [DecidableEq Lock] {recorded : Env → Data → Prop}
  {drawn : Env → Write → Prop} {s : State Stmt Result Fault E Data Write Lock Env Ctl P} {p : P}

/-- Nobody holds a lock, and `p` has no transaction open. -/
structure Quiet (p : P) (s : State Stmt Result Fault E Data Write Lock Env Ctl P) : Prop where
  locks : s.locks = []
  closed : (s.session p).tx = none

/-- Crashes release the locks of those who crash, and touch nothing else. -/
theorem run_crashes (qs : List P) (s : State Stmt Result Fault E Data Write Lock Env Ctl P) :
    ∃ t, s.run S C (qs.map .crash) = some t ∧ t.data = s.data ∧ t.env = s.env ∧
      t.locks = s.locks.filter (fun entry => entry.2 ∉ qs) ∧
      (∀ q ∉ qs, t.session q = s.session q) ∧
      ∀ q ∈ qs, ∃ c, t.session q = { ctl := C.crashed c } := by
  induction qs generalizing s with
  | nil => exact ⟨s, rfl, rfl, rfl, by simp, fun _ _ => rfl, by simp⟩
  | cons q qs ih =>
    obtain ⟨t, ran, data, env, locks, others, crashed⟩ :=
      ih (s.close q (C.crashed (s.session q).ctl))
    refine ⟨t, ran, data, env, ?_, fun r outside => ?_, fun r member => ?_⟩
    · rw [locks, close, List.filter_filter]
      refine List.filter_congr fun entry _ => ?_
      simp only [List.mem_cons, not_or, decide_not]
      by_cases same : entry.2 = q <;> simp [same]
    · obtain ⟨other, outside⟩ := not_or.mp (mt List.mem_cons.mpr outside)
      exact (others r outside).trans (Function.update_of_ne other _ _)
    · by_cases later : r ∈ qs
      · exact crashed r later
      · rcases List.mem_cons.mp member with rfl | inside
        · exact ⟨_, (others r later).trans (Function.update_self ..)⟩
        · exact (later inside).elim

/-- After a crash of everyone in the way, `p` among them, all is quiet. -/
theorem quiet_of_crashes (s : State Stmt Result Fault E Data Write Lock Env Ctl P) (p : P) :
    ∃ t, s.run S C ((p :: s.locks.map (·.2)).map .crash) = some t ∧ t.data = s.data ∧
      t.env = s.env ∧ t.Quiet p ∧ ∃ c, (t.session p).ctl = C.crashed c := by
  obtain ⟨t, ran, data, env, locks, -, crashed⟩ := s.run_crashes (S := S) (C := C)
    (p :: s.locks.map (·.2))
  obtain ⟨c, here⟩ := crashed p List.mem_cons_self
  refine ⟨t, ran, data, env, ⟨?_, by rw [here]⟩, c, by rw [here]⟩
  rw [locks]
  refine List.filter_eq_nil_iff.mpr fun entry member => ?_
  simpa using fun _ => ⟨entry.1, member⟩

/-- What is left of an open transaction runs to its commit. -/
theorem Replayable.finishes_open (supplies : C.Supplies S recorded drawn)
    {rest : Program Stmt Result Fault E Ctl} {ws : List Write}
    (inv : Replayable S C recorded drawn s)
    (alone : ∀ entry ∈ s.locks, entry.2 = p) (isOpen : (s.session p).tx = some ⟨rest, ws⟩)
    (resolves : rest.Resolves S (S.applyAll ws s.data)) : ∃ n t,
      s.run S C (List.replicate n (.exec p) ++ [.commit p]) = some t ∧ t.Quiet p ∧
      rest.Completes S (S.applyAll ws s.data) t.data (t.session p).ctl ∧ C.Draws s.env t.env := by
  induction rest generalizing s ws with
  | pure c =>
    refine ⟨0, { s.close p c with data := S.applyAll ws s.data }, ?_, ⟨?_, ?_⟩, ⟨rfl, ?_⟩, .done⟩
    · simp [run, step, isOpen]
    · refine List.filter_eq_nil_iff.mpr fun entry member => ?_
      simp [alone entry member]
    · simp [State.close]
    · simp [State.close]
  | throw e =>
    obtain ⟨a, impossible⟩ := resolves _ _ ⟨rfl, rfl⟩
    cases impossible
  | exec stmt onFault next ih =>
    have admits := supplies.admits (s := stmt)
      (recorded_applyAll supplies inv.recorded (inv.drawn p _ isOpen))
    cases answered : S.exec stmt (C.draw s.env).1 (S.applyAll ws s.data) with
    | error x =>
      obtain ⟨a, impossible⟩ := resolves _ _ ⟨_, admits, .inl ⟨x, answered, rfl, rfl⟩⟩
      cases impossible
    | ok answer =>
      obtain ⟨r, more⟩ := answer
      have free : (S.gain stmt r).all fun l => !s.locked p l := by
        refine List.all_eq_true.mpr fun l _ => ?_
        rw [locked, Bool.not_eq_true', List.any_eq_false]
        intro entry member
        simp [alone entry member]
      have later : (next r).Resolves S (S.applyAll (ws ++ more) s.data) := by
        intro result after ended
        rw [Store.applyAll_append] at ended
        exact resolves _ _ ⟨_, admits, .inr ⟨r, more, answered, ended⟩⟩
      have stepped : s.step S C (.exec p) = some { s with
          env := (C.draw s.env).2
          locks := s.locks ++ (S.gain stmt r).map (·, p)
          session := Function.update s.session p
            ⟨(s.session p).ctl, some ⟨next r, ws ++ more⟩⟩ } := by
        simp only [step, isOpen, answered, if_pos free]
      obtain ⟨n, t, ran, quiet, completes, draws⟩ := ih r (inv.exec supplies isOpen answered free)
        (fun entry member => by
          rcases List.mem_append.mp member with old | new
          · exact alone entry old
          · obtain ⟨l, -, rfl⟩ := List.mem_map.mp new
            rfl) (by simp) later
      refine ⟨n + 1, t, ?_, quiet, ⟨_, r, more, admits, answered, ?_⟩, .next draws⟩
      · rw [List.replicate_succ, List.cons_append, run, List.foldlM_cons, stepped]
        exact ran
      · rw [← Store.applyAll_append]
        exact completes

/-- A transaction that raises nothing alone is carried out. -/
theorem Replayable.finishes (inv : Replayable S C recorded drawn s)
    (supplies : C.Supplies S recorded drawn) (quiet : s.Quiet p)
    {prog : Program Stmt Result Fault E Ctl} (body : C.body (s.session p).ctl = some prog)
    (resolves : prog.Resolves S s.data) : ∃ n t,
      s.run S C (.begin p :: List.replicate n (.exec p) ++ [.commit p]) = some t ∧ t.Quiet p ∧
      prog.Completes S s.data t.data (t.session p).ctl ∧ C.Draws s.env t.env := by
  have begun : s.step S C (.begin p) = some { s with
      session := Function.update s.session p ⟨(s.session p).ctl, some ⟨prog, []⟩⟩ } := by
    simp only [step, quiet.closed, body]
  have alone : ∀ entry ∈ s.locks, entry.2 = p := by
    simp [quiet.locks]
  have isOpen : (Function.update s.session p (⟨(s.session p).ctl, some ⟨prog, []⟩⟩ :
      Session Stmt Result Fault E Write Ctl) p).tx = some ⟨prog, []⟩ := by
    rw [Function.update_self]
  obtain ⟨n, t, ran, rest⟩ := (inv.begin body).finishes_open supplies alone isOpen resolves
  refine ⟨n, t, ?_, rest⟩
  rw [List.cons_append, run, List.foldlM_cons, begun]
  exact ran

end State

end Locking
