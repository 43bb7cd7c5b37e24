import Canals.Locking.Session
import Mathlib.Logic.Relation

/-! Two-phase locking makes every transaction indivisible. The invariant is a
replay: run alone on the data committed now, an open transaction answers every
statement so far in the same way, because nobody else can have written what its
locks guard. Hence each interleaved run refines a run of `Committed.Step`. -/
namespace Locking
variable {Stmt : Type} {Result : Stmt → Type} {Fault Data Write Lock Input E : Type}

/-- How statements and writes relate to locks. `Same l` compares what lock `l`
guards, `reads` is what a statement's answer depends on, `frozen l` says that
the row of `l` does not exist and cannot come to exist. -/
structure Store.Lawful (S : Store Stmt Result Fault Data Write Lock Input)
    (Same : Lock → Data → Data → Prop) (reads : Stmt → Lock → Prop)
    (touches : Write → Lock → Prop) (frozen : Lock → Data → Prop) : Prop where
  same_refl : ∀ l d, Same l d d
  same_trans : ∀ {l a b c}, Same l a b → Same l b c → Same l a c
  exec_same : ∀ {s i a b}, (∀ l, reads s l → Same l a b) → S.exec s i a = S.exec s i b
  admits_same : ∀ {s i a b}, (∀ l, reads s l → Same l a b) → S.admits s i a → S.admits s i b
  apply_same : ∀ {l w a b}, Same l a b → Same l (S.apply w a) (S.apply w b)
  apply_frame : ∀ {l w d}, ¬ touches w l → Same l d (S.apply w d)
  covers : ∀ {s i d r ws l}, S.exec s i d = .ok (r, ws) → reads s l →
    l ∈ S.need s ∨ l ∈ S.gain s r ∨ frozen l d
  writes : ∀ {s i d r ws w l}, S.exec s i d = .ok (r, ws) → w ∈ ws → touches w l →
    l ∈ S.need s ∨ l ∈ S.gain s r
  frozen_gain : ∀ {s i d r ws l}, S.exec s i d = .ok (r, ws) → l ∈ S.gain s r → ¬ frozen l d
  frozen_apply : ∀ {l w d}, frozen l (S.apply w d) ↔ frozen l d

section Replay
variable {S : Store Stmt Result Fault Data Write Lock Input} {α : Type}

@[simp] theorem Store.applyAll_nil (d : Data) : S.applyAll [] d = d := rfl

@[simp] theorem Store.applyAll_cons (w : Write) (ws : List Write) (d : Data) :
    S.applyAll (w :: ws) d = S.applyAll ws (S.apply w d) := rfl

theorem Store.applyAll_append (ws more : List Write) (d : Data) :
    S.applyAll (ws ++ more) d = S.applyAll more (S.applyAll ws d) :=
  List.foldl_append

/-- From `start`, run alone on `d`, the body can reach `rest` with these writes
and locks. -/
inductive Reaches (S : Store Stmt Result Fault Data Write Lock Input) (d : Data)
    (start : Program Stmt Result Fault E α) :
    Program Stmt Result Fault E α → List Write → List Lock → Prop where
  | start : Reaches S d start start [] []
  | exec {s onFault next ws held i r more} : Reaches S d start (.exec s onFault next) ws held →
      S.admits s i (S.applyAll ws d) → S.exec s i (S.applyAll ws d) = .ok (r, more) →
      Reaches S d start (next r) (ws ++ more) (held ++ S.gain s r)

namespace Reaches
variable {d : Data} {start rest : Program Stmt Result Fault E α} {ws : List Write}
  {held : List Lock}

theorem guarded (run : Reaches S d start rest ws held) (ready : start.Guarded S []) :
    rest.Guarded S held := by
  induction run with
  | start => exact ready
  | exec _ _ _ ih => exact ih.2 _

theorem completes (run : Reaches S d start rest ws held) {after : Data} {a : α}
    (ends : rest.Completes S (S.applyAll ws d) after a) : start.Completes S d after a := by
  induction run with
  | start => exact ends
  | exec _ admits ran ih => exact ih ⟨_, _, _, admits, ran, Store.applyAll_append (S := S) .. ▸ ends⟩

theorem fails (run : Reaches S d start rest ws held) {e : E}
    (raises : rest.Fails S (S.applyAll ws d) e) : start.Fails S d e := by
  induction run with
  | start => exact raises
  | exec _ admits ran ih =>
    exact ih (.inr ⟨_, _, _, admits, ran, Store.applyAll_append (S := S) .. ▸ raises⟩)

variable {Same : Lock → Data → Data → Prop} {reads : Stmt → Lock → Prop}
  {touches : Write → Lock → Prop} {frozen : Lock → Data → Prop}

theorem frozen_applyAll (lawful : S.Lawful Same reads touches frozen) (l : Lock) :
    frozen l (S.applyAll ws d) ↔ frozen l d := by
  induction ws generalizing d with
  | nil => rfl
  | cons w ws ih => rw [Store.applyAll_cons, ih, lawful.frozen_apply]

theorem writes_held (lawful : S.Lawful Same reads touches frozen) (ready : start.Guarded S [])
    (run : Reaches S d start rest ws held) : ∀ w ∈ ws, ∀ l, touches w l → l ∈ held := by
  induction run with
  | start => simp
  | exec before _ ran ih =>
    intro w member l touched
    rw [List.mem_append] at member ⊢
    rcases member with old | new
    · exact .inl (ih w old l touched)
    · exact (lawful.writes ran new touched).imp_left fun needed =>
        (before.guarded ready).1 l needed

theorem not_frozen (lawful : S.Lawful Same reads touches frozen)
    (run : Reaches S d start rest ws held) : ∀ l ∈ held, ¬ frozen l d := by
  induction run with
  | start => simp
  | exec _ _ ran ih =>
    intro l member
    rcases List.mem_append.mp member with old | new
    · exact ih l old
    · exact fun h => lawful.frozen_gain ran new ((frozen_applyAll lawful l).mpr h)

theorem same_applyAll (lawful : S.Lawful Same reads touches frozen) {l : Lock} {a b : Data}
    (same : Same l a b) : Same l (S.applyAll ws a) (S.applyAll ws b) := by
  induction ws generalizing a b with
  | nil => exact same
  | cons w ws ih => exact ih (lawful.apply_same same)

theorem frame_applyAll (lawful : S.Lawful Same reads touches frozen) {l : Lock}
    (apart : ∀ w ∈ ws, ¬ touches w l) : Same l d (S.applyAll ws d) := by
  induction ws generalizing d with
  | nil => exact lawful.same_refl l d
  | cons w ws ih =>
    exact lawful.same_trans (lawful.apply_frame (apart w (by simp)))
      (ih fun w' member => apart w' (by simp [member]))

/-- The run replays on any data that agrees on what its locks guard. -/
theorem transfer (lawful : S.Lawful Same reads touches frozen) (ready : start.Guarded S [])
    {d' : Data} (run : Reaches S d start rest ws held)
    (same : ∀ l, l ∈ held ∨ frozen l d → Same l d d') : Reaches S d' start rest ws held := by
  induction run with
  | start => exact .start
  | @exec s onFault next ws held i r more before admits ran ih =>
    have before' := ih fun l h => same l (h.imp_left fun m => List.mem_append_left _ m)
    have agree : ∀ l, reads s l → Same l (S.applyAll ws d) (S.applyAll ws d') := by
      intro l read
      apply same_applyAll lawful
      apply same
      rcases lawful.covers ran read with needed | gained | absent
      · exact .inl (List.mem_append_left _ ((before.guarded ready).1 l needed))
      · exact .inl (List.mem_append_right _ gained)
      · exact .inr ((frozen_applyAll lawful l).mp absent)
    exact .exec before' (lawful.admits_same agree admits) (lawful.exec_same agree ▸ ran)

end Reaches
end Replay

variable {Env Ctl Move Event P : Type}

/-- What the environment promises about the inputs it supplies: a value drawn
later is newer than everything recorded, so the statement admits it. -/
structure Client.Supplies (S : Store Stmt Result Fault Data Write Lock Input)
    (C : Client Stmt Result Fault E Data Lock Input Env Ctl Move Event)
    (recorded : Env → Data → Prop) (drawn : Env → Write → Prop) : Prop where
  admits : ∀ {e d s}, recorded e d → S.admits s (C.draw e).1 d
  exec : ∀ {e d s r ws w}, recorded e d → S.exec s (C.draw e).1 d = .ok (r, ws) → w ∈ ws →
    drawn (C.draw e).2 w
  apply : ∀ {e d w}, recorded e d → drawn e w → recorded e (S.apply w d)
  draw_recorded : ∀ {e d}, recorded e d → recorded (C.draw e).2 d
  draw_drawn : ∀ {e w}, drawn e w → drawn (C.draw e).2 w
  event_recorded : ∀ {e d x e'}, C.event e x = some e' → recorded e d → recorded e' d
  event_drawn : ∀ {e w x e'}, C.event e x = some e' → drawn e w → drawn e' w
  move_recorded : ∀ {d l e c m e' c' d'}, C.move d l e c m = some (e', c') → recorded e d' →
    recorded e' d'
  move_drawn : ∀ {d l e c m e' c' w}, C.move d l e c m = some (e', c') → drawn e w → drawn e' w

namespace State
variable {S : Store Stmt Result Fault Data Write Lock Input}
  {C : Client Stmt Result Fault E Data Lock Input Env Ctl Move Event}

variable {recorded : Env → Data → Prop} {drawn : Env → Write → Prop}
  {Same : Lock → Data → Data → Prop} {reads : Stmt → Lock → Prop}
  {touches : Write → Lock → Prop} {frozen : Lock → Data → Prop}

/-- No row is locked twice, and every open transaction replays on the data
committed now. -/
structure Replayable (S : Store Stmt Result Fault Data Write Lock Input)
    (C : Client Stmt Result Fault E Data Lock Input Env Ctl Move Event)
    (recorded : Env → Data → Prop) (drawn : Env → Write → Prop)
    (s : State Stmt Result Fault E Data Write Lock Env Ctl P) : Prop where
  exclusive : ∀ l p q, (l, p) ∈ s.locks → (l, q) ∈ s.locks → p = q
  recorded : recorded s.env s.data
  drawn : ∀ p tx, (s.session p).tx = some tx → ∀ w ∈ tx.writes, drawn s.env w
  replays : ∀ p tx, (s.session p).tx = some tx → ∃ prog held,
    C.body (s.session p).ctl = some prog ∧ Reaches S s.data prog tx.rest tx.writes held ∧
    ∀ l ∈ held, (l, p) ∈ s.locks

theorem recorded_applyAll (supplies : C.Supplies S recorded drawn) {e : Env} {d : Data}
    {ws : List Write} (known : recorded e d) (news : ∀ w ∈ ws, drawn e w) :
    recorded e (S.applyAll ws d) := by
  induction ws generalizing d with
  | nil => exact known
  | cons w ws ih =>
    exact ih (supplies.apply known (news w (by simp))) fun w' member => news w' (by simp [member])

variable {s : State Stmt Result Fault E Data Write Lock Env Ctl P} {p : P} [DecidableEq P]

theorem committed_update (d : Data) (env : Env) (locks : List (Lock × P))
    (x : Session Stmt Result Fault E Write Ctl) :
    State.committed ⟨d, env, locks, Function.update s.session p x⟩ =
      { s.committed.goto p x.ctl with data := d, env } := by
  simp only [committed, Committed.goto, Committed.mk.injEq, true_and]
  exact Function.comp_update (fun x : Session Stmt Result Fault E Write Ctl => x.ctl) ..

theorem goto_self (a : Committed Data Env Ctl P) : a.goto p (a.ctl p) = a := by
  simp only [Committed.goto, Function.update_eq_self]

/-- Ending a transaction, with or without an effect on what the others guard,
leaves every other transaction replayable. -/
theorem Replayable.close (inv : Replayable S C recorded drawn s)
    (lawful : S.Lawful Same reads touches frozen)
    (ready : ∀ c prog, C.body c = some prog → prog.Guarded S []) {c : Ctl} {d : Data}
    (known : recorded s.env d)
    (same : ∀ q l, q ≠ p → (l, q) ∈ s.locks ∨ frozen l s.data → Same l s.data d) :
    Replayable S C recorded drawn { s.close p c with data := d } where
  exclusive l q r hq hr :=
    inv.exclusive l q r (List.mem_of_mem_filter hq) (List.mem_of_mem_filter hr)
  recorded := known
  drawn q tx isOpen := by
    by_cases self : q = p
    · subst self
      simp [State.close] at isOpen
    · exact inv.drawn q tx (by simpa [State.close, self] using isOpen)
  replays q tx isOpen := by
    by_cases self : q = p
    · subst self
      simp [State.close] at isOpen
    · have isOpen' : (s.session q).tx = some tx := by simpa [State.close, self] using isOpen
      obtain ⟨prog, held, body, run, locked⟩ := inv.replays q tx isOpen'
      refine ⟨prog, held, by simpa [State.close, self] using body, ?_, ?_⟩
      · exact run.transfer lawful (ready _ _ body) fun l h => same q l self (h.imp_left (locked l))
      · exact fun l member => by simpa [State.close, self] using locked l member

/-- Rolling back changes nothing but the session's control. -/
theorem Replayable.abandon (inv : Replayable S C recorded drawn s)
    (lawful : S.Lawful Same reads touches frozen)
    (ready : ∀ c prog, C.body c = some prog → prog.Guarded S []) (c : Ctl) :
    Replayable S C recorded drawn (s.close p c) :=
  inv.close lawful ready (d := s.data) inv.recorded fun _ l _ _ => lawful.same_refl l _

/-- What another session holds, a committing transaction has not written. -/
theorem Replayable.commit (inv : Replayable S C recorded drawn s)
    (lawful : S.Lawful Same reads touches frozen) (supplies : C.Supplies S recorded drawn)
    (ready : ∀ c prog, C.body c = some prog → prog.Guarded S [])
    {tx : Open Stmt Result Fault E Write Ctl} (isOpen : (s.session p).tx = some tx) (c : Ctl) :
    Replayable S C recorded drawn { s.close p c with data := S.applyAll tx.writes s.data } := by
  obtain ⟨prog, held, body, run, locked⟩ := inv.replays p tx isOpen
  refine inv.close lawful ready
    (recorded_applyAll supplies inv.recorded (inv.drawn p tx isOpen)) ?_
  intro q l other guarded
  refine Reaches.frame_applyAll lawful fun w member touched => ?_
  have mine := run.writes_held lawful (ready _ _ body) w member l touched
  rcases guarded with theirs | absent
  · exact other (inv.exclusive l q p theirs (locked l mine))
  · exact run.not_frozen lawful l mine absent

theorem Replayable.begin (inv : Replayable S C recorded drawn s)
    {prog : Program Stmt Result Fault E Ctl} (body : C.body (s.session p).ctl = some prog) :
    Replayable S C recorded drawn { s with
      session := Function.update s.session p ⟨(s.session p).ctl, some ⟨prog, []⟩⟩ } where
  exclusive := inv.exclusive
  recorded := inv.recorded
  drawn q tx isOpen := by
    by_cases self : q = p
    · subst self
      simp only [Function.update_self, Option.some.injEq] at isOpen
      subst isOpen
      simp
    · exact inv.drawn q tx (by simpa [self] using isOpen)
  replays q tx isOpen := by
    by_cases self : q = p
    · subst self
      simp only [Function.update_self, Option.some.injEq] at isOpen
      subst isOpen
      exact ⟨prog, [], by simpa using body, .start, by simp⟩
    · simpa [self] using inv.replays q tx (by simpa [self] using isOpen)

variable [DecidableEq Lock]

/-- A statement extends its own replay; the locks it takes were free. -/
theorem Replayable.exec (inv : Replayable S C recorded drawn s)
    (supplies : C.Supplies S recorded drawn) {stmt : Stmt} {onFault : Fault → E}
    {next : Result stmt → Program Stmt Result Fault E Ctl} {ws more : List Write}
    {r : Result stmt} (isOpen : (s.session p).tx = some ⟨.exec stmt onFault next, ws⟩)
    (ran : S.exec stmt (C.draw s.env).1 (S.applyAll ws s.data) = .ok (r, more))
    (free : (S.gain stmt r).all (fun l => !s.locked p l)) :
    Replayable S C recorded drawn { s with
      env := (C.draw s.env).2
      locks := s.locks ++ (S.gain stmt r).map (·, p)
      session := Function.update s.session p ⟨(s.session p).ctl, some ⟨next r, ws ++ more⟩⟩ } := by
  have view := recorded_applyAll supplies inv.recorded (inv.drawn p _ isOpen)
  have others : ∀ l ∈ S.gain stmt r, ∀ q, (l, q) ∈ s.locks → q = p := by
    intro l gained q taken
    have unlocked := List.all_eq_true.mp free l gained
    by_contra other
    simp only [locked, Bool.not_eq_true', List.any_eq_false] at unlocked
    exact unlocked (l, q) taken (by simp [other])
  refine ⟨?_, supplies.draw_recorded inv.recorded, ?_, ?_⟩
  · intro l q q' hq hq'
    simp only [List.mem_append, List.mem_map, Prod.mk.injEq] at hq hq'
    rcases hq with old | ⟨_, gained, rfl, rfl⟩ <;> rcases hq' with old' | ⟨_, gained', same, rfl⟩
    · exact inv.exclusive l q q' old old'
    · exact others l (same ▸ gained') q old
    · exact (others _ gained q' old').symm
    · rfl
  · intro q tx open'
    by_cases self : q = p
    · subst self
      simp only [Function.update_self, Option.some.injEq] at open'
      subst open'
      intro w member
      rcases List.mem_append.mp member with old | new
      · exact supplies.draw_drawn (inv.drawn q _ isOpen w old)
      · exact supplies.exec view ran new
    · exact fun w member => supplies.draw_drawn
        (inv.drawn q tx (by simpa [self] using open') w member)
  · intro q tx open'
    by_cases self : q = p
    · subst self
      simp only [Function.update_self, Option.some.injEq] at open'
      subst open'
      obtain ⟨prog, held, body, run, locked⟩ := inv.replays q _ isOpen
      refine ⟨prog, held ++ S.gain stmt r, by simpa using body,
        run.exec (supplies.admits view) ran, ?_⟩
      intro l member
      rcases List.mem_append.mp member with old | new
      · exact List.mem_append_left _ (locked l old)
      · exact List.mem_append_right _ (List.mem_map_of_mem new)
    · obtain ⟨prog, held, body, run, locked⟩ := inv.replays q tx (by simpa [self] using open')
      exact ⟨prog, held, by simpa [self] using body, run,
        fun l member => List.mem_append_left _ (locked l member)⟩

theorem Replayable.move (inv : Replayable S C recorded drawn s)
    (supplies : C.Supplies S recorded drawn) {m : Move} {env : Env} {c : Ctl}
    (moved : C.move s.data (s.locked p) s.env (s.session p).ctl m = some (env, c)) :
    Replayable S C recorded drawn
      { s with env, session := Function.update s.session p { ctl := c } } where
  exclusive := inv.exclusive
  recorded := supplies.move_recorded moved inv.recorded
  drawn q tx isOpen := by
    by_cases self : q = p
    · subst self
      simp at isOpen
    · exact fun w member => supplies.move_drawn moved
        (inv.drawn q tx (by simpa [self] using isOpen) w member)
  replays q tx isOpen := by
    by_cases self : q = p
    · subst self
      simp at isOpen
    · simpa [self] using inv.replays q tx (by simpa [self] using isOpen)

/-- A commit leaves what the session's body, run alone on the committed data, leaves. -/
theorem Replayable.commits (inv : Replayable S C recorded drawn s)
    {t : State Stmt Result Fault E Data Write Lock Env Ctl P}
    (stepped : s.step S C (.commit p) = some t) : ∃ prog, C.body (s.session p).ctl = some prog ∧
      prog.Completes S s.data t.data (t.session p).ctl := by
  simp only [step] at stepped
  split at stepped <;> try contradiction
  rename_i c ws isOpen
  cases Option.some.inj stepped
  obtain ⟨prog, held, body, run, _⟩ := inv.replays p _ isOpen
  refine ⟨prog, body, run.completes ⟨rfl, ?_⟩⟩
  simp [State.close]

/-- One scheduler step keeps the replay invariant and is, on the committed side,
a stutter or one indivisible step. -/
theorem step_refines (lawful : S.Lawful Same reads touches frozen)
    (supplies : C.Supplies S recorded drawn)
    (ready : ∀ c prog, C.body c = some prog → prog.Guarded S [])
    {t : State Stmt Result Fault E Data Write Lock Env Ctl P}
    (inv : Replayable S C recorded drawn s) {action : Action Fault Move Event P}
    (stepped : s.step S C action = some t) :
    Replayable S C recorded drawn t ∧
      (t.committed = s.committed ∨ Committed.Step S C s.committed t.committed) := by
  cases action with
  | begin p =>
    simp only [step] at stepped
    split at stepped <;> try contradiction
    cases Option.some.inj stepped
    refine ⟨inv.begin ‹_›, .inl ?_⟩
    rw [committed_update]
    exact goto_self (p := p) s.committed
  | exec p =>
    simp only [step] at stepped
    split at stepped <;> try contradiction
    split at stepped <;> try contradiction
    split at stepped <;> try contradiction
    cases Option.some.inj stepped
    refine ⟨inv.exec supplies ‹_› ‹_› ‹_›, .inr ?_⟩
    rw [committed_update]
    exact (goto_self (p := p) s.committed).symm ▸ .draw
  | fault p x =>
    simp only [step] at stepped
    split at stepped <;> try contradiction
    cases Option.some.inj stepped
    obtain ⟨prog, held, body, run, _⟩ := inv.replays p _ ‹_›
    refine ⟨inv.abandon lawful ready _, .inr ?_⟩
    rw [close, committed_update]
    exact .fail body (run.fails (.inl ⟨x, rfl⟩))
  | rollback p =>
    simp only [step] at stepped
    split at stepped <;> try contradiction
    cases Option.some.inj stepped
    obtain ⟨prog, held, body, run, _⟩ := inv.replays p _ ‹_›
    refine ⟨inv.abandon lawful ready _, .inr ?_⟩
    rw [close, committed_update]
    exact .fail body (run.fails rfl)
  | commit p =>
    simp only [step] at stepped
    split at stepped <;> try contradiction
    rename_i c ws isOpen
    cases Option.some.inj stepped
    obtain ⟨prog, held, body, run, _⟩ := inv.replays p _ isOpen
    refine ⟨inv.commit lawful supplies ready isOpen c, .inr ?_⟩
    rw [close, committed_update]
    exact .commit body (run.completes ⟨rfl, rfl⟩)
  | crash p =>
    cases Option.some.inj stepped
    refine ⟨inv.abandon lawful ready _, .inr ?_⟩
    rw [close, committed_update]
    exact .crash
  | move p m =>
    simp only [step] at stepped
    split at stepped <;> try contradiction
    obtain ⟨⟨env, c⟩, moved, rfl⟩ := Option.map_eq_some_iff.mp stepped
    refine ⟨inv.move supplies moved, .inr ?_⟩
    rw [committed_update]
    exact .move moved
  | event e =>
    obtain ⟨env, happened, rfl⟩ := Option.map_eq_some_iff.mp stepped
    refine ⟨⟨inv.exclusive, supplies.event_recorded happened inv.recorded, ?_, inv.replays⟩,
      .inr (.event happened)⟩
    exact fun p tx isOpen w member =>
      supplies.event_drawn happened (inv.drawn p tx isOpen w member)

/-- Every interleaved run is, on the committed side, a run of indivisible
transactions. -/
theorem run_refines (lawful : S.Lawful Same reads touches frozen)
    (supplies : C.Supplies S recorded drawn)
    (ready : ∀ c prog, C.body c = some prog → prog.Guarded S [])
    {t : State Stmt Result Fault E Data Write Lock Env Ctl P}
    (inv : Replayable S C recorded drawn s) (run : Relation.ReflTransGen (Next S C) s t) :
    Replayable S C recorded drawn t ∧
      Relation.ReflTransGen (Committed.Step S C) s.committed t.committed := by
  induction run with
  | refl => exact ⟨inv, .refl⟩
  | tail _ last ih =>
    obtain ⟨action, stepped⟩ := last
    obtain ⟨inv', same | one⟩ := step_refines lawful supplies ready ih.1 stepped
    · exact ⟨inv', same ▸ ih.2⟩
    · exact ⟨inv', ih.2.tail one⟩

theorem run_append (first rest : List (Action Fault Move Event P)) :
    s.run S C (first ++ rest) = (s.run S C first).bind fun t => t.run S C rest :=
  List.foldlM_append

theorem reaches_of_run {actions : List (Action Fault Move Event P)}
    {t : State Stmt Result Fault E Data Write Lock Env Ctl P}
    (ran : s.run S C actions = some t) : Relation.ReflTransGen (Next S C) s t := by
  induction actions generalizing s with
  | nil =>
    cases ran
    exact .refl
  | cons action actions ih =>
    simp only [run, List.foldlM_cons, Option.bind_eq_bind] at ran
    obtain ⟨u, stepped, rest⟩ := Option.bind_eq_some_iff.mp ran
    exact .head ⟨action, stepped⟩ (ih rest)

/-- A run whose states all satisfy `holds` meets what `holds` implies of a step. -/
theorem reaches_of_runWhile {holds : State Stmt Result Fault E Data Write Lock Env Ctl P → Bool}
    {Meets : Committed Data Env Ctl P → Committed Data Env Ctl P → Prop}
    (meets : ∀ s t : State Stmt Result Fault E Data Write Lock Env Ctl P,
      holds s → holds t → Meets s.committed t.committed)
    {actions : List (Action Fault Move Event P)}
    {t : State Stmt Result Fault E Data Write Lock Env Ctl P} (start : holds s)
    (ran : s.runWhile holds S C actions = some t) :
    Relation.ReflTransGen (fun s t => Next S C s t ∧ Meets s.committed t.committed) s t := by
  induction actions generalizing s with
  | nil =>
    cases ran
    exact .refl
  | cons action actions ih =>
    simp only [runWhile, List.foldlM_cons, Option.bind_eq_bind] at ran
    obtain ⟨u, checked, rest⟩ := Option.bind_eq_some_iff.mp ran
    obtain ⟨stepped, still⟩ := Option.filter_eq_some_iff.mp checked
    exact .head ⟨⟨action, stepped⟩, meets s u start still⟩ (ih still rest)

end State
end Locking
