import Canals.Database.Sequence
import Canals.System.Steps

/-! Runs of the system, statement by statement, from a stocked database without
orders. Each is, on what is committed, a run of indivisible steps. -/
namespace Canals
open Locking

/-- Inventory rows of which nothing is reserved yet. -/
structure Stock where
  inventory : AList fun _ : Uuid × Uuid => Balance
  unreserved : ∀ {key b}, inventory.lookup key = some b → 0 ≤ b.available ∧ b.reserved = 0

/-- The units a row starts with. -/
def Stock.units (stock : Stock) (key : Uuid × Uuid) : Int :=
  ((stock.inventory.lookup key).map (·.available)).getD 0

abbrev Processes (P : Type) :=
  State Sql Sql.Result DbError Thrown Db Write Lock Env Ctl P

/-- All processes idle, no order and no charge yet. -/
def initial (P : Type) (stock : Stock) (clock : Timestamptz) : Processes P where
  data := { inventory := stock.inventory }
  env := { clock }
  session _ := { ctl := .idle }

section
variable {P : Type} [DecidableEq P] {catalogue : Catalogue} {sha256 : String → String}
  {stock : Stock} {clock : Timestamptz}

theorem moves_last {d : Db} {env env' : Env} {ctl ctl' : Ctl}
    (moved : Moves d env ctl env' ctl') : env'.lastMovementId = env.lastMovementId := by
  cases moved <;> rfl

theorem event_last {env env' : Env} {e : Event} (happened : env.event sha256 e = some env') :
    env.lastMovementId ≤ env'.lastMovementId := by
  cases e with
  | tick clock => cases happened; exact Nat.le_refl _
  | deliver request stamp =>
    simp only [Env.event] at happened
    split at happened <;> cases happened
    exact Nat.le_refl _
  | fire key stamp =>
    obtain ⟨_, -, rfl⟩ := Option.map_eq_some_iff.mp happened
    exact Nat.le_refl _
  | drop request => cases happened; exact Nat.le_refl _

theorem system_supplies : (system catalogue sha256).Supplies store
    (fun e => Recorded e.lastMovementId) (fun e => Drawn e.lastMovementId) := by
  apply supplies_of_sequence fun _ => ⟨rfl, rfl⟩
  · intro _ _ _ _ _ _ _ moved
    exact Nat.le_of_eq (moves_last (moves_of_move moved)).symm
  · intro _ _ _ happened
    exact event_last happened

theorem system_guarded (ctl : Ctl) (body : Tx Ctl) (here : ctl.body = some body) :
    body.Guarded store [] := by
  cases ctl <;> cases here
  case allocating allocation =>
    exact Program.guarded_bind (guarded_attemptCandidate _ _) fun _ _ _ => trivial
  case saving save stored =>
    exact Program.guarded_bind (guarded_savePayment _ _) fun _ _ _ => trivial
  case settling saga chargeResult call =>
    exact Program.guarded_bind call.guarded fun _ _ _ => trivial
  case resolving call rest =>
    exact Program.guarded_bind call.guarded fun _ _ _ => trivial

omit [DecidableEq P] in
theorem initial_replayable : State.Replayable store (system catalogue sha256)
    (fun e => Recorded e.lastMovementId) (fun e => Drawn e.lastMovementId)
    (initial P stock clock) where
  exclusive := nofun
  recorded := nofun
  drawn := nofun
  replays := nofun

/-- A run of scheduler steps whose committed sides meet a restriction. -/
def Runs (catalogue : Catalogue) (sha256 : String → String)
    (Meets : World P → World P → Prop) (stock : Stock) (clock : Timestamptz) (s : Processes P) :
    Prop :=
  Relation.ReflTransGen (fun s t => State.Next store (system catalogue sha256) s t ∧
    Meets s.committed t.committed) (initial P stock clock) s

variable {Meets : World P → World P → Prop} {s t : Processes P}

/-- Each scheduler step of a run is, on what is committed, none or one indivisible step. -/
theorem Runs.step (run : Runs catalogue sha256 Meets stock clock s)
    (next : State.Next store (system catalogue sha256) s t) :
    t.committed = s.committed ∨ Does sha256 s.committed t.committed := by
  have inv := (State.run_refines store_lawful system_supplies system_guarded initial_replayable
    (run.lift id fun _ _ step => step.1)).1
  obtain ⟨action, stepped⟩ := next
  exact (State.step_refines store_lawful system_supplies system_guarded inv stepped).2.imp_right
    does_of_step

/-- What holds in a reached state and survives every step from there holds ever after. -/
theorem Runs.stable {I : World P → Prop} (run : Runs catalogue sha256 Meets stock clock s)
    (more : Relation.ReflTransGen (fun s t => State.Next store (system catalogue sha256) s t ∧
      Meets s.committed t.committed) s t) (start : I s.committed)
    (step : ∀ {u : Processes P} {b}, Runs catalogue sha256 Meets stock clock u →
      I u.committed → Does sha256 u.committed b → Meets u.committed b → I b) :
    I t.committed := by
  induction more with
  | refl => exact start
  | @tail u t before last ih =>
    rcases Runs.step (run.trans before) last.1 with same | does
    · exact same ▸ ih
    · exact step (run.trans before) ih does last.2

/-- What holds at the start and survives every step holds throughout. -/
theorem Runs.invariant {I : World P → Prop} (run : Runs catalogue sha256 Meets stock clock s)
    (start : I (initial P stock clock).committed)
    (step : ∀ {u : Processes P} {b}, Runs catalogue sha256 Meets stock clock u →
      I u.committed → Does sha256 u.committed b → Meets u.committed b → I b) :
    I s.committed :=
  Runs.stable .refl run start step

/-- A property of control points that no step takes away. -/
theorem Runs.forall_ctl {holds : Ctl → Prop}
    (run : Runs catalogue sha256 Meets stock clock s) (idle : holds .idle)
    (commit : ∀ {d after ctl ctl'}, Commits d ctl after ctl' → holds ctl → holds ctl')
    (rewind : ∀ {ctl ctl'}, Rewinds ctl ctl' → holds ctl → holds ctl')
    (move : ∀ {d env ctl env' ctl'}, Moves d env ctl env' ctl' → holds ctl → holds ctl')
    (p : P) : holds (s.session p).ctl := by
  refine run.invariant (I := fun a => ∀ p, holds (a.ctl p)) (fun _ => idle) ?_ p
  intro u b _ inv does _
  cases does with
  | commit commits => exact Committed.forall_goto (commit commits (inv _)) fun q _ => inv q
  | rewind rewinds => exact Committed.forall_goto (rewind rewinds (inv _)) fun q _ => inv q
  | move moves => exact Committed.forall_goto (move moves (inv _)) fun q _ => inv q
  | happen _ => exact inv

/-- A run under no restriction. -/
abbrev Reachable (catalogue : Catalogue) (sha256 : String → String) (stock : Stock)
    (clock : Timestamptz) (s : Processes P) : Prop :=
  Runs catalogue sha256 (fun _ _ => True) stock clock s

theorem reachable_of_run {actions : List (Action DbError Move Event P)}
    (ran : (initial P stock clock).run store (system catalogue sha256) actions = some s) :
    Reachable catalogue sha256 stock clock s :=
  (State.reaches_of_run ran).lift id fun _ _ step => ⟨step, trivial⟩

end

end Canals
