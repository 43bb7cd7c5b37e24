import Canals.Database.Lawful
import Canals.Locking.Session

/-! The identity sequence of `inventory_movements`. An environment that only ever
counts it up supplies inputs that every statement admits. -/
namespace Canals
open Locking

variable {E Env Ctl Move Event : Type}
  {C : Client Sql Sql.Result DbError E Db Lock Input Env Ctl Move Event} {last : Env → Nat}

/-- The rows have been given ids the sequence handed out. -/
def Recorded (last : Nat) (d : Db) : Prop := ∀ m ∈ d.movements, m.id ≤ last

def Drawn (last : Nat) (w : Write) : Prop := ∀ m, w = .addMovement m → m.id ≤ last

theorem Recorded.apply {n : Nat} {d : Db} {w : Write} (recorded : Recorded n d)
    (drawn : Drawn n w) : Recorded n (d.apply w) := by
  cases w with
  | addMovement movement =>
    intro m member
    rcases List.mem_append.mp member with old | new
    · exact recorded m old
    · exact drawn m (by rw [List.mem_singleton.mp new])
  | putInventory key balance =>
    simp only [Db.apply]
    split <;> exact recorded
  | _ => exact recorded

theorem Recorded.admits {n : Nat} {d : Db} (recorded : Recorded n d) (s : Sql)
    (clock : Timestamptz) : s.admits ⟨clock, n + 1⟩ d := by
  cases s with
  | insertMovement params =>
    exact Sql.admits_insertMovement.mpr fun m member _ => Nat.lt_succ_of_le (recorded m member)
  | _ => rfl

theorem Sql.exec_drawn {s : Sql} {i : Input} {d : Db} {r : s.Result} {ws : List Write} {w : Write}
    (answered : s.exec i d = .ok (r, ws)) (member : w ∈ ws) : Drawn i.nextval w := by
  rintro m rfl
  cases s <;> simp only [Sql.exec] at answered
  case insertMovement params =>
    cases answered
    cases List.mem_singleton.mp member
    exact Nat.le_refl _
  all_goals
    (repeat' split at answered) <;> cases answered <;> simp at member

theorem supplies_of_sequence
    (draws : ∀ e, (C.draw e).1.nextval = last e + 1 ∧ last (C.draw e).2 = last e + 1)
    (moves : ∀ {d l e c m e' c'}, C.move d l e c m = some (e', c') → last e ≤ last e')
    (events : ∀ {e x e'}, C.event e x = some e' → last e ≤ last e') :
    C.Supplies store (fun e => Recorded (last e)) (fun e => Drawn (last e)) where
  admits {e d s} recorded := by
    have admitted := recorded.admits s (C.draw e).1.clock
    rw [← (draws e).1] at admitted
    exact admitted
  exec {e d s r ws w} _ answered member := by
    have drawn := Sql.exec_drawn answered member
    rwa [(draws e).1, ← (draws e).2] at drawn
  apply recorded drawn := recorded.apply drawn
  draw_recorded {e d} recorded m member := by
    have older := recorded m member
    rw [(draws e).2]
    omega
  draw_drawn {e w} drawn m same := by
    have older := drawn m same
    rw [(draws e).2]
    omega
  event_recorded happened recorded m member :=
    (recorded m member).trans (events happened)
  event_drawn happened drawn m same := (drawn m same).trans (events happened)
  move_recorded moved recorded m member := (recorded m member).trans (moves moved)
  move_drawn moved drawn m same := (drawn m same).trans (moves moved)

end Canals
