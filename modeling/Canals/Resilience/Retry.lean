import Mathlib.Algebra.Order.Ring.Unbundled.Rat
import Mathlib.Data.List.Basic

/-! `withRetry`: which attempts it makes, and which of them decides. The waits
between them are left out. -/
namespace Canals
variable {ε α : Type}

/-- What the last attempt threw, or the error thrown after the loop. -/
inductive RetryError (ε : Type) where
  | thrown (error : ε)
  | exhausted

/-- The loop with `turns` turns to go: the attempts it makes, and what it comes to. -/
def retryFrom (maxAttempts : Rat) (isTransient : Except ε α → Bool)
    (operation : Nat → Except ε α) : Nat → Nat → List Nat × Except (RetryError ε) α
  | 0, _ => ([], .error .exhausted)
  | turns + 1, attempt =>
    let isLastAttempt : Bool := (attempt : Rat) = maxAttempts
    if isLastAttempt || !isTransient (operation attempt) then
      ([attempt], (operation attempt).mapError .thrown)
    else
      let (attempts, outcome) := retryFrom maxAttempts isTransient operation turns (attempt + 1)
      (attempt :: attempts, outcome)

/-- `operation` gives what each attempt resolves to or throws, by the attempt's number. The
loop has a turn for each whole number from 1 to `maxAttempts`. -/
def withRetry (maxAttempts : Rat) (isTransient : Except ε α → Bool)
    (operation : Nat → Except ε α) : List Nat × Except (RetryError ε) α :=
  retryFrom maxAttempts isTransient operation maxAttempts.floor.toNat 1

variable {maxAttempts : Rat} {isTransient : Except ε α → Bool} {operation : Nat → Except ε α}

theorem retryFrom_length (turns attempt : Nat) :
    (retryFrom maxAttempts isTransient operation turns attempt).1.length ≤ turns := by
  induction turns generalizing attempt with
  | zero => exact Nat.le_refl 0
  | succ turns ih =>
      rw [retryFrom]
      dsimp only
      split
      · exact Nat.succ_le_succ (Nat.zero_le turns)
      · exact Nat.succ_le_succ (ih (attempt + 1))

theorem last_turn {turns attempt : Nat} (left : attempt + turns = maxAttempts.floor.toNat)
    (last : (attempt : Rat) = maxAttempts) : turns = 0 := by
  rw [← last, ← Rat.intCast_natCast, Rat.floor_intCast, Int.toNat_natCast] at left
  omega

/-- The first attempt that is not transient decides, if there is one. -/
theorem retryFrom_decided {turns attempt decisive : Nat}
    (left : attempt + turns = maxAttempts.floor.toNat + 1)
    (found : (List.range' attempt turns).find? (fun a => !isTransient (operation a)) =
      some decisive) :
    (retryFrom maxAttempts isTransient operation turns attempt).2 =
      (operation decisive).mapError .thrown := by
  induction turns generalizing attempt with
  | zero => simp at found
  | succ turns ih =>
      rw [List.range'_succ, List.find?_cons] at found
      rw [retryFrom]
      dsimp only
      cases transient : isTransient (operation attempt) with
      | false =>
          simp only [transient, Bool.not_false, Option.some.injEq] at found
          subst found
          simp
      | true =>
          simp only [transient, Bool.not_true] at found
          split
          · rename_i last
            have next : attempt + turns = maxAttempts.floor.toNat := by omega
            have none := last_turn next (by simpa using last)
            subst none
            simp at found
          · exact ih (by omega) found

/-- Otherwise the loop comes to the outcome of a transient attempt, or to its own error. -/
theorem retryFrom_undecided {turns attempt : Nat}
    (transient : ∀ a ∈ List.range' attempt turns, isTransient (operation a)) :
    (retryFrom maxAttempts isTransient operation turns attempt).2 = .error .exhausted ∨
      ∃ a, isTransient (operation a) ∧
        (retryFrom maxAttempts isTransient operation turns attempt).2 =
          (operation a).mapError .thrown := by
  induction turns generalizing attempt with
  | zero => exact .inl rfl
  | succ turns ih =>
      rw [List.range'_succ] at transient
      have now := transient attempt List.mem_cons_self
      rw [retryFrom]
      dsimp only
      split
      · exact .inr ⟨attempt, now, rfl⟩
      · exact ih fun a member => transient a (List.mem_cons_of_mem attempt member)

end Canals
