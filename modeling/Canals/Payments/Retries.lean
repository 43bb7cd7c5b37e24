import Canals.Payments.Attempts
import Canals.Resilience.CircuitBreaker
import Mathlib.Data.ENat.Lattice

/-! How often `withRetry` runs its operation, which run it finishes with, and what
an open breaker puts an end to. -/
namespace Canals
open Provider (Payload)
variable {ε α : Type} {maxAttempts : Rat} {isTransient : Except ε α → Bool}
  {operation : Nat → Except ε α}

/-- The position of the first outcome that is not transient, `⊤` if there is none. -/
noncomputable def decisivePosition (isTransient : Except ε α → Bool)
    (operation : Nat → Except ε α) : ℕ∞ :=
  sInf {position | ∃ number : Nat, position = number ∧ 1 ≤ number ∧
    isTransient (operation number) = false}

theorem le_decisivePosition {number : Nat}
    (before : ∀ earlier, 1 ≤ earlier → earlier < number → isTransient (operation earlier)) :
    (number : ℕ∞) ≤ decisivePosition isTransient operation := by
  apply le_sInf
  rintro _ ⟨other, rfl, otherPositive, otherDecides⟩
  have later : number ≤ other := by
    by_contra earlier
    rw [before other otherPositive (by omega)] at otherDecides
    contradiction
  exact_mod_cast later

theorem decisivePosition_eq {number : Nat} (positive : 1 ≤ number)
    (decides : isTransient (operation number) = false)
    (before : ∀ earlier, 1 ≤ earlier → earlier < number → isTransient (operation earlier)) :
    decisivePosition isTransient operation = number := by
  apply le_antisymm
  · exact sInf_le ⟨number, rfl, positive, decides⟩
  · exact le_decisivePosition before

/-- The loop from `attempt` on, with a turn left at least: it makes `made` attempts, all but the
last of them transient, and stops because the turns are over or the last is not. -/
theorem retryFrom_runs {n : Nat} (turns attempt : Nat) (left : attempt + turns = n) :
    ∃ made, made ≤ turns ∧
      retryFrom n isTransient operation (turns + 1) attempt =
        (List.range' attempt (made + 1), (operation (attempt + made)).mapError .thrown) ∧
      (∀ number, attempt ≤ number → number < attempt + made → isTransient (operation number)) ∧
      (made = turns ∨ isTransient (operation (attempt + made)) = false) := by
  induction turns generalizing attempt with
  | zero =>
      have last : ((attempt : Rat) = n) := by exact_mod_cast left
      refine ⟨0, Nat.le_refl 0, ?_, ?_, .inl rfl⟩
      · rw [retryFrom]
        simp [last]
      · intro number from_ before
        omega
  | succ turns ih =>
      have notLast : ¬((attempt : Rat) = n) := by
        intro last
        have : attempt = n := by exact_mod_cast last
        omega
      cases transient : isTransient (operation attempt) with
      | false =>
          refine ⟨0, Nat.zero_le _, ?_, ?_, .inr transient⟩
          · rw [retryFrom]
            simp [transient]
          · intro number from_ before
            omega
      | true =>
          obtain ⟨made, few, ran, before, stops⟩ := ih (attempt + 1) (by omega)
          have shift : attempt + 1 + made = attempt + (made + 1) := by omega
          rw [shift] at ran before stops
          refine ⟨made + 1, by omega, ?_, ?_, ?_⟩
          · rw [retryFrom]
            simp [transient, notLast, ran, List.range'_succ]
          · intro number from_ earlier
            cases Nat.eq_or_lt_of_le from_ with
            | inl same => exact same ▸ transient
            | inr later => exact before number later earlier
          · cases stops with
            | inl all => exact .inl (by omega)
            | inr decides => exact .inr decides

/-- Whatever `maxAttempts`, the attempts go up, and each but the last was transient. -/
theorem retryFrom_ordered (turns attempt : Nat) :
    (∀ number ∈ (retryFrom maxAttempts isTransient operation turns attempt).1,
      attempt ≤ number) ∧
    (retryFrom maxAttempts isTransient operation turns attempt).1.Pairwise
      fun earlier later => earlier < later ∧ isTransient (operation earlier) := by
  induction turns generalizing attempt with
  | zero => exact ⟨fun number member => absurd member List.not_mem_nil, .nil⟩
  | succ turns ih =>
      obtain ⟨above, ordered⟩ := ih (attempt + 1)
      rw [retryFrom]
      dsimp only
      split
      · exact ⟨fun number member => (List.mem_singleton.mp member).ge, List.pairwise_singleton _ _⟩
      · rename_i goes
        have transient : isTransient (operation attempt) := by
          cases again : isTransient (operation attempt) with
          | false => simp [again] at goes
          | true => rfl
        constructor
        · intro number member
          cases List.mem_cons.mp member with
          | inl same => exact same.ge
          | inr rest => exact Nat.le_of_succ_le (above number rest)
        · apply List.Pairwise.cons _ ordered
          intro number member
          exact ⟨above number member, transient⟩

/-- What attempt `number` of `runAttempts` meets: `execute` finds the breaker as `found number`
when it is called, at `now number`, and runs the attempt or rejects it. -/
def throughBreaker (options : CircuitBreakerOptions) (found : Nat → CircuitBreaker)
    (now : Nat → Rat) (operation : Nat → AttemptOutcome) (number : Nat) : AttemptOutcome :=
  match ((found number).execute options (now number)).1 with
  | .error _ => .circuitOpen
  | .ok _ => operation number

/-- The calls of `execute` that `runAttempts` makes, by number. -/
def HttpPaymentGateway.calls (gateway : HttpPaymentGateway) (payload : Payload)
    (outcomes : Nat → AttemptOutcome) : List Nat :=
  (withRetry gateway.attempts isTransientAttempt
    fun number => ((outcomes number).attempt payload number).2).1

/-- What the breaker rejects is not attempted again. -/
theorem HttpPaymentGateway.calls_rejected {gateway : HttpPaymentGateway} {payload : Payload}
    {outcomes : Nat → AttemptOutcome} {number : Nat} (rejected : outcomes number = .circuitOpen)
    (called : number ∈ gateway.calls payload outcomes) :
    ∀ other ∈ gateway.calls payload outcomes, other ≤ number := by
  obtain ⟨_, ordered⟩ := @retryFrom_ordered _ _ gateway.attempts isTransientAttempt
    (fun number => ((outcomes number).attempt payload number).2) gateway.attempts.floor.toNat 1
  rw [List.pairwise_iff_getElem] at ordered
  intro other otherCalled
  obtain ⟨i, here, same⟩ := List.mem_iff_getElem.mp called
  obtain ⟨j, there, rfl⟩ := List.mem_iff_getElem.mp otherCalled
  rcases Nat.lt_trichotomy i j with before | rfl | after
  · have transient : isTransientAttempt ((outcomes number).attempt payload number).2 :=
      same ▸ (ordered i j here there before).2
    rw [rejected] at transient
    contradiction
  · exact same.le
  · exact same ▸ (ordered j i there here after).1.le

/-- Whatever is transient, `withRetry` makes its attempts up to the first that is not, and `n` at
most, and comes to what the last of them came to. Through the breaker, a rejected call is
the last. -/
theorem withRetry_runs {n : Nat} (positive : 1 ≤ n) :
    (let ran := withRetry n isTransient operation
     (ran.1.length : ℕ∞) = min (n : ℕ∞) (decisivePosition isTransient operation) ∧
     ran.1 = List.range' 1 ran.1.length ∧
     ran.2 = (operation ran.1.length).mapError .thrown ∧
     ran.2 ≠ .error .exhausted) ∧
    ∀ (gateway : HttpPaymentGateway) (payload : Payload) (options : CircuitBreakerOptions)
      (found : Nat → CircuitBreaker) (now : Nat → Rat) (outcomes : Nat → AttemptOutcome),
      let calls := gateway.calls payload (throughBreaker options found now outcomes)
      ∀ number ∈ calls, ∀ error, ((found number).execute options (now number)).1 = .error error →
        ∀ other ∈ calls, other ≤ number := by
  constructor
  · obtain ⟨turns, rfl⟩ : ∃ turns, n = turns + 1 := ⟨n - 1, by omega⟩
    obtain ⟨made, few, ran, before, stops⟩ := @retryFrom_runs _ _ isTransient operation
      (turns + 1) turns 1 (Nat.add_comm 1 turns)
    rw [Nat.add_comm 1 made] at ran before stops
    have count : withRetry ((turns + 1 : Nat) : Rat) isTransient operation =
        (List.range' 1 (made + 1), (operation (made + 1)).mapError .thrown) := by
      rw [withRetry, ← Rat.intCast_natCast, Rat.floor_intCast, Int.toNat_natCast,
        Rat.intCast_natCast, ran]
    rw [count]
    dsimp only
    rw [List.length_range']
    refine ⟨?_, rfl, rfl, ?_⟩
    · cases stops with
      | inl all =>
          subst all
          exact (min_eq_left (le_decisivePosition before)).symm
      | inr decides =>
          rw [decisivePosition_eq (Nat.le_add_left 1 made) decides before]
          exact (min_eq_right (by exact_mod_cast Nat.succ_le_succ few)).symm
    · cases operation (made + 1) with
      | ok value => rintro ⟨⟩
      | error e => rintro ⟨⟩
  · intro gateway payload options found now outcomes calls number called error rejected
    apply HttpPaymentGateway.calls_rejected _ called
    rw [throughBreaker, rejected]

/-- A timeout, a value to be tried again and a rejection that is final. -/
def mixedOutcomes : Nat → Except AttemptError Nat
  | 1 => .error .timeout
  | 2 => .ok 503
  | _ => .error .circuitOpen

def isTransientStatus : Except AttemptError Nat → Bool
  | .ok status => 500 ≤ status
  | .error e => isRetryable e

/-- Five attempts reach the rejection, two return the value they end with. -/
theorem withRetry_runs_mixed :
    withRetry (5 : Nat) isTransientStatus mixedOutcomes =
      ([1, 2, 3], .error (.thrown .circuitOpen)) ∧
    withRetry (2 : Nat) isTransientStatus mixedOutcomes = ([1, 2], .ok 503) ∧
    ((3 : Nat) : ℕ∞) = min ((5 : Nat) : ℕ∞) (decisivePosition isTransientStatus mixedOutcomes) ∧
    ((2 : Nat) : ℕ∞) =
      min ((2 : Nat) : ℕ∞) (decisivePosition isTransientStatus mixedOutcomes) := by
  have five : withRetry (5 : Nat) isTransientStatus mixedOutcomes =
      ([1, 2, 3], .error (.thrown .circuitOpen)) := rfl
  have two : withRetry (2 : Nat) isTransientStatus mixedOutcomes = ([1, 2], .ok 503) := rfl
  have count : ((withRetry (5 : Nat) isTransientStatus mixedOutcomes).1.length : ℕ∞) =
      min ((5 : Nat) : ℕ∞) (decisivePosition isTransientStatus mixedOutcomes) :=
    (withRetry_runs (by decide)).1.1
  have count' : ((withRetry (2 : Nat) isTransientStatus mixedOutcomes).1.length : ℕ∞) =
      min ((2 : Nat) : ℕ∞) (decisivePosition isTransientStatus mixedOutcomes) :=
    (withRetry_runs (by decide)).1.1
  rw [five] at count
  rw [two] at count'
  exact ⟨five, two, count, count'⟩

end Canals
