import Mathlib.Data.List.Basic
import Mathlib.Logic.Function.Basic

/-! Queues that redeliver, as their workers see them, and one that hands a message out until an
attempt completes it or a limit is reached. Messages are numbered in the order they are sent. -/
namespace Redelivery

/-- What a worker is told with a message. -/
structure Metadata where
  retryCount : Nat
  retryLimit : Nat

/-- A queue service, by what its operations may turn a state into. -/
structure Service (Q : Type) where
  start : Q
  fetch : Q → Nat → Metadata → Q → Prop
  complete : Q → Nat → Q → Prop
  fail : Q → Nat → Q → Prop
  /-- What it does by itself: an attempt expires, a message is set aside or deleted. -/
  work : Q → Q → Prop
  completed : Q → Nat → Prop

/-- A message becomes completed by a worker that completes it, and by nothing else. -/
structure Service.Honest {Q : Type} (service : Service Q) : Prop where
  start : ∀ i, ¬ service.completed service.start i
  fetch : ∀ {q q' i j metadata}, service.fetch q i metadata q' → service.completed q' j →
    service.completed q j
  complete : ∀ {q q' i j}, service.complete q i q' → service.completed q' j →
    service.completed q j ∨ j = i
  fail : ∀ {q q' i j}, service.fail q i q' → service.completed q' j → service.completed q j
  work : ∀ {q q' j}, service.work q q' → service.completed q' j → service.completed q j

inductive Phase where
  | created
  | retry
  | active
  | completed
  | failed
  deriving DecidableEq

structure Progress where
  phase : Phase := .created
  retryCount : Nat := 0
  deriving DecidableEq

namespace Progress

/-- Handing out a message counts a retry, unless it is the first time. -/
def fetch (p : Progress) : Option Progress :=
  match p.phase with
  | .created => some { p with phase := .active }
  | .retry => some { p with phase := .active, retryCount := p.retryCount + 1 }
  | _ => none

/-- Completing or failing a message that is not handed out has no effect. -/
def complete (p : Progress) : Progress :=
  if p.phase = .active then { p with phase := .completed } else p

def fail (limit : Nat) (p : Progress) : Progress :=
  if p.phase = .active then { p with phase := if p.retryCount < limit then .retry else .failed }
  else p

variable {p p' : Progress} {limit : Nat}

theorem fetch_active (fetched : p.fetch = some p') : p'.phase = .active := by
  unfold fetch at fetched
  split at fetched <;> cases fetched
  · rfl
  · rfl

theorem fail_completed (completed : (p.fail limit).phase = .completed) : p.phase = .completed := by
  unfold fail at completed
  split at completed
  · dsimp only at completed
    split at completed <;> cases completed
  · exact completed

end Progress

/-- The messages' progress. -/
abbrev Queue := Nat → Progress

/-- The service of a queue with so many retries, in which an attempt may expire at any time. -/
def queue (limit : Nat) : Service Queue where
  start _ := {}
  fetch q i metadata q' := metadata.retryLimit = limit ∧ ∃ p, (q i).fetch = some p ∧
    metadata.retryCount = p.retryCount ∧ q' = Function.update q i p
  complete q i q' := q' = Function.update q i (q i).complete
  fail q i q' := q' = Function.update q i ((q i).fail limit)
  work q q' := ∃ i, q' = Function.update q i ((q i).fail limit)
  completed q i := (q i).phase = .completed

section Queue
variable {limit i j : Nat} {q : Queue} {p : Progress}

theorem completed_update (completed : (Function.update q i p j).phase = .completed)
    (before : p.phase = .completed → (q i).phase = .completed) : (q j).phase = .completed := by
  by_cases mine : j = i
  · subst mine
    rw [Function.update_self] at completed
    exact before completed
  · rwa [Function.update_of_ne mine] at completed

theorem queue_honest (limit : Nat) : (queue limit).Honest where
  start i completed := by cases completed
  fetch := by
    rintro q q' i j metadata ⟨-, p, fetched, -, rfl⟩ completed
    apply completed_update completed
    intro done
    cases (Progress.fetch_active fetched).symm.trans done
  complete := by
    rintro q q' i j rfl completed
    by_cases mine : j = i
    · exact .inr mine
    · left
      have kept : (Function.update q i (q i).complete j).phase = .completed := completed
      rwa [Function.update_of_ne mine] at kept
  fail := by
    rintro q q' i j rfl completed
    exact completed_update completed Progress.fail_completed
  work := by
    rintro q q' j ⟨i, rfl⟩ completed
    exact completed_update completed Progress.fail_completed

end Queue

end Redelivery
