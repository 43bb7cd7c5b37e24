import Mathlib.Data.List.Basic
import Mathlib.Logic.Relation

/-! Calls that keep the answers they get under a key, for later calls of the same key. The
calls may overlap, and what is kept may be forgotten at any time: nothing is assumed of it
but that it was an answer once. -/

/-- A `Map`, in the order in which its keys were inserted. -/
abbrev InsertionMap (K V : Type) := List (K × V)

namespace InsertionMap
variable {K V : Type} [DecidableEq K] {entries : InsertionMap K V} {k : K} {v : V}

def get (entries : InsertionMap K V) (k : K) : Option V :=
  (entries.find? fun e => e.1 = k).map Prod.snd

/-- A key that is there keeps its place. -/
def set : InsertionMap K V → K → V → InsertionMap K V
  | [], k, v => [(k, v)]
  | e :: rest, k, v => if e.1 = k then (k, v) :: rest else e :: set rest k v

def delete (entries : InsertionMap K V) (k : K) : InsertionMap K V :=
  entries.filter fun e => e.1 ≠ k

theorem mem_of_get (found : get entries k = some v) : (k, v) ∈ entries := by
  obtain ⟨⟨k', v'⟩, here, rfl⟩ := Option.map_eq_some_iff.mp found
  have same : k' = k := by simpa using List.find?_some here
  subst same
  exact List.mem_of_find?_eq_some here

theorem mem_set {e : K × V} (member : e ∈ set entries k v) : e = (k, v) ∨ e ∈ entries := by
  induction entries with
  | nil => exact .inl (List.mem_singleton.mp member)
  | cons e' rest ih =>
    rw [set] at member
    split at member
    · rcases List.mem_cons.mp member with here | later
      · exact .inl here
      · exact .inr (List.mem_cons_of_mem _ later)
    · rcases List.mem_cons.mp member with here | later
      · exact .inr (here ▸ List.mem_cons_self)
      · exact (ih later).imp_right (List.mem_cons_of_mem _)

theorem mem_delete {e : K × V} (member : e ∈ delete entries k) : e ∈ entries :=
  (List.mem_filter.mp member).1

end InsertionMap

namespace Memo
variable {A K V E : Type}

/-- A call waits for its answer, to keep it under a key, or has its outcome. -/
inductive Call (A K V E : Type) where
  | waiting (a : A) (k : K)
  | settled (a : A) (outcome : Except E V)

structure State (A K V E : Type) where
  /-- What may be found under a key. -/
  known : K → V → Prop
  calls : List (Call A K V E)

/-- The key of a call, what is asked, and what may be answered. -/
structure Service (A K V E : Type) where
  key : A → Except E K
  asked : A → Prop
  answers : A → Except E V → Prop

variable (service : Service A K V E)

inductive Step : State A K V E → State A K V E → Prop
  | keyless {s : State A K V E} {a : A} {e : E} : service.asked a → service.key a = .error e →
      Step s { s with calls := s.calls ++ [.settled a (.error e)] }
  | hit {s : State A K V E} {a : A} {k : K} {v : V} : service.asked a →
      service.key a = .ok k → s.known k v →
      Step s { s with calls := s.calls ++ [.settled a (.ok v)] }
  | miss {s : State A K V E} {a : A} {k : K} : service.asked a → service.key a = .ok k →
      Step s { s with calls := s.calls ++ [.waiting a k] }
  | answered {s : State A K V E} {i : Nat} {a : A} {k : K} {v : V} :
      s.calls[i]? = some (.waiting a k) → service.answers a (.ok v) →
      Step s {
        known := fun k' v' => s.known k' v' ∨ (k' = k ∧ v' = v)
        calls := s.calls.set i (.settled a (.ok v)) }
  | refused {s : State A K V E} {i : Nat} {a : A} {k : K} {e : E} :
      s.calls[i]? = some (.waiting a k) → service.answers a (.error e) →
      Step s { s with calls := s.calls.set i (.settled a (.error e)) }

def start : State A K V E := ⟨fun _ _ => False, []⟩

/-- What can be reached from nothing. -/
def Reached : State A K V E → Prop := Relation.ReflTransGen (Step service) start

/-- The call was answered itself, or by what another of its key was answered. -/
def Explained (a : A) (outcome : Except E V) : Prop :=
  service.asked a ∧ ((∃ e, service.key a = .error e ∧ outcome = .error e) ∨
    ∃ k, service.key a = .ok k ∧ (service.answers a outcome ∨
      ∃ b v, service.asked b ∧ service.key b = .ok k ∧ service.answers b (.ok v) ∧
        outcome = .ok v))

def Call.Valid : Call A K V E → Prop
  | .waiting a k => service.asked a ∧ service.key a = .ok k
  | .settled a outcome => Explained service a outcome

structure Valid (s : State A K V E) : Prop where
  known : ∀ k v, s.known k v →
    ∃ b, service.asked b ∧ service.key b = .ok k ∧ service.answers b (.ok v)
  calls : ∀ call ∈ s.calls, call.Valid service

variable {service} {s t : State A K V E}

theorem Valid.call (valid : Valid service s) {call : Call A K V E} (new : call.Valid service) :
    Valid service { s with calls := s.calls ++ [call] } where
  known := valid.known
  calls := by
    intro other member
    rcases List.mem_append.mp member with old | last
    · exact valid.calls other old
    · rwa [List.mem_singleton.mp last]

theorem Valid.step (valid : Valid service s) (step : Step service s t) : Valid service t := by
  have settles : ∀ {i a k outcome}, s.calls[i]? = some (.waiting a k) →
      service.answers a outcome → ∀ call ∈ s.calls.set i (.settled a outcome),
        call.Valid service := by
    intro i a k outcome here answer call member
    rcases List.mem_or_eq_of_mem_set member with old | rfl
    · exact valid.calls call old
    · obtain ⟨asked, own⟩ := valid.calls _ (List.mem_of_getElem? here)
      exact ⟨asked, .inr ⟨k, own, .inl answer⟩⟩
  cases step with
  | keyless asked none => exact valid.call ⟨asked, .inl ⟨_, none, rfl⟩⟩
  | hit asked own here =>
    obtain ⟨b, asked', same, answer⟩ := valid.known _ _ here
    exact valid.call ⟨asked, .inr ⟨_, own, .inr ⟨b, _, asked', same, answer, rfl⟩⟩⟩
  | miss asked own => exact valid.call ⟨asked, own⟩
  | answered here answer =>
    refine ⟨?_, settles here answer⟩
    rintro k v (old | ⟨rfl, rfl⟩)
    · exact valid.known k v old
    · obtain ⟨asked, own⟩ := valid.calls _ (List.mem_of_getElem? here)
      exact ⟨_, asked, own, answer⟩
  | refused here answer => exact ⟨valid.known, settles here answer⟩

/-- The outcome of every call in every run is explained. -/
theorem Reached.valid (reached : Reached service s) : Valid service s := by
  induction reached with
  | refl =>
    constructor
    · rintro k v ⟨⟩
    · intro call member
      cases member
  | tail _ step ih => exact ih.step step

theorem Reached.explained (reached : Reached service s) {a : A} {outcome : Except E V}
    (settled : .settled a outcome ∈ s.calls) : Explained service a outcome :=
  reached.valid.calls _ settled

end Memo
