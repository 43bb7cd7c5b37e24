import Mathlib.Data.Fintype.Card
import Mathlib.Logic.Relation

/-! Deep copies of objects that may be shared or refer to each other in a circle. An object
gets its copy before its fields are walked, and one that has a copy is not walked again:
what a walk may do to the copies is one relation, which loops and nested walks compose. -/
namespace DeepCopy
variable {A N E : Type}

/-- The copies made so far, by the objects they are made of. -/
abbrev Copies (A N : Type) := A → Option N

/-- The objects a walk may still enter. -/
def pending [Fintype A] (made : Copies A N) : Nat :=
  (Finset.univ.filter fun a => (made a).isNone).card

/-- What a walk does that may write the copies of `own` and makes copies of others: each is
complete, and what it refers to has one too. -/
structure Grown (copy : A → N) (refers : A → A → Prop) (own : A → Prop)
    (made made' : Copies A N) : Prop where
  kept : ∀ a node, ¬ own a → made a = some node → made' a = some node
  grows : ∀ a, made a ≠ none → made' a ≠ none
  fresh : ∀ a node, ¬ own a → made a = none → made' a = some node →
    node = copy a ∧ ∀ b, refers a b → made' b ≠ none

namespace Grown
variable {copy : A → N} {refers : A → A → Prop} {own : A → Prop}
  {made made' made'' : Copies A N} {a : A}

theorem refl : Grown copy refers own made made where
  kept := fun _ _ _ here => here
  grows := fun _ here => here
  fresh := by
    intro a node _ none here
    cases none.symm.trans here

theorem trans (first : Grown copy refers own made made')
    (second : Grown copy refers own made' made'') : Grown copy refers own made made'' where
  kept := fun a node other here => second.kept a node other (first.kept a node other here)
  grows := fun a here => second.grows a (first.grows a here)
  fresh := by
    intro a node other none here
    cases middle : made' a with
    | none => exact second.fresh a node other middle here
    | some early =>
      obtain ⟨complete, referred⟩ := first.fresh a early other none middle
      have same := (second.kept a early other middle).symm.trans here
      constructor
      · exact (Option.some.inj same).symm.trans complete
      · intro b refer
        exact second.grows b (referred b refer)

theorem mono {own' : A → Prop} (grown : Grown copy refers own made made')
    (more : ∀ a, own a → own' a) : Grown copy refers own' made made' where
  kept := fun a node other => grown.kept a node (mt (more a) other)
  grows := grown.grows
  fresh := fun a node other => grown.fresh a node (mt (more a) other)

/-- From nothing, all that is reached has its complete copy. -/
theorem reached {root : A} (grown : Grown copy refers (fun _ => False) (fun _ => none) made)
    (start : made root ≠ none) (path : Relation.ReflTransGen refers root a) :
    made a = some (copy a) := by
  have complete : ∀ b, made b ≠ none →
      made b = some (copy b) ∧ ∀ c, refers b c → made c ≠ none := by
    intro b here
    obtain ⟨node, found⟩ := Option.ne_none_iff_exists'.mp here
    obtain ⟨rfl, referred⟩ := grown.fresh b node id rfl found
    exact ⟨found, referred⟩
  have here : made a ≠ none := by
    induction path with
    | refl => exact start
    | tail _ refer ih => exact (complete _ ih).2 _ refer
  exact (complete a here).1

variable [Fintype A]

theorem pending_le (grown : Grown copy refers own made made') : pending made' ≤ pending made := by
  apply Finset.card_le_card
  intro a
  simp only [Finset.mem_filter, Finset.mem_univ, true_and, Option.isNone_iff_eq_none]
  intro later
  by_contra here
  exact grown.grows a here later

end Grown

/-- The loop over the fields of `a`, each of which adds to its copy. -/
theorem loop [Fintype A] {copy : A → N} {refers : A → A → Prop}
    {step : Copies A N → E → Option (Copies A N)} {add : N → E → N}
    {refer : E → A → Prop} {a : A} {bound : Nat}
    (each : ∀ made e node, made a = some node → pending made ≤ bound → ∃ made',
      step made e = some made' ∧ Grown copy refers (· = a) made made' ∧
        made' a = some (add node e) ∧ ∀ b, refer e b → made' b ≠ none)
    (es : List E) {made : Copies A N} {node : N} (here : made a = some node)
    (fits : pending made ≤ bound) : ∃ made', es.foldlM step made = some made' ∧
      Grown copy refers (· = a) made made' ∧ made' a = some (es.foldl add node) ∧
        ∀ e ∈ es, ∀ b, refer e b → made' b ≠ none := by
  induction es generalizing made node with
  | nil => exact ⟨made, rfl, .refl, here, by simp⟩
  | cons e es ih =>
    obtain ⟨mid, stepped, grown, added, first⟩ := each made e node here fits
    obtain ⟨last, ran, later, whole, rest⟩ := ih added (grown.pending_le.trans fits)
    refine ⟨last, ?_, grown.trans later, whole, ?_⟩
    · rw [List.foldlM_cons, stepped]
      exact ran
    · intro e' member b refer
      rcases List.mem_cons.mp member with rfl | inside
      · exact later.grows b (first b refer)
      · exact rest e' inside b refer

variable [DecidableEq A]

def put (made : Copies A N) (a : A) (node : N) : Copies A N := Function.update made a (some node)

@[simp] theorem put_same {made : Copies A N} {a : A} {node : N} : put made a node a = some node :=
  Function.update_self a _ made

@[simp] theorem put_other {made : Copies A N} {a b : A} {node : N} (other : b ≠ a) :
    put made a node b = made b :=
  Function.update_of_ne other _ made

namespace Grown
variable {copy : A → N} {refers : A → A → Prop} {own : A → Prop}
  {made made' : Copies A N} {a : A}

/-- A walker writes its own copy. -/
theorem write (node : N) (mine : own a) (here : made a ≠ none) :
    Grown copy refers own made (put made a node) where
  kept := by
    intro b other outside here
    have apart : b ≠ a := fun same => outside (same ▸ mine)
    rwa [put_other apart]
  grows := by
    intro b here
    by_cases same : b = a
    · subst same
      simp
    · rwa [put_other same]
  fresh := by
    intro b other _ none found
    have apart : b ≠ a := fun same => here (same ▸ none)
    rw [put_other apart, none] at found
    cases found

/-- An object is walked: its copy is begun, and complete in the end. -/
theorem enter {start : N} (new : made a = none)
    (walked : Grown copy refers (· = a) (put made a start) made') (whole : made' a = some (copy a))
    (referred : ∀ b, refers a b → made' b ≠ none) :
    Grown copy refers (fun _ => False) made made' where
  kept := by
    intro b node _ here
    have apart : b ≠ a := by
      rintro rfl
      cases new.symm.trans here
    exact walked.kept b node apart (by rwa [put_other apart])
  grows := by
    intro b here
    have apart : b ≠ a := fun same => here (same ▸ new)
    exact walked.grows b (by rwa [put_other apart])
  fresh := by
    intro b node _ none here
    by_cases same : b = a
    · subst same
      exact ⟨Option.some.inj (here.symm.trans whole), referred⟩
    · exact walked.fresh b node same (by rwa [put_other same]) here

end Grown

theorem pending_put [Fintype A] {made : Copies A N} {a : A} {node : N} (new : made a = none) :
    pending (put made a node) < pending made := by
  apply Finset.card_lt_card
  constructor
  · intro b
    simp only [Finset.mem_filter, Finset.mem_univ, true_and]
    intro later
    by_cases same : b = a
    · subst same
      simp [new]
    · rwa [put_other same] at later
  · intro all
    have member := all (Finset.mem_filter.mpr ⟨Finset.mem_univ a, by simp [new]⟩)
    simp at member

/-- An object is entered, and its fields are walked one by one. -/
theorem visit [Fintype A] {copy : A → N} {refers : A → A → Prop}
    {step : Copies A N → E → Option (Copies A N)} {add : N → E → N}
    {refer : E → A → Prop} {a : A} {bound : Nat}
    (each : ∀ made e node, made a = some node → pending made ≤ bound → ∃ made',
      step made e = some made' ∧ Grown copy refers (· = a) made made' ∧
        made' a = some (add node e) ∧ ∀ b, refer e b → made' b ≠ none)
    {es : List E} {start : N} (whole : es.foldl add start = copy a)
    (covers : ∀ b, refers a b → ∃ e ∈ es, refer e b) {made : Copies A N} (new : made a = none)
    (fits : pending made ≤ bound + 1) : ∃ made', es.foldlM step (put made a start) = some made' ∧
      Grown copy refers (fun _ => False) made made' ∧ made' a ≠ none := by
  have begun : pending (put made a start) ≤ bound := by
    have fewer : pending (put made a start) < pending made := pending_put new
    omega
  obtain ⟨made', ran, grown, ended, referred⟩ := loop each es put_same begun
  refine ⟨made', ran, grown.enter new (ended.trans (congrArg some whole)) ?_, by simp [ended]⟩
  intro b refer
  obtain ⟨e, member, here⟩ := covers b refer
  exact referred e member b here

end DeepCopy
