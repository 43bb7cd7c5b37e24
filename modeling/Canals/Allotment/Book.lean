import Mathlib.Algebra.Group.Pi.Basic
import Mathlib.Algebra.Order.Group.Int
import Mathlib.Logic.Function.Basic
import Mathlib.Logic.Relation

/-! Goods promised out of stock. A claim is staked at one site, where what it
asks for is free; it is held until it is taken or given up, once and for good. -/
namespace Allotment
variable {C S G : Type}

inductive Stage where
  | held
  | taken
  | givenUp
  deriving DecidableEq

structure Claim (S G : Type) where
  site : S
  amount : G → Int
  stage : Stage

/-- A claim later on: the same but for its stage, which is final once it is not held. -/
def Claim.Leads (claim later : Claim S G) : Prop :=
  later.site = claim.site ∧ later.amount = claim.amount ∧
    (claim.stage ≠ .held → later.stage = claim.stage)

theorem Claim.Leads.refl (claim : Claim S G) : claim.Leads claim := ⟨rfl, rfl, fun _ => rfl⟩

theorem Claim.Leads.trans {first second third : Claim S G} (before : first.Leads second)
    (after : second.Leads third) : first.Leads third := by
  refine ⟨after.1.trans before.1, after.2.1.trans before.2.1, fun closed => ?_⟩
  have same := before.2.2 closed
  exact (after.2.2 (same ▸ closed)).trans same

/-- The claims, and the units of each good at each site by what became of them. -/
@[ext]
structure Book (C S G : Type) where
  claims : C → Option (Claim S G)
  free : S → G → Int
  held : S → G → Int
  taken : S → G → Int

variable [DecidableEq C] [DecidableEq S]

namespace Book

def stake (b : Book C S G) (c : C) (site : S) (amount : G → Int) : Book C S G where
  claims := Function.update b.claims c (some ⟨site, amount, .held⟩)
  free := Function.update b.free site (b.free site - amount)
  held := Function.update b.held site (b.held site + amount)
  taken := b.taken

def take (b : Book C S G) (c : C) (site : S) (amount : G → Int) : Book C S G where
  claims := Function.update b.claims c (some ⟨site, amount, .taken⟩)
  free := b.free
  held := Function.update b.held site (b.held site - amount)
  taken := Function.update b.taken site (b.taken site + amount)

def giveUp (b : Book C S G) (c : C) (site : S) (amount : G → Int) : Book C S G where
  claims := Function.update b.claims c (some ⟨site, amount, .givenUp⟩)
  free := Function.update b.free site (b.free site + amount)
  held := Function.update b.held site (b.held site - amount)
  taken := b.taken

end Book

inductive Step : Book C S G → Book C S G → Prop where
  | stake {b c site amount} : b.claims c = none → (∀ g, 0 ≤ amount g ∧ amount g ≤ b.free site g) →
      Step b (b.stake c site amount)
  | take {b c site amount} : b.claims c = some ⟨site, amount, .held⟩ →
      Step b (b.take c site amount)
  | giveUp {b c site amount} : b.claims c = some ⟨site, amount, .held⟩ →
      Step b (b.giveUp c site amount)

section Steps
variable {b b' : Book C S G} {c : C} {claim : Claim S G}

theorem Step.leads (step : Step b b') (found : b.claims c = some claim) :
    ∃ later, b'.claims c = some later ∧ claim.Leads later := by
  have other : ∀ {c' : C} {new : Claim S G}, c ≠ c' →
      Function.update b.claims c' (some new) c = some claim := by
    intro c' new apart
    rw [Function.update_of_ne apart, found]
  cases step with
  | @stake c' site amount absent _ =>
    refine ⟨claim, other ?_, .refl claim⟩
    rintro rfl
    cases absent.symm.trans found
  | @take c' site amount held | @giveUp c' site amount held =>
    by_cases mine : c = c'
    · subst mine
      cases held.symm.trans found
      exact ⟨_, Function.update_self .., rfl, rfl, fun closed => absurd rfl closed⟩
    · exact ⟨claim, other mine, .refl claim⟩

/-- No claim is lost or changed, and none is decided twice. -/
theorem steps_lead (steps : Relation.ReflTransGen Step b b') (found : b.claims c = some claim) :
    ∃ later, b'.claims c = some later ∧ claim.Leads later := by
  induction steps with
  | refl => exact ⟨claim, found, .refl claim⟩
  | tail _ last ih =>
    obtain ⟨mid, there, before⟩ := ih
    obtain ⟨later, here, after⟩ := last.leads there
    exact ⟨later, here, before.trans after⟩

/-- The units of a good at a site, whatever became of them. -/
def Book.total (b : Book C S G) (site : S) (g : G) : Int :=
  b.free site g + b.held site g + b.taken site g

omit [DecidableEq C] in
theorem update_apply {f : S → G → Int} (site site' : S) (row : G → Int) (g : G) :
    Function.update f site row site' g = if site' = site then row g else f site' g := by
  by_cases same : site' = site
  · subst same
    simp
  · simp [same]

theorem Step.total (step : Step b b') (site : S) (g : G) : b'.total site g = b.total site g := by
  cases step with
  | stake _ _ | take _ | giveUp _ =>
    simp only [Book.total, Book.stake, Book.take, Book.giveUp, update_apply, Pi.add_apply,
      Pi.sub_apply]
    split
    · rename_i same
      subst same
      omega
    · rfl

theorem steps_total (steps : Relation.ReflTransGen Step b b') (site : S) (g : G) :
    b'.total site g = b.total site g := by
  induction steps with
  | refl => rfl
  | tail _ last ih => rw [last.total, ih]

end Steps

end Allotment
