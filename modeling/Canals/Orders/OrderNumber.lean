import Canals.Text.Decimal
import Mathlib.Tactic.NormNum

/-! Order numbers, `CNL-<year>-<6 digits>`, and which of them are equal. -/
namespace Canals
open Decimal

/-- The string selected in the year `year` with the value `nextval`. -/
def generateOrderNumber (year nextval : Nat) : String :=
  "CNL-" ++ toString year ++ "-" ++ .ofList (lpad (toString nextval).toList 6 '0')

theorem toList_orderNumber (year nextval : Nat) : (generateOrderNumber year nextval).toList =
    ("CNL-".toList ++ Nat.toDigits 10 year ++ "-".toList) ++
      lpad (Nat.toDigits 10 nextval) 6 '0' := by
  simp [generateOrderNumber]

theorem generateOrderNumber_eq_iff (year year' m n : Nat) :
    generateOrderNumber year m = generateOrderNumber year' n ↔
      year = year' ∧ leading 6 m = leading 6 n := by
  rw [← String.toList_inj, toList_orderNumber, toList_orderNumber, ← lpad_eq_iff]
  constructor
  · intro same
    obtain ⟨years, values⟩ := List.append_inj' same (by rw [lpad_length, lpad_length])
    have digits := List.append_cancel_left (List.append_cancel_right years)
    exact ⟨toDigits_inj digits, values⟩
  · rintro ⟨rfl, values⟩
    rw [values]

/-- Two order numbers differ exactly when their years do, or the six leading digits of their
values: the seventh digit of a value is cut off. -/
theorem generateOrderNumber_ne_iff (year year' m n : Nat) :
    generateOrderNumber year m ≠ generateOrderNumber year' n ↔
      year ≠ year' ∨ leading 6 m ≠ leading 6 n := by
  rw [ne_eq, generateOrderNumber_eq_iff, not_and_or]

/-- The first two values of seven digits give one order number, in any one year. -/
theorem order_number_drawn_twice : (1000000 : Nat) ≠ 1000001 ∧
    generateOrderNumber 2026 1000000 = generateOrderNumber 2026 1000001 := by
  refine ⟨by decide, (generateOrderNumber_eq_iff _ _ _ _).mpr ⟨rfl, ?_⟩⟩
  rw [leading_of_digits (d := 6) (by decide) (by decide) (by decide),
    leading_of_digits (d := 6) (by decide) (by decide) (by decide)]
  norm_num

end Canals
