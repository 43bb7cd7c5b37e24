import Mathlib.Algebra.Order.Ring.Nat
import Mathlib.Data.Nat.Log
import Mathlib.Tactic.Common

/-! Natural numbers in a binary floating-point format: rounded to the nearest
number of the format's precision, ties to even, and infinite where the rounded
number reaches the power of two behind the format's largest. -/
namespace BinaryFormat

/-- The number of units nearest to `n`; of two equally near, the even one. -/
def roundUnits (n unit : Nat) : Nat :=
  let q := n / unit
  let r := n % unit
  if 2 * r < unit then q
  else if unit < 2 * r then q + 1
  else if q % 2 = 0 then q
  else q + 1

/-- What a number is rounded to at a precision of `p` bits. -/
def rounded (p n : Nat) : Nat :=
  let unit := 2 ^ (n.log2 + 1 - p)
  roundUnits n unit * unit

/-- The nearest finite number of precision `p` below `2 ^ e`; `none` is infinity. -/
def nearest (p e n : Nat) : Option Nat := if rounded p n < 2 ^ e then some (rounded p n) else none

/-- The least number that is rounded to infinity: half a unit below the power of two. -/
def overflow (p e : Nat) : Nat := 2 ^ e - 2 ^ (e - p - 1)

variable {p e n unit : Nat}

theorem roundUnits_le : roundUnits n unit ≤ n / unit + 1 := by
  rw [roundUnits]
  split
  · omega
  · split
    · omega
    · split <;> omega

theorem le_roundUnits : n / unit ≤ roundUnits n unit := by
  rw [roundUnits]
  split
  · omega
  · split
    · omega
    · split <;> omega

@[simp] theorem roundUnits_one : roundUnits n 1 = n := by
  rw [roundUnits, Nat.mod_one, Nat.div_one]
  rfl

/-- The last unit below an odd count is rounded up from its middle on. -/
theorem roundUnits_odd_iff {half q : Nat} (odd : q % 2 = 1) (positive : 0 < half) :
    roundUnits n (2 * half) ≤ q ↔ n < (2 * half) * q + half := by
  have parts := Nat.div_add_mod n (2 * half)
  have small := Nat.mod_lt n (show 0 < 2 * half by omega)
  have order : n / (2 * half) < q ∨ n / (2 * half) = q ∨ q < n / (2 * half) :=
    Nat.lt_trichotomy _ _
  rcases order with less | same | more
  · have bound : 2 * half * (n / (2 * half) + 1) ≤ 2 * half * q := Nat.mul_le_mul_left _ less
    rw [Nat.mul_add_one] at bound
    have near : roundUnits n (2 * half) ≤ n / (2 * half) + 1 := roundUnits_le
    constructor
    · intro _
      omega
    · intro _
      omega
  · rw [roundUnits, same]
    rw [same] at parts
    split
    · omega
    · split
      · omega
      · rw [if_neg (by omega)]
        omega
  · have bound : 2 * half * (q + 1) ≤ 2 * half * (n / (2 * half)) := Nat.mul_le_mul_left _ more
    rw [Nat.mul_add_one] at bound
    have near : n / (2 * half) ≤ roundUnits n (2 * half) := le_roundUnits
    constructor
    · intro _
      omega
    · intro _
      omega

theorem rounded_of_lt (positive : 0 < p) (small : n < 2 ^ p) : rounded p n = n := by
  have none : n.log2 + 1 - p = 0 := by
    by_cases zero : n = 0
    · subst zero
      rw [Nat.log2_zero]
      omega
    · have length := (Nat.log2_lt zero).mpr small
      omega
  rw [rounded, none, Nat.pow_zero, roundUnits_one, Nat.mul_one]

theorem nearest_of_lt (positive : 0 < p) (wide : p ≤ e) (small : n < 2 ^ p) :
    nearest p e n = some n := by
  rw [nearest, rounded_of_lt positive small, if_pos]
  exact small.trans_le (Nat.pow_le_pow_right two_pos wide)

/-- Rounding stays within the powers of two around a number. -/
theorem rounded_le : rounded p n ≤ 2 ^ (n.log2 + 1) := by
  have small : n < 2 ^ (n.log2 + 1) := Nat.lt_log2_self
  rw [rounded]
  by_cases short : n.log2 + 1 ≤ p
  · rw [Nat.sub_eq_zero_of_le short, Nat.pow_zero, roundUnits_one, Nat.mul_one]
    exact small.le
  · have split : 2 ^ (n.log2 + 1) = 2 ^ p * 2 ^ (n.log2 + 1 - p) := by
      rw [← Nat.pow_add]
      congr 1
      omega
    have units : n / 2 ^ (n.log2 + 1 - p) < 2 ^ p := by
      apply Nat.div_lt_of_lt_mul
      rw [Nat.mul_comm, ← split]
      exact small
    calc roundUnits n (2 ^ (n.log2 + 1 - p)) * 2 ^ (n.log2 + 1 - p)
        ≤ 2 ^ p * 2 ^ (n.log2 + 1 - p) :=
          Nat.mul_le_mul_right _ (roundUnits_le.trans units)
      _ = 2 ^ (n.log2 + 1) := split.symm

theorem le_rounded (positive : 0 < p) (some : n ≠ 0) : 2 ^ n.log2 ≤ rounded p n := by
  have large : 2 ^ n.log2 ≤ n := Nat.log2_self_le some
  have split : 2 ^ n.log2 =
      2 ^ (n.log2 - (n.log2 + 1 - p)) * 2 ^ (n.log2 + 1 - p) := by
    rw [← Nat.pow_add]
    congr 1
    omega
  have units : 2 ^ (n.log2 - (n.log2 + 1 - p)) ≤ n / 2 ^ (n.log2 + 1 - p) := by
    rw [Nat.le_div_iff_mul_le (Nat.two_pow_pos _), ← split]
    exact large
  calc 2 ^ n.log2 = 2 ^ (n.log2 - (n.log2 + 1 - p)) * 2 ^ (n.log2 + 1 - p) := split
    _ ≤ rounded p n := Nat.mul_le_mul_right _ (units.trans le_roundUnits)

theorem rounded_lt_iff (positive : 0 < p) (wide : p < e) :
    rounded p n < 2 ^ e ↔ n < overflow p e := by
  rw [overflow]
  have small : n < 2 ^ (n.log2 + 1) := Nat.lt_log2_self
  have half : 2 ^ (e - p - 1) < 2 ^ (e - 1) := Nat.pow_lt_pow_right (by decide) (by omega)
  have double : 2 ^ e = 2 ^ (e - 1) + 2 ^ (e - 1) := by
    rw [← Nat.two_mul, ← Nat.pow_succ']
    congr 1
    omega
  have order : n.log2 + 1 < e ∨ n.log2 + 1 = e ∨ e < n.log2 + 1 := Nat.lt_trichotomy _ _
  rcases order with short | same | long
  · have below : 2 ^ (n.log2 + 1) ≤ 2 ^ (e - 1) := Nat.pow_le_pow_right (by decide) (by omega)
    have near := rounded_le (p := p) (n := n)
    constructor
    · intro _
      omega
    · intro _
      omega
  · have unit : 2 ^ (n.log2 + 1 - p) = 2 * 2 ^ (e - p - 1) := by
      rw [same, ← Nat.pow_succ']
      congr 1
      omega
    have whole : 2 ^ e = 2 ^ p * (2 * 2 ^ (e - p - 1)) := by
      rw [← Nat.pow_succ', ← Nat.pow_add]
      congr 1
      omega
    have odd : (2 ^ p - 1) % 2 = 1 := by
      obtain ⟨k, rfl⟩ := Nat.exists_eq_succ_of_ne_zero positive.ne'
      have even := Nat.pow_succ' (n := k) (m := 2)
      have some := Nat.two_pow_pos k
      omega
    have count := roundUnits_odd_iff (n := n) odd (Nat.two_pow_pos (e - p - 1))
    have some := Nat.two_pow_pos p
    have shape : 2 * 2 ^ (e - p - 1) * (2 ^ p - 1) + 2 * 2 ^ (e - p - 1) = 2 ^ e := by
      rw [← Nat.mul_add_one, Nat.sub_add_cancel some, whole, Nat.mul_comm]
    have fewer : rounded p n < 2 ^ e ↔ roundUnits n (2 * 2 ^ (e - p - 1)) ≤ 2 ^ p - 1 := by
      rw [rounded, unit, whole, Nat.mul_lt_mul_right (Nat.mul_pos two_pos (Nat.two_pow_pos _))]
      omega
    rw [fewer, count]
    omega
  · have some : n ≠ 0 := by
      rintro rfl
      rw [Nat.log2_zero] at long
      omega
    have above : 2 ^ e ≤ 2 ^ n.log2 := Nat.pow_le_pow_right (by decide) (by omega)
    have near := le_rounded positive some
    have large : 2 ^ n.log2 ≤ n := Nat.log2_self_le some
    have gap : 2 ^ e - 2 ^ (e - p - 1) ≤ 2 ^ e := Nat.sub_le _ _
    constructor
    · intro finite
      exact absurd finite (above.trans near).not_gt
    · intro below
      exact absurd (below.trans_le gap) (above.trans large).not_gt

theorem nearest_eq (positive : 0 < p) (wide : p < e) : nearest p e n =
    if n < overflow p e then some (rounded p n) else none := by
  rw [nearest]
  by_cases finite : rounded p n < 2 ^ e
  · rw [if_pos finite, if_pos ((rounded_lt_iff positive wide).mp finite)]
  · rw [if_neg finite, if_neg ((rounded_lt_iff positive wide).not.mp finite)]

end BinaryFormat
