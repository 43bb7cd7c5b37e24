import Mathlib.Algebra.Order.Floor.Ring
import Mathlib.Data.Int.Log
import Mathlib.Data.Rat.Floor
import Mathlib.Tactic.Linarith

/-! Rational numbers in a binary floating-point format: rounded to the nearest multiple
of a unit, ties to even, where the unit follows the size of the number. -/
namespace BinaryFormat

/-- The nearest integer; of two equally near, the even one. -/
def roundEven (x : Rat) : Int :=
  let fraction := x - ⌊x⌋
  if fraction < 1 / 2 then ⌊x⌋
  else if 1 / 2 < fraction then ⌊x⌋ + 1
  else if ⌊x⌋ % 2 = 0 then ⌊x⌋
  else ⌊x⌋ + 1

/-- The unit in the last of `p` places, and at least `2 ^ least`. -/
def unitOf (p : Nat) (least : Int) (q : Rat) : Rat := 2 ^ max (Int.log 2 |q| + 1 - p) least

/-- The nearest number with `p` places; numbers of every size are finite here. -/
def nearestRat (p : Nat) (least : Int) (q : Rat) : Rat :=
  roundEven (q / unitOf p least q) * unitOf p least q

variable {p : Nat} {least : Int} {q : Rat}

theorem abs_roundEven_sub (x : Rat) : |(roundEven x : Rat) - x| ≤ 1 / 2 := by
  have low := Int.floor_le x
  have high := Int.lt_floor_add_one x
  rw [roundEven, abs_le]
  split
  · constructor <;> linarith
  · split
    · push_cast
      constructor <;> linarith
    · split
      · constructor <;> linarith
      · push_cast
        constructor <;> linarith

theorem unitOf_pos : 0 < unitOf p least q := zpow_pos two_pos _

theorem abs_nearestRat_sub : |nearestRat p least q - q| ≤ unitOf p least q / 2 := by
  have positive : 0 < unitOf p least q := unitOf_pos
  have near := abs_roundEven_sub (q / unitOf p least q)
  have scaled : nearestRat p least q - q =
      (roundEven (q / unitOf p least q) - q / unitOf p least q) * unitOf p least q := by
    rw [nearestRat, sub_mul, div_mul_cancel₀ _ positive.ne']
  rw [scaled, abs_mul, abs_of_pos positive]
  calc |(roundEven (q / unitOf p least q) : Rat) - q / unitOf p least q| * unitOf p least q
      ≤ 1 / 2 * unitOf p least q := mul_le_mul_of_nonneg_right near positive.le
    _ = unitOf p least q / 2 := by ring

theorem nearestRat_zero : nearestRat p least 0 = 0 := by
  rw [nearestRat, zero_div]
  have zero : roundEven 0 = 0 := by
    rw [roundEven]
    simp
  rw [zero, Int.cast_zero, zero_mul]

/-- Numbers of a certain size are rounded by at most half of its unit. -/
theorem nearestRat_error {k : Int} (small : |q| ≤ 2 ^ k) (fits : least ≤ k + 1 - p) :
    |nearestRat p least q - q| ≤ 2 ^ (k - p) := by
  by_cases zero : q = 0
  · subst zero
    rw [nearestRat_zero, sub_zero, abs_zero]
    exact (zpow_pos two_pos _).le
  · have size : Int.log 2 |q| ≤ k := by
      have bound := Int.log_mono_right (b := 2) (abs_pos.mpr zero) small
      rwa [show ((2 : Rat) ^ k) = ((2 : Nat) : Rat) ^ k by norm_num,
        Int.log_zpow Nat.one_lt_two] at bound
    have unit : unitOf p least q ≤ 2 ^ (k + 1 - p) :=
      zpow_le_zpow_right₀ one_le_two (max_le (by omega) fits)
    have half : (2 : Rat) ^ (k + 1 - p) / 2 = 2 ^ (k - p) := by
      rw [show k + 1 - (p : Int) = (k - p) + 1 by ring, zpow_add_one₀ two_ne_zero]
      ring
    calc |nearestRat p least q - q| ≤ unitOf p least q / 2 := abs_nearestRat_sub
      _ ≤ 2 ^ (k + 1 - p) / 2 := by linarith
      _ = 2 ^ (k - p) := half

theorem nearestRat_nonneg (least_q : 0 ≤ q) : 0 ≤ nearestRat p least q := by
  have positive : 0 < unitOf p least q := unitOf_pos
  have units : 0 ≤ ⌊q / unitOf p least q⌋ := Int.floor_nonneg.mpr (div_nonneg least_q positive.le)
  have rounded : 0 ≤ roundEven (q / unitOf p least q) := by
    rw [roundEven]
    split
    · exact units
    · split
      · omega
      · split <;> omega
  exact mul_nonneg (Int.cast_nonneg rounded) positive.le

theorem roundEven_intCast (n : Int) : roundEven (n : Rat) = n := by
  rw [roundEven]
  simp

/-- A multiple of its unit is kept as it is. -/
theorem nearestRat_of_multiple {n : Int} (multiple : q = n * unitOf p least q) :
    nearestRat p least q = q := by
  have whole : q / unitOf p least q = n := by
    rw [div_eq_iff unitOf_pos.ne']
    exact multiple
  rw [nearestRat, whole, roundEven_intCast]
  exact multiple.symm

/-- Below a power of two the unit is half of what it is there. -/
theorem nearestRat_error_of_lt {k : Int} (small : |q| < 2 ^ k) (fits : least ≤ k - p) :
    |nearestRat p least q - q| ≤ 2 ^ (k - 1 - p) := by
  by_cases zero : q = 0
  · subst zero
    rw [nearestRat_zero, sub_zero, abs_zero]
    exact (zpow_pos two_pos _).le
  · have size : Int.log 2 |q| < k := by
      rw [← Int.lt_zpow_iff_log_lt Nat.one_lt_two (abs_pos.mpr zero)]
      exact_mod_cast small
    have unit : unitOf p least q ≤ 2 ^ (k - p) :=
      zpow_le_zpow_right₀ one_le_two (max_le (by omega) fits)
    have half : (2 : Rat) ^ (k - p) / 2 = 2 ^ (k - 1 - p) := by
      rw [show k - (p : Int) = (k - 1 - p) + 1 by ring, zpow_add_one₀ two_ne_zero]
      ring
    calc |nearestRat p least q - q| ≤ unitOf p least q / 2 := abs_nearestRat_sub
      _ ≤ 2 ^ (k - p) / 2 := by linarith
      _ = 2 ^ (k - 1 - p) := half

end BinaryFormat
