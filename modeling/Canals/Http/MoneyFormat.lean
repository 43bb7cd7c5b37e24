import Canals.Arithmetic.Rounding
import Canals.Text.Decimal

/-! How the responses show amounts and distances: quotients of numbers, rounded to two
decimals. A quotient is the nearest number there is, so the text is exact only as long as
those numbers are close enough to each other. -/
namespace Canals
open BinaryFormat Decimal

/-- The number nearest to `a / b`. -/
def quotient (a b : Rat) : Rat := nearestRat 53 (-1074) (a / b)

/-- The number nearest to `a * b`. -/
def product (a b : Rat) : Rat := nearestRat 53 (-1074) (a * b)

/-- `Math.round`: of two nearest integers the larger. -/
def round (x : Rat) : Int := ⌊x + 1 / 2⌋

/-- The digits of `toFixed(digits)` before its point is set. -/
def fixedDigits (digits : Nat) (x : Rat) : List Char :=
  let m := Nat.toDigits 10 (round (x * 10 ^ digits)).toNat
  lpad m (max m.length (digits + 1)) '0'

/-- `toFixed` of a number below `10 ^ 21`, for at least one digit. -/
def toFixed (digits : Nat) (x : Rat) : String :=
  let m := fixedDigits digits |x|
  let k := m.length - digits
  String.ofList ((if x < 0 then ['-'] else []) ++ m.take k ++ '.' :: m.drop k)

def formatCentsAsDollars (cents : Int) : String := toFixed 2 (quotient cents 100)

structure DistanceBreakdown where
  meters : Rat
  kilometers : Rat
  miles : Rat
  deriving DecidableEq

def METERS_PER_KILOMETER : Rat := 1000

def METERS_PER_MILE : Rat := nearestRat 53 (-1074) (1609344 / 1000)

/-- `Math.round((meters / unit) * 100) / 100` -/
def hundredths (meters unit : Rat) : Rat := quotient (round (product (quotient meters unit) 100)) 100

def formatDistance (meters : Rat) : DistanceBreakdown where
  meters
  kilometers := hundredths meters METERS_PER_KILOMETER
  miles := hundredths meters METERS_PER_MILE

/-- Whole dollars and two digits of cents. -/
def dollars (cents : Nat) : List Char :=
  Nat.toDigits 10 (cents / 100) ++ '.' :: lpad (Nat.toDigits 10 (cents % 100)) 2 '0'

/-- Up to here an amount is shown as it is. -/
def EXACT_CENTS : Nat := 100 * 2 ^ 46

section Digits
variable {n cents : Nat}

theorem round_eq {x : Rat} (near : |x - n| < 1 / 2) : round x = n := by
  obtain ⟨low, high⟩ := abs_lt.mp near
  rw [round, Int.floor_eq_iff]
  constructor
  · push_cast
    linarith
  · push_cast
    linarith

theorem toDigits_tens {q d : Nat} (small : d < 10) :
    Nat.toDigits 10 (10 * q + d) = if q = 0 then Nat.toDigits 10 d
      else Nat.toDigits 10 q ++ [Nat.digitChar d] := by
  split
  · rename_i zero
    rw [zero, Nat.mul_zero, Nat.zero_add]
  · rename_i some
    rw [← Nat.toDigits_append_toDigits (by decide) (Nat.pos_of_ne_zero some) small,
      Nat.toDigits_of_lt_base small]

theorem lpad_two {tens ones : Nat} (tens_lt : tens < 10) (ones_lt : ones < 10) :
    lpad (Nat.toDigits 10 (10 * tens + ones)) 2 '0' = [Nat.digitChar tens, Nat.digitChar ones] := by
  rw [toDigits_tens ones_lt]
  split
  · rename_i zero
    rw [zero, Nat.toDigits_of_lt_base ones_lt]
    rfl
  · rw [Nat.toDigits_of_lt_base tens_lt]
    rfl

/-- The last two digits stand apart from the digits of the hundreds. -/
theorem lpad_three (cents : Nat) :
    lpad (Nat.toDigits 10 cents) (max (Nat.toDigits 10 cents).length 3) '0' =
      Nat.toDigits 10 (cents / 100) ++ lpad (Nat.toDigits 10 (cents % 100)) 2 '0' := by
  obtain ⟨hundreds, tens, ones, tens_lt, ones_lt, rfl⟩ : ∃ hundreds tens ones : Nat,
      tens < 10 ∧ ones < 10 ∧ cents = 10 * (10 * hundreds + tens) + ones :=
    ⟨cents / 100, cents / 10 % 10, cents % 10, by omega, by omega, by omega⟩
  have front : (10 * (10 * hundreds + tens) + ones) / 100 = hundreds := by omega
  have back : (10 * (10 * hundreds + tens) + ones) % 100 = 10 * tens + ones := by omega
  rw [front, back, lpad_two tens_lt ones_lt]
  by_cases none : hundreds = 0
  · rw [none, Nat.mul_zero, Nat.zero_add, toDigits_tens ones_lt]
    split
    · rename_i zero
      rw [zero, Nat.toDigits_of_lt_base ones_lt]
      rfl
    · rw [Nat.toDigits_of_lt_base tens_lt]
      rfl
  · rw [toDigits_tens ones_lt, if_neg (by omega), toDigits_tens tens_lt, if_neg none,
      List.append_assoc, List.singleton_append]
    have some : 1 ≤ (Nat.toDigits 10 hundreds).length := Nat.length_toDigits_pos
    have long : 3 ≤ (Nat.toDigits 10 hundreds ++
        [Nat.digitChar tens, Nat.digitChar ones]).length := by
      rw [List.length_append, List.length_cons, List.length_singleton]
      omega
    rw [Nat.max_eq_left long, lpad, if_neg (Nat.lt_irrefl _), List.take_length]

/-- A number within half a hundredth of so many cents is written as they are. -/
theorem toFixed_two {x : Rat} (least : 0 ≤ x) (near : |x * 100 - cents| < 1 / 2) :
    toFixed 2 x = String.ofList (dollars cents) := by
  have digits : fixedDigits 2 |x| =
      Nat.toDigits 10 (cents / 100) ++ lpad (Nat.toDigits 10 (cents % 100)) 2 '0' := by
    have units : round (x * 10 ^ 2) = cents := round_eq (by norm_num; exact near)
    rw [abs_of_nonneg least, fixedDigits, units, Int.toNat_natCast, lpad_three]
  have two : (lpad (Nat.toDigits 10 (cents % 100)) 2 '0').length = 2 := lpad_length _ _ _
  simp only [toFixed, digits, if_neg least.not_gt, List.nil_append, List.length_append, two,
    Nat.add_sub_cancel, List.take_left, List.drop_left, dollars]

end Digits

section Amounts
variable {cents : Nat}

theorem quotient_near (small : cents < EXACT_CENTS) :
    |quotient (cents : Int) 100 * 100 - cents| < 1 / 2 := by
  have value : ((cents : Int) : Rat) / 100 < 2 ^ (46 : Int) := by
    rw [div_lt_iff₀ (by norm_num), Int.cast_natCast]
    calc (cents : Rat) < (EXACT_CENTS : Nat) := by exact_mod_cast small
      _ = 2 ^ (46 : Int) * 100 := by norm_num [EXACT_CENTS]
  have positive : 0 ≤ ((cents : Int) : Rat) / 100 := by positivity
  have error : |quotient (cents : Int) 100 - ((cents : Int) : Rat) / 100| ≤ 2 ^ (-8 : Int) := by
    have size : |((cents : Int) : Rat) / 100| < 2 ^ (46 : Int) := by rwa [abs_of_nonneg positive]
    exact (nearestRat_error_of_lt size (by norm_num)).trans_eq (by norm_num)
  have scaled : quotient (cents : Int) 100 * 100 - cents =
      (quotient (cents : Int) 100 - ((cents : Int) : Rat) / 100) * 100 := by
    push_cast
    ring
  rw [scaled, abs_mul, abs_of_pos (by norm_num : (0 : Rat) < 100)]
  calc |quotient (cents : Int) 100 - ((cents : Int) : Rat) / 100| * 100
      ≤ 2 ^ (-8 : Int) * 100 := by gcongr
    _ < 1 / 2 := by norm_num

/-- From here on quotients are `2 ^ -6` apart. -/
theorem quotient_exactCents : quotient (EXACT_CENTS : Int) 100 = 2 ^ 46 := by
  have value : ((EXACT_CENTS : Int) : Rat) / 100 = 2 ^ (46 : Int) := by norm_num [EXACT_CENTS]
  rw [quotient, value]
  have size : Int.log 2 |(2 : Rat) ^ (46 : Int)| = 46 := by
    rw [abs_of_pos (by positivity), show (2 : Rat) = ((2 : Nat) : Rat) by norm_num,
      Int.log_zpow Nat.one_lt_two]
  rw [nearestRat_of_multiple (n := 2 ^ 52) (by rw [unitOf, size]; norm_num)]
  norm_num

/-- The amounts the responses show as they are reach up to `EXACT_CENTS`; the next one is
shown a cent too high. -/
theorem formatCentsAsDollars_exact :
    IsGreatest {most : Nat | ∀ cents : Nat, cents ≤ most →
      formatCentsAsDollars cents = String.ofList (dollars cents)} EXACT_CENTS ∧
    formatCentsAsDollars ((EXACT_CENTS + 1 : Nat) : Int) = "70368744177664.02" := by
  have shown : formatCentsAsDollars ((EXACT_CENTS + 1 : Nat) : Int) = "70368744177664.02" := by
    decide +kernel
  refine ⟨⟨?_, ?_⟩, shown⟩
  · intro cents most
    rcases Nat.lt_or_eq_of_le most with small | rfl
    · exact toFixed_two (nearestRat_nonneg (by positivity)) (quotient_near small)
    · refine toFixed_two (nearestRat_nonneg (by positivity)) ?_
      rw [quotient_exactCents]
      norm_num [EXACT_CENTS]
  · intro most exact
    by_contra more
    have wrong := exact (EXACT_CENTS + 1) (Nat.lt_of_not_le more)
    rw [shown] at wrong
    exact absurd wrong (by decide +kernel)

end Amounts

end Canals
