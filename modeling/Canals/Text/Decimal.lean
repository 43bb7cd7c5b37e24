import Mathlib.Algebra.Order.Ring.Nat
import Mathlib.Data.List.Basic
import Mathlib.Tactic.Common

/-! Decimal numerals: their values, their leading digits, and what remains of a
numeral that is filled up or cut to a fixed width. -/
namespace Decimal

/-- The number a list of digits writes. -/
def value (digits : List Char) : Nat := Nat.ofDigitChars 10 digits 0

/-- `lpad` of a database: the text is filled up on the left, or cut at its end. -/
def lpad (text : List Char) (width : Nat) (fill : Char) : List Char :=
  if text.length < width then List.replicate (width - text.length) fill ++ text
  else text.take width

/-- The number that the first `width` digits of `n` write. -/
def leading (width n : Nat) : Nat := n / 10 ^ ((Nat.toDigits 10 n).length - width)

theorem lpad_length (text : List Char) (width : Nat) (fill : Char) :
    (lpad text width fill).length = width := by
  rw [lpad]
  split
  · rw [List.length_append, List.length_replicate]
    omega
  · rw [List.length_take]
    omega

theorem value_append (front back : List Char) :
    value (front ++ back) = 10 ^ back.length * value front + value back := by
  rw [value, Nat.ofDigitChars_append, Nat.ofDigitChars_eq_ofDigitChars_zero]
  rfl

theorem value_cons (c : Char) (rest : List Char) :
    value (c :: rest) = 10 ^ rest.length * value [c] + value rest := value_append [c] rest

theorem value_singleton (c : Char) : value [c] = c.toNat - 48 := by
  simp [value, Nat.ofDigitChars]

theorem value_toDigits (n : Nat) : value (Nat.toDigits 10 n) = n := Nat.ofDigitChars_ten_toDigits

def Digits (text : List Char) : Prop := ∀ c ∈ text, c.isDigit

theorem digits_toDigits (n : Nat) : Digits (Nat.toDigits 10 n) := fun _ member =>
  Nat.isDigit_of_mem_toDigits (by decide) (by decide) member

theorem isDigit_bounds {c : Char} (digit : c.isDigit) : 48 ≤ c.toNat ∧ c.toNat ≤ 57 := by
  simp only [Char.isDigit, Bool.and_eq_true, decide_eq_true_eq] at digit
  exact ⟨digit.1, digit.2⟩

theorem value_lt {text : List Char} (digits : Digits text) : value text < 10 ^ text.length := by
  induction text with
  | nil => exact Nat.one_pos
  | cons c rest ih =>
      have tail := ih fun d member => digits d (List.mem_cons_of_mem c member)
      have head := isDigit_bounds (digits c List.mem_cons_self)
      have bound : value [c] + 1 ≤ 10 := by
        rw [value_singleton]
        omega
      calc value (c :: rest)
          = 10 ^ rest.length * value [c] + value rest := value_cons c rest
        _ < 10 ^ rest.length * (value [c] + 1) := by
            rw [Nat.mul_add, Nat.mul_one]
            omega
        _ ≤ 10 ^ rest.length * 10 := Nat.mul_le_mul_left _ bound
        _ = 10 ^ (c :: rest).length := by rw [List.length_cons, Nat.pow_succ]

/-- Numerals of one width are told apart by their values. -/
theorem value_inj {left right : List Char} (first : Digits left) (second : Digits right)
    (wide : left.length = right.length) (same : value left = value right) : left = right := by
  induction left generalizing right with
  | nil => exact (List.length_eq_zero_iff.mp wide.symm).symm
  | cons c rest ih =>
      cases right with
      | nil => simp at wide
      | cons d tail =>
          have width : rest.length = tail.length := Nat.succ.inj wide
          have restDigits : Digits rest := fun e member => first e (List.mem_cons_of_mem c member)
          have tailDigits : Digits tail := fun e member => second e (List.mem_cons_of_mem d member)
          have low := value_lt restDigits
          have low' := value_lt tailDigits
          rw [value_cons c rest, value_cons d tail, width] at same
          rw [width] at low
          have heads : value [c] = value [d] := by
            have left := congrArg (· / 10 ^ tail.length) same
            simpa only [Nat.mul_add_div (Nat.pow_pos (Nat.succ_pos 9)),
              Nat.div_eq_of_lt low, Nat.div_eq_of_lt low', Nat.add_zero] using left
          have tails : value rest = value tail := by
            rw [heads] at same
            exact Nat.add_left_cancel same
          have digit := isDigit_bounds (first c List.mem_cons_self)
          have digit' := isDigit_bounds (second d List.mem_cons_self)
          rw [value_singleton, value_singleton] at heads
          have letters : c = d := Char.toNat_inj.mp (by omega)
          rw [letters, ih restDigits tailDigits width tails]

/-- Cutting a numeral drops its low digits. -/
theorem value_take {text : List Char} (digits : Digits text) (width : Nat) :
    value (text.take width) = value text / 10 ^ (text.length - width) := by
  have parts : value text =
      10 ^ (text.drop width).length * value (text.take width) + value (text.drop width) := by
    rw [← value_append, List.take_append_drop]
  have low := value_lt fun c member => digits c (List.mem_of_mem_drop (i := width) member)
  rw [parts, ← List.length_drop, Nat.mul_add_div (Nat.pow_pos (Nat.succ_pos 9)),
    Nat.div_eq_of_lt low, Nat.add_zero]

theorem value_zeros (n : Nat) (text : List Char) :
    value (List.replicate n '0' ++ text) = value text := by
  simp [value, Nat.ofDigitChars_append]

theorem value_lpad (n width : Nat) :
    value (lpad (Nat.toDigits 10 n) width '0') = leading width n := by
  rw [lpad, leading]
  split
  · rename_i short
    rw [value_zeros, value_toDigits, Nat.sub_eq_zero_of_le (Nat.le_of_lt short), Nat.pow_zero,
      Nat.div_one]
  · rw [value_take (digits_toDigits n), value_toDigits]

theorem digits_lpad {text : List Char} (digits : Digits text) (width : Nat) :
    Digits (lpad text width '0') := by
  intro c member
  rw [lpad] at member
  split at member
  · rcases List.mem_append.mp member with zero | old
    · rw [List.eq_of_mem_replicate zero]
      rfl
    · exact digits c old
  · exact digits c (List.mem_of_mem_take member)

/-- Two padded numerals agree exactly on the leading digits. -/
theorem lpad_eq_iff (m n width : Nat) :
    lpad (Nat.toDigits 10 m) width '0' = lpad (Nat.toDigits 10 n) width '0' ↔
      leading width m = leading width n := by
  rw [← value_lpad, ← value_lpad]
  constructor
  · exact congrArg value
  · intro same
    apply value_inj (digits_lpad (digits_toDigits m) width) (digits_lpad (digits_toDigits n) width)
    · rw [lpad_length, lpad_length]
    · exact same

theorem toDigits_inj {m n : Nat} (same : Nat.toDigits 10 m = Nat.toDigits 10 n) : m = n := by
  rw [← value_toDigits m, same, value_toDigits]

theorem leading_of_digits {width n d : Nat} (first : 0 < d) (low : 10 ^ d ≤ n)
    (high : n < 10 ^ (d + 1)) : leading width n = n / 10 ^ (d + 1 - width) := by
  have most := (Nat.length_toDigits_le_iff (by decide) (Nat.succ_pos d)).mpr high
  have least : ¬ (Nat.toDigits 10 n).length ≤ d := fun short =>
    Nat.not_lt.mpr low ((Nat.length_toDigits_le_iff (by decide) first).mp short)
  have exactly : (Nat.toDigits 10 n).length = d + 1 := by omega
  rw [leading, exactly]

end Decimal
