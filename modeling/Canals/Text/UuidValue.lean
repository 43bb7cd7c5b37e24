import Canals.Text.UuidInput
import Mathlib.Algebra.Order.Ring.Nat
import Mathlib.Data.List.Induction
import Mathlib.Tactic.IntervalCases

/-! A `uuid` as its 128 bits: what a text of the usual form stands for, and the text that the
database writes. -/
namespace UuidValue
open UuidInput (isHexDigit)

def digitValue (c : Char) : Nat :=
  if c.isDigit then c.toNat - '0'.toNat
  else if 'a' ≤ c then c.toNat - 'a'.toNat + 10
  else c.toNat - 'A'.toNat + 10

def value (digits : List Char) : Nat :=
  digits.foldl (fun n c => n * 16 + digitValue c) 0

/-- The last `width` digits of `n`, in lower case. -/
def digits : Nat → Nat → List Char
  | 0, _ => []
  | width + 1, n => digits width (n / 16) ++ [Nat.digitChar (n % 16)]

def hyphenate (digits : List Char) : List Char :=
  digits.take 8 ++ '-' :: ((digits.drop 8).take 4 ++ '-' :: ((digits.drop 12).take 4 ++
    '-' :: ((digits.drop 16).take 4 ++ '-' :: digits.drop 20)))

/-- What `uuid` reads. -/
@[irreducible] def parse (text : String) : BitVec 128 :=
  BitVec.ofNat 128 (value (text.toList.filter (· ≠ '-')))

/-- What `uuid` writes. -/
@[irreducible] def format (id : BitVec 128) : String := String.ofList (hyphenate (digits 32 id.toNat))

/-- A text of the usual form, in either case. -/
def Standard (text : String) : Prop :=
  ∃ digits : List Char, digits.length = 32 ∧ (∀ c ∈ digits, isHexDigit c) ∧
    text.toList = hyphenate digits

def hexDigits : List Char := "0123456789abcdefABCDEF".toList

theorem mem_hexDigits {c : Char} (hex : isHexDigit c) : c ∈ hexDigits := by
  have ranges : (48 ≤ c.toNat ∧ c.toNat ≤ 57) ∨ (97 ≤ c.toNat ∧ c.toNat ≤ 102) ∨
      (65 ≤ c.toNat ∧ c.toNat ≤ 70) := by
    simp only [isHexDigit, Char.isDigit, Bool.or_eq_true, Bool.and_eq_true, decide_eq_true_eq,
      Char.le_def, UInt32.le_iff_toNat_le] at hex
    exact or_assoc.mp hex
  rw [← Char.ofNat_toNat c]
  generalize c.toNat = n at ranges
  rcases ranges with ⟨low, high⟩ | ⟨low, high⟩ | ⟨low, high⟩
  · interval_cases n <;> decide
  · interval_cases n <;> decide
  · interval_cases n <;> decide

theorem digitValue_lt {c : Char} (hex : isHexDigit c) : digitValue c < 16 := by
  have all : hexDigits.all (fun c => digitValue c < 16) := by decide
  simpa using List.all_eq_true.mp all c (mem_hexDigits hex)

theorem digitChar_digitValue {c : Char} (hex : isHexDigit c) :
    Nat.digitChar (digitValue c) = c.toLower := by
  have all : hexDigits.all (fun c => Nat.digitChar (digitValue c) == c.toLower) := by decide
  simpa using List.all_eq_true.mp all c (mem_hexDigits hex)

theorem value_lt {text : List Char} (hex : ∀ c ∈ text, isHexDigit c) :
    value text < 16 ^ text.length := by
  induction text using List.reverseRecOn with
  | nil => decide
  | append_singleton text c ih =>
      have front := ih fun c member => hex c (List.mem_append_left _ member)
      have last := digitValue_lt (hex c (List.mem_append_right _ (List.mem_singleton_self c)))
      rw [value, List.foldl_concat, ← value, List.length_append, List.length_singleton, Nat.pow_succ]
      omega

/-- Written again, a number has its digits in lower case. -/
theorem digits_value {text : List Char} (hex : ∀ c ∈ text, isHexDigit c) :
    digits text.length (value text) = text.map Char.toLower := by
  induction text using List.reverseRecOn with
  | nil => rfl
  | append_singleton text c ih =>
      have front := ih fun c member => hex c (List.mem_append_left _ member)
      have here := hex c (List.mem_append_right _ (List.mem_singleton_self c))
      have last := digitValue_lt here
      have high : (value text * 16 + digitValue c) / 16 = value text := by omega
      have low : (value text * 16 + digitValue c) % 16 = digitValue c := by omega
      rw [value, List.foldl_concat, ← value, List.length_append, List.length_singleton, digits,
        high, low, front, digitChar_digitValue here, List.map_append]
      rfl

theorem isHexDigit_digitChar {n : Nat} (small : n < 16) :
    isHexDigit (Nat.digitChar n) ∧ digitValue (Nat.digitChar n) = n := by
  revert n
  decide

theorem value_digits {width n : Nat} (fits : n < 16 ^ width) : value (digits width n) = n := by
  induction width generalizing n with
  | zero =>
      rw [Nat.pow_zero, Nat.lt_one_iff] at fits
      rw [fits]
      rfl
  | succ width ih =>
      have high : n / 16 < 16 ^ width := by
        rw [Nat.pow_succ] at fits
        omega
      have front := ih high
      have last := (isHexDigit_digitChar (Nat.mod_lt n (by decide : 16 > 0))).2
      rw [digits, value, List.foldl_concat, ← value, front, last]
      omega

theorem isHexDigit_of_mem_digits {width n : Nat} {c : Char} (member : c ∈ digits width n) :
    isHexDigit c := by
  induction width generalizing n with
  | zero => cases member
  | succ width ih =>
      rcases List.mem_append.mp member with front | last
      · exact ih front
      · rw [List.mem_singleton.mp last]
        exact (isHexDigit_digitChar (Nat.mod_lt n (by decide))).1

theorem not_hyphen {c : Char} (hex : isHexDigit c) : c ≠ '-' := by
  rintro rfl
  simp [isHexDigit] at hex

theorem filter_hyphenate {text : List Char} (hex : ∀ c ∈ text, isHexDigit c) :
    (hyphenate text).filter (· ≠ '-') = text := by
  have keep : ∀ {piece : List Char}, (∀ c ∈ piece, c ∈ text) →
      piece.filter (· ≠ '-') = piece := by
    intro piece inside
    apply List.filter_eq_self.mpr
    intro c member
    simpa using not_hyphen (hex c (inside c member))
  rw [hyphenate, List.filter_append, List.filter_cons_of_neg (by simp), List.filter_append,
    List.filter_cons_of_neg (by simp), List.filter_append, List.filter_cons_of_neg (by simp),
    List.filter_append, List.filter_cons_of_neg (by simp),
    keep fun c member => List.mem_of_mem_take member,
    keep fun c member => List.mem_of_mem_drop (List.mem_of_mem_take member),
    keep fun c member => List.mem_of_mem_drop (List.mem_of_mem_take member),
    keep fun c member => List.mem_of_mem_drop (List.mem_of_mem_take member),
    keep fun c member => List.mem_of_mem_drop member]
  have next : ∀ n, (text.drop n).take 4 ++ text.drop (n + 4) = text.drop n := by
    intro n
    rw [← List.drop_drop, List.take_append_drop]
  rw [next 16, next 12, next 8, List.take_append_drop]

theorem hyphenate_append {first second third fourth last : List Char} (eight : first.length = 8)
    (four : second.length = 4) (four' : third.length = 4) (four'' : fourth.length = 4) :
    hyphenate (first ++ (second ++ (third ++ (fourth ++ last)))) =
      first ++ '-' :: (second ++ '-' :: (third ++ '-' :: (fourth ++ '-' :: last))) := by
  generalize whole : first ++ (second ++ (third ++ (fourth ++ last))) = text
  have start : text.drop 8 = second ++ (third ++ (fourth ++ last)) := by
    rw [← whole, List.drop_left' eight]
  have twelve : text.drop 12 = third ++ (fourth ++ last) := by
    rw [show 12 = 8 + 4 from rfl, ← List.drop_drop, start, List.drop_left' four]
  have sixteen : text.drop 16 = fourth ++ last := by
    rw [show 16 = 12 + 4 from rfl, ← List.drop_drop, twelve, List.drop_left' four']
  have twenty : text.drop 20 = last := by
    rw [show 20 = 16 + 4 from rfl, ← List.drop_drop, sixteen, List.drop_left' four'']
  rw [hyphenate, start, List.take_left' four, twelve, List.take_left' four', sixteen,
    List.take_left' four'', twenty, ← whole, List.take_left' eight]

theorem hyphenate_map (text : List Char) :
    hyphenate (text.map Char.toLower) = (hyphenate text).map Char.toLower := by
  simp [hyphenate, List.map_take, List.map_drop]

theorem bits : 16 ^ 32 = 2 ^ 128 := by
  rw [show 16 = 2 ^ 4 from rfl, ← Nat.pow_mul]

theorem parse_format (id : BitVec 128) : parse (format id) = id := by
  have fits : id.toNat < 16 ^ 32 := by
    rw [bits]
    exact id.isLt
  rw [parse, format, String.toList_ofList, filter_hyphenate fun c member =>
    isHexDigit_of_mem_digits member, value_digits fits, BitVec.ofNat_toNat, BitVec.setWidth_eq]

/-- The database writes a text back in lower case. -/
theorem format_parse {text : String} (standard : Standard text) :
    format (parse text) = String.ofList (text.toList.map Char.toLower) := by
  obtain ⟨digits, length, hex, whole⟩ := standard
  have fits : value digits < 2 ^ 128 := by
    have small := value_lt hex
    rwa [length, bits] at small
  rw [format, parse, whole, filter_hyphenate hex, BitVec.toNat_ofNat, Nat.mod_eq_of_lt fits,
    ← length, digits_value hex, hyphenate_map]

end UuidValue
