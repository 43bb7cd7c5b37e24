import Mathlib.Algebra.Order.Ring.Nat
import Mathlib.Data.List.Basic
import Mathlib.Tactic.Common

/-! The proleptic Gregorian calendar and instants written as ISO 8601 text with
microseconds, `2026-01-15T10:30:00.123456Z`. -/
namespace Calendar

structure Day where
  year : Int
  month : Int
  day : Int
  deriving DecidableEq

/-- Day `n` of a 400-year era: its year within the era and its day within that
year, both beginning in March. A century's and an era's last year is the longer. -/
def yearOfEra (n : Int) : Int × Int :=
  let century := min (n / 36524) 3
  let dayOfCentury := n - century * 36524
  let year := min (dayOfCentury % 1461 / 365) 3
  (century * 100 + dayOfCentury / 1461 * 4 + year, dayOfCentury % 1461 - year * 365)

/-- The months of a year that begins in March, with the day of the month. -/
def monthOfYear (n : Int) : Int × Int :=
  let month := (5 * n + 2) / 153
  (month, n - (153 * month + 2) / 5)

/-- The day `n` days after 1970-01-01. -/
def Day.ofEpoch (n : Int) : Day :=
  let era := (n + 719468) / 146097
  let (year, dayOfYear) := yearOfEra ((n + 719468) % 146097)
  let (month, day) := monthOfYear dayOfYear
  if month < 10 then ⟨era * 400 + year, month + 3, day + 1⟩
  else ⟨era * 400 + year + 1, month - 9, day + 1⟩

def Day.toEpoch (d : Day) : Int :=
  let year := if 2 < d.month then d.year else d.year - 1
  let month := if 2 < d.month then d.month - 3 else d.month + 9
  year / 400 * 146097 + (year % 400 * 365 + year % 400 / 4 - year % 400 / 100) +
    (153 * month + 2) / 5 + d.day - 719469

theorem yearOfEra_spec {n : Int} (start : 0 ≤ n) (stop : n < 146097) :
    0 ≤ (yearOfEra n).1 ∧ (yearOfEra n).1 < 400 ∧ 0 ≤ (yearOfEra n).2 ∧ (yearOfEra n).2 < 366 ∧
      (yearOfEra n).1 * 365 + (yearOfEra n).1 / 4 - (yearOfEra n).1 / 100 + (yearOfEra n).2 = n := by
  simp only [yearOfEra]
  generalize century : min (n / 36524) 3 = c
  generalize rest : n - c * 36524 = r
  have century' : 0 ≤ c ∧ c ≤ 3 := by omega
  have rest' : 0 ≤ r ∧ r ≤ 36524 := by omega
  generalize quad : r / 1461 = q
  generalize day : r % 1461 = k
  have quad' : 0 ≤ q ∧ q ≤ 24 ∧ r = q * 1461 + k ∧ 0 ≤ k ∧ k < 1461 := by omega
  generalize year : min (k / 365) 3 = y
  have year' : 0 ≤ y ∧ y ≤ 3 ∧ 0 ≤ k - y * 365 ∧ k - y * 365 < 366 := by omega
  have leaps : (c * 100 + q * 4 + y) / 4 = c * 25 + q := by omega
  have centuries : (c * 100 + q * 4 + y) / 100 = c := by omega
  omega

theorem monthOfYear_spec {n : Int} (start : 0 ≤ n) (stop : n < 366) :
    0 ≤ (monthOfYear n).1 ∧ (monthOfYear n).1 < 12 ∧ 0 ≤ (monthOfYear n).2 ∧
      (monthOfYear n).2 < 31 ∧ (153 * (monthOfYear n).1 + 2) / 5 + (monthOfYear n).2 = n := by
  simp only [monthOfYear]
  omega

theorem Day.ofEpoch_bounds (n : Int) : 1 ≤ (ofEpoch n).month ∧ (ofEpoch n).month ≤ 12 ∧
    1 ≤ (ofEpoch n).day ∧ (ofEpoch n).day ≤ 31 := by
  obtain ⟨-, -, first, last, -⟩ := yearOfEra_spec (n := (n + 719468) % 146097)
    (by omega) (by omega)
  have month := monthOfYear_spec first last
  simp only [ofEpoch]
  split <;> dsimp only <;> omega

theorem Day.toEpoch_ofEpoch (n : Int) : (ofEpoch n).toEpoch = n := by
  obtain ⟨start, stop, first, last, days⟩ := yearOfEra_spec (n := (n + 719468) % 146097)
    (by omega) (by omega)
  have parts := monthOfYear_spec first last
  simp only [ofEpoch]
  generalize yearOfEra ((n + 719468) % 146097) = year at *
  generalize monthOfYear year.2 = month at *
  have era : ((n + 719468) / 146097 * 400 + year.1) / 400 = (n + 719468) / 146097 := by omega
  have inEra : ((n + 719468) / 146097 * 400 + year.1) % 400 = year.1 := by omega
  split
  · have late : 2 < month.1 + 3 := by omega
    simp only [toEpoch, late, if_true, era, inEra, Int.add_sub_cancel]
    omega
  · have early : ¬ 2 < month.1 - 9 := by omega
    simp only [toEpoch, early, if_false, Int.add_sub_cancel, Int.sub_add_cancel, era, inEra]
    omega

/-- `n` in exactly `width` decimal digits. -/
def pad : Nat → Nat → List Char
  | 0, _ => []
  | width + 1, n => pad width (n / 10) ++ [Nat.digitChar (n % 10)]

def digitValue (c : Char) : Option Nat :=
  if c.isDigit then some (c.toNat - '0'.toNat) else none

def value (digits : List Char) : Option Nat :=
  digits.foldlM (fun n c => (digitValue c).map (n * 10 + ·)) 0

/-- The next `width` characters as a number. -/
def number (width : Nat) (text : List Char) : Option (Nat × List Char) :=
  if width ≤ text.length then (value (text.take width)).map (·, text.drop width) else none

def literal (c : Char) : List Char → Option (List Char)
  | [] => none
  | first :: rest => if first = c then some rest else none

theorem digitValue_digitChar {n : Nat} (small : n < 10) :
    digitValue (Nat.digitChar n) = some n := by
  revert n
  decide

theorem pad_length (width n : Nat) : (pad width n).length = width := by
  induction width generalizing n with
  | zero => rfl
  | succ width ih => simp [pad, ih]

theorem isDigit_of_mem_pad {width n : Nat} {c : Char} (member : c ∈ pad width n) : c.isDigit := by
  have digits : ∀ k < 10, (Nat.digitChar k).isDigit := by decide
  induction width generalizing n with
  | zero => cases member
  | succ width ih =>
    rcases List.mem_append.mp member with front | last
    · exact ih front
    · rw [List.mem_singleton.mp last]
      exact digits _ (Nat.mod_lt n (by decide))

theorem value_pad {width n : Nat} (fits : n < 10 ^ width) : value (pad width n) = some n := by
  induction width generalizing n with
  | zero =>
    obtain rfl : n = 0 := by simpa using fits
    rfl
  | succ width ih =>
    have high : n / 10 < 10 ^ width := by
      rw [Nat.pow_succ] at fits
      omega
    have front := ih high
    simp only [value] at front ⊢
    rw [pad, List.foldlM_append, front]
    simp [digitValue_digitChar (Nat.mod_lt n (by decide : 10 > 0))]
    omega

theorem number_pad {width n : Nat} (fits : n < 10 ^ width) (rest : List Char) :
    number width (pad width n ++ rest) = some (n, rest) := by
  have whole := pad_length width n
  rw [number, if_pos (by simp [whole]), List.take_left' whole, List.drop_left' whole,
    value_pad fits]
  rfl

theorem literal_cons (c : Char) (rest : List Char) : literal c (c :: rest) = some rest :=
  if_pos rfl

def microsPerDay : Int := 86400000000

/-- The year of an instant given in microseconds since 1970. -/
def year (us : Int) : Int := (Day.ofEpoch (us / microsPerDay)).year

/-- `to_char(…, 'YYYY-MM-DD"T"HH24:MI:SS.US"Z"')` for the years of four digits. -/
def text (us : Int) : List Char :=
  let day := Day.ofEpoch (us / microsPerDay)
  let time := (us % microsPerDay).toNat
  pad 4 day.year.toNat ++ '-' :: (pad 2 day.month.toNat ++ '-' :: (pad 2 day.day.toNat ++
    'T' :: (pad 2 (time / 3600000000) ++ ':' :: (pad 2 (time / 60000000 % 60) ++
    ':' :: (pad 2 (time / 1000000 % 60) ++ '.' :: (pad 6 (time % 1000000) ++ ['Z']))))))

theorem isDigit_or_of_mem_text {us : Int} {c : Char} (member : c ∈ text us) :
    c.isDigit ∨ c ∈ ['-', 'T', ':', '.', 'Z'] := by
  simp only [text, List.mem_append, List.mem_cons, List.not_mem_nil, or_false] at member
  by_cases digit : c.isDigit
  · exact .inl digit
  · have notPad : ∀ {width n}, c ∉ pad width n := fun inside => digit (isDigit_of_mem_pad inside)
    simp only [notPad, false_or] at member
    simp only [List.mem_cons, List.not_mem_nil, or_false]
    tauto

def read (chars : List Char) : Option Int := do
  let (year, chars) ← number 4 chars
  let (month, chars) ← number 2 (← literal '-' chars)
  let (day, chars) ← number 2 (← literal '-' chars)
  let (hour, chars) ← number 2 (← literal 'T' chars)
  let (minute, chars) ← number 2 (← literal ':' chars)
  let (second, chars) ← number 2 (← literal ':' chars)
  let (micros, chars) ← number 6 (← literal '.' chars)
  if chars = ['Z'] then
    return (Day.toEpoch ⟨year, month, day⟩) * microsPerDay +
      ((hour * 60 + minute) * 60 + second) * 1000000 + micros
  else none

/-- The instant that is written so. -/
def ofText (chars : List Char) : Option Int :=
  match read chars with
  | some us => if text us = chars then some us else none
  | none => none

theorem read_text {us : Int} (first : 0 ≤ year us) (last : year us ≤ 9999) :
    read (text us) = some us := by
  obtain ⟨month, month', day, day'⟩ := Day.ofEpoch_bounds (us / microsPerDay)
  have epoch := Day.toEpoch_ofEpoch (us / microsPerDay)
  have date : (⟨(Day.ofEpoch (us / microsPerDay)).year.toNat,
      (Day.ofEpoch (us / microsPerDay)).month.toNat,
      (Day.ofEpoch (us / microsPerDay)).day.toNat⟩ : Day) = Day.ofEpoch (us / microsPerDay) := by
    simp only [year] at first
    rw [Day.mk.injEq]
    omega
  simp only [year] at first last
  have time : us % microsPerDay < 86400000000 ∧ 0 ≤ us % microsPerDay := by
    simp only [microsPerDay]
    omega
  have split : us = us / microsPerDay * microsPerDay + us % microsPerDay := by
    simp only [microsPerDay]
    omega
  simp only [read, text]
  generalize Day.ofEpoch (us / microsPerDay) = d at *
  have years : d.year.toNat < 10 ^ 4 := by omega
  have months : d.month.toNat < 10 ^ 2 := by omega
  have days : d.day.toNat < 10 ^ 2 := by omega
  have hours : (us % microsPerDay).toNat / 3600000000 < 10 ^ 2 := by omega
  have minutes : (us % microsPerDay).toNat / 60000000 % 60 < 10 ^ 2 := by omega
  have seconds : (us % microsPerDay).toNat / 1000000 % 60 < 10 ^ 2 := by omega
  have micros : (us % microsPerDay).toNat % 1000000 < 10 ^ 6 := by omega
  refine Option.bind_eq_some_iff.mpr ⟨_, number_pad years _, ?_⟩
  refine Option.bind_eq_some_iff.mpr ⟨_, literal_cons '-' _, ?_⟩
  refine Option.bind_eq_some_iff.mpr ⟨_, number_pad months _, ?_⟩
  refine Option.bind_eq_some_iff.mpr ⟨_, literal_cons '-' _, ?_⟩
  refine Option.bind_eq_some_iff.mpr ⟨_, number_pad days _, ?_⟩
  refine Option.bind_eq_some_iff.mpr ⟨_, literal_cons 'T' _, ?_⟩
  refine Option.bind_eq_some_iff.mpr ⟨_, number_pad hours _, ?_⟩
  refine Option.bind_eq_some_iff.mpr ⟨_, literal_cons ':' _, ?_⟩
  refine Option.bind_eq_some_iff.mpr ⟨_, number_pad minutes _, ?_⟩
  refine Option.bind_eq_some_iff.mpr ⟨_, literal_cons ':' _, ?_⟩
  refine Option.bind_eq_some_iff.mpr ⟨_, number_pad seconds _, ?_⟩
  refine Option.bind_eq_some_iff.mpr ⟨_, literal_cons '.' _, ?_⟩
  refine Option.bind_eq_some_iff.mpr ⟨_, number_pad micros _, ?_⟩
  refine (if_pos rfl).trans (congrArg some ?_)
  rw [date, epoch]
  generalize us / microsPerDay = n at *
  generalize us % microsPerDay = rest at *
  simp only [microsPerDay] at *
  omega

/-- In these years the text says which instant it is. -/
theorem ofText_text {us : Int} (first : 0 ≤ year us) (last : year us ≤ 9999) :
    ofText (text us) = some us := by
  rw [ofText, read_text first last]
  exact if_pos rfl

end Calendar
