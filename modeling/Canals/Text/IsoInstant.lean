import Canals.Text.Calendar

/-! Instants written with up to six digits of the second's fraction, `2026-01-15T10:30:00Z`
as well as `2026-01-15T10:30:00.123456Z`. -/
namespace Calendar

theorem pad_shift (width k n : Nat) :
    pad (width + k) (n * 10 ^ k) = pad width n ++ List.replicate k '0' := by
  induction k with
  | zero => simp
  | succ k ih =>
      have front : n * 10 ^ (k + 1) / 10 = n * 10 ^ k := by
        rw [Nat.pow_succ, ← Nat.mul_assoc, Nat.mul_div_cancel _ (by decide)]
      have last : n * 10 ^ (k + 1) % 10 = 0 := by
        rw [Nat.pow_succ, ← Nat.mul_assoc, Nat.mul_mod_left]
      rw [← Nat.add_assoc, pad, front, last, ih, List.replicate_succ', List.append_assoc]
      rfl

/-- Without the digits of the fraction after the first `digits`, and without the point where
none is left. -/
def shorten (digits : Nat) (chars : List Char) : List Char :=
  chars.take (if digits = 0 then 19 else 20 + digits) ++ ['Z']

/-- The text with all six digits. -/
def lengthen (chars : List Char) : List Char :=
  if chars.length = 20 then chars.dropLast ++ ".000000Z".toList
  else chars.dropLast ++ List.replicate (27 - chars.length) '0' ++ ['Z']

/-- An instant that `digits` digits of the second's fraction are enough for. -/
structure IsoInstant where
  us : Int
  digits : Nat
  digits_le : digits ≤ 6
  whole : us % (10 ^ (6 - digits) : Nat) = 0
  years : 1 ≤ year us ∧ year us ≤ 9999

def IsoInstant.text (instant : IsoInstant) : String :=
  String.ofList (shorten instant.digits (Calendar.text instant.us))

theorem text_split (us : Int) : ∃ front : List Char, front.length = 19 ∧
    text us = front ++ '.' :: (pad 6 (us % 1000000).toNat ++ ['Z']) := by
  have micros : (us % microsPerDay).toNat % 1000000 = (us % 1000000).toNat := by
    simp only [microsPerDay]
    omega
  let day := Day.ofEpoch (us / microsPerDay)
  let time := (us % microsPerDay).toNat
  refine ⟨pad 4 day.year.toNat ++ '-' :: (pad 2 day.month.toNat ++ '-' :: (pad 2 day.day.toNat ++
    'T' :: (pad 2 (time / 3600000000) ++ ':' :: (pad 2 (time / 60000000 % 60) ++
    ':' :: pad 2 (time / 1000000 % 60))))), ?_, ?_⟩
  · simp [pad_length]
  · rw [← micros]
    simp [text, day, time]

theorem text_length (us : Int) : (text us).length = 27 := by
  obtain ⟨front, long, split⟩ := text_split us
  simp [split, long, pad_length]

namespace IsoInstant
variable (instant : IsoInstant)

/-- The fraction is its first digits, and zeros. -/
theorem fraction : ∃ n, pad 6 (instant.us % 1000000).toNat =
    pad instant.digits n ++ List.replicate (6 - instant.digits) '0' := by
  obtain ⟨us, digits, digits_le, whole, years⟩ := instant
  dsimp only
  have unit : (10 ^ (6 - digits) : Nat) ∣ (us % 1000000).toNat := by
    have million : (10 ^ (6 - digits) : Nat) ∣ 1000000 := by
      rw [show 1000000 = 10 ^ 6 from rfl]
      exact Nat.pow_dvd_pow 10 (Nat.sub_le 6 digits)
    have divides : ((10 ^ (6 - digits) : Nat) : Int) ∣ ((us % 1000000).toNat : Int) := by
      rw [Int.toNat_of_nonneg (Int.emod_nonneg us (by decide)), Int.dvd_iff_emod_eq_zero,
        Int.emod_emod_of_dvd us (by exact_mod_cast million), whole]
    exact_mod_cast divides
  obtain ⟨n, micros⟩ := unit
  refine ⟨n, ?_⟩
  rw [micros, Nat.mul_comm, ← pad_shift, Nat.add_sub_cancel' digits_le]

theorem shorten_text : ∃ front n, front.length = 19 ∧
    Calendar.text instant.us = front ++ '.' ::
      (pad instant.digits n ++ List.replicate (6 - instant.digits) '0' ++ ['Z']) ∧
    shorten instant.digits (Calendar.text instant.us) =
      if instant.digits = 0 then front ++ ['Z']
      else front ++ '.' :: (pad instant.digits n ++ ['Z']) := by
  obtain ⟨front, long, split⟩ := text_split instant.us
  obtain ⟨n, fraction⟩ := instant.fraction
  rw [fraction] at split
  refine ⟨front, n, long, split, ?_⟩
  rw [shorten, split]
  split
  · rw [List.take_left' long]
  · have start : (front ++ '.' :: pad instant.digits n).length = 20 + instant.digits := by
      simp [long, pad_length]
      omega
    have whole : front ++ '.' :: (pad instant.digits n ++ List.replicate (6 - instant.digits) '0' ++
        ['Z']) = (front ++ '.' :: pad instant.digits n) ++
          (List.replicate (6 - instant.digits) '0' ++ ['Z']) := by
      simp
    rw [whole, List.take_left' start]
    simp

theorem lengthen_shorten :
    lengthen (shorten instant.digits (Calendar.text instant.us)) = Calendar.text instant.us := by
  obtain ⟨front, n, long, split, short⟩ := instant.shorten_text
  have few := instant.digits_le
  rw [short, split, lengthen]
  by_cases none : instant.digits = 0
  · rw [if_pos none, if_pos (by simp [long]), none]
    simp [pad, List.replicate]
  · rw [if_neg none]
    have count : (front ++ '.' :: (pad instant.digits n ++ ['Z'])).length = 21 + instant.digits := by
      simp [long, pad_length]
      omega
    have dropped : (front ++ '.' :: (pad instant.digits n ++ ['Z'])).dropLast =
        front ++ '.' :: pad instant.digits n := by
      rw [← List.cons_append, ← List.append_assoc, List.dropLast_concat]
    rw [if_neg (by omega), count, dropped, show 27 - (21 + instant.digits) = 6 - instant.digits by omega]
    simp

/-- Digits that are cut leave a shorter text. -/
theorem ofText_shorten (cut : instant.digits < 6) :
    ofText (shorten instant.digits (Calendar.text instant.us)) = none := by
  obtain ⟨front, n, long, _, short⟩ := instant.shorten_text
  rw [ofText]
  split
  · rename_i us _
    apply if_neg
    intro same
    have lengths := congrArg List.length same
    rw [text_length, short] at lengths
    split at lengths
    · simp [long] at lengths
    · simp [long, pad_length] at lengths
      omega
  · rfl

end IsoInstant

end Calendar
