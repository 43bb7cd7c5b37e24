import Mathlib.Data.List.Basic

/-! The texts that a database reads as a `uuid`: eight groups of four hexadecimal digits of
either case, with or without a hyphen after a group, and with or without braces around them. -/
namespace UuidInput

def isHexDigit (c : Char) : Bool :=
  c.isDigit || ('a' ≤ c && c ≤ 'f') || ('A' ≤ c && c ≤ 'F')

def afterHyphen : List Char → List Char
  | '-' :: rest => rest
  | rest => rest

/-- So many groups of digits, and nothing after them. -/
def hexGroups : Nat → List Char → Bool
  | 0, rest => rest.isEmpty
  | n + 1, a :: b :: c :: d :: rest =>
    [a, b, c, d].all isHexDigit && hexGroups n (if n = 0 then rest else afterHyphen rest)
  | _ + 1, _ => false

def accepts (chars : List Char) : Bool :=
  match chars with
  | '{' :: rest => rest.getLast? = some '}' && hexGroups 8 rest.dropLast
  | chars => hexGroups 8 chars

/-- The accepted text as it is stored: in lower case, with the usual four hyphens. -/
def stored (chars : List Char) : List Char :=
  let digits := (chars.filter isHexDigit).map Char.toLower
  digits.take 8 ++ '-' :: (digits.drop 8).take 4 ++ '-' :: (digits.drop 12).take 4 ++
    '-' :: (digits.drop 16).take 4 ++ '-' :: digits.drop 20

variable {n : Nat} {group rest : List Char}

/-- Four digits. -/
structure Group (group : List Char) : Prop where
  length : group.length = 4
  digits : group.all isHexDigit

namespace Group

theorem take {chars : List Char} (long : 4 ≤ chars.length) (digits : chars.all isHexDigit) :
    Group (chars.take 4) where
  length := by rw [List.length_take, Nat.min_eq_left long]
  digits := by
    rw [List.all_eq_true] at digits ⊢
    exact fun c member => digits c (List.mem_of_mem_take member)

theorem hexGroups (four : Group group) (n : Nat) (rest : List Char) :
    hexGroups (n + 1) (group ++ rest) =
      UuidInput.hexGroups n (if n = 0 then rest else afterHyphen rest) := by
  obtain ⟨length, digits⟩ := four
  obtain ⟨a, b, c, d, rfl⟩ := List.length_eq_four.mp length
  rw [List.cons_append, List.cons_append, List.cons_append, List.cons_append, List.nil_append,
    UuidInput.hexGroups, digits, Bool.true_and]

theorem afterHyphen (four : Group group) (rest : List Char) :
    afterHyphen (group ++ rest) = group ++ rest := by
  obtain ⟨length, digits⟩ := four
  obtain ⟨a, b, c, d, rfl⟩ := List.length_eq_four.mp length
  have digit : a ≠ '-' := by
    rintro rfl
    simp [isHexDigit] at digits
  rw [List.cons_append, UuidInput.afterHyphen]
  rintro rest' ⟨⟩
  exact digit rfl

theorem accepts (four : Group group) (rest : List Char) :
    accepts (group ++ rest) = UuidInput.hexGroups 8 (group ++ rest) := by
  obtain ⟨length, digits⟩ := four
  obtain ⟨a, b, c, d, rfl⟩ := List.length_eq_four.mp length
  have digit : a ≠ '\x7b' := by
    rintro rfl
    simp [isHexDigit] at digits
  rw [List.cons_append, UuidInput.accepts]
  rintro rest' ⟨⟩
  exact digit rfl

theorem drop {chars : List Char} (length : chars.length = 8) (digits : chars.all isHexDigit) :
    Group (chars.drop 4) where
  length := by rw [List.length_drop, length]
  digits := by
    rw [List.all_eq_true] at digits ⊢
    exact fun c member => digits c (List.mem_of_mem_drop member)

end Group

/-- Two groups with no hyphen between them. -/
theorem hexGroups_eight {chars : List Char} (length : chars.length = 8)
    (digits : chars.all isHexDigit) (n : Nat) (rest : List Char) :
    hexGroups (n + 3) (chars ++ rest) = hexGroups (n + 1) (afterHyphen rest) := by
  have front := Group.take (by omega) digits
  have back := Group.drop length digits
  rw [← List.take_append_drop 4 chars, List.append_assoc, front.hexGroups, if_neg (by omega),
    back.afterHyphen, back.hexGroups, if_neg (by omega)]

/-- Hyphens only after the second, third, fourth and fifth groups. -/
theorem accepts_standard {first second third fourth last : List Char}
    (eight : first.length = 8) (four : second.length = 4) (four' : third.length = 4)
    (four'' : fourth.length = 4) (twelve : last.length = 12)
    (digits : [first, second, third, fourth, last].all (·.all isHexDigit)) :
    accepts (first ++ '-' :: (second ++ '-' :: (third ++ '-' :: (fourth ++ '-' :: last)))) := by
  simp only [List.all_cons, List.all_nil, Bool.and_true, Bool.and_eq_true] at digits
  obtain ⟨one, two, three, four_, five⟩ := digits
  have start := Group.take (by omega) one
  have entered : accepts (first ++ '-' :: (second ++ '-' :: (third ++ '-' :: (fourth ++ '-' ::
      last)))) = hexGroups 8 (first ++ '-' :: (second ++ '-' :: (third ++ '-' :: (fourth ++ '-' ::
      last)))) := by
    rw [← List.take_append_drop 4 first, List.append_assoc, start.accepts]
  have front : (last.take 8).length = 8 := by simp [twelve]
  have front' : (last.take 8).all isHexDigit := by
    rw [List.all_eq_true] at five ⊢
    exact fun c member => five c (List.mem_of_mem_take member)
  have back : Group (last.drop 8) := by
    constructor
    · simp [twelve]
    · rw [List.all_eq_true] at five ⊢
      exact fun c member => five c (List.mem_of_mem_drop member)
  calc accepts (first ++ '-' :: (second ++ '-' :: (third ++ '-' :: (fourth ++ '-' :: last))))
      = hexGroups 6 (second ++ '-' :: (third ++ '-' :: (fourth ++ '-' :: last))) := by
        rw [entered, hexGroups_eight eight one]
        rfl
    _ = hexGroups 5 (third ++ '-' :: (fourth ++ '-' :: last)) := by
        rw [Group.hexGroups ⟨four, two⟩]
        rfl
    _ = hexGroups 4 (fourth ++ '-' :: last) := by
        rw [Group.hexGroups ⟨four', three⟩]
        rfl
    _ = hexGroups 3 last := by
        rw [Group.hexGroups ⟨four'', four_⟩]
        rfl
    _ = hexGroups 1 (last.drop 8 ++ []) := by
        rw [← back.afterHyphen, List.append_nil, ← hexGroups_eight front front' 0,
          List.take_append_drop]
    _ = true := by
        rw [back.hexGroups]
        rfl

end UuidInput
