import Canals.Http.Redaction

/-! Which characters of a text the masking of cards hides. The pattern takes at most
nineteen digits from the left of a run, whatever number they belong to, so that a
card behind other digits is checked together with them. -/
namespace Canals
open Regex

/-- What follows a digit: at most one separator, if digits follow it. -/
def afterDigit (more : List Char → List Char) : List Char → List Char
  | [] => more []
  | s :: cs => if isSeparator s ∧ more cs ≠ [] then s :: more cs else more (s :: cs)

/-- Up to `n` digits from the front, two of them apart by nothing or one separator. -/
def takeDigits : Nat → List Char → List Char
  | 0, _ => []
  | _ + 1, [] => []
  | n + 1, c :: cs => if isDigit c then c :: afterDigit (takeDigits n) cs else []

/-- The group of digits that starts here: 13 to 19 of them. -/
def cardLength (cs : List Char) : Option Nat :=
  if 13 ≤ (takeDigits 19 cs).countP isDigit then some (takeDigits 19 cs).length else none

/-- What becomes of a character when cards are masked. -/
inductive Fate where
  | kept
  | starred
  | dropped
  deriving DecidableEq

/-- In a card separators go, and of the digits all but the last four. -/
def cardFates : List Char → List Fate
  | [] => []
  | c :: cs =>
    (if isDigit c then if 4 ≤ cs.countP isDigit then .starred else .kept else .dropped) ::
      cardFates cs

def pieceFates : Piece Char → List Fate
  | .plain _ => [.kept]
  | .hit m => if isLuhnValid (m.filter isDigit) then cardFates m else m.map fun _ => .kept

/-- From left to right: a group of digits that passes the Luhn check is a card. -/
def fates (s : List Char) : List Fate := (cut cardLength id 0 s).flatMap pieceFates

section Pattern

theorem not_digit_of_separator {c : Char} (sep : isSeparator c) : isDigit c = false := by
  simp only [isSeparator, Bool.or_eq_true, decide_eq_true_eq] at sep
  rcases sep with rfl | rfl <;> decide

theorem takeDigits_nil (n : Nat) : takeDigits n [] = [] := by
  cases n <;> rfl

theorem takeDigits_other {n : Nat} {c : Char} {cs : List Char} (other : isDigit c = false) :
    takeDigits n (c :: cs) = [] := by
  cases n with
  | zero => rfl
  | succ n => simp [takeDigits, other]

/-- What is left behind up to `n` digits, if they are at least `least`. -/
def leftBehind (least n : Nat) (cs : List Char) : Option (List Char) :=
  if least ≤ (takeDigits n cs).countP isDigit then some (cs.drop (takeDigits n cs).length) else none

/-- What may follow a digit. -/
def tails : List Char → List (List Char)
  | [] => [[]]
  | s :: cs => if isSeparator s then [cs, s :: cs] else [s :: cs]

theorem digitSeparator_rests (c : Char) (cs : List Char) :
    (Regex.seq (.set isDigit) (.opt (.set isSeparator))).rests (c :: cs) =
      if isDigit c then tails cs else [] := by
  cases cs with
  | nil => by_cases digit : isDigit c <;> simp [rests, tails, digit]
  | cons s cs =>
    by_cases digit : isDigit c <;> by_cases sep : isSeparator s <;>
      simp [rests, tails, digit, sep]

theorem leftBehind_digit {least n : Nat} {c : Char} {cs : List Char} (digit : isDigit c)
    (positive : 0 < least) : leftBehind (least + 1) (n + 1) (c :: cs) =
      (tails cs).findSome? (leftBehind least n) := by
  have unfolded : takeDigits (n + 1) (c :: cs) = c :: afterDigit (takeDigits n) cs := by
    simp [takeDigits, digit]
  have least' : ¬ least = 0 := by omega
  cases cs with
  | nil => simp [leftBehind, unfolded, afterDigit, takeDigits_nil, tails, digit, least']
  | cons s cs =>
    by_cases sep : isSeparator s
    · have other : isDigit s = false := not_digit_of_separator sep
      have empty : takeDigits n (s :: cs) = [] := takeDigits_other other
      by_cases more : takeDigits n cs = []
      · simp [leftBehind, unfolded, afterDigit, more, empty, tails, sep, digit, least']
      · have none : leftBehind least n (s :: cs) = none := by simp [leftBehind, empty, least']
        have right : (tails (s :: cs)).findSome? (leftBehind least n) = leftBehind least n cs := by
          simp only [tails, sep, if_true, List.findSome?_cons, List.findSome?_nil, none]
          cases leftBehind least n cs <;> rfl
        rw [right]
        simp [leftBehind, unfolded, afterDigit, more, sep, digit, other]
    · simp [leftBehind, unfolded, afterDigit, tails, sep, digit]

theorem leftBehind_other {least n : Nat} {cs : List Char} (positive : 0 < least)
    (other : ∀ c ∈ cs.head?, isDigit c = false) : leftBehind least n cs = none := by
  have empty : takeDigits n cs = [] := by
    cases cs with
    | nil => exact takeDigits_nil n
    | cons c cs => exact takeDigits_other (other c rfl)
  have least' : ¬ least = 0 := by omega
  simp [leftBehind, empty, least']

theorem takeDigits_eq_nil {n : Nat} {cs : List Char} :
    takeDigits n cs = [] ↔ (takeDigits n cs).countP isDigit = 0 := by
  constructor
  · intro empty
    rw [empty]
    rfl
  · intro none
    cases n with
    | zero => rfl
    | succ n =>
      cases cs with
      | nil => rfl
      | cons c cs =>
        by_cases digit : isDigit c
        · simp [takeDigits, digit] at none
        · simp [takeDigits, digit]

/-- One digit is enough: its tail is left behind if no more digits follow. -/
theorem leftBehind_one {n : Nat} {c : Char} {cs : List Char} (digit : isDigit c) :
    leftBehind 1 (n + 1) (c :: cs) =
      ((tails cs).findSome? (leftBehind 1 n)).or (some cs) := by
  have unfolded : takeDigits (n + 1) (c :: cs) = c :: afterDigit (takeDigits n) cs := by
    simp [takeDigits, digit]
  have found : ∀ cs, leftBehind 1 n cs = if takeDigits n cs = [] then none
      else some (cs.drop (takeDigits n cs).length) := by
    intro cs
    by_cases empty : takeDigits n cs = []
    · simp [leftBehind, empty]
    · have positive : 1 ≤ (takeDigits n cs).countP isDigit :=
        Nat.pos_of_ne_zero (mt takeDigits_eq_nil.mpr empty)
      rw [leftBehind, if_pos positive, if_neg empty]
  have first : leftBehind 1 (n + 1) (c :: cs) =
      some (cs.drop (afterDigit (takeDigits n) cs).length) := by
    simp [leftBehind, unfolded, digit]
  rw [first]
  cases cs with
  | nil => simp [tails, found, afterDigit, takeDigits_nil]
  | cons s cs =>
    by_cases sep : isSeparator s
    · have empty : takeDigits n (s :: cs) = [] := takeDigits_other (not_digit_of_separator sep)
      by_cases more : takeDigits n cs = []
      · simp [tails, sep, found, afterDigit, more, empty]
      · simp [tails, sep, found, afterDigit, more]
    · by_cases more : takeDigits n (s :: cs) = []
      · simp [tails, sep, found, afterDigit, more]
      · simp [tails, sep, found, afterDigit, more]

/-- After at most `m` further digits the pattern asks for one more. -/
theorem upTo_digit (m : Nat) (cs : List Char) :
    ((upTo (Regex.seq (.set isDigit) (.opt (.set isSeparator))).rests m cs).flatMap
      (Regex.set isDigit).rests).head? = leftBehind 1 (m + 1) cs := by
  have last : ∀ cs, ((Regex.set isDigit).rests cs).head? = leftBehind 1 1 cs := by
    intro cs
    cases cs with
    | nil => rfl
    | cons c cs =>
      by_cases digit : isDigit c
      · cases cs with
        | nil => simp [rests, leftBehind, takeDigits, afterDigit, digit]
        | cons s cs => simp [rests, leftBehind, takeDigits, afterDigit, digit]
      · rw [leftBehind_other Nat.one_pos (by simpa using digit)]
        simp [rests, digit]
  induction m generalizing cs with
  | zero => simpa [upTo] using last cs
  | succ m ih =>
    rw [upTo, List.flatMap_append, List.head?_append, List.flatMap_assoc, List.head?_flatMap]
    simp only [ih, List.flatMap_singleton]
    cases cs with
    | nil => rfl
    | cons c cs =>
      by_cases digit : isDigit c
      · rw [digitSeparator_rests, if_pos digit, leftBehind_one digit]
        simp [rests, digit]
      · rw [digitSeparator_rests, if_neg digit,
          leftBehind_other Nat.one_pos (by simpa using digit)]
        simp [rests, digit]

/-- `least` digits with their separators come first. -/
theorem exactly_digits (least m : Nat) (cs : List Char) :
    (((exactly (Regex.seq (.set isDigit) (.opt (.set isSeparator))).rests least cs).flatMap
      (upTo (Regex.seq (.set isDigit) (.opt (.set isSeparator))).rests m)).flatMap
      (Regex.set isDigit).rests).head? = leftBehind (least + 1) (least + m + 1) cs := by
  induction least generalizing cs with
  | zero => simpa [exactly] using upTo_digit m cs
  | succ least ih =>
    rw [exactly, List.flatMap_assoc, List.flatMap_assoc, List.head?_flatMap]
    simp only [← List.flatMap_assoc, ih]
    cases cs with
    | nil => simp [rests, leftBehind, takeDigits_nil]
    | cons c cs =>
      by_cases digit : isDigit c
      · rw [digitSeparator_rests, if_pos digit, show least + 1 + m + 1 = (least + m + 1) + 1 by omega,
          leftBehind_digit digit (Nat.succ_pos _)]
      · rw [digitSeparator_rests, if_neg digit,
          leftBehind_other (Nat.succ_pos _) (by simpa using digit)]
        rfl

theorem takeDigits_isPrefix (n : Nat) (cs : List Char) : takeDigits n cs <+: cs := by
  induction n generalizing cs with
  | zero => exact List.nil_prefix
  | succ n ih =>
    cases cs with
    | nil => exact List.prefix_rfl
    | cons c cs =>
      rw [takeDigits]
      split
      · refine List.cons_prefix_cons.mpr ⟨rfl, ?_⟩
        cases cs with
        | nil => exact ih []
        | cons s cs =>
          rw [afterDigit]
          split
          · exact List.cons_prefix_cons.mpr ⟨rfl, ih cs⟩
          · exact ih (s :: cs)
      · exact List.nil_prefix

/-- The pattern matches the group of digits that starts here, if there is one. -/
theorem matched_card : CARD_NUMBER_VALUE_PATTERN.matched = cardLength := by
  funext cs
  have found : _ = leftBehind 13 19 cs := exactly_digits 12 6 cs
  have fits := (takeDigits_isPrefix 19 cs).length_le
  simp only [matched, CARD_NUMBER_VALUE_PATTERN]
  rw [rests, rests, found, leftBehind, cardLength]
  split
  · simp only [Option.map_some, List.length_drop]
    congr 1
    omega
  · rfl

end Pattern

section Masking
variable {G : Type} {ink : Ink G}

def Ink.emit (ink : Ink G) : G × Fate → Option G
  | (g, .kept) => some g
  | (_, .starred) => some (ink.write '*')
  | (_, .dropped) => none

theorem length_cardFates (cs : List Char) : (cardFates cs).length = cs.length := by
  induction cs with
  | nil => rfl
  | cons c cs ih => rw [cardFates, List.length_cons, ih, List.length_cons]

theorem length_pieceFates (piece : Piece Char) : (pieceFates piece).length = piece.content.length := by
  cases piece with
  | plain c => rfl
  | hit m =>
    rw [pieceFates]
    split
    · exact length_cardFates m
    · exact List.length_map _

theorem countP_takeDigits (n : Nat) (cs : List Char) : (takeDigits n cs).countP isDigit ≤ n := by
  induction n generalizing cs with
  | zero => exact Nat.le_refl 0
  | succ n ih =>
    cases cs with
    | nil => exact Nat.zero_le _
    | cons c cs =>
      by_cases digit : isDigit c
      · rw [takeDigits, if_pos digit, List.countP_cons_of_pos digit]
        refine Nat.succ_le_succ ?_
        cases cs with
        | nil => exact ih []
        | cons s cs =>
          rw [afterDigit]
          split
          · rename_i both
            rw [List.countP_cons_of_neg (by simp [not_digit_of_separator both.1])]
            exact ih cs
          · exact ih (s :: cs)
      · simp [takeDigits, digit]

/-- The mask of a card, character by character. -/
theorem maskDigits_eq (m : List G) : ink.maskDigits (m.filter fun g => isDigit (ink.read g)) =
    (m.zip (cardFates (m.map ink.read))).filterMap ink.emit := by
  have masked : ∀ digits : List G, ink.maskDigits digits =
      List.replicate (digits.length - 4) (ink.write '*') ++ digits.drop (digits.length - 4) := by
    intro digits
    rw [Ink.maskDigits, List.length_drop]
    congr 2
    omega
  rw [masked]
  induction m with
  | nil => rfl
  | cons g m ih =>
    have count : (m.map ink.read).countP isDigit =
        (m.filter fun g => isDigit (ink.read g)).length := by
      rw [List.countP_map, List.countP_eq_length_filter]
      rfl
    rw [List.map_cons, cardFates, List.zip_cons_cons, List.filterMap_cons, count, ← ih]
    by_cases digit : isDigit (ink.read g)
    · rw [List.filter_cons_of_pos (p := fun g => isDigit (ink.read g)) digit, List.length_cons,
        if_pos digit]
      generalize m.filter (fun g => isDigit (ink.read g)) = digits
      by_cases more : 4 ≤ digits.length
      · have one : digits.length + 1 - 4 = digits.length - 4 + 1 := by omega
        rw [if_pos more, one, List.replicate_succ, List.drop_succ_cons]
        rfl
      · have none : digits.length + 1 - 4 = 0 := by omega
        have none' : digits.length - 4 = 0 := by omega
        rw [if_neg more, none, none']
        rfl
    · rw [List.filter_cons_of_neg (p := fun g => isDigit (ink.read g)) digit, if_neg digit]
      rfl

theorem cut_cardLength_length {s : List Char} {n : Nat} (found : cardLength s = some (n + 1)) :
    n + 1 ≤ s.length ∧ s.take (n + 1) = takeDigits 19 s ∧
      13 ≤ (takeDigits 19 s).countP isDigit := by
  have front := takeDigits_isPrefix 19 s
  rw [cardLength] at found
  split at found
  · rename_i enough
    have size := Option.some.inj found
    refine ⟨size ▸ front.length_le, ?_, enough⟩
    rw [← size]
    exact (List.prefix_iff_eq_take.mp front).symm
  · cases found

theorem zip_kept (gs : List G) :
    (gs.zip (gs.map fun _ => Fate.kept)).filterMap ink.emit = gs := by
  induction gs with
  | nil => rfl
  | cons g gs ih => exact congrArg (g :: ·) ih

theorem maskMatch_eq {m : List G} {s : List Char} (group : m.map ink.read = takeDigits 19 s)
    (enough : 13 ≤ (takeDigits 19 s).countP isDigit) :
    ink.maskMatch m = (m.zip (pieceFates (.hit (m.map ink.read)))).filterMap ink.emit := by
  have digits : (m.filter fun g => isDigit (ink.read g)).map ink.read =
      (m.map ink.read).filter isDigit := by
    rw [List.filter_map]
    rfl
  have count : (m.filter fun g => isDigit (ink.read g)).length =
      (takeDigits 19 s).countP isDigit := by
    rw [← group, List.countP_eq_length_filter, ← digits, List.length_map]
  have most := countP_takeDigits 19 s
  rw [Ink.maskMatch, pieceFates, digits, count]
  by_cases valid : isLuhnValid ((m.map ink.read).filter isDigit)
  · have accepted : ¬ (decide ((takeDigits 19 s).countP isDigit < 13) ||
        decide ((takeDigits 19 s).countP isDigit > 19) ||
        !isLuhnValid ((m.map ink.read).filter isDigit)) = true := by
      simp [valid]
      omega
    rw [if_neg accepted, if_pos valid]
    exact maskDigits_eq m
  · have rejected : (decide ((takeDigits 19 s).countP isDigit < 13) ||
        decide ((takeDigits 19 s).countP isDigit > 19) ||
        !isLuhnValid ((m.map ink.read).filter isDigit)) = true := by
      simp [valid]
    rw [if_pos rejected, if_neg valid, List.map_map]
    exact (zip_kept m).symm

theorem fates_plain {c : Char} {s : List Char} (none : ∀ n, cardLength (c :: s) ≠ some (n + 1)) :
    fates (c :: s) = .kept :: fates s := by
  rw [fates, cut_plain (by simpa using none)]
  rfl

theorem fates_hit {s : List Char} {n : Nat} (found : cardLength s = some (n + 1)) (some_ : s ≠ []) :
    fates s = pieceFates (.hit (s.take (n + 1))) ++ fates (s.drop (n + 1)) := by
  rw [fates, cut_hit (by simpa using found) some_]
  rfl

theorem length_fates (s : List Char) : (fates s).length = s.length := by
  rw [fates, List.length_flatMap]
  have same : (cut cardLength id 0 s).map (fun piece => (pieceFates piece).length) =
      (cut cardLength id 0 s).map fun piece => piece.content.length :=
    List.map_congr_left fun piece _ => length_pieceFates piece
  rw [same, ← List.length_flatMap, cut_content]

theorem zip_fates_hit {read : G → Char} {gs : List G} {n : Nat}
    (found : cardLength (gs.map read) = some (n + 1)) (some_ : gs ≠ []) :
    gs.zip (fates (gs.map read)) =
      (gs.take (n + 1)).zip (pieceFates (.hit ((gs.take (n + 1)).map read))) ++
        (gs.drop (n + 1)).zip (fates ((gs.drop (n + 1)).map read)) := by
  have sizes : (gs.take (n + 1)).length =
      (pieceFates (.hit ((gs.take (n + 1)).map read))).length := by
    rw [length_pieceFates]
    exact (List.length_map _).symm
  rw [fates_hit found (by simpa using some_), ← List.map_take, ← List.map_drop,
    ← List.zip_append sizes, List.take_append_drop]

/-- Only digits are starred, and none is dropped. -/
def Fitting (e : Char × Fate) : Prop :=
  (e.2 = .starred → isDigit e.1) ∧ (e.2 = .dropped → isDigit e.1 = false)

theorem cardFates_fitting (m : List Char) : ∀ e ∈ m.zip (cardFates m), Fitting e := by
  induction m with
  | nil => simp
  | cons c m ih =>
    rw [cardFates, List.zip_cons_cons]
    refine List.forall_mem_cons.mpr ⟨?_, ih⟩
    by_cases digit : isDigit c
    · by_cases more : 4 ≤ m.countP isDigit <;> simp [Fitting, digit, more]
    · simp [Fitting, digit]

theorem zip_kept_fitting (m : List Char) :
    ∀ e ∈ m.zip (m.map fun _ => Fate.kept), Fitting e := by
  intro e member
  have kept : e.2 = .kept := by
    obtain ⟨-, right⟩ := List.of_mem_zip member
    obtain ⟨_, -, same⟩ := List.mem_map.mp right
    exact same.symm
  simp [Fitting, kept]

theorem fates_fitting (s : List Char) : ∀ e ∈ s.zip (fates s), Fitting e := by
  induction s using cut_induction cardLength id with
  | nil => simp
  | plain c s none ih =>
    rw [fates_plain (by simpa using none), List.zip_cons_cons]
    exact List.forall_mem_cons.mpr ⟨by simp [Fitting], ih⟩
  | hit s n some_ found ih =>
    have parts := zip_fates_hit found some_
    simp only [List.map_id] at parts
    rw [parts]
    intro e member
    rcases List.mem_append.mp member with inside | later
    · rw [pieceFates] at inside
      split at inside
      · exact cardFates_fitting _ e inside
      · exact zip_kept_fitting _ e inside
    · exact ih e later

/-- Masking acts on each character by its fate. -/
theorem mask_eq (gs : List G) :
    replace CARD_NUMBER_VALUE_PATTERN.matched ink.read ink.maskMatch gs =
      (gs.zip (fates (gs.map ink.read))).filterMap ink.emit := by
  rw [matched_card]
  induction gs using cut_induction cardLength ink.read with
  | nil => rfl
  | plain g gs none ih =>
    rw [replace, cut_plain none, List.map_cons, fates_plain (by simpa using none)]
    exact congrArg (g :: ·) ih
  | hit gs n some_ found ih =>
    obtain ⟨fits, group, enough⟩ := cut_cardLength_length found
    have front : (gs.take (n + 1)).map ink.read = takeDigits 19 (gs.map ink.read) := by
      rw [List.map_take, group]
    rw [zip_fates_hit found some_, List.filterMap_append, ← ih, replace, cut_hit found some_,
      List.flatMap_cons, ← maskMatch_eq front enough]
    rfl

end Masking

end Canals
