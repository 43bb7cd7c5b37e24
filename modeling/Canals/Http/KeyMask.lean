import Canals.Http.Redaction

/-! Which characters of a text stand in the value of an api key, as the pattern
finds them from left to right: those behind a prefix with nothing between that
ends a value. -/
namespace Canals
open Regex

/-- A letter of the pattern, in either case. -/
def SameLetter (c lower : Char) : Prop := c = lower ∨ c = lower.toUpper

/-- `?apikey=`, `&api_key=` and so on. -/
def IsKeyPrefix (p : List Char) : Prop := ∃ q name, p = q :: (name ++ ['=']) ∧
  (q = '?' ∨ q = '&') ∧ (List.Forall₂ SameLetter name ['a', 'p', 'i', 'k', 'e', 'y'] ∨
    List.Forall₂ SameLetter name ['a', 'p', 'i', '_', 'k', 'e', 'y'])

theorem letters_forall (good : Char → Bool) {name lowers : List Char}
    (letters : List.Forall₂ SameLetter name lowers)
    (fine : lowers.all fun l => good l && good l.toUpper) : ∀ c ∈ name, good c := by
  induction letters with
  | nil => simp
  | cons same letters ih =>
    obtain ⟨here, later⟩ := Bool.and_eq_true_iff.mp fine
    obtain ⟨low, up⟩ := Bool.and_eq_true_iff.mp here
    refine List.forall_mem_cons.mpr ⟨?_, ih later⟩
    rcases same with rfl | rfl
    · exact low
    · exact up

theorem IsKeyPrefix.chars {p : List Char} (is : IsKeyPrefix p) : ∃ q name,
    p = q :: (name ++ ['=']) ∧ '=' ∉ q :: name ∧ ∀ c ∈ name ++ ['='], isKeyCharacter c := by
  obtain ⟨q, name, rfl, mark, letters⟩ := is
  have fine : ∀ c ∈ name, (c != '=' && isKeyCharacter c) := by
    rcases letters with letters | letters
    · exact letters_forall (fun c => c != '=' && isKeyCharacter c) letters (by decide)
    · exact letters_forall (fun c => c != '=' && isKeyCharacter c) letters (by decide)
  simp only [Bool.and_eq_true, bne_iff_ne] at fine
  refine ⟨q, name, rfl, ?_, ?_⟩
  · intro member
    rcases List.mem_cons.mp member with here | later
    · rcases mark with rfl | rfl <;> exact absurd here (by decide)
    · exact (fine _ later).1 rfl
  · intro c member
    rcases List.mem_append.mp member with inside | last
    · exact (fine c inside).2
    · rw [List.mem_singleton.mp last]
      decide

theorem mem_keyPrefix {cs rest : List Char} :
    rest ∈ API_KEY_PREFIX.rests cs ↔ ∃ p, cs = p ++ rest ∧ IsKeyPrefix p := by
  simp only [API_KEY_PREFIX, letter, mem_seq, mem_set, mem_opt, Bool.or_eq_true, decide_eq_true_eq]
  constructor
  · rintro ⟨_, ⟨q, rfl, mark⟩, _, ⟨a, rfl, ha⟩, _, ⟨p, rfl, hp⟩, _, ⟨i, rfl, hi⟩, _,
      ⟨_, rfl, rfl⟩ | rfl, _, ⟨k, rfl, hk⟩, _, ⟨e, rfl, he⟩, _, ⟨y, rfl, hy⟩, _, rfl, rfl⟩
    · exact ⟨[q, a, p, i, '_', k, e, y, '='], rfl, q, [a, p, i, '_', k, e, y], rfl, mark,
        .inr (.cons ha (.cons hp (.cons hi (.cons (.inl rfl) (.cons hk (.cons he
          (.cons hy .nil)))))))⟩
    · exact ⟨[q, a, p, i, k, e, y, '='], rfl, q, [a, p, i, k, e, y], rfl, mark,
        .inl (.cons ha (.cons hp (.cons hi (.cons hk (.cons he (.cons hy .nil))))))⟩
  · rintro ⟨_, rfl, q, name, rfl, mark, letters | letters⟩
    · obtain _ | ⟨ha, _ | ⟨hp, _ | ⟨hi, _ | ⟨hk, _ | ⟨he, _ | ⟨hy, _ | _⟩⟩⟩⟩⟩⟩ := letters
      exact ⟨_, ⟨q, rfl, mark⟩, _, ⟨_, rfl, ha⟩, _, ⟨_, rfl, hp⟩, _, ⟨_, rfl, hi⟩, _, .inr rfl,
        _, ⟨_, rfl, hk⟩, _, ⟨_, rfl, he⟩, _, ⟨_, rfl, hy⟩, _, rfl, rfl⟩
    · obtain _ | ⟨ha, _ | ⟨hp, _ | ⟨hi, _ | ⟨hu, _ | ⟨hk, _ | ⟨he, _ | ⟨hy, _ | _⟩⟩⟩⟩⟩⟩⟩ := letters
      have under := hu.elim id id
      exact ⟨_, ⟨q, rfl, mark⟩, _, ⟨_, rfl, ha⟩, _, ⟨_, rfl, hp⟩, _, ⟨_, rfl, hi⟩, _,
        .inl ⟨_, rfl, under⟩, _, ⟨_, rfl, hk⟩, _, ⟨_, rfl, he⟩, _, ⟨_, rfl, hy⟩, _, rfl, rfl⟩

/-- The first `=` ends the prefix. -/
theorem IsKeyPrefix.unique {p p' m m' : List Char} (is : IsKeyPrefix p) (is' : IsKeyPrefix p')
    (same : p ++ m = p' ++ m') : p = p' ∧ m = m' := by
  have first : ∀ {x x' y y' : List Char}, '=' ∉ x → '=' ∉ x' →
      x ++ '=' :: y = x' ++ '=' :: y' → x = x' ∧ y = y' := by
    intro x x' y y' none none' same
    rcases List.append_eq_append_iff.mp same with ⟨z, rfl, tail⟩ | ⟨z, rfl, tail⟩
    · cases z with
      | nil => exact ⟨(List.append_nil x).symm, (List.cons.inj tail).2⟩
      | cons c z =>
        cases tail
        simp at none'
    · cases z with
      | nil => exact ⟨List.append_nil x', (List.cons.inj tail).2.symm⟩
      | cons c z =>
        cases tail
        simp at none
  obtain ⟨q, name, rfl, none, -⟩ := is.chars
  obtain ⟨q', name', rfl, none', -⟩ := is'.chars
  have split : (q :: name) ++ '=' :: m = (q' :: name') ++ '=' :: m' := by simpa using same
  obtain ⟨front, back⟩ := first none none' split
  refine ⟨?_, back⟩
  cases front
  rfl

/-- A prefix with its value, as far as the value goes. -/
structure Keyed (cs p value rest : List Char) : Prop where
  split : cs = p ++ (value ++ rest)
  isPrefix : IsKeyPrefix p
  nonempty : value ≠ []
  all : ∀ c ∈ value, isKeyCharacter c
  stop : ∀ c ∈ rest.head?, isKeyCharacter c = false

theorem keyed_of_head {cs p m : List Char} (split : cs = p ++ m) (isPrefix : IsKeyPrefix p)
    (more : ∃ c ∈ m.head?, isKeyCharacter c) :
    Keyed cs p (m.takeWhile isKeyCharacter) (m.dropWhile isKeyCharacter) where
  split := by rw [List.takeWhile_append_dropWhile, split]
  isPrefix := isPrefix
  nonempty := by
    obtain ⟨c, first, key⟩ := more
    cases m with
    | nil => cases first
    | cons c' m =>
      cases first
      simp [key]
  all := List.all_eq_true.mp List.all_takeWhile
  stop := by
    intro c first
    have stopped := List.head?_dropWhile_not isKeyCharacter m
    rwa [Option.mem_def.mp first] at stopped

theorem key_found {cs p value rest : List Char} (keyed : Keyed cs p value rest) :
    API_KEY_QUERY_PATTERN.matched cs = some (p ++ value).length := by
  have same : ∀ m ∈ API_KEY_PREFIX.rests cs, m = value ++ rest := by
    intro m member
    obtain ⟨p', split, isPrefix⟩ := mem_keyPrefix.mp member
    exact (keyed.isPrefix.unique isPrefix (keyed.split.symm.trans split)).2.symm
  have some_ : value ++ rest ∈ API_KEY_PREFIX.rests cs :=
    mem_keyPrefix.mpr ⟨p, keyed.split, keyed.isPrefix⟩
  have head : (API_KEY_QUERY_PATTERN.rests cs).head? = some rest := by
    rw [API_KEY_QUERY_PATTERN, rests, List.head?_flatMap]
    cases found : API_KEY_PREFIX.rests cs with
    | nil => simp [found] at some_
    | cons m ms =>
      rw [found] at same
      rw [List.findSome?_cons, same m List.mem_cons_self, rests,
        oneOrMore_head keyed.nonempty keyed.all keyed.stop]
  rw [matched, head, keyed.split, Option.map_some]
  simp only [List.length_append, Option.some.injEq]
  omega

/-- A match of the pattern is a prefix with its value. -/
theorem key_matched {cs : List Char} {n : Nat} : API_KEY_QUERY_PATTERN.matched cs = some n ↔
    ∃ p value rest, Keyed cs p value rest ∧ n = (p ++ value).length := by
  constructor
  · intro found
    obtain ⟨rest, head, -⟩ := Option.map_eq_some_iff.mp found
    obtain ⟨m, member, inside⟩ := mem_seq.mp (List.mem_of_mem_head? head)
    obtain ⟨p, split, isPrefix⟩ := mem_keyPrefix.mp member
    have more : ∃ c ∈ m.head?, isKeyCharacter c := by
      by_contra none
      have stop : ∀ c ∈ m.head?, isKeyCharacter c = false := by simpa using none
      rw [rests, oneOrMore_stop stop] at inside
      cases inside
    have keyed := keyed_of_head split isPrefix more
    exact ⟨p, _, _, keyed, Option.some.inj (found.symm.trans (key_found keyed))⟩
  · rintro ⟨p, value, rest, keyed, rfl⟩
    exact key_found keyed

/-- The text ends within the value of an api key. -/
def EndsInKey (s : List Char) : Prop :=
  ∃ p value, p ++ value <:+ s ∧ IsKeyPrefix p ∧ value ≠ [] ∧ ∀ c ∈ value, isKeyCharacter c

/-- Behind its first character everything may be a value. -/
theorem keyed_tail {p value : List Char} (isPrefix : IsKeyPrefix p)
    (all : ∀ c ∈ value, isKeyCharacter c) :
    ∃ q tail, p ++ value = q :: tail ∧ ∀ c ∈ tail, isKeyCharacter c := by
  obtain ⟨q, name, rfl, -, keys⟩ := isPrefix.chars
  refine ⟨q, (name ++ ['=']) ++ value, rfl, ?_⟩
  intro c member
  rcases List.mem_append.mp member with inside | inside
  · exact keys c inside
  · exact all c inside

/-- No value goes on where a value has stopped. -/
theorem endsInKey_append {s t : List Char} (some_ : t ≠ [])
    (stop : ∀ c ∈ t.head?, isKeyCharacter c = false) : EndsInKey (s ++ t) ↔ EndsInKey t := by
  constructor
  · rintro ⟨p, value, ⟨x, split⟩, isPrefix, nonempty, all⟩
    refine ⟨p, value, ?_, isPrefix, nonempty, all⟩
    rcases List.append_eq_append_iff.mp split with ⟨z, -, inside⟩ | ⟨z, -, inside⟩
    · cases z with
      | nil => exact ⟨[], inside⟩
      | cons c z =>
        obtain ⟨q, tail, same, keys⟩ := keyed_tail isPrefix all
        obtain ⟨-, rfl⟩ := List.cons.inj (same.symm.trans inside)
        obtain ⟨r, t, rfl⟩ := List.exists_cons_of_ne_nil some_
        have key := keys r (by simp)
        rw [stop r rfl] at key
        cases key
    · exact ⟨z, inside.symm⟩
  · rintro ⟨p, value, suffix_, rest⟩
    exact ⟨p, value, suffix_.trans (List.suffix_append s t), rest⟩

/-- What the prefix holds is kept. -/
theorem not_endsInKey_prefix {p s : List Char} (isPrefix : IsKeyPrefix p) (front : s <+: p) :
    ¬ EndsInKey s := by
  rintro ⟨p', value, ⟨x, split⟩, isPrefix', nonempty, -⟩
  obtain ⟨q, name, rfl, none, -⟩ := isPrefix.chars
  obtain ⟨q', name', rfl, -, -⟩ := isPrefix'.chars
  obtain ⟨y, whole⟩ := front
  obtain ⟨c, value, rfl⟩ := List.exists_cons_of_ne_nil nonempty
  rw [← split] at whole
  have shape : (x ++ q' :: name') ++ '=' :: (c :: value ++ y) = (q :: name) ++ '=' :: [] := by
    simpa using whole
  rcases List.append_eq_append_iff.mp shape with ⟨z, inside, tail⟩ | ⟨z, -, tail⟩
  · cases z with
    | nil => simp at tail
    | cons d z =>
      obtain ⟨rfl, -⟩ := List.cons.inj tail
      simp [inside] at none
  · cases z with
    | nil => simp at tail
    | cons d z => simp at tail

theorem endsInKey_value {p value s : List Char} (isPrefix : IsKeyPrefix p) (nonempty : s ≠ [])
    (all : ∀ c ∈ value, isKeyCharacter c) (front : s <+: value) : EndsInKey (p ++ s) :=
  ⟨p, s, List.suffix_rfl, isPrefix, nonempty, fun c member => all c (front.subset member)⟩

/-- Where no match starts, the values are those of what follows. -/
theorem endsInKey_cons {c : Char} {s t : List Char} (front : s <+: t)
    (none : ∀ n, API_KEY_QUERY_PATTERN.matched (c :: t) ≠ some (n + 1)) :
    EndsInKey (c :: s) ↔ EndsInKey s := by
  constructor
  · rintro ⟨p, value, suffix_, isPrefix, nonempty, all⟩
    rcases List.suffix_cons_iff.mp suffix_ with whole | inside
    · exfalso
      obtain ⟨y, rfl⟩ := front
      obtain ⟨d, value, rfl⟩ := List.exists_cons_of_ne_nil nonempty
      have split : c :: (s ++ y) = p ++ (d :: value ++ y) := by
        rw [← List.append_assoc, whole, List.cons_append]
      have keyed := keyed_of_head split isPrefix ⟨d, rfl, all d List.mem_cons_self⟩
      obtain ⟨q, name, rfl, -, -⟩ := isPrefix.chars
      exact none _ (key_found keyed)
    · exact ⟨p, value, inside, isPrefix, nonempty, all⟩
  · rintro ⟨p, value, suffix_, rest⟩
    exact ⟨p, value, suffix_.trans (List.suffix_cons c s), rest⟩

theorem prefix_matched {p value : List Char} (isPrefix : IsKeyPrefix p) :
    API_KEY_PREFIX.matched (p ++ value) = some p.length := by
  have some_ : value ∈ API_KEY_PREFIX.rests (p ++ value) := mem_keyPrefix.mpr ⟨p, rfl, isPrefix⟩
  rw [matched]
  cases found : API_KEY_PREFIX.rests (p ++ value) with
  | nil => simp [found] at some_
  | cons m ms =>
    obtain ⟨p', split, isPrefix'⟩ := mem_keyPrefix.mp (found ▸ List.mem_cons_self)
    obtain ⟨-, rfl⟩ := isPrefix.unique isPrefix' split
    simp

variable {G : Type} {ink : Ink G}

/-- Some element that satisfies `holds` stands outside the values of api keys. -/
def OutsideKeys (ink : Ink G) (holds : G → Prop) (gs : List G) : Prop :=
  ∃ i g, gs[i]? = some g ∧ holds g ∧ ¬ EndsInKey ((gs.map ink.read).take (i + 1))

theorem outsideKeys_cons {holds : G → Prop} {g : G} {gs : List G}
    (none : ∀ n, API_KEY_QUERY_PATTERN.matched ((g :: gs).map ink.read) ≠ some (n + 1)) :
    OutsideKeys ink holds (g :: gs) ↔ holds g ∨ OutsideKeys ink holds gs := by
  have same : ∀ i, EndsInKey (((g :: gs).map ink.read).take (i + 1)) ↔
      EndsInKey ((gs.map ink.read).take i) :=
    fun i => endsInKey_cons (List.take_prefix i _) none
  have empty : ¬ EndsInKey [] := by
    rintro ⟨p, value, suffix_, -, nonempty, -⟩
    exact nonempty (List.append_eq_nil_iff.mp (List.suffix_nil.mp suffix_)).2
  constructor
  · rintro ⟨i, h, here, held, outside⟩
    rw [same] at outside
    cases i with
    | zero =>
      cases here
      exact .inl held
    | succ i => exact .inr ⟨i, h, here, held, outside⟩
  · rintro (held | ⟨i, h, here, held, outside⟩)
    · exact ⟨0, g, rfl, held, fun ends => empty ((same 0).mp ends)⟩
    · exact ⟨i + 1, h, here, held, fun ends => outside ((same (i + 1)).mp ends)⟩

theorem outsideKeys_hit {holds : G → Prop} {gs : List G} {p value rest : List Char}
    (keyed : Keyed (gs.map ink.read) p value rest) : OutsideKeys ink holds gs ↔
      (∃ g ∈ gs.take p.length, holds g) ∨ OutsideKeys ink holds (gs.drop (p ++ value).length) := by
  have stopped : ∀ j, j < rest.length → (EndsInKey (p ++ value ++ rest.take (j + 1)) ↔
      EndsInKey (rest.take (j + 1))) := by
    intro j inside
    refine endsInKey_append ?_ ?_
    · cases rest with
      | nil => cases inside
      | cons r rest => simp
    · intro c first
      refine keyed.stop c ?_
      rwa [List.head?_take, if_neg (Nat.succ_ne_zero j)] at first
  have left : rest = (gs.drop (p ++ value).length).map ink.read := by
    rw [List.map_drop, keyed.split, ← List.append_assoc, List.drop_left]
  have later : ∀ j, (gs.map ink.read).take ((p ++ value).length + j + 1) =
      p ++ value ++ rest.take (j + 1) := by
    intro j
    rw [keyed.split, ← List.append_assoc, Nat.add_assoc, List.take_length_add_append]
  constructor
  · rintro ⟨i, g, here, held, outside⟩
    by_cases inPrefix : i < p.length
    · refine .inl ⟨g, List.mem_iff_getElem?.mpr ⟨i, ?_⟩, held⟩
      rw [List.getElem?_take_of_lt inPrefix, here]
    · by_cases inValue : i < (p ++ value).length
      · refine absurd ?_ outside
        obtain ⟨k, rfl⟩ : ∃ k, i = p.length + k := ⟨i - p.length, by omega⟩
        rw [List.length_append] at inValue
        rw [keyed.split, Nat.add_assoc, List.take_length_add_append,
          List.take_append_of_le_length (by omega)]
        refine endsInKey_value keyed.isPrefix ?_ keyed.all (List.take_prefix _ _)
        have nonempty := keyed.nonempty
        simp [nonempty]
      · obtain ⟨j, rfl⟩ : ∃ j, i = (p ++ value).length + j := ⟨i - (p ++ value).length, by omega⟩
        rw [← List.getElem?_drop] at here
        have inside : j < rest.length := by
          obtain ⟨inside, -⟩ := List.getElem?_eq_some_iff.mp here
          rw [left, List.length_map]
          exact inside
        rw [later, stopped j inside, left] at outside
        exact .inr ⟨j, g, here, held, outside⟩
  · rintro (⟨g, member, held⟩ | ⟨j, g, here, held, outside⟩)
    · obtain ⟨i, here⟩ := List.mem_iff_getElem?.mp member
      obtain ⟨inside, -⟩ := List.getElem?_eq_some_iff.mp here
      rw [List.length_take] at inside
      rw [List.getElem?_take_of_lt (by omega)] at here
      refine ⟨i, g, here, held, not_endsInKey_prefix keyed.isPrefix ?_⟩
      rw [keyed.split, List.take_append_of_le_length (by omega)]
      exact List.take_prefix _ _
    · have inside : j < rest.length := by
        obtain ⟨inside, -⟩ := List.getElem?_eq_some_iff.mp here
        rw [left, List.length_map]
        exact inside
      refine ⟨(p ++ value).length + j, g, ?_, held, ?_⟩
      · rw [← List.getElem?_drop, here]
      · rw [later, stopped j inside, left]
        exact outside

/-- What the second replacement keeps. -/
theorem exists_redactKey {holds : G → Prop} (fresh : ∀ c, ¬ holds (ink.write c)) (gs : List G) :
    (∃ g ∈ replace API_KEY_QUERY_PATTERN.matched ink.read ink.redactKey gs, holds g) ↔
      OutsideKeys ink holds gs := by
  induction gs using cut_induction API_KEY_QUERY_PATTERN.matched ink.read with
  | nil =>
    constructor
    · rintro ⟨g, member, -⟩
      cases member
    · rintro ⟨i, g, here, -⟩
      cases here
  | plain g gs none ih =>
    rw [outsideKeys_cons none, ← ih, replace, cut_plain none, List.flatMap_cons]
    simp [Piece.replace, replace]
  | hit gs n some_ found ih =>
    obtain ⟨p, value, rest, keyed, size⟩ := key_matched.mp found
    have taken : (gs.take (n + 1)).map ink.read = p ++ value := by
      rw [List.map_take, keyed.split, ← List.append_assoc, size, List.take_left]
    have kept : ink.redactKey (gs.take (n + 1)) =
        gs.take p.length ++ REDACTED_SECRET.map ink.write := by
      have less : min p.length (n + 1) = p.length := by
        rw [size, List.length_append]
        omega
      rw [Ink.redactKey, taken, prefix_matched keyed.isPrefix, Option.getD_some, List.take_take, less]
    have split : replace API_KEY_QUERY_PATTERN.matched ink.read ink.redactKey gs =
        gs.take p.length ++ REDACTED_SECRET.map ink.write ++
          replace API_KEY_QUERY_PATTERN.matched ink.read ink.redactKey (gs.drop (n + 1)) := by
      rw [replace, cut_hit found some_, List.flatMap_cons, Piece.replace, kept, replace]
    have written : ¬ ∃ g ∈ REDACTED_SECRET.map ink.write, holds g := by
      rintro ⟨g, member, held⟩
      obtain ⟨c, -, rfl⟩ := List.mem_map.mp member
      exact fresh c held
    rw [outsideKeys_hit keyed, ← size, ← ih, split]
    simp only [List.mem_append, or_and_right, exists_or, written, or_false]

end Canals
