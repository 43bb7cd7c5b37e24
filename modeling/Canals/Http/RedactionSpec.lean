import Canals.Http.CardMask
import Canals.Http.KeyMask

/-! Which card numbers survive the redaction of a text. Every character is followed
through `redactString` by the place it had: a card is hidden as soon as one of its
digits is. -/
namespace Canals
open Regex

section Places

/-- A character that remembers its place; what redaction writes has none. -/
def traced : Ink (Char × Option Nat) := ⟨Prod.fst, fun c => (c, none)⟩

def places (s : List Char) : List (Char × Option Nat) := s.zipIdx.map fun e => (e.1, some e.2)

/-- The character at `i` is still there after redaction. -/
def Survives (s : List Char) (i : Nat) : Prop := ∃ c, (c, some i) ∈ traced.redactString (places s)

variable {G H : Type} {inkG : Ink G} {inkH : Ink H} {f : H → G}

theorem maskMatch_map (reads : inkH.read = inkG.read ∘ f) (writes : inkG.write = f ∘ inkH.write)
    (m : List H) : (inkH.maskMatch m).map f = inkG.maskMatch (m.map f) := by
  have digits : (m.map f).filter (fun g => isDigit (inkG.read g)) =
      (m.filter fun h => isDigit (inkH.read h)).map f := by
    rw [List.filter_map, reads]
    rfl
  rw [Ink.maskMatch, Ink.maskMatch, digits, List.length_map, List.map_map, ← reads]
  split
  · rfl
  · simp [Ink.maskDigits, writes]

theorem redactKey_map (reads : inkH.read = inkG.read ∘ f) (writes : inkG.write = f ∘ inkH.write)
    (m : List H) : (inkH.redactKey m).map f = inkG.redactKey (m.map f) := by
  simp [Ink.redactKey, reads, writes]

/-- Redaction acts on characters whatever carries them. -/
theorem redactString_map (reads : inkH.read = inkG.read ∘ f) (writes : inkG.write = f ∘ inkH.write)
    (hs : List H) : (inkH.redactString hs).map f = inkG.redactString (hs.map f) := by
  have natural := maskMatch_map reads writes
  have natural' := redactKey_map reads writes
  rw [Ink.redactString, Ink.redactString, reads, replace_map natural', replace_map natural]

theorem places_read (s : List Char) : (places s).map Prod.fst = s := by
  rw [places, List.map_map]
  exact List.zipIdx_map_fst 0 s

theorem mem_places {s : List Char} {i : Nat} {c : Char} (here : s[i]? = some c) :
    (c, some i) ∈ places s :=
  List.mem_map.mpr ⟨(c, i), List.mem_zipIdx_iff_getElem?.mpr here, rfl⟩

/-- Without the places it is what `redact` returns. -/
theorem traced_redact (s : String) :
    (traced.redactString (places s.toList)).map Prod.fst = (redact s).toList := by
  rw [redactString_map (f := Prod.fst) (rfl : _ = plain.read ∘ _) rfl, places_read, redact, String.toList_ofList]

end Places

section Survival

/-- The text before the place `n`, without the separators of masked cards. -/
def joined (s : List Char) (n : Nat) : List Char :=
  (((s.zip (fates s)).take n).filter fun e => e.2 ≠ .dropped).map Prod.fst

/-- A character that is no part of a prefix and may be part of a value. -/
def Inert (c : Char) : Prop := isKeyCharacter c ∧ ∀ p, IsKeyPrefix p → c ∉ p

theorem IsKeyPrefix.letters {p : List Char} (is : IsKeyPrefix p) :
    ∀ c ∈ p, isDigit c = false ∧ c ≠ '*' := by
  obtain ⟨q, name, rfl, mark, letters⟩ := is
  have inName : ∀ c ∈ name, (!isDigit c && c != '*') := by
    rcases letters with letters | letters
    · exact letters_forall (fun c => !isDigit c && c != '*') letters (by decide)
    · exact letters_forall (fun c => !isDigit c && c != '*') letters (by decide)
  simp only [Bool.and_eq_true, Bool.not_eq_true', bne_iff_ne] at inName
  refine List.forall_mem_cons.mpr ⟨?_, ?_⟩
  · rcases mark with rfl | rfl <;> decide
  · intro c member
    rcases List.mem_append.mp member with inside | last
    · exact inName c inside
    · rw [List.mem_singleton.mp last]
      decide

theorem inert_star : Inert '*' :=
  ⟨by decide, fun _ is member => (is.letters _ member).2 rfl⟩

theorem isKeyCharacter_of_digit {c : Char} (digit : isDigit c) : isKeyCharacter c := by
  have low : 48 ≤ c.toNat := by
    simpa [isDigit, Char.le_def, UInt32.le_iff_toNat_le] using (Bool.and_eq_true_iff.mp digit).1
  have high : c.toNat ≤ 57 := by
    simpa [isDigit, Char.le_def, UInt32.le_iff_toNat_le] using (Bool.and_eq_true_iff.mp digit).2
  have checked : ∀ n < 58, 48 ≤ n → isKeyCharacter (Char.ofNat n) := by decide
  have key := checked c.toNat (by omega) low
  rwa [Char.ofNat_toNat] at key

theorem inert_digit {c : Char} (digit : isDigit c) : Inert c :=
  ⟨isKeyCharacter_of_digit digit,
    fun _ is member => Bool.noConfusion (digit.symm.trans (is.letters _ member).1)⟩

/-- An inert character may stand for another. -/
theorem EndsInKey.map {E : Type} {f g : E → Char} {es : List E} (ends : EndsInKey (es.map f))
    (same : ∀ e ∈ es, f e = g e ∨ (Inert (f e) ∧ Inert (g e))) : EndsInKey (es.map g) := by
  obtain ⟨p, value, ⟨x, split⟩, isPrefix, nonempty, all⟩ := ends
  obtain ⟨before, inside, rfl, -, parts⟩ := List.map_eq_append_iff.mp split.symm
  obtain ⟨front, back, rfl, rfl, rfl⟩ := List.map_eq_append_iff.mp parts
  have sameFront : front.map g = front.map f := by
    refine List.map_congr_left fun e member => ?_
    rcases same e (by simp [member]) with equal | ⟨⟨-, outside⟩, -⟩
    · exact equal.symm
    · exact absurd (List.mem_map_of_mem member) (outside _ isPrefix)
  refine ⟨front.map g, back.map g, ⟨before.map g, by simp⟩, sameFront ▸ isPrefix, ?_, ?_⟩
  · simpa using nonempty
  · intro c member
    obtain ⟨e, inBack, rfl⟩ := List.mem_map.mp member
    rcases same e (by simp [inBack]) with equal | ⟨-, inert⟩
    · rw [← equal]
      exact all _ (List.mem_map_of_mem inBack)
    · exact inert.1

/-- For the values of keys a starred digit counts as the digit. -/
theorem endsInKey_emit {es : List (Char × Fate)} (fitting : ∀ e ∈ es, Fitting e) :
    EndsInKey (es.filterMap plain.emit) ↔
      EndsInKey ((es.filter fun e => e.2 ≠ .dropped).map Prod.fst) := by
  let star : Char × Fate → Char := fun e => if e.2 = .starred then '*' else e.1
  have emitted : es.filterMap plain.emit = (es.filter fun e => e.2 ≠ .dropped).map star := by
    clear fitting
    induction es with
    | nil => rfl
    | cons e es ih =>
      obtain ⟨c, fate⟩ := e
      cases fate with
      | kept => exact congrArg (c :: ·) ih
      | starred => exact congrArg ('*' :: ·) ih
      | dropped => exact ih
  have alike : ∀ e ∈ es.filter (fun e => e.2 ≠ .dropped),
      star e = e.1 ∨ (Inert (star e) ∧ Inert e.1) := by
    intro e member
    by_cases starred : e.2 = .starred
    · have written : star e = '*' := if_pos starred
      have digit := (fitting e (List.mem_filter.mp member).1).1 starred
      exact .inr ⟨written ▸ inert_star, inert_digit digit⟩
    · exact .inl (if_neg starred)
  rw [emitted]
  constructor
  · intro ends
    exact ends.map alike
  · intro ends
    exact ends.map fun e member => (alike e member).imp Eq.symm And.symm

/-- An element behind a `filterMap` with what stands before it comes from one before. -/
theorem exists_filterMap {E F : Type} {f : E → Option F} (holds : F → List F → Prop) (es : List E) :
    (∃ k b, (es.filterMap f)[k]? = some b ∧ holds b ((es.filterMap f).take (k + 1))) ↔
      ∃ j e b, es[j]? = some e ∧ f e = some b ∧ holds b ((es.take (j + 1)).filterMap f) := by
  induction es generalizing holds with
  | nil => simp
  | cons e es ih =>
    have later : (∃ j e' b, (e :: es)[j]? = some e' ∧ f e' = some b ∧
          holds b (((e :: es).take (j + 1)).filterMap f)) ↔
        (∃ b, f e = some b ∧ holds b ([e].filterMap f)) ∨
          ∃ j e' b, es[j]? = some e' ∧ f e' = some b ∧
            holds b ((e :: es.take (j + 1)).filterMap f) := by
      constructor
      · rintro ⟨j, e', b, here, emits, held⟩
        cases j with
        | zero =>
          cases here
          exact .inl ⟨b, emits, held⟩
        | succ j => exact .inr ⟨j, e', b, here, emits, held⟩
      · rintro (⟨b, emits, held⟩ | ⟨j, e', b, here, emits, held⟩)
        · exact ⟨0, e, b, rfl, emits, held⟩
        · exact ⟨j + 1, e', b, here, emits, held⟩
    rw [later]
    cases emits : f e with
    | none =>
      simp only [List.filterMap_cons_none emits, reduceCtorEq, false_and, exists_false, false_or]
      exact ih holds
    | some b =>
      simp only [List.filterMap_cons_some emits]
      rw [← ih fun b' before => holds b' (b :: before)]
      constructor
      · rintro ⟨k, b', here, held⟩
        cases k with
        | zero =>
          cases here
          exact .inl ⟨b, rfl, held⟩
        | succ k => exact .inr ⟨k, b', here, held⟩
      · rintro (⟨b', same, held⟩ | ⟨k, b', here, held⟩)
        · cases same
          exact ⟨0, b, rfl, held⟩
        · exact ⟨k + 1, b', here, held⟩

theorem placed {s : List Char} {j : Nat} {e : (Char × Option Nat) × Fate} :
    ((places s).zip (fates s))[j]? = some e ↔
      s[j]? = some e.1.1 ∧ e.1.2 = some j ∧ (fates s)[j]? = some e.2 := by
  obtain ⟨⟨c, place⟩, fate⟩ := e
  rw [List.getElem?_zip_eq_some, places, List.getElem?_map, List.getElem?_zipIdx, Nat.zero_add,
    Option.map_map, ← and_assoc]
  refine and_congr_left' ?_
  cases s[j]? with
  | none => simp
  | some d => simp [eq_comm]

theorem emitted_before (s : List Char) (n : Nat) :
    ((((places s).zip (fates s)).take n).filterMap traced.emit).map Prod.fst =
      ((s.zip (fates s)).take n).filterMap plain.emit := by
  have forget : s.zip (fates s) = ((places s).zip (fates s)).map (Prod.map Prod.fst id) := by
    rw [← List.zip_map_left, places_read]
  rw [forget, ← List.map_take, List.filterMap_map, List.map_filterMap]
  refine congrArg (List.filterMap · _) (funext fun e => ?_)
  obtain ⟨⟨c, place⟩, fate⟩ := e
  cases fate <;> rfl

/-- What survives is kept by the masks and stands in no value of a key. -/
theorem survives_iff {s : List Char} {i : Nat} :
    Survives s i ↔ (fates s)[i]? = some .kept ∧ ¬ EndsInKey (joined s (i + 1)) := by
  have fitting : ∀ e ∈ (s.zip (fates s)).take (i + 1), Fitting e :=
    fun e member => fates_fitting s e (List.mem_of_mem_take member)
  have found : Survives s i ↔ ∃ g ∈ traced.redactString (places s), g.2 = some i := by
    constructor
    · rintro ⟨c, member⟩
      exact ⟨_, member, rfl⟩
    · rintro ⟨⟨c, _⟩, member, rfl⟩
      exact ⟨c, member⟩
  have fresh : ∀ c, ¬ (traced.write c).2 = some i := by
    intro c same
    cases same
  rw [found, Ink.redactString, exists_redactKey fresh, OutsideKeys, mask_eq]
  simp only [← List.map_take]
  rw [exists_filterMap fun g before => g.2 = some i ∧ ¬ EndsInKey (before.map traced.read)]
  have reading : (places s).map traced.read = s := places_read s
  have key := endsInKey_emit fitting
  rw [← emitted_before] at key
  rw [reading, joined, ← key]
  constructor
  · rintro ⟨j, ⟨g, fate⟩, b, here, emits, place, outside⟩
    obtain ⟨-, own, decided⟩ := placed.mp here
    cases fate with
    | kept =>
      obtain rfl := Option.some.inj emits
      obtain rfl := Option.some.inj (own.symm.trans place)
      exact ⟨decided, outside⟩
    | starred =>
      obtain rfl := Option.some.inj emits
      cases place
    | dropped => cases emits
  · rintro ⟨kept, outside⟩
    have inside : i < s.length := by
      rw [← length_fates]
      exact (List.getElem?_eq_some_iff.mp kept).1
    have here : ((places s).zip (fates s))[i]? = some ((s[i], some i), .kept) :=
      placed.mpr ⟨List.getElem?_eq_getElem inside, rfl, kept⟩
    exact ⟨i, _, (s[i], some i), here, rfl, rfl, outside⟩

/-- A digit is hidden by a star or in the value of a key. -/
theorem digit_survives {s : List Char} {i : Nat} {c : Char} (here : s[i]? = some c)
    (digit : isDigit c) : ¬ Survives s i ↔
      (fates s)[i]? = some .starred ∨ EndsInKey (joined s (i + 1)) := by
  have inside : i < (fates s).length := by
    rw [length_fates]
    exact (List.getElem?_eq_some_iff.mp here).1
  have decided : (fates s)[i]? = some (fates s)[i] := List.getElem?_eq_getElem inside
  have member : (c, (fates s)[i]) ∈ s.zip (fates s) :=
    List.mem_of_getElem? (List.getElem?_zip_eq_some.mpr ⟨here, decided⟩)
  have fitting := fates_fitting s _ member
  rw [survives_iff, decided]
  cases fate : (fates s)[i] with
  | kept => simp
  | starred => simp
  | dropped =>
    have other := fitting.2 fate
    rw [digit] at other
    cases other

end Survival

section Cards

/-- Digits, two of them apart by nothing or one separator. -/
inductive DigitRun : List Char → Prop
  | last {d : Char} : isDigit d → DigitRun [d]
  | next {d : Char} {run : List Char} : isDigit d → DigitRun run → DigitRun (d :: run)
  | apart {d c : Char} {run : List Char} : isDigit d → isSeparator c → DigitRun run →
      DigitRun (d :: c :: run)

/-- A card number in a text: `s` is `before`, the number as it is written, and `after`. -/
structure CardOccurrence (s before number after : List Char) : Prop where
  split : s = before ++ (number ++ after)
  run : DigitRun number
  size : 13 ≤ number.countP isDigit ∧ number.countP isDigit ≤ 19
  luhn : isLuhnValid (number.filter isDigit)
  noneBefore : ∀ c ∈ before.getLast?, isDigit c = false
  noneAfter : ∀ c ∈ after.head?, isDigit c = false

theorem CardOccurrence.getElem? {s before number after : List Char} {i : Nat} {c : Char}
    (occurs : CardOccurrence s before number after) (here : number[i]? = some c) :
    s[before.length + i]? = some c := by
  have inside : i < number.length := (List.getElem?_eq_some_iff.mp here).1
  rw [occurs.split, List.getElem?_append_right (by omega), Nat.add_sub_cancel_left,
    List.getElem?_append_left inside, here]

/-- All its digits are still there after redaction. -/
def StillPresent (s before number : List Char) : Prop :=
  ∀ i c, number[i]? = some c → isDigit c → Survives s (before.length + i)

/-- One of its digits is starred, as a digit but the last four of a group that passes
the Luhn check, or stands in the value of an api key. -/
def Covered (s before number : List Char) : Prop :=
  ∃ i c, number[i]? = some c ∧ isDigit c ∧
    ((fates s)[before.length + i]? = some .starred ∨ EndsInKey (joined s (before.length + i + 1)))

/-- Redaction hides the card numbers of exactly the texts in which each of them is
covered. -/
theorem redact_hides_cards (s : String) :
    (∀ before number after, CardOccurrence s.toList before number after →
      ¬ StillPresent s.toList before number) ↔
    ∀ before number after, CardOccurrence s.toList before number after →
      Covered s.toList before number := by
  have one : ∀ before number after, CardOccurrence s.toList before number after →
      (¬ StillPresent s.toList before number ↔ Covered s.toList before number) := by
    intro before number after occurs
    constructor
    · intro gone
      simp only [StillPresent, not_forall] at gone
      obtain ⟨i, c, here, digit, lost⟩ := gone
      exact ⟨i, c, here, digit, (digit_survives (occurs.getElem? here) digit).mp lost⟩
    · rintro ⟨i, c, here, digit, covered⟩ present
      exact (digit_survives (occurs.getElem? here) digit).mpr covered (present i c here digit)
  exact forall_congr' fun before => forall_congr' fun number => forall_congr' fun after =>
    ⟨fun hides occurs => (one _ _ _ occurs).mp (hides occurs),
      fun covers occurs => (one _ _ _ occurs).mpr (covers occurs)⟩

/-- The quantity in front is taken together with the card, and the 17 digits fail the check. -/
theorem redact_leaves_card :
    (∃ before number after,
      CardOccurrence "qty 2 4242 4242 4242 4242".toList before number after ∧
        StillPresent "qty 2 4242 4242 4242 4242".toList before number) ∧
    redact "qty 2 4242 4242 4242 4242" = "qty 2 4242 4242 4242 4242" := by
  have unchanged : traced.redactString (places "qty 2 4242 4242 4242 4242".toList) =
      places "qty 2 4242 4242 4242 4242".toList := by
    decide +kernel
  have four : ∀ {run : List Char}, DigitRun run → DigitRun ('4' :: '2' :: '4' :: '2' :: ' ' :: run) :=
    fun rest => .next rfl (.next rfl (.next rfl (.apart rfl rfl rest)))
  have occurs : CardOccurrence "qty 2 4242 4242 4242 4242".toList "qty 2 ".toList
      "4242 4242 4242 4242".toList [] := {
    split := rfl
    run := four (four (four (.next rfl (.next rfl (.next rfl (.last rfl))))))
    size := by decide
    luhn := by decide
    noneBefore := by
      intro c last
      cases (show some ' ' = some c from last)
      rfl
    noneAfter := by
      intro c first
      cases first }
  refine ⟨⟨_, _, _, occurs, ?_⟩, by decide +kernel⟩
  intro i c here _
  refine ⟨c, ?_⟩
  rw [unchanged]
  exact mem_places (occurs.getElem? here)

end Cards

end Canals
