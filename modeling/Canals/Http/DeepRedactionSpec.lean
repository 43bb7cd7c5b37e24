import Canals.Http.DeepRedaction
import Canals.Http.RedactionSpec

/-! Which properties the walkers redact by their keys. Each object gets its clone by a rule
of its own, so that what the keys promise is a condition on every object that is walked. -/
namespace Canals
open Regex

section Remaining

/-- A digit that neither mask nor key hides. -/
def DigitLeft (s : List Char) (i : Nat) : Prop :=
  ∃ c, s[i]? = some c ∧ isDigit c ∧ (fates s)[i]? = some .kept ∧ ¬ EndsInKey (joined s (i + 1))

/-- By-value redaction leaves at most four digits of the text. -/
def FewDigitsLeft (s : List Char) : Prop :=
  ∀ left : Finset Nat, (∀ i ∈ left, DigitLeft s i) → left.card ≤ 4

variable {G : Type} {matched : List Char → Option Nat} {read : G → Char} {f : List G → List G}

theorem mem_replace {written : G → Prop} (each : ∀ m, ∀ g ∈ f m, g ∈ m ∨ written g)
    {gs : List G} {g : G} (member : g ∈ replace matched read f gs) : g ∈ gs ∨ written g := by
  obtain ⟨piece, inside, here⟩ := List.mem_flatMap.mp member
  have content : ∀ h ∈ piece.content, h ∈ gs := by
    intro h found
    rw [show gs = (cut matched read 0 gs).flatMap Piece.content from (cut_content gs).symm]
    exact List.mem_flatMap.mpr ⟨piece, inside, found⟩
  cases piece with
  | plain h => exact .inl (content g here)
  | hit m => exact (each m g here).imp_left (content g)

theorem replace_sublist {B : Type} {place : G → Option B}
    (each : ∀ m, ((f m).filterMap place).Sublist (m.filterMap place)) (gs : List G) :
    ((replace matched read f gs).filterMap place).Sublist (gs.filterMap place) := by
  have pieces : ∀ ps : List (Piece G), ((ps.flatMap (Piece.replace f)).filterMap place).Sublist
      ((ps.flatMap Piece.content).filterMap place) := by
    intro ps
    induction ps with
    | nil => exact List.Sublist.slnil
    | cons piece ps ih =>
      rw [List.flatMap_cons, List.flatMap_cons, List.filterMap_append, List.filterMap_append]
      refine List.Sublist.append ?_ ih
      cases piece with
      | plain g => exact List.Sublist.refl _
      | hit m => exact each m
  have whole := pieces (cut matched read 0 gs)
  rwa [cut_content] at whole

theorem maskMatch_mem (m : List (Char × Option Nat)) {g : Char × Option Nat}
    (member : g ∈ traced.maskMatch m) : g ∈ m ∨ (g.2 = none ∧ isDigit g.1 = false) := by
  rw [Ink.maskMatch] at member
  split at member
  · exact .inl member
  · rcases List.mem_append.mp member with star | last
    · obtain ⟨-, rfl⟩ := List.mem_replicate.mp star
      exact .inr ⟨rfl, rfl⟩
    · exact .inl (List.mem_filter.mp (List.mem_of_mem_drop last)).1

theorem redactKey_mem (m : List (Char × Option Nat)) {g : Char × Option Nat}
    (member : g ∈ traced.redactKey m) : g ∈ m ∨ (g.2 = none ∧ isDigit g.1 = false) := by
  rcases List.mem_append.mp member with front | secret
  · exact .inl (List.mem_of_mem_take front)
  · obtain ⟨c, inside, rfl⟩ := List.mem_map.mp secret
    have letters : ∀ c ∈ REDACTED_SECRET, isDigit c = false := by
      simpa using (by decide : REDACTED_SECRET.all (fun c => isDigit c = false) = true)
    exact .inr ⟨rfl, letters c inside⟩

/-- What redaction writes is no digit. -/
theorem redactString_mem {gs : List (Char × Option Nat)} {g : Char × Option Nat}
    (member : g ∈ traced.redactString gs) : g ∈ gs ∨ (g.2 = none ∧ isDigit g.1 = false) := by
  rcases mem_replace (fun m _ => redactKey_mem m) member with inside | written
  · exact mem_replace (fun m _ => maskMatch_mem m) inside
  · exact .inr written

/-- No place is written twice. -/
theorem redactString_places (gs : List (Char × Option Nat)) :
    ((traced.redactString gs).filterMap Prod.snd).Sublist (gs.filterMap Prod.snd) := by
  have written : ∀ cs : List Char, (cs.map traced.write).filterMap Prod.snd = [] := by
    intro cs
    rw [List.filterMap_map]
    exact List.filterMap_eq_nil_iff.mpr fun _ _ => rfl
  refine (replace_sublist ?_ _).trans (replace_sublist ?_ gs)
  · intro m
    rw [Ink.redactKey, List.filterMap_append, written, List.append_nil]
    exact (List.take_sublist _ m).filterMap _
  · intro m
    rw [Ink.maskMatch]
    split
    · exact List.Sublist.refl _
    · rw [Ink.maskDigits, List.filterMap_append, ← List.map_replicate, written, List.nil_append]
      exact ((List.drop_sublist _ _).trans List.filter_sublist).filterMap _

theorem fewDigitsLeft_iff (s : String) :
    FewDigitsLeft s.toList ↔ (redact s).toList.countP isDigit ≤ 4 := by
  let digits := (traced.redactString (places s.toList)).filter fun g => isDigit g.1
  have origin : ∀ g ∈ digits, ∃ i, g.2 = some i ∧ s.toList[i]? = some g.1 := by
    intro g member
    obtain ⟨inside, digit⟩ := List.mem_filter.mp member
    rcases redactString_mem inside with own | ⟨-, other⟩
    · obtain ⟨⟨c, i⟩, here, rfl⟩ := List.mem_map.mp own
      exact ⟨i, rfl, List.mem_zipIdx_iff_getElem?.mp here⟩
    · cases digit.symm.trans other
  let left := digits.filterMap Prod.snd
  have nodup : left.Nodup := by
    have range : (places s.toList).filterMap Prod.snd = List.range s.toList.length := by
      rw [places, List.filterMap_map, List.range_eq_range', ← List.zipIdx_map_snd]
      exact congrFun List.filterMap_eq_map' _
    have sub := (List.filter_sublist (p := fun g : Char × Option Nat => isDigit g.1)).filterMap
      (Prod.snd) |>.trans (redactString_places (places s.toList))
    rw [range] at sub
    exact sub.nodup List.nodup_range
  have size : left.length = (redact s).toList.countP isDigit := by
    have placed : left.length = digits.length := by
      rw [List.length_filterMap_eq_countP, List.countP_eq_length]
      intro g member
      obtain ⟨i, place, -⟩ := origin g member
      simp [place]
    rw [placed, ← traced_redact, List.countP_map, List.countP_eq_length_filter]
    rfl
  have mem : ∀ i, i ∈ left ↔ DigitLeft s.toList i := by
    intro i
    constructor
    · intro member
      obtain ⟨⟨c, place⟩, inside, rfl⟩ := List.mem_filterMap.mp member
      obtain ⟨j, same, here⟩ := origin _ inside
      obtain rfl := Option.some.inj same
      obtain ⟨survives, digit⟩ := List.mem_filter.mp inside
      obtain ⟨kept, outside⟩ := survives_iff.mp ⟨c, survives⟩
      exact ⟨c, here, digit, kept, outside⟩
    · rintro ⟨c, here, digit, kept, outside⟩
      obtain ⟨d, survives⟩ := survives_iff.mpr ⟨kept, outside⟩
      have same : d = c := by
        rcases redactString_mem survives with own | ⟨none, -⟩
        · obtain ⟨e, found, same⟩ := List.mem_map.mp own
          obtain ⟨rfl, place⟩ := Prod.mk.inj same
          obtain rfl := Option.some.inj place
          have there := List.mem_zipIdx_iff_getElem?.mp found
          exact Option.some.inj (there.symm.trans here)
        · cases none
      subst same
      exact List.mem_filterMap.mpr ⟨_, List.mem_filter.mpr ⟨survives, digit⟩, rfl⟩
  have whole : left.toFinset.card = (redact s).toList.countP isDigit := by
    rw [List.toFinset_card_of_nodup nodup, size]
  constructor
  · intro few
    rw [← whole]
    refine few _ ?_
    intro i member
    exact (mem i).mp (List.mem_toFinset.mp member)
  · intro few set inside
    refine (Finset.card_le_card ?_).trans (whole ▸ few)
    intro i member
    exact List.mem_toFinset.mpr ((mem i).mpr (inside i member))

/-- A replaced key leaves its mark, the first character of the prefix. -/
theorem redactKey_unmarked {cs : List Char}
    (unmarked : ∀ c ∈ replace API_KEY_QUERY_PATTERN.matched id plain.redactKey cs,
      c ≠ '?' ∧ c ≠ '&') : replace API_KEY_QUERY_PATTERN.matched id plain.redactKey cs = cs := by
  induction cs using cut_induction API_KEY_QUERY_PATTERN.matched id with
  | nil => rfl
  | plain c cs none ih =>
    rw [replace, cut_plain none, List.flatMap_cons] at unmarked ⊢
    exact congrArg (c :: ·) (ih fun d member => unmarked d (List.mem_cons_of_mem c member))
  | hit cs n some_ found ih =>
    exfalso
    obtain ⟨p, value, rest, keyed, size⟩ := key_matched.mp found
    rw [List.map_id] at keyed
    obtain ⟨q, name, same, mark, -⟩ := keyed.isPrefix
    have first : q ∈ replace API_KEY_QUERY_PATTERN.matched id plain.redactKey cs := by
      have taken : (cs.take (n + 1)).map plain.read = p ++ value := by
        rw [keyed.split, ← List.append_assoc, size, List.take_left]
        exact List.map_id _
      have long : 0 < p.length := by simp [same]
      rw [replace, cut_hit found some_, List.flatMap_cons, Piece.replace, Ink.redactKey, taken,
        prefix_matched keyed.isPrefix, Option.getD_some, List.take_take, keyed.split, same]
      simp
    obtain ⟨question, ampersand⟩ := unmarked q first
    rcases mark with rfl | rfl
    · exact question rfl
    · exact ampersand rfl

theorem maskMatch_unstarred {m : List Char} (unstarred : '*' ∉ plain.maskMatch m) :
    plain.maskMatch m = m := by
  rw [Ink.maskMatch] at unstarred ⊢
  split
  · rfl
  · rename_i card
    rw [if_neg card] at unstarred
    refine absurd ?_ unstarred
    simp only [Bool.or_eq_true, decide_eq_true_eq, not_or, Nat.not_lt] at card
    refine List.mem_append_left _ (List.mem_replicate.mpr ⟨?_, rfl⟩)
    rw [List.length_drop]
    omega

/-- Nothing but the text of a secret is redacted to it. -/
theorem redact_eq_secret {s : String} : redact s = "[REDACTED]" ↔ s = "[REDACTED]" := by
  constructor
  · intro same
    have text : plain.redactString s.toList = "[REDACTED]".toList := by
      rw [← same, redact, String.toList_ofList]
    have plainText : ∀ c ∈ "[REDACTED]".toList, (c ≠ '?' ∧ c ≠ '&') ∧ c ≠ '*' := by simp
    rw [Ink.redactString] at text
    have keyless := redactKey_unmarked fun c member => (plainText c (text ▸ member)).1
    have masked : replace CARD_NUMBER_VALUE_PATTERN.matched id plain.maskMatch s.toList =
        "[REDACTED]".toList := keyless.symm.trans text
    have cardless : replace CARD_NUMBER_VALUE_PATTERN.matched id plain.maskMatch s.toList =
        s.toList := by
      have whole : (cut CARD_NUMBER_VALUE_PATTERN.matched id 0 s.toList).flatMap Piece.content =
          s.toList := cut_content _
      refine .trans ?_ whole
      refine List.flatMap_congr fun piece inside => ?_
      cases piece with
      | plain c => rfl
      | hit m =>
        refine maskMatch_unstarred fun star => ?_
        have member : '*' ∈ replace CARD_NUMBER_VALUE_PATTERN.matched id plain.maskMatch s.toList :=
          List.mem_flatMap.mpr ⟨_, inside, star⟩
        rw [masked] at member
        exact (plainText _ member).2 rfl
    exact String.toList_inj.mp (cardless.symm.trans masked)
  · rintro rfl
    decide +kernel

end Remaining

namespace Redaction
open DeepCopy

section Copies
variable {A : Type}

/-- What stands for a value. -/
def Value.copy : Value A → Value A
  | .text s => .text (redact s)
  | value => value

/-- What stands for the value of a property of a plain object. -/
def fieldCopy (key : String) (value : Value A) : Value A :=
  if REDACTED_KEY_PATTERN key then .text (String.ofList REDACTED_SECRET)
  else
    match MASKED_KEY_PATTERN key, value with
    | true, .text raw => .text (maskCardValue raw)
    | _, value => value.copy

/-- A value that is replaced for its key alone. -/
def Replaced (key : String) (value : Value A) : Prop :=
  REDACTED_KEY_PATTERN key ∨ (MASKED_KEY_PATTERN key ∧ ∃ raw, value = .text raw)

theorem fieldCopy_open {key : String} {value : Value A} (open_ : ¬ Replaced key value) :
    fieldCopy key value = value.copy := by
  rw [Replaced, not_or] at open_
  unfold fieldCopy
  rw [if_neg open_.1]
  split
  · rename_i raw masked
    exact (open_.2 ⟨masked, raw, rfl⟩).elim
  · rfl

def Node.copy : Node A → Node A
  | .plain entries => .plain (entries.entries.foldl (fun c e => c.insert e.1 (fieldCopy e.1 e.2)) ∅)
  | .array items => .array (items.map Value.copy)
  | .error name message stack entries =>
    .plain (entries.entries.foldl (fun c e => c.insert e.1 e.2.copy)
      (errorClone name message stack))

/-- The objects a walker goes on to. -/
def Node.refers : Node A → A → Prop
  | .plain entries, b => ∃ key, REDACTED_KEY_PATTERN key = false ∧
      entries.lookup key = some (.object b)
  | .array items, b => .object b ∈ items
  | .error _ _ _ entries, b => ∃ key, entries.lookup key = some (.object b)

theorem foldl_assign (copy : String → Value A → Value A)
    (es : List (Sigma fun _ : String => Value A)) (c : Entries A) :
    es.foldl (fun node e => node.assign e.1 (copy e.1 e.2)) (Node.plain c) =
      .plain (es.foldl (fun c e => c.insert e.1 (copy e.1 e.2)) c) := by
  induction es generalizing c with
  | nil => rfl
  | cons e es ih => exact ih _

theorem foldl_push (items front : List (Value A)) :
    items.foldl (fun node item => node.push item.copy) (Node.array front) =
      .array (front ++ items.map Value.copy) := by
  induction items generalizing front with
  | nil => simp
  | cons item items ih =>
    refine (ih _).trans ?_
    simp

variable [DecidableEq A] [Fintype A] {heap : A → Node A} {bound : Nat} {walk : Walk A} {a : A}
  {seen : Clones A}

abbrev Copied (heap : A → Node A) (own : A → Prop) : Clones A → Clones A → Prop :=
  Grown (fun a => (heap a).copy) (fun a => (heap a).refers) own

/-- A walk that may enter `bound` objects copies every value. -/
def Walks (heap : A → Node A) (bound : Nat) (walk : Walk A) : Prop :=
  ∀ value seen, pending seen ≤ bound → ∃ clones, walk value seen = some (value.copy, clones) ∧
    Copied heap (fun _ => False) seen clones ∧ ∀ b, value = .object b → clones b ≠ none

/-- A walk of a field and the write of what it gave to the clone of `a`. -/
theorem Walks.write (walks : Walks heap bound walk) (value : Value A) {made : Clones A}
    {node : Node A} (add : Node A → Node A) (here : made a = some node)
    (fits : pending made ≤ bound) : ∃ clones, walk value made = some (value.copy, clones) ∧
      clones a = some node ∧ Copied heap (· = a) made (put clones a (add node)) ∧
        ∀ b, value = .object b → put clones a (add node) b ≠ none := by
  obtain ⟨clones, walked, grown, referred⟩ := walks value made fits
  have still := grown.kept a node id here
  have written : Copied heap (· = a) clones (put clones a (add node)) :=
    .write _ rfl (by simp [still])
  refine ⟨clones, walked, still, (grown.mono fun _ none => none.elim).trans written, ?_⟩
  intro b same
  exact written.grows b (referred b same)

theorem redactError_spec (walks : Walks heap bound walk) {name message : String}
    {stack : Option String} {entries : Entries A}
    (node : heap a = .error name message stack entries) (new : seen a = none)
    (fits : pending seen ≤ bound + 1) :
    ∃ clones, redactError walk a name message stack entries seen = some (.object a, clones) ∧
      Copied heap (fun _ => False) seen clones ∧ clones a ≠ none := by
  have each : ∀ made (e : Sigma fun _ : String => Value A) node, made a = some node →
      pending made ≤ bound → ∃ made', errorField walk a made e = some made' ∧
        Copied heap (· = a) made made' ∧ made' a = some (node.assign e.1 e.2.copy) ∧
          ∀ b, e.2 = .object b → made' b ≠ none := by
    intro made e node here fits
    obtain ⟨clones, walked, still, grown, referred⟩ :=
      walks.write e.2 (·.assign e.1 e.2.copy) here fits
    refine ⟨_, ?_, grown, put_same, referred⟩
    simp [errorField, walked, assign, still]
  have whole : entries.entries.foldl (fun node e => node.assign e.1 e.2.copy)
      (.plain (errorClone name message stack)) = (heap a).copy := by
    rw [foldl_assign fun _ => Value.copy, node, Node.copy]
  have covers : ∀ b, (heap a).refers b → ∃ e ∈ entries.entries, e.2 = .object b := by
    rw [node]
    rintro b ⟨key, here⟩
    exact ⟨⟨key, _⟩, AList.mem_lookup_iff.mp here, rfl⟩
  obtain ⟨clones, ran, grown, there⟩ := visit each whole covers new fits
  exact ⟨clones, by simp [redactError, ran], grown, there⟩

theorem redactArray_spec (walks : Walks heap bound walk) {items : List (Value A)}
    (node : heap a = .array items) (new : seen a = none) (fits : pending seen ≤ bound + 1) :
    ∃ clones, redactArray walk a items seen = some (.object a, clones) ∧
      Copied heap (fun _ => False) seen clones ∧ clones a ≠ none := by
  have each : ∀ made (item : Value A) node, made a = some node → pending made ≤ bound →
      ∃ made', arrayItem walk a made item = some made' ∧ Copied heap (· = a) made made' ∧
        made' a = some (node.push item.copy) ∧ ∀ b, item = .object b → made' b ≠ none := by
    intro made item node here fits
    obtain ⟨clones, walked, still, grown, referred⟩ :=
      walks.write item (·.push item.copy) here fits
    refine ⟨_, ?_, grown, put_same, referred⟩
    simp [arrayItem, walked, push, still]
  have whole : items.foldl (fun node item => node.push item.copy) (.array []) =
      (heap a).copy := by
    rw [foldl_push, node, Node.copy, List.nil_append]
  have covers : ∀ b, (heap a).refers b → ∃ item ∈ items, item = .object b := by
    rw [node]
    exact fun b here => ⟨_, here, rfl⟩
  obtain ⟨clones, ran, grown, there⟩ := visit each whole covers new fits
  exact ⟨clones, by simp [redactArray, ran], grown, there⟩

section Fields
omit [Fintype A]
variable (walk : Walk A) (a : A) (clones : Clones A) {key : String} {value : Value A}

theorem objectField_replaced (replaced : Replaced key value) :
    objectField walk a clones ⟨key, value⟩ = assign clones a key (fieldCopy key value) := by
  by_cases secret : REDACTED_KEY_PATTERN key
  · simp [objectField, fieldCopy, secret]
  · rcases replaced with other | ⟨masked, raw, rfl⟩
    · exact (secret other).elim
    · simp [objectField, fieldCopy, secret, masked]

/-- What its key does not replace is walked as in an Error. -/
theorem objectField_open (open_ : ¬ Replaced key value) :
    objectField walk a clones ⟨key, value⟩ = errorField walk a clones ⟨key, value⟩ := by
  rw [Replaced, not_or] at open_
  unfold objectField
  rw [if_neg open_.1]
  split
  · rename_i raw masked text
    exact (open_.2 ⟨masked, raw, text⟩).elim
  · rfl

end Fields

theorem redactObject_spec (walks : Walks heap bound walk) {entries : Entries A}
    (node : heap a = .plain entries) (new : seen a = none) (fits : pending seen ≤ bound + 1) :
    ∃ clones, redactObject walk a entries seen = some (.object a, clones) ∧
      Copied heap (fun _ => False) seen clones ∧ clones a ≠ none := by
  have each : ∀ made (e : Sigma fun _ : String => Value A) node, made a = some node →
      pending made ≤ bound → ∃ made', objectField walk a made e = some made' ∧
        Copied heap (· = a) made made' ∧ made' a = some (node.assign e.1 (fieldCopy e.1 e.2)) ∧
          ∀ b, (REDACTED_KEY_PATTERN e.1 = false ∧ e.2 = .object b) → made' b ≠ none := by
    rintro made ⟨key, value⟩ node here fits
    by_cases replaced : Replaced key value
    · refine ⟨put made a (node.assign key (fieldCopy key value)), ?_, ?_, put_same, ?_⟩
      · simp [objectField_replaced walk a made replaced, assign, here]
      · exact .write _ rfl (by simp [here])
      · rintro b ⟨open_, refer⟩
        rcases replaced with secret | ⟨_, raw, text⟩
        · cases open_.symm.trans secret
        · cases refer.symm.trans text
    · obtain ⟨clones, ran, still, grown, referred⟩ :=
        walks.write value (·.assign key (fieldCopy key value)) here fits
      refine ⟨_, ?_, grown, put_same, fun b refer => referred b refer.2⟩
      simp [objectField_open walk a made replaced, errorField, ran, assign, still,
        fieldCopy_open replaced]
  have whole : entries.entries.foldl (fun node e => node.assign e.1 (fieldCopy e.1 e.2))
      (.plain ∅) = (heap a).copy := by
    rw [foldl_assign fieldCopy, node, Node.copy]
  have covers : ∀ b, (heap a).refers b → ∃ e ∈ entries.entries,
      REDACTED_KEY_PATTERN e.1 = false ∧ e.2 = .object b := by
    rw [node]
    rintro b ⟨key, open_, here⟩
    exact ⟨⟨key, _⟩, AList.mem_lookup_iff.mp here, open_, rfl⟩
  obtain ⟨clones, ran, grown, there⟩ := visit each whole covers new fits
  exact ⟨clones, by simp [redactObject, ran], grown, there⟩

omit [Fintype A] in
/-- What is no object, or has its clone, is not walked. -/
theorem redactValue_direct {fuel : Nat} {value : Value A}
    (known : ∀ a, value = .object a → seen a ≠ none) :
    redactValue heap fuel value seen = some (value.copy, seen) := by
  unfold redactValue
  cases value with
  | object a => simp [Value.copy, Option.isSome_iff_ne_none.mpr (known a rfl)]
  | _ => simp [Value.copy]

/-- With as much fuel as there are objects left every value is copied. -/
theorem redactValue_spec (fuel : Nat) : Walks heap fuel (redactValue heap fuel) := by
  induction fuel with
  | zero =>
    intro value seen fits
    have known : ∀ a, value = .object a → seen a ≠ none := by
      intro a _ new
      have fewer : pending (put seen a (Node.array [])) < pending seen := pending_put new
      omega
    exact ⟨seen, redactValue_direct known, .refl, known⟩
  | succ fuel ih =>
    intro value seen fits
    by_cases known : ∀ a, value = .object a → seen a ≠ none
    · exact ⟨seen, redactValue_direct known, .refl, known⟩
    · simp only [ne_eq, not_forall, not_not] at known
      obtain ⟨a, rfl, new⟩ := known
      have entered : ∃ clones,
          redactValue heap (fuel + 1) (.object a) seen = some (.object a, clones) ∧
            Copied heap (fun _ => False) seen clones ∧ clones a ≠ none := by
        rw [redactValue]
        simp only [new, Option.isSome_none, Bool.false_eq_true, if_false]
        cases node : heap a with
        | plain entries => exact redactObject_spec ih node new fits
        | array items => exact redactArray_spec ih node new fits
        | error name message stack entries => exact redactError_spec ih node new fits
      obtain ⟨clones, walked, grown, there⟩ := entered
      refine ⟨clones, walked, grown, ?_⟩
      rintro b ⟨⟩
      exact there

/-- The objects whose properties and items are walked. -/
def Walked (heap : A → Node A) (input : Value A) (a : A) : Prop :=
  ∃ root, input = .object root ∧ Relation.ReflTransGen (fun a => (heap a).refers) root a

/-- `redact` always returns, and every walked object has its clone. -/
theorem redactInput_spec (heap : A → Node A) (input : Value A) : ∃ clones,
    redactInput heap input = some (input.copy, clones) ∧
      ∀ a, Walked heap input a → clones a = some (heap a).copy := by
  have fits : pending (fun _ : A => (none : Option (Node A))) ≤ Fintype.card A :=
    Finset.card_le_univ _
  obtain ⟨clones, walked, grown, there⟩ := redactValue_spec (Fintype.card A) input _ fits
  refine ⟨clones, walked, ?_⟩
  rintro a ⟨root, rfl, path⟩
  exact grown.reached (there root rfl) path

end Copies

section Keys
variable {A : Type}

/-- `value[key]`, of the own enumerable properties. -/
def Node.property : Node A → String → Option (Value A)
  | .plain entries, key => entries.lookup key
  | .array _, _ => none
  | .error _ _ _ entries, key => entries.lookup key

def Node.item : Node A → Nat → Option (Value A)
  | .array items, i => items[i]?
  | _, _ => none

def Value.digits : Value A → Nat
  | .text s => s.toList.countP isDigit
  | .number printed => printed.toList.countP isDigit
  | _ => 0

/-- A string or a number. -/
def Value.IsCard (value : Value A) : Prop :=
  (∃ s, value = .text s) ∨ ∃ printed, value = .number printed

/-- Where a path of properties and items leads, in the input and in the output. -/
inductive AtPath (heap : A → Node A) (clones : Clones A) (input output : Value A) :
    Value A → Value A → Prop
  | root : AtPath heap clones input output input output
  | property {a b : A} {key : String} {node : Node A} {value out : Value A} :
      AtPath heap clones input output (.object a) (.object b) → clones b = some node →
      (heap a).property key = some value → node.property key = some out →
      AtPath heap clones input output value out
  | item {a b : A} {i : Nat} {node : Node A} {value out : Value A} :
      AtPath heap clones input output (.object a) (.object b) → clones b = some node →
      (heap a).item i = some value → node.item i = some out →
      AtPath heap clones input output value out

/-- What a key promises of its value and what the output has under it. -/
def KeyRedacted (key : String) (value : Value A) (out : Option (Value A)) : Prop :=
  (REDACTED_KEY_PATTERN key → out = some (.text "[REDACTED]")) ∧
    (MASKED_KEY_PATTERN key → value.IsCard → ∃ v, out = some v ∧ v.digits ≤ 4)

/-- The keys hold in every object of the input, whatever path leads to it. -/
def KeysRedacted [DecidableEq A] [Fintype A] (heap : A → Node A) (input : Value A) : Prop :=
  ∃ output clones, redactInput heap input = some (output, clones) ∧
    ∀ a b, AtPath heap clones input output (.object a) (.object b) →
      ∀ key value, (heap a).property key = some value →
        KeyRedacted key value ((clones b).bind fun node => node.property key)

def Node.isError : Node A → Bool
  | .error .. => true
  | _ => false

/-- The keys hold in this object: a card number is no number of more than four digits, and
in an Error, which is walked without its keys, a secret is redacted already and a text
under the key of a card has few digits left. -/
def Node.Safe (node : Node A) : Prop :=
  ∀ key value, node.property key = some value →
    (MASKED_KEY_PATTERN key → ∀ printed, value = .number printed → value.digits ≤ 4) ∧
      (node.isError → (REDACTED_KEY_PATTERN key → value = .text "[REDACTED]") ∧
        (MASKED_KEY_PATTERN key → ∀ s, value = .text s → FewDigitsLeft s.toList))

theorem lookup_foldl_absent {copy : String → Value A → Value A} {key : String}
    {es : List (Sigma fun _ : String => Value A)} (absent : key ∉ es.keys) (c : Entries A) :
    (es.foldl (fun c e => c.insert e.1 (copy e.1 e.2)) c).lookup key = c.lookup key := by
  induction es generalizing c with
  | nil => rfl
  | cons e es ih =>
    rw [List.keys_cons, List.mem_cons, not_or] at absent
    rw [List.foldl_cons, ih absent.2, AList.lookup_insert_ne absent.1]

theorem lookup_foldl (copy : String → Value A → Value A) {key : String} {value : Value A}
    {es : List (Sigma fun _ : String => Value A)} (nodup : es.NodupKeys)
    (here : ⟨key, value⟩ ∈ es) (c : Entries A) :
    (es.foldl (fun c e => c.insert e.1 (copy e.1 e.2)) c).lookup key = some (copy key value) := by
  induction es generalizing c with
  | nil => cases here
  | cons e es ih =>
    rw [List.nodupKeys_cons] at nodup
    rw [List.foldl_cons]
    rcases List.mem_cons.mp here with rfl | later
    · rw [lookup_foldl_absent nodup.1, AList.lookup_insert]
    · exact ih nodup.2 later _

/-- What stands for the value of a property. -/
def Node.propertyCopy : Node A → String → Value A → Value A
  | .plain _, key, value => fieldCopy key value
  | _, _, value => value.copy

theorem copy_property {node : Node A} {key : String} {value : Value A}
    (here : node.property key = some value) :
    node.copy.property key = some (node.propertyCopy key value) := by
  cases node with
  | plain entries => exact lookup_foldl fieldCopy entries.nodupKeys (AList.mem_lookup_iff.mp here) ∅
  | array items => cases here
  | error name message stack entries =>
    exact lookup_foldl (fun _ => Value.copy) entries.nodupKeys
      (AList.mem_lookup_iff.mp here) _

theorem copy_item {node : Node A} {i : Nat} {value : Value A} (here : node.item i = some value) :
    node.copy.item i = some value.copy := by
  cases node with
  | array items =>
    refine (List.getElem?_map ..).trans ?_
    rw [show items[i]? = some value from here]
    rfl
  | _ => cases here

theorem patterns_disjoint {key : String} (secret : REDACTED_KEY_PATTERN key) :
    MASKED_KEY_PATTERN key = false := by
  simp only [REDACTED_KEY_PATTERN, List.mem_cons, List.not_mem_nil, or_false,
    decide_eq_true_eq] at secret
  rw [MASKED_KEY_PATTERN]
  rcases secret with same | same
  · rw [same]
    decide
  · rw [same]
    decide

/-- At most the last four digits are kept. -/
theorem maskCardValue_digits (raw : String) :
    (maskCardValue raw).toList.countP isDigit ≤ 4 := by
  by_cases none : (raw.toList.filter isDigit).length = 0
  · have same : maskCardValue raw = raw := if_pos none
    rw [same, List.countP_eq_length_filter]
    omega
  · have same : maskCardValue raw = String.ofList (plain.maskDigits (raw.toList.filter isDigit)) :=
      if_neg none
    generalize raw.toList.filter isDigit = digits at same
    rw [same, String.toList_ofList, Ink.maskDigits, List.countP_append, List.countP_replicate]
    have stars : isDigit (plain.write '*') = false := rfl
    have last : (digits.drop (digits.length - 4)).countP isDigit ≤
        (digits.drop (digits.length - 4)).length := List.countP_le_length
    rw [List.length_drop] at last
    rw [stars, if_neg Bool.false_ne_true]
    omega

theorem fieldCopy_secret {key : String} {value : Value A} (secret : REDACTED_KEY_PATTERN key) :
    fieldCopy key value = .text "[REDACTED]" := by
  have text : String.ofList REDACTED_SECRET = "[REDACTED]" := by
    apply String.toList_inj.mp
    rw [String.toList_ofList]
    rfl
  unfold fieldCopy
  rw [if_pos secret, text]

theorem fieldCopy_card {key : String} {value : Value A} (masked : MASKED_KEY_PATTERN key) :
    (∀ raw, value = .text raw → fieldCopy key value = .text (maskCardValue raw)) ∧
      ∀ printed, value = .number printed → fieldCopy key value = value := by
  have open_ : ¬ REDACTED_KEY_PATTERN key := by
    intro secret
    cases masked.symm.trans (patterns_disjoint secret)
  constructor
  · rintro raw rfl
    simp [fieldCopy, open_, masked]
  · rintro printed rfl
    simp [fieldCopy, open_, masked, Value.copy]

theorem fieldCopy_object {key : String} {b : A} (open_ : REDACTED_KEY_PATTERN key = false) :
    fieldCopy key (.object b) = .object b := by
  apply fieldCopy_open
  rintro (secret | ⟨_, raw, text⟩)
  · cases open_.symm.trans secret
  · cases text

theorem keyRedacted_plain {key : String} {value : Value A} :
    KeyRedacted key value (some (fieldCopy key value)) ↔
      (MASKED_KEY_PATTERN key → ∀ printed, value = .number printed → value.digits ≤ 4) := by
  constructor
  · intro holds masked printed number
    obtain ⟨v, same, few⟩ := holds.2 masked (.inr ⟨printed, number⟩)
    rw [(fieldCopy_card masked).2 printed number] at same
    rwa [Option.some.inj same]
  · intro few
    constructor
    · intro secret
      rw [fieldCopy_secret secret]
    · rintro masked (⟨raw, text⟩ | ⟨printed, number⟩)
      · refine ⟨_, rfl, ?_⟩
        rw [(fieldCopy_card masked).1 raw text]
        exact maskCardValue_digits raw
      · refine ⟨_, rfl, ?_⟩
        rw [(fieldCopy_card masked).2 printed number]
        exact few masked printed number

theorem keyRedacted_error {key : String} {value : Value A} :
    KeyRedacted key value (some value.copy) ↔
      (MASKED_KEY_PATTERN key → ∀ printed, value = .number printed → value.digits ≤ 4) ∧
        (REDACTED_KEY_PATTERN key → value = .text "[REDACTED]") ∧
          (MASKED_KEY_PATTERN key → ∀ s, value = .text s → FewDigitsLeft s.toList) := by
  have secretCopy : some value.copy = some (.text "[REDACTED]") ↔
      value = .text "[REDACTED]" := by
    cases value with
    | text s => simp [Value.copy, redact_eq_secret]
    | _ => simp [Value.copy]
  rw [KeyRedacted, secretCopy]
  constructor
  · rintro ⟨secret, card⟩
    refine ⟨?_, secret, ?_⟩
    · rintro masked printed rfl
      obtain ⟨v, same, few⟩ := card masked (.inr ⟨printed, rfl⟩)
      cases same
      exact few
    · rintro masked s rfl
      obtain ⟨v, same, few⟩ := card masked (.inl ⟨s, rfl⟩)
      cases same
      exact (fewDigitsLeft_iff s).mpr few
  · rintro ⟨number, secret, text⟩
    refine ⟨secret, ?_⟩
    rintro masked (⟨s, rfl⟩ | ⟨printed, rfl⟩)
    · exact ⟨_, rfl, (fewDigitsLeft_iff s).mp (text masked s rfl)⟩
    · exact ⟨_, rfl, number masked printed rfl⟩

theorem safe_iff {node : Node A} : node.Safe ↔ ∀ key value, node.property key = some value →
    KeyRedacted key value (node.copy.property key) := by
  refine forall_congr' fun key => forall_congr' fun value => forall_congr' fun here => ?_
  rw [copy_property here]
  cases node with
  | plain entries => simp [Node.propertyCopy, Node.isError, keyRedacted_plain]
  | array items => cases here
  | error name message stack entries => simp [Node.propertyCopy, Node.isError, keyRedacted_error]

end Keys

section Paths
variable {A : Type} {heap : A → Node A} {input : Value A} {clones : Clones A}

theorem walked_step {a b : A} (walked : Walked heap input a) (refer : (heap a).refers b) :
    Walked heap input b := by
  obtain ⟨root, same, path⟩ := walked
  exact ⟨root, same, path.tail refer⟩

theorem copy_object {value : Value A} {b : A} (same : value.copy = .object b) :
    value = .object b := by
  cases value with
  | object a => exact same
  | _ => cases same

theorem propertyCopy_object {node : Node A} {key : String} {value : Value A} {b : A}
    (here : node.property key = some value) (same : node.propertyCopy key value = .object b) :
    value = .object b ∧ node.refers b := by
  cases node with
  | plain entries =>
    have open_ : REDACTED_KEY_PATTERN key = false := by
      by_contra secret
      rw [Node.propertyCopy, fieldCopy_secret (by simpa using secret)] at same
      cases same
    have object : value = .object b := by
      rw [Node.propertyCopy] at same
      unfold fieldCopy at same
      rw [if_neg (by simp [open_])] at same
      split at same
      · cases same
      · exact copy_object same
    exact ⟨object, key, open_, object ▸ here⟩
  | array items => cases here
  | error name message stack entries =>
    have object := copy_object same
    exact ⟨object, key, object ▸ here⟩

/-- A path to an object of the output leads to the same object of the input. -/
theorem atPath_object (copied : ∀ a, Walked heap input a → clones a = some (heap a).copy)
    {value out : Value A} (path : AtPath heap clones input input.copy value out) :
    ∀ b, out = .object b → value = .object b ∧ Walked heap input b := by
  induction path with
  | root =>
    intro b same
    have object := copy_object same
    exact ⟨object, b, object, .refl⟩
  | @property a b key node value out path there here found ih =>
    obtain ⟨same, walked⟩ := ih b rfl
    cases same
    rw [copied a walked] at there
    obtain rfl := Option.some.inj there
    rw [copy_property here] at found
    obtain rfl := Option.some.inj found
    intro c object
    obtain ⟨value, refers⟩ := propertyCopy_object here object
    exact ⟨value, walked_step walked refers⟩
  | @item a b i node value out path there here found ih =>
    obtain ⟨same, walked⟩ := ih b rfl
    cases same
    rw [copied a walked] at there
    obtain rfl := Option.some.inj there
    rw [copy_item here] at found
    obtain rfl := Option.some.inj found
    intro c object
    have same := copy_object object
    refine ⟨same, walked_step walked ?_⟩
    cases node : heap a with
    | array items =>
      rw [node, same] at here
      exact List.mem_of_getElem? here
    | _ =>
      rw [node] at here
      cases here

/-- To every walked object leads a path, in the input and in the output. -/
theorem atPath_walked (copied : ∀ a, Walked heap input a → clones a = some (heap a).copy)
    {a : A} (walked : Walked heap input a) :
    AtPath heap clones input input.copy (.object a) (.object a) := by
  obtain ⟨root, rfl, path⟩ := walked
  induction path with
  | refl => exact .root
  | @tail b c path refer ih =>
    have there := copied b ⟨root, rfl, path⟩
    cases node : heap b with
    | plain entries =>
      rw [node] at refer
      obtain ⟨key, open_, here⟩ := refer
      have property : (heap b).property key = some (.object c) := by
        rw [node]
        exact here
      refine .property ih there property ((copy_property property).trans ?_)
      rw [node]
      exact congrArg some (fieldCopy_object open_)
    | array items =>
      rw [node] at refer
      obtain ⟨i, here⟩ := List.mem_iff_getElem?.mp refer
      have item : (heap b).item i = some (.object c) := by
        rw [node]
        exact here
      exact .item ih there item (copy_item item)
    | error name message stack entries =>
      rw [node] at refer
      obtain ⟨key, here⟩ := refer
      have property : (heap b).property key = some (.object c) := by
        rw [node]
        exact here
      refine .property ih there property ((copy_property property).trans ?_)
      rw [node]
      rfl

variable [DecidableEq A] [Fintype A]

theorem KeysRedacted.safe (holds : KeysRedacted heap input) {a : A} (walked : Walked heap input a) :
    (heap a).Safe := by
  obtain ⟨clones, output, copied⟩ := redactInput_spec heap input
  obtain ⟨_, _, same, kept⟩ := holds
  cases output.symm.trans same
  apply safe_iff.mpr
  intro key value here
  have redacted := kept a a (atPath_walked copied walked) key value here
  rwa [copied a walked] at redacted

/-- An Error of an adapter, with the request it was sent. -/
def adapterError : Bool → Node Bool
  | false => .error "Error" "401 from the gateway" none
      ((AList.singleton "apiKey" (.text "sk_live_1")).insert "request" (.object true))
  | true => .plain (AList.singleton "cardNumber" (.number "4242424242424242"))

end Paths

end Redaction

end Canals
