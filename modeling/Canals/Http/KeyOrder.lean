import Canals.Http.JsonText

/-! `canonicalize` forgets the order of keys and nothing else, where the comparison of keys
tells the keys of an object apart. -/
namespace Canals.Json
variable (localeLe : String → String → Bool)

mutual
/-- The keys of an object are distinct, and no two of them compare equal, at every level. -/
def NoTies : Json → Prop
  | .arr items => NoTiesItems items
  | .obj properties => ((properties.map Prod.fst).Nodup ∧
      ∀ a ∈ properties, ∀ b ∈ properties, localeLe a.1 b.1 → localeLe b.1 a.1 → a.1 = b.1) ∧
      NoTiesEntries properties
  | _ => True

def NoTiesItems : List Json → Prop
  | [] => True
  | value :: items => NoTies value ∧ NoTiesItems items

def NoTiesEntries : JsonObject → Prop
  | [] => True
  | (_, value) :: entries => NoTies value ∧ NoTiesEntries entries
end

/-- `localeCompare` is a total preorder. -/
structure Preorders : Prop where
  total : ∀ a b, localeLe a b ∨ localeLe b a
  trans : ∀ a b c, localeLe a b → localeLe b c → localeLe a c

section Members
variable {localeLe} {isNumber : Rat → Prop} {items : List Json} {entries : JsonObject}

theorem noTiesItems_iff : NoTiesItems localeLe items ↔ ∀ v ∈ items, NoTies localeLe v := by
  induction items with
  | nil => simp [NoTiesItems]
  | cons v items ih => simp [NoTiesItems, ih]

theorem noTiesEntries_iff : NoTiesEntries localeLe entries ↔
    ∀ e ∈ entries, NoTies localeLe e.2 := by
  induction entries with
  | nil => simp [NoTiesEntries]
  | cons e entries ih => simp [NoTiesEntries, ih]

theorem numbersItems_iff : NumbersItems isNumber items ↔ ∀ v ∈ items, Numbers isNumber v := by
  induction items with
  | nil => simp [NumbersItems]
  | cons v items ih => simp [NumbersItems, ih]

theorem numbersEntries_iff : NumbersEntries isNumber entries ↔
    ∀ e ∈ entries, Numbers isNumber e.2 := by
  induction entries with
  | nil => simp [NumbersEntries]
  | cons e entries ih => simp [NumbersEntries, ih]

theorem canonicalizeItems_eq : canonicalizeItems localeLe items =
    items.map (canonicalize localeLe) := by
  induction items with
  | nil => rfl
  | cons v items ih => rw [canonicalizeItems, ih, List.map_cons]

theorem canonicalizeEntries_eq : canonicalizeEntries localeLe entries =
    entries.map fun e => (e.1, canonicalize localeLe e.2) := by
  induction entries with
  | nil => rfl
  | cons e entries ih => rw [canonicalizeEntries, ih, List.map_cons]

end Members

section Same
variable {localeLe} {isNumber : Rat → Prop} {u v : Json}

/-- Permuting keys keeps the numbers. -/
theorem Same.numbers (same : Same u v) (numbers : Numbers isNumber u) : Numbers isNumber v := by
  induction same with
  | refl v => exact numbers
  | trans _ _ first second => exact second (first numbers)
  | keys perm =>
      rw [Numbers, numbersEntries_iff] at numbers ⊢
      exact fun e member => numbers e (perm.mem_iff.mpr member)
  | item before after _ ih =>
      rw [Numbers, numbersItems_iff] at numbers ⊢
      simp only [List.mem_append, List.mem_cons] at numbers ⊢
      rintro w (front | rfl | back)
      · exact numbers w (.inl front)
      · exact ih (numbers _ (.inr (.inl rfl)))
      · exact numbers w (.inr (.inr back))
  | property before after key _ ih =>
      rw [Numbers, numbersEntries_iff] at numbers ⊢
      simp only [List.mem_append, List.mem_cons] at numbers ⊢
      rintro e (front | rfl | back)
      · exact numbers e (.inl front)
      · exact ih (numbers _ (.inr (.inl rfl)))
      · exact numbers e (.inr (.inr back))

/-- Entries without ties are sorted in one way. -/
theorem insertionSort_eq (order : Preorders localeLe) {ps qs : JsonObject} (perm : ps.Perm qs)
    (distinct : (ps.map Prod.fst).Nodup)
    (apart : ∀ a ∈ ps, ∀ b ∈ ps, localeLe a.1 b.1 → localeLe b.1 a.1 → a.1 = b.1) :
    ps.insertionSort (fun a b => localeLe a.1 b.1) =
      qs.insertionSort fun a b => localeLe a.1 b.1 := by
  let le (a b : String × Json) : Prop := localeLe a.1 b.1
  have total : Std.Total le := ⟨fun a b => order.total a.1 b.1⟩
  have trans : IsTrans _ le := ⟨fun a b c => order.trans a.1 b.1 c.1⟩
  have sorted := List.pairwise_insertionSort le
  refine List.Perm.eq_of_pairwise ?_ (sorted ps) (sorted qs)
    (((List.perm_insertionSort le ps).trans perm).trans (List.perm_insertionSort le qs).symm)
  intro a b left right below above
  have inside := (List.mem_insertionSort le).mp left
  have inside' := perm.mem_iff.mpr ((List.mem_insertionSort le).mp right)
  exact List.inj_on_of_nodup_map distinct inside inside' (apart a inside b inside' below above)

theorem apart_iff {ps : JsonObject} :
    (∀ a ∈ ps, ∀ b ∈ ps, localeLe a.1 b.1 → localeLe b.1 a.1 → a.1 = b.1) ↔
      ∀ k ∈ ps.map Prod.fst, ∀ k' ∈ ps.map Prod.fst, localeLe k k' → localeLe k' k → k = k' := by
  rw [List.forall_mem_map]
  simp only [List.forall_mem_map]

/-- What permuting keys turns a value without ties into has none either, and is canonicalized
to the same value. -/
theorem Same.canonical (order : Preorders localeLe) (same : Same u v)
    (apart : NoTies localeLe u) :
    NoTies localeLe v ∧ canonicalize localeLe u = canonicalize localeLe v := by
  induction same with
  | refl v => exact ⟨apart, rfl⟩
  | trans _ _ first second =>
      obtain ⟨middle, left⟩ := first apart
      obtain ⟨last, right⟩ := second middle
      exact ⟨last, left.trans right⟩
  | @keys ps qs perm =>
      rw [NoTies, noTiesEntries_iff] at apart
      obtain ⟨⟨distinct, keys⟩, values⟩ := apart
      constructor
      · rw [NoTies, noTiesEntries_iff]
        refine ⟨⟨(perm.map _).nodup_iff.mp distinct, ?_⟩, ?_⟩
        · intro a left b right
          exact keys a (perm.mem_iff.mpr left) b (perm.mem_iff.mpr right)
        · exact fun e member => values e (perm.mem_iff.mpr member)
      · rw [canonicalize, canonicalize, canonicalizeEntries_eq, canonicalizeEntries_eq]
        congr 2
        apply insertionSort_eq order (perm.map _)
        · rw [List.map_map]
          exact distinct
        · intro a left b right
          obtain ⟨e, member, rfl⟩ := List.mem_map.mp left
          obtain ⟨e', member', rfl⟩ := List.mem_map.mp right
          exact keys e member e' member'
  | item before after _ ih =>
      rw [NoTies, noTiesItems_iff] at apart
      simp only [List.mem_append, List.mem_cons] at apart
      obtain ⟨part, same⟩ := ih (apart _ (.inr (.inl rfl)))
      constructor
      · rw [NoTies, noTiesItems_iff]
        simp only [List.mem_append, List.mem_cons]
        rintro w (front | rfl | back)
        · exact apart w (.inl front)
        · exact part
        · exact apart w (.inr (.inr back))
      · rw [canonicalize, canonicalize, canonicalizeItems_eq, canonicalizeItems_eq, List.map_append,
          List.map_append, List.map_cons, List.map_cons, same]
  | property before after key _ ih =>
      rw [NoTies, noTiesEntries_iff] at apart
      obtain ⟨⟨distinct, keys⟩, values⟩ := apart
      obtain ⟨part, same⟩ := ih (values (key, _) (by simp))
      simp only [List.mem_append, List.mem_cons] at values
      constructor
      · rw [NoTies, noTiesEntries_iff, apart_iff]
        rw [apart_iff] at keys
        simp only [List.map_append, List.map_cons] at distinct keys ⊢
        refine ⟨⟨distinct, keys⟩, ?_⟩
        simp only [List.mem_append, List.mem_cons]
        rintro e (front | rfl | back)
        · exact values e (.inl front)
        · exact part
        · exact values e (.inr (.inr back))
      · rw [canonicalize, canonicalize, canonicalizeEntries_eq, canonicalizeEntries_eq,
          List.map_append, List.map_append, List.map_cons, List.map_cons, same]

/-- Two values have one canonical text exactly where permuting keys turns one into the other. -/
theorem canonical_text_eq_iff {numberToString : Rat → String} (order : Preorders localeLe)
    (texts : NumberTexts numberToString isNumber) (left : Numbers isNumber u)
    (right : Numbers isNumber v) (apart : NoTies localeLe u) :
    stringify numberToString (canonicalize localeLe u) =
      stringify numberToString (canonicalize localeLe v) ↔ Same u v := by
  constructor
  · intro text
    have same := stringify_injective texts ((canonicalize_same localeLe u).numbers left)
      ((canonicalize_same localeLe v).numbers right) text
    exact (canonicalize_same localeLe u).trans (same ▸ (canonicalize_same localeLe v).symm)
  · intro same
    rw [(same.canonical order apart).2]

end Same

end Canals.Json
