import Mathlib.Data.List.Sort
import Mathlib.Order.Lattice

/-! Keyset pagination: rows in decreasing order of a key, a page at a time, each
page beginning below the last key of the one before. Rows may be added between
two fetches; none is lost and none is shown twice. -/
namespace Keyset
variable {ρ κ : Type} [LinearOrder κ] (key : ρ → κ)

def under (cursor : Option κ) (row : ρ) : Bool := cursor.all fun c => key row < c

/-- The rows under the cursor, the greatest key first. -/
def remaining (cursor : Option κ) (rows : List ρ) : List ρ :=
  (rows.filter (under key cursor)).insertionSort fun a b => key b ≤ key a

/-- The pages of at most `n` rows seen by following the cursors, where `rows`
are there before the first fetch and `after` at the last. -/
inductive Walk (n : Nat) : List ρ → Option κ → List (List ρ) → List ρ → Prop where
  | last {rows seen cursor} : rows ⊆ seen → (seen.map key).Nodup →
      (remaining key cursor seen).length ≤ n → Walk n rows cursor [remaining key cursor seen] seen
  | more {rows seen cursor row pages after} : rows ⊆ seen → (seen.map key).Nodup →
      n < (remaining key cursor seen).length →
      ((remaining key cursor seen).take n).getLast? = some row →
      Walk n seen (some (key row)) pages after →
      Walk n rows cursor ((remaining key cursor seen).take n :: pages) after

variable {key} {n : Nat} {cursor : Option κ} {rows seen after : List ρ} {row : ρ}
  {pages : List (List ρ)}

theorem mem_remaining : row ∈ remaining key cursor rows ↔ row ∈ rows ∧ under key cursor row := by
  rw [remaining, List.mem_insertionSort, List.mem_filter]

theorem remaining_sorted (distinct : (rows.map key).Nodup) (cursor : Option κ) :
    (remaining key cursor rows).Pairwise fun a b => key b < key a := by
  have descending := List.pairwise_insertionSort (fun a b => key b ≤ key a)
    (rows.filter (under key cursor))
  have apart : ((remaining key cursor rows).map key).Nodup :=
    ((List.perm_insertionSort _ _).map key).nodup_iff.mpr
      (distinct.sublist (List.filter_sublist.map key))
  exact (descending.and (List.pairwise_map.mp apart)).imp fun both =>
    lt_of_le_of_ne both.1 both.2.symm

/-- The page ends at its last row: exactly the rows under that one are left. -/
theorem mem_page (distinct : (rows.map key).Nodup)
    (last : ((remaining key cursor rows).take n).getLast? = some row) {r : ρ}
    (member : r ∈ remaining key cursor rows) :
    r ∈ (remaining key cursor rows).take n ↔ ¬ key r < key row := by
  have sorted := remaining_sorted distinct cursor
  obtain ⟨front, split⟩ := List.getLast?_eq_some_iff.mp last
  have whole := List.take_append_drop n (remaining key cursor rows)
  rw [split] at whole ⊢
  rw [← whole] at sorted member
  obtain ⟨page, -, rest⟩ := List.pairwise_append.mp sorted
  constructor
  · intro inside less
    rcases List.mem_append.mp inside with before | same
    · exact lt_asymm less ((List.pairwise_append.mp page).2.2 r before row (by simp))
    · rw [List.mem_singleton.mp same] at less
      exact lt_irrefl _ less
  · intro above
    rcases List.mem_append.mp member with inside | later
    · exact inside
    · exact absurd (rest row (by simp) r later) above

theorem last_mem (last : ((remaining key cursor rows).take n).getLast? = some row) :
    row ∈ remaining key cursor rows :=
  List.mem_of_mem_take (List.mem_of_getLast? last)

theorem under_trans {r : ρ} (less : key r < key row) (inside : under key cursor row) :
    under key cursor r := by
  cases cursor with
  | none => rfl
  | some c => exact decide_eq_true (less.trans (of_decide_eq_true inside))

/-- There is a row after the page exactly when the lookahead found one. -/
theorem lookahead_iff (distinct : (rows.map key).Nodup) (positive : 0 < n) :
    n < (remaining key cursor rows).length ↔ ∃ last r,
      ((remaining key cursor rows).take n).getLast? = some last ∧ r ∈ rows ∧ key r < key last := by
  constructor
  · intro longer
    have page : (remaining key cursor rows).take n ≠ [] := by
      rw [ne_eq, List.take_eq_nil_iff]
      rintro (rfl | none_)
      · exact lt_irrefl _ positive
      · simp [none_] at longer
    have ends := List.getLast?_eq_some_getLast page
    have sorted := remaining_sorted distinct cursor
    rw [← List.take_append_drop n (remaining key cursor rows)] at sorted
    have next : (remaining key cursor rows)[n] ∈ (remaining key cursor rows).drop n := by
      rw [List.drop_eq_getElem_cons longer]
      exact List.mem_cons_self
    refine ⟨_, _, ends, (mem_remaining.mp (List.mem_of_mem_drop next)).1, ?_⟩
    exact (List.pairwise_append.mp sorted).2.2 _ (List.getLast_mem page) _ next
  · rintro ⟨last, r, ends, member, less⟩
    by_contra whole
    have inside := mem_remaining.mpr ⟨member, under_trans less (mem_remaining.mp (last_mem ends)).2⟩
    refine (mem_page distinct ends inside).mp ?_ less
    rwa [List.take_of_length_le (not_lt.mp whole)]

namespace Walk

theorem mono {more : List ρ} (walk : Walk key n more cursor pages after) (fewer : rows ⊆ more) :
    Walk key n rows cursor pages after := by
  cases walk with
  | last grows distinct short => exact .last (List.Subset.trans fewer grows) distinct short
  | more grows distinct longer ends rest =>
    exact .more (List.Subset.trans fewer grows) distinct longer ends rest

/-- What is shown lies under the cursor, in strictly decreasing order. -/
theorem sorted (walk : Walk key n rows cursor pages after) :
    pages.flatten.Pairwise (fun a b => key b < key a) ∧
      ∀ r ∈ pages.flatten, under key cursor r := by
  induction walk with
  | @last rows seen cursor _ distinct _ =>
    simp only [List.flatten_cons, List.flatten_nil, List.append_nil]
    exact ⟨remaining_sorted distinct cursor, fun r member => (mem_remaining.mp member).2⟩
  | @more rows seen cursor row pages after _ distinct _ ends _ ih =>
    obtain ⟨descending, lower⟩ := ih
    have page := (remaining_sorted distinct cursor).sublist (List.take_sublist n _)
    have under_ := (mem_remaining.mp (last_mem ends)).2
    have less : ∀ r ∈ pages.flatten, key r < key row := fun r member =>
      of_decide_eq_true (lower r member)
    constructor
    · rw [List.flatten_cons, List.pairwise_append]
      refine ⟨page, descending, fun a inside b later => ?_⟩
      have above := (mem_page distinct ends (List.mem_of_mem_take inside)).mp inside
      exact (less b later).trans_le (not_lt.mp above)
    · intro r member
      rcases List.mem_append.mp member with inside | later
      · exact (mem_remaining.mp (List.mem_of_mem_take inside)).2
      · exact under_trans (less r later) under_

/-- No row that was there from the start is passed over. -/
theorem complete (walk : Walk key n rows cursor pages after) {r : ρ} (there : r ∈ rows)
    (inside : under key cursor r) : r ∈ pages.flatten := by
  induction walk with
  | @last rows seen cursor grows _ _ =>
    simp only [List.flatten_cons, List.flatten_nil, List.append_nil]
    exact mem_remaining.mpr ⟨grows there, inside⟩
  | @more rows seen cursor row pages after grows distinct _ ends _ ih =>
    by_cases less : key r < key row
    · exact List.mem_append_right _ (ih (grows there) (decide_eq_true less))
    · have member := mem_remaining.mpr ⟨grows there, inside⟩
      exact List.mem_append_left _ ((mem_page distinct ends member).mpr less)

theorem grows (walk : Walk key n rows cursor pages after) : rows ⊆ after := by
  induction walk with
  | last grows _ _ => exact grows
  | more grows _ _ _ _ ih => exact List.Subset.trans grows ih

theorem sound (walk : Walk key n rows cursor pages after) : ∀ r ∈ pages.flatten, r ∈ after := by
  induction walk with
  | last _ _ _ =>
    intro r member
    simp only [List.flatten_cons, List.flatten_nil, List.append_nil] at member
    exact (mem_remaining.mp member).1
  | more _ _ _ _ rest ih =>
    intro r member
    rcases List.mem_append.mp member with inside | later
    · exact rest.grows (mem_remaining.mp (List.mem_of_mem_take inside)).1
    · exact ih r later

theorem length_le (walk : Walk key n rows cursor pages after) : ∀ page ∈ pages, page.length ≤ n := by
  induction walk with
  | last _ _ short => simpa using short
  | more _ _ _ _ _ ih =>
    intro page member
    rcases List.mem_cons.mp member with rfl | later
    · exact List.length_take_le _ _
    · exact ih page later

/-- Over rows that do not change, the pages are all rows under the cursor. -/
theorem flatten_eq (walk : Walk key n rows cursor pages after) (unchanged : after ⊆ rows)
    (distinct : (rows.map key).Nodup) : pages.flatten = remaining key cursor rows := by
  obtain ⟨descending, lower⟩ := walk.sorted
  have same : ∀ r, r ∈ pages.flatten ↔ r ∈ remaining key cursor rows := by
    intro r
    constructor
    · intro member
      exact mem_remaining.mpr ⟨unchanged (walk.sound r member), lower r member⟩
    · intro member
      exact walk.complete (mem_remaining.mp member).1 (mem_remaining.mp member).2
  have sorted := remaining_sorted distinct cursor
  have perm : pages.flatten.Perm (remaining key cursor rows) :=
    (List.perm_ext_iff_of_nodup (descending.imp fun less same => less.ne (congrArg key same.symm))
      (sorted.imp fun less same => less.ne (congrArg key same.symm))).mpr same
  exact perm.eq_of_pairwise (fun a b _ _ less less' => absurd less (lt_asymm less')) descending sorted

end Walk

/-- Following the cursors over rows that do not change comes to an end: what
holds of a cursor once it holds of the next one holds of all. -/
theorem descend (key : ρ → κ) (rows : List ρ) {P : Option κ → Prop}
    (step : ∀ cursor, (∀ row, ((remaining key cursor rows).take n).getLast? = some row →
      P (some (key row))) → P cursor) (cursor : Option κ) : P cursor := by
  induction left : (remaining key cursor rows).length using Nat.strong_induction_on
    generalizing cursor with
  | _ length ih =>
    refine step cursor fun row ends => ih _ ?_ _ rfl
    have inside := mem_remaining.mp (last_mem ends)
    have nested : rows.filter (under key (some (key row))) =
        (rows.filter (under key cursor)).filter (under key (some (key row))) := by
      rw [List.filter_filter]
      refine List.filter_congr fun r _ => Bool.eq_iff_iff.mpr ?_
      rw [Bool.and_eq_true]
      exact ⟨fun less => ⟨less, under_trans (of_decide_eq_true less) inside.2⟩, And.left⟩
    rw [← left, remaining, remaining, List.length_insertionSort, List.length_insertionSort, nested,
      List.length_filter_lt_length_iff_exists]
    exact ⟨row, List.mem_filter.mpr inside, by simp [under]⟩

end Keyset
