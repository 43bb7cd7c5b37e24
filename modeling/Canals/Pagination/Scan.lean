import Canals.Pagination.Keyset

/-! Keyset pagination over rows that change between two fetches in any way. What stays where
it is is shown once, whatever happens to the rows around it. -/
namespace Keyset

/-- The pages of at most `n` rows seen by following the cursors, where the fetches find
`tables` one after the other. -/
inductive Scan {ρ κ : Type} [LinearOrder κ] (key : ρ → κ) (n : Nat) :
    Option κ → List (List ρ) → List (List ρ) → Prop where
  | last {rows cursor} : (rows.map key).Nodup → (remaining key cursor rows).length ≤ n →
      Scan key n cursor [rows] [remaining key cursor rows]
  | more {rows cursor last tables pages} : (rows.map key).Nodup →
      n < (remaining key cursor rows).length →
      ((remaining key cursor rows).take n).getLast? = some last →
      Scan key n (some (key last)) tables pages →
      Scan key n cursor (rows :: tables) ((remaining key cursor rows).take n :: pages)

namespace Scan
variable {ρ κ : Type} [LinearOrder κ] {key : ρ → κ} {n : Nat} {cursor : Option κ} {row : ρ}
  {tables pages : List (List ρ)}

/-- What is shown lies under the cursor, in strictly decreasing order. -/
theorem sorted (scan : Scan key n cursor tables pages) :
    pages.flatten.Pairwise (fun a b => key b < key a) ∧
      ∀ r ∈ pages.flatten, under key cursor r := by
  induction scan with
  | @last rows cursor distinct _ =>
    simp only [List.flatten_cons, List.flatten_nil, List.append_nil]
    constructor
    · exact remaining_sorted distinct cursor
    · intro r member
      exact (mem_remaining.mp member).2
  | @more rows cursor last tables pages distinct _ ends _ ih =>
    obtain ⟨descending, lower⟩ := ih
    have less : ∀ r ∈ pages.flatten, key r < key last := fun r member =>
      of_decide_eq_true (lower r member)
    constructor
    · rw [List.flatten_cons, List.pairwise_append]
      refine ⟨(remaining_sorted distinct cursor).sublist (List.take_sublist n _), descending, ?_⟩
      intro a inside b later
      have above := (mem_page distinct ends (List.mem_of_mem_take inside)).mp inside
      exact (less b later).trans_le (not_lt.mp above)
    · intro r member
      rcases List.mem_append.mp member with inside | later
      · exact (mem_remaining.mp (List.mem_of_mem_take inside)).2
      · exact under_trans (less r later) (mem_remaining.mp (last_mem ends)).2

/-- No row that every fetch finds is passed over. -/
theorem complete (scan : Scan key n cursor tables pages) (everywhere : ∀ rows ∈ tables, row ∈ rows)
    (inside : under key cursor row) : row ∈ pages.flatten := by
  induction scan with
  | @last rows cursor _ _ =>
    simp only [List.flatten_cons, List.flatten_nil, List.append_nil]
    exact mem_remaining.mpr ⟨everywhere rows List.mem_cons_self, inside⟩
  | @more rows cursor last tables pages distinct _ ends _ ih =>
    by_cases less : key row < key last
    · apply List.mem_append_right
      exact ih (fun rows later => everywhere rows (List.mem_cons_of_mem _ later))
        (decide_eq_true less)
    · apply List.mem_append_left
      refine (mem_page distinct ends ?_).mpr less
      exact mem_remaining.mpr ⟨everywhere rows List.mem_cons_self, inside⟩

theorem sound (scan : Scan key n cursor tables pages) :
    ∀ r ∈ pages.flatten, ∃ rows ∈ tables, r ∈ rows := by
  induction scan with
  | @last rows cursor _ _ =>
    intro r member
    simp only [List.flatten_cons, List.flatten_nil, List.append_nil] at member
    exact ⟨rows, List.mem_cons_self, (mem_remaining.mp member).1⟩
  | @more rows cursor last tables pages _ _ _ _ ih =>
    intro r member
    rcases List.mem_append.mp member with inside | later
    · exact ⟨rows, List.mem_cons_self, (mem_remaining.mp (List.mem_of_mem_take inside)).1⟩
    · obtain ⟨rows', listed, found⟩ := ih r later
      exact ⟨rows', List.mem_cons_of_mem _ listed, found⟩

theorem length_le (scan : Scan key n cursor tables pages) : ∀ page ∈ pages, page.length ≤ n := by
  induction scan with
  | last _ short => simpa using short
  | more _ _ _ _ ih =>
    intro page member
    rcases List.mem_cons.mp member with rfl | later
    · exact List.length_take_le _ _
    · exact ih page later

/-- What relates the rows of a fetch to each other and to those of the next ones relates what
is shown. -/
theorem related (scan : Scan key n cursor tables pages) {R : ρ → ρ → Prop}
    (within : ∀ rows ∈ tables, ∀ a ∈ rows, ∀ b ∈ rows, R a b)
    (across : tables.Pairwise fun rows later => ∀ a ∈ rows, ∀ b ∈ later, R a b) :
    pages.flatten.Pairwise R := by
  induction scan with
  | @last rows cursor _ _ =>
    simp only [List.flatten_cons, List.flatten_nil, List.append_nil]
    apply List.pairwise_of_forall_mem_list
    intro a first b second
    exact within rows List.mem_cons_self a (mem_remaining.mp first).1 b (mem_remaining.mp second).1
  | @more rows cursor last tables pages _ _ _ rest ih =>
    obtain ⟨next, across⟩ := List.pairwise_cons.mp across
    have own : ∀ r ∈ (remaining key cursor rows).take n, r ∈ rows := fun r member =>
      (mem_remaining.mp (List.mem_of_mem_take member)).1
    rw [List.flatten_cons, List.pairwise_append]
    refine ⟨?_, ih (fun rows later => within rows (List.mem_cons_of_mem _ later)) across, ?_⟩
    · apply List.pairwise_of_forall_mem_list
      intro a first b second
      exact within rows List.mem_cons_self a (own a first) b (own b second)
    · intro a first b later
      obtain ⟨rows', seen, second⟩ := rest.sound b later
      exact next rows' seen a (own a first) b second

end Scan

end Keyset
