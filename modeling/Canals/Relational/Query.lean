import Mathlib.Algebra.BigOperators.Group.List.Basic
import Mathlib.Algebra.Order.Ring.Nat
import Mathlib.Data.List.Dedup
import Mathlib.Data.List.Sort
import Mathlib.Data.Prod.Lex

/-! Queries over bags of rows, as lists: joins, groups of a given size, the first
rows by a key. Where every row has at most one partner, counting a group's rows
decides a for-all over the other table: division by counting. -/
namespace Relational
variable {α β κ : Type}

/-- `JOIN … ON`. -/
def join (on : α → β → Bool) (rows : List α) (others : List β) : List (α × β) :=
  rows.flatMap fun a => (others.filter (on a)).map (a, ·)

/-- `GROUP BY key HAVING count(*) = n`; a group has at least one row. -/
def groups [DecidableEq κ] (key : α → κ) (n : Nat) (rows : List α) : List κ :=
  (rows.map key).dedup.filter fun k => rows.countP (key · = k) = n

/-- `ORDER BY key LIMIT n`. -/
def firstBy [LinearOrder κ] (key : α → κ) (n : Nat) (rows : List α) : List α :=
  (rows.insertionSort fun a b => key a ≤ key b).take n

theorem mem_join {on : α → β → Bool} {rows : List α} {others : List β} {a : α} {b : β} :
    (a, b) ∈ join on rows others ↔ a ∈ rows ∧ b ∈ others ∧ on a b := by
  simp only [join, List.mem_flatMap, List.mem_map, List.mem_filter, Prod.mk.injEq]
  constructor
  · rintro ⟨a', member, b', ⟨there, matched⟩, rfl, rfl⟩
    exact ⟨member, there, matched⟩
  · rintro ⟨member, there, matched⟩
    exact ⟨a, member, b, ⟨there, matched⟩, rfl, rfl⟩

theorem mem_groups [DecidableEq κ] {key : α → κ} {n : Nat} (positive : 0 < n) {rows : List α}
    {k : κ} : k ∈ groups key n rows ↔ rows.countP (key · = k) = n := by
  simp only [groups, List.mem_filter, List.mem_dedup, decide_eq_true_eq, and_iff_right_iff_imp]
  intro count
  obtain ⟨a, member, here⟩ := List.countP_pos_iff.mp (count ▸ positive)
  exact List.mem_map.mpr ⟨a, member, by simpa using here⟩

theorem nodup_groups [DecidableEq κ] {key : α → κ} {n : Nat} {rows : List α} :
    (groups key n rows).Nodup :=
  (List.nodup_dedup _).filter _

/-- A key picks at most one row of a table it is unique in. -/
theorem countP_le_one [DecidableEq κ] {key : α → κ} {rows : List α} (unique : (rows.map key).Nodup)
    (k : κ) (holds : α → Bool) : rows.countP (fun a => key a = k && holds a) ≤ 1 := by
  have counted : rows.countP (fun a => key a = k && holds a) ≤ (rows.map key).count k := by
    rw [List.count, List.countP_map]
    refine List.countP_mono_left fun a _ here => ?_
    simp only [Bool.and_eq_true, decide_eq_true_eq] at here
    simp [here.1]
  exact counted.trans (List.nodup_iff_count_le_one.mp unique k)

/-- What at most one row satisfies, is counted once where some row does. -/
theorem sum_countP {rows : List α} {others : List β} {holds : α → β → Bool}
    (once : ∀ a ∈ rows, others.countP (holds a) ≤ 1) :
    (rows.map fun a => others.countP (holds a)).sum =
      rows.countP fun a => others.any (holds a) := by
  induction rows with
  | nil => rfl
  | cons a rows ih =>
    obtain ⟨here, later⟩ := List.forall_mem_cons.mp once
    rw [List.map_cons, List.sum_cons, ih later, List.countP_cons]
    have head : others.countP (holds a) = if others.any (holds a) then 1 else 0 := by
      split
      · rename_i some_
        obtain ⟨b, member, here'⟩ := List.any_eq_true.mp some_
        have positive := List.countP_pos_iff.mpr ⟨b, member, here'⟩
        omega
      · rename_i none
        refine List.countP_eq_zero.mpr fun b member here' => none ?_
        exact List.any_eq_true.mpr ⟨b, member, here'⟩
    omega

theorem countP_join {on : α → β → Bool} {rows : List α} {others : List β}
    {holds : α × β → Bool} : (join on rows others).countP holds =
      (rows.map fun a => others.countP fun b => on a b && holds (a, b)).sum := by
  induction rows with
  | nil => rfl
  | cons a rows ih =>
    have split : join on (a :: rows) others =
        (others.filter (on a)).map (a, ·) ++ join on rows others := by simp [join]
    rw [split, List.countP_append, ih, List.map_cons, List.sum_cons, List.countP_map,
      List.countP_filter]
    congr 2
    funext b
    rw [Function.comp_apply, Bool.and_comm]

theorem countP_eq_sum {rows : List α} {holds : α → Bool} :
    rows.countP holds = (rows.map fun a => if holds a then 1 else 0).sum := by
  induction rows with
  | nil => rfl
  | cons a rows ih => rw [List.countP_cons, List.map_cons, List.sum_cons, ih, Nat.add_comm]

theorem countP_join_comm {on : α → β → Bool} {rows : List α} {others : List β}
    {holds : α × β → Bool} : (join on rows others).countP holds =
      (others.map fun b => rows.countP fun a => on a b && holds (a, b)).sum := by
  rw [countP_join]
  induction rows with
  | nil => simp
  | cons a rows ih =>
    rw [List.map_cons, List.sum_cons, ih, countP_eq_sum, ← List.sum_map_add]
    congr 2
    funext b
    rw [List.countP_cons, Nat.add_comm]

/-- Rows with at most one partner each are counted once. -/
theorem countP_join_left {on : α → β → Bool} {rows : List α} {others : List β}
    {holds : α × β → Bool}
    (once : ∀ a ∈ rows, others.countP (fun b => on a b && holds (a, b)) ≤ 1) :
    (join on rows others).countP holds =
      rows.countP fun a => others.any fun b => on a b && holds (a, b) :=
  countP_join.trans (sum_countP once)

theorem countP_join_right {on : α → β → Bool} {rows : List α} {others : List β}
    {holds : α × β → Bool}
    (once : ∀ b ∈ others, rows.countP (fun a => on a b && holds (a, b)) ≤ 1) :
    (join on rows others).countP holds =
      others.countP fun b => rows.any fun a => on a b && holds (a, b) :=
  countP_join_comm.trans (sum_countP once)

theorem nodup_join {on : α → β → Bool} {rows : List α} {others : List β} (distinct : rows.Nodup)
    (distinct' : others.Nodup) : (join on rows others).Nodup := by
  refine List.nodup_flatMap.mpr ⟨fun a _ => ?_, distinct.imp fun {a b} apart => ?_⟩
  · exact (distinct'.filter _).map fun _ _ same => (Prod.mk.inj same).2
  · intro ab here there
    obtain ⟨_, -, rfl⟩ := List.mem_map.mp here
    obtain ⟨_, -, same⟩ := List.mem_map.mp there
    exact apart (Prod.mk.inj same).1.symm

/-- The rows taken are the first of all rows in the strict order of the key. -/
theorem firstBy_spec [LinearOrder κ] {key : α → κ} {rows : List α} (n : Nat)
    (unique : (rows.map key).Nodup) : ∃ ranked : List α, ranked.Perm rows ∧
      ranked.Pairwise (fun a b => key a < key b) ∧ firstBy key n rows = ranked.take n := by
  have perm := List.perm_insertionSort (fun a b => key a ≤ key b) rows
  refine ⟨_, perm, ?_, rfl⟩
  have sorted : (rows.insertionSort fun a b => key a ≤ key b).Pairwise
      fun a b => key a ≤ key b := List.pairwise_insertionSort _ _
  have distinct : (rows.insertionSort fun a b => key a ≤ key b).Pairwise
      fun a b => key a ≠ key b := List.pairwise_map.mp ((perm.map key).nodup_iff.mpr unique)
  exact (sorted.and distinct).imp fun both => lt_of_le_of_ne both.1 both.2

section Sorted
variable [LinearOrder κ] {key : α → κ}

/-- `ORDER BY key` of the rows whose key is below a bound. -/
def below (key : α → κ) (bound : κ) (rows : List α) : List α :=
  (rows.filter (key · < bound)).insertionSort fun a b => key a ≤ key b

theorem orderedInsert_of_le {a : α} {rows : List α} (first : ∀ b ∈ rows, key a ≤ key b) :
    rows.orderedInsert (fun a b => key a ≤ key b) a = a :: rows := by
  cases rows with
  | nil => rfl
  | cons b rows => exact if_pos (first b List.mem_cons_self)

/-- Sorting is stable: rows keep their places when others are left out. -/
theorem filter_orderedInsert (keep : α → Bool) {a : α} {rows : List α}
    (sorted : rows.Pairwise fun a b => key a ≤ key b) :
    (rows.orderedInsert (fun a b => key a ≤ key b) a).filter keep =
      if keep a then (rows.filter keep).orderedInsert (fun a b => key a ≤ key b) a
      else rows.filter keep := by
  induction rows with
  | nil =>
      rw [List.orderedInsert_nil, List.filter_cons, List.filter_nil]
      rfl
  | cons b rows ih =>
      obtain ⟨least, sorted⟩ := List.pairwise_cons.mp sorted
      by_cases here : key a ≤ key b
      · have first : ∀ c ∈ (b :: rows).filter keep, key a ≤ key c := by
          intro c member
          rcases List.mem_cons.mp (List.mem_of_mem_filter member) with rfl | later
          · exact here
          · exact here.trans (least c later)
        rw [List.orderedInsert_cons, if_pos here, orderedInsert_of_le first, List.filter_cons]
      · rw [List.orderedInsert_cons, if_neg here, List.filter_cons, ih sorted, List.filter_cons]
        by_cases kept : keep b
        · rw [if_pos kept, if_pos kept]
          split
          · rw [List.orderedInsert_cons, if_neg here]
          · rfl
        · rw [if_neg kept, if_neg kept]

theorem filter_insertionSort (keep : α → Bool) (rows : List α) :
    (rows.insertionSort fun a b => key a ≤ key b).filter keep =
      (rows.filter keep).insertionSort fun a b => key a ≤ key b := by
  induction rows with
  | nil => rfl
  | cons a rows ih =>
      rw [List.insertionSort_cons, filter_orderedInsert keep (List.pairwise_insertionSort _ _), ih,
        List.filter_cons]
      split
      · rw [List.insertionSort_cons]
      · rfl

/-- In sorted rows those below a bound come first. -/
theorem split_sorted {rows : List α} (sorted : rows.Pairwise fun a b => key a ≤ key b)
    (bound : κ) :
    rows = rows.filter (key · < bound) ++ rows.filter fun a => !decide (key a < bound) := by
  induction rows with
  | nil => rfl
  | cons a rows ih =>
      obtain ⟨least, sorted⟩ := List.pairwise_cons.mp sorted
      by_cases here : key a < bound
      · rw [List.filter_cons_of_pos (by simpa using here),
          List.filter_cons_of_neg (by simpa using here), List.cons_append, ← ih sorted]
      · have none : rows.filter (key · < bound) = [] := by
          apply List.filter_eq_nil_iff.mpr
          intro b member below
          exact here ((least b member).trans_lt (of_decide_eq_true below))
        have all : rows.filter (fun a => !decide (key a < bound)) = rows := by
          have rest := ih sorted
          rwa [none, List.nil_append, eq_comm] at rest
        rw [List.filter_cons_of_neg (by simpa using here), none, List.nil_append,
          List.filter_cons_of_pos (by simpa using here), all]

theorem mem_below {bound : κ} {rows : List α} {a : α} :
    a ∈ below key bound rows ↔ a ∈ rows ∧ key a < bound := by
  rw [below, (List.perm_insertionSort _ _).mem_iff, List.mem_filter, decide_eq_true_iff]

theorem filter_below (keep : α → Bool) (bound : κ) (rows : List α) :
    (below key bound rows).filter keep = below key bound (rows.filter keep) := by
  rw [below, filter_insertionSort, below, List.filter_filter, List.filter_filter]
  congr 2
  funext a
  rw [Bool.and_comm]

theorem below_map {key : β → κ} (f : α → β) (bound : κ) (rows : List α) :
    below key bound (rows.map f) = (below (key <| f ·) bound rows).map f := by
  rw [below, List.filter_map, below]
  exact (List.map_insertionSort _ _ f _ fun _ _ _ _ => Iff.rfl).symm

/-- A later bound adds rows behind those below an earlier one. -/
theorem below_prefix {bound later : κ} (order : bound ≤ later) (rows : List α) :
    below key bound rows <+: below key later rows := by
  have sorted : (below key later rows).Pairwise fun a b => key a ≤ key b :=
    List.pairwise_insertionSort _ _
  have split := split_sorted sorted bound
  have front : (below key later rows).filter (key · < bound) = below key bound rows := by
    rw [below, filter_insertionSort, List.filter_filter, below]
    congr 2
    funext a
    by_cases here : key a < bound
    · simp [here, here.trans_le order]
    · simp [here]
  rw [front] at split
  exact ⟨_, split.symm⟩

end Sorted

end Relational
