import Canals.Caching.Memo
import Mathlib.Data.List.Dedup

/-! Keys in the order of their last use, and caches that hold the most recently used of them
in that order. -/

namespace InsertionMap
variable {K V : Type} [DecidableEq K] {entries : InsertionMap K V} {k : K} {v : V}

def keys (entries : InsertionMap K V) : List K := entries.map Prod.fst

theorem keys_set_of_mem (held : k ∈ keys entries) : keys (set entries k v) = keys entries := by
  induction entries with
  | nil => cases held
  | cons e rest ih =>
      rw [set]
      split
      · rename_i here
        exact congrArg (· :: keys rest) here.symm
      · rename_i other
        have later : k ∈ keys rest := by
          cases List.mem_cons.mp held with
          | inl same => exact absurd same.symm other
          | inr later => exact later
        exact congrArg (e.1 :: ·) (ih later)

theorem keys_set_of_notMem (absent : k ∉ keys entries) :
    keys (set entries k v) = keys entries ++ [k] := by
  induction entries with
  | nil => rfl
  | cons e rest ih =>
      have other : e.1 ≠ k := fun same => absent (List.mem_cons.mpr (.inl same.symm))
      rw [set, if_neg other]
      exact congrArg (e.1 :: ·) (ih fun later => absent (List.mem_cons_of_mem _ later))

theorem length_set_le : (set entries k v).length ≤ entries.length + 1 := by
  have counted : ∀ entries : InsertionMap K V, (keys entries).length = entries.length :=
    fun _ => List.length_map _
  rw [← counted, ← counted]
  by_cases held : k ∈ keys entries
  · rw [keys_set_of_mem held]
    exact Nat.le_succ _
  · rw [keys_set_of_notMem held, List.length_append]
    exact Nat.le_refl _

theorem set_ne_nil : set entries k v ≠ [] := by
  cases entries with
  | nil => exact List.cons_ne_nil _ _
  | cons e rest =>
      rw [set]
      split
      · exact List.cons_ne_nil _ _
      · exact List.cons_ne_nil _ _

theorem length_delete_head {e : K × V} {rest : InsertionMap K V} :
    (delete (e :: rest) e.1).length ≤ rest.length := by
  rw [delete, List.filter_cons_of_neg (by simp)]
  exact List.length_filter_le _ _

theorem keys_delete : keys (delete entries k) = (keys entries).filter (· ≠ k) := by
  rw [keys, delete, keys, List.filter_map]
  rfl

end InsertionMap

namespace Recency
variable {K : Type} [DecidableEq K] {used held : List K} {k a b : K}

/-- How many uses there were since the last use of the key; as many as there were at all if
there was none. -/
def age (used : List K) (k : K) : Nat := used.reverse.idxOf k

theorem age_cons_of_mem (member : k ∈ used) : age (a :: used) k = age used k := by
  rw [age, age, List.reverse_cons, List.idxOf_append_of_mem (List.mem_reverse.mpr member)]

theorem age_cons_self (fresh : a ∉ used) : age (a :: used) a = used.length := by
  rw [age, List.reverse_cons, List.idxOf_append_of_notMem (by simpa using fresh)]
  simp

theorem age_lt (member : k ∈ used) : age used k < used.length := by
  rw [age, ← List.length_reverse]
  exact List.idxOf_lt_length_iff.mpr (List.mem_reverse.mpr member)

/-- `dedup` keeps the last uses, in their order. -/
theorem pairwise_age (used : List K) : used.dedup.Pairwise fun a b => age used b < age used a := by
  induction used with
  | nil => exact .nil
  | cons a used ih =>
      have lifted : used.dedup.Pairwise fun x y => age (a :: used) y < age (a :: used) x := by
        apply List.Pairwise.imp_of_mem _ ih
        intro x y first second older
        rwa [age_cons_of_mem (List.mem_dedup.mp first), age_cons_of_mem (List.mem_dedup.mp second)]
      by_cases again : a ∈ used
      · rwa [List.dedup_cons_of_mem again]
      · rw [List.dedup_cons_of_notMem again]
        apply List.Pairwise.cons _ lifted
        intro b member
        have later := List.mem_dedup.mp member
        rw [age_cons_of_mem later, age_cons_self again]
        exact age_lt later

theorem dedup_concat (used : List K) (k : K) :
    (used ++ [k]).dedup = used.dedup.filter (· ≠ k) ++ [k] := by
  induction used with
  | nil => rfl
  | cons a used ih =>
      rw [List.cons_append, List.dedup_cons, ih, List.dedup_cons]
      by_cases again : a ∈ used
      · rw [if_pos again, if_pos (List.mem_append_left _ again)]
      · rw [if_neg again]
        by_cases same : a = k
        · subst same
          simp
        · rw [if_neg (by simp [again, same]), List.filter_cons_of_pos (by simpa using same)]
          rfl

/-- A cache that holds the keys used last, in the order of their last use. -/
def Held (used held : List K) : Prop := held <:+ used.dedup

namespace Held

theorem nodup (order : Held used held) : held.Nodup :=
  (List.nodup_dedup used).sublist order.sublist

/-- A use of `k` puts it last. -/
theorem use (order : Held used held) (k : K) : Held (used ++ [k]) (held.filter (· ≠ k) ++ [k]) := by
  obtain ⟨before, whole⟩ := order
  refine ⟨before.filter (· ≠ k), ?_⟩
  rw [dedup_concat, ← whole, List.filter_append, List.append_assoc]

theorem tail {first : K} {rest : List K} (order : Held used (first :: rest)) : Held used rest :=
  (List.suffix_cons first rest).trans order

/-- The first key held is the one whose last use is the oldest. -/
theorem oldest {first : K} {rest : List K} (order : Held used (first :: rest)) :
    ∀ other ∈ rest, age used other < age used first :=
  (List.pairwise_cons.mp ((pairwise_age used).sublist order.sublist)).1

end Held

end Recency
