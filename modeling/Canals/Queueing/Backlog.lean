import Mathlib.Data.List.Nodup

/-! A queue served in batches. Of the items a batch takes from the head of the
queue some stay there, and the next batch takes them again: a queue is served in
`k` batches exactly when it can be cut into `k` groups that leave room for them. -/
namespace Backlog
variable {α : Type} (size : Nat) (stays : α → Bool)

/-- The queue behind a batch. -/
def serve (queue : List α) : List α := (queue.take size).filter stays ++ queue.drop size

/-- The first `k` batches. -/
def batches : Nat → List α → List (List α)
  | 0, _ => []
  | k + 1, queue => queue.take size :: batches k (serve size stays queue)

/-- Each group, with the `held` items and those that stay from the groups before it, is no larger
than a batch. -/
def Fits : Nat → List (List α) → Prop
  | _, [] => True
  | held, group :: groups => held + group.length ≤ size ∧ Fits (held + group.countP stays) groups

/-- The queue can be cut into `k` such groups. -/
def Cuttable (k : Nat) (queue : List α) : Prop :=
  ∃ groups : List (List α), groups.length = k ∧ groups.flatten = queue ∧ Fits size stays 0 groups

/-- What `k` batches leave untouched of the items behind `held` ones that stay. -/
def untouched : Nat → Nat → List α → List α
  | 0, _, fresh => fresh
  | k + 1, held, fresh =>
    untouched k (held + (fresh.take (size - held)).countP stays) (fresh.drop (size - held))

variable {size stays} {held k : Nat} {fresh queue : List α}

theorem held_le (room : held ≤ size) : held + (fresh.take (size - held)).countP stays ≤ size := by
  have counted : (fresh.take (size - held)).countP stays ≤ (fresh.take (size - held)).length :=
    List.countP_le_length
  have taken := List.length_take_le (size - held) fresh
  omega

theorem serve_append {front : List α} (room : front.length ≤ size)
    (all : ∀ x ∈ front, stays x) : serve size stays (front ++ fresh) =
      (front ++ (fresh.take (size - front.length)).filter stays) ++
        fresh.drop (size - front.length) := by
  rw [serve, List.take_append, List.drop_append, List.take_of_length_le room,
    List.drop_of_length_le room, List.filter_append, List.filter_eq_self.mpr all, List.nil_append]

/-- The batches reach every fresh item when they leave none untouched. -/
theorem batches_reach_iff {front : List α} (room : front.length ≤ size)
    (all : ∀ x ∈ front, stays x) (distinct : (front ++ fresh).Nodup) :
    (∀ x ∈ fresh, ∃ batch ∈ batches size stays k (front ++ fresh), x ∈ batch) ↔
      untouched size stays k front.length fresh = [] := by
  induction k generalizing front fresh with
  | zero =>
      constructor
      · intro reached
        apply List.eq_nil_iff_forall_not_mem.mpr
        intro x member
        obtain ⟨batch, none, -⟩ := reached x member
        contradiction
      · intro none x member
        have impossible : x ∈ ([] : List α) := none ▸ member
        contradiction
  | succ k ih =>
      have next : serve size stays (front ++ fresh) = _ := serve_append room all
      have count : front.length + (fresh.take (size - front.length)).countP stays =
          (front ++ (fresh.take (size - front.length)).filter stays).length := by
        rw [List.length_append, List.countP_eq_length_filter]
      have parts := List.take_append_drop (size - front.length) fresh
      have kept : ∀ x ∈ front ++ (fresh.take (size - front.length)).filter stays, stays x := by
        intro x member
        rcases List.mem_append.mp member with old | new
        · exact all x old
        · exact (List.mem_filter.mp new).2
      have smaller : ((front ++ (fresh.take (size - front.length)).filter stays) ++
          fresh.drop (size - front.length)).Nodup := by
        refine distinct.sublist ?_
        rw [List.append_assoc]
        have shorter := (List.filter_sublist (p := stays)
          (l := fresh.take (size - front.length))).append_right (fresh.drop (size - front.length))
        rw [parts] at shorter
        exact shorter.append_left front
      rw [batches, untouched, next, count, ← ih (count ▸ held_le room) kept smaller,
        List.take_append, List.take_of_length_le room]
      constructor
      · intro reached x member
        have inside : x ∈ fresh := List.mem_of_mem_drop member
        obtain ⟨batch, chosen, taken⟩ := reached x inside
        rcases List.mem_cons.mp chosen with rfl | later
        · exfalso
          rcases List.mem_append.mp taken with old | new
          · exact List.disjoint_of_nodup_append distinct old inside
          · have apart := List.disjoint_of_nodup_append
              (parts.symm ▸ (List.nodup_append.mp distinct).2.1)
            exact apart new member
        · exact ⟨batch, later, taken⟩
      · intro reached x member
        rw [← parts] at member
        rcases List.mem_append.mp member with now | later
        · exact ⟨_, List.mem_cons_self, List.mem_append_right front now⟩
        · obtain ⟨batch, chosen, taken⟩ := reached x later
          exact ⟨batch, List.mem_cons_of_mem _ chosen, taken⟩

/-- Groups that fit still do when a batch takes items of theirs ahead of time. -/
theorem Fits.drop {groups : List (List α)} (fits : Fits size stays held groups) (n : Nat)
    (room : held + (groups.flatten.take n).countP stays ≤ size) :
    ∃ later : List (List α), later.length = groups.length ∧
      later.flatten = groups.flatten.drop n ∧
      Fits size stays (held + (groups.flatten.take n).countP stays) later := by
  induction groups generalizing held n with
  | nil => exact ⟨[], rfl, by simp, trivial⟩
  | cons group groups ih =>
      obtain ⟨now, rest⟩ := fits
      rw [List.flatten_cons] at room ⊢
      by_cases short : n ≤ group.length
      · refine ⟨group.drop n :: groups, rfl, ?_, ?_, ?_⟩
        · rw [List.flatten_cons, List.drop_append_of_le_length short]
        · rw [List.take_append_of_le_length short, List.length_drop]
          have counted : (group.take n).countP stays ≤ (group.take n).length :=
            List.countP_le_length
          have taken := List.length_take_le n group
          omega
        · rw [List.take_append_of_le_length short, Nat.add_assoc, ← List.countP_append,
            List.take_append_drop]
          exact rest
      · have long : group.length ≤ n := by omega
        have split : (group ++ groups.flatten).take n =
            group ++ groups.flatten.take (n - group.length) := by
          rw [List.take_append, List.take_of_length_le long]
        rw [split, List.countP_append, ← Nat.add_assoc] at room
        obtain ⟨later, count, shape, fits⟩ := ih rest (n - group.length) room
        refine ⟨[] :: later, by rw [List.length_cons, count, List.length_cons], ?_, ?_, ?_⟩
        · rw [List.flatten_cons, List.nil_append, shape, List.drop_append,
            List.drop_of_length_le long, List.nil_append]
        · rw [split, List.countP_append, ← Nat.add_assoc, List.length_nil, Nat.add_zero]
          exact room
        · rw [split, List.countP_append, ← Nat.add_assoc, List.countP_nil, Nat.add_zero]
          exact fits

theorem untouched_eq_nil_iff (room : held ≤ size) : untouched size stays k held fresh = [] ↔
    ∃ groups : List (List α), groups.length = k ∧ groups.flatten = fresh ∧
      Fits size stays held groups := by
  induction k generalizing held fresh with
  | zero =>
      constructor
      · intro none
        exact ⟨[], rfl, none.symm, trivial⟩
      · rintro ⟨groups, count, rfl, -⟩
        rw [List.length_eq_zero_iff.mp count]
        rfl
  | succ k ih =>
      rw [untouched, ih (held_le room)]
      constructor
      · rintro ⟨groups, count, shape, fits⟩
        refine ⟨fresh.take (size - held) :: groups, by rw [List.length_cons, count], ?_, ?_, fits⟩
        · rw [List.flatten_cons, shape, List.take_append_drop]
        · have taken := List.length_take_le (size - held) fresh
          omega
      · rintro ⟨groups, count, rfl, fits⟩
        cases groups with
        | nil => contradiction
        | cons group groups =>
            obtain ⟨now, rest⟩ := fits
            -- the batch takes this group and the items of the next ones it has room for
            have split : (group ++ groups.flatten).take (size - held) =
                group ++ groups.flatten.take (size - held - group.length) := by
              rw [List.take_append, List.take_of_length_le (by omega)]
            have all : held + ((group ++ groups.flatten).take (size - held)).countP stays ≤ size :=
              held_le room
            rw [split, List.countP_append, ← Nat.add_assoc] at all
            obtain ⟨later, length, shape, fits⟩ :=
              rest.drop (size - held - group.length) all
            refine ⟨later, by rw [length]; exact Nat.succ.inj count, ?_, ?_⟩
            · have gone : group.drop (size - held) = [] := List.drop_of_length_le (by omega)
              rw [List.flatten_cons, shape, List.drop_append, gone, List.nil_append]
            · rw [List.flatten_cons, split, List.countP_append, ← Nat.add_assoc]
              exact fits

/-- All items of a queue are reached by its first `k` batches exactly when it can be cut into `k`
groups, each of which fits a batch together with the items that stay from the groups before. -/
theorem reached_iff (distinct : queue.Nodup) :
    (∀ x ∈ queue, ∃ batch ∈ batches size stays k queue, x ∈ batch) ↔
      Cuttable size stays k queue := by
  have reach : (∀ x ∈ queue, ∃ batch ∈ batches size stays k ([] ++ queue), x ∈ batch) ↔
      untouched size stays k 0 queue = [] :=
    batches_reach_iff (Nat.zero_le size) (by simp) distinct
  rw [List.nil_append] at reach
  rw [reach, untouched_eq_nil_iff (Nat.zero_le size)]
  rfl

end Backlog
