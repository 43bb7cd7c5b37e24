import Canals.Locking.Program
import Mathlib.Logic.Relation
import Mathlib.Order.Basic

/-! Transactions that wait for one another's row locks, taken one at a time
within a statement and held to the end. Where every body asks for its locks in
one order, or only for what a lock it holds already covers, no transactions
wait in a circle. -/
namespace Locking
variable {Stmt : Type} {Result : Stmt → Type} {Fault Data Write Lock Mode Input E α R P : Type}

/-- The locks of a statement: those it asks for, in this order, of which it
passes over the rows it does not find, and those of the rows it answers with. -/
structure RowLocks (Stmt : Type) (Result : Stmt → Type) (Data Mode : Type) where
  rows : Stmt → List Mode
  skips : Stmt → Mode → Data → Prop
  answered : (s : Stmt) → Result s → List Mode
  conflicts : Mode → Mode → Prop

/-- An open transaction: what its statement, once issued, still has to lock. -/
structure Waiter (Stmt : Type) (Result : Stmt → Type) (Fault E Write Mode α : Type) where
  rest : Program Stmt Result Fault E α
  writes : List Write := []
  pending : Option (List Mode) := none

structure LockTable (Stmt : Type) (Result : Stmt → Type)
    (Fault E Data Write Mode α P : Type) where
  data : Data
  held : List (Mode × P) := []
  tx : P → Option (Waiter Stmt Result Fault E Write Mode α) := fun _ => none

namespace LockTable

/-- No other transaction holds a lock that conflicts. -/
def Free (L : RowLocks Stmt Result Data Mode)
    (s : LockTable Stmt Result Fault E Data Write Mode α P) (p : P) (l : Mode) : Prop :=
  ∀ l' q, (l', q) ∈ s.held → q ≠ p → ¬ L.conflicts l l'

/-- `p` waits for a lock that `q` does not let it have. -/
def WaitsFor (L : RowLocks Stmt Result Data Mode)
    (s : LockTable Stmt Result Fault E Data Write Mode α P) (p q : P) : Prop :=
  q ≠ p ∧ ∃ rest writes l ls l', s.tx p = some ⟨rest, writes, some (l :: ls)⟩ ∧
    (l', q) ∈ s.held ∧ L.conflicts l l'

variable [DecidableEq P]

def put (s : LockTable Stmt Result Fault E Data Write Mode α P) (p : P)
    (tx : Waiter Stmt Result Fault E Write Mode α) :
    LockTable Stmt Result Fault E Data Write Mode α P :=
  { s with tx := Function.update s.tx p (some tx) }

/-- The end of a transaction releases its locks. -/
def close (s : LockTable Stmt Result Fault E Data Write Mode α P) (p : P) :
    LockTable Stmt Result Fault E Data Write Mode α P :=
  { s with
    held := s.held.filter fun entry => entry.2 ≠ p
    tx := Function.update s.tx p none }

/-- One step of one transaction. `Body` says which may begin on the data, and
`Selects` what a `SKIP LOCKED` query finds that is not locked. -/
inductive Step (S : Store Stmt Result Fault Data Write Lock Input)
    (L : RowLocks Stmt Result Data Mode) (Body : Data → Program Stmt Result Fault E α → Prop)
    (Selects : Data → (Mode → Prop) → List Mode → Prop) :
    LockTable Stmt Result Fault E Data Write Mode α P →
      LockTable Stmt Result Fault E Data Write Mode α P → Prop where
  | begin {s p rest} : s.tx p = none → Body s.data rest → Step S L Body Selects s (s.put p { rest })
  | select {s p ls a} : s.tx p = none → Selects s.data (s.Free L p) ls →
      (∀ l ∈ ls, s.Free L p l) → Step S L Body Selects s
        { s.put p { rest := .pure a } with held := s.held ++ ls.map (·, p) }
  | issue {s p stmt onFault next writes} :
      s.tx p = some ⟨.exec stmt onFault next, writes, none⟩ →
      Step S L Body Selects s (s.put p ⟨.exec stmt onFault next, writes, some (L.rows stmt)⟩)
  | pass {s p stmt onFault next writes l ls} :
      s.tx p = some ⟨.exec stmt onFault next, writes, some (l :: ls)⟩ →
      L.skips stmt l (S.applyAll writes s.data) →
      Step S L Body Selects s (s.put p ⟨.exec stmt onFault next, writes, some ls⟩)
  | acquire {s p rest writes l ls} : s.tx p = some ⟨rest, writes, some (l :: ls)⟩ →
      s.Free L p l → Step S L Body Selects s
        { s.put p ⟨rest, writes, some ls⟩ with held := s.held ++ [(l, p)] }
  | exec {s p stmt onFault next writes i r more} :
      s.tx p = some ⟨.exec stmt onFault next, writes, some []⟩ →
      S.exec stmt i (S.applyAll writes s.data) = .ok (r, more) →
      (∀ l ∈ L.answered stmt r, (l, p) ∈ s.held) →
      Step S L Body Selects s (s.put p ⟨next r, writes ++ more, none⟩)
  | commit {s p a writes} : s.tx p = some ⟨.pure a, writes, none⟩ →
      Step S L Body Selects s { s.close p with data := S.applyAll writes s.data }
  /-- A fault, an exception, a timeout or a crash. -/
  | abort {s p} : Step S L Body Selects s (s.close p)

end LockTable

section Order
variable (L : RowLocks Stmt Result Data Mode) [Preorder R] (rank : Mode → R)

/-- Whatever the lock would wait for, the one held already excludes. -/
def Covers (held : List Mode) (l : Mode) : Prop :=
  ∃ h ∈ held, ∀ l', L.conflicts l l' → L.conflicts h l'

/-- Locks to ask for one after the other when at most `may` and at least `sure`
are held. -/
def Climbs (sure : List Mode) : List Mode → List Mode → Prop
  | _, [] => True
  | may, l :: ls => (Covers L sure l ∨ ∀ h ∈ may, rank h < rank l) ∧ Climbs sure (may ++ [l]) ls

/-- Every statement climbs, whatever the earlier ones answered. -/
def Ordered : Program Stmt Result Fault E α → List Mode → List Mode → Prop
  | .pure _, _, _ => True
  | .throw _, _, _ => True
  | .exec s _ next, may, sure => Climbs L rank sure may (L.rows s) ∧
      ∀ r, Ordered (next r) (may ++ L.rows s) (sure ++ L.answered s r)

/-- Every statement asks only for what is covered. -/
def Calm : Program Stmt Result Fault E α → List Mode → Prop
  | .pure _, _ => True
  | .throw _, _ => True
  | .exec s _ next, sure => (∀ l ∈ L.rows s, Covers L sure l) ∧
      ∀ r, Calm (next r) (sure ++ L.answered s r)

variable {L rank} {β : Type} {may sure : List Mode}

theorem climbs_of_covers {ls : List Mode} (covered : ∀ l ∈ ls, Covers L sure l) :
    Climbs L rank sure may ls := by
  induction ls generalizing may with
  | nil => trivial
  | cons l ls ih =>
    exact ⟨.inl (covered l (by simp)), ih fun l' member => covered l' (by simp [member])⟩

/-- A strictly rising list above all that may be held. -/
theorem climbs_of_rising {ls : List Mode} (rising : ls.Pairwise fun l l' => rank l < rank l')
    (above : ∀ h ∈ may, ∀ l ∈ ls, rank h < rank l) : Climbs L rank sure may ls := by
  induction ls generalizing may with
  | nil => trivial
  | cons l ls ih =>
    obtain ⟨first, rising⟩ := List.pairwise_cons.mp rising
    refine ⟨.inr fun h member => above h member l (by simp), ih rising fun h member l' later => ?_⟩
    rcases List.mem_append.mp member with old | new
    · exact above h old l' (by simp [later])
    · rw [List.mem_singleton.mp new]
      exact first l' later

theorem calm_bind {p : Program Stmt Result Fault E α} {k : α → Program Stmt Result Fault E β}
    (first : Calm L p sure) (rest : ∀ a more, sure ⊆ more → Calm L (k a) more) :
    Calm L (p >>= k) sure := by
  induction p generalizing sure with
  | pure a => exact rest a sure (List.Subset.refl _)
  | throw e => trivial
  | exec s onFault next ih =>
    refine ⟨first.1, fun r => ih r (first.2 r) fun a more included => ?_⟩
    exact rest a more fun l member => included (List.mem_append_left _ member)

theorem Calm.ordered {p : Program Stmt Result Fault E α} (calm : Calm L p sure) :
    Ordered L rank p may sure := by
  induction p generalizing may sure with
  | pure _ => trivial
  | throw _ => trivial
  | exec s onFault next ih => exact ⟨climbs_of_covers calm.1, fun r => ih r (calm.2 r)⟩

end Order

namespace LockTable
variable {S : Store Stmt Result Fault Data Write Lock Input} {L : RowLocks Stmt Result Data Mode}
  {Body : Data → Program Stmt Result Fault E α → Prop}
  {Selects : Data → (Mode → Prop) → List Mode → Prop} [Preorder R] {rank : Mode → R}
  {s t : LockTable Stmt Result Fault E Data Write Mode α P}

/-- What is left of a transaction climbs from what it holds. -/
def Climbing (L : RowLocks Stmt Result Data Mode) (rank : Mode → R) (may sure : List Mode) :
    Waiter Stmt Result Fault E Write Mode α → Prop
  | ⟨rest, _, none⟩ => Ordered L rank rest may sure
  | ⟨rest, _, some ls⟩ => Climbs L rank sure may ls ∧ ∃ stmt onFault next,
      rest = .exec stmt onFault next ∧
        ∀ r, Ordered L rank (next r) (may ++ ls) (sure ++ L.answered stmt r)

structure InOrder (L : RowLocks Stmt Result Data Mode) (rank : Mode → R)
    (s : LockTable Stmt Result Fault E Data Write Mode α P) : Prop where
  exclusive : ∀ {l l' p q}, (l, p) ∈ s.held → (l', q) ∈ s.held → q ≠ p → ¬ L.conflicts l l'
  closed : ∀ {p l}, s.tx p = none → (l, p) ∉ s.held
  climbing : ∀ {p tx}, s.tx p = some tx → ∃ may sure, (∀ l, (l, p) ∈ s.held → l ∈ may) ∧
    (∀ l ∈ sure, (l, p) ∈ s.held) ∧ Climbing L rank may sure tx

/-- Who waits holds only locks below the one it waits for. -/
theorem InOrder.climbs (inv : s.InOrder L rank)
    (level : ∀ {l l'}, L.conflicts l l' → rank l = rank l') {p q r : P} {rest rest' writes writes'}
    {l l' : Mode} {ls ls' : List Mode} (here : s.tx p = some ⟨rest, writes, some (l :: ls)⟩)
    (there : s.tx q = some ⟨rest', writes', some (l' :: ls')⟩) (waits : s.WaitsFor L p q)
    (next : s.WaitsFor L q r) : rank l < rank l' := by
  obtain ⟨-, _, _, _, _, k, here', held, conflict⟩ := waits
  cases here.symm.trans here'
  obtain ⟨other, _, _, _, _, k', there', held', conflict'⟩ := next
  cases there.symm.trans there'
  obtain ⟨may, sure, bound, owned, ⟨covered | above, -⟩, -⟩ := inv.climbing there
  · obtain ⟨h, inside, excludes⟩ := covered
    exact absurd (excludes k' conflict') (inv.exclusive (owned h inside) held' other)
  · rw [level conflict]
    exact above k (bound k held)

theorem InOrder.chain (inv : s.InOrder L rank)
    (level : ∀ {l l'}, L.conflicts l l' → rank l = rank l') {p q r : P} {rest rest' writes writes'}
    {l l' : Mode} {ls ls' : List Mode} (here : s.tx p = some ⟨rest, writes, some (l :: ls)⟩)
    (chain : Relation.TransGen (s.WaitsFor L) p q)
    (there : s.tx q = some ⟨rest', writes', some (l' :: ls')⟩) (next : s.WaitsFor L q r) :
    rank l < rank l' := by
  induction chain generalizing r rest' writes' l' ls' with
  | single waits => exact inv.climbs level here there waits next
  | tail _ last ih =>
    obtain ⟨_, _, _, _, _, _, between, _, _⟩ := id last
    have lower := ih between last
    exact lower.trans (inv.climbs level between there last next)

/-- Nobody waits, through others, for itself. -/
theorem InOrder.advances (inv : s.InOrder L rank)
    (level : ∀ {l l'}, L.conflicts l l' → rank l = rank l') (p : P) :
    ¬ Relation.TransGen (s.WaitsFor L) p p := by
  intro cycle
  obtain ⟨q, first, -⟩ := Relation.TransGen.head'_iff.mp cycle
  obtain ⟨_, _, _, _, _, _, here, _, _⟩ := id first
  exact lt_irrefl _ (inv.chain level here cycle here first)

variable [DecidableEq P]

/-- A transaction goes on without taking a lock. -/
theorem InOrder.put (inv : s.InOrder L rank) {p : P} {tx : Waiter Stmt Result Fault E Write Mode α}
    (climbing : ∃ may sure, (∀ l, (l, p) ∈ s.held → l ∈ may) ∧ (∀ l ∈ sure, (l, p) ∈ s.held) ∧
      Climbing L rank may sure tx) : (s.put p tx).InOrder L rank where
  exclusive := inv.exclusive
  closed {q l} none_ := by
    by_cases same : q = p
    · subst same
      simp [LockTable.put] at none_
    · exact inv.closed (by simpa [LockTable.put, same] using none_)
  climbing {q tx'} isOpen := by
    by_cases same : q = p
    · subst same
      obtain rfl : tx = tx' := by simpa [LockTable.put] using isOpen
      exact climbing
    · exact inv.climbing (by simpa [LockTable.put, same] using isOpen)

/-- It takes locks that nobody else excludes. -/
theorem InOrder.take (inv : s.InOrder L rank) (symm : ∀ {l l'}, L.conflicts l l' → L.conflicts l' l)
    {p : P} (ls : List Mode) {tx : Waiter Stmt Result Fault E Write Mode α}
    (free : ∀ l ∈ ls, s.Free L p l)
    (climbing : ∃ may sure, (∀ l, (l, p) ∈ s.held → l ∈ may) ∧ (∀ l ∈ sure, (l, p) ∈ s.held) ∧
      Climbing L rank (may ++ ls) sure tx) :
    InOrder L rank { s.put p tx with held := s.held ++ ls.map (·, p) } where
  exclusive {l l' q r} here there other conflict := by
    rcases List.mem_append.mp here with old | new <;> rcases List.mem_append.mp there with old' | new'
    · exact inv.exclusive old old' other conflict
    · obtain ⟨_, member, same⟩ := List.mem_map.mp new'
      cases same
      exact free _ member _ _ old other.symm (symm conflict)
    · obtain ⟨_, member, same⟩ := List.mem_map.mp new
      cases same
      exact free _ member _ _ old' other conflict
    · obtain ⟨_, -, same⟩ := List.mem_map.mp new
      obtain ⟨_, -, same'⟩ := List.mem_map.mp new'
      cases same
      cases same'
      exact other rfl
  closed {q l} none_ member := by
    by_cases same : q = p
    · subst same
      simp [LockTable.put] at none_
    · rcases List.mem_append.mp member with old | new
      · exact inv.closed (by simpa [LockTable.put, same] using none_) old
      · obtain ⟨_, -, is⟩ := List.mem_map.mp new
        cases is
        exact same rfl
  climbing {q tx'} isOpen := by
    by_cases same : q = p
    · subst same
      obtain rfl : tx = tx' := by simpa [LockTable.put] using isOpen
      obtain ⟨may, sure, bound, owned, climbs⟩ := climbing
      refine ⟨may ++ ls, sure, fun l member => ?_, fun l member => ?_, climbs⟩
      · rcases List.mem_append.mp member with old | new
        · exact List.mem_append_left _ (bound l old)
        · obtain ⟨_, inside, is⟩ := List.mem_map.mp new
          cases is
          exact List.mem_append_right _ inside
      · exact List.mem_append_left _ (owned l member)
    · obtain ⟨may, sure, bound, owned, climbs⟩ :=
        inv.climbing (show s.tx q = some tx' by simpa [LockTable.put, same] using isOpen)
      refine ⟨may, sure, fun l member => ?_, fun l member => ?_, climbs⟩
      · rcases List.mem_append.mp member with old | new
        · exact bound l old
        · obtain ⟨_, -, is⟩ := List.mem_map.mp new
          cases is
          exact absurd rfl same
      · exact List.mem_append_left _ (owned l member)

theorem InOrder.close (inv : s.InOrder L rank) (p : P) : (s.close p).InOrder L rank where
  exclusive here there := inv.exclusive (List.mem_of_mem_filter here) (List.mem_of_mem_filter there)
  closed {q l} none_ member := by
    obtain ⟨old, apart⟩ := List.mem_filter.mp member
    have other : q ≠ p := by simpa using apart
    exact inv.closed (by simpa [LockTable.close, other] using none_) old
  climbing {q tx} isOpen := by
    by_cases same : q = p
    · subst same
      simp [LockTable.close] at isOpen
    · obtain ⟨may, sure, bound, owned, climbs⟩ :=
        inv.climbing (show s.tx q = some tx by simpa [LockTable.close, same] using isOpen)
      refine ⟨may, sure, fun l member => bound l (List.mem_of_mem_filter member),
        fun l member => ?_, climbs⟩
      exact List.mem_filter.mpr ⟨owned l member, by simpa using same⟩

theorem InOrder.step (inv : s.InOrder L rank)
    (symm : ∀ {l l'}, L.conflicts l l' → L.conflicts l' l)
    (ordered : ∀ {d rest}, Body d rest → Ordered L rank rest [] [])
    (stepped : Step S L Body Selects s t) : t.InOrder L rank := by
  cases stepped with
  | begin none_ body =>
    exact inv.put ⟨[], [], fun l member => absurd member (inv.closed none_), nofun, ordered body⟩
  | select none_ _ free =>
    refine inv.take symm _ free ⟨[], [], fun l member => ?_, nofun, trivial⟩
    exact absurd member (inv.closed none_)
  | issue here =>
    obtain ⟨may, sure, bound, owned, climbs, rest⟩ := inv.climbing here
    exact inv.put ⟨may, sure, bound, owned, climbs, _, _, _, rfl, rest⟩
  | @pass p stmt onFault next writes l ls here _ =>
    obtain ⟨may, sure, bound, owned, ⟨-, climbs⟩, _, _, _, same, rest⟩ := inv.climbing here
    refine inv.put ⟨may ++ [l], sure, fun l' member => List.mem_append_left _ (bound l' member),
      owned, climbs, _, _, _, same, ?_⟩
    rw [List.append_assoc]
    exact rest
  | @acquire p rest writes l ls here free =>
    obtain ⟨may, sure, bound, owned, ⟨-, climbs⟩, _, _, _, same, rest⟩ := inv.climbing here
    refine inv.take symm [l] (by simpa using free) ⟨may, sure, bound, owned, climbs, _, _, _,
      same, ?_⟩
    rw [List.append_assoc]
    exact rest
  | exec here _ locked =>
    obtain ⟨may, sure, bound, owned, -, _, _, _, same, rest⟩ := inv.climbing here
    cases same
    rw [List.append_nil] at rest
    refine inv.put ⟨may, _, bound, fun l member => ?_, rest _⟩
    rcases List.mem_append.mp member with old | new
    · exact owned l old
    · exact locked l new
  | @commit p a writes here =>
    have closed := inv.close p
    exact ⟨closed.exclusive, closed.closed, closed.climbing⟩
  | abort => exact inv.close _

/-- From no open transaction, no reachable state has a circle of waiting ones. -/
theorem free_of_deadlock (symm : ∀ {l l'}, L.conflicts l l' → L.conflicts l' l)
    (level : ∀ {l l'}, L.conflicts l l' → rank l = rank l')
    (ordered : ∀ {d rest}, Body d rest → Ordered L rank rest [] []) {d : Data}
    (run : Relation.ReflTransGen (Step S L Body Selects) { data := d } s) (p : P) :
    ¬ Relation.TransGen (s.WaitsFor L) p p := by
  have inv : s.InOrder L rank := by
    induction run with
    | refl => exact ⟨nofun, fun _ => nofun, nofun⟩
    | tail _ last ih => exact ih.step symm ordered last
  exact inv.advances level p

end LockTable

end Locking
