import Mathlib.Data.List.Basic

/-! Patterns with backtracking, as ECMAScript's: a pattern leaves a list of rests,
the preferred one first, and a match is its head. A global replacement cuts the
text at its matches from left to right, so its result follows from the pieces. -/

inductive Regex (α : Type) where
  | set (holds : α → Bool)
  | seq (first second : Regex α)
  /-- `body?` -/
  | opt (body : Regex α)
  /-- `body{least,least+more}` -/
  | times (body : Regex α) (least more : Nat)
  /-- `[holds]+` -/
  | plus (holds : α → Bool)

namespace Regex
variable {α G H : Type}

/-- `n` times, then up to `m` times more, as often as possible first. -/
def upTo (body : List α → List (List α)) : Nat → List α → List (List α)
  | 0, cs => [cs]
  | m + 1, cs => (body cs).flatMap (upTo body m) ++ [cs]

def exactly (body : List α → List (List α)) : Nat → List α → List (List α)
  | 0, cs => [cs]
  | n + 1, cs => (body cs).flatMap (exactly body n)

def oneOrMore (holds : α → Bool) : List α → List (List α)
  | [] => []
  | c :: cs => if holds c then oneOrMore holds cs ++ [cs] else []

/-- What may be left behind a match at the front, in the order of preference. -/
def rests : Regex α → List α → List (List α)
  | set _, [] => []
  | set holds, c :: cs => if holds c then [cs] else []
  | seq first second, cs => (first.rests cs).flatMap second.rests
  | opt body, cs => body.rests cs ++ [cs]
  | times body least more, cs => (exactly body.rests least cs).flatMap (upTo body.rests more)
  | plus holds, cs => oneOrMore holds cs

theorem mem_set {holds : α → Bool} {cs rest : List α} :
    rest ∈ (set holds).rests cs ↔ ∃ c, cs = c :: rest ∧ holds c := by
  cases cs with
  | nil => simp [rests]
  | cons c cs =>
    rw [rests]
    constructor
    · intro member
      split at member
      · rename_i here
        cases List.mem_singleton.mp member
        exact ⟨c, rfl, here⟩
      · cases member
    · rintro ⟨_, same, here⟩
      cases same
      rw [if_pos here]
      exact List.mem_singleton.mpr rfl

theorem mem_seq {first second : Regex α} {cs rest : List α} :
    rest ∈ (seq first second).rests cs ↔ ∃ mid ∈ first.rests cs, rest ∈ second.rests mid := by
  simp [rests]

theorem mem_opt {body : Regex α} {cs rest : List α} :
    rest ∈ (opt body).rests cs ↔ rest ∈ body.rests cs ∨ rest = cs := by
  simp [rests]

theorem oneOrMore_stop {holds : α → Bool} {cs : List α} (stop : ∀ c ∈ cs.head?, holds c = false) :
    oneOrMore holds cs = [] := by
  cases cs with
  | nil => rfl
  | cons c cs => simp [oneOrMore, stop c rfl]

/-- As many as possible are taken first. -/
theorem oneOrMore_head {holds : α → Bool} {taken rest : List α} (some_ : taken ≠ [])
    (all : ∀ c ∈ taken, holds c) (stop : ∀ c ∈ rest.head?, holds c = false) :
    (oneOrMore holds (taken ++ rest)).head? = some rest := by
  induction taken with
  | nil => exact absurd rfl some_
  | cons c taken ih =>
    obtain ⟨here, later⟩ := List.forall_mem_cons.mp all
    rw [List.cons_append, oneOrMore, if_pos here, List.head?_append]
    by_cases more : taken = []
    · simp [more, oneOrMore_stop stop]
    · simp [ih more later]

/-- The length of the match at the front. -/
def matched (r : Regex α) (cs : List α) : Option Nat :=
  (r.rests cs).head?.map fun rest => cs.length - rest.length

/-- A piece of a text: an element that starts no match, or a match. -/
inductive Piece (G : Type) where
  | plain (g : G)
  | hit (m : List G)

def Piece.map (f : G → H) : Piece G → Piece H
  | plain g => plain (f g)
  | hit m => hit (m.map f)

def Piece.content : Piece G → List G
  | plain g => [g]
  | hit m => m

def Piece.replace (f : List G → List G) : Piece G → List G
  | plain g => [g]
  | hit m => f m

variable (matched : List α → Option Nat) (read : G → α)

/-- The pieces of a text behind the `skip` elements that a match has taken. -/
def cut : Nat → List G → List (Piece G)
  | _, [] => []
  | skip + 1, _ :: gs => cut skip gs
  | 0, g :: gs =>
    match matched ((g :: gs).map read) with
    | some (n + 1) => .hit ((g :: gs).take (n + 1)) :: cut n gs
    | _ => .plain g :: cut 0 gs

/-- `text.replace(pattern, f)` with the flag `g`. -/
def replace (f : List G → List G) (gs : List G) : List G :=
  (cut matched read 0 gs).flatMap (Piece.replace f)

variable {matched read}

theorem cut_skip (n : Nat) (gs : List G) : cut matched read n gs = cut matched read 0 (gs.drop n) := by
  induction n generalizing gs with
  | zero => rfl
  | succ n ih =>
    cases gs with
    | nil => rfl
    | cons g gs => exact ih gs

theorem cut_hit {gs : List G} {n : Nat} (found : matched (gs.map read) = some (n + 1))
    (some_ : gs ≠ []) :
    cut matched read 0 gs = .hit (gs.take (n + 1)) :: cut matched read 0 (gs.drop (n + 1)) := by
  cases gs with
  | nil => exact absurd rfl some_
  | cons g gs =>
    rw [cut, found]
    exact congrArg _ (cut_skip n gs)

theorem cut_plain {g : G} {gs : List G} (none : ∀ n, matched ((g :: gs).map read) ≠ some (n + 1)) :
    cut matched read 0 (g :: gs) = .plain g :: cut matched read 0 gs := by
  rw [cut]
  split
  · rename_i n found
    exact absurd found (none n)
  · rfl

/-- The induction along the pieces of a text. -/
theorem cut_induction (matched : List α → Option Nat) (read : G → α) {motive : List G → Prop}
    (nil : motive [])
    (plain : ∀ g gs, (∀ n, matched ((g :: gs).map read) ≠ some (n + 1)) → motive gs →
      motive (g :: gs))
    (hit : ∀ gs n, gs ≠ [] → matched (gs.map read) = some (n + 1) → motive (gs.drop (n + 1)) →
      motive gs) (gs : List G) : motive gs := by
  induction size : gs.length using Nat.strongRecOn generalizing gs with
  | ind size ih =>
    cases gs with
    | nil => exact nil
    | cons g gs =>
      by_cases found : ∃ n, matched ((g :: gs).map read) = some (n + 1)
      · obtain ⟨n, found⟩ := found
        refine hit _ n (by simp) found (ih _ ?_ _ rfl)
        rw [← size, List.length_drop, List.length_cons]
        omega
      · rw [not_exists] at found
        exact plain g gs found (ih gs.length (by simp [← size]) gs rfl)

/-- Cutting looks at what is read only. -/
theorem cut_map (f : H → G) (gs : List H) :
    cut matched read 0 (gs.map f) = (cut matched (read ∘ f) 0 gs).map (Piece.map f) := by
  induction gs using cut_induction matched (read ∘ f) with
  | nil => rfl
  | plain g gs none ih =>
    have none' : ∀ n, matched ((f g :: gs.map f).map read) ≠ some (n + 1) := by
      intro n
      simpa using none n
    rw [cut_plain none, List.map_cons, cut_plain none', ih]
    rfl
  | hit gs n some_ found ih =>
    have found' : matched ((gs.map f).map read) = some (n + 1) := by rwa [List.map_map]
    rw [cut_hit found some_, cut_hit found' (by simpa using some_), ← List.map_drop, ih]
    simp [Piece.map, List.map_take]

theorem cut_content (gs : List G) : (cut matched read 0 gs).flatMap Piece.content = gs := by
  induction gs using cut_induction matched read with
  | nil => rfl
  | plain g gs none ih =>
    rw [cut_plain none, List.flatMap_cons, ih]
    rfl
  | hit gs n some_ found ih =>
    rw [cut_hit found some_, List.flatMap_cons, ih]
    exact List.take_append_drop _ _

theorem replace_map {f : H → G} {onG : List G → List G} {onH : List H → List H}
    (natural : ∀ m, (onH m).map f = onG (m.map f)) (gs : List H) :
    (replace matched (read ∘ f) onH gs).map f = replace matched read onG (gs.map f) := by
  rw [replace, replace, cut_map, List.map_flatMap, List.flatMap_map]
  refine List.flatMap_congr fun piece _ => ?_
  cases piece with
  | plain g => rfl
  | hit m => exact natural m

end Regex
