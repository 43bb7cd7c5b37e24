import Mathlib.Data.List.Basic
import Mathlib.Tactic.Common

/-! Base64: three bytes as four letters, padded, and the bytes back from such a text. -/
namespace Base64

def alphabet : List Char :=
  "ABCDEFGHIJKLMNOPQRSTUVWXYZabcdefghijklmnopqrstuvwxyz0123456789+/".toList

def charOf (sextet : Nat) : Char := alphabet.getD sextet 'A'

def sextetOf (c : Char) : Option Nat := alphabet.idxOf? c

/-- Three bytes are four sextets; the last group may be shorter. -/
def sextets : List UInt8 → List Nat
  | a :: b :: c :: rest =>
    [a.toNat / 4, a.toNat % 4 * 16 + b.toNat / 16, b.toNat % 16 * 4 + c.toNat / 64, c.toNat % 64] ++
      sextets rest
  | [a, b] => [a.toNat / 4, a.toNat % 4 * 16 + b.toNat / 16, b.toNat % 16 * 4]
  | [a] => [a.toNat / 4, a.toNat % 4 * 16]
  | [] => []

def bytes : List Nat → List UInt8
  | a :: b :: c :: d :: rest =>
    [.ofNat (a * 4 + b / 16), .ofNat (b % 16 * 16 + c / 4), .ofNat (c % 4 * 64 + d)] ++ bytes rest
  | [a, b, c] => [.ofNat (a * 4 + b / 16), .ofNat (b % 16 * 16 + c / 4)]
  | [a, b] => [.ofNat (a * 4 + b / 16)]
  | _ => []

def encode (data : List UInt8) : List Char :=
  (sextets data).map charOf ++ List.replicate ((3 - data.length % 3) % 3) '='

/-- The bytes that are written so. -/
def decode (text : List Char) : Option (List UInt8) :=
  let data := bytes (text.filterMap sextetOf)
  if encode data = text then some data else none

theorem sextetOf_charOf {s : Nat} (small : s < 64) : sextetOf (charOf s) = some s := by
  revert s
  decide +kernel

theorem sextets_lt (data : List UInt8) : ∀ s ∈ sextets data, s < 64 := by
  fun_induction sextets data with
  | case1 a b c rest ih =>
    have := a.toNat_lt
    have := b.toNat_lt
    have := c.toNat_lt
    intro s member
    simp only [List.cons_append, List.nil_append, List.mem_cons] at member
    rcases member with rfl | rfl | rfl | rfl | later
    · omega
    · omega
    · omega
    · omega
    · exact ih s later
  | case2 a b =>
    have := a.toNat_lt
    have := b.toNat_lt
    simp only [List.forall_mem_cons, List.not_mem_nil, false_imp_iff, implies_true, and_true]
    omega
  | case3 a =>
    have := a.toNat_lt
    simp only [List.forall_mem_cons, List.not_mem_nil, false_imp_iff, implies_true, and_true]
    omega
  | case4 => simp

theorem ofNat_eq {a : UInt8} {n : Nat} (same : n = a.toNat) : UInt8.ofNat n = a := by
  rw [same, UInt8.ofNat_toNat]

theorem bytes_sextets (data : List UInt8) : bytes (sextets data) = data := by
  fun_induction sextets data with
  | case1 a b c rest ih =>
    have := a.toNat_lt
    have := b.toNat_lt
    have := c.toNat_lt
    simp only [List.cons_append, List.nil_append, bytes]
    rw [ih, ofNat_eq (a := a) (by omega), ofNat_eq (a := b) (by omega),
      ofNat_eq (a := c) (by omega)]
  | case2 a b =>
    have := a.toNat_lt
    have := b.toNat_lt
    rw [bytes, ofNat_eq (a := a) (by omega), ofNat_eq (a := b) (by omega)]
  | case3 a =>
    have := a.toNat_lt
    rw [bytes, ofNat_eq (a := a) (by omega)]
  | case4 => rfl

/-- What is encoded is read back. -/
theorem decode_encode (data : List UInt8) : decode (encode data) = some data := by
  have letters : ((sextets data).map charOf).filterMap sextetOf = sextets data := by
    rw [List.filterMap_map, List.filterMap_congr (g := some), List.filterMap_some]
    exact fun s member => sextetOf_charOf (sextets_lt data s member)
  have padding : ∀ n, (List.replicate n '=').filterMap sextetOf = [] := by
    intro n
    rw [List.filterMap_eq_nil_iff]
    intro c member
    rw [List.eq_of_mem_replicate member]
    decide +kernel
  have read : bytes ((encode data).filterMap sextetOf) = data := by
    rw [encode, List.filterMap_append, letters, padding, List.append_nil, bytes_sextets]
  rw [decode, read]
  exact if_pos rfl

end Base64
