import Canals.Http.KeyOrder
import Canals.Idempotency.Protocol

/-! Which bodies a request's fingerprint tells apart. -/
namespace Canals.Idempotency
open Json (Same NoTies Numbers NumberTexts Preorders)

/-- The text of which the fingerprint is the digest. -/
def canonicalJson (platform : Platform) (body : Json) : String :=
  (body.canonicalize platform.localeLe).stringify platform.numberToString

/-- Without a collision, the fingerprint identifies a body up to the order of its keys: that of
arrays counts, and so does everything else. -/
theorem computeRequestFingerprint_eq_iff {platform : Platform} {isNumber : Rat → Prop}
    {body body' : Json} (order : Preorders platform.localeLe)
    (texts : NumberTexts platform.numberToString isNumber) (numbers : Numbers isNumber body)
    (numbers' : Numbers isNumber body') (apart : NoTies platform.localeLe body)
    (noCollision : platform.sha256 (canonicalJson platform body) =
      platform.sha256 (canonicalJson platform body') →
        canonicalJson platform body = canonicalJson platform body') :
    computeRequestFingerprint platform body = computeRequestFingerprint platform body' ↔
      Same body body' := by
  rw [← Json.canonical_text_eq_iff order texts numbers numbers' apart]
  constructor
  · exact noCollision
  · intro text
    rw [computeRequestFingerprint, computeRequestFingerprint, text]

section Lamp

def orderedBody : Json := .obj [("customerId", .str "x"),
  ("items", .arr [.obj [("productId", .str "p"), ("quantity", .num 1)],
    .obj [("productId", .str "q"), ("quantity", .num 1)]])]

/-- The same with its keys in another order, at both levels. -/
def reorderedBody : Json := .obj [
  ("items", .arr [.obj [("quantity", .num 1), ("productId", .str "p")],
    .obj [("productId", .str "q"), ("quantity", .num 1)]]),
  ("customerId", .str "x")]

/-- Its items the other way round. -/
def reversedBody : Json := .obj [("customerId", .str "x"),
  ("items", .arr [.obj [("productId", .str "q"), ("quantity", .num 1)],
    .obj [("productId", .str "p"), ("quantity", .num 1)]])]

/-- The digests of the two texts. -/
def orderedPlatform : Platform :=
  { lampPlatform with sha256 := fun text =>
      if text = (orderedBody.canonicalize lampLe).stringify lampNumber then
        "ed31097d6cafa33c99860d76a81da6d3fc7238dc3fd0ff38f9f25cb226a42bfa"
      else if text = (reversedBody.canonicalize lampLe).stringify lampNumber then
        "5da7f475a7047056025bcd0a66279c61cedff8888467cf7ab069aa1ef44daba7"
      else "" }

theorem orderedBody_same : Same orderedBody reorderedBody := by
  have item : Same (.obj [("productId", .str "p"), ("quantity", .num 1)])
      (.obj [("quantity", .num 1), ("productId", .str "p")]) := .keys (.swap _ _ _)
  have items := Same.property [("customerId", .str "x")] [] "items"
    (Same.item [] [.obj [("productId", .str "q"), ("quantity", .num 1)]] item)
  exact items.trans (.keys (.swap _ _ _))

theorem lampLe_preorders : Preorders lampLe where
  total a b := by simpa [lampLe] using le_total a b
  trans a b c first second := by
    simp only [lampLe, decide_eq_true_eq] at first second ⊢
    exact first.trans second

theorem one_texts : NumberTexts lampNumber (· = 1) where
  chars := by
    rintro _ rfl c member
    have digit : c = '1' := by simpa using (show c ∈ ['1'] from member)
    subst digit
    rfl
  nonempty := by
    rintro _ rfl
    exact List.cons_ne_nil '1' []
  injective := by
    rintro _ _ rfl rfl _
    rfl

theorem orderedBody_apart : NoTies lampLe orderedBody := by
  have antisymm : ∀ a b : String, lampLe a b → lampLe b a → a = b := by
    intro a b first second
    exact le_antisymm (of_decide_eq_true first) (of_decide_eq_true second)
  simp only [orderedBody, NoTies, Json.NoTiesEntries, Json.NoTiesItems, and_true, true_and]
  refine ⟨⟨?_, fun a _ b _ => antisymm a.1 b.1⟩, ⟨?_, fun a _ b _ => antisymm a.1 b.1⟩,
    ?_, fun a _ b _ => antisymm a.1 b.1⟩
  all_goals simp

/-- The bodies that differ in their keys' order share a fingerprint, those that differ in the
order of their items do not and are not the same. -/
theorem computeRequestFingerprint_eq_iff_reordered :
    computeRequestFingerprint orderedPlatform orderedBody =
      computeRequestFingerprint orderedPlatform reorderedBody ∧
    computeRequestFingerprint orderedPlatform orderedBody ≠
      computeRequestFingerprint orderedPlatform reversedBody ∧
    ¬ Same orderedBody reversedBody := by
  have numbers : Numbers (· = 1) orderedBody := by
    simp [orderedBody, Numbers, Json.NumbersEntries, Json.NumbersItems]
  have other : computeRequestFingerprint orderedPlatform orderedBody ≠
      computeRequestFingerprint orderedPlatform reversedBody := by decide +kernel
  refine ⟨?_, other, fun same => other ?_⟩
  · apply (computeRequestFingerprint_eq_iff (show Preorders orderedPlatform.localeLe from
      lampLe_preorders) one_texts numbers ?_ orderedBody_apart ?_).mpr orderedBody_same
    · simp [reorderedBody, Numbers, Json.NumbersEntries, Json.NumbersItems]
    · intro _
      decide +kernel
  · apply (computeRequestFingerprint_eq_iff (show Preorders orderedPlatform.localeLe from
      lampLe_preorders) one_texts numbers ?_ orderedBody_apart ?_).mpr same
    · simp [reversedBody, Numbers, Json.NumbersEntries, Json.NumbersItems]
    · exact fun equal => absurd equal other

end Lamp

end Canals.Idempotency
