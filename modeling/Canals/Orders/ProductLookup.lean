import Canals.Http.CreateOrderDto
import Canals.Orders.CreateOrder
import Canals.Text.UuidValue

/-! `resolveCustomerAndProducts` over tables that hold `uuid` values. The query compares values,
but the rows it returns are matched with the lines by the texts of their ids. -/
namespace Canals
open UuidValue (parse format)

/-- A row of `products`. -/
structure ProductOrmEntity where
  id : BitVec 128
  sku : String
  name : String
  unitPriceCents : Int
  isActive : Bool
  deleted : Bool
  deriving DecidableEq

/-- The row as the driver hands it on. -/
def ProductOrmEntity.hydrate (row : ProductOrmEntity) : Product where
  id := format row.id
  sku := row.sku
  name := row.name
  unitPriceCents := row.unitPriceCents
  isActive := row.isActive
  deleted := row.deleted

/-- The customers without a deletion date, and all products. -/
structure StoredCatalogue where
  customers : List (BitVec 128)
  products : List ProductOrmEntity
  ids : (products.map (·.id)).Nodup

namespace StoredCatalogue

/-- `find` with `In(requestedProductIds)`, `isActive` and no `deletedAt`. -/
def findProducts (c : StoredCatalogue) (requestedProductIds : List String) : List Product :=
  (c.products.filter fun row =>
    (requestedProductIds.map parse).contains row.id && row.isActive && !row.deleted).map
      ProductOrmEntity.hydrate

def resolveCustomerAndProducts (c : StoredCatalogue) (command : CreateOrderCommand) :
    Except CreateOrderError (List Product) :=
  let requestedProductIds := command.lines.map (·.productId)
  let products := c.findProducts requestedProductIds
  let missingProductIds := requestedProductIds.filter fun productId =>
    !products.any (·.id = productId)
  if ¬ c.customers.contains (parse command.customerId) then
    .error (.customerNotFound command.customerId)
  else if missingProductIds ≠ [] then .error (.productNotFound missingProductIds)
  else .ok products

/-- There is an active row for the value. -/
def hasActive (c : StoredCatalogue) (id : BitVec 128) : Bool :=
  c.products.any fun row => row.id = id && row.isActive && !row.deleted

/-- The requested ids without an active row, as they were requested. -/
def absent (c : StoredCatalogue) (command : CreateOrderCommand) : List Uuid :=
  (command.lines.map (·.productId)).filter fun productId => !c.hasActive (parse productId)

end StoredCatalogue

/-- The ids without an active row are reported, those and no others; if there are none, every
line finds the row of its product. -/
structure ProductsResolved (c : StoredCatalogue) (command : CreateOrderCommand) : Prop where
  missing : ∀ productIds,
    c.resolveCustomerAndProducts command = .error (.productNotFound productIds) ↔
      productIds = c.absent command ∧ productIds ≠ []
  found : c.absent command = [] →
    ∃ products, c.resolveCustomerAndProducts command = .ok products ∧
      ∀ line ∈ command.lines, ∃ row ∈ c.products, row.isActive ∧ ¬ row.deleted ∧
        row.id = parse line.productId ∧
        products.find? (·.id = line.productId) = some row.hydrate

/-- In lower case, as the database writes it. -/
def isLowerCase (text : String) : Bool := text.toList.all fun c => c.toLower = c

section Spec
variable {c : StoredCatalogue} {command : CreateOrderCommand} {text : String}

/-- The decorator accepts the usual form only. -/
theorem isUUIDLoose_standard (accepted : isUUIDLoose (some (.str text))) :
    UuidValue.Standard text := by
  rw [isUUIDLoose, Bool.and_eq_true, decide_eq_true_eq, List.all_eq_true] at accepted
  obtain ⟨length, places⟩ := accepted
  rw [UuidValue.Standard]
  generalize text.toList = chars at length places ⊢
  have place : ∀ i c, chars[i]? = some c →
      if i = 8 ∨ i = 13 ∨ i = 18 ∨ i = 23 then c = '-' else isHexDigit c := by
    intro i c here
    have checked := places (c, i) (List.mk_mem_zipIdx_iff_getElem?.mpr here)
    dsimp only at checked
    split at checked
    · rename_i hyphen
      rw [if_pos hyphen]
      exact of_decide_eq_true checked
    · rename_i plain
      rwa [if_neg plain]
  have hyphen : ∀ i, (i = 8 ∨ i = 13 ∨ i = 18 ∨ i = 23) →
      chars.drop i = '-' :: chars.drop (i + 1) := by
    intro i position
    have inside : i < chars.length := by omega
    have same := place i chars[i] (List.getElem?_eq_getElem inside)
    rw [if_pos position] at same
    rw [List.drop_eq_getElem_cons inside, same]
  have digits : ∀ start size, (∀ i, start ≤ i → i < start + size →
      ¬ (i = 8 ∨ i = 13 ∨ i = 18 ∨ i = 23)) →
      ∀ c ∈ (chars.drop start).take size, isHexDigit c := by
    intro start size plain c member
    obtain ⟨j, inside, rfl⟩ := List.mem_iff_getElem.mp member
    rw [List.length_take, List.length_drop] at inside
    have same := place (start + j) _ (List.getElem?_eq_getElem (by omega))
    rw [if_neg (plain (start + j) (by omega) (by omega))] at same
    simpa using same
  have next : ∀ n size, (chars.drop n).take size ++ chars.drop (n + size) = chars.drop n := by
    intro n size
    rw [← List.drop_drop, List.take_append_drop]
  have whole : chars = chars.take 8 ++ '-' :: ((chars.drop 9).take 4 ++ '-' ::
      ((chars.drop 14).take 4 ++ '-' :: ((chars.drop 19).take 4 ++ '-' :: chars.drop 24))) := by
    rw [← hyphen 23 (by omega), next 19 4, ← hyphen 18 (by omega), next 14 4,
      ← hyphen 13 (by omega), next 9 4, ← hyphen 8 (by omega), List.take_append_drop]
  have size : ∀ n, n + 4 ≤ 36 → ((chars.drop n).take 4).length = 4 := by
    intro n inside
    rw [List.length_take, List.length_drop]
    omega
  have first : (chars.take 8).length = 8 := by
    rw [List.length_take]
    omega
  refine ⟨chars.take 8 ++ ((chars.drop 9).take 4 ++ ((chars.drop 14).take 4 ++
    ((chars.drop 19).take 4 ++ chars.drop 24))), ?_, ?_, ?_⟩
  · simp [length]
  · intro c member
    simp only [List.mem_append] at member
    rcases member with piece | piece | piece | piece | piece
    · exact digits 0 8 (by omega) c (by simpa using piece)
    · exact digits 9 4 (by omega) c piece
    · exact digits 14 4 (by omega) c piece
    · exact digits 19 4 (by omega) c piece
    · refine digits 24 12 (by omega) c ?_
      rwa [List.take_of_length_le (by simp [length])]
  · rw [UuidValue.hyphenate_append first (size 9 (by omega)) (size 14 (by omega))
      (size 19 (by omega))]
    exact whole

theorem format_parse_iff (standard : UuidValue.Standard text) :
    format (parse text) = text ↔ isLowerCase text := by
  rw [UuidValue.format_parse standard, isLowerCase, List.all_eq_true]
  constructor
  · intro same c member
    have lower := congrArg String.toList same
    rw [String.toList_ofList, ← List.map_id text.toList, List.map_map] at lower
    exact decide_eq_true (List.map_inj_left.mp lower c member)
  · intro lower
    have kept : text.toList.map Char.toLower = text.toList.map id :=
      List.map_inj_left.mpr fun c member => of_decide_eq_true (lower c member)
    rw [kept, List.map_id, String.ofList_toList]

theorem mem_findProducts {requestedProductIds : List String} {product : Product} :
    product ∈ c.findProducts requestedProductIds ↔ ∃ row ∈ c.products,
      row.id ∈ requestedProductIds.map parse ∧ row.isActive ∧ ¬ row.deleted ∧
        row.hydrate = product := by
  rw [StoredCatalogue.findProducts, List.mem_map]
  apply exists_congr
  intro row
  rw [List.mem_filter, Bool.and_eq_true, Bool.and_eq_true, List.contains_iff_mem,
    Bool.not_eq_true', Bool.not_eq_true]
  tauto

theorem hasActive_iff {id : BitVec 128} : c.hasActive id ↔
    ∃ row ∈ c.products, row.id = id ∧ row.isActive ∧ ¬ row.deleted := by
  rw [StoredCatalogue.hasActive, List.any_eq_true]
  apply exists_congr
  intro row
  rw [Bool.and_eq_true, Bool.and_eq_true, decide_eq_true_eq, Bool.not_eq_true', Bool.not_eq_true]
  tauto

theorem hydrate_id (row : ProductOrmEntity) : row.hydrate.id = format row.id := rfl

/-- A product that is found is an active row for the line's value. -/
theorem findProducts_found {requestedProductIds : List String} {product : Product}
    (first : (c.findProducts requestedProductIds).find? (·.id = text) = some product) :
    ∃ row ∈ c.products, row.isActive ∧ ¬ row.deleted ∧ row.id = parse text ∧
      row.hydrate = product := by
  have same : product.id = text := by simpa using List.find?_some first
  obtain ⟨row, there, _, active, kept, rfl⟩ :=
    mem_findProducts.mp (List.mem_of_find?_eq_some first)
  refine ⟨row, there, active, kept, ?_, rfl⟩
  rw [← same, hydrate_id, UuidValue.parse_format]

/-- What the query returns is found under its text where that is the database's own. -/
theorem findProducts_any {requestedProductIds : List String}
    (requested : text ∈ requestedProductIds) (standard : UuidValue.Standard text) :
    (c.findProducts requestedProductIds).any (·.id = text) ↔
      c.hasActive (parse text) ∧ isLowerCase text := by
  rw [List.any_eq_true, ← format_parse_iff standard, hasActive_iff]
  constructor
  · rintro ⟨product, member, same⟩
    obtain ⟨row, there, _, active, kept, rfl⟩ := mem_findProducts.mp member
    have same : row.hydrate.id = text := of_decide_eq_true same
    rw [hydrate_id] at same
    have value : row.id = parse text := by rw [← same, UuidValue.parse_format]
    exact ⟨⟨row, there, value, active, kept⟩, by rw [← value, same]⟩
  · rintro ⟨⟨row, there, value, active, kept⟩, same⟩
    have asked : row.id ∈ requestedProductIds.map parse := by
      rw [value]
      exact List.mem_map_of_mem requested
    refine ⟨row.hydrate, mem_findProducts.mpr ⟨row, there, asked, active, kept, rfl⟩, ?_⟩
    rw [hydrate_id, value, same]
    exact decide_eq_true rfl

/-- The code reports the ids without an active row, and those with one that are not spelled as
the database writes them. -/
theorem missing_eq (accepted : ∀ line ∈ command.lines,
    isUUIDLoose (some (.str line.productId))) :
    ((command.lines.map (·.productId)).filter fun productId =>
      !(c.findProducts (command.lines.map (·.productId))).any (·.id = productId)) =
    (command.lines.map (·.productId)).filter fun productId =>
      !(c.hasActive (parse productId) && isLowerCase productId) := by
  apply List.filter_congr
  intro productId requested
  obtain ⟨line, inside, rfl⟩ := List.mem_map.mp requested
  congr 1
  rw [Bool.eq_iff_iff, Bool.and_eq_true]
  exact findProducts_any requested (isUUIDLoose_standard (accepted line inside))

theorem resolveCustomerAndProducts_eq
    (customer : c.customers.contains (parse command.customerId))
    (accepted : ∀ line ∈ command.lines, isUUIDLoose (some (.str line.productId))) :
    c.resolveCustomerAndProducts command =
      let missing := (command.lines.map (·.productId)).filter fun productId =>
        !(c.hasActive (parse productId) && isLowerCase productId)
      if missing ≠ [] then .error (.productNotFound missing)
      else .ok (c.findProducts (command.lines.map (·.productId))) := by
  rw [StoredCatalogue.resolveCustomerAndProducts, ← missing_eq accepted]
  dsimp only
  rw [if_neg (by simpa using customer)]

/-- An existing product is reported missing exactly where its id is not in lower case. -/
theorem productsResolved_iff (customer : c.customers.contains (parse command.customerId))
    (accepted : ∀ line ∈ command.lines, isUUIDLoose (some (.str line.productId))) :
    ProductsResolved c command ↔
      ∀ line ∈ command.lines, c.hasActive (parse line.productId) → isLowerCase line.productId := by
  have resolved := resolveCustomerAndProducts_eq customer accepted
  dsimp only at resolved
  have absent : c.absent command = (command.lines.map (·.productId)).filter fun productId =>
      !c.hasActive (parse productId) := rfl
  constructor
  · intro right line inside active
    by_contra upper
    have unfound : line.productId ∈ (command.lines.map (·.productId)).filter fun productId =>
        !(c.hasActive (parse productId) && isLowerCase productId) := by
      rw [List.mem_filter]
      exact ⟨List.mem_map_of_mem inside, by simp [upper]⟩
    have some_ := List.ne_nil_of_mem unfound
    rw [if_pos some_] at resolved
    obtain ⟨same, _⟩ := (right.missing _).mp resolved
    rw [same, absent, List.mem_filter, active] at unfound
    exact absurd unfound.2 (by decide)
  · intro lower
    have same : (command.lines.map (·.productId)).filter (fun productId =>
        !(c.hasActive (parse productId) && isLowerCase productId)) = c.absent command := by
      rw [absent]
      apply List.filter_congr
      intro productId requested
      obtain ⟨line, inside, rfl⟩ := List.mem_map.mp requested
      cases active : c.hasActive (parse line.productId) with
      | false => rfl
      | true => rw [lower line inside active, Bool.and_true]
    rw [same] at resolved
    constructor
    · intro productIds
      rw [resolved]
      by_cases none : c.absent command = []
      · rw [if_neg (by simpa using none), none]
        constructor
        · rintro ⟨⟩
        · rintro ⟨empty, some_⟩
          exact absurd empty some_
      · rw [if_pos none]
        constructor
        · intro thrown
          obtain rfl : c.absent command = productIds := by simpa using thrown
          exact ⟨rfl, none⟩
        · rintro ⟨rfl, _⟩
          rfl
    · intro none
      rw [resolved, if_neg (by simpa using none)]
      refine ⟨_, rfl, ?_⟩
      intro line inside
      have requested : line.productId ∈ command.lines.map (·.productId) :=
        List.mem_map_of_mem inside
      have active : c.hasActive (parse line.productId) := by
        by_contra inactive
        have unfound : line.productId ∈ c.absent command := by
          rw [absent, List.mem_filter]
          exact ⟨requested, by simpa using inactive⟩
        rw [none] at unfound
        cases unfound
      have found := (findProducts_any requested (isUUIDLoose_standard (accepted line inside))).mpr
        ⟨active, lower line inside active⟩
      obtain ⟨product, first⟩ := Option.isSome_iff_exists.mp
        (List.find?_isSome.mpr (List.any_eq_true.mp found))
      obtain ⟨row, there, isActive, kept, value, rfl⟩ := findProducts_found first
      exact ⟨row, there, isActive, kept, value, first⟩

/-- The tables as the driver shows them. -/
def StoredCatalogue.catalogue (c : StoredCatalogue) : Catalogue where
  customers := c.customers.map format
  products := c.products.map ProductOrmEntity.hydrate

/-- A value is held under the text that is its own. -/
theorem mem_map_format {ids : List (BitVec 128)} (standard : UuidValue.Standard text)
    (lower : isLowerCase text) : text ∈ ids.map format ↔ parse text ∈ ids := by
  have own := (format_parse_iff standard).mpr lower
  rw [List.mem_map]
  constructor
  · rintro ⟨id, member, rfl⟩
    rwa [UuidValue.parse_format]
  · intro member
    exact ⟨parse text, member, own⟩

/-- For ids in lower case, matching rows by their texts is matching them by value. -/
theorem resolveCustomerAndProducts_catalogue
    (customer : UuidValue.Standard command.customerId ∧ isLowerCase command.customerId)
    (accepted : ∀ line ∈ command.lines,
      UuidValue.Standard line.productId ∧ isLowerCase line.productId) :
    c.resolveCustomerAndProducts command =
      Canals.resolveCustomerAndProducts c.catalogue command := by
  have known : c.catalogue.customers.contains command.customerId =
      c.customers.contains (parse command.customerId) := by
    rw [Bool.eq_iff_iff, List.contains_iff_mem, List.contains_iff_mem]
    exact mem_map_format customer.1 customer.2
  have products : (c.catalogue.products.filter fun product =>
      (command.lines.map (·.productId)).contains product.id && product.isActive &&
        !product.deleted) = c.findProducts (command.lines.map (·.productId)) := by
    rw [StoredCatalogue.catalogue, StoredCatalogue.findProducts, List.filter_map]
    congr 1
    apply List.filter_congr
    intro row _
    have asked : (command.lines.map (·.productId)).contains row.hydrate.id =
        ((command.lines.map (·.productId)).map parse).contains row.id := by
      rw [Bool.eq_iff_iff, List.contains_iff_mem, List.contains_iff_mem, hydrate_id, List.map_map]
      constructor
      · intro member
        obtain ⟨line, inside, same⟩ := List.mem_map.mp member
        refine List.mem_map.mpr ⟨line, inside, ?_⟩
        rw [Function.comp_apply, same, UuidValue.parse_format]
      · intro member
        obtain ⟨line, inside, same⟩ := List.mem_map.mp member
        obtain ⟨standard, lower⟩ := accepted line inside
        refine List.mem_map.mpr ⟨line, inside, ?_⟩
        rw [← same, Function.comp_apply, (format_parse_iff standard).mpr lower]
    rw [← asked]
    rfl
  rw [StoredCatalogue.resolveCustomerAndProducts, Canals.resolveCustomerAndProducts, products,
    known]

end Spec

section Spelling

/-- One active product. -/
def lampRows : StoredCatalogue where
  customers := [0x7d4448409dc011d1b2455ffdce74fad2#128]
  products := [⟨0xa0000000000040008000000000000001#128, "SKU-1", "Lamp", 1250, true, false⟩]
  ids := by decide

def spelledCommand (productId : Uuid) : CreateOrderCommand where
  customerId := "7d444840-9dc0-11d1-b245-5ffdce74fad2"
  shippingAddress := {
    recipient := "Ada", line1 := "1 Main St", city := "Denver", country := "US" }
  lines := [⟨productId, 1⟩]
  cardNumber := "4242424242424242"

/-- The same product in capitals is reported missing. -/
theorem capitals_missing :
    isUUIDLoose (some (.str "A0000000-0000-4000-8000-000000000001")) ∧
    lampRows.customers.contains (parse "7d444840-9dc0-11d1-b245-5ffdce74fad2") ∧
    ¬ ProductsResolved lampRows (spelledCommand "A0000000-0000-4000-8000-000000000001") := by
  have spelled : isUUIDLoose (some (.str "A0000000-0000-4000-8000-000000000001")) := by
    decide +kernel
  have customer : lampRows.customers.contains (parse "7d444840-9dc0-11d1-b245-5ffdce74fad2") := by
    decide +kernel
  refine ⟨spelled, customer, ?_⟩
  intro right
  have accepted : ∀ line ∈ (spelledCommand "A0000000-0000-4000-8000-000000000001").lines,
      isUUIDLoose (some (.str line.productId)) := by
    intro line inside
    obtain rfl := List.mem_singleton.mp inside
    exact spelled
  have thrown : lampRows.resolveCustomerAndProducts
      (spelledCommand "A0000000-0000-4000-8000-000000000001") =
        .error (.productNotFound ["A0000000-0000-4000-8000-000000000001"]) := by
    rw [resolveCustomerAndProducts_eq customer accepted]
    have missing : ((spelledCommand "A0000000-0000-4000-8000-000000000001").lines.map
        (·.productId)).filter (fun productId => !(lampRows.hasActive (parse productId) &&
          isLowerCase productId)) = ["A0000000-0000-4000-8000-000000000001"] := by
      decide +kernel
    rw [missing]
    rfl
  have absent : lampRows.absent (spelledCommand "A0000000-0000-4000-8000-000000000001") = [] := by
    decide +kernel
  have reported := ((right.missing _).mp thrown).1
  rw [absent] at reported
  cases reported

theorem productsResolved_iff_lamp :
    ProductsResolved lampRows (spelledCommand "a0000000-0000-4000-8000-000000000001") := by
  apply (productsResolved_iff (by decide +kernel) ?_).mpr
  · intro line inside _
    obtain rfl := List.mem_singleton.mp inside
    decide +kernel
  · intro line inside
    obtain rfl := List.mem_singleton.mp inside
    decide +kernel

end Spelling

end Canals
