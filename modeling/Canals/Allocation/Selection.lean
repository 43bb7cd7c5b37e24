import Canals.Allocation.Inventory
import Canals.Relational.Query
import Mathlib.Data.String.Basic

/-! `select-warehouse.sql` and `WarehouseSelectionRepository.findCandidates`: the
nearest warehouses that hold every line of an order, by a join of the lines with
the stock and a count for each warehouse. -/
namespace Canals
open Relational

/-- What the database makes of its parameters and of its points: `::uuid`, the point
of `POINT(longitude latitude)`, the operator `<->` and `ST_Distance`. -/
structure PostGis (Geography Distance : Type) where
  uuid : String → Option Uuid
  point : Rat → Rat → Geography
  knn : Geography → Geography → Distance
  stDistance : Geography → Geography → Distance

structure WarehouseRow (Geography : Type) where
  name : String
  location : Geography
  isActive : Bool

structure ProductRow where
  isActive : Bool

/-- The tables the statement reads, by primary key. -/
structure StockTables (Geography : Type) where
  warehouses : AList fun _ : Uuid => WarehouseRow Geography
  products : AList fun _ : Uuid => ProductRow
  inventory : AList fun _ : Uuid × Uuid => Balance

structure WarehouseCandidate (Distance : Type) where
  warehouseId : Uuid
  name : String
  distanceMeters : Distance
  deriving DecidableEq

/-- 22003 -/
def NUMERIC_VALUE_OUT_OF_RANGE : DbError := .other "22003"

/-- 22P02 -/
def INVALID_INPUT_SYNTAX : DbError := .other "22P02"

/-- The values of the type `integer`. -/
def FitsInteger (quantity : Int) : Prop := -2 ^ 31 ≤ quantity ∧ quantity < 2 ^ 31

instance : DecidablePred FitsInteger := fun _ => instDecidableAnd

/-- An element of `$2::uuid[]`. -/
def PostGis.uuidElement {Geography Distance : Type} (gis : PostGis Geography Distance)
    (text : String) : Except DbError Uuid :=
  match gis.uuid text with
  | some id => .ok id
  | none => .error INVALID_INPUT_SYNTAX

/-- An element of `$3::int[]`; from 10²¹ on a number is sent with an exponent. -/
def int4 (quantity : Int) : Except DbError Int :=
  if FitsInteger quantity then .ok quantity
  else if 10 ^ 21 ≤ quantity.natAbs then .error INVALID_INPUT_SYNTAX
  else .error NUMERIC_VALUE_OUT_OF_RANGE

section Statement
variable {Geography Distance : Type} [LinearOrder Distance]

abbrev Requested := Uuid × Int

/-- An inventory row with its key. -/
abbrev StockEntry := Sigma fun _ : Uuid × Uuid => Balance

abbrev ProductEntry := Sigma fun _ : Uuid => ProductRow

abbrev WarehouseEntry (Geography : Type) := Sigma fun _ : Uuid => WarehouseRow Geography

/-- The rows behind `eligible`, filtered and not yet grouped. -/
def supplied (tables : StockTables Geography) (requested : List Requested) :
    List ((StockEntry × Requested) × ProductEntry) :=
  (join (fun row p => decide (p.1 = row.1.1.2))
    (join (fun i r => decide (r.1 = i.1.2)) tables.inventory.entries requested)
    tables.products.entries).filter fun row =>
      row.2.2.isActive && decide (row.1.2.2 ≤ row.1.1.2.available)

def eligible (tables : StockTables Geography) (requested : List Requested) : List Uuid :=
  groups (fun row => row.1.1.1.1) requested.length (supplied tables requested)

/-- The active warehouses joined with the eligible ids. -/
def candidates (tables : StockTables Geography) (requested : List Requested) :
    List (WarehouseEntry Geography × Uuid) :=
  (join (fun w e => decide (e = w.1)) tables.warehouses.entries
    (eligible tables requested)).filter fun row => row.1.2.isActive

def selectWarehouse (gis : PostGis Geography Distance) (tables : StockTables Geography)
    (point : Geography) (requested : List Requested) : List (WarehouseCandidate Distance) :=
  let rows := (candidates tables requested).map (·.1)
  (firstBy (fun w => toLex (gis.knn w.2.location point, w.1)) 3 rows).map fun w =>
    ⟨w.1, w.2.name, gis.stDistance w.2.location point⟩

def findCandidates (gis : PostGis Geography Distance) (tables : StockTables Geography)
    (shippingPoint : Coordinates) (lines : List OrderLine) :
    Except DbError (List (WarehouseCandidate Distance)) := do
  let point := gis.point shippingPoint.longitude shippingPoint.latitude
  let productIds ← (lines.map (·.productId)).mapM gis.uuidElement
  let quantities ← (lines.map (·.quantity)).mapM int4
  return selectWarehouse gis tables point (productIds.zip quantities)

end Statement

section Spec
variable {Geography Distance : Type} [LinearOrder Distance] {tables : StockTables Geography}
  {requested : List Requested} {lines : List OrderLine} {w : Uuid}

/-- The warehouse alone can supply a requested line, and its product is active. -/
def StockTables.Supplies (tables : StockTables Geography) (w : Uuid) (r : Requested) : Prop :=
  (∃ product, tables.products.lookup r.1 = some product ∧ product.isActive) ∧
    ∃ b, tables.inventory.lookup (w, r.1) = some b ∧ r.2 ≤ b.available

theorem nodup_entry_keys {K : Type} {V : K → Type} (table : AList V) :
    (table.entries.map Sigma.fst).Nodup :=
  table.nodupKeys

/-- What one requested line contributes to a warehouse's group: one row if the
warehouse can supply it, else none. -/
def supplies (tables : StockTables Geography) (w : Uuid) (r : Requested) : Bool :=
  tables.inventory.entries.any fun i => decide (r.1 = i.1.2) &&
    tables.products.entries.any fun p => decide (p.1 = i.1.2) &&
      (decide (i.1.1 = w) && (p.2.isActive && decide (r.2 ≤ i.2.available)))

theorem countP_supplied : (supplied tables requested).countP (fun row => row.1.1.1.1 = w) =
    requested.countP (supplies tables w) := by
  rw [supplied, List.countP_filter, countP_join_left, countP_join_right]
  · rfl
  · intro r _
    refine le_trans (List.countP_mono_left fun i _ here => ?_)
      (countP_le_one (nodup_entry_keys tables.inventory) (w, r.1) fun _ => true)
    simp only [Bool.and_eq_true, List.any_eq_true, decide_eq_true_eq] at here
    obtain ⟨product, _, _, _, warehouse, -⟩ := here
    simp [Prod.ext_iff, product, warehouse]
  · intro row _
    exact countP_le_one (nodup_entry_keys tables.products) row.1.1.2 _

theorem supplies_iff {r : Requested} : supplies tables w r ↔ tables.Supplies w r := by
  simp only [supplies, StockTables.Supplies, List.any_eq_true, Bool.and_eq_true, decide_eq_true_eq]
  constructor
  · rintro ⟨⟨⟨w', p'⟩, b⟩, stocked, rfl, ⟨p', product⟩, known, rfl, rfl, active, enough⟩
    exact ⟨⟨product, AList.mem_lookup_iff.mpr known, active⟩, b,
      AList.mem_lookup_iff.mpr stocked, enough⟩
  · rintro ⟨⟨product, known, active⟩, b, stocked, enough⟩
    exact ⟨⟨(w, r.1), b⟩, AList.mem_lookup_iff.mp stocked, rfl, ⟨r.1, product⟩,
      AList.mem_lookup_iff.mp known, rfl, rfl, active, enough⟩

/-- The group count is a for-all over the lines. -/
theorem mem_eligible (some_ : requested ≠ []) :
    w ∈ eligible tables requested ↔ ∀ r ∈ requested, tables.Supplies w r := by
  rw [eligible, mem_groups (List.length_pos_iff.mpr some_), countP_supplied,
    List.countP_eq_length]
  exact forall₂_congr fun r _ => supplies_iff

theorem mem_candidates {entry : WarehouseEntry Geography} {e : Uuid} :
    (entry, e) ∈ candidates tables requested ↔ entry ∈ tables.warehouses.entries ∧
      entry.2.isActive ∧ e = entry.1 ∧ entry.1 ∈ eligible tables requested := by
  simp only [candidates, List.mem_filter, mem_join, decide_eq_true_eq]
  constructor
  · rintro ⟨⟨member, inside, rfl⟩, active⟩
    exact ⟨member, active, rfl, inside⟩
  · rintro ⟨member, active, rfl, inside⟩
    exact ⟨⟨member, inside, rfl⟩, active⟩

/-- Distinct rows have distinct warehouses, whatever else orders them. -/
theorem nodup_candidates {κ : Type} {key : WarehouseEntry Geography × Uuid → κ}
    (id : ∀ row row', key row = key row' → row.1.1 = row'.1.1) :
    ((candidates tables requested).map key).Nodup := by
  refine List.Nodup.map_on ?_
    ((nodup_join tables.warehouses.nodupKeys.nodup nodup_groups).filter _)
  rintro ⟨entry, e⟩ member ⟨entry', e'⟩ member' same
  obtain ⟨there, -, rfl, -⟩ := mem_candidates.mp member
  obtain ⟨there', -, rfl, -⟩ := mem_candidates.mp member'
  have equal := tables.warehouses.nodupKeys.eq_of_fst_eq there there' (id _ _ same)
  exact equal ▸ rfl

/-- The first three, in increasing order of distance and id, of the active
warehouses that supply every line. -/
def NearestCovering (gis : PostGis Geography Distance) (tables : StockTables Geography)
    (point : Geography) (lines : List OrderLine) (result : List (WarehouseCandidate Distance)) :
    Prop :=
  ∃ ranked : List (WarehouseEntry Geography),
    ranked.Pairwise (fun v w => toLex (gis.knn v.2.location point, v.1) <
      toLex (gis.knn w.2.location point, w.1)) ∧
    (∀ id warehouse, ⟨id, warehouse⟩ ∈ ranked ↔ tables.warehouses.lookup id = some warehouse ∧
      warehouse.isActive ∧ ∀ line ∈ lines, ∃ productId, gis.uuid line.productId = some productId ∧
        (∃ product, tables.products.lookup productId = some product ∧ product.isActive) ∧
        ∃ b, tables.inventory.lookup (id, productId) = some b ∧ line.quantity ≤ b.available) ∧
    result = (ranked.take 3).map fun w => ⟨w.1, w.2.name, gis.stDistance w.2.location point⟩

/-- The statement, over typed lines. -/
theorem selectWarehouse_spec (gis : PostGis Geography Distance) (tables : StockTables Geography)
    (point : Geography) (some_ : requested ≠ []) : ∃ ranked : List (WarehouseEntry Geography),
      ranked.Pairwise (fun v w => toLex (gis.knn v.2.location point, v.1) <
        toLex (gis.knn w.2.location point, w.1)) ∧
      (∀ id warehouse, ⟨id, warehouse⟩ ∈ ranked ↔ tables.warehouses.lookup id = some warehouse ∧
        warehouse.isActive ∧ ∀ r ∈ requested, tables.Supplies id r) ∧
      selectWarehouse gis tables point requested =
        (ranked.take 3).map fun w => ⟨w.1, w.2.name, gis.stDistance w.2.location point⟩ := by
  have unique : (((candidates tables requested).map (·.1)).map fun w =>
      toLex (gis.knn w.2.location point, w.1)).Nodup := by
    rw [List.map_map]
    refine nodup_candidates fun row row' same => ?_
    exact (Prod.mk.inj (toLex.injective same)).2
  obtain ⟨ranked, perm, sorted, first⟩ := firstBy_spec 3 unique
  refine ⟨ranked, sorted, fun id warehouse => ?_, ?_⟩
  · rw [perm.mem_iff, List.mem_map, ← mem_eligible some_]
    constructor
    · rintro ⟨⟨entry, e⟩, member, rfl⟩
      obtain ⟨there, active, -, inside⟩ := mem_candidates.mp member
      exact ⟨AList.mem_lookup_iff.mpr there, active, inside⟩
    · rintro ⟨there, active, inside⟩
      exact ⟨(⟨id, warehouse⟩, id),
        mem_candidates.mpr ⟨AList.mem_lookup_iff.mp there, active, rfl, inside⟩, rfl⟩
  · rw [← first]
    rfl

theorem mapM_ok {ε α β : Type} {f : α → Except ε β} {g : α → β} {xs : List α}
    (all_ok : ∀ a ∈ xs, f a = .ok (g a)) : xs.mapM f = .ok (xs.map g) := by
  induction xs with
  | nil => rfl
  | cons a xs ih =>
    obtain ⟨here, later⟩ := List.forall_mem_cons.mp all_ok
    rw [List.mapM_cons, here, ih later]
    rfl

theorem mapM_error {ε α β : Type} {f : α → Except ε β} {xs : List α}
    (bad : ∃ a ∈ xs, ∃ e, f a = .error e) : ∃ e, xs.mapM f = .error e := by
  induction xs with
  | nil => simp at bad
  | cons a xs ih =>
    rw [List.mapM_cons]
    cases here : f a with
    | error e => exact ⟨e, rfl⟩
    | ok b =>
      have later : ∃ a ∈ xs, ∃ e, f a = .error e := by
        obtain ⟨a', member, e, failed⟩ := bad
        rcases List.mem_cons.mp member with rfl | later
        · cases here.symm.trans failed
        · exact ⟨a', later, e, failed⟩
      obtain ⟨e, failed⟩ := ih later
      exact ⟨e, by rw [failed]; rfl⟩

/-- The statement's parameter types `uuid[]` and `int[]` accept the line. -/
def PostGis.Accepts (gis : PostGis Geography Distance) (line : OrderLine) : Prop :=
  (gis.uuid line.productId).isSome ∧ FitsInteger line.quantity

/-- For lines that the parameter types accept, the candidates are the nearest three
warehouses that cover them; for others the statement fails. -/
theorem findCandidates_nearest (gis : PostGis Geography Distance)
    (tables : StockTables Geography) (shippingPoint : Coordinates) (some_ : lines ≠ []) :
    ((∀ line ∈ lines, gis.Accepts line) → ∃ result,
      findCandidates gis tables shippingPoint lines = .ok result ∧
      NearestCovering gis tables (gis.point shippingPoint.longitude shippingPoint.latitude) lines
        result) ∧
    ((∃ line ∈ lines, ¬ gis.Accepts line) →
      ∃ e, findCandidates gis tables shippingPoint lines = .error e) := by
  constructor
  · intro accepted
    have ids : (lines.map (·.productId)).mapM gis.uuidElement =
        .ok ((lines.map (·.productId)).map fun text => (gis.uuid text).getD "") := by
      refine mapM_ok fun text member => ?_
      obtain ⟨line, inside, rfl⟩ := List.mem_map.mp member
      obtain ⟨id, read⟩ := Option.isSome_iff_exists.mp (accepted line inside).1
      rw [PostGis.uuidElement, read]
      rfl
    have quantities : (lines.map (·.quantity)).mapM int4 = .ok ((lines.map (·.quantity)).map id) := by
      refine mapM_ok fun quantity member => ?_
      obtain ⟨line, inside, rfl⟩ := List.mem_map.mp member
      exact if_pos (accepted line inside).2
    have some_' : lines.map (fun line => ((gis.uuid line.productId).getD "", line.quantity)) ≠ [] := by
      simpa using some_
    obtain ⟨ranked, sorted, covers, taken⟩ := selectWarehouse_spec gis tables
      (gis.point shippingPoint.longitude shippingPoint.latitude) some_'
    refine ⟨_, ?_, ranked, sorted, fun w warehouse => (covers w warehouse).trans ?_, taken⟩
    · simp only [findCandidates, ids, quantities, bind, Except.bind, pure, Except.pure,
        List.map_map, List.zip_map', Function.comp_def, id]
    · refine and_congr_right fun _ => and_congr_right fun _ => ?_
      rw [List.forall_mem_map]
      refine forall₂_congr fun line inside => ?_
      obtain ⟨id, read⟩ := Option.isSome_iff_exists.mp (accepted line inside).1
      have key : (gis.uuid line.productId).getD "" = id := by rw [read]; rfl
      rw [key]
      constructor
      · intro supplied
        exact ⟨id, read, supplied⟩
      · rintro ⟨id', read', supplied⟩
        cases read.symm.trans read'
        exact supplied
  · rintro ⟨line, member, refused⟩
    cases read : gis.uuid line.productId with
    | none =>
      have failed : ∃ e, (lines.map (·.productId)).mapM gis.uuidElement = .error e :=
        mapM_error ⟨_, List.mem_map_of_mem member, _, by rw [PostGis.uuidElement, read]⟩
      obtain ⟨e, failed⟩ := failed
      exact ⟨e, by simp only [findCandidates, failed, bind, Except.bind]⟩
    | some id =>
      have unfit : ¬ FitsInteger line.quantity := fun fits => refused ⟨by simp [read], fits⟩
      have failed : ∃ e, (lines.map (·.quantity)).mapM int4 = .error e := by
        refine mapM_error ⟨_, List.mem_map_of_mem member, ?_⟩
        rw [int4, if_neg unfit]
        split
        · exact ⟨_, rfl⟩
        · exact ⟨_, rfl⟩
      obtain ⟨e, failed⟩ := failed
      simp only [findCandidates, failed, bind, Except.bind]
      split
      · exact ⟨_, rfl⟩
      · exact ⟨_, rfl⟩

end Spec

section Lamp

def lampId : String := "6f1c2e64-2a51-4f0b-9b1d-3c5e7a9b1d20"

def shadeId : String := "8b0d4a52-7c3e-4d19-8f60-2e9a1c5b7d34"

/-- Points of the plane. -/
def lampGis : PostGis (Rat × Rat) Rat where
  uuid text := if text = lampId ∨ text = shadeId then some text else none
  point longitude latitude := (longitude, latitude)
  knn a b := |a.1 - b.1| + |a.2 - b.2|
  stDistance a b := |a.1 - b.1| + |a.2 - b.2|

/-- Aurora and Boulder are equally far, Denver has no shades, Pueblo is the farthest. -/
def lampSupplies : StockTables (Rat × Rat) where
  warehouses := [⟨"pueblo", ⟨"Pueblo", (-104, 38), true⟩⟩,
    ⟨"boulder", ⟨"Boulder", (-105, 40), true⟩⟩, ⟨"aurora", ⟨"Aurora", (-103, 40), true⟩⟩,
    ⟨"denver", ⟨"Denver", (-104, 41), true⟩⟩].toAList
  products := [⟨lampId, ⟨true⟩⟩, ⟨shadeId, ⟨true⟩⟩].toAList
  inventory := [⟨("pueblo", lampId), ⟨9, 0, 0⟩⟩, ⟨("pueblo", shadeId), ⟨9, 0, 0⟩⟩,
    ⟨("boulder", lampId), ⟨2, 0, 0⟩⟩, ⟨("boulder", shadeId), ⟨1, 0, 0⟩⟩,
    ⟨("aurora", lampId), ⟨5, 0, 0⟩⟩, ⟨("aurora", shadeId), ⟨5, 0, 0⟩⟩,
    ⟨("denver", lampId), ⟨5, 0, 0⟩⟩].toAList

def lampAddress : Coordinates := ⟨41, -104, by decide +kernel, by decide +kernel⟩

def lampLines (quantity : Int) : List OrderLine := [⟨lampId, quantity⟩, ⟨shadeId, 1⟩]

theorem findCandidates_nearest_lamp :
    findCandidates lampGis lampSupplies lampAddress (lampLines 2) =
      .ok [⟨"aurora", "Aurora", 2⟩, ⟨"boulder", "Boulder", 2⟩, ⟨"pueblo", "Pueblo", 3⟩] ∧
    ((∀ line ∈ lampLines 2, lampGis.Accepts line) → ∃ result,
      findCandidates lampGis lampSupplies lampAddress (lampLines 2) = .ok result ∧
      NearestCovering lampGis lampSupplies (-104, 41) (lampLines 2) result) ∧
    ((∃ line ∈ lampLines 2, ¬ lampGis.Accepts line) →
      ∃ e, findCandidates lampGis lampSupplies lampAddress (lampLines 2) = .error e) :=
  ⟨by decide +kernel, findCandidates_nearest lampGis lampSupplies lampAddress (by decide)⟩

/-- A quantity the database has no integer for raises an error. -/
theorem findCandidates_out_of_range :
    lampLines 2147483648 ≠ [] ∧ ((lampLines 2147483648).map (·.productId)).Nodup ∧
    ¬ ∃ result,
      findCandidates lampGis lampSupplies lampAddress (lampLines 2147483648) = .ok result ∧
      NearestCovering lampGis lampSupplies (-104, 41) (lampLines 2147483648) result := by
  refine ⟨by decide, by decide, ?_⟩
  rintro ⟨result, returned, -⟩
  have failed : findCandidates lampGis lampSupplies lampAddress (lampLines 2147483648) =
      .error NUMERIC_VALUE_OUT_OF_RANGE := by decide +kernel
  cases failed.symm.trans returned

end Lamp

end Canals
