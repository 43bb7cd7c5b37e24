import Canals.Geocoding.Normalisation
import Canals.Http.CreateOrderDto
import Canals.Http.Problem
import Canals.Text.Decimal

/-! What fails of an order that the `ValidationPipe` rejects, property by property, and the
messages it words for it. -/
namespace Canals

inductive FailureKind where
  /-- What a decorator says of the property, after its name. -/
  | constraint (text : String)
  | unknown
  /-- `@ValidateNested` of `name`, at a value that is neither object nor array. -/
  | nested (each : Bool) (name : String)

/-- A property that failed, under the properties and indices that lead to it. -/
structure Failure where
  parents : List String
  property : String
  kind : FailureKind

/-- The last of a path, under its parents. -/
def dotted (parents : List String) (last : String) : String :=
  ".".intercalate (parents ++ [last])

namespace Failure

/-- The message of `class-validator`. -/
def sentence (failure : Failure) : String :=
  match failure.kind with
  | .constraint text => failure.property ++ " " ++ text
  | .unknown => "property " ++ failure.property ++ " should not exist"
  | .nested each name => (if each then "each value in " else "") ++ "nested property " ++ name ++
      " must be either object or array"

/-- `prependConstraintsWithParentProp`: the parents, then the sentence. -/
def message (failure : Failure) : String := dotted failure.parents failure.sentence

def dotPath (failure : Failure) : String := dotted failure.parents failure.property

end Failure

/-- The names the whitelist lacks. -/
def undeclared (properties : List DtoProperty) (object : JsonObject) : List String :=
  (object.map (·.1)).filter fun name => !properties.any (·.name = name)

/-- A property with `@ValidateNested({ each })`, and the decorators beside it. -/
structure NestedProperty extends DtoProperty where
  each : Bool := false
  dto : List DtoProperty

def shippingAddressProperty : NestedProperty where
  name := "shippingAddress"
  validators := []
  dto := shippingAddressDto

def itemsProperty : NestedProperty where
  name := "items"
  validators := [arrayNotEmpty, uniqueProductIds]
  each := true
  dto := orderLineDto

def paymentProperty : NestedProperty where
  name := "payment"
  validators := []
  dto := paymentDto

def nestedProperties : List NestedProperty :=
  [shippingAddressProperty, itemsProperty, paymentProperty]

def customerIdProperty : DtoProperty where
  name := "customerId"
  validators := [isUUIDLoose]

/-- What Nest's `stripProtoKeys` and `plainToInstance` do to a body before it is validated. -/
structure BodyTransform where
  /-- The names they take out of every object. -/
  drops : String → Bool
  /-- What they throw at a body, if anything. -/
  throws : Json → Option Thrown

namespace BodyTransform
variable (transform : BodyTransform)

mutual
def strip : Json → Json
  | .arr items => .arr (stripItems items)
  | .obj object => .obj (stripEntries object)
  | value => value

def stripItems : List Json → List Json
  | [] => []
  | item :: items => strip item :: stripItems items

def stripEntries : JsonObject → JsonObject
  | [] => []
  | (name, value) :: entries =>
    if transform.drops name then stripEntries entries
    else (name, strip value) :: stripEntries entries
end

end BodyTransform

/-- `class-transformer` skips `constructor`, `__proto__` and the names of inherited functions. -/
def classTransformer : BodyTransform where
  drops name := decide (name ∈ Geocoding.INHERITED)
  throws _ := none

/-- What the validator enumerates of a body: of an array its indices, of a primitive nothing. -/
def bodyProperties : Json → JsonObject
  | .obj object => object
  | .arr items => items.zipIdx.map fun entry => (toString entry.2, entry.1)
  | _ => []

/-- `item.productId` of a `null` item, which `@UniqueProductIds` reads. -/
def readsNullItem (object : JsonObject) : Bool :=
  match object.lookup "items" with
  | some (.arr items) => items.any fun | .null => true | _ => false
  | _ => false

section Validation
variable (wording : String → Nat → String)

/-- The decorators of a property that fail, each with its own text. -/
def constraintFailures (parents : List String) (property : DtoProperty) (value : Option Json) :
    List Failure :=
  if property.accepts value then [] else
    property.validators.zipIdx.filterMap fun (validator, i) =>
      if validator value then none
      else some ⟨parents, property.name, .constraint (wording property.name i)⟩

def objectFailures (parents : List String) (properties : List DtoProperty)
    (object : JsonObject) : List Failure :=
  (undeclared properties object).map (⟨parents, ·, .unknown⟩) ++
    properties.flatMap fun property =>
      constraintFailures wording parents property (object.lookup property.name)

mutual
def nestedFailures (parents : List String) (name : String) (property : NestedProperty) :
    Json → List Failure
  | .arr items => itemFailures (parents ++ [name]) property 0 items
  | .obj object => objectFailures wording (parents ++ [name]) property.dto object
  | _ => [⟨parents, name, .nested property.each property.name⟩]

def itemFailures (parents : List String) (property : NestedProperty) (i : Nat) :
    List Json → List Failure
  | [] => []
  | item :: items =>
    nestedFailures parents (toString i) property item ++ itemFailures parents property (i + 1) items
end

/-- Nest keeps of an error with children the children alone. -/
def NestedProperty.failures (property : NestedProperty) (value : Option Json) : List Failure :=
  let own := constraintFailures wording [] property.toDtoProperty value
  let nested := value.toList.flatMap (nestedFailures wording [] property.name property)
  if nested.any (·.parents ≠ []) then nested else own ++ nested

def createOrderFailures (object : JsonObject) : List Failure :=
  (undeclared createOrderDto object).map (⟨[], ·, .unknown⟩) ++
    constraintFailures wording [] customerIdProperty (object.lookup "customerId") ++
    nestedProperties.flatMap fun property => property.failures wording (object.lookup property.name)

/-- What the global `ValidationPipe` throws at a body. -/
def validationException (transform : BodyTransform) (body : Json) : Option Exception :=
  match transform.throws body with
  | some thrown => some (.other thrown)
  | none =>
    let object := bodyProperties (transform.strip body)
    let failures := createOrderFailures wording object
    if readsNullItem object then
      some (.other (.error "Cannot read properties of null (reading 'productId')"))
    else if failures.isEmpty then none
    else some (.badRequest (.list (failures.map (·.message))))

end Validation

mutual
/-- No `null` where an object or an array of them should stand. -/
def nullFree : Json → Bool
  | .null => false
  | .arr items => nullFreeItems items
  | _ => true

def nullFreeItems : List Json → Bool
  | [] => true
  | item :: items => nullFree item && nullFreeItems items
end

def nullFreeOrder (object : JsonObject) : Bool :=
  nestedProperties.all fun property => (object.lookup property.name).all nullFree

/-- An index is no name that has a letter. -/
theorem toString_ne {name : String} (letter : ¬ name.toList.all (·.isDigit)) (i : Nat) :
    toString i ≠ name := by
  rintro rfl
  apply letter
  rw [List.all_eq_true, Nat.toString_eq_ofList_toDigits, String.toList_ofList]
  exact Decimal.digits_toDigits i

section Acceptance
variable {wording : String → Nat → String}

theorem constraintFailures_nil {parents : List String} {property : DtoProperty}
    {value : Option Json} :
    constraintFailures wording parents property value = [] ↔ property.accepts value := by
  rw [constraintFailures]
  split
  · simp [*]
  · rename_i refused
    refine iff_of_false ?_ refused
    intro none_
    have every : property.validators.all (· value) = true := by
      rw [List.all_eq_true]
      intro validator member
      obtain ⟨i, here⟩ := List.mem_iff_getElem?.mp member
      have passes := List.filterMap_eq_nil_iff.mp none_ (validator, i)
        (List.mk_mem_zipIdx_iff_getElem?.mpr here)
      by_contra fails
      simp [fails] at passes
    apply refused
    simp [DtoProperty.accepts, every]

theorem undeclared_nil {properties : List DtoProperty} {object : JsonObject} :
    undeclared properties object = [] ↔
      object.all fun entry => properties.any (·.name = entry.1) := by
  simp [undeclared, List.filter_eq_nil_iff]

theorem objectFailures_nil {parents : List String} {properties : List DtoProperty}
    {object : JsonObject} :
    objectFailures wording parents properties object = [] ↔ acceptsObject properties object := by
  rw [objectFailures, acceptsObject, List.append_eq_nil_iff, List.map_eq_nil_iff, undeclared_nil,
    List.flatMap_eq_nil_iff, Bool.and_eq_true, List.all_eq_true (l := properties)]
  exact and_congr_right fun _ => forall₂_congr fun _ _ => constraintFailures_nil

mutual
theorem nestedFailures_nil {parents : List String} {name : String} {property : NestedProperty}
    (value : Json) :
    nestedFailures wording parents name property value = [] ↔
      acceptsNested property.dto value ∧ nullFree value := by
  cases value with
  | null => simp [nestedFailures, nullFree]
  | bool b => simp [nestedFailures, acceptsNested]
  | num n => simp [nestedFailures, acceptsNested]
  | str s => simp [nestedFailures, acceptsNested]
  | arr items =>
      rw [nestedFailures, acceptsNested, nullFree]
      exact itemFailures_nil 0 items
  | obj object =>
      rw [nestedFailures, acceptsNested, objectFailures_nil]
      exact (and_iff_left rfl).symm

theorem itemFailures_nil {parents : List String} {property : NestedProperty} (i : Nat)
    (items : List Json) :
    itemFailures wording parents property i items = [] ↔
      acceptsItems property.dto items ∧ nullFreeItems items := by
  cases items with
  | nil => simp [itemFailures, acceptsItems, nullFreeItems]
  | cons item items =>
      rw [itemFailures, acceptsItems, nullFreeItems, List.append_eq_nil_iff, Bool.and_eq_true,
        Bool.and_eq_true, nestedFailures_nil item, itemFailures_nil (i + 1) items]
      exact and_and_and_comm
end

theorem property_failures_nil {property : NestedProperty} {value : Option Json} :
    property.failures wording value = [] ↔
      property.accepts value ∧ validateNested property.dto value ∧ value.all nullFree := by
  have nested : value.toList.flatMap (nestedFailures wording [] property.name property) = [] ↔
      validateNested property.dto value ∧ value.all nullFree := by
    cases value with
    | none => simp [validateNested]
    | some value => simpa [validateNested] using nestedFailures_nil value
  rw [NestedProperty.failures]
  split
  · rename_i under
    refine iff_of_false ?_ ?_
    · intro none_
      simp [none_] at under
    · rintro ⟨-, accepted⟩
      simp [nested.mpr accepted] at under
  · rw [List.append_eq_nil_iff, constraintFailures_nil, nested]

theorem accepts_bodyProperties (body : Json) :
    acceptsCreateOrder body = acceptsObject createOrderDto (bodyProperties body) := by
  cases body with
  | obj object => rfl
  | arr items =>
      have missing : (bodyProperties (.arr items)).lookup "customerId" = none := by
        rw [bodyProperties, List.lookup_eq_none_iff]
        intro entry member
        obtain ⟨⟨item, i⟩, -, rfl⟩ := List.mem_map.mp member
        rw [bne_iff_ne]
        exact (toString_ne (by decide) i).symm
      simp [acceptsCreateOrder, acceptsObject, createOrderDto, missing, DtoProperty.accepts,
        isUUIDLoose]
  | _ => rfl

theorem createOrderFailures_nil {object : JsonObject} :
    createOrderFailures wording object = [] ↔
      acceptsObject createOrderDto object ∧ nullFreeOrder object := by
  rw [createOrderFailures, List.append_eq_nil_iff, List.append_eq_nil_iff, List.map_eq_nil_iff,
    undeclared_nil, constraintFailures_nil, List.flatMap_eq_nil_iff]
  simp only [property_failures_nil, acceptsObject, nullFreeOrder, nestedProperties, createOrderDto,
    customerIdProperty, shippingAddressProperty, itemsProperty, paymentProperty,
    DtoProperty.accepts, List.forall_mem_cons, List.not_mem_nil, false_implies, implies_true,
    List.all_cons, List.all_nil, Bool.false_and, Bool.false_or, Bool.and_true, Bool.and_eq_true,
    and_true, true_and]
  tauto

theorem readsNullItem_refused {object : JsonObject} (reads : readsNullItem object) :
    uniqueProductIds (object.lookup "items") = false := by
  rw [readsNullItem] at reads
  split at reads
  · rename_i items found
    obtain ⟨item, member, isNull⟩ := List.any_eq_true.mp reads
    rw [found, uniqueProductIds, Bool.and_eq_false_iff, List.all_eq_false]
    refine .inl ⟨item, member, ?_⟩
    cases item with
    | null => simp
    | _ => cases isNull
  · cases reads

/-- The pipe lets through what the decorators accept, without a `null` for a nested value. -/
theorem validationException_none (transform : BodyTransform) (body : Json) :
    validationException wording transform body = none ↔ transform.throws body = none ∧
      acceptsCreateOrder (transform.strip body) ∧
      nullFreeOrder (bodyProperties (transform.strip body)) := by
  rw [validationException, accepts_bodyProperties, ← @createOrderFailures_nil wording]
  cases transform.throws body with
  | some thrown => simp
  | none =>
      generalize bodyProperties (transform.strip body) = object
      dsimp only
      split
      · rename_i reads
        have failed : createOrderFailures wording object ≠ [] := by
          intro none_
          have accepted := (createOrderFailures_nil.mp none_).1
          simp [acceptsObject, createOrderDto, DtoProperty.accepts, readsNullItem_refused reads]
            at accepted
        simp [failed]
      · split
        · simp_all
        · simp_all

end Acceptance

end Canals
