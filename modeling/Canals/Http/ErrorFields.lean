import Canals.Http.ValidationErrors

/-! The fields that `extractValidationErrors` reads back from the messages of a rejected order.
A path comes back whole where nothing that the message puts before it has a space. -/
namespace Canals

section Text
variable {parents : List String} {word name : String}

/-- What `WHITELIST_VIOLATION_PATTERN` can capture as a name. -/
def capturable (name : String) : Bool :=
  name ≠ "" && name.toList.all fun c => c ≠ '\n' && c ≠ '\r' && c ≠ Char.ofNat 0x2028 &&
    c ≠ Char.ofNat 0x2029

/-- The field that an entry of `errors` names. -/
def errorField (text : String) : String :=
  (matchWhitelistViolation text).getD (String.ofList (text.toList.takeWhile (· ≠ ' ')))

theorem extractValidationErrors_list (messages : List String) :
    extractValidationErrors (.list messages) =
      some (messages.map fun text => ⟨errorField text, text⟩) := by
  rw [extractValidationErrors, Option.some.injEq]
  apply List.map_congr_left
  intro text _
  rw [errorField]
  cases matchWhitelistViolation text with
  | none => rfl
  | some field => rfl

theorem dotted_cons (parent : String) (parents : List String) (last : String) :
    dotted (parent :: parents) last = parent ++ "." ++ dotted parents last := by
  rw [dotted, List.cons_append, String.intercalate_cons_of_ne_nil (by simp), dotted]

theorem dotted_append (parents : List String) (first rest : String) :
    dotted parents (first ++ rest) = dotted parents first ++ rest := by
  induction parents with
  | nil => rfl
  | cons parent parents ih => rw [dotted_cons, dotted_cons, ih, ← String.append_assoc]

theorem dotted_inj {left right : String} :
    dotted parents left = dotted parents right ↔ left = right := by
  constructor
  · intro same
    rw [← String.empty_append (s := left), ← String.empty_append (s := right), dotted_append,
      dotted_append] at same
    have chars := congrArg String.toList same
    rw [String.toList_append, String.toList_append] at chars
    exact String.toList_inj.mp (List.append_cancel_left chars)
  · intro same
    rw [same]

/-- A part of a path that a message can be read back from. -/
def Spaceless (text : String) : Prop := ' ' ∉ text.toList

theorem dotted_spaceless (parts : ∀ parent ∈ parents, Spaceless parent) (last : Spaceless word) :
    Spaceless (dotted parents word) := by
  induction parents with
  | nil => exact last
  | cons parent parents ih =>
      have rest := ih fun other member => parts other (List.mem_cons_of_mem parent member)
      have first := parts parent List.mem_cons_self
      simp only [Spaceless, dotted_cons, String.toList_append, List.mem_append] at *
      rintro ((inside | dot) | inside)
      · exact first inside
      · exact absurd dot (by decide)
      · exact rest inside

theorem dotted_ne_property (under : parents ≠ []) : dotted parents word ≠ "property" := by
  cases parents with
  | nil => cases under rfl
  | cons parent parents =>
      intro same
      have dot : '.' ∈ (dotted (parent :: parents) word).toList := by
        rw [dotted_cons, String.toList_append, String.toList_append]
        simp
      rw [same] at dot
      exact absurd dot (by decide)

theorem takeWhile_word {first rest : List Char} (spaceless : ' ' ∉ first) :
    (first ++ ' ' :: rest).takeWhile (· ≠ ' ') = first := by
  rw [List.takeWhile_append_of_pos]
  · simp
  · intro c member
    simp only [decide_eq_true_eq]
    rintro rfl
    exact spaceless member

/-- A message that does not begin with "property" names its first word. -/
theorem errorField_word (spaceless : Spaceless word) (other : word ≠ "property") (rest : String) :
    errorField (word ++ " " ++ rest) = word := by
  have chars : (word ++ " " ++ rest).toList = word.toList ++ ' ' :: rest.toList := by simp
  have unmatched : matchWhitelistViolation (word ++ " " ++ rest) = none := by
    rw [matchWhitelistViolation]
    apply if_neg
    rintro ⟨starts, -⟩
    obtain ⟨later, whole⟩ := List.isPrefixOf_iff_prefix.mp starts
    have first : ("property ".toList ++ later).takeWhile (· ≠ ' ') = "property".toList := by
      exact @takeWhile_word "property".toList later (by decide)
    rw [whole, chars, takeWhile_word spaceless] at first
    exact other (String.toList_inj.mp first)
  rw [errorField, unmatched, Option.getD_none, chars, takeWhile_word spaceless,
    String.ofList_toList]

theorem matchWhitelistViolation_unknown (name : String) :
    matchWhitelistViolation ("property " ++ name ++ " should not exist") =
      if capturable name then some name else none := by
  have chars : ("property " ++ name ++ " should not exist").toList =
      "property ".toList ++ (name.toList ++ " should not exist".toList) := by simp
  have length : ("property " ++ name ++ " should not exist").toList.length -
      "property ".toList.length - " should not exist".toList.length = name.toList.length := by
    rw [chars, List.length_append, List.length_append]
    omega
  have nonempty : name.toList = [] ↔ name = "" := by
    rw [← String.toList_inj, String.toList_empty]
  rw [matchWhitelistViolation, length, chars, List.drop_left, List.take_left, String.ofList_toList]
  apply if_congr _ rfl rfl
  simp [capturable, nonempty, and_assoc]

theorem errorField_unknown (name : String) :
    errorField ("property " ++ name ++ " should not exist") =
      if capturable name then name else "property" := by
  rw [errorField, matchWhitelistViolation_unknown]
  split
  · rfl
  · have chars : ("property " ++ name ++ " should not exist").toList =
        "property".toList ++ ' ' :: (name ++ " should not exist").toList := by simp
    rw [Option.getD_none, chars, takeWhile_word (by decide), String.ofList_toList]

end Text

namespace Failure
variable {failure : Failure}

/-- The field read back from the message is the path of the property. -/
def Named (failure : Failure) : Prop := errorField failure.message = failure.dotPath

theorem message_word {first rest : String} (sentence : failure.sentence = first ++ " " ++ rest)
    (parts : ∀ parent ∈ failure.parents, Spaceless parent) (spaceless : Spaceless first)
    (apart : failure.parents ≠ [] ∨ first ≠ "property") :
    failure.Named ↔ first = failure.property := by
  have spelled := dotted_spaceless parts spaceless
  have other : dotted failure.parents first ≠ "property" := by
    cases apart with
    | inl under => exact dotted_ne_property under
    | inr other =>
        by_cases under : failure.parents = []
        · rw [under]
          exact other
        · exact dotted_ne_property under
  rw [Named, message, sentence, dotted_append, dotted_append, errorField_word spelled other,
    dotPath, dotted_inj]

theorem named_constraint {text : String} (kind : failure.kind = .constraint text)
    (parts : ∀ parent ∈ failure.parents, Spaceless parent)
    (spaceless : Spaceless failure.property)
    (apart : failure.parents ≠ [] ∨ failure.property ≠ "property") : failure.Named := by
  have sentence : failure.sentence = failure.property ++ " " ++ text := by
    rw [Failure.sentence, kind]
  exact (message_word sentence parts spaceless apart).mpr rfl

theorem named_nested {each : Bool} {name : String} (kind : failure.kind = .nested each name)
    (parts : ∀ parent ∈ failure.parents, Spaceless parent) :
    failure.Named ↔ (if each then "each" else "nested") = failure.property := by
  have sentence : ∃ rest, failure.sentence =
      (if each then "each" else "nested") ++ " " ++ rest := by
    rw [Failure.sentence, kind]
    cases each with
    | true => exact ⟨"value in nested property " ++ name ++ " must be either object or array",
        by simp [← String.toList_inj]⟩
    | false => exact ⟨"property " ++ name ++ " must be either object or array",
        by simp [← String.toList_inj]⟩
  obtain ⟨rest, sentence⟩ := sentence
  apply message_word sentence parts
  · cases each with
    | true => exact show ' ' ∉ "each".toList by decide
    | false => exact show ' ' ∉ "nested".toList by decide
  · cases each with
    | true => exact .inr (by decide)
    | false => exact .inr (by decide)

theorem named_unknown_root (kind : failure.kind = .unknown) (root : failure.parents = []) :
    failure.Named ↔ capturable failure.property := by
  have text : failure.message = "property " ++ failure.property ++ " should not exist" := by
    rw [message, root, sentence, kind]
    rfl
  have path : failure.dotPath = failure.property := by
    rw [dotPath, root]
    rfl
  rw [Named, text, path, errorField_unknown]
  split
  · simp [*]
  · rename_i missed
    constructor
    · intro same
      rw [← same] at missed
      exact absurd (by decide) missed
    · intro caught
      exact absurd caught missed

theorem named_unknown_nested (kind : failure.kind = .unknown) (under : failure.parents ≠ [])
    (parts : ∀ parent ∈ failure.parents, Spaceless parent) :
    failure.Named ↔ "property" = failure.property := by
  have sentence : failure.sentence =
      "property" ++ " " ++ (failure.property ++ " should not exist") := by
    rw [Failure.sentence, kind]
    simp [← String.toList_inj]
  apply message_word sentence parts
  · exact show ' ' ∉ "property".toList by decide
  · exact .inl under

end Failure

mutual
/-- Objects and arrays alone, whose objects have no name too many but `property`. -/
def plainNested (properties : List DtoProperty) : Json → Bool
  | .arr items => plainItems properties items
  | .obj object => (undeclared properties object).all (· = "property")
  | _ => false

def plainItems (properties : List DtoProperty) : List Json → Bool
  | [] => true
  | item :: items => plainNested properties item && plainItems properties items
end

/-- Where a body is wrong in a way whose messages can be read back. -/
def plainOrder (object : JsonObject) : Bool :=
  (undeclared createOrderDto object).all capturable &&
    nestedProperties.all fun property =>
      (object.lookup property.name).all (plainNested property.dto)

section Reading
variable {wording : String → Nat → String} {parents : List String} {name : String}
  {property : NestedProperty}

/-- A name that is not the first word of what a nested value is told. -/
structure Spelled (name : String) : Prop where
  spaceless : Spaceless name
  notEach : name ≠ "each"
  notNested : name ≠ "nested"

theorem spelled_toString (i : Nat) : Spelled (toString i) := by
  constructor
  · intro space
    rw [Nat.toString_eq_ofList_toDigits, String.toList_ofList] at space
    exact absurd (Decimal.digits_toDigits i ' ' space) (by decide)
  · exact toString_ne (by decide) i
  · exact toString_ne (by decide) i

theorem constraintFailures_named {property : DtoProperty} {value : Option Json}
    (parts : ∀ parent ∈ parents, Spaceless parent) (spaceless : Spaceless property.name)
    (apart : parents ≠ [] ∨ property.name ≠ "property") :
    ∀ failure ∈ constraintFailures wording parents property value, failure.Named := by
  intro failure member
  rw [constraintFailures] at member
  split at member
  · cases member
  · obtain ⟨⟨validator, i⟩, -, found⟩ := List.mem_filterMap.mp member
    dsimp only at found
    split at found
    · cases found
    · cases found
      exact Failure.named_constraint rfl parts spaceless apart

theorem objectFailures_named {properties : List DtoProperty} (object : JsonObject)
    (under : parents ≠ []) (parts : ∀ parent ∈ parents, Spaceless parent)
    (names : ∀ property ∈ properties, Spaceless property.name) :
    (∀ failure ∈ objectFailures wording parents properties object, failure.Named) ↔
      (undeclared properties object).all (· = "property") := by
  simp only [objectFailures, List.mem_append, List.mem_map, List.mem_flatMap, List.all_eq_true,
    decide_eq_true_eq]
  constructor
  · intro named name member
    have read := named ⟨parents, name, .unknown⟩ (.inl ⟨name, member, rfl⟩)
    exact ((Failure.named_unknown_nested rfl under parts).mp read).symm
  · rintro only failure (⟨name, member, rfl⟩ | ⟨property, member, inside⟩)
    · exact (Failure.named_unknown_nested rfl under parts).mpr (only name member).symm
    · exact constraintFailures_named parts (names property member) (.inl under) failure inside

theorem parts_under (parts : ∀ parent ∈ parents, Spaceless parent) (here : Spaceless name) :
    ∀ parent ∈ parents ++ [name], Spaceless parent := by
  intro parent member
  cases List.mem_append.mp member with
  | inl above => exact parts parent above
  | inr last => exact List.mem_singleton.mp last ▸ here

mutual
/-- A nested value is reported by its own path where it is plain, and nowhere else. -/
theorem nestedFailures_named {parents : List String} {name : String}
    (names : ∀ q ∈ property.dto, Spaceless q.name)
    (parts : ∀ parent ∈ parents, Spaceless parent) (here : Spelled name) (value : Json) :
    (∀ failure ∈ nestedFailures wording parents name property value, failure.Named) ↔
      plainNested property.dto value := by
  have primitive : ¬ ∀ failure ∈
      [(⟨parents, name, .nested property.each property.name⟩ : Failure)], failure.Named := by
    intro named
    have read := (Failure.named_nested rfl parts).mp (named _ (List.mem_singleton_self _))
    split at read
    · exact here.notEach read.symm
    · exact here.notNested read.symm
  cases value with
  | null => exact iff_of_false primitive Bool.false_ne_true
  | bool b => exact iff_of_false primitive Bool.false_ne_true
  | num n => exact iff_of_false primitive Bool.false_ne_true
  | str s => exact iff_of_false primitive Bool.false_ne_true
  | arr items =>
      rw [nestedFailures, plainNested]
      exact itemFailures_named names (parts_under parts here.spaceless) 0 items
  | obj object =>
      rw [nestedFailures, plainNested]
      exact objectFailures_named object (by simp) (parts_under parts here.spaceless) names

theorem itemFailures_named {parents : List String}
    (names : ∀ q ∈ property.dto, Spaceless q.name)
    (parts : ∀ parent ∈ parents, Spaceless parent) (i : Nat) (items : List Json) :
    (∀ failure ∈ itemFailures wording parents property i items, failure.Named) ↔
      plainItems property.dto items := by
  cases items with
  | nil => simp [itemFailures, plainItems]
  | cons item items =>
      rw [itemFailures, plainItems, Bool.and_eq_true,
        ← nestedFailures_named names parts (spelled_toString i) item,
        ← itemFailures_named names parts (i + 1) items, List.forall_mem_append]
end

theorem property_failures_named (names : ∀ q ∈ property.dto, Spaceless q.name)
    (here : Spelled property.name) (other : property.name ≠ "property") (value : Option Json) :
    (∀ failure ∈ property.failures wording value, failure.Named) ↔
      value.all (plainNested property.dto) := by
  have none_above : ∀ parent ∈ ([] : List String), Spaceless parent := by simp
  have own : ∀ failure ∈ constraintFailures wording [] property.toDtoProperty value,
      failure.Named := by
    exact constraintFailures_named none_above here.spaceless (.inr other)
  have nested : (∀ failure ∈ value.toList.flatMap
      (nestedFailures wording [] property.name property), failure.Named) ↔
        value.all (plainNested property.dto) := by
    cases value with
    | none => simp
    | some value =>
        have walked : (∀ failure ∈ nestedFailures wording [] property.name property value,
            failure.Named) ↔ plainNested property.dto value :=
          nestedFailures_named names none_above here value
        simpa using walked
  rw [NestedProperty.failures]
  split
  · exact nested
  · rw [List.forall_mem_append]
    exact (and_iff_right own).trans nested

theorem spelled_nested : ∀ property ∈ nestedProperties, Spelled property.name ∧
    property.name ≠ "property" ∧ ∀ q ∈ property.dto, Spaceless q.name := by
  have every : nestedProperties.all fun property =>
      !property.name.toList.contains ' ' && property.name ≠ "each" && property.name ≠ "nested" &&
        property.name ≠ "property" && property.dto.all fun q => !q.name.toList.contains ' ' := by
    decide
  intro property member
  have checked := List.all_eq_true.mp every property member
  simp only [Bool.and_eq_true, Bool.not_eq_true', decide_eq_true_eq, List.all_eq_true,
    List.contains_eq_mem, decide_eq_false_iff_not] at checked
  obtain ⟨⟨⟨⟨spaceless, each⟩, nested⟩, other⟩, names⟩ := checked
  exact ⟨⟨spaceless, each, nested⟩, other, names⟩

/-- All fields are right for the plain orders and for no others. -/
theorem createOrderFailures_named (object : JsonObject) :
    (∀ failure ∈ createOrderFailures wording object, failure.Named) ↔ plainOrder object := by
  have customerId : ∀ failure ∈ constraintFailures wording [] customerIdProperty
      (object.lookup "customerId"), failure.Named := by
    exact constraintFailures_named (by simp) (show ' ' ∉ "customerId".toList by decide)
      (.inr (by decide))
  have unknown : (∀ failure ∈ (undeclared createOrderDto object).map
      fun name => (⟨[], name, .unknown⟩ : Failure), failure.Named) ↔
        (undeclared createOrderDto object).all capturable := by
    rw [List.forall_mem_map, List.all_eq_true]
    exact forall₂_congr fun name _ => Failure.named_unknown_root rfl rfl
  have nested : (∀ failure ∈ nestedProperties.flatMap fun property =>
      property.failures wording (object.lookup property.name), failure.Named) ↔
        nestedProperties.all fun property =>
          (object.lookup property.name).all (plainNested property.dto) := by
    simp only [List.mem_flatMap, forall_exists_index, and_imp, List.all_eq_true]
    constructor
    · intro named property member
      obtain ⟨spelled, other, names⟩ := spelled_nested property member
      exact (property_failures_named names spelled other _).mp fun failure inside =>
        named failure property member inside
    · intro plain failure property member inside
      obtain ⟨spelled, other, names⟩ := spelled_nested property member
      exact (property_failures_named names spelled other _).mpr (plain property member) failure
        inside
  rw [createOrderFailures, plainOrder, Bool.and_eq_true, List.forall_mem_append,
    List.forall_mem_append, unknown, nested, and_iff_left customerId]

end Reading

section Problems
variable (transform : BodyTransform) (wording : String → Nat → String)

/-- Every entry of the problem's `errors` names the property that failed, by its path. -/
def FieldsNamed (body : Json) : Prop :=
  ∀ exception, validationException wording transform body = some exception →
    ∀ errors, (buildProblem exception).errors = some errors →
      errors.map (·.field) =
        (createOrderFailures wording (bodyProperties (transform.strip body))).map (·.dotPath)

theorem map_errorField (failures : List Failure) :
    (failures.map fun failure => errorField failure.message) = failures.map (·.dotPath) ↔
      ∀ failure ∈ failures, failure.Named := List.map_inj_left

/-- The fields are right where no list is given, or where the body is wrong in such a way only. -/
theorem fieldsNamed_iff (body : Json) :
    FieldsNamed transform wording body ↔ (transform.throws body).isSome ∨
      readsNullItem (bodyProperties (transform.strip body)) ∨
      plainOrder (bodyProperties (transform.strip body)) := by
  rw [← @createOrderFailures_named wording, ← map_errorField, FieldsNamed, validationException]
  cases transform.throws body with
  | some thrown => simp [buildProblem]
  | none =>
      generalize bodyProperties (transform.strip body) = object
      by_cases unread : readsNullItem object
      · simp [unread, buildProblem]
      · cases failed : (createOrderFailures wording object).isEmpty with
        | true =>
            have accepted := List.isEmpty_iff.mp failed
            simp [unread, accepted]
        | false =>
            simp [unread, failed, buildProblem, extractValidationErrors_list, Function.comp_def]

end Problems

/-- An order whose address has a property too many. -/
def floorBody : Json := .obj [
  ("customerId", .str "11111111-1111-4111-8111-111111111111"),
  ("shippingAddress", .obj [("recipient", .str "Ada"), ("line1", .str "1 Main St"),
    ("city", .str "Denver"), ("country", .str "US"), ("floor", .str "3")]),
  ("items", .arr [.obj [("productId", .str "22222222-2222-4222-8222-222222222222"),
    ("quantity", .num 1)]]),
  ("payment", .obj [("cardNumber", .str "4242424242424242")])]

/-- The one entry names a property the address does not have. -/
theorem floorBody_misnamed :
    ((validationException (fun _ _ => "is invalid") classTransformer floorBody).bind
      fun exception => (buildProblem exception).errors).map
        (·.map fun item => (item.field, item.message)) =
        some [("shippingAddress.property", "shippingAddress.property floor should not exist")] ∧
    (createOrderFailures (fun _ _ => "is invalid")
      (bodyProperties (classTransformer.strip floorBody))).map (·.dotPath) =
      ["shippingAddress.floor"] ∧
    ¬ ∀ wording body, FieldsNamed classTransformer wording body := by
  have failures : createOrderFailures (fun _ _ => "is invalid")
      (bodyProperties (classTransformer.strip floorBody)) =
        [⟨["shippingAddress"], "floor", .unknown⟩] := by
    rfl
  refine ⟨by rfl, by rw [failures]; rfl, fun always => ?_⟩
  have named := always (fun _ _ => "is invalid") floorBody _ rfl _ rfl
  rw [failures] at named
  exact absurd named (by decide)

end Canals
