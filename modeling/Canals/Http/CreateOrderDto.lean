import Canals.Http.Json

/-! `CreateOrderDto` and what the global `ValidationPipe` makes of a body: which
bodies its decorators accept, with unknown properties forbidden. -/
namespace Canals

/-- A decorated property; a value of `none` is a missing one. -/
structure DtoProperty where
  name : String
  /-- `@IsOptional`: nothing else is checked of a missing or `null` value. -/
  optional : Bool := false
  validators : List (Option Json → Bool)

def DtoProperty.accepts (property : DtoProperty) (value : Option Json) : Bool :=
  let isNil := match value with
    | none | some .null => true
    | _ => false
  (property.optional && isNil) || property.validators.all (· value)

/-- `whitelist` and `forbidNonWhitelisted`, and every decorator. -/
def acceptsObject (properties : List DtoProperty) (object : JsonObject) : Bool :=
  object.all (fun entry => properties.any (·.name = entry.1)) &&
    properties.all fun property => property.accepts (object.lookup property.name)

mutual
/-- `@ValidateNested` skips `null` and iterates arrays. -/
def acceptsNested (properties : List DtoProperty) : Json → Bool
  | .null => true
  | .arr items => acceptsItems properties items
  | .obj object => acceptsObject properties object
  | _ => false

def acceptsItems (properties : List DtoProperty) : List Json → Bool
  | [] => true
  | item :: items => acceptsNested properties item && acceptsItems properties items
end

def validateNested (properties : List DtoProperty) (value : Option Json) : Bool :=
  value.all (acceptsNested properties)

def isString : Option Json → Bool
  | some (.str _) => true
  | _ => false

def isIn (values : List String) : Option Json → Bool
  | some (.str s) => values.contains s
  | _ => false

def isHexDigit (c : Char) : Bool :=
  c.isDigit || ('a' ≤ c && c ≤ 'f') || ('A' ≤ c && c ≤ 'F')

/-- `@IsUUID('loose')`: any 8-4-4-4-12 hex shape. -/
def isUUIDLoose : Option Json → Bool
  | some (.str s) => s.toList.length = 36 && s.toList.zipIdx.all fun (c, i) =>
    if i = 8 ∨ i = 13 ∨ i = 18 ∨ i = 23 then c = '-' else isHexDigit c
  | _ => false

def isInt : Option Json → Bool
  | some (.num n) => n.den = 1
  | _ => false

protected def min (least : Rat) : Option Json → Bool
  | some (.num n) => least ≤ n
  | _ => false

/-- `CARD_NUMBER_PATTERN`, `/^\d{13,19}$/` -/
def matchesCardNumber : Option Json → Bool
  | some (.str s) => s.toList.all (·.isDigit) && 13 ≤ s.toList.length && s.toList.length ≤ 19
  | _ => false

def arrayNotEmpty : Option Json → Bool
  | some (.arr items) => !items.isEmpty
  | _ => false

/-- `@UniqueProductIds`. A `null` item makes it throw; a `productId` that is no
string counts as missing, `@IsUUID` rejects it anyway. -/
def uniqueProductIds : Option Json → Bool
  | some (.arr items) =>
    let productIds := items.map fun
      | .obj item => readStringField (some item) "productId"
      | _ => none
    items.all (fun | .null => false | _ => true) && decide productIds.Nodup
  | _ => true

def SUPPORTED_COUNTRY : String := "US"

def shippingAddressDto : List DtoProperty :=
  [{ name := "recipient", validators := [isString] },
    { name := "line1", validators := [isString] },
    { name := "line2", optional := true, validators := [isString] },
    { name := "city", validators := [isString] },
    { name := "state", optional := true, validators := [isString] },
    { name := "postalCode", optional := true, validators := [isString] },
    { name := "country", validators := [isIn [SUPPORTED_COUNTRY]] }]

def orderLineDto : List DtoProperty :=
  [{ name := "productId", validators := [isUUIDLoose] },
    { name := "quantity", validators := [isInt, Canals.min 1] }]

def paymentDto : List DtoProperty :=
  [{ name := "cardNumber", validators := [isString, matchesCardNumber] }]

def createOrderDto : List DtoProperty :=
  [{ name := "customerId", validators := [isUUIDLoose] },
    { name := "shippingAddress", validators := [validateNested shippingAddressDto] },
    { name := "items", validators :=
      [arrayNotEmpty, validateNested orderLineDto, uniqueProductIds] },
    { name := "payment", validators := [validateNested paymentDto] }]

/-- The bodies the pipe hands on; an array lacks the properties of an order. -/
def acceptsCreateOrder : Json → Bool
  | .obj object => acceptsObject createOrderDto object
  | _ => false

end Canals
