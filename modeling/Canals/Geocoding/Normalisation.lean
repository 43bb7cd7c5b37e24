import Canals.Domain.Values
import Canals.Text.Regex
import Mathlib.Algebra.Ring.Nat

/-! The normalisation of addresses, which the static lookup, its jitter and the key of the
cache share. A table of the code is a plain object: it inherits what every object does. -/
namespace Canals.Geocoding
open Regex

/-- `GeocodingFailureReason` -/
inductive FailureReason where
  | UNKNOWN_ADDRESS
  | PROVIDER_UNAVAILABLE
  deriving DecidableEq

/-- What `geocode` rejects with. -/
inductive GeocodeError where
  /-- `GeocodingFailedError` -/
  | failed (reason : FailureReason) (message : String)
  | typeError (message : String)
  | thrown (e : Thrown)
  deriving DecidableEq

/-- The methods of strings that know Unicode; the first is `normalize('NFD')`. -/
structure Unicode where
  nfd : String → String
  toLowerCase : String → String
  toUpperCase : String → String

/-- Full state name → USPS code (50 states plus DC). -/
def STATE_NAME_TO_CODE : List (String × String) := [
  ("alabama", "AL"), ("alaska", "AK"), ("arizona", "AZ"), ("arkansas", "AR"),
  ("california", "CA"), ("colorado", "CO"), ("connecticut", "CT"), ("delaware", "DE"),
  ("florida", "FL"), ("georgia", "GA"), ("hawaii", "HI"), ("idaho", "ID"), ("illinois", "IL"),
  ("indiana", "IN"), ("iowa", "IA"), ("kansas", "KS"), ("kentucky", "KY"), ("louisiana", "LA"),
  ("maine", "ME"), ("maryland", "MD"), ("massachusetts", "MA"), ("michigan", "MI"),
  ("minnesota", "MN"), ("mississippi", "MS"), ("missouri", "MO"), ("montana", "MT"),
  ("nebraska", "NE"), ("nevada", "NV"), ("new hampshire", "NH"), ("new jersey", "NJ"),
  ("new mexico", "NM"), ("new york", "NY"), ("north carolina", "NC"), ("north dakota", "ND"),
  ("ohio", "OH"), ("oklahoma", "OK"), ("oregon", "OR"), ("pennsylvania", "PA"),
  ("rhode island", "RI"), ("south carolina", "SC"), ("south dakota", "SD"), ("tennessee", "TN"),
  ("texas", "TX"), ("utah", "UT"), ("vermont", "VT"), ("virginia", "VA"), ("washington", "WA"),
  ("west virginia", "WV"), ("wisconsin", "WI"), ("wyoming", "WY"),
  ("district of columbia", "DC")]

/-- The names of the properties of `Object.prototype`. -/
def INHERITED : List String := [
  "constructor", "__defineGetter__", "__defineSetter__", "hasOwnProperty", "__lookupGetter__",
  "__lookupSetter__", "isPrototypeOf", "propertyIsEnumerable", "toString", "valueOf",
  "__proto__", "toLocaleString"]

/-- What a table of texts has under a name. -/
inductive PropertyValue where
  | text (s : String)
  /-- The property `name` of `Object.prototype`. -/
  | inherited (name : String)
  deriving DecidableEq

/-- A value in a template literal. -/
def PropertyValue.interpolate : PropertyValue → String
  | .text s => s
  | .inherited name =>
    if name = "__proto__" then "[object Object]"
    else if name = "constructor" then "function Object() \x7b [native code] \x7d"
    else "function " ++ name ++ "() \x7b [native code] \x7d"

def ACCEPTED_COUNTRIES : List String := ["us", "usa", "united states"]

/-- `length`, in UTF-16 code units. -/
def jsLength (s : String) : Nat := (s.toList.map fun c => if c.toNat < 0x10000 then 1 else 2).sum

/-- `/[̀-ͯ]/` -/
def isCombiningMark (c : Char) : Bool := 0x300 ≤ c.toNat && c.toNat ≤ 0x36f

def trim (cs : List Char) : List Char :=
  ((cs.dropWhile isJsWhitespace).reverse.dropWhile isJsWhitespace).reverse

/-- `replace(/\s+/g, ' ')` -/
def collapse (cs : List Char) : List Char :=
  replace (Regex.plus isJsWhitespace).matched id (fun _ => [' ']) cs

/-- `value ? value : …`: an absent value, `null` and the empty text are falsy. -/
def truthyText (value : Optional) : Option String := value.join.filter (· ≠ "")

section Normalisation
variable (unicode : Unicode)

/-- NFD with diacritics stripped, trimmed, whitespace collapsed, lower-cased. -/
def normalizeText (value : String) : String :=
  let stripped := (unicode.nfd value).toList.filter fun c => !isCombiningMark c
  unicode.toLowerCase (String.ofList (collapse (trim stripped)))

/-- `STATE_NAME_TO_CODE[name]` -/
def stateNameToCode (name : String) : Option PropertyValue :=
  match STATE_NAME_TO_CODE.lookup name with
  | some code => some (.text code)
  | none => if name ∈ INHERITED then some (.inherited name) else none

def canonicalizeStateCode (rawState : String) : Option PropertyValue :=
  let normalized := normalizeText unicode rawState
  if jsLength normalized = 2 then some (.text (unicode.toUpperCase normalized))
  else stateNameToCode normalized

def isAcceptedCountry (rawCountry : String) : Bool :=
  ACCEPTED_COUNTRIES.contains (normalizeText unicode rawCountry)

/-- `field ? normalizeText(field) : ''` -/
def normalizeField : PropertyValue → Except GeocodeError String
  | .text s => .ok (if s = "" then "" else normalizeText unicode s)
  | .inherited _ => .error (.typeError "value.normalize is not a function")

/-- What stands for the state in the normalised address. -/
def stateField (address : ShippingAddress) : PropertyValue :=
  match truthyText address.props.state with
  | some rawState => (canonicalizeStateCode unicode rawState).getD (.text rawState)
  | none => .text ""

/-- `line1|line2|city|state|postalCode|country`, every field normalised. -/
def buildNormalisedAddress (address : ShippingAddress) : Except GeocodeError String := do
  let fields : List PropertyValue := [
    .text address.props.line1,
    .text (address.props.line2.join.getD ""),
    .text address.props.city,
    stateField unicode address,
    .text (address.props.postalCode.join.getD ""),
    .text address.props.country]
  return "|".intercalate (← fields.mapM (normalizeField unicode))

/-- The state's normalised form names a property that every object inherits. -/
def InheritsState (address : ShippingAddress) : Prop :=
  ∃ rawState, truthyText address.props.state = some rawState ∧
    normalizeText unicode rawState ∈ INHERITED

variable {unicode}

theorem stateNameToCode_inherited {name : String} : (∃ own, stateNameToCode name =
    some (.inherited own)) ↔ name ∈ INHERITED := by
  have apart : ∀ name ∈ INHERITED, STATE_NAME_TO_CODE.lookup name = none := by decide +kernel
  constructor
  · rintro ⟨own, found⟩
    rw [stateNameToCode] at found
    split at found
    · cases found
    · by_contra outside
      rw [if_neg outside] at found
      cases found
  · intro inherited
    refine ⟨name, ?_⟩
    rw [stateNameToCode, apart name inherited]
    exact if_pos inherited

theorem canonicalizeStateCode_inherited {rawState : String} :
    (∃ own, canonicalizeStateCode unicode rawState = some (.inherited own)) ↔
      normalizeText unicode rawState ∈ INHERITED := by
  have long : ∀ name ∈ INHERITED, jsLength name ≠ 2 := by decide +kernel
  rw [canonicalizeStateCode]
  split
  · rename_i two
    constructor
    · rintro ⟨own, found⟩
      cases found
    · intro inherited
      exact absurd two (long _ inherited)
  · exact stateNameToCode_inherited

/-- The state is the one field that may be no text. -/
theorem stateField_inherited {address : ShippingAddress} :
    (∃ own, stateField unicode address = .inherited own) ↔ InheritsState unicode address := by
  rw [InheritsState, stateField]
  cases state : truthyText address.props.state with
  | none => simp
  | some rawState =>
    simp only [Option.some.injEq, exists_eq_left', ← canonicalizeStateCode_inherited]
    cases canonicalizeStateCode unicode rawState with
    | none => simp
    | some value => simp

theorem buildNormalisedAddress_ok {address : ShippingAddress} :
    (∃ s, buildNormalisedAddress unicode address = .ok s) ↔ ¬ InheritsState unicode address := by
  rw [← stateField_inherited]
  cases field : stateField unicode address with
  | text s =>
    simp [buildNormalisedAddress, field, normalizeField, pure, Except.pure, bind, Except.bind]
  | inherited name =>
    simp [buildNormalisedAddress, field, normalizeField, bind, Except.bind]

end Normalisation

end Canals.Geocoding
