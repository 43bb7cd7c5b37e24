import Mathlib.Data.Rat.Defs
import Mathlib.Algebra.Order.Ring.Unbundled.Rat

/-! The value objects of the domain and the exceptions its code throws. A value
carries what its factory checked, so an invalid one cannot be built. -/
namespace Canals

/-- A uuid in its canonical lower-case text form. -/
abbrev Uuid := String

/-- A JavaScript `Date`, in milliseconds since the epoch. -/
structure Date where
  ms : Int
  deriving DecidableEq

/-- A `timestamptz` column, in microseconds since the epoch. -/
structure Timestamptz where
  us : Int
  deriving DecidableEq

/-- How the driver hydrates a column: digits below the millisecond are cut. -/
def Timestamptz.toDate (t : Timestamptz) : Date := ⟨t.us / 1000⟩

def Date.toTimestamptz (t : Date) : Timestamptz := ⟨t.ms * 1000⟩

@[simp] theorem Date.toDate_toTimestamptz (t : Date) : t.toTimestamptz.toDate = t := by
  simp [Timestamptz.toDate, Date.toTimestamptz]

/-- What a database statement can fail with, as far as the code looks. -/
inductive DbError where
  /-- 55P03, `lock_not_available`. -/
  | lockTimeout
  | entityNotFound
  | checkViolation
  | uniqueViolation
  | other (code : String)
  deriving DecidableEq

/-- What the domain's own checks and a transaction's statements throw; `error`
is a plain `Error`. -/
inductive Thrown where
  | error (message : String)
  | database (e : DbError)
  | insufficientStock (productIds : List Uuid)
  | unroutedEvent (eventType : String)
  deriving DecidableEq

/-- `/^[A-Z]{3}$/` -/
def isIsoCode (currency : String) : Bool :=
  currency.toList.length = 3 && currency.toList.all fun c => 'A' ≤ c ∧ c ≤ 'Z'

structure Money where
  amountCents : Int
  currency : String
  nonneg : 0 ≤ amountCents
  iso : isIsoCode currency
  deriving DecidableEq

namespace Money

def of (amountCents : Int) (currency : String := "USD") : Except Thrown Money :=
  if nonneg : 0 ≤ amountCents then
    if iso : isIsoCode currency then .ok ⟨amountCents, currency, nonneg, iso⟩
    else .error (.error s!"Money currency must be a 3-letter ISO code, got \"{currency}\"")
  else .error (.error s!"Money amount cannot be negative, got {amountCents}")

def zero : Money := ⟨0, "USD", by decide, by decide⟩

def add (a b : Money) : Except Thrown Money :=
  if a.currency = b.currency then of (a.amountCents + b.amountCents) a.currency
  else .error (.error s!"Cannot combine {a.currency} with {b.currency}")

def multiply (a : Money) (quantity : Int) : Except Thrown Money :=
  if quantity < 0 then
    .error (.error s!"Money can only be multiplied by a non-negative integer, got {quantity}")
  else of (a.amountCents * quantity) a.currency

theorem of_eq {amountCents : Int} {currency : String} {m : Money}
    (made : of amountCents currency = .ok m) :
    m.amountCents = amountCents ∧ m.currency = currency := by
  simp only [of] at made
  split at made <;> try contradiction
  split at made <;> try contradiction
  cases made
  exact ⟨rfl, rfl⟩

@[simp] theorem of_self (m : Money) : of m.amountCents m.currency = .ok m := by
  simp [of, m.nonneg, m.iso]

end Money

structure Coordinates where
  latitude : Rat
  longitude : Rat
  latitudeRange : -90 ≤ latitude ∧ latitude ≤ 90
  longitudeRange : -180 ≤ longitude ∧ longitude ≤ 180
  deriving DecidableEq

namespace Coordinates

def of (latitude longitude : Rat) : Except Thrown Coordinates :=
  if lat : -90 ≤ latitude ∧ latitude ≤ 90 then
    if lng : -180 ≤ longitude ∧ longitude ≤ 180 then .ok ⟨latitude, longitude, lat, lng⟩
    else .error (.error s!"Longitude must be between -180 and 180, got {longitude}")
  else .error (.error s!"Latitude must be between -90 and 90, got {latitude}")

theorem of_eq {latitude longitude : Rat} {c : Coordinates}
    (made : of latitude longitude = .ok c) :
    c.latitude = latitude ∧ c.longitude = longitude := by
  simp only [of] at made
  split at made <;> try contradiction
  split at made <;> try contradiction
  cases made
  exact ⟨rfl, rfl⟩

@[simp] theorem of_self (c : Coordinates) : of c.latitude c.longitude = .ok c := by
  simp [of, c.latitudeRange, c.longitudeRange]

end Coordinates

/-- What `String.prototype.trim` strips. -/
def isJsWhitespace (c : Char) : Bool :=
  c ∈ ['\t', '\n', '\x0b', '\x0c', '\r', ' ', '\u00a0', '\u1680', '\u2028', '\u2029', '\u202f',
    '\u205f', '\u3000', '\ufeff'] || ('\u2000' ≤ c ∧ c ≤ '\u200a')

def isBlank (s : String) : Bool := s.toList.all isJsWhitespace

/-- An optional property of a JSON object: left out, `null`, or a text. -/
abbrev Optional := Option (Option String)

structure ShippingAddressProps where
  recipient : String
  line1 : String
  line2 : Optional := none
  city : String
  state : Optional := none
  postalCode : Optional := none
  country : String
  deriving DecidableEq

structure ShippingAddress where
  props : ShippingAddressProps
  recipient : isBlank props.recipient = false
  line1 : isBlank props.line1 = false
  city : isBlank props.city = false
  country : isBlank props.country = false
  deriving DecidableEq

namespace ShippingAddress

def of (props : ShippingAddressProps) : Except Thrown ShippingAddress :=
  if recipient : isBlank props.recipient then .error (.error "ShippingAddress.recipient is required")
  else if line1 : isBlank props.line1 then .error (.error "ShippingAddress.line1 is required")
  else if city : isBlank props.city then .error (.error "ShippingAddress.city is required")
  else if country : isBlank props.country then .error (.error "ShippingAddress.country is required")
  else .ok ⟨props, by simpa using recipient, by simpa using line1, by simpa using city,
    by simpa using country⟩

theorem of_eq {props : ShippingAddressProps} {a : ShippingAddress} (made : of props = .ok a) :
    a.props = props := by
  simp only [of] at made
  repeat' split at made
  all_goals first | contradiction | (cases made; rfl)

@[simp] theorem of_self (a : ShippingAddress) : of a.props = .ok a := by
  simp [of, a.recipient, a.line1, a.city, a.country]

end ShippingAddress

end Canals
