import Canals.Arithmetic.Rounding
import Canals.Geocoding.Normalisation

/-! `StaticGeocodingProvider`: a table of cities, and a jitter from the hash of the address. -/
namespace Canals.Geocoding

structure CityCentre where
  latitude : Rat
  longitude : Rat
  deriving DecidableEq

/-- Keyed by normalised `city|STATE`. -/
def US_CITIES : List (String × CityCentre) := [
  ("newark|NJ", ⟨40.735657, -74.172363⟩),
  ("los angeles|CA", ⟨34.052235, -118.243683⟩),
  ("dallas|TX", ⟨32.776664, -96.796988⟩),
  ("chicago|IL", ⟨41.878113, -87.629799⟩),
  ("miami|FL", ⟨25.761681, -80.191788⟩),
  ("new york|NY", ⟨40.7128, -74.006⟩),
  ("philadelphia|PA", ⟨39.9526, -75.1652⟩),
  ("san diego|CA", ⟨32.7157, -117.1611⟩),
  ("houston|TX", ⟨29.7604, -95.3698⟩),
  ("milwaukee|WI", ⟨43.0389, -87.9065⟩),
  ("orlando|FL", ⟨28.5383, -81.3792⟩),
  ("seattle|WA", ⟨47.6062, -122.3321⟩),
  ("denver|CO", ⟨39.7392, -104.9903⟩),
  ("portland|OR", ⟨45.5152, -122.6784⟩),
  ("portland|ME", ⟨43.6591, -70.2568⟩),
  ("boston|MA", ⟨42.3601, -71.0589⟩),
  ("atlanta|GA", ⟨33.749, -84.388⟩),
  ("phoenix|AZ", ⟨33.4484, -112.074⟩),
  ("san francisco|CA", ⟨37.7749, -122.4194⟩),
  ("austin|TX", ⟨30.2672, -97.7431⟩),
  ("san antonio|TX", ⟨29.4241, -98.4936⟩),
  ("charlotte|NC", ⟨35.2271, -80.8431⟩),
  ("columbus|OH", ⟨39.9612, -82.9988⟩),
  ("indianapolis|IN", ⟨39.7684, -86.1581⟩),
  ("san jose|CA", ⟨37.3382, -121.8863⟩),
  ("detroit|MI", ⟨42.3314, -83.0458⟩),
  ("nashville|TN", ⟨36.1627, -86.7816⟩),
  ("memphis|TN", ⟨35.1495, -90.049⟩),
  ("baltimore|MD", ⟨39.2904, -76.6122⟩),
  ("las vegas|NV", ⟨36.1699, -115.1398⟩),
  ("minneapolis|MN", ⟨44.9778, -93.265⟩),
  ("new orleans|LA", ⟨29.9511, -90.0715⟩)]

/-- The double a decimal of the source or the result of an operation becomes. -/
def double (q : Rat) : Rat := BinaryFormat.nearestRat 53 (-1074) q

def STATIC_JITTER_DEGREES : Rat := double 0.05

def UNKNOWN_ADDRESS_MESSAGE : String :=
  "Address could not be resolved by the static geocoder " ++
    "— see README for its supported cities and limits."

/-- A sha256 digest, as its eight words. -/
abbrev Digest := Vector UInt32 8

structure Jitter where
  latitude : Rat
  longitude : Rat

def unknownAddress : GeocodeError := .failed .UNKNOWN_ADDRESS UNKNOWN_ADDRESS_MESSAGE

section Provider
variable (unicode : Unicode) (sha256 : String → Digest)

/-- The key of an address with a state in the table of cities. -/
def cityKey (rawCity rawState : String) : String :=
  let stateCode := (canonicalizeStateCode unicode rawState).getD
    (.text (unicode.toUpperCase rawState))
  normalizeText unicode rawCity ++ "|" ++ stateCode.interpolate

/-- `key.split('|')[0]` -/
def cityOfKey (key : String) : String := String.ofList (key.toList.takeWhile (· ≠ '|'))

/-- With a state, an exact match or nothing. Without one, a city alone only when its name
is unique in the table. -/
def resolveCityCentre (rawCity : String) (rawState : Option String) :
    Except GeocodeError CityCentre :=
  match rawState with
  | some rawState =>
    match US_CITIES.lookup (cityKey unicode rawCity rawState) with
    | some centre => .ok centre
    | none => .error unknownAddress
  | none =>
    match US_CITIES.filter fun entry => cityOfKey entry.1 = normalizeText unicode rawCity with
    | [entry] => .ok entry.2
    | _ => .error unknownAddress

/-- `((word / 0xffffffff) * 2 - 1) * STATIC_JITTER_DEGREES` -/
def jitterOf (word : UInt32) : Rat :=
  double (double (double (double (word.toNat / 4294967295) * 2) - 1) * STATIC_JITTER_DEGREES)

def computeJitter (normalisedAddress : String) : Jitter :=
  let hash := sha256 normalisedAddress
  ⟨jitterOf hash[0], jitterOf hash[1]⟩

def StaticGeocodingProvider.geocode (address : ShippingAddress) :
    Except GeocodeError Coordinates := do
  if !isAcceptedCountry unicode address.props.country then throw unknownAddress
  let centre ← resolveCityCentre unicode address.props.city (truthyText address.props.state)
  let jitter := computeJitter sha256 (← buildNormalisedAddress unicode address)
  (Coordinates.of (double (double centre.latitude + jitter.latitude))
    (double (double centre.longitude + jitter.longitude))).mapError .thrown

/-- The entry of the table that an address is served from. -/
def cityCentre (address : ShippingAddress) : Option CityCentre :=
  if isAcceptedCountry unicode address.props.country then
    (resolveCityCentre unicode address.props.city (truthyText address.props.state)).toOption
  else none

end Provider

section Arithmetic

theorem double_error {q : Rat} (small : |q| ≤ 256) : |double q - q| ≤ 1 / 1000000000 := by
  have bound : |q| ≤ 2 ^ (8 : Int) := small.trans (by norm_num)
  have near : |double q - q| ≤ 2 ^ ((8 : Int) - (53 : Nat)) :=
    BinaryFormat.nearestRat_error bound (by norm_num)
  exact near.trans (by norm_num)

/-- Small numbers change little when they are rounded. -/
theorem double_between {q low high : Rat} (below : low ≤ q) (above : q ≤ high)
    (small : -256 ≤ low ∧ high ≤ 256) :
    low - 1 / 1000000000 ≤ double q ∧ double q ≤ high + 1 / 1000000000 := by
  have near := abs_le.mp (double_error (abs_le.mpr ⟨small.1.trans below, above.trans small.2⟩))
  constructor
  · linarith [near.1]
  · linarith [near.2]

/-- The jitter is about 0.05 degrees at most. -/
theorem jitterOf_small (word : UInt32) : |jitterOf word| ≤ 1 / 10 := by
  have low : (0 : Rat) ≤ word.toNat / 4294967295 := by positivity
  have high : (word.toNat : Rat) / 4294967295 ≤ 1 := by
    have fits : word.toNat ≤ 4294967295 := Nat.le_of_lt_succ word.toNat_lt
    have cast : (word.toNat : Rat) ≤ 4294967295 := by exact_mod_cast fits
    rwa [div_le_one (by norm_num)]
  have fraction := double_between low high (by norm_num)
  rw [jitterOf]
  generalize double (word.toNat / 4294967295) = a at fraction
  have doubled := double_between (show -0.01 ≤ a * 2 by linarith [fraction.1])
    (show a * 2 ≤ 2.01 by linarith [fraction.2]) (by norm_num)
  generalize double (a * 2) = b at doubled
  have centred := double_between (show -1.02 ≤ b - 1 by linarith [doubled.1])
    (show b - 1 ≤ 1.02 by linarith [doubled.2]) (by norm_num)
  generalize double (b - 1) = c at centred
  have scale : 0.04 ≤ STATIC_JITTER_DEGREES ∧ STATIC_JITTER_DEGREES ≤ 0.06 := by
    have near := double_between (le_refl (0.05 : Rat)) le_rfl (by norm_num)
    constructor
    · linarith [near.1, show STATIC_JITTER_DEGREES = double 0.05 from rfl]
    · linarith [near.2, show STATIC_JITTER_DEGREES = double 0.05 from rfl]
  have product : |c * STATIC_JITTER_DEGREES| ≤ 1.03 * 0.06 := by
    rw [abs_mul]
    refine mul_le_mul (abs_le.mpr ⟨?_, ?_⟩) (abs_le.mpr ⟨?_, ?_⟩) (abs_nonneg _) (by norm_num)
    · linarith [centred.1]
    · linarith [centred.2]
    · linarith [scale.1]
    · exact scale.2
  have near := abs_le.mp product
  have rounded := double_between near.1 near.2 (by norm_num)
  exact abs_le.mpr ⟨by linarith [rounded.1], by linarith [rounded.2]⟩

/-- The doubles of a point of the map, moved a little. -/
theorem moved_between {q jitter low high : Rat} (below : low ≤ q) (above : q ≤ high)
    (small : -250 ≤ low ∧ high ≤ 250) (near : |jitter| ≤ 1 / 10) :
    low - 1 ≤ double (double q + jitter) ∧ double (double q + jitter) ≤ high + 1 := by
  have first := double_between below above (by constructor <;> linarith [small.1, small.2])
  have shift := abs_le.mp near
  have second := double_between (show low - 0.5 ≤ double q + jitter by linarith [first.1, shift.1])
    (show double q + jitter ≤ high + 0.5 by linarith [first.2, shift.2])
    (by constructor <;> linarith [small.1, small.2])
  constructor
  · linarith [second.1]
  · linarith [second.2]

/-- Points apart stay apart when they are moved alike. -/
theorem moved_injective {q q' jitter : Rat} (small : |q| ≤ 250) (small' : |q'| ≤ 250)
    (near : |jitter| ≤ 1 / 10) (same : double (double q + jitter) = double (double q' + jitter)) :
    |q - q'| ≤ 1 / 100000000 := by
  have moved : ∀ {q : Rat}, |q| ≤ 250 → |double (double q + jitter) - (q + jitter)| ≤
      2 / 1000000000 := by
    intro q small
    have first := double_error (small.trans (by norm_num : (250 : Rat) ≤ 256))
    have size : |double q + jitter| ≤ 256 := by
      have parts := abs_le.mp first
      have shift := abs_le.mp near
      have range := abs_le.mp small
      exact abs_le.mpr ⟨by linarith [parts.1, shift.1, range.1],
        by linarith [parts.2, shift.2, range.2]⟩
    have second := double_error size
    calc |double (double q + jitter) - (q + jitter)|
        = |(double (double q + jitter) - (double q + jitter)) + (double q - q)| := by ring_nf
      _ ≤ 1 / 1000000000 + 1 / 1000000000 := (abs_add_le _ _).trans (add_le_add second first)
      _ = 2 / 1000000000 := by norm_num
  have here := abs_le.mp (moved small)
  have there := abs_le.mp (moved small')
  rw [same] at here
  exact abs_le.mpr ⟨by linarith [here.2, there.1], by linarith [here.1, there.2]⟩

end Arithmetic

section Outcomes
variable {unicode : Unicode} {sha256 : String → Digest} {address : ShippingAddress}
  {centre : CityCentre}

/-- The cities lie well within the range of coordinates. -/
def CityCentre.onMap (centre : CityCentre) : Bool :=
  0 ≤ centre.latitude && centre.latitude ≤ 80 && -170 ≤ centre.longitude && centre.longitude ≤ 0

def CityCentre.apart (a b : CityCentre) : Bool :=
  1 / 1000 ≤ |a.latitude - b.latitude| || 1 / 1000 ≤ |a.longitude - b.longitude|

theorem cities_onMap : US_CITIES.all fun entry => entry.2.onMap := by decide +kernel

theorem cities_apart :
    US_CITIES.all fun a => US_CITIES.all fun b => a.2 = b.2 || a.2.apart b.2 := by
  decide +kernel

theorem cities_letter : US_CITIES.all fun entry =>
    entry.1.toList.getLast?.any fun c => 'A' ≤ c && c ≤ 'Z' := by
  decide +kernel

theorem interpolate_inherited (own : String) :
    (PropertyValue.inherited own).interpolate.toList.getLast? = some ']' ∨
      (PropertyValue.inherited own).interpolate.toList.getLast? = some '\x7d' := by
  rw [PropertyValue.interpolate]
  split
  · exact .inl (by decide)
  · split
    · exact .inr (by decide)
    · refine .inr ?_
      rw [String.toList_append, List.getLast?_append_of_ne_nil _ (by decide)]
      decide

theorem mem_of_lookup {V : Type} {table : List (String × V)} {key : String} {value : V}
    (found : table.lookup key = some value) : (key, value) ∈ table := by
  obtain ⟨front, back, rfl, -⟩ := List.lookup_eq_some_iff.mp found
  exact List.mem_append_right _ List.mem_cons_self

theorem resolveCityCentre_cases (unicode : Unicode) (rawCity : String) (rawState : Option String) :
    resolveCityCentre unicode rawCity rawState = .error unknownAddress ∨
      ∃ entry ∈ US_CITIES, resolveCityCentre unicode rawCity rawState = .ok entry.2 := by
  cases rawState with
  | some rawState =>
    cases found : US_CITIES.lookup (cityKey unicode rawCity rawState) with
    | none => exact .inl (by simp [resolveCityCentre, found])
    | some centre =>
      exact .inr ⟨(cityKey unicode rawCity rawState, centre), mem_of_lookup found,
        by simp [resolveCityCentre, found]⟩
  | none =>
    rw [resolveCityCentre]
    split
    · rename_i entry only
      refine .inr ⟨entry, ?_, rfl⟩
      have member : entry ∈ [entry] := List.mem_singleton_self entry
      rw [← only] at member
      exact (List.mem_filter.mp member).1
    · exact .inl rfl

theorem geocode_refused (none : cityCentre unicode address = none) :
    StaticGeocodingProvider.geocode unicode sha256 address = .error unknownAddress := by
  rw [cityCentre] at none
  rw [StaticGeocodingProvider.geocode]
  cases accepted : isAcceptedCountry unicode address.props.country with
  | false => rfl
  | true =>
    rw [if_pos accepted] at none
    rcases resolveCityCentre_cases unicode address.props.city
      (truthyText address.props.state) with refused | ⟨entry, -, found⟩
    · rw [refused]
      rfl
    · rw [found] at none
      cases none

theorem cityCentre_mem (served : cityCentre unicode address = some centre) :
    isAcceptedCountry unicode address.props.country ∧
      resolveCityCentre unicode address.props.city (truthyText address.props.state) = .ok centre ∧
        ∃ entry ∈ US_CITIES, entry.2 = centre := by
  rw [cityCentre] at served
  split at served
  · rename_i accepted
    rcases resolveCityCentre_cases unicode address.props.city
      (truthyText address.props.state) with refused | ⟨entry, member, found⟩
    · rw [refused] at served
      cases served
    · rw [found] at served
      obtain rfl := Option.some.inj served
      exact ⟨accepted, found, entry, member, rfl⟩
  · cases served

/-- An address with a city of the table gets coordinates. -/
theorem geocode_served (sha256 : String → Digest)
    (served : cityCentre unicode address = some centre) {s : String}
    (normalised : buildNormalisedAddress unicode address = .ok s) :
    ∃ c, StaticGeocodingProvider.geocode unicode sha256 address = .ok c ∧
      c.latitude = double (double centre.latitude + (computeJitter sha256 s).latitude) ∧
      c.longitude = double (double centre.longitude + (computeJitter sha256 s).longitude) := by
  obtain ⟨accepted, found, entry, member, rfl⟩ := cityCentre_mem served
  have onMap := List.all_eq_true.mp cities_onMap entry member
  simp only [CityCentre.onMap, Bool.and_eq_true, decide_eq_true_eq] at onMap
  obtain ⟨⟨⟨south, north⟩, west⟩, east⟩ := onMap
  have latitude := moved_between south north (by norm_num)
    (jitterOf_small (sha256 s)[0])
  have longitude := moved_between west east (by norm_num)
    (jitterOf_small (sha256 s)[1])
  let c : Coordinates := {
    latitude := double (double entry.2.latitude + jitterOf (sha256 s)[0])
    longitude := double (double entry.2.longitude + jitterOf (sha256 s)[1])
    latitudeRange := ⟨by linarith [latitude.1], by linarith [latitude.2]⟩
    longitudeRange := ⟨by linarith [longitude.1], by linarith [longitude.2]⟩ }
  have made : (Coordinates.of (double (double entry.2.latitude + jitterOf (sha256 s)[0]))
      (double (double entry.2.longitude + jitterOf (sha256 s)[1]))) = .ok c :=
    Coordinates.of_self c
  refine ⟨c, ?_, rfl, rfl⟩
  rw [StaticGeocodingProvider.geocode, accepted, found, normalised]
  exact congrArg (Except.mapError GeocodeError.thrown) made

/-- No city has a state that is no text. -/
theorem cityCentre_inherits (inherits : InheritsState unicode address) :
    cityCentre unicode address = none := by
  cases served : cityCentre unicode address with
  | none => rfl
  | some centre =>
    exfalso
    obtain ⟨-, found, -⟩ := cityCentre_mem served
    obtain ⟨rawState, state, named⟩ := inherits
    obtain ⟨own, value⟩ := canonicalizeStateCode_inherited.mpr named
    rw [state, resolveCityCentre] at found
    cases here : US_CITIES.lookup (cityKey unicode address.props.city rawState) with
    | none =>
      rw [here] at found
      cases found
    | some centre =>
      -- the keys end in a letter, the code of a function in a brace
      have letter := List.all_eq_true.mp cities_letter _ (mem_of_lookup here)
      dsimp only at letter
      rw [cityKey, value, Option.getD_some, String.toList_append] at letter
      rcases interpolate_inherited own with last | last
      · rw [List.getLast?_append_of_ne_nil _ (by rintro none; simp [none] at last), last] at letter
        revert letter
        decide
      · rw [List.getLast?_append_of_ne_nil _ (by rintro none; simp [none] at last), last] at letter
        revert letter
        decide

theorem same_city {a b : CityCentre} (here : ∃ entry ∈ US_CITIES, entry.2 = a)
    (there : ∃ entry ∈ US_CITIES, entry.2 = b) {jitter : Jitter}
    (small : |jitter.latitude| ≤ 1 / 10 ∧ |jitter.longitude| ≤ 1 / 10)
    (latitude : double (double a.latitude + jitter.latitude) =
      double (double b.latitude + jitter.latitude))
    (longitude : double (double a.longitude + jitter.longitude) =
      double (double b.longitude + jitter.longitude)) : a = b := by
  have onMap : ∀ {centre : CityCentre}, (∃ entry ∈ US_CITIES, entry.2 = centre) →
      |centre.latitude| ≤ 250 ∧ |centre.longitude| ≤ 250 := by
    rintro centre ⟨entry, member, rfl⟩
    have range := List.all_eq_true.mp cities_onMap entry member
    simp only [CityCentre.onMap, Bool.and_eq_true, decide_eq_true_eq] at range
    obtain ⟨⟨⟨south, north⟩, west⟩, east⟩ := range
    exact ⟨abs_le.mpr ⟨by linarith, by linarith⟩, abs_le.mpr ⟨by linarith, by linarith⟩⟩
  have near := moved_injective (onMap here).1 (onMap there).1 small.1 latitude
  have near' := moved_injective (onMap here).2 (onMap there).2 small.2 longitude
  obtain ⟨entry, member, rfl⟩ := here
  obtain ⟨entry', member', rfl⟩ := there
  have either := List.all_eq_true.mp (List.all_eq_true.mp cities_apart entry member) entry' member'
  rcases Bool.or_eq_true_iff.mp either with same | apart
  · exact of_decide_eq_true same
  · exfalso
    rw [CityCentre.apart, Bool.or_eq_true, decide_eq_true_eq, decide_eq_true_eq] at apart
    rcases apart with far | far
    · linarith
    · linarith

theorem coordinates_eq {c d : Coordinates} (latitude : c.latitude = d.latitude)
    (longitude : c.longitude = d.longitude) : c = d := by
  obtain ⟨lat, lng, latRange, lngRange⟩ := c
  obtain ⟨lat', lng', latRange', lngRange'⟩ := d
  obtain rfl : lat = lat' := latitude
  obtain rfl : lng = lng' := longitude
  rfl

/-- Of two addresses with one normalised form the static provider makes the same if and
only if it finds the same city for both, or for neither. -/
theorem geocode_same_iff {a b : ShippingAddress} {s : String}
    (normalised : buildNormalisedAddress unicode a = .ok s)
    (same : buildNormalisedAddress unicode b = .ok s) :
    (StaticGeocodingProvider.geocode unicode sha256 a).toOption =
        (StaticGeocodingProvider.geocode unicode sha256 b).toOption ↔
      cityCentre unicode a = cityCentre unicode b := by
  have small : |(computeJitter sha256 s).latitude| ≤ 1 / 10 ∧
      |(computeJitter sha256 s).longitude| ≤ 1 / 10 :=
    ⟨jitterOf_small _, jitterOf_small _⟩
  cases here : cityCentre unicode a with
  | none =>
    rw [geocode_refused here]
    cases there : cityCentre unicode b with
    | none => simp [geocode_refused there]
    | some centre =>
      obtain ⟨c, made, -⟩ := geocode_served sha256 there same
      simp [made, Except.toOption]
  | some centre =>
    obtain ⟨c, made, latitude, longitude⟩ := geocode_served sha256 here normalised
    rw [made]
    cases there : cityCentre unicode b with
    | none => simp [geocode_refused there, Except.toOption]
    | some centre' =>
      obtain ⟨c', made', latitude', longitude'⟩ := geocode_served sha256 there same
      rw [made']
      generalize computeJitter sha256 s = jitter at *
      constructor
      · intro equal
        obtain rfl : c = c' := Option.some.inj equal
        refine congrArg some (same_city (cityCentre_mem here).2.2 (cityCentre_mem there).2.2 small
          ?_ ?_)
        · exact latitude.symm.trans latitude'
        · exact longitude.symm.trans longitude'
      · intro equal
        obtain rfl := Option.some.inj equal
        rw [coordinates_eq (latitude.trans latitude'.symm) (longitude.trans longitude'.symm)]

end Outcomes

end Canals.Geocoding
