import Canals.Geocoding.CachingProvider
import Canals.Payments.Attempts

/-! `GeoapifyGeocodingProvider`: what it makes of what its attempts meet. The provider may
answer anything to a request, so that the request itself is left out. -/
namespace Canals.Geocoding

/-- The transient failures, and the breaker's rejection. -/
inductive GeoapifyError where
  | providerError
  | tooManyRequests
  | timeout
  | connectionRefused
  | networkError
  | circuitOpen
  deriving DecidableEq

/-- `lat` and `lon`, as they are parsed. What parses to `Infinity` is past every bound. -/
structure GeoapifyFeature where
  lat : Rat
  lon : Rat

inductive GeoapifyResponse where
  | success (features : List GeoapifyFeature)
  | configurationError (httpStatus : Nat)

def classifyNetworkError (error : FetchError) : GeoapifyError :=
  match classifyFetchError error with
  | .timeout => .timeout
  | .connection_refused => .connectionRefused
  | .network_error => .networkError

/-- `isGeoapifyFeature`, with the feature. -/
def asFeature (value : Json) : Option GeoapifyFeature := do
  let properties ← (← asRecord value).lookup "properties"
  let fields ← asRecord properties
  match fields.lookup "lat", fields.lookup "lon" with
  | some (.num lat), some (.num lon) => some ⟨lat, lon⟩
  | _, _ => none

def parseFeatures (body : Option Json) : List GeoapifyFeature :=
  match (recordOf body).bind (·.lookup "features") with
  | some (.arr features) => features.filterMap asFeature
  | _ => []

def search : AttemptOutcome → Except GeoapifyError GeoapifyResponse
  | .circuitOpen => .error .circuitOpen
  | .rejected error => .error (classifyNetworkError error)
  | .responded httpStatus json =>
    if httpStatus = 401 ∨ httpStatus = 403 then .ok (.configurationError httpStatus)
    else if httpStatus = 429 then .error .tooManyRequests
    else if 500 ≤ httpStatus then .error .providerError
    else .ok (.success (parseFeatures json))

/-- `isRetryable`: a value is no error. -/
def isRetryable : Except GeoapifyError GeoapifyResponse → Bool
  | .ok _ => false
  | .error e => e ≠ .circuitOpen

structure GeoapifyGeocodingProvider where
  maxAttempts : Option Rat := none

namespace GeoapifyGeocodingProvider

def attempts (provider : GeoapifyGeocodingProvider) : Rat :=
  provider.maxAttempts.getD (MAX_ATTEMPTS : Nat)

/-- `outcomes` is what each attempt meets, by its number. -/
def geocode (provider : GeoapifyGeocodingProvider) (outcomes : Nat → AttemptOutcome) :
    Except GeocodeError Coordinates :=
  match (withRetry provider.attempts isRetryable fun number => search (outcomes number)).2 with
  | .error _ => .error (.failed .PROVIDER_UNAVAILABLE "Geoapify is unavailable — see README.")
  | .ok (.configurationError httpStatus) => .error (.failed .PROVIDER_UNAVAILABLE
      s!"Geoapify rejected the request (HTTP {httpStatus}) — check GEOAPIFY_API_KEY, see README.")
  | .ok (.success []) => .error (.failed .UNKNOWN_ADDRESS
      "Geoapify found no match for this address — see README.")
  -- only the first feature is read
  | .ok (.success (feature :: _)) => (Coordinates.of feature.lat feature.lon).mapError .thrown

end GeoapifyGeocodingProvider

/-- The provider's answer has a first feature outside the range of coordinates. -/
def OutOfRange (outcome : AttemptOutcome) : Prop :=
  ∃ feature rest, search outcome = .ok (.success (feature :: rest)) ∧
    ¬ ((-90 ≤ feature.lat ∧ feature.lat ≤ 90) ∧ (-180 ≤ feature.lon ∧ feature.lon ≤ 180))

section Spec
variable {provider : GeoapifyGeocodingProvider} {outcomes : Nat → AttemptOutcome}

theorem coordinates_of_error {latitude longitude : Rat} :
    (∃ e, Coordinates.of latitude longitude = .error e) ↔
      ¬ ((-90 ≤ latitude ∧ latitude ≤ 90) ∧ (-180 ≤ longitude ∧ longitude ≤ 180)) := by
  rw [Coordinates.of]
  split
  · split
    · rename_i lat lng
      simp [lat, lng]
    · rename_i lat lng
      simp [lat, lng]
  · rename_i lat
    simp [lat]

/-- What `withRetry` returns is what some attempt resolved to. -/
theorem retryFrom_value {maxAttempts : Rat} {response : GeoapifyResponse} {turns attempt : Nat}
    (returned : (retryFrom maxAttempts isRetryable (fun number => search (outcomes number))
      turns attempt).2 = .ok response) : ∃ number, search (outcomes number) = .ok response := by
  induction turns generalizing attempt with
  | zero => cases returned
  | succ turns ih =>
    rw [retryFrom] at returned
    dsimp only at returned
    split at returned
    · cases settled : search (outcomes attempt) with
      | ok value =>
        rw [settled] at returned
        cases returned
        exact ⟨attempt, settled⟩
      | error e =>
        rw [settled] at returned
        cases returned
    · exact ih returned

/-- An error of the driver that is no `GeocodingFailedError` comes from such an answer. -/
theorem geocode_error {e : GeocodeError} (rejected : provider.geocode outcomes = .error e) :
    (∃ reason message, e = .failed reason message) ∨
      (1 ≤ provider.attempts ∧ ∃ number, OutOfRange (outcomes number)) := by
  rw [GeoapifyGeocodingProvider.geocode] at rejected
  split at rejected
  · cases rejected
    exact .inl ⟨_, _, rfl⟩
  · cases rejected
    exact .inl ⟨_, _, rfl⟩
  · cases rejected
    exact .inl ⟨_, _, rfl⟩
  · rename_i feature rest returned
    obtain ⟨number, found⟩ := retryFrom_value returned
    refine .inr ⟨?_, number, feature, rest, found, ?_⟩
    · by_contra fewer
      have floor : ¬ (1 : Int) ≤ provider.attempts.floor := by
        rwa [Rat.le_floor_iff]
      rw [withRetry, show provider.attempts.floor.toNat = 0 by omega] at returned
      cases returned
    cases made : Coordinates.of feature.lat feature.lon with
    | ok c =>
      rw [made] at rejected
      cases rejected
    | error thrown => exact coordinates_of_error.mp ⟨thrown, made⟩

/-- With an attempt at all, the driver throws at such an answer. -/
theorem geocode_outOfRange {outcome : AttemptOutcome} (out : OutOfRange outcome)
    (some_ : 1 ≤ provider.attempts) : ∃ e, provider.geocode (fun _ => outcome) = .error (.thrown e) := by
  obtain ⟨feature, rest, found, outside⟩ := out
  obtain ⟨e, thrown⟩ := coordinates_of_error.mpr outside
  have floor : 1 ≤ provider.attempts.floor := by
    rw [Rat.le_floor_iff]
    exact some_
  obtain ⟨turns, size⟩ : ∃ turns, provider.attempts.floor.toNat = turns + 1 :=
    ⟨provider.attempts.floor.toNat - 1, by omega⟩
  have decided : (withRetry provider.attempts isRetryable fun _ => search outcome).2 =
      .ok (.success (feature :: rest)) := by
    rw [withRetry, size, retryFrom]
    simp [found, isRetryable, Except.mapError]
  refine ⟨e, ?_⟩
  rw [GeoapifyGeocodingProvider.geocode, decided]
  simp [thrown, Except.mapError]

end Spec

end Canals.Geocoding
