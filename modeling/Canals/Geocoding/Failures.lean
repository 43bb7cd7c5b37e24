import Canals.Geocoding.GeoapifyProvider
import Canals.Geocoding.Transparency
import Canals.Http.Problem

/-! What geocoding rejects with, over either driver. A state that names an inherited property
breaks the key of the cache, an answer out of range the value object. -/
namespace Canals.Geocoding

/-- What the filter is given. -/
def GeocodeError.toException : GeocodeError → Exception
  | failed _ message => .geocodingFailed message
  | typeError message => .other (.error message)
  | thrown e => .other e

namespace Caching

/-- Coordinates, which are within range, or a `GeocodingFailedError`, which is a 422. -/
def Clean (outcome : Except GeocodeError Coordinates) : Prop :=
  ∀ e, outcome = .error e → (∃ reason message, e = .failed reason message) ∧
    (buildProblem e.toException).status = 422

/-- Every call of every run ends so. -/
def EndsClean (setting : Setting) (maxEntries : Limit) : Prop :=
  ∀ trace w, Run setting maxEntries trace w →
    ∀ address outcome, .settled address outcome ∈ w.calls → Clean outcome

variable (unicode : Unicode) (sha256 : String → Digest) (asked : ShippingAddress → Prop)

/-- The cache around Geoapify; `possible` is what the provider may answer to an attempt. -/
def geoapifySetting (provider : GeoapifyGeocodingProvider) (possible : AttemptOutcome → Prop) :
    Setting where
  key := cacheKey unicode sha256
  asked := asked
  answers := fun _ answer => ∃ outcomes : Nat → AttemptOutcome,
    (∀ number, outcomes number = .circuitOpen ∨ possible (outcomes number)) ∧
      answer = provider.geocode outcomes

section Spec
variable {unicode sha256 asked} {setting : Setting} {maxEntries : Limit}
  {a : ShippingAddress} {possible : AttemptOutcome → Prop}
  {provider : GeoapifyGeocodingProvider}

theorem clean_ok (c : Coordinates) : Clean (.ok c) := by
  rintro e ⟨⟩

theorem clean_error {e : GeocodeError} :
    Clean (.error e) ↔ ∃ reason message, e = .failed reason message := by
  constructor
  · intro clean
    exact (clean e rfl).1
  · rintro ⟨reason, message, rfl⟩ _ ⟨⟩
    exact ⟨⟨reason, message, rfl⟩, rfl⟩

theorem cacheKey_inherits (inherits : InheritsState unicode a) :
    cacheKey unicode sha256 a = .error (.typeError "value.normalize is not a function") := by
  obtain ⟨own, field⟩ := stateField_inherited.mpr inherits
  simp [cacheKey, buildNormalisedAddress, field, normalizeField, bind, Except.bind]

/-- The runs end clean if all keys can be built and every answer of the driver is clean;
without a single call nothing is asked of the driver. -/
theorem endsClean_iff (keyed : setting.key = cacheKey unicode sha256) :
    EndsClean setting maxEntries ↔ (∀ a, setting.asked a → ¬ InheritsState unicode a) ∧
      ∀ a answer, setting.asked a → setting.answers a answer → Clean answer := by
  constructor
  · intro clean
    have plain : ∀ a, setting.asked a → ¬ InheritsState unicode a := by
      intro a asked inherits
      have allowed : Allowed setting ⟨{ maxEntries }, []⟩ (.geocode a) := asked
      have key : setting.key a = .error _ := (congrFun keyed a).trans (cacheKey_inherits inherits)
      have stepped : World.step setting ⟨{ maxEntries }, []⟩ (.geocode a) =
          some ⟨{ maxEntries }, [.settled a
            (.error (.typeError "value.normalize is not a function"))]⟩ := by
        rw [World.step, key]
        rfl
      have ended := clean _ _ (.step .start allowed stepped) a _ List.mem_cons_self
      obtain ⟨reason, message, same⟩ := clean_error.mp ended
      cases same
    refine ⟨plain, ?_⟩
    intro a answer asked answers
    obtain ⟨s, normalised⟩ := buildNormalisedAddress_ok.mpr (plain a asked)
    have key : setting.key a = .ok (sha256 s) := (congrFun keyed a).trans (cacheKey_eq normalised)
    have allowed : Allowed setting ⟨{ maxEntries }, []⟩ (.geocode a) := asked
    have missed : World.step setting ⟨{ maxEntries }, []⟩ (.geocode a) =
        some ⟨{ maxEntries }, [.waiting a (sha256 s)]⟩ := by
      rw [World.step, key]
      rfl
    have allowed' : Allowed setting ⟨{ maxEntries }, [.waiting a (sha256 s)]⟩
        (.answered 0 answer) := by
      rintro address key ⟨⟩
      exact answers
    cases answer with
    | ok c => exact clean_ok c
    | error e =>
      have stepped : World.step setting ⟨{ maxEntries }, [.waiting a (sha256 s)]⟩
          (.answered 0 (.error e)) = some ⟨{ maxEntries }, [.settled a (.error e)]⟩ := rfl
      have run := Run.step (Run.step .start allowed missed) allowed' stepped
      exact clean _ _ run a _ List.mem_cons_self
  · rintro ⟨plain, answers⟩ trace w run a outcome settled
    obtain ⟨asked, explained⟩ := run.explained settled
    rcases explained with ⟨e, keyless, rfl⟩ | ⟨key, -, answer | ⟨b, c, -, -, -, rfl⟩⟩
    · rw [keyed] at keyless
      exact absurd (cacheKey_error keyless) (plain a asked)
    · exact answers a outcome asked answer
    · exact clean_ok c

theorem geocode_static_clean (plain : ¬ InheritsState unicode a) :
    Clean (StaticGeocodingProvider.geocode unicode sha256 a) := by
  cases city : cityCentre unicode a with
  | none =>
    rw [geocode_refused city]
    exact clean_error.mpr ⟨_, _, rfl⟩
  | some centre =>
    obtain ⟨s, normalised⟩ := buildNormalisedAddress_ok.mpr plain
    obtain ⟨c, made, -⟩ := geocode_served sha256 city normalised
    rw [made]
    exact clean_ok c

theorem geocode_geoapify_clean {outcomes : Nat → AttemptOutcome}
    (inRange : 1 ≤ provider.attempts → ∀ number, ¬ OutOfRange (outcomes number)) :
    Clean (provider.geocode outcomes) := by
  intro e rejected
  rcases geocode_error rejected with failed | ⟨attempts, number, out⟩
  · exact clean_error.mpr failed e rfl
  · exact absurd out (inRange attempts number)

theorem circuitOpen_inRange : ¬ OutOfRange .circuitOpen := by
  rintro ⟨feature, rest, found, -⟩
  cases found

/-- Geocoding ends in coordinates or in a 422, over the static provider if and only if no
state names an inherited property, and over Geoapify if and only if, besides, no answer to
an attempt has a first feature out of range. -/
theorem endsClean_drivers (unicode : Unicode) (sha256 : String → Digest)
    (asked : ShippingAddress → Prop) (maxEntries : Limit) (provider : GeoapifyGeocodingProvider)
    (possible : AttemptOutcome → Prop) :
    (EndsClean (staticSetting unicode sha256 asked) maxEntries ↔
      ∀ a, asked a → ¬ InheritsState unicode a) ∧
    (EndsClean (geoapifySetting unicode sha256 asked provider possible) maxEntries ↔
      (∀ a, asked a → ¬ InheritsState unicode a) ∧
        ((∃ a, asked a) → 1 ≤ provider.attempts →
          ∀ outcome, possible outcome → ¬ OutOfRange outcome)) := by
  constructor
  · rw [endsClean_iff rfl]
    constructor
    · exact And.left
    · intro plain
      refine ⟨plain, ?_⟩
      rintro a answer asked rfl
      exact geocode_static_clean (plain a asked)
  · rw [endsClean_iff rfl]
    refine and_congr_right fun plain => ?_
    constructor
    · rintro clean ⟨a, asked⟩ attempts outcome answered out
      obtain ⟨e, thrown⟩ := geocode_outOfRange out attempts
      have ended := clean a _ asked ⟨fun _ => outcome, fun _ => .inr answered, rfl⟩
      rw [thrown, clean_error] at ended
      obtain ⟨reason, message, same⟩ := ended
      cases same
    · rintro inRange a answer asked ⟨outcomes, met, rfl⟩
      apply geocode_geoapify_clean
      intro attempts number
      rcases met number with open_ | answered
      · rw [open_]
        exact circuitOpen_inRange
      · exact inRange ⟨a, asked⟩ attempts _ answered

end Spec

/-- An address whose state is an inherited property. -/
def constructorState : ShippingAddress where
  props := {
    recipient := "Ada", line1 := "1 Main St", city := "Denver"
    state := some (some "Constructor"), country := "US" }
  recipient := by decide
  line1 := by decide
  city := by decide
  country := by decide

/-- Over either driver, before it is asked: a `TypeError`, which is a 500. -/
theorem constructorState_breaks :
    ¬ EndsClean (staticSetting ascii denverDigest fun a => a = constructorState)
        GEOCODE_CACHE_MAX_ENTRIES ∧
      ¬ EndsClean (geoapifySetting ascii denverDigest (fun a => a = constructorState) {}
        fun _ => False) GEOCODE_CACHE_MAX_ENTRIES ∧
      (buildProblem (GeocodeError.typeError "value.normalize is not a function").toException).status =
        500 := by
  have inherits : InheritsState ascii constructorState := ⟨"Constructor", rfl, by decide +kernel⟩
  refine ⟨?_, ?_, rfl⟩
  · intro clean
    exact ((endsClean_iff rfl).mp clean).1 _ rfl inherits
  · intro clean
    exact ((endsClean_iff rfl).mp clean).1 _ rfl inherits

end Caching

end Canals.Geocoding
