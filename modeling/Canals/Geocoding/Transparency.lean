import Canals.Geocoding.CachingProvider

/-! Where the cache cannot be noticed around the static provider. A cached answer is given
to every address with the same normalised form, which the provider may serve otherwise. -/
namespace Canals.Geocoding.Caching
open StaticGeocodingProvider (geocode)

variable (unicode : Unicode) (sha256 : String → Digest) (asked : ShippingAddress → Prop)
  (maxEntries : Limit)

/-- The cache around the static provider, for some addresses. -/
def staticSetting : Setting where
  key := cacheKey unicode sha256
  asked := asked
  answers := fun address answer => answer = geocode unicode sha256 address

/-- Every call comes to what the static provider says: its coordinates, or a rejection. -/
def Transparent : Prop :=
  ∀ trace w, Run (staticSetting unicode sha256 asked) maxEntries trace w →
    ∀ address outcome, .settled address outcome ∈ w.calls →
      outcome.toOption = (geocode unicode sha256 address).toOption

/-- No two of the addresses' normalised forms have one digest. -/
def NoCollision : Prop :=
  ∀ a b s t, asked a → asked b → buildNormalisedAddress unicode a = .ok s →
    buildNormalisedAddress unicode b = .ok t → sha256 s = sha256 t → s = t

/-- Of the addresses those with one normalised form are served from one city, or refused. -/
def SameCities : Prop :=
  ∀ a b s, asked a → asked b → buildNormalisedAddress unicode a = .ok s →
    buildNormalisedAddress unicode b = .ok s → cityCentre unicode a = cityCentre unicode b

section Spec
variable {unicode sha256 asked maxEntries} {trace : List Transition} {w : World}
  {a b : ShippingAddress} {s : String}

theorem cacheKey_ok {key : Digest} (found : cacheKey unicode sha256 a = .ok key) :
    ∃ s, buildNormalisedAddress unicode a = .ok s ∧ sha256 s = key := by
  rw [cacheKey] at found
  cases normalised : buildNormalisedAddress unicode a with
  | error e =>
    rw [normalised] at found
    cases found
  | ok s =>
    rw [normalised] at found
    exact ⟨s, rfl, Except.ok.inj found⟩

theorem cacheKey_eq (normalised : buildNormalisedAddress unicode a = .ok s) :
    cacheKey unicode sha256 a = .ok (sha256 s) := by
  rw [cacheKey, normalised]
  rfl

/-- A key is missing because the state is no text. -/
theorem cacheKey_error {e : GeocodeError} (keyless : cacheKey unicode sha256 a = .error e) :
    InheritsState unicode a := by
  by_contra plain
  obtain ⟨s, normalised⟩ := buildNormalisedAddress_ok.mpr plain
  cases keyless.symm.trans (cacheKey_eq normalised)

/-- An address without a key is refused by the static provider too. -/
theorem keyless_refused {e : GeocodeError} (keyless : cacheKey unicode sha256 a = .error e) :
    (geocode unicode sha256 a).toOption = none := by
  rw [geocode_refused (cityCentre_inherits (cacheKey_error keyless))]
  rfl

/-- A limit below one entry keeps nothing, so that every answer is the provider's own. -/
theorem Run.uncached (run : Run (staticSetting unicode sha256 asked) maxEntries trace w)
    (nothing : maxEntries.exceededBy 1) :
    w.provider = { maxEntries } ∧ ∀ address outcome, .settled address outcome ∈ w.calls →
      outcome.toOption = (geocode unicode sha256 address).toOption := by
  induction run with
  | start =>
    refine ⟨rfl, ?_⟩
    intro address outcome settled
    cases settled
  | @step trace s t event run allowed stepped ih =>
    obtain ⟨empty, settled⟩ := ih
    have added : ∀ {call : GeocodeCall}, (∀ address outcome, call = .settled address outcome →
        outcome.toOption = (geocode unicode sha256 address).toOption) →
        ∀ address outcome, .settled address outcome ∈ s.calls ++ [call] →
          outcome.toOption = (geocode unicode sha256 address).toOption := by
      intro call own address outcome member
      rcases List.mem_append.mp member with old | last
      · exact settled address outcome old
      · exact own address outcome (List.mem_singleton.mp last).symm
    cases event with
    | geocode address =>
      rw [World.step] at stepped
      split at stepped
      · rename_i e none
        cases stepped
        refine ⟨empty, added ?_⟩
        rintro _ _ ⟨⟩
        exact (keyless_refused none).symm
      · have none : InsertionMap.get s.provider.cache = fun _ => none := by
          rw [empty]
          rfl
        rw [none] at stepped
        cases stepped
        refine ⟨empty, added ?_⟩
        rintro _ _ ⟨⟩
    | answered i answer =>
      rw [World.step] at stepped
      split at stepped
      · rename_i address key waiting
        have own : answer = geocode unicode sha256 address := allowed address key waiting
        have replaced : ∀ address' outcome,
            .settled address' outcome ∈ s.calls.set i (.settled address answer) →
              outcome.toOption = (geocode unicode sha256 address').toOption := by
          intro address' outcome member
          rcases List.mem_or_eq_of_mem_set member with old | same
          · exact settled address' outcome old
          · cases same
            rw [own]
        split at stepped
        · cases stepped
          refine ⟨?_, replaced⟩
          rw [empty]
          simp [CachingGeocodingProvider.store, InsertionMap.set, InsertionMap.delete, nothing]
        · cases stepped
          exact ⟨empty, replaced⟩
      · cases stepped

/-- With room for an entry, the second of two addresses with one normalised form is given
what the first was. -/
theorem replayed (room : maxEntries.exceededBy 1 = false) (askedA : asked a) (askedB : asked b)
    (normalised : buildNormalisedAddress unicode a = .ok s)
    (same : buildNormalisedAddress unicode b = .ok s) {c : Coordinates}
    (answer : geocode unicode sha256 a = .ok c) :
    ∃ trace w, Run (staticSetting unicode sha256 asked) maxEntries trace w ∧
      .settled b (.ok c) ∈ w.calls := by
  have key : (staticSetting unicode sha256 asked).key a = .ok (sha256 s) := cacheKey_eq normalised
  have key' : (staticSetting unicode sha256 asked).key b = .ok (sha256 s) := cacheKey_eq same
  let setting := staticSetting unicode sha256 asked
  let held : CachingGeocodingProvider := { cache := [(sha256 s, c)], maxEntries }
  obtain ⟨first, missed⟩ : ∃ trace, Run setting maxEntries trace
      ⟨{ maxEntries }, [.waiting a (sha256 s)]⟩ := by
    have allowed : Allowed setting ⟨{ maxEntries }, []⟩ (.geocode a) := askedA
    refine ⟨_, .step .start allowed ?_⟩
    simp [World.step, setting, key, InsertionMap.get]
  obtain ⟨second, stored⟩ : ∃ trace, Run setting maxEntries trace ⟨held, [.settled a (.ok c)]⟩ := by
    have allowed : Allowed setting ⟨{ maxEntries }, [.waiting a (sha256 s)]⟩
        (.answered 0 (.ok c)) := by
      rintro address key ⟨⟩
      exact answer.symm
    refine ⟨_, .step missed allowed ?_⟩
    simp [World.step, CachingGeocodingProvider.store, InsertionMap.set, room, held]
  have allowed : Allowed setting ⟨held, [.settled a (.ok c)]⟩ (.geocode b) := askedB
  have hit : World.step setting ⟨held, [.settled a (.ok c)]⟩ (.geocode b) =
      some ⟨held, [.settled a (.ok c), .settled b (.ok c)]⟩ := by
    simp [World.step, setting, key', InsertionMap.get, CachingGeocodingProvider.touch,
      InsertionMap.delete, InsertionMap.set, held]
  exact ⟨_, _, .step stored allowed hit, by simp⟩

theorem Transparent.city (transparent : Transparent unicode sha256 asked maxEntries)
    (room : maxEntries.exceededBy 1 = false) (askedA : asked a) (askedB : asked b)
    (normalised : buildNormalisedAddress unicode a = .ok s)
    (same : buildNormalisedAddress unicode b = .ok s) {centre : CityCentre}
    (served : cityCentre unicode a = some centre) : cityCentre unicode a = cityCentre unicode b := by
  obtain ⟨c, answer, -⟩ := geocode_served sha256 served normalised
  obtain ⟨trace, w, run, settled⟩ := replayed room askedA askedB normalised same answer
  apply (geocode_same_iff normalised same).mp
  rw [answer]
  exact transparent trace w run b _ settled

/-- The cache cannot be noticed, whatever calls on these addresses overlap, if and only if
it keeps nothing or addresses with one normalised form are served from one city. -/
theorem transparent_iff (noCollision : NoCollision unicode sha256 asked) :
    Transparent unicode sha256 asked maxEntries ↔
      maxEntries.exceededBy 1 ∨ SameCities unicode asked := by
  constructor
  · intro transparent
    cases room : maxEntries.exceededBy 1 with
    | true => exact .inl rfl
    | false =>
      refine .inr ?_
      intro a b s askedA askedB normalised same
      cases here : cityCentre unicode a with
      | some centre =>
        rw [← here]
        exact transparent.city room askedA askedB normalised same here
      | none =>
        cases there : cityCentre unicode b with
        | none => rfl
        | some centre =>
          rw [← here, ← there]
          exact (transparent.city room askedB askedA same normalised there).symm
  · rintro (nothing | cities) trace w run address outcome settled
    · exact (run.uncached nothing).2 address outcome settled
    · obtain ⟨askedHere, explained⟩ := run.explained settled
      rcases explained with ⟨e, none, rfl⟩ | ⟨key, own, answer | ⟨b, c, askedB, same, answer, rfl⟩⟩
      · exact (keyless_refused none).symm
      · exact congrArg Except.toOption answer
      · obtain ⟨s, normalised, hash⟩ := cacheKey_ok own
        obtain ⟨t, normalised', hash'⟩ := cacheKey_ok same
        obtain rfl := noCollision address b s t askedHere askedB normalised normalised'
          (hash.trans hash'.symm)
        have city := cities address b s askedHere askedB normalised normalised'
        rw [answer]
        exact ((geocode_same_iff normalised normalised').mpr city).symm

end Spec

section Denver

/-- The methods on texts without letters beyond ASCII. -/
def ascii : Unicode where
  nfd := id
  toLowerCase s := String.ofList (s.toList.map Char.toLower)
  toUpperCase s := String.ofList (s.toList.map Char.toUpper)

/-- sha256 of the one normalised form below. -/
def denverDigest (_ : String) : Digest :=
  #v[2665358590, 1242573375, 4241938364, 378168252, 1321650751, 2263556686, 1574467114, 4128546716]

theorem ada_filled : isBlank "Ada" = false := by decide
theorem mainStreet_filled : isBlank "1 Main St" = false := by decide
theorem denver_filled : isBlank "Denver" = false := by decide
theorem us_filled : isBlank "US" = false := by decide

def denver : ShippingAddress where
  props := { recipient := "Ada", line1 := "1 Main St", city := "Denver", country := "US" }
  recipient := ada_filled
  line1 := mainStreet_filled
  city := denver_filled
  country := us_filled

/-- With a state that is a blank. -/
def denverBlank : ShippingAddress where
  props := {
    recipient := "Ada", line1 := "1 Main St", city := "Denver", state := some (some " ")
    country := "US" }
  recipient := ada_filled
  line1 := mainStreet_filled
  city := denver_filled
  country := us_filled

theorem denver_form :
    buildNormalisedAddress ascii denver = .ok "1 main st||denver|||us" := by
  rfl

theorem denverBlank_form :
    buildNormalisedAddress ascii denverBlank = .ok "1 main st||denver|||us" := by
  rfl

theorem one_form {form : String} {asked : ShippingAddress → Prop}
    (same : ∀ a, asked a → buildNormalisedAddress ascii a = .ok form) :
    NoCollision ascii denverDigest asked := by
  intro a b s t askedA askedB normalised normalised' _
  obtain rfl := Except.ok.inj ((same a askedA).symm.trans normalised)
  exact Except.ok.inj ((same b askedB).symm.trans normalised')

/-- The address is refused, and served once the other one is cached. -/
theorem denverBlank_noticed :
    NoCollision ascii denverDigest (fun a => a = denver ∨ a = denverBlank) ∧
      ¬ Transparent ascii denverDigest (fun a => a = denver ∨ a = denverBlank)
        GEOCODE_CACHE_MAX_ENTRIES := by
  constructor
  · apply one_form
    rintro a (rfl | rfl)
    · exact denver_form
    · exact denverBlank_form
  · intro transparent
    have served : cityCentre ascii denver = some ⟨39.7392, -104.9903⟩ := by decide +kernel
    have refused : cityCentre ascii denverBlank = none := by decide +kernel
    have room : GEOCODE_CACHE_MAX_ENTRIES.exceededBy 1 = false := by decide +kernel
    have city := transparent.city room (.inl rfl) (.inr rfl) denver_form denverBlank_form served
    rw [served, refused] at city
    cases city

end Denver

section Colorado

/-- sha256 of the two normalised forms below. -/
def stateDigest (form : String) : Digest :=
  if form = "1 main st||denver|co||us" then
    #v[1024537625, 2141482973, 1627428138, 1961566980, 2972685510, 205946308, 3906259492, 3127571859]
  else
    #v[2645928274, 2729589290, 322771860, 2859086641, 193362975, 2253119089, 1774869122, 218698945]

theorem boston_filled : isBlank "Boston" = false := by decide

def denverCO : ShippingAddress where
  props := {
    recipient := "Ada", line1 := "1 Main St", city := "Denver", state := some (some "CO")
    country := "US" }
  recipient := ada_filled
  line1 := mainStreet_filled
  city := denver_filled
  country := us_filled

def denverColorado : ShippingAddress where
  props := {
    recipient := "Ada", line1 := "1 Main St", city := "Denver", state := some (some "Colorado")
    country := "US" }
  recipient := ada_filled
  line1 := mainStreet_filled
  city := denver_filled
  country := us_filled

def bostonMA : ShippingAddress where
  props := {
    recipient := "Ada", line1 := "1 Main St", city := "Boston", state := some (some "MA")
    country := "US" }
  recipient := ada_filled
  line1 := mainStreet_filled
  city := boston_filled
  country := us_filled

/-- Two spellings of one address, and another address. -/
def spelled (a : ShippingAddress) : Prop := a = denverCO ∨ a = denverColorado ∨ a = bostonMA

theorem spelled_form {a : ShippingAddress} (asked : spelled a) :
    (buildNormalisedAddress ascii a = .ok "1 main st||denver|co||us" ∧
      cityCentre ascii a = some ⟨39.7392, -104.9903⟩) ∨
    (buildNormalisedAddress ascii a = .ok "1 main st||boston|ma||us" ∧
      cityCentre ascii a = some ⟨42.3601, -71.0589⟩) := by
  rcases asked with rfl | rfl | rfl
  · exact .inl ⟨rfl, by decide +kernel⟩
  · exact .inl ⟨rfl, by decide +kernel⟩
  · exact .inr ⟨rfl, by decide +kernel⟩

theorem transparent_iff_colorado :
    Transparent ascii stateDigest spelled GEOCODE_CACHE_MAX_ENTRIES := by
  have apart : stateDigest "1 main st||denver|co||us" ≠ stateDigest "1 main st||boston|ma||us" := by
    decide +kernel
  have forms : NoCollision ascii stateDigest spelled := by
    intro a b s t askedA askedB here there hash
    rcases spelled_form askedA with ⟨form, -⟩ | ⟨form, -⟩ <;>
    rcases spelled_form askedB with ⟨form', -⟩ | ⟨form', -⟩ <;>
    obtain rfl := Except.ok.inj (here.symm.trans form) <;>
    obtain rfl := Except.ok.inj (there.symm.trans form')
    · rfl
    · exact absurd hash apart
    · exact absurd hash.symm apart
    · rfl
  refine (transparent_iff forms).mpr (.inr ?_)
  intro a b s askedA askedB here there
  have same := here.trans there.symm
  rcases spelled_form askedA with ⟨form, city⟩ | ⟨form, city⟩ <;>
  rcases spelled_form askedB with ⟨form', city'⟩ | ⟨form', city'⟩
  · exact city.trans city'.symm
  · exact absurd (Except.ok.inj (form.symm.trans (same.trans form'))) (by decide)
  · exact absurd (Except.ok.inj (form.symm.trans (same.trans form'))) (by decide)
  · exact city.trans city'.symm

end Colorado

end Canals.Geocoding.Caching
