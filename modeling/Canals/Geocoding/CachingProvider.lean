import Canals.Caching.Memo
import Canals.Geocoding.StaticProvider

/-! `CachingGeocodingProvider` around a driver. What runs between two `await`s is one step:
a call up to the driver's answer, and what is done with it. -/
namespace Canals.Geocoding

/-- `maxEntries`, any number: a size exceeds neither `Infinity` nor `NaN`. -/
inductive Limit where
  | number (n : Rat)
  | unlimited

def GEOCODE_CACHE_MAX_ENTRIES : Limit := .number 10000

def Limit.exceededBy (limit : Limit) (size : Nat) : Bool :=
  match limit with
  | .number n => n < size
  | .unlimited => false

structure CachingGeocodingProvider where
  cache : InsertionMap Digest Coordinates := []
  maxEntries : Limit := GEOCODE_CACHE_MAX_ENTRIES

namespace CachingGeocodingProvider

/-- Re-inserts an existing entry so it becomes the most recently used. -/
def touch (provider : CachingGeocodingProvider) (key : Digest) (value : Coordinates) :
    CachingGeocodingProvider :=
  { provider with cache := (InsertionMap.delete provider.cache key).set key value }

/-- Inserts an entry, and deletes the first one if that is one too many. -/
def store (provider : CachingGeocodingProvider) (key : Digest) (value : Coordinates) :
    CachingGeocodingProvider :=
  let cache := InsertionMap.set provider.cache key value
  if provider.maxEntries.exceededBy cache.length then
    match cache.head? with
    | some (leastRecentlyUsedKey, _) => { provider with cache := cache.delete leastRecentlyUsedKey }
    | none => { provider with cache }
  else { provider with cache }

end CachingGeocodingProvider

def cacheKey (unicode : Unicode) (sha256 : String → Digest) (address : ShippingAddress) :
    Except GeocodeError Digest := do
  return sha256 (← buildNormalisedAddress unicode address)

namespace Caching

abbrev GeocodeCall := Memo.Call ShippingAddress Digest Coordinates GeocodeError

/-- A key function, the addresses asked for, and what the driver may answer. -/
abbrev Setting := Memo.Service ShippingAddress Digest Coordinates GeocodeError

/-- The provider and its calls, in the order in which they were made. -/
structure World where
  provider : CachingGeocodingProvider
  calls : List GeocodeCall := []

inductive Event where
  | geocode (address : ShippingAddress)
  /-- The driver resolves or rejects for call `i`. -/
  | answered (i : Nat) (answer : Except GeocodeError Coordinates)

def World.step (setting : Setting) (w : World) : Event → Option World
  | .geocode address =>
    match setting.key address with
    | .error e => some { w with calls := w.calls ++ [.settled address (.error e)] }
    | .ok key =>
      match InsertionMap.get w.provider.cache key with
      | some cached => some {
          provider := w.provider.touch key cached
          calls := w.calls ++ [.settled address (.ok cached)] }
      | none => some { w with calls := w.calls ++ [.waiting address key] }
  | .answered i answer =>
    match w.calls[i]? with
    | some (.waiting address key) =>
      match answer with
      | .ok result => some {
          provider := w.provider.store key result
          calls := w.calls.set i (.settled address (.ok result)) }
      | .error e => some { w with calls := w.calls.set i (.settled address (.error e)) }
    | _ => none

/-- The address is asked for, or the driver may answer so for the call's address. -/
def Allowed (setting : Setting) (w : World) : Event → Prop
  | .geocode address => setting.asked address
  | .answered i answer => ∀ address key, w.calls[i]? = some (.waiting address key) →
      setting.answers address answer

structure Transition where
  source : World
  event : Event
  target : World

/-- The runs, with what happened in them; calls overlap in any way. -/
inductive Run (setting : Setting) (maxEntries : Limit) : List Transition → World → Prop
  | start : Run setting maxEntries [] ⟨{ maxEntries }, []⟩
  | step {trace : List Transition} {s t : World} {event : Event} :
      Run setting maxEntries trace s → Allowed setting s event → s.step setting event = some t →
      Run setting maxEntries (trace ++ [⟨s, event, t⟩]) t

section Refinement
variable {setting : Setting} {maxEntries : Limit} {trace : List Transition} {w w' : World}

theorem mem_touch {provider : CachingGeocodingProvider} {key : Digest} {value : Coordinates}
    {e : Digest × Coordinates} (member : e ∈ (provider.touch key value).cache) :
    e = (key, value) ∨ e ∈ provider.cache :=
  (InsertionMap.mem_set member).imp_right InsertionMap.mem_delete

theorem mem_store {provider : CachingGeocodingProvider} {key : Digest} {value : Coordinates}
    {e : Digest × Coordinates} (member : e ∈ (provider.store key value).cache) :
    e = (key, value) ∨ e ∈ provider.cache := by
  rw [CachingGeocodingProvider.store] at member
  split at member
  · split at member
    · exact InsertionMap.mem_set (InsertionMap.mem_delete member)
    · exact InsertionMap.mem_set member
  · exact InsertionMap.mem_set member

/-- The entries held are known, and the calls are the same. -/
structure Simulates (s : Memo.State ShippingAddress Digest Coordinates GeocodeError) (w : World) :
    Prop where
  known : ∀ e ∈ w.provider.cache, s.known e.1 e.2
  calls : s.calls = w.calls

theorem Simulates.step {s : Memo.State ShippingAddress Digest Coordinates GeocodeError}
    (simulates : Simulates s w) {event : Event} (allowed : Allowed setting w event)
    (stepped : w.step setting event = some w') :
    ∃ s', Memo.Step setting s s' ∧ Simulates s' w' := by
  obtain ⟨known, calls⟩ := simulates
  cases event with
  | geocode address =>
    rw [World.step] at stepped
    split at stepped
    · rename_i e none
      cases stepped
      refine ⟨_, .keyless allowed none, known, ?_⟩
      rw [← calls]
    · rename_i key own
      split at stepped
      · rename_i cached found
        cases stepped
        have here := known _ (InsertionMap.mem_of_get found)
        refine ⟨_, .hit allowed own here, ?_, ?_⟩
        · intro e member
          rcases mem_touch member with rfl | old
          · exact here
          · exact known e old
        · rw [← calls]
      · cases stepped
        refine ⟨_, .miss allowed own, known, ?_⟩
        rw [← calls]
  | answered i answer =>
    rw [World.step] at stepped
    split at stepped
    · rename_i address key waiting
      have answers := allowed address key waiting
      rw [← calls] at waiting
      split at stepped
      · rename_i result
        cases stepped
        refine ⟨_, .answered waiting answers, ?_, ?_⟩
        · intro e member
          rcases mem_store member with rfl | old
          · exact .inr ⟨rfl, rfl⟩
          · exact .inl (known e old)
        · rw [← calls]
      · cases stepped
        refine ⟨_, .refused waiting answers, known, ?_⟩
        rw [← calls]
    · cases stepped

/-- Every run is one of calls that keep what they know. -/
theorem Run.simulates (run : Run setting maxEntries trace w) :
    ∃ s, Memo.Reached setting s ∧ Simulates s w := by
  induction run with
  | start =>
    refine ⟨Memo.start, .refl, ?_, rfl⟩
    intro e member
    cases member
  | step _ allowed stepped ih =>
    obtain ⟨s, reached, simulates⟩ := ih
    obtain ⟨s', step, simulates'⟩ := simulates.step allowed stepped
    exact ⟨s', reached.tail step, simulates'⟩

theorem Run.explained (run : Run setting maxEntries trace w) {address : ShippingAddress}
    {outcome : Except GeocodeError Coordinates} (settled : .settled address outcome ∈ w.calls) :
    Memo.Explained setting address outcome := by
  obtain ⟨s, reached, simulates⟩ := run.simulates
  rw [← simulates.calls] at settled
  exact reached.explained settled

end Refinement

end Caching

end Canals.Geocoding
