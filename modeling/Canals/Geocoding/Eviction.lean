import Canals.Caching.Recency
import Canals.Geocoding.Transparency

/-! Which entry the cache gives up while calls overlap. A hit moves its entry to the end, but
an answer for a key that another call has stored meanwhile leaves that entry where it is. -/
namespace Canals.Geocoding.Caching
open InsertionMap Recency

variable (setting : Setting)

namespace Transition

/-- The key whose entry is used: by a hit, or by a miss that the driver answers. -/
def use (x : Transition) : Option Digest :=
  match x.event with
  | .geocode address =>
    match setting.key address with
    | .ok key => (get x.source.provider.cache key).map fun _ => key
    | .error _ => none
  | .answered i answer =>
    match x.source.calls[i]?, answer with
    | some (.waiting _ key), .ok _ => some key
    | _, _ => none

/-- A call is rejected in this step. -/
def Rejects (x : Transition) : Prop :=
  ∃ (i : Nat) (address : ShippingAddress) (e : GeocodeError),
    x.target.calls[i]? = some (.settled address (.error e)) ∧
    x.source.calls[i]? ≠ some (.settled address (.error e))

/-- The entry was held, or is stored in this step, and is not held after it. -/
def Evicts (x : Transition) (key : Digest) : Prop :=
  (key ∈ keys x.source.provider.cache ∨ x.use setting = some key) ∧
    key ∉ keys x.target.provider.cache

/-- No answer comes for a key that is held, except for the one used last. -/
def Orderly (x : Transition) : Prop :=
  ∀ (i : Nat) (result : Coordinates) (address : ShippingAddress) (key : Digest),
    x.event = .answered i (.ok result) → x.source.calls[i]? = some (.waiting address key) →
    key ∈ keys x.source.provider.cache → (keys x.source.provider.cache).getLast? = some key

end Transition

/-- The keys used in a run, the last use last. -/
def uses (trace : List Transition) : List Digest := trace.filterMap (Transition.use setting)

/-- What is evicted was last used before everything that is still held. -/
def EvictsOldest (before : List Transition) (x : Transition) : Prop :=
  ∀ key, x.Evicts setting key → ∀ other ∈ keys x.target.provider.cache,
    age (uses setting (before ++ [x])) other < age (uses setting (before ++ [x])) key

/-- The cache is within its limit after the step, a rejection leaves it as it was, and an
eviction takes the entry whose last use is the oldest. -/
structure LeastRecentlyUsed (maxEntries : Limit) (before : List Transition) (x : Transition) :
    Prop where
  bounded : maxEntries.exceededBy x.target.provider.cache.length = false
  rejected : x.Rejects → x.target.provider = x.source.provider
  oldest : EvictsOldest setting before x

section Store
variable {provider : CachingGeocodingProvider} {key : Digest} {value : Coordinates}

theorem keys_touch : keys (provider.touch key value).cache =
    (keys provider.cache).filter (· ≠ key) ++ [key] := by
  rw [CachingGeocodingProvider.touch, keys_set_of_notMem, keys_delete]
  rw [keys_delete]
  simp

/-- Where the key is new, or the last one held, it is the last one now. -/
theorem keys_set_last (nodup : (keys provider.cache).Nodup)
    (last : key ∈ keys provider.cache → (keys provider.cache).getLast? = some key) :
    keys (set provider.cache key value) = (keys provider.cache).filter (· ≠ key) ++ [key] := by
  by_cases held : key ∈ keys provider.cache
  · rw [keys_set_of_mem held]
    obtain ⟨front, whole⟩ := List.getLast?_eq_some_iff.mp (last held)
    rw [whole] at nodup ⊢
    have absent : key ∉ front := by
      intro member
      exact (List.nodup_append.mp nodup).2.2 key member key (List.mem_singleton_self key) rfl
    rw [List.filter_append, List.filter_eq_self.mpr]
    · simp
    · intro other member
      simpa using fun same : other = key => absent (same ▸ member)
  · rw [keys_set_of_notMem held, List.filter_eq_self.mpr]
    intro other member
    simpa using fun same : other = key => held (same ▸ member)

theorem exceededBy_mono {limit : Limit} {m n : Nat} (fewer : m ≤ n)
    (within : limit.exceededBy n = false) : limit.exceededBy m = false := by
  cases limit with
  | unlimited => rfl
  | number limit =>
      have within : ¬ limit < n := by simpa [Limit.exceededBy] using within
      have fewer : (m : Rat) ≤ n := by exact_mod_cast fewer
      simpa [Limit.exceededBy] using fewer.trans (not_lt.mp within)

theorem store_cases (provider : CachingGeocodingProvider) (key : Digest) (value : Coordinates) :
    (provider.maxEntries.exceededBy (set provider.cache key value).length = false ∧
      (provider.store key value).cache = set provider.cache key value) ∨
    ∃ e rest, set provider.cache key value = e :: rest ∧
      (provider.store key value).cache = delete (e :: rest) e.1 := by
  rw [CachingGeocodingProvider.store]
  cases stored : set provider.cache key value with
  | nil => exact absurd stored set_ne_nil
  | cons e rest =>
      rw [List.head?_cons]
      dsimp only
      split
      · exact .inr ⟨e, rest, rfl, rfl⟩
      · rename_i within
        exact .inl ⟨by simpa using within, rfl⟩

theorem store_maxEntries : (provider.store key value).maxEntries = provider.maxEntries := by
  rw [CachingGeocodingProvider.store]
  split
  · split
    · rfl
    · rfl
  · rfl

theorem store_bounded (within : provider.maxEntries.exceededBy provider.cache.length = false) :
    provider.maxEntries.exceededBy (provider.store key value).cache.length = false := by
  rcases store_cases provider key value with ⟨room, stored⟩ | ⟨e, rest, whole, stored⟩
  · rwa [stored]
  · have most : (e :: rest).length ≤ provider.cache.length + 1 := whole ▸ length_set_le
    have fewer := @length_delete_head _ _ _ e rest
    rw [List.length_cons] at most
    rw [stored]
    exact exceededBy_mono (by omega) within

theorem length_touch (held : get provider.cache key = some value) :
    (provider.touch key value).cache.length ≤ provider.cache.length := by
  have here := mem_of_get held
  have smaller : (delete provider.cache key).length < provider.cache.length :=
    List.length_filter_lt_length_iff_exists.mpr ⟨_, here, by simp⟩
  have most := @length_set_le _ _ _ (delete provider.cache key) key value
  rw [CachingGeocodingProvider.touch]
  dsimp only
  omega

/-- Stored after the others, an entry takes the place of the first if there is none left. -/
theorem keys_store (nodup : (keys provider.cache).Nodup)
    (last : key ∈ keys provider.cache → (keys provider.cache).getLast? = some key) :
    keys (provider.store key value).cache = (keys provider.cache).filter (· ≠ key) ++ [key] ∨
    ∃ first rest, (keys provider.cache).filter (· ≠ key) ++ [key] = first :: rest ∧
      keys (provider.store key value).cache = rest := by
  have order := @keys_set_last provider key value nodup last
  rcases store_cases provider key value with ⟨_, stored⟩ | ⟨e, rest, whole, stored⟩
  · exact .inl (by rw [stored, order])
  · rw [whole] at order
    have fresh : e.1 ∉ keys rest := by
      have nodup' : ((keys provider.cache).filter (· ≠ key) ++ [key]).Nodup :=
        List.nodup_append.mpr ⟨nodup.filter _, List.nodup_singleton key, by simp⟩
      rw [← order] at nodup'
      exact (List.nodup_cons.mp nodup').1
    refine .inr ⟨e.1, keys rest, order.symm, ?_⟩
    rw [stored, keys_delete]
    have whole' : keys (e :: rest) = e.1 :: keys rest := rfl
    rw [whole', List.filter_cons_of_neg (by simp), List.filter_eq_self.mpr]
    intro other member
    simpa using fun same : other = e.1 => fresh (same ▸ member)

end Store

section Spec
variable {setting} {maxEntries : Limit} {before trace : List Transition} {s t w : World}
  {event : Event} {x : Transition}

theorem not_rejects {provider : CachingGeocodingProvider} {address : ShippingAddress}
    {result : Coordinates} :
    ¬ (Transition.mk s event ⟨provider, s.calls ++ [.settled address (.ok result)]⟩).Rejects := by
  rintro ⟨i, other, e, settled, before⟩
  dsimp only at settled before
  rw [List.getElem?_append] at settled
  split at settled
  · exact before settled
  · have last := List.mem_of_getElem? settled
    cases List.mem_singleton.mp last

theorem not_rejects_set {provider : CachingGeocodingProvider} {address : ShippingAddress}
    {result : Coordinates} {i : Nat} :
    ¬ (Transition.mk s event ⟨provider, s.calls.set i (.settled address (.ok result))⟩).Rejects := by
  rintro ⟨j, other, e, settled, before⟩
  dsimp only at settled before
  rw [List.getElem?_set] at settled
  split at settled
  · split at settled
    · cases settled
    · cases settled
  · exact before settled

/-- A step leaves the cache as it is, or is a hit, or stores what the driver has answered. -/
theorem step_cases (stepped : s.step setting event = some t) :
    (t.provider = s.provider ∧ (Transition.mk s event t).use setting = none) ∨
    (¬ (Transition.mk s event t).Rejects ∧ ∃ key cached,
      get s.provider.cache key = some cached ∧ (Transition.mk s event t).use setting = some key ∧
      t.provider = s.provider.touch key cached) ∨
    (¬ (Transition.mk s event t).Rejects ∧ ∃ (i : Nat) (address : ShippingAddress) (key : Digest)
      (result : Coordinates), event = .answered i (.ok result) ∧
      s.calls[i]? = some (.waiting address key) ∧
      (Transition.mk s event t).use setting = some key ∧
      t.provider = s.provider.store key result) := by
  cases event with
  | geocode address =>
      rw [World.step] at stepped
      split at stepped
      · rename_i e keyless
        cases stepped
        exact .inl ⟨rfl, by simp [Transition.use, keyless]⟩
      · rename_i key own
        split at stepped
        · rename_i cached found
          cases stepped
          exact .inr (.inl ⟨not_rejects, key, cached, found, by simp [Transition.use, own, found],
            rfl⟩)
        · rename_i absent
          cases stepped
          exact .inl ⟨rfl, by simp [Transition.use, own, absent]⟩
  | answered i answer =>
      rw [World.step] at stepped
      split at stepped
      · rename_i address key waiting
        split at stepped
        · rename_i result
          cases stepped
          exact .inr (.inr ⟨not_rejects_set, i, address, key, result, rfl, waiting,
            by simp [Transition.use, waiting], rfl⟩)
        · cases stepped
          exact .inl ⟨rfl, by simp [Transition.use, waiting]⟩
      · cases stepped

/-- In every run, the cache is within its limit. -/
theorem Run.bounded (room : maxEntries.exceededBy 1 = false)
    (run : Run setting maxEntries trace w) :
    w.provider.maxEntries = maxEntries ∧
      maxEntries.exceededBy w.provider.cache.length = false := by
  induction run with
  | start => exact ⟨rfl, exceededBy_mono (Nat.zero_le 1) room⟩
  | step _ _ stepped ih =>
      obtain ⟨same, within⟩ := ih
      rcases step_cases stepped with ⟨kept, _⟩ | ⟨_, key, cached, found, _, touched⟩ |
        ⟨_, _, _, key, result, _, _, _, stored⟩
      · rw [kept]
        exact ⟨same, within⟩
      · rw [touched]
        exact ⟨same, exceededBy_mono (length_touch found) within⟩
      · rw [stored, store_maxEntries]
        rw [← same] at within ⊢
        exact ⟨rfl, store_bounded within⟩

theorem rejected_unchanged (stepped : s.step setting event = some t)
    (rejects : (Transition.mk s event t).Rejects) : t.provider = s.provider := by
  rcases step_cases stepped with ⟨kept, _⟩ | ⟨resolves, _⟩ | ⟨resolves, _⟩
  · exact kept
  · exact absurd rejects resolves
  · exact absurd rejects resolves

theorem uses_concat (trace : List Transition) (x : Transition) :
    uses setting (trace ++ [x]) = uses setting trace ++ (x.use setting).toList := by
  rw [uses, List.filterMap_append]
  cases use : x.use setting with
  | none => simp [uses, use]
  | some key => simp [uses, use]

/-- What is evicted was there once the use was over. -/
theorem Transition.Evicts.was_held {key evicted : Digest} (use : x.use setting = some key)
    (evicts : x.Evicts setting evicted) :
    evicted ∈ (keys x.source.provider.cache).filter (· ≠ key) ++ [key] := by
  rw [List.mem_append, List.mem_singleton, List.mem_filter]
  by_cases same : evicted = key
  · exact .inr same
  · rcases evicts.1 with held | used
    · exact .inl ⟨held, by simpa using same⟩
    · exact absurd (Option.some.inj (used.symm.trans use)) same

/-- What an orderly step does to the order of the last uses, and what it evicts. -/
theorem Orderly.step (orderly : (Transition.mk s event t).Orderly)
    (order : Held (uses setting trace) (keys s.provider.cache))
    (stepped : s.step setting event = some t) :
    Held (uses setting (trace ++ [⟨s, event, t⟩])) (keys t.provider.cache) ∧
      EvictsOldest setting trace ⟨s, event, t⟩ := by
  rw [EvictsOldest, uses_concat]
  rcases step_cases stepped with ⟨kept, use⟩ | ⟨_, key, cached, found, use, touched⟩ |
    ⟨_, i, address, key, result, answered, waiting, use, stored⟩
  · rw [use, kept]
    refine ⟨by simpa using order, ?_⟩
    rintro evicted ⟨held | used, gone⟩
    · exact absurd (kept ▸ held) gone
    · cases use.symm.trans used
  · rw [use]
    constructor
    · rw [touched, keys_touch]
      exact order.use key
    · intro evicted evicts
      have held := evicts.was_held use
      have gone := evicts.2
      dsimp only at held gone
      rw [touched, keys_touch] at gone
      exact absurd held gone
  · rw [use]
    have later := order.use key
    rcases @keys_store s.provider key result order.nodup
      (orderly i result address key answered waiting) with room | ⟨first, rest, whole, full⟩
    · constructor
      · rw [stored, room]
        exact later
      · intro evicted evicts
        have held := evicts.was_held use
        have gone := evicts.2
        dsimp only at held gone
        rw [stored, room] at gone
        exact absurd held gone
    · rw [whole] at later
      constructor
      · rw [stored, full]
        exact later.tail
      · intro evicted evicts other member
        have held := evicts.was_held use
        have gone := evicts.2
        dsimp only at held gone member
        rw [whole] at held
        rw [stored, full] at gone member
        cases List.mem_cons.mp held with
        | inl same =>
            subst same
            exact later.oldest other member
        | inr kept => exact absurd kept gone

theorem Run.order (run : Run setting maxEntries trace w)
    (orderly : ∀ x ∈ trace, x.Orderly) : Held (uses setting trace) (keys w.provider.cache) := by
  induction run with
  | start => exact List.suffix_refl []
  | step _ _ stepped ih =>
      have before := ih fun x member => orderly x (List.mem_append_left _ member)
      have now := orderly _ (List.mem_append_right _ (List.mem_singleton_self _))
      exact (Orderly.step now before stepped).1

/-- The step that ends a run. -/
theorem Run.last (run : Run setting maxEntries (before ++ [x]) w) :
    Run setting maxEntries before x.source ∧ x.source.step setting x.event = some x.target ∧
      w = x.target := by
  generalize same : before ++ [x] = whole at run
  cases run with
  | start => simp at same
  | step run allowed stepped =>
      obtain ⟨rfl, last⟩ := List.append_inj' same rfl
      cases last
      exact ⟨run, stepped, rfl⟩

/-- The cache keeps the entries used last in every step of a run in which no answer comes for a
key that is held by then, unless it is the one used last. -/
theorem leastRecentlyUsed_of_orderly (room : maxEntries.exceededBy 1 = false)
    (run : Run setting maxEntries (before ++ [x]) w)
    (orderly : ∀ y ∈ before ++ [x], y.Orderly) :
    LeastRecentlyUsed setting maxEntries before x := by
  obtain ⟨earlier, stepped, rfl⟩ := run.last
  have order := earlier.order fun y member => orderly y (List.mem_append_left _ member)
  have now := orderly x (List.mem_append_right _ (List.mem_singleton_self x))
  exact {
    bounded := (run.bounded room).2
    rejected := rejected_unchanged stepped
    oldest := (Orderly.step now order stepped).2 }

end Spec

section Overlap

/-- sha256 of the normalised forms of the addresses below. -/
def cityDigest (form : String) : Digest :=
  if form = "1 main st||denver|||us" then denverDigest form
  else if form = "1 main st||austin|||us" then
    #v[3172792701, 2134232937, 2607217577, 719252936, 190450755, 4126700432, 2013385931, 2342741855]
  else
    #v[3463280198, 2081750647, 332010958, 3706354396, 3070677986, 713088078, 1319728422, 2344548450]

def austin : ShippingAddress where
  props := { recipient := "Ada", line1 := "1 Main St", city := "Austin", country := "US" }
  recipient := ada_filled
  line1 := mainStreet_filled
  city := by decide
  country := us_filled

def boston : ShippingAddress where
  props := { recipient := "Ada", line1 := "1 Main St", city := "Boston", country := "US" }
  recipient := ada_filled
  line1 := mainStreet_filled
  city := by decide
  country := us_filled

/-- A driver that may answer anything. -/
def anySetting : Setting where
  key := cacheKey ascii cityDigest
  asked _ := True
  answers _ _ := True

/-- The steps from `w` on. -/
def World.follow (setting : Setting) (w : World) : List Event → Option (List Transition × World)
  | [] => some ([], w)
  | event :: events => do
    let next ← w.step setting event
    let (trace, last) ← next.follow setting events
    some (⟨w, event, next⟩ :: trace, last)

theorem allowed_any (w : World) (event : Event) : Allowed anySetting w event := by
  cases event with
  | geocode address => exact trivial
  | answered i answer => exact fun _ _ _ => trivial

theorem Run.follow {events : List Event} {trace more : List Transition} {w w' : World}
    {maxEntries : Limit} (run : Run anySetting maxEntries trace w)
    (followed : w.follow anySetting events = some (more, w')) :
    Run anySetting maxEntries (trace ++ more) w' := by
  induction events generalizing trace more w with
  | nil =>
      cases followed
      rwa [List.append_nil]
  | cons event events ih =>
      rw [World.follow] at followed
      obtain ⟨next, stepped, followed⟩ := Option.bind_eq_some_iff.mp followed
      obtain ⟨⟨rest, last⟩, followed, same⟩ := Option.bind_eq_some_iff.mp followed
      cases same
      simpa using ih (run.step (allowed_any w event) stepped) followed

def somewhere : Coordinates where
  latitude := 39
  longitude := -100
  latitudeRange := by decide +kernel
  longitudeRange := by decide +kernel

/-- Two calls miss Denver, and the second is answered only after Austin was. -/
def overlap : List Event :=
  [.geocode denver, .geocode denver, .answered 0 (.ok somewhere), .geocode austin,
    .answered 2 (.ok somewhere), .answered 1 (.ok somewhere), .geocode boston]

/-- Boston takes the place of Denver, though Austin was used before it. -/
theorem overlap_evicts_newer : ¬ ∀ (maxEntries : Limit) (before : List Transition)
    (x : Transition) (w : World), maxEntries.exceededBy 1 = false →
    Run anySetting maxEntries (before ++ [x]) w →
    LeastRecentlyUsed anySetting maxEntries before x := by
  intro claimed
  let start : World := ⟨{ maxEntries := .number 2 }, []⟩
  let older := cityDigest "1 main st||austin|||us"
  let newer := cityDigest "1 main st||denver|||us"
  have computed : ((start.follow anySetting overlap).any fun ran =>
      (ran.2.step anySetting (.answered 3 (.ok somewhere))).any fun t =>
        let history := uses anySetting (ran.1 ++ [⟨ran.2, .answered 3 (.ok somewhere), t⟩])
        newer ∈ keys ran.2.provider.cache ∧ newer ∉ keys t.provider.cache ∧
          older ∈ keys t.provider.cache ∧ age history newer < age history older) = true := by
    decide +kernel
  rw [Option.any_eq_true] at computed
  obtain ⟨⟨before, s⟩, followed, computed⟩ := computed
  rw [Option.any_eq_true] at computed
  obtain ⟨t, stepped, computed⟩ := computed
  obtain ⟨held, gone, kept, younger⟩ := of_decide_eq_true computed
  have run := (Run.start.follow followed).step (allowed_any _ _) stepped
  have room : (Limit.number 2).exceededBy 1 = false := by decide +kernel
  have lru := claimed _ _ _ _ room run
  have older_first := lru.oldest newer ⟨.inl held, gone⟩ older kept
  rw [List.nil_append] at older_first
  exact absurd older_first (Nat.lt_asymm younger)

/-- `Orderly`, computed. -/
def Transition.orderly (x : Transition) : Bool :=
  match x.event with
  | .answered i (.ok _) =>
    match x.source.calls[i]? with
    | some (.waiting _ key) =>
      !(keys x.source.provider.cache).contains key ||
        (keys x.source.provider.cache).getLast? = some key
    | _ => true
  | _ => true

theorem Transition.orderly_spec {x : Transition} (computed : x.orderly) : x.Orderly := by
  intro i result address key answered waiting held
  rw [orderly, answered] at computed
  dsimp only at computed
  rw [waiting] at computed
  simpa [held] using computed

/-- Denver is used again before Boston comes. -/
def visits : List Event :=
  [.geocode denver, .answered 0 (.ok somewhere), .geocode austin, .answered 1 (.ok somewhere),
    .geocode denver, .geocode boston]

/-- Two stores, a hit and a third store, for which Austin goes. -/
theorem leastRecentlyUsed_of_orderly_visits : ∃ (before : List Transition) (s t : World),
    World.follow anySetting ⟨{ maxEntries := .number 2 }, []⟩ visits = some (before, s) ∧
    keys s.provider.cache =
      [cityDigest "1 main st||austin|||us", cityDigest "1 main st||denver|||us"] ∧
    keys t.provider.cache =
      [cityDigest "1 main st||denver|||us", cityDigest "1 main st||boston|||us"] ∧
    LeastRecentlyUsed anySetting (.number 2) before ⟨s, .answered 3 (.ok somewhere), t⟩ := by
  let start : World := ⟨{ maxEntries := .number 2 }, []⟩
  have computed : ((start.follow anySetting visits).any fun ran =>
      (ran.2.step anySetting (.answered 3 (.ok somewhere))).any fun t =>
        (ran.1 ++ [Transition.mk ran.2 (.answered 3 (.ok somewhere)) t]).all (·.orderly) ∧
          keys ran.2.provider.cache =
            [cityDigest "1 main st||austin|||us", cityDigest "1 main st||denver|||us"] ∧
          keys t.provider.cache =
            [cityDigest "1 main st||denver|||us", cityDigest "1 main st||boston|||us"]) = true := by
    decide +kernel
  rw [Option.any_eq_true] at computed
  obtain ⟨⟨before, s⟩, followed, computed⟩ := computed
  rw [Option.any_eq_true] at computed
  obtain ⟨t, stepped, computed⟩ := computed
  obtain ⟨orderly, held, kept⟩ := of_decide_eq_true computed
  have run := (Run.start.follow followed).step (allowed_any _ _) stepped
  have room : (Limit.number 2).exceededBy 1 = false := by decide +kernel
  refine ⟨before, s, t, followed, held, kept, leastRecentlyUsed_of_orderly room run ?_⟩
  intro y member
  exact Transition.orderly_spec (List.all_eq_true.mp orderly y member)

end Overlap

end Canals.Geocoding.Caching
