import Canals.Orders.ListOrdersSpec
import Canals.Text.IsoInstant

/-! The date filters of `GET /orders` over a full walk. A bound comes through a `Date`, which
keeps its milliseconds, and is compared with a column that keeps microseconds. -/
namespace Canals
open Calendar (IsoInstant)

/-- `new Date(text)` reads an instant with fewer than six digits of the fraction, and keeps its
milliseconds. -/
structure Readers.ReadsIso (r : Readers) : Prop where
  newDate : ∀ instant : IsoInstant, instant.digits < 6 →
    r.newDate instant.text = some (Timestamptz.toDate ⟨instant.us⟩)

/-- What is left of an instant in a `Date`. -/
def keptOf (instant : IsoInstant) : Int := instant.us / 1000 * 1000

/-- The parameters with these bounds. -/
def ListOrdersParams.between (params : ListOrdersParams) (createdAtFrom createdAtTo :
    Option IsoInstant) : ListOrdersParams :=
  { params with
    createdAtFrom := createdAtFrom.map (·.text)
    createdAtTo := createdAtTo.map (·.text) }

/-- The bounds as instants. -/
def Within (createdAtFrom createdAtTo : Option IsoInstant) (entry : OrderEntry) : Bool :=
  createdAtFrom.all (fun bound => bound.us ≤ entry.2.createdAt.us) &&
    createdAtTo.all (fun bound => entry.2.createdAt.us ≤ bound.us)

/-- The orders that a client has seen. -/
def shownIds (fetches : List Fetch) : List Uuid :=
  fetches.flatMap fun fetch => fetch.result.orders.map (·.order.id)

/-- A full walk shows the orders between the bounds that agree with the other filters, and the
same ones when the bounds are written with other numbers of zeros. -/
structure DatesExact (r : Readers) (params : ListOrdersParams) (d : OrdersTables)
    (createdAtFrom createdAtTo : Option IsoInstant) : Prop where
  exact : ∀ fetches, Walks r (params.between createdAtFrom createdAtTo) d none fetches d →
    ∀ id, id ∈ shownIds fetches ↔ ∃ entry ∈ d.orders.entries, entry.1 = id ∧
      (params.between none none).matches r entry ∧ Within createdAtFrom createdAtTo entry
  zeros : ∀ createdAtFrom' createdAtTo' : Option IsoInstant,
    createdAtFrom'.map (·.us) = createdAtFrom.map (·.us) →
    createdAtTo'.map (·.us) = createdAtTo.map (·.us) →
    ∀ fetches fetches', Walks r (params.between createdAtFrom createdAtTo) d none fetches d →
      Walks r (params.between createdAtFrom' createdAtTo') d none fetches' d →
      ∀ id, id ∈ shownIds fetches ↔ id ∈ shownIds fetches'

/-- Created before `createdAtFrom`, in what a `Date` cuts from it. -/
def Gained (createdAtFrom createdAtTo : Option IsoInstant) (entry : OrderEntry) : Bool :=
  createdAtFrom.any (fun bound =>
    keptOf bound ≤ entry.2.createdAt.us && entry.2.createdAt.us < bound.us) &&
  createdAtTo.all (fun bound => entry.2.createdAt.us ≤ keptOf bound)

/-- Created by `createdAtTo`, in what a `Date` cuts from it. -/
def Missed (createdAtFrom createdAtTo : Option IsoInstant) (entry : OrderEntry) : Bool :=
  createdAtTo.any (fun bound =>
    keptOf bound < entry.2.createdAt.us && entry.2.createdAt.us ≤ bound.us) &&
  createdAtFrom.all (fun bound => bound.us ≤ entry.2.createdAt.us)

section Spec
variable {r : Readers} {params : ListOrdersParams} {d : OrdersTables}
  {createdAtFrom createdAtTo : Option IsoInstant} {fetches : List Fetch} {entry : OrderEntry}

theorem keptOf_le (instant : IsoInstant) : keptOf instant ≤ instant.us := by
  rw [keptOf]
  omega

theorem Readers.ReadsIso.parseDate (reads : r.ReadsIso) (instant : IsoInstant) :
    r.parseDate instant.text = some (Timestamptz.toDate ⟨instant.us⟩) := by
  have years := instant.years
  rw [Readers.parseDate]
  by_cases cut : instant.digits < 6
  · have unread : Calendar.ofText instant.text.toList = none := by
      rw [IsoInstant.text, String.toList_ofList, instant.ofText_shorten cut]
    rw [unread]
    exact reads.newDate instant cut
  · have all : instant.digits = 6 := Nat.le_antisymm instant.digits_le (not_lt.mp cut)
    have read : Calendar.ofText instant.text.toList = some instant.us := by
      obtain ⟨front, n, _, split, short⟩ := instant.shorten_text
      rw [IsoInstant.text, String.toList_ofList, short, all, if_neg (by decide)]
      rw [all, Nat.sub_self, List.replicate_zero, List.append_nil] at split
      rw [← split]
      exact Calendar.ofText_text (by omega) years.2
    rw [read]

theorem given_text (bound : Option IsoInstant) :
    given (bound.map (·.text)) = bound.map (·.text) := by
  cases bound with
  | none => rfl
  | some instant =>
      refine Option.filter_eq_some_iff.mpr ⟨rfl, decide_eq_true ?_⟩
      intro empty
      have nothing : instant.text.toList = [] := congrArg String.toList empty
      rw [IsoInstant.text, String.toList_ofList, Calendar.shorten] at nothing
      simp at nothing

theorem Readers.ReadsIso.valid (reads : r.ReadsIso) (valid : (params.between none none).Valid r) :
    (params.between createdAtFrom createdAtTo).Valid r where
  customerId := valid.customerId
  warehouseId := valid.warehouseId
  createdAtFrom := by
    intro text set
    rw [ListOrdersParams.between, given_text] at set
    obtain ⟨instant, _, rfl⟩ := Option.mem_map.mp set
    rw [reads.parseDate]
    rfl
  createdAtTo := by
    intro text set
    rw [ListOrdersParams.between, given_text] at set
    obtain ⟨instant, _, rfl⟩ := Option.mem_map.mp set
    rw [reads.parseDate]
    rfl
  pageSize := valid.pageSize

/-- The rows that a query with these bounds selects. -/
theorem matches_between (reads : r.ReadsIso) :
    (params.between createdAtFrom createdAtTo).matches r entry ↔
      (params.between none none).matches r entry ∧
      (∀ bound ∈ createdAtFrom, keptOf bound ≤ entry.2.createdAt.us) ∧
      ∀ bound ∈ createdAtTo, entry.2.createdAt.us ≤ keptOf bound := by
  have lower : (given (createdAtFrom.map (·.text))).all (fun text => (r.parseDate text).any
      fun date => date.toTimestamptz.us ≤ entry.2.createdAt.us) =
      createdAtFrom.all fun bound => keptOf bound ≤ entry.2.createdAt.us := by
    rw [given_text]
    cases createdAtFrom with
    | none => rfl
    | some bound =>
        rw [Option.map_some, Option.all_some, Option.all_some, reads.parseDate, Option.any_some]
        rfl
  have upper : (given (createdAtTo.map (·.text))).all (fun text => (r.parseDate text).any
      fun date => entry.2.createdAt.us ≤ date.toTimestamptz.us) =
      createdAtTo.all fun bound => entry.2.createdAt.us ≤ keptOf bound := by
    rw [given_text]
    cases createdAtTo with
    | none => rfl
    | some bound =>
        rw [Option.map_some, Option.all_some, Option.all_some, reads.parseDate, Option.any_some]
        rfl
  simp only [ListOrdersParams.matches, ListOrdersParams.between, lower, upper, Bool.and_eq_true,
    Option.all_eq_true, decide_eq_true_eq]
  constructor
  · rintro ⟨⟨others, first⟩, last⟩
    exact ⟨⟨⟨others, fun bound unset => by cases unset⟩, fun bound unset => by cases unset⟩,
      first, last⟩
  · rintro ⟨⟨⟨others, _⟩, _⟩, first, last⟩
    exact ⟨⟨others, first⟩, last⟩

theorem shownIds_eq {pages : List (List OrderEntry)}
    (shown : List.Forall₂ (Shows r params) fetches pages) :
    shownIds fetches = pages.flatten.map (·.1) := by
  induction shown with
  | nil => rfl
  | cons first _ ih =>
      rw [shownIds, List.flatMap_cons, ← shownIds, ih, first.orders, List.flatten_cons,
        List.map_append, List.map_map]
      rfl

/-- A full walk over tables that do not change shows the orders that match. -/
theorem shown_iff (valid : params.Valid r) (walk : Walks r params d none fetches d) (id : Uuid) :
    id ∈ shownIds fetches ↔
      ∃ entry ∈ d.orders.entries, entry.1 = id ∧ params.matches r entry := by
  obtain ⟨pages, after, included, keyset, shown⟩ := walk.keyset valid .first
  rw [shownIds_eq shown, List.mem_map]
  constructor
  · rintro ⟨entry, member, rfl⟩
    obtain ⟨there, agrees⟩ := List.mem_filter.mp (included (keyset.sound entry member))
    exact ⟨entry, there, rfl, agrees⟩
  · rintro ⟨entry, there, rfl, agrees⟩
    exact ⟨entry, keyset.complete (List.mem_filter.mpr ⟨there, agrees⟩) rfl, rfl⟩

/-- The two selections differ in what is gained or lost. -/
theorem kept_iff_within (entry : OrderEntry) :
    (((∀ bound ∈ createdAtFrom, keptOf bound ≤ entry.2.createdAt.us) ∧
      ∀ bound ∈ createdAtTo, entry.2.createdAt.us ≤ keptOf bound) ↔
        Within createdAtFrom createdAtTo entry) ↔
    ¬ Gained createdAtFrom createdAtTo entry ∧ ¬ Missed createdAtFrom createdAtTo entry := by
  rw [Within, Gained, Missed]
  generalize entry.2.createdAt.us = us
  cases createdAtFrom with
  | none =>
      cases createdAtTo with
      | none => simp
      | some last =>
          have cut := keptOf_le last
          simp
          omega
  | some first =>
      have cut := keptOf_le first
      cases createdAtTo with
      | none =>
          simp
          omega
      | some last =>
          have cut' := keptOf_le last
          simp
          omega

theorem kept_congr {bound bound' : Option IsoInstant}
    (same : bound'.map (·.us) = bound.map (·.us)) (p : Int → Prop) :
    (∀ b ∈ bound', p (keptOf b)) ↔ ∀ b ∈ bound, p (keptOf b) := by
  cases bound with
  | none =>
      cases bound' with
      | none => exact Iff.rfl
      | some other => cases same
  | some instant =>
      cases bound' with
      | none => cases same
      | some other =>
          have equal : other.us = instant.us := Option.some.inj same
          simp [keptOf, equal]

theorem entry_eq_of_id {other : OrderEntry} (there : entry ∈ d.orders.entries)
    (there' : other ∈ d.orders.entries) (same : other.1 = entry.1) : other = entry := by
  obtain ⟨id, row⟩ := entry
  obtain ⟨id', row'⟩ := other
  obtain rfl : id' = id := same
  have found := AList.mem_lookup_iff.mpr there
  have found' := AList.mem_lookup_iff.mpr there'
  rw [Option.mem_def] at found found'
  rw [Option.some.inj (found'.symm.trans found)]

/-- The filters are exact where no order that agrees with the others was created in the part of
a millisecond that a bound loses. -/
theorem datesExact_iff (reads : r.ReadsIso) (valid : (params.between none none).Valid r) :
    DatesExact r params d createdAtFrom createdAtTo ↔
      ∀ entry ∈ d.orders.entries, (params.between none none).matches r entry →
        ¬ Gained createdAtFrom createdAtTo entry ∧ ¬ Missed createdAtFrom createdAtTo entry := by
  have shown : ∀ {createdAtFrom createdAtTo : Option IsoInstant} {fetches : List Fetch},
      Walks r (params.between createdAtFrom createdAtTo) d none fetches d → ∀ id,
      id ∈ shownIds fetches ↔ ∃ entry ∈ d.orders.entries, entry.1 = id ∧
        (params.between none none).matches r entry ∧
        (∀ bound ∈ createdAtFrom, keptOf bound ≤ entry.2.createdAt.us) ∧
        ∀ bound ∈ createdAtTo, entry.2.createdAt.us ≤ keptOf bound := by
    intro createdAtFrom createdAtTo fetches walk id
    rw [shown_iff (reads.valid valid) walk id]
    apply exists_congr
    intro entry
    rw [matches_between reads]
  constructor
  · intro dates entry there others
    obtain ⟨fetches, walk⟩ := walks_of_unchanged
      (reads.valid valid : (params.between createdAtFrom createdAtTo).Valid r) d
    rw [← kept_iff_within]
    have same := (shown walk entry.1).symm.trans (dates.exact fetches walk entry.1)
    constructor
    · intro kept
      obtain ⟨other, there', id, _, within⟩ := same.mp ⟨entry, there, rfl, others, kept⟩
      rwa [entry_eq_of_id there there' id] at within
    · intro within
      obtain ⟨other, there', id, _, kept⟩ := same.mpr ⟨entry, there, rfl, others, within⟩
      rwa [entry_eq_of_id there there' id] at kept
  · intro clear
    constructor
    · intro fetches walk id
      rw [shown walk id]
      constructor
      · rintro ⟨entry, there, rfl, others, kept⟩
        have within := (kept_iff_within entry).mpr (clear entry there others)
        exact ⟨entry, there, rfl, others, within.mp kept⟩
      · rintro ⟨entry, there, rfl, others, inside⟩
        have within := (kept_iff_within entry).mpr (clear entry there others)
        exact ⟨entry, there, rfl, others, within.mpr inside⟩
    · intro createdAtFrom' createdAtTo' sameFrom sameTo fetches fetches' walk walk' id
      rw [shown walk id, shown walk' id]
      apply exists_congr
      intro entry
      rw [kept_congr sameFrom fun us => us ≤ entry.2.createdAt.us,
        kept_congr sameTo fun us => entry.2.createdAt.us ≤ us]

end Spec

section Lamp

/-- A `Date` parser for texts with up to six digits of the fraction. -/
def isoReaders : Readers where
  fromBase64 _ := []
  toString _ := "\uFFFD"
  newDate text := (Calendar.ofText (Calendar.lengthen text.toList)).map
    fun us => Timestamptz.toDate ⟨us⟩
  timestamptz _ := .error INVALID_DATETIME_FORMAT
  uuid _ := none

theorem isoReaders_readsIso : isoReaders.ReadsIso where
  newDate := by
    intro instant _
    have years := instant.years
    rw [isoReaders, IsoInstant.text]
    dsimp only
    rw [String.toList_ofList, instant.lengthen_shorten, Calendar.ofText_text (by omega) years.2]
    rfl

theorem unfiltered_valid : (({} : ListOrdersParams).between none none).Valid isoReaders where
  customerId := by rintro _ ⟨⟩
  warehouseId := by rintro _ ⟨⟩
  createdAtFrom := by rintro _ ⟨⟩
  createdAtTo := by rintro _ ⟨⟩
  pageSize := by rintro _ ⟨⟩

/-- The microsecond of the last two orders. -/
def lampBound : IsoInstant where
  us := 1769212925132168
  digits := 6
  digits_le := by decide
  whole := by decide
  years := by decide +kernel

/-- A millisecond after all of them. -/
def lampMillisecond : IsoInstant where
  us := 1769212925133000
  digits := 3
  digits_le := by decide
  whole := by decide
  years := by decide +kernel

/-- Up to the microsecond of an order, but without it. -/
theorem lampBound_loses : isoReaders.ReadsIso ∧
    (({} : ListOrdersParams).between none none).Valid isoReaders ∧
    ¬ DatesExact isoReaders {} lampTables none (some lampBound) := by
  refine ⟨isoReaders_readsIso, unfiltered_valid, ?_⟩
  intro dates
  have valid : (({} : ListOrdersParams).between none (some lampBound)).Valid isoReaders :=
    isoReaders_readsIso.valid unfiltered_valid
  obtain ⟨fetches, walk⟩ := walks_of_unchanged valid lampTables
  have there : lampTables.orders.entries.any (fun entry => Within none (some lampBound) entry) := by
    decide +kernel
  have late : lampTables.orders.entries.all (fun entry =>
      keptOf lampBound < entry.2.createdAt.us) := by
    decide +kernel
  obtain ⟨entry, member, within⟩ := List.any_eq_true.mp there
  have seen := (dates.exact fetches walk entry.1).mpr ⟨entry, member, rfl, rfl, within⟩
  obtain ⟨other, member', _, agrees⟩ := (shown_iff valid walk entry.1).mp seen
  have kept := ((matches_between isoReaders_readsIso).mp agrees).2.2 lampBound rfl
  exact absurd kept (not_le.mpr (of_decide_eq_true (List.all_eq_true.mp late other member')))

theorem datesExact_iff_lamp :
    DatesExact isoReaders {} lampTables none (some lampMillisecond) := by
  apply (datesExact_iff isoReaders_readsIso unfiltered_valid).mpr
  have clear : lampTables.orders.entries.all (fun entry =>
      !Gained none (some lampMillisecond) entry && !Missed none (some lampMillisecond) entry) := by
    decide +kernel
  intro entry member _
  simpa using List.all_eq_true.mp clear entry member

end Lamp

end Canals
