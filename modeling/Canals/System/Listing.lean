import Canals.Pagination.Scan
import Canals.System.Reads

/-! Following the cursors of `GET /orders` while orders are placed and settled. A settlement
may move its order to another place of the listing: it saves it with another `created_at`. -/
namespace Canals
open Locking
open Redelivery (Service)

/-- The requests of a client that follows `nextCursor` until it is null, whatever the tables
are that they find. -/
inductive Follows (r : Readers) (params : ListOrdersParams) :
    Option String → List Fetch → Prop where
  | last {cursor fetch} :
      ListOrdersService.execute r fetch.atPage fetch.atItems { params with cursor } =
        .ok fetch.result → fetch.result.nextCursor = none → Follows r params cursor [fetch]
  | next {cursor fetch nextCursor fetches} :
      ListOrdersService.execute r fetch.atPage fetch.atItems { params with cursor } =
        .ok fetch.result → fetch.result.nextCursor = some nextCursor →
      Follows r params (some nextCursor) fetches → Follows r params cursor (fetch :: fetches)

/-- The tables the requests find in a run, query by query. -/
inductive Seen {P Q : Type} [DecidableEq P] (service : Service Q) (catalogue : Catalogue)
    (sha256 : String → String) : Delivery P Q → List Fetch → Delivery P Q → Prop where
  | done {s u} : Relation.ReflTransGen (Delivery.Step service catalogue sha256) s u →
      Seen service catalogue sha256 s [] u
  | next {s a b u fetch fetches} :
      Relation.ReflTransGen (Delivery.Step service catalogue sha256) s a →
      fetch.atPage.Of a.processes.data →
      Relation.ReflTransGen (Delivery.Step service catalogue sha256) a b →
      fetch.atItems.Of b.processes.data → Seen service catalogue sha256 b fetches u →
      Seen service catalogue sha256 s (fetch :: fetches) u

section Follows
variable {r : Readers} {params : ListOrdersParams} {cursor : Option String}
  {key : Option (Int ×ₗ Uuid)} {fetches : List Fetch}

/-- The client's requests are a scan along the keys. -/
theorem Follows.scan (valid : params.Valid r) (follows : Follows r params cursor fetches)
    (denotes : Denotes cursor key) : ∃ pages,
      Keyset.Scan OrderEntry.key params.size key
        (fetches.map fun fetch => fetch.atPage.matching r params) pages ∧
      List.Forall₂ (Shows r params) fetches pages := by
  induction follows generalizing key with
  | @last cursor fetch ran done =>
    obtain ⟨atPage, atItems, result⟩ := fetch
    obtain rfl : result = answer r params atPage atItems key :=
      Except.ok.inj (ran.symm.trans (execute_spec valid denotes))
    rcases answer_nextCursor valid key atPage atItems with ⟨short, -⟩ | ⟨-, entry, -, more⟩
    · refine ⟨_, .last (atPage.distinct r params) short, .cons ?_ .nil⟩
      have page := shows_answer valid key atPage atItems
      rwa [List.take_of_length_le short] at page
    · cases done.symm.trans more
  | @next cursor fetch nextCursor fetches ran more rest ih =>
    obtain ⟨atPage, atItems, result⟩ := fetch
    obtain rfl : result = answer r params atPage atItems key :=
      Except.ok.inj (ran.symm.trans (execute_spec valid denotes))
    rcases answer_nextCursor valid key atPage atItems with
      ⟨-, done⟩ | ⟨longer, entry, ends, more'⟩
    · cases done.symm.trans more
    · have same := Option.some.inj (more'.symm.trans more)
      subst same
      have member := (List.mem_filter.mp (Keyset.mem_remaining.mp (Keyset.last_mem ends)).1).1
      obtain ⟨pages, scan, shown⟩ := ih (.after (atPage.stored member))
      exact ⟨_, .more (atPage.distinct r params) longer ends scan,
        .cons (shows_answer valid _ _ _) shown⟩

theorem Follows.execute (follows : Follows r params cursor fetches) {fetch : Fetch}
    (member : fetch ∈ fetches) : ∃ cursor, ListOrdersService.execute r fetch.atPage fetch.atItems
      { params with cursor } = .ok fetch.result := by
  induction follows with
  | last ran _ =>
    cases List.mem_singleton.mp member
    exact ⟨_, ran⟩
  | next ran _ _ ih =>
    rcases List.mem_cons.mp member with rfl | later
    · exact ⟨_, ran⟩
    · exact ih later

end Follows

section Seen
variable {P Q : Type} [DecidableEq P] {service : Service Q} {catalogue : Catalogue}
  {sha256 : String → String} {s u : Delivery P Q} {fetches : List Fetch}

theorem Seen.run (seen : Seen service catalogue sha256 s fetches u) :
    Relation.ReflTransGen (Delivery.Step service catalogue sha256) s u := by
  induction seen with
  | done run => exact run
  | next before _ between _ _ ih => exact before.trans (between.trans ih)

/-- Each request has its place in the run. -/
theorem Seen.states (seen : Seen service catalogue sha256 s fetches u) {fetch : Fetch}
    (member : fetch ∈ fetches) : ∃ a b : Delivery P Q,
      Relation.ReflTransGen (Delivery.Step service catalogue sha256) s a ∧
      fetch.atPage.Of a.processes.data ∧
      Relation.ReflTransGen (Delivery.Step service catalogue sha256) a b ∧
      fetch.atItems.Of b.processes.data ∧
      Relation.ReflTransGen (Delivery.Step service catalogue sha256) b u := by
  induction seen with
  | done _ => cases member
  | @next s a b u fetch fetches before page between items rest ih =>
    rcases List.mem_cons.mp member with rfl | later
    · exact ⟨a, b, before, page, between, items, rest.run⟩
    · obtain ⟨a', b', next, found⟩ := ih later
      exact ⟨a', b', before.trans (between.trans next), found⟩

/-- Of two requests the second finds what the run has come to since the first. -/
theorem Seen.pairwise (seen : Seen service catalogue sha256 s fetches u) :
    fetches.Pairwise fun first second => ∃ a b : Delivery P Q,
      Relation.ReflTransGen (Delivery.Step service catalogue sha256) s a ∧
      first.atPage.Of a.processes.data ∧
      Relation.ReflTransGen (Delivery.Step service catalogue sha256) a b ∧
      second.atPage.Of b.processes.data := by
  induction seen with
  | done _ => exact .nil
  | @next s a b u fetch fetches before page between items rest ih =>
    apply List.Pairwise.cons
    · intro second member
      obtain ⟨a', -, next, found, -⟩ := rest.states member
      exact ⟨a, a', before, page, between.trans next, found⟩
    · refine ih.imp ?_
      rintro first second ⟨a', b', next, found⟩
      exact ⟨a', b', before.trans (between.trans next), found⟩

end Seen

theorem filter_eq_singleton {α : Type} {l : List α} {holds : α → Bool} {a : α}
    (distinct : l.Nodup) (member : a ∈ l) (own : holds a) (only : ∀ b ∈ l, holds b → b = a) :
    l.filter holds = [a] := by
  have kept : a ∈ l.filter holds := List.mem_filter.mpr ⟨member, own⟩
  have same : ∀ b ∈ l.filter holds, b = a := fun b found =>
    only b (List.mem_filter.mp found).1 (List.mem_filter.mp found).2
  have single := length_le_one (distinct.filter holds) fun b found c found' =>
    (same b found).trans (same c found').symm
  obtain ⟨b, whole⟩ := List.length_eq_one_iff.mp
    (le_antisymm single (List.length_pos_of_mem kept))
  rw [whole] at kept ⊢
  rw [List.mem_singleton.mp kept]

section Stable
variable {P Q : Type} [DecidableEq P] {service : Service Q} {catalogue : Catalogue}
  {sha256 : String → String} {stock : Stock} {clock : Timestamptz} {s u : Delivery P Q}
  {r : Readers} {params : ListOrdersParams} {fetches : List Fetch} {pages : List (List OrderEntry)}

theorem Delivery.Kept.keeps (kept : Delivery.Kept catalogue sha256 stock clock s)
    {a b : Delivery P Q}
    (begun : Relation.ReflTransGen (Delivery.Step service catalogue sha256) s a)
    (next : Relation.ReflTransGen (Delivery.Step service catalogue sha256) a b) :
    Preserves a.processes.data b.processes.data :=
  (Delivery.later_of_steps (kept.steps begun) next).data

theorem OrdersTables.Of.matching {tables : OrdersTables} {d : Db} (of : tables.Of d)
    {entry : OrderEntry} (member : entry ∈ tables.matching r params) :
    d.orders.lookup entry.1 = some entry.2 := by
  rw [← of.orders]
  exact AList.mem_lookup_iff.mpr (List.mem_filter.mp member).1

/-- An order on two pages is the same on both, unless it was pending on the first. -/
theorem Seen.alike (seen : Seen service catalogue sha256 s fetches u)
    (kept : Delivery.Kept catalogue sha256 stock clock s)
    (scan : Keyset.Scan OrderEntry.key params.size none
      (fetches.map fun fetch => fetch.atPage.matching r params) pages) :
    pages.flatten.Pairwise fun a b => a.1 = b.1 → a.2.status = .PENDING_PAYMENT ∨ a = b := by
  apply scan.related
  · intro rows listed a first b second same
    obtain ⟨fetch, -, rfl⟩ := List.mem_map.mp listed
    right
    have stored := AList.mem_lookup_iff.mpr (List.mem_filter.mp first).1
    have stored' := AList.mem_lookup_iff.mpr (List.mem_filter.mp second).1
    rw [← same] at stored'
    exact Sigma.ext same (heq_of_eq (Option.some.inj (stored.symm.trans stored')))
  · refine List.pairwise_map.mpr (seen.pairwise.imp ?_)
    rintro fetch fetch' ⟨a, b, begun, of, next, of'⟩ entry first entry' second same
    obtain ⟨row, stored, becomes⟩ := (kept.keeps begun next).orders (of.matching first)
    by_cases pending : entry.2.status = .PENDING_PAYMENT
    · exact .inl pending
    · right
      have stored' := of'.matching second
      rw [← same, stored, becomes.settled pending] at stored'
      exact Sigma.ext same (heq_of_eq (Option.some.inj stored'))

theorem Seen.sound (seen : Seen service catalogue sha256 s fetches u)
    (kept : Delivery.Kept catalogue sha256 stock clock s)
    (scan : Keyset.Scan OrderEntry.key params.size none
      (fetches.map fun fetch => fetch.atPage.matching r params) pages) {entry : OrderEntry}
    (member : entry ∈ pages.flatten) : params.matches r entry ∧ ∃ row,
      u.processes.data.orders.lookup entry.1 = some row ∧ entry.2.Becomes row := by
  obtain ⟨rows, listed, inside⟩ := scan.sound entry member
  obtain ⟨fetch, asked, rfl⟩ := List.mem_map.mp listed
  obtain ⟨a, b, begun, of, next, -, rest⟩ := seen.states asked
  exact ⟨(List.mem_filter.mp inside).2,
    (kept.keeps begun (next.trans rest)).orders (of.matching inside)⟩

/-- The second query finds all the items of an order that the first one has found. -/
theorem Seen.items (seen : Seen service catalogue sha256 s fetches u)
    (kept : Delivery.Kept catalogue sha256 stock clock s)
    (follows : Follows r params none fetches) {fetch : Fetch} (asked : fetch ∈ fetches)
    {listed : ListOrdersOrder} (member : listed ∈ fetch.result.orders) :
    (listed.items.map (·.toResponseItem)).Perm
      ((u.processes.data.itemsOf listed.order.id).map (·.toResponseItem)) := by
  obtain ⟨cursor, ran⟩ := follows.execute asked
  obtain ⟨a, b, begun, of, next, ofItems, rest⟩ := seen.states asked
  obtain ⟨stored, there, -, items⟩ := listed_stored ran member
  rw [of.orders] at there
  obtain ⟨row, later, -⟩ := (kept.keeps begun next).orders there
  rw [(kept.keeps (begun.trans next) rest).items later, items]
  refine .trans (.of_eq ?_) (ofItems.items listed.order.id)
  simp only [OrdersTables.itemsOf, findItemsByOrderIds, List.mem_singleton]

/-- An order that was settled before stays as it is. -/
theorem Seen.still (seen : Seen service catalogue sha256 s fetches u)
    (kept : Delivery.Kept catalogue sha256 stock clock s) {o : Uuid} {row : OrderRow}
    (stored : s.processes.data.orders.lookup o = some row) (settled : row.status ≠ .PENDING_PAYMENT)
    {fetch : Fetch} (asked : fetch ∈ fetches) : fetch.atPage.orders.lookup o = some row := by
  obtain ⟨a, b, begun, of, -⟩ := seen.states asked
  obtain ⟨row', stored', becomes⟩ := (kept.keeps .refl begun).orders stored
  rw [of.orders, stored', becomes.settled settled]

/-- What every page's query finds is shown once. -/
theorem shown_once {o : Uuid} {row : OrderRow}
    (scan : Keyset.Scan OrderEntry.key params.size none
      (fetches.map fun fetch => fetch.atPage.matching r params) pages)
    (still : ∀ fetch ∈ fetches, fetch.atPage.orders.lookup o = some row)
    (agrees : params.matches r ⟨o, row⟩) : pages.flatten.filter (·.1 = o) = [⟨o, row⟩] := by
  refine filter_eq_singleton (scan.sorted.1.imp fun less same => ?_) ?_ (decide_eq_true rfl) ?_
  · exact less.ne (congrArg OrderEntry.key same.symm)
  · refine scan.complete (fun rows listed => ?_) rfl
    obtain ⟨fetch, asked, rfl⟩ := List.mem_map.mp listed
    exact List.mem_filter.mpr ⟨AList.mem_lookup_iff.mp (still fetch asked), agrees⟩
  · intro entry member mine
    obtain ⟨rows, listed, inside⟩ := scan.sound entry member
    obtain ⟨fetch, asked, rfl⟩ := List.mem_map.mp listed
    have same := of_decide_eq_true mine
    have there := AList.mem_lookup_iff.mpr (List.mem_filter.mp inside).1
    rw [same, still fetch asked] at there
    exact Sigma.ext same (heq_of_eq (Option.some.inj there).symm)

/-- A listing under way shows an order once, as it is, if its row stays as it is meanwhile, and
so every order that was settled before. Only an order that is still pending when it is shown
can come a second time, at another place. -/
theorem listing_stable (valid : params.Valid r)
    (run : Relation.ReflTransGen (Delivery.Step service catalogue sha256)
      (.opening service stock clock) s)
    (seen : Seen service catalogue sha256 s fetches u) (follows : Follows r params none fetches) :
    ∃ pages : List (List OrderEntry), List.Forall₂ (Shows r params) fetches pages ∧
      (∀ page ∈ pages, page.length ≤ params.size) ∧
      pages.flatten.Pairwise (fun a b =>
        b.key < a.key ∧ (a.1 = b.1 → a.2.status = .PENDING_PAYMENT)) ∧
      (∀ entry ∈ pages.flatten, params.matches r entry ∧ ∃ row,
        u.processes.data.orders.lookup entry.1 = some row ∧ entry.2.Becomes row) ∧
      (∀ fetch ∈ fetches, ∀ listed ∈ fetch.result.orders,
        (listed.items.map (·.toResponseItem)).Perm
          ((u.processes.data.itemsOf listed.order.id).map (·.toResponseItem))) ∧
      ∀ o row, (s.processes.data.orders.lookup o = some row ∧ row.status ≠ .PENDING_PAYMENT ∨
        ∀ fetch ∈ fetches, fetch.atPage.orders.lookup o = some row) →
        params.matches r ⟨o, row⟩ → pages.flatten.filter (·.1 = o) = [⟨o, row⟩] := by
  have kept : Delivery.Kept catalogue sha256 stock clock s := Delivery.Kept.opening.steps run
  obtain ⟨pages, scan, shown⟩ := follows.scan valid .first
  refine ⟨pages, shown, scan.length_le, ?_, fun entry => seen.sound kept scan,
    fun fetch asked listed => seen.items kept follows asked, ?_⟩
  · refine (scan.sorted.1.and (seen.alike kept scan)).imp ?_
    rintro a b ⟨less, alike⟩
    refine ⟨less, fun same => (alike same).resolve_right ?_⟩
    rintro rfl
    exact lt_irrefl _ less
  · rintro o row (⟨stored, settled⟩ | stays) agrees
    · exact shown_once scan (fun fetch asked => seen.still kept stored settled asked) agrees
    · exact shown_once scan stays agrees

end Stable

section Desk

/-- A page of one order. -/
def deskParams : ListOrdersParams := { pageSize := some 1 }

theorem deskParams_valid : deskParams.Valid lampReaders where
  customerId := by simp [deskParams, given]
  warehouseId := by simp [deskParams, given]
  createdAtFrom := by simp [deskParams, given]
  createdAtTo := by simp [deskParams, given]
  pageSize := by simp [deskParams]

def deskPage (tables : OrdersTables) (cursor : Option String) :
    Except ListOrdersError ListOrdersResult :=
  ListOrdersService.execute lampReaders tables tables { deskParams with cursor }

/-- The first page is asked for while both orders are pending. -/
def deskFirst : ListOrdersResult :=
  (deskPage deskBetween.toOrdersTables none).toOption.get (by decide +kernel)

theorem deskFirst_told : deskPage deskBetween.toOrdersTables none = .ok deskFirst :=
  eq_ok_of_toOption (Option.some_get _).symm

/-- The second page is asked for when the order it shows is paid. -/
def deskSecond : ListOrdersResult :=
  (deskPage deskAfter.toOrdersTables deskFirst.nextCursor).toOption.get (by decide +kernel)

theorem deskSecond_told :
    deskPage deskAfter.toOrdersTables deskFirst.nextCursor = .ok deskSecond :=
  eq_ok_of_toOption (Option.some_get _).symm

def deskFetches : List Fetch :=
  [⟨deskBetween.toOrdersTables, deskBetween.toOrdersTables, deskFirst⟩,
    ⟨deskAfter.toOrdersTables, deskAfter.toOrdersTables, deskSecond⟩]

theorem deskFetches_follow : Follows lampReaders deskParams none deskFetches := by
  have more : deskFirst.nextCursor.isSome := by decide +kernel
  obtain ⟨cursor, found⟩ := Option.isSome_iff_exists.mp more
  have second := deskSecond_told
  rw [found] at second
  have last : deskSecond.nextCursor = none := by decide +kernel
  refine .next deskFirst_told found ?_
  apply Follows.last
  · dsimp only
    exact second
  · exact last

theorem deskFetches_seen : Seen Delivery.lampService lampCatalogue lampSha256 (unfetched deskPlaced)
    deskFetches (unfetched deskSold) :=
  .next .refl deskBetween_of.toOf .refl deskBetween_of.toOf
    (.next deskSold_later deskAfter_of.toOf .refl deskAfter_of.toOf (.done .refl))

/-- The second order comes first, pending, and then the first one, confirmed since. -/
theorem listing_stable_desk :
    (deskFetches.flatMap (·.result.orders)).map
        (fun listed => (listed.order.id, listed.order.status)) =
      [(nextOrder, .PENDING_PAYMENT), (deskOrder, .CONFIRMED)] ∧
    ∃ pages : List (List OrderEntry),
      List.Forall₂ (Shows lampReaders deskParams) deskFetches pages ∧
      (∀ page ∈ pages, page.length ≤ 1) ∧
      pages.flatten.Pairwise (fun a b =>
        b.key < a.key ∧ (a.1 = b.1 → a.2.status = .PENDING_PAYMENT)) ∧
      (∀ entry ∈ pages.flatten, deskParams.matches lampReaders entry ∧ ∃ row,
        deskSold.data.orders.lookup entry.1 = some row ∧ entry.2.Becomes row) ∧
      (∀ fetch ∈ deskFetches, ∀ listed ∈ fetch.result.orders,
        (listed.items.map (·.toResponseItem)).Perm
          ((deskSold.data.itemsOf listed.order.id).map (·.toResponseItem))) ∧
      ∀ o row, (deskPlaced.data.orders.lookup o = some row ∧ row.status ≠ .PENDING_PAYMENT ∨
        ∀ fetch ∈ deskFetches, fetch.atPage.orders.lookup o = some row) →
        deskParams.matches lampReaders ⟨o, row⟩ →
        pages.flatten.filter (·.1 = o) = [⟨o, row⟩] :=
  ⟨by decide +kernel,
    listing_stable deskParams_valid deskPlaced_reached deskFetches_seen deskFetches_follow⟩

end Desk

end Canals
