import Canals.Orders.Cursors
import Canals.Orders.GetOrder
import Canals.System.Delivery
import Canals.System.SchemaIntegrity

/-! What the reads show while orders go on. The queries of one `GET /orders/:id` run in
parallel, each on the tables as they are by then, so a response can be torn; what it
shows is never taken back. -/
namespace Canals
open Locking
open Redelivery (Service)

/-- The tables a listing finds. Without `ORDER BY` the items come in any order. -/
structure OrdersTables.Of (tables : OrdersTables) (d : Db) : Prop where
  orders : tables.orders = d.orders
  orderItems : (tables.orderItems.map (·.toOrderItemRow)).Perm d.orderItems

/-- The tables the reads find in a state; the warehouses stay what they are. -/
structure ReadTables.Of {P Q Geography : Type} (tables : ReadTables Geography)
    (s : Delivery P Q) (warehouses : AList fun _ : Uuid => WarehouseRow Geography) : Prop extends
    OrdersTables.Of tables.toOrdersTables s.processes.data where
  payments : tables.payments = s.processes.data.payments
  shipments : tables.shipments = s.shipments
  warehouses : tables.warehouses = warehouses

namespace Delivery
variable {P Q : Type} [DecidableEq P] {service : Service Q} {catalogue : Catalogue}
  {sha256 : String → String} {stock : Stock} {clock : Timestamptz} {s t u : Delivery P Q}

/-- What a later state keeps of what the reads show. -/
structure Later (s t : Delivery P Q) : Prop where
  data : Preserves s.processes.data t.processes.data
  shipments : s.shipments <+: t.shipments

omit [DecidableEq P] in
theorem Later.refl : s.Later s := ⟨.refl _, List.prefix_rfl⟩

omit [DecidableEq P] in
theorem Later.trans (first : s.Later t) (second : t.Later u) : s.Later u :=
  ⟨first.data.trans second.data, first.shipments.trans second.shipments⟩

theorem Step.later (step : Step service catalogue sha256 s t)
    (kept : Kept catalogue sha256 stock clock s) : s.Later t := by
  cases step with
  | @process u next =>
    refine ⟨?_, List.prefix_rfl⟩
    rcases kept.reachable.step next with same | does
    · have data : u.data = s.processes.data := congrArg Committed.data same
      show Preserves s.processes.data u.data
      rw [data]
      exact .refl _
    · exact preserves_step does kept.reachable.owned
  | run split found runs =>
    refine ⟨.refl _, ?_⟩
    cases runs with
    | insert inserting ran =>
      obtain ⟨w, -, ⟨rfl, -⟩ | ⟨row, rfl, -⟩⟩ := ShipmentInsert.exec_eq ran
      · exact List.prefix_rfl
      · exact List.prefix_append _ _
    | _ => exact List.prefix_rfl
  | _ => exact ⟨.refl _, List.prefix_rfl⟩

theorem later_of_steps (kept : Kept catalogue sha256 stock clock s)
    (run : Relation.ReflTransGen (Step service catalogue sha256) s t) : s.Later t := by
  induction run with
  | refl => exact .refl
  | tail before step ih => exact ih.trans (step.later (kept.steps before))

end Delivery

section Queries
variable {P Q Geography : Type} {gis : PostGis Geography Rat} {s t : Delivery P Q}
  {tables later : ReadTables Geography} {warehouses : AList fun _ : Uuid => WarehouseRow Geography}
  {o : Uuid} {A₀ : Uuid × Uuid → Int}

/-- The order as a later read shows it. -/
theorem findOrderById_later (before : tables.Of s warehouses) (after : later.Of t warehouses)
    (grows : s.Later t) {order : OrderDetailRow}
    (found : findOrderById gis tables o = some order) :
    ∃ order', findOrderById gis later o = some order' ∧
      order' = { order with status := order'.status, createdAt := order'.createdAt } ∧
      (order.status = .PENDING_PAYMENT ∨ order' = order) := by
  obtain ⟨row, stored, rfl⟩ := Option.map_eq_some_iff.mp found
  rw [before.orders] at stored
  obtain ⟨row', stored', becomes⟩ := grows.data.orders stored
  have read : findOrderById gis later o = some _ :=
    Option.map_eq_some_iff.mpr ⟨row', after.orders ▸ stored', rfl⟩
  refine ⟨_, read, ?_, ?_⟩
  · rw [after.warehouses, before.warehouses, becomes.columns]
  · by_cases pending : row.status = .PENDING_PAYMENT
    · exact .inl pending
    · rw [after.warehouses, before.warehouses, becomes.settled pending]
      exact .inr rfl

theorem OrdersTables.Of.items {tables : OrdersTables} {d : Db} (of : tables.Of d) (o : Uuid) :
    ((findItemsByOrderIds tables [o]).map (·.toResponseItem)).Perm
      ((d.itemsOf o).map (·.toResponseItem)) := by
  have listed : (findItemsByOrderIds tables [o]).map (·.toResponseItem) =
      ((tables.orderItems.map (·.toOrderItemRow)).filter (·.orderId = o)).map
        (·.toResponseItem) := by
    rw [findItemsByOrderIds, List.filter_map, List.map_map, List.map_map]
    congr 1
    refine List.filter_congr fun item _ => ?_
    simp
  rw [listed]
  exact (of.orderItems.filter _).map _

/-- The items are all there or, while there is no order, none of them is. -/
theorem findItems_later (before : tables.Of s warehouses) (after : later.Of t warehouses)
    (grows : s.Later t) (books : Consistent A₀ s.processes.data) :
    ((findItemsByOrderIds tables.toOrdersTables [o]).map (·.toResponseItem)).Perm
        ((findItemsByOrderIds later.toOrdersTables [o]).map (·.toResponseItem)) ∨
      (findItemsByOrderIds tables.toOrdersTables [o]).map (·.toResponseItem) = [] := by
  cases stored : s.processes.data.orders.lookup o with
  | some row =>
    have same := after.items o
    rw [grows.data.items stored] at same
    exact .inl ((before.items o).trans same.symm)
  | none =>
    have nothing : s.processes.data.itemsOf o = [] := by
      refine List.filter_eq_nil_iff.mpr fun item member mine => ?_
      have owned := books.itemsOwned item member
      rw [of_decide_eq_true mine, stored] at owned
      cases owned
    have listed := before.items o
    rw [nothing, List.map_nil] at listed
    exact .inr listed.eq_nil

theorem mem_findPayments {payment : PaymentAttemptRow} :
    payment ∈ findPaymentsByOrderId tables o ↔ ∃ i row, tables.payments.lookup i = some row ∧
      row.orderId = o ∧ row.toAttemptRow = payment := by
  rw [findPaymentsByOrderId, List.mem_insertionSort, List.mem_map]
  constructor
  · rintro ⟨row, member, rfl⟩
    obtain ⟨listed, mine⟩ := List.mem_filter.mp member
    obtain ⟨entry, there, rfl⟩ := List.mem_map.mp listed
    exact ⟨entry.1, entry.2, AList.mem_lookup_iff.mpr there, of_decide_eq_true mine, rfl⟩
  · rintro ⟨i, row, found, mine, rfl⟩
    exact ⟨row, List.mem_filter.mpr ⟨List.mem_map.mpr
      ⟨⟨i, row⟩, AList.mem_lookup_iff.mp found, rfl⟩, decide_eq_true mine⟩, rfl⟩

theorem eq_ok_of_toOption {ε α : Type} {result : Except ε α} {a : α}
    (some : result.toOption = .some a) : result = .ok a := by
  cases result with
  | error e => cases some
  | ok b =>
    cases some
    rfl

theorem length_le_one {α : Type} {l : List α} (distinct : l.Nodup)
    (single : ∀ a ∈ l, ∀ b ∈ l, a = b) : l.length ≤ 1 := by
  cases l with
  | nil => exact Nat.zero_le 1
  | cons a rest =>
    cases rest with
    | nil => exact Nat.le_refl 1
    | cons b rest =>
      obtain rfl := single a (by simp) b (by simp)
      exact absurd (List.mem_cons_self (a := a)) (List.nodup_cons.mp distinct).1

/-- A read finds one attempt at most, the first. -/
theorem findPayments_le_one (of : tables.Of s warehouses) (billed : s.processes.data.Billed) :
    (findPaymentsByOrderId tables o).length ≤ 1 ∧
      ∀ payment ∈ findPaymentsByOrderId tables o, payment.attempt = FIRST_PAYMENT_ATTEMPT := by
  constructor
  · rw [findPaymentsByOrderId, List.length_insertionSort, List.length_map, List.filter_map,
      List.length_map]
    refine length_le_one (tables.payments.nodupKeys.nodup.filter _) ?_
    rintro ⟨i, row⟩ member ⟨j, other⟩ member'
    simp only [List.mem_filter, Function.comp_apply, decide_eq_true_eq] at member member'
    have found := AList.mem_lookup_iff.mpr member.1
    have found' := AList.mem_lookup_iff.mpr member'.1
    rw [of.payments] at found found'
    obtain rfl : i = j :=
      (billed (member.2 ▸ Db.bill_eq found)).2.2 (member'.2 ▸ Db.bill_eq found')
    cases found.symm.trans found'
    rfl
  · intro payment member
    obtain ⟨i, row, found, rfl, rfl⟩ := mem_findPayments.mp member
    rw [of.payments] at found
    exact (billed (Db.bill_eq found)).1

theorem findPayments_later (before : tables.Of s warehouses) (after : later.Of t warehouses)
    (grows : s.Later t) (billed : s.processes.data.Billed) :
    (findPaymentsByOrderId tables o).length ≤ (findPaymentsByOrderId later o).length := by
  cases shown : findPaymentsByOrderId tables o with
  | nil => exact Nat.zero_le _
  | cons payment rest =>
    obtain ⟨i, row, found, mine, -⟩ :=
      mem_findPayments.mp (shown ▸ List.mem_cons_self (a := payment) (l := rest))
    rw [before.payments] at found
    obtain ⟨row', found', same, -⟩ := grows.data.payments found
    have member : row'.toAttemptRow ∈ findPaymentsByOrderId later o :=
      mem_findPayments.mpr ⟨i, row', after.payments ▸ found', same.trans mine, rfl⟩
    have few := (findPayments_le_one (o := o) before billed).1
    rw [shown] at few
    exact few.trans (List.length_pos_of_mem member)

theorem findShipment_later (before : tables.Of s warehouses) (after : later.Of t warehouses)
    (grows : s.Later t) {shipment : ShipmentReadRow}
    (found : findShipmentByOrderId tables o = some shipment) :
    findShipmentByOrderId later o = some shipment := by
  obtain ⟨row, first, rfl⟩ := Option.map_eq_some_iff.mp found
  obtain ⟨more, same⟩ := grows.shipments
  rw [before.shipments] at first
  rw [findShipmentByOrderId, after.shipments, ← same, List.find?_append, first]
  rfl

end Queries

section Ids
variable {text : String}

/-- Where `@IsUUID('loose')` wants a hyphen. -/
def hyphenAt (i : Nat) : Prop := i = 8 ∨ i = 13 ∨ i = 18 ∨ i = 23

instance : DecidablePred hyphenAt := fun _ => instDecidableOr

/-- What is stored as a `uuid` passes for one in a path. -/
theorem isUuid_loose (uuid : isUuid text) : isUUIDLoose (some (.str text)) := by
  obtain ⟨first, second, third, fourth, last, whole, lengths, letters⟩ := isUuid_groups uuid
  have digits : ∀ part ∈ [first, second, third, fourth, last], ∀ c ∈ part, isHexDigit c := by
    intro part member c inside
    rw [isHexDigit, letters part member c inside, Bool.true_or]
  have part : ∀ {chars : List Char} (k : Nat), (∀ c ∈ chars, isHexDigit c) →
      (∀ i, k ≤ i → i < k + chars.length → ¬ hyphenAt i) → (chars.zipIdx k).all fun entry =>
        if hyphenAt entry.2 then entry.1 = '-' else isHexDigit entry.1 := by
    intro chars k hex apart
    rw [List.all_eq_true]
    rintro ⟨c, i⟩ member
    obtain ⟨from_, below, same⟩ := List.mem_zipIdx member
    dsimp only
    rw [if_neg (apart i from_ below), same]
    exact hex _ (List.getElem_mem _)
  have sizes : first.length = 8 ∧ second.length = 4 ∧ third.length = 4 ∧ fourth.length = 4 ∧
      last.length = 12 := by simpa using lengths
  obtain ⟨eight, four, four', four'', twelve⟩ := sizes
  have plain : ∀ {k n i}, (k = 0 ∧ n = 8 ∨ k ∈ [9, 14, 19] ∧ n = 4 ∨ k = 24 ∧ n = 12) →
      k ≤ i → i < k + n → ¬ hyphenAt i := by
    intro k n i known from_ below
    simp only [List.mem_cons, List.not_mem_nil, or_false] at known
    unfold hyphenAt
    omega
  rw [isUUIDLoose, Bool.and_eq_true, decide_eq_true_eq]
  refine ⟨by simp [whole, eight, four, four', four'', twelve], ?_⟩
  show text.toList.zipIdx.all fun entry =>
    if hyphenAt entry.2 then entry.1 = '-' else isHexDigit entry.1
  rw [whole]
  simp only [List.zipIdx_append, List.zipIdx_cons, List.all_append, List.all_cons,
    eight, four, four', four'', Bool.and_eq_true]
  refine ⟨part _ (digits _ (by simp)) fun i from_ below => plain (.inl ⟨rfl, eight⟩) from_ below,
    rfl, part _ (digits _ (by simp)) fun i from_ below =>
      plain (.inr (.inl ⟨by simp, four⟩)) from_ below, rfl,
    part _ (digits _ (by simp)) fun i from_ below =>
      plain (.inr (.inl ⟨by simp, four'⟩)) from_ below, rfl,
    part _ (digits _ (by simp)) fun i from_ below =>
      plain (.inr (.inl ⟨by simp, four''⟩)) from_ below, rfl,
    part _ (digits _ (by simp)) fun i from_ below =>
      plain (.inr (.inr ⟨rfl, twelve⟩)) from_ below⟩

end Ids

section Listing
variable {r : Readers} {atPage atItems : OrdersTables} {params : ListOrdersParams}
  {listing : ListOrdersResult}

theorem findPage_stored {filters : OrdersPageFilters} {rows : List OrderPageRow}
    (page : findPage r atPage filters = .ok rows) {row : OrderPageRow} (member : row ∈ rows) :
    ∃ stored, atPage.orders.lookup row.id = some stored ∧
      row = OrderEntry.toPageRow ⟨row.id, stored⟩ := by
  obtain ⟨conditions, -, page⟩ := bind_eq_ok page
  obtain ⟨cursor, -, page⟩ := bind_eq_ok page
  cases page
  obtain ⟨entry, taken, rfl⟩ := List.mem_map.mp member
  have listed := List.mem_of_mem_take taken
  rw [List.mem_insertionSort] at listed
  exact ⟨entry.2, AList.mem_lookup_iff.mpr (List.mem_filter.mp listed).1, rfl⟩

/-- A listed order is stored, and its items are those the second query finds. -/
theorem listed_stored (told : ListOrdersService.execute r atPage atItems params = .ok listing)
    {listed : ListOrdersOrder} (member : listed ∈ listing.orders) :
    ∃ stored, atPage.orders.lookup listed.order.id = some stored ∧
      listed.order = OrderEntry.toPageRow ⟨listed.order.id, stored⟩ ∧
      listed.items = atItems.itemsOf listed.order.id := by
  obtain ⟨cursor, -, told⟩ := bind_eq_ok told
  obtain ⟨rows, page, told⟩ := bind_eq_ok told
  cases told
  obtain ⟨row, shown, rfl⟩ := List.mem_map.mp member
  have inside : row ∈ rows := by
    split at shown
    · exact List.mem_of_mem_take shown
    · exact shown
  obtain ⟨stored, found, same⟩ := findPage_stored page inside
  exact ⟨stored, found, same, (groupItems_lookup _).trans
    (findItemsByOrderIds_filter (List.mem_map_of_mem shown))⟩

end Listing

section Requests
variable {P Q Geography : Type} [DecidableEq P] {r : Readers} {gis : PostGis Geography Rat}
  {warehouses : AList fun _ : Uuid => WarehouseRow Geography} {service : Service Q}
  {catalogue : Catalogue} {sha256 : String → String} {stock : Stock} {clock : Timestamptz}
  {s t u : Delivery P Q} {first second : Snapshots Geography} {id : String} {o : Uuid}

/-- A query runs in between two states of a run. -/
def During (service : Service Q) (catalogue : Catalogue) (sha256 : String → String)
    (warehouses : AList fun _ : Uuid => WarehouseRow Geography) (s t : Delivery P Q)
    (tables : ReadTables Geography) : Prop :=
  ∃ a, Relation.ReflTransGen (Delivery.Step service catalogue sha256) s a ∧
    Relation.ReflTransGen (Delivery.Step service catalogue sha256) a t ∧ tables.Of a warehouses

/-- A request begins in one state and ends in another, in whatever order its queries run. -/
structure Snapshots.During (service : Service Q) (catalogue : Catalogue)
    (sha256 : String → String) (warehouses : AList fun _ : Uuid => WarehouseRow Geography)
    (s t : Delivery P Q) (snapshots : Snapshots Geography) : Prop where
  order : Canals.During service catalogue sha256 warehouses s t snapshots.order
  items : Canals.During service catalogue sha256 warehouses s t snapshots.items
  payments : Canals.During service catalogue sha256 warehouses s t snapshots.payments
  shipment : Canals.During service catalogue sha256 warehouses s t snapshots.shipment

/-- What two responses for one order have in common, the second to a later request. -/
structure OrderDetailResponse.Before (body later : OrderDetailResponse) : Prop where
  columns : later = { body with
    status := later.status
    createdAt := later.createdAt
    items := later.items
    payments := later.payments
    shipment := later.shipment }
  status : body.status = .PENDING_PAYMENT ∨
    (later.status = body.status ∧ later.createdAt = body.createdAt)
  items : body.items.Perm later.items ∨ body.items = []
  payments : body.payments.length ≤ later.payments.length ∧ later.payments.length ≤ 1 ∧
    ∀ payment ∈ later.payments, payment.attempt = FIRST_PAYMENT_ATTEMPT
  shipment : body.shipment = none ∨
    (later.shipment = body.shipment ∧ later.status = .CONFIRMED)

theorem execute_ok {snapshots : Snapshots Geography} {result : GetOrderResult} :
    GetOrderService.execute r gis snapshots id = .ok result ↔
      isUUIDLoose (some (.str id)) ∧ ∃ o, r.toUuid id = some o ∧
        findOrderById gis snapshots.order o = some result.order ∧
        result.items = findItemsByOrderIds snapshots.items.toOrdersTables [o] ∧
        result.payments = findPaymentsByOrderId snapshots.payments o ∧
        result.shipment = findShipmentByOrderId snapshots.shipment o := by
  obtain ⟨order, items, payments, shipment⟩ := result
  rw [GetOrderService.execute]
  split
  · rename_i loose
    split
    · rename_i none
      simp [none]
    · rename_i o read
      split
      · rename_i absent
        simp [read, absent]
      · rename_i order' found
        simp only [Except.ok.injEq, GetOrderResult.mk.injEq, loose, read, Option.some.injEq,
          true_and, exists_eq_left', found]
        constructor
        · rintro ⟨rfl, rfl, rfl, rfl⟩
          exact ⟨rfl, rfl, rfl, rfl⟩
        · rintro ⟨rfl, rfl, rfl, rfl⟩
          exact ⟨rfl, rfl, rfl, rfl⟩
  · rename_i other
    simp [other]

/-- A shipment that is shown is one of a confirmed order. -/
theorem findShipment_confirmed {tables : ReadTables Geography}
    (kept : Delivery.Kept catalogue sha256 stock clock s) (of : tables.Of s warehouses)
    {shipment : ShipmentReadRow} (found : findShipmentByOrderId tables o = some shipment) :
    ∃ row, s.processes.data.orders.lookup o = some row ∧ row.status = .CONFIRMED := by
  obtain ⟨row, first, -⟩ := Option.map_eq_some_iff.mp found
  rw [of.shipments] at first
  have mine : row.orderId = o := by simpa using List.find?_some first
  obtain ⟨job, sent, -, same⟩ := kept.sent.shipments row (List.mem_of_find?_eq_some first)
  have announced := (kept.reachable.outbox.announced sent).1
  rw [Db.announced, same, mine, Option.any_eq_true] at announced
  obtain ⟨order, stored, confirmed⟩ := announced
  exact ⟨order, stored, of_decide_eq_true confirmed⟩

theorem findShipment_settled {tables later : ReadTables Geography}
    (kept : Delivery.Kept catalogue sha256 stock clock s) (before : tables.Of s warehouses)
    (after : later.Of t warehouses) (grows : s.Later t) {shipment : ShipmentReadRow}
    (found : findShipmentByOrderId tables o = some shipment) {order : OrderDetailRow}
    (found' : findOrderById gis later o = some order) : order.status = .CONFIRMED := by
  obtain ⟨placed, stored, confirmed⟩ := findShipment_confirmed kept before found
  obtain ⟨placed', stored', becomes⟩ := grows.data.orders stored
  cases becomes.settled (by simp [confirmed])
  obtain ⟨row, there, rfl⟩ := Option.map_eq_some_iff.mp found'
  rw [after.orders, stored'] at there
  cases there
  exact confirmed

theorem warehouse_named {order : OrderDetailRow} :
    (order.warehouse.map fun warehouse => (warehouse.id, warehouse.name)) =
      (given order.warehouseId).bind fun id => (given order.warehouseName).map (id, ·) := by
  rw [OrderDetailRow.warehouse]
  cases given order.warehouseId with
  | none => rfl
  | some id => cases given order.warehouseName <;> rfl

/-- The warehouse is shown unless it has no name. -/
theorem warehouse_shown {order : OrderDetailRow}
    {warehouses : AList fun _ : Uuid => WarehouseRow Geography}
    (joined : order.warehouseName = (order.warehouseId.bind warehouses.lookup).map (·.name)) :
    (order.warehouse.map fun warehouse => (warehouse.id, warehouse.name)) =
      (given order.warehouseId).bind fun id => (warehouses.lookup id).bind fun row =>
        (given (some row.name)).map (id, ·) := by
  rw [warehouse_named, joined]
  cases order.warehouseId with
  | none => rfl
  | some id =>
      by_cases empty : id = ""
      · rw [empty]
        rfl
      · rw [given_some empty, Option.bind_some, Option.bind_some, Option.bind_some]
        cases warehouses.lookup id <;> rfl

/-- What `GET /orders/:id` shows of an order that a page has shown before. -/
structure OrderListItem.Shown (warehouses : AList fun _ : Uuid => WarehouseRow Geography)
    (listed : OrderListItem) (body : OrderDetailResponse) : Prop where
  columns : body = { body with
    id := listed.id
    orderNumber := listed.orderNumber
    customerId := listed.customerId
    totalCents := listed.totalCents
    totalDollars := listed.totalDollars
    currency := listed.currency }
  items : body.items.Perm listed.items
  status : listed.status = .PENDING_PAYMENT ∨
    (body.status = listed.status ∧ body.createdAt = listed.createdAt)
  /-- The warehouse the page has named, unless its name is empty. -/
  warehouse : (body.warehouse.map fun warehouse => (warehouse.id, warehouse.name)) =
    (given listed.warehouseId).bind fun id => (warehouses.lookup id).bind fun row =>
      (given (some row.name)).map (id, ·)

/-- An order on a page is found by its id from then on, and it has the items the page has
shown: a page never shows an order without its items. -/
theorem listed_found
    (run : Relation.ReflTransGen (Delivery.Step service catalogue sha256)
      (.opening service stock clock) s)
    (between : Relation.ReflTransGen (Delivery.Step service catalogue sha256) s t)
    {atPage atItems : ReadTables Geography} (page : atPage.Of s warehouses)
    (lines : atItems.Of t warehouses) {params : ListOrdersParams} {listing : ListOrdersResult}
    (told : ListOrdersService.execute r atPage.toOrdersTables atItems.toOrdersTables params =
      .ok listing)
    (late : first.During service catalogue sha256 warehouses t u) {listed : OrderListItem}
    (member : listed ∈ (toOrderListResponse listing).items) :
    ∃ result, GetOrderService.execute r gis first listed.id = .ok result ∧
      listed.Shown warehouses (toOrderDetailResponse result) := by
  have kept : Delivery.Kept catalogue sha256 stock clock s := Delivery.Kept.opening.steps run
  obtain ⟨order, inside, rfl⟩ := List.mem_map.mp member
  obtain ⟨stored, found, columns, items⟩ := listed_stored told inside
  show ∃ result, GetOrderService.execute r gis first order.order.id = .ok result ∧ _
  have uuid : isUuid order.order.id := atPage.uuids _ (AList.mem_lookup_iff.mp found)
  have read : r.toUuid order.order.id = some order.order.id := if_pos uuid
  rw [page.orders] at found
  obtain ⟨a, next, -, ofA⟩ := late.order
  obtain ⟨b, next', -, ofB⟩ := late.items
  obtain ⟨stored', found', becomes⟩ :=
    (Delivery.later_of_steps kept (between.trans next)).data.orders found
  have shown : findOrderById gis first.order order.order.id = some _ :=
    Option.map_eq_some_iff.mpr ⟨stored', ofA.orders ▸ found', rfl⟩
  refine ⟨⟨_, _, _, _⟩, execute_ok.mpr ⟨isUuid_loose uuid, order.order.id, read, shown, rfl, rfl,
    rfl⟩, ⟨?_, ?_, ?_, ?_⟩⟩
  · have same : stored'.orderNumber = stored.orderNumber ∧
        stored'.customerId = stored.customerId ∧ stored'.totalCents = stored.totalCents ∧
        stored'.currency = stored.currency := by
      rw [becomes.columns]
      exact ⟨rfl, rfl, rfl, rfl⟩
    obtain ⟨orderNumber, customerId, totalCents, currency⟩ := same
    simp only [toOrderDetailResponse, toOrderListItem, orderNumber, customerId, totalCents,
      currency]
    rw [columns]
    rfl
  · obtain ⟨row, there, -⟩ := (Delivery.later_of_steps kept between).data.orders found
    have whole := ofB.items order.order.id
    rw [(Delivery.later_of_steps (kept.steps between) next').data.items there] at whole
    refine whole.trans ((lines.items order.order.id).symm.trans (.of_eq ?_))
    simp only [toOrderListItem, items, OrdersTables.itemsOf, findItemsByOrderIds,
      List.mem_singleton]
  · by_cases pending : stored.status = .PENDING_PAYMENT
    · left
      rw [columns]
      exact pending
    · right
      rw [becomes.settled pending, columns]
      exact ⟨rfl, rfl⟩
  · have same : stored'.warehouseId = stored.warehouseId := by rw [becomes.columns]
    simp only [toOrderDetailResponse, toOrderListItem]
    rw [columns, warehouse_shown (by rw [ofA.warehouses])]
    simp only [OrderEntry.toPageRow, same]

end Requests

section Desk

def deskOrder : Uuid := "a0000000-0000-4000-8000-000000000001"

def nextOrder : Uuid := "a0000000-0000-4000-8000-000000000002"

def deskKey : String := buildChargeIdempotencyKey deskOrder FIRST_PAYMENT_ATTEMPT

def deskCharge : Provider.Payload :=
  .charge deskKey ⟨"4111111111111111", 2500, "USD", "Order CNL-2026-000001"⟩

/-- Two lamps each are reserved for two orders with uuids. -/
def deskReserve : List LampAction :=
  .move true (.createOrder lampCommand lampGeocoded "CNL-2026-000001"
    ["denver"] deskOrder) :: transact true 12 ++
    .move false (.createOrder lampCommand lampGeocoded "CNL-2026-000002"
      ["denver"] nextOrder) :: transact false 12

/-- The first of them is paid. -/
def deskPay : List LampAction :=
  lampPay ++ [.event (.deliver ⟨0, deskCharge⟩ ⟨"1", "now"⟩),
    .event (.fire deskKey ⟨"2", "later"⟩), .move true (.receive 0 false)] ++ lampRecord ++
    transact true 17

def deskPlaced : Processes Bool :=
  ((initial Bool lampStock ⟨1000000⟩).run store (system lampCatalogue lampSha256) deskReserve).get
    (by decide +kernel)

def deskSold : Processes Bool :=
  (deskPlaced.run store (system lampCatalogue lampSha256) deskPay).get (by decide +kernel)

/-- A state in which the queue has nothing to do yet. -/
def unfetched (processes : Processes Bool) : Delivery Bool Redelivery.Queue :=
  { processes, queue := Delivery.lampService.start }

theorem unfetched_reaches {actions : List LampAction} {a b : Processes Bool}
    (ran : a.run store (system lampCatalogue lampSha256) actions = some b) :
    Relation.ReflTransGen (Delivery.Step Delivery.lampService lampCatalogue lampSha256)
      (unfetched a) (unfetched b) :=
  (State.reaches_of_run ran).lift unfetched fun a _ step =>
    Delivery.Step.process (s := unfetched a) step

theorem deskPlaced_reached :
    Relation.ReflTransGen (Delivery.Step Delivery.lampService lampCatalogue lampSha256)
      (.opening Delivery.lampService lampStock ⟨1000000⟩) (unfetched deskPlaced) :=
  unfetched_reaches (Option.some_get _).symm

theorem deskSold_later :
    Relation.ReflTransGen (Delivery.Step Delivery.lampService lampCatalogue lampSha256)
      (unfetched deskPlaced) (unfetched deskSold) :=
  unfetched_reaches (Option.some_get _).symm

def deskWarehouses : AList fun _ : Uuid => WarehouseRow (Rat × Rat) :=
  AList.singleton "denver" ⟨"Denver", (-105, 40), true⟩

def deskBefore : ReadTables (Rat × Rat) where
  orders := ∅
  orderItems := []
  uuids := by decide
  years := by decide
  payments := ∅
  shipments := []
  warehouses := deskWarehouses

def deskBetween : ReadTables (Rat × Rat) where
  orders := deskPlaced.data.orders
  orderItems := deskPlaced.data.orderItems.map fun item => ⟨item, ⟨0⟩⟩
  uuids := by decide +kernel
  years := by decide +kernel
  payments := deskPlaced.data.payments
  shipments := []
  warehouses := deskWarehouses

def deskAfter : ReadTables (Rat × Rat) where
  orders := deskSold.data.orders
  orderItems := deskSold.data.orderItems.map fun item => ⟨item, ⟨0⟩⟩
  uuids := by decide +kernel
  years := by decide +kernel
  payments := deskSold.data.payments
  shipments := []
  warehouses := deskWarehouses

theorem deskBefore_of :
    deskBefore.Of (.opening Delivery.lampService lampStock ⟨1000000⟩ : Delivery Bool _)
      deskWarehouses :=
  ⟨⟨rfl, .refl _⟩, rfl, rfl, rfl⟩

theorem deskBetween_of : deskBetween.Of (unfetched deskPlaced) deskWarehouses where
  orders := rfl
  orderItems := by
    rw [deskBetween, List.map_map]
    exact .of_eq (List.map_id _)
  payments := rfl
  shipments := rfl
  warehouses := rfl

theorem deskAfter_of : deskAfter.Of (unfetched deskSold) deskWarehouses where
  orders := rfl
  orderItems := by
    rw [deskAfter, List.map_map]
    exact .of_eq (List.map_id _)
  payments := rfl
  shipments := rfl
  warehouses := rfl

def deskRow : OrderDetailRow :=
  (findOrderById lampGis deskAfter deskOrder).get (by decide +kernel)

theorem deskRow_found : findOrderById lampGis deskAfter deskOrder = some deskRow :=
  (Option.some_get _).symm

/-- The items are read before the order is there, the rest when it is confirmed. -/
def deskTorn : Snapshots (Rat × Rat) := ⟨deskAfter, deskBefore, deskAfter, deskAfter⟩

def deskWhole : Snapshots (Rat × Rat) := ⟨deskAfter, deskAfter, deskAfter, deskAfter⟩

def deskTold : GetOrderResult :=
  ⟨deskRow, [], findPaymentsByOrderId deskAfter deskOrder, none⟩

theorem deskTold_torn :
    GetOrderService.execute lampReaders lampGis deskTorn deskOrder = .ok deskTold :=
  execute_ok.mpr ⟨by decide +kernel, deskOrder, if_pos (by decide +kernel),
    deskRow_found, rfl, rfl, rfl⟩

theorem deskWhole_within {s : Delivery Bool Redelivery.Queue}
    (later : Relation.ReflTransGen (Delivery.Step Delivery.lampService lampCatalogue lampSha256)
      s (unfetched deskSold)) :
    deskWhole.During Delivery.lampService lampCatalogue lampSha256 deskWarehouses s
      (unfetched deskSold) :=
  have here : During Delivery.lampService lampCatalogue lampSha256 deskWarehouses s
    (unfetched deskSold) deskAfter := ⟨_, later, .refl, deskAfter_of⟩
  ⟨here, here, here, here⟩

/-- The page shows the orders while both are pending. -/
def deskListing : ListOrdersResult :=
  (ListOrdersService.execute lampReaders deskBetween.toOrdersTables deskBetween.toOrdersTables
    {}).toOption.get (by decide +kernel)

theorem deskListing_told : ListOrdersService.execute lampReaders deskBetween.toOrdersTables
    deskBetween.toOrdersTables {} = .ok deskListing :=
  eq_ok_of_toOption (Option.some_get _).symm

def deskListed : OrderListItem :=
  ((toOrderListResponse deskListing).items.find? (·.id = deskOrder)).get (by decide +kernel)

theorem listed_found_desk :
    (deskListed.id = deskOrder ∧ deskListed.status = .PENDING_PAYMENT ∧
      deskListed.items.length = 1 ∧ deskListed.warehouseId = some "denver" ∧
      deskRow.status = .CONFIRMED) ∧
    ∃ result, GetOrderService.execute lampReaders lampGis deskWhole deskListed.id = .ok result ∧
      deskListed.Shown deskWarehouses (toOrderDetailResponse result) := by
  refine ⟨by decide +kernel, ?_⟩
  have member := List.mem_of_find?_eq_some (Option.some_get (by decide +kernel :
    ((toOrderListResponse deskListing).items.find? (·.id = deskOrder)).isSome)).symm
  exact listed_found deskPlaced_reached .refl deskBetween_of deskBetween_of deskListing_told
    (deskWhole_within deskSold_later) member

end Desk

end Canals
