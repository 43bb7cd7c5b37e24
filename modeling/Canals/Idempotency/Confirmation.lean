import Canals.Idempotency.LifeCycle

/-! What is recorded for an order that was created and paid. One `try` covers
the saga and the recording of its success: when the recording fails, the handler
behind it records that failure as the outcome of the request. -/
namespace Canals.Idempotency

/-- The row's status and order, if it is complete: the order as created. -/
def RecordedAsCreated (row : IdempotencyKeyRow) (orderId : Uuid) : Prop :=
  row.responseStatus = some 201 ∧ row.orderId = some orderId

/-- How a call stands whose saga resolved with this result. -/
def Ctl.Confirms (platform : Platform) (params : CreateOrderIdempotentParams) (rows : KeyRows)
    (result : OrderResponseParams) : Ctl → Prop
  | completing _ recorded => recorded = result
  | failing _ _ | crashed (some _) => True
  | answered (some id) _ => Pending platform params rows id ∨ ∃ row, rows.lookup id = some row ∧
    row.state = .COMPLETED ∧ RecordedAsCreated row result.order.id
  | _ => False

section
variable {P : Type} [DecidableEq P] {platform : Platform}
  {params : P → CreateOrderIdempotentParams} {s t : Service P} {a : Action P}

/-- Unless it is the statement by which the handler records a failure for a call
whose saga resolved. -/
def SparesConfirmed (s : Service P) (a : Action P) : Prop :=
  ∀ p result id exception id' now, (p, result) ∈ s.confirmed →
    s.ctl p = .failing id exception → a ≠ .exec p id' now

theorem Ctl.Confirms.begun {params : CreateOrderIdempotentParams} {rows : KeyRows}
    {result : OrderResponseParams} {ctl : Ctl}
    (confirms : ctl.Confirms platform params rows result) : ∃ id, ctl.begun = some id := by
  cases ctl with
  | completing id _ | failing id _ => exact ⟨id, rfl⟩
  | crashed id | answered id _ =>
    cases id with
    | none => cases confirms
    | some id => exact ⟨id, rfl⟩
  | _ => cases confirms

theorem Ctl.Confirms.mono {params : CreateOrderIdempotentParams} {rows rows' : KeyRows}
    {result : OrderResponseParams} {ctl : Ctl} {mine : Option Uuid}
    (confirms : ctl.Confirms platform params rows result) (keeps : Keeps mine rows rows')
    (apart : mine.isSome → ctl.begun ≠ mine) : ctl.Confirms platform params rows' result := by
  cases ctl with
  | crashed id =>
    cases id with
    | none => cases confirms
    | some id => trivial
  | answered id answer =>
    cases id with
    | none => cases confirms
    | some id =>
      refine confirms.imp ?_ ?_
      · intro pending
        refine pending.keeps keeps ?_
        rintro rfl
        exact apart rfl rfl
      · rintro ⟨row, found, done, created⟩
        exact ⟨row, keeps found (.inr done), done, created⟩
  | _ => exact confirms

omit [DecidableEq P] in
/-- A call's own step, unless the handler completes its row. -/
theorem Acts.confirms {params : CreateOrderIdempotentParams} {rows rows' : KeyRows} {p : P}
    {ctl ctl' : Ctl} {ran : Prop} {result : OrderResponseParams}
    (acts : Acts platform params rows p ctl a rows' ctl')
    (spares : ∀ id exception id' now, ctl = .failing id exception → a ≠ .exec p id' now)
    (fits : ctl.Fits platform params rows ran)
    (confirms : ctl.Confirms platform params rows result) :
    ctl'.Confirms platform params rows' result := by
  cases acts with
  | advance advances =>
    cases advances with
    | lose => trivial
    | lapse => exact .inl fits.2
    | crash =>
      obtain ⟨id, begun⟩ := confirms.begun
      rw [begun]
      trivial
    | _ => cases confirms
  | complete completes recorded =>
    cases confirms
    cases completes with
    | updated found kept => exact .inr ⟨_, AList.lookup_insert _, rfl, rfl, rfl⟩
    | missed absent =>
      obtain ⟨row, found, -⟩ := recorded
      cases absent.symm.trans found
  | record => exact absurd rfl (spares _ _ _ _ rfl)
  | _ => cases confirms

/-- A saga counts as resolved from the step on at which its call goes on. -/
theorem Does.confirmed (does : Does platform params s a t) {p : P} {result : OrderResponseParams}
    (confirmed : (p, result) ∈ t.confirmed) :
    (p, result) ∈ s.confirmed ∨ (t.ctl p).Confirms platform (params p) t.rows result := by
  cases does with
  | @resolve q id command new here | @discard q id command new exception here =>
    rcases List.mem_append.mp confirmed with before | now
    · exact .inl before
    · cases List.mem_singleton.mp now
      simp [Service.goto, Ctl.Confirms]
  | _ => exact .inl confirmed

/-- Along these runs a call whose saga resolved never records anything else. -/
theorem Service.Runs.confirms {clock : Timestamptz} {p : P} {result : OrderResponseParams}
    (run : Runs platform params SparesConfirmed clock s) (confirmed : (p, result) ∈ s.confirmed) :
    (s.ctl p).Confirms platform (params p) s.rows result := by
  induction run with
  | refl => cases confirmed
  | @tail u t before last confirms =>
    obtain ⟨a, stepped, spares⟩ := last
    have kept : Kept platform params u := Service.Runs.kept before
    have does := does_of_step stepped
    rcases does.confirmed confirmed with elder | new
    · have stood := confirms elder
      rcases does.at kept p with ⟨same, mine, keeps, apart⟩ | acts
      · exact same ▸ stood.mono keeps apart
      · have spared : ∀ id exception id' now, u.ctl p = .failing id exception →
            a ≠ .exec p id' now := fun id exception id' now => spares p result id exception id' now elder
        exact acts.confirms spared (kept.fits p) stood
    · exact new

/-- As long as the handler completes no row of a call whose saga resolved, the
key of such a call is never complete as anything but this order's `201`, and no
replay of it has another status. -/
theorem confirmed_order_recorded {clock : Timestamptz} {p : P} {result : OrderResponseParams}
    (run : Service.Runs platform params SparesConfirmed clock s)
    (confirmed : (p, result) ∈ s.confirmed) :
    (∀ id row, s.rows.lookup id = some row →
      (params p).idempotencyKey = some row.idempotencyKey → row.state = .COMPLETED →
      row.responseStatus = some 201 ∧ row.orderId = some result.order.id) ∧
    ∀ q status body, s.ctl q = .answered none (.replay status body) →
      (params q).idempotencyKey = (params p).idempotencyKey → status = 201 := by
  have kept : Kept platform params s := run.kept
  have confirms := run.confirms confirmed
  have created : ∀ id row, s.rows.lookup id = some row →
      (params p).idempotencyKey = some row.idempotencyKey → row.state = .COMPLETED →
      RecordedAsCreated row result.order.id := by
    intro id row found key done
    obtain ⟨mine, begun⟩ := confirms.begun
    obtain ⟨row', found', of⟩ := (kept.fits p).stored begun
    have same : mine = id := kept.unique found' found (Option.some.inj (of.key.symm.trans key))
    subst same
    obtain ⟨-, answer, told, -⟩ := (kept.fits p).completed begun found done
    rw [told] at confirms
    rcases confirms with ⟨row'', open_, -, pending⟩ | ⟨row'', stored, -, is⟩
    · cases open_.symm.trans found
      cases pending.symm.trans done
    · cases stored.symm.trans found
      exact is
  refine ⟨created, fun q status body told key => ?_⟩
  have fits := kept.fits q
  rw [told] at fits
  obtain ⟨id, row, found, of, holds⟩ := fits
  have recorded := created id row found (key.symm.trans of.key) holds.completed
  exact Option.some.inj (holds.responseStatus.symm.trans recorded.1)

end

section Lamp

/-- A confirmed order of two lamps, as the saga returns it. -/
def lampCreated : OrderResponseParams where
  order := {
    id := "order"
    orderNumber := "CNL-2026-000001"
    customerId := "11111111-1111-1111-1111-111111111111"
    warehouseId := some "denver"
    status := .CONFIRMED
    total := ⟨2500, Money.zero.currency, by decide, Money.zero.iso⟩
    shippingAddress := {
      props := { recipient := "Ada", line1 := "1 Main St", city := "Denver", country := "US" }
      recipient := by decide
      line1 := by decide
      city := by decide
      country := by decide }
    shippingLocation := ⟨40, -105, by decide, by decide⟩
    reservationExpiresAt := none
    confirmedAt := some ⟨1000⟩
    cancelledAt := none
    cancellationReason := none
    createdAt := ⟨0⟩
    updatedAt := ⟨1000⟩ }
  items := []
  warehouseId := "denver"
  warehouseName := "Denver"
  distanceMeters := 1200
  paymentStatus := .CAPTURED

/-- Whether the handler's own statement is left out. -/
def recordsNoFailure (s : Service (Fin 3)) : Action (Fin 3) → Bool
  | .exec p _ _ =>
    match s.ctl p with
    | .failing _ _ => false
    | _ => true
  | _ => true

theorem recordsNoFailure_spares (s : Service (Fin 3)) (a : Action (Fin 3))
    (checked : recordsNoFailure s a) : SparesConfirmed s a := by
  rintro p result id exception id' now - here rfl
  simp [recordsNoFailure, here] at checked

/-- The first call's saga resolves and is recorded; the second replays it. -/
def lampPaid : List (Action (Fin 3)) :=
  [.receive lampOwner, .exec lampOwner "row" ⟨0⟩, .resolve lampOwner lampCreated none,
    .exec lampOwner "" ⟨0⟩, .receive lampRepeat, .exec lampRepeat "row 1" ⟨0⟩,
    .exec lampRepeat "" ⟨0⟩]

def lampRecorded : Service (Fin 3) :=
  (({ clock := ⟨0⟩ } : Service (Fin 3)).runWhile recordsNoFailure
    lampPlatform lampCalls lampPaid).get (by decide +kernel)

theorem lampRecorded_runs :
    Service.Runs lampPlatform lampCalls SparesConfirmed ⟨0⟩ lampRecorded :=
  Service.runs_of_runWhile recordsNoFailure_spares .refl (Option.some_get _).symm

theorem confirmed_order_recorded_lamp :
    (∀ id row, lampRecorded.rows.lookup id = some row →
      (lampCalls 0).idempotencyKey = some row.idempotencyKey → row.state = .COMPLETED →
      row.responseStatus = some 201 ∧ row.orderId = some lampCreated.order.id) ∧
    ∀ q status body, lampRecorded.ctl q = .answered none (.replay status body) →
      (lampCalls q).idempotencyKey = (lampCalls 0).idempotencyKey → status = 201 :=
  confirmed_order_recorded lampRecorded_runs (by decide +kernel)

/-- The saga resolves, but the connection is lost under its `markCompleted`; the
handler's own goes through. -/
def lampLost : List (Action (Fin 3)) :=
  [.receive lampOwner, .exec lampOwner "row" ⟨0⟩, .resolve lampOwner lampCreated none,
    .fail lampOwner (.other "08006"), .exec lampOwner "" ⟨0⟩]

def lampMisrecorded : Service (Fin 3) :=
  (({ clock := ⟨0⟩ } : Service (Fin 3)).runWhile (fun _ _ => true)
    lampPlatform lampCalls lampLost).get (by decide +kernel)

theorem lampMisrecorded_reachable :
    Service.Reachable lampPlatform lampCalls ⟨0⟩ lampMisrecorded :=
  Service.runs_of_runWhile (fun _ _ _ => trivial) .refl (Option.some_get _).symm

theorem lampMisrecorded_row : (lampMisrecorded.rows.lookup "row").map (fun row =>
    (row.idempotencyKey, row.state, row.responseStatus, row.orderId)) =
      some ("33333333-3333-4333-8333-333333333333", .COMPLETED, some 500, none) := by
  decide +kernel

/-- The order is created and paid; its key says `500` without an order. -/
theorem confirmed_order_recorded_as_failure :
    ¬ ∀ (platform : Platform) (params : Fin 3 → CreateOrderIdempotentParams) (clock : Timestamptz)
      (s : Service (Fin 3)) (p : Fin 3) (result : OrderResponseParams),
      Service.Reachable platform params clock s → (p, result) ∈ s.confirmed →
      ∀ id row, s.rows.lookup id = some row →
        (params p).idempotencyKey = some row.idempotencyKey → row.state = .COMPLETED →
        row.responseStatus = some 201 ∧ row.orderId ≠ none := by
  intro claim
  obtain ⟨row, found, is⟩ := Option.map_eq_some_iff.mp lampMisrecorded_row
  simp only [Prod.mk.injEq] at is
  obtain ⟨key, done, -, lost⟩ := is
  have created := claim lampPlatform lampCalls ⟨0⟩ lampMisrecorded 0 lampCreated
    lampMisrecorded_reachable (by decide +kernel) "row" row found (congrArg some key.symm) done
  exact created.2 lost

end Lamp

end Canals.Idempotency
