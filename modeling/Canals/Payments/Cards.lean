import Canals.Payments.Gateway

/-! What the gateway and the provider learn from a card number: its description. With another
number of the same description in each charge, they do the same. -/
namespace Canals
open Provider

/-- Two card numbers that read the same: last four digits, brand, and whether there is one. -/
structure CardsAlike (a b : String) : Prop where
  described : describeCard a = describeCard b
  missing : a = "" ↔ b = ""

/-- Another card number for every charge, by its key; different ones stay different. -/
structure CardRenaming where
  card : String → String → String
  injective : ∀ key, Function.Injective (card key)
  alike : ∀ key number, CardsAlike (card key number) number

section Entries
variable {α : Type} {β : α → Type} {γ : α → Type}

/-- The association list with another value for each key. -/
def mapEntries (f : ∀ a, β a → γ a) (m : AList β) : AList γ :=
  ⟨m.entries.map (.map id f), by
    simpa [List.NodupKeys, List.keys, Function.comp_def, Sigma.map] using m.nodupKeys⟩

variable [DecidableEq α] {f : ∀ a, β a → γ a} {m : AList β} {a : α}

@[simp] theorem lookup_mapEntries : (mapEntries f m).lookup a = (m.lookup a).map (f a) :=
  List.dlookup_map₂ a

theorem kerase_map (l : List (Sigma β)) :
    (l.map (.map id f)).kerase a = (l.kerase a).map (.map id f) := by
  induction l with
  | nil => rfl
  | cons entry l ih =>
    rw [List.map_cons]
    by_cases here : a = entry.1
    · rw [List.kerase_cons_eq here, List.kerase_cons_eq (by exact here)]
    · rw [List.kerase_cons_ne here, List.kerase_cons_ne (by exact here), ih]
      rfl

@[simp] theorem erase_mapEntries : (mapEntries f m).erase a = mapEntries f (m.erase a) :=
  AList.ext (kerase_map m.entries)

@[simp] theorem insert_mapEntries (b : β a) :
    (mapEntries f m).insert a (f a b) = mapEntries f (m.insert a b) :=
  AList.ext (congrArg (List.cons _) (kerase_map m.entries))

end Entries

namespace CardRenaming
variable (r : CardRenaming)

def body (key : String) (body : ChargeRequestBody) : ChargeRequestBody :=
  { body with cardNumber := r.card key body.cardNumber }

def payload : Payload → Payload
  | .charge key body => .charge key (r.body key body)
  | .getStatus key => .getStatus key

def request (request : Request) : Request := ⟨request.number, r.payload request.payload⟩

def response (response : Response) : Response :=
  { response with request := r.request response.request }

def pending (key : String) (charge : PendingCharge) : PendingCharge where
  requestHash := charge.requestHash
  owner := r.request charge.owner
  body := r.body key charge.body
  record := charge.record
  waiters := charge.waiters.map fun waiter => (r.request waiter.1, waiter.2)

/-- The records hold no card number. -/
def service (service : ChargeService) : ChargeService where
  records := service.records
  pending := mapEntries r.pending service.pending

theorem body_injective (key : String) : Function.Injective (r.body key) := by
  intro a b same
  cases a
  cases b
  simp only [body, ChargeRequestBody.mk.injEq] at same ⊢
  exact ⟨r.injective key same.1, same.2⟩

theorem payload_injective : Function.Injective r.payload := by
  intro a b same
  cases a with
  | charge key body =>
    cases b with
    | getStatus _ => cases same
    | charge key' body' =>
      obtain ⟨rfl, same⟩ := Payload.charge.inj same
      rw [r.body_injective key same]
  | getStatus key =>
    cases b with
    | charge _ _ => cases same
    | getStatus _ =>
      cases same
      rfl

theorem request_injective : Function.Injective r.request := by
  intro a b same
  cases a
  cases b
  obtain ⟨number, payload⟩ := Request.mk.inj same
  rw [Request.mk.injEq]
  exact ⟨number, r.payload_injective payload⟩

section Turns
variable (sha256 : String → String) (turn : ChargeService) (asked : Request) (key : String)
  (ask : ChargeRequestBody) (stamp : Stamp)

theorem last4 (key number : String) : cardLast4 (r.card key number) = cardLast4 number :=
  congrArg CardDescription.last4 (r.alike key number).described

@[simp] theorem computeRequestHash_body :
    computeRequestHash sha256 (r.body key ask) = computeRequestHash sha256 ask := by
  simp only [computeRequestHash, body, r.last4]

@[simp] theorem newRecord_body (status : ChargeStatus) :
    newRecord sha256 key (r.body key ask) status stamp = newRecord sha256 key ask status stamp := by
  simp only [newRecord, computeRequestHash_body]
  simp only [body, r.last4]

theorem service_store (record : ChargeRecord) :
    (r.service turn).store record = r.service (turn.store record) := rfl

theorem service_await (charge : PendingCharge) :
    (r.service turn).await key (r.pending key charge) = r.service (turn.await key charge) :=
  congrArg (ChargeService.mk turn.records) (insert_mapEntries (f := r.pending) charge)

theorem arriveCard0004_service : arriveCard0004 sha256 (r.service turn) key (r.body key ask) stamp =
    (arriveCard0004 sha256 turn key ask stamp).map r.service id := by
  simp only [arriveCard0004, show (r.service turn).records = turn.records from rfl]
  cases turn.records.lookup key with
  | some existing => rfl
  | none => simp only [newRecord_body, service_store, Prod.map, id]

theorem arrive_service :
    arrive sha256 (r.service turn) (r.request asked) key (r.body key ask) stamp =
      (arrive sha256 turn asked key ask stamp).map r.service id := by
  have digits : cardLast4 (r.body key ask).cardNumber = cardLast4 ask.cardNumber := r.last4 ..
  simp only [arrive, digits, computeRequestHash_body, arriveCard0004_service, newRecord_body,
    show (r.service turn).records = turn.records from rfl,
    show (r.service turn).pending.lookup key = (turn.pending.lookup key).map (r.pending key) from
      lookup_mapEntries]
  cases turn.pending.lookup key with
  | some alreadyPending =>
    simp only [Option.map_some, Prod.map, id, ← service_await]
    simp [pending]
  | none =>
    dsimp only [Option.map_none]
    split
    · simp only [Prod.map, id, ← service_await]
      rfl
    · cases turn.records.lookup key with
      | some existing =>
        dsimp only
        split <;> rfl
      | none =>
        dsimp only
        split
        · rfl
        · split
          · rfl
          · simp only [Prod.map, id, ← service_await]
            rfl

theorem settleCharge_service (charge : PendingCharge) :
    settleCharge sha256 (r.service turn) key (r.pending key charge) stamp =
      (settleCharge sha256 turn key charge stamp).map r.service id := by
  simp only [settleCharge, show (r.pending key charge).record = charge.record from rfl]
  cases charge.record with
  | some record =>
    dsimp only
    rw [show (r.pending key charge).requestHash = charge.requestHash from rfl]
    split <;> rfl
  | none => simp only [pending, newRecord_body, service_store, Prod.map, id]

theorem chargeReply_request (result : Provider.ChargeResult) :
    chargeReply (r.request asked) result = r.response (chargeReply asked result) := by
  cases result <;> rfl

/-- The provider answers the same and keeps the same records. -/
theorem deliver_service : deliver sha256 (r.service turn) (r.request asked) stamp =
    (deliver sha256 turn asked stamp).map r.service (List.map r.response) := by
  obtain ⟨number, payload⟩ := asked
  cases payload with
  | getStatus key =>
    simp only [deliver, request, CardRenaming.payload, statusReply, Prod.map, List.map_cons,
      List.map_nil, show (r.service turn).records = turn.records from rfl]
    cases turn.records.lookup key <;> rfl
  | charge key ask =>
    have none_given : (r.body key ask).cardNumber = "" ↔ ask.cardNumber = "" :=
      (r.alike key ask.cardNumber).missing
    have currency : (r.body key ask).currency = ask.currency := rfl
    simp only [deliver, show (r.request ⟨number, .charge key ask⟩).payload =
      .charge key (r.body key ask) from rfl, none_given, currency]
    split
    · rfl
    · rw [arrive_service]
      simp only [Prod.map, id]
      cases (arrive sha256 turn ⟨number, .charge key ask⟩ key ask stamp).2 with
      | none => rfl
      | some result => simp [chargeReply_request]

theorem fire_service : fire sha256 (r.service turn) key stamp =
    (fire sha256 turn key stamp).map (Prod.map r.service (List.map r.response)) := by
  simp only [fire, show (r.service turn).pending.lookup key =
    (turn.pending.lookup key).map (r.pending key) from lookup_mapEntries]
  cases turn.pending.lookup key with
  | none => rfl
  | some charge =>
    simp only [Option.map_some, finish, settleCharge_service, Prod.map, id]
    congr 2
    · simp only [service, erase_mapEntries]
    · simp only [pending, chargeReply_request, List.map_cons, List.map_map, Function.comp_def]
      rfl

end Turns

section Attempts

def exchange (exchange : Exchange) : Exchange where
  payload := r.payload exchange.payload
  attempt := exchange.attempt
  request := exchange.request.map r.request

def attempted : Attempted → Attempted
  | .again exchange => .again (r.exchange exchange)
  | .done outcome => .done outcome

theorem attempted_exchange (under : Exchange) (outcome : Except AttemptError ProviderResponse) :
    (r.exchange under).attempted outcome = r.attempted (under.attempted outcome) := by
  cases outcome with
  | ok response => rfl
  | error e =>
    simp only [Exchange.attempted, show (r.exchange under).attempt = under.attempt from rfl]
    split <;> rfl

theorem chargeResultOf_card (key number : String)
    (outcome : Except AttemptError ProviderResponse) :
    chargeResultOf (r.card key number) outcome = chargeResultOf number outcome := by
  simp only [chargeResultOf, (r.alike key number).described]

end Attempts

end CardRenaming

end Canals
