import Canals.Http.Json
import Mathlib.Data.List.AList

/-! `payments-mock`: the charges it stores, one turn of its event loop at a
time. A request that has to wait leaves its key pending until its timer ends. -/
namespace Canals.Provider

def CARD_DECLINED_LAST4 : String := "0002"
def CARD_PROVIDER_ERROR_LAST4 : String := "0003"
def CARD_TIMEOUT_LAST4 : String := "0004"

structure ChargeRequestBody where
  cardNumber : String
  amountCents : Int
  currency : String
  description : String
  deriving DecidableEq

inductive ChargeStatus where
  | approved
  | declined
  deriving DecidableEq

def ChargeStatus.text : ChargeStatus → String
  | approved => "approved"
  | declined => "declined"

structure ChargeRecord where
  id : String
  idempotencyKey : String
  requestHash : String
  status : ChargeStatus
  declineCode : Option String
  amountCents : Int
  currency : String
  cardLast4 : String
  createdAt : String
  deriving DecidableEq

/-- What a request for the provider asks, with the number of the exchange. -/
inductive Payload where
  | charge (idempotencyKey : String) (body : ChargeRequestBody)
  | getStatus (idempotencyKey : String)
  deriving DecidableEq

def Payload.key : Payload → String
  | charge key _ | getStatus key => key

structure Request where
  number : Nat
  payload : Payload
  deriving DecidableEq

/-- The request asks for a charge under the key. -/
def Request.Charges (request : Request) (key : String) : Prop :=
  ∃ body, request.payload = .charge key body

structure Response where
  request : Request
  httpStatus : Nat
  body : Option JsonObject

inductive ChargeResult where
  | charged (record : ChargeRecord)
  | providerError
  | reused

/-- A charge under way: the request that started it, the requests awaiting it,
and the record card 0004 found or stored on arrival. -/
structure PendingCharge where
  requestHash : String
  owner : Request
  body : ChargeRequestBody
  record : Option ChargeRecord
  waiters : List (Request × String) := []

structure ChargeService where
  records : AList fun _ : String => ChargeRecord := ∅
  pending : AList fun _ : String => PendingCharge := ∅

/-- Digits of a card number, `replace(/\D/g, '')`. -/
def digitsOf (cardNumber : String) : List Char := cardNumber.toList.filter (·.isDigit)

def cardLast4 (cardNumber : String) : String :=
  String.ofList ((digitsOf cardNumber).drop ((digitsOf cardNumber).length - 4))

/-- What a turn draws from outside: the new charge's id and the time. -/
structure Stamp where
  id : String
  createdAt : String
  deriving DecidableEq

section Turns
variable (sha256 : String → String)

def computeRequestHash (body : ChargeRequestBody) : String :=
  sha256 s!"{cardLast4 body.cardNumber}|{body.amountCents}|{body.currency}|{body.description}"

def newRecord (key : String) (body : ChargeRequestBody) (status : ChargeStatus) (stamp : Stamp) :
    ChargeRecord where
  id := "ch_" ++ stamp.id
  idempotencyKey := key
  requestHash := computeRequestHash sha256 body
  status
  declineCode := if status = .declined then some "card_declined" else none
  amountCents := body.amountCents
  currency := body.currency
  cardLast4 := cardLast4 body.cardNumber
  createdAt := stamp.createdAt

def ChargeService.store (service : ChargeService) (record : ChargeRecord) : ChargeService :=
  { service with records := service.records.insert record.idempotencyKey record }

def ChargeService.await (service : ChargeService) (key : String) (charge : PendingCharge) :
    ChargeService :=
  { service with pending := service.pending.insert key charge }

/-- `processCard0004` up to its delay: recorded as approved on arrival. -/
def arriveCard0004 (service : ChargeService) (key : String) (body : ChargeRequestBody)
    (stamp : Stamp) : ChargeService × ChargeRecord :=
  match service.records.lookup key with
  | some existing => (service, existing)
  | none =>
    let record := newRecord sha256 key body .approved stamp
    (service.store record, record)

/-- The turn in which a charge request arrives: the service after it and the
answer, if the request does not have to wait. -/
def arrive (service : ChargeService) (request : Request) (key : String)
    (body : ChargeRequestBody) (stamp : Stamp) : ChargeService × Option ChargeResult :=
  let last4 := cardLast4 body.cardNumber
  let requestHash := computeRequestHash sha256 body
  match service.pending.lookup key with
  | some alreadyPending => (service.await key { alreadyPending with
      waiters := alreadyPending.waiters ++ [(request, requestHash)] }, none)
  | none =>
    if last4 = CARD_TIMEOUT_LAST4 then
      let (service, record) := arriveCard0004 sha256 service key body stamp
      (service.await key { requestHash, owner := request, body, record := some record }, none)
    else match service.records.lookup key with
      | some existing =>
        if existing.requestHash ≠ requestHash then (service, some .reused)
        else (service, some (.charged existing))
      | none =>
        if last4 = CARD_PROVIDER_ERROR_LAST4 then (service, some .providerError)
        else if last4 = CARD_DECLINED_LAST4 then
          let record := newRecord sha256 key body .declined stamp
          (service.store record, some (.charged record))
        else (service.await key { requestHash, owner := request, body, record := none }, none)

/-- What `process` comes to once the delay is over. -/
def settleCharge (service : ChargeService) (key : String) (charge : PendingCharge)
    (stamp : Stamp) : ChargeService × ChargeResult :=
  match charge.record with
  | some record =>
    if record.requestHash ≠ charge.requestHash then (service, .reused)
    else (service, .charged record)
  | none =>
    let record := newRecord sha256 key charge.body .approved stamp
    (service.store record, .charged record)

/-- The turn in which the delay of a pending charge ends: its owner gets the
result, and so does every waiter that asked for the same. -/
def finish (service : ChargeService) (key : String) (charge : PendingCharge) (stamp : Stamp) :
    ChargeService × List (Request × ChargeResult) :=
  let (service, result) := settleCharge sha256 service key charge stamp
  ({ service with pending := service.pending.erase key },
    (charge.owner, result) :: charge.waiters.map fun (waiter, hash) =>
      (waiter, if charge.requestHash ≠ hash then .reused else result))

end Turns

def toChargeResponse (record : ChargeRecord) : JsonObject :=
  [("id", .str record.id), ("status", .str record.status.text)] ++
    (record.declineCode.map fun code => ("declineCode", Json.str code)).toList ++
    [("amountCents", .num record.amountCents), ("currency", .str record.currency),
      ("cardLast4", .str record.cardLast4), ("createdAt", .str record.createdAt)]

def toChargeStatusResponse (record : ChargeRecord) : JsonObject :=
  [("id", .str record.id), ("idempotencyKey", .str record.idempotencyKey),
      ("status", .str record.status.text)] ++
    (record.declineCode.map fun code => ("declineCode", Json.str code)).toList ++
    [("amountCents", .num record.amountCents), ("currency", .str record.currency),
      ("cardLast4", .str record.cardLast4), ("createdAt", .str record.createdAt)]

/-- `POST /charge` -/
def chargeReply (request : Request) : ChargeResult → Response
  | .reused => ⟨request, 422, some [("error", .str "idempotency_key_reused")]⟩
  | .providerError => ⟨request, 500, some [("error", .str "provider_error")]⟩
  | .charged record =>
    ⟨request, if record.status = .approved then 200 else 402, some (toChargeResponse record)⟩

/-- `GET /charge/:idempotencyKey` -/
def statusReply (service : ChargeService) (request : Request) (key : String) : Response :=
  match service.records.lookup key with
  | some record => ⟨request, 200, some (toChargeStatusResponse record)⟩
  | none => ⟨request, 404, some [("error", .str "not_found")]⟩

/-- The turn in which a request arrives. -/
def deliver (sha256 : String → String) (service : ChargeService) (request : Request)
    (stamp : Stamp) : ChargeService × List Response :=
  match request.payload with
  | .charge key body =>
    if key = "" ∨ body.cardNumber = "" ∨ body.currency = "" then
      (service, [⟨request, 400, some [("error", .str "invalid_request")]⟩])
    else
      let (service, result) := arrive sha256 service request key body stamp
      (service, (result.map (chargeReply request)).toList)
  | .getStatus key => (service, [statusReply service request key])

/-- The turn in which the timer of `key` fires, if it is set. -/
def fire (sha256 : String → String) (service : ChargeService) (key : String) (stamp : Stamp) :
    Option (ChargeService × List Response) :=
  (service.pending.lookup key).map fun charge =>
    let (service, results) := finish sha256 service key charge stamp
    (service, results.map fun (request, result) => chargeReply request result)

/-- The provider only stores what was asked: every record stems from a body sent
under its key, and a charge still pending without a record has none stored. -/
structure Faithful (Asked : String → ChargeRequestBody → Prop) (service : ChargeService) :
    Prop where
  recorded : ∀ {key record}, service.records.lookup key = some record →
    ∃ body, Asked key body ∧ record.amountCents = body.amountCents ∧
      record.currency = body.currency
  asked : ∀ {key charge}, service.pending.lookup key = some charge → Asked key charge.body
  stored : ∀ {key charge}, service.pending.lookup key = some charge →
    service.records.lookup key = charge.record
  requests : ∀ {key charge}, service.pending.lookup key = some charge →
    charge.owner.Charges key ∧ ∀ waiter ∈ charge.waiters, waiter.1.Charges key

/-- Records are never changed or lost. -/
def Extends (service after : ChargeService) : Prop :=
  ∀ {key record}, service.records.lookup key = some record →
    after.records.lookup key = some record

/-- A record with this status is stored under the key. -/
def Stored (service : ChargeService) (key : String) (status : ChargeStatus) : Prop :=
  ∃ record, service.records.lookup key = some record ∧ record.status = status

/-- What a reply says of the record stored under its key is so. -/
def Response.Holds (service : ChargeService) (response : Response) : Prop :=
  match response.request.payload with
  | .charge key _ =>
    (response.httpStatus = 200 → Stored service key .approved) ∧
      (response.httpStatus = 402 → Stored service key .declined)
  | .getStatus key => response.httpStatus = 200 → ∃ status, Stored service key status ∧
      readStringField response.body "status" = some status.text

/-- A result speaks of the record stored under the key. -/
def Truthful (service : ChargeService) (key : String) : ChargeResult → Prop
  | .charged record => service.records.lookup key = some record
  | .providerError | .reused => True

section Spec
variable {Asked : String → ChargeRequestBody → Prop} {service after : ChargeService}
  {sha256 : String → String} {key : String} {body : ChargeRequestBody} {stamp : Stamp}
  {request : Request}

theorem Extends.refl : Extends service service := id

theorem Extends.stored (grown : Extends service after) {status : ChargeStatus}
    (known : Stored service key status) : Stored after key status := by
  obtain ⟨record, found, same⟩ := known
  exact ⟨record, grown found, same⟩

/-- What was so stays so. -/
theorem Response.Holds.mono {response : Response} (grown : Extends service after)
    (holds : response.Holds service) : response.Holds after := by
  unfold Response.Holds at holds ⊢
  split at holds
  · exact ⟨fun ok => grown.stored (holds.1 ok), fun declined => grown.stored (holds.2 declined)⟩
  · intro ok
    obtain ⟨status, known, said⟩ := holds ok
    exact ⟨status, grown.stored known, said⟩

theorem Faithful.mono {Asked' : String → ChargeRequestBody → Prop}
    (faithful : Faithful Asked service) (more : ∀ {key body}, Asked key body → Asked' key body) :
    Faithful Asked' service where
  recorded found := by
    obtain ⟨body, asked, amount, currency⟩ := faithful.recorded found
    exact ⟨body, more asked, amount, currency⟩
  asked found := more (faithful.asked found)
  stored := faithful.stored
  requests := faithful.requests

theorem lookup_store {status : ChargeStatus} :
    (service.store (newRecord sha256 key body status stamp)).records.lookup key =
      some (newRecord sha256 key body status stamp) := AList.lookup_insert _

theorem lookup_store_ne {status : ChargeStatus} {other : String} (apart : other ≠ key) :
    (service.store (newRecord sha256 key body status stamp)).records.lookup other =
      service.records.lookup other := AList.lookup_insert_ne apart

theorem store_extends (fresh : service.records.lookup key = none) {status : ChargeStatus} :
    Extends service (service.store (newRecord sha256 key body status stamp)) := by
  intro other record found
  have apart : other ≠ key := by
    rintro rfl
    simp [fresh] at found
  exact (lookup_store_ne apart).trans found

theorem Faithful.store (faithful : Faithful Asked service) (asked : Asked key body)
    (fresh : service.records.lookup key = none)
    (idle : service.pending.lookup key = none) {status : ChargeStatus} :
    Faithful Asked (service.store (newRecord sha256 key body status stamp)) where
  recorded {other record} found := by
    by_cases same : other = key
    · subst same
      cases lookup_store.symm.trans found
      exact ⟨body, asked, rfl, rfl⟩
    · exact faithful.recorded ((lookup_store_ne same).symm.trans found)
  asked := faithful.asked
  stored {other charge} found := by
    have apart : other ≠ key := by
      rintro rfl
      exact absurd (idle.symm.trans found) nofun
    exact (lookup_store_ne apart).trans (faithful.stored found)
  requests := faithful.requests

theorem Faithful.await (faithful : Faithful Asked service) {charge : PendingCharge}
    (asked : Asked key charge.body) (stored : service.records.lookup key = charge.record)
    (requests : charge.owner.Charges key ∧ ∀ waiter ∈ charge.waiters, waiter.1.Charges key) :
    Faithful Asked (service.await key charge) where
  recorded := faithful.recorded
  asked {other charge'} found := by
    by_cases same : other = key
    · subst same
      rw [ChargeService.await, AList.lookup_insert] at found
      cases found
      exact asked
    · exact faithful.asked ((AList.lookup_insert_ne same).symm.trans found)
  stored {other charge'} found := by
    by_cases same : other = key
    · subst same
      rw [ChargeService.await, AList.lookup_insert] at found
      cases found
      exact stored
    · exact faithful.stored ((AList.lookup_insert_ne same).symm.trans found)
  requests {other charge'} found := by
    by_cases same : other = key
    · subst same
      rw [ChargeService.await, AList.lookup_insert] at found
      cases found
      exact requests
    · exact faithful.requests ((AList.lookup_insert_ne same).symm.trans found)

theorem Faithful.erase (faithful : Faithful Asked service) :
    Faithful Asked { service with pending := service.pending.erase key } := by
  have kept : ∀ {other charge}, (service.pending.erase key).lookup other = some charge →
      service.pending.lookup other = some charge := by
    intro other charge found
    by_cases same : other = key
    · subst same
      simp at found
    · rwa [AList.lookup_erase_ne same] at found
  exact ⟨faithful.recorded, fun found => faithful.asked (kept found),
    fun found => faithful.stored (kept found), fun found => faithful.requests (kept found)⟩

/-- One arriving charge request. -/
theorem arrive_spec (sha256 : String → String) (stamp : Stamp)
    (faithful : Faithful Asked service) (asked : Asked key body)
    (mine : request.Charges key) :
    Faithful Asked (arrive sha256 service request key body stamp).1 ∧
      Extends service (arrive sha256 service request key body stamp).1 ∧
      ∀ result ∈ (arrive sha256 service request key body stamp).2,
        Truthful (arrive sha256 service request key body stamp).1 key result := by
  simp only [arrive]
  split
  · rename_i alreadyPending found
    obtain ⟨owner, waiters⟩ := faithful.requests found
    have asked' : Asked key alreadyPending.body := faithful.asked found
    have stored' : service.records.lookup key = alreadyPending.record := faithful.stored found
    refine ⟨?_, Extends.refl, nofun⟩
    apply Faithful.await faithful
    · exact asked'
    · exact stored'
    · refine ⟨owner, fun waiter member => ?_⟩
      rcases List.mem_append.mp member with old | new
      · exact waiters waiter old
      · rw [List.mem_singleton.mp new]
        exact mine
  · rename_i idle
    split
    · simp only [arriveCard0004]
      cases found : service.records.lookup key with
      | some existing =>
        exact ⟨faithful.await asked found ⟨mine, nofun⟩, Extends.refl, nofun⟩
      | none =>
        exact ⟨(faithful.store asked found idle).await asked lookup_store ⟨mine, nofun⟩,
          store_extends found, nofun⟩
    · split
      · rename_i existing found
        split
        · exact ⟨faithful, Extends.refl, by simp [Truthful]⟩
        · exact ⟨faithful, Extends.refl, by simpa [Truthful] using found⟩
      · rename_i absent
        split
        · exact ⟨faithful, Extends.refl, by simp [Truthful]⟩
        · split
          · exact ⟨faithful.store asked absent idle, store_extends absent,
              by simpa [Truthful] using lookup_store⟩
          · exact ⟨faithful.await asked absent ⟨mine, nofun⟩, Extends.refl, nofun⟩

theorem settleCharge_spec (sha256 : String → String) (stamp : Stamp)
    (faithful : Faithful Asked service) {charge : PendingCharge}
    (found : service.pending.lookup key = some charge) :
    Extends service (settleCharge sha256 service key charge stamp).1 ∧
      (settleCharge sha256 service key charge stamp).1.pending = service.pending ∧
      Faithful Asked { (settleCharge sha256 service key charge stamp).1 with
        pending := service.pending.erase key } ∧
      Truthful (settleCharge sha256 service key charge stamp).1 key
        (settleCharge sha256 service key charge stamp).2 := by
  have stored := faithful.stored found
  simp only [settleCharge]
  split
  · rename_i record known
    rw [known] at stored
    split
    · exact ⟨Extends.refl, rfl, faithful.erase, trivial⟩
    · exact ⟨Extends.refl, rfl, faithful.erase, stored⟩
  · rename_i known
    rw [known] at stored
    have kept : Faithful Asked { service with pending := service.pending.erase key } :=
      faithful.erase
    exact ⟨store_extends stored, rfl,
      kept.store (faithful.asked found) stored (AList.lookup_erase _ _), lookup_store⟩

/-- One timer that fires. -/
theorem finish_spec (sha256 : String → String) (stamp : Stamp)
    (faithful : Faithful Asked service) {charge : PendingCharge}
    (found : service.pending.lookup key = some charge) :
    Faithful Asked (finish sha256 service key charge stamp).1 ∧
      Extends service (finish sha256 service key charge stamp).1 ∧
      ∀ reply ∈ (finish sha256 service key charge stamp).2, reply.1.Charges key ∧
        Truthful (finish sha256 service key charge stamp).1 key reply.2 := by
  obtain ⟨extended, same, kept, truthful⟩ :=
    settleCharge_spec sha256 stamp faithful found
  obtain ⟨owner, waiters⟩ := faithful.requests found
  refine ⟨by simpa only [finish, same] using kept, extended, fun reply member => ?_⟩
  rcases List.mem_cons.mp member with rfl | later
  · exact ⟨owner, truthful⟩
  · obtain ⟨waiter, waits, rfl⟩ := List.mem_map.mp later
    refine ⟨waiters waiter waits, ?_⟩
    dsimp only
    split
    · trivial
    · exact truthful

theorem chargeReply_holds {result : ChargeResult} (mine : request.Charges key)
    (truthful : Truthful service key result) : (chargeReply request result).Holds service := by
  obtain ⟨body, payload⟩ := mine
  cases result with
  | charged record =>
    cases status : record.status <;>
      simp [Response.Holds, chargeReply, payload, status, Stored] <;>
      exact ⟨record, truthful, status⟩
  | providerError => simp [Response.Holds, chargeReply, payload]
  | reused => simp [Response.Holds, chargeReply, payload]

theorem statusReply_holds (payload : request.payload = .getStatus key) :
    (statusReply service request key).Holds service := by
  unfold statusReply
  split
  · rename_i record found
    simp only [Response.Holds, payload]
    exact fun _ => ⟨record.status, ⟨record, found, rfl⟩, rfl⟩
  · simp [Response.Holds, payload]

/-- An arriving request keeps the records, and the reply to it is true. -/
theorem deliver_spec (sha256 : String → String) (request : Request) (stamp : Stamp)
    (faithful : Faithful Asked service)
    (asked : ∀ {key body}, request.payload = .charge key body → Asked key body) :
    Faithful Asked (deliver sha256 service request stamp).1 ∧
      Extends service (deliver sha256 service request stamp).1 ∧
      ∀ response ∈ (deliver sha256 service request stamp).2, response.request = request ∧
        response.Holds (deliver sha256 service request stamp).1 := by
  unfold deliver
  split
  · rename_i key body payload
    split
    · exact ⟨faithful, Extends.refl, by simp [Response.Holds, payload]⟩
    · obtain ⟨kept, extended, truthful⟩ :=
        arrive_spec sha256 stamp faithful (asked payload) ⟨body, payload⟩
      refine ⟨kept, extended, fun response member => ?_⟩
      obtain ⟨result, answered, rfl⟩ := Option.map_eq_some_iff.mp (Option.mem_toList.mp member)
      refine ⟨by cases result <;> rfl, ?_⟩
      exact chargeReply_holds ⟨body, payload⟩ (truthful result answered)
  · rename_i key payload
    refine ⟨faithful, Extends.refl, fun response member => ?_⟩
    rw [List.mem_singleton.mp member]
    exact ⟨by unfold statusReply; split <;> rfl, statusReply_holds payload⟩

/-- So does a timer that fires. -/
theorem fire_spec (faithful : Faithful Asked service) {replies : List Response}
    (fired : fire sha256 service key stamp = some (after, replies)) :
    Faithful Asked after ∧ Extends service after ∧ ∀ response ∈ replies,
      response.request.Charges key ∧ response.Holds after := by
  obtain ⟨charge, found, done⟩ := Option.map_eq_some_iff.mp fired
  cases done
  obtain ⟨kept, extended, answered⟩ :=
    finish_spec sha256 stamp faithful found
  refine ⟨kept, extended, fun response member => ?_⟩
  obtain ⟨reply, given, rfl⟩ := List.mem_map.mp member
  obtain ⟨mine, truthful⟩ := answered reply given
  exact ⟨by rcases reply with ⟨_, _ | _ | _⟩ <;> exact mine, chargeReply_holds mine truthful⟩

/-- The two services agree on what is under the key. -/
def SameAt (key : String) (service after : ChargeService) : Prop :=
  after.records.lookup key = service.records.lookup key ∧
    after.pending.lookup key = service.pending.lookup key

theorem arrive_frame {other : String} (apart : other ≠ key) :
    SameAt other service (arrive sha256 service request key body stamp).1 := by
  have stores : ∀ {service : ChargeService} {status}, SameAt other service
      (service.store (newRecord sha256 key body status stamp)) :=
    fun {_ _} => ⟨lookup_store_ne apart, rfl⟩
  have awaits : ∀ {service : ChargeService} {charge}, SameAt other service
      (service.await key charge) := fun {_ _} => ⟨rfl, AList.lookup_insert_ne apart⟩
  simp only [arrive]
  split
  · exact awaits
  · split
    · unfold arriveCard0004
      split
      · exact awaits
      · exact ⟨stores.1, AList.lookup_insert_ne apart⟩
    · split
      · split <;> exact ⟨rfl, rfl⟩
      · split
        · exact ⟨rfl, rfl⟩
        · split
          · exact stores
          · exact awaits

/-- A request changes nothing under the keys it does not charge. -/
theorem deliver_frame (sha256 : String → String) (stamp : Stamp)
    (apart : ¬ request.Charges key) :
    SameAt key service (deliver sha256 service request stamp).1 := by
  unfold deliver
  split
  · rename_i key' body payload
    split
    · exact ⟨rfl, rfl⟩
    · exact arrive_frame fun same => apart ⟨body, same ▸ payload⟩
  · exact ⟨rfl, rfl⟩

theorem fire_frame {key' : String} {replies : List Response}
    (fired : fire sha256 service key' stamp = some (after, replies)) (apart : key ≠ key') :
    SameAt key service after := by
  obtain ⟨charge, -, done⟩ := Option.map_eq_some_iff.mp fired
  cases done
  split
  · split <;> exact ⟨rfl, AList.lookup_erase_ne apart⟩
  · exact ⟨lookup_store_ne apart, AList.lookup_erase_ne apart⟩

/-- A query answered with 404 has found no record. -/
theorem statusReply_missing (missing : (statusReply service request key).httpStatus = 404) :
    service.records.lookup key = none := by
  unfold statusReply at missing
  split at missing
  · cases missing
  · assumption

end Spec

end Canals.Provider
