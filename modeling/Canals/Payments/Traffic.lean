import Canals.Payments.Gateway
import Mathlib.Logic.Relation

/-! Any number of gateway calls against one provider that is not restarted, over
a network that delays, reorders and loses what it carries. -/
namespace Canals

namespace Provider

/-- A definitive reply carries the record stored under its key. -/
def Response.Carries (service : ChargeService) (response : Response) : Prop :=
  match response.request.payload with
  | .charge key _ => response.httpStatus = 200 ∨ response.httpStatus = 402 →
    ∃ record, service.records.lookup key = some record ∧
      response = chargeReply response.request (.charged record)
  | .getStatus key => response.httpStatus = 200 →
    ∃ record, service.records.lookup key = some record ∧
      response.body = some (toChargeStatusResponse record)

section Spec
variable {Asked : String → ChargeRequestBody → Prop} {service after : ChargeService}
  {sha256 : String → String} {key : String} {stamp : Stamp} {request : Request}

theorem Response.Carries.mono {response : Response} (grown : Extends service after)
    (carries : response.Carries service) : response.Carries after := by
  unfold Response.Carries at carries ⊢
  split at carries
  · intro definitive
    obtain ⟨record, found, same⟩ := carries definitive
    exact ⟨record, grown found, same⟩
  · intro ok
    obtain ⟨record, found, body⟩ := carries ok
    exact ⟨record, grown found, body⟩

theorem chargeReply_carries {result : ChargeResult} (mine : request.Charges key)
    (truthful : Truthful service key result) :
    (chargeReply request result).Carries service := by
  obtain ⟨body, payload⟩ := mine
  have asked : (chargeReply request result).request.payload = .charge key body := by
    cases result <;> exact payload
  simp only [Response.Carries, asked]
  intro definitive
  cases result with
  | charged record => exact ⟨record, truthful, rfl⟩
  | providerError => simp [chargeReply] at definitive
  | reused => simp [chargeReply] at definitive

theorem statusReply_carries (payload : request.payload = .getStatus key) :
    (statusReply service request key).Carries service := by
  unfold statusReply
  split
  · rename_i record found
    simp only [Response.Carries, payload]
    exact fun _ => ⟨record, found, rfl⟩
  · simp [Response.Carries, payload]

theorem deliver_carries (sha256 : String → String) (request : Request) (stamp : Stamp)
    (faithful : Faithful Asked service)
    (asked : ∀ {key body}, request.payload = .charge key body → Asked key body) :
    ∀ response ∈ (deliver sha256 service request stamp).2,
      response.Carries (deliver sha256 service request stamp).1 := by
  intro response member
  unfold deliver at member ⊢
  split at member
  · rename_i key body payload
    split at member
    · rw [List.mem_singleton.mp member]
      simp [Response.Carries, payload]
    · have mine : request.Charges key := ⟨body, payload⟩
      obtain ⟨-, -, truthful⟩ := arrive_spec sha256 stamp faithful (asked payload) mine
      obtain ⟨result, answered, rfl⟩ := Option.map_eq_some_iff.mp (Option.mem_toList.mp member)
      rename_i valid
      simp only [valid, if_false]
      exact chargeReply_carries mine (truthful result answered)
  · rename_i key payload
    rw [List.mem_singleton.mp member]
    exact statusReply_carries payload

theorem fire_carries (faithful : Faithful Asked service) {replies : List Response}
    (fired : fire sha256 service key stamp = some (after, replies)) :
    ∀ response ∈ replies, response.Carries after := by
  intro response member
  obtain ⟨charge, found, done⟩ := Option.map_eq_some_iff.mp fired
  cases done
  obtain ⟨-, -, answered⟩ := finish_spec sha256 stamp faithful found
  obtain ⟨reply, given, rfl⟩ := List.mem_map.mp member
  obtain ⟨mine, truthful⟩ := answered reply given
  exact chargeReply_carries mine truthful

end Spec

end Provider

open Provider (ChargeService Payload Request Response Stamp Stored Faithful Extends)

/-- A call of the gateway. -/
inductive GatewayCall where
  | charge (command : ChargeCommand)
  | getStatus (idempotencyKey : String)

namespace GatewayCall

def payload : GatewayCall → Payload
  | charge command => chargePayload command
  | getStatus idempotencyKey => .getStatus idempotencyKey

def result (outcome : Except AttemptError ProviderResponse) : GatewayCall → ChargeResult
  | charge command => chargeResultOf command.cardNumber outcome
  | getStatus _ => statusResultOf outcome

end GatewayCall

inductive Progress where
  | attempting (exchange : Exchange)
  | returned (result : ChargeResult)

/-- The provider, the requests on their way to it, its responses, and the calls. -/
structure Traffic (P : Type) where
  service : ChargeService := {}
  requests : Nat := 0
  network : List Request := []
  responses : List Response := []
  progress : P → Progress

namespace Traffic

inductive Action (P : Type) where
  | send (p : P)
  | receive (p : P) (position : Nat) (garbled : Bool)
  | abandon (p : P) (e : AttemptError)
  | deliver (request : Request) (stamp : Stamp)
  | fire (idempotencyKey : String) (stamp : Stamp)
  | drop (request : Request)

variable {P : Type} [DecidableEq P]

def initial (calls : P → GatewayCall) : Traffic P where
  progress p := .attempting { payload := (calls p).payload }

def goto (s : Traffic P) (p : P) (progress : Progress) : Traffic P :=
  { s with progress := Function.update s.progress p progress }

/-- Where a call stands after an attempt. -/
def resume (call : GatewayCall) : Attempted → Progress
  | .again exchange => .attempting exchange
  | .done outcome => .returned (call.result outcome)

def step (sha256 : String → String) (calls : P → GatewayCall) (s : Traffic P) :
    Action P → Option (Traffic P)
  | .send p =>
    match s.progress p with
    | .attempting exchange =>
      if exchange.request.isNone then
        let request : Request := ⟨s.requests, exchange.payload⟩
        some { s.goto p (.attempting { exchange with request := some request }) with
          requests := s.requests + 1
          network := s.network ++ [request] }
      else none
    | .returned _ => none
  | .receive p position garbled =>
    match s.progress p, s.responses[position]? with
    | .attempting exchange, some response =>
      if exchange.request = some response.request then
        some (s.goto p (resume (calls p)
          (exchange.attempted (toProviderResponse response garbled))))
      else none
    | _, _ => none
  -- the breaker rejects before anything is sent; the rest may strike after it
  | .abandon p e =>
    match s.progress p with
    | .attempting exchange =>
      if e = .circuitOpen ↔ exchange.request.isNone then
        some (s.goto p (resume (calls p) (exchange.attempted (.error e))))
      else none
    | .returned _ => none
  | .deliver request stamp =>
    if request ∈ s.network then
      let (service, replies) := Provider.deliver sha256 s.service request stamp
      some { s with
        service
        network := s.network.erase request
        responses := s.responses ++ replies }
    else none
  | .fire key stamp =>
    (Provider.fire sha256 s.service key stamp).map fun (service, replies) =>
      { s with service, responses := s.responses ++ replies }
  | .drop request => some { s with network := s.network.erase request }

def Steps (sha256 : String → String) (calls : P → GatewayCall) : Traffic P → Traffic P → Prop :=
  Relation.ReflTransGen fun s t => ∃ a, s.step sha256 calls a = some t

def run (sha256 : String → String) (calls : P → GatewayCall) (s : Traffic P)
    (actions : List (Action P)) : Option (Traffic P) :=
  actions.foldlM (step sha256 calls) s

theorem steps_of_run {sha256 : String → String} {calls : P → GatewayCall} {s t : Traffic P}
    {actions : List (Action P)} (ran : s.run sha256 calls actions = some t) :
    Steps sha256 calls s t := by
  induction actions generalizing s with
  | nil =>
    cases ran
    exact .refl
  | cons action actions ih =>
    simp only [run, List.foldlM_cons, Option.bind_eq_bind] at ran
    obtain ⟨u, stepped, rest⟩ := Option.bind_eq_some_iff.mp ran
    exact (ih rest).head ⟨action, stepped⟩

end Traffic

/-- How a call stands to the provider: what it asks for is what it was called
with, and a definitive result is what is stored. -/
def Progress.Sound (call : GatewayCall) (service : ChargeService) : Progress → Prop
  | attempting exchange => exchange.payload = call.payload ∧
    ∀ request, exchange.request = some request → request.payload = call.payload
  | returned result => result.Reports service call.payload.key

structure Traffic.Sound {P : Type} (calls : P → GatewayCall) (s : Traffic P) : Prop where
  faithful : Faithful (fun _ _ => True) s.service
  holds : ∀ response ∈ s.responses, response.Holds s.service
  carries : ∀ response ∈ s.responses, response.Carries s.service
  progress : ∀ p, (s.progress p).Sound (calls p) s.service

section Spec
variable {call : GatewayCall} {service after : ChargeService} {exchange : Exchange}

theorem Progress.Sound.mono {progress : Progress} (grown : Extends service after)
    (sound : progress.Sound call service) : progress.Sound call after := by
  cases progress with
  | attempting exchange => exact sound
  | returned result => exact ChargeResult.Reports.mono grown sound

theorem GatewayCall.result_reports {response : Response} (garbled : Bool)
    (asked : response.request.payload = call.payload) (holds : response.Holds service) :
    (call.result (toProviderResponse response garbled)).Reports service call.payload.key := by
  cases call with
  | charge command => exact chargeResultOf_reports asked holds
  | getStatus key => exact statusResultOf_reports asked holds

theorem GatewayCall.result_error (e : AttemptError) :
    (call.result (.error e)).Reports service call.payload.key := by
  cases call with
  | charge command => exact chargeResultOf_error e
  | getStatus key => exact statusResultOf_error e

/-- The call goes on with its next attempt, or returns what the last came to. -/
theorem Traffic.resume_sound {outcome : Except AttemptError ProviderResponse}
    (asked : exchange.payload = call.payload)
    (reports : (call.result outcome).Reports service call.payload.key) :
    (Traffic.resume call (exchange.attempted outcome)).Sound call service := by
  unfold Exchange.attempted
  cases outcome with
  | ok response => exact reports
  | error e =>
    dsimp only
    split
    · exact reports
    · exact ⟨asked, nofun⟩

end Spec

namespace Traffic
variable {P : Type} [DecidableEq P] {sha256 : String → String} {calls : P → GatewayCall}
  {s t : Traffic P} {a : Action P}

omit [DecidableEq P] in
theorem initial_sound (calls : P → GatewayCall) : (initial calls).Sound calls where
  faithful := ⟨nofun, nofun, nofun, nofun⟩
  holds := nofun
  carries := nofun
  progress _ := ⟨rfl, nofun⟩

theorem Sound.goto (sound : s.Sound calls) {p : P} {progress : Progress}
    {network : List Request} {requests : Nat} (new : progress.Sound (calls p) s.service) :
    ({ s.goto p progress with network, requests } : Traffic P).Sound calls where
  faithful := sound.faithful
  holds := sound.holds
  carries := sound.carries
  progress q := by
    by_cases same : q = p
    · subst same
      simpa [Traffic.goto] using new
    · simpa [Traffic.goto, same] using sound.progress q

omit [DecidableEq P] in
/-- The provider's turns: records stay, and the new replies are true. -/
theorem Sound.serve (sound : s.Sound calls) {service : ChargeService} {network : List Request}
    {replies : List Response} (faithful : Faithful (fun _ _ => True) service)
    (grown : Extends s.service service) (holds : ∀ response ∈ replies, response.Holds service)
    (carries : ∀ response ∈ replies, response.Carries service) :
    ({ s with service, network, responses := s.responses ++ replies } : Traffic P).Sound calls where
  faithful := faithful
  holds response member := by
    rcases List.mem_append.mp member with old | new
    · exact (sound.holds response old).mono grown
    · exact holds response new
  carries response member := by
    rcases List.mem_append.mp member with old | new
    · exact (sound.carries response old).mono grown
    · exact carries response new
  progress p := (sound.progress p).mono grown

theorem Sound.step (sound : s.Sound calls) (stepped : s.step sha256 calls a = some t) :
    t.Sound calls ∧ Extends s.service t.service := by
  have always : ∀ {request : Request} {key body}, request.payload = .charge key body → True :=
    fun _ => trivial
  cases a with
  | send p =>
    simp only [Traffic.step] at stepped
    split at stepped <;> try contradiction
    rename_i exchange here
    split at stepped <;> cases stepped
    obtain ⟨asked, -⟩ := here ▸ sound.progress p
    refine ⟨sound.goto ⟨asked, ?_⟩, Extends.refl⟩
    rintro request ⟨⟩
    exact asked
  | receive p position garbled =>
    simp only [Traffic.step] at stepped
    split at stepped <;> try contradiction
    rename_i exchange response here given
    split at stepped <;> cases stepped
    rename_i mine
    obtain ⟨asked, sent⟩ := here ▸ sound.progress p
    have holds := sound.holds response (List.mem_of_getElem? given)
    have reports := GatewayCall.result_reports garbled (sent _ mine) holds
    exact ⟨sound.goto (resume_sound asked reports), Extends.refl⟩
  | abandon p e =>
    simp only [Traffic.step] at stepped
    split at stepped <;> try contradiction
    rename_i exchange here
    split at stepped <;> cases stepped
    obtain ⟨asked, -⟩ := here ▸ sound.progress p
    exact ⟨sound.goto (resume_sound asked (GatewayCall.result_error e)), Extends.refl⟩
  | deliver request stamp =>
    simp only [Traffic.step] at stepped
    split at stepped <;> cases stepped
    obtain ⟨faithful, grown, replies⟩ :=
      Provider.deliver_spec sha256 request stamp sound.faithful always
    have carries := Provider.deliver_carries sha256 request stamp sound.faithful always
    exact ⟨sound.serve faithful grown (fun response member => (replies response member).2) carries,
      grown⟩
  | fire key stamp =>
    obtain ⟨⟨service, replies⟩, fired, rfl⟩ := Option.map_eq_some_iff.mp stepped
    obtain ⟨faithful, grown, true_⟩ := Provider.fire_spec sound.faithful fired
    have carries := Provider.fire_carries sound.faithful fired
    exact ⟨sound.serve faithful grown (fun response member => (true_ response member).2) carries,
      grown⟩
  | drop request =>
    cases stepped
    exact ⟨⟨sound.faithful, sound.holds, sound.carries, sound.progress⟩, Extends.refl⟩

theorem Steps.sound (sound : s.Sound calls) (run : Steps sha256 calls s t) :
    t.Sound calls ∧ Extends s.service t.service := by
  induction run with
  | refl => exact ⟨sound, Extends.refl⟩
  | tail _ last ih =>
    obtain ⟨a, stepped⟩ := last
    obtain ⟨sound, grown⟩ := ih
    obtain ⟨sound', grown'⟩ := sound.step stepped
    exact ⟨sound', fun found => grown' (grown found)⟩

/-- Whatever the schedule of attempts, the provider keeps the one record it has
stored under a key; every `200` and `402` for the key carries that record; and
every definitive result of `charge` and `getStatus` is that record's status. -/
theorem one_charge_per_key (before : Steps sha256 calls (initial calls) s)
    (after : Steps sha256 calls s t) (key : String) :
    (∀ record, s.service.records.lookup key = some record →
      t.service.records.lookup key = some record) ∧
    (∀ response ∈ t.responses, ∀ body, response.request.payload = .charge key body →
      response.httpStatus = 200 ∨ response.httpStatus = 402 →
      ∃ record, t.service.records.lookup key = some record ∧
        response.body = some (Provider.toChargeResponse record) ∧
        response.httpStatus = if record.status = .approved then 200 else 402) ∧
    ∀ p result, (calls p).payload.key = key → t.progress p = .returned result →
      (result.status = .CAPTURED → Stored t.service key .approved) ∧
      (result.status = .DECLINED → Stored t.service key .declined) := by
  obtain ⟨sound, -⟩ := Steps.sound (initial_sound calls) before
  obtain ⟨sound, grown⟩ := Steps.sound sound after
  refine ⟨fun record found => grown found, fun response member body asked definitive => ?_,
    fun p result mine told => ?_⟩
  · have carries := sound.carries response member
    simp only [Provider.Response.Carries, asked] at carries
    obtain ⟨record, found, same⟩ := carries definitive
    refine ⟨record, found, ?_, ?_⟩ <;> rw [same] <;> rfl
  · have reports := told ▸ sound.progress p
    subst mine
    exact ⟨reports.captured, reports.declined⟩

section Lamp

def lampCharge : ChargeCommand where
  cardNumber := "4111111111111111"
  amountMinor := 2500
  currency := "USD"
  description := "Order CNL-2026-000001"
  idempotencyKey := "order:1:attempt:1"

/-- One process charges the order, another asks for the charge. -/
def lampGateway : Bool → GatewayCall
  | false => .charge lampCharge
  | true => .getStatus "order:1:attempt:1"

def lampHash (text : String) : String :=
  if text = "1111|2500|USD|Order CNL-2026-000001" then
    "6d7c463abbb6fbec097f79586f246b94fc9aef21280f2afb2ca83a78290fe4c2"
  else ""

/-- The first attempt times out while the provider works on it; the second joins
it there, and the late first reply is lost. -/
def lampOverlap : List (Action Bool) :=
  [.send false, .deliver ⟨0, chargePayload lampCharge⟩ ⟨"1", "12:00"⟩, .abandon false .timeout,
    .send false, .deliver ⟨1, chargePayload lampCharge⟩ ⟨"2", "12:01"⟩,
    .fire "order:1:attempt:1" ⟨"3", "12:02"⟩]

/-- Both calls return. -/
def lampAnswers : List (Action Bool) :=
  [.receive false 1 false, .send true, .deliver ⟨2, .getStatus "order:1:attempt:1"⟩ ⟨"4", "12:03"⟩,
    .receive true 2 false]

def lampStored : Traffic Bool :=
  ((initial lampGateway).run lampHash lampGateway lampOverlap).get (by decide +kernel)

def lampReturned : Traffic Bool :=
  (lampStored.run lampHash lampGateway lampAnswers).get (by decide +kernel)

theorem one_charge_per_key_lamp :
    (∀ record, lampStored.service.records.lookup "order:1:attempt:1" = some record →
      lampReturned.service.records.lookup "order:1:attempt:1" = some record) ∧
    (∀ response ∈ lampReturned.responses, ∀ body,
      response.request.payload = .charge "order:1:attempt:1" body →
      response.httpStatus = 200 ∨ response.httpStatus = 402 →
      ∃ record, lampReturned.service.records.lookup "order:1:attempt:1" = some record ∧
        response.body = some (Provider.toChargeResponse record) ∧
        response.httpStatus = if record.status = .approved then 200 else 402) ∧
    ∀ p result, (lampGateway p).payload.key = "order:1:attempt:1" →
      lampReturned.progress p = .returned result →
      (result.status = .CAPTURED → Stored lampReturned.service "order:1:attempt:1" .approved) ∧
      (result.status = .DECLINED → Stored lampReturned.service "order:1:attempt:1" .declined) :=
  one_charge_per_key (steps_of_run (Option.some_get _).symm)
    (steps_of_run (Option.some_get _).symm) "order:1:attempt:1"

end Lamp

end Traffic

end Canals
