import Canals.Idempotency.Protocol

/-! Where an answer comes from: from the call itself or, for a replay, from the one
call that ran the saga; and what an answer says once sagas say what is so. -/
namespace Canals.Idempotency

/-- Its status is none of those that speak of an order. -/
def PlainProblem (exception : Exception) : Prop :=
  (buildProblem exception).status ≠ 201 ∧ (buildProblem exception).status ≠ 402 ∧
    (buildProblem exception).status ≠ 502

/-- What a call has to say, or has said, of a saga's outcome. -/
def Ctl.Honest (platform : Platform) (good : OrderResponseParams → Prop)
    (fair : Exception → Prop) : Ctl → Prop
  | completing _ result => good result
  | failing _ exception | answered _ (.threw exception) => fair exception
  | answered _ (.resolved status body) =>
    status = 201 ∧ ∃ result, good result ∧ body = platform.orderResponse result
  | answered id (.replay _ _) => id = none
  | _ => True

/-- Steps of the service itself; the other two are the saga's. -/
def Action.own {P : Type} : Action P → Bool
  | .resolve _ _ _ | .reject _ _ => false
  | _ => true

section Calls
variable {platform : Platform} {params : CreateOrderIdempotentParams} {rows rows' : KeyRows}
  {good good' : OrderResponseParams → Prop} {fair fair' : Exception → Prop} {ctl ctl' : Ctl}

theorem Ctl.Honest.mono (honest : ctl.Honest platform good fair)
    (better : ∀ result, good result → good' result) (fairer : ∀ e, fair e → fair' e) :
    ctl.Honest platform good' fair' := by
  cases ctl with
  | completing _ result => exact better _ honest
  | failing _ exception => exact fairer _ honest
  | answered _ answer =>
    cases answer with
    | replay status body => exact honest
    | resolved status body =>
      obtain ⟨created, result, known, same⟩ := honest
      exact ⟨created, result, better _ known, same⟩
    | threw exception => exact fairer _ honest
  | _ => trivial

theorem plain_other (e : Thrown) : PlainProblem (.other e) := by
  refine ⟨?_, ?_, ?_⟩ <;> simp [buildProblem]

theorem plain_badRequest (message : BadRequestMessage) : PlainProblem (.badRequest message) := by
  refine ⟨?_, ?_, ?_⟩ <;> simp [buildProblem]

theorem beginRequest_honest (plain : ∀ e, PlainProblem e → fair e) :
    (beginRequest platform params).Honest platform good fair := by
  unfold beginRequest
  split
  · trivial
  · rename_i exception refused
    refine plain _ ?_
    unfold assertValidIdempotencyKey at refused
    split at refused
    · cases refused
      exact plain_badRequest _
    · split at refused <;> cases refused
      exact plain_badRequest _

theorem insertFailed_honest (plain : ∀ e, PlainProblem e → fair e) (key fingerprint : String)
    (e : DbError) : (insertFailed key fingerprint e).Honest platform good fair := by
  unfold insertFailed
  split
  · trivial
  · exact plain _ (plain_other _)

/-- A body that cannot be read throws a plain error. -/
theorem createCommand_error {dto : Json} {key : String} {exception : Exception}
    (failed : createCommand dto key = .error exception) : ∃ e, exception = .other e := by
  have read : ∀ {value name exception}, readProperty value name = .error exception →
      ∃ e, exception = .other e := by
    intro value name exception failed
    unfold readProperty at failed
    split at failed <;> cases failed
    · exact ⟨_, rfl⟩
    · exact ⟨_, rfl⟩
  simp only [createCommand, Bind.bind, Except.bind] at failed
  repeat' split at failed
  all_goals first | (cases failed; done) | (cases failed; exact read ‹_›)

theorem resolveConflict_honest (plain : ∀ e, PlainProblem e → fair e)
    (existing : Option IdempotencyKeyRow) (fingerprint : String) (e : DbError) :
    (Ctl.answered none (resolveConflict existing fingerprint e)).Honest platform good fair := by
  unfold resolveConflict
  split
  · exact plain _ (plain_other _)
  · split
    · exact plain _ ⟨by simp [buildProblem], by simp [buildProblem], by simp [buildProblem]⟩
    · split
      · exact plain _ ⟨by simp [buildProblem], by simp [buildProblem], by simp [buildProblem]⟩
      · rfl

theorem exec_honest (plain : ∀ e, PlainProblem e → fair e) {clock : Timestamptz} {id : Uuid}
    {now : Date} (honest : ctl.Honest platform good fair)
    (done : ctl.exec platform params rows clock id now = some (rows', ctl')) :
    ctl'.Honest platform good fair := by
  cases ctl with
  | inserting key fingerprint =>
    simp only [Ctl.exec] at done
    split at done <;> cases done
    · unfold runAndRecord
      split
      · trivial
      · rename_i exception failed
        obtain ⟨e, rfl⟩ := createCommand_error failed
        exact plain _ (plain_other e)
    · exact insertFailed_honest plain _ _ _
  | looking key fingerprint e =>
    cases done
    exact resolveConflict_honest plain _ _ _
  | completing id result =>
    obtain ⟨_, -, same⟩ := Option.map_eq_some_iff.mp done
    cases same
    exact ⟨rfl, result, honest, rfl⟩
  | failing id exception =>
    obtain ⟨_, -, same⟩ := Option.map_eq_some_iff.mp done
    cases same
    exact honest
  | _ => cases done

theorem fail_honest (plain : ∀ e, PlainProblem e → fair e) {e : DbError}
    (failed : ctl.fail e = some ctl') : ctl'.Honest platform good fair := by
  cases ctl with
  | inserting key fingerprint =>
    cases failed
    exact insertFailed_honest plain _ _ _
  | looking _ _ _ | completing _ _ | failing _ _ =>
    cases failed
    exact plain _ (plain_other _)
  | _ => cases failed

end Calls

section Services
variable {P : Type} [DecidableEq P] {platform : Platform}
  {params : P → CreateOrderIdempotentParams} {s t : Service P} {a : Action P}
  {good : P → OrderResponseParams → Prop} {fair : P → Exception → Prop}

/-- The service adds plain errors of its own and passes on the rest. -/
theorem step_honest (plain : ∀ p e, PlainProblem e → fair p e) (own : a.own)
    (stepped : s.step platform params a = some t)
    (honest : ∀ p, (s.ctl p).Honest platform (good p) (fair p)) (p : P) :
    (t.ctl p).Honest platform (good p) (fair p) := by
  have moved : ∀ {q : P} {ctl : Ctl}, ctl.Honest platform (good q) (fair q) →
      ((s.goto q ctl).ctl p).Honest platform (good p) (fair p) := fun new =>
    forall_goto (I := fun p ctl => ctl.Honest platform (good p) (fair p)) new
      (fun q _ => honest q) p
  cases a with
  | receive q =>
    simp only [Service.step] at stepped
    split at stepped <;> cases stepped
    exact moved (beginRequest_honest (plain q))
  | exec q id now =>
    obtain ⟨⟨rows, ctl⟩, done, rfl⟩ := Option.map_eq_some_iff.mp stepped
    exact moved (exec_honest (plain q) (honest q) done)
  | fail q e =>
    obtain ⟨ctl, failed, rfl⟩ := Option.map_eq_some_iff.mp stepped
    exact moved (fail_honest (plain q) failed)
  | resolve | reject => cases own
  | crash q =>
    simp only [Service.step] at stepped
    split at stepped <;> cases stepped
    exact moved trivial
  | tick clock =>
    cases stepped
    exact honest p

/-- A call keeps the row it has inserted. -/
theorem Does.begun (does : Does platform params s a t) {p : P} {id : Uuid}
    (begun : (s.ctl p).begun = some id) : (t.ctl p).begun = some id := by
  have same : ∀ {q ctl}, ctl.begun = (s.ctl q).begun → ((s.goto q ctl).ctl p).begun = some id :=
    fun kept => (goto_begun kept p).trans begun
  have fresh : ∀ {q ctl}, (s.ctl q).begun = none → ((s.goto q ctl).ctl p).begun = some id := by
    intro q ctl none_
    have other : p ≠ q := by
      rintro rfl
      cases none_.symm.trans begun
    simpa [Service.goto, other] using begun
  cases does with
  | tick => exact begun
  | advance advances => exact same advances.begun
  | begin here _ _ | stumble here _ _ => exact fresh (by rw [here]; rfl)
  | resolve here | discard here => exact same (by rw [here]; rfl)
  | complete here _ | record here _ => exact same (by rw [here]; rfl)

omit [DecidableEq P] in
/-- An answer is that of a call with the same key that did not replay: the call's own
or, for a replay, the one of the call that owns the row. -/
theorem Kept.origin (kept : Kept platform params s)
    (honest : ∀ p, (s.ctl p).Honest platform (good p) (fair p)) {q : P} {id : Option Uuid}
    {answer : Answer} (answered : s.ctl q = .answered id answer) :
    ∃ p id' answer', s.ctl p = .answered id' answer' ∧
      (∀ status body, answer' ≠ .replay status body) ∧
      (params p).idempotencyKey = (params q).idempotencyKey ∧
      (answer'.response (params p)).status = (answer.response (params q)).status ∧
      (answer'.response (params p)).body.Same (answer.response (params q)).body := by
  cases answer with
  | resolved status body => exact ⟨q, id, _, answered, nofun, rfl, rfl, .refl _⟩
  | threw exception => exact ⟨q, id, _, answered, nofun, rfl, rfl, .refl _⟩
  | replay status body =>
    have told := honest q
    rw [answered] at told
    cases (show id = none from told)
    have fits := kept.fits q
    rw [answered] at fits
    obtain ⟨id', row, found, of, holds⟩ := fits
    obtain ⟨p, owns⟩ := kept.owner found
    obtain ⟨-, answer', there, of', body', holds', same⟩ :=
      (kept.fits p).completed owns found holds.completed
    have told' := honest p
    rw [there] at told'
    refine ⟨p, _, answer', there, ?_, of'.key.trans of.key.symm, ?_, ?_⟩
    · rintro status' body' rfl
      cases told'
    · exact Option.some.inj (holds'.responseStatus.symm.trans holds.responseStatus)
    · exact Option.some.inj (holds'.responseBody.symm.trans holds.responseBody) ▸ same

end Services

end Canals.Idempotency
