import Canals.Idempotency.Protocol

/-! Whether an answered call leaves its key complete. The command is built
outside the handler that records every outcome: a body without a payment is
answered there with its key in progress. -/
namespace Canals.Idempotency

/-- What a call can do on its own, with the table before and after. -/
inductive Acts {P : Type} (platform : Platform) (params : CreateOrderIdempotentParams)
    (rows : KeyRows) (p : P) : Ctl → Action P → KeyRows → Ctl → Prop where
  | advance {ctl a ctl'} : Advances platform params rows p ctl a ctl' →
      Acts platform params rows p ctl a rows ctl'
  | begin {key fingerprint id now command rows'} : createCommand params.dto key = .ok command →
      Acts platform params rows p (.inserting key fingerprint) (.exec p id now) rows'
        (.running id command)
  | stumble {key fingerprint id now exception rows'} :
      createCommand params.dto key = .error exception → Pending platform params rows' id →
      Acts platform params rows p (.inserting key fingerprint) (.exec p id now) rows'
        (.answered (some id) (.threw exception))
  | resolve {id command result} : Acts platform params rows p (.running id command)
      (.resolve p result none) rows (.completing id result)
  | discard {id command result exception} : Acts platform params rows p (.running id command)
      (.resolve p result (some exception)) rows (.failing id exception)
  | complete {id id' now result rows'} :
      Completes platform rows (completion platform id result) rows' →
      Recorded platform params rows' id (.resolved 201 (platform.orderResponse result)) →
      Acts platform params rows p (.completing id result) (.exec p id' now) rows'
        (.answered (some id) (.resolved 201 (platform.orderResponse result)))
  | record {id id' now exception rows'} :
      Completes platform rows (failure params id exception) rows' →
      Recorded platform params rows' id (.threw exception) →
      Acts platform params rows p (.failing id exception) (.exec p id' now) rows'
        (.answered (some id) (.threw exception))

/-- The body has a payment that is not `null`. -/
def hasPayment : Json → Bool
  | .obj properties =>
    match properties.lookup "payment" with
    | none | some .null => false
    | some _ => true
  | _ => false

/-- Of all accepted bodies, exactly those with a payment make a command. -/
theorem createCommand_iff {dto : Json} (accepted : acceptsCreateOrder dto) (key : String) :
    (∃ command, createCommand dto key = .ok command) ↔ hasPayment dto := by
  cases dto with
  | obj properties =>
    simp only [createCommand, readProperty, Bind.bind, Except.bind, hasPayment]
    cases properties.lookup "payment" with
    | none => simp
    | some payment => cases payment <;> simp [pure, Except.pure]
  | _ => cases accepted

section
variable {P : Type} [DecidableEq P] {platform : Platform}
  {params : P → CreateOrderIdempotentParams} {s t : Service P} {a : Action P}

theorem goto_at {p q : P} {ctl : Ctl} {mine : Option Uuid} {rows : KeyRows}
    (kept : Kept platform params s) (keeps : Keeps mine s.rows rows)
    (own : ∀ id, mine = some id → (s.ctl p).begun = some id ∨ s.rows.lookup id = none)
    (acts : Acts platform (params p) s.rows p (s.ctl p) a rows ctl) :
    ((s.goto p ctl).ctl q = s.ctl q ∧ ∃ mine, Keeps mine s.rows rows ∧
      (mine.isSome → (s.ctl q).begun ≠ mine)) ∨
    Acts platform (params q) s.rows q (s.ctl q) a rows ((s.goto p ctl).ctl q) := by
  by_cases same : q = p
  · subst same
    exact .inr (by simpa [Service.goto] using acts)
  · refine .inl ⟨by simp [Service.goto, same], mine, keeps, fun is begun => ?_⟩
    obtain ⟨id, rfl⟩ := Option.isSome_iff_exists.mp is
    rcases own id rfl with owns | fresh
    · exact same (kept.exclusive begun owns)
    · obtain ⟨row, found, -⟩ := (kept.fits q).stored begun
      cases fresh.symm.trans found

/-- A step is a call's own or leaves what the call rests on. -/
theorem Does.at (does : Does platform params s a t) (kept : Kept platform params s) (q : P) :
    (t.ctl q = s.ctl q ∧ ∃ mine, Keeps mine s.rows t.rows ∧
      (mine.isSome → (s.ctl q).begun ≠ mine)) ∨
    Acts platform (params q) s.rows q (s.ctl q) a t.rows (t.ctl q) := by
  have still : Keeps none s.rows s.rows := fun found _ => found
  cases does with
  | tick => exact .inl ⟨rfl, none, still, nofun⟩
  | advance advances => exact goto_at kept still nofun (.advance advances)
  | @begin p id now key fingerprint command rows here built begins =>
    exact goto_at kept begins.keeps nofun (here ▸ .begin built)
  | @stumble p id now key fingerprint exception rows here built begins =>
    have asks := kept.fits p
    rw [here] at asks
    exact goto_at kept begins.keeps nofun (here ▸ .stumble built (begins.pending asks))
  | resolve here => exact goto_at kept still nofun (here ▸ .resolve)
  | discard here => exact goto_at kept still nofun (here ▸ .discard)
  | @complete p id id' now result rows here completes =>
    have fits := kept.fits p
    rw [here] at fits
    obtain ⟨rewrites, recorded⟩ := completes.recorded
      (.resolved 201 (platform.orderResponse result)) fits.2 rfl rfl
    refine goto_at kept rewrites.keeps ?_ (here ▸ .complete completes recorded)
    rintro id ⟨⟩
    exact .inl (here ▸ rfl)
  | @record p id id' now exception rows here completes =>
    have fits := kept.fits p
    rw [here] at fits
    obtain ⟨rewrites, recorded⟩ := completes.recorded (.threw exception) fits.2 rfl rfl
    refine goto_at kept rewrites.keeps ?_ (here ▸ .record completes recorded)
    rintro id ⟨⟩
    exact .inl (here ▸ rfl)

/-- No statement of this call fails. -/
def Succeeds (p : P) (_ : Service P) (a : Action P) : Prop := ∀ e, a ≠ .fail p e

/-- Whether a call's key is complete once the call is answered. -/
def Ctl.Settled (platform : Platform) (params : CreateOrderIdempotentParams) (rows : KeyRows) :
    Ctl → Prop
  | running _ _ | completing _ _ | failing _ _ => hasPayment params.dto
  | answered (some id) answer => hasPayment params.dto ∧ Recorded platform params rows id answer ∨
    ¬ hasPayment params.dto ∧ Pending platform params rows id
  | _ => True

theorem Ctl.Settled.mono {params : CreateOrderIdempotentParams} {rows rows' : KeyRows} {ctl : Ctl}
    {mine : Option Uuid} (settled : ctl.Settled platform params rows)
    (keeps : Keeps mine rows rows') (apart : mine.isSome → ctl.begun ≠ mine) :
    ctl.Settled platform params rows' := by
  cases ctl with
  | answered id answer =>
    cases id with
    | none => trivial
    | some id =>
      refine settled.imp ?_ ?_
      · rintro ⟨paid, row, found, of, body, holds, same⟩
        exact ⟨paid, row, keeps found (.inr holds.completed), of, body, holds, same⟩
      · rintro ⟨unpaid, pending⟩
        refine ⟨unpaid, pending.keeps keeps ?_⟩
        rintro rfl
        exact apart rfl rfl
  | _ => exact settled

omit [DecidableEq P] in
theorem Acts.settled {params : CreateOrderIdempotentParams} {rows rows' : KeyRows} {p : P}
    {ctl ctl' : Ctl} (acts : Acts platform params rows p ctl a rows' ctl')
    (accepted : acceptsCreateOrder params.dto) (succeeds : ∀ e, a ≠ .fail p e)
    (settled : ctl.Settled platform params rows) : ctl'.Settled platform params rows' := by
  cases acts with
  | advance advances =>
    cases advances with
    | reject => exact settled
    | lose | lapse => exact absurd rfl (succeeds _)
    | _ => trivial
  | begin built => exact (createCommand_iff accepted _).mp ⟨_, built⟩
  | stumble built pending =>
    refine .inr ⟨fun paid => ?_, pending⟩
    obtain ⟨command, ok⟩ := (createCommand_iff accepted _).mpr paid
    cases built.symm.trans ok
  | resolve | discard => exact settled
  | complete _ recorded | record _ recorded => exact .inl ⟨settled, recorded⟩

/-- For every accepted body and every outcome of the saga, if no statement of a
call that got its key fails, then once it is answered its row is complete with
the status and body its client gets exactly when the body has a payment. -/
theorem answered_key_completed_iff {clock : Timestamptz} {p : P}
    (run : Service.Runs platform params (Succeeds p) clock s)
    (accepted : acceptsCreateOrder (params p).dto) {id : Uuid} {answer : Answer}
    (told : s.ctl p = .answered (some id) answer) :
    (∃ row, s.rows.lookup id = some row ∧ row.state = .COMPLETED ∧
      row.responseStatus = some (answer.response (params p)).status ∧ ∃ body,
        row.responseBody = some body ∧ (answer.response (params p)).body.Same body) ↔
      hasPayment (params p).dto := by
  have settled : (s.ctl p).Settled platform (params p) s.rows := by
    clear told
    induction run with
    | refl => trivial
    | @tail u t before last settled =>
      obtain ⟨a, stepped, succeeds⟩ := last
      have kept : Kept platform params u := Service.Runs.kept before
      rcases (does_of_step stepped).at kept p with ⟨same, mine, keeps, apart⟩ | acts
      · exact same ▸ settled.mono keeps apart
      · exact acts.settled accepted succeeds settled
  rw [told] at settled
  constructor
  · rintro ⟨row, found, done, -⟩
    rcases settled with ⟨paid, -⟩ | ⟨-, row', found', -, open_⟩
    · exact paid
    · cases found.symm.trans found'
      cases open_.symm.trans done
  · intro paid
    rcases settled with ⟨-, row, found, -, body, holds, same⟩ | ⟨unpaid, -⟩
    · exact ⟨row, found, holds.completed, holds.responseStatus, body, holds.responseBody, same⟩
    · exact absurd paid unpaid

end

section Lamp

theorem noFault_succeeds (p : Fin 3) (s : Service (Fin 3)) (a : Action (Fin 3))
    (checked : noFault s a) : Succeeds p s a := by
  rintro e rfl
  cases checked

theorem lampReplayed_succeeds (p : Fin 3) :
    Service.Runs lampPlatform lampCalls (Succeeds p) ⟨0⟩ lampReplayed :=
  Service.runs_of_runWhile (noFault_succeeds p) .refl (Option.some_get _).symm

/-- The row an answered call has inserted, with its answer. -/
def Ctl.answer : Ctl → Option (Uuid × Answer)
  | answered (some id) answer => some (id, answer)
  | _ => none

theorem Ctl.answer_eq {ctl : Ctl} {told : Uuid × Answer} (same : ctl.answer = some told) :
    ctl = .answered (some told.1) told.2 := by
  unfold answer at same
  split at same <;> cases same
  rfl

/-- What the first call's client gets: its card is declined. -/
def lampTold : Uuid × Answer :=
  (lampReplayed.ctl lampOwner).answer.get (by decide +kernel)

theorem answered_key_completed_iff_lamp :
    (∃ row, lampReplayed.rows.lookup lampTold.1 = some row ∧ row.state = .COMPLETED ∧
      row.responseStatus = some (lampTold.2.response (lampCalls 0)).status ∧ ∃ body,
        row.responseBody = some body ∧ (lampTold.2.response (lampCalls 0)).body.Same body) ↔
      hasPayment (lampCalls 0).dto :=
  answered_key_completed_iff (lampReplayed_succeeds 0) (by decide +kernel)
    (Ctl.answer_eq (Option.some_get _).symm)

/-- The call without a payment has been answered with a 500. -/
def lampBare : Service (Fin 3) :=
  (({ clock := ⟨0⟩ } : Service (Fin 3)).runWhile noFault lampPlatform
    lampCalls [.receive lampBareCaller, .exec lampBareCaller "row 2" ⟨0⟩]).get (by decide +kernel)

def lampBareTold : Uuid × Answer :=
  (lampBare.ctl lampBareCaller).answer.get (by decide +kernel)

/-- Its key stays in progress for good. -/
theorem answered_key_in_progress :
    ¬ ∀ (platform : Platform) (params : Fin 3 → CreateOrderIdempotentParams) (clock : Timestamptz)
      (s : Service (Fin 3)) (p : Fin 3) (id : Uuid) (answer : Answer),
      Service.Runs platform params (Succeeds p) clock s → acceptsCreateOrder (params p).dto →
      s.ctl p = .answered (some id) answer →
      ∃ row, s.rows.lookup id = some row ∧ row.state = .COMPLETED ∧
        row.responseStatus = some (answer.response (params p)).status ∧ ∃ body,
          row.responseBody = some body ∧ (answer.response (params p)).body.Same body := by
  intro claim
  obtain ⟨row, found, done, -⟩ := claim lampPlatform lampCalls ⟨0⟩ lampBare 2 _ _
    (Service.runs_of_runWhile (noFault_succeeds 2) .refl (Option.some_get _).symm)
    (by decide +kernel) (Ctl.answer_eq (Option.some_get _).symm)
  have open_ : (lampBare.rows.lookup lampBareTold.1).map (·.state) = some .IN_PROGRESS := by
    decide +kernel
  rw [show lampBare.rows.lookup lampBareTold.1 = some row from found, Option.map_some, done] at open_
  cases open_

end Lamp

end Canals.Idempotency
