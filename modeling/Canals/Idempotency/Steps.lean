import Canals.Idempotency.Service

/-! What one step of the service can do: `Advances` where the table stays, and
the three statements that write it. Every invariant is proved from these. -/
namespace Canals.Idempotency

/-- The row is the one this call inserts or finds. -/
structure IdempotencyKeyRow.Of (platform : Platform) (params : CreateOrderIdempotentParams)
    (row : IdempotencyKeyRow) : Prop where
  scope : row.scope = SCOPE
  key : params.idempotencyKey = some row.idempotencyKey
  fingerprint : row.requestFingerprint = computeRequestFingerprint platform params.dto

/-- The call's key and the fingerprint of its body. -/
def CreateOrderIdempotentParams.Asks (platform : Platform) (params : CreateOrderIdempotentParams)
    (idempotencyKey requestFingerprint : String) : Prop :=
  params.idempotencyKey = some idempotencyKey ∧
    requestFingerprint = computeRequestFingerprint platform params.dto

/-- What `markCompleted` leaves of a row. -/
def IdempotencyKeyRow.complete (row : IdempotencyKeyRow) (params : MarkCompletedParams)
    (stored : Json) : IdempotencyKeyRow :=
  { row with
    state := .COMPLETED
    orderId := params.orderId
    responseStatus := some params.responseStatus
    responseBody := some stored }

section
variable {P : Type} {platform : Platform}
  {params : P → CreateOrderIdempotentParams} {s t : Service P} {a : Action P} {rows : KeyRows}

/-- Control moves on and the table stays. -/
inductive Advances (platform : Platform) (params : CreateOrderIdempotentParams) (rows : KeyRows)
    (p : P) : Ctl → Action P → Ctl → Prop where
  | refuse {exception} :
      Advances platform params rows p .received (.receive p) (.answered none (.threw exception))
  | ask {key fingerprint} : params.Asks platform key fingerprint →
      Advances platform params rows p .received (.receive p) (.inserting key fingerprint)
  | conflict {key fingerprint e a} : a = .fail p e ∨ (∃ id now, a = .exec p id now) →
      Advances platform params rows p (.inserting key fingerprint) a (.looking key fingerprint e)
  | leave {key fingerprint e} : Advances platform params rows p (.inserting key fingerprint)
      (.fail p e) (.answered none (.threw (.other (.database e))))
  | miss {key fingerprint e exception a} : Advances platform params rows p
      (.looking key fingerprint e) a (.answered none (.threw exception))
  | replay {key fingerprint e id id' now row} : rows.lookup id' = some row →
      row.scope = SCOPE → row.idempotencyKey = key → row.requestFingerprint = fingerprint →
      row.state = .COMPLETED → Advances platform params rows p (.looking key fingerprint e)
        (.exec p id now)
        (.answered none (.replay (row.responseStatus.getD 200) (row.responseBody.getD .null)))
  | reject {id command exception} : Advances platform params rows p (.running id command)
      (.reject p exception) (.failing id exception)
  | lose {id result e} : Advances platform params rows p (.completing id result) (.fail p e)
      (.failing id (.other (.database e)))
  | lapse {id exception e} : Advances platform params rows p (.failing id exception) (.fail p e)
      (.answered (some id) (.threw (.other (.database e))))
  | crash {ctl : Ctl} : (∀ id answer, ctl ≠ .answered id answer) →
      Advances platform params rows p ctl (.crash p) (.crashed ctl.begun)

/-- A row that can be inserted, and the table with it. -/
def Begins (rows : KeyRows) (id : Uuid) (key fingerprint : String) (rows' : KeyRows) : Prop :=
  rows.lookup id = none ∧
    (∀ id row, rows.lookup id = some row → row.scope = SCOPE → row.idempotencyKey ≠ key) ∧
    ∃ row : IdempotencyKeyRow, rows' = rows.insert id row ∧ row.scope = SCOPE ∧
      row.idempotencyKey = key ∧ row.requestFingerprint = fingerprint ∧ row.state = .IN_PROGRESS

/-- The table after `markCompleted`: its row, if there is one, is complete. -/
inductive Completes (platform : Platform) (rows : KeyRows) (params : MarkCompletedParams) :
    KeyRows → Prop where
  | updated {row stored} : rows.lookup params.id = some row →
      platform.jsonb params.responseBody = some stored →
      Completes platform rows params (rows.insert params.id (row.complete params stored))
  | missed : rows.lookup params.id = none → Completes platform rows params rows

inductive Does [DecidableEq P] (platform : Platform)
    (params : P → CreateOrderIdempotentParams) (s : Service P) :
    Action P → Service P → Prop where
  | tick {clock} : Does platform params s (.tick clock) { s with clock }
  | advance {p a ctl} : Advances platform (params p) s.rows p (s.ctl p) a ctl →
      Does platform params s a (s.goto p ctl)
  | begin {p id now key fingerprint command rows} : s.ctl p = .inserting key fingerprint →
      createCommand (params p).dto key = .ok command → Begins s.rows id key fingerprint rows →
      Does platform params s (.exec p id now)
        { s.goto p (.running id command) with rows, sagas := s.sagas ++ [(p, command)] }
  | stumble {p id now key fingerprint exception rows} : s.ctl p = .inserting key fingerprint →
      createCommand (params p).dto key = .error exception →
      Begins s.rows id key fingerprint rows →
      Does platform params s (.exec p id now)
        { s.goto p (.answered (some id) (.threw exception)) with rows }
  | resolve {p id command result} : s.ctl p = .running id command →
      Does platform params s (.resolve p result none)
        { s.goto p (.completing id result) with confirmed := s.confirmed ++ [(p, result)] }
  | discard {p id command result exception} : s.ctl p = .running id command →
      Does platform params s (.resolve p result (some exception))
        { s.goto p (.failing id exception) with confirmed := s.confirmed ++ [(p, result)] }
  | complete {p id id' now result rows} : s.ctl p = .completing id result →
      Completes platform s.rows (completion platform id result) rows →
      Does platform params s (.exec p id' now) { s.goto p (.answered (some id)
        (.resolved 201 (platform.orderResponse result))) with rows }
  | record {p id id' now exception rows} : s.ctl p = .failing id exception →
      Completes platform s.rows (failure (params p) id exception) rows →
      Does platform params s (.exec p id' now)
        { s.goto p (.answered (some id) (.threw exception)) with rows }

theorem insertInProgress_ok {id : Uuid} {now : Date} {key fingerprint : String} {rows' : KeyRows}
    (inserted : insertInProgress rows id now key fingerprint = .ok rows') :
    Begins rows id key fingerprint rows' := by
  simp only [insertInProgress] at inserted
  split at inserted <;> cases inserted
  rename_i free
  simp only [not_or, Bool.not_eq_true, Option.isSome_eq_false_iff, Option.isNone_iff_eq_none,
    List.any_eq_false, Bool.and_eq_true, decide_eq_true_eq, not_and] at free
  refine ⟨free.1, fun id row found scope => ?_, _, rfl, rfl, rfl, rfl, rfl⟩
  exact free.2 ⟨id, row⟩ (AList.mem_lookup_iff.mp found) scope

theorem insertInProgress_error {id : Uuid} {now : Date} {key fingerprint : String} {e : DbError}
    (failed : insertInProgress rows id now key fingerprint = .error e) : e = .uniqueViolation := by
  simp only [insertInProgress] at failed
  split at failed <;> cases failed
  rfl

theorem findActiveByKey_some {clock : Timestamptz} {key : String} {row : IdempotencyKeyRow}
    (found : findActiveByKey rows clock key = some row) :
    ∃ id, rows.lookup id = some row ∧ row.scope = SCOPE ∧ row.idempotencyKey = key := by
  obtain ⟨entry, first, rfl⟩ := Option.map_eq_some_iff.mp found
  have wanted := List.find?_some first
  simp only [Bool.and_eq_true, decide_eq_true_eq] at wanted
  exact ⟨entry.1, AList.mem_lookup_iff.mpr (List.mem_of_find?_eq_some first), wanted.1.1, wanted.1.2⟩

theorem completes_of_markCompleted {complete : MarkCompletedParams} {rows' : KeyRows}
    (done : markCompleted platform rows complete = some rows') :
    Completes platform rows complete rows' := by
  simp only [markCompleted] at done
  split at done <;> try contradiction
  obtain ⟨stored, kept, rfl⟩ := Option.map_eq_some_iff.mp done
  split
  · exact .updated ‹_› kept
  · exact .missed ‹_›

theorem truthy_eq {s : Option String} {key : String} (is : truthy s = some key) : s = some key :=
  (Option.filter_eq_some_iff.mp is).1

theorem advances_receive (p : P) (params : CreateOrderIdempotentParams) :
    Advances platform params rows p .received (.receive p) (beginRequest platform params) := by
  unfold beginRequest
  split
  · rename_i key valid
    refine .ask ⟨?_, rfl⟩
    unfold assertValidIdempotencyKey at valid
    split at valid <;> try contradiction
    split at valid <;> cases valid
    exact truthy_eq ‹_›
  · exact .refuse

theorem advances_looking {p : P} {params : CreateOrderIdempotentParams} {clock : Timestamptz}
    {id : Uuid} {now : Date} {key fingerprint : String} {e : DbError} :
    Advances platform params rows p (.looking key fingerprint e) (.exec p id now)
      (.answered none (resolveConflict (findActiveByKey rows clock key) fingerprint e)) := by
  unfold resolveConflict
  split
  · exact .miss
  · rename_i row found
    obtain ⟨id, stored, scope, mine⟩ := findActiveByKey_some found
    split
    · exact .miss
    · rename_i same
      split
      · exact .miss
      · rename_i finished
        refine .replay stored scope mine (not_not.mp same) ?_
        cases is : row.state with
        | IN_PROGRESS => exact absurd is finished
        | COMPLETED => rfl

theorem advances_fail {params : CreateOrderIdempotentParams} {p : P} {e : DbError} {before ctl : Ctl}
    (failed : before.fail e = some ctl) :
    Advances platform params rows p before (.fail p e) ctl := by
  cases before with
  | inserting key fingerprint =>
    cases failed
    unfold insertFailed
    split
    · exact .conflict (.inl rfl)
    · exact .leave
  | looking key fingerprint e => cases failed; exact .miss
  | completing id result => cases failed; exact .lose
  | failing id exception => cases failed; exact .lapse
  | _ => cases failed

variable [DecidableEq P]

theorem does_exec {p : P} {id : Uuid} {now : Date} {ctl : Ctl} {sagas}
    (done : (s.ctl p).exec platform (params p) s.rows s.clock id now = some (rows, ctl))
    (started : sagas = s.sagas ++ (ctl.command.map fun command => (p, command)).toList) :
    Does platform params s (.exec p id now) { s.goto p ctl with rows, sagas } := by
  have still : ctl.command = none → sagas = s.sagas := fun idle => by simpa [idle] using started
  cases here : s.ctl p with
  | inserting key fingerprint =>
    simp only [here, Ctl.exec] at done
    split at done <;> cases done
    · rename_i inserted
      unfold runAndRecord
      split
      · rename_i command built
        obtain rfl : sagas = s.sagas ++ [(p, command)] := by
          simpa [runAndRecord, built, Ctl.command] using started
        exact .begin here built (insertInProgress_ok inserted)
      · rename_i built
        cases still (by simp [runAndRecord, built, Ctl.command])
        exact .stumble here built (insertInProgress_ok inserted)
    · rename_i e failed
      cases insertInProgress_error failed
      cases still rfl
      exact .advance (here ▸ .conflict (.inr ⟨id, now, rfl⟩))
  | looking key fingerprint e =>
    simp only [here, Ctl.exec, Option.some.injEq, Prod.mk.injEq] at done
    obtain ⟨rfl, rfl⟩ := done
    cases still rfl
    exact .advance (here ▸ advances_looking)
  | completing id result =>
    simp only [here, Ctl.exec] at done
    obtain ⟨rows', written, same⟩ := Option.map_eq_some_iff.mp done
    cases same
    cases still rfl
    exact .complete here (completes_of_markCompleted written)
  | failing id exception =>
    simp only [here, Ctl.exec] at done
    obtain ⟨rows', written, same⟩ := Option.map_eq_some_iff.mp done
    cases same
    cases still rfl
    exact .record here (completes_of_markCompleted written)
  | _ => simp [here, Ctl.exec] at done

/-- Every step of the service is one of these. -/
theorem does_of_step (stepped : s.step platform params a = some t) :
    Does platform params s a t := by
  cases a with
  | receive p =>
    simp only [Service.step] at stepped
    split at stepped <;> cases stepped
    rename_i here
    exact .advance (here ▸ advances_receive p (params p))
  | exec p id now =>
    obtain ⟨⟨rows, ctl⟩, done, rfl⟩ := Option.map_eq_some_iff.mp stepped
    exact does_exec done rfl
  | fail p e =>
    obtain ⟨ctl, failed, rfl⟩ := Option.map_eq_some_iff.mp stepped
    exact .advance (advances_fail failed)
  | resolve p result thrown =>
    simp only [Service.step] at stepped
    split at stepped <;> cases stepped
    cases thrown with
    | none => exact .resolve ‹_›
    | some exception => exact .discard ‹_›
  | reject p exception =>
    simp only [Service.step] at stepped
    split at stepped <;> cases stepped
    rename_i here
    exact .advance (here ▸ .reject)
  | crash p =>
    simp only [Service.step] at stepped
    split at stepped <;> cases stepped
    exact .advance (.crash ‹_›)
  | tick clock => cases stepped; exact .tick

end

end Canals.Idempotency
