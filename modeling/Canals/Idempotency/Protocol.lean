import Canals.Http.MoneyFormat
import Canals.Idempotency.Steps

/-! The Idempotency-Key protocol: one row for each key, owned by the call that
inserted it. Only the owner runs the saga, only it completes the row, and with
the very answer it gives its own client. -/
namespace Canals.Idempotency

/-- The row is complete with this answer. -/
structure IdempotencyKeyRow.Holds (row : IdempotencyKeyRow) (status : Int) (body : Json) :
    Prop where
  completed : row.state = .COMPLETED
  responseStatus : row.responseStatus = some status
  responseBody : row.responseBody = some body

/-- The row holds what the call's client gets, up to the order of keys. -/
def IdempotencyKeyRow.Records (row : IdempotencyKeyRow) (response : HttpResponse) : Prop :=
  ∃ body, row.Holds response.status body ∧ response.body.Same body

/-- The call's row, still in progress. -/
def Pending (platform : Platform) (params : CreateOrderIdempotentParams) (rows : KeyRows)
    (id : Uuid) : Prop :=
  ∃ row, rows.lookup id = some row ∧ row.Of platform params ∧ row.state = .IN_PROGRESS

/-- The call's row, complete with the call's own answer. -/
def Recorded (platform : Platform) (params : CreateOrderIdempotentParams) (rows : KeyRows)
    (id : Uuid) (answer : Answer) : Prop :=
  ∃ row, rows.lookup id = some row ∧ row.Of platform params ∧
    row.Records (answer.response params)

/-- How a call stands to the table; `ran` if it has started the saga. -/
def Ctl.Fits (platform : Platform) (params : CreateOrderIdempotentParams) (rows : KeyRows)
    (ran : Prop) : Ctl → Prop
  | inserting key fingerprint | looking key fingerprint _ => params.Asks platform key fingerprint
  | running id _ | completing id _ | failing id _ => ran ∧ Pending platform params rows id
  | answered none (.replay status body) => ∃ id row, rows.lookup id = some row ∧
    row.Of platform params ∧ row.Holds status body
  | answered (some id) answer => Pending platform params rows id ∨
    ran ∧ Recorded platform params rows id answer
  | crashed (some id) => Pending platform params rows id
  | _ => True

structure Kept {P : Type} (platform : Platform) (params : P → CreateOrderIdempotentParams)
    (s : Service P) : Prop where
  scope : ∀ {id row}, s.rows.lookup id = some row → row.scope = SCOPE
  unique : ∀ {id id' row row'}, s.rows.lookup id = some row → s.rows.lookup id' = some row' →
    row.idempotencyKey = row'.idempotencyKey → id = id'
  owner : ∀ {id row}, s.rows.lookup id = some row → ∃ p, (s.ctl p).begun = some id
  exclusive : ∀ {p q id}, (s.ctl p).begun = some id → (s.ctl q).begun = some id → p = q
  sagas : ∀ {p command}, (p, command) ∈ s.sagas → (s.ctl p).begun.isSome ∧
    (params p).idempotencyKey = some command.idempotencyKey
  once : (s.sagas.map (·.1)).Nodup
  fits : ∀ p, (s.ctl p).Fits platform (params p) s.rows (∃ command, (p, command) ∈ s.sagas)

/-- Only `mine` is rewritten, and no complete row is. -/
def Keeps (mine : Option Uuid) (rows rows' : KeyRows) : Prop :=
  ∀ {id row}, rows.lookup id = some row → some id ≠ mine ∨ row.state = .COMPLETED →
    rows'.lookup id = some row

/-- No row is new, and each has its key for good. -/
structure Rewrites (mine : Option Uuid) (rows rows' : KeyRows) : Prop where
  keeps : Keeps mine rows rows'
  stems : ∀ {id row'}, rows'.lookup id = some row' → ∃ row, rows.lookup id = some row ∧
    row'.scope = row.scope ∧ row'.idempotencyKey = row.idempotencyKey

section Calls
variable {P : Type} {platform : Platform} {params : CreateOrderIdempotentParams}
  {rows rows' : KeyRows} {ran ran' : Prop} {ctl ctl' : Ctl} {p : P} {a : Action P}
  {mine : Option Uuid} {id : Uuid}

theorem Rewrites.refl (mine : Option Uuid) : Rewrites mine rows rows :=
  ⟨fun found _ => found, fun found => ⟨_, found, rfl, rfl⟩⟩

theorem Pending.keeps (pending : Pending platform params rows id)
    (keeps : Keeps mine rows rows') (apart : some id ≠ mine) :
    Pending platform params rows' id := by
  obtain ⟨row, found, of, open_⟩ := pending
  exact ⟨row, keeps found (.inl apart), of, open_⟩

/-- What others do to the table, and a saga started, leave a call as it stands. -/
theorem Ctl.Fits.mono (fits : ctl.Fits platform params rows ran)
    (keeps : Keeps mine rows rows') (apart : mine.isSome → ctl.begun ≠ mine)
    (more : ran → ran') : ctl.Fits platform params rows' ran' := by
  have other : ∀ {id}, ctl.begun = some id → some id ≠ mine := by
    rintro id begun rfl
    exact apart rfl begun
  cases ctl with
  | received => trivial
  | inserting key fingerprint | looking key fingerprint e => exact fits
  | running id _ | completing id _ | failing id _ =>
    exact ⟨more fits.1, fits.2.keeps keeps (other rfl)⟩
  | crashed id =>
    cases id with
    | none => trivial
    | some id => exact Pending.keeps fits keeps (other rfl)
  | answered id answer =>
    cases id with
    | none =>
      cases answer with
      | replay status body =>
        obtain ⟨id, row, found, of, holds⟩ := fits
        exact ⟨id, row, keeps found (.inr holds.completed), of, holds⟩
      | _ => trivial
    | some id =>
      rcases fits with pending | ⟨started, row, found, of, body, holds, same⟩
      · exact .inl (pending.keeps keeps (other rfl))
      · exact .inr ⟨more started, row, keeps found (.inr holds.completed), of, body,
          holds, same⟩

theorem Advances.begun (advances : Advances platform params rows p ctl a ctl') :
    ctl'.begun = ctl.begun := by
  cases advances <;> rfl

theorem Ctl.Fits.stored (fits : ctl.Fits platform params rows ran) (begun : ctl.begun = some id) :
    ∃ row, rows.lookup id = some row ∧ row.Of platform params := by
  cases ctl with
  | received | inserting _ _ | looking _ _ _ => cases begun
  | running _ _ | completing _ _ | failing _ _ =>
    cases begun
    obtain ⟨-, row, found, of, -⟩ := fits
    exact ⟨row, found, of⟩
  | crashed mine =>
    cases begun
    obtain ⟨row, found, of, -⟩ := fits
    exact ⟨row, found, of⟩
  | answered mine answer =>
    cases begun
    obtain ⟨row, found, of, -⟩ | ⟨-, row, found, of, -⟩ := fits <;> exact ⟨row, found, of⟩

/-- A row whose owner is known is in progress or holds a whole answer. -/
theorem Ctl.Fits.completed (fits : ctl.Fits platform params rows ran) (begun : ctl.begun = some id)
    {row : IdempotencyKeyRow} (found : rows.lookup id = some row) (done : row.state = .COMPLETED) :
    ran ∧ ∃ answer, ctl = .answered (some id) answer ∧ row.Of platform params ∧
      row.Records (answer.response params) := by
  have settled : ¬ Pending platform params rows id := by
    rintro ⟨row', found', -, open_⟩
    cases found.symm.trans found'
    cases open_.symm.trans done
  cases ctl with
  | received | inserting _ _ | looking _ _ _ => cases begun
  | running _ _ | completing _ _ | failing _ _ =>
    cases begun
    exact absurd fits.2 settled
  | crashed mine =>
    cases begun
    exact absurd fits settled
  | answered mine answer =>
    cases begun
    rcases fits with pending | ⟨started, row', found', of, records⟩
    · exact absurd pending settled
    · cases found.symm.trans found'
      exact ⟨started, answer, rfl, of, records⟩

theorem Advances.fits (advances : Advances platform params rows p ctl a ctl')
    (fits : ctl.Fits platform params rows ran)
    (whole : ∀ {id row}, rows.lookup id = some row → row.state = .COMPLETED →
      ∃ status body, row.Holds status body) : ctl'.Fits platform params rows ran := by
  cases advances with
  | refuse | leave | miss => trivial
  | ask asks => exact asks
  | conflict _ => exact fits
  | reject | lose => exact fits
  | lapse => exact .inl fits.2
  | @replay key fingerprint e id id' now row found scope mine same done =>
    obtain ⟨status, body, holds⟩ := whole found done
    simp only [holds.responseStatus, holds.responseBody, Option.getD_some]
    exact ⟨id', row, found, ⟨scope, mine ▸ fits.1, same.trans fits.2⟩, holds⟩
  | crash open_ =>
    cases ctl with
    | received | inserting _ _ | looking _ _ _ => trivial
    | running _ _ | completing _ _ | failing _ _ => exact fits.2
    | crashed _ => exact fits
    | answered id answer => exact absurd rfl (open_ id answer)

/-- The owner completes its row with what it answers. -/
theorem Completes.recorded {complete : MarkCompletedParams} (answer : Answer)
    (completes : Completes platform rows complete rows')
    (pending : Pending platform params rows complete.id)
    (status : complete.responseStatus = (answer.response params).status)
    (body : complete.responseBody = (answer.response params).body) :
    Rewrites (some complete.id) rows rows' ∧
      Recorded platform params rows' complete.id answer := by
  obtain ⟨row, found, of, open_⟩ := pending
  cases completes with
  | missed absent => cases absent.symm.trans found
  | @updated row' stored found' kept =>
    cases found.symm.trans found'
    refine ⟨⟨fun {id other} there apart => ?_, fun {id other} there => ?_⟩,
      _, AList.lookup_insert _, ⟨of.scope, of.key, of.fingerprint⟩,
      stored, ⟨rfl, congrArg some status, rfl⟩, body ▸ platform.jsonb_same kept⟩
    · rcases apart with apart | done
      · exact (AList.lookup_insert_ne (by simpa using apart)).trans there
      · refine (AList.lookup_insert_ne ?_).trans there
        rintro rfl
        cases found.symm.trans there
        cases open_.symm.trans done
    · by_cases same : id = complete.id
      · subst same
        cases (AList.lookup_insert _).symm.trans there
        exact ⟨row, found, rfl, rfl⟩
      · exact ⟨other, (AList.lookup_insert_ne same).symm.trans there, rfl, rfl⟩

theorem createCommand_key {dto : Json} {key : String} {command : UntypedCommand}
    (built : createCommand dto key = .ok command) : command.idempotencyKey = key := by
  simp only [createCommand, Bind.bind, Except.bind] at built
  repeat' split at built
  all_goals first | contradiction | (cases built; rfl)

theorem Begins.keeps {key fingerprint : String} (begins : Begins rows id key fingerprint rows') :
    Keeps none rows rows' := by
  obtain ⟨fresh, -, row, rfl, -⟩ := begins
  intro id' row' found _
  refine (AList.lookup_insert_ne ?_).trans found
  rintro rfl
  cases fresh.symm.trans found

theorem Begins.pending {key fingerprint : String} (begins : Begins rows id key fingerprint rows')
    (asks : params.Asks platform key fingerprint) : Pending platform params rows' id := by
  obtain ⟨-, -, row, rfl, scope, rfl, same, open_⟩ := begins
  exact ⟨row, AList.lookup_insert _, ⟨scope, asks.1, same.trans asks.2⟩, open_⟩

end Calls

section Services
variable {P : Type} [DecidableEq P] {platform : Platform}
  {params : P → CreateOrderIdempotentParams} {s t : Service P} {a : Action P}

theorem forall_goto {p : P} {ctl : Ctl} {I : P → Ctl → Prop} (new : I p ctl)
    (others : ∀ q ≠ p, I q (s.ctl q)) (q : P) : I q ((s.goto p ctl).ctl q) := by
  by_cases same : q = p
  · subst same
    simpa [Service.goto] using new
  · simpa [Service.goto, same] using others q same

theorem goto_begun {p : P} {ctl : Ctl} (begun : ctl.begun = (s.ctl p).begun) (q : P) :
    ((s.goto p ctl).ctl q).begun = (s.ctl q).begun :=
  forall_goto (I := fun q ctl => ctl.begun = (s.ctl q).begun) begun (fun _ _ => rfl) q

/-- A call that keeps its row, if it has one, rewrites no other. -/
theorem Kept.goto (kept : Kept platform params s) {p : P} {ctl : Ctl} {mine : Option Uuid}
    {rows : KeyRows} {confirmed : List (P × OrderResponseParams)}
    (begun : ctl.begun = (s.ctl p).begun) (rewrites : Rewrites mine s.rows rows)
    (own : mine.isSome → mine = (s.ctl p).begun)
    (fits : ctl.Fits platform (params p) rows (∃ command, (p, command) ∈ s.sagas)) :
    Kept platform params { s.goto p ctl with rows, confirmed } where
  scope found := by
    obtain ⟨row, before, scope, -⟩ := rewrites.stems found
    exact scope.trans (kept.scope before)
  unique found found' same := by
    obtain ⟨row, before, -, key⟩ := rewrites.stems found
    obtain ⟨row', before', -, key'⟩ := rewrites.stems found'
    exact kept.unique before before' (key.symm.trans (same.trans key'))
  owner found := by
    obtain ⟨row, before, -⟩ := rewrites.stems found
    obtain ⟨q, owns⟩ := kept.owner before
    exact ⟨q, (goto_begun begun q).trans owns⟩
  exclusive {q r id} here there :=
    kept.exclusive ((goto_begun begun q).symm.trans here) ((goto_begun begun r).symm.trans there)
  sagas {q command} member := by
    obtain ⟨started, key⟩ := kept.sagas member
    exact ⟨(goto_begun begun q) ▸ started, key⟩
  once := kept.once
  fits := by
    refine forall_goto fits fun q other => (kept.fits q).mono rewrites.keeps (fun is same => ?_) id
    obtain ⟨id, rfl⟩ := Option.isSome_iff_exists.mp is
    exact other (kept.exclusive same (own rfl).symm)

/-- A call that inserts its row owns it; it may start the saga at once. -/
theorem Kept.begin (kept : Kept platform params s) {p : P} {ctl : Ctl} {id : Uuid}
    {key fingerprint : String} {rows : KeyRows} {c : Option UntypedCommand}
    (here : s.ctl p = .inserting key fingerprint) (begun : ctl.begun = some id)
    (begins : Begins s.rows id key fingerprint rows)
    (named : ∀ started, c = some started → started.idempotencyKey = key)
    (fits : ctl.Fits platform (params p) rows (∃ started, (p, started) ∈
      s.sagas ++ (c.map fun command => (p, command)).toList)) :
    Kept platform params { s.goto p ctl with
      rows, sagas := s.sagas ++ (c.map fun command => (p, command)).toList } := by
  have keeps : Keeps none s.rows rows := begins.keeps
  obtain ⟨fresh, free, row, rfl, scope, named', -, -⟩ := begins
  have unborn : (s.ctl p).begun = none := by rw [here]; rfl
  have others : ∀ {q id'}, ((s.goto p ctl).ctl q).begun = some id' →
      (q = p ∧ id' = id) ∨ (q ≠ p ∧ (s.ctl q).begun = some id') := by
    intro q id' is
    by_cases same : q = p
    · subst same
      simp only [Service.goto, Function.update_self, begun, Option.some.injEq] at is
      exact .inl ⟨rfl, is.symm⟩
    · exact .inr ⟨same, by simpa [Service.goto, same] using is⟩
  have absent : ∀ {q}, (s.ctl q).begun ≠ some id := by
    intro q is
    obtain ⟨row', found, -⟩ := (kept.fits q).stored is
    cases fresh.symm.trans found
  have stems : ∀ {id' row'}, (s.rows.insert id row).lookup id' = some row' →
      (id' = id ∧ row' = row) ∨ s.rows.lookup id' = some row' := by
    intro id' row' found
    by_cases same : id' = id
    · subst same
      exact .inl ⟨rfl, (Option.some.inj ((AList.lookup_insert _).symm.trans found)).symm⟩
    · exact .inr ((AList.lookup_insert_ne same).symm.trans found)
  have started : ∀ {q command}, (q, command) ∈ s.sagas → q ≠ p := by
    rintro q command member rfl
    have some_ := (kept.sagas member).1
    rw [unborn] at some_
    cases some_
  have born : ((s.goto p ctl).ctl p).begun = some id := by simpa [Service.goto] using begun
  have elder : ∀ {q}, q ≠ p → ((s.goto p ctl).ctl q).begun = (s.ctl q).begun :=
    fun apart => by simp [Service.goto, apart]
  refine ⟨fun found => ?_, fun {id₁ id₂ row₁ row₂} one two equal => ?_, fun {id' row'} found => ?_,
    fun {q r id'} here' there => ?_, fun {q command'} member => ?_, ?_, ?_⟩
  · rcases stems found with ⟨-, rfl⟩ | before
    · exact scope
    · exact kept.scope before
  · rcases stems one with ⟨rfl, rfl⟩ | before <;> rcases stems two with ⟨rfl, rfl⟩ | before'
    · rfl
    · exact absurd (equal.symm.trans named') (free _ _ before' (kept.scope before'))
    · exact absurd (equal.trans named') (free _ _ before (kept.scope before))
    · exact kept.unique before before' equal
  · rcases stems found with ⟨rfl, -⟩ | before
    · exact ⟨p, born⟩
    · obtain ⟨q, owns⟩ := kept.owner before
      refine ⟨q, (elder ?_).trans owns⟩
      rintro rfl
      cases unborn.symm.trans owns
  · rcases others here' with ⟨rfl, rfl⟩ | ⟨-, owns⟩ <;> rcases others there with ⟨rfl, same⟩ | ⟨-, owns'⟩
    · rfl
    · exact absurd owns' absent
    · exact absurd (same ▸ owns) absent
    · exact kept.exclusive owns owns'
  · rcases List.mem_append.mp member with before | new
    · obtain ⟨owns, mine⟩ := kept.sagas before
      exact ⟨(elder (started before)).symm ▸ owns, mine⟩
    · obtain ⟨command'', is, same⟩ := Option.map_eq_some_iff.mp (Option.mem_toList.mp new)
      cases same
      have asks := kept.fits p
      rw [here] at asks
      exact ⟨born ▸ rfl, asks.1.trans (congrArg some (named _ is).symm)⟩
  · rw [List.map_append]
    refine List.Nodup.append kept.once (by cases c <;> simp) ?_
    intro q before new
    obtain ⟨⟨q', command'⟩, member, rfl⟩ := List.mem_map.mp before
    refine started member ?_
    cases c with
    | none => cases new
    | some command => simpa using new
  · exact forall_goto fits fun q apart => (kept.fits q).mono keeps nofun
      fun ⟨command', member⟩ => ⟨command', List.mem_append_left _ member⟩

omit [DecidableEq P] in
/-- Every complete row is a whole answer. -/
theorem Kept.whole (kept : Kept platform params s) {id : Uuid} {row : IdempotencyKeyRow}
    (found : s.rows.lookup id = some row) (done : row.state = .COMPLETED) :
    ∃ status body, row.Holds status body := by
  obtain ⟨p, owns⟩ := kept.owner found
  obtain ⟨-, answer, -, -, body, holds, -⟩ := (kept.fits p).completed owns found done
  exact ⟨_, body, holds⟩

theorem Kept.step (kept : Kept platform params s) (does : Does platform params s a t) :
    Kept platform params t := by
  cases does with
  | tick => exact ⟨kept.scope, kept.unique, kept.owner, kept.exclusive, kept.sagas, kept.once,
      kept.fits⟩
  | advance advances =>
    exact kept.goto advances.begun (Rewrites.refl none) nofun
      (advances.fits (kept.fits _) kept.whole)
  | @begin p id now key fingerprint command rows here built begins =>
    have asks := kept.fits p
    rw [here] at asks
    refine kept.begin (c := some command) here rfl begins ?_ ⟨⟨command, by simp⟩, begins.pending asks⟩
    rintro started ⟨⟩
    exact createCommand_key built
  | @stumble p id now key fingerprint exception rows here built begins =>
    have asks := kept.fits p
    rw [here] at asks
    have fits : (Ctl.answered (some id) (.threw exception)).Fits platform (params p) rows
      (∃ started, (p, started) ∈ s.sagas ++ []) := .inl (begins.pending asks)
    have after : Kept platform params { s.goto p (.answered (some id) (.threw exception)) with
      rows, sagas := s.sagas ++ [] } := kept.begin (c := none) here rfl begins nofun fits
    rw [List.append_nil] at after
    exact after
  | @resolve p id command result here | @discard p id command result exception here =>
    have fits := kept.fits p
    rw [here] at fits
    exact kept.goto (by rw [here]; rfl) (Rewrites.refl none) nofun fits
  | @complete p id id' now result rows here completes =>
    have fits := kept.fits p
    rw [here] at fits
    obtain ⟨rewrites, recorded⟩ := completes.recorded
      (.resolved 201 (platform.orderResponse result)) fits.2 rfl rfl
    exact kept.goto (by rw [here]; rfl) rewrites (fun _ => by rw [here]; rfl) (.inr ⟨fits.1, recorded⟩)
  | @record p id id' now exception rows here completes =>
    have fits := kept.fits p
    rw [here] at fits
    obtain ⟨rewrites, recorded⟩ := completes.recorded (.threw exception) fits.2 rfl rfl
    exact kept.goto (by rw [here]; rfl) rewrites (fun _ => by rw [here]; rfl) (.inr ⟨fits.1, recorded⟩)

theorem Service.Runs.kept {Allowed : Service P → Action P → Prop} {clock : Timestamptz}
    (run : Runs platform params Allowed clock s) : Kept platform params s := by
  induction run with
  | refl => exact ⟨nofun, nofun, nofun, nofun, nofun, List.nodup_nil, fun _ => trivial⟩
  | tail _ last kept =>
    obtain ⟨a, stepped, -⟩ := last
    exact kept.step (does_of_step stepped)

omit [DecidableEq P] in
/-- Two calls with one key that own a row are the same call. -/
theorem Kept.owners (kept : Kept platform params s) {p q : P} {id id' : Uuid}
    (here : (s.ctl p).begun = some id) (there : (s.ctl q).begun = some id')
    (same : (params p).idempotencyKey = (params q).idempotencyKey) : p = q := by
  obtain ⟨row, found, of⟩ := (kept.fits p).stored here
  obtain ⟨row', found', of'⟩ := (kept.fits q).stored there
  have key : row.idempotencyKey = row'.idempotencyKey :=
    Option.some.inj (of.key.symm.trans (same.trans of'.key))
  cases kept.unique found found' key
  exact kept.exclusive here there

omit [DecidableEq P] in
/-- At most one saga was started for a key. -/
theorem Kept.sagas_once (kept : Kept platform params s) (key : String) :
    (s.sagas.filter fun saga => saga.2.idempotencyKey = key).length ≤ 1 := by
  have named : ∀ saga ∈ s.sagas.filter fun saga => saga.2.idempotencyKey = key,
      ∃ id, (s.ctl saga.1).begun = some id ∧ (params saga.1).idempotencyKey = some key := by
    rintro ⟨p, command⟩ member
    obtain ⟨inside, is⟩ := List.mem_filter.mp member
    obtain ⟨owns, mine⟩ := kept.sagas inside
    obtain ⟨id, begun⟩ := Option.isSome_iff_exists.mp owns
    exact ⟨id, begun, mine.trans (congrArg some (of_decide_eq_true is))⟩
  have distinct : ((s.sagas.filter fun saga => saga.2.idempotencyKey = key).map (·.1)).Nodup :=
    (List.Sublist.map _ List.filter_sublist).nodup kept.once
  generalize s.sagas.filter (fun saga => saga.2.idempotencyKey = key) = sagas at named distinct
  match sagas with
  | [] | [_] => simp
  | one :: two :: rest =>
    obtain ⟨id, owns, first⟩ := named one (by simp)
    obtain ⟨id', owns', second⟩ := named two (by simp)
    simp [kept.owners owns owns' (first.trans second.symm)] at distinct

/-- The Idempotency-Key protocol, for any calls in any interleaving: the saga
runs at most once for a key, a replay returns what the call that ran it sends to
its own client, and a call with another body neither runs it nor gets a replay. -/
theorem idempotency_key_protocol {clock : Timestamptz} (run : Service.Reachable platform params clock s) :
    (∀ key, (s.sagas.filter fun saga => saga.2.idempotencyKey = key).length ≤ 1) ∧
    (∀ q status body, s.ctl q = .answered none (.replay status body) →
      ∃ p command id answer, (p, command) ∈ s.sagas ∧
        (params q).idempotencyKey = some command.idempotencyKey ∧
        s.ctl p = .answered (some id) answer ∧ status = (answer.response (params p)).status ∧
        (answer.response (params p)).body.Same body) ∧
    ∀ q id row, s.rows.lookup id = some row → (params q).idempotencyKey = some row.idempotencyKey →
      row.requestFingerprint ≠ computeRequestFingerprint platform (params q).dto →
      (∀ command, (q, command) ∉ s.sagas) ∧
        ∀ status body, s.ctl q ≠ .answered none (.replay status body) := by
  have kept := run.kept
  refine ⟨fun key => ?_, fun q status body told => ?_, fun q id row found mine other => ⟨?_, ?_⟩⟩
  · exact kept.sagas_once key
  · have fits := kept.fits q
    rw [told] at fits
    obtain ⟨id, row, found, of, holds⟩ := fits
    obtain ⟨p, owns⟩ := kept.owner found
    obtain ⟨⟨command, ran⟩, answer, is, of', body', holds', same⟩ :=
      (kept.fits p).completed owns found holds.completed
    obtain ⟨-, key⟩ := kept.sagas ran
    cases holds.responseBody.symm.trans holds'.responseBody
    refine ⟨p, command, id, answer, ran, of.key.trans (of'.key.symm.trans key), is, ?_, same⟩
    exact Option.some.inj (holds.responseStatus.symm.trans holds'.responseStatus)
  · intro command ran
    obtain ⟨id', begun⟩ := Option.isSome_iff_exists.mp (kept.sagas ran).1
    obtain ⟨row', found', of⟩ := (kept.fits q).stored begun
    cases kept.unique found found' (Option.some.inj (mine.symm.trans of.key))
    cases found.symm.trans found'
    exact other of.fingerprint
  · intro status body told
    have fits := kept.fits q
    rw [told] at fits
    obtain ⟨id', row', found', of, -⟩ := fits
    cases kept.unique found found' (Option.some.inj (mine.symm.trans of.key))
    cases found.symm.trans found'
    exact other of.fingerprint

end Services

section Lamp

def lampBody : Json := .obj [
  ("customerId", .str "11111111-1111-1111-1111-111111111111"),
  ("shippingAddress", .obj [("recipient", .str "Ada"), ("line1", .str "1 Main St"),
    ("city", .str "Denver"), ("country", .str "US")]),
  ("items", .arr [.obj [("productId", .str "22222222-2222-2222-2222-222222222222"),
    ("quantity", .num 2)]]),
  ("payment", .obj [("cardNumber", .str "4111111111111111")])]

/-- Nothing but the order: an accepted body without address and payment. -/
def lampBareBody : Json := .obj [
  ("customerId", .str "11111111-1111-1111-1111-111111111111"),
  ("items", .arr [.obj [("productId", .str "22222222-2222-2222-2222-222222222222"),
    ("quantity", .num 2)]])]

def lampLe (a b : String) : Bool := decide (a ≤ b)

def lampNumber (n : Rat) : String := toString n.num

/-- The digests of the two bodies. -/
def lampDigest (text : String) : String :=
  if text = (lampBody.canonicalize lampLe).stringify lampNumber then
    "d2b86d744658abb437ca297a9aa5a64ef6504596305ede7c9636e7d2a0a94684"
  else if text = (lampBareBody.canonicalize lampLe).stringify lampNumber then
    "cc1f6d1956c4277b37e897ef861878831c8196d4d7c47e1c4a959b3532d7636c"
  else ""

/-- `jsonb` sorts keys by their length and then bytewise. -/
def lampPlatform : Platform where
  isUUID s := s = "33333333-3333-4333-8333-333333333333"
  sha256 := lampDigest
  localeLe := lampLe
  numberToString := lampNumber
  formatDistance meters :=
    let breakdown := formatDistance meters
    .obj [("meters", .num breakdown.meters), ("kilometers", .num breakdown.kilometers),
      ("miles", .num breakdown.miles)]
  formatCentsAsDollars := formatCentsAsDollars
  jsonb v := some (v.canonicalize fun a b => a.length < b.length || (a.length = b.length && a ≤ b))
  jsonb_same kept := by
    cases kept
    exact Json.canonicalize_same _ _

/-- Three calls with one key, the last with another body. -/
def lampCalls (p : Fin 3) : CreateOrderIdempotentParams where
  idempotencyKey := some "33333333-3333-4333-8333-333333333333"
  dto := if p = 2 then lampBareBody else lampBody
  instancePath := "/orders"
  correlationId := some "correlation"

/-- The call that gets the key, the one that repeats it, and the one without a
payment. -/
abbrev lampOwner : Fin 3 := 0

abbrev lampRepeat : Fin 3 := 1

abbrev lampBareCaller : Fin 3 := 2

/-- The first call's card is declined; the other two find its row. -/
def lampDeclined : List (Action (Fin 3)) :=
  [.receive 0, .exec 0 "row" ⟨0⟩, .receive 1, .exec 1 "row 1" ⟨0⟩, .receive 2,
    .exec 2 "row 2" ⟨0⟩, .reject 0 (.paymentDeclined "order" (some "CARD_DECLINED")),
    .exec 0 "" ⟨0⟩, .exec 1 "" ⟨0⟩, .exec 2 "" ⟨0⟩]

def noFault (_ : Service (Fin 3)) : Action (Fin 3) → Bool
  | .fail _ _ => false
  | _ => true

def lampReplayed : Service (Fin 3) :=
  (({ clock := ⟨0⟩ } : Service (Fin 3)).runWhile noFault
    lampPlatform lampCalls lampDeclined).get (by decide +kernel)

def Ctl.replayed : Ctl → Option (Int × Json)
  | answered none (.replay status body) => some (status, body)
  | _ => none

theorem Ctl.replayed_eq {ctl : Ctl} {told : Int × Json} (same : ctl.replayed = some told) :
    ctl = .answered none (.replay told.1 told.2) := by
  unfold replayed at same
  split at same <;> cases same
  rfl

theorem lampReplayed_reachable : Service.Reachable lampPlatform lampCalls ⟨0⟩ lampReplayed :=
  Service.runs_of_runWhile (fun _ _ _ => trivial) .refl (Option.some_get _).symm

/-- What the second call gets. -/
def lampReplay : Int × Json :=
  (lampReplayed.ctl 1).replayed.get (by decide +kernel)

theorem lampReplayed_told :
    lampReplayed.ctl 1 = .answered none (.replay lampReplay.1 lampReplay.2) :=
  Ctl.replayed_eq (Option.some_get _).symm

theorem idempotency_key_protocol_lamp : ∃ p command id answer,
    (p, command) ∈ lampReplayed.sagas ∧
      (lampCalls 1).idempotencyKey = some command.idempotencyKey ∧
      lampReplayed.ctl p = .answered (some id) answer ∧
      lampReplay.1 = (answer.response (lampCalls p)).status ∧
      (answer.response (lampCalls p)).body.Same lampReplay.2 :=
  (idempotency_key_protocol lampReplayed_reachable).2.1 1 _ _ lampReplayed_told

end Lamp

end Canals.Idempotency
