import Meterly.Soundness.Calls

/-! # Exactly-once ingest

Published events are only added, and only by the commit of a call that is answered 201. The
insertion of an event succeeds only while its key is unpublished and held by nobody else, so the
key of a pending event stays unpublished until its own commit; a call that lost the insertion
found a published row, which stays. These facts are about one step each; the invariant `Faithful`
collects what the phases of `create_event` remember of them.
-/

namespace Meterly

variable {s next final : State} {a : Action} {txn : CallId} {call : Call} {db : Database}
  {schedule : List Action}

/-- Published events stay published. -/
theorem Consistent.event_find_mono (consistent : Consistent s) (moved : Moved txn s.db (s.calls txn) call db)
    {key : EventKey} {row : EventRow} (found : s.db.events.find key = some row) :
    db.events.find key = some row := by
  cases moved with
  | reads | insertsEvent | locksQuota | takesBucket | rollsBack => exact found
  | commits released whole =>
    refine (consistent.events.find_commit_of_ne ?_).trans found
    intro effect pending
    rw [consistent.fresh txn key effect pending] at found
    contradiction

theorem Consistent.event_find_step (consistent : Consistent s) (steps : Stepped s a next)
    {key : EventKey} {row : EventRow} (found : s.db.events.find key = some row) :
    next.db.events.find key = some row := by
  rcases steps.moved with ⟨elapsed, rfl⟩ | ⟨txn, call, db, -, moved, rfl⟩
  · exact found
  · exact consistent.event_find_mono moved found

/-- A committed event is in every later state. -/
theorem Consistent.event_find_run (consistent : Consistent s)
    (reached : Machine.run step s schedule = some final) {key : EventKey} {row : EventRow}
    (found : s.db.events.find key = some row) : final.db.events.find key = some row := by
  suffices both : Consistent final ∧ final.db.events.find key = some row from both.2
  refine Machine.run_invariant (motive := fun s => Consistent s ∧ s.db.events.find key = some row)
    ⟨consistent, found⟩ ?_ reached
  rintro s a next ⟨valid, present⟩ steps
  exact ⟨valid.stepped (stepped_of_step steps), valid.event_find_step (stepped_of_step steps) present⟩

namespace CreateEvent

/-- What a phase remembers of the published events is still there. -/
def Phase.Faithful (events : Rows EventKey EventRow) (key : EventKey) : Phase → Prop
  | conflicted => ∃ row, events.lookup key = some row
  | replayed original => ∃ row, events.lookup key = some row ∧ original = row.record key
  | answered (.ok outcome) => ∃ row, events.lookup key = some row ∧
      (outcome = ⟨row.record key, 201, false⟩ ∨ outcome = ⟨row.record key, 200, true⟩)
  | answered (.error error) => ∀ message, error ≠ .idempotencyRace message
  | _ => True

theorem Phase.Faithful.mono {before after : Rows EventKey EventRow} {key : EventKey} {phase : Phase}
    (faithful : phase.Faithful before key)
    (grows : ∀ row, before.lookup key = some row → after.lookup key = some row) : phase.Faithful after key := by
  cases phase with
  | conflicted =>
    obtain ⟨row, found⟩ := faithful
    exact ⟨row, grows row found⟩
  | replayed original =>
    obtain ⟨row, found, same⟩ := faithful
    exact ⟨row, grows row found, same⟩
  | answered outcome =>
    cases outcome with
    | ok outcome =>
      obtain ⟨row, found, same⟩ := faithful
      exact ⟨row, grows row found, same⟩
    | error error => exact faithful
  | received | begun | inserting | inserted | lockingQuota | quotaLocked | judging | incremented => trivial

/-- One step of `create_event` keeps its memory faithful. -/
theorem Phase.Faithful.advanced (consistent : Consistent s) {payload : EventCreateRequest}
    {receivedAt : Instant} {phase after : Phase} (place : s.calls txn = .createEvent payload receivedAt phase)
    (faithful : phase.Faithful s.db.events.committed (payload.eventKey txn.apiKeyId))
    (moves : Advanced txn payload receivedAt s.db phase after db) :
    after.Faithful db.events.committed (payload.eventKey txn.apiKeyId) := by
  have held : s.held txn = phase.held txn payload := by
    rw [State.held, place]
    rfl
  cases moves with
  | @conflicts startedAt id row free found => exact ⟨row, found⟩
  | @finds row found => exact ⟨row, found, rfl⟩
  | findsNothing missing =>
    obtain ⟨row, found⟩ := faithful
    rw [RowTable.find, found] at missing
    contradiction
  | @commits row quotaState rollup =>
    exact ⟨row, consistent.events.find_commit (congrArg Held.event held), .inl rfl⟩
  | replays =>
    obtain ⟨row, found, rfl⟩ := faithful
    refine ⟨row, ?_, .inr rfl⟩
    rw [Database.commit, consistent.events.committed_of_unclaimed (congrArg Held.event held)]
    exact found
  | rejects rejected =>
    intro message same
    cases same
  | opens | draws | inserts | seesNoQuota | seesQuota | losesQuota | locksQuota | readsTotal | increments => trivial

end CreateEvent

/-- Every call of `create_event` remembers the published events faithfully. -/
def EventsFaithful (s : State) : Prop :=
  ∀ txn payload receivedAt phase, s.calls txn = .createEvent payload receivedAt phase →
    phase.Faithful s.db.events.committed (payload.eventKey txn.apiKeyId)

theorem EventsFaithful.stepped (faithful : EventsFaithful s) (consistent : Consistent s)
    (steps : Stepped s a next) : EventsFaithful next := by
  intro txn payload receivedAt phase place
  have grows : ∀ row, s.db.events.committed.lookup (payload.eventKey txn.apiKeyId) = some row →
      next.db.events.committed.lookup (payload.eventKey txn.apiKeyId) = some row :=
    fun row found => consistent.event_find_step steps found
  rcases steps.createEvent_cases place with ⟨-, same⟩ | ⟨rfl, -⟩ | ⟨before, db, -, same, moves, sameDb⟩ | ⟨rfl, -⟩
  · exact (faithful txn payload receivedAt phase same).mono grows
  · trivial
  · rw [sameDb]
    exact (faithful txn payload receivedAt before same).advanced consistent same moves
  · intro message same
    cases same

theorem EventsFaithful.of_run (faithful : EventsFaithful s) (consistent : Consistent s)
    (reached : Machine.run step s schedule = some final) : EventsFaithful final := by
  suffices both : Consistent final ∧ EventsFaithful final from both.2
  refine Machine.run_invariant (motive := fun s => Consistent s ∧ EventsFaithful s) ⟨consistent, faithful⟩ ?_ reached
  rintro s a next ⟨consistent, faithful⟩ steps
  exact ⟨consistent.stepped (stepped_of_step steps), faithful.stepped consistent (stepped_of_step steps)⟩

/-- Committing a transaction that holds nothing publishes nothing. -/
theorem Consistent.committed_commit_of_unheld (consistent : Consistent s) (unheld : s.held txn = .none) :
    (s.db.commit txn).committed = s.db.committed := by
  have event : (Held.event ∘ s.held) txn = none := congrArg Held.event unheld
  have rollup : (Held.rollup ∘ s.held) txn = none := congrArg Held.rollup unheld
  have quota : (Held.quota ∘ s.held) txn = none := congrArg Held.quota unheld
  simp only [Database.committed, Database.commit, consistent.events.committed_of_unclaimed event,
    consistent.rollups.committed_of_unclaimed rollup, consistent.quotas.committed_of_unclaimed quota]

/-- A step of `create_event` changes published rows only when it answers 201. -/
theorem CreateEvent.Advanced.committed_or_created (consistent : Consistent s) {payload : EventCreateRequest}
    {receivedAt : Instant} {phase after : CreateEvent.Phase}
    (place : s.calls txn = .createEvent payload receivedAt phase)
    (moves : CreateEvent.Advanced txn payload receivedAt s.db phase after db) :
    db.committed = s.db.committed ∨ ∃ record, after = .answered (.ok ⟨record, 201, false⟩) := by
  cases moves with
  | commits => exact .inr ⟨_, rfl⟩
  | replays => exact .inl (consistent.committed_commit_of_unheld (by rw [State.held, place]; rfl))
  | opens | draws | inserts | conflicts | seesNoQuota | seesQuota | losesQuota | locksQuota | readsTotal
    | rejects | increments | finds | findsNothing => exact .inl rfl

/-- The call was asked to record an event under a key, and this is its answer. -/
def State.EventAnswer (s : State) (txn : CallId) (key : EventKey)
    (outcome : Except ServiceError EventCreationOutcome) : Prop :=
  ∃ payload receivedAt, s.calls txn = .createEvent payload receivedAt (.answered outcome) ∧
    payload.eventKey txn.apiKeyId = key

/-- At most one call has been answered 201 for a key. -/
def CreatedOnce (s : State) : Prop :=
  ∀ key txn other record also, s.EventAnswer txn key (.ok ⟨record, 201, false⟩) →
    s.EventAnswer other key (.ok ⟨also, 201, false⟩) → txn = other

/-- The call that is answered 201 held the key of its event, which nobody had published. -/
private theorem created_step (consistent : Consistent s) (faithful : EventsFaithful s) (steps : Stepped s a next)
    {other : CallId} {key : EventKey} {record also : EventRecord}
    (created : next.EventAnswer txn key (.ok ⟨record, 201, false⟩))
    (before : s.EventAnswer other key (.ok ⟨also, 201, false⟩)) :
    s.EventAnswer txn key (.ok ⟨record, 201, false⟩) := by
  obtain ⟨payload, receivedAt, place, rfl⟩ := created
  obtain ⟨-, same⟩ | ⟨impossible, -⟩ | ⟨phase, db, -, same, moves, -⟩ | ⟨impossible, -⟩ :=
    steps.createEvent_cases place
  · exact ⟨payload, receivedAt, same, rfl⟩
  · cases impossible
  · obtain ⟨otherPayload, otherReceivedAt, otherPlace, sameKey⟩ := before
    obtain ⟨row, found, -⟩ := faithful other _ _ _ otherPlace
    rw [sameKey] at found
    cases moves with
    | @commits row quotaState rollup =>
      have fresh := consistent.fresh txn (payload.eventKey txn.apiKeyId) (.write row)
        (by rw [State.held, same]; rfl)
      rw [RowTable.find, found] at fresh
      contradiction
  · cases impossible

theorem CreatedOnce.stepped (once : CreatedOnce s) (consistent : Consistent s) (faithful : EventsFaithful s)
    (steps : Stepped s a next) : CreatedOnce next := by
  intro key txn other record also created otherCreated
  by_cases caller : a.caller = some txn
  · by_cases same : other = txn
    · exact same.symm
    · have before : s.EventAnswer other key (.ok ⟨also, 201, false⟩) := by
        obtain ⟨payload, receivedAt, place, sameKey⟩ := otherCreated
        exact ⟨payload, receivedAt, by rw [← place, steps.calls_of_ne (by rw [caller]; simpa using Ne.symm same)],
          sameKey⟩
      exact once key txn other record also (created_step consistent faithful steps created before) before
  · have before : s.EventAnswer txn key (.ok ⟨record, 201, false⟩) := by
      obtain ⟨payload, receivedAt, place, sameKey⟩ := created
      exact ⟨payload, receivedAt, by rw [← place, steps.calls_of_ne caller], sameKey⟩
    exact once key txn other record also before (created_step consistent faithful steps otherCreated before)

private theorem ingest_run (consistent : Consistent s) (faithful : EventsFaithful s) (once : CreatedOnce s)
    (reached : Machine.run step s schedule = some final) :
    Consistent final ∧ EventsFaithful final ∧ CreatedOnce final := by
  refine Machine.run_invariant (motive := fun s => Consistent s ∧ EventsFaithful s ∧ CreatedOnce s)
    ⟨consistent, faithful, once⟩ ?_ reached
  rintro s a next ⟨consistent, faithful, once⟩ steps
  have steps := stepped_of_step steps
  exact ⟨consistent.stepped steps, faithful.stepped consistent steps, once.stepped consistent faithful steps⟩

/-- The invariants of ingest together. -/
theorem ingest_of_run {collation : Collation} {now : Instant} {nextEventId : ℕ} {tables : Tables}
    (reached : Machine.run step (.init (.atRest collation now nextEventId tables)) schedule = some final) :
    Consistent final ∧ EventsFaithful final ∧ CreatedOnce final := by
  refine ingest_run (.init ..) ?_ ?_ reached
  · intro txn payload receivedAt phase place
    contradiction
  · intro key txn other record also created
    obtain ⟨_, _, place, -⟩ := created
    contradiction

/-- The only step of a `create_event` call that changes published rows is the one that answers 201. -/
theorem Stepped.committed_eq_of_not_created (consistent : Consistent s) (steps : Stepped s a next)
    (caller : a.caller = some txn) {payload : EventCreateRequest} {receivedAt : Instant}
    {phase : CreateEvent.Phase} (place : next.calls txn = .createEvent payload receivedAt phase)
    (uncreated : ∀ record, phase ≠ .answered (.ok ⟨record, 201, false⟩)) :
    next.db.committed = s.db.committed := by
  rcases steps.createEvent_cases place with ⟨other, -⟩ | ⟨-, same⟩ | ⟨before, db, -, place, moves, same⟩ | ⟨-, same⟩
  · exact absurd caller other
  · rw [same]
  · rcases moves.committed_or_created consistent place with unchanged | ⟨record, created⟩
    · rw [same, unchanged]
    · exact absurd created (uncreated record)
  · rw [same, Database.committed_rollback]

/-- A call that ended in anything but a 201 left the published rows as they were, at each of its steps. -/
theorem committed_eq_of_answer (consistent : Consistent s)
    (steps : Stepped s a next) (caller : a.caller = some txn)
    (rest : Machine.run step next schedule = some final) {payload : EventCreateRequest} {receivedAt : Instant}
    {outcome : Except ServiceError EventCreationOutcome}
    (answer : final.calls txn = .createEvent payload receivedAt (.answered outcome))
    (uncreated : ∀ record, outcome ≠ .ok ⟨record, 201, false⟩) : next.db.committed = s.db.committed := by
  obtain ⟨request, serves⟩ := steps.request_of_caller caller
  have kept := request_run rest serves
  rw [answer, Call.request, Option.some.injEq] at kept
  subst kept
  cases place : next.calls txn with
  | createEvent _ _ phase =>
    apply steps.committed_eq_of_not_created consistent caller place
    rintro record rfl
    have same := calls_run_of_answered (by rw [place]; rfl) rest
    rw [answer, place] at same
    cases same
    exact uncreated record rfl
  | idle | upsertQuota | deleteQuota | listQuotas | getUsage | getDailyUsage | exportUsage =>
    rw [place] at serves
    cases serves

/-- Exactly-once ingest. A committed event stays the one row of its key; one call at most is answered
201 for it, and any other success repeats that row. Every other ending leaves the tables as they
were at each step of the call and holds nothing; the race error is never raised. -/
theorem create_event_exactly_once {collation : Collation} {now : Instant} {nextEventId : ℕ} {tables : Tables}
    (reached : Machine.run step (.init (.atRest collation now nextEventId tables)) schedule = some final) :
    (∀ earlier later middle, schedule = earlier ++ later →
      Machine.run step (.init (.atRest collation now nextEventId tables)) earlier = some middle →
      ∀ key row, middle.db.events.find key = some row → final.db.events.find key = some row) ∧
    (∀ key txn other created also, final.EventAnswer txn key (.ok created) → final.EventAnswer other key (.ok also) →
      created.httpStatus = 201 → also.httpStatus = 201 → txn = other) ∧
    (∀ key txn outcome, final.EventAnswer txn key (.ok outcome) → ∃ row,
      final.db.events.find key = some row ∧ outcome.record = row.record key ∧
        (outcome.httpStatus = 201 ∨ outcome.httpStatus = 200)) ∧
    (∀ key txn outcome, final.EventAnswer txn key outcome → (∀ created, outcome = .ok created → created.httpStatus ≠ 201) →
      (∀ held effect, final.db.events.holds.lookup held ≠ some ⟨txn, effect⟩) ∧
      ∀ earlier a later middle next, schedule = earlier ++ a :: later → a.caller = some txn →
        Machine.run step (.init (.atRest collation now nextEventId tables)) earlier = some middle →
        step middle a = some next → next.db.committed = middle.db.committed) ∧
    ∀ key txn message, ¬ final.EventAnswer txn key (.error (.idempotencyRace message)) := by
  have start := Consistent.init collation now nextEventId tables
  obtain ⟨consistent, faithful, once⟩ := ingest_of_run reached
  -- The two successful outcomes, in full.
  have successes : ∀ key txn outcome, final.EventAnswer txn key (.ok outcome) → ∃ row,
      final.db.events.find key = some row ∧
        (outcome = ⟨row.record key, 201, false⟩ ∨ outcome = ⟨row.record key, 200, true⟩) := by
    rintro key txn outcome ⟨payload, receivedAt, place, rfl⟩
    exact faithful txn payload receivedAt _ place
  refine ⟨?_, ?_, ?_, ?_, ?_⟩
  · rintro earlier later middle rfl before key row found
    obtain ⟨_, same, rest⟩ := Machine.run_append_iff.mp reached
    obtain rfl := Option.some.inj (before.symm.trans same)
    exact (start.of_run before).event_find_run rest found
  · intro key txn other created also first second status alsoStatus
    obtain ⟨row, -, rfl | rfl⟩ := successes key txn created first
    · obtain ⟨otherRow, -, rfl | rfl⟩ := successes key other also second
      · exact once key txn other _ _ first second
      · exact absurd alsoStatus (show ¬ 200 = 201 by decide)
    · exact absurd status (show ¬ 200 = 201 by decide)
  · intro key txn outcome answer
    obtain ⟨row, found, rfl | rfl⟩ := successes key txn outcome answer
    · exact ⟨row, found, rfl, .inl rfl⟩
    · exact ⟨row, found, rfl, .inr rfl⟩
  · rintro key txn outcome ⟨payload, receivedAt, place, rfl⟩ failed
    refine ⟨?_, ?_⟩
    · intro held effect holds
      have claims := (consistent.events txn held effect).mp holds
      rw [Function.comp_apply, State.held, place] at claims
      contradiction
    · rintro earlier a later middle next rfl caller before last
      obtain ⟨_, same, rest⟩ := Machine.run_append_iff.mp reached
      obtain rfl := Option.some.inj (before.symm.trans same)
      rw [Machine.run_cons, last, Option.bind_some] at rest
      apply committed_eq_of_answer (start.of_run before) (stepped_of_step last) caller rest place
      rintro record rfl
      exact failed _ rfl rfl
  · rintro key txn message ⟨payload, receivedAt, place, rfl⟩
    exact faithful txn payload receivedAt _ place message rfl

/-- The first insertion is broken off while a second call waits for its key; the second is answered
201, and a third with another payload repeats it. -/
theorem create_event_exactly_once_after_abort :
    let request (metric : String) : Request := .createEvent ⟨"c", metric, ⟨5, by decide, by decide⟩, "k"⟩ 0
    let schedule := (request "m").steps ⟨1, 0⟩ 3 ++ (request "m").steps ⟨1, 1⟩ 2 ++ [.interrupt ⟨1, 0⟩] ++
      List.replicate 4 (.advance ⟨1, 1⟩) ++ (request "n").steps ⟨1, 2⟩ 5
    let key : EventKey := ⟨1, "k"⟩
    ∃ final, Machine.run step (.init (.atRest .codePoint 0 1 (.afterMigration ∅ ∅))) schedule = some final ∧
      (∃ outcome, final.EventAnswer ⟨1, 2⟩ key (.ok outcome) ∧ outcome.httpStatus = 200 ∧
        ∃ row, final.db.events.find key = some row ∧ outcome.record = row.record key) ∧
      (∀ effect, final.db.events.holds.lookup key ≠ some ⟨⟨1, 0⟩, effect⟩) := by
  intro request schedule key
  obtain ⟨final, reached, replayed, aborted⟩ : ∃ final,
      Machine.run step (.init (.atRest .codePoint 0 1 (.afterMigration ∅ ∅))) schedule = some final ∧
        final.EventAnswer ⟨1, 2⟩ key (.ok ⟨⟨2, 1, "c", "m", ⟨5, by decide, by decide⟩, "k", 0⟩, 200, true⟩) ∧
        final.EventAnswer ⟨1, 0⟩ key (.error .interrupted) :=
    ⟨_, rfl, ⟨_, _, rfl, rfl⟩, ⟨_, _, rfl, rfl⟩⟩
  obtain ⟨-, -, succeeds, fails, -⟩ := create_event_exactly_once reached
  obtain ⟨row, found, same, -⟩ := succeeds key ⟨1, 2⟩ _ replayed
  exact ⟨final, reached, ⟨_, replayed, rfl, row, found, same⟩, (fails key ⟨1, 0⟩ _ aborted (by simp)).1 key⟩

end Meterly
