import Meterly.Machine.Linearization
import Meterly.Soundness.LedgerEffects

/-! # The service is linearizable

Any number of calls of every kind overlap, statement by statement; what they answer is what one
ledger answers that serves them one at a time, in an order in which a call that had ended before
another began comes first. An accepted event, a stored limit and a removal take effect in the
commit that answers them. Every other call has no effect, and is answered from what it saw in one
state on its way: a listing, a total and an export in the state of their statement, a replay and a
refusal where the row or the total was read, a missing quota while it was missing.
-/

namespace Meterly

variable {s next final : State} {a : Action} {txn : CallId} {call : Call} {db : Database} {schedule : List Action}
  {collation : Collation}

/-! ## Calls that are answered from what they saw -/

/-- The limit that a call has locked and read is the one in force. -/
def LimitsLocked (s : State) : Prop :=
  ∀ txn payload receivedAt row limit, s.calls txn = .createEvent payload receivedAt (.quotaLocked row limit) →
    s.db.limit (row.quotaKey txn.apiKeyId) = some limit

theorem LimitsLocked.stepped (locked : LimitsLocked s) (consistent : Consistent s) (steps : Stepped s a next) :
    LimitsLocked next := by
  intro txn payload receivedAt row limit place
  rcases steps.createEvent_cases place with ⟨other, same⟩ | ⟨opened, -⟩ | ⟨before, db, -, -, moves, sameDb⟩ | ⟨ended, -⟩
  · have holds : (s.held txn).quota = some (row.quotaKey txn.apiKeyId, .keep) := by
      rw [State.held, same]
      rfl
    have stays : next.db.quotas.find (row.quotaKey txn.apiKeyId) = s.db.quotas.find (row.quotaKey txn.apiKeyId) := by
      rcases steps.moved with ⟨elapsed, rfl⟩ | ⟨mover, call, db, caller, moved, rfl⟩
      · rfl
      · exact consistent.quota_find_of_held moved (fun same => other (by rw [caller, same])) holds
    rw [Database.limit, stays]
    exact locked txn payload receivedAt row limit same
  · contradiction
  · rw [sameDb]
    cases moves with
    | locksQuota free latest =>
      exact congrArg (Option.map QuotaRow.limitPerWindow) (Database.latestVersion_eq_some.mp latest).1
  · contradiction

/-- The call is past the point at which it saw what it is answered from. -/
def Call.hasSeen : Call → Bool
  | createEvent _ _ (.replayed _) | createEvent _ _ (.judging _ (some _)) | exportUsage _ (.counted _) => true
  | call => call.isServed && !call.isEffect && !call.hasRead

/-- What a call has seen, or was answered from it, is what a database shows. -/
def Call.SeenIn (txn : CallId) (db : Database) : Call → Prop
  | createEvent payload _ (.replayed original) => ∃ row,
    db.events.find (payload.eventKey txn.apiKeyId) = some row ∧ original = row.record (payload.eventKey txn.apiKeyId)
  | createEvent payload _ (.answered (.ok outcome)) => ∃ row,
    db.events.find (payload.eventKey txn.apiKeyId) = some row ∧
      outcome = ⟨row.record (payload.eventKey txn.apiKeyId), 200, true⟩
  | createEvent payload _ (.judging row (some state)) => db.events.find (payload.eventKey txn.apiKeyId) = none ∧
    db.limit (row.quotaKey txn.apiKeyId) = some state.limitPerWindow ∧
      state.currentTotal = db.currentTotal (row.rollupKey txn.apiKeyId)
  | createEvent payload receivedAt (.answered (.error error)) =>
    db.events.find (payload.eventKey txn.apiKeyId) = none ∧
      (∃ limit, db.limit (payload.quotaKey txn.apiKeyId) = some limit ∧ limit.value * 10 ^ 6 <
        db.windowTotal (payload.quotaKey txn.apiKeyId) (EventCreateRequest.windowStart receivedAt) +
          payload.quantity.micros) ∧
      error = quotaExceededError
        (secondsUntilNextHourBoundary receivedAt (EventCreateRequest.windowStart receivedAt))
  | deleteQuota _ (.answered (.error error)) => error = quotaNotFound
  | getDailyUsage date receivedAt (.answered (.error error)) => parseDailyDate date receivedAt = .error error
  | exportUsage params (.counted rowCount) => rowCount = db.countUsageRollups txn.apiKeyId params
  | exportUsage params (.answered (.error error)) =>
    error = exportTooLarge ∧ maxExportRows < db.countUsageRollups txn.apiKeyId params
  | _ => False

/-- A step sees the present state, or passes on what was seen. -/
theorem Call.Advanced.seenIn (consistent : Consistent s) (faithful : EventsFaithful s) (rows : RowsFaithful s)
    (locked : LimitsLocked s) (moves : Call.Advanced txn s.db (s.calls txn) call db) (seen : call.hasSeen) :
    call.SeenIn txn s.db ∨
      (s.calls txn).hasSeen ∧ ∀ snapshot, (s.calls txn).SeenIn txn snapshot → call.SeenIn txn snapshot := by
  generalize place : s.calls txn = current at moves
  cases moves with
  | @createEvent payload receivedAt phase after db moves =>
    cases moves with
    | @finds row found => exact .inl ⟨row, found, rfl⟩
    | findsNothing missing =>
      obtain ⟨row, found⟩ := faithful txn payload receivedAt _ place
      rw [RowTable.find, found] at missing
      contradiction
    | replays =>
      refine .inr ⟨rfl, ?_⟩
      rintro snapshot ⟨row, found, rfl⟩
      exact ⟨row, found, rfl⟩
    | @readsTotal row limit =>
      have event : (s.held txn).event = some (payload.eventKey txn.apiKeyId, .write row) := by
        rw [State.held, place]
        rfl
      exact .inl ⟨consistent.fresh txn _ _ event, locked txn payload receivedAt row limit place, rfl⟩
    | @rejects row quotaState rejected =>
      obtain ⟨state, rfl, -⟩ := id rejected
      refine .inr ⟨rfl, ?_⟩
      rintro snapshot ⟨fresh, inForce, total⟩
      have asked := rows txn payload receivedAt _ row place rfl
      have own : row.quotaKey txn.apiKeyId = payload.quotaKey txn.apiKeyId := by rw [asked]; rfl
      have exceeded : state.limitPerWindow.value * 10 ^ 6 <
          snapshot.windowTotal (payload.quotaKey txn.apiKeyId) row.windowStart + row.quantity.micros :=
        (rejected_iff own).mp (total ▸ rejected)
      rw [own] at inForce
      rw [asked] at exceeded
      exact ⟨fresh, ⟨_, inForce, exceeded⟩, rfl⟩
    | commits | opens | draws | inserts | conflicts | seesNoQuota | seesQuota | losesQuota | locksQuota
      | increments => contradiction
  | upsertQuota moves => cases moves <;> contradiction
  | deleteQuota moves =>
    cases moves with
    | @commits found =>
      cases found with
      | true => contradiction
      | false => exact .inl rfl
    | opens | seesNothing | sees | loses | removes => contradiction
  | listQuotas moves | getUsage moves => cases moves <;> contradiction
  | getDailyUsage moves =>
    cases moves with
    | refuses invalid => exact .inl invalid
    | opens | reads | commits => contradiction
  | exportUsage moves =>
    cases moves with
    | counts => exact .inl rfl
    | @refuses rowCount large =>
      refine .inr ⟨rfl, ?_⟩
      rintro snapshot rfl
      exact ⟨rfl, large⟩
    | opens | prepares | sendsHeader | opensStream | streams | completes => contradiction

theorem Request.hasSeen_call (request : Request) : request.call.hasSeen = false := by
  cases request <;> rfl

theorem Call.hasSeen_interrupt (call : Call) : call.interrupt.hasSeen = false := by
  cases call <;> rfl

section Runs

variable {now : Instant} {nextEventId : ℕ} {events : Rows EventKey EventRow} {quotas : Rows QuotaKey QuotaRow}

theorem LimitsLocked.of_run {tables : Tables}
    (reached : Machine.run step (.init (.atRest collation now nextEventId tables)) schedule = some final) :
    LimitsLocked final := by
  suffices both : Consistent final ∧ LimitsLocked final from both.2
  refine Machine.run_invariant (motive := fun s => Consistent s ∧ LimitsLocked s)
    ⟨.init .., fun _ _ _ _ _ place => by contradiction⟩ ?_ reached
  rintro s a next ⟨consistent, locked⟩ steps
  exact ⟨consistent.stepped (stepped_of_step steps), locked.stepped consistent (stepped_of_step steps)⟩

theorem UpsertsFaithful.of_run {tables : Tables}
    (reached : Machine.run step (.init (.atRest collation now nextEventId tables)) schedule = some final) :
    UpsertsFaithful final := by
  suffices both : Consistent final ∧ UpsertsFaithful final from both.2
  refine Machine.run_invariant (motive := fun s => Consistent s ∧ UpsertsFaithful s)
    ⟨.init .., fun _ _ _ _ place => by contradiction⟩ ?_ reached
  rintro s a next ⟨consistent, faithful⟩ steps
  exact ⟨consistent.stepped (stepped_of_step steps), faithful.stepped consistent (stepped_of_step steps)⟩

/-- What a call has seen is what one state during the call shows. -/
theorem seenIn_run {tables : Tables}
    (reached : Machine.run step (.init (.atRest collation now nextEventId tables)) schedule = some final)
    (seen : (final.calls txn).hasSeen) :
    During (.init (.atRest collation now nextEventId tables)) schedule txn fun snapshot =>
      (final.calls txn).SeenIn txn snapshot := by
  have start := Consistent.init collation now nextEventId tables
  suffices every : ∀ txn, (final.calls txn).hasSeen →
      During (.init (.atRest collation now nextEventId tables)) schedule txn fun snapshot =>
        (final.calls txn).SeenIn txn snapshot from every txn seen
  refine Machine.run_induction (motive := fun schedule s => ∀ txn, (s.calls txn).hasSeen →
    During (.init (.atRest collation now nextEventId tables)) schedule txn fun snapshot =>
      (s.calls txn).SeenIn txn snapshot) _ (fun txn seen => by contradiction) ?_ reached
  intro schedule s a next before ih steps txn seen
  have steps := stepped_of_step steps
  rcases steps.call_cases txn with ⟨-, same⟩ | ⟨request, -, same, -⟩ | ⟨call, db, -, moves, same, -⟩ | ⟨-, same, -⟩
  · rw [same] at seen ⊢
    exact (ih txn seen).append _
  · rw [same, Request.hasSeen_call] at seen
    contradiction
  · rw [same] at seen ⊢
    have faithful : EventsFaithful s := EventsFaithful.of_run (fun _ _ _ _ place => by contradiction) start before
    rcases moves.seenIn (start.of_run before) faithful (.of_run before) (.of_run before) seen with
      now | ⟨earlier, onward⟩
    · exact (During.of_current before moves.running now).append _
    · exact ((ih txn earlier).imp onward).append _
  · rw [same, Call.hasSeen_interrupt] at seen
    contradiction

/-- A call that reads is answered as the ledger answers it in the state it read. -/
theorem Call.ReadFrom.serve (isLog : RollupIsLog s) (order : s.db.collation = collation)
    (read : call.ReadFrom txn s.db) (answered : call.isAnswered) :
    s.db.ledger.serve collation (txn, call) = some s.db.ledger := by
  cases call with
  | listQuotas phase =>
    cases phase with
    | answered outcome =>
      cases outcome with
      | ok response =>
        obtain rfl : response = _ := read
        subst order
        refine if_pos ?_
        rw [ListQuotas.statement, ListQuotas.statement, Database.listQuotas_ledger]
      | error => contradiction
    | received | begun | read => contradiction
  | getUsage query phase =>
    cases phase with
    | answered outcome =>
      cases outcome with
      | ok response =>
        obtain rfl : response = _ := read
        refine if_pos ?_
        rw [isLog.getUsage_ledger]
      | error => contradiction
    | received | begun | read => contradiction
  | getDailyUsage date receivedAt phase =>
    cases phase with
    | answered outcome =>
      cases outcome with
      | ok response =>
        obtain ⟨window, parsed, rfl⟩ := read
        simp only [Ledger.serve, parsed, isLog.getDailyUsage_ledger order, if_true]
      | error => contradiction
    | received | begun | read => contradiction
  | exportUsage params phase =>
    cases phase with
    | answered outcome =>
      cases outcome with
      | ok body =>
        obtain rfl : body = _ := read
        refine if_pos ?_
        rw [isLog.streamUsageRollups_ledger order]
      | error => contradiction
    | received | begun | counted | prepared | headerSent | streamBegun | streaming => contradiction
  | idle | createEvent | upsertQuota | deleteQuota => contradiction

/-- A call that has no effect is answered as the ledger answers it in the state that showed what it saw. -/
theorem Call.SeenIn.serve (isLog : RollupIsLog s) (seen : call.SeenIn txn s.db) (answered : call.isAnswered)
    (absent : ∀ params phase, call = .deleteQuota params phase →
      s.db.quotas.find (params.quotaKey txn.apiKeyId) = none) :
    s.db.ledger.serve collation (txn, call) = some s.db.ledger := by
  cases call with
  | createEvent payload receivedAt phase =>
    cases phase with
    | answered outcome =>
      cases outcome with
      | ok outcome =>
        obtain ⟨row, found, rfl⟩ := seen
        simp only [Ledger.serve, Database.lookup_events_ledger, found, Option.map_some]
        exact if_pos rfl
      | error error =>
        obtain ⟨fresh, ⟨limit, inForce, exceeded⟩, rfl⟩ := seen
        have refuses : s.db.ledger.Refuses txn.apiKeyId payload receivedAt := by
          refine ⟨limit, (Database.lookup_limits_ledger _ _).trans inForce, ?_⟩
          rw [isLog.total_ledger]
          exact exceeded
        simp only [Ledger.serve, Database.lookup_events_ledger, fresh, Option.map_none, refuses, true_and, if_true]
    | received | begun | inserting | inserted | lockingQuota | quotaLocked | judging | incremented | conflicted
      | replayed => contradiction
  | deleteQuota params phase =>
    cases phase with
    | answered outcome =>
      cases outcome with
      | ok => contradiction
      | error error =>
        obtain rfl : error = quotaNotFound := seen
        simp only [Ledger.serve, Database.lookup_limits_ledger, Database.limit, absent params _ rfl, Option.map_none,
          if_true]
    | received | begun | deleting | removed => contradiction
  | getDailyUsage date receivedAt phase =>
    cases phase with
    | answered outcome =>
      cases outcome with
      | ok => contradiction
      | error error =>
        simp only [Ledger.serve, show parseDailyDate date receivedAt = .error error from seen, if_true]
    | received | begun | read => contradiction
  | exportUsage params phase =>
    cases phase with
    | answered outcome =>
      cases outcome with
      | ok => contradiction
      | error error =>
        obtain ⟨rfl, large⟩ := seen
        refine if_pos ⟨rfl, ?_⟩
        rwa [← Database.countUsageRollups_eq_of_perm isLog.perm_ledger]
    | received | begun | counted | prepared | headerSent | streamBegun | streaming => contradiction
  | idle | upsertQuota | listQuotas | getUsage => contradiction

theorem Call.isAnswered_of_isServed (served : call.isServed) : call.isAnswered := by
  unfold Call.isServed at served
  split at served
  all_goals first | rfl | assumption

theorem Call.hasSeen_of_isServed (served : call.isServed) (silent : call.isEffect = false)
    (unread : call.hasRead = false) : call.hasSeen := by
  unfold Call.hasSeen
  split
  · rfl
  · rfl
  · rfl
  · rw [served, silent, unread]
    rfl

/-- A call that ended without effect was served by the ledger of one state during the call. -/
theorem exists_serving_state
    (reached : Machine.run step (.init (.atRest collation now nextEventId (.afterMigration events quotas)))
      schedule = some final) (served : (final.calls txn).isServed) (silent : (final.calls txn).isEffect = false) :
    ∃ earlier a later middle, schedule = earlier ++ a :: later ∧
      Machine.run step (.init (.atRest collation now nextEventId (.afterMigration events quotas))) earlier =
        some middle ∧ (middle.calls txn).isRunning ∧
      middle.db.ledger.serve collation (txn, final.calls txn) = some middle.db.ledger := by
  have answered := Call.isAnswered_of_isServed served
  have seen : During (.init (.atRest collation now nextEventId (.afterMigration events quotas))) schedule txn
      fun snapshot => (final.calls txn).ReadFrom txn snapshot ∨ (final.calls txn).SeenIn txn snapshot ∧
        ∀ params phase, final.calls txn = .deleteQuota params phase →
          snapshot.quotas.find (params.quotaKey txn.apiKeyId) = none := by
    cases read : (final.calls txn).hasRead with
    | true => exact (readFrom_run reached read).imp fun _ same => .inl same
    | false =>
      have seen := seenIn_run reached (Call.hasSeen_of_isServed served silent read)
      cases place : final.calls txn with
      | deleteQuota params phase =>
        rw [place] at seen answered
        cases phase with
        | answered outcome =>
          cases outcome with
          | ok =>
            obtain ⟨_, _, _, -, -, -, impossible⟩ := seen
            exact impossible.elim
          | error error =>
            obtain ⟨_, _, _, -, -, -, notFound⟩ := seen
            refine (delete_justified (.init ..) reached place notFound).imp fun snapshot gone => .inr ⟨notFound, ?_⟩
            rintro _ _ ⟨⟩
            exact gone
        | received | begun | deleting | removed => contradiction
      | idle | createEvent | upsertQuota | listQuotas | getUsage | getDailyUsage | exportUsage =>
        rw [place] at seen
        exact seen.imp fun _ shown => .inr ⟨shown, fun _ _ same => by contradiction⟩
  obtain ⟨earlier, later, middle, rfl, before, running, shows⟩ := seen
  have isLog := RollupIsLog.of_run before
  have order : middle.db.collation = collation := (collation_run before).trans rfl
  cases later with
  | nil =>
    rw [List.append_nil] at reached
    obtain rfl := Option.some.inj (before.symm.trans reached)
    exact absurd running (Call.not_running_of_answered answered)
  | cons a later =>
    refine ⟨earlier, a, later, middle, rfl, before, running, ?_⟩
    rcases shows with read | ⟨seen, absent⟩
    · exact read.serve isLog order answered
    · exact seen.serve isLog answered absent

/-- One call ended before another began. -/
abbrev PrecedesInTime (source : State) (schedule : List Action) : CallId × Call → CallId × Call → Prop :=
  Machine.Precedes step (fun answer s => (s.calls answer.1).isAnswered) (fun answer s => s.calls answer.1 = .idle)
    source schedule

/-- The service is linearizable. Whatever the interleaving of its statements, with any calls broken off and with
time passing, the calls that were answered can be put in one order that respects real time and in which a ledger
serves them one at a time, each with the very answer it was given, from the ledger that the tables held at first to
the one they hold in the end. -/
theorem service_linearizable
    (reached : Machine.run step (.init (.atRest collation now nextEventId (.afterMigration events quotas)))
      schedule = some final) :
    ∃ order, Machine.Linearizes (Ledger.serve collation)
      (PrecedesInTime (.init (.atRest collation now nextEventId (.afterMigration events quotas))) schedule)
      (Database.atRest collation now nextEventId (.afterMigration events quotas)).ledger final.db.ledger
      (final.answers.filter fun answer => answer.2.isServed) order := by
  let source : State := .init (.atRest collation now nextEventId (.afterMigration events quotas))
  let pending := final.answers.filter fun answer => answer.2.isServed && !answer.2.isEffect
  have start : Consistent source := .init ..
  have answers := AnswersListed.of_run reached
  have ended_stays : ∀ (answer : CallId × Call) s later t, Machine.run step s later = some t →
      (s.calls answer.1).isAnswered → ¬ (t.calls answer.1).isRunning := by
    intro answer s later t onward ended
    rw [calls_run_of_answered ended onward]
    exact Call.not_running_of_answered ended
  have open_stays : ∀ (answer : CallId × Call) s later t, Machine.run step s later = some t →
      (s.calls answer.1).isRunning → t.calls answer.1 ≠ .idle := by
    intro answer s later t onward running idle
    obtain ⟨request, serves⟩ := Call.request_of_running running
    have kept := request_run onward serves
    rw [idle] at kept
    contradiction
  have takes : ∀ earlier a later (middle next : State), schedule = earlier ++ a :: later →
      Machine.run step source earlier = some middle → step middle a = some next →
      Machine.run (Ledger.serve collation) middle.db.ledger (effected middle a next) = some next.db.ledger ∧
        ∀ answer ∈ effected middle a next, (middle.calls answer.1).isRunning :=
    fun _ _ _ _ _ _ before last =>
      (stepped_of_step last).serves (start.of_run before) (.of_run before) (.of_run before)
  have sees : ∀ answer ∈ pending, ∃ earlier a later middle, schedule = earlier ++ a :: later ∧
      Machine.run step source earlier = some middle ∧ (middle.calls answer.1).isRunning ∧
      middle.db.ledger.serve collation answer = some middle.db.ledger := by
    rintro ⟨txn, call⟩ member
    obtain ⟨listed, kind⟩ := List.mem_filter.mp member
    obtain ⟨rfl, -⟩ := (answers.listed txn call).mp listed
    rw [Bool.and_eq_true, Bool.not_eq_true'] at kind
    exact exists_serving_state reached kind.1 kind.2
  obtain ⟨order, perm, legal, respects⟩ := Machine.exists_linearization ended_stays open_stays reached takes sees
  refine ⟨order, perm.trans ?_, legal, respects⟩
  have parts := List.filter_append_perm (fun answer : CallId × Call => answer.2.isEffect)
    (final.answers.filter fun answer => answer.2.isServed)
  simp only [List.filter_filter, Call.isEffect_and_isServed] at parts
  simpa only [observed_effected reached, pending, Bool.and_comm] using parts

end Runs

/-- A total is read before an event commits and answered after it: the answers do not fit a ledger in the order in
which they were given, but they do in another. -/
theorem service_linearizable_late_answer :
    let event : Request := .createEvent ⟨"c", "m", ⟨1500000, by decide, by decide⟩, "a"⟩ 0
    let usage : Request := .getUsage ⟨"c", "m", ⟨0, 0⟩⟩
    let schedule := usage.steps ⟨7, 0⟩ 2 ++ event.steps ⟨7, 1⟩ 6 ++ [.advance ⟨7, 0⟩]
    let db : Database := .atRest .codePoint 0 1 (.afterMigration ∅ ∅)
    ∃ final, Machine.run step (.init db) schedule = some final ∧
      Machine.run (Ledger.serve .codePoint) db.ledger final.answers = none ∧
      ∃ order, Machine.Linearizes (Ledger.serve .codePoint) (PrecedesInTime (.init db) schedule) db.ledger
        final.db.ledger (final.answers.filter fun answer => answer.2.isServed) order := by
  intro event usage schedule db
  obtain ⟨final, reached, misfit⟩ := Option.map_eq_some_iff.mp (show
    (Machine.run step (.init db) schedule).map (fun final =>
      (Machine.run (Ledger.serve .codePoint) db.ledger final.answers).isNone) = some true by decide +kernel)
  exact ⟨final, reached, Option.isNone_iff_eq_none.mp misfit, service_linearizable reached⟩

end Meterly
