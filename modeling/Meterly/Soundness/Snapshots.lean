import Meterly.Soundness.Calls

/-! # Answers come from one state during the call

The statement of a reading service, and the one that streams an export, sees the published rows of
the state in which it executes. What the call answers is computed from that state, wherever it
stands in the schedule between the start of the call and its end.
-/

namespace Meterly

/-- In some state along the schedule the call had been started and had not ended, and the database
was as described. -/
def During (source : State) (schedule : List Action) (txn : CallId) (described : Database → Prop) : Prop :=
  ∃ earlier later middle, schedule = earlier ++ later ∧ Machine.run step source earlier = some middle ∧
    (middle.calls txn).isRunning ∧ described middle.db

namespace During

variable {source current : State} {schedule : List Action} {txn : CallId} {described : Database → Prop}

theorem append (during : During source schedule txn described) (later : List Action) :
    During source (schedule ++ later) txn described := by
  obtain ⟨earlier, rest, middle, rfl, reached, running, holds⟩ := during
  exact ⟨earlier, rest ++ later, middle, List.append_assoc .., reached, running, holds⟩

theorem of_current (reached : Machine.run step source schedule = some current)
    (running : (current.calls txn).isRunning) (holds : described current.db) :
    During source schedule txn described :=
  ⟨schedule, [], current, (List.append_nil _).symm, reached, running, holds⟩

theorem imp {weaker : Database → Prop} (during : During source schedule txn described)
    (implies : ∀ db, described db → weaker db) : During source schedule txn weaker := by
  obtain ⟨earlier, later, middle, split, reached, running, holds⟩ := during
  exact ⟨earlier, later, middle, split, reached, running, implies _ holds⟩

end During

/-- What the call has read, or answered from it, is what its statement returns on a database. -/
def Call.ReadFrom (txn : CallId) (db : Database) : Call → Prop
  | .listQuotas (.read args rows) => rows = ListQuotas.statement txn.apiKeyId args db
  | .listQuotas (.answered (.ok response)) =>
    response = ListQuotas.respond () (ListQuotas.statement txn.apiKeyId () db)
  | .getUsage query (.read args rollup) => rollup = GetUsage.statement txn.apiKeyId query args db
  | .getUsage query (.answered (.ok response)) =>
    response = GetUsage.respond query () (GetUsage.statement txn.apiKeyId query () db)
  | .getDailyUsage _ _ (.read window records) => records = GetDailyUsage.statement txn.apiKeyId window db
  | .getDailyUsage date receivedAt (.answered (.ok response)) => ∃ window,
    parseDailyDate date receivedAt = .ok window ∧
      response = GetDailyUsage.respond window (GetDailyUsage.statement txn.apiKeyId window db)
  | .exportUsage params (.streaming records) => records = db.streamUsageRollups txn.apiKeyId params maxExportRows
  | .exportUsage params (.answered (.ok body)) =>
    body = streamExportCsv (db.streamUsageRollups txn.apiKeyId params maxExportRows)
  | _ => False

/-- The call has executed the statement it answers from. -/
def Call.hasRead : Call → Bool
  | .listQuotas (.read ..) | .listQuotas (.answered (.ok _)) | .getUsage _ (.read ..) | .getUsage _ (.answered (.ok _))
  | .getDailyUsage _ _ (.read ..) | .getDailyUsage _ _ (.answered (.ok _)) | .exportUsage _ (.streaming _)
  | .exportUsage _ (.answered (.ok _)) => true
  | _ => false

/-- The window a daily query has begun with is the one its date was parsed to. -/
def Call.DateParsed : Call → Prop
  | .getDailyUsage date receivedAt (.begun window) | .getDailyUsage date receivedAt (.read window _) =>
    parseDailyDate date receivedAt = .ok window
  | _ => True

variable {s next source final : State} {a : Action} {txn : CallId} {db after : Database} {schedule : List Action}

theorem Call.Advanced.dateParsed {before call : Call} (moves : Call.Advanced txn db before call after)
    (parsed : before.DateParsed) : call.DateParsed := by
  cases moves with
  | getDailyUsage moves =>
    cases moves with
    | opens valid => exact valid
    | reads => exact parsed
    | refuses | commits => trivial
  | createEvent | upsertQuota | deleteQuota | listQuotas | getUsage | exportUsage => trivial

/-- A step reads the present state, or passes on what was read. -/
theorem Call.Advanced.readFrom {before call : Call} (moves : Call.Advanced txn db before call after)
    (parsed : before.DateParsed) (read : call.hasRead) : call.ReadFrom txn db ∨
      before.hasRead ∧ ∀ snapshot, before.ReadFrom txn snapshot → call.ReadFrom txn snapshot := by
  cases moves with
  | createEvent | upsertQuota | deleteQuota => contradiction
  | listQuotas moves | getUsage moves =>
    cases moves with
    | reads => exact .inl rfl
    | commits => exact .inr ⟨rfl, fun snapshot same => by rw [show _ = _ from same]; rfl⟩
    | refuses | opens => contradiction
  | getDailyUsage moves =>
    cases moves with
    | reads => exact .inl rfl
    | @commits window records =>
      exact .inr ⟨rfl, fun snapshot same => ⟨window, parsed, by rw [show records = _ from same]⟩⟩
    | refuses | opens => contradiction
  | exportUsage moves =>
    cases moves with
    | streams => exact .inl rfl
    | @completes records => exact .inr ⟨rfl, fun snapshot same => by rw [show records = _ from same]; rfl⟩
    | opens | counts | refuses | prepares | sendsHeader | opensStream => contradiction

theorem Call.Advanced.running {before call : Call} (moves : Call.Advanced txn db before call after) :
    before.isRunning := by
  have unanswered := moves.not_answered
  cases moves <;> simpa [Call.isRunning] using unanswered

theorem Call.hasRead_interrupt (call : Call) : call.interrupt.hasRead = false := by
  cases call <;> rfl

theorem Request.hasRead_call (request : Request) : request.call.hasRead = false := by
  cases request <;> rfl

theorem dateParsed_run (start : ∀ txn, (source.calls txn).DateParsed)
    (reached : Machine.run step source schedule = some final) : ∀ txn, (final.calls txn).DateParsed := by
  refine Machine.run_invariant (motive := fun s => ∀ txn, (s.calls txn).DateParsed) start ?_ reached
  intro s a next parsed steps txn
  have steps := stepped_of_step steps
  rcases steps.call_cases txn with ⟨-, same⟩ | ⟨request, -, same, -⟩ | ⟨call, db, -, moves, same, -⟩ | ⟨-, same, -⟩
  · rw [same]
    exact parsed txn
  · rw [same]
    cases request <;> trivial
  · rw [same]
    exact moves.dateParsed (parsed txn)
  · rw [same]
    cases s.calls txn <;> trivial

/-- What a call has read is what its statement returns on the database of one state during the call. -/
theorem readFrom_run {db : Database} (reached : Machine.run step (.init db) schedule = some final)
    (read : (final.calls txn).hasRead) :
    During (.init db) schedule txn fun snapshot => (final.calls txn).ReadFrom txn snapshot := by
  suffices every : ∀ txn, (final.calls txn).hasRead →
      During (.init db) schedule txn fun snapshot => (final.calls txn).ReadFrom txn snapshot from every txn read
  refine Machine.run_induction (motive := fun schedule s => ∀ txn, (s.calls txn).hasRead →
    During (.init db) schedule txn fun snapshot => (s.calls txn).ReadFrom txn snapshot)
    _ (fun txn read => by contradiction) ?_ reached
  intro schedule s a next before ih steps txn read
  have steps := stepped_of_step steps
  have parsed : ∀ txn, (s.calls txn).DateParsed :=
    dateParsed_run (fun txn => show ((State.init db).calls txn).DateParsed from trivial) before
  rcases steps.call_cases txn with ⟨-, same⟩ | ⟨request, -, same, -⟩ | ⟨call, db, -, moves, same, -⟩ | ⟨-, same, -⟩
  · rw [same] at read ⊢
    exact (ih txn read).append _
  · rw [same, Request.hasRead_call] at read
    contradiction
  · rw [same] at read ⊢
    rcases moves.readFrom (parsed txn) read with now | ⟨earlier, onward⟩
    · exact (During.of_current before moves.running now).append _
    · exact ((ih txn earlier).imp onward).append _
  · rw [same, Call.hasRead_interrupt] at read
    contradiction

theorem Call.request_of_running {call : Call} (running : call.isRunning) : ∃ request, call.request = some request := by
  cases call with
  | idle => contradiction
  | createEvent | upsertQuota | deleteQuota | listQuotas | getUsage | getDailyUsage | exportUsage => exact ⟨_, rfl⟩

/-- What is seen during a call is seen after every state in which it had not been started. -/
theorem During.after_idle {acked : State} {first second : List Action} {described : Database → Prop}
    (before : Machine.run step source first = some acked) (idle : acked.calls txn = .idle)
    (during : During source (first ++ second) txn described) : During acked second txn described := by
  obtain ⟨earlier, later, middle, split, reached, running, holds⟩ := during
  rcases List.append_eq_append_iff.mp split with ⟨onward, rfl, rfl⟩ | ⟨onward, rfl, rfl⟩
  · obtain ⟨_, same, rest⟩ := Machine.run_append_iff.mp reached
    obtain rfl := Option.some.inj (before.symm.trans same)
    exact ⟨onward, later, middle, rfl, rest, running, holds⟩
  · obtain ⟨_, same, rest⟩ := Machine.run_append_iff.mp before
    obtain rfl := Option.some.inj (reached.symm.trans same)
    obtain ⟨request, serves⟩ := Call.request_of_running running
    have kept := request_run rest serves
    rw [idle] at kept
    contradiction

end Meterly
