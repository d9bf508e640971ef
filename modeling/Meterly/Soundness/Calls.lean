import Meterly.Soundness.Consistency

/-! # Calls move one at a time and end once

An action moves the call it belongs to and no other. A call that has ended is never moved again, so
what it was answered stays on record to the end of the run.
-/

namespace Meterly

variable {s next final : State} {a : Action} {txn : CallId} {schedule : List Action}

theorem Call.Advanced.not_answered {before after : Call} {db next : Database}
    (moves : Call.Advanced txn db before after next) : ¬ before.isAnswered := by
  cases moves with
  | createEvent moves => cases moves <;> exact Bool.false_ne_true
  | upsertQuota moves => cases moves <;> exact Bool.false_ne_true
  | deleteQuota moves => cases moves <;> exact Bool.false_ne_true
  | listQuotas moves | getUsage moves | getDailyUsage moves => cases moves <;> exact Bool.false_ne_true
  | exportUsage moves => cases moves <;> exact Bool.false_ne_true

theorem Call.not_running_of_answered {call : Call} (answered : call.isAnswered) : ¬ call.isRunning := by
  cases call with
  | idle => contradiction
  | createEvent | upsertQuota | deleteQuota | listQuotas | getUsage | getDailyUsage | exportUsage =>
    simp [Call.isRunning, answered]

theorem Call.isRunning_of_started {call : Call} (started : call ≠ .idle) (unanswered : ¬ call.isAnswered) :
    call.isRunning := by
  cases call with
  | idle => exact absurd rfl started
  | createEvent | upsertQuota | deleteQuota | listQuotas | getUsage | getDailyUsage | exportUsage =>
    simpa [Call.isRunning] using unanswered

namespace Stepped

/-- Only the call an action belongs to is moved. -/
theorem calls_of_ne (steps : Stepped s a next) (differs : a.caller ≠ some txn) :
    next.calls txn = s.calls txn := by
  rcases steps.moved with ⟨elapsed, rfl⟩ | ⟨mover, call, db, caller, -, rfl⟩
  · rfl
  · exact State.calls_record_of_ne fun same => differs (by rw [caller, same])

/-- A call that has ended has no further step. -/
theorem caller_ne_of_answered (steps : Stepped s a next) (answered : (s.calls txn).isAnswered) :
    a.caller ≠ some txn := by
  intro caller
  cases steps with
  | start idle =>
    obtain rfl := Option.some.inj caller
    rw [idle] at answered
    contradiction
  | advance moves =>
    obtain rfl := Option.some.inj caller
    exact moves.not_answered answered
  | interrupt running =>
    obtain rfl := Option.some.inj caller
    exact Call.not_running_of_answered answered running
  | tick => contradiction

theorem calls_of_answered (steps : Stepped s a next) (answered : (s.calls txn).isAnswered) :
    next.calls txn = s.calls txn :=
  steps.calls_of_ne (steps.caller_ne_of_answered answered)

end Stepped

/-- One call across an action: it is left alone, started, advanced or broken off. -/
theorem Stepped.call_cases (steps : Stepped s a next) (txn : CallId) :
    (a.caller ≠ some txn ∧ next.calls txn = s.calls txn) ∨
    (∃ request : Request, s.calls txn = .idle ∧ next.calls txn = request.call ∧ next.db = s.db) ∨
    (∃ call db, a = .advance txn ∧ Call.Advanced txn s.db (s.calls txn) call db ∧ next.calls txn = call ∧
      next.db = db) ∨
    ((s.calls txn).isRunning ∧ next.calls txn = (s.calls txn).interrupt ∧ next.db = s.db.rollback txn) := by
  by_cases own : a.caller = some txn
  · cases steps with
    | @start _ request idle =>
      obtain rfl := Option.some.inj own
      exact .inr (.inl ⟨request, idle, State.calls_record_self, rfl⟩)
    | advance moves =>
      obtain rfl := Option.some.inj own
      exact .inr (.inr (.inl ⟨_, _, rfl, moves, State.calls_record_self, rfl⟩))
    | interrupt running =>
      obtain rfl := Option.some.inj own
      exact .inr (.inr (.inr ⟨running, State.calls_record_self, rfl⟩))
    | tick => contradiction
  · exact .inl ⟨own, steps.calls_of_ne own⟩

/-- A call of `create_event` that stepped was in an earlier phase of the same request. -/
theorem Stepped.createEvent_cases (steps : Stepped s a next) {payload : EventCreateRequest}
    {receivedAt : Instant} {phase : CreateEvent.Phase}
    (place : next.calls txn = .createEvent payload receivedAt phase) :
    (a.caller ≠ some txn ∧ s.calls txn = .createEvent payload receivedAt phase) ∨
    (phase = .received ∧ next.db = s.db) ∨
    (∃ before db, a = .advance txn ∧ s.calls txn = .createEvent payload receivedAt before ∧
      CreateEvent.Advanced txn payload receivedAt s.db before phase db ∧ next.db = db) ∨
    (phase = .answered (.error .interrupted) ∧ next.db = s.db.rollback txn) := by
  obtain ⟨other, same⟩ | ⟨request, -, opened, same⟩ | ⟨call, db, rfl, moves, rfl, same⟩ | ⟨-, ended, same⟩ :=
    steps.call_cases txn
  · exact .inl ⟨other, same.symm.trans place⟩
  · rw [place] at opened
    cases request with
    | createEvent =>
      cases opened
      exact .inr (.inl ⟨rfl, same⟩)
    | upsertQuota | deleteQuota | listQuotas | getUsage | getDailyUsage | exportUsage => contradiction
  · rw [place] at moves
    generalize s.calls txn = before at moves
    cases moves with
    | createEvent moves => exact .inr (.inr (.inl ⟨_, _, rfl, rfl, moves, same⟩))
  · rw [place] at ended
    cases before : s.calls txn with
    | createEvent payload receivedAt phase =>
      rw [before] at ended
      cases ended
      exact .inr (.inr (.inr ⟨rfl, same⟩))
    | idle | upsertQuota | deleteQuota | listQuotas | getUsage | getDailyUsage | exportUsage =>
      rw [before] at ended
      contradiction

/-- A call of `upsert_quota` that stepped was in an earlier phase of the same request. -/
theorem Stepped.upsertQuota_cases (steps : Stepped s a next) {payload : QuotaPutRequest} {phase : UpsertQuota.Phase}
    (place : next.calls txn = .upsertQuota payload phase) :
    (a.caller ≠ some txn ∧ s.calls txn = .upsertQuota payload phase) ∨ phase = .received ∨
    (∃ before, a = .advance txn ∧ s.calls txn = .upsertQuota payload before ∧
      UpsertQuota.Advanced txn payload s.db before phase next.db) ∨
    phase = .answered (.error .interrupted) := by
  obtain ⟨other, same⟩ | ⟨request, -, opened, -⟩ | ⟨call, db, rfl, moves, rfl, rfl⟩ | ⟨-, ended, -⟩ :=
    steps.call_cases txn
  · exact .inl ⟨other, same.symm.trans place⟩
  · rw [place] at opened
    cases request with
    | upsertQuota =>
      cases opened
      exact .inr (.inl rfl)
    | createEvent | deleteQuota | listQuotas | getUsage | getDailyUsage | exportUsage => contradiction
  · rw [place] at moves
    generalize s.calls txn = before at moves
    cases moves with
    | upsertQuota moves => exact .inr (.inr (.inl ⟨_, rfl, rfl, moves⟩))
  · rw [place] at ended
    cases before : s.calls txn with
    | upsertQuota payload phase =>
      rw [before] at ended
      cases ended
      exact .inr (.inr (.inr rfl))
    | idle | createEvent | deleteQuota | listQuotas | getUsage | getDailyUsage | exportUsage =>
      rw [before] at ended
      contradiction

/-- A call of `delete_quota` that stepped was in an earlier phase of the same request. -/
theorem Stepped.deleteQuota_cases (steps : Stepped s a next) {params : QuotaDeleteParams} {phase : DeleteQuota.Phase}
    (place : next.calls txn = .deleteQuota params phase) :
    (a.caller ≠ some txn ∧ s.calls txn = .deleteQuota params phase) ∨ phase = .received ∨
    (∃ before, a = .advance txn ∧ s.calls txn = .deleteQuota params before ∧
      DeleteQuota.Advanced txn params s.db before phase next.db) ∨
    phase = .answered (.error .interrupted) := by
  obtain ⟨other, same⟩ | ⟨request, -, opened, -⟩ | ⟨call, db, rfl, moves, rfl, rfl⟩ | ⟨-, ended, -⟩ :=
    steps.call_cases txn
  · exact .inl ⟨other, same.symm.trans place⟩
  · rw [place] at opened
    cases request with
    | deleteQuota =>
      cases opened
      exact .inr (.inl rfl)
    | createEvent | upsertQuota | listQuotas | getUsage | getDailyUsage | exportUsage => contradiction
  · rw [place] at moves
    generalize s.calls txn = before at moves
    cases moves with
    | deleteQuota moves => exact .inr (.inr (.inl ⟨_, rfl, rfl, moves⟩))
  · rw [place] at ended
    cases before : s.calls txn with
    | deleteQuota params phase =>
      rw [before] at ended
      cases ended
      exact .inr (.inr (.inr rfl))
    | idle | createEvent | upsertQuota | listQuotas | getUsage | getDailyUsage | exportUsage =>
      rw [before] at ended
      contradiction

/-- The request that a call serves. -/
def Call.request : Call → Option Request
  | idle => none
  | createEvent payload receivedAt _ => some (.createEvent payload receivedAt)
  | upsertQuota payload _ => some (.upsertQuota payload)
  | deleteQuota params _ => some (.deleteQuota params)
  | listQuotas _ => some .listQuotas
  | getUsage query _ => some (.getUsage query)
  | getDailyUsage date receivedAt _ => some (.getDailyUsage date receivedAt)
  | exportUsage params _ => some (.exportUsage params)

@[simp] theorem Request.request_call (request : Request) : request.call.request = some request := by
  cases request <;> rfl

@[simp] theorem Call.request_interrupt (call : Call) : call.interrupt.request = call.request := by
  cases call <;> rfl

theorem Call.Advanced.request {before after : Call} {db next : Database}
    (moves : Call.Advanced txn db before after next) :
    after.request = before.request ∧ before.request.isSome := by
  cases moves <;> exact ⟨rfl, rfl⟩

namespace Stepped

/-- A call that has been started serves one request. -/
theorem request_of_some (steps : Stepped s a next) {request : Request}
    (serves : (s.calls txn).request = some request) : (next.calls txn).request = some request := by
  rcases steps.call_cases txn with ⟨-, same⟩ | ⟨-, idle, -, -⟩ | ⟨call, db, -, moves, same, -⟩ | ⟨-, same, -⟩
  · rw [same, serves]
  · rw [idle] at serves
    contradiction
  · rw [same, moves.request.1, serves]
  · rw [same, Call.request_interrupt, serves]

/-- After an action of its own a call has been started. -/
theorem request_of_caller (steps : Stepped s a next) (caller : a.caller = some txn) :
    ∃ request, (next.calls txn).request = some request := by
  obtain ⟨other, -⟩ | ⟨request, -, same, -⟩ | ⟨call, db, -, moves, same, -⟩ | ⟨running, same, -⟩ :=
    steps.call_cases txn
  · exact absurd caller other
  · exact ⟨request, by rw [same, Request.request_call]⟩
  · rw [same, moves.request.1]
    exact Option.isSome_iff_exists.mp moves.request.2
  · rw [same, Call.request_interrupt]
    cases before : s.calls txn with
    | idle => rw [before] at running; contradiction
    | createEvent | upsertQuota | deleteQuota | listQuotas | getUsage | getDailyUsage | exportUsage =>
      exact ⟨_, rfl⟩

end Stepped

theorem request_run (reached : Machine.run step s schedule = some final) {request : Request}
    (serves : (s.calls txn).request = some request) : (final.calls txn).request = some request :=
  Machine.run_invariant (motive := fun current => (current.calls txn).request = some request) serves
    (fun _ _ _ valid steps => (stepped_of_step steps).request_of_some valid) reached

/-- What a call was answered stays on record. -/
theorem calls_run_of_answered (answered : (s.calls txn).isAnswered)
    (reached : Machine.run step s schedule = some final) : final.calls txn = s.calls txn := by
  refine Machine.run_invariant (motive := fun current => current.calls txn = s.calls txn) rfl ?_ reached
  intro current a next same steps
  rw [← same] at answered ⊢
  exact (stepped_of_step steps).calls_of_answered answered

/-- The answers are the calls that have ended, each once. -/
structure AnswersListed (s : State) : Prop where
  listed : ∀ txn call, (txn, call) ∈ s.answers ↔ s.calls txn = call ∧ call.isAnswered
  distinct : (s.answers.map Prod.fst).Nodup

theorem AnswersListed.record {call : Call} {db : Database} (answers : AnswersListed s)
    (unanswered : ¬ (s.calls txn).isAnswered) : AnswersListed (s.record txn call db) := by
  have unlisted : ∀ earlier, (txn, earlier) ∉ s.answers := by
    intro earlier member
    obtain ⟨rfl, answered⟩ := (answers.listed txn earlier).mp member
    exact unanswered answered
  refine ⟨?_, ?_⟩
  · intro other ended
    by_cases same : other = txn
    · subst other
      rw [State.calls_record_self, State.record]
      split_ifs with answered
      · simp only [List.mem_append, unlisted, List.mem_singleton, Prod.mk.injEq, true_and, false_or]
        exact ⟨fun equal => ⟨equal.symm, equal ▸ answered⟩, fun equal => equal.1.symm⟩
      · exact iff_of_false (unlisted ended) fun equal => answered (equal.1 ▸ equal.2)
    · rw [State.calls_record_of_ne same, ← answers.listed, State.record]
      split_ifs
      · simp only [List.mem_append, List.mem_singleton, Prod.mk.injEq, same, false_and, or_false]
      · rfl
  · rw [State.record]
    split_ifs
    · rw [List.map_append, List.map_singleton, List.nodup_append]
      refine ⟨answers.distinct, List.nodup_singleton _, ?_⟩
      intro other member last isLast
      obtain ⟨⟨_, earlier⟩, listed, rfl⟩ := List.mem_map.mp member
      obtain rfl := List.mem_singleton.mp isLast
      rintro rfl
      exact unlisted earlier listed
    · exact answers.distinct

theorem AnswersListed.of_run {db : Database} (reached : Machine.run step (.init db) schedule = some final) :
    AnswersListed final := by
  have start : AnswersListed (.init db) := by
    refine ⟨?_, List.nodup_nil⟩
    intro txn call
    apply iff_of_false (List.not_mem_nil)
    rintro ⟨rfl, answered⟩
    contradiction
  refine Machine.run_invariant start ?_ reached
  intro s a next answers steps
  cases stepped_of_step steps with
  | start idle => exact answers.record (by rw [idle]; exact Bool.false_ne_true)
  | advance moves => exact answers.record moves.not_answered
  | interrupt running => exact answers.record fun answered => Call.not_running_of_answered answered running
  | tick => exact ⟨answers.listed, answers.distinct⟩

end Meterly
