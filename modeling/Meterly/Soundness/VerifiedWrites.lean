import Meterly.Soundness.ApplicationRuns
import Meterly.Soundness.QuotaMap
import Meterly.Soundness.UsageLog

/-! # Every write goes back to a verified key

What a run of the application adds to the log was asked for by a request that presented a key of the tenant
it is recorded for, and a quota changes only on the request of an admin key of its tenant. In between lie
two tiers, a guard with a cache, and any number of other requests.
-/

namespace Meterly

open Machine

/-- A published event was there from the start, or some call has been answered 201 for it. -/
theorem created_of_published {db : Database} {schedule : List Action} {final : State} {key : EventKey} {row : EventRow}
    (consistent : Consistent (.init db)) (reached : run step (.init db) schedule = some final)
    (found : final.db.events.find key = some row) : db.events.find key = some row ∨
      ∃ txn payload receivedAt, payload.eventKey txn.apiKeyId = key ∧ row = payload.row receivedAt row.eventTime row.id ∧
        final.calls txn = .createEvent payload receivedAt (.answered (.ok ⟨row.record key, 201, false⟩)) := by
  refine run_induction (motive := fun _ s => ∀ row, s.db.events.find key = some row → db.events.find key = some row ∨
    ∃ txn payload receivedAt, payload.eventKey txn.apiKeyId = key ∧ row = payload.row receivedAt row.eventTime row.id ∧
      s.calls txn = .createEvent payload receivedAt (.answered (.ok ⟨row.record key, 201, false⟩)))
    _ (fun row found => .inl found) ?_ reached row found
  intro earlier s a next before ih steps row found
  have steps := stepped_of_step steps
  obtain published | ⟨txn, payload, receivedAt, quotaState, rollup, place, own, rfl⟩ :=
    (consistent.of_run before).event_find_cases steps found
  · obtain start | ⟨txn, payload, receivedAt, own, asked, answer⟩ := ih row published
    · exact .inl start
    · have answered : (s.calls txn).isAnswered := by
        rw [answer]
        rfl
      exact .inr ⟨txn, payload, receivedAt, own, asked, (steps.calls_of_answered answered).trans answer⟩
  · have asked := RowsFaithful.of_run before txn payload receivedAt _ row place rfl
    exact .inr ⟨txn, payload, receivedAt, own, asked, State.calls_record_self⟩

/-- The endpoint that asks for a request. -/
def Request.endpoint : Request → Endpoint
  | createEvent payload _ => .postEvent (.valid payload)
  | upsertQuota payload => .putQuota (.valid payload)
  | deleteQuota params => .deleteQuota (some params)
  | listQuotas => .listQuotas
  | getUsage query => .getUsage (some query)
  | getDailyUsage date _ => .getUsageDaily (some date)
  | exportUsage params => .getUsageExport (some params)

theorem Endpoint.eq_of_request {endpoint : Endpoint} {receivedAt : Instant} {request : Request}
    (asked : endpoint.request receivedAt = some request) : endpoint = request.endpoint := by
  cases endpoint with
  | postEvent body | putQuota body =>
    cases body with
    | valid payload =>
      obtain rfl := Option.some.inj asked
      rfl
    | notJson | invalid => contradiction
  | listQuotas =>
    obtain rfl := Option.some.inj asked
    rfl
  | deleteQuota params | getUsage params | getUsageDaily params | getUsageExport params =>
    cases params with
    | some params =>
      obtain rfl := Option.some.inj asked
      rfl
    | none => contradiction
  | unguarded => contradiction

/-- A call asks for a change of a quota: its limit is stored, or it is removed. -/
def Request.asksFor (apiKeyId : ℕ) (key : QuotaKey) (limit : Option LimitPerWindow) : Request → Prop
  | upsertQuota payload => payload.quotaKey apiKeyId = key ∧ limit = some payload.limitPerWindow
  | deleteQuota params => params.quotaKey apiKeyId = key ∧ limit = none
  | _ => False

/-- A published limit changes only in a step of a call that asks for the change. -/
theorem Stepped.limit_cases {s next : State} {a : Action} {key : QuotaKey} (steps : Stepped s a next)
    (consistent : Consistent s) (faithful : UpsertsFaithful s) (changes : next.db.limit key ≠ s.db.limit key) :
    ∃ txn request, a = .advance txn ∧ (next.calls txn).request = some request ∧
      request.asksFor txn.apiKeyId key (next.db.limit key) := by
  cases steps with
  | start | interrupt | tick => exact absurd rfl changes
  | @advance txn call db moves =>
    have fits := moves.quota_fits consistent faithful key
    cases event : quotaEvent key (txn, call) with
    | none =>
      rw [event] at fits
      exact absurd (Option.some.inj fits).symm changes
    | some change =>
      rw [event] at fits
      unfold quotaEvent at event
      split at event
      · next payload outcome answer =>
        obtain ⟨rfl, rfl⟩ := Prod.mk.inj answer
        have own : payload.quotaKey txn.apiKeyId = key := by
          by_contra other
          rw [if_neg other] at event
          contradiction
        have unanswered : s.calls txn ≠ .upsertQuota payload (.answered (.ok outcome)) :=
          fun same => moves.not_answered (by rw [same]; rfl)
        obtain ⟨-, -, stored⟩ := Stepped.upsert_answer consistent faithful (.advance moves) unanswered
          State.calls_record_self
        exact ⟨txn, .upsertQuota payload, rfl, by rw [State.calls_record_self]; rfl, own, own ▸ stored⟩
      · next params answer =>
        obtain ⟨rfl, rfl⟩ := Prod.mk.inj answer
        split_ifs at event with own
        obtain rfl := Option.some.inj event
        refine ⟨txn, .deleteQuota params, rfl, by rw [State.calls_record_self]; rfl, own, ?_⟩
        obtain ⟨content, applies, same⟩ := Option.bind_eq_some_iff.mp fits
        change db.limit key = none
        rw [← Option.some.inj same]
        cases held : s.db.limit key with
        | none =>
          rw [held] at applies
          contradiction
        | some limit =>
          rw [held] at applies
          exact (Option.some.inj applies).symm
      · contradiction

namespace Application

variable {env : Environment} {apiKeys : List ApiKeyRecord} {collation : Collation} {now : Instant} {nextEventId : ℕ}
  {tables : Tables} {schedule : List Action} {s next final : State} {a : Action}

/-- A request was served, and speaks for the tenant whose key it presented. -/
structure ServedFor (env : Environment) (source : State) (schedule : List Action) (s : State) (id : ℕ)
    (passage : Passage) (principal : AuthenticatedPrincipal) : Prop where
  there : s.passages id = some passage
  place : passage.place = .served principal
  verified : ∃ presentedKey, extractBearerToken passage.arrival.authorization = some presentedKey ∧
    VerifiedIn env source schedule presentedKey principal

/-- A request that is running or answered was let through to its service. -/
theorem served_of_request {db : Database} (reached : run (step env) (.init apiKeys db) schedule = some final)
    (injective : Set.InjOn env.crypto.sha256Digest (presentedKeys schedule)) {txn : CallId} {request : Request}
    (serves : (final.services.calls txn).request = some request) :
    ∃ passage principal receivedAt, ServedFor env (.init apiKeys db) schedule final txn.number passage principal ∧
      principal.apiKeyId = txn.apiKeyId ∧ (passage.arrival.endpoint.adminOnly → principal.scope = .admin) ∧
      passage.arrival.endpoint.request receivedAt = some request := by
  obtain ⟨passage, principal, receivedAt, there, place, rest⟩ := (Vouched.of_run reached).served txn request serves
  have verified := verified_of_principal reached injective there (by rw [place]; rfl)
  exact ⟨passage, principal, receivedAt, ⟨there, place, verified⟩, rest⟩

/-- Every event that a run adds was asked for by a request that presented a key of its tenant: the key was
active and fitted its hash at some moment before, and the request was answered 201. -/
theorem event_asked_for_with_verified_key
    (reached : run (step env) (.init apiKeys (.atRest collation now nextEventId tables)) schedule = some final)
    (injective : Set.InjOn env.crypto.sha256Digest (presentedKeys schedule)) {key : EventKey} {row : EventRow}
    (found : final.services.db.events.find key = some row) (added : tables.events.lookup key = none) :
    ∃ id passage principal payload receivedAt,
      ServedFor env (.init apiKeys (.atRest collation now nextEventId tables)) schedule final id passage principal ∧
      passage.arrival.endpoint = .postEvent (.valid payload) ∧ key = payload.eventKey principal.apiKeyId ∧
      row = payload.row receivedAt row.eventTime row.id ∧
      final.services.calls ⟨principal.apiKeyId, id⟩ =
        .createEvent payload receivedAt (.answered (.ok ⟨row.record key, 201, false⟩)) := by
  rcases created_of_published (.init ..) (services_run reached) found with start | ⟨txn, payload, receivedAt, own, asked,
    answer⟩
  · rw [show tables.events.lookup key = some row from start] at added
    contradiction
  · have serves : (final.services.calls txn).request = some (.createEvent payload receivedAt) := by
      rw [answer]
      rfl
    obtain ⟨passage, principal, _, served, tenant, -, request⟩ := served_of_request reached injective serves
    obtain ⟨apiKeyId, number⟩ := txn
    obtain rfl : principal.apiKeyId = apiKeyId := tenant
    exact ⟨number, passage, principal, payload, receivedAt, served, Endpoint.eq_of_request request, own.symm, asked,
      answer⟩

/-- One event of a tenant, recorded behind both tiers and the guard. -/
theorem event_asked_for_with_verified_key_one_event :
    let env : Environment := ⟨⟨fun key => key, fun secret hash => secret = hash⟩, 300, 400, 200, 0⟩
    let arrival : Arrival := ⟨some "10.0.0.1", "/v1/events", some "Bearer mtr_live_k_s", false,
      .postEvent (.valid ⟨"c", "m", ⟨1000000, by decide, by decide⟩, "i"⟩), fun exempt => absurd exempt (by decide)⟩
    let source : State := .init [⟨7, "k", "s", 100, none, .ingest⟩] (.atRest .codePoint 0 1 ⟨∅, ∅, ∅⟩)
    let schedule : List Action := [.arrive 0 0 arrival 0, .throttle 0, .authenticate 0, .guard 0 (.select 0),
      .guard 0 (.verify 0), .proceed 0 0, .enforce 0, .serve 0 0] ++ List.replicate 6 (.service (.advance ⟨7, 0⟩))
    ∃ final row id passage principal, ∃ payload : EventCreateRequest, ∃ receivedAt,
      run (step env) source schedule = some final ∧ final.services.db.events.find ⟨7, "i"⟩ = some row ∧
      ServedFor env source schedule final id passage principal ∧ row = payload.row receivedAt row.eventTime row.id := by
  intro env arrival source schedule
  have runs : (run (step env) source schedule).map (fun final => (final.services.db.events.find ⟨7, "i"⟩).isSome) =
      some true := by decide +kernel
  obtain ⟨final, reached, present⟩ := Option.map_eq_some_iff.mp runs
  obtain ⟨row, found⟩ := Option.isSome_iff_exists.mp present
  obtain ⟨id, passage, principal, payload, receivedAt, served, -, -, asked, -⟩ :=
    event_asked_for_with_verified_key reached (Function.injective_id.injOn) found rfl
  exact ⟨final, row, id, passage, principal, payload, receivedAt, reached, found, served, asked⟩

/-- A quota changes only in a step that serves the request of a verified admin key of its tenant, and as this request
says: a `PUT` that asks for the limit, or a `DELETE`. -/
theorem quota_changed_by_verified_admin
    (reached : run (step env) (.init apiKeys (.atRest collation now nextEventId tables)) schedule = some s)
    (injective : Set.InjOn env.crypto.sha256Digest (presentedKeys schedule)) (steps : step env s a = some next)
    {key : QuotaKey} (changes : next.services.db.limit key ≠ s.services.db.limit key) :
    ∃ id passage principal, a = .service (.advance ⟨principal.apiKeyId, id⟩) ∧
      ServedFor env (.init apiKeys (.atRest collation now nextEventId tables)) schedule s id passage principal ∧
      principal.scope = .admin ∧ principal.apiKeyId = key.apiKeyId ∧
      ((∃ payload, passage.arrival.endpoint = .putQuota (.valid payload) ∧
          payload.quotaKey principal.apiKeyId = key ∧ next.services.db.limit key = some payload.limitPerWindow) ∨
        ∃ params, passage.arrival.endpoint = .deleteQuota (some params) ∧ params.quotaKey principal.apiKeyId = key ∧
          next.services.db.limit key = none) := by
  have ran := services_run reached
  have consistent := (Consistent.init ..).of_run ran
  have upserts : UpsertsFaithful s.services :=
    (run_invariant (motive := fun s => Consistent s ∧ UpsertsFaithful s)
      ⟨.init .., fun _ _ _ _ place => by contradiction⟩ (fun _ _ _ both steps =>
        ⟨both.1.stepped (Meterly.stepped_of_step steps), both.2.stepped both.1 (Meterly.stepped_of_step steps)⟩) ran).2
  cases stepped_of_step steps with
  | serves waits allowed asked moves =>
    cases Meterly.stepped_of_step moves with
    | start idle => exact absurd rfl changes
  | @service own services ongoing moves =>
    obtain ⟨⟨apiKeyId, number⟩, request, rfl, serves, asks⟩ :=
      (Meterly.stepped_of_step moves).limit_cases consistent upserts changes
    rw [request_of_ongoing (Meterly.stepped_of_step moves) ongoing] at serves
    obtain ⟨passage, principal, receivedAt, served, tenant, admin, asked⟩ := served_of_request reached injective serves
    obtain rfl : principal.apiKeyId = apiKeyId := tenant
    have endpoint := Endpoint.eq_of_request asked
    rw [endpoint] at admin
    cases request with
    | upsertQuota payload =>
      obtain ⟨rfl, stored⟩ := asks
      exact ⟨number, passage, principal, rfl, served, admin rfl, rfl, .inl ⟨payload, endpoint, rfl, stored⟩⟩
    | deleteQuota params =>
      obtain ⟨rfl, removed⟩ := asks
      exact ⟨number, passage, principal, rfl, served, admin rfl, rfl, .inr ⟨params, endpoint, rfl, removed⟩⟩
    | createEvent | listQuotas | getUsage | getDailyUsage | exportUsage => contradiction
  | arrives | throttles | throttleFails | unguarded | malformed | authenticates | guard | proceeds | enforces
    | enforceFails | refuses | abandons | expires | commitsKeys => exact absurd rfl changes

/-- An admin key stores a quota: the last step of its request publishes it. -/
theorem quota_changed_by_verified_admin_put :
    let env : Environment := ⟨⟨fun key => key, fun secret hash => secret = hash⟩, 300, 400, 200, 0⟩
    let arrival : Arrival := ⟨none, "/v1/quotas", some "Bearer mtr_live_k_s", false,
      .putQuota (.valid ⟨"c", "m", ⟨5, by decide, by decide⟩⟩), fun exempt => absurd exempt (by decide)⟩
    let source : State := .init [⟨7, "k", "s", 100, none, .admin⟩] (.atRest .codePoint 0 1 ⟨∅, ∅, ∅⟩)
    let schedule : List Action := [.arrive 0 0 arrival 0, .throttle 0, .authenticate 0, .guard 0 (.select 0),
      .guard 0 (.verify 0), .proceed 0 0, .enforce 0, .serve 0 0] ++ List.replicate 2 (.service (.advance ⟨7, 0⟩))
    ∃ s next passage principal, run (step env) source schedule = some s ∧
      step env s (.service (.advance ⟨7, 0⟩)) = some next ∧ next.services.db.limit ⟨7, "c", "m"⟩ ≠ none ∧
      ServedFor env source schedule s 0 passage principal ∧ principal.apiKeyId = 7 ∧ principal.scope = .admin := by
  intro env arrival source schedule
  have runs : ((run (step env) source schedule).bind fun s => (step env s (.service (.advance ⟨7, 0⟩))).map fun next =>
      (s.services.db.limit ⟨7, "c", "m"⟩, (next.services.db.limit ⟨7, "c", "m"⟩).isSome)) = some (none, true) := by
    decide +kernel
  obtain ⟨s, reached, rest⟩ := Option.bind_eq_some_iff.mp runs
  obtain ⟨next, steps, limits⟩ := Option.map_eq_some_iff.mp rest
  obtain ⟨before, after⟩ := Prod.mk.inj limits
  have stored : next.services.db.limit ⟨7, "c", "m"⟩ ≠ none := Option.isSome_iff_ne_none.mp after
  obtain ⟨id, passage, principal, own, served, admin, tenant, -⟩ :=
    quota_changed_by_verified_admin reached (Function.injective_id.injOn) steps (before ▸ stored)
  obtain ⟨-, rfl⟩ : 7 = principal.apiKeyId ∧ 0 = id := by simpa using own
  exact ⟨s, next, passage, principal, reached, steps, stored, served, tenant, admin⟩

end Application

end Meterly
