import Meterly.Auth.Grounded
import Meterly.Model.Application
import Meterly.Soundness.Calls

/-! # What the parts of the application see of a run

A run of the application is, for the guard of each task and for the services, a run of their own; the steps
of the others do not show there. A request that stands behind the guard got there with a principal that the
guard has answered, and a call of a service belongs to a request that was let through to it.
-/

namespace Meterly.Application

open Machine

variable {env : Environment} {source s next final : State} {a : Action} {schedule : List Action} {id task : ℕ}
  {passage : Passage} {apiKeys : List ApiKeyRecord} {db : Database}

namespace State

@[simp] theorem passages_move_self : (s.move id passage).passages id = some passage := Function.update_self ..

theorem passages_move_of_ne {other : ℕ} (different : other ≠ id) : (s.move id passage).passages other = s.passages other :=
  Function.update_of_ne different ..

/-- A place is the one a request was put in, or it is another request's and was there before. -/
theorem passages_move_cases {other : ℕ} {there : Passage} (place : (s.move id passage).passages other = some there) :
    other = id ∧ there = passage ∨ other ≠ id ∧ s.passages other = some there := by
  by_cases own : other = id
  · subst own
    rw [passages_move_self] at place
    exact .inl ⟨rfl, (Option.some.inj place).symm⟩
  · rw [passages_move_of_ne own] at place
    exact .inr ⟨own, place⟩

@[simp] theorem guards_move : (s.move id passage).guards = s.guards := rfl
@[simp] theorem services_move : (s.move id passage).services = s.services := rfl
@[simp] theorem redis_move : (s.move id passage).redis = s.redis := rfl
@[simp] theorem passages_setGuard {guard : RequireApiKey.State} : (s.setGuard task guard).passages = s.passages := rfl

@[simp] theorem guards_setGuard_self {guard : RequireApiKey.State} : (s.setGuard task guard).guards task = guard :=
  Function.update_self ..

theorem guards_setGuard_of_ne {other : ℕ} {guard : RequireApiKey.State} (different : other ≠ task) :
    (s.setGuard task guard).guards other = s.guards other := Function.update_of_ne different ..

end State

/-! ## Runs of the parts -/

/-- What the guard of a task sees of an action. -/
def guardActions (task : ℕ) (_ : State) (a : Action) (next : State) : List RequireApiKey.Action :=
  match a with
  | .authenticate id =>
    match next.passages id with
    | some ⟨other, arrival, .guarded⟩ => if other = task then [.start id arrival.authorization] else []
    | _ => []
  | .guard other own => if other = task then [own] else []
  | .commitKeys apiKeys => [.rewrite apiKeys]
  | _ => []

/-- What the services see of an action. -/
def serviceActions (_ : State) (a : Action) (next : State) : List Meterly.Action :=
  match a with
  | .serve id receivedAt =>
    match next.passages id with
    | some ⟨_, arrival, .served principal⟩ =>
      ((arrival.endpoint.request receivedAt).map (Meterly.Action.start ⟨principal.apiKeyId, id⟩)).toList
    | _ => []
  | .service own => [own]
  | _ => []

theorem length_guardActions_le (task : ℕ) (s : State) (a : Action) (next : State) :
    (guardActions task s a next).length ≤ 1 := by
  unfold guardActions
  split
  · split
    · split_ifs <;> simp
    · simp
  · split_ifs <;> simp
  · simp
  · simp

/-- Each action is a step of the guard of a task, or does not show there. -/
theorem Stepped.guard_run (steps : Stepped env s a next) (task : ℕ) :
    run (RequireApiKey.step env.crypto env.apiKeyCacheTtlSeconds) (s.guards task) (guardActions task s a next) =
      some (next.guards task) := by
  cases steps with
  | @authenticates id mover arrival guard waits guarded moves =>
    simp only [guardActions, State.passages_move_self]
    by_cases own : mover = task
    · subst own
      rw [if_pos rfl, run_singleton, State.guards_move, State.guards_setGuard_self]
      exact moves
    · rw [if_neg own, run_nil, State.guards_move, State.guards_setGuard_of_ne (Ne.symm own)]
  | @guard mover a guard own moves =>
    simp only [guardActions]
    by_cases own : mover = task
    · subst own
      rw [if_pos rfl, run_singleton, State.guards_setGuard_self]
      exact moves
    · rw [if_neg own, run_nil, State.guards_setGuard_of_ne (Ne.symm own)]
  | unguarded | malformed => simp only [guardActions, State.passages_move_self, run_nil, State.guards_move]
  | commitsKeys => exact run_singleton _
  | arrives | throttles | throttleFails | proceeds | enforces | enforceFails | refuses | serves | service | abandons
    | expires => rfl

/-- Each action is a step of the services, or does not show there. -/
theorem Stepped.services_run (steps : Stepped env s a next) :
    run Meterly.step s.services (serviceActions s a next) = some next.services := by
  cases steps with
  | serves waits allowed asked moves =>
    simp only [serviceActions, State.passages_move_self, asked, Option.map_some, Option.toList_some]
    exact (run_singleton _).trans moves
  | refuses => simp only [serviceActions, State.passages_move_self, run_nil, State.services_move]
  | service ongoing moves => exact (run_singleton _).trans moves
  | arrives | throttles | throttleFails | unguarded | malformed | authenticates | guard | proceeds | enforces
    | enforceFails | abandons | expires | commitsKeys => rfl

theorem guard_run (task : ℕ) (reached : run (step env) source schedule = some final) :
    run (RequireApiKey.step env.crypto env.apiKeyCacheTtlSeconds) (source.guards task)
      (observed (step env) (guardActions task) source schedule) = some (final.guards task) :=
  run_observed (fun s => s.guards task) (guardActions task)
    (fun _ _ _ steps => (stepped_of_step steps).guard_run task) reached

theorem services_run (reached : run (step env) source schedule = some final) :
    run Meterly.step source.services (observed (step env) serviceActions source schedule) = some final.services :=
  run_observed State.services serviceActions (fun _ _ _ steps => (stepped_of_step steps).services_run) reached

/-! ## How requests got where they stand -/

/-- The principal of a request behind the guard, until it is refused or abandoned. -/
def Place.principal : Place → Option AuthenticatedPrincipal
  | limited principal _ | admitted principal | served principal => some principal
  | _ => none

/-- An action of a running call, or of the clock, opens no call. -/
theorem request_of_ongoing {s next : Meterly.State} {a : Meterly.Action} (steps : Meterly.Stepped s a next)
    (ongoing : isOngoing a) (txn : CallId) : (next.calls txn).request = (s.calls txn).request := by
  cases steps with
  | start => contradiction
  | @advance mover call db moves =>
    by_cases own : txn = mover
    · subst own
      rw [Meterly.State.calls_record_self, moves.request.1]
    · rw [Meterly.State.calls_record_of_ne own]
  | @interrupt mover running =>
    by_cases own : txn = mover
    · subst own
      rw [Meterly.State.calls_record_self, Call.request_interrupt]
    · rw [Meterly.State.calls_record_of_ne own]
  | tick => rfl

/-- What the requests, the guards and the services hold of one another. -/
structure Vouched (s : State) : Prop where
  guarded : ∀ task id call, (s.guards task).calls id = some call →
    ∃ passage, s.passages id = some passage ∧ (passage.task = task → call.header = passage.arrival.authorization)
  answered : ∀ id passage principal, s.passages id = some passage → passage.place.principal = some principal →
    ∃ call answeredAt, (s.guards passage.task).calls id = some call ∧ call.phase = .answered (.ok principal) answeredAt
  served : ∀ txn request, (s.services.calls txn).request = some request → ∃ passage principal receivedAt,
    s.passages txn.number = some passage ∧ passage.place = .served principal ∧ principal.apiKeyId = txn.apiKeyId ∧
      (passage.arrival.endpoint.adminOnly → principal.scope = .admin) ∧
      passage.arrival.endpoint.request receivedAt = some request

namespace Vouched

theorem init (apiKeys : List ApiKeyRecord) (db : Database) : Vouched (.init apiKeys db) where
  guarded _ _ _ place := by contradiction
  answered _ _ _ place := by contradiction
  served _ _ serves := by contradiction

/-- A request may move to any place behind the guard that its principal has reached already. -/
theorem move (vouched : Vouched s) {place : Place} (there : s.passages id = some passage)
    (unserved : ∀ principal, passage.place ≠ .served principal)
    (behind : ∀ principal, place.principal = some principal → ∃ call answeredAt,
      (s.guards passage.task).calls id = some call ∧ call.phase = .answered (.ok principal) answeredAt) :
    Vouched (s.move id ⟨passage.task, passage.arrival, place⟩) where
  guarded task other call started := by
    obtain ⟨before, found, header⟩ := vouched.guarded task other call started
    by_cases own : other = id
    · subst own
      obtain rfl := Option.some.inj (found.symm.trans there)
      exact ⟨_, State.passages_move_self, header⟩
    · exact ⟨before, (State.passages_move_of_ne own).trans found, header⟩
  answered other now principal found stands := by
    rcases State.passages_move_cases found with ⟨rfl, rfl⟩ | ⟨-, found⟩
    · exact behind principal stands
    · exact vouched.answered other now principal found stands
  served txn request serves := by
    obtain ⟨before, principal, receivedAt, found, place, rest⟩ := vouched.served txn request serves
    have different : txn.number ≠ id := by
      rintro rfl
      obtain rfl := Option.some.inj (found.symm.trans there)
      exact unserved principal place
    exact ⟨before, principal, receivedAt, (State.passages_move_of_ne different).trans found, place, rest⟩

/-- A guard may move on as long as it knows its calls. -/
theorem setGuard (vouched : Vouched s) {guard : RequireApiKey.State} {own : RequireApiKey.Action}
    (steps : RequireApiKey.Stepped env.crypto env.apiKeyCacheTtlSeconds (s.guards task) own guard)
    (known : ∀ id header, own = .start id header →
      ∃ passage, s.passages id = some passage ∧ passage.arrival.authorization = header) :
    Vouched (s.setGuard task guard) where
  guarded other id call started := by
    by_cases same : other = task
    · subst same
      rw [State.guards_setGuard_self] at started
      rcases steps.header_cases started with ⟨-, opened⟩ | ⟨before, there, header⟩
      · obtain ⟨passage, there, header⟩ := known id call.header opened
        exact ⟨passage, there, fun _ => header.symm⟩
      · rw [← header]
        exact vouched.guarded other id before there
    · rw [State.guards_setGuard_of_ne same] at started
      exact vouched.guarded other id call started
  answered id passage principal found stands := by
    obtain ⟨call, answeredAt, there, phase⟩ := vouched.answered id passage principal found stands
    by_cases same : passage.task = task
    · subst same
      rw [State.guards_setGuard_self]
      exact ⟨call, answeredAt, steps.calls_of_answered there (by rw [phase]; rfl), phase⟩
    · rw [State.guards_setGuard_of_ne same]
      exact ⟨call, answeredAt, there, phase⟩
  served := vouched.served

/-- What Redis holds does not matter. -/
theorem withRedis (vouched : Vouched s) (redis : String → Option Bucket) : Vouched { s with redis } :=
  ⟨vouched.guarded, vouched.answered, vouched.served⟩

/-- A request that has passed the guard may be let through to its service. -/
theorem serve (vouched : Vouched s) {arrival : Arrival} {principal : AuthenticatedPrincipal} {receivedAt : Instant}
    {request : Request} {services : Meterly.State} (waits : s.passages id = some ⟨task, arrival, .admitted principal⟩)
    (allowed : arrival.endpoint.adminOnly → principal.scope = .admin)
    (asked : arrival.endpoint.request receivedAt = some request)
    (moves : Meterly.step s.services (.start ⟨principal.apiKeyId, id⟩ request) = some services) :
    Vouched ({ s with services }.move id ⟨task, arrival, .served principal⟩) := by
  have moved : Vouched (s.move id ⟨task, arrival, .served principal⟩) :=
    vouched.move waits (fun _ => by simp) fun other stands => vouched.answered id _ other waits stands
  refine ⟨moved.guarded, moved.answered, ?_⟩
  intro txn other serves
  cases Meterly.stepped_of_step moves with
  | start idle =>
    by_cases own : txn = ⟨principal.apiKeyId, id⟩
    · subst own
      rw [State.services_move, Meterly.State.calls_record_self, Request.request_call] at serves
      obtain rfl := Option.some.inj serves
      exact ⟨_, principal, receivedAt, State.passages_move_self, rfl, rfl, allowed, asked⟩
    · rw [State.services_move, Meterly.State.calls_record_of_ne own] at serves
      exact moved.served txn other serves

theorem stepped (vouched : Vouched s) (steps : Stepped env s a next) : Vouched next := by
  cases steps with
  | @arrives id task arrival nowMs fresh =>
    have unguarded : ∀ principal, (enter nowMs arrival).principal ≠ some principal := by
      intro principal
      unfold enter
      split_ifs <;> simp [Place.principal]
    refine ⟨?_, ?_, ?_⟩
    · intro other number call started
      obtain ⟨passage, there, header⟩ := vouched.guarded other number call started
      have different : number ≠ id := by
        rintro rfl
        rw [fresh] at there
        contradiction
      exact ⟨passage, (State.passages_move_of_ne different).trans there, header⟩
    · intro number passage principal there stands
      rcases State.passages_move_cases there with ⟨rfl, rfl⟩ | ⟨-, there⟩
      · exact absurd stands (unguarded principal)
      · exact vouched.answered number passage principal there stands
    · intro txn request serves
      obtain ⟨passage, principal, receivedAt, there, rest⟩ := vouched.served txn request serves
      have different : txn.number ≠ id := by
        intro same
        rw [same, fresh] at there
        contradiction
      exact ⟨passage, principal, receivedAt, (State.passages_move_of_ne different).trans there, rest⟩
  | @throttles id task arrival nowMs burst rate waits =>
    have charged : Vouched (s.charge arrival.tier1Key burst rate nowMs) := vouched.withRedis _
    refine charged.move waits (fun _ => by simp) fun principal stands => ?_
    unfold throttle at stands
    split_ifs at stands <;> contradiction
  | throttleFails waits | unguarded waits | malformed waits =>
    exact vouched.move waits (fun _ => by simp) fun principal stands => by contradiction
  | @abandons id task arrival place waits waiting =>
    refine vouched.move waits (fun principal same => ?_) fun principal stands => by contradiction
    rw [show place = .served principal from same] at waiting
    contradiction
  | @authenticates id task arrival guard waits guarded moves =>
    have started : Vouched (s.setGuard task guard) := by
      refine vouched.setGuard (RequireApiKey.stepped_of_step moves) ?_
      rintro _ _ ⟨⟩
      exact ⟨_, waits, rfl⟩
    exact started.move waits (fun _ => by simp) fun _ stands => by contradiction
  | @guard task a guard own moves =>
    refine vouched.setGuard (RequireApiKey.stepped_of_step moves) ?_
    rintro _ _ rfl
    contradiction
  | @proceeds id task arrival nowMs call place waits called goes =>
    refine vouched.move waits (fun _ => by simp) fun principal stands => ⟨call, ?_⟩
    unfold proceed at goes
    split at goes
    · next phase =>
      obtain rfl := Option.some.inj goes
      obtain rfl := Option.some.inj stands
      exact ⟨_, called, phase⟩
    · obtain rfl := Option.some.inj goes
      contradiction
    · contradiction
  | @enforces id task arrival principal nowMs rate waits =>
    have charged : Vouched (s.charge (tier2Key principal.apiKeyId) rate rate nowMs) := vouched.withRedis _
    refine charged.move waits (fun _ => by simp) fun other stands => ?_
    unfold enforce at stands
    split at stands
    · exact vouched.answered id _ other waits stands
    · contradiction
  | enforceFails waits => exact vouched.move waits (fun _ => by simp) fun other stands => vouched.answered _ _ other waits stands
  | refuses statusCode waits => exact vouched.move waits (fun _ => by simp) fun _ stands => by contradiction
  | serves waits allowed asked moves => exact vouched.serve waits allowed asked moves
  | @service a services ongoing moves =>
    refine ⟨vouched.guarded, vouched.answered, fun txn request serves => vouched.served txn request ?_⟩
    rwa [request_of_ongoing (Meterly.stepped_of_step moves) ongoing] at serves
  | expires => exact vouched.withRedis _
  | commitsKeys => exact ⟨vouched.guarded, vouched.answered, vouched.served⟩

theorem of_run (reached : run (step env) (.init apiKeys db) schedule = some final) : Vouched final :=
  run_invariant (.init apiKeys db) (fun _ _ _ vouched steps => vouched.stepped (stepped_of_step steps)) reached

end Vouched

/-- A request came in with what it is known by. -/
theorem arrived_run (reached : run (step env) (.init apiKeys db) schedule = some final) :
    ∀ id passage, final.passages id = some passage →
      ∃ nowMs, Action.arrive id passage.task passage.arrival nowMs ∈ schedule := by
  refine run_induction (motive := fun schedule s => ∀ id passage, s.passages id = some passage →
    ∃ nowMs, Action.arrive id passage.task passage.arrival nowMs ∈ schedule) _ (fun _ _ _ => by contradiction) ?_ reached
  rintro schedule s a next - ih steps id passage there
  have earlier : ∀ {before : Passage}, s.passages id = some before → before.task = passage.task →
      before.arrival = passage.arrival → ∃ nowMs, Action.arrive id passage.task passage.arrival nowMs ∈ schedule ++ [a] := by
    intro before found task arrival
    obtain ⟨nowMs, member⟩ := ih id before found
    exact ⟨nowMs, List.mem_append_left _ (task ▸ arrival ▸ member)⟩
  cases stepped_of_step steps with
  | @arrives _ _ _ nowMs fresh =>
    rcases State.passages_move_cases there with ⟨rfl, rfl⟩ | ⟨-, found⟩
    · exact ⟨nowMs, by simp⟩
    · exact earlier found rfl rfl
  | throttles waits | throttleFails waits | unguarded waits | malformed waits | authenticates waits | proceeds waits
    | enforces waits | enforceFails waits | refuses _ waits | serves waits | abandons waits =>
    rcases State.passages_move_cases there with ⟨rfl, rfl⟩ | ⟨-, found⟩
    · exact earlier waits rfl rfl
    · exact earlier found rfl rfl
  | guard | service | expires | commitsKeys => exact earlier there rfl rfl

/-- The rows of `api_keys` are the same for all tasks. -/
theorem apiKeys_run (reached : run (step env) (.init apiKeys db) schedule = some final) (task other : ℕ) :
    (final.guards task).apiKeys = (final.guards other).apiKeys := by
  refine run_invariant (motive := fun s => ∀ task other, (s.guards task).apiKeys = (s.guards other).apiKeys)
    (fun _ _ => rfl) ?_ reached task other
  intro s a next same steps task other
  have keeps : ∀ {mover : ℕ} {own : RequireApiKey.Action} {guard : RequireApiKey.State},
      RequireApiKey.step env.crypto env.apiKeyCacheTtlSeconds (s.guards mover) own = some guard →
      own.changesRows = false → ∀ task, ((s.setGuard mover guard).guards task).apiKeys = (s.guards task).apiKeys := by
    intro mover own guard moves quiet task
    by_cases mine : task = mover
    · subst mine
      rw [State.guards_setGuard_self]
      exact (RequireApiKey.stepped_of_step moves).apiKeys quiet
    · rw [State.guards_setGuard_of_ne mine]
  cases stepped_of_step steps with
  | authenticates waits guarded moves =>
    rw [State.guards_move, keeps moves rfl, keeps moves rfl, same task other]
  | guard own moves =>
    rw [keeps moves (by revert own; cases ‹RequireApiKey.Action› <;> simp [isOwn, RequireApiKey.Action.changesRows]),
      keeps moves (by revert own; cases ‹RequireApiKey.Action› <;> simp [isOwn, RequireApiKey.Action.changesRows]),
      same task other]
  | commitsKeys => rfl
  | arrives | throttles | throttleFails | unguarded | malformed | proceeds | enforces | enforceFails | refuses | serves
    | service | abandons | expires => exact same task other

/-! ## Who a request speaks for -/

/-- At some moment of a run, the rows held an active key that a presented one was verified against. -/
def VerifiedIn (env : Environment) (source : State) (schedule : List Action) (presentedKey : String)
    (principal : AuthenticatedPrincipal) : Prop :=
  ∃ earlier later reading, schedule = earlier ++ later ∧ run (step env) source earlier = some reading ∧
    verifyApiKey env.crypto reading.apiKeys presentedKey = some principal

/-- The keys that the requests of a schedule present. -/
def presentedKeys (schedule : List Action) : Set String :=
  {presentedKey | ∃ id task arrival nowMs, .arrive id task arrival nowMs ∈ schedule ∧
    extractBearerToken arrival.authorization = some presentedKey}

/-- A call of a guard presents what a request came in with. -/
theorem presentedKeys_guard (reached : run (step env) (.init apiKeys db) schedule = some final) (task : ℕ) :
    {key | key ∈ RequireApiKey.presentedKeys (observed (step env) (guardActions task) (.init apiKeys db) schedule)} ⊆
      presentedKeys schedule := by
  intro presentedKey member
  obtain ⟨own, shown, token⟩ := List.mem_filterMap.mp member
  obtain ⟨earlier, a, later, middle, next, rfl, before, moves, seen⟩ := (mem_observed_iff reached).mp shown
  split at token
  · next id header =>
    have after := run_snoc before moves
    unfold guardActions at seen
    split at seen
    · split at seen
      · next other arrival there =>
        split_ifs at seen with own
        · obtain ⟨rfl, rfl⟩ := RequireApiKey.Action.start.inj (List.mem_singleton.mp seen)
          obtain ⟨nowMs, came⟩ := arrived_run after _ _ there
          exact ⟨_, _, arrival, nowMs, by
            rw [List.append_cons]
            exact List.mem_append_left _ came, token⟩
        · contradiction
      · contradiction
    · cases stepped_of_step moves with
      | guard own =>
        split_ifs at seen
        · obtain rfl := List.mem_singleton.mp seen
          contradiction
        · contradiction
    · obtain ⟨⟩ := List.mem_singleton.mp seen
    · contradiction
  · contradiction

/-- The principal of a request is what a key that it presented was verified as. -/
theorem verified_of_principal (reached : run (step env) (.init apiKeys db) schedule = some final)
    (injective : Set.InjOn env.crypto.sha256Digest (presentedKeys schedule)) {principal : AuthenticatedPrincipal}
    (there : final.passages id = some passage) (stands : passage.place.principal = some principal) :
    ∃ presentedKey, extractBearerToken passage.arrival.authorization = some presentedKey ∧
      VerifiedIn env (.init apiKeys db) schedule presentedKey principal := by
  have vouched := Vouched.of_run reached
  obtain ⟨call, answeredAt, called, phase⟩ := vouched.answered id passage principal there stands
  obtain ⟨same, found, header⟩ := vouched.guarded passage.task id call called
  obtain rfl := Option.some.inj (found.symm.trans there)
  have grounded := (RequireApiKey.grounded_run (injective.mono (presentedKeys_guard reached same.task))
    (guard_run same.task reached)).calls id call called
  unfold RequireApiKey.Call.Grounded at grounded
  rw [phase] at grounded
  obtain ⟨presentedKey, stamp, token, ⟨other, before, between, behind, reading, -, -, split, read, accepted, -⟩, -⟩ :=
    grounded
  rw [header rfl] at token
  rw [List.append_assoc] at split
  obtain ⟨earlier, later, middle, rfl, through, shown⟩ :=
    exists_prefix_of_observed (length_guardActions_le same.task) reached split
  have rows : (middle.guards same.task).apiKeys = reading.apiKeys := by
    have seen := guard_run same.task through
    rw [shown] at seen
    exact congrArg RequireApiKey.State.apiKeys (Option.some.inj (seen.symm.trans read))
  refine ⟨presentedKey, token, earlier, later, middle, rfl, through, ?_⟩
  rw [State.apiKeys, apiKeys_run through 0 same.task, rows]
  exact accepted

end Meterly.Application
