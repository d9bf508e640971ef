import Meterly.Auth.Metered
import Meterly.Soundness.ApplicationRuns

/-! # How many requests the two tiers let through

Tier 2 keeps a bucket for every principal and Tier 1 one for every host and path, all of them in one Redis
under names that do not collide. Requests of any number of tasks pass a tier in any order, with stamps from
any clocks: however they interleave, no more calls of a tenant reach a service, and no more requests from
one host for one path reach a guard, than the bucket concerned has paid for.
-/

namespace Meterly

/-- Tier 1 and Tier 2 use different buckets. -/
theorem tier1Key_ne_tier2Key (arrival : Arrival) (apiKeyId : ℕ) : arrival.tier1Key ≠ tier2Key apiKeyId := by
  intro same
  have letters := congrArg (fun key => (String.toList key)[14]?) same
  simp [Arrival.tier1Key, tier2Key] at letters

/-- Principals have buckets of their own. -/
theorem tier2Key_injective : Function.Injective tier2Key := by
  intro apiKeyId other same
  have letters := congrArg String.toList same
  rw [tier2Key, tier2Key, String.toList_append, String.toList_append, List.append_cancel_left_eq] at letters
  have digits : Nat.toDigits 10 apiKeyId = Nat.toDigits 10 other :=
    Nat.toList_repr.symm.trans (letters.trans Nat.toList_repr)
  rw [← Nat.ofDigitChars_ten_toDigits (n := apiKeyId), digits, Nat.ofDigitChars_ten_toDigits]

namespace Application

open Machine

variable {env : Environment} {s next final : State} {a : Action} {schedule : List Action} {id : ℕ}
  {apiKeys : List ApiKeyRecord} {db : Database} {apiKeyId : ℕ} {key : String}

@[simp] theorem State.redis_setGuard {task : ℕ} {guard : RequireApiKey.State} : (s.setGuard task guard).redis = s.redis :=
  rfl

@[simp] theorem State.passages_charge {capacity nowMs : ℤ} {rate : ℚ} :
    (s.charge key capacity rate nowMs).passages = s.passages := rfl

@[simp] theorem State.redis_charge_self {capacity nowMs : ℤ} {rate : ℚ} :
    (s.charge key capacity rate nowMs).redis key = some (s.script key capacity rate nowMs).1 := Function.update_self ..

theorem State.redis_charge_of_ne {other : String} (different : other ≠ key) {capacity nowMs : ℤ} {rate : ℚ} :
    (s.charge key capacity rate nowMs).redis other = s.redis other := Function.update_of_ne different ..

/-! ## Tier 2 -/

/-- What an action means for the bucket of a principal. -/
def tier2Events (apiKeyId : ℕ) (s : State) (a : Action) (_ : State) : List BucketEvent :=
  match a with
  | .enforce id =>
    match s.passages id with
    | some ⟨_, _, .limited principal nowMs⟩ => if principal.apiKeyId = apiKeyId then [.executed nowMs] else []
    | _ => []
  | .enforceFails id =>
    match s.passages id with
    | some ⟨_, _, .limited principal _⟩ => if principal.apiKeyId = apiKeyId then [.failedOpen] else []
    | _ => []
  | .expire key => if key = tier2Key apiKeyId then [.dropped] else []
  | _ => []

/-- The place is behind Tier 2, for a principal. -/
def Place.IsBehindTier2 (apiKeyId : ℕ) : Place → Prop
  | admitted principal | served principal => principal.apiKeyId = apiKeyId
  | _ => False

/-- A request of a principal has passed Tier 2. -/
def PassedTier2 (apiKeyId : ℕ) (s : State) (id : ℕ) : Prop :=
  ∃ passage, s.passages id = some passage ∧ passage.place.IsBehindTier2 apiKeyId

/-- A request that has moved passed Tier 2 before, or its new place is behind it. -/
theorem PassedTier2.of_move {passage : Passage} {other : ℕ} (passed : PassedTier2 apiKeyId (s.move id passage) other) :
    PassedTier2 apiKeyId s other ∨ other = id ∧ passage.place.IsBehindTier2 apiKeyId := by
  obtain ⟨there, found, behind⟩ := passed
  rcases State.passages_move_cases found with ⟨same, rfl⟩ | ⟨-, found⟩
  · exact .inr ⟨same, behind⟩
  · exact .inl ⟨there, found, behind⟩

theorem PassedTier2.of_move_elsewhere {passage : Passage} {other : ℕ}
    (elsewhere : ¬ passage.place.IsBehindTier2 apiKeyId)
    (passed : PassedTier2 apiKeyId (s.move id passage) other) : PassedTier2 apiKeyId s other :=
  passed.of_move.resolve_right fun turn => elsewhere turn.2

/-- Only a script that finds a token lets a request pass. -/
theorem allowed_of_enforce {principal : AuthenticatedPrincipal} {reply : BucketReply}
    (behind : (enforce principal (some (.ofReply env.notFinite reply))).IsBehindTier2 apiKeyId) : reply.allowed ≠ 0 := by
  unfold enforce at behind
  split at behind
  · next accepted =>
    by_contra refused
    simp [enforceTier2RateLimit, RateLimitDecision.ofReply, refused] at accepted
  · exact behind.elim

/-- Whoever passes Tier 2 as a principal was measured by its bucket, or met a limiter that failed. -/
theorem Stepped.tier2 {limit : ℤ} (steps : Stepped env s a next)
    (limited : ∀ id task arrival principal nowMs, s.passages id = some ⟨task, arrival, .limited principal nowMs⟩ →
      principal.apiKeyId = apiKeyId → principal.rateLimitPerSec ≤ limit) :
    Metered limit limit (s.redis (tier2Key apiKeyId)) (next.redis (tier2Key apiKeyId)) (PassedTier2 apiKeyId s)
      (PassedTier2 apiKeyId next) (tier2Events apiKeyId s a next) := by
  cases steps with
  | @arrives id task arrival nowMs =>
    refine .apart rfl fun other => PassedTier2.of_move_elsewhere fun behind => ?_
    change (enter nowMs arrival).IsBehindTier2 apiKeyId at behind
    unfold enter at behind
    split_ifs at behind <;> exact behind
  | @throttles id task arrival nowMs burst rate =>
    refine .apart ?_ fun other => PassedTier2.of_move_elsewhere fun behind => ?_
    · rw [State.redis_move, State.redis_charge_of_ne (tier1Key_ne_tier2Key arrival apiKeyId).symm]
    · change (throttle env _).IsBehindTier2 apiKeyId at behind
      unfold throttle at behind
      split_ifs at behind <;> exact behind
  | throttleFails | unguarded | malformed | abandons | refuses | authenticates =>
    exact .apart rfl fun other => PassedTier2.of_move_elsewhere fun behind => behind.elim
  | @proceeds id task arrival nowMs call place waits called goes =>
    refine .apart rfl fun other => PassedTier2.of_move_elsewhere fun behind => ?_
    unfold proceed at goes
    split at goes
    · obtain rfl := Option.some.inj goes
      exact behind
    · obtain rfl := Option.some.inj goes
      exact behind
    · contradiction
  | @enforces id task arrival principal nowMs rate waits own =>
    simp only [tier2Events, waits]
    by_cases same : principal.apiKeyId = apiKeyId
    · subst same
      have within : rate ≤ limit := own ▸ limited id task arrival principal nowMs waits rfl
      rw [if_pos rfl]
      refine .executes within (by exact_mod_cast within) State.redis_charge_self
        fun other passed => (?_ : _ ∨ other = id ∧ _)
      exact passed.of_move.imp_right fun turn => ⟨turn.1, allowed_of_enforce turn.2⟩
    · rw [if_neg same]
      refine .apart (State.redis_charge_of_ne fun equal => same (tier2Key_injective equal).symm) fun other =>
        PassedTier2.of_move_elsewhere fun behind => ?_
      change (enforce principal _).IsBehindTier2 apiKeyId at behind
      unfold enforce at behind
      split at behind
      · exact same behind
      · exact behind
  | @enforceFails id task arrival principal nowMs waits =>
    simp only [tier2Events, waits]
    by_cases same : principal.apiKeyId = apiKeyId
    · rw [if_pos same]
      exact .failsOpen rfl fun other passed => passed.of_move.imp_right And.left
    · rw [if_neg same]
      exact .apart rfl fun other => PassedTier2.of_move_elsewhere same
  | @serves id task arrival principal receivedAt request services waits =>
    refine .apart rfl fun other passed => ?_
    rcases passed.of_move with earlier | ⟨rfl, behind⟩
    · exact earlier
    · exact ⟨_, waits, behind⟩
  | @expires key =>
    simp only [tier2Events]
    by_cases same : key = tier2Key apiKeyId
    · subst same
      rw [if_pos rfl]
      exact .drops (Function.update_self ..) fun other passed => passed
    · rw [if_neg same]
      exact .apart (Function.update_of_ne (Ne.symm same) ..) fun other passed => passed
  | guard | service | commitsKeys => exact .apart rfl fun other passed => passed

/-- Whatever holds of all rows of a run holds of the principals of its requests. -/
theorem backed_run {P : AuthenticatedPrincipal → Prop} (reached : run (step env) (.init apiKeys db) schedule = some final)
    (rows : ∀ rows, rows = apiKeys ∨ .commitKeys rows ∈ schedule →
      ∀ record ∈ rows, P ⟨record.id, record.rateLimitPerSec, record.scope⟩) :
    ∀ task, RequireApiKey.Backed P (final.guards task) := by
  refine run_induction (motive := fun schedule s => (∀ rows, rows = apiKeys ∨ .commitKeys rows ∈ schedule →
    ∀ record ∈ rows, P ⟨record.id, record.rateLimitPerSec, record.scope⟩) → ∀ task, RequireApiKey.Backed P (s.guards task))
    _ (fun rows task => .init (rows apiKeys (.inl rfl))) ?_ reached rows
  rintro schedule s a next - ih steps rows task
  have backed := ih fun rows' member => rows rows' (member.imp_right (List.mem_append_left _))
  have moved : ∀ {mover : ℕ} {own : RequireApiKey.Action} {guard : RequireApiKey.State},
      RequireApiKey.step env.crypto env.apiKeyCacheTtlSeconds (s.guards mover) own = some guard →
      own.changesRows = false → RequireApiKey.Backed P ((s.setGuard mover guard).guards task) := by
    intro mover own guard moves quiet
    by_cases mine : task = mover
    · subst mine
      rw [State.guards_setGuard_self]
      exact (backed task).stepped (RequireApiKey.stepped_of_step moves) fun _ same => by
        rw [same] at quiet
        contradiction
    · rw [State.guards_setGuard_of_ne mine]
      exact backed task
  cases stepped_of_step steps with
  | authenticates waits guarded moves => exact moved moves rfl
  | @guard mover own guard isOwn moves => exact moved moves (by cases own <;> first | rfl | contradiction)
  | commitsKeys =>
    exact ⟨rows _ (.inr (by simp)), (backed task).cache, (backed task).selected, (backed task).answered⟩
  | arrives | throttles | throttleFails | unguarded | malformed | proceeds | enforces | enforceFails | refuses | serves
    | service | abandons | expires => exact backed task

/-- Tier 2 holds a tenant to its budget: however many tasks serve it and in whatever order its requests come,
no more of its calls reach a service than one full bucket, the upward moves of the stamps on its own bucket,
the losses of that bucket and the failures of the limiter pay for. Other tenants and Tier 1 do not count. -/
theorem tier2_bounds_service_calls (reached : run (step env) (.init apiKeys db) schedule = some final) {limit : ℤ}
    (room : 0 ≤ limit) (limited : ∀ rows, rows = apiKeys ∨ .commitKeys rows ∈ schedule →
      ∀ record ∈ rows, record.id = apiKeyId → record.rateLimitPerSec ≤ limit)
    {ids : Finset ℕ} (called : ∀ id ∈ ids, (final.services.calls ⟨apiKeyId, id⟩).request.isSome) :
    (ids.card : ℚ) ≤ BucketEvent.budget limit limit
      (observed (step env) (tier2Events apiKeyId) (.init apiKeys db) schedule) := by
  apply Metered.card_le_of_run (fun s => s.redis (tier2Key apiKeyId)) (PassedTier2 apiKeyId) (tier2Events apiKeyId) room
    (by exact_mod_cast room) rfl ?_ ?_ reached
  · intro id member
    obtain ⟨request, serves⟩ := Option.isSome_iff_exists.mp (called id member)
    obtain ⟨passage, principal, -, there, place, tenant, -⟩ := (Vouched.of_run reached).served _ _ serves
    refine ⟨passage, there, ?_⟩
    rw [place]
    exact tenant
  · rintro id ⟨passage, there, -⟩
    contradiction
  · rintro earlier a later s next rfl before steps
    refine (stepped_of_step steps).tier2 fun id task arrival principal nowMs waits own => ?_
    obtain ⟨call, answeredAt, place, phase⟩ := (Vouched.of_run before).answered id _ principal waits rfl
    have backed := backed_run (P := fun principal => principal.apiKeyId = apiKeyId → principal.rateLimitPerSec ≤ limit)
      before fun rows member => limited rows (member.imp_right (List.mem_append_left _))
    exact (backed task).answered id call principal answeredAt place phase own

/-- Two requests at once under a budget of one: one of them is served, and no more are paid for. -/
theorem tier2_bounds_service_calls_two_requests :
    let env : Environment := ⟨⟨fun key => key, fun secret hash => secret = hash⟩, 300, 400, 200, 0⟩
    let arrival : Arrival := ⟨some "10.0.0.1", "/v1/quotas", some "Bearer mtr_live_k_s", false, .listQuotas,
      fun exempt => absurd exempt (by decide)⟩
    let source : State := .init [⟨7, "k", "s", 1, none, .admin⟩] (.atRest .codePoint 0 1 ⟨∅, ∅, ∅⟩)
    let requested (id : ℕ) : List Action := [.arrive id id arrival 0, .throttle id, .authenticate id,
      .guard id (.select id), .guard id (.verify id), .proceed id 500]
    let schedule : List Action := requested 0 ++ requested 1 ++ [.enforce 1, .enforce 0, .serve 1 0]
    ∃ final, run (step env) source schedule = some final ∧
      ({1} : Finset ℕ).card ≤ BucketEvent.budget 1 1 (observed (step env) (tier2Events 7) source schedule) ∧
      BucketEvent.budget 1 1 (observed (step env) (tier2Events 7) source schedule) = 1 := by
  intro env arrival source requested schedule
  have runs : (run (step env) source schedule).map (fun final => (final.services.calls ⟨7, 1⟩).request.isSome) =
      some true := by decide +kernel
  obtain ⟨final, reached, called⟩ := Option.map_eq_some_iff.mp runs
  refine ⟨final, reached, tier2_bounds_service_calls reached (by decide) ?_ ?_, by decide +kernel⟩
  · intro rows member record present _
    have own : rows = [⟨7, "k", "s", 1, none, .admin⟩] := member.resolve_right (by simp [schedule, requested])
    subst own
    obtain rfl := List.mem_singleton.mp present
    exact le_rfl
  · intro id member
    obtain rfl := Finset.mem_singleton.mp member
    exact called

/-! ## Tier 1 -/

/-- What an action means for the bucket of a host and a path. -/
def tier1Events (key : String) (s : State) (a : Action) (_ : State) : List BucketEvent :=
  match a with
  | .throttle id =>
    match s.passages id with
    | some ⟨_, arrival, .throttled nowMs⟩ => if arrival.tier1Key = key then [.executed nowMs] else []
    | _ => []
  | .throttleFails id =>
    match s.passages id with
    | some ⟨_, arrival, .throttled _⟩ => if arrival.tier1Key = key then [.failedOpen] else []
    | _ => []
  | .expire other => if other = key then [.dropped] else []
  | _ => []

/-- A request has passed Tier 1 on its way to the guard, or has come to the guard. -/
def PassedTier1 (key : String) (s : State) (id : ℕ) : Prop :=
  ∃ passage, s.passages id = some passage ∧ passage.arrival.tier1Key = key ∧
    (passage.place = .accepted ∧ passage.arrival.path ∉ tier1ExemptPaths ∨
      ∃ call, (s.guards passage.task).calls id = some call)

/-- A request that has moved passed Tier 1 before, or it has just been accepted. -/
theorem PassedTier1.of_move {task other : ℕ} {arrival : Arrival} {before place : Place}
    (there : s.passages id = some ⟨task, arrival, before⟩)
    (passed : PassedTier1 key (s.move id ⟨task, arrival, place⟩) other) :
    PassedTier1 key s other ∨ other = id ∧ arrival.tier1Key = key ∧ place = .accepted := by
  obtain ⟨passage, found, own, reached⟩ := passed
  rcases State.passages_move_cases found with ⟨rfl, rfl⟩ | ⟨-, found⟩
  · rcases reached with ⟨accepted, -⟩ | called
    · exact .inr ⟨rfl, own, accepted⟩
    · exact .inl ⟨_, there, own, .inr called⟩
  · exact .inl ⟨passage, found, own, reached⟩

theorem PassedTier1.of_move_elsewhere {task other : ℕ} {arrival : Arrival} {before place : Place}
    (there : s.passages id = some ⟨task, arrival, before⟩) (elsewhere : place ≠ .accepted)
    (passed : PassedTier1 key (s.move id ⟨task, arrival, place⟩) other) : PassedTier1 key s other :=
  (passed.of_move there).resolve_right fun turn => elsewhere turn.2.2

/-- A request comes to the guard from its place behind Tier 1. -/
theorem PassedTier1.of_start {task other : ℕ} {arrival : Arrival} {guard : RequireApiKey.State}
    (waits : s.passages id = some ⟨task, arrival, .accepted⟩) (guarded : arrival.endpoint ≠ .unguarded)
    (steps : RequireApiKey.Stepped env.crypto env.apiKeyCacheTtlSeconds (s.guards task)
      (.start id arrival.authorization) guard)
    (passed : PassedTier1 key ((s.setGuard task guard).move id ⟨task, arrival, .guarded⟩) other) :
    PassedTier1 key s other := by
  have free : arrival.path ∉ tier1ExemptPaths := fun exempt => guarded (arrival.routed exempt)
  have there : (s.setGuard task guard).passages id = some ⟨task, arrival, .accepted⟩ := waits
  obtain ⟨passage, found, own, reached⟩ := passed.of_move_elsewhere there (by simp)
  by_cases same : other = id
  · subst same
    obtain rfl := Option.some.inj (waits.symm.trans found)
    exact ⟨_, waits, own, .inl ⟨rfl, free⟩⟩
  · refine ⟨passage, found, own, reached.imp_right ?_⟩
    rintro ⟨call, called⟩
    by_cases mine : passage.task = task
    · subst mine
      rw [State.guards_setGuard_self] at called
      rcases steps.header_cases called with ⟨-, opened⟩ | ⟨before, there, -⟩
      · exact absurd (RequireApiKey.Action.start.inj opened).1.symm same
      · exact ⟨before, there⟩
    · rw [State.guards_setGuard_of_ne mine] at called
      exact ⟨call, called⟩

/-- Whoever passes Tier 1 was measured by its bucket, or met a limiter that failed. -/
theorem Stepped.tier1 (steps : Stepped env s a next) (vouched : Vouched s) (client : Arrival) :
    Metered env.tier1RateLimitBurst env.tier1RateLimitPerSecond (s.redis client.tier1Key) (next.redis client.tier1Key)
      (PassedTier1 client.tier1Key s) (PassedTier1 client.tier1Key next) (tier1Events client.tier1Key s a next) := by
  cases steps with
  | @arrives id task arrival nowMs fresh =>
    refine .apart rfl fun other passed => ?_
    obtain ⟨passage, found, own, reached⟩ := passed
    rcases State.passages_move_cases found with ⟨rfl, rfl⟩ | ⟨-, found⟩
    · rcases reached with ⟨accepted, free⟩ | ⟨call, called⟩
      · change enter nowMs arrival = .accepted at accepted
        unfold enter at accepted
        split_ifs at accepted
      · obtain ⟨passage, there, -⟩ := vouched.guarded task other call called
        rw [fresh] at there
        contradiction
    · exact ⟨passage, found, own, reached⟩
  | @throttles id task arrival nowMs burst rate waits capacity refill =>
    subst capacity refill
    simp only [tier1Events, waits]
    by_cases same : arrival.tier1Key = client.tier1Key
    · rw [if_pos same, ← same]
      refine .executes le_rfl le_rfl State.redis_charge_self fun other passed => (?_ : _ ∨ other = id ∧ _)
      refine (PassedTier1.of_move waits passed).imp_right fun turn => ⟨turn.1, fun refused => ?_⟩
      have accepted := turn.2.2
      unfold throttle RateLimitDecision.ofReply at accepted
      simp [State.script, refused] at accepted
    · rw [if_neg same]
      refine .apart (State.redis_charge_of_ne (Ne.symm same)) fun other passed => ?_
      exact (PassedTier1.of_move waits passed).resolve_right fun turn => same turn.2.1
  | @throttleFails id task arrival nowMs waits =>
    simp only [tier1Events, waits]
    by_cases same : arrival.tier1Key = client.tier1Key
    · rw [if_pos same]
      exact .failsOpen rfl fun other passed => (PassedTier1.of_move waits passed).imp_right And.left
    · rw [if_neg same]
      exact .apart rfl fun other passed => (PassedTier1.of_move waits passed).resolve_right fun turn => same turn.2.1
  | unguarded waits | malformed waits | enforceFails waits | refuses _ waits | abandons waits =>
    exact .apart rfl fun other => PassedTier1.of_move_elsewhere waits (by simp)
  | serves waits => exact .apart rfl fun other => PassedTier1.of_move_elsewhere waits (by simp)
  | authenticates waits guarded moves =>
    exact .apart rfl fun other => PassedTier1.of_start waits guarded (RequireApiKey.stepped_of_step moves)
  | @guard task own guard isOwn moves =>
    refine .apart rfl fun other passed => ?_
    obtain ⟨passage, found, named, reached⟩ := passed
    refine ⟨passage, found, named, reached.imp_right ?_⟩
    rintro ⟨call, called⟩
    by_cases mine : passage.task = task
    · subst mine
      rw [State.guards_setGuard_self] at called
      rcases (RequireApiKey.stepped_of_step moves).header_cases called with ⟨-, rfl⟩ | ⟨before, there, -⟩
      · contradiction
      · exact ⟨before, there⟩
    · rw [State.guards_setGuard_of_ne mine] at called
      exact ⟨call, called⟩
  | @proceeds id task arrival nowMs call place waits called goes =>
    refine .apart rfl fun other => PassedTier1.of_move_elsewhere waits ?_
    rintro rfl
    unfold proceed at goes
    split at goes <;> cases goes
  | @enforces id task arrival principal nowMs rate waits =>
    refine .apart ?_ fun other => PassedTier1.of_move_elsewhere waits ?_
    · rw [State.redis_move, State.redis_charge_of_ne (tier1Key_ne_tier2Key client _)]
    · unfold enforce
      split <;> simp
  | @expires key =>
    simp only [tier1Events]
    by_cases same : key = client.tier1Key
    · subst same
      rw [if_pos rfl]
      exact .drops (Function.update_self ..) fun other passed => passed
    · rw [if_neg same]
      exact .apart (Function.update_of_ne (Ne.symm same) ..) fun other passed => passed
  | service | commitsKeys => exact .apart rfl fun other passed => passed

/-- Tier 1 sheds a flood in front of the guard: of the requests from one host for one path, no more come to a
guard, where Argon2id would be spent on them, than one full bucket, the upward moves of the stamps on their
bucket, its losses and the failures of the limiter pay for. -/
theorem tier1_bounds_guard_calls (reached : run (step env) (.init apiKeys db) schedule = some final)
    (room : 0 ≤ env.tier1RateLimitBurst) (refills : 0 ≤ env.tier1RateLimitPerSecond) (client : Arrival) {ids : Finset ℕ}
    (called : ∀ id ∈ ids, ∃ passage call, final.passages id = some passage ∧
      passage.arrival.tier1Key = client.tier1Key ∧ (final.guards passage.task).calls id = some call) :
    (ids.card : ℚ) ≤ BucketEvent.budget env.tier1RateLimitBurst env.tier1RateLimitPerSecond
      (observed (step env) (tier1Events client.tier1Key) (.init apiKeys db) schedule) := by
  apply Metered.card_le_of_run (fun s => s.redis client.tier1Key) (PassedTier1 client.tier1Key)
    (tier1Events client.tier1Key) room (by exact_mod_cast refills) rfl ?_ ?_ reached
  · intro id member
    obtain ⟨passage, call, there, same, started⟩ := called id member
    exact ⟨passage, there, same, .inr ⟨call, started⟩⟩
  · rintro id ⟨passage, there, -⟩
    contradiction
  · rintro earlier a later s next - before steps
    exact (stepped_of_step steps).tier1 (.of_run before) client

/-- Two requests from one host under a burst of one: one of them comes to the guard. -/
theorem tier1_bounds_guard_calls_two_requests :
    let env : Environment := ⟨⟨fun key => key, fun secret hash => secret = hash⟩, 300, 1, 200, 0⟩
    let arrival : Arrival := ⟨some "10.0.0.1", "/v1/quotas", some "Bearer mtr_live_k_s", false, .listQuotas,
      fun exempt => absurd exempt (by decide)⟩
    let source : State := .init [] (.atRest .codePoint 0 1 ⟨∅, ∅, ∅⟩)
    let schedule : List Action := [.arrive 0 0 arrival 0, .arrive 1 1 arrival 0, .throttle 1, .throttle 0, .authenticate 1]
    ∃ final, run (step env) source schedule = some final ∧
      ({1} : Finset ℕ).card ≤ BucketEvent.budget 1 200 (observed (step env) (tier1Events arrival.tier1Key) source schedule) ∧
      BucketEvent.budget 1 200 (observed (step env) (tier1Events arrival.tier1Key) source schedule) = 1 := by
  intro env arrival source schedule
  have runs : (run (step env) source schedule).map (fun final => ((final.passages 1).map fun passage =>
      (passage.arrival.tier1Key, ((final.guards passage.task).calls 1).isSome))) =
      some (some (arrival.tier1Key, true)) := by decide +kernel
  obtain ⟨final, reached, there⟩ := Option.map_eq_some_iff.mp runs
  obtain ⟨passage, there, same⟩ := Option.map_eq_some_iff.mp there
  obtain ⟨call, called⟩ := Option.isSome_iff_exists.mp (Prod.mk.inj same).2
  refine ⟨final, reached, tier1_bounds_guard_calls reached (by decide) (by decide) arrival ?_, by decide +kernel⟩
  intro id member
  obtain rfl := Finset.mem_singleton.mp member
  exact ⟨passage, call, there, (Prod.mk.inj same).1, called⟩

end Application

end Meterly
