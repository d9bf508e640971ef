import Meterly.Auth.RateLimit
import Meterly.Auth.RequireApiKey
import Meterly.Model.MiddlewareStack
import Meterly.Model.System

/-! # Requests on their way through the application

A request comes to one of the tasks. Its size is looked at, Tier 1 takes a token for its host and path, the
body is parsed, the guard of the task authenticates it, Tier 2 takes a token of its principal, scope and
parameters are checked, and then a service starts. The tasks share Redis, the rows of `api_keys` and the
database; each has a verification cache and a clock of its own. Guards and services move here as they do on
their own, and any order of the steps of any number of requests is a schedule.
-/

namespace Meterly

/-- What a request body comes to: it is no JSON, it fails validation, or it is a value of the schema. -/
inductive RequestBody (Payload : Type) where
  | notJson
  | invalid
  | valid (payload : Payload)

/-- What validation leaves of a body that is JSON. -/
def RequestBody.payload {Payload : Type} : RequestBody Payload → Option Payload
  | valid payload => some payload
  | notJson | invalid => none

/-- Where the router sends a request, with what validation leaves of its parameters. `unguarded` is every
other path, whether it has a route or not. -/
inductive Endpoint where
  | postEvent (body : RequestBody EventCreateRequest)
  | putQuota (body : RequestBody QuotaPutRequest)
  | listQuotas
  | deleteQuota (params : Option QuotaDeleteParams)
  | getUsage (query : Option UsageQueryParams)
  | getUsageDaily (query : Option (Option String))
  | getUsageExport (params : Option UsageExportQueryParams)
  | unguarded

namespace Endpoint

/-- The body of the request is parsed before the dependencies of its route. -/
def bodyParses : Endpoint → Bool
  | postEvent .notJson | putQuota .notJson => false
  | _ => true

/-- The routes that depend on `_require_admin_and_throttled`. -/
def adminOnly : Endpoint → Bool
  | putQuota _ | listQuotas | deleteQuota _ => true
  | _ => false

/-- What the route asks of its service, if the parameters are valid. -/
def request (receivedAt : Instant) : Endpoint → Option Request
  | postEvent body => body.payload.map fun payload => .createEvent payload receivedAt
  | putQuota body => body.payload.map .upsertQuota
  | listQuotas => some .listQuotas
  | deleteQuota params => params.map .deleteQuota
  | getUsage query => query.map .getUsage
  | getUsageDaily query => query.map fun date => .getDailyUsage date receivedAt
  | getUsageExport params => params.map .exportUsage
  | unguarded => none

end Endpoint

/-- A request as it comes in; a path that is exempt from Tier 1 has no guarded route. -/
structure Arrival where
  clientHost : Option String
  path : String
  authorization : Option String
  tooLarge : Bool
  endpoint : Endpoint
  routed : path ∈ tier1ExemptPaths → endpoint = .unguarded

/-- The bucket of Tier 1 in Redis: `ratelimit:tier1:{client_ip}:{path}`. -/
def Arrival.tier1Key (arrival : Arrival) : String :=
  "ratelimit:tier1:" ++ (arrival.clientHost.getD "unknown" ++ ":" ++ arrival.path)

/-- The bucket of Tier 2 in Redis: `ratelimit:tier2:{api_key_id}`. -/
def tier2Key (apiKeyId : ℕ) : String := "ratelimit:tier2:" ++ toString apiKeyId

namespace Application

/-- What every task is configured with, and what it is given from outside: the hash functions, and the integer
that Redis makes of an infinite number. -/
structure Environment where
  crypto : Crypto
  apiKeyCacheTtlSeconds : ℤ
  tier1RateLimitBurst : ℤ
  tier1RateLimitPerSecond : ℤ
  notFinite : ℤ

/-- Where a request stands. The limiters have read their clock and wait for Redis. -/
inductive Place where
  | throttled (nowMs : ℤ)
  | accepted
  | guarded
  | limited (principal : AuthenticatedPrincipal) (nowMs : ℤ)
  | admitted (principal : AuthenticatedPrincipal)
  | served (principal : AuthenticatedPrincipal)
  | unguarded
  | refused (statusCode : ℕ)
  | abandoned

/-- A request in the application: its task, what it came with, and where it stands. -/
structure Passage where
  task : ℕ
  arrival : Arrival
  place : Place

/-- Redis, the guard of each task, the services with the database, and the requests so far. -/
structure State where
  redis : String → Option Bucket
  guards : ℕ → RequireApiKey.State
  services : Meterly.State
  passages : ℕ → Option Passage

/-- One scheduling decision, or what happens to the application from outside. -/
inductive Action where
  | arrive (id task : ℕ) (arrival : Arrival) (nowMs : ℤ)
  | throttle (id : ℕ)
  | throttleFails (id : ℕ)
  | authenticate (id : ℕ)
  | guard (task : ℕ) (a : RequireApiKey.Action)
  | proceed (id : ℕ) (nowMs : ℤ)
  | enforce (id : ℕ)
  | enforceFails (id : ℕ)
  | serve (id : ℕ) (receivedAt : Instant)
  | service (a : Meterly.Action)
  | abandon (id : ℕ)
  | expire (key : String)
  | commitKeys (apiKeys : List ApiKeyRecord)

namespace State

/-- Nothing has come in yet. -/
def init (apiKeys : List ApiKeyRecord) (db : Database) : State :=
  ⟨fun _ => none, fun _ => RequireApiKey.init apiKeys, .init db, fun _ => none⟩

/-- The rows of `api_keys` as they are committed, which every task reads. -/
def apiKeys (s : State) : List ApiKeyRecord := (s.guards 0).apiKeys

/-- Put a request in its next place. -/
def move (s : State) (id : ℕ) (passage : Passage) : State :=
  { s with passages := Function.update s.passages id (some passage) }

/-- The script of `RedisTokenBucketLimiter.check`, on the bucket under a key. -/
def script (s : State) (key : String) (capacity : ℤ) (refillRatePerSecond : ℚ) (nowMs : ℤ) : Bucket × BucketReply :=
  tokenBucketLua capacity refillRatePerSecond nowMs 1 (s.redis key)

/-- Redis has executed the script. -/
def charge (s : State) (key : String) (capacity : ℤ) (refillRatePerSecond : ℚ) (nowMs : ℤ) : State :=
  { s with redis := Function.update s.redis key (some (s.script key capacity refillRatePerSecond nowMs).1) }

/-- A guard has moved on. -/
def setGuard (s : State) (task : ℕ) (guard : RequireApiKey.State) : State :=
  { s with guards := Function.update s.guards task guard }

end State

/-- Where a request goes from its arrival: `BodySizeLimitMiddleware`, and the clock of Tier 1. -/
def enter (nowMs : ℤ) (arrival : Arrival) : Place :=
  if arrival.tooLarge then .refused 413
  else if arrival.path ∈ tier1ExemptPaths then .accepted
  else .throttled nowMs

/-- What the Tier-1 script makes of a request. -/
def throttle (env : Environment) (reply : BucketReply) : Place :=
  if (RateLimitDecision.ofReply env.notFinite reply).allowed then .accepted else .refused 429

/-- What the Tier-2 script, or its failure, makes of a request. -/
def enforce (principal : AuthenticatedPrincipal) (decision : Option RateLimitDecision) : Place :=
  match enforceTier2RateLimit decision with
  | .ok () => .admitted principal
  | .error exception => .refused exception.statusCode

/-- What the guard has answered decides how a request goes on. -/
def proceed (nowMs : ℤ) : RequireApiKey.Phase → Option Place
  | .answered (.ok principal) _ => some (.limited principal nowMs)
  | .answered (.error exception) _ => some (.refused exception.statusCode)
  | _ => none

/-- The action is the guard's own, and not that of a request that starts or of the rows. -/
def isOwn : RequireApiKey.Action → Bool
  | .start _ _ | .revoke _ | .rewrite _ => false
  | _ => true

/-- The action is that of a call that runs, or of the clock. -/
def isOngoing : Meterly.Action → Bool
  | .start _ _ => false
  | _ => true

/-- A request that waits in front of the guard or of its service, where it can be cancelled. -/
def Place.isWaiting : Place → Bool
  | throttled _ | accepted | limited _ _ | admitted _ => true
  | _ => false

/-- Execute one action, if it is enabled. -/
def step (env : Environment) (s : State) : Action → Option State
  | .arrive id task arrival nowMs =>
    match s.passages id with
    | none => some (s.move id ⟨task, arrival, enter nowMs arrival⟩)
    | some _ => none
  | .throttle id =>
    match s.passages id with
    | some ⟨task, arrival, .throttled nowMs⟩ =>
      let reply := (s.script arrival.tier1Key env.tier1RateLimitBurst env.tier1RateLimitPerSecond nowMs).2
      some ((s.charge arrival.tier1Key env.tier1RateLimitBurst env.tier1RateLimitPerSecond nowMs).move id
        ⟨task, arrival, throttle env reply⟩)
    | _ => none
  | .throttleFails id =>
    match s.passages id with
    | some ⟨task, arrival, .throttled _⟩ => some (s.move id ⟨task, arrival, .accepted⟩)
    | _ => none
  | .authenticate id =>
    match s.passages id with
    | some ⟨task, arrival, .accepted⟩ =>
      match arrival.endpoint with
      | .unguarded => some (s.move id ⟨task, arrival, .unguarded⟩)
      | endpoint =>
        if endpoint.bodyParses then
          (RequireApiKey.step env.crypto env.apiKeyCacheTtlSeconds (s.guards task) (.start id arrival.authorization)).map
            fun guard => (s.setGuard task guard).move id ⟨task, arrival, .guarded⟩
        else some (s.move id ⟨task, arrival, .refused 422⟩)
    | _ => none
  | .guard task a =>
    if isOwn a then
      (RequireApiKey.step env.crypto env.apiKeyCacheTtlSeconds (s.guards task) a).map fun guard => s.setGuard task guard
    else none
  | .proceed id nowMs =>
    match s.passages id with
    | some ⟨task, arrival, .guarded⟩ =>
      ((s.guards task).calls id).bind fun call =>
        (proceed nowMs call.phase).map fun place => s.move id ⟨task, arrival, place⟩
    | _ => none
  | .enforce id =>
    match s.passages id with
    | some ⟨task, arrival, .limited principal nowMs⟩ =>
      let rate := principal.rateLimitPerSec
      let reply := (s.script (tier2Key principal.apiKeyId) rate rate nowMs).2
      some ((s.charge (tier2Key principal.apiKeyId) rate rate nowMs).move id
        ⟨task, arrival, enforce principal (some (.ofReply env.notFinite reply))⟩)
    | _ => none
  | .enforceFails id =>
    match s.passages id with
    | some ⟨task, arrival, .limited principal _⟩ => some (s.move id ⟨task, arrival, enforce principal none⟩)
    | _ => none
  | .serve id receivedAt =>
    match s.passages id with
    | some ⟨task, arrival, .admitted principal⟩ =>
      if arrival.endpoint.adminOnly ∧ principal.scope ≠ .admin then some (s.move id ⟨task, arrival, .refused 403⟩)
      else match arrival.endpoint.request receivedAt with
        | none => some (s.move id ⟨task, arrival, .refused 422⟩)
        | some request =>
          (Meterly.step s.services (.start ⟨principal.apiKeyId, id⟩ request)).map fun services =>
            { s with services }.move id ⟨task, arrival, .served principal⟩
    | _ => none
  | .service a =>
    if isOngoing a then (Meterly.step s.services a).map fun services => { s with services } else none
  | .abandon id =>
    match s.passages id with
    | some ⟨task, arrival, place⟩ =>
      if place.isWaiting then some (s.move id ⟨task, arrival, .abandoned⟩) else none
    | none => none
  | .expire key => some { s with redis := Function.update s.redis key none }
  | .commitKeys apiKeys => some { s with guards := fun task => { s.guards task with apiKeys } }

variable {env : Environment}

/-- What one action does to the state. -/
inductive Stepped (env : Environment) (s : State) : Action → State → Prop
  | arrives {id task : ℕ} {arrival : Arrival} {nowMs : ℤ} (fresh : s.passages id = none) :
      Stepped env s (.arrive id task arrival nowMs) (s.move id ⟨task, arrival, enter nowMs arrival⟩)
  | throttles {id task : ℕ} {arrival : Arrival} {nowMs : ℤ} {burst rate : ℤ}
      (waits : s.passages id = some ⟨task, arrival, .throttled nowMs⟩) (capacity : burst = env.tier1RateLimitBurst)
      (refill : rate = env.tier1RateLimitPerSecond) :
      Stepped env s (.throttle id) ((s.charge arrival.tier1Key burst rate nowMs).move id
        ⟨task, arrival, throttle env (s.script arrival.tier1Key burst rate nowMs).2⟩)
  | throttleFails {id task : ℕ} {arrival : Arrival} {nowMs : ℤ}
      (waits : s.passages id = some ⟨task, arrival, .throttled nowMs⟩) :
      Stepped env s (.throttleFails id) (s.move id ⟨task, arrival, .accepted⟩)
  | unguarded {id task : ℕ} {arrival : Arrival} (waits : s.passages id = some ⟨task, arrival, .accepted⟩)
      (free : arrival.endpoint = .unguarded) :
      Stepped env s (.authenticate id) (s.move id ⟨task, arrival, .unguarded⟩)
  | malformed {id task : ℕ} {arrival : Arrival} (waits : s.passages id = some ⟨task, arrival, .accepted⟩) :
      Stepped env s (.authenticate id) (s.move id ⟨task, arrival, .refused 422⟩)
  | authenticates {id task : ℕ} {arrival : Arrival} {guard : RequireApiKey.State}
      (waits : s.passages id = some ⟨task, arrival, .accepted⟩) (guarded : arrival.endpoint ≠ .unguarded)
      (moves : RequireApiKey.step env.crypto env.apiKeyCacheTtlSeconds (s.guards task)
        (.start id arrival.authorization) = some guard) :
      Stepped env s (.authenticate id) ((s.setGuard task guard).move id ⟨task, arrival, .guarded⟩)
  | guard {task : ℕ} {a : RequireApiKey.Action} {guard : RequireApiKey.State} (own : isOwn a)
      (moves : RequireApiKey.step env.crypto env.apiKeyCacheTtlSeconds (s.guards task) a = some guard) :
      Stepped env s (.guard task a) (s.setGuard task guard)
  | proceeds {id task : ℕ} {arrival : Arrival} {nowMs : ℤ} {call : RequireApiKey.Call} {place : Place}
      (waits : s.passages id = some ⟨task, arrival, .guarded⟩) (called : (s.guards task).calls id = some call)
      (goes : proceed nowMs call.phase = some place) :
      Stepped env s (.proceed id nowMs) (s.move id ⟨task, arrival, place⟩)
  | enforces {id task : ℕ} {arrival : Arrival} {principal : AuthenticatedPrincipal} {nowMs rate : ℤ}
      (waits : s.passages id = some ⟨task, arrival, .limited principal nowMs⟩) (limit : rate = principal.rateLimitPerSec) :
      Stepped env s (.enforce id) ((s.charge (tier2Key principal.apiKeyId) rate rate nowMs).move id ⟨task, arrival,
        enforce principal (some (.ofReply env.notFinite (s.script (tier2Key principal.apiKeyId) rate rate nowMs).2))⟩)
  | enforceFails {id task : ℕ} {arrival : Arrival} {principal : AuthenticatedPrincipal} {nowMs : ℤ}
      (waits : s.passages id = some ⟨task, arrival, .limited principal nowMs⟩) :
      Stepped env s (.enforceFails id) (s.move id ⟨task, arrival, .admitted principal⟩)
  | refuses {id task : ℕ} {arrival : Arrival} {principal : AuthenticatedPrincipal} {receivedAt : Instant} (statusCode : ℕ)
      (waits : s.passages id = some ⟨task, arrival, .admitted principal⟩) (code : statusCode = 403 ∨ statusCode = 422) :
      Stepped env s (.serve id receivedAt) (s.move id ⟨task, arrival, .refused statusCode⟩)
  | serves {id task : ℕ} {arrival : Arrival} {principal : AuthenticatedPrincipal} {receivedAt : Instant}
      {request : Request} {services : Meterly.State}
      (waits : s.passages id = some ⟨task, arrival, .admitted principal⟩)
      (allowed : arrival.endpoint.adminOnly → principal.scope = .admin)
      (asked : arrival.endpoint.request receivedAt = some request)
      (moves : Meterly.step s.services (.start ⟨principal.apiKeyId, id⟩ request) = some services) :
      Stepped env s (.serve id receivedAt) ({ s with services }.move id ⟨task, arrival, .served principal⟩)
  | service {a : Meterly.Action} {services : Meterly.State} (ongoing : isOngoing a)
      (moves : Meterly.step s.services a = some services) : Stepped env s (.service a) { s with services }
  | abandons {id task : ℕ} {arrival : Arrival} {place : Place} (waits : s.passages id = some ⟨task, arrival, place⟩)
      (waiting : place.isWaiting) : Stepped env s (.abandon id) (s.move id ⟨task, arrival, .abandoned⟩)
  | expires {key : String} : Stepped env s (.expire key) { s with redis := Function.update s.redis key none }
  | commitsKeys {apiKeys : List ApiKeyRecord} :
      Stepped env s (.commitKeys apiKeys) { s with guards := fun task => { s.guards task with apiKeys } }

theorem stepped_of_step {s next : State} {a : Action} (steps : step env s a = some next) : Stepped env s a next := by
  cases a with
  | arrive id task arrival nowMs =>
    simp only [step] at steps
    split at steps
    · next fresh =>
      obtain rfl := Option.some.inj steps
      exact .arrives fresh
    · contradiction
  | throttle id =>
    simp only [step] at steps
    split at steps
    · next waits =>
      obtain rfl := Option.some.inj steps
      exact .throttles waits rfl rfl
    · contradiction
  | throttleFails id =>
    simp only [step] at steps
    split at steps
    · next waits =>
      obtain rfl := Option.some.inj steps
      exact .throttleFails waits
    · contradiction
  | authenticate id =>
    simp only [step] at steps
    split at steps
    · next waits =>
      split at steps
      · next free =>
        obtain rfl := Option.some.inj steps
        exact .unguarded waits free
      · next guarded =>
        split_ifs at steps with parses
        · obtain ⟨guard, moves, rfl⟩ := Option.map_eq_some_iff.mp steps
          exact .authenticates waits guarded moves
        · obtain rfl := Option.some.inj steps
          exact .malformed waits
    · contradiction
  | guard task a =>
    simp only [step] at steps
    split_ifs at steps with own
    obtain ⟨guard, moves, rfl⟩ := Option.map_eq_some_iff.mp steps
    exact .guard own moves
  | proceed id nowMs =>
    simp only [step] at steps
    split at steps
    · next waits =>
      obtain ⟨call, called, rest⟩ := Option.bind_eq_some_iff.mp steps
      obtain ⟨place, goes, rfl⟩ := Option.map_eq_some_iff.mp rest
      exact .proceeds waits called goes
    · contradiction
  | enforce id =>
    simp only [step] at steps
    split at steps
    · next waits =>
      obtain rfl := Option.some.inj steps
      exact .enforces waits rfl
    · contradiction
  | enforceFails id =>
    simp only [step] at steps
    split at steps
    · next waits =>
      obtain rfl := Option.some.inj steps
      exact .enforceFails waits
    · contradiction
  | serve id receivedAt =>
    simp only [step] at steps
    split at steps
    · next waits =>
      split_ifs at steps with forbidden
      · obtain rfl := Option.some.inj steps
        exact .refuses 403 waits (.inl rfl)
      · split at steps
        · obtain rfl := Option.some.inj steps
          exact .refuses 422 waits (.inr rfl)
        · next asked =>
          obtain ⟨services, moves, rfl⟩ := Option.map_eq_some_iff.mp steps
          exact .serves waits (fun admin => not_not.mp fun scope => forbidden ⟨admin, scope⟩) asked moves
    · contradiction
  | service a =>
    simp only [step] at steps
    split_ifs at steps with ongoing
    obtain ⟨services, moves, rfl⟩ := Option.map_eq_some_iff.mp steps
    exact .service ongoing moves
  | abandon id =>
    simp only [step] at steps
    split at steps
    · next waits =>
      split_ifs at steps with waiting
      obtain rfl := Option.some.inj steps
      exact .abandons waits waiting
    · contradiction
  | expire key =>
    obtain rfl := Option.some.inj steps
    exact .expires
  | commitKeys apiKeys =>
    obtain rfl := Option.some.inj steps
    exact .commitsKeys

end Application

end Meterly
