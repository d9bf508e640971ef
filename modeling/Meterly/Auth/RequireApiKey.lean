import Mathlib.Logic.Function.Basic
import Meterly.Auth.ApiKey
import Meterly.Machine.Run

/-! # The guard and its verification cache

`require_api_key` is split where it awaits: from the start of a call to the cache lookup nothing
else runs, then comes the `SELECT` on `api_keys`, and then the Argon2id check with the entry it puts
into the cache. The calls of one process share the cache; the table changes under them and the
clock moves on.
-/

namespace Meterly

/-- `_CachedVerification` -/
structure CachedVerification where
  secretDigest : String
  principal : AuthenticatedPrincipal
  cachedAt : ℚ
deriving DecidableEq, Repr

/-- `ApiKeyVerificationCache._entries`, by `key_id`. -/
abbrev VerificationCache := String → Option CachedVerification

namespace VerificationCache

/-- `get` at the time it reads: an entry past its time is deleted. -/
def get (ttlSeconds : ℤ) (now : ℚ) (cache : VerificationCache) (keyId secretDigest : String) :
    Option AuthenticatedPrincipal × VerificationCache :=
  match cache keyId with
  | none => (none, cache)
  | some entry =>
    if now - entry.cachedAt > ttlSeconds then (none, Function.update cache keyId none)
    else if secretDigest ≠ entry.secretDigest then (none, cache)
    else (some entry.principal, cache)

/-- `put` at the time it reads. -/
def put (now : ℚ) (cache : VerificationCache) (keyId secretDigest : String) (principal : AuthenticatedPrincipal) :
    VerificationCache :=
  Function.update cache keyId (some ⟨secretDigest, principal, now⟩)

/-- `invalidate` -/
def invalidate (cache : VerificationCache) (keyId : String) : VerificationCache :=
  Function.update cache keyId none

/-- What can still be answered from the cache: the entries within their time. -/
def live (ttlSeconds : ℤ) (now : ℚ) (cache : VerificationCache) : VerificationCache := fun keyId =>
  (cache keyId).filter fun entry => ¬ now - entry.cachedAt > ttlSeconds

variable {ttlSeconds : ℤ} {now : ℚ} {cache : VerificationCache} {keyId secretDigest : String}

theorem live_eq_some_iff {entry : CachedVerification} :
    cache.live ttlSeconds now keyId = some entry ↔ cache keyId = some entry ∧ now - entry.cachedAt ≤ ttlSeconds := by
  simp only [live, Option.filter_eq_some_iff, decide_eq_true_eq, gt_iff_lt, not_lt]

/-- A hit is a live entry with the same digest. -/
theorem get_fst_eq_some_iff {principal : AuthenticatedPrincipal} :
    (cache.get ttlSeconds now keyId secretDigest).1 = some principal ↔
      ∃ entry, cache.live ttlSeconds now keyId = some entry ∧ secretDigest = entry.secretDigest ∧
        entry.principal = principal := by
  cases held : cache keyId with
  | none => simp [get, live, held]
  | some entry =>
    by_cases expired : now - entry.cachedAt > ttlSeconds
    · simp only [get, live, held, Option.filter_some, expired, not_true, decide_false]
      simp
    · by_cases same : secretDigest = entry.secretDigest <;> simp only [get, live, held,
        Option.filter_some, expired, not_false_iff, decide_true] <;> simp [same]

/-- A lookup keeps what can still be answered. -/
theorem live_get : (cache.get ttlSeconds now keyId secretDigest).2.live ttlSeconds now = cache.live ttlSeconds now := by
  cases held : cache keyId with
  | none => simp [get, held]
  | some entry =>
    by_cases expired : now - entry.cachedAt > ttlSeconds
    · funext other
      by_cases same : other = keyId
      · subst same
        simp only [get, live, held, Option.filter_some, expired, not_true, decide_false]
        simp
      · simp only [get, live, held, if_pos expired, Function.update_of_ne same]
    · by_cases same : secretDigest = entry.secretDigest <;> simp only [get, held, if_neg expired] <;> simp [same]

/-- A lookup adds no entry. -/
theorem held_of_get {other : String} {entry : CachedVerification}
    (held : (cache.get ttlSeconds now keyId secretDigest).2 other = some entry) : cache other = some entry := by
  unfold get at held
  split at held
  · exact held
  · split_ifs at held with expired
    · by_cases same : other = keyId
      · subst same
        simp at held
      · simpa [Function.update_of_ne same] using held
    · exact held
    · exact held

theorem held_of_put {principal : AuthenticatedPrincipal} {other : String} {entry : CachedVerification}
    (held : cache.put now keyId secretDigest principal other = some entry) :
    other = keyId ∧ entry = ⟨secretDigest, principal, now⟩ ∨ cache other = some entry := by
  by_cases same : other = keyId
  · subst same
    left
    exact ⟨rfl, by simpa [put, eq_comm] using held⟩
  · right
    simpa [put, Function.update_of_ne same] using held

theorem live_update (entry : Option CachedVerification) :
    live ttlSeconds now (Function.update cache keyId entry) =
      Function.update (cache.live ttlSeconds now) keyId (entry.filter fun e => ¬ now - e.cachedAt > ttlSeconds) := by
  funext other
  by_cases same : other = keyId
  · subst same
    simp only [live, Function.update_self]
  · simp only [live, Function.update_of_ne same]

/-- What can be answered later can be answered now. -/
theorem live_live {later : ℚ} (forward : now ≤ later) :
    live ttlSeconds later (cache.live ttlSeconds now) = cache.live ttlSeconds later := by
  funext keyId
  cases held : cache keyId with
  | none => simp only [live, held, Option.filter_none]
  | some entry =>
    by_cases expired : now - entry.cachedAt > ttlSeconds
    · have still : later - entry.cachedAt > ttlSeconds := lt_of_lt_of_le expired (sub_le_sub_right forward _)
      simp only [live, held, Option.filter_some, expired, still, not_true, decide_false]
      rfl
    · simp only [live, held, Option.filter_some, expired, not_false_iff, decide_true, if_pos]

/-- A lookup answers from what can be answered. -/
theorem get_fst_congr {other : VerificationCache} (same : cache.live ttlSeconds now = other.live ttlSeconds now) :
    (cache.get ttlSeconds now keyId secretDigest).1 = (other.get ttlSeconds now keyId secretDigest).1 := by
  apply Option.ext
  intro principal
  rw [get_fst_eq_some_iff, get_fst_eq_some_iff, same]

theorem held_of_invalidate {other : String} {entry : CachedVerification}
    (held : cache.invalidate keyId other = some entry) : cache other = some entry := by
  by_cases same : other = keyId
  · subst same
    simp [invalidate] at held
  · simpa [invalidate, Function.update_of_ne same] using held

end VerificationCache

/-- `_extract_bearer_token`, on the value of the `Authorization` header. -/
def extractBearerToken : Option String → Option String
  | none => none
  | some headerValue =>
    if headerValue = "" ∨ ¬ "Bearer ".toList.isPrefixOf headerValue.toList then none
    else some (String.ofList (headerValue.toList.drop "Bearer ".length))

/-- A presented key that is well formed, with its halves. -/
structure PresentedKey where
  presentedKey : String
  parsed : ParsedApiKey
  wellFormed : parseSplitToken presentedKey = some parsed

namespace RequireApiKey

/-- `HTTPException(401)` -/
def unauthorized (detail : String) : HttpException := ⟨401, none, detail, []⟩

/-- Where a call stands between its awaits. -/
inductive Phase where
  | missed (presented : PresentedKey)
  | selected (presented : PresentedKey) (record : Option ApiKeyRecord)
  | answered (result : Except HttpException AuthenticatedPrincipal) (answeredAt : ℚ)
  | interrupted

/-- A call of the guard, with the header it was given. -/
structure Call where
  header : Option String
  startedAt : ℚ
  phase : Phase

/-- The answer of a call, where there is one. -/
def Call.answer (call : Call) : Option (Except HttpException AuthenticatedPrincipal × ℚ) :=
  match call.phase with
  | .answered result answeredAt => some (result, answeredAt)
  | _ => none

/-- The process's clock and cache, the committed rows of `api_keys`, and the calls so far. -/
structure State where
  clock : ℚ
  apiKeys : List ApiKeyRecord
  cache : VerificationCache
  calls : ℕ → Option Call

/-- One scheduling decision, or what happens to the guard from outside. -/
inductive Action where
  | start (call : ℕ) (header : Option String)
  | select (call : ℕ)
  | verify (call : ℕ)
  | interrupt (call : ℕ)
  | invalidate (keyId : String)
  | revoke (keyId : String)
  | rewrite (apiKeys : List ApiKeyRecord)
  | tick (elapsed : ℚ)

/-- A process that has just started. -/
def init (apiKeys : List ApiKeyRecord) : State := ⟨0, apiKeys, fun _ => none, fun _ => none⟩

/-- From the start of a call to the cache lookup. -/
def lookup (crypto : Crypto) (ttlSeconds : ℤ) (now : ℚ) (cache : VerificationCache) (header : Option String) :
    Phase × VerificationCache :=
  match extractBearerToken header with
  | none => (.answered (.error (unauthorized "authentication required")) now, cache)
  | some presentedKey =>
    match wellFormed : parseSplitToken presentedKey with
    | none => (.answered (.error (unauthorized "invalid API key")) now, cache)
    | some parsed =>
      match cache.get ttlSeconds now parsed.keyId (crypto.sha256Digest presentedKey) with
      | (some principal, cache) => (.answered (.ok principal) now, cache)
      | (none, cache) => (.missed ⟨presentedKey, parsed, wellFormed⟩, cache)

/-- From the row to the answer. -/
def conclude (crypto : Crypto) (now : ℚ) (cache : VerificationCache) (presented : PresentedKey)
    (record : Option ApiKeyRecord) : Phase × VerificationCache :=
  match verifyRecord crypto presented.parsed record with
  | none => (.answered (.error (unauthorized "invalid API key")) now, cache)
  | some principal =>
    (.answered (.ok principal) now,
      cache.put now presented.parsed.keyId (crypto.sha256Digest presented.presentedKey) principal)

/-- Put a call in its new place. -/
def State.record (s : State) (id : ℕ) (call : Call) (cache : VerificationCache) : State :=
  { s with cache := cache, calls := Function.update s.calls id (some call) }

@[simp] theorem State.calls_record_self (s : State) (id : ℕ) (call : Call) (cache : VerificationCache) :
    (s.record id call cache).calls id = some call := Function.update_self ..

theorem State.calls_record_of_ne (s : State) {id other : ℕ} (different : other ≠ id) (call : Call)
    (cache : VerificationCache) : (s.record id call cache).calls other = s.calls other :=
  Function.update_of_ne different ..

/-- A place is the one that was put, or it is another call's and was there before. -/
theorem State.calls_record_cases {s : State} {id other : ℕ} {call there : Call} {cache : VerificationCache}
    (place : (s.record id call cache).calls other = some there) :
    other = id ∧ there = call ∨ other ≠ id ∧ s.calls other = some there := by
  by_cases own : other = id
  · subst own
    rw [calls_record_self] at place
    exact .inl ⟨rfl, (Option.some.inj place).symm⟩
  · rw [calls_record_of_ne s own] at place
    exact .inr ⟨own, place⟩

/-- Execute one action, if it is enabled. -/
def step (crypto : Crypto) (ttlSeconds : ℤ) (s : State) : Action → Option State
  | .start id header =>
    match s.calls id with
    | none =>
      let (phase, cache) := lookup crypto ttlSeconds s.clock s.cache header
      some (s.record id ⟨header, s.clock, phase⟩ cache)
    | some _ => none
  | .select id =>
    match s.calls id with
    | some ⟨header, startedAt, .missed presented⟩ =>
      some (s.record id ⟨header, startedAt,
        .selected presented (findActiveKeyByKeyId s.apiKeys presented.parsed.keyId)⟩ s.cache)
    | _ => none
  | .verify id =>
    match s.calls id with
    | some ⟨header, startedAt, .selected presented record⟩ =>
      let (phase, cache) := conclude crypto s.clock s.cache presented record
      some (s.record id ⟨header, startedAt, phase⟩ cache)
    | _ => none
  | .interrupt id =>
    match s.calls id with
    | some ⟨header, startedAt, .missed _⟩ | some ⟨header, startedAt, .selected _ _⟩ =>
      some (s.record id ⟨header, startedAt, .interrupted⟩ s.cache)
    | _ => none
  | .invalidate keyId => some { s with cache := s.cache.invalidate keyId }
  | .revoke keyId => some { s with apiKeys := revokeKey s.clock keyId s.apiKeys }
  | .rewrite apiKeys => some { s with apiKeys := apiKeys }
  | .tick elapsed => if 0 ≤ elapsed then some { s with clock := s.clock + elapsed } else none

variable {crypto : Crypto} {ttlSeconds : ℤ}

/-- What a lookup can come to. -/
inductive LookedUp (crypto : Crypto) (ttlSeconds : ℤ) (now : ℚ) (cache : VerificationCache) (header : Option String) :
    Phase → VerificationCache → Prop
  | noToken (missing : extractBearerToken header = none) :
      LookedUp crypto ttlSeconds now cache header
        (.answered (.error (unauthorized "authentication required")) now) cache
  | malformed {presentedKey : String} (token : extractBearerToken header = some presentedKey)
      (bad : parseSplitToken presentedKey = none) :
      LookedUp crypto ttlSeconds now cache header (.answered (.error (unauthorized "invalid API key")) now) cache
  | hit {presented : PresentedKey} {entry : CachedVerification}
      (token : extractBearerToken header = some presented.presentedKey)
      (live : cache.live ttlSeconds now presented.parsed.keyId = some entry)
      (matching : crypto.sha256Digest presented.presentedKey = entry.secretDigest) :
      LookedUp crypto ttlSeconds now cache header (.answered (.ok entry.principal) now)
        (cache.get ttlSeconds now presented.parsed.keyId (crypto.sha256Digest presented.presentedKey)).2
  | miss {presented : PresentedKey} (token : extractBearerToken header = some presented.presentedKey)
      (nothing : (cache.get ttlSeconds now presented.parsed.keyId
        (crypto.sha256Digest presented.presentedKey)).1 = none) :
      LookedUp crypto ttlSeconds now cache header (.missed presented)
        (cache.get ttlSeconds now presented.parsed.keyId (crypto.sha256Digest presented.presentedKey)).2

theorem lookedUp_lookup (now : ℚ) (cache : VerificationCache) (header : Option String) :
    LookedUp crypto ttlSeconds now cache header (lookup crypto ttlSeconds now cache header).1
      (lookup crypto ttlSeconds now cache header).2 := by
  unfold lookup
  split
  · next missing => exact .noToken missing
  · next presentedKey token =>
    split
    · next bad => exact .malformed token bad
    · next parsed wellFormed =>
      split
      · next principal after found =>
        obtain ⟨entry, live, matching, rfl⟩ := VerificationCache.get_fst_eq_some_iff.mp (congrArg Prod.fst found)
        rw [show after = _ from (congrArg Prod.snd found).symm]
        obtain ⟨presented, rfl, rfl⟩ : ∃ presented : PresentedKey, presented.presentedKey = presentedKey ∧
          presented.parsed = parsed := ⟨⟨_, _, wellFormed⟩, rfl, rfl⟩
        exact .hit token live matching
      · next after nothing =>
        rw [show after = _ from (congrArg Prod.snd nothing).symm]
        exact .miss token (congrArg Prod.fst nothing)

/-- A lookup keeps what can still be answered. -/
theorem LookedUp.live {now : ℚ} {cache after : VerificationCache} {header : Option String} {phase : Phase}
    (looked : LookedUp crypto ttlSeconds now cache header phase after) :
    after.live ttlSeconds now = cache.live ttlSeconds now := by
  cases looked with
  | noToken | malformed => rfl
  | hit | miss => exact VerificationCache.live_get

/-- The entries after a lookup were there before. -/
theorem LookedUp.held {now : ℚ} {cache after : VerificationCache} {header : Option String} {phase : Phase}
    (looked : LookedUp crypto ttlSeconds now cache header phase after) {keyId : String} {entry : CachedVerification}
    (held : after keyId = some entry) : cache keyId = some entry := by
  cases looked with
  | noToken | malformed => exact held
  | hit | miss => exact VerificationCache.held_of_get held

/-- What a lookup comes to depends on what can be answered. -/
theorem lookup_fst_congr {now : ℚ} {cache other : VerificationCache}
    (same : cache.live ttlSeconds now = other.live ttlSeconds now) (header : Option String) :
    (lookup crypto ttlSeconds now cache header).1 = (lookup crypto ttlSeconds now other header).1 := by
  unfold lookup
  split
  · rfl
  · next presentedKey token =>
    split
    · rfl
    · next parsed wellFormed =>
      have found : (cache.get ttlSeconds now parsed.keyId (crypto.sha256Digest presentedKey)).1 =
          (other.get ttlSeconds now parsed.keyId (crypto.sha256Digest presentedKey)).1 :=
        VerificationCache.get_fst_congr same
      split <;> split <;> simp_all

/-- What the check of the row can come to. -/
inductive Concluded (crypto : Crypto) (now : ℚ) (cache : VerificationCache) (presented : PresentedKey)
    (record : Option ApiKeyRecord) : Phase → VerificationCache → Prop
  | refused (wrong : verifyRecord crypto presented.parsed record = none) :
      Concluded crypto now cache presented record (.answered (.error (unauthorized "invalid API key")) now) cache
  | verified {principal : AuthenticatedPrincipal}
      (right : verifyRecord crypto presented.parsed record = some principal) :
      Concluded crypto now cache presented record (.answered (.ok principal) now)
        (cache.put now presented.parsed.keyId (crypto.sha256Digest presented.presentedKey) principal)

theorem concluded_conclude (now : ℚ) (cache : VerificationCache) (presented : PresentedKey)
    (record : Option ApiKeyRecord) : Concluded crypto now cache presented record
      (conclude crypto now cache presented record).1 (conclude crypto now cache presented record).2 := by
  unfold conclude
  split
  · next wrong => exact .refused wrong
  · next principal right => exact .verified right

/-- The entries after a check were there before, or it has just put one for its key. -/
theorem Concluded.held {now : ℚ} {cache after : VerificationCache} {presented : PresentedKey}
    {record : Option ApiKeyRecord} {phase : Phase} (concluded : Concluded crypto now cache presented record phase after)
    {keyId : String} {entry : CachedVerification} (held : after keyId = some entry) : cache keyId = some entry ∨
      keyId = presented.parsed.keyId ∧ ∃ principal, verifyRecord crypto presented.parsed record = some principal ∧
        entry = ⟨crypto.sha256Digest presented.presentedKey, principal, now⟩ := by
  cases concluded with
  | refused => exact .inl held
  | verified right =>
    rcases VerificationCache.held_of_put held with ⟨same, put⟩ | before
    · exact .inr ⟨same, _, right, put⟩
    · exact .inl before

/-- The call waits at one of its awaits. -/
def Phase.isWaiting : Phase → Bool
  | .missed _ | .selected _ _ => true
  | .answered _ _ | .interrupted => false

/-- What one action does to the state. -/
inductive Stepped (crypto : Crypto) (ttlSeconds : ℤ) (s : State) : Action → State → Prop
  | start {id : ℕ} {header : Option String} {phase : Phase} {cache : VerificationCache} (fresh : s.calls id = none)
      (looked : LookedUp crypto ttlSeconds s.clock s.cache header phase cache) :
      Stepped crypto ttlSeconds s (.start id header) (s.record id ⟨header, s.clock, phase⟩ cache)
  | select {id : ℕ} {header : Option String} {startedAt : ℚ} {presented : PresentedKey}
      (waiting : s.calls id = some ⟨header, startedAt, .missed presented⟩) :
      Stepped crypto ttlSeconds s (.select id) (s.record id ⟨header, startedAt,
        .selected presented (findActiveKeyByKeyId s.apiKeys presented.parsed.keyId)⟩ s.cache)
  | verify {id : ℕ} {header : Option String} {startedAt : ℚ} {presented : PresentedKey}
      {record : Option ApiKeyRecord} {phase : Phase} {cache : VerificationCache}
      (waiting : s.calls id = some ⟨header, startedAt, .selected presented record⟩)
      (concluded : Concluded crypto s.clock s.cache presented record phase cache) :
      Stepped crypto ttlSeconds s (.verify id) (s.record id ⟨header, startedAt, phase⟩ cache)
  | interrupt {id : ℕ} {call : Call} (running : s.calls id = some call) (waiting : call.phase.isWaiting) :
      Stepped crypto ttlSeconds s (.interrupt id) (s.record id { call with phase := .interrupted } s.cache)
  | invalidate {keyId : String} :
      Stepped crypto ttlSeconds s (.invalidate keyId) { s with cache := s.cache.invalidate keyId }
  | revoke {keyId : String} :
      Stepped crypto ttlSeconds s (.revoke keyId) { s with apiKeys := revokeKey s.clock keyId s.apiKeys }
  | rewrite {apiKeys : List ApiKeyRecord} :
      Stepped crypto ttlSeconds s (.rewrite apiKeys) { s with apiKeys := apiKeys }
  | tick {elapsed : ℚ} (forward : 0 ≤ elapsed) :
      Stepped crypto ttlSeconds s (.tick elapsed) { s with clock := s.clock + elapsed }

theorem stepped_of_step {s next : State} {a : Action} (steps : step crypto ttlSeconds s a = some next) : Stepped crypto ttlSeconds s a next := by
  cases a with
  | start id header =>
    simp only [step] at steps
    split at steps
    · next fresh =>
      obtain rfl := Option.some.inj steps
      exact .start fresh (lookedUp_lookup ..)
    · contradiction
  | select id =>
    simp only [step] at steps
    split at steps
    · next header startedAt presented waiting =>
      obtain rfl := Option.some.inj steps
      exact .select waiting
    · contradiction
  | verify id =>
    simp only [step] at steps
    split at steps
    · next header startedAt presented record waiting =>
      obtain rfl := Option.some.inj steps
      exact .verify waiting (concluded_conclude ..)
    · contradiction
  | interrupt id =>
    simp only [step] at steps
    split at steps
    · next header startedAt presented running =>
      obtain rfl := Option.some.inj steps
      exact .interrupt running rfl
    · next header startedAt presented record running =>
      obtain rfl := Option.some.inj steps
      exact .interrupt running rfl
    · contradiction
  | invalidate keyId =>
    obtain rfl := Option.some.inj steps
    exact .invalidate
  | revoke keyId =>
    obtain rfl := Option.some.inj steps
    exact .revoke
  | rewrite apiKeys =>
    obtain rfl := Option.some.inj steps
    exact .rewrite
  | tick elapsed =>
    simp only [step] at steps
    split_ifs at steps with forward
    obtain rfl := Option.some.inj steps
    exact .tick forward

/-- One call across an action: it is left alone, started, or moved on from one of its awaits. -/
theorem Stepped.call_cases {s next : State} {a : Action} (steps : Stepped crypto ttlSeconds s a next) (id : ℕ) :
    next.calls id = s.calls id ∨ s.calls id = none ∨
      ∃ before after, s.calls id = some before ∧ before.phase.isWaiting ∧ next.calls id = some after ∧
        (after.phase.isWaiting ∨ a = .verify id ∨ a = .interrupt id) := by
  cases steps with
  | @start mover _ _ _ fresh _ =>
    by_cases own : id = mover
    · exact .inr (.inl (own ▸ fresh))
    · exact .inl (State.calls_record_of_ne s own ..)
  | @select mover _ _ _ waiting =>
    by_cases own : id = mover
    · subst own
      exact .inr (.inr ⟨_, _, waiting, rfl, State.calls_record_self .., .inl rfl⟩)
    · exact .inl (State.calls_record_of_ne s own ..)
  | @verify mover _ _ _ _ _ _ waiting _ =>
    by_cases own : id = mover
    · subst own
      exact .inr (.inr ⟨_, _, waiting, rfl, State.calls_record_self .., .inr (.inl rfl)⟩)
    · exact .inl (State.calls_record_of_ne s own ..)
  | @interrupt mover _ running waiting =>
    by_cases own : id = mover
    · subst own
      exact .inr (.inr ⟨_, _, running, waiting, State.calls_record_self .., .inr (.inr rfl)⟩)
    · exact .inl (State.calls_record_of_ne s own ..)
  | invalidate | revoke | rewrite | tick => exact .inl rfl

/-- A call that is there after an action was there before with the same header, or it has just been started. -/
theorem Stepped.header_cases {s next : State} {a : Action} (steps : Stepped crypto ttlSeconds s a next) {id : ℕ}
    {after : Call} (there : next.calls id = some after) : s.calls id = none ∧ a = .start id after.header ∨
      ∃ before, s.calls id = some before ∧ before.header = after.header := by
  cases steps with
  | start fresh looked =>
    rcases State.calls_record_cases there with ⟨rfl, rfl⟩ | ⟨-, before⟩
    · exact .inl ⟨fresh, rfl⟩
    · exact .inr ⟨after, before, rfl⟩
  | select waiting | verify waiting | interrupt waiting =>
    rcases State.calls_record_cases there with ⟨rfl, rfl⟩ | ⟨-, before⟩
    · exact .inr ⟨_, waiting, rfl⟩
    · exact .inr ⟨after, before, rfl⟩
  | invalidate | revoke | rewrite | tick => exact .inr ⟨after, there, rfl⟩

/-- What a call was answered stays. -/
theorem Stepped.calls_of_answered {s next : State} {a : Action} (steps : Stepped crypto ttlSeconds s a next) {id : ℕ}
    {call : Call} (there : s.calls id = some call) (answered : call.phase.isWaiting = false) :
    next.calls id = some call := by
  rcases steps.call_cases id with same | fresh | ⟨before, after, place, waiting, -⟩
  · exact same.trans there
  · rw [fresh] at there
    contradiction
  · obtain rfl := Option.some.inj (place.symm.trans there)
    rw [answered] at waiting
    contradiction

end RequireApiKey

end Meterly
