import Mathlib.Data.Rat.Floor
import Meterly.Machine.Run
import Meterly.Model.Schema

/-! # The Redis token bucket

`RedisTokenBucketLimiter.check` reads the clock of its task and then sends a script to Redis, which
executes the scripts of all tasks one after another. The script refills the bucket for the time
since its last execution, takes the cost if it is there, and stores the stamp it was sent with.
Between the clock and the script lies the network, so scripts are executed in any order of their
stamps. Numbers are exact rationals.
-/

namespace Meterly

/-- The hash that Redis keeps for a bucket. -/
structure Bucket where
  tokens : ℚ
  updatedAt : ℤ
deriving DecidableEq, Repr

/-- What the script replies. A Lua quotient by zero is not finite and has no integer. -/
structure BucketReply where
  allowed : ℕ
  tokens : ℚ
  retryAfterMs : Option ℤ
deriving DecidableEq, Repr

/-- `_TOKEN_BUCKET_LUA` on the hash under the bucket's key, if there is one. -/
def tokenBucketLua (capacity refillRate : ℚ) (nowMs : ℤ) (cost : ℚ) (bucket : Option Bucket) :
    Bucket × BucketReply :=
  let stored := bucket.getD ⟨capacity, nowMs⟩
  let elapsedSeconds := max 0 (((nowMs - stored.updatedAt : ℤ) : ℚ) / 1000)
  let tokens := min capacity (stored.tokens + elapsedSeconds * refillRate)
  if cost ≤ tokens then (⟨tokens - cost, nowMs⟩, ⟨1, tokens - cost, some 0⟩)
  else
    let deficit := cost - tokens
    let retryAfterMs := if refillRate = 0 then none else some ⌈deficit / refillRate * 1000⌉
    (⟨tokens, nowMs⟩, ⟨0, tokens, retryAfterMs⟩)

/-- `RateLimitDecision` -/
structure RateLimitDecision where
  allowed : Bool
  retryAfterSeconds : ℚ
deriving DecidableEq, Repr

/-- What `check` makes of the reply; `notFinite` is the integer Redis gives for an infinite number. -/
def RateLimitDecision.ofReply (notFinite : ℤ) (reply : BucketReply) : RateLimitDecision where
  allowed := reply.allowed ≠ 0
  retryAfterSeconds := reply.retryAfterMs.getD notFinite / 1000

/-- `int` of a number: the part before the point. -/
def truncate (x : ℚ) : ℤ := if 0 ≤ x then ⌊x⌋ else ⌈x⌉

/-- `enforce_tier2_rate_limit`, given what `check` returned, or nothing where it raised. -/
def enforceTier2RateLimit : Option RateLimitDecision → Except HttpException Unit
  | none => .ok ()
  | some decision =>
    if decision.allowed then .ok ()
    else
      let seconds := truncate decision.retryAfterSeconds
      .error ⟨429, none, "rate limit exceeded", [("Retry-After", toString (max 1 (if seconds = 0 then 1 else seconds)))]⟩

/-- A request is refused only by a decision of the script: a failure of Redis lets it pass. -/
theorem enforceTier2RateLimit_error_iff (decision : Option RateLimitDecision) :
    (∃ exception, enforceTier2RateLimit decision = .error exception) ↔ ∃ d ∈ decision, d.allowed = false := by
  cases decision with
  | none => simp [enforceTier2RateLimit]
  | some d => cases allowed : d.allowed <;> simp [enforceTier2RateLimit, allowed]

namespace TokenBucket

/-- Checks of cost one on one bucket: a caller sends a script with the stamp it has read, and Redis
executes one that is under way. -/
inductive Action where
  | send (nowMs : ℤ)
  | execute (nowMs : ℤ)
deriving DecidableEq, Repr

/-- The bucket, the stamps of the scripts under way, and the replies so far. -/
structure State where
  bucket : Option Bucket
  inFlight : List ℤ
  replies : List BucketReply
deriving DecidableEq, Repr

/-- A bucket that was never used. -/
def init : State := ⟨none, [], []⟩

/-- Execute one action, if it is enabled. -/
def step (capacity : ℤ) (refillRate : ℚ) (s : State) : Action → Option State
  | .send nowMs => some { s with inFlight := nowMs :: s.inFlight }
  | .execute nowMs =>
    if nowMs ∈ s.inFlight then
      let (bucket, reply) := tokenBucketLua capacity refillRate nowMs 1 s.bucket
      some ⟨some bucket, s.inFlight.erase nowMs, s.replies ++ [reply]⟩
    else none

/-- The stamps of the executed scripts, in the order of execution. -/
def executed (schedule : List Action) : List ℤ :=
  schedule.filterMap fun
    | .send _ => none
    | .execute nowMs => some nowMs

/-- The number of checks that were allowed. -/
def State.allowed (s : State) : ℕ := s.replies.countP (·.allowed ≠ 0)

end TokenBucket

end Meterly
