import Mathlib
import Meterly.Auth.ExpiringBucket
import Meterly.Num.Binary64

/-! # What a throttled client is told

The bucket of a principal holds and refills as many tokens as its key allows a second. Lua computes in binary64,
and Redis stores a number with as many digits as it takes to read the same number back. With a budget of two or
more a second, whoever is refused is told to wait a second, and has a token then. With a budget of one this is so
for whoever keeps silent; each request that is refused in the meantime stores tokens that were rounded anew, and
after a second there may be a little less than one. Nothing checks the budget of a key: with none the script
divides by zero, and with a negative one it never allows anything and still says when to come back.
-/

namespace Meterly

/-- `_TOKEN_BUCKET_LUA`, with a rounding behind every operation that needs one. -/
def tokenBucketLuaRounded (round : ℚ → ℚ) (capacity refillRate : ℚ) (nowMs : ℤ) (cost : ℚ) (bucket : Option Bucket) :
    Bucket × BucketReply :=
  let stored := bucket.getD ⟨capacity, nowMs⟩
  let elapsedSeconds := max 0 (round (round ((nowMs - stored.updatedAt : ℤ) : ℚ) / 1000))
  let tokens := min capacity (round (stored.tokens + round (elapsedSeconds * refillRate)))
  if cost ≤ tokens then
    let remaining := round (tokens - cost)
    (⟨remaining, nowMs⟩, ⟨1, remaining, some 0⟩)
  else
    let deficit := round (cost - tokens)
    let retryAfterMs := if refillRate = 0 then none else some ⌈round (round (deficit / refillRate) * 1000)⌉
    (⟨tokens, nowMs⟩, ⟨0, tokens, retryAfterMs⟩)

/-- Where nothing is rounded the script is the exact one. -/
theorem tokenBucketLuaRounded_id : tokenBucketLuaRounded id = tokenBucketLua := rfl

/-- What `check` makes of the reply: the quotient is a `float`, and its nearest number of three places is read as
the same `float`. -/
def RateLimitDecision.ofReplyRounded (notFinite : ℤ) (reply : BucketReply) : RateLimitDecision where
  allowed := reply.allowed ≠ 0
  retryAfterSeconds := Binary64.round (reply.retryAfterMs.getD notFinite / 1000)

/-- The seconds a client reads in a `Retry-After` header. -/
def HttpException.retryAfter (exception : HttpException) : Option ℤ :=
  (exception.headers.lookup "Retry-After").bind String.toInt?

namespace ExpiringBucket

/-- The tokens of a bucket some milliseconds after the last script. -/
def refilled (rate tokens : ℚ) (elapsedMs : ℤ) : ℚ :=
  min rate (Binary64.round (tokens + Binary64.round (max 0 (Binary64.round (Binary64.round elapsedMs / 1000)) * rate)))

/-! ## Refilling -/

section Refilled

variable {rate tokens : ℚ} {elapsedMs : ℤ}

theorem round_thousand : Binary64.round ((1000 : ℤ) : ℚ) = (1000 : ℤ) :=
  Binary64.round_intCast_of_lt (by decide) (by decide)

theorem refilled_le : refilled rate tokens elapsedMs ≤ rate := min_le_left ..

theorem refilled_nonneg (room : 0 ≤ rate) (filled : 0 ≤ tokens) : 0 ≤ refilled rate tokens elapsedMs := by
  have gained : 0 ≤ Binary64.round (max 0 (Binary64.round (Binary64.round elapsedMs / 1000)) * rate) :=
    Binary64.round_nonneg (mul_nonneg (le_max_left ..) room)
  exact le_min room (Binary64.round_nonneg (add_nonneg filled gained))

theorem round_refilled (number : Binary64.round rate = rate) :
    Binary64.round (refilled rate tokens elapsedMs) = refilled rate tokens elapsedMs := by
  rw [refilled]
  rcases min_choice rate (Binary64.round (tokens +
    Binary64.round (max 0 (Binary64.round (Binary64.round elapsedMs / 1000)) * rate))) with same | same
  · rw [same, number]
  · rw [same, Binary64.round_round]

/-- Within the same millisecond nothing is added, and nothing is lost. -/
theorem refilled_zero (stored : Binary64.round tokens = tokens) : refilled rate tokens 0 = min rate tokens := by
  rw [refilled, Int.cast_zero, Binary64.round_zero, zero_div, Binary64.round_zero, max_self, zero_mul,
    Binary64.round_zero, add_zero, stored]

/-- With one token a second or more there is one after a second. -/
theorem one_le_refilled (budget : 1 ≤ rate) (filled : 0 ≤ tokens) (second : 1000 ≤ elapsedMs) :
    1 ≤ refilled rate tokens elapsedMs := by
  have elapsed : (1000 : ℚ) ≤ Binary64.round elapsedMs := by
    have le := Binary64.round_mono (Int.cast_le.mpr second)
    rw [round_thousand] at le
    exact_mod_cast le
  have seconds : 1 ≤ Binary64.round (Binary64.round elapsedMs / 1000) := by
    apply Binary64.one_le_round
    linarith
  have gained : 1 ≤ Binary64.round (max 0 (Binary64.round (Binary64.round elapsedMs / 1000)) * rate) := by
    apply Binary64.one_le_round
    have product : 1 * 1 ≤ max 0 (Binary64.round (Binary64.round elapsedMs / 1000)) * rate :=
      mul_le_mul (seconds.trans (le_max_right ..)) budget zero_le_one (le_max_left ..)
    linarith
  apply le_min budget
  apply Binary64.one_le_round
  linarith

/-- What a short time adds is a token, or it is twice the time as near as the two roundings leave it. -/
theorem one_le_gained_or {seconds : ℚ} (budget : 2 ≤ rate) (nonneg : 0 ≤ seconds) (short : seconds < 1) :
    1 ≤ Binary64.round (Binary64.round seconds * rate) ∨
      2 * seconds - 3 * (1 / 2 ^ 53) ≤ Binary64.round (Binary64.round seconds * rate) := by
  have close := abs_le.mp (Binary64.abs_round_sub_le_of_lt_two nonneg (short.trans one_lt_two))
  have rounded : 0 ≤ Binary64.round seconds := Binary64.round_nonneg nonneg
  rcases le_or_gt 1 (Binary64.round seconds * rate) with full | notFull
  · exact .inl (Binary64.one_le_round full)
  · right
    have doubled : Binary64.round seconds * 2 ≤ Binary64.round seconds * rate :=
      mul_le_mul_of_nonneg_left budget rounded
    have gained := abs_le.mp (Binary64.abs_round_sub_le_of_lt_two (mul_nonneg rounded (by linarith))
      (notFull.trans one_lt_two))
    linarith [close.1, gained.1]

/-- With two tokens a second or more, what is added outweighs what rounding takes away, until there is a token. -/
theorem one_le_refilled_or (budget : 2 ≤ rate) (filled : 0 ≤ tokens) (stored : Binary64.round tokens = tokens)
    (ahead : 0 ≤ elapsedMs) :
    1 ≤ refilled rate tokens elapsedMs ∨ tokens + elapsedMs / 1000 ≤ refilled rate tokens elapsedMs := by
  rcases ahead.eq_or_lt with rfl | positive
  · rw [refilled_zero stored]
    rcases min_choice rate tokens with same | same <;> rw [same]
    · left
      linarith
    · right
      simp
  rcases lt_or_ge elapsedMs 1000 with short | second
  · have step : (1 : ℚ) / 1000 ≤ elapsedMs / 1000 := by
      have one : (1 : ℚ) ≤ elapsedMs := by exact_mod_cast positive
      linarith
    have below : (elapsedMs : ℚ) / 1000 < 1 := by
      have thousand : (elapsedMs : ℚ) < 1000 := by exact_mod_cast short
      linarith
    have nonneg : (0 : ℚ) ≤ elapsedMs / 1000 := by linarith
    have gain := one_le_gained_or budget nonneg below
    rw [refilled, Binary64.round_intCast_of_lt ahead (by omega), max_eq_right (Binary64.round_nonneg nonneg)]
    obtain ⟨gained, named⟩ : ∃ gained, Binary64.round (Binary64.round (elapsedMs / 1000) * rate) = gained := ⟨_, rfl⟩
    rw [named] at gain ⊢
    rcases le_or_gt 1 (tokens + gained) with full | notFull
    · left
      exact le_min (by linarith) (Binary64.one_le_round full)
    · right
      have more : 2 * (elapsedMs / 1000 : ℚ) - 3 * (1 / 2 ^ 53) ≤ gained := gain.resolve_left (by linarith)
      have small : (4 : ℚ) * (1 / 2 ^ 53) ≤ 1 / 1000 := by norm_num
      have close := abs_le.mp (Binary64.abs_round_sub_le_of_lt_two (by linarith) (notFull.trans one_lt_two))
      have sum : tokens + elapsedMs / 1000 ≤ Binary64.round (tokens + gained) := by linarith [close.1]
      have atMost := Binary64.round_le_one notFull.le
      exact le_min (by linarith) sum
  · exact .inl (one_le_refilled (by linarith) filled second)

end Refilled

/-! ## Steps -/

/-- The level that a check finds. -/
def State.level (rate : ℚ) (s : State) (nowMs : ℤ) : ℚ :=
  let stored := s.bucket.getD ⟨rate, nowMs⟩
  refilled rate stored.tokens (nowMs - stored.updatedAt)

/-- Execute one action in binary64, if it is enabled. A stamp is the whole part of a `float`, so it is in the format. -/
def stepRounded (rateLimitPerSec : ℤ) (s : State) : Action → Option State
  | .check nowMs =>
    if s.clock ≤ nowMs ∧ Binary64.round nowMs = nowMs then
      let rate := Binary64.round rateLimitPerSec
      let (bucket, reply) := tokenBucketLuaRounded Binary64.round rate rate nowMs 1 s.bucket
      some ⟨nowMs, some bucket, nowMs + pexpireMs, s.replies ++ [reply]⟩
    else none
  | .expire nowMs =>
    if s.clock ≤ nowMs ∧ s.expiresAt ≤ nowMs then some { s with clock := nowMs, bucket := none } else none

/-- What one action does. -/
inductive Rounded (rate : ℚ) (s : State) : Action → State → Prop
  | allows {nowMs : ℤ} (ahead : s.clock ≤ nowMs) (found : 1 ≤ s.level rate nowMs) :
      Rounded rate s (.check nowMs) ⟨nowMs, some ⟨Binary64.round (s.level rate nowMs - 1), nowMs⟩, nowMs + pexpireMs,
        s.replies ++ [⟨1, Binary64.round (s.level rate nowMs - 1), some 0⟩]⟩
  | refuses {nowMs : ℤ} (ahead : s.clock ≤ nowMs) (short : s.level rate nowMs < 1) :
      Rounded rate s (.check nowMs) ⟨nowMs, some ⟨s.level rate nowMs, nowMs⟩, nowMs + pexpireMs,
        s.replies ++ [⟨0, s.level rate nowMs, if rate = 0 then none else
          some ⌈Binary64.round (Binary64.round (Binary64.round (1 - s.level rate nowMs) / rate) * 1000)⌉⟩]⟩
  | expires {nowMs : ℤ} (ahead : s.clock ≤ nowMs) :
      Rounded rate s (.expire nowMs) { s with clock := nowMs, bucket := none }

section Steps

variable {rateLimitPerSec : ℤ} {rate : ℚ} {s t : State} {a : Action} {nowMs : ℤ}

/-- The script decides by the level, and stores what is left of it. -/
theorem tokenBucketLuaRounded_level : tokenBucketLuaRounded Binary64.round rate rate nowMs 1 s.bucket =
    if 1 ≤ s.level rate nowMs then (⟨Binary64.round (s.level rate nowMs - 1), nowMs⟩,
      ⟨1, Binary64.round (s.level rate nowMs - 1), some 0⟩)
    else (⟨s.level rate nowMs, nowMs⟩, ⟨0, s.level rate nowMs, if rate = 0 then none else
      some ⌈Binary64.round (Binary64.round (Binary64.round (1 - s.level rate nowMs) / rate) * 1000)⌉⟩) := rfl

theorem rounded_of_stepRounded (steps : stepRounded rateLimitPerSec s a = some t) :
    Rounded (Binary64.round rateLimitPerSec) s a t := by
  cases a with
  | check nowMs =>
    simp only [stepRounded] at steps
    split_ifs at steps with enabled
    rw [tokenBucketLuaRounded_level] at steps
    by_cases found : 1 ≤ s.level (Binary64.round rateLimitPerSec) nowMs
    · rw [if_pos found] at steps
      obtain rfl := Option.some.inj steps
      exact .allows enabled.1 found
    · rw [if_neg found] at steps
      obtain rfl := Option.some.inj steps
      exact .refuses enabled.1 (not_le.mp found)
  | expire nowMs =>
    simp only [stepRounded] at steps
    split_ifs at steps with due
    obtain rfl := Option.some.inj steps
    exact .expires due.1

/-- Stored tokens are not negative and in the format, under a stamp that is not ahead of the clock. -/
structure Kept (s : State) : Prop where
  filled : ∀ stored ∈ s.bucket, 0 ≤ stored.tokens
  number : ∀ stored ∈ s.bucket, Binary64.round stored.tokens = stored.tokens
  stamp : ∀ stored ∈ s.bucket, stored.updatedAt ≤ s.clock

theorem Kept.init (start : ℤ) : Kept (init start) where
  filled stored held := by contradiction
  number stored held := by contradiction
  stamp stored held := by contradiction

theorem level_le : s.level rate nowMs ≤ rate := refilled_le

theorem level_nonneg (room : 0 ≤ rate) (kept : Kept s) : 0 ≤ s.level rate nowMs := by
  apply refilled_nonneg room
  cases held : s.bucket with
  | none => exact room
  | some stored => exact kept.filled stored held

theorem Kept.stepped (room : 0 ≤ rate) (number : Binary64.round rate = rate) (kept : Kept s)
    (steps : Rounded rate s a t) : Kept t := by
  cases steps with
  | allows ahead found =>
    refine ⟨fun stored held => ?_, fun stored held => ?_, fun stored held => ?_⟩ <;> obtain rfl := Option.some.inj held
    · exact Binary64.round_nonneg (sub_nonneg.mpr found)
    · exact Binary64.round_round _
    · exact le_rfl
  | refuses ahead short =>
    refine ⟨fun stored held => ?_, fun stored held => ?_, fun stored held => ?_⟩ <;> obtain rfl := Option.some.inj held
    · exact level_nonneg room kept
    · exact round_refilled number
    · exact le_rfl
  | expires ahead =>
    exact ⟨fun _ held => by contradiction, fun _ held => by contradiction, fun _ held => by contradiction⟩

theorem Kept.run (room : 0 ≤ Binary64.round rateLimitPerSec) (kept : Kept s) {schedule : List Action}
    (reached : Machine.run (stepRounded rateLimitPerSec) s schedule = some t) : Kept t :=
  Machine.run_invariant kept (fun _ _ _ held steps =>
    held.stepped room (Binary64.round_round _) (rounded_of_stepRounded steps)) reached

/-- A second after the last script there is a token. -/
theorem one_le_level (budget : 1 ≤ rate) (number : Binary64.round rate = rate) (kept : Kept s)
    (second : ∀ stored ∈ s.bucket, stored.updatedAt + 1000 ≤ nowMs) : 1 ≤ s.level rate nowMs := by
  rw [State.level]
  cases held : s.bucket with
  | none =>
    rw [Option.getD_none, sub_self, refilled_zero number, min_self]
    exact budget
  | some stored =>
    have passed := second stored held
    exact one_le_refilled budget (kept.filled stored held) (by simp only [Option.getD_some]; omega)

/-- The tokens that have come in since a moment are still there. -/
def Gained (since : ℤ) (s : State) : Prop :=
  ∀ stored ∈ s.bucket, ((stored.updatedAt - since : ℤ) : ℚ) / 1000 ≤ stored.tokens

/-- As long as there is no token, the level shows all the time that has passed. -/
theorem one_le_level_or {since : ℤ} (budget : 2 ≤ rate) (number : Binary64.round rate = rate) (kept : Kept s)
    (gained : Gained since s) (ahead : s.clock ≤ nowMs) :
    1 ≤ s.level rate nowMs ∨ ((nowMs - since : ℤ) : ℚ) / 1000 ≤ s.level rate nowMs := by
  rw [State.level]
  cases held : s.bucket with
  | none =>
    left
    rw [Option.getD_none, sub_self, refilled_zero number, min_self]
    linarith
  | some stored =>
    have stamp := (kept.stamp stored held).trans ahead
    rw [Option.getD_some]
    have before := gained stored held
    rcases one_le_refilled_or budget (kept.filled stored held) (kept.number stored held) (sub_nonneg.mpr stamp)
      with full | more
    · exact .inl full
    · right
      push_cast at before more ⊢
      linarith

/-! ## Waiting -/

theorem decisions_of_rounded (steps : Rounded rate s a t) : ∃ added, t.decisions = s.decisions ++ added := by
  cases steps with
  | allows => exact ⟨[true], List.map_append⟩
  | refuses => exact ⟨[false], List.map_append⟩
  | expires => exact ⟨[], (List.append_nil _).symm⟩

theorem decisions_of_run {schedule : List Action}
    (reached : Machine.run (stepRounded rateLimitPerSec) s schedule = some t) :
    ∃ added, t.decisions = s.decisions ++ added := by
  induction schedule generalizing s with
  | nil =>
    obtain rfl := Option.some.inj reached
    exact ⟨[], (List.append_nil _).symm⟩
  | cons a rest ih =>
    obtain ⟨next, first, onward⟩ := Option.bind_eq_some_iff.mp reached
    obtain ⟨one, decided⟩ := decisions_of_rounded (rounded_of_stepRounded first)
    obtain ⟨more, later⟩ := ih onward
    exact ⟨one ++ more, by rw [later, decided, List.append_assoc]⟩

/-- Since a moment nothing was taken out of a bucket; without polls it was not touched. -/
structure Untouched (polls : Bool) (since : ℤ) (s : State) : Prop where
  kept : Kept s
  gained : Gained since s
  still : polls = false → ∀ stored ∈ s.bucket, stored.updatedAt ≤ since

/-- The budgets that outlast the rounding of the requests that may come in between. -/
def Sustains (polls : Bool) (rate : ℚ) : Prop := 2 ≤ rate ∨ 1 ≤ rate ∧ polls = false

theorem Sustains.one_le {polls : Bool} (sustains : Sustains polls rate) : 1 ≤ rate := by
  rcases sustains with two | ⟨one, -⟩ <;> linarith

/-- A check that was refused has stored what it found, under its own stamp. -/
theorem Untouched.of_stored {polls : Bool} {level : ℚ} (kept : Kept s) (held : s.bucket = some ⟨level, nowMs⟩)
    (filled : 0 ≤ level) : Untouched polls nowMs s := by
  refine ⟨kept, fun stored member => ?_, fun _ stored member => ?_⟩ <;> rw [held] at member <;>
    obtain rfl := Option.some.inj member
  · simpa using filled
  · exact le_rfl

theorem Untouched.stepped {polls : Bool} {since : ℤ} (sustains : Sustains polls rate)
    (number : Binary64.round rate = rate) (untouched : Untouched polls since s) (steps : Rounded rate s a t)
    {refusals : List Bool} (decided : t.decisions = s.decisions ++ refusals) (quiet : true ∉ refusals)
    (silent : polls = false → refusals = []) : Untouched polls since t := by
  have kept := untouched.kept.stepped (by linarith [sustains.one_le]) number steps
  cases steps with
  | allows =>
    obtain rfl := List.append_cancel_left (List.map_append.symm.trans decided)
    simp at quiet
  | refuses ahead short =>
    obtain rfl := List.append_cancel_left (List.map_append.symm.trans decided)
    rcases sustains with two | ⟨-, noPolls⟩
    · refine ⟨kept, fun stored held => ?_, fun noPolls => ?_⟩
      · obtain rfl := Option.some.inj held
        exact (one_le_level_or two number untouched.kept untouched.gained ahead).resolve_left (not_le.mpr short)
      · simpa using silent noPolls
    · simpa using silent noPolls
  | expires => exact ⟨kept, fun stored held => by contradiction, fun _ stored held => by contradiction⟩

theorem Untouched.run {polls : Bool} {since : ℤ} (sustains : Sustains polls (Binary64.round rateLimitPerSec))
    (untouched : Untouched polls since s) {between : List Action}
    (reached : Machine.run (stepRounded rateLimitPerSec) s between = some t)
    {refusals : List Bool} (decided : t.decisions = s.decisions ++ refusals) (quiet : true ∉ refusals)
    (silent : polls = false → refusals = []) : Untouched polls since t := by
  induction between generalizing s refusals with
  | nil =>
    obtain rfl := Option.some.inj reached
    exact untouched
  | cons a rest ih =>
    obtain ⟨next, first, onward⟩ := Option.bind_eq_some_iff.mp reached
    obtain ⟨one, now⟩ := decisions_of_rounded (rounded_of_stepRounded first)
    obtain ⟨more, later⟩ := decisions_of_run onward
    obtain rfl : one ++ more = refusals := by
      rw [later, now, List.append_assoc] at decided
      exact List.append_cancel_left decided
    rw [List.mem_append, not_or] at quiet
    have untouchedNext := untouched.stepped sustains (Binary64.round_round _) (rounded_of_stepRounded first) now quiet.1
      fun noPolls => (List.append_eq_nil_iff.mp (silent noPolls)).1
    exact ih untouchedNext onward later quiet.2 fun noPolls => (List.append_eq_nil_iff.mp (silent noPolls)).2

/-- A second after the moment there is a token. -/
theorem Untouched.one_le_level {polls : Bool} {since later : ℤ} (sustains : Sustains polls rate)
    (number : Binary64.round rate = rate) (untouched : Untouched polls since s) (ahead : s.clock ≤ later)
    (second : since + 1000 ≤ later) : 1 ≤ s.level rate later := by
  rcases sustains with two | ⟨one, noPolls⟩
  · have passed : (1 : ℚ) ≤ ((later - since : ℤ) : ℚ) / 1000 := by
      have difference : (1000 : ℚ) ≤ ((later - since : ℤ) : ℚ) := by exact_mod_cast (by omega : 1000 ≤ later - since)
      linarith
    rcases one_le_level_or two number untouched.kept untouched.gained ahead with full | more
    · exact full
    · exact passed.trans more
  · apply ExpiringBucket.one_le_level one number untouched.kept
    intro stored held
    have still := untouched.still noPolls stored held
    omega

/-- The wait that the script computes is a second at most. -/
theorem ceil_wait_le {level : ℚ} (budget : 1 ≤ rate) (filled : 0 ≤ level) :
    ⌈Binary64.round (Binary64.round (Binary64.round (1 - level) / rate) * 1000)⌉ ≤ 1000 := by
  have deficit : Binary64.round (1 - level) ≤ 1 := Binary64.round_le_one (by linarith)
  have quotient : Binary64.round (Binary64.round (1 - level) / rate) ≤ 1 := by
    apply Binary64.round_le_one
    rw [div_le_one (by linarith)]
    linarith
  rw [Int.ceil_le, ← round_thousand]
  apply Binary64.round_mono
  push_cast
  linarith

end Steps

/-! ## What the client is told -/

/-- In every state of a principal's bucket the script divides by no zero, and whoever is refused and comes back after
the time that he was told is allowed, if no token was taken in the meantime. With `polls` he may have been refused
again in between. -/
def RetryAfterTruthful (rateLimitPerSec : ℤ) (polls : Bool) : Prop :=
  ∀ (start : ℤ) (schedule : List Action) (s refused : State) (nowMs : ℤ) (reply : BucketReply),
    Machine.run (stepRounded rateLimitPerSec) (init start) schedule = some s →
    stepRounded rateLimitPerSec s (.check nowMs) = some refused → refused.replies = s.replies ++ [reply] →
    reply.retryAfterMs ≠ none ∧
      ∀ (notFinite wait : ℤ) (exception : HttpException),
        enforceTier2RateLimit (some (.ofReplyRounded notFinite reply)) = .error exception →
        exception.retryAfter = some wait →
        ∀ (between : List Action) (t allowed : State) (later : ℤ),
          Machine.run (stepRounded rateLimitPerSec) refused between = some t →
          (∃ refusals, t.decisions = refused.decisions ++ refusals ∧ true ∉ refusals ∧
            (polls = false → refusals = [])) →
          nowMs + 1000 * wait ≤ later → stepRounded rateLimitPerSec t (.check later) = some allowed →
          allowed.decisions = t.decisions ++ [true]

section Told

variable {rateLimitPerSec nowMs : ℤ} {rate : ℚ} {s t : State} {reply : BucketReply} {polls : Bool}

theorem truncate_le_one {x : ℚ} (le : x ≤ 1) : truncate x ≤ 1 := by
  rw [truncate]
  split_ifs with nonneg
  · exact Int.floor_le_iff.mpr (by push_cast; linarith)
  · exact Int.ceil_le.mpr (by exact_mod_cast le)

/-- Whoever is to wait no more than a second is told to wait a second. -/
theorem retryAfter_of_refused (refused : reply.allowed = 0) {ms : ℤ} (wait : reply.retryAfterMs = some ms)
    (short : ms ≤ 1000) (notFinite : ℤ) : ∃ exception,
      enforceTier2RateLimit (some (.ofReplyRounded notFinite reply)) = .error exception ∧
        exception.retryAfter = some 1 := by
  have seconds : truncate (Binary64.round ((ms : ℚ) / 1000)) ≤ 1 := by
    apply truncate_le_one
    apply Binary64.round_le_one
    rw [div_le_one (by norm_num)]
    exact_mod_cast short
  have told : max 1 (if truncate (Binary64.round ((ms : ℚ) / 1000)) = 0 then 1
      else truncate (Binary64.round ((ms : ℚ) / 1000))) = 1 := by
    apply max_eq_left
    split_ifs
    · exact le_rfl
    · exact seconds
  refine ⟨⟨429, none, "rate limit exceeded", [("Retry-After", toString (1 : ℤ))]⟩, ?_, Int.toInt?_repr 1⟩
  simp only [enforceTier2RateLimit, RateLimitDecision.ofReplyRounded, refused, wait, Option.getD_some, ne_eq, not_true,
    decide_false, Bool.false_eq_true, if_false, told]

theorem retryAfterTruthful_of_sustains (sustains : Sustains polls (Binary64.round rateLimitPerSec)) :
    RetryAfterTruthful rateLimitPerSec polls := by
  intro start schedule s refused nowMs reply reached checked replied
  have number := Binary64.round_round rateLimitPerSec
  have budget := sustains.one_le
  have kept := (Kept.init start).run (by linarith) reached
  have steps := rounded_of_stepRounded checked
  have keptAfter := kept.stepped (by linarith) number steps
  cases steps with
  | allows ahead found =>
    obtain rfl := List.singleton_inj.mp (List.append_cancel_left replied)
    refine ⟨Option.some_ne_none _, fun notFinite wait exception raised => ?_⟩
    simp [enforceTier2RateLimit, RateLimitDecision.ofReplyRounded] at raised
  | refuses ahead short =>
    have same := List.singleton_inj.mp (List.append_cancel_left replied)
    have filled : 0 ≤ s.level (Binary64.round rateLimitPerSec) nowMs := level_nonneg (by linarith) kept
    have divides : Binary64.round rateLimitPerSec ≠ 0 := by linarith
    have denied : reply.allowed = 0 := same ▸ rfl
    obtain ⟨ms, short, wait⟩ : ∃ ms ≤ 1000, reply.retryAfterMs = some ms :=
      ⟨_, ceil_wait_le budget filled, same ▸ if_neg divides⟩
    refine ⟨by rw [wait]; exact Option.some_ne_none _, ?_⟩
    intro notFinite told exception raised reads between t allowed later idle quiet waited comes
    obtain ⟨_, raises, second⟩ := retryAfter_of_refused denied wait short notFinite
    obtain rfl := Except.error.inj (raises.symm.trans raised)
    obtain rfl := Option.some.inj (second.symm.trans reads)
    obtain ⟨refusals, decided, noneAllowed, silent⟩ := quiet
    have untouched : Untouched polls nowMs _ := .of_stored keptAfter rfl filled
    have waits := untouched.run sustains idle decided noneAllowed silent
    cases rounded_of_stepRounded comes with
    | allows => exact List.map_append
    | refuses ahead short =>
      exact absurd (waits.one_le_level sustains number ahead (by omega)) (not_le.mpr short)

theorem exists_stepRounded_check (ahead : s.clock ≤ nowMs) (number : Binary64.round nowMs = nowMs) :
    ∃ t, stepRounded rateLimitPerSec s (.check nowMs) = some t := by
  rw [stepRounded, if_pos ⟨ahead, number⟩]
  exact ⟨_, rfl⟩

/-- Without a budget every check is refused. -/
theorem refuses_of_nonpos (empty : Binary64.round rateLimitPerSec ≤ 0)
    (checked : stepRounded rateLimitPerSec s (.check nowMs) = some t) : ∃ reply,
      t.replies = s.replies ++ [reply] ∧ reply.allowed = 0 ∧ t.clock = nowMs ∧
        (reply.retryAfterMs = none ∨ ∃ ms ≤ 1000, reply.retryAfterMs = some ms) := by
  have le : s.level (Binary64.round rateLimitPerSec) nowMs ≤ Binary64.round rateLimitPerSec := level_le
  cases rounded_of_stepRounded checked with
  | allows ahead found => linarith
  | refuses ahead short =>
    refine ⟨_, rfl, rfl, rfl, ?_⟩
    rcases empty.eq_or_lt with zero | negative
    · exact .inl (if_pos zero)
    · refine .inr ⟨_, ?_, if_neg negative.ne⟩
      have deficit := Binary64.round_nonneg (show 0 ≤ 1 - s.level (Binary64.round rateLimitPerSec) nowMs by linarith)
      have quotient := Binary64.round_nonpos (div_nonpos_of_nonneg_of_nonpos deficit empty)
      have product := Binary64.round_nonpos (mul_nonpos_of_nonpos_of_nonneg quotient (by norm_num : (0 : ℚ) ≤ 1000))
      rw [Int.ceil_le]
      push_cast
      linarith

/-- Without a budget the first check divides by zero, or the client is told to come back and refused again. -/
theorem not_retryAfterTruthful_of_nonpos (empty : rateLimitPerSec ≤ 0) :
    ¬ RetryAfterTruthful rateLimitPerSec polls := by
  intro truthful
  have bound : Binary64.round rateLimitPerSec ≤ 0 := Binary64.round_nonpos (by exact_mod_cast empty)
  have start : Binary64.round ((0 : ℤ) : ℚ) = (0 : ℤ) := Binary64.round_intCast_of_lt le_rfl (by decide)
  obtain ⟨refused, checked⟩ : ∃ t, stepRounded rateLimitPerSec (init 0) (.check 0) = some t :=
    exists_stepRounded_check le_rfl start
  obtain ⟨reply, replied, denied, clock, divides | ⟨ms, short, wait⟩⟩ := refuses_of_nonpos bound checked
  · exact (truthful 0 [] _ refused 0 reply rfl checked replied).1 divides
  · obtain ⟨exception, raised, second⟩ := retryAfter_of_refused denied wait short 0
    obtain ⟨again, comes⟩ : ∃ t, stepRounded rateLimitPerSec refused (.check 1000) = some t :=
      exists_stepRounded_check (by omega) round_thousand
    have allowed := (truthful 0 [] _ refused 0 reply rfl checked replied).2 0 1 exception raised second [] refused again
      1000 rfl ⟨[], (List.append_nil _).symm, List.not_mem_nil, fun _ => rfl⟩ le_rfl comes
    obtain ⟨later, answered, refusedAgain, -, -⟩ := refuses_of_nonpos bound comes
    rw [State.decisions, answered, List.map_append, List.map_singleton, refusedAgain] at allowed
    have decision := List.singleton_inj.mp (List.append_cancel_left allowed)
    contradiction

/-- A bucket of one token that was emptied and has refused a check at once. -/
def emptied : State := ⟨0, some ⟨0, 0⟩, 60000, [⟨1, 0, some 0⟩, ⟨0, 0, some 1000⟩]⟩

/-- Three tenths, six tenths and nine tenths of a second later it holds a little less than what has come in. -/
theorem emptied_polled : ((Machine.run (stepRounded 1) emptied [.check 300, .check 600, .check 900]).bind fun t =>
    (stepRounded 1 t (.check 1000)).map fun again => (t.decisions, again.decisions)) =
      some ([true, false, false, false, false], [true, false, false, false, false, false]) := by
  decide +kernel

/-- With a budget of one, refused requests may round the token away. -/
theorem not_retryAfterTruthful_one : ¬ RetryAfterTruthful 1 true := by
  intro truthful
  have taken : Machine.run (stepRounded 1) (init 0) [.check 0] = some ⟨0, some ⟨0, 0⟩, 60000, [⟨1, 0, some 0⟩]⟩ := by
    decide +kernel
  have checked : stepRounded 1 ⟨0, some ⟨0, 0⟩, 60000, [⟨1, 0, some 0⟩]⟩ (.check 0) = some emptied := by
    decide +kernel
  have denied : (⟨0, 0, some 1000⟩ : BucketReply).allowed = 0 := rfl
  obtain ⟨exception, raised, second⟩ := retryAfter_of_refused denied rfl le_rfl 0
  obtain ⟨t, idle, later⟩ := Option.bind_eq_some_iff.mp emptied_polled
  obtain ⟨again, comes, decided⟩ := Option.map_eq_some_iff.mp later
  obtain ⟨before, after⟩ := Prod.mk.inj decided
  have allowed := (truthful 0 [.check 0] _ emptied 0 _ taken checked rfl).2 0 1 exception raised second _ t again 1000
    idle ⟨[false, false, false], before, by decide, fun silent => by contradiction⟩ le_rfl comes
  rw [before, after] at allowed
  exact absurd allowed (by decide)

end Told

/-- What a throttled client is told is true exactly for keys that allow two requests a second or more, and for keys that
allow one as long as the client keeps silent. -/
theorem retry_after_truthful_iff (rateLimitPerSec : ℤ) (polls : Bool) :
    RetryAfterTruthful rateLimitPerSec polls ↔ 2 ≤ rateLimitPerSec ∨ rateLimitPerSec = 1 ∧ polls = false := by
  constructor
  · intro truthful
    by_contra neither
    rw [not_or, not_le, not_and] at neither
    obtain ⟨few, polled⟩ := neither
    rcases lt_or_ge rateLimitPerSec 1 with empty | one
    · exact not_retryAfterTruthful_of_nonpos (by omega) truthful
    · obtain rfl : rateLimitPerSec = 1 := by omega
      obtain rfl := Bool.eq_true_of_not_eq_false (polled rfl)
      exact not_retryAfterTruthful_one truthful
  · rintro (two | ⟨rfl, silent⟩)
    · apply retryAfterTruthful_of_sustains
      left
      have whole : Binary64.round ((2 : ℤ) : ℚ) = (2 : ℤ) := Binary64.round_intCast_of_lt (by decide) (by decide)
      have le := Binary64.round_mono (Int.cast_le.mpr two)
      rw [whole] at le
      exact_mod_cast le
    · apply retryAfterTruthful_of_sustains
      right
      rw [Int.cast_one, Binary64.round_one]
      exact ⟨le_rfl, silent⟩

/-- A budget of one with three refused requests during the wait, a budget of zero, and a budget of minus one: a token
that is rounded away, a division by zero, and a wait of a second that does not end in a token. -/
theorem retry_after_untruthful :
    ((Machine.run (stepRounded 1) (init 0) [.check 0, .check 0, .check 300, .check 600, .check 900, .check 1000]).map
        State.decisions = some [true, false, false, false, false, false] ∧ ¬ RetryAfterTruthful 1 true) ∧
      ((stepRounded 0 (init 0) (.check 0)).map State.replies = some [⟨0, 0, none⟩] ∧ ¬ RetryAfterTruthful 0 true) ∧
        ((Machine.run (stepRounded (-1)) (init 0) [.check 0, .check 1000]).map State.replies =
          some [⟨0, -1, some (-2000)⟩, ⟨0, -2, some (-3000)⟩] ∧ ¬ RetryAfterTruthful (-1) true) := by
  refine ⟨⟨?_, not_retryAfterTruthful_one⟩, ⟨?_, not_retryAfterTruthful_of_nonpos le_rfl⟩, ?_,
    not_retryAfterTruthful_of_nonpos (by decide)⟩
  · decide +kernel
  · decide +kernel
  · decide +kernel

end ExpiringBucket

end Meterly
