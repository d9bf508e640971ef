import Meterly.Auth.RateLimit
import Meterly.Num.IdealBucket

/-! # A bucket whose key expires

Every execution of the script lets the key live for another minute of the same clock; from then on
Redis may drop it at any moment, and the next check finds a full bucket. When the bucket is full
again within that minute nobody can tell: the checks are decided as by a bucket that fills up all the
time and never expires.
-/

namespace Meterly.ExpiringBucket

/-- `PEXPIRE` of the script, in milliseconds. -/
def pexpireMs : ℤ := 60000

/-- Checks of cost one whose stamps do not move back, and the key dropped. -/
inductive Action where
  | check (nowMs : ℤ)
  | expire (nowMs : ℤ)
deriving DecidableEq, Repr

/-- The last stamp, the hash of the bucket, the moment from which it may be dropped, and the replies. -/
structure State where
  clock : ℤ
  bucket : Option Bucket
  expiresAt : ℤ
  replies : List BucketReply
deriving DecidableEq, Repr

/-- A bucket that was never used. -/
def init (start : ℤ) : State := ⟨start, none, start, []⟩

/-- Execute one action, if it is enabled. -/
def step (capacity refillRate : ℚ) (s : State) : Action → Option State
  | .check nowMs =>
    if s.clock ≤ nowMs then
      let (bucket, reply) := tokenBucketLua capacity refillRate nowMs 1 s.bucket
      some ⟨nowMs, some bucket, nowMs + pexpireMs, s.replies ++ [reply]⟩
    else none
  | .expire nowMs =>
    if s.clock ≤ nowMs ∧ s.expiresAt ≤ nowMs then some { s with clock := nowMs, bucket := none } else none

/-- The stamps of the checks, in order. -/
def checks (schedule : List Action) : List ℤ :=
  schedule.filterMap fun
    | .check nowMs => some nowMs
    | .expire _ => none

/-- Which checks were allowed. -/
def State.decisions (s : State) : List Bool := s.replies.map fun reply => reply.allowed ≠ 0

/-- The moment of a stamp, in seconds. -/
def seconds (nowMs : ℤ) : ℚ := nowMs / 1000

/-! ## What a check finds -/

variable {capacity refillRate : ℚ} {s t : State} {ideal : IdealBucket ℚ} {a : Action} {nowMs later : ℤ}

/-- The level that a check finds. -/
def State.levelAt (capacity refillRate : ℚ) (s : State) (nowMs : ℤ) : ℚ :=
  match s.bucket with
  | none => capacity
  | some stored => (⟨stored.tokens, seconds stored.updatedAt⟩ : IdealBucket ℚ).levelAt capacity refillRate (seconds nowMs)

/-- Tokens stored are within the capacity, under a stamp that is not ahead of the clock. -/
structure Bounded (capacity : ℚ) (s : State) : Prop where
  tokens : ∀ stored ∈ s.bucket, 0 ≤ stored.tokens ∧ stored.tokens ≤ capacity
  stamp : ∀ stored ∈ s.bucket, stored.updatedAt ≤ s.clock
  expiry : ∀ stored ∈ s.bucket, s.expiresAt = stored.updatedAt + pexpireMs

theorem seconds_le {nowMs later : ℤ} (le : nowMs ≤ later) : seconds nowMs ≤ seconds later := by
  rw [seconds, seconds]
  gcongr

/-- The script decides by the level, and stores what is left of it. -/
theorem tokenBucketLua_levelAt (stamp : ∀ stored ∈ s.bucket, stored.updatedAt ≤ nowMs) :
    tokenBucketLua capacity refillRate nowMs 1 s.bucket =
      if 1 ≤ s.levelAt capacity refillRate nowMs then
        (⟨s.levelAt capacity refillRate nowMs - 1, nowMs⟩, ⟨1, s.levelAt capacity refillRate nowMs - 1, some 0⟩)
      else (⟨s.levelAt capacity refillRate nowMs, nowMs⟩, ⟨0, s.levelAt capacity refillRate nowMs,
        if refillRate = 0 then none else some ⌈(1 - s.levelAt capacity refillRate nowMs) / refillRate * 1000⌉⟩) := by
  have found : min capacity ((s.bucket.getD ⟨capacity, nowMs⟩).tokens +
      max 0 (((nowMs - (s.bucket.getD ⟨capacity, nowMs⟩).updatedAt : ℤ) : ℚ) / 1000) * refillRate) =
        s.levelAt capacity refillRate nowMs := by
    rw [State.levelAt]
    cases held : s.bucket with
    | none => simp
    | some stored =>
      have upward : (0 : ℚ) ≤ ((nowMs - stored.updatedAt : ℤ) : ℚ) / 1000 := by
        have le := stamp stored held
        have difference : (0 : ℚ) ≤ ((nowMs - stored.updatedAt : ℤ) : ℚ) := by exact_mod_cast sub_nonneg.mpr le
        positivity
      simp only [Option.getD_some]
      rw [max_eq_right upward]
      simp only [IdealBucket.levelAt, seconds, Int.cast_sub, sub_div]
  rw [tokenBucketLua]
  simp only [found]

theorem levelAt_nonneg (room : 0 ≤ capacity) (rate : 0 ≤ refillRate) (bounded : Bounded capacity s)
    (le : s.clock ≤ nowMs) : 0 ≤ s.levelAt capacity refillRate nowMs := by
  rw [State.levelAt]
  cases held : s.bucket with
  | none => exact room
  | some stored =>
    exact IdealBucket.levelAt_nonneg room rate (bounded.tokens stored held).1
      (seconds_le ((bounded.stamp stored held).trans le))

theorem levelAt_le : s.levelAt capacity refillRate nowMs ≤ capacity := by
  rw [State.levelAt]
  cases s.bucket with
  | none => exact le_rfl
  | some stored => exact IdealBucket.levelAt_le

/-- What one action does. -/
inductive Stepped (capacity refillRate : ℚ) (s : State) : Action → State → Prop
  | allows {nowMs : ℤ} {reply : BucketReply} (ahead : s.clock ≤ nowMs)
      (found : 1 ≤ s.levelAt capacity refillRate nowMs) (allowed : reply.allowed = 1)
      (wait : reply.retryAfterMs = some 0) :
      Stepped capacity refillRate s (.check nowMs) ⟨nowMs, some ⟨s.levelAt capacity refillRate nowMs - 1, nowMs⟩,
        nowMs + pexpireMs, s.replies ++ [reply]⟩
  | refuses {nowMs : ℤ} {reply : BucketReply} (ahead : s.clock ≤ nowMs)
      (short : s.levelAt capacity refillRate nowMs < 1) (refused : reply.allowed = 0)
      (wait : reply.retryAfterMs = if refillRate = 0 then none
        else some ⌈(1 - s.levelAt capacity refillRate nowMs) / refillRate * 1000⌉) :
      Stepped capacity refillRate s (.check nowMs) ⟨nowMs, some ⟨s.levelAt capacity refillRate nowMs, nowMs⟩,
        nowMs + pexpireMs, s.replies ++ [reply]⟩
  | expires {nowMs : ℤ} (ahead : s.clock ≤ nowMs) (due : s.expiresAt ≤ nowMs) :
      Stepped capacity refillRate s (.expire nowMs) { s with clock := nowMs, bucket := none }

theorem stepped_of_step (stamp : ∀ stored ∈ s.bucket, stored.updatedAt ≤ s.clock) (steps : step capacity refillRate s a = some t) :
    Stepped capacity refillRate s a t := by
  cases a with
  | check nowMs =>
    simp only [step] at steps
    split_ifs at steps with ahead
    rw [tokenBucketLua_levelAt fun stored held => (stamp stored held).trans ahead] at steps
    by_cases found : 1 ≤ s.levelAt capacity refillRate nowMs
    · rw [if_pos found] at steps
      obtain rfl := Option.some.inj steps
      exact .allows ahead found rfl rfl
    · rw [if_neg found] at steps
      obtain rfl := Option.some.inj steps
      exact .refuses ahead (not_le.mp found) rfl rfl
  | expire nowMs =>
    simp only [step] at steps
    split_ifs at steps with due
    obtain rfl := Option.some.inj steps
    exact .expires due.1 due.2

theorem Bounded.init (start : ℤ) : Bounded capacity (init start) where
  tokens stored held := by contradiction
  stamp stored held := by contradiction
  expiry stored held := by contradiction

theorem Bounded.stepped (room : 0 ≤ capacity) (rate : 0 ≤ refillRate) (bounded : Bounded capacity s)
    (steps : Stepped capacity refillRate s a t) : Bounded capacity t := by
  cases steps with
  | @allows nowMs _ ahead found =>
    have le : s.levelAt capacity refillRate nowMs ≤ capacity := levelAt_le
    refine ⟨fun stored held => ?_, fun stored held => ?_, fun stored held => ?_⟩ <;>
      obtain rfl := Option.some.inj held
    · exact ⟨sub_nonneg.mpr found, by linarith⟩
    · exact le_rfl
    · rfl
  | refuses ahead short refused wait =>
    refine ⟨fun stored held => ?_, fun stored held => ?_, fun stored held => ?_⟩ <;>
      obtain rfl := Option.some.inj held
    · exact ⟨levelAt_nonneg room rate bounded ahead, levelAt_le⟩
    · exact le_rfl
    · rfl
  | expires ahead due =>
    exact ⟨fun stored held => by contradiction, fun stored held => by contradiction, fun stored held => by contradiction⟩

/-! ## Simulation by the ideal bucket -/

/-- From now on a check finds what it would find in the ideal bucket. -/
def Agrees (capacity refillRate : ℚ) (s : State) (ideal : IdealBucket ℚ) : Prop :=
  ∀ nowMs, s.clock ≤ nowMs → s.levelAt capacity refillRate nowMs = ideal.levelAt capacity refillRate (seconds nowMs)

theorem Agrees.of_stored {level : ℚ} (held : s.bucket = some ⟨level, nowMs⟩) :
    Agrees capacity refillRate s ⟨level, seconds nowMs⟩ := by
  intro later ahead
  rw [State.levelAt, held]

/-- The key of a bucket can only be dropped when the bucket is full. -/
theorem levelAt_of_due (outlasted : capacity ≤ 60 * refillRate) (rate : 0 ≤ refillRate) (bounded : Bounded capacity s)
    (due : s.expiresAt ≤ nowMs) : s.levelAt capacity refillRate nowMs = capacity := by
  rw [State.levelAt]
  cases held : s.bucket with
  | none => rfl
  | some stored =>
    have minute : (60 : ℚ) ≤ seconds nowMs - seconds stored.updatedAt := by
      have expiry := bounded.expiry stored held
      have passed : (60000 : ℚ) ≤ nowMs - stored.updatedAt := by
        have : 60000 ≤ nowMs - stored.updatedAt := by
          rw [pexpireMs] at expiry
          omega
        exact_mod_cast this
      rw [seconds, seconds, ← sub_div]
      linarith
    apply IdealBucket.levelAt_eq_capacity
    have refilled := mul_le_mul_of_nonneg_right minute rate
    have filled := (bounded.tokens stored held).1
    linarith

/-- One action of the script is the check of the ideal bucket, or nothing. -/
theorem Agrees.stepped (outlasted : capacity ≤ 60 * refillRate) (rate : 0 ≤ refillRate) (bounded : Bounded capacity s)
    (agrees : Agrees capacity refillRate s ideal) (steps : Stepped capacity refillRate s a t) :
    Agrees capacity refillRate t (ideal.after capacity refillRate ((checks [a]).map seconds)) ∧
      t.decisions = s.decisions ++ ideal.decisions capacity refillRate ((checks [a]).map seconds) := by
  cases steps with
  | @allows nowMs reply ahead found allowed _ =>
    have same := agrees nowMs ahead
    have taken : ideal.after capacity refillRate ((checks [.check nowMs]).map seconds) =
        ⟨s.levelAt capacity refillRate nowMs - 1, seconds nowMs⟩ := by
      rw [same] at found ⊢
      exact if_pos found
    refine ⟨fun later le => by rw [taken]; rfl, ?_⟩
    have decided : ideal.decisions capacity refillRate ((checks [.check nowMs]).map seconds) = [true] := by
      rw [same] at found
      exact congrArg ([·]) (decide_eq_true found)
    rw [decided, State.decisions, List.map_append, List.map_singleton, allowed]
    rfl
  | @refuses nowMs reply ahead short refused wait =>
    have same := agrees nowMs ahead
    have stays : ideal.after capacity refillRate ((checks [.check nowMs]).map seconds) = ideal := by
      rw [same] at short
      exact if_neg (not_le.mpr short)
    refine ⟨fun later le => ?_, ?_⟩
    · rw [stays, ← IdealBucket.levelAt_levelAt rate (seconds_le le), ← same]
      rfl
    · have decided : ideal.decisions capacity refillRate ((checks [.check nowMs]).map seconds) = [false] := by
        rw [same] at short
        exact congrArg ([·]) (decide_eq_false (not_le.mpr short))
      rw [decided, State.decisions, List.map_append, List.map_singleton, refused]
      rfl
  | @expires nowMs ahead due =>
    refine ⟨fun later le => ?_, (List.append_nil _).symm⟩
    have full := agrees later (ahead.trans le)
    rw [levelAt_of_due outlasted rate bounded (due.trans le)] at full
    exact full

theorem checks_cons (a : Action) (rest : List Action) : checks (a :: rest) = checks [a] ++ checks rest := by
  cases a <;> rfl

/-- A run of the script is a run of the ideal bucket. -/
theorem Agrees.run {schedule : List Action} (room : 0 ≤ capacity) (outlasted : capacity ≤ 60 * refillRate)
    (rate : 0 ≤ refillRate) (bounded : Bounded capacity s) (agrees : Agrees capacity refillRate s ideal)
    (reached : Machine.run (step capacity refillRate) s schedule = some t) :
    Bounded capacity t ∧ Agrees capacity refillRate t (ideal.after capacity refillRate ((checks schedule).map seconds)) ∧
      t.decisions = s.decisions ++ ideal.decisions capacity refillRate ((checks schedule).map seconds) := by
  induction schedule generalizing s ideal with
  | nil =>
    obtain rfl := Option.some.inj reached
    exact ⟨bounded, agrees, (List.append_nil _).symm⟩
  | cons a rest ih =>
    obtain ⟨next, first, onward⟩ := Option.bind_eq_some_iff.mp reached
    have steps := stepped_of_step bounded.stamp first
    obtain ⟨stepAgrees, decided⟩ := agrees.stepped outlasted rate bounded steps
    obtain ⟨finalBounded, finalAgrees, finalDecided⟩ := ih (bounded.stepped room rate steps) stepAgrees onward
    rw [checks_cons, List.map_append, IdealBucket.after_append, IdealBucket.decisions_append]
    refine ⟨finalBounded, finalAgrees, ?_⟩
    rw [finalDecided, decided, List.append_assoc]

/-- The bucket of a key that was never used is full. -/
theorem Agrees.init (rate : 0 ≤ refillRate) (start : ℤ) :
    Agrees capacity refillRate (init start) ⟨capacity, seconds start⟩ := by
  intro nowMs ahead
  have risen := mul_nonneg (sub_nonneg.mpr (seconds_le ahead)) rate
  exact (IdealBucket.levelAt_eq_capacity (le_add_of_nonneg_right risen)).symm

/-- When a bucket is full again before its key can expire, every check is decided as by an ideal bucket
that starts full, fills up all the time and never expires. -/
theorem lazy_bucket_eq_ideal {capacity refillRate : ℚ} (room : 1 ≤ capacity) (rate : 0 < refillRate)
    (outlasted : capacity ≤ 60 * refillRate) {start : ℤ} {schedule : List Action} {final : State}
    (reached : Machine.run (step capacity refillRate) (init start) schedule = some final) :
    final.decisions = IdealBucket.decisions capacity refillRate ⟨capacity, seconds start⟩ ((checks schedule).map seconds) ∧
      ∀ stored ∈ final.bucket, 0 ≤ stored.tokens ∧ stored.tokens ≤ capacity := by
  obtain ⟨bounded, -, decided⟩ :=
    (Agrees.init rate.le start).run (zero_le_one.trans room) outlasted rate.le (Bounded.init start) reached
  exact ⟨decided, bounded.tokens⟩

/-- A budget of two a second: two checks are allowed, a third is not, and the key is dropped in between. -/
theorem lazy_bucket_eq_ideal_two_a_second :
    let schedule : List Action := [.check 0, .check 0, .check 400, .check 500, .expire 60500, .check 60600, .check 60600]
    ∃ final, Machine.run (step 2 2) (init 0) schedule = some final ∧
      final.decisions = [true, true, false, true, true, true] ∧
      final.decisions = IdealBucket.decisions 2 2 ⟨2, seconds 0⟩ ((checks schedule).map seconds) := by
  intro schedule
  have runs : (Machine.run (step 2 2) (init 0) schedule).map State.decisions =
      some [true, true, false, true, true, true] := by decide +kernel
  obtain ⟨final, reached, decided⟩ := Option.map_eq_some_iff.mp runs
  exact ⟨final, reached, decided, (lazy_bucket_eq_ideal (by norm_num) (by norm_num) (by norm_num) reached).1⟩

end Meterly.ExpiringBucket
