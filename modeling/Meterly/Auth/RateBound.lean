import Mathlib.Data.List.Perm.Subperm
import Mathlib.Tactic.FieldSimp
import Mathlib.Tactic.Linarith
import Meterly.Auth.RateLimit
import Meterly.Num.Ascent

/-! # How many checks a bucket allows

A check trades a token for a permission, and tokens come from refills: the checks of a window are
paid from one full bucket and from the upward moves of their stamps. Scripts that are executed in
the order of their stamps move up by no more than the window is long. Out of that order a stamp
that moves back costs nothing and the way up again is refilled again, and then there is a policy
under which the window allows more than its length accounts for.
-/

namespace Meterly.TokenBucket

open Machine

variable {capacity nowMs : ℤ} {refillRate : ℚ} {s t : State} {b : Bucket} {bucket : Option Bucket}
  {schedule : List Action}

/-- The tokens a script finds after its refill. -/
def refilled (capacity : ℤ) (refillRate : ℚ) (nowMs : ℤ) (bucket : Option Bucket) : ℚ :=
  let stored := bucket.getD ⟨capacity, nowMs⟩
  min (capacity : ℚ) (stored.tokens + max 0 (((nowMs - stored.updatedAt : ℤ) : ℚ) / 1000) * refillRate)

theorem refilled_le (capacity : ℤ) (refillRate : ℚ) (nowMs : ℤ) (bucket : Option Bucket) :
    refilled capacity refillRate nowMs bucket ≤ capacity := min_le_left _ _

theorem refilled_none (capacity : ℤ) (refillRate : ℚ) (nowMs : ℤ) :
    refilled capacity refillRate nowMs none = capacity := by
  simp [refilled]

/-- A stored bucket is refilled for the upward move of the stamp, up to the capacity. -/
theorem refilled_some (capacity : ℤ) (refillRate : ℚ) (nowMs : ℤ) (b : Bucket) :
    refilled capacity refillRate nowMs (some b) =
      min (capacity : ℚ) (b.tokens + refillRate * ((max 0 (nowMs - b.updatedAt) : ℤ) : ℚ) / 1000) := by
  have scaled : max 0 (((nowMs - b.updatedAt : ℤ) : ℚ) / 1000) = ((max 0 (nowMs - b.updatedAt) : ℤ) : ℚ) / 1000 := by
    rw [Int.cast_max, Int.cast_zero, ← max_div_div_right (by norm_num : (0 : ℚ) ≤ 1000), zero_div]
  rw [refilled, Option.getD_some, scaled]
  congr 2
  ring

theorem refilled_nonneg (room : 0 ≤ capacity) (rate : 0 ≤ refillRate) (nowMs : ℤ) {bucket : Option Bucket}
    (filled : ∀ b ∈ bucket, 0 ≤ b.tokens) : 0 ≤ refilled capacity refillRate nowMs bucket := by
  cases bucket with
  | none => simpa [refilled_none] using room
  | some b =>
    have upward : (0 : ℚ) ≤ (max 0 (nowMs - b.updatedAt) : ℤ) := by exact_mod_cast le_max_left _ _
    have tokens := filled b rfl
    rw [refilled_some]
    exact le_min (by exact_mod_cast room) (by positivity)

/-- A check takes a token where there is one. -/
def taken (capacity : ℤ) (refillRate : ℚ) (nowMs : ℤ) (bucket : Option Bucket) : ℕ :=
  if 1 ≤ refilled capacity refillRate nowMs bucket then 1 else 0

/-- The script stores what it found, less the token it takes, under its own stamp. -/
theorem tokenBucketLua_eq (capacity : ℤ) (refillRate : ℚ) (nowMs : ℤ) (bucket : Option Bucket) :
    (tokenBucketLua capacity refillRate nowMs 1 bucket).1 =
        ⟨refilled capacity refillRate nowMs bucket - taken capacity refillRate nowMs bucket, nowMs⟩ ∧
      (tokenBucketLua capacity refillRate nowMs 1 bucket).2.allowed = taken capacity refillRate nowMs bucket := by
  have unfolded : tokenBucketLua capacity refillRate nowMs 1 bucket =
      if 1 ≤ refilled capacity refillRate nowMs bucket then
        (⟨refilled capacity refillRate nowMs bucket - 1, nowMs⟩,
          ⟨1, refilled capacity refillRate nowMs bucket - 1, some 0⟩)
      else (⟨refilled capacity refillRate nowMs bucket, nowMs⟩, ⟨0, refilled capacity refillRate nowMs bucket,
        if refillRate = 0 then none
        else some ⌈(1 - refilled capacity refillRate nowMs bucket) / refillRate * 1000⌉⟩) := rfl
  rw [unfolded, taken]
  split <;> simp

theorem taken_le (filled : 0 ≤ refilled capacity refillRate nowMs bucket) :
    (taken capacity refillRate nowMs bucket : ℚ) ≤ refilled capacity refillRate nowMs bucket := by
  rw [taken]
  split_ifs with found
  · simpa using found
  · simpa using filled

/-- What one action does. -/
inductive Stepped (capacity : ℤ) (refillRate : ℚ) (s : State) : Action → State → Prop
  | send {nowMs : ℤ} : Stepped capacity refillRate s (.send nowMs) { s with inFlight := nowMs :: s.inFlight }
  | execute {nowMs : ℤ} {t : State} (sent : nowMs ∈ s.inFlight)
      (bucket : t.bucket = some ⟨refilled capacity refillRate nowMs s.bucket -
        taken capacity refillRate nowMs s.bucket, nowMs⟩)
      (allowed : t.allowed = s.allowed + taken capacity refillRate nowMs s.bucket) :
      Stepped capacity refillRate s (.execute nowMs) t

theorem stepped_of_step {a : Action} (steps : step capacity refillRate s a = some t) :
    Stepped capacity refillRate s a t := by
  cases a with
  | send nowMs =>
    obtain rfl := Option.some.inj steps
    exact .send
  | execute nowMs =>
    simp only [step] at steps
    split_ifs at steps with sent
    obtain rfl := Option.some.inj steps
    obtain ⟨stored, allowed⟩ := tokenBucketLua_eq capacity refillRate nowMs s.bucket
    refine .execute sent (congrArg some stored) ?_
    rw [State.allowed, State.allowed, List.countP_append, List.countP_singleton, allowed, taken]
    split_ifs <;> simp_all

theorem tokens_nonneg_of_run (room : 0 ≤ capacity) (rate : 0 ≤ refillRate)
    (reached : run (step capacity refillRate) init schedule = some t) : ∀ b ∈ t.bucket, 0 ≤ b.tokens := by
  refine run_invariant (motive := fun s => ∀ b ∈ s.bucket, 0 ≤ b.tokens) (fun b held => by contradiction) ?_ reached
  intro s a t filled steps
  cases stepped_of_step steps with
  | send => exact filled
  | execute sent bucket allowed =>
    intro b held
    obtain rfl := Option.some.inj (bucket.symm.trans held)
    exact sub_nonneg.mpr (taken_le (refilled_nonneg room rate _ filled))

@[simp] theorem executed_send (nowMs : ℤ) (rest : List Action) :
    executed (.send nowMs :: rest) = executed rest := rfl

@[simp] theorem executed_execute (nowMs : ℤ) (rest : List Action) :
    executed (.execute nowMs :: rest) = nowMs :: executed rest := rfl

/-- How many of the stamps, executed in this order, find a token. -/
def permissions (capacity : ℤ) (refillRate : ℚ) : Option Bucket → List ℤ → ℕ
  | _, [] => 0
  | bucket, nowMs :: stamps =>
      taken capacity refillRate nowMs bucket + permissions capacity refillRate
        (some ⟨refilled capacity refillRate nowMs bucket - taken capacity refillRate nowMs bucket, nowMs⟩) stamps

/-- What a run allows is decided by the stamps in the order of their execution. -/
theorem allowed_run (reached : run (step capacity refillRate) s schedule = some t) :
    t.allowed = s.allowed + permissions capacity refillRate s.bucket (executed schedule) := by
  induction schedule generalizing s with
  | nil =>
    obtain rfl := Option.some.inj reached
    rfl
  | cons a rest ih =>
    obtain ⟨next, first, onward⟩ := Option.bind_eq_some_iff.mp reached
    have later := ih onward
    cases stepped_of_step first with
    | send => exact later
    | execute sent bucket allowed => rw [later, allowed, bucket, executed_execute, permissions, Nat.add_assoc]

/-- From a stored bucket on, permissions are paid by its tokens and by the ascent of the stamps. -/
theorem permissions_le_of_bucket (room : 0 ≤ capacity) (rate : 0 ≤ refillRate) (filled : 0 ≤ b.tokens)
    (stamps : List ℤ) : (permissions capacity refillRate (some b) stamps : ℚ) ≤
      b.tokens + refillRate * (ascentFrom b.updatedAt stamps : ℤ) / 1000 := by
  induction stamps generalizing b with
  | nil => simpa [permissions, ascentFrom] using filled
  | cons nowMs stamps ih =>
    have refill : refilled capacity refillRate nowMs (some b) ≤
        b.tokens + refillRate * ((max 0 (nowMs - b.updatedAt) : ℤ) : ℚ) / 1000 := by
      rw [refilled_some]
      exact min_le_right _ _
    have left : (taken capacity refillRate nowMs (some b) : ℚ) ≤ refilled capacity refillRate nowMs (some b) :=
      taken_le (refilled_nonneg room rate nowMs (by simpa using filled))
    have spent := ih (b := ⟨refilled capacity refillRate nowMs (some b) -
      taken capacity refillRate nowMs (some b), nowMs⟩) (sub_nonneg.mpr left)
    rw [permissions, ascentFrom]
    push_cast at spent refill ⊢
    linarith

/-- From any bucket on, permissions are paid by one full bucket and by the ascent of the stamps. -/
theorem permissions_le (room : 0 ≤ capacity) (rate : 0 ≤ refillRate) (filled : ∀ b ∈ bucket, 0 ≤ b.tokens)
    (stamps : List ℤ) : (permissions capacity refillRate bucket stamps : ℚ) ≤
      capacity + refillRate * (ascent stamps : ℤ) / 1000 := by
  cases stamps with
  | nil =>
    have positive : (0 : ℚ) ≤ capacity := by exact_mod_cast room
    simpa [permissions, ascent] using positive
  | cons nowMs stamps =>
    have full := refilled_le capacity refillRate nowMs bucket
    have left := taken_le (refilled_nonneg room rate nowMs filled)
    have spent := permissions_le_of_bucket (b := ⟨refilled capacity refillRate nowMs bucket -
      taken capacity refillRate nowMs bucket, nowMs⟩) room rate (sub_nonneg.mpr left) stamps
    rw [permissions, ascent]
    push_cast at spent ⊢
    linarith

/-- Where the tokens and the ascent of the stamps pay for every check and the bucket never overflows,
every check is allowed. -/
theorem permissions_all_of_bucket (rate : 0 ≤ refillRate) {stamps : List ℤ}
    (paid : b.tokens + refillRate * (ascentFrom b.updatedAt stamps : ℤ) / 1000 = stamps.length)
    (slow : refillRate * (ascentFrom b.updatedAt stamps : ℤ) / 1000 ≤ 1) (room : stamps.length ≤ capacity) :
    permissions capacity refillRate (some b) stamps = stamps.length := by
  induction stamps generalizing b with
  | nil => rfl
  | cons nowMs stamps ih =>
    have later : (0 : ℚ) ≤ refillRate * (ascentFrom nowMs stamps : ℤ) / 1000 := by
      have climbs : (0 : ℚ) ≤ (ascentFrom nowMs stamps : ℤ) := by exact_mod_cast ascentFrom_nonneg nowMs stamps
      positivity
    have upward : (0 : ℚ) ≤ refillRate * ((max 0 (nowMs - b.updatedAt) : ℤ) : ℚ) / 1000 := by
      have moves : (0 : ℚ) ≤ (max 0 (nowMs - b.updatedAt) : ℤ) := by exact_mod_cast le_max_left _ _
      positivity
    rw [ascentFrom] at paid slow
    rw [List.length_cons] at paid room
    have capped : (stamps.length : ℚ) + 1 ≤ capacity := by exact_mod_cast room
    push_cast at paid slow upward
    have refill : refilled capacity refillRate nowMs (some b) =
        b.tokens + refillRate * ((max 0 (nowMs - b.updatedAt) : ℤ) : ℚ) / 1000 := by
      rw [refilled_some, min_eq_right]
      push_cast
      linarith
    push_cast at refill
    -- the last check finds one token, and the refills of the later ones are worth at most one
    have found : taken capacity refillRate nowMs (some b) = 1 := by
      apply if_pos
      cases stamps with
      | nil =>
        simp only [ascentFrom, List.length_nil] at paid
        push_cast at paid
        linarith
      | cons _ stamps =>
        rw [List.length_cons] at paid
        push_cast at paid
        have several : (0 : ℚ) ≤ stamps.length := Nat.cast_nonneg _
        linarith
    rw [permissions, found, refill, List.length_cons, Nat.add_comm]
    exact congrArg (· + 1) (ih (by push_cast; linarith) (by linarith) (by omega))

/-- A new bucket with a token for every check but one, which the whole ascent refills, allows every
check. -/
theorem permissions_all (rate : 0 ≤ refillRate) {stamps : List ℤ} (room : capacity = stamps.length - 1)
    (several : 1 < stamps.length) (refills : refillRate * (ascent stamps : ℤ) / 1000 = 1) :
    permissions capacity refillRate none stamps = stamps.length := by
  cases stamps with
  | nil => contradiction
  | cons nowMs stamps =>
    rw [List.length_cons] at room several
    rw [ascent] at refills
    have tokens : (capacity : ℚ) = stamps.length := by exact_mod_cast show capacity = (stamps.length : ℤ) by omega
    have found : taken capacity refillRate nowMs none = 1 := by
      apply if_pos
      rw [refilled_none]
      exact_mod_cast show 1 ≤ capacity by omega
    rw [permissions, found, refilled_none, List.length_cons, Nat.add_comm]
    exact congrArg (· + 1) (permissions_all_of_bucket rate (by push_cast; linarith) (by linarith) (by omega))

/-- Sending the scripts of a window beforehand lets it run. -/
theorem run_of_sent (sent : (executed schedule).Subperm s.inFlight) :
    ∃ t, run (step capacity refillRate) s schedule = some t := by
  induction schedule generalizing s with
  | nil => exact ⟨s, rfl⟩
  | cons a rest ih =>
    cases a with
    | send nowMs => exact ih (s := { s with inFlight := nowMs :: s.inFlight }) (sent.trans (List.sublist_cons_self _ _).subperm)
    | execute nowMs =>
      have member : nowMs ∈ s.inFlight := sent.subset List.mem_cons_self
      have rest := sent.erase nowMs
      rw [executed_execute, List.erase_cons_head] at rest
      rw [run_cons]
      simp only [step, if_pos member, Option.bind_some]
      exact ih rest

theorem run_sends (stamps : List ℤ) : run (step capacity refillRate) s (stamps.map .send) =
    some { s with inFlight := stamps.reverse ++ s.inFlight } := by
  induction stamps generalizing s with
  | nil => rfl
  | cons nowMs rest ih =>
    rw [List.map_cons, run_cons]
    simp only [step, Option.bind_some, ih, List.reverse_cons, List.append_assoc, List.singleton_append]

/-- In every run, a window whose stamps lie between two times is allowed at most the capacity and what
the time between them refills. -/
def RateBounded (capacity : ℤ) (refillRate : ℚ) (window : List Action) (a b : ℤ) : Prop :=
  ∀ earlier s t, run (step capacity refillRate) init earlier = some s →
    run (step capacity refillRate) s window = some t →
    (t.allowed : ℚ) ≤ s.allowed + (capacity + refillRate * (b - a) / 1000)

/-- Where the stamps of a window ascend by at most its length, every policy is kept. -/
theorem rateBounded_of_ascent_le (room : 1 ≤ capacity) (rate : 0 < refillRate) {window : List Action} {a b : ℤ}
    (climbs : ascent (executed window) ≤ b - a) : RateBounded capacity refillRate window a b := by
  intro earlier s t before reached
  have filled := tokens_nonneg_of_run (by omega) rate.le before
  have spent := permissions_le (zero_le_one.trans room) rate.le filled (executed window)
  have length : ((ascent (executed window) : ℤ) : ℚ) ≤ b - a := by exact_mod_cast climbs
  have refills := mul_le_mul_of_nonneg_left length rate.le
  rw [allowed_run reached]
  push_cast
  linarith

/-- Scripts that are executed in the order of their stamps keep every policy. -/
theorem rateBounded_of_in_order (room : 1 ≤ capacity) (rate : 0 < refillRate) {window : List Action} {a b : ℤ}
    (interval : a ≤ b) (within : ∀ nowMs ∈ executed window, a ≤ nowMs ∧ nowMs ≤ b)
    (inOrder : (executed window).Pairwise (· ≤ ·)) : RateBounded capacity refillRate window a b :=
  rateBounded_of_ascent_le room rate (ascent_le_of_sorted interval inOrder within)

/-- A window that ascends by more than its length is allowed too much under some policy. -/
theorem exists_not_rateBounded {window : List Action} {a b : ℤ} (interval : a ≤ b)
    (climbs : b - a < ascent (executed window)) :
    ∃ capacity refillRate, 1 ≤ capacity ∧ 0 < refillRate ∧ ¬ RateBounded capacity refillRate window a b := by
  have several : 1 < (executed window).length := one_lt_length_of_ascent_pos (by omega)
  have positive : (0 : ℚ) < (ascent (executed window) : ℤ) := by exact_mod_cast show 0 < ascent (executed window) by omega
  refine ⟨(executed window).length - 1, 1000 / (ascent (executed window) : ℤ), by omega, by positivity, ?_⟩
  intro bounded
  have enabled : (executed window).Subperm ((executed window).reverse ++ []) := by
    rw [List.append_nil]
    exact (List.reverse_perm _).symm.subperm
  obtain ⟨t, reached⟩ : ∃ t, run (step ((executed window).length - 1) (1000 / (ascent (executed window) : ℤ)))
      ⟨none, (executed window).reverse ++ [], []⟩ window = some t := run_of_sent enabled
  have every := allowed_run reached
  rw [permissions_all (by positivity) rfl several (by field_simp)] at every
  have spent := bounded _ ⟨none, (executed window).reverse ++ [], []⟩ t (run_sends (executed window)) reached
  have short : 1000 / ((ascent (executed window) : ℤ) : ℚ) * (b - a) / 1000 < 1 := by
    rw [div_mul_eq_mul_div, div_div, mul_comm (1000 : ℚ), mul_div_mul_right _ _ (by norm_num), div_lt_one positive]
    exact_mod_cast climbs
  rw [every] at spent
  push_cast at spent short
  linarith

/-- Every policy is kept in every run exactly if the stamps, in the order in which Redis executes the
scripts of the window, ascend by at most the length of the window. -/
theorem rateBounded_iff_ascent_le (window : List Action) {a b : ℤ} (interval : a ≤ b) :
    (∀ capacity refillRate, 1 ≤ capacity → 0 < refillRate → RateBounded capacity refillRate window a b) ↔
      ascent (executed window) ≤ b - a := by
  constructor
  · intro bounded
    by_contra climbs
    obtain ⟨capacity, refillRate, room, rate, exceeds⟩ := exists_not_rateBounded interval (not_le.mp climbs)
    exact exceeds (bounded capacity refillRate room rate)
  · intro climbs capacity refillRate room rate
    exact rateBounded_of_ascent_le room rate climbs

/-- Three checks in the order of their stamps, half a second apart. -/
theorem rateBounded_iff_ascent_le_in_order :
    let window := [0, 500, 1000].map Action.send ++ [0, 500, 1000].map Action.execute
    (∀ capacity refillRate, 1 ≤ capacity → 0 < refillRate → RateBounded capacity refillRate window 0 1000) ∧
      ascent (executed window) = 1000 :=
  ⟨(rateBounded_iff_ascent_le _ (by decide)).mpr (by decide), by decide⟩

/-- Two scripts that were stamped a second earlier and are executed between the later ones: the same
second is refilled twice, and a bucket of one token allows three checks in that second. -/
theorem second_refilled_twice :
    let window := [0, 0, 1000, 1000, 1000].map Action.send ++ [1000, 0, 1000, 0, 1000].map Action.execute
    (∀ nowMs ∈ executed window, 0 ≤ nowMs ∧ nowMs ≤ 1000) ∧ ¬ RateBounded 1 1 window 0 1000 := by
  refine ⟨by decide, fun bounded => ?_⟩
  have allowed : (run (step 1 1) init ([0, 0, 1000, 1000, 1000].map Action.send ++
      [1000, 0, 1000, 0, 1000].map Action.execute)).map State.allowed = some 3 := by decide +kernel
  obtain ⟨t, reached, three⟩ := Option.map_eq_some_iff.mp allowed
  have spent := bounded [] init t rfl reached
  have none : init.allowed = 0 := rfl
  rw [three, none] at spent
  norm_num at spent

end Meterly.TokenBucket
