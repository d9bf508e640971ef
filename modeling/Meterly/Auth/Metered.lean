import Mathlib.Data.Finset.Card
import Meterly.Auth.RateBound

/-! # What a bucket lets through in a larger system

Whoever passes a bucket has taken a token from it or passed while the limiter failed. A full bucket and the
upward moves of the stamps pay for the tokens, and every loss of the key for another full bucket. The system
around the bucket may do anything else: it is any machine whose steps leave the bucket alone, execute the
script, drop the key or let something pass without it.
-/

namespace Meterly

open Machine TokenBucket

/-- What concerns a bucket: the script is executed with a stamp, its key is dropped, or the limiter fails and
lets a request pass. -/
inductive BucketEvent where
  | executed (nowMs : ℤ)
  | dropped
  | failedOpen
deriving DecidableEq, Repr

/-- The stamps of the executed scripts, in the order of execution. -/
def BucketEvent.stamps (events : List BucketEvent) : List ℤ :=
  events.filterMap fun
    | .executed nowMs => some nowMs
    | _ => none

/-- What the events of a bucket pay for. -/
def BucketEvent.budget (capacity : ℤ) (refillRate : ℚ) (events : List BucketEvent) : ℚ :=
  capacity * (1 + events.count .dropped) + refillRate * (ascent (stamps events) : ℤ) / 1000 +
    events.count .failedOpen

/-- One step of a system with a bucket: what it means for the bucket, and for who has passed. -/
inductive Metered (capacity : ℤ) (refillRate : ℚ) (before after : Option Bucket) (old new : ℕ → Prop) :
    List BucketEvent → Prop
  | apart (same : after = before) (keeps : ∀ id, new id → old id) :
      Metered capacity refillRate before after old new []
  | executes {burst rate nowMs : ℤ} {id : ℕ} (within : burst ≤ capacity) (slow : (rate : ℚ) ≤ refillRate)
      (stored : after = some (tokenBucketLua burst rate nowMs 1 before).1)
      (passes : ∀ other, new other → old other ∨
        other = id ∧ (tokenBucketLua burst rate nowMs 1 before).2.allowed ≠ 0) :
      Metered capacity refillRate before after old new [.executed nowMs]
  | drops (gone : after = none) (keeps : ∀ id, new id → old id) :
      Metered capacity refillRate before after old new [.dropped]
  | failsOpen {id : ℕ} (same : after = before) (passes : ∀ other, new other → old other ∨ other = id) :
      Metered capacity refillRate before after old new [.failedOpen]

namespace Metered

variable {capacity : ℤ} {refillRate : ℚ} {before after : Option Bucket} {old new : ℕ → Prop}
  {events seen : List BucketEvent}

/-- What a bucket has left to give: a key that is not there is a full bucket. -/
def credit (capacity : ℤ) : Option Bucket → ℚ
  | none => capacity
  | some stored => max 0 stored.tokens

/-- Whoever has passed is paid for, and so is what the bucket has left. -/
structure Paid (capacity : ℤ) (refillRate : ℚ) (bucket : Option Bucket) (passed : ℕ → Prop) (events : List BucketEvent) :
    Prop where
  within : ∀ ids : Finset ℕ, (∀ id ∈ ids, passed id) →
    ids.card + credit capacity bucket ≤ BucketEvent.budget capacity refillRate events
  last : ∀ stored ∈ bucket, (BucketEvent.stamps events).getLast? = some stored.updatedAt

theorem credit_nonneg (room : 0 ≤ capacity) (bucket : Option Bucket) : 0 ≤ credit capacity bucket := by
  cases bucket with
  | none => exact Int.cast_nonneg room
  | some stored => exact le_max_left _ _

theorem stamps_executed (events : List BucketEvent) (nowMs : ℤ) :
    BucketEvent.stamps (events ++ [.executed nowMs]) = BucketEvent.stamps events ++ [nowMs] := List.filterMap_append

theorem budget_executed (events : List BucketEvent) (nowMs : ℤ) :
    BucketEvent.budget capacity refillRate (events ++ [.executed nowMs]) =
      BucketEvent.budget capacity refillRate events - refillRate * (ascent (BucketEvent.stamps events) : ℤ) / 1000 +
        refillRate * (ascent (BucketEvent.stamps events ++ [nowMs]) : ℤ) / 1000 := by
  rw [BucketEvent.budget, BucketEvent.budget, stamps_executed, List.count_append, List.count_append]
  simp
  ring

theorem budget_dropped (events : List BucketEvent) : BucketEvent.budget capacity refillRate (events ++ [.dropped]) =
    BucketEvent.budget capacity refillRate events + capacity := by
  have stamps : BucketEvent.stamps (events ++ [.dropped]) = BucketEvent.stamps events := by simp [BucketEvent.stamps]
  rw [BucketEvent.budget, BucketEvent.budget, stamps, List.count_append, List.count_append]
  simp
  ring

theorem budget_failedOpen (events : List BucketEvent) :
    BucketEvent.budget capacity refillRate (events ++ [.failedOpen]) =
      BucketEvent.budget capacity refillRate events + 1 := by
  have stamps : BucketEvent.stamps (events ++ [.failedOpen]) = BucketEvent.stamps events := by simp [BucketEvent.stamps]
  rw [BucketEvent.budget, BucketEvent.budget, stamps, List.count_append, List.count_append]
  simp
  ring

/-- A check trades the token it takes for a permission. -/
theorem taken_add_credit (capacity burst rate nowMs : ℤ) (bucket : Option Bucket) :
    ((tokenBucketLua burst rate nowMs 1 bucket).2.allowed : ℚ) +
      credit capacity (some (tokenBucketLua burst rate nowMs 1 bucket).1) = max 0 (refilled burst rate nowMs bucket) := by
  obtain ⟨stored, allowed⟩ := tokenBucketLua_eq burst rate nowMs bucket
  rw [stored, allowed, credit, taken]
  split_ifs with found
  · rw [Nat.cast_one, max_eq_right (sub_nonneg.mpr found), max_eq_right (zero_le_one.trans found)]
    ring
  · rw [Nat.cast_zero, sub_zero, zero_add]

/-- The script finds what was left and what the upward move of its stamp is worth. -/
theorem refilled_le_of_paid {burst rate : ℤ} (nowMs : ℤ) (room : 0 ≤ capacity) (within : burst ≤ capacity)
    (slow : (rate : ℚ) ≤ refillRate) (refills : 0 ≤ refillRate) {bucket : Option Bucket}
    (last : ∀ stored ∈ bucket, (BucketEvent.stamps events).getLast? = some stored.updatedAt) :
    max 0 (refilled burst rate nowMs bucket) + refillRate * (ascent (BucketEvent.stamps events) : ℤ) / 1000 ≤
      credit capacity bucket + refillRate * (ascent (BucketEvent.stamps events ++ [nowMs]) : ℤ) / 1000 := by
  have full : (burst : ℚ) ≤ capacity := by exact_mod_cast within
  cases bucket with
  | none =>
    have climbs : ((ascent (BucketEvent.stamps events) : ℤ) : ℚ) ≤ (ascent (BucketEvent.stamps events ++ [nowMs]) : ℤ) := by
      exact_mod_cast ascent_le_append _ _
    have empty : (0 : ℚ) ≤ capacity := by exact_mod_cast room
    rw [refilled_none, credit]
    have found := max_le empty full
    have refill := mul_le_mul_of_nonneg_left climbs refills
    linarith
  | some stored =>
    rw [ascent_append_of_last (last stored rfl), refilled_some, credit]
    have upward : (0 : ℚ) ≤ (max 0 (nowMs - stored.updatedAt) : ℤ) := by exact_mod_cast le_max_left _ _
    have refill := mul_le_mul_of_nonneg_right slow upward
    have gained : (0 : ℚ) ≤ refillRate * ((max 0 (nowMs - stored.updatedAt) : ℤ) : ℚ) := mul_nonneg refills upward
    have left : stored.tokens ≤ max 0 stored.tokens := le_max_right _ _
    have found : max 0 (min (burst : ℚ) (stored.tokens + rate * ((max 0 (nowMs - stored.updatedAt) : ℤ) : ℚ) / 1000)) ≤
        max 0 stored.tokens + refillRate * ((max 0 (nowMs - stored.updatedAt) : ℤ) : ℚ) / 1000 := by
      apply max_le
      · positivity
      · exact (min_le_right _ _).trans (by linarith)
    rw [Int.cast_add, mul_add, add_div]
    linarith

/-- Those who have passed after a step, less the one whose turn it was, had passed before. -/
theorem card_le_of_passes {ids : Finset ℕ} {id : ℕ} (passes : ∀ other, new other → old other ∨ other = id)
    (every : ∀ other ∈ ids, new other) : ids.card ≤ (ids.erase id).card + 1 ∧ ∀ other ∈ ids.erase id, old other := by
  refine ⟨by have := Finset.pred_card_le_card_erase (s := ids) (a := id); omega, ?_⟩
  intro other member
  obtain ⟨different, member⟩ := Finset.mem_erase.mp member
  exact (passes other (every other member)).resolve_right different

/-- What a step lets pass is paid for. -/
theorem paid (room : 0 ≤ capacity) (refills : 0 ≤ refillRate)
    (metered : Metered capacity refillRate before after old new seen)
    (paid : Paid capacity refillRate before old events) : Paid capacity refillRate after new (events ++ seen) := by
  cases metered with
  | apart same keeps =>
    subst same
    rw [List.append_nil]
    exact ⟨fun ids every => paid.within ids fun id member => keeps id (every id member), paid.last⟩
  | @executes burst rate nowMs id within slow stored passes =>
    have found := refilled_le_of_paid nowMs room within slow refills paid.last
    have traded := taken_add_credit capacity burst rate nowMs before
    refine ⟨fun ids every => ?_, fun bucket held => ?_⟩
    · rw [budget_executed, stored]
      by_cases allowed : (tokenBucketLua burst rate nowMs 1 before).2.allowed = 0
      · have earlier := paid.within ids fun other member =>
          (passes other (every other member)).resolve_right fun turn => turn.2 allowed
        rw [allowed, Nat.cast_zero, zero_add] at traded
        linarith
      · obtain ⟨card, others⟩ := card_le_of_passes (fun other passed => (passes other passed).imp_right And.left) every
        have earlier := paid.within (ids.erase id) others
        have one : (1 : ℚ) ≤ (tokenBucketLua burst rate nowMs 1 before).2.allowed := by
          exact_mod_cast Nat.one_le_iff_ne_zero.mpr allowed
        have card : (ids.card : ℚ) ≤ (ids.erase id).card + 1 := by exact_mod_cast card
        linarith
    · obtain rfl := Option.some.inj (stored.symm.trans held)
      rw [stamps_executed, List.getLast?_concat, (tokenBucketLua_eq burst rate nowMs before).1]
  | drops gone keeps =>
    subst gone
    refine ⟨fun ids every => ?_, fun stored held => by contradiction⟩
    have earlier := paid.within ids fun id member => keeps id (every id member)
    have left := credit_nonneg room before
    rw [budget_dropped, credit]
    linarith
  | @failsOpen id same passes =>
    subst same
    refine ⟨fun ids every => ?_, fun stored held => ?_⟩
    · obtain ⟨card, others⟩ := card_le_of_passes passes every
      have earlier := paid.within _ others
      have card : (ids.card : ℚ) ≤ (ids.erase id).card + 1 := by exact_mod_cast card
      rw [budget_failedOpen]
      linarith
    · rw [show BucketEvent.stamps (events ++ [.failedOpen]) = BucketEvent.stamps events by simp [BucketEvent.stamps]]
      exact paid.last stored held

/-- In a run whose steps are metered, no more pass than the events of the bucket pay for. -/
theorem card_le_of_run {σ α : Type} {step : σ → α → Option σ} {source target : σ} {schedule : List α}
    (bucket : σ → Option Bucket) (passed : σ → ℕ → Prop) (seen : σ → α → σ → List BucketEvent) (room : 0 ≤ capacity)
    (refills : 0 ≤ refillRate) (unused : bucket source = none) (nobody : ∀ id, ¬ passed source id)
    (metered : ∀ earlier a later s t, schedule = earlier ++ a :: later → run step source earlier = some s →
      step s a = some t → Metered capacity refillRate (bucket s) (bucket t) (passed s) (passed t) (seen s a t))
    (reached : run step source schedule = some target) {ids : Finset ℕ} (every : ∀ id ∈ ids, passed target id) :
    (ids.card : ℚ) ≤ BucketEvent.budget capacity refillRate (observed step seen source schedule) := by
  have start : Paid capacity refillRate (bucket source) (passed source) [] := by
    rw [unused]
    refine ⟨fun ids every => ?_, fun stored held => by contradiction⟩
    have empty : ids = ∅ := Finset.eq_empty_of_forall_notMem fun id member => nobody id (every id member)
    simp [empty, credit, BucketEvent.budget, BucketEvent.stamps, ascent]
  have paid : Paid capacity refillRate (bucket target) (passed target) (observed step seen source schedule) := by
    refine run_induction (motive := fun earlier s => ∀ later, schedule = earlier ++ later →
      Paid capacity refillRate (bucket s) (passed s) (observed step seen source earlier)) source
      (fun _ _ => start) ?_ reached [] (List.append_nil _).symm
    intro earlier current a next before ih last later split
    rw [List.append_assoc, List.singleton_append] at split
    rw [observed_snoc before last]
    exact (metered earlier a later current next split before last).paid room refills (ih _ split)
  have left := credit_nonneg room (bucket target)
  have within := paid.within ids every
  linarith

end Metered

end Meterly
