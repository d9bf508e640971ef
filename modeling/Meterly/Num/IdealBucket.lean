import Mathlib.Algebra.Order.Field.Basic
import Mathlib.Tactic.Linarith
import Mathlib.Tactic.Ring

/-! # An ideal token bucket

A level rises at a constant rate up to a capacity, at every moment. A check takes one token where there
is one, and otherwise leaves the bucket alone. Looking at the level does not change it: the level is
the same whether it is read once or written down in between.
-/

/-- A bucket by its level at some moment. -/
structure IdealBucket (K : Type*) where
  level : K
  since : K

namespace IdealBucket

variable {K : Type*} [Field K] [LinearOrder K] (capacity rate : K)

/-- The level at a later moment. -/
def levelAt (bucket : IdealBucket K) (moment : K) : K := min capacity (bucket.level + (moment - bucket.since) * rate)

/-- A check takes a token where there is one. -/
def check (bucket : IdealBucket K) (moment : K) : IdealBucket K :=
  if 1 ≤ bucket.levelAt capacity rate moment then ⟨bucket.levelAt capacity rate moment - 1, moment⟩ else bucket

/-- The checks that are allowed. -/
def decisions (bucket : IdealBucket K) : List K → List Bool
  | [] => []
  | moment :: later =>
    decide (1 ≤ bucket.levelAt capacity rate moment) :: decisions (bucket.check capacity rate moment) later

/-- The bucket after some checks. -/
def after (bucket : IdealBucket K) (moments : List K) : IdealBucket K := moments.foldl (check capacity rate) bucket

variable {capacity rate} {bucket : IdealBucket K} {moment later : K}

theorem after_append (first second : List K) :
    bucket.after capacity rate (first ++ second) = (bucket.after capacity rate first).after capacity rate second :=
  List.foldl_append

theorem decisions_append (first second : List K) : bucket.decisions capacity rate (first ++ second) =
    bucket.decisions capacity rate first ++ (bucket.after capacity rate first).decisions capacity rate second := by
  induction first generalizing bucket with
  | nil => rfl
  | cons moment first ih => exact congrArg _ ih

theorem levelAt_le : bucket.levelAt capacity rate moment ≤ capacity := min_le_left _ _

/-- Once it had time enough the bucket is full. -/
theorem levelAt_eq_capacity (filled : capacity ≤ bucket.level + (moment - bucket.since) * rate) :
    bucket.levelAt capacity rate moment = capacity := min_eq_left filled

variable [IsStrictOrderedRing K]

/-- Reading the level and going on from what was read changes nothing. -/
theorem levelAt_levelAt (rising : 0 ≤ rate) (le : moment ≤ later) :
    (⟨bucket.levelAt capacity rate moment, moment⟩ : IdealBucket K).levelAt capacity rate later =
      bucket.levelAt capacity rate later := by
  have risen : 0 ≤ (later - moment) * rate := mul_nonneg (sub_nonneg.mpr le) rising
  have added : bucket.level + (later - bucket.since) * rate =
      bucket.level + (moment - bucket.since) * rate + (later - moment) * rate := by ring
  simp only [levelAt]
  rw [added, ← min_add_add_right, ← min_assoc, min_eq_left (le_add_of_nonneg_right risen)]

theorem levelAt_nonneg (room : 0 ≤ capacity) (rising : 0 ≤ rate) (filled : 0 ≤ bucket.level)
    (le : bucket.since ≤ moment) : 0 ≤ bucket.levelAt capacity rate moment :=
  le_min room (add_nonneg filled (mul_nonneg (sub_nonneg.mpr le) rising))

end IdealBucket
