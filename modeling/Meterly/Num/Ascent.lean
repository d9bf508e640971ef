import Mathlib.Algebra.Order.Group.Defs
import Mathlib.Data.Int.Order.Basic
import Mathlib.Algebra.Order.Group.MinMax
import Mathlib.Tactic.Abel

/-! # Upward movement of a sequence

The ascent of a sequence is the sum of its upward steps; downward steps count for nothing. A
sequence that never moves down ascends by the difference of its ends, so it climbs no further than
an interval that holds it. One that moves down may climb the same interval more than once.
-/

variable {K : Type*} [AddCommGroup K] [LinearOrder K]

/-- The sum of the upward steps of a sequence that continues from a value. -/
def ascentFrom (start : K) : List K → K
  | [] => 0
  | next :: rest => max 0 (next - start) + ascentFrom next rest

/-- The sum of the upward steps of a sequence. -/
def ascent : List K → K
  | [] => 0
  | start :: rest => ascentFrom start rest

/-- Only a sequence of two values or more can ascend. -/
theorem one_lt_length_of_ascent_pos {values : List K} (climbs : 0 < ascent values) : 1 < values.length := by
  match values with
  | [] | [_] => exact absurd climbs (lt_irrefl _)
  | _ :: _ :: _ => simp

theorem ascentFrom_append (start : K) (values : List K) (next : K) :
    ascentFrom start (values ++ [next]) = ascentFrom start values + max 0 (next - values.getLast?.getD start) := by
  induction values generalizing start with
  | nil => simp [ascentFrom]
  | cons value rest ih =>
    rw [List.cons_append, ascentFrom, ascentFrom, ih, List.getLast?_cons, Option.getD_some, add_assoc]

/-- A sequence that goes on ascends by its last step, if that leads upward. -/
theorem ascent_append_of_last {values : List K} {last : K} (ends : values.getLast? = some last) (next : K) :
    ascent (values ++ [next]) = ascent values + max 0 (next - last) := by
  cases values with
  | nil => contradiction
  | cons start rest =>
    rw [List.getLast?_cons] at ends
    rw [List.cons_append, ascent, ascent, ascentFrom_append, Option.some.inj ends]

variable [IsOrderedAddMonoid K]

theorem ascentFrom_nonneg (start : K) (values : List K) : 0 ≤ ascentFrom start values := by
  induction values generalizing start with
  | nil => exact le_rfl
  | cons next rest ih => exact add_nonneg (le_max_left _ _) (ih next)

/-- A sequence that never moves down ends where its ascent has brought it. -/
theorem ascentFrom_of_sorted {start : K} {values : List K} (sorted : (start :: values).Pairwise (· ≤ ·)) :
    ascentFrom start values = (values.getLast?.getD start) - start := by
  induction values generalizing start with
  | nil => simp [ascentFrom]
  | cons next rest ih =>
    obtain ⟨above, sorted⟩ := List.pairwise_cons.mp sorted
    have upward : 0 ≤ next - start := sub_nonneg.mpr (above next List.mem_cons_self)
    rw [ascentFrom, ih sorted, max_eq_right upward, List.getLast?_cons, Option.getD_some]
    abel

/-- A sequence in an interval that never moves down climbs no further than the interval. -/
theorem ascent_le_of_sorted {low high : K} (ordered : low ≤ high) {values : List K}
    (sorted : values.Pairwise (· ≤ ·)) (within : ∀ value ∈ values, low ≤ value ∧ value ≤ high) :
    ascent values ≤ high - low := by
  cases values with
  | nil => exact sub_nonneg.mpr ordered
  | cons start rest =>
    have last : rest.getLast?.getD start ∈ start :: rest := List.mem_of_getLast? List.getLast?_cons
    rw [ascent, ascentFrom_of_sorted sorted]
    exact sub_le_sub (within _ last).2 (within start List.mem_cons_self).1

theorem ascent_le_append (values : List K) (next : K) : ascent values ≤ ascent (values ++ [next]) := by
  cases values with
  | nil => exact le_rfl
  | cons start rest =>
    rw [List.cons_append, ascent, ascent, ascentFrom_append]
    exact le_add_of_nonneg_right (le_max_left _ _)
