import Meterly.Machine.Run
import Meterly.Model.Schema

/-! # A capped counter, one call at a time

What a quota is for, stated without transactions: a limit, and a total for each window. A new
event is accepted exactly when the total of its window and its quantity are within the limit in
force; a replacement of the limit changes nothing else. The answers given by a serial execution
are a run of this counter.
-/

namespace Meterly

/-- The limit in force and the exact total of every window, in millionths. -/
structure CappedCounter where
  limit : LimitPerWindow
  totals : Instant → ℕ

/-- What the call that held the quota row was answered. -/
inductive CappedAnswer where
  | accepted (window : Instant) (quantity : Quantity)
  | rejected (window : Instant) (quantity : Quantity)
  | replaced (limit : LimitPerWindow)
deriving DecidableEq, Repr

namespace CappedCounter

/-- The event still fits into its window. -/
def Fits (counter : CappedCounter) (window : Instant) (quantity : Quantity) : Prop :=
  counter.totals window + quantity.micros ≤ counter.limit.value * 10 ^ 6

instance (counter : CappedCounter) (window : Instant) (quantity : Quantity) :
    Decidable (counter.Fits window quantity) := inferInstanceAs (Decidable (_ ≤ _))

/-- One call of a serial execution; a wrong answer has no step. -/
def apply (counter : CappedCounter) : CappedAnswer → Option CappedCounter
  | .accepted window quantity =>
    if counter.Fits window quantity then
      some { counter with totals := Function.update counter.totals window (counter.totals window + quantity.micros) }
    else none
  | .rejected window quantity => if counter.Fits window quantity then none else some counter
  | .replaced limit => some { counter with limit }

theorem apply_accepted {counter : CappedCounter} {window : Instant} {quantity : Quantity}
    (fits : counter.Fits window quantity) : counter.apply (.accepted window quantity) =
      some { counter with totals := Function.update counter.totals window (counter.totals window + quantity.micros) } :=
  if_pos fits

theorem apply_rejected {counter : CappedCounter} {window : Instant} {quantity : Quantity}
    (full : ¬ counter.Fits window quantity) : counter.apply (.rejected window quantity) = some counter :=
  if_neg full

end CappedCounter

namespace CappedAnswer

/-- What an answer adds to a window. -/
def added (window : Instant) : CappedAnswer → ℕ
  | accepted other quantity => if other = window then quantity.micros else 0
  | _ => 0

/-- The answer depends on a window: it is about an event of it, or it sets the limit. -/
def concerns (window : Instant) : CappedAnswer → Bool
  | accepted other _ | rejected other _ => other = window
  | replaced _ => true

end CappedAnswer

namespace CappedCounter

variable {counter next final : CappedCounter} {answer : CappedAnswer} {history : List CappedAnswer}

theorem totals_apply (applied : counter.apply answer = some next) (window : Instant) :
    next.totals window = counter.totals window + answer.added window := by
  cases answer with
  | accepted other quantity =>
    simp only [apply] at applied
    split_ifs at applied
    obtain rfl := Option.some.inj applied
    by_cases same : other = window
    · subst other
      simp only [Function.update_self, CappedAnswer.added, if_true]
    · simp only [Function.update_of_ne (Ne.symm same), CappedAnswer.added, if_neg same, add_zero]
  | rejected other quantity =>
    simp only [apply] at applied
    split_ifs at applied
    obtain rfl := Option.some.inj applied
    rfl
  | replaced limit =>
    obtain rfl := Option.some.inj applied
    rfl

/-- Each window's total is its first total plus everything accepted in it. -/
theorem totals_run (ran : Machine.run apply counter history = some final) (window : Instant) :
    final.totals window = counter.totals window + (history.map (CappedAnswer.added window)).sum := by
  refine Machine.run_induction (motive := fun history final =>
    final.totals window = counter.totals window + (history.map (CappedAnswer.added window)).sum)
    counter rfl ?_ ran
  intro history middle answer next _ ih applied
  rw [totals_apply applied, ih, List.map_append, List.sum_append, List.map_singleton, List.sum_singleton,
    add_assoc]

/-- Two counters that agree on the limit and on one window. -/
def AgreeOn (window : Instant) (left right : CappedCounter) : Prop :=
  left.limit = right.limit ∧ left.totals window = right.totals window

/-- An answer that concerns the window is given alike; any other leaves the window alone. -/
theorem AgreeOn.apply {window : Instant} {left right after : CappedCounter} (agree : AgreeOn window left right)
    (applied : left.apply answer = some after) :
    if answer.concerns window then ∃ other, right.apply answer = some other ∧ AgreeOn window after other
    else AgreeOn window after right := by
  obtain ⟨limits, totals⟩ := agree
  cases answer with
  | accepted other quantity =>
    simp only [CappedCounter.apply] at applied
    split_ifs at applied with fits
    obtain rfl := Option.some.inj applied
    by_cases same : other = window
    · subst other
      have rightFits : right.Fits window quantity := by rwa [Fits, ← limits, ← totals]
      simp only [CappedAnswer.concerns, decide_true, if_true, CappedCounter.apply, if_pos rightFits]
      exact ⟨_, rfl, limits, by simp only [Function.update_self, totals]⟩
    · simp only [CappedAnswer.concerns, same, decide_false, Bool.false_eq_true, if_false]
      exact ⟨limits, by simp only [Function.update_of_ne (Ne.symm same), totals]⟩
  | rejected other quantity =>
    simp only [CappedCounter.apply] at applied
    split_ifs at applied with fits
    obtain rfl := Option.some.inj applied
    by_cases same : other = window
    · subst other
      have rightFull : ¬ right.Fits window quantity := by rwa [Fits, ← limits, ← totals]
      simp only [CappedAnswer.concerns, decide_true, if_true, CappedCounter.apply, if_neg rightFull]
      exact ⟨_, rfl, limits, totals⟩
    · simp only [CappedAnswer.concerns, same, decide_false, Bool.false_eq_true, if_false]
      exact ⟨limits, totals⟩
  | replaced limit =>
    obtain rfl := Option.some.inj applied
    exact ⟨_, rfl, rfl, totals⟩

/-- What is accepted in a window does not depend on the other windows: leaving their events out of
a history changes neither an answer nor the window's total. -/
theorem run_filter_concerns (ran : Machine.run apply counter history = some final) (window : Instant) :
    ∃ other, Machine.run apply counter (history.filter (CappedAnswer.concerns window)) = some other ∧
      AgreeOn window final other := by
  refine Machine.run_induction (motive := fun history final => ∃ other,
    Machine.run apply counter (history.filter (CappedAnswer.concerns window)) = some other ∧
      AgreeOn window final other) counter ⟨counter, rfl, rfl, rfl⟩ ?_ ran
  rintro history middle answer next _ ⟨other, ran, agree⟩ applied
  have steps := agree.apply applied
  rw [List.filter_append]
  by_cases concerned : answer.concerns window
  · rw [if_pos concerned] at steps
    obtain ⟨after, applied, agree⟩ := steps
    rw [List.filter_cons_of_pos concerned, List.filter_nil]
    exact ⟨after, Machine.run_snoc ran applied, agree⟩
  · rw [if_neg concerned] at steps
    rw [List.filter_cons_of_neg concerned, List.filter_nil, List.append_nil]
    exact ⟨other, ran, steps⟩

end CappedCounter

end Meterly
