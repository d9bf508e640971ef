import Mathlib.Data.List.Induction

/-! # Finite runs of a partial step function

A machine is a state type with a partial step on actions; a schedule is a list of actions. A
schedule with a disabled action has no run. Runs compose and split at any action, and an
induction over a run grows it at its end, so that a step lemma sees the state that the
schedule so far really reached.
-/

namespace Machine

variable {σ α ω : Type*}

/-- Execute a schedule from a state; a disabled action has no run through it. -/
def run (step : σ → α → Option σ) : σ → List α → Option σ
  | s, [] => some s
  | s, a :: rest => (step s a).bind fun next => run step next rest

variable {step : σ → α → Option σ} {source middle target : σ} {first second : List α} {a : α}

@[simp] theorem run_nil : run step source [] = some source := rfl

theorem run_cons (rest : List α) :
    run step source (a :: rest) = (step source a).bind fun next => run step next rest := rfl

theorem run_singleton (a : α) : run step source [a] = step source a := by
  simp only [run_cons, run_nil, Option.bind_fun_some]

theorem run_append (first second : List α) :
    run step source (first ++ second) = (run step source first).bind fun middle => run step middle second := by
  induction first generalizing source with
  | nil => rfl
  | cons a rest ih => simp only [List.cons_append, run_cons, ih, Option.bind_assoc]

/-- A run of a joined schedule passes through a state shared by both parts. -/
theorem run_append_iff : run step source (first ++ second) = some target ↔
    ∃ middle, run step source first = some middle ∧ run step middle second = some target := by
  rw [run_append, Option.bind_eq_some_iff]

/-- The last action of a run is a step from the state that the schedule before it reached. -/
theorem run_snoc_iff : run step source (first ++ [a]) = some target ↔
    ∃ middle, run step source first = some middle ∧ step middle a = some target := by
  rw [run_append_iff]
  apply exists_congr
  intro middle
  simp only [run_cons, run_nil, Option.bind_fun_some]

theorem run_snoc (before : run step source first = some middle) (last : step middle a = some target) :
    run step source (first ++ [a]) = some target :=
  run_snoc_iff.mpr ⟨middle, before, last⟩

/-- What holds of the empty run and survives one more step holds of every run. -/
theorem run_induction {motive : List α → σ → Prop} (source : σ) (start : motive [] source)
    (next : ∀ schedule current a target, run step source schedule = some current →
      motive schedule current → step current a = some target → motive (schedule ++ [a]) target)
    {schedule : List α} (reached : run step source schedule = some target) : motive schedule target := by
  induction schedule using List.reverseRecOn generalizing target with
  | nil =>
    obtain rfl := Option.some.inj reached
    exact start
  | append_singleton schedule a ih =>
    obtain ⟨current, before, last⟩ := run_snoc_iff.mp reached
    exact next schedule current a target before (ih before) last

/-- An invariant of every step is an invariant of every run. -/
theorem run_invariant {motive : σ → Prop} (start : motive source)
    (preserved : ∀ s a t, motive s → step s a = some t → motive t)
    {schedule : List α} (reached : run step source schedule = some target) : motive target :=
  run_induction (motive := fun _ => motive) source start
    (fun _ current a target _ valid last => preserved current a target valid last) reached

/-- Every step of a schedule meets a condition on the state it starts from. -/
def Along (step : σ → α → Option σ) (P : σ → α → Prop) : σ → List α → Prop
  | _, [] => True
  | s, a :: rest => P s a ∧ ∀ next ∈ step s a, Along step P next rest

instance Along.decidable (step : σ → α → Option σ) (P : σ → α → Prop) [∀ s a, Decidable (P s a)] :
    ∀ (source : σ) (schedule : List α), Decidable (Along step P source schedule)
  | _, [] => .isTrue trivial
  | s, a :: rest =>
    have (next : σ) : Decidable (Along step P next rest) := Along.decidable step P next rest
    inferInstanceAs (Decidable (P s a ∧ ∀ next ∈ step s a, Along step P next rest))

/-- What survives every step that meets a condition holds in every run whose steps all meet it. -/
theorem run_invariant_along {P : σ → α → Prop} {motive : σ → Prop} (start : motive source)
    (preserved : ∀ s a t, motive s → P s a → step s a = some t → motive t) {schedule : List α}
    (along : Along step P source schedule) (reached : run step source schedule = some target) : motive target := by
  induction schedule generalizing source with
  | nil =>
    obtain rfl := Option.some.inj reached
    exact start
  | cons a rest ih =>
    obtain ⟨next, first, reached⟩ := Option.bind_eq_some_iff.mp reached
    exact ih (preserved source a next start along.1 first) (along.2 next first) reached

/-- Where each step of one machine is a step of another or does not show there, each run is a run of the
other. -/
theorem exists_run_of_simulation {τ β : Type*} {other : τ → β → Option τ} (view : σ → τ)
    (simulates : ∀ s a t, step s a = some t → view t = view s ∨ ∃ b, other (view s) b = some (view t))
    {schedule : List α} (reached : run step source schedule = some target) :
    ∃ shown, run other (view source) shown = some (view target) := by
  refine run_induction (motive := fun _ t => ∃ shown, run other (view source) shown = some (view t)) source
    ⟨[], rfl⟩ ?_ reached
  rintro schedule current a target - ⟨shown, before⟩ last
  rcases simulates current a target last with same | ⟨b, last⟩
  · exact ⟨shown, same ▸ before⟩
  · exact ⟨shown ++ [b], run_snoc before last⟩

/-- Machines whose steps agree wherever an invariant holds have the same runs. -/
theorem run_congr {other : σ → α → Option σ} {motive : σ → Prop} (agree : ∀ s a, motive s → step s a = other s a)
    (preserved : ∀ s a t, motive s → step s a = some t → motive t) (start : motive source) (schedule : List α) :
    run step source schedule = run other source schedule := by
  induction schedule generalizing source with
  | nil => rfl
  | cons a rest ih =>
    rw [run_cons, run_cons, ← agree source a start]
    cases first : step source a with
    | none => rfl
    | some next => exact ih (preserved source a next start first)

/-- Where what is shown of two states decides what is shown of the next ones, runs of one schedule show the same
from beginning to end. -/
theorem run_map_congr {τ : Type*} (view : σ → τ) {motive : σ → Prop} {Allowed : α → Prop}
    (agree : ∀ s t a, motive s → motive t → Allowed a → view s = view t → (step s a).map view = (step t a).map view)
    (preserved : ∀ s a t, motive s → Allowed a → step s a = some t → motive t) {other : σ} (start : motive source)
    (start' : motive other) (same : view source = view other) {schedule : List α} (allowed : ∀ a ∈ schedule, Allowed a) :
    (run step source schedule).map view = (run step other schedule).map view := by
  induction schedule generalizing source other with
  | nil => exact congrArg some same
  | cons a rest ih =>
    obtain ⟨first, later⟩ := List.forall_mem_cons.mp allowed
    have steps := agree source other a start start' first same
    rw [run_cons, run_cons]
    cases here : step source a with
    | none =>
      cases there : step other a with
      | none => rfl
      | some next' => simp [here, there] at steps
    | some next =>
      cases there : step other a with
      | none => simp [here, there] at steps
      | some next' =>
        simp only [here, there, Option.map_some, Option.some.injEq] at steps
        exact ih (preserved source a next start first here) (preserved other a next' start' first there) steps later

/-- What does not hold at first and holds in the end came about in one of the steps. -/
theorem exists_step_of_run {P : σ → Prop} (start : ¬ P source) {schedule : List α}
    (reached : run step source schedule = some target) (holds : P target) :
    ∃ earlier a later middle next, schedule = earlier ++ a :: later ∧ run step source earlier = some middle ∧
      step middle a = some next ∧ run step next later = some target ∧ ¬ P middle ∧ P next := by
  induction schedule generalizing source with
  | nil =>
    obtain rfl := Option.some.inj reached
    exact absurd holds start
  | cons a rest ih =>
    obtain ⟨next, first, reached⟩ := Option.bind_eq_some_iff.mp reached
    by_cases now : P next
    · exact ⟨[], a, rest, source, next, rfl, rfl, first, reached, start, now⟩
    · obtain ⟨earlier, b, later, middle, after, rfl, before, last, onward, not, yes⟩ := ih now reached
      exact ⟨a :: earlier, b, later, middle, after, rfl, by rw [run_cons, first, Option.bind_some, before],
        last, onward, not, yes⟩

/-- What is seen along a run: each step contributes what its two states and its action show. -/
def observed (step : σ → α → Option σ) (seen : σ → α → σ → List ω) : σ → List α → List ω
  | _, [] => []
  | s, a :: rest => match step s a with
    | none => []
    | some next => seen s a next ++ observed step seen next rest

theorem observed_snoc {seen : σ → α → σ → List ω} (before : run step source first = some middle)
    (last : step middle a = some target) :
    observed step seen source (first ++ [a]) = observed step seen source first ++ seen middle a target := by
  induction first generalizing source with
  | nil =>
    obtain rfl := Option.some.inj before
    simp only [List.nil_append, observed, last, List.append_nil]
  | cons b rest ih =>
    obtain ⟨next, enabled, before⟩ := Option.bind_eq_some_iff.mp before
    simp only [List.cons_append, observed, enabled, ih before, List.append_assoc]

/-- Where each step of one machine shows as a schedule of another, a run shows as the run of these schedules
one after the other. -/
theorem run_observed {τ β : Type*} {other : τ → β → Option τ} (view : σ → τ) (seen : σ → α → σ → List β)
    (simulates : ∀ s a t, step s a = some t → run other (view s) (seen s a t) = some (view t))
    {schedule : List α} (reached : run step source schedule = some target) :
    run other (view source) (observed step seen source schedule) = some (view target) := by
  induction schedule generalizing source with
  | nil =>
    obtain rfl := Option.some.inj reached
    rfl
  | cons a rest ih =>
    obtain ⟨next, first, onward⟩ := Option.bind_eq_some_iff.mp reached
    simp only [observed, first]
    exact run_append_iff.mpr ⟨view next, simulates source a next first, ih onward⟩

/-- What is seen along a run is seen in one of its steps. -/
theorem mem_observed_iff {seen : σ → α → σ → List ω} {item : ω} {schedule : List α}
    (reached : run step source schedule = some target) : item ∈ observed step seen source schedule ↔
      ∃ earlier a later middle next, schedule = earlier ++ a :: later ∧ run step source earlier = some middle ∧
        step middle a = some next ∧ item ∈ seen middle a next := by
  induction schedule generalizing source with
  | nil => simp [observed]
  | cons a rest ih =>
    obtain ⟨next, first, onward⟩ := Option.bind_eq_some_iff.mp reached
    simp only [observed, first, List.mem_append, ih onward]
    constructor
    · rintro (now | ⟨earlier, b, later, middle, after, rfl, before, last, member⟩)
      · exact ⟨[], a, rest, source, next, rfl, rfl, first, now⟩
      · exact ⟨a :: earlier, b, later, middle, after, rfl, by rw [run_cons, first, Option.bind_some, before], last,
          member⟩
    · rintro ⟨earlier, b, later, middle, after, same, before, last, member⟩
      cases earlier with
      | nil =>
        obtain ⟨rfl, rfl⟩ := List.cons.inj same
        obtain rfl := Option.some.inj before
        obtain rfl := Option.some.inj (first.symm.trans last)
        exact .inl member
      | cons c earlier =>
        obtain ⟨rfl, rfl⟩ := List.cons.inj same
        rw [run_cons, first, Option.bind_some] at before
        exact .inr ⟨earlier, b, later, middle, after, rfl, before, last, member⟩

/-- Where a step shows at most one thing, what is seen first along a run is what is seen along its beginning. -/
theorem exists_prefix_of_observed {seen : σ → α → σ → List ω} (single : ∀ s a t, (seen s a t).length ≤ 1)
    {schedule : List α} (reached : run step source schedule = some target) {shown rest : List ω}
    (split : observed step seen source schedule = shown ++ rest) : ∃ earlier later middle,
      schedule = earlier ++ later ∧ run step source earlier = some middle ∧ observed step seen source earlier = shown := by
  induction schedule generalizing source shown with
  | nil =>
    obtain ⟨rfl, -⟩ := List.append_eq_nil_iff.mp split.symm
    exact ⟨[], [], source, rfl, rfl, rfl⟩
  | cons a later ih =>
    obtain ⟨next, first, onward⟩ := Option.bind_eq_some_iff.mp reached
    cases shown with
    | nil => exact ⟨[], a :: later, source, rfl, rfl, rfl⟩
    | cons item shown =>
      simp only [observed, first] at split
      have short := single source a next
      match now : seen source a next with
      | [] =>
        rw [now, List.nil_append] at split
        obtain ⟨earlier, later, middle, rfl, before, same⟩ := ih onward split
        exact ⟨a :: earlier, later, middle, rfl, by rw [run_cons, first, Option.bind_some, before],
          by simp only [observed, first, now, List.nil_append, same]⟩
      | [other] =>
        rw [now, List.cons_append, List.nil_append, List.cons_append] at split
        obtain ⟨rfl, behind⟩ := List.cons.inj split
        obtain ⟨earlier, later, middle, rfl, before, same⟩ := ih onward behind
        exact ⟨a :: earlier, later, middle, rfl, by rw [run_cons, first, Option.bind_some, before],
          by simp only [observed, first, now, List.cons_append, List.nil_append, same]⟩
      | _ :: _ :: _ =>
        rw [now] at short
        simp at short

end Machine
