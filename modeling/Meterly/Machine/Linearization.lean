import Mathlib.Data.List.Perm.Basic
import Meterly.Machine.Run

/-! # Linearizations of a run

Calls overlap. A linearization puts the calls that have ended in one order in which an object
serves them one at a time, and in which a call that ended before another began comes first. A call
takes effect in one of its own steps, or it has no effect and is answered from a state that it saw
on its way. Placing each of the latter in front of the step that left the state it saw gives such
an order.
-/

namespace Machine

/-- An order in which an object serves the ended calls one at a time, no call before one that preceded it. -/
structure Linearizes {τ ω : Type*} (serve : τ → ω → Option τ) (Precedes : ω → ω → Prop) (start finish : τ)
    (ended order : List ω) : Prop where
  perm : order.Perm ended
  legal : run serve start order = some finish
  respects : ∀ first ∈ order, ∀ second ∈ order, Precedes first second → [first, second].Sublist order

variable {σ α τ ω : Type*}

/-- At one state of a run, one call has ended and another has not begun. -/
def Precedes (step : σ → α → Option σ) (Ended Idle : ω → σ → Prop) (source : σ) (schedule : List α)
    (first second : ω) : Prop :=
  ∃ earlier later middle, schedule = earlier ++ later ∧ run step source earlier = some middle ∧
    Ended first middle ∧ Idle second middle

/-- What the steps of a run effect, each after what is seen of the state it leaves; states are counted. -/
def arranged (step : σ → α → Option σ) (effects : σ → α → σ → List ω) (seen : ℕ → List ω) :
    ℕ → σ → List α → List ω
  | _, _, [] => []
  | moment, s, a :: rest => match step s a with
    | none => []
    | some next => seen moment ++ effects s a next ++ arranged step effects seen (moment + 1) next rest

variable {step : σ → α → Option σ} {effects : σ → α → σ → List ω} {seen : ℕ → List ω} {moment : ℕ}
  {source middle target : σ} {first second schedule : List α} {serve : τ → ω → Option τ} {view : σ → τ} {item : ω}

theorem arranged_cons {a : α} {next : σ} (enabled : step source a = some next) (rest : List α) :
    arranged step effects seen moment source (a :: rest) =
      seen moment ++ effects source a next ++ arranged step effects seen (moment + 1) next rest := by
  rw [arranged, enabled]

theorem arranged_append (reached : run step source first = some middle) (second : List α) :
    arranged step effects seen moment source (first ++ second) = arranged step effects seen moment source first ++
      arranged step effects seen (moment + first.length) middle second := by
  induction first generalizing source moment with
  | nil =>
    obtain rfl := Option.some.inj reached
    rfl
  | cons a rest ih =>
    obtain ⟨next, enabled, onward⟩ := Option.bind_eq_some_iff.mp reached
    have count : moment + (a :: rest).length = moment + 1 + rest.length := by
      rw [List.length_cons]
      omega
    simp only [List.cons_append, arranged_cons enabled, ih onward, count, List.append_assoc]

/-- What is arranged is effected by a step, or seen of the state that the step leaves. -/
theorem exists_step_of_mem_arranged (member : item ∈ arranged step effects seen moment source schedule) :
    ∃ earlier a later middle next, schedule = earlier ++ a :: later ∧ run step source earlier = some middle ∧
      step middle a = some next ∧ (item ∈ seen (moment + earlier.length) ∨ item ∈ effects middle a next) := by
  induction schedule generalizing source moment with
  | nil => contradiction
  | cons a rest ih =>
    cases enabled : step source a with
    | none => simp [arranged, enabled] at member
    | some next =>
      rw [arranged_cons enabled, List.mem_append, List.mem_append] at member
      rcases member with now | onward
      · exact ⟨[], a, rest, source, next, rfl, rfl, enabled, now⟩
      · obtain ⟨earlier, b, later, middle, after, rfl, before, last, place⟩ := ih onward
        refine ⟨a :: earlier, b, later, middle, after, rfl, ?_, last, ?_⟩
        · rw [run_cons, enabled, Option.bind_some, before]
        · rwa [List.length_cons, Nat.add_comm earlier.length, ← Nat.add_assoc]

/-- Items that leave the state as it is have a run that ends where it began. -/
theorem run_of_forall_idle {s : τ} {items : List ω} (idle : ∀ item ∈ items, serve s item = some s) :
    run serve s items = some s := by
  induction items with
  | nil => rfl
  | cons item rest ih =>
    obtain ⟨now, later⟩ := List.forall_mem_cons.mp idle
    rw [run_cons, now, Option.bind_some, ih later]

/-- What is arranged is served one item at a time, where effects fit their steps and what is seen has none. -/
theorem run_arranged (reached : run step source schedule = some target)
    (sees : ∀ earlier a later middle, schedule = earlier ++ a :: later → run step source earlier = some middle →
      ∀ item ∈ seen (moment + earlier.length), serve (view middle) item = some (view middle))
    (takes : ∀ earlier a later middle next, schedule = earlier ++ a :: later → run step source earlier = some middle →
      step middle a = some next → run serve (view middle) (effects middle a next) = some (view next)) :
    run serve (view source) (arranged step effects seen moment source schedule) = some (view target) := by
  induction schedule generalizing source moment with
  | nil =>
    obtain rfl := Option.some.inj reached
    rfl
  | cons a rest ih =>
    obtain ⟨next, enabled, onward⟩ := Option.bind_eq_some_iff.mp reached
    have unchanged := run_of_forall_idle (sees [] a rest source rfl rfl)
    have effected := takes [] a rest source next rfl rfl enabled
    rw [arranged_cons enabled, List.append_assoc]
    refine run_append_iff.mpr ⟨_, unchanged, run_append_iff.mpr ⟨_, effected, ih onward ?_ ?_⟩⟩
    · rintro earlier b later middle rfl before item member
      apply sees (a :: earlier) b later middle rfl
      · rw [run_cons, enabled, Option.bind_some, before]
      · rwa [List.length_cons, Nat.add_comm earlier.length, ← Nat.add_assoc]
    · rintro earlier b later middle after rfl before last
      apply takes (a :: earlier) b later middle after rfl _ last
      rw [run_cons, enabled, Option.bind_some, before]

/-- Arranging loses and repeats nothing. -/
theorem arranged_perm (reached : run step source schedule = some target) :
    (arranged step effects seen moment source schedule).Perm
      (observed step effects source schedule ++ (List.range' moment schedule.length).flatMap seen) := by
  induction schedule generalizing source moment with
  | nil => exact .refl _
  | cons a rest ih =>
    obtain ⟨next, enabled, onward⟩ := Option.bind_eq_some_iff.mp reached
    rw [arranged_cons enabled, observed, enabled, List.length_cons, List.range'_succ, List.flatMap_cons]
    refine (List.perm_append_comm.append (ih onward)).trans ?_
    simp only [List.append_assoc]
    refine .append_left _ ?_
    simp only [← List.append_assoc]
    exact List.perm_append_comm.append_right _

/-- Items sorted by a number below a bound are the items. -/
theorem flatMap_filter_perm (point : ω → ℕ) {items : List ω} {bound : ℕ} (below : ∀ item ∈ items, point item < bound) :
    ((List.range' 0 bound).flatMap fun m => items.filter fun item => point item = m).Perm items := by
  suffices smaller : ∀ n, ((List.range' 0 n).flatMap fun m => items.filter fun item => point item = m).Perm
      (items.filter fun item => point item < n) by
    refine (smaller bound).trans (.of_eq (List.filter_eq_self.mpr fun item member => ?_))
    exact decide_eq_true (below item member)
  intro n
  induction n with
  | zero =>
    refine .of_eq (List.filter_eq_nil_iff.mpr fun item _ => ?_).symm
    simp
  | succ n ih =>
    have split := List.filter_append_perm (fun item => decide (point item < n))
      (items.filter fun item => point item < n + 1)
    have low : (items.filter fun item => point item < n + 1).filter (fun item => decide (point item < n)) =
        items.filter fun item => point item < n := by
      rw [List.filter_filter]
      apply List.filter_congr
      intro item _
      rw [Bool.eq_iff_iff]
      simp only [Bool.and_eq_true, decide_eq_true_eq]
      omega
    have high : (items.filter fun item => point item < n + 1).filter (fun item => !decide (point item < n)) =
        items.filter fun item => point item = n := by
      rw [List.filter_filter]
      apply List.filter_congr
      intro item _
      rw [Bool.eq_iff_iff]
      simp only [Bool.and_eq_true, Bool.not_eq_true', decide_eq_false_iff_not, decide_eq_true_eq]
      omega
    rw [low, high] at split
    rw [List.range'_1_concat, List.flatMap_append, List.flatMap_singleton, Nat.zero_add]
    exact (ih.append_right _).trans split

/-- Where each call takes effect in a step of its own, or has none and is answered from a state seen while it was
open, the run has a linearization. -/
theorem exists_linearization {Open Ended Idle : ω → σ → Prop} {pending : List ω}
    (ended_stays : ∀ item s later t, run step s later = some t → Ended item s → ¬ Open item t)
    (open_stays : ∀ item s later t, run step s later = some t → Open item s → ¬ Idle item t)
    (reached : run step source schedule = some target)
    (takes : ∀ earlier a later middle next, schedule = earlier ++ a :: later → run step source earlier = some middle →
      step middle a = some next → run serve (view middle) (effects middle a next) = some (view next) ∧
        ∀ item ∈ effects middle a next, Open item middle)
    (sees : ∀ item ∈ pending, ∃ earlier a later middle, schedule = earlier ++ a :: later ∧
      run step source earlier = some middle ∧ Open item middle ∧ serve (view middle) item = some (view middle)) :
    ∃ order, Linearizes serve (Precedes step Ended Idle source schedule) (view source) (view target)
      (observed step effects source schedule ++ pending) order := by
  classical
  have placed : ∀ item, ∃ point, item ∈ pending → ∃ earlier a later middle, earlier.length = point ∧
      schedule = earlier ++ a :: later ∧ run step source earlier = some middle ∧ Open item middle ∧
        serve (view middle) item = some (view middle) := by
    intro item
    by_cases member : item ∈ pending
    · obtain ⟨earlier, place⟩ := sees item member
      exact ⟨earlier.length, fun _ => ⟨earlier, by simpa using place⟩⟩
    · exact ⟨0, fun present => absurd present member⟩
  choose point placed using placed
  let seen (moment : ℕ) : List ω := pending.filter fun item => point item = moment
  -- A call seen at a moment was open in the state of that moment.
  have atMoment : ∀ earlier a later middle, schedule = earlier ++ a :: later →
      run step source earlier = some middle → ∀ item ∈ seen earlier.length,
        Open item middle ∧ serve (view middle) item = some (view middle) := by
    rintro earlier a later middle rfl before item member
    obtain ⟨present, count⟩ := List.mem_filter.mp member
    obtain ⟨earlier', a', later', middle', length, split, before', valid⟩ := placed item present
    obtain ⟨rfl, -⟩ := List.append_inj split (by rw [length, of_decide_eq_true count])
    obtain rfl := Option.some.inj (before.symm.trans before')
    exact valid
  -- Whatever is arranged along a part of the run was open in a state of that part.
  have opened : ∀ first second middle, schedule = first ++ second → run step source first = some middle →
      ∀ item, (item ∈ arranged step effects seen 0 source first →
          ∃ s later, run step s later = some middle ∧ Open item s) ∧
        (item ∈ arranged step effects seen first.length middle second →
          ∃ s later, run step middle later = some s ∧ Open item s) := by
    rintro first second middle rfl whole item
    constructor
    · intro member
      obtain ⟨earlier, a, later, s, next, rfl, before, last, place⟩ := exists_step_of_mem_arranged member
      obtain ⟨_, same, onward⟩ := run_append_iff.mp whole
      obtain rfl := Option.some.inj (before.symm.trans same)
      refine ⟨s, a :: later, onward, ?_⟩
      rcases place with now | now
      · rw [Nat.zero_add] at now
        exact (atMoment earlier a (later ++ second) s (by simp) before item now).1
      · exact (takes earlier a (later ++ second) s next (by simp) before last).2 item now
    · intro member
      obtain ⟨earlier, a, later, s, next, rfl, before, last, place⟩ := exists_step_of_mem_arranged member
      have both : run step source (first ++ earlier) = some s := run_append_iff.mpr ⟨middle, whole, before⟩
      refine ⟨s, earlier, before, ?_⟩
      rcases place with now | now
      · rw [← List.length_append] at now
        exact (atMoment (first ++ earlier) a later s (by simp) both item now).1
      · exact (takes (first ++ earlier) a later s next (by simp) both last).2 item now
  refine ⟨arranged step effects seen 0 source schedule, ?_, ?_, ?_⟩
  · refine (arranged_perm reached).trans (List.Perm.append_left _ (flatMap_filter_perm point ?_))
    intro item member
    obtain ⟨earlier, a, later, middle, length, rfl, -⟩ := placed item member
    rw [← length, List.length_append, List.length_cons]
    omega
  · refine run_arranged reached ?_ fun earlier a later middle next split before last =>
      (takes earlier a later middle next split before last).1
    intro earlier a later middle split before item member
    rw [Nat.zero_add] at member
    exact (atMoment earlier a later middle split before item member).2
  · rintro one oneMember other otherMember ⟨earlier, later, middle, rfl, before, ended, idle⟩
    rw [arranged_append before, Nat.zero_add] at oneMember otherMember ⊢
    have oneFirst : one ∈ arranged step effects seen 0 source earlier := by
      rcases List.mem_append.mp oneMember with here | behind
      · exact here
      · obtain ⟨s, onward, run, isOpen⟩ := (opened earlier later middle rfl before one).2 behind
        exact absurd isOpen (ended_stays one middle onward s run ended)
    have otherSecond : other ∈ arranged step effects seen earlier.length middle later := by
      rcases List.mem_append.mp otherMember with here | behind
      · obtain ⟨s, onward, run, isOpen⟩ := (opened earlier later middle rfl before other).1 here
        exact absurd idle (open_stays other s onward middle run isOpen)
      · exact behind
    exact (List.singleton_sublist.mpr oneFirst).append (List.singleton_sublist.mpr otherSecond)

end Machine
