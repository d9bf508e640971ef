import Mathlib.Data.Nat.Init
import Mathlib.Logic.Relation
import Mathlib.Order.WellFounded
import Meterly.Machine.Run

/-! # Machines that come to an end

Parties that take resources in a fixed order cannot wait for each other in a circle. Each party is given a rank,
the place in that order of what it waits for, and a party that waits does so for one of higher rank. Then
no chain of waiting closes, and every chain ends at a party that waits for nobody.

Some actions of a machine take work off: each lowers a measure. A run of such actions is no longer than
the measure it starts with, and where a state that is not done always has one enabled, it can only stop
when it is done.
-/

namespace Machine

/-! ## Who waits for whom -/

section Waiting

variable {Party Rank : Type*} [Preorder Rank] {waits : Party → Party → Prop} {rank : Party → Rank}

/-- Along a chain of waiting the rank climbs. -/
theorem rank_lt_of_chain (climbs : ∀ p q, waits p q → rank p < rank q) {p q : Party}
    (chain : Relation.TransGen waits p q) : rank p < rank q := by
  induction chain with
  | single first => exact climbs _ _ first
  | tail _ last ih => exact ih.trans (climbs _ _ last)

/-- Nobody waits for itself, directly or through others. -/
theorem not_waits_for_itself (climbs : ∀ p q, waits p q → rank p < rank q) (p : Party) :
    ¬ Relation.TransGen waits p p :=
  fun chain => lt_irrefl _ (rank_lt_of_chain climbs chain)

/-- Whoever waits, waits in the end for a party that waits for nobody. -/
theorem exists_waits_for_nobody [WellFoundedGT Rank] (climbs : ∀ p q, waits p q → rank p < rank q) (p : Party) :
    ∃ q, Relation.ReflTransGen waits p q ∧ ∀ r, ¬ waits q r := by
  induction above : rank p using WellFoundedGT.induction generalizing p with
  | ind _ ih =>
    rcases em (∃ q, waits p q) with ⟨q, first⟩ | free
    · obtain ⟨last, chain, free⟩ := ih (rank q) (above ▸ climbs p q first) q rfl
      exact ⟨last, .head first chain, free⟩
    · exact ⟨p, .refl, fun q edge => free ⟨q, edge⟩⟩

end Waiting

/-! ## What is left -/

variable {σ α : Type*} {step : σ → α → Option σ} {Moves : α → Prop} {Inv Done : σ → Prop} {left : σ → ℕ}
  {source target : σ} {schedule : List α}

/-- Each action of the run that takes work off is paid for by the measure. -/
theorem countP_add_le_of_run (takesOff : α → Bool) (left : σ → ℕ) (valid : Inv source) (moves : ∀ a ∈ schedule, Moves a)
    (reached : run step source schedule = some target)
    (kept : ∀ s a t, Inv s → Moves a → step s a = some t → Inv t)
    (lowers : ∀ s a t, Inv s → Moves a → step s a = some t →
      left t < left s ∨ takesOff a = false ∧ left t ≤ left s) :
    Inv target ∧ schedule.countP takesOff + left target ≤ left source := by
  induction schedule generalizing source with
  | nil =>
    obtain rfl := Option.some.inj reached
    exact ⟨valid, by simp⟩
  | cons a rest ih =>
    obtain ⟨next, first, onward⟩ := Option.bind_eq_some_iff.mp reached
    obtain ⟨mover, others⟩ := List.forall_mem_cons.mp moves
    obtain ⟨valid', bound⟩ := ih (kept source a next valid mover first) others onward
    refine ⟨valid', ?_⟩
    rcases lowers source a next valid mover first with paid | ⟨free, paid⟩
    · have one := List.countP_cons (p := takesOff) (a := a) (l := rest)
      split_ifs at one <;> omega
    · rw [List.countP_cons_of_neg (by rw [free]; exact Bool.false_ne_true)]
      omega

/-- A run of actions that all take work off is no longer than what was left. -/
theorem length_le_of_run (valid : Inv source) (moves : ∀ a ∈ schedule, Moves a)
    (reached : run step source schedule = some target)
    (kept : ∀ s a t, Inv s → Moves a → step s a = some t → Inv t)
    (lowers : ∀ s a t, Inv s → Moves a → step s a = some t → left t < left s) :
    Inv target ∧ schedule.length ≤ left source := by
  obtain ⟨valid', bound⟩ := countP_add_le_of_run (fun _ => true) left valid moves reached kept
    fun s a t valid mover first => .inl (lowers s a t valid mover first)
  rw [List.countP_true] at bound
  exact ⟨valid', Nat.le_of_add_right_le bound⟩

/-- A run that cannot be continued has come to the end. -/
theorem done_of_stuck (free : ∀ s, Inv s → ¬ Done s → ∃ a, Moves a ∧ (step s a).isSome) (valid : Inv target)
    (stuck : ∀ a, Moves a → step target a = none) : Done target := by
  by_contra undone
  obtain ⟨a, mover, enabled⟩ := free target valid undone
  rw [stuck a mover] at enabled
  contradiction

/-- There is a run to the end. -/
theorem exists_run_to_done (kept : ∀ s a t, Inv s → Moves a → step s a = some t → Inv t)
    (lowers : ∀ s a t, Inv s → Moves a → step s a = some t → left t < left s)
    (free : ∀ s, Inv s → ¬ Done s → ∃ a, Moves a ∧ (step s a).isSome) (valid : Inv source) :
    ∃ schedule target, (∀ a ∈ schedule, Moves a) ∧ run step source schedule = some target ∧ Done target := by
  induction more : left source using Nat.strong_induction_on generalizing source with
  | _ more ih =>
    by_cases done : Done source
    · exact ⟨[], source, List.forall_mem_nil _, rfl, done⟩
    · obtain ⟨a, mover, enabled⟩ := free source valid done
      obtain ⟨next, first⟩ := Option.isSome_iff_exists.mp enabled
      obtain ⟨rest, target, others, onward, done⟩ := ih (left next) (more ▸ lowers source a next valid mover first)
        (kept source a next valid mover first) rfl
      refine ⟨a :: rest, target, List.forall_mem_cons.mpr ⟨mover, others⟩, ?_, done⟩
      rw [run_cons, first, Option.bind_some, onward]

end Machine
