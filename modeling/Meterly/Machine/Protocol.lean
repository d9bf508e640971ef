import Meterly.Machine.Logged
import Meterly.Machine.Run

/-! # Computations whose log follows a protocol

A protocol is a machine whose actions are the lines of a log. A computation leads it from one state to
another, and says of the state that it ends in what it says of its value or of its error. What follows a
protocol part by part follows it as a whole.
-/

namespace Logged

variable {Line Error α β σ : Type} {step : σ → Line → Option σ} {source : σ} {returned : α → σ → Prop}
  {raised : Error → σ → Prop}

/-- What a computation comes to fits the state of the protocol. -/
def Fits (returned : α → σ → Prop) (raised : Error → σ → Prop) (target : σ) : Except Error α → Prop
  | .ok value => returned value target
  | .error error => raised error target

/-- The lines of a computation are a run of the protocol, and what it comes to fits the state behind them. -/
def Follows (step : σ → Line → Option σ) (source : σ) (returned : α → σ → Prop) (raised : Error → σ → Prop)
    (computation : Logged Line Error α) : Prop :=
  ∃ target, Machine.run step source computation.lines = some target ∧ Fits returned raised target computation.result

theorem Follows.imp {weaker : α → σ → Prop} {error : Error → σ → Prop} {computation : Logged Line Error α}
    (follows : Follows step source returned raised computation)
    (values : ∀ a target, returned a target → weaker a target)
    (errors : ∀ e target, raised e target → error e target) : Follows step source weaker error computation := by
  obtain ⟨target, reached, fits⟩ := follows
  refine ⟨target, reached, ?_⟩
  cases outcome : computation.result with
  | ok a =>
    rw [outcome] at fits
    exact values a target fits
  | error e =>
    rw [outcome] at fits
    exact errors e target fits

/-- A sequence follows a protocol when its second part goes on wherever the first one ends. -/
theorem Follows.bind {first : Logged Line Error α} {next : α → Logged Line Error β} {result : β → σ → Prop}
    (begins : Follows step source returned raised first)
    (continues : ∀ a middle, returned a middle → Follows step middle result raised (next a)) :
    Follows step source result raised (first >>= next) := by
  obtain ⟨lines, outcome⟩ := first
  obtain ⟨middle, reached, fits⟩ := begins
  cases outcome with
  | error e => exact ⟨middle, reached, fits⟩
  | ok a =>
    obtain ⟨target, later, ends⟩ := continues a middle fits
    exact ⟨target, Machine.run_append_iff.mpr ⟨middle, reached, later⟩, ends⟩

/-- A guarded computation follows a protocol when its handler goes on wherever it raises. -/
theorem Follows.tryCatch {first : Logged Line Error α} {handler : Error → Logged Line Error α}
    {error : Error → σ → Prop} (guarded : Follows step source returned raised first)
    (handled : ∀ e middle, raised e middle → Follows step middle returned error (handler e)) :
    Follows step source returned error (tryCatch first handler) := by
  obtain ⟨lines, outcome⟩ := first
  obtain ⟨middle, reached, fits⟩ := guarded
  cases outcome with
  | ok a => exact ⟨middle, reached, fits⟩
  | error e =>
    obtain ⟨target, later, ends⟩ := handled e middle fits
    exact ⟨target, Machine.run_append_iff.mpr ⟨middle, reached, later⟩, ends⟩

end Logged
