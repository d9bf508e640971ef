import Mathlib.Logic.Basic

/-! # Computations that log

A computation writes lines and then returns a value or raises an error. What was written stays written,
whatever is raised behind it. A renaming of lines, errors and values goes through a computation part
by part, so that two computations which differ by a renaming are compared step by step. Where nothing is
written, a computation is what it comes to.
-/

/-! ## What a computation comes to -/

namespace Except

variable {Error Value Result : Type} {first : Except Error Value} {rest : Value → Except Error Result}

theorem ok_bind (value : Value) : (Except.ok value >>= rest) = rest value := rfl

theorem error_bind (error : Error) : (Except.error error >>= rest) = .error error := rfl

/-- A computation that succeeds did so at each of its steps. -/
theorem exists_of_bind_eq_ok {result : Result} (succeeds : (first >>= rest) = .ok result) :
    ∃ value, first = .ok value ∧ rest value = .ok result := by
  cases first with
  | error error => contradiction
  | ok value => exact ⟨value, rfl, succeeds⟩

end Except

/-! ## Logging -/

/-- The lines of a computation and what it comes to. -/
structure Logged (Line Error Value : Type) where
  lines : List Line
  result : Except Error Value

namespace Logged

variable {Line Error α β γ δ : Type}

instance : Monad (Logged Line Error) where
  pure value := ⟨[], .ok value⟩
  bind first next :=
    match first.result with
    | .ok value => ⟨first.lines ++ (next value).lines, (next value).result⟩
    | .error error => ⟨first.lines, .error error⟩

instance : MonadExcept Error (Logged Line Error) where
  throw error := ⟨[], .error error⟩
  tryCatch first handler :=
    match first.result with
    | .ok value => ⟨first.lines, .ok value⟩
    | .error error => ⟨first.lines ++ (handler error).lines, (handler error).result⟩

/-- Write one line. -/
def emit (line : Line) : Logged Line Error Unit := ⟨[line], .ok ()⟩

/-- Return or raise, and write nothing. -/
def ofExcept (result : Except Error α) : Logged Line Error α := ⟨[], result⟩

/-- Rename what a computation comes to. -/
def renameResult (error : Error → Error) (value : α → β) : Except Error α → Except Error β
  | .ok a => .ok (value a)
  | .error e => .error (error e)

/-- Rename the lines of a computation and what it comes to. -/
def rename (line : Line → Line) (error : Error → Error) (value : α → β) (computation : Logged Line Error α) :
    Logged Line Error β :=
  ⟨computation.lines.map line, renameResult error value computation.result⟩

section Rename

variable {line : Line → Line} {error : Error → Error} {value : α → β}

theorem rename_emit (written : Line) :
    rename line error id (emit written : Logged Line Error Unit) = emit (line written) := rfl

/-- The renaming of a sequence is the sequence of the renamed parts. -/
theorem rename_bind {first : Logged Line Error α} {first' : Logged Line Error β} {next : α → Logged Line Error γ}
    {next' : β → Logged Line Error δ} {result : γ → δ} (begins : rename line error value first = first')
    (continues : ∀ a, rename line error result (next a) = next' (value a)) :
    rename line error result (first >>= next) = first' >>= next' := by
  subst begins
  obtain ⟨lines, outcome⟩ := first
  cases outcome with
  | error e => rfl
  | ok a =>
    show rename line error result ⟨lines ++ (next a).lines, (next a).result⟩ =
      ⟨lines.map line ++ (next' (value a)).lines, (next' (value a)).result⟩
    rw [← continues a]
    simp only [rename, List.map_append]

/-- The renaming of a guarded computation is that of the computation under that of its handler. -/
theorem rename_tryCatch {first : Logged Line Error α} {first' : Logged Line Error β}
    {handler : Error → Logged Line Error α} {handler' : Error → Logged Line Error β}
    (guarded : rename line error value first = first')
    (handled : ∀ e, rename line error value (handler e) = handler' (error e)) :
    rename line error value (tryCatch first handler) = tryCatch first' handler' := by
  subst guarded
  obtain ⟨lines, outcome⟩ := first
  cases outcome with
  | ok a => rfl
  | error e =>
    show rename line error value ⟨lines ++ (handler e).lines, (handler e).result⟩ =
      ⟨lines.map line ++ (handler' (error e)).lines, (handler' (error e)).result⟩
    rw [← handled e]
    simp only [rename, List.map_append]

end Rename

/-- Every line of a computation is of one kind, and what it returns is of another. -/
structure Keeps (line : Line → Prop) (value : α → Prop) (computation : Logged Line Error α) : Prop where
  lines : ∀ written ∈ computation.lines, line written
  result : ∀ a, computation.result = .ok a → value a

section Keeps

variable {line : Line → Prop} {value : α → Prop}

theorem keeps_pure {a : α} (returned : value a) : Keeps line value (pure a : Logged Line Error α) where
  lines := fun _ member => absurd member List.not_mem_nil
  result := by
    intro other same
    cases same
    exact returned

theorem keeps_throw (error : Error) : Keeps line value (throw error : Logged Line Error α) where
  lines := fun _ member => absurd member List.not_mem_nil
  result := fun _ same => absurd same (by rintro ⟨⟩)

theorem keeps_ofExcept {result : Except Error α} (returned : ∀ a, result = .ok a → value a) :
    Keeps line value (ofExcept result) where
  lines := fun _ member => absurd member List.not_mem_nil
  result := returned

theorem keeps_emit {written : Line} (kind : line written) {value : Unit → Prop} (returned : value ()) :
    Keeps line value (emit written : Logged Line Error Unit) where
  lines := by
    intro other member
    rw [List.mem_singleton.mp member]
    exact kind
  result := fun _ _ => returned

/-- A sequence keeps to what its parts keep to, the second of them behind what the first returns. -/
theorem Keeps.bind {first : Logged Line Error α} {next : α → Logged Line Error β} {result : β → Prop}
    (begins : Keeps line value first) (continues : ∀ a, value a → Keeps line result (next a)) :
    Keeps line result (first >>= next) := by
  obtain ⟨lines, outcome⟩ := first
  cases outcome with
  | error e => exact ⟨begins.lines, fun _ same => absurd same (by rintro ⟨⟩)⟩
  | ok a =>
    obtain ⟨later, returned⟩ := continues a (begins.result a rfl)
    refine ⟨fun written member => ?_, returned⟩
    rcases List.mem_append.mp member with earlier | behind
    · exact begins.lines written earlier
    · exact later written behind

theorem Keeps.tryCatch {first : Logged Line Error α} {handler : Error → Logged Line Error α}
    (guarded : Keeps line value first) (handled : ∀ e, Keeps line value (handler e)) :
    Keeps line value (tryCatch first handler) := by
  obtain ⟨lines, outcome⟩ := first
  cases outcome with
  | ok a => exact guarded
  | error e =>
    obtain ⟨later, returned⟩ := handled e
    refine ⟨fun written member => ?_, returned⟩
    rcases List.mem_append.mp member with earlier | behind
    · exact guarded.lines written earlier
    · exact later written behind

theorem Keeps.imp {weaker : α → Prop} {computation : Logged Line Error α} (keeps : Keeps line value computation)
    (implies : ∀ a, value a → weaker a) : Keeps line weaker computation :=
  ⟨keeps.lines, fun a same => implies a (keeps.result a same)⟩

theorem keeps_forM {action : α → Logged Line Error Unit} {xs : List α}
    (each : ∀ x ∈ xs, Keeps line (fun _ => True) (action x)) : Keeps line (fun _ => True) (xs.forM action) := by
  induction xs with
  | nil => exact keeps_pure trivial
  | cons x rest ih =>
    apply (each x (List.mem_cons_self ..)).bind
    intro _ _
    exact ih fun other member => each other (List.mem_cons_of_mem x member)

end Keeps

end Logged
