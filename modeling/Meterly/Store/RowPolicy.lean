import Meterly.Store.Rows

/-! # Statements under a row policy

A row policy is an expression that is evaluated on a row: the row passes, does not pass, or the
evaluation fails. A query sees only the rows that pass. A row that a statement writes has to pass as it
is proposed and as it is stored, and so does the row in the way that an upsert replaces; else the
statement fails.

A policy that only looks at the key and never fails says nothing new to a statement that tests the key
for the same, and nothing at all to one that writes under a key that passes.
-/

/-- Whether a row passes; the evaluation may fail. -/
abbrev RowPolicy (Key Row Error : Type) := Key → Row → Except Error Bool

namespace RowPolicy

variable {Key Row Error : Type} {policy : RowPolicy Key Row Error} {passes : Key → Bool}

/-- No policy is in force. -/
def unrestricted : RowPolicy Key Row Error := fun _ _ => .ok true

/-- The entries that pass the policy and then a test. -/
def select (policy : RowPolicy Key Row Error) (test : Key → Bool) :
    List (Σ _ : Key, Row) → Except Error (List (Σ _ : Key, Row))
  | [] => .ok []
  | entry :: rest => do
    let visible ← policy entry.1 entry.2
    let selected ← policy.select test rest
    return if visible && test entry.1 then entry :: selected else selected

/-- A row has to pass. -/
def check (policy : RowPolicy Key Row Error) (violation : Error) (key : Key) (row : Row) : Except Error Unit := do
  if ← policy key row then return () else throw violation

variable [DecidableEq Key]

/-- Remove the selected rows. -/
def delete (policy : RowPolicy Key Row Error) (test : Key → Bool) (rows : Rows Key Row) :
    Except Error (List (Σ _ : Key, Row) × Rows Key Row) := do
  let removed ← policy.select test rows.entries
  return (removed, removed.foldl (fun rows entry => rows.erase entry.1) rows)

/-- Insert a row unless its key is taken; the row has to pass either way. A constraint is checked after
an insertion. Also tells whether the row was inserted. -/
def insertOrNothing (policy : RowPolicy Key Row Error) (violation : Error) (constraint : Except Error Unit)
    (key : Key) (row : Row) (rows : Rows Key Row) : Except Error (Bool × Rows Key Row) := do
  policy.check violation key row
  match rows.lookup key with
  | some _ => return (false, rows)
  | none =>
    constraint
    return (true, rows.insert key row)

/-- Insert a row or, where its key is taken, update the one in the way: the proposed row, the row in the
way and the updated row have to pass. Also tells whether the row was inserted, and the row stored. -/
def insertOrUpdate (policy : RowPolicy Key Row Error) (violation hidden : Error) (constraint : Except Error Unit)
    (key : Key) (row : Row) (update : Row → Except Error Row) (rows : Rows Key Row) :
    Except Error (Bool × Row × Rows Key Row) := do
  policy.check violation key row
  match rows.lookup key with
  | none =>
    constraint
    return (true, row, rows.insert key row)
  | some before =>
    policy.check hidden key before
    let after ← update before
    policy.check violation key after
    return (false, after, rows.insert key after)

/-- The policy passes exactly the rows whose keys do, and never fails. -/
def Passes (policy : RowPolicy Key Row Error) (passes : Key → Bool) : Prop :=
  ∀ key row, policy key row = .ok (passes key)

omit [DecidableEq Key] in
theorem passes_unrestricted : (unrestricted : RowPolicy Key Row Error).Passes fun _ => true := fun _ _ => rfl

omit [DecidableEq Key] in
theorem select_of_passes (lawful : policy.Passes passes) (test : Key → Bool) (entries : List (Σ _ : Key, Row)) :
    policy.select test entries = .ok (entries.filter fun entry => passes entry.1 && test entry.1) := by
  induction entries with
  | nil => rfl
  | cons entry rest ih =>
    rw [select, lawful entry.1 entry.2, ih, List.filter_cons]
    rfl

omit [DecidableEq Key] in
theorem check_of_passes (lawful : policy.Passes passes) {key : Key} (own : passes key) (violation : Error) (row : Row) :
    policy.check violation key row = .ok () := by
  rw [check, lawful key row, own]
  rfl

omit [DecidableEq Key] in
/-- A test that already implies the policy makes it redundant, and the policy makes the test so. -/
theorem select_congr {other : RowPolicy Key Row Error} {otherPasses : Key → Bool} (lawful : policy.Passes passes)
    (also : other.Passes otherPasses) {test otherTest : Key → Bool}
    (same : ∀ key, (passes key && test key) = (otherPasses key && otherTest key)) (entries : List (Σ _ : Key, Row)) :
    policy.select test entries = other.select otherTest entries := by
  rw [select_of_passes lawful, select_of_passes also]
  congr 2
  funext entry
  exact same entry.1

/-- As with `select`. -/
theorem delete_congr {other : RowPolicy Key Row Error} {otherPasses : Key → Bool} (lawful : policy.Passes passes)
    (also : other.Passes otherPasses) {test otherTest : Key → Bool}
    (same : ∀ key, (passes key && test key) = (otherPasses key && otherTest key)) (rows : Rows Key Row) :
    policy.delete test rows = other.delete otherTest rows := by
  rw [delete, delete, select_congr lawful also same]

/-- A policy does not touch the insertion of a row that passes. -/
theorem insertOrNothing_of_passes (lawful : policy.Passes passes) {key : Key} (own : passes key) (violation : Error)
    (constraint : Except Error Unit) (row : Row) (rows : Rows Key Row) :
    policy.insertOrNothing violation constraint key row rows =
      unrestricted.insertOrNothing violation constraint key row rows := by
  rw [insertOrNothing, insertOrNothing, check_of_passes lawful own, check_of_passes passes_unrestricted rfl]

/-- A policy does not touch an upsert under a key that passes: neither the proposed row nor the one in the
way nor the updated one can fail it. -/
theorem insertOrUpdate_of_passes (lawful : policy.Passes passes) {key : Key} (own : passes key)
    (violation hidden : Error) (constraint : Except Error Unit) (row : Row) (update : Row → Except Error Row)
    (rows : Rows Key Row) :
    policy.insertOrUpdate violation hidden constraint key row update rows =
      unrestricted.insertOrUpdate violation hidden constraint key row update rows := by
  have unchecked : (unrestricted : RowPolicy Key Row Error).Passes fun _ => true := passes_unrestricted
  simp only [insertOrUpdate, check_of_passes lawful own, check_of_passes unchecked rfl]

section Outcomes

variable {violation hidden : Error} {constraint : Except Error Unit} {key : Key} {row before after : Row}
  {update : Row → Except Error Row} {rows : Rows Key Row}

theorem insertOrNothing_of_fresh (lawful : policy.Passes passes) (own : passes key) (fresh : rows.lookup key = none) :
    policy.insertOrNothing violation (.ok ()) key row rows = .ok (true, rows.insert key row) := by
  rw [insertOrNothing, check_of_passes lawful own, fresh]
  rfl

theorem insertOrNothing_of_taken (lawful : policy.Passes passes) (own : passes key)
    (taken : rows.lookup key = some before) :
    policy.insertOrNothing violation constraint key row rows = .ok (false, rows) := by
  rw [insertOrNothing, check_of_passes lawful own, taken]
  rfl

theorem insertOrUpdate_of_fresh (lawful : policy.Passes passes) (own : passes key) (fresh : rows.lookup key = none) :
    policy.insertOrUpdate violation hidden (.ok ()) key row update rows = .ok (true, row, rows.insert key row) := by
  rw [insertOrUpdate, check_of_passes lawful own, fresh]
  rfl

theorem insertOrUpdate_of_taken (lawful : policy.Passes passes) (own : passes key)
    (taken : rows.lookup key = some before) (updated : update before = .ok after) :
    policy.insertOrUpdate violation hidden constraint key row update rows =
      .ok (false, after, rows.insert key after) := by
  simp only [insertOrUpdate, check_of_passes lawful own, taken, updated]
  rfl

end Outcomes

end RowPolicy
