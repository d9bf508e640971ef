import Meterly.Machine.Logged
import Meterly.Store.RowPolicy
import Meterly.Store.View

/-! # What a row policy keeps apart

Keys that no passing row has are out of reach of a policy's statements: their rows stay as they are.
And where the rows that pass are all under kept keys, a statement comes to the same on tables that
agree on these, whatever else they hold.
-/

/-- Computations that show the same fail alike or succeed with what shows the same. -/
theorem Except.cases_of_map_eq {Error Value Part : Type} {first second : Except Error Value} {shown : Value → Part}
    (same : first.map shown = second.map shown) : (∃ error, first = .error error ∧ second = .error error) ∨
      ∃ value value', first = .ok value ∧ second = .ok value' ∧ shown value = shown value' := by
  cases first with
  | error error =>
    cases second with
    | error error' => exact .inl ⟨error, rfl, congrArg Except.error (Except.error.inj same).symm⟩
    | ok value => contradiction
  | ok value =>
    cases second with
    | error error => contradiction
    | ok value' => exact .inr ⟨value, value', rfl, rfl, Except.ok.inj same⟩

namespace AList

variable {Key Row : Type} [DecidableEq Key] {keep : Key → Bool} {removed : List (Σ _ : Key, Row)} {rows other : Rows Key Row}

/-- Removing rows that are not seen does not show. -/
theorem view_foldl_erase_of_hidden (hidden : ∀ entry ∈ removed, ¬ keep entry.1) :
    (removed.foldl (fun rows entry => rows.erase entry.1) rows).view keep id = rows.view keep id := by
  induction removed generalizing rows with
  | nil => rfl
  | cons entry rest ih =>
    obtain ⟨first, others⟩ := List.forall_mem_cons.mp hidden
    exact (ih others).trans (view_erase_of_hidden first)

/-- Tables that show the same still do after the same rows are removed. -/
theorem view_foldl_erase_of_kept (kept : ∀ entry ∈ removed, keep entry.1) (same : rows.view keep id = other.view keep id) :
    (removed.foldl (fun rows entry => rows.erase entry.1) rows).view keep id =
      (removed.foldl (fun rows entry => rows.erase entry.1) other).view keep id := by
  induction removed generalizing rows other with
  | nil => exact same
  | cons entry rest ih =>
    obtain ⟨first, others⟩ := List.forall_mem_cons.mp kept
    refine ih others ?_
    rw [view_erase_of_kept first, view_erase_of_kept first, same]

end AList

namespace RowPolicy

variable {Key Row Error : Type} {policy : RowPolicy Key Row Error} {keep passes : Key → Bool}

/-- No row under a kept key passes. -/
def Spares (policy : RowPolicy Key Row Error) (keep : Key → Bool) : Prop :=
  ∀ key row, policy key row = .ok true → ¬ keep key

/-! ## Rows out of reach -/

namespace Spares

variable {test : Key → Bool} {violation hidden : Error} {constraint : Except Error Unit} {key : Key} {row stored : Row}
  {inserted : Bool}

theorem of_check (spares : policy.Spares keep) (passed : policy.check violation key row = .ok ()) : ¬ keep key := by
  obtain ⟨visible, verdict, passed⟩ := Except.exists_of_bind_eq_ok passed
  cases visible with
  | true => exact spares key row verdict
  | false => contradiction

theorem of_select (spares : policy.Spares keep) {entries selected : List (Σ _ : Key, Row)}
    (selects : policy.select test entries = .ok selected) : ∀ entry ∈ selected, ¬ keep entry.1 := by
  induction entries generalizing selected with
  | nil =>
    obtain rfl := Except.ok.inj selects
    exact List.forall_mem_nil _
  | cons entry rest ih =>
    obtain ⟨visible, verdict, selects⟩ := Except.exists_of_bind_eq_ok selects
    obtain ⟨others, selected, selects⟩ := Except.exists_of_bind_eq_ok selects
    obtain rfl := Except.ok.inj selects
    split_ifs with passed
    · refine List.forall_mem_cons.mpr ⟨spares entry.1 entry.2 ?_, ih selected⟩
      rw [verdict, (Bool.and_eq_true_iff.mp passed).1]
    · exact ih selected

variable [DecidableEq Key] {rows after : Rows Key Row}

theorem delete (spares : policy.Spares keep) {removed : List (Σ _ : Key, Row)}
    (deletes : policy.delete test rows = .ok (removed, after)) : after.view keep id = rows.view keep id := by
  obtain ⟨selected, selects, deletes⟩ := Except.exists_of_bind_eq_ok deletes
  obtain ⟨rfl, rfl⟩ := Prod.mk.inj (Except.ok.inj deletes)
  exact AList.view_foldl_erase_of_hidden (spares.of_select selects)

theorem insertOrNothing (spares : policy.Spares keep)
    (inserts : policy.insertOrNothing violation constraint key row rows = .ok (inserted, after)) :
    after.view keep id = rows.view keep id := by
  obtain ⟨⟨⟩, passed, inserts⟩ := Except.exists_of_bind_eq_ok inserts
  split at inserts
  · obtain ⟨-, rfl⟩ := Prod.mk.inj (Except.ok.inj inserts)
    rfl
  · obtain ⟨-, -, inserts⟩ := Except.exists_of_bind_eq_ok inserts
    obtain ⟨-, rfl⟩ := Prod.mk.inj (Except.ok.inj inserts)
    exact AList.view_insert_of_hidden (spares.of_check passed) row

theorem insertOrUpdate (spares : policy.Spares keep) {update : Row → Except Error Row}
    (upserts : policy.insertOrUpdate violation hidden constraint key row update rows = .ok (inserted, stored, after)) :
    after.view keep id = rows.view keep id := by
  obtain ⟨⟨⟩, passed, upserts⟩ := Except.exists_of_bind_eq_ok upserts
  have apart := spares.of_check passed
  split at upserts
  · obtain ⟨-, -, upserts⟩ := Except.exists_of_bind_eq_ok upserts
    obtain ⟨-, same⟩ := Prod.mk.inj (Except.ok.inj upserts)
    obtain ⟨rfl, rfl⟩ := Prod.mk.inj same
    exact AList.view_insert_of_hidden apart _
  · obtain ⟨-, -, upserts⟩ := Except.exists_of_bind_eq_ok upserts
    obtain ⟨updated, -, upserts⟩ := Except.exists_of_bind_eq_ok upserts
    obtain ⟨-, -, upserts⟩ := Except.exists_of_bind_eq_ok upserts
    obtain ⟨-, same⟩ := Prod.mk.inj (Except.ok.inj upserts)
    obtain ⟨rfl, rfl⟩ := Prod.mk.inj same
    exact AList.view_insert_of_hidden apart _

end Spares

/-! ## Tables that agree on the rows in reach -/

section Agreement

variable {test : Key → Bool} {violation hidden : Error} {constraint : Except Error Unit} {key : Key} {row : Row}
  {rows other : Rows Key Row}

/-- A query returns the same rows. -/
theorem select_agree (lawful : policy.Passes passes) (within : ∀ key, passes key → keep key)
    (same : rows.view keep id = other.view keep id) (test : Key → Bool) :
    policy.select test rows.entries = policy.select test other.entries := by
  have inReach : ∀ key, (passes key && test key) → keep key := fun key seen => within key (Bool.and_eq_true_iff.mp seen).1
  rw [select_of_passes lawful, select_of_passes lawful,
    ← AList.filter_entries_view_id keep (fun key => passes key && test key) inReach, same,
    AList.filter_entries_view_id keep _ inReach]

variable [DecidableEq Key]

theorem lookup_agree (kept : keep key) (same : rows.view keep id = other.view keep id) :
    rows.lookup key = other.lookup key := by
  have shown (rows : Rows Key Row) : (rows.view keep id).lookup key = rows.lookup key :=
    (AList.lookup_view kept).trans Option.map_id'
  rw [← shown rows, same, shown other]

theorem insert_agree (kept : keep key) (same : rows.view keep id = other.view keep id) (row : Row) :
    (rows.insert key row).view keep id = (other.insert key row).view keep id := by
  rw [AList.view_insert_of_kept kept, AList.view_insert_of_kept kept, same]

theorem delete_agree (lawful : policy.Passes passes) (within : ∀ key, passes key → keep key)
    (same : rows.view keep id = other.view keep id) (test : Key → Bool) :
    (policy.delete test rows).map (Prod.map id (AList.view keep id)) =
      (policy.delete test other).map (Prod.map id (AList.view keep id)) := by
  have selected := select_of_passes lawful test rows.entries
  rw [delete, delete, ← select_agree lawful within same test, selected]
  refine congrArg (fun view => Except.ok (_, view)) (AList.view_foldl_erase_of_kept (fun entry member => ?_) same)
  exact within _ (Bool.and_eq_true_iff.mp (List.mem_filter.mp member).2).1

omit [DecidableEq Key] in
theorem check_of_not_passes (lawful : policy.Passes passes) (apart : ¬ passes key) :
    policy.check violation key row = .error violation := by
  rw [check, lawful key row, Bool.eq_false_iff.mpr apart]
  rfl

theorem insertOrNothing_agree (lawful : policy.Passes passes) (within : ∀ key, passes key → keep key)
    (same : rows.view keep id = other.view keep id) :
    (policy.insertOrNothing violation constraint key row rows).map (Prod.map id (AList.view keep id)) =
      (policy.insertOrNothing violation constraint key row other).map (Prod.map id (AList.view keep id)) := by
  by_cases own : passes key
  · have kept := within key own
    rw [insertOrNothing, insertOrNothing, check_of_passes lawful own, ← lookup_agree kept same]
    cases rows.lookup key with
    | some before => exact congrArg (fun view => Except.ok (false, view)) same
    | none =>
      cases constraint with
      | error error => rfl
      | ok value => exact congrArg (fun view => Except.ok (true, view)) (insert_agree kept same row)
  · rw [insertOrNothing, insertOrNothing, check_of_not_passes lawful own]
    rfl

theorem insertOrUpdate_agree (lawful : policy.Passes passes) (within : ∀ key, passes key → keep key)
    (same : rows.view keep id = other.view keep id) {update : Row → Except Error Row} :
    (policy.insertOrUpdate violation hidden constraint key row update rows).map
        (Prod.map id (Prod.map id (AList.view keep id))) =
      (policy.insertOrUpdate violation hidden constraint key row update other).map
        (Prod.map id (Prod.map id (AList.view keep id))) := by
  by_cases own : passes key
  · have kept := within key own
    simp only [insertOrUpdate, check_of_passes lawful own, ← lookup_agree kept same]
    cases rows.lookup key with
    | none =>
      cases constraint with
      | error error => rfl
      | ok value => exact congrArg (fun view => Except.ok (true, row, view)) (insert_agree kept same row)
    | some before =>
      cases updated : update before with
      | error error => simp only [updated]; rfl
      | ok after =>
        simp only [updated]
        exact congrArg (fun view => Except.ok (false, after, view)) (insert_agree kept same after)
  · rw [insertOrUpdate, insertOrUpdate, check_of_not_passes lawful own]
    rfl

end Agreement

end RowPolicy
