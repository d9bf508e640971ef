import Mathlib.Data.List.AList

/-! # Rows under a unique key

A table with a primary key or a unique index is an association list: the key constraint is part
of the type, so a duplicate key cannot be stored. Mathlib supplies lookup, insertion and erasure.
Selecting entries and the fact that the rows of a table are determined by its lookups, up to
the order they are kept in, belong beside them upstream.
-/

/-- The rows of one table, at most one for each key. -/
abbrev Rows (Key Row : Type*) := AList fun _ : Key => Row

namespace AList

variable {κ : Type*} {β : κ → Type*} {rows : AList β} {k : κ}

/-- The entries that pass a test. -/
def filterEntries (test : Sigma β → Bool) (rows : AList β) : AList β :=
  ⟨rows.entries.filter test, rows.nodupKeys.sublist List.filter_sublist⟩

@[simp] theorem entries_filterEntries (test : Sigma β → Bool) (rows : AList β) :
    (rows.filterEntries test).entries = rows.entries.filter test := rfl

variable [DecidableEq κ]

theorem lookup_eq_some_iff {row : β k} : rows.lookup k = some row ↔ ⟨k, row⟩ ∈ rows.entries :=
  mem_lookup_iff

/-- A selected entry is found exactly when it was there and passes. -/
theorem lookup_filterEntries (test : Sigma β → Bool) (rows : AList β) (k : κ) :
    (rows.filterEntries test).lookup k = (rows.lookup k).filter fun row => test ⟨k, row⟩ := by
  ext row
  rw [lookup_eq_some_iff, entries_filterEntries, List.mem_filter,
    ← lookup_eq_some_iff, Option.filter_eq_some_iff]

/-- Tables that answer every lookup alike hold the same rows. -/
theorem entries_perm_of_lookup {left right : AList β} (same : ∀ k, left.lookup k = right.lookup k) :
    left.entries.Perm right.entries :=
  List.lookup_ext left.nodupKeys right.nodupKeys fun k row => by
    change row ∈ left.lookup k ↔ row ∈ right.lookup k
    rw [same k]

theorem insert_of_lookup_eq_none {row : β k} (fresh : rows.lookup k = none) :
    (rows.insert k row).entries = ⟨k, row⟩ :: rows.entries :=
  entries_insert_of_notMem (lookup_eq_none.mp fresh)

/-- At most one row is stored under a key. -/
theorem filter_entries_eq (rows : AList β) (k : κ) :
    rows.entries.filter (fun entry => decide (entry.1 = k)) = (rows.lookup k).toList.map (Sigma.mk k) := by
  cases found : rows.lookup k with
  | none =>
    rw [Option.toList_none, List.map_nil, List.filter_eq_nil_iff]
    rintro ⟨other, row⟩ member same
    obtain rfl := of_decide_eq_true same
    rw [lookup_eq_some_iff.mpr member] at found
    contradiction
  | some row =>
    obtain ⟨before, after, split⟩ := List.append_of_mem (lookup_eq_some_iff.mp found)
    have distinct : (before ++ ⟨k, row⟩ :: after).NodupKeys := split ▸ rows.nodupKeys
    rw [List.NodupKeys, List.keys, List.map_append, List.map_cons, List.nodup_middle, List.nodup_cons,
      ← List.map_append] at distinct
    have others : ∀ entry ∈ before ++ after, ¬ (decide (entry.1 = k)) = true := by
      intro entry member same
      exact distinct.1 (List.mem_map.mpr ⟨entry, member, of_decide_eq_true same⟩)
    rw [split, List.filter_append, List.filter_cons_of_pos (by simp),
      List.filter_eq_nil_iff.mpr fun entry member => others entry (List.mem_append_left _ member),
      List.filter_eq_nil_iff.mpr fun entry member => others entry (List.mem_append_right _ member)]
    rfl

end AList
