import Mathlib.Algebra.BigOperators.Group.Finset.Basic
import Mathlib.Algebra.BigOperators.Group.List.Lemmas
import Mathlib.Algebra.GroupWithZero.Nat
import Mathlib.Data.List.Dedup
import Mathlib.Data.List.Sort
import Meterly.Store.Rows

/-! # Ordering and grouping the rows of a query

`ORDER BY` sorts by a comparison of rows, built column by column; the comparison of each column is
only assumed to be a total preorder, as a database collation is. Where no two rows compare equal
the listing is strictly increasing, hence determined by the set of rows. `GROUP BY` gives one row
for each key that occurs, computed from all rows with that key.
-/

section OrderBy

variable {α β : Type*}

/-- Compare rows by one column. -/
def onColumn (column : α → β) (cmp : β → β → Ordering) (a b : α) : Ordering := cmp (column a) (column b)

instance (column : α → β) (cmp : β → β → Ordering) [Std.TransCmp cmp] : Std.TransCmp (onColumn column cmp) where
  eq_swap := (inferInstance : Std.OrientedCmp cmp).eq_swap
  isLE_trans := (inferInstance : Std.TransCmp cmp).isLE_trans

theorem onColumn_eq_eq {column : α → β} {cmp : β → β → Ordering} [Std.LawfulEqCmp cmp] {a b : α} :
    onColumn column cmp a b = .eq ↔ column a = column b := by
  rw [onColumn, Std.LawfulEqCmp.compare_eq_iff_eq]

/-- List rows in the order of a comparison. -/
def orderBy (cmp : α → α → Ordering) (rows : List α) : List α :=
  rows.insertionSort fun a b => (cmp a b).isLE

variable {cmp : α → α → Ordering}

theorem orderBy_perm (cmp : α → α → Ordering) (rows : List α) : (orderBy cmp rows).Perm rows :=
  List.perm_insertionSort _ rows

@[simp] theorem mem_orderBy {row : α} {rows : List α} : row ∈ orderBy cmp rows ↔ row ∈ rows :=
  (orderBy_perm cmp rows).mem_iff

@[simp] theorem length_orderBy (rows : List α) : (orderBy cmp rows).length = rows.length :=
  (orderBy_perm cmp rows).length_eq

variable [Std.TransCmp cmp]

theorem orderBy_pairwise_isLE (rows : List α) : (orderBy cmp rows).Pairwise fun a b => (cmp a b).isLE := by
  have total : Std.Total fun a b => ((cmp a b).isLE : Prop) :=
    ⟨fun a b => by
      have swapped : cmp b a = (cmp a b).swap := Std.OrientedCmp.eq_swap
      rw [swapped]
      cases cmp a b <;> decide⟩
  have trans : IsTrans α fun a b => ((cmp a b).isLE : Prop) := ⟨fun _ _ _ => Std.TransCmp.isLE_trans⟩
  exact List.pairwise_insertionSort _ rows

/-- Rows that never compare equal are listed in strictly increasing order. -/
theorem orderBy_pairwise_lt {rows : List α} (distinct : rows.Pairwise fun a b => cmp a b ≠ .eq) :
    (orderBy cmp rows).Pairwise fun a b => cmp a b = .lt := by
  have different : (orderBy cmp rows).Pairwise fun a b => cmp a b ≠ .eq :=
    (orderBy_perm cmp rows).symm.pairwise distinct fun differs same => differs (Std.OrientedCmp.eq_symm same)
  refine (orderBy_pairwise_isLE rows).imp₂ ?_ different
  intro a b le ne
  cases compared : cmp a b with
  | lt => rfl
  | eq => exact absurd compared ne
  | gt => rw [compared] at le; contradiction

/-- Rows that never compare equal are listed alike, whatever order they are kept in. -/
theorem orderBy_eq_of_perm {rows others : List α} (same : rows.Perm others)
    (distinct : rows.Pairwise fun a b => cmp a b ≠ .eq) : orderBy cmp rows = orderBy cmp others := by
  have also : others.Pairwise fun a b => cmp a b ≠ .eq :=
    same.pairwise distinct fun differs equal => differs (Std.OrientedCmp.eq_symm equal)
  apply List.Perm.eq_of_pairwise _ (orderBy_pairwise_lt distinct) (orderBy_pairwise_lt also)
  · exact (orderBy_perm cmp rows).trans (same.trans (orderBy_perm cmp others).symm)
  · intro a b _ _ below above
    have swapped : cmp a b = (cmp b a).swap := Std.OrientedCmp.eq_swap
    rw [swapped, above] at below
    contradiction

end OrderBy

section GroupBy

variable {α κ ρ : Type*} [DecidableEq κ]

/-- One row for each key that occurs, computed from the rows with that key. -/
def groupBy (key : α → κ) (aggregate : List α → ρ) (rows : List α) : Rows κ ρ where
  entries := (rows.map key).dedup.map fun k => ⟨k, aggregate (rows.filter fun row => key row = k)⟩
  nodupKeys := by
    rw [List.NodupKeys, List.keys, List.map_map]
    exact (List.map_id _).symm ▸ List.nodup_dedup _

theorem lookup_groupBy (key : α → κ) (aggregate : List α → ρ) (rows : List α) (k : κ) :
    (groupBy key aggregate rows).lookup k =
      if k ∈ rows.map key then some (aggregate (rows.filter fun row => key row = k)) else none := by
  ext value
  rw [AList.lookup_eq_some_iff]
  simp only [groupBy, List.mem_map, List.mem_dedup, Sigma.mk.injEq]
  constructor
  · rintro ⟨other, present, rfl, same⟩
    rw [if_pos present]
    exact congrArg some (eq_of_heq same)
  · intro found
    split at found
    · next present => exact ⟨k, present, rfl, heq_of_eq (Option.some.inj found)⟩
    · contradiction

/-- Where the order of the rows does not matter to a group, it does not matter to the groups. -/
theorem groupBy_entries_perm {key : α → κ} {aggregate : List α → ρ} {rows others : List α} (same : rows.Perm others)
    (unordered : ∀ group permuted : List α, group.Perm permuted → aggregate group = aggregate permuted) :
    (groupBy key aggregate rows).entries.Perm (groupBy key aggregate others).entries := by
  apply AList.entries_perm_of_lookup
  intro k
  rw [lookup_groupBy, lookup_groupBy, unordered _ _ (same.filter _)]
  simp only [(same.map key).mem_iff]

/-- Keys that agree on the rows group them alike. -/
theorem groupBy_congr {key other : α → κ} {aggregate : List α → ρ} {rows : List α}
    (agree : ∀ row ∈ rows, key row = other row) : groupBy key aggregate rows = groupBy other aggregate rows := by
  have keys : rows.map key = rows.map other := List.map_congr_left agree
  have groups : ∀ k, (rows.filter fun row => key row = k) = rows.filter fun row => other row = k := by
    intro k
    apply List.filter_congr
    intro row member
    rw [agree row member]
  apply AList.ext
  simp only [groupBy, keys, groups]

/-- Groups that keep the number of their rows count every row once, in the group of its key. -/
theorem sum_size_groupBy (key : α → κ) (aggregate : List α → ρ) (rows : List α) (size : ρ → ℕ)
    (counts : ∀ group, size (aggregate group) = group.length) (test : κ → Bool) :
    (((groupBy key aggregate rows).entries.filter fun entry => test entry.1).map fun entry => size entry.2).sum =
      rows.countP fun row => test (key row) := by
  have single : ∀ k, size (aggregate (rows.filter fun row => key row = k)) = (rows.map key).count k := by
    intro k
    rw [counts, List.count_eq_countP, List.countP_map, List.countP_eq_length_filter]
    rfl
  calc (((groupBy key aggregate rows).entries.filter fun entry => test entry.1).map fun entry => size entry.2).sum
      = (((rows.map key).dedup.filter test).map fun k => (rows.map key).count k).sum := by
        simp only [groupBy, List.filter_map, List.map_map, Function.comp_def, single]
    _ = (rows.map key).countP test := List.sum_map_count_dedup_filter_eq_countP test _
    _ = rows.countP fun row => test (key row) := List.countP_map

/-- Rows are counted once by any finite set of values that holds all of theirs. -/
theorem length_eq_sum_count (value : α → κ) (rows : List α) {values : Finset κ}
    (covered : ∀ row ∈ rows, value row ∈ values) :
    rows.length = ∑ v ∈ values, (rows.filter fun row => value row = v).length := by
  have counted := Multiset.sum_count_eq_card (s := values) (m := (rows.map value : Multiset κ)) (by
    intro v member
    obtain ⟨row, present, rfl⟩ := List.mem_map.mp (Multiset.mem_coe.mp member)
    exact covered row present)
  rw [Multiset.coe_card, List.length_map] at counted
  rw [← counted]
  apply Finset.sum_congr rfl
  intro v _
  rw [Multiset.coe_count, List.count_eq_countP, List.countP_map, List.countP_eq_length_filter]
  rfl

end GroupBy

section Cursor

variable {α : Type*}

/-- The batches that a cursor fetches, until its rows are used up. -/
def cursorBatches (size : ℕ) (rows : List α) : List (List α) :=
  (List.range ((rows.length + size - 1) / size)).map fun batch => (rows.drop (batch * size)).take size

theorem flatten_range_batches (size : ℕ) (rows : List α) (count : ℕ) :
    ((List.range count).map fun batch => (rows.drop (batch * size)).take size).flatten = rows.take (count * size) := by
  induction count with
  | zero => rw [Nat.zero_mul, List.take_zero]; rfl
  | succ count ih =>
    rw [List.range_succ, List.map_append, List.flatten_append, ih, Nat.succ_mul, List.take_add]
    simp only [List.map_singleton, List.flatten_singleton]

/-- No row is lost or repeated at the edge of a batch. -/
theorem flatten_cursorBatches {size : ℕ} (positive : 0 < size) (rows : List α) :
    (cursorBatches size rows).flatten = rows := by
  rw [cursorBatches, flatten_range_batches, List.take_of_length_le]
  have split := Nat.div_add_mod (rows.length + size - 1) size
  have small := Nat.mod_lt (rows.length + size - 1) positive
  rw [Nat.mul_comm]
  omega

/-- No batch is larger than the cursor asks for. -/
theorem length_le_of_mem_cursorBatches {size : ℕ} {rows batch : List α} (fetched : batch ∈ cursorBatches size rows) :
    batch.length ≤ size := by
  obtain ⟨index, -, rfl⟩ := List.mem_map.mp fetched
  exact List.length_take_le ..

/-- The full batches, and what is left behind them. -/
theorem cursorBatches_eq {size : ℕ} (positive : 0 < size) (rows : List α) : cursorBatches size rows =
    ((List.range (rows.length / size)).map fun batch => (rows.drop (batch * size)).take size) ++
      if rows.drop (rows.length / size * size) = [] then [] else [rows.drop (rows.length / size * size)] := by
  have split := Nat.div_add_mod rows.length size
  have small := Nat.mod_lt rows.length positive
  rw [Nat.mul_comm] at split
  rw [cursorBatches]
  split_ifs with none_
  · have exact_ : rows.length ≤ rows.length / size * size := List.drop_eq_nil_iff.mp none_
    have count : (rows.length + size - 1) / size = rows.length / size := by
      rw [Nat.div_eq_iff positive]
      omega
    rw [count, List.append_nil]
  · have more : rows.length / size * size < rows.length := by
      by_contra le
      exact none_ (List.drop_eq_nil_iff.mpr (by omega))
    have count : (rows.length + size - 1) / size = rows.length / size + 1 := by
      rw [Nat.div_eq_iff positive, Nat.add_mul]
      omega
    have rest : (rows.drop (rows.length / size * size)).length ≤ size := by
      rw [List.length_drop]
      omega
    rw [count, List.range_succ, List.map_append, List.map_singleton, List.take_of_length_le rest]

theorem length_cursorBatches (size : ℕ) (rows : List α) :
    (cursorBatches size rows).length = (rows.length + size - 1) / size := by
  rw [cursorBatches, List.length_map, List.length_range]

/-- A cursor fetches no batch without rows. -/
theorem ne_nil_of_mem_cursorBatches {size : ℕ} {rows batch : List α} (fetched : batch ∈ cursorBatches size rows) :
    batch ≠ [] := by
  obtain ⟨index, inside, rfl⟩ := List.mem_map.mp fetched
  have positive : 0 < size := by
    by_contra zero
    obtain rfl : size = 0 := by omega
    rw [Nat.div_zero] at inside
    contradiction
  have remains := (Nat.le_div_iff_mul_le positive).mp (List.mem_range.mp inside)
  rw [Nat.succ_mul] at remains
  apply List.ne_nil_of_length_pos
  rw [List.length_take, List.length_drop]
  omega

theorem cursorBatches_map {β : Type*} (f : α → β) (size : ℕ) (rows : List α) :
    cursorBatches size (rows.map f) = (cursorBatches size rows).map (List.map f) := by
  simp only [cursorBatches, List.length_map, List.map_map, Function.comp_def, List.map_take, List.map_drop]

end Cursor
