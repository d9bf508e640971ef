import Meterly.Store.RowTable

/-! # A part of a table

What one observer sees of a table: the rows under the keys that are kept, with a part of each row
forgotten. Taking the part commutes with every operation on a kept key and with the end of every
transaction, and no operation on another key shows in it. The order of the rows is kept too, so a
query of the part sees the same list.
-/

/-- The effect as it shows on the part of a row. -/
def Effect.map {Row Part : Type*} (forget : Row → Part) : Effect Row → Effect Part
  | keep => keep
  | write row => write (forget row)
  | erase => erase

theorem Effect.map_map {Row Part Less : Type*} (forget : Row → Part) (again : Part → Less) (effect : Effect Row) :
    (effect.map forget).map again = effect.map (again ∘ forget) := by
  cases effect <;> rfl

/-- The hold as it shows on the part of a row. -/
def Hold.map {Txn Row Part : Type*} (forget : Row → Part) (hold : Hold Txn Row) : Hold Txn Part :=
  ⟨hold.owner, hold.effect.map forget⟩

namespace AList

variable {Key Row Part : Type*} (keep : Key → Bool) (forget : Row → Part)

/-- The entries under the kept keys, in their order. -/
def viewEntries (entries : List (Σ _ : Key, Row)) : List (Σ _ : Key, Part) :=
  (entries.filter fun entry => keep entry.1).map fun entry => ⟨entry.1, forget entry.2⟩

/-- The rows under the kept keys. -/
def view (rows : Rows Key Row) : Rows Key Part where
  entries := viewEntries keep forget rows.entries
  nodupKeys := by
    rw [List.NodupKeys, List.keys, viewEntries, List.map_map]
    exact (rows.nodupKeys.sublist List.filter_sublist : (rows.entries.filter _).NodupKeys)

@[simp] theorem entries_view (rows : Rows Key Row) :
    (rows.view keep forget).entries = viewEntries keep forget rows.entries := rfl

variable {keep forget} {rows : Rows Key Row} {key : Key}

theorem viewEntries_cons_of_kept {entries : List (Σ _ : Key, Row)} {row : Row} (kept : keep key) :
    viewEntries keep forget (⟨key, row⟩ :: entries) = ⟨key, forget row⟩ :: viewEntries keep forget entries := by
  simp only [viewEntries, List.filter_cons, kept, if_true, List.map_cons]

theorem viewEntries_cons_of_hidden {entries : List (Σ _ : Key, Row)} {row : Row} (hidden : ¬ keep key) :
    viewEntries keep forget (⟨key, row⟩ :: entries) = viewEntries keep forget entries := by
  simp only [viewEntries, List.filter_cons, hidden, Bool.false_eq_true, if_false]

/-- Looking at a part of what is seen. -/
theorem view_view {Less : Type*} (again : Part → Less) (rows : Rows Key Row) :
    (rows.view keep forget).view keep again = rows.view keep (again ∘ forget) := by
  apply AList.ext
  simp only [entries_view, viewEntries, List.filter_map, List.map_map, List.filter_filter, Function.comp_def,
    Bool.and_self]

/-- With nothing forgotten, a query of the kept keys sees the same rows. -/
theorem filter_entries_view_id (keep test : Key → Bool) (within : ∀ key, test key → keep key) (rows : Rows Key Row) :
    ((rows.view keep id).entries.filter fun entry => test entry.1) = rows.entries.filter fun entry => test entry.1 := by
  simp only [entries_view, viewEntries, id, List.map_id_fun', List.filter_filter]
  apply List.filter_congr
  intro entry _
  cases passes : test entry.1 with
  | true => rw [within _ passes, Bool.and_self]
  | false => rw [Bool.false_and]

variable [DecidableEq Key]

private theorem kerase_head {Row : Type*} {row : Row} {entries : List (Σ _ : Key, Row)} :
    List.kerase key (⟨key, row⟩ :: entries) = entries :=
  List.kerase_cons_eq rfl

theorem viewEntries_kerase_of_kept (kept : keep key) (entries : List (Σ _ : Key, Row)) :
    viewEntries keep forget (entries.kerase key) = (viewEntries keep forget entries).kerase key := by
  induction entries with
  | nil => rfl
  | cons entry rest ih =>
    obtain ⟨other, row⟩ := entry
    by_cases same : key = other
    · subst other
      rw [kerase_head, viewEntries_cons_of_kept kept, kerase_head]
    · rw [List.kerase_cons_ne same]
      by_cases keptOther : keep other
      · rw [viewEntries_cons_of_kept keptOther, viewEntries_cons_of_kept keptOther, List.kerase_cons_ne same, ih]
      · rw [viewEntries_cons_of_hidden keptOther, viewEntries_cons_of_hidden keptOther, ih]

theorem viewEntries_kerase_of_hidden (hidden : ¬ keep key) (entries : List (Σ _ : Key, Row)) :
    viewEntries keep forget (entries.kerase key) = viewEntries keep forget entries := by
  induction entries with
  | nil => rfl
  | cons entry rest ih =>
    obtain ⟨other, row⟩ := entry
    by_cases same : key = other
    · subst other
      rw [kerase_head, viewEntries_cons_of_hidden hidden]
    · rw [List.kerase_cons_ne same]
      by_cases keptOther : keep other
      · rw [viewEntries_cons_of_kept keptOther, viewEntries_cons_of_kept keptOther, ih]
      · rw [viewEntries_cons_of_hidden keptOther, viewEntries_cons_of_hidden keptOther, ih]

/-- A kept key shows the part of its row. -/
theorem lookup_view (kept : keep key) : (rows.view keep forget).lookup key = (rows.lookup key).map forget := by
  ext part
  rw [lookup_eq_some_iff, entries_view, viewEntries, List.mem_map, Option.map_eq_some_iff]
  constructor
  · rintro ⟨⟨other, row⟩, member, same⟩
    cases same
    exact ⟨row, lookup_eq_some_iff.mpr (List.mem_filter.mp member).1, rfl⟩
  · rintro ⟨row, found, rfl⟩
    exact ⟨⟨key, row⟩, List.mem_filter.mpr ⟨lookup_eq_some_iff.mp found, kept⟩, rfl⟩

theorem view_insert_of_kept (kept : keep key) (row : Row) :
    (rows.insert key row).view keep forget = (rows.view keep forget).insert key (forget row) := by
  apply AList.ext
  rw [entries_view, entries_insert, viewEntries_cons_of_kept kept, viewEntries_kerase_of_kept kept, entries_insert]
  rfl

theorem view_insert_of_hidden (hidden : ¬ keep key) (row : Row) :
    (rows.insert key row).view keep forget = rows.view keep forget := by
  apply AList.ext
  rw [entries_view, entries_insert, viewEntries_cons_of_hidden hidden, viewEntries_kerase_of_hidden hidden]
  rfl

theorem view_erase_of_kept (kept : keep key) :
    (rows.erase key).view keep forget = (rows.view keep forget).erase key :=
  AList.ext (viewEntries_kerase_of_kept kept rows.entries)

theorem view_erase_of_hidden (hidden : ¬ keep key) : (rows.erase key).view keep forget = rows.view keep forget :=
  AList.ext (viewEntries_kerase_of_hidden hidden rows.entries)

end AList

namespace Effect

variable {Key Row Part : Type*} [DecidableEq Key] {keep : Key → Bool} {forget : Row → Part} {key : Key}
  {rows : Rows Key Row}

theorem view_publish_of_kept (effect : Effect Row) (kept : keep key) :
    (effect.publish key rows).view keep forget = (effect.map forget).publish key (rows.view keep forget) := by
  cases effect with
  | keep => rfl
  | write row => exact AList.view_insert_of_kept kept row
  | erase => exact AList.view_erase_of_kept kept

theorem view_publish_of_hidden (effect : Effect Row) (hidden : ¬ keep key) :
    (effect.publish key rows).view keep forget = rows.view keep forget := by
  cases effect with
  | keep => rfl
  | write row => exact AList.view_insert_of_hidden hidden row
  | erase => exact AList.view_erase_of_hidden hidden

end Effect

namespace RowTable

variable {Txn Key Row Part : Type*}

/-- The part of a table that is seen under the kept keys. -/
def view (keep : Key → Bool) (forget : Row → Part) (table : RowTable Txn Key Row) : RowTable Txn Key Part :=
  ⟨table.committed.view keep forget, table.holds.view keep (Hold.map forget)⟩

variable {keep : Key → Bool} {forget : Row → Part} {table : RowTable Txn Key Row} {txn : Txn} {key : Key}

theorem view_view {Less : Type*} (again : Part → Less) :
    (table.view keep forget).view keep again = table.view keep (again ∘ forget) := by
  have composed : (Hold.map again ∘ Hold.map forget : Hold Txn Row → Hold Txn Less) = Hold.map (again ∘ forget) :=
    funext fun hold => congrArg (Hold.mk hold.owner) (hold.effect.map_map forget again)
  simp only [view, AList.view_view, composed]

variable [DecidableEq Key]

theorem find_view (kept : keep key) : (table.view keep forget).find key = (table.find key).map forget :=
  AList.lookup_view kept

theorem free_view (kept : keep key) : (table.view keep forget).Free txn key ↔ table.Free txn key := by
  rw [Free, Free, view, AList.lookup_view kept]
  cases table.holds.lookup key with
  | none => exact iff_of_true (fun _ impossible => by contradiction) (fun _ impossible => by contradiction)
  | some hold => simp only [Option.map_some, Option.mem_def, Option.some.injEq, forall_eq', Hold.map]

theorem view_hold_of_kept (kept : keep key) (effect : Effect Row) :
    (table.hold txn key effect).view keep forget = (table.view keep forget).hold txn key (effect.map forget) := by
  rw [hold, view, AList.view_insert_of_kept kept]
  rfl

theorem view_hold_of_hidden (hidden : ¬ keep key) (effect : Effect Row) :
    (table.hold txn key effect).view keep forget = table.view keep forget := by
  rw [hold, view, AList.view_insert_of_hidden hidden]
  rfl

variable [DecidableEq Txn]

omit [DecidableEq Key] in
theorem view_rollback (txn : Txn) : (table.rollback txn).view keep forget = (table.view keep forget).rollback txn := by
  rw [rollback, view, rollback]
  refine congrArg (RowTable.mk _) (AList.ext ?_)
  simp only [release, view, AList.entries_view, AList.entries_filterEntries, AList.viewEntries, List.filter_map,
    List.filter_filter, Bool.and_comm]
  rfl

/-- What a transaction publishes shows as its part under the kept keys. -/
theorem view_publishAll (txn : Txn) (holds : List (Σ _ : Key, Hold Txn Row)) (rows : Rows Key Row) :
    (publishAll txn holds rows).view keep forget =
      publishAll txn (AList.viewEntries keep (Hold.map forget) holds) (rows.view keep forget) := by
  induction holds generalizing rows with
  | nil => rfl
  | cons entry rest ih =>
    obtain ⟨key, owner, effect⟩ := entry
    rw [publishAll, List.foldl_cons]
    apply (ih _).trans
    by_cases kept : keep key
    · rw [AList.viewEntries_cons_of_kept kept]
      conv_rhs => rw [publishAll, List.foldl_cons]
      by_cases own : owner = txn
      · rw [if_pos own, effect.view_publish_of_kept kept]
        conv_rhs => rw [if_pos (show (Hold.map forget ⟨owner, effect⟩).owner = txn from own)]
        rfl
      · rw [if_neg own]
        conv_rhs => rw [if_neg (show ¬ (Hold.map forget ⟨owner, effect⟩).owner = txn from own)]
        rfl
    · rw [AList.viewEntries_cons_of_hidden kept]
      split_ifs
      · rw [effect.view_publish_of_hidden kept]
      · rfl

theorem view_commit (txn : Txn) : (table.commit txn).view keep forget = (table.view keep forget).commit txn := by
  have released : ((table.rollback txn).view keep forget).holds = ((table.view keep forget).rollback txn).holds :=
    congrArg holds (view_rollback txn)
  rw [commit, view, view_publishAll]
  exact congrArg (RowTable.mk _) released

/-- A transaction that holds no kept key ends without showing. -/
theorem view_commit_of_hidden (hidden : ∀ key hold, table.holds.lookup key = some hold → hold.owner = txn → ¬ keep key) :
    (table.commit txn).view keep forget = table.view keep forget := by
  have unowned : ∀ entry ∈ (table.view keep forget).holds.entries, entry.2.owner ≠ txn := by
    intro entry member own
    obtain ⟨held, listed, rfl⟩ := List.mem_map.mp member
    obtain ⟨present, kept⟩ := List.mem_filter.mp listed
    exact hidden held.1 held.2 (AList.lookup_eq_some_iff.mpr present) own kept
  rw [view_commit, commit, publishAll_of_unowned unowned]
  refine congrArg (RowTable.mk _) (AList.ext (List.filter_eq_self.mpr fun entry member => ?_))
  exact decide_eq_true (unowned entry member)

theorem view_rollback_of_hidden
    (hidden : ∀ key hold, table.holds.lookup key = some hold → hold.owner = txn → ¬ keep key) :
    (table.rollback txn).view keep forget = table.view keep forget := by
  have released : ((table.commit txn).view keep forget).holds = (table.view keep forget).holds :=
    congrArg holds (view_commit_of_hidden hidden)
  exact congrArg (RowTable.mk _) released

end RowTable
