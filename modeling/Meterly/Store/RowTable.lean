import Mathlib.Logic.Function.Basic
import Meterly.Store.Rows

/-! # A table shared by transactions that hold rows

Under row locking a key is held by at most one open transaction, which keeps it until it commits
or rolls back: a locked row, an uncommitted version, an uncommitted deletion and the index entry
of an uncommitted insertion are the same kind of hold. Commit publishes everything the
transaction holds at once; rollback drops it. Who waits for whom is not part of the table: a
statement asks whether its key is free, and has no step while it is not.

The effects of the open transactions are visible in the holds alone, so what a transaction will
publish is read off the table. `Agrees` says that the holds are exactly those a family of
transactions claims, at most one each; its rules follow a transaction through its life.
-/

/-- What an open transaction has done to a row it holds. -/
inductive Effect (Row : Type*) where
  | keep
  | write (row : Row)
  | erase
deriving DecidableEq, Repr

/-- A held key: the transaction that holds it and its unpublished effect. -/
structure Hold (Txn Row : Type*) where
  owner : Txn
  effect : Effect Row
deriving DecidableEq, Repr

/-- Published rows, and at most one holder for each key. -/
structure RowTable (Txn Key Row : Type*) where
  committed : Rows Key Row
  holds : Rows Key (Hold Txn Row)

namespace Effect

variable {Key Row : Type*} [DecidableEq Key]

/-- Publish one effect. -/
def publish (effect : Effect Row) (key : Key) (rows : Rows Key Row) : Rows Key Row :=
  match effect with
  | keep => rows
  | write row => rows.insert key row
  | erase => rows.erase key

/-- What publishing leaves at the key. -/
def result (effect : Effect Row) (before : Option Row) : Option Row :=
  match effect with
  | keep => before
  | write row => some row
  | erase => none

@[simp] theorem lookup_publish (effect : Effect Row) (key : Key) (rows : Rows Key Row) :
    (effect.publish key rows).lookup key = effect.result (rows.lookup key) := by
  cases effect with
  | keep => rfl
  | write row => exact AList.lookup_insert rows
  | erase => exact AList.lookup_erase key rows

@[simp] theorem lookup_publish_ne (effect : Effect Row) {key other : Key} (differs : other ≠ key)
    (rows : Rows Key Row) : (effect.publish key rows).lookup other = rows.lookup other := by
  cases effect with
  | keep => rfl
  | write row => exact AList.lookup_insert_ne differs
  | erase => exact AList.lookup_erase_ne differs

end Effect

namespace RowTable

variable {Txn Key Row : Type*} [DecidableEq Txn] [DecidableEq Key]

/-- The published row under a key. -/
def find (table : RowTable Txn Key Row) (key : Key) : Option Row := table.committed.lookup key

/-- No other open transaction holds the key. -/
def Free (table : RowTable Txn Key Row) (txn : Txn) (key : Key) : Prop :=
  ∀ hold ∈ table.holds.lookup key, hold.owner = txn

instance (table : RowTable Txn Key Row) (txn : Txn) (key : Key) : Decidable (table.Free txn key) :=
  inferInstanceAs (Decidable (∀ hold ∈ table.holds.lookup key, hold.owner = txn))

/-- Take the key, or replace the effect already prepared for it. -/
def hold (table : RowTable Txn Key Row) (txn : Txn) (key : Key) (effect : Effect Row) :
    RowTable Txn Key Row :=
  { table with holds := table.holds.insert key ⟨txn, effect⟩ }

/-- Give up every key the transaction holds. -/
def release (table : RowTable Txn Key Row) (txn : Txn) : Rows Key (Hold Txn Row) :=
  table.holds.filterEntries fun entry => decide (entry.2.owner ≠ txn)

/-- Publish the effects of one transaction among a list of holds. -/
def publishAll (txn : Txn) (holds : List (Σ _ : Key, Hold Txn Row)) (rows : Rows Key Row) : Rows Key Row :=
  holds.foldl (fun rows entry =>
    if entry.2.owner = txn then entry.2.effect.publish entry.1 rows else rows) rows

/-- Commit: everything the transaction did becomes visible at once. -/
def commit (table : RowTable Txn Key Row) (txn : Txn) : RowTable Txn Key Row :=
  ⟨publishAll txn table.holds.entries table.committed, table.release txn⟩

/-- Rollback: nothing the transaction did ever becomes visible. -/
def rollback (table : RowTable Txn Key Row) (txn : Txn) : RowTable Txn Key Row :=
  { table with holds := table.release txn }

/-- A table at rest: published rows that nobody holds. -/
def ofRows (rows : Rows Key Row) : RowTable Txn Key Row := ⟨rows, ∅⟩

omit [DecidableEq Txn] in
@[simp] theorem committed_hold (table : RowTable Txn Key Row) (txn : Txn) (key : Key) (effect : Effect Row) :
    (table.hold txn key effect).committed = table.committed := rfl

omit [DecidableEq Key] in
@[simp] theorem committed_rollback (table : RowTable Txn Key Row) (txn : Txn) :
    (table.rollback txn).committed = table.committed := rfl

omit [DecidableEq Txn] in
@[simp] theorem find_hold (table : RowTable Txn Key Row) (txn : Txn) (key other : Key) (effect : Effect Row) :
    (table.hold txn key effect).find other = table.find other := rfl

@[simp] theorem find_rollback (table : RowTable Txn Key Row) (txn : Txn) (key : Key) :
    (table.rollback txn).find key = table.find key := rfl

theorem lookup_release (table : RowTable Txn Key Row) (txn : Txn) (key : Key) :
    (table.release txn).lookup key =
      (table.holds.lookup key).filter fun hold => decide (hold.owner ≠ txn) :=
  AList.lookup_filterEntries _ _ _

theorem publishAll_of_unowned {txn : Txn} {holds : List (Σ _ : Key, Hold Txn Row)}
    (unowned : ∀ entry ∈ holds, entry.2.owner ≠ txn) (rows : Rows Key Row) :
    publishAll txn holds rows = rows := by
  induction holds with
  | nil => rfl
  | cons entry rest ih =>
    have head : entry.2.owner ≠ txn := unowned entry (List.mem_cons_self ..)
    simp only [publishAll, List.foldl_cons, if_neg head]
    exact ih fun other member => unowned other (List.mem_cons_of_mem _ member)

/-- A transaction with one hold publishes exactly that effect, wherever it stands in the list. -/
theorem publishAll_of_single {txn : Txn} {holds : List (Σ _ : Key, Hold Txn Row)} {key : Key}
    {effect : Effect Row} (distinct : holds.Nodup) (member : ⟨key, txn, effect⟩ ∈ holds)
    (only : ∀ entry ∈ holds, entry.2.owner = txn → entry = ⟨key, txn, effect⟩) (rows : Rows Key Row) :
    publishAll txn holds rows = effect.publish key rows := by
  obtain ⟨before, after, rfl⟩ := List.append_of_mem member
  have parts := List.nodup_append.mp distinct
  have unownedBefore : ∀ entry ∈ before, entry.2.owner ≠ txn := by
    intro entry present owned
    have same := only entry (List.mem_append_left _ present) owned
    exact parts.2.2 entry present entry (same ▸ List.mem_cons_self ..) rfl
  have unownedAfter : ∀ entry ∈ after, entry.2.owner ≠ txn := by
    intro entry present owned
    have same := only entry (List.mem_append_right _ (List.mem_cons_of_mem _ present)) owned
    exact (List.nodup_cons.mp parts.2.1).1 (same ▸ present)
  have left := publishAll_of_unowned unownedBefore rows
  have right := publishAll_of_unowned unownedAfter (effect.publish key rows)
  simp only [publishAll, List.foldl_append, List.foldl_cons, if_true] at left right ⊢
  rw [left, right]

/-- The commit of the only hold publishes its effect. -/
theorem commit_hold_ofRows (rows : Rows Key Row) (txn : Txn) (key : Key) (effect : Effect Row) :
    ((ofRows rows).hold txn key effect).commit txn = ofRows (effect.publish key rows) := by
  have single : ((∅ : Rows Key (Hold Txn Row)).insert key ⟨txn, effect⟩).entries = [⟨key, ⟨txn, effect⟩⟩] := rfl
  simp only [ofRows, hold, commit, publishAll, release, single, List.foldl_cons, List.foldl_nil, if_true, mk.injEq,
    true_and]
  apply AList.ext
  rw [AList.entries_filterEntries, single, List.filter_cons_of_neg (by simp)]
  rfl

/-- The holds are exactly those that a family of transactions claims, at most one for each. -/
def Agrees (table : RowTable Txn Key Row) (claim : Txn → Option (Key × Effect Row)) : Prop :=
  ∀ txn key effect, table.holds.lookup key = some ⟨txn, effect⟩ ↔ claim txn = some (key, effect)

namespace Agrees

variable {table : RowTable Txn Key Row} {claim : Txn → Option (Key × Effect Row)}
  {txn other : Txn} {key : Key} {effect : Effect Row}

omit [DecidableEq Txn] in
theorem ofRows (rows : Rows Key Row) (none : ∀ txn, claim txn = none) :
    (RowTable.ofRows rows : RowTable Txn Key Row).Agrees claim := by
  intro txn key effect
  simp only [RowTable.ofRows, AList.lookup_empty, none, reduceCtorEq]

omit [DecidableEq Txn] in
theorem lookup (agrees : table.Agrees claim) (claimed : claim txn = some (key, effect)) :
    table.holds.lookup key = some ⟨txn, effect⟩ :=
  (agrees txn key effect).mpr claimed

omit [DecidableEq Txn] in
/-- Two transactions never claim the same key. -/
theorem owner_unique (agrees : table.Agrees claim) {otherEffect : Effect Row}
    (claimed : claim txn = some (key, effect)) (also : claim other = some (key, otherEffect)) : txn = other :=
  congrArg Hold.owner (Option.some.inj ((agrees.lookup claimed).symm.trans (agrees.lookup also)))

omit [DecidableEq Txn] in
/-- A key that is free to one transaction is claimed by no other. -/
theorem not_claimed_of_free (agrees : table.Agrees claim) (free : table.Free txn key) (differs : other ≠ txn) :
    claim other ≠ some (key, effect) :=
  fun claimed => differs (free _ (agrees.lookup claimed))

/-- Taking a free key adds one claim. -/
theorem hold (agrees : table.Agrees claim) (free : table.Free txn key) (unclaimed : claim txn = none)
    (effect : Effect Row) :
    (table.hold txn key effect).Agrees (Function.update claim txn (some (key, effect))) := by
  intro other otherKey otherEffect
  by_cases same : otherKey = key
  · subst otherKey
    simp only [RowTable.hold, AList.lookup_insert, Option.some.injEq, Hold.mk.injEq]
    by_cases owner : other = txn
    · subst other
      simp only [Function.update_self, Option.some.injEq, Prod.mk.injEq, true_and]
    · rw [Function.update_of_ne owner]
      constructor
      · intro equal
        exact absurd equal.1.symm owner
      · intro claimed
        exact absurd claimed (agrees.not_claimed_of_free free owner)
  · simp only [RowTable.hold, AList.lookup_insert_ne same, agrees other otherKey otherEffect]
    by_cases owner : other = txn
    · subst other
      simp only [unclaimed, Function.update_self, reduceCtorEq, Option.some.injEq, Prod.mk.injEq,
        Ne.symm same, false_and]
    · rw [Function.update_of_ne owner]

theorem release (agrees : table.Agrees claim) (rows : Rows Key Row) :
    (RowTable.mk rows (table.release txn)).Agrees (Function.update claim txn none) := by
  intro other key effect
  simp only [lookup_release, Option.filter_eq_some_iff, decide_eq_true_eq, agrees other key effect]
  by_cases owner : other = txn
  · subst other
    simp only [ne_eq, not_true_eq_false, and_false, Function.update_self, reduceCtorEq]
  · simp only [ne_eq, owner, not_false_eq_true, and_true, Function.update_of_ne owner]

theorem commit (agrees : table.Agrees claim) (txn : Txn) :
    (table.commit txn).Agrees (Function.update claim txn none) := agrees.release _

theorem rollback (agrees : table.Agrees claim) (txn : Txn) :
    (table.rollback txn).Agrees (Function.update claim txn none) := agrees.release _

omit [DecidableEq Txn] in
private theorem entry_of_owner (agrees : table.Agrees claim) {entry : Σ _ : Key, Hold Txn Row}
    (member : entry ∈ table.holds.entries) : claim entry.2.owner = some (entry.1, entry.2.effect) :=
  (agrees _ _ _).mp (AList.lookup_eq_some_iff.mpr member)

/-- A transaction that claims nothing publishes nothing. -/
theorem committed_of_unclaimed (agrees : table.Agrees claim) (unclaimed : claim txn = none) :
    (table.commit txn).committed = table.committed := by
  apply publishAll_of_unowned
  intro entry member owned
  have claimed := agrees.entry_of_owner member
  rw [owned, unclaimed] at claimed
  contradiction

theorem commit_of_unclaimed (agrees : table.Agrees claim) (unclaimed : claim txn = none) :
    table.commit txn = table.rollback txn :=
  congrArg (RowTable.mk · (table.release txn)) (agrees.committed_of_unclaimed unclaimed)

/-- A transaction publishes exactly the effect it claims. -/
theorem committed_of_claim (agrees : table.Agrees claim) (claimed : claim txn = some (key, effect)) :
    (table.commit txn).committed = effect.publish key table.committed := by
  apply publishAll_of_single table.holds.nodupKeys.nodup (AList.lookup_eq_some_iff.mp (agrees.lookup claimed))
  intro entry member owned
  have same := agrees.entry_of_owner member
  rw [owned, claimed, Option.some.injEq, Prod.mk.injEq] at same
  obtain ⟨entryKey, entryOwner, entryEffect⟩ := entry
  obtain ⟨rfl, rfl⟩ := same
  obtain rfl := owned
  rfl

theorem find_commit (agrees : table.Agrees claim) (claimed : claim txn = some (key, effect)) :
    (table.commit txn).find key = effect.result (table.find key) := by
  rw [find, agrees.committed_of_claim claimed, Effect.lookup_publish, ← find]

theorem find_commit_of_unclaimed (agrees : table.Agrees claim) (unclaimed : claim txn = none) :
    (table.commit txn).find key = table.find key := by
  rw [find, agrees.committed_of_unclaimed unclaimed, ← find]

theorem find_commit_of_key_ne {held : Key} (agrees : table.Agrees claim) (claimed : claim txn = some (held, effect))
    (differs : key ≠ held) : (table.commit txn).find key = table.find key := by
  rw [find, agrees.committed_of_claim claimed, Effect.lookup_publish_ne effect differs, ← find]

/-- A key that the committing transaction does not claim keeps its published row. -/
theorem find_commit_of_ne (agrees : table.Agrees claim)
    (differs : ∀ effect, claim txn ≠ some (key, effect)) : (table.commit txn).find key = table.find key := by
  cases claimed : claim txn with
  | none => exact agrees.find_commit_of_unclaimed claimed
  | some entry =>
    obtain ⟨held, effect⟩ := entry
    apply agrees.find_commit_of_key_ne claimed
    rintro rfl
    exact differs effect claimed

/-- A held key's published row survives every other commit. -/
theorem find_commit_of_claimed (agrees : table.Agrees claim) (claimed : claim txn = some (key, effect))
    (differs : other ≠ txn) : (table.commit other).find key = table.find key :=
  agrees.find_commit_of_ne fun _ also => differs (agrees.owner_unique also claimed)

end Agrees

end RowTable
