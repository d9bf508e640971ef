import Mathlib.Order.Interval.Finset.Nat
import Meterly.Model.RowSecurity
import Meterly.Num.Numeric
import Meterly.Soundness.CappedIngest
import Meterly.Soundness.RollupLog

/-! # Quantities stay exact and in range

What the validator admits is a whole number of millionths with few enough digits for the column of
`events`, so it is stored as it was submitted. A total is a sum of such numbers, each of which came
with an identity value of its own: the published events and the calls that are on their way to publish
one never outnumber the values drawn. So a bucket grows past its columns only after the sequence of
`events.id` has come to its end.
-/

namespace Meterly

/-! ## The comparison of `create_event` -/

/-- The verdict in 28 digits is the exact one, for every total that `usage_rollup` can hold. -/
theorem quota_verdict_exact (limitPerWindow : LimitPerWindow) (quantity : Quantity) {currentTotal : Decimal}
    (stored : currentTotal.InColumn 38 6) (nonneg : 0 ≤ currentTotal.toRat) :
    (⟨limitPerWindow, currentTotal⟩ : QuotaState).Exceeded quantity ↔
      (limitPerWindow.value : ℚ) < currentTotal.toRat + quantity.micros / 10 ^ 6 := by
  have coefficient : 0 ≤ currentTotal.coefficient := by
    by_contra negative
    have below : currentTotal.toRat < 0 :=
      mul_neg_of_neg_of_pos (by exact_mod_cast not_le.mp negative) (zpow_pos (by norm_num) _)
    exact absurd nonneg (not_le.mpr below)
  obtain ⟨micros, same⟩ : ∃ micros : ℕ, currentTotal.coefficientAt (-6) = micros :=
    Int.eq_ofNat_of_zero_le (mul_nonneg coefficient (by positivity))
  have value : currentTotal.toRat = micros / 10 ^ 6 := by
    rw [← currentTotal.coefficientAt_toRat stored.places, Nat.cast_ofNat, same, zpow_neg, div_eq_mul_inv]
    norm_cast
  rw [QuotaState.exceeded_iff value stored.places coefficient, value, ← add_div, lt_div_iff₀ (by positivity)]
  norm_cast

/-- A total of 38 digits, which the sum cannot keep, and one that with the quantity meets the limit exactly. -/
theorem quota_verdict_exact_wide :
    (⟨⟨10 ^ 15, by decide, le_rfl⟩, ⟨10 ^ 38 - 1, -6⟩⟩ : QuotaState).Exceeded ⟨1, by decide, by decide⟩ ∧
    (Decimal.add decimalPrecision ⟨10 ^ 38 - 1, -6⟩ (numericScale6 2)).toRat ≠
      (Decimal.exactSum ⟨10 ^ 38 - 1, -6⟩ (numericScale6 2)).toRat ∧
    ¬ (⟨⟨10 ^ 15, by decide, le_rfl⟩, ⟨10 ^ 21 - 1, -6⟩⟩ : QuotaState).Exceeded ⟨1, by decide, by decide⟩ := by
  have wide : Decimal.InColumn 38 6 ⟨10 ^ 38 - 1, -6⟩ := ⟨by decide, by norm_num [Decimal.toRat, abs_lt]⟩
  have full : Decimal.InColumn 38 6 ⟨10 ^ 21 - 1, -6⟩ := ⟨by decide, by norm_num [Decimal.toRat, abs_lt]⟩
  have wide := quota_verdict_exact ⟨10 ^ 15, by decide, le_rfl⟩ ⟨1, by decide, by decide⟩ wide
    (by norm_num [Decimal.toRat])
  have full := quota_verdict_exact ⟨10 ^ 15, by decide, le_rfl⟩ ⟨1, by decide, by decide⟩ full
    (by norm_num [Decimal.toRat])
  refine ⟨wide.mpr (by norm_num [Decimal.toRat]), ?_, ?_⟩
  · have rounded : Decimal.add decimalPrecision ⟨10 ^ 38 - 1, -6⟩ (numericScale6 2) = ⟨10 ^ 27, 5⟩ := by decide +kernel
    have exact : Decimal.exactSum ⟨10 ^ 38 - 1, -6⟩ (numericScale6 2) = ⟨10 ^ 38 + 1, -6⟩ := by decide
    rw [rounded, exact]
    norm_num [Decimal.toRat]
  · rw [full]
    norm_num [Decimal.toRat]

/-! ## From the request to the column -/

/-- `Quantity`, as what its validator promises. -/
abbrev AdmitsQuantity (accepts : Decimal → Bool) : Prop := Decimal.Condecimal ⟨0, 0⟩ ⟨1, 12⟩ 20 6 accepts

/-- An admitted quantity is stored in `NUMERIC(20, 6)` as it was submitted. -/
theorem AdmitsQuantity.stored {accepts : Decimal → Bool} (admits : AdmitsQuantity accepts) {submitted : Decimal}
    (accepted : accepts submitted) : ∃ quantity : Quantity,
      submitted.numericColumn 20 6 = some quantity.micros ∧ submitted.toRat = quantity.micros / 10 ^ 6 := by
  obtain ⟨units, value⟩ := Decimal.exists_units_of_decimalPlaces (admits.places submitted accepted)
  rw [Decimal.toRat_normalize] at value
  have positive : (0 : ℚ) < units := by
    have above := (Decimal.lt_iff_toRat _ _).mp (admits.above submitted accepted)
    rw [value] at above
    simpa [Decimal.toRat] using above
  have bounded : (units : ℚ) ≤ 10 ^ 18 := by
    have below := not_lt.mp (mt (Decimal.lt_iff_toRat _ _).mpr (admits.below submitted accepted))
    rw [value, div_le_iff₀ (by positivity)] at below
    calc (units : ℚ) ≤ _ := below
      _ = 10 ^ 18 := by norm_num [Decimal.toRat]
  obtain ⟨micros, rfl⟩ := Int.eq_ofNat_of_zero_le (show 0 ≤ units by exact_mod_cast positive.le)
  norm_cast at positive bounded
  refine ⟨⟨micros, positive, bounded⟩, Decimal.numericColumn_of_units value ?_, value⟩
  rw [Int.natAbs_natCast]
  exact bounded.trans_lt (by decide)

/-! ## Events never outnumber identity values -/

variable {s next final : State} {a : Action} {txn : CallId} {schedule : List Action}

/-- The call has drawn an identity value, and may still publish an event with it. -/
def Call.hasDrawn : Call → Bool
  | createEvent _ _ (.inserting _ _) => true
  | createEvent _ _ phase => phase.row.isSome
  | _ => false

theorem Call.hasDrawn_of_event_held {call : Call} {hold : EventKey × Effect EventRow}
    (holds : (call.held txn).event = some hold) : call.hasDrawn := by
  cases call with
  | createEvent payload receivedAt phase =>
    cases phase with
    | inserted | lockingQuota | quotaLocked | judging | incremented => rfl
    | received | begun | inserting | conflicted | replayed | answered => contradiction
  | upsertQuota payload phase => cases phase <;> contradiction
  | deleteQuota params phase =>
    cases phase with
    | removed found => cases found <;> contradiction
    | received | begun | deleting | answered => contradiction
  | idle | listQuotas | getUsage | getDailyUsage | exportUsage => contradiction

theorem Request.not_hasDrawn (request : Request) : ¬ request.call.hasDrawn := by
  cases request <;> exact Bool.false_ne_true

theorem Call.not_hasDrawn_interrupt (call : Call) : ¬ call.interrupt.hasDrawn := by
  cases call <;> exact Bool.false_ne_true

/-- A step draws the next value, keeps what was drawn, or is done with it. -/
theorem Call.Advanced.draws {before after : Call} {db next : Database}
    (moves : Call.Advanced txn db before after next) :
    (next.events = db.events ∧ next.nextEventId = db.nextEventId + 1) ∨
    (next.events.committed = db.events.committed ∧ next.nextEventId = db.nextEventId ∧
      (after.hasDrawn → before.hasDrawn)) ∨
    (next.events = db.events.commit txn ∧ next.nextEventId = db.nextEventId ∧ ¬ after.hasDrawn) := by
  cases moves with
  | createEvent moves =>
    cases moves with
    | draws => exact .inl ⟨rfl, rfl⟩
    | commits | replays => exact .inr (.inr ⟨rfl, rfl, Bool.false_ne_true⟩)
    | opens | inserts | conflicts | seesNoQuota | seesQuota | losesQuota | locksQuota | readsTotal | rejects |
        increments | finds | findsNothing => exact .inr (.inl ⟨rfl, rfl, by first | exact id | nofun⟩)
  | upsertQuota moves =>
    cases moves with
    | commits => exact .inr (.inr ⟨rfl, rfl, Bool.false_ne_true⟩)
    | opens | inserts | replaces => exact .inr (.inl ⟨rfl, rfl, id⟩)
  | deleteQuota moves =>
    cases moves with
    | commits => exact .inr (.inr ⟨rfl, rfl, Bool.false_ne_true⟩)
    | opens | seesNothing | sees | loses | removes => exact .inr (.inl ⟨rfl, rfl, id⟩)
  | listQuotas moves | getUsage moves | getDailyUsage moves =>
    cases moves with
    | commits => exact .inr (.inr ⟨rfl, rfl, Bool.false_ne_true⟩)
    | refuses | opens | reads => exact .inr (.inl ⟨rfl, rfl, id⟩)
  | exportUsage moves =>
    cases moves with
    | refuses | prepares | completes => exact .inr (.inr ⟨rfl, rfl, Bool.false_ne_true⟩)
    | opens | counts | sendsHeader | opensStream | streams => exact .inr (.inl ⟨rfl, rfl, id⟩)

/-- The published events and the calls that have drawn a value are fewer than the next value. -/
def Accounted (s : State) : Prop :=
  ∃ drawn : Finset CallId, (∀ txn, (s.calls txn).hasDrawn → txn ∈ drawn) ∧
    s.db.events.committed.entries.length + drawn.card < s.db.nextEventId

/-- A commit publishes at most one event, and only of a call that had drawn a value. -/
theorem Consistent.events_commit (consistent : Consistent s) (txn : CallId) :
    (s.db.events.commit txn).committed = s.db.events.committed ∨ (s.calls txn).hasDrawn ∧
      (s.db.events.commit txn).committed.entries.length = s.db.events.committed.entries.length + 1 := by
  cases pending : (s.held txn).event with
  | none => exact .inl (consistent.events.committed_of_unclaimed pending)
  | some hold =>
    obtain ⟨key, effect⟩ := hold
    obtain ⟨row, rfl⟩ := Call.event_held pending
    refine .inr ⟨Call.hasDrawn_of_event_held pending, ?_⟩
    rw [consistent.events.committed_of_claim pending, Effect.publish,
      AList.insert_of_lookup_eq_none (consistent.fresh txn key _ pending), List.length_cons]

namespace Accounted

/-- Nothing new is drawn or published. -/
private theorem record_of_le (accounted : Accounted s) {call : Call} {db : Database}
    (drew : call.hasDrawn → (s.calls txn).hasDrawn) (same : db.events.committed = s.db.events.committed)
    (kept : db.nextEventId = s.db.nextEventId) : Accounted (s.record txn call db) := by
  obtain ⟨drawn, covers, fewer⟩ := accounted
  refine ⟨drawn, ?_, by rwa [State.db_record, same, kept]⟩
  intro other has
  by_cases own : other = txn
  · subst other
    rw [State.calls_record_self] at has
    exact covers txn (drew has)
  · rw [State.calls_record_of_ne own] at has
    exact covers other has

theorem advanced (accounted : Accounted s) (consistent : Consistent s) {call : Call} {db : Database}
    (moves : Call.Advanced txn s.db (s.calls txn) call db) : Accounted (s.record txn call db) := by
  rcases moves.draws with ⟨same, next⟩ | ⟨same, kept, drew⟩ | ⟨published, kept, done⟩
  · obtain ⟨drawn, covers, fewer⟩ := accounted
    refine ⟨insert txn drawn, ?_, ?_⟩
    · intro other has
      by_cases own : other = txn
      · exact Finset.mem_insert.mpr (.inl own)
      · rw [State.calls_record_of_ne own] at has
        exact Finset.mem_insert_of_mem (covers other has)
    · have card := Finset.card_insert_le txn drawn
      rw [State.db_record, same, next]
      omega
  · exact accounted.record_of_le drew same kept
  · rcases consistent.events_commit txn with same | ⟨has, length⟩
    · exact accounted.record_of_le (fun has => absurd has done) (by rw [published, same]) kept
    · obtain ⟨drawn, covers, fewer⟩ := accounted
      -- The call that has drawn a value gives it to the event that it publishes.
      refine ⟨drawn.erase txn, ?_, ?_⟩
      · intro other also
        have differs : other ≠ txn := by
          rintro rfl
          rw [State.calls_record_self] at also
          exact done also
        rw [State.calls_record_of_ne differs] at also
        exact Finset.mem_erase.mpr ⟨differs, covers other also⟩
      · have card := Finset.card_erase_add_one (covers txn has)
        rw [State.db_record, published, kept, length]
        omega

theorem stepped (accounted : Accounted s) (consistent : Consistent s) (steps : Stepped s a next) :
    Accounted next := by
  cases steps with
  | start idle => exact accounted.record_of_le (fun has => absurd has (Request.not_hasDrawn _)) rfl rfl
  | advance moves => exact accounted.advanced consistent moves
  | interrupt running => exact accounted.record_of_le (fun has => absurd has (Call.not_hasDrawn_interrupt _)) rfl rfl
  | tick => exact accounted

/-- The events and one call that has drawn a value are as many as have been drawn, or fewer. -/
theorem length_lt (accounted : Accounted s) (has : (s.calls txn).hasDrawn) :
    s.db.events.committed.entries.length + 1 < s.db.nextEventId := by
  obtain ⟨drawn, covers, fewer⟩ := accounted
  have card := Finset.card_pos.mpr ⟨txn, covers txn has⟩
  omega

end Accounted

/-- What the identity column and its primary key promise of a table: every id has been drawn from the
sequence, which begins at 1, and no two rows have the same. -/
structure IdsDrawn (nextEventId : ℕ) (events : Rows EventKey EventRow) : Prop where
  begins : 1 ≤ nextEventId
  drawn : ∀ entry ∈ events.entries, 1 ≤ entry.2.id ∧ entry.2.id < nextEventId
  distinct : (events.entries.map fun entry => entry.2.id).Nodup

theorem IdsDrawn.length_lt {nextEventId : ℕ} {events : Rows EventKey EventRow} (ids : IdsDrawn nextEventId events) :
    events.entries.length < nextEventId := by
  have within : (events.entries.map fun entry => entry.2.id).toFinset ⊆ Finset.Ico 1 nextEventId := by
    intro id member
    obtain ⟨entry, present, rfl⟩ := List.mem_map.mp (List.mem_toFinset.mp member)
    exact Finset.mem_Ico.mpr (ids.drawn entry present)
  have card := Finset.card_le_card within
  rw [List.toFinset_card_of_nodup ids.distinct, List.length_map, Nat.card_Ico] at card
  have begins := ids.begins
  omega

theorem IdsDrawn.empty : IdsDrawn 1 ∅ where
  begins := le_rfl
  drawn _ member := absurd member List.not_mem_nil
  distinct := List.nodup_nil

/-! ## Totals stay in range -/

/-- A row of `usage_rollup`: published, or written by a call that has not ended its transaction. -/
def State.HasRollup (s : State) (bucket : RollupKey) (row : RollupRow) : Prop :=
  s.db.usageRollup.find bucket = some row ∨ ∃ txn, (s.held txn).rollup = some (bucket, .write row)

theorem totalMicros_le (rows : List (Σ _ : EventKey, EventRow)) : totalMicros rows ≤ 10 ^ 18 * rows.length := by
  induction rows with
  | nil => exact Nat.zero_le _
  | cons entry rest ih =>
    have bounded := entry.2.quantity.bounded
    simp only [totalMicros, List.map_cons, List.sum_cons, List.length_cons] at ih ⊢
    omega

/-- A row whose total is positive and within the bound of its count. -/
def RollupRow.InRange (row : RollupRow) : Prop :=
  0 < row.totalQuantity ∧ row.totalQuantity ≤ 10 ^ 18 * row.eventCount

/-- One more quantity keeps a row in range. -/
theorem Database.bump_inRange {before : Option RollupRow} (within : ∀ row ∈ before, row.InRange)
    (quantity : Quantity) : (bump before quantity).InRange := by
  have positive := quantity.positive
  have bounded := quantity.bounded
  cases before with
  | none => exact ⟨positive, bounded⟩
  | some row =>
    obtain ⟨above, below⟩ := within row rfl
    refine ⟨Nat.add_pos_left above _, ?_⟩
    simp only [bump]
    omega

theorem Database.eventCount_bump (before : Option RollupRow) (quantity : Quantity) :
    (bump before quantity).eventCount = before.elim 0 RollupRow.eventCount + 1 := by
  cases before <;> rfl

/-- A published bucket is in range and counts no more than the published events. -/
theorem RollupIsLog.inRange (isLog : RollupIsLog s) {bucket : RollupKey} {row : RollupRow}
    (found : s.db.usageRollup.find bucket = some row) :
    row.InRange ∧ row.eventCount ≤ s.db.events.committed.entries.length := by
  rw [isLog, lookup_backfill] at found
  split_ifs at found with empty
  obtain rfl := Option.some.inj found
  refine ⟨⟨Nat.pos_of_ne_zero (mt totalMicros_eq_zero.mp empty), totalMicros_le _⟩, ?_⟩
  exact List.length_filter_le _ _

/-- What the bounds of a run rest on. -/
structure RollupsBounded (s : State) : Prop where
  consistent : Consistent s
  isLog : RollupIsLog s
  accounted : Accounted s

namespace RollupsBounded

theorem of_run {collation : Collation} {now : Instant} {nextEventId : ℕ} {events : Rows EventKey EventRow}
    {quotas : Rows QuotaKey QuotaRow} (ids : IdsDrawn nextEventId events)
    (reached : Machine.run step (.init (.atRest collation now nextEventId (.afterMigration events quotas)))
      schedule = some final) : RollupsBounded final := by
  refine Machine.run_invariant (motive := RollupsBounded) ⟨.init .., fun _ => rfl, ∅, ?_, ?_⟩ ?_ reached
  · intro txn has
    contradiction
  · exact ids.length_lt
  · intro s a next bounded steps
    have stepped := stepped_of_step steps
    refine ⟨bounded.consistent.stepped stepped, ?_, bounded.accounted.stepped bounded.consistent stepped⟩
    rcases stepped.moved with ⟨elapsed, rfl⟩ | ⟨txn, call, db, -, moved, rfl⟩
    · exact bounded.isLog
    · exact bounded.isLog.record bounded.consistent moved

/-- What one more event of a call that has drawn a value makes of a bucket. -/
theorem bump (bounded : RollupsBounded s) (has : (s.calls txn).hasDrawn) (bucket : RollupKey) (quantity : Quantity) :
    (Database.bump (s.db.usageRollup.find bucket) quantity).InRange ∧
      (Database.bump (s.db.usageRollup.find bucket) quantity).eventCount < s.db.nextEventId := by
  have fewer := bounded.accounted.length_lt has
  refine ⟨Database.bump_inRange (fun row found => (bounded.isLog.inRange found).1) quantity, ?_⟩
  rw [Database.eventCount_bump]
  cases found : s.db.usageRollup.find bucket with
  | none =>
    rw [Option.elim_none]
    omega
  | some row =>
    have counted := (bounded.isLog.inRange found).2
    rw [Option.elim_some]
    omega

theorem inRange (bounded : RollupsBounded s) {bucket : RollupKey} {row : RollupRow} (there : s.HasRollup bucket row) :
    row.InRange ∧ row.eventCount < s.db.nextEventId := by
  rcases there with found | ⟨txn, holds⟩
  · obtain ⟨drawn, -, fewer⟩ := bounded.accounted
    obtain ⟨within, counted⟩ := bounded.isLog.inRange found
    exact ⟨within, by omega⟩
  · obtain ⟨eventKey, event, pending, -, rfl, same⟩ := bounded.consistent.bumped txn bucket _ holds
    obtain rfl := Effect.write.inj same
    exact bounded.bump (Call.hasDrawn_of_event_held pending) _ _

end RollupsBounded

/-- In range, with no more events than the sequence can count, a row fits both of its columns. -/
theorem RollupRow.InRange.fits {row : RollupRow} (within : row.InRange) (counted : row.eventCount < 2 ^ 63) :
    row.totalQuantity < 10 ^ 38 := by
  obtain ⟨-, bounded⟩ := within
  omega

/-- Every admitted quantity is stored as submitted, and positive. In every reachable state each row of
`usage_rollup` is positive, at most 10^12 for each of its events, and counts no more events than identity
values have been drawn; while the sequence lasts, totals stay below 10^32 and no increment overflows. -/
theorem quantities_exact_and_in_range {accepts : Decimal → Bool} (admits : AdmitsQuantity accepts)
    {collation : Collation} {now : Instant} {nextEventId : ℕ} {events : Rows EventKey EventRow}
    {quotas : Rows QuotaKey QuotaRow} (ids : IdsDrawn nextEventId events)
    (reached : Machine.run step (.init (.atRest collation now nextEventId (.afterMigration events quotas)))
      schedule = some final) :
    (∀ submitted, accepts submitted → ∃ quantity : Quantity, submitted.numericColumn 20 6 = some quantity.micros ∧
      submitted.toRat = quantity.micros / 10 ^ 6 ∧ 0 < quantity.micros) ∧
    (∀ bucket row, final.HasRollup bucket row → 0 < row.totalQuantity ∧
      row.totalQuantity ≤ 10 ^ 12 * 10 ^ 6 * row.eventCount ∧ row.eventCount ≤ final.db.nextEventId - 1) ∧
    (final.db.nextEventId - 1 < 2 ^ 63 →
      (∀ bucket row, final.HasRollup bucket row → row.totalQuantity < 10 ^ 32 * 10 ^ 6 ∧
        (numericScale6 row.totalQuantity).numericColumn 38 6 = some row.totalQuantity ∧ row.eventCount < 2 ^ 63) ∧
      ∀ txn payload receivedAt row quotaState,
        final.calls txn = .createEvent payload receivedAt (.judging row quotaState) →
        ∀ before ∈ final.db.usageRollup.find (row.rollupKey txn.apiKeyId),
          addToRollup row.quantity before = .ok (Database.bump (some before) row.quantity)) := by
  have bounded := RollupsBounded.of_run ids reached
  refine ⟨?_, ?_, ?_⟩
  · intro submitted accepted
    obtain ⟨quantity, stored, same⟩ := admits.stored accepted
    exact ⟨quantity, stored, same, quantity.positive⟩
  · intro bucket row there
    obtain ⟨⟨positive, below⟩, counted⟩ := bounded.inRange there
    exact ⟨positive, below, by omega⟩
  · intro lasts
    refine ⟨?_, ?_⟩
    · intro bucket row there
      obtain ⟨within, counted⟩ := bounded.inRange there
      have fits := within.fits (by omega)
      refine ⟨fits, Decimal.numericColumn_of_units ?_ ?_, by omega⟩
      · exact numericScale6_toRat _
      · rwa [Int.natAbs_natCast]
    · intro txn payload receivedAt row quotaState place before found
      have has : (final.calls txn).hasDrawn := by
        rw [place]
        rfl
      obtain ⟨within, counted⟩ := bounded.bump has (row.rollupKey txn.apiKeyId) row.quantity
      rw [Option.mem_def.mp found] at within counted
      exact if_pos ⟨within.fits (by omega), by omega⟩

/-- A quantity submitted as 1.50 by the first event of a bucket. -/
theorem quantities_exact_and_in_range_first_event :
    let request : Request := .createEvent ⟨"c", "m", ⟨1500000, by decide, by decide⟩, "a"⟩ 0
    ∃ final, Machine.run step (.init (.atRest .codePoint 0 1 (.afterMigration ∅ ∅))) (request.steps ⟨7, 0⟩ 6) =
        some final ∧
      final.db.usageRollup.find ⟨7, "c", "m", 0⟩ = some ⟨1500000, 1⟩ ∧ final.db.nextEventId = 2 ∧
      (numericScale6 1500000).numericColumn 38 6 = some 1500000 ∧
      ∃ quantity : Quantity, (⟨150, -2⟩ : Decimal).numericColumn 20 6 = some quantity.micros ∧
        (⟨150, -2⟩ : Decimal).toRat = quantity.micros / 10 ^ 6 ∧ 0 < quantity.micros := by
  intro request
  obtain ⟨final, reached, seen⟩ := Option.map_eq_some_iff.mp (show
    (Machine.run step (.init (.atRest .codePoint 0 1 (.afterMigration ∅ ∅))) (request.steps ⟨7, 0⟩ 6)).map
      (fun final => (final.db.usageRollup.find ⟨7, "c", "m", 0⟩, final.db.nextEventId)) =
        some (some ⟨1500000, 1⟩, 2) by decide)
  obtain ⟨row, drawn⟩ := Prod.mk.inj seen
  obtain ⟨exact, -, lasts⟩ := quantities_exact_and_in_range (Decimal.condecimal_promises _ _ _ _)
    IdsDrawn.empty reached
  have fits := (lasts (by omega)).1 ⟨7, "c", "m", 0⟩ _ (.inl row)
  exact ⟨final, reached, row, drawn, fits.2.1, exact ⟨150, -2⟩ (by decide +kernel)⟩

end Meterly
