import Meterly.Soundness.CappedCounter
import Meterly.Soundness.QuotaMap

/-! # Capped ingest is serial

While a quota row stays in place, every new event under it passes through its lock: the version a
locking read saw is the one it gets. The lock is taken before the total is read and kept until the
commit, and only holders of the lock write the buckets under it. So what a holder has read stays
true to the end of its transaction, and the answers of the holders, in the order in which they
took the lock, are a serial execution of `CappedCounter`.
-/

namespace Meterly

/-! ## The verdict in limited decimals is the exact one -/

theorem numericScale6_toRat (micros : ℕ) : (numericScale6 micros).toRat = micros / 10 ^ 6 := by
  simp only [numericScale6, Decimal.toRat, zpow_neg, Int.cast_natCast]
  norm_cast

/-- Adding a stored total and a quantity and comparing with a limit is exact in 28 digits. -/
theorem QuotaState.exceeded_iff {limit : LimitPerWindow} {total : Decimal} {micros : ℕ} {quantity : Quantity}
    (value : total.toRat = micros / 10 ^ 6) (exponent : -6 ≤ total.exponent) (nonneg : 0 ≤ total.coefficient) :
    (⟨limit, total⟩ : QuotaState).Exceeded quantity ↔ limit.value * 10 ^ 6 < micros + quantity.micros := by
  have small : min total.exponent (numericScale6 quantity.micros).exponent = -6 := min_eq_right exponent
  have bound : (⟨limit.value, 0⟩ : Decimal).toRat = limit.value := by
    simp only [Decimal.toRat, zpow_zero, mul_one, Int.cast_natCast]
  have short : (⟨limit.value, 0⟩ : Decimal).toRat <
      10 ^ decimalPrecision * 10 ^ (Decimal.exactSum total (numericScale6 quantity.micros)).exponent := by
    have exponentSum : (Decimal.exactSum total (numericScale6 quantity.micros)).exponent = -6 := small
    have bounded : (limit.value : ℚ) ≤ 10 ^ 15 := by exact_mod_cast limit.bounded
    rw [bound, exponentSum, decimalPrecision]
    calc (limit.value : ℚ) ≤ 10 ^ 15 := bounded
      _ < 10 ^ 28 * 10 ^ (-6 : ℤ) := by norm_num
  have sumNonneg : 0 ≤ (Decimal.exactSum total (numericScale6 quantity.micros)).coefficient := by
    have left : 0 ≤ total.coefficientAt (-6) := mul_nonneg nonneg (by positivity)
    have right : 0 ≤ (numericScale6 quantity.micros).coefficientAt (-6) :=
      mul_nonneg (Int.natCast_nonneg _) (by positivity)
    simp only [Decimal.exactSum, small]
    omega
  rw [Exceeded, Decimal.add, Decimal.lt_round_iff (by decide) _ _ short sumNonneg, bound, Decimal.toRat_exactSum,
    value, numericScale6_toRat, ← add_div, lt_div_iff₀ (by positivity)]
  norm_cast

/-- The exact total of a bucket, zero without a row. -/
def Database.bucketTotal (db : Database) (bucket : RollupKey) : ℕ :=
  (db.usageRollup.find bucket).elim 0 RollupRow.totalQuantity

/-- The exact total of a window under a quota. -/
def Database.windowTotal (db : Database) (key : QuotaKey) (window : Instant) : ℕ :=
  db.bucketTotal ⟨key.apiKeyId, key.customerId, key.metric, window⟩

theorem Database.totalQuantity_bump (before : Option RollupRow) (quantity : Quantity) :
    (bump before quantity).totalQuantity = before.elim 0 RollupRow.totalQuantity + quantity.micros := by
  cases before with
  | none => exact (Nat.zero_add _).symm
  | some row => rfl

theorem rejected_iff {db : Database} {key : QuotaKey} {tenant : ℕ} {row : EventRow} {limit : LimitPerWindow}
    (own : row.quotaKey tenant = key) :
    CreateEvent.Rejected (some ⟨limit, db.currentTotal (row.rollupKey tenant)⟩) row ↔
      limit.value * 10 ^ 6 < db.windowTotal key row.windowStart + row.quantity.micros := by
  subst key
  simp only [CreateEvent.Rejected, Option.mem_def, Option.some.injEq, exists_eq_left']
  change _ ↔ _ < db.bucketTotal (row.rollupKey tenant) + _
  rw [Database.currentTotal, Database.bucketTotal]
  cases db.usageRollup.find (row.rollupKey tenant) with
  | some rollup => exact QuotaState.exceeded_iff (numericScale6_toRat _) le_rfl (Int.natCast_nonneg _)
  | none => exact QuotaState.exceeded_iff (by simp [Decimal.toRat]) (by decide) le_rfl

/-! ## What the holder of the lock has read stays true -/

namespace CreateEvent

/-- The pending row of a phase. -/
def Phase.row : Phase → Option EventRow
  | inserted row | lockingQuota row _ | quotaLocked row _ | judging row _ | incremented row _ _ => some row
  | _ => none

/-- Under a quota that stays, a phase waits for the version that is there, has read the limit and the
total that are there, and never found the quota missing. -/
def Phase.Capped (db : Database) (tenant : ℕ) (key : QuotaKey) (version : Option CallId) : Phase → Prop
  | lockingQuota row seen => row.quotaKey tenant = key → seen = version
  | quotaLocked row limit => row.quotaKey tenant = key → db.limit key = some limit
  | judging row quotaState => row.quotaKey tenant = key → ∃ limit,
      db.limit key = some limit ∧ quotaState = some ⟨limit, db.currentTotal (row.rollupKey tenant)⟩
  | incremented row quotaState _ => row.quotaKey tenant = key → ∃ limit,
      db.limit key = some limit ∧ quotaState = some ⟨limit, db.currentTotal (row.rollupKey tenant)⟩ ∧
        ¬ Rejected quotaState row
  | _ => True

end CreateEvent

variable {s next source final : State} {a : Action} {txn other : CallId} {call : Call} {db : Database}
  {schedule : List Action} {key : QuotaKey} {version : Option CallId}

/-- Only a call that has incremented holds a bucket. -/
theorem Call.rollup_held {bucket : RollupKey} {effect : Effect RollupRow}
    (holds : (call.held txn).rollup = some (bucket, effect)) :
    ∃ payload receivedAt row quotaState rollup,
      call = .createEvent payload receivedAt (.incremented row quotaState rollup) ∧
        bucket = row.rollupKey txn.apiKeyId := by
  cases call with
  | createEvent payload receivedAt phase =>
    cases phase with
    | incremented row quotaState rollup =>
      exact ⟨payload, receivedAt, row, quotaState, rollup, rfl, (congrArg Prod.fst (Option.some.inj holds)).symm⟩
    | judging row quotaState => cases quotaState <;> contradiction
    | received | begun | inserting | inserted | lockingQuota | quotaLocked | conflicted | replayed | answered =>
      contradiction
  | upsertQuota payload phase => cases phase <;> contradiction
  | deleteQuota params phase =>
    cases phase with
    | removed found => cases found <;> contradiction
    | received | begun | deleting | answered => contradiction
  | idle | listQuotas | getUsage | getDailyUsage | exportUsage => contradiction

/-- The quota row is there in one version chain, and every call under it is in step with it. -/
structure UnderQuota (key : QuotaKey) (version : Option CallId) (s : State) : Prop where
  present : ∃ quota, s.db.quotas.find key = some quota ∧ quota.insertedBy = version
  capped : ∀ txn payload receivedAt phase, s.calls txn = .createEvent payload receivedAt phase →
    phase.Capped s.db txn.apiKeyId key version

namespace UnderQuota

/-- A call that has incremented under the quota holds its lock. -/
theorem quota_held (under : UnderQuota key version s) {payload : EventCreateRequest} {receivedAt : Instant}
    {row : EventRow} {quotaState : Option QuotaState} {rollup : RollupRow}
    (place : s.calls txn = .createEvent payload receivedAt (.incremented row quotaState rollup))
    (own : row.quotaKey txn.apiKeyId = key) : (s.held txn).quota = some (key, .keep) := by
  obtain ⟨limit, -, rfl, -⟩ := under.capped txn payload receivedAt _ place own
  rw [State.held, place, ← own]
  rfl

/-- While one call holds the lock, no other publishes a bucket under the quota. -/
theorem rollup_find_of_held (under : UnderQuota key version s) (consistent : Consistent s)
    (moved : Moved other s.db (s.calls other) call db) (differs : txn ≠ other) {effect : Effect QuotaRow}
    (holds : (s.held txn).quota = some (key, effect)) {bucket : RollupKey} (own : bucket.quotaKey = key) :
    db.usageRollup.find bucket = s.db.usageRollup.find bucket := by
  cases moved with
  | reads | insertsEvent | locksQuota | takesBucket | rollsBack => rfl
  | commits released whole =>
    refine consistent.rollups.find_commit_of_ne fun pending claimed => differs ?_
    obtain ⟨payload, receivedAt, row, quotaState, rollup, place, rfl⟩ := Call.rollup_held claimed
    exact consistent.quotas.owner_unique holds (under.quota_held place own)

/-- What a holder of the lock has read is not changed by the others. -/
theorem capped_of_other (under : UnderQuota key version s) (consistent : Consistent s)
    (moved : Moved other s.db (s.calls other) call db) (differs : txn ≠ other)
    {payload : EventCreateRequest} {receivedAt : Instant} {phase : CreateEvent.Phase}
    (place : s.calls txn = .createEvent payload receivedAt phase) : phase.Capped db txn.apiKeyId key version := by
  have capped := under.capped txn payload receivedAt phase place
  have held : s.held txn = phase.held txn payload := by
    rw [State.held, place]
    rfl
  have keeps : ∀ row : EventRow, row.quotaKey txn.apiKeyId = key → (s.held txn).quota = some (key, .keep) →
      db.limit key = s.db.limit key ∧
        db.currentTotal (row.rollupKey txn.apiKeyId) = s.db.currentTotal (row.rollupKey txn.apiKeyId) := by
    intro row own holds
    constructor
    · rw [Database.limit, Database.limit, consistent.quota_find_of_held moved differs holds]
    · rw [Database.currentTotal, Database.currentTotal,
        under.rollup_find_of_held consistent moved differs holds
          (show (row.rollupKey txn.apiKeyId).quotaKey = key from own)]
  cases phase with
  | quotaLocked row limit =>
    intro own
    rw [(keeps row own (by rw [held, ← own]; rfl)).1]
    exact capped own
  | judging row quotaState =>
    intro own
    obtain ⟨limit, found, rfl⟩ := capped own
    obtain ⟨sameLimit, sameTotal⟩ := keeps row own (by rw [held, ← own]; rfl)
    exact ⟨limit, sameLimit.trans found, by rw [sameTotal]⟩
  | incremented row quotaState rollup =>
    intro own
    obtain ⟨limit, found, rfl, accepted⟩ := capped own
    obtain ⟨sameLimit, sameTotal⟩ := keeps row own (by rw [held, ← own]; rfl)
    exact ⟨limit, sameLimit.trans found, by rw [sameTotal], accepted⟩
  | received | begun | inserting | inserted | lockingQuota | conflicted | replayed | answered => exact capped

/-- One step of a call under the quota. -/
theorem capped_of_self (under : UnderQuota key version s) {payload : EventCreateRequest} {receivedAt : Instant}
    {phase after : CreateEvent.Phase} (place : s.calls txn = .createEvent payload receivedAt phase)
    (moves : CreateEvent.Advanced txn payload receivedAt s.db phase after db) :
    after.Capped db txn.apiKeyId key version := by
  have capped := under.capped txn payload receivedAt phase place
  obtain ⟨quota, found, same⟩ := under.present
  cases moves with
  | @seesNoQuota row absent =>
    rintro rfl
    rw [Database.quotaVersion, found] at absent
    contradiction
  | @seesQuota row seen visible =>
    rintro rfl
    rw [Database.quotaVersion, found] at visible
    exact (Option.some.inj visible).symm.trans same
  | @losesQuota row seen free gone =>
    rintro rfl
    rw [Database.latestVersion_eq_some.mpr ⟨found, same.trans (capped rfl).symm⟩] at gone
    contradiction
  | @locksQuota row seen latest free visible =>
    rintro rfl
    exact congrArg (Option.map QuotaRow.limitPerWindow) (Database.latestVersion_eq_some.mp visible).1
  | @readsTotal row limit =>
    intro own
    exact ⟨limit, capped own, rfl⟩
  | @increments row quotaState accepted free =>
    intro own
    obtain ⟨limit, inForce, rfl⟩ := capped own
    exact ⟨limit, inForce, rfl, accepted⟩
  | opens | draws | inserts | conflicts | rejects | commits | finds | findsNothing | replays => trivial

/-- A step after which the quota is still there keeps every call in step with it. -/
theorem stepped (under : UnderQuota key version s) (consistent : Consistent s) (steps : Stepped s a next)
    (present : (next.db.quotas.find key).isSome) : UnderQuota key version next := by
  obtain ⟨quota, found, same⟩ := under.present
  refine ⟨?_, ?_⟩
  · rcases consistent.quota_version_step steps found with gone | ⟨after, found, kept⟩
    · rw [gone] at present
      contradiction
    · exact ⟨after, found, kept.trans same⟩
  · intro txn payload receivedAt phase place
    obtain ⟨other, before⟩ | ⟨rfl, -⟩ | ⟨earlier, db, -, before, moves, sameDb⟩ | ⟨rfl, -⟩ :=
      steps.createEvent_cases place
    · rcases steps.moved with ⟨elapsed, rfl⟩ | ⟨mover, call, db, caller, moved, rfl⟩
      · exact under.capped txn payload receivedAt phase before
      · exact under.capped_of_other consistent moved (fun same => other (by rw [caller, same])) before
    · trivial
    · rw [sameDb]
      exact under.capped_of_self before moves
    · trivial

end UnderQuota

/-! ## One answer of a holder is one step of the counter -/

/-- A pending row is the one its request asked for. -/
def RowsFaithful (s : State) : Prop :=
  ∀ txn payload receivedAt phase row, s.calls txn = .createEvent payload receivedAt phase → phase.row = some row →
    row = payload.row receivedAt row.eventTime row.id

theorem RowsFaithful.stepped (faithful : RowsFaithful s) (steps : Stepped s a next) : RowsFaithful next := by
  intro txn payload receivedAt phase row place pending
  rcases steps.createEvent_cases place with ⟨-, before⟩ | ⟨rfl, -⟩ | ⟨earlier, db, -, before, moves, -⟩ | ⟨rfl, -⟩
  · exact faithful txn payload receivedAt phase row before pending
  · contradiction
  · cases moves with
    | inserts free fresh =>
      obtain rfl := Option.some.inj pending
      rfl
    | seesNoQuota | seesQuota | losesQuota | locksQuota | readsTotal | increments =>
      exact faithful txn payload receivedAt _ row before pending
    | opens | draws | conflicts | rejects | commits | finds | findsNothing | replays => contradiction
  · contradiction

theorem RowsFaithful.of_run {db : Database} (reached : Machine.run step (.init db) schedule = some final) :
    RowsFaithful final :=
  Machine.run_invariant (fun _ _ _ _ _ place _ => by contradiction)
    (fun _ _ _ faithful steps => faithful.stepped (stepped_of_step steps)) reached

/-- What an ended call that held the lock of a quota was answered. -/
def cappedAnswer (key : QuotaKey) : CallId × Call → Option CappedAnswer
  | (txn, .createEvent payload receivedAt (.answered (.ok outcome))) =>
    if payload.quotaKey txn.apiKeyId = key ∧ outcome.httpStatus = 201 then
      some (.accepted (EventCreateRequest.windowStart receivedAt) payload.quantity)
    else none
  | (txn, .createEvent payload receivedAt (.answered (.error (.http exception)))) =>
    if payload.quotaKey txn.apiKeyId = key ∧ exception.appCode = some "quota_exceeded" then
      some (.rejected (EventCreateRequest.windowStart receivedAt) payload.quantity)
    else none
  | (txn, .upsertQuota payload (.answered (.ok _))) =>
    if payload.quotaKey txn.apiKeyId = key then some (.replaced payload.limitPerWindow) else none
  | _ => none

/-- The published limit and totals of a quota. -/
def Database.counter (db : Database) (key : QuotaKey) : Option CappedCounter :=
  (db.limit key).map fun limit => ⟨limit, db.windowTotal key⟩

/-- A commit that publishes no bucket under the quota leaves its totals. -/
theorem Consistent.windowTotal_commit_of_ne (consistent : Consistent s)
    (differs : ∀ bucket effect, (s.held txn).rollup = some (bucket, effect) → bucket.quotaKey ≠ key) :
    (s.db.commit txn).windowTotal key = s.db.windowTotal key := by
  funext window
  have same : (s.db.usageRollup.commit txn).find ⟨key.apiKeyId, key.customerId, key.metric, window⟩ =
      s.db.usageRollup.find ⟨key.apiKeyId, key.customerId, key.metric, window⟩ :=
    consistent.rollups.find_commit_of_ne fun effect claimed => differs _ effect claimed rfl
  exact congrArg (fun found => found.elim 0 RollupRow.totalQuantity) same

/-- The commit of an increment adds its quantity to its bucket. -/
theorem Consistent.bucketTotal_commit (consistent : Consistent s) {payload : EventCreateRequest}
    {receivedAt : Instant} {row : EventRow} {quotaState : Option QuotaState} {rollup : RollupRow}
    (place : s.calls txn = .createEvent payload receivedAt (.incremented row quotaState rollup)) :
    (s.db.commit txn).bucketTotal (row.rollupKey txn.apiKeyId) =
      s.db.bucketTotal (row.rollupKey txn.apiKeyId) + row.quantity.micros := by
  have holds : (s.held txn).rollup = some (row.rollupKey txn.apiKeyId, .write rollup) := by
    rw [State.held, place]
    rfl
  obtain ⟨eventKey, pending, event, -, -, bumped⟩ := consistent.bumped txn _ _ holds
  have sameRow : pending = row := by
    rw [State.held, place] at event
    exact (Effect.write.inj (congrArg Prod.snd (Option.some.inj event))).symm
  subst sameRow
  change ((s.db.usageRollup.commit txn).find (pending.rollupKey txn.apiKeyId)).elim 0 _ = _
  rw [consistent.rollups.find_commit holds, bumped, Effect.result]
  exact Database.totalQuantity_bump _ _

/-- The commit of an increment under the quota adds to one window. -/
theorem Consistent.windowTotal_commit (consistent : Consistent s) {payload : EventCreateRequest}
    {receivedAt : Instant} {row : EventRow} {quotaState : Option QuotaState} {rollup : RollupRow}
    (place : s.calls txn = .createEvent payload receivedAt (.incremented row quotaState rollup))
    (own : row.quotaKey txn.apiKeyId = key) :
    (s.db.commit txn).windowTotal key = Function.update (s.db.windowTotal key) row.windowStart
      (s.db.windowTotal key row.windowStart + row.quantity.micros) := by
  have holds : (s.held txn).rollup = some (row.rollupKey txn.apiKeyId, .write rollup) := by
    rw [State.held, place]
    rfl
  subst own
  funext window
  by_cases same : window = row.windowStart
  · subst window
    rw [Function.update_self]
    exact consistent.bucketTotal_commit place
  · rw [Function.update_of_ne same]
    have differs : RollupKey.mk txn.apiKeyId row.customerId row.metric window ≠ row.rollupKey txn.apiKeyId :=
      fun sameKey => same (congrArg RollupKey.windowStart sameKey)
    exact congrArg (fun found => found.elim 0 RollupRow.totalQuantity)
      (consistent.rollups.find_commit_of_key_ne holds differs)

/-- An answer under the quota is one step of its counter; every other step leaves the counter. -/
theorem Call.Advanced.capped_fits (consistent : Consistent s) (upserts : UpsertsFaithful s)
    (rows : RowsFaithful s) (under : UnderQuota key version s)
    (moves : Call.Advanced txn s.db (s.calls txn) call db) (present : (db.quotas.find key).isSome)
    {counter : CappedCounter} (before : s.db.counter key = some counter) :
    Machine.run CappedCounter.apply counter (cappedAnswer key (txn, call)).toList = db.counter key := by
  have limits := moves.quota_fits consistent upserts key
  have silent : cappedAnswer key (txn, call) = none → db.limit key = s.db.limit key →
      db.windowTotal key = s.db.windowTotal key →
      Machine.run CappedCounter.apply counter (cappedAnswer key (txn, call)).toList = db.counter key := by
    intro none sameLimit sameTotals
    rw [none, Database.counter, sameLimit, sameTotals]
    exact before.symm
  obtain ⟨limit, inForce, rfl⟩ := Option.map_eq_some_iff.mp before
  generalize place : s.calls txn = current at moves
  have unpublished : (current.held txn).rollup = none → (s.db.commit txn).windowTotal key = s.db.windowTotal key := by
    intro none
    apply consistent.windowTotal_commit_of_ne
    intro bucket effect holds
    rw [State.held, place, none] at holds
    contradiction
  cases moves with
  | @createEvent payload receivedAt phase after db moves =>
    have sameLimit : s.db.limit key = db.limit key := Option.some.inj limits
    cases moves with
    | @rejects row quotaState rejected =>
      have pending := rows txn payload receivedAt _ row place rfl
      by_cases own : payload.quotaKey txn.apiKeyId = key
      · have ownRow : row.quotaKey txn.apiKeyId = key := by
          rw [pending]
          exact own
        obtain ⟨read, found, rfl⟩ := under.capped txn payload receivedAt _ place ownRow
        obtain rfl := Option.some.inj (inForce.symm.trans found)
        have exceeded := (rejected_iff ownRow).mp rejected
        rw [pending] at exceeded
        have full : ¬ CappedCounter.Fits ⟨limit, s.db.windowTotal key⟩ (EventCreateRequest.windowStart receivedAt)
            payload.quantity := not_le.mpr exceeded
        have answer : cappedAnswer key (txn, .createEvent payload receivedAt (.answered (.error (quotaExceededError
            (secondsUntilNextHourBoundary receivedAt (EventCreateRequest.windowStart receivedAt)))))) =
            some (.rejected (EventCreateRequest.windowStart receivedAt) payload.quantity) := if_pos ⟨own, rfl⟩
        rw [answer, Option.toList_some, Machine.run_singleton, CappedCounter.apply_rejected full]
        exact before.symm
      · exact silent (if_neg fun both => own both.1) rfl rfl
    | @commits row quotaState rollup =>
      have pending := rows txn payload receivedAt _ row place rfl
      by_cases own : payload.quotaKey txn.apiKeyId = key
      · have ownRow : row.quotaKey txn.apiKeyId = key := by
          rw [pending]
          exact own
        obtain ⟨read, found, rfl, accepted⟩ := under.capped txn payload receivedAt _ place ownRow
        obtain rfl := Option.some.inj (inForce.symm.trans found)
        have within := not_lt.mp (mt (rejected_iff ownRow).mpr accepted)
        have totals := consistent.windowTotal_commit place ownRow
        rw [pending] at within totals
        have fits : CappedCounter.Fits ⟨limit, s.db.windowTotal key⟩ (EventCreateRequest.windowStart receivedAt)
            payload.quantity := within
        rw [cappedAnswer, if_pos ⟨own, rfl⟩, Option.toList_some, Machine.run_singleton,
          CappedCounter.apply_accepted fits, Database.counter, ← sameLimit, inForce, totals]
        rfl
      · refine silent (if_neg fun both => own both.1) sameLimit.symm
          (consistent.windowTotal_commit_of_ne fun bucket effect holds same => own ?_)
        rw [State.held, place] at holds
        obtain rfl := congrArg Prod.fst (Option.some.inj holds)
        rw [← same, pending]
        rfl
    | findsNothing => exact silent rfl rfl rfl
    | replays =>
      have silence : ¬ (payload.quotaKey txn.apiKeyId = key ∧ 200 = 201) := fun both => absurd both.2 (by decide)
      exact silent (if_neg silence) sameLimit.symm (unpublished rfl)
    | opens | draws | inserts | conflicts | seesNoQuota | seesQuota | losesQuota | locksQuota | readsTotal
      | increments | finds => exact silent rfl rfl rfl
  | listQuotas moves | getUsage moves | getDailyUsage moves =>
    cases moves with
    | refuses | opens | reads => exact silent rfl rfl rfl
    | commits => exact silent rfl (Option.some.inj limits).symm (unpublished rfl)
  | exportUsage moves =>
    cases moves with
    | opens | counts | sendsHeader | opensStream | streams => exact silent rfl rfl rfl
    | refuses | prepares | completes => exact silent rfl (Option.some.inj limits).symm (unpublished rfl)
  | @upsertQuota payload phase after db moves =>
    cases moves with
    | opens | inserts | replaces => exact silent rfl rfl rfl
    | @commits record row =>
      obtain ⟨rfl, -⟩ := upserts txn payload record row place
      by_cases own : payload.quotaKey txn.apiKeyId = key
      · have stored : (s.db.commit txn).limit key = some payload.limitPerWindow := by
          rw [quotaEvent, if_pos own, Option.toList_some, Machine.run_singleton, inForce] at limits
          cases inserted : (s.db.quotas.find (payload.quotaKey txn.apiKeyId)).isNone <;> rw [inserted] at limits
          · exact (Option.some.inj limits).symm
          · contradiction
        rw [cappedAnswer, if_pos own, Option.toList_some, Machine.run_singleton, Database.counter, stored,
          unpublished rfl]
        rfl
      · refine silent (if_neg own) ?_ (unpublished rfl)
        rw [quotaEvent, if_neg own] at limits
        exact (Option.some.inj limits).symm
  | @deleteQuota params phase after db moves =>
    cases moves with
    | opens | seesNothing | sees | loses | removes => exact silent rfl rfl rfl
    | @commits found =>
      have unpublished := unpublished (by cases found <;> rfl)
      by_cases removed : found = true ∧ params.quotaKey txn.apiKeyId = key
      · obtain ⟨rfl, own⟩ := removed
        rw [if_pos rfl, quotaEvent, if_pos own, Option.toList_some, Machine.run_singleton, inForce] at limits
        have gone : (s.db.commit txn).limit key = none := (Option.some.inj limits).symm
        rw [Database.limit, Option.map_eq_none_iff] at gone
        rw [gone] at present
        contradiction
      · refine silent (by cases found <;> rfl) ?_ unpublished
        cases found with
        | false => exact (Option.some.inj limits).symm
        | true =>
          rw [if_pos rfl, quotaEvent, if_neg fun own => removed ⟨rfl, own⟩] at limits
          exact (Option.some.inj limits).symm

end Meterly
