import Meterly.Soundness.CappedIngest

/-! # When a cap binds

A call that reads a limit locks the quota row, but a call that read no quota locks nothing. When
the row is created while such a call is under way, its commit can come between the total that a
capped call reads and the increment of that call. The cap binds exactly when each of those commits
leaves room for the event that has already been judged.
-/

namespace Meterly

variable {s next source final middle : State} {a : Action} {txn : CallId} {schedule earlier : List Action}
  {row : EventRow} {limit : LimitPerWindow}

/-- The event that a call is about to commit, with the limit it was judged by. -/
def Call.cappedEvent : Call → Option (EventRow × LimitPerWindow)
  | .createEvent _ _ (.incremented row (some state) _) => some (row, state.limitPerWindow)
  | _ => none

theorem Call.cappedEvent_eq_some {call : Call} (capped : call.cappedEvent = some (row, limit)) :
    ∃ payload receivedAt total rollup,
      call = .createEvent payload receivedAt (.incremented row (some ⟨limit, total⟩) rollup) := by
  cases call with
  | createEvent payload receivedAt phase =>
    cases phase with
    | incremented event quotaState rollup =>
      cases quotaState with
      | none => contradiction
      | some state =>
        obtain ⟨rfl, rfl⟩ := Prod.mk.inj (Option.some.inj capped)
        exact ⟨payload, receivedAt, _, rollup, rfl⟩
    | received | begun | inserting | inserted | lockingQuota | quotaLocked | judging | conflicted | replayed
      | answered => contradiction
  | idle | upsertQuota | deleteQuota | listQuotas | getUsage | getDailyUsage | exportUsage => contradiction

/-- The step of a schedule that commits the event of a call that read a limit. -/
structure CappedCommit (source : State) (schedule earlier : List Action) (txn : CallId) (row : EventRow)
    (limit : LimitPerWindow) (middle next : State) : Prop where
  split : ∃ later, schedule = earlier ++ .advance txn :: later
  before : Machine.run step source earlier = some middle
  capped : (middle.calls txn).cappedEvent = some (row, limit)
  last : step middle (.advance txn) = some next

/-- Every event that was judged by a limit leaves its bucket within that limit when it is committed. -/
def CapBinds (source : State) (schedule : List Action) : Prop :=
  ∀ earlier txn row limit middle next, CappedCommit source schedule earlier txn row limit middle next →
    next.db.bucketTotal (row.rollupKey txn.apiKeyId) ≤ limit.value * 10 ^ 6

/-- If the step commits an event that read no quota into the bucket whose total the call has read, the
bucket has room for both events. -/
def LeavesRoom (txn : CallId) (s : State) (a : Action) : Prop :=
  ∀ other uncapped uncappedAt event rollup payload receivedAt row limit total, a = .advance other →
    s.calls other = .createEvent uncapped uncappedAt (.incremented event none rollup) →
    s.calls txn = .createEvent payload receivedAt (.judging row (some ⟨limit, total⟩)) →
    event.rollupKey other.apiKeyId = row.rollupKey txn.apiKeyId →
      s.db.bucketTotal (row.rollupKey txn.apiKeyId) + event.quantity.micros + row.quantity.micros ≤
        limit.value * 10 ^ 6

/-- Every step before the commit of a capped event leaves room for it. -/
def RoomLeft (source : State) (schedule : List Action) : Prop :=
  ∀ earlier txn row limit middle next, CappedCommit source schedule earlier txn row limit middle next →
    ∀ first a rest s, earlier = first ++ a :: rest → Machine.run step source first = some s → LeavesRoom txn s a

/-! ## Totals along a run -/

/-- A bucket changes by the commit of an increment, or not at all. -/
theorem Stepped.bucketTotal (consistent : Consistent s) (steps : Stepped s a next) (bucket : RollupKey) :
    next.db.bucketTotal bucket = s.db.bucketTotal bucket ∨
      ∃ other payload receivedAt event quotaState rollup, a = .advance other ∧
        s.calls other = .createEvent payload receivedAt (.incremented event quotaState rollup) ∧
        event.rollupKey other.apiKeyId = bucket ∧
        next.db.bucketTotal bucket = s.db.bucketTotal bucket + event.quantity.micros := by
  cases steps with
  | start | interrupt | tick => exact .inl rfl
  | @advance other call db moves =>
    cases Moved.of_advanced moves with
    | reads | insertsEvent | locksQuota | takesBucket | rollsBack => exact .inl rfl
    | commits released whole =>
      by_cases claimed : ∃ effect, (s.held other).rollup = some (bucket, effect)
      · obtain ⟨effect, claimed⟩ := claimed
        obtain ⟨payload, receivedAt, event, quotaState, rollup, place, rfl⟩ := Call.rollup_held claimed
        exact .inr ⟨other, payload, receivedAt, event, quotaState, rollup, rfl, place, rfl,
          consistent.bucketTotal_commit place⟩
      · exact .inl (congrArg (fun found => found.elim 0 RollupRow.totalQuantity)
          (consistent.rollups.find_commit_of_ne fun effect claims => claimed ⟨effect, claims⟩))

theorem bucketTotal_run (consistent : Consistent s) (reached : Machine.run step s schedule = some final)
    (bucket : RollupKey) : s.db.bucketTotal bucket ≤ final.db.bucketTotal bucket := by
  suffices both : Consistent final ∧ s.db.bucketTotal bucket ≤ final.db.bucketTotal bucket from both.2
  refine Machine.run_invariant (motive := fun current => Consistent current ∧
    s.db.bucketTotal bucket ≤ current.db.bucketTotal bucket) ⟨consistent, le_rfl⟩ ?_ reached
  rintro current a next ⟨consistent, grown⟩ steps
  have steps := stepped_of_step steps
  refine ⟨consistent.stepped steps, ?_⟩
  rcases steps.bucketTotal consistent bucket with same | ⟨_, _, _, _, _, _, -, -, -, added⟩ <;> omega

/-- The step that ends a call which has incremented is its commit. -/
theorem Stepped.bucketTotal_self (consistent : Consistent s) (steps : Stepped s (.advance txn) next)
    {payload : EventCreateRequest} {receivedAt : Instant} {quotaState : Option QuotaState} {rollup : RollupRow}
    (place : s.calls txn = .createEvent payload receivedAt (.incremented row quotaState rollup)) :
    next.db.bucketTotal (row.rollupKey txn.apiKeyId) =
      s.db.bucketTotal (row.rollupKey txn.apiKeyId) + row.quantity.micros := by
  cases steps with
  | @advance _ call db moves =>
    have committed := consistent.bucketTotal_commit place
    rw [place] at moves
    cases moves with
    | createEvent moves =>
      cases moves with
      | commits => exact committed

/-! ## Room left is enough -/

/-- An event that was not rejected still fits into its bucket. -/
def CreateEvent.Phase.Fits (db : Database) (tenant : ℕ) : CreateEvent.Phase → Prop
  | judging row (some state) => CreateEvent.Rejected (some state) row ∨
      db.bucketTotal (row.rollupKey tenant) + row.quantity.micros ≤ state.limitPerWindow.value * 10 ^ 6
  | incremented row (some state) _ =>
      db.bucketTotal (row.rollupKey tenant) + row.quantity.micros ≤ state.limitPerWindow.value * 10 ^ 6
  | _ => True

/-- The event of the call, if it has been judged, still fits. -/
def State.Fits (s : State) (txn : CallId) : Prop :=
  ∀ payload receivedAt phase, s.calls txn = .createEvent payload receivedAt phase → phase.Fits s.db txn.apiKeyId

namespace State.Fits

/-- A step of another call takes no more than the room it has to leave. -/
theorem of_other (fits : s.Fits txn) (consistent : Consistent s) (room : LeavesRoom txn s a)
    (steps : Stepped s a next) (differs : a.caller ≠ some txn) {payload : EventCreateRequest}
    {receivedAt : Instant} {phase : CreateEvent.Phase} (place : s.calls txn = .createEvent payload receivedAt phase) :
    phase.Fits next.db txn.apiKeyId := by
  have before := fits payload receivedAt phase place
  have held : s.held txn = phase.held txn payload := by
    rw [State.held, place]
    rfl
  cases phase with
  | judging row quotaState =>
    cases quotaState with
    | none => trivial
    | some state =>
      apply before.imp_right
      intro before
      obtain same | ⟨other, uncapped, uncappedAt, event, otherState, rollup, rfl, otherPlace, bucket, added⟩ :=
        steps.bucketTotal consistent (row.rollupKey txn.apiKeyId)
      · rwa [same]
      · cases otherState with
        | none =>
          rw [added]
          exact room other uncapped uncappedAt event rollup payload receivedAt row _ _ rfl otherPlace place bucket
        | some otherState =>
          -- Both calls would hold the lock of the quota.
          have claims : (s.held txn).quota = some (row.quotaKey txn.apiKeyId, .keep) := by
            rw [held]
            rfl
          have otherClaims : (s.held other).quota = some (row.quotaKey txn.apiKeyId, .keep) := by
            rw [State.held, otherPlace]
            exact congrArg (fun key : RollupKey => some (key.quotaKey, Effect.keep)) bucket
          exact absurd (congrArg some (consistent.quotas.owner_unique otherClaims claims)) differs
  | incremented row quotaState rollup =>
    cases quotaState with
    | none => trivial
    | some state =>
      obtain same | ⟨other, _, _, event, _, otherRollup, rfl, otherPlace, bucket, -⟩ :=
        steps.bucketTotal consistent (row.rollupKey txn.apiKeyId)
      · exact (congrArg (· + row.quantity.micros) same).trans_le before
      · have claims : (s.held txn).rollup = some (row.rollupKey txn.apiKeyId, .write rollup) := by
          rw [held]
          rfl
        have otherClaims : (s.held other).rollup = some (row.rollupKey txn.apiKeyId, .write otherRollup) := by
          rw [State.held, otherPlace, ← bucket]
          rfl
        exact absurd (congrArg some (consistent.rollups.owner_unique otherClaims claims)) differs
  | received | begun | inserting | inserted | lockingQuota | quotaLocked | conflicted | replayed | answered => trivial

theorem stepped (fits : s.Fits txn) (consistent : Consistent s) (room : LeavesRoom txn s a)
    (steps : Stepped s a next) : next.Fits txn := by
  intro payload receivedAt phase place
  obtain ⟨other, before⟩ | ⟨rfl, -⟩ | ⟨earlier, db, -, before, moves, sameDb⟩ | ⟨rfl, -⟩ := steps.createEvent_cases place
  · exact fits.of_other consistent room steps other before
  · trivial
  · rw [sameDb]
    have earlierFits := fits payload receivedAt earlier before
    cases moves with
    | @readsTotal row limit =>
      by_cases rejected : CreateEvent.Rejected (some ⟨limit, s.db.currentTotal (row.rollupKey txn.apiKeyId)⟩) row
      · exact .inl rejected
      · exact .inr (not_lt.mp (mt (rejected_iff rfl).mpr rejected))
    | @increments row quotaState accepted free =>
      cases quotaState with
      | none => trivial
      | some state => exact earlierFits.resolve_left accepted
    | seesNoQuota | losesQuota | opens | draws | inserts | conflicts | seesQuota | locksQuota | rejects | commits
      | finds | findsNothing | replays => trivial
  · trivial

theorem of_run (consistent : Consistent source) (start : source.Fits txn)
    (reached : Machine.run step source schedule = some final)
    (room : ∀ first a rest s, schedule = first ++ a :: rest → Machine.run step source first = some s →
      LeavesRoom txn s a) : final.Fits txn := by
  refine (Machine.run_induction (motive := fun schedule s => (∀ first a rest s, schedule = first ++ a :: rest →
    Machine.run step source first = some s → LeavesRoom txn s a) → s.Fits txn) source (fun _ => start) ?_ reached) room
  intro schedule s a next before ih steps room
  have fits := ih fun first b rest s split ran => room first b (rest ++ [a]) s (by rw [split, List.append_assoc]; rfl) ran
  exact fits.stepped (consistent.of_run before) (room schedule a [] s rfl before) (stepped_of_step steps)

end State.Fits

/-! ## Room left is needed -/

/-- The call was judged with this state of the quota, and has not been judged again. -/
def Call.Judged (payload : EventCreateRequest) (receivedAt : Instant) (row : EventRow)
    (quotaState : Option QuotaState) (call : Call) : Prop :=
  call = .createEvent payload receivedAt (.judging row quotaState) ∨
    (∃ rollup, call = .createEvent payload receivedAt (.incremented row quotaState rollup)) ∨ call.isAnswered

theorem Call.Judged.stepped {payload : EventCreateRequest} {receivedAt : Instant} {quotaState : Option QuotaState}
    (judged : (s.calls txn).Judged payload receivedAt row quotaState) (steps : Stepped s a next) :
    (next.calls txn).Judged payload receivedAt row quotaState := by
  rcases steps.call_cases txn with ⟨-, same⟩ | ⟨request, idle, -, -⟩ | ⟨call, db, -, moves, same, -⟩ | ⟨running, same, -⟩
  · rwa [same]
  · rw [idle] at judged
    rcases judged with impossible | ⟨rollup, impossible⟩ | impossible <;> contradiction
  · rw [same]
    rcases judged with place | ⟨rollup, place⟩ | answered
    · rw [place] at moves
      cases moves with
      | createEvent moves =>
        cases moves with
        | rejects => exact .inr (.inr rfl)
        | increments => exact .inr (.inl ⟨_, rfl⟩)
    · rw [place] at moves
      cases moves with
      | createEvent moves =>
        cases moves with
        | commits => exact .inr (.inr rfl)
    · exact absurd answered moves.not_answered
  · rw [same]
    right; right
    cases place : s.calls txn with
    | idle => rw [place] at running; contradiction
    | createEvent | upsertQuota | deleteQuota | listQuotas | getUsage | getDailyUsage | exportUsage => rfl

/-- A cap binds exactly when every commit that escapes the lock, between the reading of a total and the
commit that relies on it, leaves room for the event that was judged. -/
theorem cap_binds_iff_room_left {collation : Collation} {now : Instant} {nextEventId : ℕ} {tables : Tables} :
    CapBinds (.init (.atRest collation now nextEventId tables)) schedule ↔
      RoomLeft (.init (.atRest collation now nextEventId tables)) schedule := by
  have start := Consistent.init collation now nextEventId tables
  constructor
  · rintro binds earlier txn row limit middle next commit first a rest s rfl before
      other uncapped uncappedAt event rollup payload receivedAt pending read total rfl otherPlace place bucket
    obtain ⟨_, same, onward⟩ := Machine.run_append_iff.mp commit.before
    obtain rfl := Option.some.inj (before.symm.trans same)
    obtain ⟨after, escapes, onward⟩ := Option.bind_eq_some_iff.mp onward
    have valid := start.of_run before
    have escapes := stepped_of_step escapes
    -- The judged event is the one that is committed in the end.
    have judged : (middle.calls txn).Judged payload receivedAt pending (some ⟨read, total⟩) :=
      Machine.run_invariant (motive := fun s => (s.calls txn).Judged payload receivedAt pending (some ⟨read, total⟩))
        (Call.Judged.stepped (.inl place) escapes) (fun _ _ _ judged steps => judged.stepped (stepped_of_step steps)) onward
    obtain ⟨_, _, _, _, ending⟩ := Call.cappedEvent_eq_some commit.capped
    obtain ⟨rfl, rfl⟩ : row = pending ∧ limit = read := by
      rw [ending] at judged
      rcases judged with impossible | ⟨_, same⟩ | impossible
      · cases impossible
      · cases same
        exact ⟨rfl, rfl⟩
      · contradiction
    have within := binds _ txn row limit middle next commit
    have added := escapes.bucketTotal_self valid otherPlace
    have grown := bucketTotal_run (valid.stepped escapes) onward (row.rollupKey txn.apiKeyId)
    have total := (stepped_of_step commit.last).bucketTotal_self (start.of_run commit.before) ending
    rw [bucket] at added
    omega
  · intro room earlier txn row limit middle next commit
    obtain ⟨payload, receivedAt, total, rollup, place⟩ := Call.cappedEvent_eq_some commit.capped
    have fits := State.Fits.of_run start (fun _ _ _ place => by contradiction) commit.before
      (room earlier txn row limit middle next commit) payload receivedAt _ place
    rw [(stepped_of_step commit.last).bucketTotal_self (start.of_run commit.before) place]
    exact fits

/-- An event of five units starts before the limit of five exists, and commits after a second event of
five units has read the empty bucket: the second fills the bucket to ten. -/
theorem cap_overrun_by_uncapped_event :
    let event (name : String) : Request := .createEvent ⟨"c", "m", ⟨5000000, by decide, by decide⟩, name⟩ 0
    let put : Request := .upsertQuota ⟨"c", "m", ⟨5, by decide, by decide⟩⟩
    let earlier := (event "a").steps ⟨1, 0⟩ 4 ++ put.steps ⟨1, 1⟩ 3 ++ (event "b").steps ⟨1, 2⟩ 6 ++
      [.advance ⟨1, 0⟩, .advance ⟨1, 0⟩, .advance ⟨1, 2⟩]
    ¬ CapBinds (.init (.atRest .codePoint 0 1 (.afterMigration ∅ ∅))) (earlier ++ [.advance ⟨1, 2⟩]) := by
  intro event put earlier binds
  let row : EventRow := ⟨2, "c", "m", ⟨5000000, by decide, by decide⟩, 0, 0⟩
  let limit : LimitPerWindow := ⟨5, by decide, by decide⟩
  have ends : ((Machine.run step (.init (.atRest .codePoint 0 1 (.afterMigration ∅ ∅))) earlier).bind fun middle =>
      (step middle (.advance ⟨1, 2⟩)).map fun next =>
        ((middle.calls ⟨1, 2⟩).cappedEvent, next.db.bucketTotal (row.rollupKey 1))) =
      some (some (row, limit), 10000000) := by decide +kernel
  obtain ⟨middle, before, ends⟩ := Option.bind_eq_some_iff.mp ends
  obtain ⟨next, last, ends⟩ := Option.map_eq_some_iff.mp ends
  obtain ⟨capped, total⟩ := Prod.mk.inj ends
  have within := binds earlier ⟨1, 2⟩ row limit middle next ⟨⟨[], rfl⟩, before, capped, last⟩
  rw [show next.db.bucketTotal _ = 10000000 from total] at within
  exact absurd within (by decide)

end Meterly
