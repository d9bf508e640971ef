import Meterly.Soundness.UsageLog

/-! # The window of an event and its time

The window of an event is floored from a clock reading of the service, its time is the start of the
transaction. The two name one UTC hour as long as no hour ends between the reading and the `BEGIN`;
nothing in the service sees to that. While it holds of every `BEGIN`, the buckets can be recomputed
from the times of the events alone.
-/

namespace Meterly

/-- `window_start` is `event_time` floored to its UTC hour. -/
def EventRow.WindowAgrees (row : EventRow) : Prop := row.windowStart = EventCreateRequest.windowStart row.eventTime

instance (row : EventRow) : Decidable row.WindowAgrees := inferInstanceAs (Decidable (_ = _))

/-- The hour bucket of an event, by its time. -/
def EventRow.timeBucket (apiKeyId : ℕ) (row : EventRow) : RollupKey :=
  ⟨apiKeyId, row.customerId, row.metric, EventCreateRequest.windowStart row.eventTime⟩

/-- The rollup recomputed from `event_time` instead of `window_start`. -/
def backfillByEventTime (events : Rows EventKey EventRow) : Rows RollupKey RollupRow :=
  groupBy (fun entry => entry.2.timeBucket entry.1.apiKeyId)
    (fun rows => ⟨(rows.map fun entry => entry.2.quantity.micros).sum, rows.length⟩) events.entries

/-- Every committed event has the window of its time. -/
def WindowsAgree (events : Rows EventKey EventRow) : Prop := ∀ entry ∈ events.entries, entry.2.WindowAgrees

theorem WindowsAgree.backfill_eq {events : Rows EventKey EventRow} (agree : WindowsAgree events) :
    backfillByEventTime events = backfill events := by
  apply groupBy_congr
  intro entry member
  rw [EventRow.timeBucket, ← agree entry member, EventRow.rollupKey]

namespace CreateEvent

/-- The clock readings of a phase name one hour. -/
def Phase.WindowAgrees (receivedAt : Instant) : Phase → Prop
  | begun startedAt | inserting startedAt _ =>
    EventCreateRequest.windowStart receivedAt = EventCreateRequest.windowStart startedAt
  | phase => ∀ row ∈ phase.row, row.WindowAgrees

/-- After a `BEGIN` in the hour of the receipt every step stays in it. -/
theorem Phase.WindowAgrees.advanced {txn : CallId} {payload : EventCreateRequest} {receivedAt : Instant}
    {db next : Database} {phase after : Phase} (agrees : phase.WindowAgrees receivedAt)
    (begins : phase = .received →
      EventCreateRequest.windowStart receivedAt = EventCreateRequest.windowStart db.now)
    (moves : Advanced txn payload receivedAt db phase after next) : after.WindowAgrees receivedAt := by
  cases moves with
  | opens => exact begins rfl
  | draws => exact agrees
  | inserts free fresh =>
    intro row same
    obtain rfl := Option.some.inj same
    exact agrees
  | seesNoQuota | seesQuota | losesQuota | locksQuota | readsTotal | increments => exact agrees
  | conflicts | rejects | commits | finds | findsNothing | replays => nofun

end CreateEvent

/-- A `BEGIN` of `create_event` comes in the UTC hour of the receipt. -/
def BeginsInWindow (s : State) : Action → Prop
  | .advance txn => match s.calls txn with
    | .createEvent _ receivedAt .received =>
      EventCreateRequest.windowStart receivedAt = EventCreateRequest.windowStart s.db.now
    | _ => True
  | _ => True

/-- `received_at` is read from the clock that the database reads. -/
def ReadsClock (s : State) : Action → Prop
  | .start _ (.createEvent _ receivedAt) => receivedAt = s.db.now
  | _ => True

instance (s : State) (a : Action) : Decidable (BeginsInWindow s a) := by
  unfold BeginsInWindow
  split
  · split <;> infer_instance
  · infer_instance

instance (s : State) (a : Action) : Decidable (ReadsClock s a) := by
  unfold ReadsClock
  split <;> infer_instance

variable {s next final : State} {a : Action} {txn : CallId} {schedule : List Action}

theorem BeginsInWindow.of_received (begins : BeginsInWindow s (.advance txn)) {payload : EventCreateRequest}
    {receivedAt : Instant} (place : s.calls txn = .createEvent payload receivedAt .received) :
    EventCreateRequest.windowStart receivedAt = EventCreateRequest.windowStart s.db.now := by
  simp only [BeginsInWindow] at begins
  rwa [place] at begins

/-- Published events, and the calls on their way to publish one, stand in the hour of their time. -/
structure InWindow (s : State) : Prop where
  consistent : Consistent s
  published : ∀ key row, s.db.events.find key = some row → row.WindowAgrees
  calls : ∀ txn payload receivedAt phase, s.calls txn = .createEvent payload receivedAt phase →
    phase.WindowAgrees receivedAt

theorem InWindow.stepped (inWindow : InWindow s) (begins : BeginsInWindow s a) (steps : Stepped s a next) :
    InWindow next where
  consistent := inWindow.consistent.stepped steps
  published := by
    intro key row found
    obtain before | ⟨txn, payload, receivedAt, quotaState, rollup, place, -, -⟩ :=
      inWindow.consistent.event_find_cases steps found
    · exact inWindow.published key row before
    · exact inWindow.calls txn payload receivedAt _ place row rfl
  calls := by
    intro txn payload receivedAt phase place
    rcases steps.createEvent_cases place with ⟨-, same⟩ | ⟨rfl, -⟩ | ⟨before, db, rfl, same, moves, -⟩ | ⟨rfl, -⟩
    · exact inWindow.calls txn payload receivedAt phase same
    · nofun
    · refine (inWindow.calls txn payload receivedAt before same).advanced ?_ moves
      rintro rfl
      exact begins.of_received same
    · nofun

/-- In every run whose `BEGIN`s come in the hour of the receipt, each committed event has the window of its
time, and the rollup is the one that the times of the events give. -/
theorem window_start_agrees_with_event_time {collation : Collation} {now : Instant} {nextEventId : ℕ}
    {events : Rows EventKey EventRow} {quotas : Rows QuotaKey QuotaRow} (agree : WindowsAgree events)
    (begins : Machine.Along step BeginsInWindow
      (.init (.atRest collation now nextEventId (.afterMigration events quotas))) schedule)
    (reached : Machine.run step (.init (.atRest collation now nextEventId (.afterMigration events quotas)))
      schedule = some final) :
    WindowsAgree final.db.events.committed ∧
      backfillByEventTime final.db.events.committed = backfill final.db.events.committed ∧
      ∀ bucket, final.db.usageRollup.find bucket = (backfillByEventTime final.db.events.committed).lookup bucket := by
  have start : InWindow (.init (.atRest collation now nextEventId (.afterMigration events quotas))) := by
    refine ⟨.init .., fun key row found => ?_, nofun⟩
    exact agree _ (AList.lookup_eq_some_iff.mp found)
  have inWindow := Machine.run_invariant_along start
    (fun _ _ _ inWindow begins steps => inWindow.stepped begins (stepped_of_step steps)) begins reached
  have windows : WindowsAgree final.db.events.committed := by
    rintro ⟨key, row⟩ member
    exact inWindow.published key row (AList.lookup_eq_some_iff.mpr member)
  refine ⟨windows, windows.backfill_eq, fun bucket => ?_⟩
  rw [windows.backfill_eq]
  exact RollupIsLog.of_run reached bucket

/-- An hour that ends between the receipt and the `BEGIN`: one event in the window before its time. -/
theorem window_start_left_behind :
    ¬ ∀ (schedule : List Action) (final : State),
      Machine.Along step ReadsClock (.init (.atRest .codePoint 3599999999 1 (.afterMigration ∅ ∅))) schedule →
      Machine.run step (.init (.atRest .codePoint 3599999999 1 (.afterMigration ∅ ∅))) schedule = some final →
      WindowsAgree final.db.events.committed := by
  intro agree
  let request : Request := .createEvent ⟨"c", "m", ⟨1, by decide, by decide⟩, "a"⟩ 3599999999
  let schedule : List Action := .start ⟨7, 0⟩ request :: .tick 1 :: List.replicate 6 (.advance ⟨7, 0⟩)
  obtain ⟨final, reached, row⟩ := Option.map_eq_some_iff.mp (show
    (Machine.run step (.init (.atRest .codePoint 3599999999 1 (.afterMigration ∅ ∅))) schedule).map
      (fun final => final.db.events.find ⟨7, "a"⟩) =
        some (some ⟨1, "c", "m", ⟨1, by decide, by decide⟩, 0, 3600000000⟩) by decide)
  have windows := agree schedule final (by decide) reached
  exact absurd (windows _ (AList.lookup_eq_some_iff.mp row)) (by decide)

/-- An event whose transaction begins in the last microsecond of the hour of its receipt. -/
theorem window_start_agrees_with_event_time_last_microsecond :
    let request : Request := .createEvent ⟨"c", "m", ⟨1, by decide, by decide⟩, "a"⟩ 0
    let schedule : List Action :=
      .start ⟨7, 0⟩ request :: .tick 3599999999 :: .advance ⟨7, 0⟩ :: .tick 1 :: List.replicate 5 (.advance ⟨7, 0⟩)
    ∃ final, Machine.run step (.init (.atRest .codePoint 0 1 (.afterMigration ∅ ∅))) schedule = some final ∧
      final.db.events.find ⟨7, "a"⟩ = some ⟨1, "c", "m", ⟨1, by decide, by decide⟩, 0, 3599999999⟩ ∧
      WindowsAgree final.db.events.committed := by
  intro request schedule
  obtain ⟨final, reached, row⟩ := Option.map_eq_some_iff.mp (show
    (Machine.run step (.init (.atRest .codePoint 0 1 (.afterMigration ∅ ∅))) schedule).map
      (fun final => final.db.events.find ⟨7, "a"⟩) =
        some (some ⟨1, "c", "m", ⟨1, by decide, by decide⟩, 0, 3599999999⟩) by decide)
  have none : WindowsAgree ∅ := fun entry member => absurd member List.not_mem_nil
  exact ⟨final, reached, row, (window_start_agrees_with_event_time none (by decide) reached).1⟩

end Meterly
