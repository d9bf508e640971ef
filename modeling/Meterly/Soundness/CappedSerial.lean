import Meterly.Soundness.CappedIngest
import Meterly.Soundness.ExactlyOnce

/-! # The order of the lock is a serial order

The calls that take the lock of a quota row are listed as they take it. All but the last have
ended when the next one takes it, so each answer appends one step to the serial execution of the
calls before it.
-/

namespace Meterly

variable {s next source final : State} {a : Action} {txn : CallId} {call : Call} {db : Database}
  {schedule : List Action} {key : QuotaKey} {version : Option CallId}

/-- The call that holds a quota row. -/
def State.holder (s : State) (key : QuotaKey) : Option CallId := (s.db.quotas.holds.lookup key).map Hold.owner

/-- The call that took a quota row in one step. -/
def lockTaken (key : QuotaKey) (s : State) (_ : Action) (next : State) : List CallId :=
  match s.holder key, next.holder key with
  | none, some txn => [txn]
  | _, _ => []

/-- The calls that took the lock of a quota row along a run, in the order in which they took it. -/
def lockOrder (key : QuotaKey) (source : State) (schedule : List Action) : List CallId :=
  Machine.observed step (lockTaken key) source schedule

theorem Consistent.holder_eq_some (consistent : Consistent s) :
    s.holder key = some txn ↔ ∃ effect, (s.held txn).quota = some (key, effect) := by
  rw [State.holder, Option.map_eq_some_iff]
  constructor
  · rintro ⟨⟨owner, effect⟩, found, rfl⟩
    exact ⟨effect, (consistent.quotas _ key effect).mp found⟩
  · rintro ⟨effect, holds⟩
    exact ⟨_, consistent.quotas.lookup holds, rfl⟩

theorem Call.held_of_answered (answered : call.isAnswered) : call.held txn = .none := by
  cases call with
  | idle => contradiction
  | createEvent payload receivedAt phase => cases phase <;> first | rfl | contradiction
  | upsertQuota payload phase => cases phase <;> first | rfl | contradiction
  | deleteQuota params phase => cases phase <;> first | rfl | contradiction
  | listQuotas | getUsage | getDailyUsage | exportUsage => rfl

theorem cappedAnswer_of_not_answered (unanswered : ¬ call.isAnswered) : cappedAnswer key (txn, call) = none := by
  cases call with
  | createEvent payload receivedAt phase => cases phase <;> first | rfl | exact absurd rfl unanswered
  | upsertQuota payload phase => cases phase <;> first | rfl | exact absurd rfl unanswered
  | idle | deleteQuota | listQuotas | getUsage | getDailyUsage | exportUsage => rfl

/-- A step that gives up a quota row ends its call. -/
theorem Call.Advanced.quota_kept {before : Call} {start : Database}
    (moves : Call.Advanced txn start before call db) {hold : QuotaKey × Effect QuotaRow}
    (holds : (before.held txn).quota = some hold) : (call.held txn).quota = some hold ∨ call.isAnswered := by
  cases moves with
  | createEvent moves =>
    cases moves with
    | readsTotal => exact .inl holds
    | @increments row quotaState => cases quotaState <;> exact .inl holds
    | rejects | commits => exact .inr rfl
    | opens | draws | inserts | conflicts | seesNoQuota | seesQuota | losesQuota | locksQuota | finds
      | findsNothing | replays => contradiction
  | upsertQuota moves =>
    cases moves with
    | commits => exact .inr rfl
    | opens | inserts | replaces => contradiction
  | deleteQuota moves =>
    cases moves with
    | commits => exact .inr rfl
    | opens | seesNothing | sees | loses | removes => contradiction
  | listQuotas | getUsage | getDailyUsage | exportUsage => contradiction

/-- An answer under a quota is given by the holder of its lock. -/
theorem Call.Advanced.capped_holds (rows : RowsFaithful s) (under : UnderQuota key version s)
    (moves : Call.Advanced txn s.db (s.calls txn) call db) {answer : CappedAnswer}
    (answers : cappedAnswer key (txn, call) = some answer) :
    ∃ effect, (s.held txn).quota = some (key, effect) := by
  generalize place : s.calls txn = current at moves
  have held : s.held txn = current.held txn := by rw [State.held, place]
  cases moves with
  | @createEvent payload receivedAt phase after db moves =>
    cases moves with
    | @rejects row quotaState rejected =>
      have own : payload.quotaKey txn.apiKeyId = key := (Option.ite_none_right_eq_some.mp answers).1.1
      obtain ⟨state, rfl, -⟩ := rejected
      refine ⟨.keep, ?_⟩
      rw [held, ← own]
      exact congrArg (fun row : EventRow => some (row.quotaKey txn.apiKeyId, Effect.keep))
        (rows txn payload receivedAt _ row place rfl)
    | @commits row quotaState rollup =>
      have own : payload.quotaKey txn.apiKeyId = key := (Option.ite_none_right_eq_some.mp answers).1.1
      exact ⟨.keep, under.quota_held place (by rw [rows txn payload receivedAt _ row place rfl]; exact own)⟩
    | findsNothing => contradiction
    | replays => exact absurd (Option.ite_none_right_eq_some.mp answers).1.2 (show ¬ 200 = 201 by decide)
    | opens | draws | inserts | conflicts | seesNoQuota | seesQuota | losesQuota | locksQuota | readsTotal
      | increments | finds => contradiction
  | @upsertQuota payload phase after db moves =>
    cases moves with
    | opens | inserts | replaces => contradiction
    | @commits record row =>
      have own : payload.quotaKey txn.apiKeyId = key := (Option.ite_none_right_eq_some.mp answers).1
      exact ⟨.write row, by rw [held, ← own]; rfl⟩
  | deleteQuota | listQuotas | getUsage | getDailyUsage | exportUsage => contradiction

/-- What the order of the lock needs to know of a step of a call. -/
structure LockStep (key : QuotaKey) (s : State) (txn : CallId) (call : Call) (db : Database) : Prop where
  unanswered : ¬ (s.calls txn).isAnswered
  kept : ∀ effect, (s.held txn).quota = some (key, effect) →
    (∃ effect, (call.held txn).quota = some (key, effect)) ∨ call.isAnswered
  locked : ∀ answer, cappedAnswer key (txn, call) = some answer → ∃ effect, (s.held txn).quota = some (key, effect)
  fits : ∀ counter, s.db.counter key = some counter →
    Machine.run CappedCounter.apply counter (cappedAnswer key (txn, call)).toList = db.counter key

/-- Every action but the clock's is such a step. -/
theorem Stepped.lockStep (consistent : Consistent s) (upserts : UpsertsFaithful s) (rows : RowsFaithful s)
    (under : UnderQuota key version s) (steps : Stepped s a next) (present : (next.db.quotas.find key).isSome) :
    (∃ elapsed : ℕ, next = { s with db := { s.db with now := s.db.now + elapsed } }) ∨
      ∃ txn call db, LockStep key s txn call db ∧ next = s.record txn call db := by
  cases steps with
  | @start txn request idle =>
    have silent : cappedAnswer key (txn, request.call) = none := by
      cases request <;> rfl
    refine .inr ⟨txn, request.call, s.db, ⟨by rw [idle]; exact Bool.false_ne_true, ?_, ?_, ?_⟩, rfl⟩
    · intro effect holds
      rw [State.held, idle] at holds
      contradiction
    · intro answer answers
      rw [silent] at answers
      contradiction
    · intro counter found
      rw [silent, found]
      rfl
  | @advance txn call db moves =>
    refine .inr ⟨txn, call, db, ⟨moves.not_answered, ?_, ?_, ?_⟩, rfl⟩
    · intro effect holds
      exact (moves.quota_kept holds).imp_left fun kept => ⟨effect, kept⟩
    · intro answer answers
      exact moves.capped_holds rows under answers
    · intro counter found
      exact moves.capped_fits consistent upserts rows under present found
  | @interrupt txn running =>
    have silent : cappedAnswer key (txn, (s.calls txn).interrupt) = none := by
      cases s.calls txn <;> rfl
    refine .inr ⟨txn, _, _, ⟨fun answered => Call.not_running_of_answered answered running, ?_, ?_, ?_⟩, rfl⟩
    · intro effect holds
      right
      cases current : s.calls txn with
      | idle => rw [current] at running; contradiction
      | createEvent | upsertQuota | deleteQuota | listQuotas | getUsage | getDailyUsage | exportUsage => rfl
    · intro answer answers
      rw [silent] at answers
      contradiction
    · intro counter found
      rw [silent, Option.toList_none, Machine.run_nil, ← found]
      rfl
  | tick => exact .inl ⟨_, rfl⟩

/-- The calls listed have taken the lock one after another, and their answers so far are a serial
execution that ends in the published counter. -/
structure Served (key : QuotaKey) (start : CappedCounter) (order : List CallId) (s : State) : Prop where
  distinct : order.Nodup
  ended : ∀ txn ∈ order, (s.calls txn).isAnswered ∨ s.holder key = some txn
  last : ∀ txn, s.holder key = some txn → order.getLast? = some txn
  listed : ∀ txn answer, cappedAnswer key (txn, s.calls txn) = some answer → txn ∈ order
  serial : Machine.run CappedCounter.apply start (order.filterMap fun txn => cappedAnswer key (txn, s.calls txn)) =
    s.db.counter key

namespace LockStep

/-- The other calls keep what they hold. -/
theorem holder_other (consistent : Consistent s) (after : Consistent (s.record txn call db)) {other : CallId}
    (differs : other ≠ txn) : (s.record txn call db).holder key = some other ↔ s.holder key = some other := by
  rw [after.holder_eq_some, consistent.holder_eq_some, Consistent.held_record_of_ne differs]

theorem holder_self (after : Consistent (s.record txn call db)) :
    (s.record txn call db).holder key = some txn ↔ ∃ effect, (call.held txn).quota = some (key, effect) := by
  rw [after.holder_eq_some, Consistent.held_record_self]

end LockStep

namespace Served

variable {start : CappedCounter} {order : List CallId}

/-- An answer is given by the last call of the order, and extends the execution by one step. -/
theorem answer (served : Served key start order s) (consistent : Consistent s)
    (after : Consistent (s.record txn call db)) (moves : LockStep key s txn call db) {answer : CappedAnswer}
    (answers : cappedAnswer key (txn, call) = some answer) (found : ∃ counter, s.db.counter key = some counter) :
    Served key start (order ++ lockTaken key s a (s.record txn call db)) (s.record txn call db) := by
  have holds : s.holder key = some txn := consistent.holder_eq_some.mpr (moves.locked answer answers)
  have taken : lockTaken key s a (s.record txn call db) = [] := by rw [lockTaken, holds]
  have answered : call.isAnswered := by
    by_contra unanswered
    rw [cappedAnswer_of_not_answered unanswered] at answers
    contradiction
  have released : (s.record txn call db).holder key = none := by
    cases holder : (s.record txn call db).holder key with
    | none => rfl
    | some other =>
      by_cases same : other = txn
      · subst other
        obtain ⟨effect, keeps⟩ := (LockStep.holder_self after).mp holder
        rw [Call.held_of_answered answered] at keeps
        contradiction
      · rw [LockStep.holder_other consistent after same, holds] at holder
        exact absurd (Option.some.inj holder).symm same
  obtain ⟨earlier, rfl⟩ := List.getLast?_eq_some_iff.mp (served.last txn holds)
  have distinct := List.nodup_append.mp served.distinct
  have absent : ∀ other ∈ earlier, other ≠ txn := fun other member => distinct.2.2 other member txn List.mem_cons_self
  rw [taken, List.append_nil]
  refine ⟨served.distinct, ?_, ?_, ?_, ?_⟩
  · intro other member
    by_cases same : other = txn
    · subst other
      exact .inl (by rwa [State.calls_record_self])
    · rw [State.calls_record_of_ne same]
      rcases served.ended other member with ended | holder
      · exact .inl ended
      · exact absurd (Option.some.inj (holds.symm.trans holder)).symm same
  · intro other holder
    rw [released] at holder
    contradiction
  · intro other given gives
    by_cases same : other = txn
    · subst other
      exact List.mem_append_right _ List.mem_cons_self
    · rw [State.calls_record_of_ne same] at gives
      exact served.listed other given gives
  · have before : Machine.run CappedCounter.apply start
        (earlier.filterMap fun txn => cappedAnswer key (txn, s.calls txn)) = s.db.counter key := by
      have serial := served.serial
      simp only [List.filterMap_append, List.filterMap_cons, List.filterMap_nil,
        cappedAnswer_of_not_answered moves.unanswered, List.append_nil] at serial
      exact serial
    have same : (earlier.filterMap fun other => cappedAnswer key (other, (s.record txn call db).calls other)) =
        earlier.filterMap fun txn => cappedAnswer key (txn, s.calls txn) :=
      List.filterMap_congr fun other member => by rw [State.calls_record_of_ne (absent other member)]
    obtain ⟨counter, found⟩ := found
    have fits := moves.fits counter found
    rw [answers, Option.toList_some] at fits
    simp only [List.filterMap_append, same, List.filterMap_cons, List.filterMap_nil, State.calls_record_self, answers]
    rw [Machine.run_append, before, found, Option.bind_some]
    exact fits

/-- A step that answers nothing under the quota may take its lock, and leaves the execution. -/
theorem silent (served : Served key start order s) (consistent : Consistent s)
    (after : Consistent (s.record txn call db)) (moves : LockStep key s txn call db)
    (silence : cappedAnswer key (txn, call) = none) (found : ∃ counter, s.db.counter key = some counter) :
    Served key start (order ++ lockTaken key s a (s.record txn call db)) (s.record txn call db) := by
  have same : ∀ other, cappedAnswer key (other, (s.record txn call db).calls other) =
      cappedAnswer key (other, s.calls other) := by
    intro other
    by_cases own : other = txn
    · subst other
      rw [State.calls_record_self, silence, cappedAnswer_of_not_answered moves.unanswered]
    · rw [State.calls_record_of_ne own]
  have counter : db.counter key = s.db.counter key := by
    obtain ⟨counter, found⟩ := found
    have fits := moves.fits counter found
    rw [silence] at fits
    rw [found]
    exact fits.symm
  have listed : ∀ other answer, cappedAnswer key (other, (s.record txn call db).calls other) = some answer →
      other ∈ order := by
    intro other answer gives
    rw [same] at gives
    exact served.listed other answer gives
  have serial : Machine.run CappedCounter.apply start
      (order.filterMap fun other => cappedAnswer key (other, (s.record txn call db).calls other)) =
        db.counter key := by
    simp only [same, served.serial, counter]
  -- A call that was listed has ended, or keeps the lock, or gives it up and ends.
  have ended : ∀ other ∈ order, ((s.record txn call db).calls other).isAnswered ∨
      (s.record txn call db).holder key = some other := by
    intro other member
    by_cases own : other = txn
    · subst other
      rw [State.calls_record_self]
      rcases served.ended txn member with ended | holds
      · exact absurd ended moves.unanswered
      · obtain ⟨effect, holds⟩ := consistent.holder_eq_some.mp holds
        exact (moves.kept effect holds).symm.imp_right (LockStep.holder_self after).mpr
    · rw [State.calls_record_of_ne own, LockStep.holder_other consistent after own]
      exact served.ended other member
  cases holder : s.holder key with
  | some owner =>
    have taken : lockTaken key s a (s.record txn call db) = [] := by rw [lockTaken, holder]
    rw [taken, List.append_nil]
    refine ⟨served.distinct, ended, ?_, listed, serial⟩
    intro other holds
    by_cases own : other = txn
    · subst other
      obtain rfl : txn = owner := by
        by_contra differs
        have kept := (LockStep.holder_other consistent after (Ne.symm differs)).mpr holder
        exact differs (Option.some.inj (holds.symm.trans kept))
      exact served.last txn holder
    · rw [LockStep.holder_other consistent after own] at holds
      exact served.last other holds
  | none =>
    cases holds : (s.record txn call db).holder key with
    | none =>
      have taken : lockTaken key s a (s.record txn call db) = [] := by rw [lockTaken, holder, holds]
      rw [taken, List.append_nil]
      refine ⟨served.distinct, ended, ?_, listed, serial⟩
      intro other also
      rw [holds] at also
      contradiction
    | some owner =>
      obtain rfl : owner = txn := by
        by_contra differs
        rw [LockStep.holder_other consistent after differs, holder] at holds
        contradiction
      have taken : lockTaken key s a (s.record owner call db) = [owner] := by rw [lockTaken, holder, holds]
      have fresh : owner ∉ order := by
        intro member
        rcases served.ended owner member with ended | also
        · exact moves.unanswered ended
        · rw [holder] at also
          contradiction
      rw [taken]
      refine ⟨?_, ?_, ?_, ?_, ?_⟩
      · refine List.nodup_append.mpr ⟨served.distinct, List.nodup_singleton _, ?_⟩
        intro other member last isLast
        obtain rfl := List.mem_singleton.mp isLast
        rintro rfl
        exact fresh member
      · intro other member
        rcases List.mem_append.mp member with member | isLast
        · exact ended other member
        · obtain rfl := List.mem_singleton.mp isLast
          exact .inr holds
      · intro other also
        obtain rfl := Option.some.inj (holds.symm.trans also)
        exact List.getLast?_append_cons ..
      · intro other answer gives
        exact List.mem_append_left _ (listed other answer gives)
      · simp only [List.filterMap_append, List.filterMap_cons, List.filterMap_nil, State.calls_record_self, silence,
          List.append_nil]
        exact serial

theorem stepped (served : Served key start order s) (consistent : Consistent s) (upserts : UpsertsFaithful s)
    (rows : RowsFaithful s) (under : UnderQuota key version s) (steps : Stepped s a next)
    (present : (next.db.quotas.find key).isSome) : Served key start (order ++ lockTaken key s a next) next := by
  obtain ⟨quota, stored, -⟩ := under.present
  have found : ∃ counter, s.db.counter key = some counter :=
    ⟨_, by rw [Database.counter, Database.limit, stored]; rfl⟩
  have after := consistent.stepped steps
  rcases steps.lockStep consistent upserts rows under present with ⟨elapsed, rfl⟩ | ⟨txn, call, db, moves, rfl⟩
  · have taken : lockTaken key s a { s with db := { s.db with now := s.db.now + elapsed } } = [] := by
      change (match s.holder key, s.holder key with | none, some txn => [txn] | _, _ => []) = []
      cases s.holder key <;> rfl
    rw [taken, List.append_nil]
    exact ⟨served.distinct, served.ended, served.last, served.listed, served.serial⟩
  · cases answers : cappedAnswer key (txn, call) with
    | none => exact served.silent consistent after moves answers found
    | some answer => exact served.answer consistent after moves answers found

end Served

/-! ## Whole runs -/

/-- The quota row is there in every state along the schedule. -/
def QuotaStays (key : QuotaKey) (source : State) (schedule : List Action) : Prop :=
  ∀ earlier later middle, schedule = earlier ++ later → Machine.run step source earlier = some middle →
    (middle.db.quotas.find key).isSome

theorem QuotaStays.of_inits (present : schedule.inits.all fun earlier =>
    (Machine.run step source earlier).all fun s => (s.db.quotas.find key).isSome) : QuotaStays key source schedule := by
  rintro earlier later middle split reached
  have checked := List.all_eq_true.mp present earlier ((List.mem_inits ..).mpr ⟨later, split.symm⟩)
  rwa [reached, Option.all_some] at checked

/-- The invariant of a run during which the quota row stays. -/
structure Capped (key : QuotaKey) (version : Option CallId) (start : CappedCounter) (order : List CallId)
    (s : State) : Prop where
  consistent : Consistent s
  upserts : UpsertsFaithful s
  rows : RowsFaithful s
  under : UnderQuota key version s
  served : Served key start order s

namespace Capped

variable {start : CappedCounter} {order : List CallId}

theorem stepped (capped : Capped key version start order s) (steps : Stepped s a next)
    (present : (next.db.quotas.find key).isSome) :
    Capped key version start (order ++ lockTaken key s a next) next where
  consistent := capped.consistent.stepped steps
  upserts := capped.upserts.stepped capped.consistent steps
  rows := capped.rows.stepped steps
  under := capped.under.stepped capped.consistent steps present
  served := capped.served.stepped capped.consistent capped.upserts capped.rows capped.under steps present

theorem init {collation : Collation} {now : Instant} {nextEventId : ℕ} {tables : Tables} {quota : QuotaRow}
    (found : tables.quotas.lookup key = some quota) :
    Capped key quota.insertedBy ⟨quota.limitPerWindow,
      (Database.atRest collation now nextEventId tables).windowTotal key⟩ []
      (.init (.atRest collation now nextEventId tables)) where
  consistent := .init ..
  upserts := fun _ _ _ _ place => by contradiction
  rows := fun _ _ _ _ _ place => by contradiction
  under := ⟨⟨quota, found, rfl⟩, fun _ _ _ _ place => by contradiction⟩
  served := {
    distinct := List.nodup_nil
    ended := fun _ member => absurd member List.not_mem_nil
    last := fun _ holds => by contradiction
    listed := fun _ _ answers => by contradiction
    serial := by
      have stored : (State.init (.atRest collation now nextEventId tables)).db.quotas.find key = some quota := found
      rw [List.filterMap_nil, Machine.run_nil, Database.counter, Database.limit, stored]
      rfl }

theorem of_run (capped : Capped key version start [] source) (stays : QuotaStays key source schedule)
    (reached : Machine.run step source schedule = some final) :
    Capped key version start (lockOrder key source schedule) final := by
  refine Machine.run_induction (motive := fun schedule s => QuotaStays key source schedule →
    Capped key version start (lockOrder key source schedule) s) source (fun _ => capped) ?_ reached stays
  intro schedule s a next before ih steps stays
  have capped := ih fun earlier later middle split => stays earlier (later ++ [a]) middle
    (by rw [split, List.append_assoc])
  rw [lockOrder, Machine.observed_snoc before steps]
  exact capped.stepped (stepped_of_step steps)
    (stays _ [] next (List.append_nil _).symm (Machine.run_snoc before steps))

end Capped

/-- What the holders of a quota row were answered, in the order in which they took it. -/
def cappedHistory (key : QuotaKey) (source : State) (schedule : List Action) (final : State) : List CappedAnswer :=
  (lockOrder key source schedule).filterMap fun txn => cappedAnswer key (txn, final.calls txn)

/-- An answer under the quota is given by the holder of its lock, and is one step of the counter. -/
theorem Capped.answer_step {start : CappedCounter} {order : List CallId}
    (capped : Capped key version start order s) (steps : Stepped s a next)
    (present : (next.db.quotas.find key).isSome) {answer : CappedAnswer}
    (before : cappedAnswer key (txn, s.calls txn) ≠ some answer)
    (after : cappedAnswer key (txn, next.calls txn) = some answer) :
    a = .advance txn ∧ s.holder key = some txn ∧ ∃ counter reached, s.db.counter key = some counter ∧
      next.db.counter key = some reached ∧ counter.apply answer = some reached := by
  rcases steps.call_cases txn with ⟨-, same⟩ | ⟨request, -, same, -⟩ | ⟨call, db, rfl, moves, rfl, rfl⟩ | ⟨-, same, -⟩
  · rw [same] at after
    exact absurd after before
  · rw [same] at after
    cases request <;> contradiction
  · obtain ⟨quota, stored, -⟩ := capped.under.present
    obtain ⟨later, published⟩ := Option.isSome_iff_exists.mp present
    have found : s.db.counter key = some ⟨quota.limitPerWindow, s.db.windowTotal key⟩ := by
      rw [Database.counter, Database.limit, stored]
      rfl
    have reached : next.db.counter key = some ⟨later.limitPerWindow, next.db.windowTotal key⟩ := by
      rw [Database.counter, Database.limit, published]
      rfl
    have holds := moves.capped_holds capped.rows capped.under after
    have fits := moves.capped_fits capped.consistent capped.upserts capped.rows capped.under present found
    rw [after, Option.toList_some, Machine.run_singleton, reached] at fits
    exact ⟨rfl, capped.consistent.holder_eq_some.mpr holds, _, _, found, reached, fits⟩
  · rw [same] at after
    cases current : s.calls txn <;> rw [current] at after <;> contradiction

/-- A call of `create_event` under the quota that ends is judged, repeats an event, or is broken off. -/
theorem Stepped.createEvent_answer (faithful : EventsFaithful s) (consistent : Consistent s) (steps : Stepped s a next)
    {payload : EventCreateRequest} {receivedAt : Instant} {result : Except ServiceError EventCreationOutcome}
    (own : payload.quotaKey txn.apiKeyId = key)
    (before : s.calls txn ≠ .createEvent payload receivedAt (.answered result))
    (after : next.calls txn = .createEvent payload receivedAt (.answered result)) :
    (cappedAnswer key (txn, next.calls txn)).isSome ∨ (∃ record, result = .ok ⟨record, 200, true⟩) ∨
      result = .error .interrupted := by
  have remembers := faithful.stepped consistent steps txn payload receivedAt _ after
  rw [after]
  rcases steps.createEvent_cases after with ⟨-, same⟩ | ⟨opened, -⟩ | ⟨phase, db, -, -, moves, -⟩ | ⟨ended, -⟩
  · exact absurd same before
  · contradiction
  · cases moves with
    | rejects =>
      exact .inl (Option.isSome_of_eq_some (show _ = some (.rejected _ payload.quantity) from if_pos ⟨own, rfl⟩))
    | commits =>
      exact .inl (Option.isSome_of_eq_some (show _ = some (.accepted _ payload.quantity) from if_pos ⟨own, rfl⟩))
    | findsNothing => exact absurd rfl (remembers _)
    | replays => exact .inr (.inl ⟨_, rfl⟩)
  · exact .inr (.inr (CreateEvent.Phase.answered.inj ended))

/-- Capped ingest is serial and exact. While a quota row stays, the calls that took its lock each took
it once, and their answers in that order are a run of the counter from the first limit and totals
to the last. Each was given by the holder, on the counter published at that moment. So a window's
total is its first total plus what was accepted in it, whatever was asked in other windows. -/
theorem capped_ingest_serial {collation : Collation} {now : Instant} {nextEventId : ℕ} {tables : Tables}
    (stays : QuotaStays key (.init (.atRest collation now nextEventId tables)) schedule)
    (reached : Machine.run step (.init (.atRest collation now nextEventId tables)) schedule = some final) :
    (lockOrder key (.init (.atRest collation now nextEventId tables)) schedule).Nodup ∧
    (∀ txn answer, cappedAnswer key (txn, final.calls txn) = some answer →
      txn ∈ lockOrder key (.init (.atRest collation now nextEventId tables)) schedule) ∧
    (∀ txn payload receivedAt result, final.calls txn = .createEvent payload receivedAt (.answered result) →
      payload.quotaKey txn.apiKeyId = key →
        (cappedAnswer key (txn, final.calls txn)).isSome ∨ (∃ record, result = .ok ⟨record, 200, true⟩) ∨
          result = .error .interrupted) ∧
    (∃ first last, (Database.atRest collation now nextEventId tables).counter key = some first ∧
      final.db.counter key = some last ∧
      Machine.run CappedCounter.apply first
        (cappedHistory key (.init (.atRest collation now nextEventId tables)) schedule final) = some last ∧
      ∀ window, last.totals window = first.totals window +
          ((cappedHistory key (.init (.atRest collation now nextEventId tables)) schedule final).map
            (CappedAnswer.added window)).sum ∧
        ∃ alone, Machine.run CappedCounter.apply first
            ((cappedHistory key (.init (.atRest collation now nextEventId tables)) schedule final).filter
              (CappedAnswer.concerns window)) = some alone ∧ CappedCounter.AgreeOn window last alone) ∧
    ∀ txn answer, cappedAnswer key (txn, final.calls txn) = some answer → ∃ earlier later middle next counter after,
      schedule = earlier ++ .advance txn :: later ∧
      Machine.run step (.init (.atRest collation now nextEventId tables)) earlier = some middle ∧
      step middle (.advance txn) = some next ∧ middle.holder key = some txn ∧
      middle.db.counter key = some counter ∧ next.db.counter key = some after ∧ counter.apply answer = some after := by
  obtain ⟨quota, found⟩ := Option.isSome_iff_exists.mp (stays [] schedule _ rfl rfl)
  have start : Capped key quota.insertedBy _ [] (.init (.atRest collation now nextEventId tables)) := .init found
  have capped := start.of_run stays reached
  have split : ∀ {earlier a later middle next}, schedule = earlier ++ a :: later →
      Machine.run step (.init (.atRest collation now nextEventId tables)) earlier = some middle →
      step middle a = some next → (∃ first order, Capped key quota.insertedBy first order middle) ∧
        (next.db.quotas.find key).isSome := by
    rintro earlier a later middle next rfl before last
    refine ⟨⟨_, _, start.of_run ?_ before⟩, ?_⟩
    · intro first second between same
      exact stays first (second ++ a :: later) between (by rw [same, List.append_assoc])
    · exact stays (earlier ++ [a]) later next (by rw [List.append_assoc]; rfl) (Machine.run_snoc before last)
  refine ⟨capped.served.distinct, capped.served.listed, ?_, ?_, ?_⟩
  · intro txn payload receivedAt result place own
    obtain ⟨earlier, a, later, middle, next, cut, before, last, rest, unanswered, answered⟩ :=
      Machine.exists_step_of_run (P := fun s => s.calls txn = .createEvent payload receivedAt (.answered result))
        (by simp [State.init]) reached place
    obtain ⟨⟨first, order, valid⟩, -⟩ := split cut before last
    have faithful : EventsFaithful middle :=
      EventsFaithful.of_run (fun _ _ _ _ place => by contradiction) (.init ..) before
    have ends := (stepped_of_step last).createEvent_answer faithful valid.consistent own unanswered answered
    rwa [answered, ← place] at ends
  · obtain ⟨last, stored⟩ := Option.isSome_iff_exists.mp (stays schedule [] final (List.append_nil _).symm reached)
    have ends : final.db.counter key = some ⟨last.limitPerWindow, final.db.windowTotal key⟩ := by
      rw [Database.counter, Database.limit, stored]
      rfl
    have ran := capped.served.serial.trans ends
    refine ⟨_, _, start.served.serial.symm, ends, ran, fun window => ⟨?_, ?_⟩⟩
    · exact CappedCounter.totals_run ran window
    · exact CappedCounter.run_filter_concerns ran window
  · intro txn answer answers
    obtain ⟨earlier, a, later, middle, next, cut, before, last, -, unanswered, answered⟩ :=
      Machine.exists_step_of_run (P := fun s => cappedAnswer key (txn, s.calls txn) = some answer)
        (by simp [State.init, cappedAnswer]) reached answers
    obtain ⟨⟨first, order, valid⟩, present⟩ := split cut before last
    obtain ⟨rfl, holds, counter, after, found, published, applied⟩ :=
      valid.answer_step (stepped_of_step last) present unanswered answered
    exact ⟨earlier, later, middle, next, counter, after, cut, before, last, holds, found, published, applied⟩

/-- Two events of three units under a limit of five: the second waits for the lock of the first and is
rejected. After the limit is replaced by six, a third event fills the window. -/
theorem capped_ingest_serial_full :
    let event (name : String) : Request := .createEvent ⟨"c", "m", ⟨3000000, by decide, by decide⟩, name⟩ 0
    let put : Request := .upsertQuota ⟨"c", "m", ⟨6, by decide, by decide⟩⟩
    let schedule := (event "a").steps ⟨1, 0⟩ 6 ++ (event "b").steps ⟨1, 1⟩ 4 ++ List.replicate 2 (.advance ⟨1, 0⟩) ++
      List.replicate 3 (.advance ⟨1, 1⟩) ++ put.steps ⟨1, 2⟩ 3 ++ (event "d").steps ⟨1, 3⟩ 8
    let key : QuotaKey := ⟨1, "c", "m"⟩
    let start : State := .init (.atRest .codePoint 0 1
      (.afterMigration ∅ (AList.singleton key ⟨⟨5, by decide, by decide⟩, none⟩)))
    ∃ final, Machine.run step start schedule = some final ∧
      cappedHistory key start schedule final =
        [.accepted 0 ⟨3000000, by decide, by decide⟩, .rejected 0 ⟨3000000, by decide, by decide⟩,
          .replaced ⟨6, by decide, by decide⟩, .accepted 0 ⟨3000000, by decide, by decide⟩] ∧
      (lockOrder key start schedule).Nodup ∧ final.db.windowTotal key 0 = 6000000 := by
  intro event put schedule key start
  have stays : QuotaStays key start schedule := .of_inits (by decide +kernel)
  obtain ⟨final, reached, observed⟩ := Option.map_eq_some_iff.mp (show (Machine.run step start schedule).map
      (fun final => (cappedHistory key start schedule final, final.db.windowTotal key 0)) =
    some ([.accepted 0 ⟨3000000, by decide, by decide⟩, .rejected 0 ⟨3000000, by decide, by decide⟩,
      .replaced ⟨6, by decide, by decide⟩, .accepted 0 ⟨3000000, by decide, by decide⟩], 6000000) by decide +kernel)
  obtain ⟨history, total⟩ := Prod.mk.inj observed
  exact ⟨final, reached, history, (capped_ingest_serial stays reached).1, total⟩

end Meterly
