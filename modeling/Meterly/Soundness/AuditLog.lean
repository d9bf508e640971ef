import Meterly.Model.LogCalls
import Meterly.Soundness.QuotaMap

/-! # Log lines and committed changes

Beside the calls and the database this machine keeps the lines that the writing services have logged and
the changes that their commits have published. A quota is told of behind its commit, where nothing can
fail any more; an event is told of before it. So a create that is broken off between its line and its
commit leaves a line behind for an event that is not there; and a commit that takes effect unseen leaves a
quota without its line. Where neither happens, the lines of a call are those of its changes.
-/

namespace Meterly

/-! ## What a commit publishes -/

/-- A published change: a new event, a quota that was created or replaced, or a quota that was removed. -/
inductive Change where
  | createdEvent (key : EventKey) (row : EventRow)
  | wroteQuota (key : QuotaKey) (created : Bool) (row : QuotaRow)
  | removedQuota (key : QuotaKey)
deriving DecidableEq, Repr

/-- The changes that the commit of what is held publishes in `events` and `quotas`. -/
def Held.changes (held : Held) (db : Database) : List Change :=
  (match held.event with
    | some (key, .write row) => [.createdEvent key row]
    | _ => []) ++
  match held.quota with
    | some (key, .write row) => [.wroteQuota key (db.quotas.find key).isNone row]
    | some (key, .erase) => [.removedQuota key]
    | _ => []

/-- The next step of a writing service is its `COMMIT`. -/
def Call.commits : Call → Bool
  | createEvent _ _ (.incremented ..) | createEvent _ _ (.replayed _) | upsertQuota _ (.written ..)
  | deleteQuota _ (.removed _) => true
  | _ => false

/-! ## The machine -/

structure AuditState where
  system : State
  lines : List (CallId × LogCall)
  published : List (CallId × Change)

/-- An action of the system, or a `COMMIT` that is carried out while its caller sees it fail or is cancelled. -/
inductive AuditAction where
  | act (a : Action)
  | lostCommit (txn : CallId)

namespace AuditState

/-- No line has been logged and nothing has been published. -/
def init (db : Database) : AuditState := ⟨.init db, [], []⟩

/-- The changes that the commit of a call publishes. -/
def changes (s : AuditState) (txn : CallId) : List Change :=
  if (s.system.calls txn).commits then ((s.system.calls txn).held txn).changes s.system.db else []

/-- The lines and changes of a step of the system. -/
def record (s : AuditState) (next : State) : Action → AuditState
  | .advance txn => ⟨next,
      s.lines ++ ((s.system.calls txn).logged txn (next.calls txn)).map (Prod.mk txn),
      s.published ++ (s.changes txn).map (Prod.mk txn)⟩
  | _ => { s with system := next }

/-- Execute one action, if it is enabled. -/
def step (s : AuditState) : AuditAction → Option AuditState
  | .act a => (Meterly.step s.system a).map fun next => s.record next a
  | .lostCommit txn =>
    if (s.system.calls txn).commits then
      some ⟨s.system.record txn (s.system.calls txn).interrupt (s.system.db.commit txn), s.lines,
        s.published ++ (s.changes txn).map (Prod.mk txn)⟩
    else none

end AuditState

/-! ## The lines of a call and its changes -/

/-- The line that tells of a change. -/
def Change.line (txn : CallId) : Change → LogCall
  | createdEvent _ row => .eventCreate txn.apiKeyId "create" row.id false
  | wroteQuota key created row => .quotaUpsert txn.apiKeyId created key.customerId key.metric row.limitPerWindow
  | removedQuota key => .quotaDelete txn.apiKeyId key.customerId key.metric

/-- A line that tells of a change: `event.create` with `action=create`, `quota.upsert` or `quota.delete`. -/
def LogCall.tellsChange (line : LogCall) : Bool :=
  line.event = "quota.upsert" ∨ line.event = "quota.delete" ∨
    line.event = "event.create" ∧ ("action", .text "create") ∈ line.fields

/-- What entries belong to a call. -/
def ofCall {α : Type} (txn : CallId) (entries : List (CallId × α)) : List α :=
  entries.filterMap fun entry => if entry.1 = txn then some entry.2 else none

namespace AuditState

/-- The lines of a call that tell of a change. -/
def changeLines (s : AuditState) (txn : CallId) : List LogCall := (ofCall txn s.lines).filter LogCall.tellsChange

/-- The published changes of a call. -/
def changesOf (s : AuditState) (txn : CallId) : List Change := ofCall txn s.published

end AuditState

/-- The call has ended, and neither by an error nor by a replay. -/
def Call.succeeded : Call → Bool
  | createEvent _ _ (.answered (.ok outcome)) => !outcome.idempotentReplay
  | upsertQuota _ (.answered (.ok _)) | deleteQuota _ (.answered (.ok _)) => true
  | _ => false

/-- The call has logged its line and not yet committed. -/
def Call.toldAhead : Call → Bool
  | createEvent _ _ (.incremented ..) => true
  | _ => false

/-- Each call that has ended has exactly the lines of its changes, each change is of a call that has ended with
success, and a call that was rejected, failed or replayed has neither. -/
structure AuditState.Matches (s : AuditState) : Prop where
  told : ∀ txn, (s.system.calls txn).isAnswered → s.changeLines txn = (s.changesOf txn).map (Change.line txn)
  ended : ∀ txn, s.changesOf txn ≠ [] → (s.system.calls txn).succeeded
  silent : ∀ txn, (s.system.calls txn).isAnswered → ¬ (s.system.calls txn).succeeded → s.changeLines txn = []

/-- No create is broken off between its line and its commit, and no commit of a change is lost to its caller. -/
def AuditState.Witnessed (s : AuditState) : AuditAction → Prop
  | .act (.interrupt txn) => ¬ (s.system.calls txn).toldAhead
  | .lostCommit txn => s.changes txn = []
  | _ => True

instance (s : AuditState) (a : AuditAction) : Decidable (s.Witnessed a) := by
  unfold AuditState.Witnessed
  split <;> infer_instance

variable {s next : State} {a : Action} {txn other : CallId} {call after : Call} {db : Database}

section OfCall

variable {α : Type} {entries : List (CallId × α)} {added : List α}

theorem ofCall_append_self : ofCall txn (entries ++ added.map (Prod.mk txn)) = ofCall txn entries ++ added := by
  simp [ofCall, List.filterMap_append, List.filterMap_map]

theorem ofCall_append_of_ne (differs : other ≠ txn) :
    ofCall other (entries ++ added.map (Prod.mk txn)) = ofCall other entries := by
  simp [ofCall, List.filterMap_append, List.filterMap_map, Ne.symm differs]

end OfCall

/-- What the lines and changes of a call are while it runs and when it has ended. -/
def Call.Told (txn : CallId) (lines : List LogCall) (changes : List Change) : Call → Prop
  | createEvent _ _ (.incremented row _ _) =>
    lines = [.eventCreate txn.apiKeyId "create" row.id false] ∧ changes = []
  | call => lines = changes.map (Change.line txn) ∧ (¬ call.succeeded → changes = [])

/-- What a pending upsert will log agrees with what its commit will publish. -/
def Call.UpsertFaithful (txn : CallId) (db : Database) : Call → Prop
  | upsertQuota payload (.written record row) =>
    record = ⟨payload.customerId, payload.metric, payload.limitPerWindow,
      (db.quotas.find (payload.quotaKey txn.apiKeyId)).isNone⟩ ∧ row.limitPerWindow = payload.limitPerWindow
  | _ => True

namespace LogCall

@[simp] theorem tellsChange_create (userId resourceId : ℕ) :
    (eventCreate userId "create" resourceId false).tellsChange = true := by
  simp [tellsChange, eventCreate]

@[simp] theorem tellsChange_replay (userId resourceId : ℕ) :
    (eventCreate userId "read" resourceId true).tellsChange = false := by
  simp [tellsChange, eventCreate]

@[simp] theorem tellsChange_quotaRejected (userId : ℕ) (customerId metric : String) :
    (quotaRejected userId customerId metric).tellsChange = false := by
  simp [tellsChange, quotaRejected]

@[simp] theorem tellsChange_quotaUpsert (userId : ℕ) (inserted : Bool) (customerId metric : String)
    (limitPerWindow : LimitPerWindow) : (quotaUpsert userId inserted customerId metric limitPerWindow).tellsChange := by
  simp [tellsChange, quotaUpsert]

@[simp] theorem tellsChange_quotaDelete (userId : ℕ) (customerId metric : String) :
    (quotaDelete userId customerId metric).tellsChange := by
  simp [tellsChange, quotaDelete]

end LogCall

theorem Call.Told.of_behind {lines : List LogCall} {changes : List Change} (told : call.Told txn lines changes)
    (behind : ¬ call.toldAhead) : lines = changes.map (Change.line txn) ∧ (¬ call.succeeded → changes = []) := by
  unfold Told at told
  split at told
  · exact absurd rfl behind
  · exact told

/-- Only a call that has ended with success has changed something. -/
theorem Call.Told.succeeded {lines : List LogCall} {changes : List Change} (told : call.Told txn lines changes)
    (changed : changes ≠ []) : call.succeeded := by
  unfold Told at told
  split at told
  · exact absurd told.2 changed
  · exact not_not.mp fun failed => changed (told.2 failed)

/-- A call that has told nothing ahead and has not succeeded has told and changed nothing. -/
theorem Call.Told.empty {lines : List LogCall} {changes : List Change} (told : call.Told txn lines changes)
    (behind : ¬ call.toldAhead) (unsuccessful : ¬ call.succeeded) : lines = [] ∧ changes = [] := by
  obtain ⟨same, none⟩ := told.of_behind behind
  obtain rfl := none unsuccessful
  exact ⟨same, rfl⟩

theorem Call.Told.of_empty (behind : ¬ call.toldAhead) : call.Told txn [] [] := by
  unfold Told
  split
  · exact absurd rfl behind
  · exact ⟨rfl, fun _ => rfl⟩

/-- One step of a call keeps its lines and its changes together. -/
theorem Call.Told.advanced {lines : List LogCall} {changes : List Change} (told : call.Told txn lines changes)
    (faithful : call.UpsertFaithful txn db) {target : Database}
    (moves : Call.Advanced txn db call after target) :
    after.Told txn (lines ++ (call.logged txn after).filter LogCall.tellsChange)
      (changes ++ if call.commits then (call.held txn).changes db else []) := by
  cases moves with
  | createEvent moves =>
    cases moves with
    | @commits row quotaState rollup =>
      obtain ⟨rfl, rfl⟩ := told
      refine ⟨?_, fun failed => absurd rfl failed⟩
      cases quotaState <;> rfl
    | rejects | finds =>
      obtain ⟨rfl, rfl⟩ := told.empty Bool.false_ne_true Bool.false_ne_true
      exact ⟨by simp [logged, CreateEvent.logged, commits], fun _ => rfl⟩
    | increments =>
      obtain ⟨rfl, rfl⟩ := told.empty Bool.false_ne_true Bool.false_ne_true
      exact ⟨by simp [logged, CreateEvent.logged], rfl⟩
    | opens | draws | inserts | conflicts | seesNoQuota | seesQuota | losesQuota | locksQuota | readsTotal |
        findsNothing | replays =>
      obtain ⟨rfl, rfl⟩ := told.empty Bool.false_ne_true Bool.false_ne_true
      exact .of_empty Bool.false_ne_true
  | upsertQuota moves =>
    obtain ⟨rfl, rfl⟩ := told.empty Bool.false_ne_true (by cases moves <;> exact Bool.false_ne_true)
    cases moves with
    | commits =>
      obtain ⟨rfl, limit⟩ := faithful
      refine ⟨?_, fun failed => absurd rfl failed⟩
      simp [logged, UpsertQuota.logged, commits, held, UpsertQuota.Phase.held, Held.changes, Change.line,
        QuotaPutRequest.quotaKey, limit]
    | opens | inserts | replaces => exact .of_empty Bool.false_ne_true
  | deleteQuota moves =>
    obtain ⟨rfl, rfl⟩ := told.empty Bool.false_ne_true (by cases moves <;> exact Bool.false_ne_true)
    cases moves with
    | @commits found =>
      cases found with
      | true =>
        refine ⟨?_, fun failed => absurd rfl failed⟩
        simp [logged, DeleteQuota.logged, commits, held, DeleteQuota.Phase.held, Held.changes, Change.line,
          QuotaDeleteParams.quotaKey]
      | false => exact .of_empty Bool.false_ne_true
    | opens | seesNothing | sees | loses | removes => exact .of_empty Bool.false_ne_true
  | listQuotas | getUsage | getDailyUsage | exportUsage =>
    obtain ⟨rfl, rfl⟩ := told.empty Bool.false_ne_true Bool.false_ne_true
    exact .of_empty Bool.false_ne_true

/-! ## The changes are what happens to the tables -/

/-- What a change makes of the published events and quotas. -/
def Change.apply (tables : Rows EventKey EventRow × Rows QuotaKey QuotaRow) :
    Change → Rows EventKey EventRow × Rows QuotaKey QuotaRow
  | createdEvent key row => (tables.1.insert key row, tables.2)
  | wroteQuota key _ row => (tables.1, tables.2.insert key row)
  | removedQuota key => (tables.1, tables.2.erase key)

/-- The published events and quotas. -/
def Database.eventsAndQuotas (db : Database) : Rows EventKey EventRow × Rows QuotaKey QuotaRow :=
  (db.events.committed, db.quotas.committed)

/-- A commit publishes the changes of what is held. -/
theorem Consistent.eventsAndQuotas_commit (consistent : Consistent s) (txn : CallId) :
    (s.db.commit txn).eventsAndQuotas = ((s.held txn).changes s.db).foldl Change.apply s.db.eventsAndQuotas := by
  rw [Held.changes, List.foldl_append]
  have events : ((s.db.events.commit txn).committed, s.db.quotas.committed) =
      (match (s.held txn).event with
        | some (key, .write row) => [Change.createdEvent key row]
        | _ => []).foldl Change.apply s.db.eventsAndQuotas := by
    cases pending : (s.held txn).event with
    | none => rw [consistent.events.committed_of_unclaimed pending]; rfl
    | some hold =>
      obtain ⟨key, effect⟩ := hold
      obtain ⟨row, rfl⟩ := Call.event_held pending
      rw [consistent.events.committed_of_claim pending]
      rfl
  rw [← events]
  cases pending : (s.held txn).quota with
  | none => rw [Database.eventsAndQuotas, Database.commit, consistent.quotas.committed_of_unclaimed pending]; rfl
  | some hold =>
    obtain ⟨key, effect⟩ := hold
    rw [Database.eventsAndQuotas, Database.commit, consistent.quotas.committed_of_claim pending]
    cases effect <;> rfl

/-- A step of a call is a commit, of a writing service or of one that holds nothing, or it leaves the published
events and quotas as they are. -/
theorem Call.Advanced.commit_cases {target : Database} (moves : Call.Advanced txn db call after target) :
    target = db.commit txn ∧ (call.commits ∨ call.held txn = .none) ∨
      ¬ call.commits ∧ target.eventsAndQuotas = db.eventsAndQuotas := by
  cases moves with
  | createEvent moves =>
    cases moves with
    | commits | replays => exact .inl ⟨rfl, .inl rfl⟩
    | opens | draws | inserts | conflicts | seesNoQuota | seesQuota | losesQuota | locksQuota | readsTotal | rejects |
        increments | finds | findsNothing => exact .inr ⟨Bool.false_ne_true, rfl⟩
  | upsertQuota moves =>
    cases moves with
    | commits => exact .inl ⟨rfl, .inl rfl⟩
    | opens | inserts | replaces => exact .inr ⟨Bool.false_ne_true, rfl⟩
  | deleteQuota moves =>
    cases moves with
    | commits => exact .inl ⟨rfl, .inl rfl⟩
    | opens | seesNothing | sees | loses | removes => exact .inr ⟨Bool.false_ne_true, rfl⟩
  | listQuotas moves | getUsage moves | getDailyUsage moves =>
    cases moves with
    | commits => exact .inl ⟨rfl, .inr rfl⟩
    | refuses | opens | reads => exact .inr ⟨Bool.false_ne_true, rfl⟩
  | exportUsage moves =>
    cases moves with
    | refuses | prepares | completes => exact .inl ⟨rfl, .inr rfl⟩
    | opens | counts | sendsHeader | opensStream | streams => exact .inr ⟨Bool.false_ne_true, rfl⟩

@[simp] theorem Held.changes_none (db : Database) : Held.none.changes db = [] := rfl

/-- A commit with nothing to publish is a rollback. -/
theorem Consistent.commit_of_unheld (consistent : Consistent s) (unheld : s.held txn = .none) :
    s.db.commit txn = s.db.rollback txn := by
  rw [Database.commit, consistent.events.commit_of_unclaimed (congrArg Held.event unheld),
    consistent.rollups.commit_of_unclaimed (congrArg Held.rollup unheld),
    consistent.quotas.commit_of_unclaimed (congrArg Held.quota unheld), Database.rollback]

/-- A call that is about to commit and changes nothing holds nothing. -/
theorem Call.held_of_unchanged (committing : call.commits) (unchanged : (call.held txn).changes db = []) :
    call.held txn = .none := by
  cases call with
  | createEvent payload receivedAt phase =>
    cases phase with
    | replayed => rfl
    | incremented => contradiction
    | received | begun | inserting | inserted | lockingQuota | quotaLocked | judging | conflicted | answered =>
      contradiction
  | upsertQuota payload phase => cases phase <;> contradiction
  | deleteQuota params phase =>
    cases phase with
    | removed found =>
      cases found with
      | true => contradiction
      | false => rfl
    | received | begun | deleting | answered => contradiction
  | idle | listQuotas | getUsage | getDailyUsage | exportUsage => contradiction

/-! ## Runs -/

theorem UpsertsFaithful.of_call (faithful : UpsertsFaithful s) (txn : CallId) :
    (s.calls txn).UpsertFaithful txn s.db := by
  unfold Call.UpsertFaithful
  split
  · next payload record row place => exact faithful txn payload record row place
  · trivial

theorem Call.running_of_commits (committing : call.commits) : call.isRunning := by
  cases call with
  | createEvent payload receivedAt phase => cases phase <;> first | rfl | contradiction
  | upsertQuota payload phase => cases phase <;> first | rfl | contradiction
  | deleteQuota params phase => cases phase <;> first | rfl | contradiction
  | idle | listQuotas | getUsage | getDailyUsage | exportUsage => contradiction

theorem Call.event_held_of_toldAhead (txn : CallId) (ahead : call.toldAhead) : (call.held txn).event.isSome := by
  cases call with
  | createEvent payload receivedAt phase => cases phase <;> first | rfl | contradiction
  | idle | upsertQuota | deleteQuota | listQuotas | getUsage | getDailyUsage | exportUsage => contradiction

theorem Call.answered_of_succeeded (success : call.succeeded) : call.isAnswered := by
  unfold succeeded at success
  split at success
  · rfl
  · rfl
  · rfl
  · contradiction

theorem Call.not_succeeded_of_running (running : call.isRunning) : ¬ call.succeeded :=
  fun success => Call.not_running_of_answered (Call.answered_of_succeeded success) running

theorem Call.not_toldAhead_of_answered (answered : call.isAnswered) : ¬ call.toldAhead := by
  intro ahead
  unfold toldAhead at ahead
  split at ahead
  · contradiction
  · contradiction

theorem Call.not_toldAhead_interrupt (call : Call) : ¬ call.interrupt.toldAhead := by
  cases call <;> exact Bool.false_ne_true

namespace AuditState

variable {source current target : AuditState} {action : AuditAction} {schedule : List AuditAction}

/-- What holds along a run: every call has the lines of its changes, and the changes are what has happened to the
published events and quotas since the start. -/
structure Faithful (tables : Rows EventKey EventRow × Rows QuotaKey QuotaRow) (s : AuditState) : Prop where
  consistent : Consistent s.system
  upserts : UpsertsFaithful s.system
  told : ∀ txn, (s.system.calls txn).Told txn (s.changeLines txn) (s.changesOf txn)
  published : s.system.db.eventsAndQuotas = (s.published.map Prod.snd).foldl Change.apply tables

/-- Where nothing is lost, a step is one of the system with its lines and changes. -/
theorem step_cases (consistent : Consistent current.system) (witnessed : current.Witnessed action)
    (steps : current.step action = some target) :
    ∃ a next, Meterly.step current.system a = some next ∧ target = current.record next a ∧
      ∀ txn, a = .interrupt txn → ¬ (current.system.calls txn).toldAhead := by
  cases action with
  | act a =>
    obtain ⟨next, enabled, rfl⟩ := Option.map_eq_some_iff.mp steps
    refine ⟨a, next, enabled, rfl, ?_⟩
    rintro txn rfl
    exact witnessed
  | lostCommit txn =>
    simp only [step] at steps
    split_ifs at steps with committing
    obtain rfl := Option.some.inj steps
    have unchanged : current.changes txn = [] := witnessed
    have unheld : current.system.held txn = .none :=
      Call.held_of_unchanged committing (by rwa [changes, if_pos committing] at unchanged)
    refine ⟨.interrupt txn, _, if_pos (Call.running_of_commits committing), ?_, ?_⟩
    · rw [unchanged, List.map_nil, List.append_nil, consistent.commit_of_unheld unheld]
      rfl
    · rintro other ⟨rfl⟩ ahead
      have pending := Call.event_held_of_toldAhead txn ahead
      rw [← State.held, unheld] at pending
      contradiction

@[simp] theorem system_record (s : AuditState) (next : State) (a : Action) : (s.record next a).system = next := by
  cases a <;> rfl

theorem changeLines_advance (s : AuditState) (next : State) (txn : CallId) :
    (s.record next (.advance txn)).changeLines txn = s.changeLines txn ++
      ((s.system.calls txn).logged txn (next.calls txn)).filter LogCall.tellsChange := by
  rw [changeLines, record, ofCall_append_self, List.filter_append, changeLines]

theorem changeLines_advance_of_ne (s : AuditState) (next : State) (differs : other ≠ txn) :
    (s.record next (.advance txn)).changeLines other = s.changeLines other := by
  rw [changeLines, record, ofCall_append_of_ne differs, changeLines]

theorem changesOf_advance (s : AuditState) (next : State) (txn : CallId) :
    (s.record next (.advance txn)).changesOf txn = s.changesOf txn ++ s.changes txn := ofCall_append_self

theorem changesOf_advance_of_ne (s : AuditState) (next : State) (differs : other ≠ txn) :
    (s.record next (.advance txn)).changesOf other = s.changesOf other := ofCall_append_of_ne differs

/-- A step of the system keeps the lines and the changes of every call together. -/
theorem Faithful.told_record {tables : Rows EventKey EventRow × Rows QuotaKey QuotaRow}
    (faithful : current.Faithful tables) (steps : Stepped current.system a next)
    (whole : ∀ txn, a = .interrupt txn → ¬ (current.system.calls txn).toldAhead) (other : CallId) :
    (next.calls other).Told other ((current.record next a).changeLines other)
      ((current.record next a).changesOf other) := by
  have told := faithful.told other
  cases steps with
  | @start txn request idle =>
    by_cases own : other = txn
    · subst other
      rw [idle] at told
      obtain ⟨silent, unchanged⟩ := told.empty Bool.false_ne_true Bool.false_ne_true
      change Call.Told txn (current.changeLines txn) (current.changesOf txn) _
      rw [silent, unchanged, State.calls_record_self]
      exact .of_empty (by cases request <;> exact Bool.false_ne_true)
    · rw [State.calls_record_of_ne own]
      exact told
  | @advance txn call db moves =>
    by_cases own : other = txn
    · subst other
      rw [changeLines_advance, changesOf_advance, State.calls_record_self]
      exact told.advanced (faithful.upserts.of_call txn) moves
    · rw [changeLines_advance_of_ne _ _ own, changesOf_advance_of_ne _ _ own, State.calls_record_of_ne own]
      exact told
  | @interrupt txn running =>
    by_cases own : other = txn
    · subst other
      obtain ⟨silent, unchanged⟩ := told.empty (whole txn rfl) (Call.not_succeeded_of_running running)
      change Call.Told txn (current.changeLines txn) (current.changesOf txn) _
      rw [silent, unchanged, State.calls_record_self]
      exact .of_empty (Call.not_toldAhead_interrupt _)
    · rw [State.calls_record_of_ne own]
      exact told
  | tick => exact told

/-- What a step of a call adds to the published changes is what it does to the published events and quotas. -/
theorem changes_of_advanced (consistent : Consistent current.system)
    (moves : Call.Advanced txn current.system.db (current.system.calls txn) call db) :
    db.eventsAndQuotas = (current.changes txn).foldl Change.apply current.system.db.eventsAndQuotas := by
  rcases moves.commit_cases with ⟨rfl, committing | unheld⟩ | ⟨idle, same⟩
  · rw [changes, if_pos committing]
    exact consistent.eventsAndQuotas_commit txn
  · have unchanged : current.changes txn = [] := by
      rw [changes, unheld, Held.changes_none, ite_self]
    rw [unchanged, consistent.eventsAndQuotas_commit, State.held, unheld]
    rfl
  · rw [changes, if_neg idle]
    exact same

/-- A step that is witnessed keeps the lines and the changes together. -/
theorem Faithful.step {tables : Rows EventKey EventRow × Rows QuotaKey QuotaRow} (faithful : current.Faithful tables)
    (witnessed : current.Witnessed action) (steps : current.step action = some target) : target.Faithful tables := by
  obtain ⟨a, next, enabled, rfl, whole⟩ := step_cases faithful.consistent witnessed steps
  have stepped := stepped_of_step enabled
  refine ⟨?_, ?_, ?_, ?_⟩
  · rw [system_record]
    exact faithful.consistent.stepped stepped
  · rw [system_record]
    exact faithful.upserts.stepped faithful.consistent stepped
  · intro txn
    rw [system_record]
    exact faithful.told_record stepped whole txn
  · rw [system_record]
    cases stepped with
    | start | interrupt | tick => exact faithful.published
    | @advance txn call db moves =>
      have added : ((current.changes txn).map (Prod.mk txn)).map Prod.snd = current.changes txn := by
        rw [List.map_map]
        exact List.map_id _
      rw [record, List.map_append, List.foldl_append, ← faithful.published, added]
      exact changes_of_advanced faithful.consistent moves

/-- Where no create is broken off between its line and its commit and no commit of a change is lost to its caller,
the lines of every ended call are those of its committed changes. -/
theorem audit_lines_match_changes {collation : Collation} {now : Instant} {nextEventId : ℕ} {tables : Tables}
    (witnessed : Machine.Along AuditState.step AuditState.Witnessed
      (.init (.atRest collation now nextEventId tables)) schedule)
    (reached : Machine.run AuditState.step (.init (.atRest collation now nextEventId tables)) schedule = some target) :
    target.Matches ∧ target.system.db.eventsAndQuotas =
      (target.published.map Prod.snd).foldl Change.apply (tables.events, tables.quotas) := by
  have start : (AuditState.init (.atRest collation now nextEventId tables)).Faithful (tables.events, tables.quotas) :=
    ⟨.init .., nofun, fun txn => .of_empty Bool.false_ne_true, rfl⟩
  have faithful := Machine.run_invariant_along start
    (fun _ _ _ faithful witnessed steps => faithful.step witnessed steps) witnessed reached
  refine ⟨⟨?_, ?_, ?_⟩, faithful.published⟩
  · intro txn answered
    exact ((faithful.told txn).of_behind (Call.not_toldAhead_of_answered answered)).1
  · intro txn changed
    exact (faithful.told txn).succeeded changed
  · intro txn answered failed
    exact ((faithful.told txn).empty (Call.not_toldAhead_of_answered answered) failed).1

/-- The last statement of a create succeeds and its commit fails: a line for an event that is not there. -/
theorem audit_line_without_event : ¬ ∀ (schedule : List AuditAction) (target : AuditState),
    Machine.run AuditState.step (.init (.atRest .codePoint 0 1 (.afterMigration ∅ ∅))) schedule = some target →
      target.Matches := by
  intro promised
  let request : Request := .createEvent ⟨"c", "m", ⟨1, by decide, by decide⟩, "a"⟩ 0
  let schedule : List AuditAction := (request.steps ⟨7, 0⟩ 5 ++ [Action.interrupt ⟨7, 0⟩]).map .act
  obtain ⟨target, reached, seen⟩ := Option.map_eq_some_iff.mp (show
    (Machine.run AuditState.step (.init (.atRest .codePoint 0 1 (.afterMigration ∅ ∅))) schedule).map
      (fun target => ((target.system.calls ⟨7, 0⟩).isAnswered, target.changeLines ⟨7, 0⟩, target.changesOf ⟨7, 0⟩,
        target.system.db.events.find ⟨7, "a"⟩)) =
        some (true, [.eventCreate 7 "create" 1 false], [], none) by decide +kernel)
  simp only [Prod.mk.injEq] at seen
  obtain ⟨answered, line, none, -⟩ := seen
  have told := (promised schedule target reached).told ⟨7, 0⟩ answered
  rw [line, none] at told
  contradiction

/-- A quota is created, an event is committed and replayed, another is rejected, and the quota is removed. -/
theorem audit_lines_match_changes_five_calls :
    let request (name : String) : Request := .createEvent ⟨"c", "m", ⟨600000, by decide, by decide⟩, name⟩ 0
    let schedule : List AuditAction :=
      ((Request.upsertQuota ⟨"c", "m", ⟨1, by decide, by decide⟩⟩).steps ⟨7, 0⟩ 3 ++ (request "a").steps ⟨7, 1⟩ 8 ++
        (request "a").steps ⟨7, 2⟩ 5 ++ (request "b").steps ⟨7, 3⟩ 7 ++
        (Request.deleteQuota ⟨"c", "m"⟩).steps ⟨7, 4⟩ 4).map .act
    ∃ target, Machine.run AuditState.step (.init (.atRest .codePoint 0 1 (.afterMigration ∅ ∅))) schedule =
        some target ∧
      target.lines.length = 5 ∧ target.published.length = 3 ∧ target.Matches := by
  intro request schedule
  obtain ⟨target, reached, seen⟩ := Option.map_eq_some_iff.mp (show
    (Machine.run AuditState.step (.init (.atRest .codePoint 0 1 (.afterMigration ∅ ∅))) schedule).map
      (fun target => (target.lines.length, target.published.length)) = some (5, 3) by decide +kernel)
  obtain ⟨lines, published⟩ := Prod.mk.inj seen
  exact ⟨target, reached, lines, published, (audit_lines_match_changes (by decide +kernel) reached).1⟩

end AuditState

end Meterly
