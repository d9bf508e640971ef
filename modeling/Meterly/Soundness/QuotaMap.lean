import Meterly.Soundness.Snapshots

/-! # Quotas are a linearizable map

Under one key the map is a cell that holds a limit or nothing. A creation needs an empty cell, a
replacement and a removal a full one. The successful answers, in the order in which they were
given, are a run of this cell that ends in the published row: the statement that decides an answer
holds the row until the commit that gives the answer, so no other change comes in between.
-/

namespace Meterly

/-- What a successful answer says was done to a quota. -/
inductive QuotaEvent where
  | created (limit : LimitPerWindow)
  | replaced (limit : LimitPerWindow)
  | removed
deriving DecidableEq, Repr

namespace QuotaEvent

/-- One operation of the cell; an answer that does not fit its content has no step. -/
def apply : Option LimitPerWindow → QuotaEvent → Option (Option LimitPerWindow)
  | none, created limit => some (some limit)
  | some _, replaced limit => some (some limit)
  | some _, removed => some none
  | _, _ => none

def isCreated : QuotaEvent → Bool
  | created _ => true
  | _ => false

def isRemoved : QuotaEvent → Bool
  | removed => true
  | _ => false

/-- The limit that an operation stored. -/
def stored : QuotaEvent → Option LimitPerWindow
  | created limit | replaced limit => some limit
  | removed => none

/-- Creations and removals alternate, so their numbers differ by the content of the cell. -/
theorem countP_isCreated {history : List QuotaEvent} {limit : Option LimitPerWindow}
    (ran : Machine.run apply none history = some limit) :
    history.countP isCreated = history.countP isRemoved + if limit.isSome then 1 else 0 := by
  refine Machine.run_induction (motive := fun history limit =>
    history.countP isCreated = history.countP isRemoved + if limit.isSome then 1 else 0) none rfl ?_ ran
  intro history before event after _ ih applies
  simp only [List.countP_append, List.countP_singleton]
  cases before with
  | none =>
    cases event with
    | created limit =>
      obtain rfl := Option.some.inj applies
      simpa [isCreated, isRemoved] using ih
    | replaced | removed => contradiction
  | some limit =>
    cases event with
    | created => contradiction
    | replaced =>
      obtain rfl := Option.some.inj applies
      simpa [isCreated, isRemoved] using ih
    | removed =>
      obtain rfl := Option.some.inj applies
      simpa [isCreated, isRemoved] using ih

/-- The cell holds what was stored last. -/
theorem getLast?_stored {history : List QuotaEvent} {limit : LimitPerWindow}
    (ran : Machine.run apply none history = some (some limit)) :
    (history.filterMap stored).getLast? = some limit := by
  have every : ∀ limit' ∈ some limit, (history.filterMap stored).getLast? = some limit' := by
    refine Machine.run_induction (motive := fun history content => ∀ limit ∈ content,
      (history.filterMap stored).getLast? = some limit) none (fun _ member => by contradiction) ?_ ran
    intro history before event after _ _ applies limit member
    obtain rfl := Option.mem_def.mp member
    have kept : stored event = some limit := by
      cases before <;> cases event <;> simp_all [apply, stored]
    simp [List.filterMap_append, kept]
  exact every limit rfl

end QuotaEvent

/-- What an ended call says it did to the quota of a key. -/
def quotaEvent (key : QuotaKey) : CallId × Call → Option QuotaEvent
  | (txn, .upsertQuota payload (.answered (.ok outcome))) =>
    if payload.quotaKey txn.apiKeyId = key then
      some (if outcome.httpStatus = 201 then .created outcome.limitPerWindow
        else .replaced outcome.limitPerWindow)
    else none
  | (txn, .deleteQuota params (.answered (.ok ()))) =>
    if params.quotaKey txn.apiKeyId = key then some .removed else none
  | _ => none

namespace State

/-- The successful changes of a quota, in the order in which they were answered. -/
def quotaHistory (s : State) (key : QuotaKey) : List QuotaEvent := s.answers.filterMap (quotaEvent key)

end State

/-- The published limit. -/
def Database.limit (db : Database) (key : QuotaKey) : Option LimitPerWindow :=
  (db.quotas.find key).map QuotaRow.limitPerWindow

variable {s next final : State} {a : Action} {txn : CallId} {call : Call} {db : Database}
  {schedule : List Action} {key : QuotaKey}

theorem quotaEvent_of_not_answered (unanswered : ¬ call.isAnswered) : quotaEvent key (txn, call) = none := by
  cases call with
  | upsertQuota payload phase => cases phase <;> first | rfl | exact absurd rfl unanswered
  | deleteQuota params phase => cases phase <;> first | rfl | exact absurd rfl unanswered
  | idle | createEvent | listQuotas | getUsage | getDailyUsage | exportUsage => rfl

/-- The history grows by what the moved call says, if anything. -/
theorem State.quotaHistory_record :
    (s.record txn call db).quotaHistory key = s.quotaHistory key ++ (quotaEvent key (txn, call)).toList := by
  rw [quotaHistory, record]
  split_ifs with answered
  · cases event : quotaEvent key (txn, call) <;>
    simp [List.filterMap_append, event, quotaHistory]
  · rw [quotaEvent_of_not_answered answered]
    exact (List.append_nil _).symm

/-- What a pending upsert will answer agrees with the row as it is published. -/
def UpsertsFaithful (s : State) : Prop :=
  ∀ txn payload record row, s.calls txn = .upsertQuota payload (.written record row) →
    record = ⟨payload.customerId, payload.metric, payload.limitPerWindow,
      (s.db.quotas.find (payload.quotaKey txn.apiKeyId)).isNone⟩ ∧
    row.limitPerWindow = payload.limitPerWindow

theorem State.held_of_written {payload : QuotaPutRequest} {record : QuotaRecord} {row : QuotaRow}
    (place : s.calls txn = .upsertQuota payload (.written record row)) :
    (s.held txn).quota = some (payload.quotaKey txn.apiKeyId, .write row) := by
  rw [held, place]
  rfl

theorem UpsertsFaithful.stepped (faithful : UpsertsFaithful s) (consistent : Consistent s)
    (steps : Stepped s a next) : UpsertsFaithful next := by
  intro txn payload record row place
  rcases steps.upsertQuota_cases place with ⟨other, same⟩ | opened | ⟨before, -, -, moves⟩ | ended
  · have held := State.held_of_written same
    have stays : next.db.quotas.find (payload.quotaKey txn.apiKeyId) =
        s.db.quotas.find (payload.quotaKey txn.apiKeyId) := by
      rcases steps.moved with ⟨elapsed, rfl⟩ | ⟨mover, call, db, caller, moved, rfl⟩
      · rfl
      · exact consistent.quota_find_of_held moved (fun same => other (by rw [caller, same])) held
    rw [stays]
    exact faithful txn payload record row same
  · contradiction
  · generalize next.db = db at moves
    cases moves with
    | inserts free absent =>
      refine ⟨?_, rfl⟩
      rw [RowTable.find_hold, absent]
      rfl
    | replaces free found =>
      refine ⟨?_, rfl⟩
      rw [RowTable.find_hold, found]
      rfl
  · contradiction

/-- A call of `create_event` keeps the quota row it has locked. -/
theorem CreateEvent.Phase.quota_held {payload : EventCreateRequest} {phase : CreateEvent.Phase}
    {effect : Effect QuotaRow} (holds : (phase.held txn payload).quota = some (key, effect)) : effect = .keep := by
  cases phase with
  | quotaLocked row limit => exact (congrArg Prod.snd (Option.some.inj holds)).symm
  | judging row quotaState | incremented row quotaState rollup =>
    cases quotaState with
    | none => contradiction
    | some state => exact (congrArg Prod.snd (Option.some.inj holds)).symm
  | received | begun | inserting | inserted | lockingQuota | conflicted | replayed | answered => contradiction

/-- Committing publishes the quota that the call holds, and no other. -/
theorem Consistent.limit_commit (consistent : Consistent s) {effect : Effect QuotaRow}
    (holds : (s.held txn).quota = some (key, effect)) :
    (s.db.commit txn).limit key = (effect.result (s.db.quotas.find key)).map QuotaRow.limitPerWindow :=
  congrArg (Option.map QuotaRow.limitPerWindow) (consistent.quotas.find_commit holds)

theorem Consistent.limit_commit_of_key_ne (consistent : Consistent s) {held : QuotaKey} {effect : Effect QuotaRow}
    (holds : (s.held txn).quota = some (held, effect)) (differs : held ≠ key) :
    (s.db.commit txn).limit key = s.db.limit key :=
  congrArg (Option.map QuotaRow.limitPerWindow) (consistent.quotas.find_commit_of_key_ne holds differs.symm)

theorem Consistent.limit_commit_of_unheld (consistent : Consistent s) (unheld : (s.held txn).quota = none) :
    (s.db.commit txn).limit key = s.db.limit key :=
  congrArg (Option.map QuotaRow.limitPerWindow) (consistent.quotas.find_commit_of_unclaimed unheld)

/-- The commit of an upsert publishes the limit it was given. -/
theorem UpsertsFaithful.limit_commit (faithful : UpsertsFaithful s) (consistent : Consistent s)
    {payload : QuotaPutRequest} {record : QuotaRecord} {row : QuotaRow}
    (place : s.calls txn = .upsertQuota payload (.written record row)) :
    (s.db.commit txn).limit (payload.quotaKey txn.apiKeyId) = some payload.limitPerWindow := by
  rw [consistent.limit_commit (State.held_of_written place), Effect.result, Option.map_some,
    (faithful txn payload record row place).2]

/-- What a step answers about a key fits what it does to it. -/
theorem Call.Advanced.quota_fits (consistent : Consistent s) (faithful : UpsertsFaithful s)
    (moves : Call.Advanced txn s.db (s.calls txn) call db) (key : QuotaKey) :
    Machine.run QuotaEvent.apply (s.db.limit key) (quotaEvent key (txn, call)).toList = some (db.limit key) := by
  have moved := Moved.of_advanced moves
  have silent : quotaEvent key (txn, call) = none → db.limit key = s.db.limit key →
      Machine.run QuotaEvent.apply (s.db.limit key) (quotaEvent key (txn, call)).toList = some (db.limit key) := by
    intro none same
    rw [none, same]
    rfl
  generalize place : s.calls txn = before at moves
  have held : s.held txn = before.held txn := by rw [State.held, place]
  have unheld : (before.held txn).quota = none → (s.db.commit txn).limit key = s.db.limit key :=
    fun none => consistent.limit_commit_of_unheld ((congrArg Held.quota held).trans none)
  cases moves with
  | createEvent moves =>
    apply silent rfl
    cases moved with
    | reads | insertsEvent | locksQuota | takesBucket | rollsBack => rfl
    | commits released whole =>
      rcases consistent.quota_find_commit txn key with same | ⟨effect, holds, published⟩
      · exact congrArg (Option.map QuotaRow.limitPerWindow) same
      · rw [held] at holds
        obtain rfl := CreateEvent.Phase.quota_held holds
        exact congrArg (Option.map QuotaRow.limitPerWindow) published
  | listQuotas moves | getUsage moves | getDailyUsage moves =>
    cases moves with
    | refuses | opens | reads => rfl
    | commits => exact silent rfl (unheld rfl)
  | exportUsage moves =>
    cases moves with
    | opens | counts | sendsHeader | opensStream | streams => rfl
    | refuses | prepares | completes => exact silent rfl (unheld rfl)
  | @upsertQuota payload phase after next moves =>
    cases moves with
    | opens | inserts | replaces => rfl
    | @commits record row =>
      by_cases own : payload.quotaKey txn.apiKeyId = key
      · subst key
        rw [faithful.limit_commit consistent place, (faithful txn payload record row place).1, quotaEvent, if_pos rfl,
          Database.limit]
        cases s.db.quotas.find (payload.quotaKey txn.apiKeyId) <;> rfl
      · exact silent (if_neg own) (consistent.limit_commit_of_key_ne (State.held_of_written place) own)
  | @deleteQuota params phase after next moves =>
    cases moves with
    | opens | seesNothing | sees | loses | removes => rfl
    | @commits found =>
      cases found with
      | false => exact silent rfl (unheld rfl)
      | true =>
        have holds : (s.held txn).quota = some (params.quotaKey txn.apiKeyId, .erase) := by
          rw [held]
          rfl
        by_cases own : params.quotaKey txn.apiKeyId = key
        · subst key
          obtain ⟨row, found⟩ := Option.isSome_iff_exists.mp (consistent.continues txn _ _ holds)
          rw [consistent.limit_commit holds, Effect.result, Option.map_none, Database.limit, found, if_pos rfl,
            quotaEvent, if_pos rfl]
          rfl
        · exact silent (if_neg own) (consistent.limit_commit_of_key_ne holds own)

/-- The answers given so far are a run of the cell that ends in the published limit. -/
def QuotasSerial (s : State) : Prop :=
  ∀ key, Machine.run QuotaEvent.apply none (s.quotaHistory key) = some (s.db.limit key)

theorem QuotasSerial.stepped (serial : QuotasSerial s) (consistent : Consistent s) (faithful : UpsertsFaithful s)
    (steps : Stepped s a next) : QuotasSerial next := by
  intro key
  cases steps with
  | @start txn request idle =>
    rw [State.quotaHistory_record, quotaEvent_of_not_answered (by cases request <;> exact Bool.false_ne_true)]
    rw [Option.toList_none, List.append_nil]
    exact serial key
  | advance moves =>
    rw [State.quotaHistory_record]
    exact Machine.run_append_iff.mpr ⟨_, serial key, moves.quota_fits consistent faithful key⟩
  | @interrupt txn running =>
    have silent : quotaEvent key (txn, (s.calls txn).interrupt) = none := by
      cases s.calls txn <;> rfl
    rw [State.quotaHistory_record, silent, Option.toList_none, List.append_nil]
    exact serial key
  | tick => exact serial key

/-- A published state in which every pending upsert is as it should be, and the answers fit. -/
private theorem serial_run (consistent : Consistent s) (faithful : UpsertsFaithful s) (serial : QuotasSerial s)
    (reached : Machine.run step s schedule = some final) :
    Consistent final ∧ UpsertsFaithful final ∧ QuotasSerial final := by
  refine Machine.run_invariant (motive := fun s => Consistent s ∧ UpsertsFaithful s ∧ QuotasSerial s)
    ⟨consistent, faithful, serial⟩ ?_ reached
  rintro s a next ⟨consistent, faithful, serial⟩ steps
  have steps := stepped_of_step steps
  exact ⟨consistent.stepped steps, faithful.stepped consistent steps, serial.stepped consistent faithful steps⟩

/-- The step that answers an upsert found the row absent or present, as its status tells, and
published the new limit. -/
theorem Stepped.upsert_answer (consistent : Consistent s) (faithful : UpsertsFaithful s) (steps : Stepped s a next)
    {payload : QuotaPutRequest} {outcome : QuotaUpsertOutcome}
    (before : s.calls txn ≠ .upsertQuota payload (.answered (.ok outcome)))
    (after : next.calls txn = .upsertQuota payload (.answered (.ok outcome))) :
    a = .advance txn ∧
      (outcome.httpStatus = 201 ∧ s.db.limit (payload.quotaKey txn.apiKeyId) = none ∨
        outcome.httpStatus = 200 ∧ (s.db.limit (payload.quotaKey txn.apiKeyId)).isSome) ∧
      next.db.limit (payload.quotaKey txn.apiKeyId) = some payload.limitPerWindow := by
  rcases steps.upsertQuota_cases after with ⟨-, same⟩ | opened | ⟨phase, rfl, place, moves⟩ | ended
  · exact absurd same before
  · contradiction
  · refine ⟨rfl, ?_⟩
    generalize next.db = db at moves
    cases moves with
    | @commits record row =>
      refine ⟨?_, faithful.limit_commit consistent place⟩
      obtain ⟨rfl, -⟩ := faithful txn payload record row place
      rw [Database.limit]
      cases s.db.quotas.find (payload.quotaKey txn.apiKeyId) with
      | none => exact .inl ⟨rfl, rfl⟩
      | some row => exact .inr ⟨rfl, rfl⟩
  · cases ended

namespace DeleteQuota

/-- What a deletion has found so far: the version it waits for is the published one, or the row was
absent at some time. -/
def Phase.Justified (published : Option QuotaRow) (absent : Prop) : Phase → Prop
  | deleting version => (∃ row, published = some row ∧ row.insertedBy = version) ∨ absent
  | removed false => absent
  | answered (.error error) => error = quotaNotFound → absent
  | _ => True

theorem Phase.Justified.imp {published : Option QuotaRow} {absent weaker : Prop} {phase : Phase}
    (justified : phase.Justified published absent) (implies : absent → weaker) : phase.Justified published weaker := by
  cases phase with
  | deleting version => exact justified.imp_right implies
  | removed found =>
    cases found with
    | false => exact implies justified
    | true => trivial
  | answered outcome =>
    cases outcome with
    | ok => trivial
    | error error => exact fun same => implies (justified same)
  | received | begun => trivial

/-- One step of a deletion on the state it acts on. -/
theorem Phase.Justified.advanced {params : QuotaDeleteParams} {phase after : Phase} {before : Database}
    {absent : Prop} (justified : phase.Justified (before.quotas.find (params.quotaKey txn.apiKeyId)) absent)
    (now : before.quotas.find (params.quotaKey txn.apiKeyId) = none → absent)
    (moves : Advanced txn params before phase after db) :
    after.Justified (db.quotas.find (params.quotaKey txn.apiKeyId)) absent := by
  cases moves with
  | opens | removes => trivial
  | seesNothing absent => exact now (Option.map_eq_none_iff.mp absent)
  | sees seen => exact .inl (Option.map_eq_some_iff.mp seen)
  | loses free gone =>
    rcases justified with ⟨row, found, same⟩ | absent
    · rw [Database.latestVersion_eq_some.mpr ⟨found, same⟩] at gone
      contradiction
    · exact absent
  | @commits found =>
    cases found with
    | false => exact fun _ => justified
    | true => trivial

end DeleteQuota

/-- A deletion that found nothing was under way while there was nothing. -/
theorem delete_justified {start : Database} (consistent : Consistent (.init start))
    (reached : Machine.run step (.init start) schedule = some final) {params : QuotaDeleteParams}
    {phase : DeleteQuota.Phase} (place : final.calls txn = .deleteQuota params phase) :
    phase.Justified (final.db.quotas.find (params.quotaKey txn.apiKeyId))
      (During (.init start) schedule txn fun db => db.quotas.find (params.quotaKey txn.apiKeyId) = none) := by
  suffices every : ∀ phase, final.calls txn = .deleteQuota params phase →
      phase.Justified (final.db.quotas.find (params.quotaKey txn.apiKeyId))
        (During (.init start) schedule txn fun db => db.quotas.find (params.quotaKey txn.apiKeyId) = none) from
    every phase place
  refine Machine.run_induction (motive := fun schedule s => ∀ phase, s.calls txn = .deleteQuota params phase →
    phase.Justified (s.db.quotas.find (params.quotaKey txn.apiKeyId))
      (During (.init start) schedule txn fun db => db.quotas.find (params.quotaKey txn.apiKeyId) = none))
    _ (fun phase place => by contradiction) ?_ reached
  intro schedule s a next before ih enabled phase place
  have steps := stepped_of_step enabled
  rcases steps.deleteQuota_cases place with ⟨-, same⟩ | rfl | ⟨earlier, -, current, moves⟩ | rfl
  · have justified := (ih phase same).imp fun during => during.append [a]
    cases phase with
    | deleting version =>
      rcases justified with ⟨row, found, version⟩ | absent
      · rcases (consistent.of_run before).quota_version_step steps found with gone | ⟨after, found, kept⟩
        · exact .inr (During.of_current (Machine.run_snoc before enabled) (by rw [place]; rfl) gone)
        · exact .inl ⟨after, found, kept.trans version⟩
      · exact .inr absent
    | received | begun => trivial
    | removed found => cases found <;> exact justified
    | answered outcome => cases outcome <;> exact justified
  · trivial
  · refine ((ih _ current).imp fun during => during.append [a]).advanced (fun absent => ?_) moves
    have running : (s.calls txn).isRunning := by
      rw [current]
      exact (Call.Advanced.deleteQuota moves).running
    exact (During.of_current before running absent).append [a]
  · exact fun impossible => by cases impossible

/-- The only published rows that differ are those of one quota, or none at all. -/
def OnlyQuota (own : Option QuotaKey) (before after : Database) : Prop :=
  after.events.committed = before.events.committed ∧ after.usageRollup.committed = before.usageRollup.committed ∧
    ∀ key, own ≠ some key → after.quotas.find key = before.quotas.find key

/-- The quota that a request names, for the three quota services. -/
def Request.quota (apiKeyId : ℕ) : Request → Option (Option QuotaKey)
  | upsertQuota payload => some (some (payload.quotaKey apiKeyId))
  | deleteQuota params => some (some (params.quotaKey apiKeyId))
  | listQuotas => some none
  | _ => none

/-- A call of the quota services holds no row but that of its quota. -/
theorem Call.held_of_quota {request : Request} {own : Option QuotaKey} (serves : call.request = some request)
    (names : request.quota txn.apiKeyId = some own) :
    (call.held txn).event = none ∧ (call.held txn).rollup = none ∧
      ∀ key effect, (call.held txn).quota = some (key, effect) → own = some key := by
  cases call with
  | idle => contradiction
  | createEvent | getUsage | getDailyUsage | exportUsage =>
    obtain rfl := Option.some.inj serves
    contradiction
  | listQuotas => exact ⟨rfl, rfl, fun _ _ holds => by contradiction⟩
  | upsertQuota payload phase =>
    obtain rfl := Option.some.inj serves
    obtain rfl := Option.some.inj names
    cases phase with
    | written record row =>
      exact ⟨rfl, rfl, fun key effect holds => congrArg (fun hold => some hold.1) (Option.some.inj holds)⟩
    | received | begun | answered => exact ⟨rfl, rfl, fun _ _ holds => by contradiction⟩
  | deleteQuota params phase =>
    obtain rfl := Option.some.inj serves
    obtain rfl := Option.some.inj names
    cases phase with
    | removed found =>
      cases found with
      | true => exact ⟨rfl, rfl, fun key effect holds => congrArg (fun hold => some hold.1) (Option.some.inj holds)⟩
      | false => exact ⟨rfl, rfl, fun _ _ holds => by contradiction⟩
    | received | begun | deleting | answered => exact ⟨rfl, rfl, fun _ _ holds => by contradiction⟩

/-- A step of a quota service changes nothing but its quota. -/
theorem Stepped.onlyQuota (consistent : Consistent s) (steps : Stepped s a next) (caller : a.caller = some txn)
    {request : Request} {own : Option QuotaKey} (serves : (next.calls txn).request = some request)
    (names : request.quota txn.apiKeyId = some own) : OnlyQuota own s.db next.db := by
  rcases steps.moved with ⟨elapsed, rfl⟩ | ⟨mover, call, db, same, moved, rfl⟩
  · exact ⟨rfl, rfl, fun _ _ => rfl⟩
  · obtain rfl := Option.some.inj (same.symm.trans caller)
    cases moved with
    | reads | insertsEvent | locksQuota | takesBucket | rollsBack => exact ⟨rfl, rfl, fun _ _ => rfl⟩
    | commits released whole =>
      obtain ⟨event, rollup, quota⟩ : (s.held mover).event = none ∧ (s.held mover).rollup = none ∧
          ∀ key effect, (s.held mover).quota = some (key, effect) → own = some key := by
        cases before : (s.calls mover).request with
        | some earlier =>
          have kept := steps.request_of_some before
          obtain rfl := Option.some.inj (kept.symm.trans serves)
          exact Call.held_of_quota before names
        | none =>
          cases current : s.calls mover with
          | idle =>
            rw [State.held, current]
            exact ⟨rfl, rfl, fun _ _ holds => by contradiction⟩
          | createEvent | upsertQuota | deleteQuota | listQuotas | getUsage | getDailyUsage | exportUsage =>
            rw [current] at before
            contradiction
      refine ⟨consistent.events.committed_of_unclaimed event, consistent.rollups.committed_of_unclaimed rollup, ?_⟩
      intro key other
      exact consistent.quotas.find_commit_of_ne fun effect claimed => other (quota key effect claimed)

/-- `ORDER BY customer_id, metric` on a response. -/
def quotaResponseOrder (collation : Collation) : QuotaResponse → QuotaResponse → Ordering :=
  compareLex (onColumn QuotaResponse.customerId collation.cmp) (onColumn QuotaResponse.metric collation.cmp)

theorem Database.mem_listQuotas {apiKeyId : ℕ} {item : QuotaListItem} :
    item ∈ db.listQuotas apiKeyId ↔ ∃ row,
      db.quotas.find ⟨apiKeyId, item.customerId, item.metric⟩ = some row ∧
        row.limitPerWindow = item.limitPerWindow := by
  simp only [listQuotas, mem_orderBy, List.mem_map, List.mem_filter, decide_eq_true_eq, RowTable.find,
    AList.lookup_eq_some_iff]
  constructor
  · rintro ⟨⟨⟨tenant, customerId, metric⟩, row⟩, ⟨member, rfl⟩, rfl⟩
    exact ⟨row, member, rfl⟩
  · rintro ⟨row, member, same⟩
    exact ⟨_, ⟨member, rfl⟩, congrArg (QuotaListItem.mk item.customerId item.metric) same⟩

/-- The listing of a tenant is strictly increasing, since no two of its rows share a key. -/
theorem Database.listQuotas_increasing (db : Database) (apiKeyId : ℕ) :
    (db.listQuotas apiKeyId).Pairwise fun first second => db.quotaOrder first second = .lt := by
  have keys := List.nodupKeys_iff_pairwise.mp db.quotas.committed.nodupKeys
  have order : Std.TransCmp db.quotaOrder := by
    unfold quotaOrder
    infer_instance
  apply orderBy_pairwise_lt
  rw [List.pairwise_map]
  apply (keys.filter _).imp_of_mem
  intro first second firstMember secondMember differs same
  have firstTenant := of_decide_eq_true (List.mem_filter.mp firstMember).2
  have secondTenant := of_decide_eq_true (List.mem_filter.mp secondMember).2
  obtain ⟨customerId, metric⟩ := Ordering.then_eq_eq.mp same
  exact differs (QuotaKey.ext (firstTenant.trans secondTenant.symm) (onColumn_eq_eq.mp customerId)
    (onColumn_eq_eq.mp metric))

/-- What `list_tenant_quotas` answers from a database: its tenant's rows, each once, in order. -/
theorem ListQuotas.respond_statement (apiKeyId : ℕ) :
    (respond () (statement apiKeyId () db)).Pairwise
        (fun first second => quotaResponseOrder db.collation first second = .lt) ∧
      ∀ response, response ∈ respond () (statement apiKeyId () db) ↔ ∃ row,
        db.quotas.find ⟨apiKeyId, response.customerId, response.metric⟩ = some row ∧
          row.limitPerWindow = response.limitPerWindow := by
  refine ⟨?_, ?_⟩
  · rw [respond, List.pairwise_map]
    exact db.listQuotas_increasing apiKeyId
  · intro response
    rw [respond, List.mem_map]
    constructor
    · rintro ⟨item, member, rfl⟩
      exact Database.mem_listQuotas.mp member
    · intro found
      exact ⟨⟨response.customerId, response.metric, response.limitPerWindow⟩, Database.mem_listQuotas.mpr found, rfl⟩

/-- Quotas are a linearizable map. Of the calls that have ended, each listed once: creations less
removals of a key are 1 or 0 as its row is there or not; the row holds the limit stored last. An
upsert is answered 201 or 200 by a step that found no row or one, and stored its limit; a 404 goes
to a deletion that was under way while there was no row; a listing is that of one state during the
call; and no step of these calls changes any other row. -/
theorem quotas_linearizable {collation : Collation} {now : Instant} {nextEventId : ℕ}
    {events : Rows EventKey EventRow} {usageRollup : Rows RollupKey RollupRow}
    (reached : Machine.run step (.init (.atRest collation now nextEventId ⟨events, usageRollup, ∅⟩)) schedule =
      some final) :
    ((∀ txn call, (txn, call) ∈ final.answers ↔ final.calls txn = call ∧ call.isAnswered) ∧
      (final.answers.map Prod.fst).Nodup) ∧
    (∀ key, (final.quotaHistory key).countP QuotaEvent.isCreated =
      (final.quotaHistory key).countP QuotaEvent.isRemoved + if (final.db.quotas.find key).isSome then 1 else 0) ∧
    (∀ key row, final.db.quotas.find key = some row →
      ((final.quotaHistory key).filterMap QuotaEvent.stored).getLast? = some row.limitPerWindow) ∧
    (∀ txn payload outcome, final.calls txn = .upsertQuota payload (.answered (.ok outcome)) →
      ∃ earlier later middle next, schedule = earlier ++ .advance txn :: later ∧
        Machine.run step (.init (.atRest collation now nextEventId ⟨events, usageRollup, ∅⟩)) earlier = some middle ∧
        step middle (.advance txn) = some next ∧
        (outcome.httpStatus = 201 ∧ middle.db.quotas.find (payload.quotaKey txn.apiKeyId) = none ∨
          outcome.httpStatus = 200 ∧ (middle.db.quotas.find (payload.quotaKey txn.apiKeyId)).isSome) ∧
        next.db.limit (payload.quotaKey txn.apiKeyId) = some payload.limitPerWindow) ∧
    (∀ txn params, final.calls txn = .deleteQuota params (.answered (.error quotaNotFound)) →
      During (.init (.atRest collation now nextEventId ⟨events, usageRollup, ∅⟩)) schedule txn fun db =>
        db.quotas.find (params.quotaKey txn.apiKeyId) = none) ∧
    (∀ txn responses, final.calls txn = .listQuotas (.answered (.ok responses)) →
      During (.init (.atRest collation now nextEventId ⟨events, usageRollup, ∅⟩)) schedule txn fun db =>
        responses.Pairwise (fun first second => quotaResponseOrder db.collation first second = .lt) ∧
        ∀ response, response ∈ responses ↔ ∃ row,
          db.quotas.find ⟨txn.apiKeyId, response.customerId, response.metric⟩ = some row ∧
            row.limitPerWindow = response.limitPerWindow) ∧
    ∀ earlier a later middle next txn request own, schedule = earlier ++ a :: later → a.caller = some txn →
      Machine.run step (.init (.atRest collation now nextEventId ⟨events, usageRollup, ∅⟩)) earlier = some middle →
      step middle a = some next → (next.calls txn).request = some request → request.quota txn.apiKeyId = some own →
        OnlyQuota own middle.db next.db := by
  have start := Consistent.init collation now nextEventId ⟨events, usageRollup, ∅⟩
  have noUpserts : UpsertsFaithful (.init (.atRest collation now nextEventId ⟨events, usageRollup, ∅⟩)) :=
    fun _ _ _ _ place => by contradiction
  obtain ⟨consistent, faithful, serial⟩ := serial_run start noUpserts (fun key => rfl) reached
  have answers := AnswersListed.of_run reached
  refine ⟨⟨answers.listed, answers.distinct⟩, ?_, ?_, ?_, ?_, ?_, ?_⟩
  · intro key
    rw [QuotaEvent.countP_isCreated (serial key), Database.limit, Option.isSome_map]
  · intro key row found
    apply QuotaEvent.getLast?_stored
    rw [serial key, Database.limit, found]
    rfl
  · intro txn payload outcome place
    obtain ⟨earlier, a, later, middle, next, rfl, before, last, -, unanswered, answered⟩ :=
      Machine.exists_step_of_run (P := fun s => s.calls txn = .upsertQuota payload (.answered (.ok outcome)))
        (by simp [State.init]) reached place
    obtain ⟨valid, pending, -⟩ := serial_run start noUpserts (fun key => rfl) before
    obtain ⟨rfl, status, stored⟩ := (stepped_of_step last).upsert_answer valid pending unanswered answered
    refine ⟨earlier, later, middle, next, rfl, before, last, ?_, stored⟩
    simpa only [Database.limit, Option.map_eq_none_iff, Option.isSome_map] using status
  · intro txn params place
    exact delete_justified start reached place rfl
  · intro txn responses place
    apply (readFrom_run reached (by rw [place]; rfl)).imp
    intro db same
    rw [place] at same
    obtain rfl : responses = _ := same
    exact ListQuotas.respond_statement txn.apiKeyId
  · rintro earlier a later middle next txn request own rfl caller before last serves names
    exact (stepped_of_step last).onlyQuota (start.of_run before) caller serves names

/-- Two deletions see one row; the first removes it, and it is created again before the second runs:
the second is answered 404 although a row is there in the end. -/
theorem quotas_linearizable_recreated :
    let put : Request := .upsertQuota ⟨"c", "m", ⟨5, by decide, by decide⟩⟩
    let delete : Request := .deleteQuota ⟨"c", "m"⟩
    let schedule := put.steps ⟨1, 0⟩ 3 ++ delete.steps ⟨1, 1⟩ 2 ++ delete.steps ⟨1, 2⟩ 2 ++
      List.replicate 2 (.advance ⟨1, 1⟩) ++ put.steps ⟨1, 3⟩ 3 ++ List.replicate 2 (.advance ⟨1, 2⟩)
    let start : State := .init (.atRest .codePoint 0 1 ⟨∅, ∅, ∅⟩)
    ∃ final, Machine.run step start schedule = some final ∧
      final.quotaHistory ⟨1, "c", "m"⟩ =
        [.created ⟨5, by decide, by decide⟩, .removed, .created ⟨5, by decide, by decide⟩] ∧
      (final.db.quotas.find ⟨1, "c", "m"⟩).isSome ∧
      (During start schedule ⟨1, 2⟩ fun db => db.quotas.find ⟨1, "c", "m"⟩ = none) := by
  intro put delete schedule start
  obtain ⟨final, reached, history, present, refused⟩ : ∃ final, Machine.run step start schedule = some final ∧
      final.quotaHistory ⟨1, "c", "m"⟩ =
        [.created ⟨5, by decide, by decide⟩, .removed, .created ⟨5, by decide, by decide⟩] ∧
      (final.db.quotas.find ⟨1, "c", "m"⟩).isSome ∧
      final.calls ⟨1, 2⟩ = .deleteQuota ⟨"c", "m"⟩ (.answered (.error quotaNotFound)) :=
    ⟨_, rfl, rfl, rfl, rfl⟩
  exact ⟨final, reached, history, present, (quotas_linearizable reached).2.2.2.2.1 ⟨1, 2⟩ _ refused⟩

end Meterly
