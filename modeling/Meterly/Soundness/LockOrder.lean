import Meterly.Model.Server
import Meterly.Soundness.Consistency

/-! # The order in which calls take rows

A call that holds a row waits only for rows of a later kind: the index entry of its event comes before
the quota row, and the quota row before the bucket. A call waits for a connection only while it has no
transaction open, so before all of them.
-/

namespace Meterly

/-- A key that a statement may have to wait for. -/
inductive Lock where
  | event (key : EventKey)
  | quota (key : QuotaKey)
  | rollup (key : RollupKey)
deriving DecidableEq

/-- The open transaction that holds a key. -/
def Database.owner (db : Database) : Lock → Option CallId
  | .event key => (db.events.holds.lookup key).map Hold.owner
  | .quota key => (db.quotas.holds.lookup key).map Hold.owner
  | .rollup key => (db.usageRollup.holds.lookup key).map Hold.owner

/-! ## What a call waits for -/

def CreateEvent.Phase.nextLock (txn : CallId) (payload : EventCreateRequest) : CreateEvent.Phase → Option Lock
  | .inserting _ _ => some (.event (payload.eventKey txn.apiKeyId))
  | .lockingQuota row _ => some (.quota (row.quotaKey txn.apiKeyId))
  | .judging row quotaState =>
    if CreateEvent.Rejected quotaState row then none else some (.rollup (row.rollupKey txn.apiKeyId))
  | _ => none

def UpsertQuota.Phase.nextLock (txn : CallId) (payload : QuotaPutRequest) : UpsertQuota.Phase → Option Lock
  | .begun => some (.quota (payload.quotaKey txn.apiKeyId))
  | _ => none

def DeleteQuota.Phase.nextLock (txn : CallId) (params : QuotaDeleteParams) : DeleteQuota.Phase → Option Lock
  | .deleting _ => some (.quota (params.quotaKey txn.apiKeyId))
  | _ => none

namespace Call

/-- The key that the next statement of a call has to hold. -/
def nextLock (txn : CallId) : Call → Option Lock
  | createEvent payload _ phase => phase.nextLock txn payload
  | upsertQuota payload phase => phase.nextLock txn payload
  | deleteQuota params phase => phase.nextLock txn params
  | _ => none

/-- The next step of a call opens a transaction. -/
def opens : Call → Bool
  | createEvent _ _ .received | upsertQuota _ .received | deleteQuota _ .received | listQuotas .received
  | getUsage _ .received | exportUsage _ .received | exportUsage _ .headerSent => true
  | getDailyUsage date receivedAt .received => (parseDailyDate date receivedAt).isOk
  | _ => false

end Call

/-- A connection comes first. -/
def connectionRank : Fin 5 := 0

/-- What waits for nothing comes last. -/
def nothingRank : Fin 5 := 4

/-- The place of a key in the order, after a connection and before nothing at all. -/
def Lock.rank : Lock → Fin 5
  | event _ => 1
  | quota _ => 2
  | rollup _ => 3

/-- The place in the order of what a call waits for. -/
def Call.rank (txn : CallId) (call : Call) : Fin 5 :=
  if call.opens then 0
  else match call.nextLock txn with
    | some lock => lock.rank
    | none => 4

variable {txn : CallId} {call after : Call} {db next : Database} {s : State}

/-- A call with its transaction open is running and opens no other. -/
theorem Call.running_of_isOpen (isOpen : call.isOpen) : call.isRunning ∧ call.opens = false := by
  cases call with
  | idle => contradiction
  | createEvent payload receivedAt phase => cases phase <;> first | exact ⟨rfl, rfl⟩ | contradiction
  | upsertQuota payload phase => cases phase <;> first | exact ⟨rfl, rfl⟩ | contradiction
  | deleteQuota params phase => cases phase <;> first | exact ⟨rfl, rfl⟩ | contradiction
  | listQuotas phase => cases phase <;> first | exact ⟨rfl, rfl⟩ | contradiction
  | getUsage query phase => cases phase <;> first | exact ⟨rfl, rfl⟩ | contradiction
  | getDailyUsage date receivedAt phase => cases phase <;> first | exact ⟨rfl, rfl⟩ | contradiction
  | exportUsage params phase => cases phase <;> first | exact ⟨rfl, rfl⟩ | contradiction

theorem Lock.rank_pos (lock : Lock) : 0 < lock.rank := by
  cases lock with
  | event => exact (by decide : (0 : Fin 5) < 1)
  | quota => exact (by decide : (0 : Fin 5) < 2)
  | rollup => exact (by decide : (0 : Fin 5) < 3)

/-- A call with its transaction open does not wait for a connection. -/
theorem Call.rank_pos (isOpen : call.isOpen) : 0 < call.rank txn := by
  rw [rank, (running_of_isOpen isOpen).2, if_neg Bool.false_ne_true]
  split
  · next lock needs => exact lock.rank_pos
  · decide

/-- A call that waits for a key does not wait for a connection. -/
theorem Call.rank_of_nextLock {lock : Lock} (needs : call.nextLock txn = some lock) :
    call.rank txn = lock.rank := by
  have inside : call.opens = false := by
    cases call with
    | createEvent payload receivedAt phase => cases phase <;> first | rfl | contradiction
    | upsertQuota payload phase => cases phase <;> first | rfl | contradiction
    | deleteQuota params phase => cases phase <;> first | rfl | contradiction
    | idle | listQuotas | getUsage | getDailyUsage | exportUsage => contradiction
  rw [rank, inside, needs]
  rfl

/-- The event judged is the bucket's or it is rejected; in neither case is there a quota to wait for. -/
private theorem Call.rank_judging (txn : CallId) (payload : EventCreateRequest) (receivedAt : Instant)
    (row : EventRow) (quotaState : Option QuotaState) :
    2 < (Call.createEvent payload receivedAt (.judging row quotaState)).rank txn := by
  by_cases rejected : CreateEvent.Rejected quotaState row <;>
    simp [rank, opens, nextLock, CreateEvent.Phase.nextLock, rejected, Lock.rank]

/-- A call that holds its event waits at most for the quota row or the bucket. -/
theorem Call.rank_of_event {key : EventKey} {effect : Effect EventRow}
    (holds : (call.held txn).event = some (key, effect)) : call.isOpen ∧ 1 < call.rank txn := by
  cases call with
  | createEvent payload receivedAt phase =>
    cases phase with
    | inserted | quotaLocked | incremented => exact ⟨rfl, (by decide : (1 : Fin 5) < 4)⟩
    | lockingQuota => exact ⟨rfl, (by decide : (1 : Fin 5) < 2)⟩
    | judging row quotaState => exact ⟨rfl, lt_trans (by decide) (rank_judging txn payload receivedAt row quotaState)⟩
    | received | begun | inserting | conflicted | replayed | answered => contradiction
  | upsertQuota payload phase => cases phase <;> contradiction
  | deleteQuota params phase =>
    cases phase with
    | removed found => cases found <;> contradiction
    | received | begun | deleting | answered => contradiction
  | idle | listQuotas | getUsage | getDailyUsage | exportUsage => contradiction

/-- A call that holds a quota row waits at most for the bucket. -/
theorem Call.rank_of_quota {key : QuotaKey} {effect : Effect QuotaRow}
    (holds : (call.held txn).quota = some (key, effect)) : call.isOpen ∧ 2 < call.rank txn := by
  cases call with
  | createEvent payload receivedAt phase =>
    cases phase with
    | quotaLocked | incremented => exact ⟨rfl, (by decide : (2 : Fin 5) < 4)⟩
    | judging row quotaState => exact ⟨rfl, rank_judging txn payload receivedAt row quotaState⟩
    | received | begun | inserting | inserted | lockingQuota | conflicted | replayed | answered => contradiction
  | upsertQuota payload phase =>
    cases phase with
    | written => exact ⟨rfl, (by decide : (2 : Fin 5) < 4)⟩
    | received | begun | answered => contradiction
  | deleteQuota params phase =>
    cases phase with
    | removed => exact ⟨rfl, (by decide : (2 : Fin 5) < 4)⟩
    | received | begun | deleting | answered => contradiction
  | idle | listQuotas | getUsage | getDailyUsage | exportUsage => contradiction

/-- A call that holds its bucket waits for nothing. -/
theorem Call.rank_of_rollup {key : RollupKey} {effect : Effect RollupRow}
    (holds : (call.held txn).rollup = some (key, effect)) : call.isOpen ∧ 3 < call.rank txn := by
  cases call with
  | createEvent payload receivedAt phase =>
    cases phase with
    | incremented => exact ⟨rfl, (by decide : (3 : Fin 5) < 4)⟩
    | judging row quotaState => cases quotaState <;> contradiction
    | received | begun | inserting | inserted | lockingQuota | quotaLocked | conflicted | replayed | answered =>
      contradiction
  | upsertQuota payload phase => cases phase <;> contradiction
  | deleteQuota params phase =>
    cases phase with
    | removed found => cases found <;> contradiction
    | received | begun | deleting | answered => contradiction
  | idle | listQuotas | getUsage | getDailyUsage | exportUsage => contradiction

/-- Whoever holds a key has its transaction open and waits, if at all, for something later. -/
theorem Consistent.rank_of_owner (consistent : Consistent s) {lock : Lock} (owns : s.db.owner lock = some txn) :
    (s.calls txn).isOpen ∧ lock.rank < (s.calls txn).rank txn := by
  cases lock with
  | event key =>
    obtain ⟨⟨_, effect⟩, held, rfl⟩ := Option.map_eq_some_iff.mp owns
    exact Call.rank_of_event ((consistent.events _ _ _).mp held)
  | quota key =>
    obtain ⟨⟨_, effect⟩, held, rfl⟩ := Option.map_eq_some_iff.mp owns
    exact Call.rank_of_quota ((consistent.quotas _ _ _).mp held)
  | rollup key =>
    obtain ⟨⟨_, effect⟩, held, rfl⟩ := Option.map_eq_some_iff.mp owns
    exact Call.rank_of_rollup ((consistent.rollups _ _ _).mp held)

/-- A key that no other transaction owns is free. -/
theorem RowTable.free_of_owner {Key Row : Type} [DecidableEq Key] {table : RowTable CallId Key Row} {key : Key}
    (free : ∀ owner, (table.holds.lookup key).map Hold.owner = some owner → owner = txn) : table.Free txn key := by
  intro hold held
  exact free hold.owner (Option.map_eq_some_iff.mpr ⟨hold, held, rfl⟩)

/-- A call that has not ended moves on unless the key it needs is held by another. -/
theorem Call.isSome_advance (running : call.isRunning)
    (free : ∀ lock, call.nextLock txn = some lock → ∀ owner, db.owner lock = some owner → owner = txn) :
    (call.advance txn db).isSome := by
  cases call with
  | idle => contradiction
  | createEvent payload receivedAt phase =>
    rw [advance, Option.isSome_map]
    cases phase with
    | received | begun | quotaLocked | incremented | replayed => rfl
    | answered => contradiction
    | inserting startedAt id =>
      have free := RowTable.free_of_owner (free _ rfl)
      simp only [CreateEvent.advance, Database.insertEventIfNew, if_pos free]
      cases db.events.find (payload.eventKey txn.apiKeyId) <;> rfl
    | inserted row =>
      simp only [CreateEvent.advance]
      cases db.quotaVersion (row.quotaKey txn.apiKeyId) <;> rfl
    | lockingQuota row version =>
      have free := RowTable.free_of_owner (free _ rfl)
      simp only [CreateEvent.advance, Database.lockQuota, if_pos free]
      cases db.latestVersion (row.quotaKey txn.apiKeyId) version <;> rfl
    | judging row quotaState =>
      by_cases rejected : CreateEvent.Rejected quotaState row
      · simp only [CreateEvent.advance, if_pos rejected, Option.isSome_some]
      · have free := RowTable.free_of_owner (free _ (if_neg rejected))
        simp only [CreateEvent.advance, if_neg rejected, Database.incrementUsageRollup, if_pos free,
          Option.isSome_some]
    | conflicted =>
      simp only [CreateEvent.advance]
      cases db.findEventByIdempotencyKey (payload.eventKey txn.apiKeyId) <;> rfl
  | upsertQuota payload phase =>
    rw [advance, Option.isSome_map]
    cases phase with
    | received | written => rfl
    | answered => contradiction
    | begun =>
      have free := RowTable.free_of_owner (free _ rfl)
      simp only [UpsertQuota.advance, Database.upsertQuota, if_pos free, Option.isSome_some]
  | deleteQuota params phase =>
    rw [advance, Option.isSome_map]
    cases phase with
    | received | removed => rfl
    | answered => contradiction
    | begun =>
      simp only [DeleteQuota.advance]
      cases db.quotaVersion (params.quotaKey txn.apiKeyId) <;> rfl
    | deleting version =>
      have free := RowTable.free_of_owner (free _ rfl)
      simp only [DeleteQuota.advance, Database.deleteQuota, if_pos free]
      cases db.latestVersion (params.quotaKey txn.apiKeyId) version <;> rfl
  | listQuotas phase =>
    rw [advance, Option.isSome_map]
    cases phase with
    | received | begun | read => rfl
    | answered => contradiction
  | getUsage query phase =>
    rw [advance, Option.isSome_map]
    cases phase with
    | received | begun | read => rfl
    | answered => contradiction
  | getDailyUsage date receivedAt phase =>
    rw [advance, Option.isSome_map]
    cases phase with
    | received =>
      simp only [GetDailyUsage.advance, Reading.advance]
      cases parseDailyDate date receivedAt <;> rfl
    | begun | read => rfl
    | answered => contradiction
  | exportUsage params phase =>
    rw [advance, Option.isSome_map]
    cases phase with
    | received | begun | prepared | headerSent | streamBegun | streaming => rfl
    | answered => contradiction
    | counted rowCount =>
      by_cases large : maxExportRows < rowCount
      · simp only [ExportUsage.advance, if_pos large, Option.isSome_some]
      · simp only [ExportUsage.advance, if_neg large, Option.isSome_some]

/-- A transaction is opened only where `opens` has it. -/
theorem Call.Advanced.opens {before : Call} (moves : Call.Advanced txn db before after next)
    (isOpen : after.isOpen) : before.isOpen ∨ before.opens := by
  cases moves with
  | createEvent moves => cases moves <;> first | exact .inl rfl | exact .inr rfl
  | upsertQuota moves => cases moves <;> first | exact .inl rfl | exact .inr rfl
  | deleteQuota moves => cases moves <;> first | exact .inl rfl | exact .inr rfl
  | listQuotas moves | getUsage moves => cases moves <;> first | exact .inl rfl | exact .inr rfl
  | getDailyUsage moves =>
    cases moves with
    | opens accepted => exact .inr (by rw [Call.opens, accepted]; rfl)
    | refuses | reads | commits => first | exact .inl rfl | contradiction
  | exportUsage moves => cases moves <;> first | exact .inl rfl | exact .inr rfl | contradiction

end Meterly
