import Meterly.Model.Repositories
import Meterly.Model.Services.Reading

/-! # `upsert_tenant_quota`, `delete_tenant_quota`, `list_tenant_quotas`

Each is one transaction around one statement. The status of the answer is decided by what that
statement returned, after the commit.
-/

namespace Meterly

/-- `QuotaUpsertOutcome` -/
structure QuotaUpsertOutcome where
  customerId : String
  metric : String
  limitPerWindow : LimitPerWindow
  httpStatus : ℕ
deriving DecidableEq, Repr

/-- `QuotaResponse` -/
structure QuotaResponse where
  customerId : String
  metric : String
  limitPerWindow : LimitPerWindow
deriving DecidableEq, Repr

/-- The 404 of `delete_tenant_quota`. -/
def quotaNotFound : ServiceError := .http ⟨404, none, "quota not found", []⟩

/-- The key a tenant's request names. -/
def QuotaPutRequest.quotaKey (payload : QuotaPutRequest) (apiKeyId : ℕ) : QuotaKey :=
  ⟨apiKeyId, payload.customerId, payload.metric⟩

@[inherit_doc QuotaPutRequest.quotaKey]
def QuotaDeleteParams.quotaKey (params : QuotaDeleteParams) (apiKeyId : ℕ) : QuotaKey :=
  ⟨apiKeyId, params.customerId, params.metric⟩

namespace UpsertQuota

inductive Phase where
  | received
  | begun
  | written (record : QuotaRecord) (row : QuotaRow)
  | answered (outcome : Except ServiceError QuotaUpsertOutcome)

/-- One step of `upsert_tenant_quota`. -/
def advance (txn : CallId) (payload : QuotaPutRequest) : Phase → Database → Option (Phase × Database)
  | .received, db => some (.begun, db)
  | .begun, db =>
    match db.upsertQuota txn (payload.quotaKey txn.apiKeyId) payload.limitPerWindow with
    | none => none
    | some (record, row, db) => some (.written record row, db)
  | .written record _, db =>
    some (.answered (.ok ⟨record.customerId, record.metric, record.limitPerWindow,
      if record.inserted then 201 else 200⟩), db.commit txn)
  | .answered _, _ => none

/-- Everything that one step of `upsert_tenant_quota` can do. -/
inductive Advanced (txn : CallId) (payload : QuotaPutRequest) (db : Database) : Phase → Phase → Database → Prop
  | opens : Advanced txn payload db .received .begun db
  | inserts (free : db.quotas.Free txn (payload.quotaKey txn.apiKeyId))
      (absent : db.quotas.find (payload.quotaKey txn.apiKeyId) = none) :
      Advanced txn payload db .begun
        (.written ⟨payload.customerId, payload.metric, payload.limitPerWindow, true⟩
          ⟨payload.limitPerWindow, some txn⟩)
        { db with
          quotas := db.quotas.hold txn (payload.quotaKey txn.apiKeyId)
            (.write ⟨payload.limitPerWindow, some txn⟩) }
  | replaces {before : QuotaRow} (free : db.quotas.Free txn (payload.quotaKey txn.apiKeyId))
      (found : db.quotas.find (payload.quotaKey txn.apiKeyId) = some before) :
      Advanced txn payload db .begun
        (.written ⟨payload.customerId, payload.metric, payload.limitPerWindow, false⟩
          ⟨payload.limitPerWindow, before.insertedBy⟩)
        { db with
          quotas := db.quotas.hold txn (payload.quotaKey txn.apiKeyId)
            (.write ⟨payload.limitPerWindow, before.insertedBy⟩) }
  | commits {record : QuotaRecord} {row : QuotaRow} :
      Advanced txn payload db (.written record row)
        (.answered (.ok ⟨record.customerId, record.metric, record.limitPerWindow,
          if record.inserted then 201 else 200⟩)) (db.commit txn)

theorem advanced_of_advance {txn : CallId} {payload : QuotaPutRequest} {phase after : Phase} {db next : Database}
    (moves : advance txn payload phase db = some (after, next)) : Advanced txn payload db phase after next := by
  cases phase with
  | received =>
    obtain ⟨rfl, rfl⟩ := moves
    exact .opens
  | begun =>
    simp only [advance, Database.upsertQuota] at moves
    split_ifs at moves with free
    cases found : db.quotas.find (payload.quotaKey txn.apiKeyId) with
    | none =>
      simp only [found, Option.some.injEq, Prod.mk.injEq] at moves
      obtain ⟨rfl, rfl⟩ := moves
      exact .inserts free found
    | some before =>
      simp only [found, Option.some.injEq, Prod.mk.injEq] at moves
      obtain ⟨rfl, rfl⟩ := moves
      exact .replaces free found
  | written record row =>
    obtain ⟨rfl, rfl⟩ := moves
    exact .commits
  | answered outcome => contradiction

end UpsertQuota

namespace DeleteQuota

inductive Phase where
  | received
  | begun
  | deleting (version : Option CallId)
  | removed (found : Bool)
  | answered (outcome : Except ServiceError Unit)

/-- One step of `delete_tenant_quota`: the snapshot of the `DELETE`, its execution, then the commit. -/
def advance (txn : CallId) (params : QuotaDeleteParams) : Phase → Database → Option (Phase × Database)
  | .received, db => some (.begun, db)
  | .begun, db =>
    match db.quotaVersion (params.quotaKey txn.apiKeyId) with
    | none => some (.removed false, db)
    | some version => some (.deleting version, db)
  | .deleting version, db =>
    match db.deleteQuota txn (params.quotaKey txn.apiKeyId) version with
    | none => none
    | some (found, db) => some (.removed found, db)
  | .removed found, db => some (.answered (if found then .ok () else .error quotaNotFound), db.commit txn)
  | .answered _, _ => none

/-- Everything that one step of `delete_tenant_quota` can do. -/
inductive Advanced (txn : CallId) (params : QuotaDeleteParams) (db : Database) : Phase → Phase → Database → Prop
  | opens : Advanced txn params db .received .begun db
  | seesNothing (absent : db.quotaVersion (params.quotaKey txn.apiKeyId) = none) :
      Advanced txn params db .begun (.removed false) db
  | sees {version : Option CallId} (seen : db.quotaVersion (params.quotaKey txn.apiKeyId) = some version) :
      Advanced txn params db .begun (.deleting version) db
  | loses {version : Option CallId} (free : db.quotas.Free txn (params.quotaKey txn.apiKeyId))
      (gone : db.latestVersion (params.quotaKey txn.apiKeyId) version = none) :
      Advanced txn params db (.deleting version) (.removed false) db
  | removes {version : Option CallId} {quota : QuotaRow}
      (free : db.quotas.Free txn (params.quotaKey txn.apiKeyId))
      (latest : db.latestVersion (params.quotaKey txn.apiKeyId) version = some quota) :
      Advanced txn params db (.deleting version) (.removed true)
        { db with quotas := db.quotas.hold txn (params.quotaKey txn.apiKeyId) .erase }
  | commits {found : Bool} :
      Advanced txn params db (.removed found) (.answered (if found then .ok () else .error quotaNotFound))
        (db.commit txn)

theorem advanced_of_advance {txn : CallId} {params : QuotaDeleteParams} {phase after : Phase}
    {db next : Database} (moves : advance txn params phase db = some (after, next)) :
    Advanced txn params db phase after next := by
  cases phase with
  | received =>
    obtain ⟨rfl, rfl⟩ := moves
    exact .opens
  | begun =>
    simp only [advance] at moves
    split at moves
    · next absent =>
      obtain ⟨rfl, rfl⟩ := moves
      exact .seesNothing absent
    · next seen =>
      obtain ⟨rfl, rfl⟩ := moves
      exact .sees seen
  | deleting version =>
    simp only [advance, Database.deleteQuota] at moves
    split_ifs at moves with free
    cases latest : db.latestVersion (params.quotaKey txn.apiKeyId) version with
    | none =>
      simp only [latest, Option.some.injEq, Prod.mk.injEq] at moves
      obtain ⟨rfl, rfl⟩ := moves
      exact .loses free latest
    | some quota =>
      simp only [latest, Option.some.injEq, Prod.mk.injEq] at moves
      obtain ⟨rfl, rfl⟩ := moves
      exact .removes free latest
  | removed found =>
    obtain ⟨rfl, rfl⟩ := moves
    exact .commits
  | answered outcome => contradiction

end DeleteQuota

namespace ListQuotas

abbrev Phase := Reading.Phase Unit (List QuotaListItem) (List QuotaResponse)

/-- The one statement of `list_tenant_quotas`. -/
def statement (apiKeyId : ℕ) (_ : Unit) (db : Database) : List QuotaListItem := db.listQuotas apiKeyId

def respond (_ : Unit) (rows : List QuotaListItem) : List QuotaResponse :=
  rows.map fun row => ⟨row.customerId, row.metric, row.limitPerWindow⟩

/-- One step of `list_tenant_quotas`. -/
def advance (txn : CallId) : Phase → Database → Option (Phase × Database) :=
  Reading.advance txn (.ok ()) (statement txn.apiKeyId) respond

end ListQuotas

end Meterly
