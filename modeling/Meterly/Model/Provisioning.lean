import Meterly.Auth.SplitToken
import Meterly.Model.Application

/-! # Provisioning keys

`seed_api_key.py` is the only way that a row gets into `api_keys`. It draws a token, stores the hash of its
secret in a transaction of its own, and prints the token behind the commit. An operator revokes a key. Both
happen while any number of requests are on their way through the application.
-/

namespace Meterly

/-- The rows of `api_keys`, with the sequence of their ids. -/
structure KeyTable where
  rows : List ApiKeyRecord
  nextId : ℕ

/-- `create_api_key`, with the id that it returns. The driver refuses a rate that is no `INTEGER`, and
`uq_api_keys_key_id` refuses a `key_id` that is there, with the id of the row already drawn. -/
def KeyTable.createApiKey (table : KeyTable) (keyId secretHash : String) (rateLimitPerSec : ℤ) (scope : Scope) :
    KeyTable × Option ℕ :=
  if -2 ^ 31 ≤ rateLimitPerSec ∧ rateLimitPerSec < 2 ^ 31 then
    if keyId ∈ table.rows.map ApiKeyRecord.keyId then (⟨table.rows, table.nextId + 1⟩, none)
    else (⟨table.rows ++ [⟨table.nextId, keyId, secretHash, rateLimitPerSec, none, scope⟩], table.nextId + 1⟩,
      some table.nextId)
  else (table, none)

/-- A run of `seed_api_key.py`: its arguments, the bytes that it draws, and the salt of the hash. -/
structure Seeding where
  rateLimitPerSec : ℤ
  admin : Bool
  keyIdBytes : Vector (BitVec 8) 16
  secretBytes : Vector (BitVec 8) 32
  salt : String

namespace Seeding

variable (seeding : Seeding)

/-- The halves of the token. -/
def parsed : ParsedApiKey := ⟨tokenHex seeding.keyIdBytes, tokenHex seeding.secretBytes⟩

/-- `"admin" if admin else "ingest"` -/
def scope : Scope := if seeding.admin then .admin else .ingest

/-- The row under an id, and when it is revoked. -/
def record (hashNewSecret : String → String → String) (id : ℕ) (revokedAt : Option ℚ) : ApiKeyRecord :=
  ⟨id, seeding.parsed.keyId, hashNewSecret seeding.salt seeding.parsed.secret, seeding.rateLimitPerSec, revokedAt,
    seeding.scope⟩

end Seeding

/-- `_seed`, with the id of the row and what is printed; `hashNewSecret` takes the salt that it draws. -/
def seed (hashNewSecret : String → String → String) (table : KeyTable) (seeding : Seeding) :
    KeyTable × Option (ℕ × String) :=
  let (keyId, secret, presentedKey) := generateSplitToken seeding.keyIdBytes seeding.secretBytes
  let (table, created) :=
    table.createApiKey keyId (hashNewSecret seeding.salt secret) seeding.rateLimitPerSec seeding.scope
  (table, created.map fun id => (id, presentedKey))

namespace Provisioning

/-- The application, with the next id of `api_keys`. -/
structure State where
  application : Application.State
  nextKeyId : ℕ

inductive Action where
  | seed (seeding : Seeding)
  | revoke (keyId : String) (revokedAt : ℚ)
  | serve (a : Application.Action)

/-- No key has been provisioned yet. -/
def State.init (db : Database) : State := ⟨.init [] db, 1⟩

def State.keys (s : State) : KeyTable := ⟨s.application.apiKeys, s.nextKeyId⟩

/-- The rows change only here. -/
def isServing : Application.Action → Bool
  | .commitKeys _ => false
  | _ => true

/-- Execute one action, if it is enabled. -/
def step (env : Application.Environment) (hashNewSecret : String → String → String) (s : State) : Action → Option State
  | .seed seeding =>
    let keys := (Meterly.seed hashNewSecret s.keys seeding).1
    (Application.step env s.application (.commitKeys keys.rows)).map fun application => ⟨application, keys.nextId⟩
  | .revoke keyId revokedAt =>
    let rows := revokeKey revokedAt keyId s.application.apiKeys
    (Application.step env s.application (.commitKeys rows)).map fun application => ⟨application, s.nextKeyId⟩
  | .serve a =>
    if isServing a then (Application.step env s.application a).map fun application => ⟨application, s.nextKeyId⟩
    else none

variable {env : Application.Environment} {hashNewSecret : String → String → String} {s next : State} {a : Action}
  {id : ℕ} {seeding : Seeding}

/-- All rows committed to a table, which every task reads from then on. -/
def State.commit (s : State) (rows : List ApiKeyRecord) : Application.State :=
  { s.application with guards := fun task => { s.application.guards task with apiKeys := rows } }

/-- What one action does to the state. -/
inductive Stepped (env : Application.Environment) (hashNewSecret : String → String → String) (s : State) :
    Action → State → Prop
  | seeds {seeding : Seeding} {keys : KeyTable} (stores : (Meterly.seed hashNewSecret s.keys seeding).1 = keys) :
      Stepped env hashNewSecret s (.seed seeding) ⟨s.commit keys.rows, keys.nextId⟩
  | revokes {keyId : String} {revokedAt : ℚ} : Stepped env hashNewSecret s (.revoke keyId revokedAt)
      ⟨s.commit (revokeKey revokedAt keyId s.application.apiKeys), s.nextKeyId⟩
  | serves {a : Application.Action} {application : Application.State} (serving : isServing a)
      (moves : Application.step env s.application a = some application) :
      Stepped env hashNewSecret s (.serve a) ⟨application, s.nextKeyId⟩

theorem stepped_of_step (steps : step env hashNewSecret s a = some next) : Stepped env hashNewSecret s a next := by
  cases a with
  | seed seeding =>
    obtain rfl := Option.some.inj steps
    exact .seeds rfl
  | revoke keyId revokedAt =>
    obtain rfl := Option.some.inj steps
    exact .revokes
  | serve a =>
    simp only [step] at steps
    split_ifs at steps with serving
    obtain ⟨application, moves, rfl⟩ := Option.map_eq_some_iff.mp steps
    exact .serves serving moves

/-- A seeding stores its row and prints its token, or it prints nothing and leaves the rows as they are. -/
theorem seed_cases (hashNewSecret : String → String → String) (table : KeyTable) (seeding : Seeding) :
    seeding.parsed.keyId ∉ table.rows.map ApiKeyRecord.keyId ∧ Meterly.seed hashNewSecret table seeding =
        (⟨table.rows ++ [seeding.record hashNewSecret table.nextId none], table.nextId + 1⟩,
          some (table.nextId, seeding.parsed.presentedKey)) ∨
      ∃ nextId, table.nextId ≤ nextId ∧ Meterly.seed hashNewSecret table seeding = (⟨table.rows, nextId⟩, none) := by
  have unfolded : Meterly.seed hashNewSecret table seeding =
      ((table.createApiKey seeding.parsed.keyId (hashNewSecret seeding.salt seeding.parsed.secret)
          seeding.rateLimitPerSec seeding.scope).1,
        (table.createApiKey seeding.parsed.keyId (hashNewSecret seeding.salt seeding.parsed.secret)
          seeding.rateLimitPerSec seeding.scope).2.map fun id => (id, seeding.parsed.presentedKey)) := rfl
  rw [unfolded, KeyTable.createApiKey]
  split_ifs with fits taken
  · exact .inr ⟨table.nextId + 1, Nat.le_succ _, rfl⟩
  · exact .inl ⟨taken, rfl⟩
  · exact .inr ⟨table.nextId, Nat.le_refl _, rfl⟩

end Provisioning

end Meterly
