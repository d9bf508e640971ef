import Mathlib.Algebra.Order.Field.Rat
import Meterly.Model.Schema

/-! # Split-token API keys

A key is presented as `mtr_live_<key_id>_<secret>`. Its public half finds the active row of
`api_keys`, and the secret is checked against the hash stored there. Both hash functions are outside
the repository: they are parameters.
-/

namespace Meterly

/-- `sha256_digest` and `verify_secret` -/
structure Crypto where
  sha256Digest : String → String
  verifySecret : String → String → Bool

/-- `api_keys.scope`, which its check constraint confines to two values. -/
inductive Scope where
  | ingest
  | admin
deriving DecidableEq, Repr

/-- `ParsedApiKey` -/
structure ParsedApiKey where
  keyId : String
  secret : String
deriving DecidableEq, Repr

/-- `AuthenticatedPrincipal` -/
structure AuthenticatedPrincipal where
  apiKeyId : ℕ
  rateLimitPerSec : ℤ
  scope : Scope
deriving DecidableEq, Repr

/-- A row of `api_keys`, as `ApiKeyRecord` has it. -/
structure ApiKeyRecord where
  id : ℕ
  keyId : String
  secretHash : String
  rateLimitPerSec : ℤ
  revokedAt : Option ℚ
  scope : Scope
deriving DecidableEq, Repr

/-- `parse_split_token`. Neither class of the pattern holds the underscore, so a match takes the
longest runs; its `$` also matches before a final newline. -/
def parseSplitToken (presentedKey : String) : Option ParsedApiKey :=
  if "mtr_live_".toList.isPrefixOf presentedKey.toList then
    let rest := presentedKey.toList.drop "mtr_live_".length
    let keyId := rest.takeWhile Char.isAlphanum
    match rest.dropWhile Char.isAlphanum with
    | '_' :: tail =>
      let secret := tail.takeWhile Char.isAlphanum
      let remainder := tail.dropWhile Char.isAlphanum
      if (1 ≤ keyId.length ∧ keyId.length ≤ 32) ∧ (1 ≤ secret.length ∧ secret.length ≤ 64) ∧
          (remainder = [] ∨ remainder = ['\n']) then
        some ⟨String.ofList keyId, String.ofList secret⟩
      else none
    | _ => none
  else none

/-- `find_active_key_by_key_id`, on the committed rows. -/
def findActiveKeyByKeyId (apiKeys : List ApiKeyRecord) (keyId : String) : Option ApiKeyRecord :=
  apiKeys.find? fun record => record.keyId = keyId ∧ record.revokedAt = none

/-- What `verify_api_key` makes of the row it was given. -/
def verifyRecord (crypto : Crypto) (parsed : ParsedApiKey) : Option ApiKeyRecord → Option AuthenticatedPrincipal
  | none => none
  | some record =>
    if crypto.verifySecret parsed.secret record.secretHash then
      some ⟨record.id, record.rateLimitPerSec, record.scope⟩
    else none

/-- `verify_api_key` -/
def verifyApiKey (crypto : Crypto) (apiKeys : List ApiKeyRecord) (presentedKey : String) :
    Option AuthenticatedPrincipal :=
  match parseSplitToken presentedKey with
  | none => none
  | some parsed => verifyRecord crypto parsed (findActiveKeyByKeyId apiKeys parsed.keyId)

/-- The commit that sets `revoked_at` on the rows of a key. -/
def revokeKey (now : ℚ) (keyId : String) (apiKeys : List ApiKeyRecord) : List ApiKeyRecord :=
  apiKeys.map fun record => if record.keyId = keyId then { record with revokedAt := some now } else record

theorem findActiveKeyByKeyId_eq_none_iff {apiKeys : List ApiKeyRecord} {keyId : String} :
    findActiveKeyByKeyId apiKeys keyId = none ↔ ∀ record ∈ apiKeys, record.keyId = keyId → record.revokedAt ≠ none := by
  simp [findActiveKeyByKeyId, List.find?_eq_none]

/-- Revoking another key activates none. -/
theorem findActiveKeyByKeyId_revokeKey_of_none {apiKeys : List ApiKeyRecord} {keyId : String}
    (inactive : findActiveKeyByKeyId apiKeys keyId = none) (now : ℚ) (other : String) :
    findActiveKeyByKeyId (revokeKey now other apiKeys) keyId = none := by
  rw [findActiveKeyByKeyId_eq_none_iff] at inactive ⊢
  intro record member named
  obtain ⟨row, present, rfl⟩ := List.mem_map.mp member
  split_ifs at named ⊢ with same
  · exact Option.some_ne_none _
  · exact inactive row present named

end Meterly
