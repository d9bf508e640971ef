import Mathlib.Data.List.Nodup
import Meterly.Auth.Revocation

/-! # How a key with an active row is served

As long as a key has an active row, whatever the guard holds of the key agrees with that row: the entry of the
cache, the rows that were read, and the answers. A call that presents the key with its secret can only be let
through as the principal of the row.
-/

namespace Meterly

/-- Who presents the key of a row. -/
def ApiKeyRecord.principal (record : ApiKeyRecord) : AuthenticatedPrincipal :=
  ⟨record.id, record.rateLimitPerSec, record.scope⟩

theorem keyIds_revokeKey (now : ℚ) (keyId : String) (apiKeys : List ApiKeyRecord) :
    (revokeKey now keyId apiKeys).map ApiKeyRecord.keyId = apiKeys.map ApiKeyRecord.keyId := by
  rw [revokeKey, List.map_map]
  apply List.map_congr_left
  intro record _
  show (if record.keyId = keyId then _ else record).keyId = record.keyId
  split <;> rfl

theorem of_findActiveKeyByKeyId {apiKeys : List ApiKeyRecord} {keyId : String} {record : ApiKeyRecord}
    (found : findActiveKeyByKeyId apiKeys keyId = some record) : record.keyId = keyId ∧ record.revokedAt = none := by
  simpa [findActiveKeyByKeyId] using List.find?_some found

/-- A row that is there alone under its key, and active, is the one that is found. -/
theorem findActiveKeyByKeyId_eq_some {apiKeys : List ApiKeyRecord} (distinct : (apiKeys.map ApiKeyRecord.keyId).Nodup)
    {record : ApiKeyRecord} (member : record ∈ apiKeys) (active : record.revokedAt = none) :
    findActiveKeyByKeyId apiKeys record.keyId = some record := by
  obtain ⟨found, there⟩ : ∃ found, findActiveKeyByKeyId apiKeys record.keyId = some found := by
    rw [← Option.ne_none_iff_exists', Ne, findActiveKeyByKeyId_eq_none_iff]
    exact fun inactive => inactive record member rfl active
  obtain ⟨named, -⟩ := of_findActiveKeyByKeyId there
  have same : found = record := List.inj_on_of_nodup_map distinct (List.mem_of_find?_eq_some there) member named
  rw [there, same]

/-- A row that is found is found among more rows as well. -/
theorem findActiveKeyByKeyId_append {apiKeys : List ApiKeyRecord} {keyId : String} {record : ApiKeyRecord}
    (found : findActiveKeyByKeyId apiKeys keyId = some record) (more : List ApiKeyRecord) :
    findActiveKeyByKeyId (apiKeys ++ more) keyId = some record := by
  rw [findActiveKeyByKeyId] at found ⊢
  rw [List.find?_append, found, Option.some_or]

/-- Revoking another key leaves the row of a key as it is. -/
theorem findActiveKeyByKeyId_revokeKey_of_ne {apiKeys : List ApiKeyRecord} {keyId other : String}
    {record : ApiKeyRecord} (found : findActiveKeyByKeyId apiKeys keyId = some record) (different : other ≠ keyId)
    (now : ℚ) : findActiveKeyByKeyId (revokeKey now other apiKeys) keyId = some record := by
  have same : ∀ row : ApiKeyRecord,
      decide ((if row.keyId = other then { row with revokedAt := some now } else row).keyId = keyId ∧
        (if row.keyId = other then { row with revokedAt := some now } else row).revokedAt = none) =
      decide (row.keyId = keyId ∧ row.revokedAt = none) := by
    intro row
    split_ifs with named
    · simp [named, different]
    · rfl
  have kept : record.keyId ≠ other := (of_findActiveKeyByKeyId found).1.trans_ne different.symm
  rw [findActiveKeyByKeyId] at found ⊢
  rw [revokeKey, List.find?_map]
  simp only [Function.comp_def, same, found, Option.map_some, if_neg kept]

/-- What verification makes of a row is the principal of the row. -/
theorem principal_of_verifyRecord {crypto : Crypto} {parsed : ParsedApiKey} {record : ApiKeyRecord}
    {principal : AuthenticatedPrincipal} (verified : verifyRecord crypto parsed (some record) = some principal) :
    principal = record.principal := by
  rw [verifyRecord] at verified
  split_ifs at verified
  exact (Option.some.inj verified).symm

namespace RequireApiKey

variable {crypto : Crypto} {ttlSeconds : ℤ} {s next : State} {a : Action} {id : ℕ} {call : Call}

/-! ## What the guard knows of keys without rows -/

/-- The guard holds nothing of a key that has never had a row. -/
structure Known (s : State) : Prop where
  cache : ∀ keyId entry, s.cache keyId = some entry → keyId ∈ s.apiKeys.map ApiKeyRecord.keyId
  selected : ∀ id call presented record, s.calls id = some call → call.phase = .selected presented (some record) →
    presented.parsed.keyId ∈ s.apiKeys.map ApiKeyRecord.keyId

theorem Known.init (apiKeys : List ApiKeyRecord) : Known (init apiKeys) where
  cache _ _ held := by contradiction
  selected _ _ _ _ place := by contradiction

theorem Known.record (known : Known s) {cache : VerificationCache}
    (cached : ∀ keyId entry, cache keyId = some entry →
      s.cache keyId = some entry ∨ keyId ∈ s.apiKeys.map ApiKeyRecord.keyId)
    (selected : ∀ presented record, call.phase = .selected presented (some record) →
      presented.parsed.keyId ∈ s.apiKeys.map ApiKeyRecord.keyId) : Known (s.record id call cache) where
  cache keyId entry held := by
    rcases cached keyId entry held with before | new
    · exact known.cache keyId entry before
    · exact new
  selected other there presented record place phase := by
    rcases State.calls_record_cases place with ⟨-, rfl⟩ | ⟨-, before⟩
    · exact selected presented record phase
    · exact known.selected other there presented record before phase

theorem Known.stepped (known : Known s) (steps : Stepped crypto ttlSeconds s a next)
    (grows : s.apiKeys.map ApiKeyRecord.keyId ⊆ next.apiKeys.map ApiKeyRecord.keyId) : Known next := by
  cases steps with
  | start fresh looked =>
    apply known.record (fun keyId entry held => .inl (looked.held held))
    intro presented record phase
    cases looked <;> contradiction
  | select waiting =>
    apply known.record (fun keyId entry held => .inl held)
    intro other record phase
    obtain ⟨rfl, found⟩ := Phase.selected.inj phase
    obtain ⟨named, -⟩ := of_findActiveKeyByKeyId found
    rw [← named]
    exact List.mem_map_of_mem (List.mem_of_find?_eq_some found)
  | @verify id header startedAt presented record phase cache waiting concluded =>
    refine known.record (fun keyId entry held => ?_) fun presented record phase => ?_
    · rcases concluded.held held with before | ⟨rfl, principal, right, -⟩
      · exact .inl before
      · cases record with
        | none => contradiction
        | some record => exact .inr (known.selected id _ presented record waiting rfl)
    · cases concluded <;> contradiction
  | interrupt running waiting =>
    exact known.record (fun keyId entry held => .inl held) fun _ _ phase => by contradiction
  | invalidate =>
    exact ⟨fun keyId entry held => known.cache keyId entry (VerificationCache.held_of_invalidate held), known.selected⟩
  | revoke | rewrite =>
    exact ⟨fun keyId entry held => grows (known.cache keyId entry held),
      fun id call presented record place phase => grows (known.selected id call presented record place phase)⟩
  | tick => exact ⟨known.cache, known.selected⟩

/-! ## A key with an active row -/

/-- The header of a call presents a key with this secret. -/
def Call.Presents (parsed : ParsedApiKey) (call : Call) : Prop :=
  ∃ presented : PresentedKey, extractBearerToken call.header = some presented.presentedKey ∧ presented.parsed = parsed

theorem Call.Presents.parsed_eq {parsed : ParsedApiKey} {presented : PresentedKey} (presents : call.Presents parsed)
    (token : extractBearerToken call.header = some presented.presentedKey) : presented.parsed = parsed := by
  obtain ⟨other, found, rfl⟩ := presents
  exact PresentedKey.parsed_eq (Option.some.inj (token.symm.trans found))

/-- A call is let through as the principal of a row, or is on its way there. -/
def Call.Admitted (record : ApiKeyRecord) (call : Call) : Prop :=
  match call.phase with
  | .missed _ | .interrupted => True
  | .selected _ found => found = some record
  | .answered (.ok principal) _ => principal = record.principal
  | .answered (.error _) _ => False

/-- A key has an active row, and the guard holds nothing else of it; the late calls that present it with its
secret are admitted. -/
structure Active (late : ℕ → Prop) (parsed : ParsedApiKey) (record : ApiKeyRecord) (s : State) : Prop where
  orderly : Orderly s
  row : findActiveKeyByKeyId s.apiKeys parsed.keyId = some record
  cache : ∀ entry, s.cache parsed.keyId = some entry → entry.principal = record.principal
  selected : ∀ id call presented found, s.calls id = some call → call.phase = .selected presented (some found) →
    presented.parsed.keyId = parsed.keyId → found = record
  admitted : ∀ id call, s.calls id = some call → late id → call.Presents parsed → call.Admitted record

variable {late : ℕ → Prop} {parsed : ParsedApiKey} {row : ApiKeyRecord}

theorem Active.record (active : Active late parsed row s) {cache : VerificationCache}
    (orderly : Orderly (s.record id call cache))
    (cached : ∀ entry, cache parsed.keyId = some entry →
      s.cache parsed.keyId = some entry ∨ entry.principal = row.principal)
    (selected : ∀ presented found, call.phase = .selected presented (some found) →
      presented.parsed.keyId = parsed.keyId → found = row)
    (admitted : late id → call.Presents parsed → call.Admitted row) :
    Active late parsed row (s.record id call cache) where
  orderly := orderly
  row := active.row
  cache entry held := by
    rcases cached entry held with before | new
    · exact active.cache entry before
    · exact new
  selected other there presented found place phase := by
    rcases State.calls_record_cases place with ⟨-, rfl⟩ | ⟨-, before⟩
    · exact selected presented found phase
    · exact active.selected other there presented found before phase
  admitted other there place := by
    rcases State.calls_record_cases place with ⟨rfl, rfl⟩ | ⟨-, before⟩
    · exact admitted
    · exact active.admitted other there before

theorem Active.stepped (active : Active late parsed row s) (steps : Stepped crypto ttlSeconds s a next)
    (fits : crypto.verifySecret parsed.secret row.secretHash)
    (kept : findActiveKeyByKeyId next.apiKeys parsed.keyId = some row) : Active late parsed row next := by
  have orderly := active.orderly.step steps
  cases steps with
  | start fresh looked =>
    refine active.record orderly (fun entry held => .inl (looked.held held)) ?_ ?_
    · intro presented found phase
      cases looked <;> contradiction
    · intro _ presents
      cases looked with
      | noToken missing =>
        obtain ⟨presented, token, -⟩ := presents
        rw [show extractBearerToken _ = none from missing] at token
        contradiction
      | malformed token bad =>
        obtain ⟨presented, other, -⟩ := presents
        obtain rfl := Option.some.inj (token.symm.trans other)
        rw [presented.wellFormed] at bad
        contradiction
      | hit token live matching =>
        have same := presents.parsed_eq token
        exact active.cache _ (same ▸ (VerificationCache.live_eq_some_iff.mp live).1)
      | miss => trivial
  | @select id header startedAt presented waiting =>
    refine active.record orderly (fun entry held => .inl held) ?_ ?_
    · intro other found phase named
      obtain ⟨rfl, read⟩ := Phase.selected.inj phase
      rw [named, active.row] at read
      exact (Option.some.inj read).symm
    · intro _ presents
      have token : extractBearerToken header = some presented.presentedKey := active.orderly.parsed id _ waiting
      show findActiveKeyByKeyId s.apiKeys presented.parsed.keyId = some row
      rw [presents.parsed_eq token]
      exact active.row
  | @verify id header startedAt presented read phase cache waiting concluded =>
    refine active.record orderly ?_ ?_ ?_
    · intro entry held
      rcases concluded.held held with before | ⟨named, principal, right, rfl⟩
      · exact .inl before
      · cases read with
        | none => contradiction
        | some found =>
          obtain rfl := active.selected id _ presented found waiting rfl named.symm
          exact .inr (principal_of_verifyRecord right)
    · intro other found phase
      cases concluded <;> contradiction
    · intro new presents
      have token : extractBearerToken header = some presented.presentedKey := active.orderly.parsed id _ waiting
      have own : presented.parsed = parsed := presents.parsed_eq token
      obtain rfl : read = some row := active.admitted id _ waiting new presents
      cases concluded with
      | refused wrong =>
        rw [own, verifyRecord, if_pos fits] at wrong
        contradiction
      | verified right => exact principal_of_verifyRecord right
  | interrupt running waiting =>
    exact active.record orderly (fun entry held => .inl held) (fun _ _ phase => by contradiction) fun _ _ => trivial
  | invalidate =>
    exact ⟨orderly, kept, fun entry held => active.cache entry (VerificationCache.held_of_invalidate held),
      active.selected, active.admitted⟩
  | revoke | rewrite | tick => exact ⟨orderly, kept, active.cache, active.selected, active.admitted⟩

/-- A row that has just come in for a key without rows is all that the guard will find of it. -/
theorem Known.active (known : Known s) (orderly : Orderly s) (new : parsed.keyId ∉ s.apiKeys.map ApiKeyRecord.keyId)
    {apiKeys : List ApiKeyRecord} (found : findActiveKeyByKeyId apiKeys parsed.keyId = some row)
    (fresh : ∀ id, late id → s.calls id = none) : Active late parsed row { s with apiKeys } where
  orderly := ⟨orderly.parsed, orderly.stamped⟩
  row := found
  cache entry held := absurd (known.cache _ entry held) new
  selected id call presented found place phase named := by
    have there := known.selected id call presented found place phase
    rw [named] at there
    exact absurd there new
  admitted id call place late := by
    have nothing := (fresh id late).symm.trans place
    contradiction

end RequireApiKey

end Meterly
