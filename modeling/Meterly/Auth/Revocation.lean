import Meterly.Auth.CachedGuard

/-! # How long a revoked key is served

After the commit that revokes a key no row of it is read any more, so it is answered from the cache
alone, and an entry is answered for the time to live from its stamp. The stamp is taken when the
entry is put, after the slow check, and not when the row was read: a verification that is under way
across the revocation stamps its entry later than the commit.
-/

namespace Meterly.RequireApiKey

open Machine

variable {crypto : Crypto} {ttlSeconds : ℤ} {source middle s next final : State} {schedule earlier later : List Action}
  {a : Action} {id : ℕ} {call : Call} {keyId : String} {time : ℚ}

/-- The header of a call names a key. -/
def Call.Names (keyId : String) (call : Call) : Prop :=
  ∃ presented : PresentedKey, extractBearerToken call.header = some presented.presentedKey ∧
    presented.parsed.keyId = keyId

theorem PresentedKey.parsed_eq {presented other : PresentedKey} (same : presented.presentedKey = other.presentedKey) :
    presented.parsed = other.parsed :=
  Option.some.inj (presented.wellFormed.symm.trans ((congrArg parseSplitToken same).trans other.wellFormed))

theorem Call.Names.parsed {presented : PresentedKey} (named : call.Names keyId)
    (token : extractBearerToken call.header = some presented.presentedKey) : presented.parsed.keyId = keyId := by
  obtain ⟨other, found, rfl⟩ := named
  rw [PresentedKey.parsed_eq (Option.some.inj (token.symm.trans found))]

/-- What a call that waits has parsed is what its header presents. -/
def Call.Parsed (call : Call) : Prop :=
  match call.phase with
  | .missed presented | .selected presented _ => extractBearerToken call.header = some presented.presentedKey
  | .answered _ _ | .interrupted => True

/-- A run has parsed the headers of its calls, and stamps no entry ahead of its clock. -/
structure Orderly (s : State) : Prop where
  parsed : ∀ id call, s.calls id = some call → call.Parsed
  stamped : ∀ keyId entry, s.cache keyId = some entry → entry.cachedAt ≤ s.clock

theorem Orderly.record (orderly : Orderly s) {cache : VerificationCache} (own : call.Parsed)
    (stamped : ∀ keyId entry, cache keyId = some entry → s.cache keyId = some entry ∨ entry.cachedAt ≤ s.clock) :
    Orderly (s.record id call cache) := by
  refine ⟨?_, ?_⟩
  · intro other there place
    rcases State.calls_record_cases place with ⟨rfl, rfl⟩ | ⟨-, before⟩
    · exact own
    · exact orderly.parsed other there before
  · intro keyId entry held
    rcases stamped keyId entry held with before | new
    · exact orderly.stamped keyId entry before
    · exact new

theorem Orderly.step (orderly : Orderly s) (steps : Stepped crypto ttlSeconds s a next) : Orderly next := by
  cases steps with
  | start fresh looked =>
    refine orderly.record ?_ fun keyId entry held => .inl (looked.held held)
    cases looked with
    | miss token => exact token
    | noToken | malformed | hit => trivial
  | @select id header startedAt presented waiting =>
    have token : extractBearerToken header = some presented.presentedKey := orderly.parsed id _ waiting
    exact orderly.record token fun keyId entry held => .inl held
  | verify waiting concluded =>
    refine orderly.record ?_ ?_
    · cases concluded <;> trivial
    · intro keyId entry held
      rcases concluded.held held with before | ⟨-, -, -, rfl⟩
      · exact .inl before
      · exact .inr le_rfl
  | interrupt running waiting => exact orderly.record trivial fun keyId entry held => .inl held
  | invalidate =>
    exact ⟨orderly.parsed, fun keyId entry held => orderly.stamped keyId entry (VerificationCache.held_of_invalidate held)⟩
  | revoke | rewrite => exact ⟨orderly.parsed, orderly.stamped⟩
  | tick forward =>
    exact ⟨orderly.parsed, fun keyId entry held => (orderly.stamped keyId entry held).trans (le_add_of_nonneg_right forward)⟩

/-- A call that started late enough is on its way to a refusal. -/
def Call.Unserved (keyId : String) (call : Call) : Prop :=
  match call.phase with
  | .selected _ record => call.Names keyId → record = none
  | .answered (.ok _) _ => ¬ call.Names keyId
  | .missed _ | .answered (.error _) _ | .interrupted => True

/-- Some time after a key was revoked: no row of it is active, no entry of it is stamped after the
revocation, and calls that started more than the time to live after it are not served. -/
structure Revoked (ttlSeconds : ℤ) (middle : State) (keyId : String) (s : State) : Prop where
  orderly : Orderly s
  inactive : findActiveKeyByKeyId s.apiKeys keyId = none
  stamped : ∀ entry, s.cache keyId = some entry → entry.cachedAt ≤ middle.clock
  unserved : ∀ id call, s.calls id = some call → middle.calls id = none →
    middle.clock + ttlSeconds < call.startedAt → call.Unserved keyId

theorem Revoked.record (revoked : Revoked ttlSeconds middle keyId s) {cache : VerificationCache}
    (orderly : Orderly (s.record id call cache))
    (own : middle.calls id = none → middle.clock + ttlSeconds < call.startedAt → call.Unserved keyId)
    (stamped : ∀ entry, cache keyId = some entry → s.cache keyId = some entry ∨ entry.cachedAt ≤ middle.clock) :
    Revoked ttlSeconds middle keyId (s.record id call cache) := by
  refine ⟨orderly, revoked.inactive, ?_, ?_⟩
  · intro entry held
    rcases stamped entry held with before | new
    · exact revoked.stamped entry before
    · exact new
  · intro other there place new late
    rcases State.calls_record_cases place with ⟨rfl, rfl⟩ | ⟨-, before⟩
    · exact own new late
    · exact revoked.unserved other there before new late

theorem Revoked.step (revoked : Revoked ttlSeconds middle keyId s) (steps : Stepped crypto ttlSeconds s a next)
    (keeps : ∀ apiKeys, a ≠ .rewrite apiKeys)
    (timely : ∀ id header startedAt presented record principal, a = .verify id →
      s.calls id = some ⟨header, startedAt, .selected presented record⟩ → presented.parsed.keyId = keyId →
      verifyRecord crypto presented.parsed record = some principal → s.clock ≤ middle.clock) :
    Revoked ttlSeconds middle keyId next := by
  have orderly := revoked.orderly.step steps
  cases steps with
  | start fresh looked =>
    refine revoked.record orderly ?_ fun entry held => .inl (looked.held held)
    intro new late
    cases looked with
    | @hit presented entry token live matching =>
      intro named
      obtain ⟨held, young⟩ := VerificationCache.live_eq_some_iff.mp live
      rw [named.parsed token] at held
      have stamp := revoked.stamped entry held
      exact absurd late (by simp only [not_lt]; linarith)
    | noToken | malformed | miss => trivial
  | @select id header startedAt presented waiting =>
    refine revoked.record orderly ?_ fun entry held => .inl held
    intro new late named
    have token : extractBearerToken header = some presented.presentedKey := revoked.orderly.parsed id _ waiting
    rw [named.parsed token]
    exact revoked.inactive
  | @verify id header startedAt presented record phase cache waiting concluded =>
    refine revoked.record orderly ?_ ?_
    · intro new late
      have refused := revoked.unserved id _ waiting new late
      cases concluded with
      | refused wrong => trivial
      | verified right =>
        intro named
        obtain rfl : record = none := refused named
        contradiction
    · intro entry held
      rcases concluded.held held with before | ⟨same, principal, right, rfl⟩
      · exact .inl before
      · exact .inr (timely id header startedAt presented record principal rfl waiting same.symm right)
  | interrupt running waiting => exact revoked.record orderly (fun _ _ => trivial) fun entry held => .inl held
  | invalidate =>
    exact ⟨orderly, revoked.inactive,
      fun entry held => revoked.stamped entry (VerificationCache.held_of_invalidate held), revoked.unserved⟩
  | revoke =>
    exact ⟨orderly, findActiveKeyByKeyId_revokeKey_of_none revoked.inactive _ _, revoked.stamped, revoked.unserved⟩
  | rewrite => exact absurd rfl (keeps _)
  | tick => exact ⟨orderly, revoked.inactive, revoked.stamped, revoked.unserved⟩

/-- A cached key opens the fast path. -/
theorem lookup_hit {now : ℚ} {cache : VerificationCache} {header : Option String} {presented : PresentedKey}
    {entry : CachedVerification} (token : extractBearerToken header = some presented.presentedKey)
    (live : cache.live ttlSeconds now presented.parsed.keyId = some entry)
    (matching : crypto.sha256Digest presented.presentedKey = entry.secretDigest) :
    (lookup crypto ttlSeconds now cache header).1 = .answered (.ok entry.principal) now := by
  have looked : LookedUp crypto ttlSeconds now cache header _ _ := lookedUp_lookup now cache header
  generalize (lookup crypto ttlSeconds now cache header).1 = phase at looked ⊢
  generalize (lookup crypto ttlSeconds now cache header).2 = after at looked
  cases looked with
  | noToken missing => exact absurd (missing.symm.trans token) nofun
  | malformed found bad =>
    obtain rfl := Option.some.inj (found.symm.trans token)
    exact absurd (bad.symm.trans presented.wellFormed) nofun
  | @hit other first found held same =>
    rw [PresentedKey.parsed_eq (Option.some.inj (found.symm.trans token))] at held
    obtain rfl := Option.some.inj (held.symm.trans live)
    rfl
  | @miss other found nothing =>
    have same := Option.some.inj (found.symm.trans token)
    rw [PresentedKey.parsed_eq same, same] at nothing
    have hit := VerificationCache.get_fst_eq_some_iff.mpr ⟨entry, live, matching, rfl⟩
    exact absurd (nothing.symm.trans hit) nofun

/-- An entry that is put serves its key for the whole time to live from then on, whatever was committed
before: a put after the revocation is served past the bound. -/
theorem put_served {header : Option String} {startedAt : ℚ} {presented : PresentedKey} {record : Option ApiKeyRecord}
    {principal : AuthenticatedPrincipal} {other : ℕ}
    (waiting : s.calls id = some ⟨header, startedAt, .selected presented record⟩)
    (token : extractBearerToken header = some presented.presentedKey)
    (right : verifyRecord crypto presented.parsed record = some principal) (fresh : s.calls other = none)
    (positive : 0 ≤ ttlSeconds) :
    ∃ final, run (step crypto ttlSeconds) s [.verify id, .tick ttlSeconds, .start other header] = some final ∧
      final.calls other = some ⟨header, s.clock + ttlSeconds, .answered (.ok principal) (s.clock + ttlSeconds)⟩ := by
  have different : other ≠ id := by
    rintro rfl
    exact absurd (fresh.symm.trans waiting) nofun
  have forward : (0 : ℚ) ≤ ttlSeconds := by exact_mod_cast positive
  have concluded : conclude crypto s.clock s.cache presented record = (.answered (.ok principal) s.clock,
      s.cache.put s.clock presented.parsed.keyId (crypto.sha256Digest presented.presentedKey) principal) := by
    simp only [conclude, right]
  have live : (s.cache.put s.clock presented.parsed.keyId (crypto.sha256Digest presented.presentedKey)
      principal).live ttlSeconds (s.clock + ttlSeconds) presented.parsed.keyId =
        some ⟨crypto.sha256Digest presented.presentedKey, principal, s.clock⟩ := by
    rw [VerificationCache.live_eq_some_iff]
    exact ⟨Function.update_self .., by simp⟩
  simp only [run_cons, run_nil, step, waiting, concluded, Option.bind_some, if_pos forward, State.record,
    Function.update_of_ne different, fresh]
  refine ⟨_, rfl, ?_⟩
  simp only [Function.update_self, lookup_hit token live rfl]

end Meterly.RequireApiKey
