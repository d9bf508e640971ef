import Meterly.Auth.Grounded

/-! # The cached guard answers as verification does

Calls whose verification fails go unnoticed: two states are alike for the other calls if the clock,
the rows, their own places and all that can still be answered from the cache agree, and a refused
call moves one of them and not the other. With the origin of every answer this makes the cache a
faithful stand-in for verification.
-/

namespace Meterly.RequireApiKey

open Machine

variable {crypto : Crypto} {ttlSeconds : ℤ} {s next other final : State} {schedule : List Action} {a : Action}
  {id : ℕ} {call : Call} {wrong : ℕ → Bool}

/-- The action is a step of one of the calls. -/
def Action.isOf (calls : ℕ → Bool) : Action → Bool
  | .start id _ | .select id | .verify id | .interrupt id => calls id
  | _ => false

/-- Without the wrong calls the state looks the same to all others. -/
structure Unnoticed (crypto : Crypto) (ttlSeconds : ℤ) (wrong : ℕ → Bool) (s other : State) : Prop where
  clock : other.clock = s.clock
  apiKeys : other.apiKeys = s.apiKeys
  live : other.cache.live ttlSeconds s.clock = s.cache.live ttlSeconds s.clock
  calls : ∀ id, wrong id = false → other.calls id = s.calls id
  refused : ∀ id header startedAt presented record, wrong id = true →
    s.calls id = some ⟨header, startedAt, .selected presented record⟩ →
    verifyRecord crypto presented.parsed record = none

/-- The same step of another call keeps the states alike. -/
theorem Unnoticed.record (same : Unnoticed crypto ttlSeconds wrong s other) {cache after : VerificationCache}
    (good : wrong id = false) (live : after.live ttlSeconds s.clock = cache.live ttlSeconds s.clock) :
    Unnoticed crypto ttlSeconds wrong (s.record id call cache) (other.record id call after) := by
  refine ⟨same.clock, same.apiKeys, live, ?_, ?_⟩
  · intro there alike
    by_cases own : there = id
    · subst own
      rw [State.calls_record_self, State.calls_record_self]
    · rw [State.calls_record_of_ne other own, State.calls_record_of_ne s own, same.calls there alike]
  · intro there header startedAt presented record marked place
    rcases State.calls_record_cases place with ⟨rfl, -⟩ | ⟨-, before⟩
    · exact absurd marked (by simp [good])
    · exact same.refused there header startedAt presented record marked before

/-- Every other step is taken in both states. -/
theorem Unnoticed.step (same : Unnoticed crypto ttlSeconds wrong s other)
    (steps : step crypto ttlSeconds s a = some next) (good : a.isOf wrong = false) :
    ∃ after, step crypto ttlSeconds other a = some after ∧ Unnoticed crypto ttlSeconds wrong next after := by
  cases a with
  | start id header =>
    simp only [RequireApiKey.step, same.calls id good, same.clock] at steps ⊢
    split at steps
    · obtain rfl := Option.some.inj steps
      refine ⟨_, rfl, ?_⟩
      rw [lookup_fst_congr same.live header]
      apply same.record good
      rw [(lookedUp_lookup ..).live, (lookedUp_lookup ..).live, same.live]
    · contradiction
  | select id =>
    simp only [RequireApiKey.step, same.calls id good, same.apiKeys] at steps ⊢
    split at steps
    · obtain rfl := Option.some.inj steps
      exact ⟨_, rfl, same.record good same.live⟩
    · contradiction
  | verify id =>
    simp only [RequireApiKey.step, same.calls id good, same.clock] at steps ⊢
    split at steps
    · next header startedAt presented record waiting =>
      obtain rfl := Option.some.inj steps
      refine ⟨_, rfl, ?_⟩
      unfold conclude
      split
      · exact same.record good same.live
      · apply same.record good
        simp only [VerificationCache.put, VerificationCache.live_update, same.live]
    · contradiction
  | interrupt id =>
    simp only [RequireApiKey.step, same.calls id good] at steps ⊢
    split at steps
    · obtain rfl := Option.some.inj steps
      exact ⟨_, rfl, same.record good same.live⟩
    · obtain rfl := Option.some.inj steps
      exact ⟨_, rfl, same.record good same.live⟩
    · contradiction
  | invalidate keyId =>
    obtain rfl := Option.some.inj steps
    refine ⟨_, rfl, same.clock, same.apiKeys, ?_, same.calls, same.refused⟩
    simp only [VerificationCache.invalidate, VerificationCache.live_update, same.live]
  | revoke keyId =>
    obtain rfl := Option.some.inj steps
    exact ⟨_, rfl, same.clock, by simp only [same.clock, same.apiKeys], same.live, same.calls, same.refused⟩
  | rewrite apiKeys =>
    obtain rfl := Option.some.inj steps
    exact ⟨_, rfl, same.clock, rfl, same.live, same.calls, same.refused⟩
  | tick elapsed =>
    simp only [RequireApiKey.step] at steps ⊢
    split_ifs at steps with forward
    obtain rfl := Option.some.inj steps
    rw [if_pos forward]
    refine ⟨_, rfl, by simp only [same.clock], same.apiKeys, ?_, same.calls, same.refused⟩
    have later : s.clock ≤ s.clock + elapsed := le_add_of_nonneg_right forward
    rw [← VerificationCache.live_live later, same.live, VerificationCache.live_live later]

end Meterly.RequireApiKey
