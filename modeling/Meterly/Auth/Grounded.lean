import Mathlib.Data.Set.Function
import Mathlib.Tactic.Linarith
import Meterly.Auth.RequireApiKey

/-! # What the guard answers goes back to verifications

Every entry of the cache goes back to a verification of one presented key in this process, and a hit
needs that key's digest: what the cache answers, `verify_api_key` has answered for the same key
within the time to live.
-/

namespace Meterly.RequireApiKey

open Machine

variable {crypto : Crypto} {ttlSeconds : ℤ} {source s next final : State} {schedule : List Action} {a : Action}
  {id : ℕ} {call : Call}

/-- In the course of a run, `verify_api_key` accepted a presented key: it read the row in one state and
concluded in another, whose clock stamped the entry. -/
def VerifiedIn (crypto : Crypto) (ttlSeconds : ℤ) (source : State) (schedule : List Action) (presentedKey : String)
    (principal : AuthenticatedPrincipal) (stamp : ℚ) : Prop :=
  ∃ id earlier between later reading checking call,
    schedule = earlier ++ .select id :: between ++ .verify id :: later ∧
    run (step crypto ttlSeconds) source earlier = some reading ∧
    verifyApiKey crypto reading.apiKeys presentedKey = some principal ∧
    run (step crypto ttlSeconds) source (earlier ++ .select id :: between) = some checking ∧
    checking.clock = stamp ∧ checking.calls id = some call ∧ extractBearerToken call.header = some presentedKey

theorem VerifiedIn.append {presentedKey : String} {principal : AuthenticatedPrincipal} {stamp : ℚ}
    (verified : VerifiedIn crypto ttlSeconds source schedule presentedKey principal stamp) (more : List Action) :
    VerifiedIn crypto ttlSeconds source (schedule ++ more) presentedKey principal stamp := by
  obtain ⟨id, earlier, between, later, reading, checking, call, rfl, read, accepted, checked, stamped⟩ := verified
  exact ⟨id, earlier, between, later ++ more, reading, checking, call, by simp, read, accepted, checked, stamped⟩

/-- What a header comes to where the key is verified afresh against some rows. -/
def freshResult (crypto : Crypto) (apiKeys : List ApiKeyRecord) (header : Option String) :
    Except HttpException AuthenticatedPrincipal :=
  match extractBearerToken header with
  | none => .error (unauthorized "authentication required")
  | some presentedKey =>
    match verifyApiKey crypto apiKeys presentedKey with
    | none => .error (unauthorized "invalid API key")
    | some principal => .ok principal

/-- The keys that calls of a schedule present. -/
def presentedKeys (schedule : List Action) : List String :=
  schedule.filterMap fun
    | .start _ header => extractBearerToken header
    | _ => none

/-- The phase of a call goes back to the rows it read and to verifications of the key it presents. -/
def Call.Grounded (crypto : Crypto) (ttlSeconds : ℤ) (source : State) (schedule : List Action) (id : ℕ)
    (call : Call) : Prop :=
  match call.phase with
  | .missed presented => extractBearerToken call.header = some presented.presentedKey
  | .selected presented record => extractBearerToken call.header = some presented.presentedKey ∧
    ∃ earlier between reading, schedule = earlier ++ .select id :: between ∧
      run (step crypto ttlSeconds) source earlier = some reading ∧
      record = findActiveKeyByKeyId reading.apiKeys presented.parsed.keyId
  | .answered (.ok principal) answeredAt => ∃ presentedKey stamp, extractBearerToken call.header = some presentedKey ∧
    VerifiedIn crypto ttlSeconds source schedule presentedKey principal stamp ∧ stamp ≤ answeredAt ∧
      answeredAt - stamp ≤ max 0 (ttlSeconds : ℚ)
  | .answered (.error error) _ => ∃ earlier later reading, schedule = earlier ++ later ∧
    run (step crypto ttlSeconds) source earlier = some reading ∧
    freshResult crypto reading.apiKeys call.header = .error error
  | .interrupted => True

/-- An entry of the cache goes back to a verification of the key whose digest it holds. -/
def CachedVerification.Grounded (crypto : Crypto) (ttlSeconds : ℤ) (source : State) (schedule : List Action)
    (clock : ℚ) (entry : CachedVerification) : Prop :=
  entry.cachedAt ≤ clock ∧ ∃ presentedKey ∈ presentedKeys schedule,
    crypto.sha256Digest presentedKey = entry.secretDigest ∧
    VerifiedIn crypto ttlSeconds source schedule presentedKey entry.principal entry.cachedAt

/-- All that a run has brought about goes back to verifications in it. -/
structure Grounded (crypto : Crypto) (ttlSeconds : ℤ) (source : State) (schedule : List Action) (s : State) :
    Prop where
  calls : ∀ id call, s.calls id = some call → call.Grounded crypto ttlSeconds source schedule id
  started : ∀ id call, s.calls id = some call → .start id call.header ∈ schedule
  cache : ∀ keyId entry, s.cache keyId = some entry →
    CachedVerification.Grounded crypto ttlSeconds source schedule s.clock entry

theorem mem_presentedKeys {header : Option String} {presentedKey : String} (started : .start id header ∈ schedule)
    (token : extractBearerToken header = some presentedKey) : presentedKey ∈ presentedKeys schedule :=
  List.mem_filterMap.mpr ⟨_, started, token⟩

theorem presentedKeys_subset_append (schedule more : List Action) :
    {key | key ∈ presentedKeys schedule} ⊆ {key | key ∈ presentedKeys (schedule ++ more)} := by
  intro key member
  simp only [presentedKeys, List.filterMap_append, List.mem_append, Set.mem_ofPred_eq]
  exact .inl member

theorem Call.Grounded.append (grounded : call.Grounded crypto ttlSeconds source schedule id) (more : List Action) :
    call.Grounded crypto ttlSeconds source (schedule ++ more) id := by
  obtain ⟨header, startedAt, phase⟩ := call
  match phase with
  | .missed presented => exact grounded
  | .selected presented record =>
    obtain ⟨token, earlier, between, reading, rfl, read, same⟩ := grounded
    exact ⟨token, earlier, between ++ more, reading, by simp, read, same⟩
  | .answered (.ok principal) answeredAt =>
    obtain ⟨presentedKey, stamp, token, verified, young⟩ := grounded
    exact ⟨presentedKey, stamp, token, verified.append more, young⟩
  | .answered (.error error) answeredAt =>
    obtain ⟨earlier, later, reading, rfl, read, refused⟩ := grounded
    exact ⟨earlier, later ++ more, reading, by simp, read, refused⟩
  | .interrupted => trivial

theorem CachedVerification.Grounded.append {clock later : ℚ} {entry : CachedVerification}
    (grounded : CachedVerification.Grounded crypto ttlSeconds source schedule clock entry) (forward : clock ≤ later)
    (more : List Action) : CachedVerification.Grounded crypto ttlSeconds source (schedule ++ more) later entry := by
  obtain ⟨past, presentedKey, member, digest, verified⟩ := grounded
  exact ⟨past.trans forward, presentedKey, presentedKeys_subset_append schedule more member, digest,
    verified.append more⟩

/-- A new place of a call is grounded if what it went through is. -/
theorem Grounded.record (grounded : Grounded crypto ttlSeconds source schedule s) {cache : VerificationCache}
    (own : call.Grounded crypto ttlSeconds source (schedule ++ [a]) id)
    (started : .start id call.header ∈ schedule ++ [a])
    (entries : ∀ keyId entry, cache keyId = some entry →
      s.cache keyId = some entry ∨ CachedVerification.Grounded crypto ttlSeconds source (schedule ++ [a]) s.clock entry) :
    Grounded crypto ttlSeconds source (schedule ++ [a]) (s.record id call cache) := by
  refine ⟨?_, ?_, ?_⟩
  · intro other there place
    rcases State.calls_record_cases place with ⟨rfl, rfl⟩ | ⟨-, before⟩
    · exact own
    · exact (grounded.calls other there before).append [a]
  · intro other there place
    rcases State.calls_record_cases place with ⟨rfl, rfl⟩ | ⟨-, before⟩
    · exact started
    · exact List.mem_append_left _ (grounded.started other there before)
  · intro keyId entry held
    rcases entries keyId entry held with before | new
    · exact (grounded.cache keyId entry before).append le_rfl [a]
    · exact new

theorem freshResult_of_token {presentedKey : String} {header : Option String} (apiKeys : List ApiKeyRecord)
    (token : extractBearerToken header = some presentedKey) (refused : verifyApiKey crypto apiKeys presentedKey = none) :
    freshResult crypto apiKeys header = .error (unauthorized "invalid API key") := by
  simp only [freshResult, token, refused]

/-- The row of a presented key decides what verification says. -/
theorem verifyApiKey_presented (crypto : Crypto) (apiKeys : List ApiKeyRecord) (presented : PresentedKey) :
    verifyApiKey crypto apiKeys presented.presentedKey =
      verifyRecord crypto presented.parsed (findActiveKeyByKeyId apiKeys presented.parsed.keyId) := by
  simp only [verifyApiKey, presented.wellFormed]

theorem Grounded.step (grounded : Grounded crypto ttlSeconds source schedule s)
    (reached : run (step crypto ttlSeconds) source schedule = some s)
    (injective : Set.InjOn crypto.sha256Digest {key | key ∈ presentedKeys (schedule ++ [a])})
    (steps : Stepped crypto ttlSeconds s a next) : Grounded crypto ttlSeconds source (schedule ++ [a]) next := by
  cases steps with
  | @start id header phase cache fresh looked =>
    have started : .start id header ∈ schedule ++ [.start id header] := by simp
    refine grounded.record ?_ started ?_
    · cases looked with
      | noToken missing =>
        exact ⟨schedule, _, s, rfl, reached, by simp only [freshResult, missing]⟩
      | malformed token bad =>
        exact ⟨schedule, _, s, rfl, reached, freshResult_of_token _ token (by simp only [verifyApiKey, bad])⟩
      | @hit presented entry token live matching =>
        obtain ⟨held, young⟩ := VerificationCache.live_eq_some_iff.mp live
        obtain ⟨past, presentedKey, member, digest, verified⟩ := grounded.cache _ _ held
        -- the digest is the one of the key that was verified, so the keys are the same
        have same : presentedKey = presented.presentedKey := injective
          (presentedKeys_subset_append schedule _ member) (mem_presentedKeys started token) (digest.trans matching.symm)
        exact ⟨presented.presentedKey, entry.cachedAt, token, same ▸ verified.append _, past,
          young.trans (le_max_right _ _)⟩
      | miss token nothing => exact token
    · exact fun keyId entry held => .inl (looked.held held)
  | @select id header startedAt presented waiting =>
    have started : .start id header ∈ schedule := grounded.started id _ waiting
    refine grounded.record ?_ (List.mem_append_left _ started) fun _ _ held => .inl held
    have token : extractBearerToken header = some presented.presentedKey := grounded.calls id _ waiting
    exact ⟨token, schedule, [], s, rfl, reached, rfl⟩
  | @verify id header startedAt presented record phase cache waiting concluded =>
    obtain ⟨token, earlier, between, reading, rfl, read, rfl⟩ := grounded.calls id _ waiting
    have accepted := verifyApiKey_presented crypto reading.apiKeys presented
    have started := grounded.started id _ waiting
    refine grounded.record ?_ (List.mem_append_left _ started) ?_
    · cases concluded with
      | refused wrong =>
        refine ⟨earlier, .select id :: between ++ [.verify id], reading, by simp, read, ?_⟩
        exact freshResult_of_token _ token (accepted.trans wrong)
      | @verified principal right =>
        refine ⟨presented.presentedKey, s.clock, token, ?_, le_rfl, by simp⟩
        exact ⟨id, earlier, between, [], reading, s, _, rfl, read, accepted.trans right, reached, rfl, waiting, token⟩
    · intro keyId entry held
      rcases concluded.held held with before | ⟨rfl, principal, right, rfl⟩
      · exact .inl before
      · right
        refine ⟨le_rfl, presented.presentedKey, ?_, rfl, ?_⟩
        · exact mem_presentedKeys (List.mem_append_left _ started) token
        · exact ⟨id, earlier, between, [], reading, s, _, rfl, read, accepted.trans right, reached, rfl, waiting,
            token⟩
  | @interrupt id call running waiting =>
    have started := grounded.started id call running
    exact grounded.record trivial (List.mem_append_left _ started) fun _ _ held => .inl held
  | invalidate =>
    refine ⟨fun id call place => (grounded.calls id call place).append _,
      fun id call place => List.mem_append_left _ (grounded.started id call place), ?_⟩
    intro keyId entry held
    exact (grounded.cache keyId entry (VerificationCache.held_of_invalidate held)).append le_rfl _
  | revoke | rewrite =>
    exact ⟨fun id call place => (grounded.calls id call place).append _,
      fun id call place => List.mem_append_left _ (grounded.started id call place),
      fun keyId entry held => (grounded.cache keyId entry held).append le_rfl _⟩
  | tick forward =>
    exact ⟨fun id call place => (grounded.calls id call place).append _,
      fun id call place => List.mem_append_left _ (grounded.started id call place),
      fun keyId entry held => (grounded.cache keyId entry held).append (le_add_of_nonneg_right forward) _⟩

theorem grounded_run {apiKeys : List ApiKeyRecord}
    (injective : Set.InjOn crypto.sha256Digest {key | key ∈ presentedKeys schedule})
    (reached : run (step crypto ttlSeconds) (init apiKeys) schedule = some final) :
    Grounded crypto ttlSeconds (init apiKeys) schedule final := by
  refine run_induction (motive := fun schedule s => Set.InjOn crypto.sha256Digest {key | key ∈ presentedKeys schedule} →
    Grounded crypto ttlSeconds (init apiKeys) schedule s) _ ?_ ?_ reached injective
  · intro _
    refine ⟨?_, ?_, ?_⟩ <;> (intro _ _ nothing; contradiction)
  · intro schedule s a next before ih steps injective
    have grounded := ih (injective.mono (presentedKeys_subset_append schedule [a]))
    exact grounded.step before injective (stepped_of_step steps)

/-- The committed rows change with this action. -/
def Action.changesRows : Action → Bool
  | .revoke _ | .rewrite _ => true
  | _ => false

theorem Stepped.apiKeys (steps : Stepped crypto ttlSeconds s a next) (keeps : a.changesRows = false) :
    next.apiKeys = s.apiKeys := by
  cases steps with
  | revoke | rewrite => contradiction
  | start | select | verify | interrupt | invalidate | tick => rfl

theorem apiKeys_run (keeps : ∀ a ∈ schedule, a.changesRows = false)
    (reached : run (step crypto ttlSeconds) source schedule = some final) : final.apiKeys = source.apiKeys := by
  induction schedule generalizing source with
  | nil =>
    obtain rfl := Option.some.inj reached
    rfl
  | cons a rest ih =>
    obtain ⟨next, first, onward⟩ := Option.bind_eq_some_iff.mp reached
    have same := (stepped_of_step first).apiKeys (keeps a List.mem_cons_self)
    exact (ih (fun a member => keeps a (List.mem_cons_of_mem _ member)) onward).trans same

/-- What holds of the principals of all rows holds of whatever was made of the rows. -/
structure Backed (P : AuthenticatedPrincipal → Prop) (s : State) : Prop where
  rows : ∀ record ∈ s.apiKeys, P ⟨record.id, record.rateLimitPerSec, record.scope⟩
  cache : ∀ keyId entry, s.cache keyId = some entry → P entry.principal
  selected : ∀ id call presented record, s.calls id = some call → call.phase = .selected presented (some record) →
    P ⟨record.id, record.rateLimitPerSec, record.scope⟩
  answered : ∀ id call principal answeredAt, s.calls id = some call →
    call.phase = .answered (.ok principal) answeredAt → P principal

variable {P : AuthenticatedPrincipal → Prop}

theorem Backed.init {apiKeys : List ApiKeyRecord}
    (rows : ∀ record ∈ apiKeys, P ⟨record.id, record.rateLimitPerSec, record.scope⟩) : Backed P (init apiKeys) :=
  ⟨rows, fun _ _ held => by contradiction, fun _ _ _ _ place => by contradiction, fun _ _ _ _ place => by contradiction⟩

/-- A call may move on to what the rows or the cache give it. -/
theorem Backed.record (backed : Backed P s) {cache : VerificationCache}
    (cached : ∀ keyId entry, cache keyId = some entry → P entry.principal)
    (selected : ∀ presented record, call.phase = .selected presented (some record) →
      P ⟨record.id, record.rateLimitPerSec, record.scope⟩)
    (answered : ∀ principal answeredAt, call.phase = .answered (.ok principal) answeredAt → P principal) :
    Backed P (s.record id call cache) where
  rows := backed.rows
  cache := cached
  selected other there presented record place phase := by
    rcases State.calls_record_cases place with ⟨-, rfl⟩ | ⟨-, before⟩
    · exact selected presented record phase
    · exact backed.selected other there presented record before phase
  answered other there principal answeredAt place phase := by
    rcases State.calls_record_cases place with ⟨-, rfl⟩ | ⟨-, before⟩
    · exact answered principal answeredAt phase
    · exact backed.answered other there principal answeredAt before phase

/-- The principal of a verified row is the row's. -/
theorem verifyRecord_backed {parsed : ParsedApiKey} {record : Option ApiKeyRecord} {principal : AuthenticatedPrincipal}
    (verified : verifyRecord crypto parsed record = some principal)
    (row : ∀ found ∈ record, P ⟨found.id, found.rateLimitPerSec, found.scope⟩) : P principal := by
  cases record with
  | none => contradiction
  | some found =>
    simp only [verifyRecord] at verified
    split_ifs at verified
    obtain rfl := Option.some.inj verified
    exact row found rfl

theorem Backed.stepped (backed : Backed P s) (steps : Stepped crypto ttlSeconds s a next)
    (rewritten : ∀ apiKeys, a = .rewrite apiKeys →
      ∀ record ∈ apiKeys, P ⟨record.id, record.rateLimitPerSec, record.scope⟩) : Backed P next := by
  cases steps with
  | start fresh looked =>
    refine backed.record (fun keyId entry held => backed.cache keyId entry (looked.held held)) ?_ ?_
    · intro presented record phase
      cases looked <;> contradiction
    · intro principal answeredAt phase
      cases looked with
      | hit token live matching =>
        cases phase
        exact backed.cache _ _ (VerificationCache.live_eq_some_iff.mp live).1
      | noToken | malformed | miss => cases phase
  | select waiting =>
    refine backed.record backed.cache ?_ fun _ _ phase => by contradiction
    intro presented record phase
    obtain ⟨-, found⟩ := Phase.selected.inj phase
    exact backed.rows record (List.mem_of_find?_eq_some found)
  | @verify id header startedAt presented record phase cache waiting concluded =>
    have verified : ∀ principal, verifyRecord crypto presented.parsed record = some principal → P principal :=
      fun principal right => verifyRecord_backed right fun found member =>
        backed.selected id _ presented found waiting (congrArg _ member)
    refine backed.record ?_ ?_ ?_
    · intro keyId entry held
      rcases concluded.held held with before | ⟨-, principal, right, rfl⟩
      · exact backed.cache keyId entry before
      · exact verified principal right
    · intro other found phase
      cases concluded <;> contradiction
    · intro principal answeredAt phase
      cases concluded with
      | refused => cases phase
      | verified right =>
        cases phase
        exact verified _ right
  | interrupt running waiting =>
    exact backed.record backed.cache (fun _ _ phase => by contradiction) fun _ _ phase => by contradiction
  | invalidate =>
    exact ⟨backed.rows, fun keyId entry held => backed.cache keyId entry (VerificationCache.held_of_invalidate held),
      backed.selected, backed.answered⟩
  | revoke =>
    refine ⟨?_, backed.cache, backed.selected, backed.answered⟩
    intro record member
    obtain ⟨row, present, rfl⟩ := List.mem_map.mp member
    have same := backed.rows row present
    split_ifs <;> exact same
  | rewrite => exact ⟨rewritten _ rfl, backed.cache, backed.selected, backed.answered⟩
  | tick forward => exact ⟨backed.rows, backed.cache, backed.selected, backed.answered⟩

end Meterly.RequireApiKey
