import Meterly.Auth.ActiveKey
import Meterly.Model.Provisioning
import Meterly.Soundness.VerifiedWrites

/-! # Every tenant is a printed key

From an empty `api_keys` on, each call of a service belongs to a request that presented the one token that the script
printed for its tenant. The other way round a printed token is never refused as unauthorized while it is not
revoked, whatever else is provisioned, revoked or asked for meanwhile, and it is served under its own id, rate and scope.
-/

namespace Meterly

open Machine

/-- The rows of `api_keys` stay under all that serving requests does. -/
theorem Application.Stepped.guard_cases {env : Application.Environment} {s next : Application.State}
    {a : Application.Action} (steps : Application.Stepped env s a next) (serving : Provisioning.isServing a) (task : ℕ) :
    next.guards task = s.guards task ∨ ∃ own, own.changesRows = false ∧
      RequireApiKey.Stepped env.crypto env.apiKeyCacheTtlSeconds (s.guards task) own (next.guards task) := by
  cases steps with
  | @authenticates id mover arrival guard waits guarded moves =>
    rw [Application.State.guards_move]
    by_cases own : task = mover
    · subst own
      rw [Application.State.guards_setGuard_self]
      exact .inr ⟨_, rfl, RequireApiKey.stepped_of_step moves⟩
    · rw [Application.State.guards_setGuard_of_ne own]
      exact .inl rfl
  | @guard mover a guard own moves =>
    have quiet : a.changesRows = false := by
      revert own
      cases a <;> simp [Application.isOwn, RequireApiKey.Action.changesRows]
    by_cases own : task = mover
    · subst own
      rw [Application.State.guards_setGuard_self]
      exact .inr ⟨_, quiet, RequireApiKey.stepped_of_step moves⟩
    · rw [Application.State.guards_setGuard_of_ne own]
      exact .inl rfl
  | commitsKeys => contradiction
  | arrives | throttles | throttleFails | unguarded | malformed | proceeds | enforces | enforceFails | refuses | serves
    | service | abandons | expires => exact .inl rfl

namespace Provisioning

variable {env : Application.Environment} {hashNewSecret : String → String → String} {source s next final : State}
  {a : Action} {schedule earlier later : List Action} {db : Database} {seeding : Seeding} {id : ℕ}

/-! ## The application in a run of the whole -/

/-- What the application sees of an action. -/
def applicationActions (_ : State) (a : Action) (next : State) : List Application.Action :=
  match a with
  | .serve a => [a]
  | .seed _ | .revoke _ _ => [.commitKeys next.application.apiKeys]

theorem Stepped.application_run (steps : Stepped env hashNewSecret s a next) :
    run (Application.step env) s.application (applicationActions s a next) = some next.application := by
  cases steps with
  | seeds | revokes => rfl
  | serves serving moves => exact (run_singleton _).trans moves

theorem application_run (reached : run (step env hashNewSecret) source schedule = some final) :
    run (Application.step env) source.application (observed (step env hashNewSecret) applicationActions source schedule) =
      some final.application :=
  run_observed State.application applicationActions (fun _ _ _ steps => (stepped_of_step steps).application_run) reached

theorem length_applicationActions_le (s : State) (a : Action) (next : State) :
    (applicationActions s a next).length ≤ 1 := by
  cases a <;> exact Nat.le_refl 1

/-- The keys that the requests of a schedule present. -/
def presentedKeys (schedule : List Action) : Set String :=
  {presentedKey | ∃ id task arrival nowMs, .serve (.arrive id task arrival nowMs) ∈ schedule ∧
    extractBearerToken arrival.authorization = some presentedKey}

theorem presentedKeys_application (reached : run (step env hashNewSecret) source schedule = some final) :
    Application.presentedKeys (observed (step env hashNewSecret) applicationActions source schedule) ⊆
      presentedKeys schedule := by
  rintro presentedKey ⟨id, task, arrival, nowMs, shown, token⟩
  obtain ⟨earlier, a, later, middle, next, rfl, -, -, seen⟩ := (mem_observed_iff reached).mp shown
  cases a with
  | serve own =>
    obtain rfl := List.mem_singleton.mp seen
    exact ⟨id, task, arrival, nowMs, by simp, token⟩
  | seed | revoke =>
    obtain ⟨⟩ := List.mem_singleton.mp seen

/-! ## The rows -/

/-- In the course of a run the script stored a row under an id and printed its token. -/
def PrintedIn (env : Application.Environment) (hashNewSecret : String → String → String) (source : State)
    (schedule : List Action) (seeding : Seeding) (id : ℕ) : Prop :=
  ∃ earlier later s, schedule = earlier ++ .seed seeding :: later ∧
    run (step env hashNewSecret) source earlier = some s ∧
    (Meterly.seed hashNewSecret s.keys seeding).2 = some (id, seeding.parsed.presentedKey)

theorem PrintedIn.append (printed : PrintedIn env hashNewSecret source schedule seeding id) (more : List Action) :
    PrintedIn env hashNewSecret source (schedule ++ more) seeding id := by
  obtain ⟨earlier, later, s, rfl, before, stored⟩ := printed
  exact ⟨earlier, later ++ more, s, by simp, before, stored⟩

/-- What a seeding that prints has stored. -/
theorem stored_of_seed {table : KeyTable} {presentedKey : String}
    (stored : (Meterly.seed hashNewSecret table seeding).2 = some (id, presentedKey)) :
    id = table.nextId ∧ seeding.parsed.keyId ∉ table.rows.map ApiKeyRecord.keyId ∧
      (Meterly.seed hashNewSecret table seeding).1 =
        ⟨table.rows ++ [seeding.record hashNewSecret table.nextId none], table.nextId + 1⟩ := by
  rcases seed_cases hashNewSecret table seeding with ⟨new, seeded⟩ | ⟨nextId, -, seeded⟩
  · rw [seeded] at stored ⊢
    exact ⟨(Prod.mk.inj (Option.some.inj stored)).1.symm, new, rfl⟩
  · rw [seeded] at stored
    contradiction

theorem Stepped.nextKeyId_le (steps : Stepped env hashNewSecret s a next) : s.nextKeyId ≤ next.nextKeyId := by
  cases steps with
  | @seeds seeding keys stores =>
    subst stores
    rcases seed_cases hashNewSecret s.keys seeding with ⟨-, seeded⟩ | ⟨nextId, later, seeded⟩
    · rw [seeded]
      exact Nat.le_succ _
    · rw [seeded]
      exact later
  | revokes | serves => exact Nat.le_refl _

theorem nextKeyId_le_of_run (reached : run (step env hashNewSecret) source schedule = some final) :
    source.nextKeyId ≤ final.nextKeyId :=
  run_invariant (motive := fun s => source.nextKeyId ≤ s.nextKeyId) (Nat.le_refl _)
    (fun _ _ _ before steps => Nat.le_trans before (stepped_of_step steps).nextKeyId_le) reached

/-- Behind a seeding that prints, the sequence is past the id of its row. -/
theorem lt_nextKeyId_of_seed {presentedKey : String}
    (stored : (Meterly.seed hashNewSecret s.keys seeding).2 = some (id, presentedKey))
    (reached : run (step env hashNewSecret) s (.seed seeding :: later) = some final) : id < final.nextKeyId := by
  obtain ⟨next, first, onward⟩ := Option.bind_eq_some_iff.mp reached
  obtain ⟨rfl, -, table⟩ := stored_of_seed stored
  obtain rfl := Option.some.inj first
  have past : s.nextKeyId + 1 ≤ final.nextKeyId := by
    refine Nat.le_trans (Nat.le_of_eq ?_) (nextKeyId_le_of_run onward)
    rw [table]
    rfl
  exact past

/-- An id belongs to one printed token. -/
theorem PrintedIn.unique (reached : run (step env hashNewSecret) source schedule = some final)
    (printed : PrintedIn env hashNewSecret source schedule seeding id) {other : Seeding}
    (again : PrintedIn env hashNewSecret source schedule other id) : other = seeding := by
  obtain ⟨first, after, s, rfl, before, stored⟩ := printed
  obtain ⟨second, behind, t, split, before', stored'⟩ := again
  rcases List.append_eq_append_iff.mp split with ⟨between, rfl, rest⟩ | ⟨between, rfl, rest⟩
  · cases between with
    | nil => exact (Action.seed.inj (List.cons.inj rest).1).symm
    | cons a between =>
      obtain rfl := (List.cons.inj rest).1
      obtain ⟨middle, there, onward⟩ := run_append_iff.mp before'
      obtain rfl := Option.some.inj (there.symm.trans before)
      have past := lt_nextKeyId_of_seed stored onward
      rw [(stored_of_seed stored').1] at past
      exact absurd past (Nat.lt_irrefl _)
  · cases between with
    | nil => exact Action.seed.inj (List.cons.inj rest).1
    | cons a between =>
      obtain rfl := (List.cons.inj rest).1
      obtain ⟨middle, there, onward⟩ := run_append_iff.mp before
      obtain rfl := Option.some.inj (there.symm.trans before')
      have past := lt_nextKeyId_of_seed stored' onward
      rw [(stored_of_seed stored).1] at past
      exact absurd past (Nat.lt_irrefl _)

/-- Serving leaves the rows as they are. -/
theorem apiKeys_of_serves {application : Application.State} {own : Application.Action} (serving : isServing own)
    (moves : Application.step env s.application own = some application) : application.apiKeys = s.application.apiKeys := by
  rcases (Application.stepped_of_step moves).guard_cases serving 0 with same | ⟨a, quiet, steps⟩
  · exact congrArg RequireApiKey.State.apiKeys same
  · exact steps.apiKeys quiet

/-- The rows in the course of a run: each is that of a printed token, and no two have one key. -/
structure Stocked (env : Application.Environment) (hashNewSecret : String → String → String) (source : State)
    (schedule : List Action) (s : State) : Prop where
  rows : ∀ record ∈ s.application.apiKeys, ∃ seeding revokedAt,
    PrintedIn env hashNewSecret source schedule seeding record.id ∧
      record = seeding.record hashNewSecret record.id revokedAt
  distinct : (s.application.apiKeys.map ApiKeyRecord.keyId).Nodup

theorem Stocked.stepped (stocked : Stocked env hashNewSecret source schedule s)
    (reached : run (step env hashNewSecret) source schedule = some s) (steps : Stepped env hashNewSecret s a next) :
    Stocked env hashNewSecret source (schedule ++ [a]) next := by
  have kept : ∀ record ∈ s.application.apiKeys, ∃ seeding revokedAt,
      PrintedIn env hashNewSecret source (schedule ++ [a]) seeding record.id ∧
        record = seeding.record hashNewSecret record.id revokedAt := by
    intro record member
    obtain ⟨seeding, revokedAt, printed, same⟩ := stocked.rows record member
    exact ⟨seeding, revokedAt, printed.append [a], same⟩
  cases steps with
  | @seeds seeding keys stores =>
    subst stores
    have rows : ∀ keys : KeyTable, (State.mk (s.commit keys.rows) keys.nextId).application.apiKeys = keys.rows :=
      fun _ => rfl
    rcases seed_cases hashNewSecret s.keys seeding with ⟨new, seeded⟩ | ⟨nextId, -, seeded⟩
    · have printed : PrintedIn env hashNewSecret source (schedule ++ [.seed seeding]) seeding s.keys.nextId := by
        refine ⟨schedule, [], s, rfl, reached, ?_⟩
        rw [seeded]
      refine ⟨?_, ?_⟩
      · rw [rows, seeded]
        intro record member
        rcases List.mem_append.mp member with before | last
        · exact kept record before
        · obtain rfl := List.mem_singleton.mp last
          exact ⟨seeding, none, printed, rfl⟩
      · rw [rows, seeded, List.map_append, List.map_singleton]
        refine List.nodup_append.mpr ⟨stocked.distinct, List.nodup_singleton _, fun keyId before other last => ?_⟩
        rintro rfl
        obtain rfl := List.mem_singleton.mp last
        exact new before
    · refine ⟨?_, ?_⟩
      · rw [rows, seeded]
        exact kept
      · rw [rows, seeded]
        exact stocked.distinct
  | @revokes keyId revokedAt =>
    refine ⟨?_, ?_⟩
    · intro record member
      obtain ⟨row, before, rfl⟩ := List.mem_map.mp member
      obtain ⟨seeding, revoked, printed, same⟩ := kept row before
      split_ifs with named
      · exact ⟨seeding, some revokedAt, printed, congrArg (fun row : ApiKeyRecord => { row with revokedAt }) same⟩
      · exact ⟨seeding, revoked, printed, same⟩
    · exact (congrArg List.Nodup (keyIds_revokeKey revokedAt keyId s.application.apiKeys)).mpr stocked.distinct
  | serves serving moves =>
    have same := apiKeys_of_serves serving moves
    refine ⟨?_, ?_⟩
    · rw [same]
      exact kept
    · rw [same]
      exact stocked.distinct

theorem Stocked.of_run (reached : run (step env hashNewSecret) (.init db) schedule = some final) :
    Stocked env hashNewSecret (.init db) schedule final := by
  refine run_induction (motive := fun schedule s => Stocked env hashNewSecret (.init db) schedule s) _ ?_ ?_ reached
  · exact ⟨fun record member => absurd member List.not_mem_nil, List.nodup_nil⟩
  · exact fun schedule s a next before ih steps => ih.stepped before (stepped_of_step steps)

/-! ## Only printed tokens are let through -/

/-- A presented secret fits the hash of one that was drawn only if it is that one, as far as they come up in a run. -/
def TellsSecretsApart (crypto : Crypto) (hashNewSecret : String → String → String) (schedule : List Action) : Prop :=
  ∀ seeding presentedKey parsed, .seed seeding ∈ schedule → presentedKey ∈ presentedKeys schedule →
    parseSplitToken presentedKey = some parsed →
    crypto.verifySecret parsed.secret (hashNewSecret seeding.salt seeding.parsed.secret) →
    parsed.secret = seeding.parsed.secret

theorem record_of_verifyApiKey {crypto : Crypto} {apiKeys : List ApiKeyRecord} {presentedKey : String}
    {principal : AuthenticatedPrincipal} (accepted : verifyApiKey crypto apiKeys presentedKey = some principal) :
    ∃ parsed, ∃ record ∈ apiKeys, parseSplitToken presentedKey = some parsed ∧ record.keyId = parsed.keyId ∧
      crypto.verifySecret parsed.secret record.secretHash ∧ principal = record.principal := by
  unfold verifyApiKey at accepted
  split at accepted
  · contradiction
  · next parsed parses =>
    cases found : findActiveKeyByKeyId apiKeys parsed.keyId with
    | none =>
      rw [found] at accepted
      contradiction
    | some record =>
      rw [found] at accepted
      have fits : crypto.verifySecret parsed.secret record.secretHash := by
        rw [verifyRecord] at accepted
        split_ifs at accepted with fits
        exact fits
      exact ⟨parsed, record, List.mem_of_find?_eq_some found, parses, (of_findActiveKeyByKeyId found).1, fits,
        principal_of_verifyRecord accepted⟩

/-- Every call of a service belongs to a request that presented the one token that the script has printed for
the tenant of the call; behind an admin route it is a token of an admin key. No two tokens are printed for one
tenant. -/
theorem service_call_presents_printed_key
    (reached : run (step env hashNewSecret) (.init db) schedule = some final)
    (injective : Set.InjOn env.crypto.sha256Digest (presentedKeys schedule))
    (apart : TellsSecretsApart env.crypto hashNewSecret schedule) {txn : CallId} {request : Request}
    (serves : (final.application.services.calls txn).request = some request) :
    (∃ passage seeding presentedKey receivedAt, final.application.passages txn.number = some passage ∧
      passage.arrival.endpoint.request receivedAt = some request ∧
      extractBearerToken passage.arrival.authorization = some presentedKey ∧
      (presentedKey = seeding.parsed.presentedKey ∨ presentedKey = seeding.parsed.presentedKey ++ "\n") ∧
      PrintedIn env hashNewSecret (.init db) schedule seeding txn.apiKeyId ∧
      (passage.arrival.endpoint.adminOnly → seeding.admin)) ∧
    ∀ id seeding other, PrintedIn env hashNewSecret (.init db) schedule seeding id →
      PrintedIn env hashNewSecret (.init db) schedule other id → other = seeding := by
  refine ⟨?_, fun _ _ _ printed again => printed.unique reached again⟩
  have ran := application_run reached
  obtain ⟨passage, principal, receivedAt, ⟨there, -, presentedKey, token, shown, rest, reading, split, read, accepted⟩,
    tenant, admin, asked⟩ := Application.served_of_request ran (injective.mono (presentedKeys_application reached)) serves
  obtain ⟨nowMs, came⟩ := Application.arrived_run ran _ _ there
  have presented : presentedKey ∈ presentedKeys schedule :=
    presentedKeys_application reached ⟨_, _, _, nowMs, came, token⟩
  obtain ⟨earlier, later, middle, rfl, before, same⟩ :=
    exists_prefix_of_observed length_applicationActions_le reached split
  have state : middle.application = reading := by
    have through := application_run before
    rw [same] at through
    exact Option.some.inj (through.symm.trans read)
  obtain ⟨parsed, record, member, parses, named, fits, rfl⟩ := record_of_verifyApiKey accepted
  rw [← state] at member
  obtain ⟨seeding, revokedAt, printed, row⟩ := (Stocked.of_run before).rows record member
  rw [show record.principal.apiKeyId = record.id from rfl] at tenant
  rw [tenant] at printed row
  have seeded : .seed seeding ∈ earlier ++ later := by
    obtain ⟨first, behind, -, rfl, -⟩ := printed
    simp
  rw [row] at named fits
  have secret : parsed.secret = seeding.parsed.secret := apart seeding presentedKey parsed seeded presented parses fits
  have own : parsed = seeding.parsed := by
    obtain ⟨keyId, _⟩ := parsed
    obtain rfl : seeding.parsed.keyId = keyId := named
    obtain rfl := secret
    rfl
  refine ⟨passage, seeding, presentedKey, receivedAt, there, asked, token, ?_, printed.append later, fun only => ?_⟩
  · exact own ▸ (parseSplitToken_eq_some_iff.mp parses).2
  · have scope : seeding.scope = .admin := by
      rw [← admin only, row]
      rfl
    unfold Seeding.scope at scope
    split_ifs at scope with provisioned
    exact provisioned

/-! ## A printed token is let through -/

/-- A key whose bytes are all zero. -/
def zeroSeeding : Seeding := ⟨100, false, .replicate 16 0, .replicate 32 0, ""⟩

/-- Hash functions that keep what they are given. -/
def plainEnvironment : Application.Environment :=
  ⟨⟨fun key => key, fun secret hash => secret = hash⟩, 300, 400, 200, 0⟩

theorem events_not_exempt : "/v1/events" ∉ tier1ExemptPaths := by decide

/-- A request that records an event under the key. -/
def zeroArrival : Arrival :=
  ⟨some "10.0.0.1", "/v1/events", some ("Bearer " ++ zeroSeeding.parsed.presentedKey), false,
    .postEvent (.valid ⟨"c", "m", ⟨2500000, by decide, by decide⟩, "i"⟩), fun exempt => absurd exempt events_not_exempt⟩

/-- The request on its way to the service. -/
def zeroServed : List Action :=
  ([.arrive 0 0 zeroArrival 0, .throttle 0, .authenticate 0, .guard 0 (.select 0), .guard 0 (.verify 0), .proceed 0 0,
    .enforce 0, .serve 0 0] : List Application.Action).map .serve

/-- The key is provisioned and an event is recorded with it. -/
theorem service_call_presents_printed_key_one_event :
    let source : State := .init (.atRest .codePoint 0 1 ⟨∅, ∅, ∅⟩)
    ∃ final request passage seeding presentedKey receivedAt,
      run (step plainEnvironment fun _ secret => secret) source (.seed zeroSeeding :: zeroServed) = some final ∧
      final.application.passages 0 = some passage ∧ passage.arrival.endpoint.request receivedAt = some request ∧
      extractBearerToken passage.arrival.authorization = some presentedKey ∧
      (presentedKey = seeding.parsed.presentedKey ∨ presentedKey = seeding.parsed.presentedKey ++ "\n") ∧
      PrintedIn plainEnvironment (fun _ secret => secret) source (.seed zeroSeeding :: zeroServed) seeding 1 := by
  intro source
  have runs : (run (step plainEnvironment fun _ secret => secret) source (.seed zeroSeeding :: zeroServed)).map
      (fun final => (final.application.services.calls ⟨1, 0⟩).request.isSome) = some true := by decide +kernel
  obtain ⟨final, reached, present⟩ := Option.map_eq_some_iff.mp runs
  obtain ⟨request, serves⟩ := Option.isSome_iff_exists.mp present
  obtain ⟨⟨passage, seeding, presentedKey, receivedAt, there, asked, token, own, printed, -⟩, -⟩ :=
    service_call_presents_printed_key reached (Function.injective_id.injOn)
      (fun _ _ _ _ _ _ fits => of_decide_eq_true fits) serves
  exact ⟨final, request, passage, seeding, presentedKey, receivedAt, reached, there, asked, token, own, printed⟩

end Provisioning

namespace Application

variable {env : Environment} {s next : State} {a : Action} {late : ℕ → Prop} {parsed : ParsedApiKey}
  {row : ApiKeyRecord}

/-- A request presents a key with this secret. -/
def Passage.Presents (parsed : ParsedApiKey) (passage : Passage) : Prop :=
  ∃ presented : PresentedKey, extractBearerToken passage.arrival.authorization = some presented.presentedKey ∧
    presented.parsed = parsed

/-- A place is not that of a refused key, and behind the guard it is that of the principal of a row. -/
def Place.SpeaksFor (row : ApiKeyRecord) (place : Place) : Prop :=
  place ≠ .refused 401 ∧ ∀ principal, place.principal = some principal → principal = row.principal

/-- The guards agree with the active row of a key, and so do the late requests that present it with its secret. -/
structure Admits (late : ℕ → Prop) (parsed : ParsedApiKey) (row : ApiKeyRecord) (s : State) : Prop where
  guards : ∀ task, RequireApiKey.Active late parsed row (s.guards task)
  passages : ∀ id passage, s.passages id = some passage → late id → passage.Presents parsed →
    passage.place.SpeaksFor row

theorem speaksFor_throttle (reply : BucketReply) : (throttle env reply).SpeaksFor row := by
  unfold throttle
  split_ifs
  · exact ⟨by simp, fun _ stands => by contradiction⟩
  · exact ⟨by simp, fun _ stands => by contradiction⟩

theorem speaksFor_enforce {principal : AuthenticatedPrincipal} (own : principal = row.principal)
    (decision : Option RateLimitDecision) : (enforce principal decision).SpeaksFor row := by
  unfold enforce
  split
  · exact ⟨by simp, fun other stands => (Option.some.inj stands).symm.trans own⟩
  · next exception refused =>
    have code : exception.statusCode = 429 := by
      cases decision with
      | none => contradiction
      | some decision =>
        rw [enforceTier2RateLimit] at refused
        split_ifs at refused
        rw [← Except.error.inj refused]
    rw [code]
    exact ⟨by simp, fun _ stands => by contradiction⟩

/-- A request that moves on stays one that speaks for the row. -/
theorem Admits.move_passages (admits : Admits late parsed row s) {id : ℕ} {before after : Passage}
    (waits : s.passages id = some before) (arrival : after.arrival = before.arrival)
    (speaks : late id → before.Presents parsed → before.place.SpeaksFor row → after.place.SpeaksFor row) :
    ∀ other passage, (s.move id after).passages other = some passage → late other → passage.Presents parsed →
      passage.place.SpeaksFor row := by
  intro other passage there new presents
  rcases State.passages_move_cases there with ⟨rfl, rfl⟩ | ⟨-, there⟩
  · have presented : before.Presents parsed := by
      unfold Passage.Presents at presents ⊢
      rwa [← arrival]
    exact speaks new presented (admits.passages other before waits new presented)
  · exact admits.passages other passage there new presents

theorem Admits.stepped_passages (admits : Admits late parsed row s) (vouched : Vouched s)
    (steps : Stepped env s a next) : ∀ id passage, next.passages id = some passage → late id →
      passage.Presents parsed → passage.place.SpeaksFor row := by
  cases steps with
  | @arrives id task arrival nowMs fresh =>
    intro other passage there new presents
    rcases State.passages_move_cases there with ⟨rfl, rfl⟩ | ⟨-, there⟩
    · show (enter nowMs arrival).SpeaksFor row
      unfold enter
      split_ifs
      · exact ⟨by simp, fun _ stands => by contradiction⟩
      · exact ⟨by simp, fun _ stands => by contradiction⟩
      · exact ⟨by simp, fun _ stands => by contradiction⟩
    · exact admits.passages other passage there new presents
  | throttles waits => exact admits.move_passages waits rfl fun _ _ _ => speaksFor_throttle _
  | throttleFails waits | unguarded waits | abandons waits =>
    exact admits.move_passages waits rfl fun _ _ _ => ⟨by simp, fun _ stands => by contradiction⟩
  | malformed waits =>
    exact admits.move_passages waits rfl fun _ _ _ => ⟨by simp, fun _ stands => by contradiction⟩
  | authenticates waits =>
    exact admits.move_passages waits rfl fun _ _ _ => ⟨by simp, fun _ stands => by contradiction⟩
  | @proceeds id task arrival nowMs call place waits called goes =>
    refine admits.move_passages waits rfl fun new presents _ => ?_
    obtain ⟨passage, there, header⟩ := vouched.guarded task id call called
    obtain rfl := Option.some.inj (there.symm.trans waits)
    have own : call.Presents parsed := by
      unfold RequireApiKey.Call.Presents
      rw [header rfl]
      exact presents
    have admitted := (admits.guards task).admitted id call called new own
    unfold RequireApiKey.Call.Admitted at admitted
    unfold proceed at goes
    split at goes
    · next phase =>
      rw [phase] at admitted
      obtain rfl := Option.some.inj goes
      exact ⟨by simp, fun other stands => (Option.some.inj stands).symm.trans admitted⟩
    · next phase =>
      rw [phase] at admitted
      contradiction
    · contradiction
  | enforces waits => exact admits.move_passages waits rfl fun _ _ speaks => speaksFor_enforce (speaks.2 _ rfl) _
  | enforceFails waits =>
    exact admits.move_passages waits rfl fun _ _ speaks =>
      ⟨by simp, fun other stands => (Option.some.inj stands).symm.trans (speaks.2 _ rfl)⟩
  | refuses statusCode waits code =>
    refine admits.move_passages waits rfl fun _ _ _ => ?_
    rcases code with rfl | rfl
    · exact ⟨by simp, fun _ stands => by contradiction⟩
    · exact ⟨by simp, fun _ stands => by contradiction⟩
  | serves waits =>
    exact admits.move_passages waits rfl fun _ _ speaks =>
      ⟨by simp, fun other stands => (Option.some.inj stands).symm.trans (speaks.2 _ rfl)⟩
  | guard | service | expires | commitsKeys => exact admits.passages

end Application

namespace Provisioning

variable {env : Application.Environment} {hashNewSecret : String → String → String} {s next final : State}
  {a : Action} {schedule earlier later : List Action} {db : Database} {seeding : Seeding} {id : ℕ}
  {late : ℕ → Prop} {parsed : ParsedApiKey} {row : ApiKeyRecord}

/-- All tasks read the rows of the table. -/
theorem guards_apiKeys (reached : run (step env hashNewSecret) (.init db) schedule = some final) (task : ℕ) :
    (final.application.guards task).apiKeys = final.application.apiKeys :=
  Application.apiKeys_run (application_run reached) task 0

/-- The guards know nothing of keys without rows, and have parsed what was presented to them. -/
structure Tended (s : State) : Prop where
  known : ∀ task, RequireApiKey.Known (s.application.guards task)
  orderly : ∀ task, RequireApiKey.Orderly (s.application.guards task)

theorem Tended.stepped (tended : Tended s) (reached : run (step env hashNewSecret) (.init db) schedule = some s)
    (steps : Stepped env hashNewSecret s a next) : Tended next := by
  have commits : ∀ {rows : List ApiKeyRecord}, s.application.apiKeys.map ApiKeyRecord.keyId ⊆ rows.map ApiKeyRecord.keyId →
      ∀ nextId, Tended ⟨s.commit rows, nextId⟩ := by
    intro rows grows nextId
    have rewrites (task : ℕ) : RequireApiKey.Stepped env.crypto env.apiKeyCacheTtlSeconds (s.application.guards task)
        (.rewrite rows) { s.application.guards task with apiKeys := rows } := .rewrite
    refine ⟨fun task => (tended.known task).stepped (rewrites task) ?_, fun task => (tended.orderly task).step (rewrites task)⟩
    rw [guards_apiKeys reached task]
    exact grows
  cases steps with
  | @seeds seeding keys stores =>
    subst stores
    apply commits
    rcases seed_cases hashNewSecret s.keys seeding with ⟨-, seeded⟩ | ⟨nextId, -, seeded⟩
    · rw [seeded, List.map_append]
      exact List.subset_append_left ..
    · rw [seeded]
      exact List.Subset.refl _
  | revokes =>
    apply commits
    rw [keyIds_revokeKey]
    exact List.Subset.refl _
  | @serves own application serving moves =>
    have moved := fun task => (Application.stepped_of_step moves).guard_cases serving task
    constructor
    · intro task
      rcases moved task with same | ⟨a, quiet, steps⟩
      · exact same ▸ tended.known task
      · refine (tended.known task).stepped steps ?_
        rw [steps.apiKeys quiet]
        exact List.Subset.refl _
    · intro task
      rcases moved task with same | ⟨a, quiet, steps⟩
      · exact same ▸ tended.orderly task
      · exact (tended.orderly task).step steps

theorem Tended.of_run (reached : run (step env hashNewSecret) (.init db) schedule = some final) : Tended final := by
  refine run_induction (motive := fun _ s => Tended s) _ ?_ ?_ reached
  · exact ⟨fun _ => .init [], fun _ => by constructor <;> (intro _ _ nothing; contradiction)⟩
  · exact fun schedule s a next before ih steps => ih.stepped before (stepped_of_step steps)

/-- The table still finds the row, whatever else is provisioned or revoked. -/
theorem findActiveKeyByKeyId_step (found : findActiveKeyByKeyId s.application.apiKeys parsed.keyId = some row)
    (kept : ∀ keyId revokedAt, a = .revoke keyId revokedAt → keyId ≠ parsed.keyId)
    (steps : Stepped env hashNewSecret s a next) :
    findActiveKeyByKeyId next.application.apiKeys parsed.keyId = some row := by
  cases steps with
  | @seeds seeding keys stores =>
    subst stores
    show findActiveKeyByKeyId (Meterly.seed hashNewSecret s.keys seeding).1.rows parsed.keyId = some row
    rcases seed_cases hashNewSecret s.keys seeding with ⟨-, seeded⟩ | ⟨nextId, -, seeded⟩
    · rw [seeded]
      exact findActiveKeyByKeyId_append found _
    · rw [seeded]
      exact found
  | @revokes keyId revokedAt => exact findActiveKeyByKeyId_revokeKey_of_ne found (kept keyId revokedAt rfl) revokedAt
  | serves serving moves =>
    rw [apiKeys_of_serves serving moves]
    exact found

theorem admits_step (admits : Application.Admits late parsed row s.application)
    (reached : run (step env hashNewSecret) (.init db) schedule = some s)
    (fits : env.crypto.verifySecret parsed.secret row.secretHash)
    (kept : ∀ keyId revokedAt, a = .revoke keyId revokedAt → keyId ≠ parsed.keyId)
    (moves : step env hashNewSecret s a = some next) : Application.Admits late parsed row next.application := by
  have steps := stepped_of_step moves
  have found : ∀ task, findActiveKeyByKeyId (next.application.guards task).apiKeys parsed.keyId = some row := by
    intro task
    rw [guards_apiKeys (run_snoc reached moves) task]
    exact findActiveKeyByKeyId_step (admits.guards 0).row kept steps
  have commits : ∀ rows nextId, next = ⟨s.commit rows, nextId⟩ →
      Application.Admits late parsed row next.application := by
    rintro rows nextId rfl
    refine ⟨fun task => ?_, admits.passages⟩
    have rewrites : RequireApiKey.Stepped env.crypto env.apiKeyCacheTtlSeconds (s.application.guards task)
        (.rewrite rows) { s.application.guards task with apiKeys := rows } := .rewrite
    exact (admits.guards task).stepped rewrites fits (found task)
  cases steps with
  | seeds | revokes => exact commits _ _ rfl
  | serves serving went =>
    have steps := Application.stepped_of_step went
    refine ⟨fun task => ?_, admits.stepped_passages (.of_run (application_run reached)) steps⟩
    rcases steps.guard_cases serving task with same | ⟨own, -, moved⟩
    · exact same ▸ admits.guards task
    · exact (admits.guards task).stepped moved fits (found task)

/-- Once the script has printed a token, and until its key is revoked, no later request that presents the token is
refused as unauthorized, and every such request that is let through speaks for the row of the token, with its
rate and its scope. -/
theorem printed_key_is_let_through
    (before : run (step env hashNewSecret) (.init db) earlier = some s)
    (printed : (Meterly.seed hashNewSecret s.keys seeding).2 = some (id, seeding.parsed.presentedKey))
    (fits : ∀ salt secret, env.crypto.verifySecret secret (hashNewSecret salt secret))
    (reached : run (step env hashNewSecret) s (.seed seeding :: later) = some final)
    (kept : ∀ keyId revokedAt, .revoke keyId revokedAt ∈ later → keyId ≠ seeding.parsed.keyId)
    {number : ℕ} {passage : Application.Passage} (there : final.application.passages number = some passage)
    (new : s.application.passages number = none)
    (bearer : extractBearerToken passage.arrival.authorization = some seeding.parsed.presentedKey) :
    passage.place ≠ .refused 401 ∧ ∀ principal, passage.place.principal = some principal →
      principal = ⟨id, seeding.rateLimitPerSec, seeding.scope⟩ := by
  obtain ⟨next, first, onward⟩ := Option.bind_eq_some_iff.mp reached
  have stored : run (step env hashNewSecret) (.init db) (earlier ++ [.seed seeding]) = some next := run_snoc before first
  obtain ⟨rfl, absent, table⟩ := stored_of_seed printed
  have rows : next.application.apiKeys = s.application.apiKeys ++ [seeding.record hashNewSecret s.nextKeyId none] := by
    obtain rfl := Option.some.inj first
    exact congrArg KeyTable.rows table
  have found : findActiveKeyByKeyId next.application.apiKeys seeding.parsed.keyId =
      some (seeding.record hashNewSecret s.nextKeyId none) := by
    have member : seeding.record hashNewSecret s.nextKeyId none ∈ next.application.apiKeys := by
      rw [rows]
      exact List.mem_append_right _ (List.mem_singleton_self _)
    exact findActiveKeyByKeyId_eq_some (Stocked.of_run stored).distinct member rfl
  have tended := Tended.of_run before
  have start : Application.Admits (fun number => s.application.passages number = none) seeding.parsed
      (seeding.record hashNewSecret s.nextKeyId none) next.application := by
    obtain rfl := Option.some.inj first
    refine ⟨fun task => ?_, fun number passage there new => ?_⟩
    · refine (tended.known task).active (tended.orderly task) ?_ found fun number new => ?_
      · rw [guards_apiKeys before task]
        exact absent
      · cases called : (s.application.guards task).calls number with
        | none => rfl
        | some call =>
          obtain ⟨passage, there, -⟩ := (Application.Vouched.of_run (application_run before)).guarded task number call called
          rw [new] at there
          contradiction
    · rw [show s.application.passages number = some passage from there] at new
      contradiction
  have admits : Application.Admits (fun number => s.application.passages number = none) seeding.parsed
      (seeding.record hashNewSecret s.nextKeyId none) final.application := by
    refine run_induction (motive := fun schedule t => schedule <+: later → Application.Admits
      (fun number => s.application.passages number = none) seeding.parsed
      (seeding.record hashNewSecret s.nextKeyId none) t.application) _ (fun _ => start) ?_ onward (List.prefix_refl _)
    intro schedule t a target went ih moves within
    obtain ⟨rest, split⟩ := within
    refine admits_step (ih ⟨a :: rest, by rw [← split]; simp⟩) (run_append_iff.mpr ⟨next, stored, went⟩) (fits _ _) ?_ moves
    rintro keyId revokedAt rfl
    exact kept keyId revokedAt (by rw [← split]; simp)
  have wellFormed : parseSplitToken seeding.parsed.presentedKey = some seeding.parsed :=
    parseSplitToken_generateSplitToken seeding.keyIdBytes seeding.secretBytes
  exact admits.passages number passage there new ⟨⟨_, _, wellFormed⟩, bearer, rfl⟩

/-- The request with the provisioned key reaches the service as the key's. -/
theorem printed_key_is_let_through_one_event :
    let source : State := .init (.atRest .codePoint 0 1 ⟨∅, ∅, ∅⟩)
    ∃ final passage, run (step plainEnvironment fun _ secret => secret) source (.seed zeroSeeding :: zeroServed) = some final ∧
      final.application.passages 0 = some passage ∧ passage.place ≠ .refused 401 ∧
      ∀ principal, passage.place.principal = some principal → principal = ⟨1, 100, .ingest⟩ := by
  intro source
  have runs : (run (step plainEnvironment fun _ secret => secret) source (.seed zeroSeeding :: zeroServed)).map
      (fun final => (final.application.passages 0).map fun passage =>
        extractBearerToken passage.arrival.authorization) = some (some (some zeroSeeding.parsed.presentedKey)) := by
    decide +kernel
  have printed : (Meterly.seed (fun _ secret => secret) source.keys zeroSeeding).2 =
      some (1, zeroSeeding.parsed.presentedKey) := by decide +kernel
  have kept : ∀ a ∈ zeroServed, ∀ keyId revokedAt, a ≠ .revoke keyId revokedAt := by
    simp [zeroServed]
  obtain ⟨final, reached, arrived⟩ := Option.map_eq_some_iff.mp runs
  obtain ⟨passage, there, bearer⟩ := Option.map_eq_some_iff.mp arrived
  obtain ⟨authorized, own⟩ := printed_key_is_let_through (run_nil) printed
    (fun _ secret => decide_eq_true rfl) reached (fun keyId revokedAt member => absurd rfl (kept _ member keyId revokedAt))
    there rfl bearer
  exact ⟨final, passage, reached, there, authorized, own⟩

end Provisioning

end Meterly
