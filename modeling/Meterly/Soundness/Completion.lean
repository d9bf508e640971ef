import Mathlib.Algebra.Order.BigOperators.Group.Finset
import Meterly.Machine.Progress
import Meterly.Soundness.DeadlockFreedom

/-! # Requests end

Each step a request takes of its own brings it nearer to its end, and no step of another sets it back.
So a server that is given no new requests runs for a bounded number of steps, whatever their order, and
comes to rest with every request answered, turned away or broken off.
-/

namespace Meterly

/-! ## How many steps a call may still take -/

def CreateEvent.Phase.stepsLeft : CreateEvent.Phase → ℕ
  | .received => 8
  | .begun _ => 7
  | .inserting _ _ => 6
  | .inserted _ => 5
  | .lockingQuota _ _ => 4
  | .quotaLocked _ _ => 3
  | .judging _ _ | .conflicted => 2
  | .incremented _ _ _ | .replayed _ => 1
  | .answered _ => 0

def UpsertQuota.Phase.stepsLeft : UpsertQuota.Phase → ℕ
  | .received => 3
  | .begun => 2
  | .written _ _ => 1
  | .answered _ => 0

def DeleteQuota.Phase.stepsLeft : DeleteQuota.Phase → ℕ
  | .received => 4
  | .begun => 3
  | .deleting _ => 2
  | .removed _ => 1
  | .answered _ => 0

def Reading.Phase.stepsLeft {Args Result Response : Type} : Reading.Phase Args Result Response → ℕ
  | .received => 3
  | .begun _ => 2
  | .read _ _ => 1
  | .answered _ => 0

def ExportUsage.Phase.stepsLeft : ExportUsage.Phase → ℕ
  | .received => 7
  | .begun => 6
  | .counted _ => 5
  | .prepared => 4
  | .headerSent => 3
  | .streamBegun => 2
  | .streaming _ => 1
  | .answered _ => 0

/-- The most steps that a call has before it; one that has not started has its start. -/
def Call.stepsLeft : Call → ℕ
  | idle => 9
  | createEvent _ _ phase => phase.stepsLeft
  | upsertQuota _ phase => phase.stepsLeft
  | deleteQuota _ phase => phase.stepsLeft
  | listQuotas phase => phase.stepsLeft
  | getUsage _ phase => phase.stepsLeft
  | getDailyUsage _ _ phase => phase.stepsLeft
  | exportUsage _ phase => phase.stepsLeft

theorem Call.Advanced.stepsLeft {txn : CallId} {before after : Call} {db next : Database}
    (moves : Call.Advanced txn db before after next) : after.stepsLeft < before.stepsLeft := by
  cases moves with
  | createEvent moves => cases moves <;> simp [Call.stepsLeft, CreateEvent.Phase.stepsLeft]
  | upsertQuota moves => cases moves <;> simp [Call.stepsLeft, UpsertQuota.Phase.stepsLeft]
  | deleteQuota moves => cases moves <;> simp [Call.stepsLeft, DeleteQuota.Phase.stepsLeft]
  | listQuotas moves | getUsage moves | getDailyUsage moves =>
    cases moves <;> simp [Call.stepsLeft, Reading.Phase.stepsLeft]
  | exportUsage moves => cases moves <;> simp [Call.stepsLeft, ExportUsage.Phase.stepsLeft]

theorem Call.stepsLeft_interrupt {call : Call} (running : call.isRunning) : call.interrupt.stepsLeft = 0 := by
  cases call with
  | idle => contradiction
  | createEvent | upsertQuota | deleteQuota | listQuotas | getUsage | getDailyUsage | exportUsage => rfl

theorem Request.stepsLeft_call (request : Request) : request.call.stepsLeft < Call.idle.stepsLeft := by
  cases request <;> exact of_decide_eq_true rfl

theorem Call.stepsLeft_pos {call : Call} (unanswered : ¬ call.isAnswered) : 0 < call.stepsLeft := by
  cases call with
  | idle => exact of_decide_eq_true rfl
  | createEvent payload receivedAt phase => cases phase <;> first | exact of_decide_eq_true rfl | exact absurd rfl unanswered
  | upsertQuota payload phase => cases phase <;> first | exact of_decide_eq_true rfl | exact absurd rfl unanswered
  | deleteQuota params phase => cases phase <;> first | exact of_decide_eq_true rfl | exact absurd rfl unanswered
  | listQuotas phase | getUsage query phase | getDailyUsage date receivedAt phase =>
    cases phase <;> first | exact of_decide_eq_true rfl | exact absurd rfl unanswered
  | exportUsage params phase => cases phase <;> first | exact of_decide_eq_true rfl | exact absurd rfl unanswered

theorem Call.stepsLeft_le (call : Call) : call.stepsLeft ≤ 9 := by
  cases call with
  | idle => exact le_rfl
  | createEvent payload receivedAt phase => cases phase <;> exact of_decide_eq_true rfl
  | upsertQuota payload phase => cases phase <;> exact of_decide_eq_true rfl
  | deleteQuota params phase => cases phase <;> exact of_decide_eq_true rfl
  | listQuotas phase | getUsage query phase | getDailyUsage date receivedAt phase =>
    cases phase <;> exact of_decide_eq_true rfl
  | exportUsage params phase => cases phase <;> exact of_decide_eq_true rfl

namespace Server

variable {crypto : Crypto} {ttlSeconds : ℤ} {size : ℕ} {s next final : State} {a : Action} {request : ℕ}
  {schedule : List Action}

/-- The most steps that a request has before it, from its presentation on. -/
def State.stepsLeft (s : State) (request : ℕ) : ℕ :=
  match s.guard.calls request with
  | none => 12
  | some ⟨_, _, .missed _⟩ => if .guard request ∈ s.checkedOut then 11 else 12
  | some ⟨_, _, .selected _ _⟩ => 10
  | some ⟨_, _, .answered (.ok principal) _⟩ =>
    if request ∈ s.turnedAway then 0 else (s.services.calls ⟨principal.apiKeyId, request⟩).stepsLeft
  | some ⟨_, _, .answered (.error _) _⟩ | some ⟨_, _, .interrupted⟩ => 0

theorem State.stepsLeft_of_txn {txn : CallId} (accepted : s.txn request = some txn) :
    s.stepsLeft request = if request ∈ s.turnedAway then 0 else (s.services.calls txn).stepsLeft := by
  obtain ⟨header, startedAt, principal, answeredAt, rfl, answered⟩ := guard_of_txn accepted
  simp only [stepsLeft, answered]

/-- What is unfinished has steps before it. -/
theorem State.stepsLeft_pos (unfinished : s.Unfinished request) : 0 < s.stepsLeft request := by
  rcases unfinished with ⟨⟨header, startedAt, phase⟩, running, waits⟩ | ⟨txn, accepted, kept, unanswered⟩
  · cases phase with
    | missed presented =>
      simp only [stepsLeft, running]
      split_ifs <;> decide
    | selected presented record =>
      simp only [stepsLeft, running]
      decide
    | answered | interrupted => contradiction
  · rw [stepsLeft_of_txn accepted, if_neg kept]
    exact Call.stepsLeft_pos unanswered

theorem State.stepsLeft_le : s.stepsLeft request ≤ 12 := by
  unfold stepsLeft
  split
  · exact le_rfl
  · split_ifs <;> decide
  · decide
  · split_ifs
    · exact Nat.zero_le _
    · exact (Call.stepsLeft_le _).trans (by decide)
  · exact Nat.zero_le _
  · exact Nat.zero_le _

/-- What concerns a request: its guard, its connection, and the calls under its number. -/
theorem State.stepsLeft_congr (guard : next.guard.calls request = s.guard.calls request)
    (connection : .guard request ∈ next.checkedOut ↔ .guard request ∈ s.checkedOut)
    (turnedAway : request ∈ next.turnedAway ↔ request ∈ s.turnedAway)
    (calls : ∀ apiKeyId, next.services.calls ⟨apiKeyId, request⟩ = s.services.calls ⟨apiKeyId, request⟩) :
    next.stepsLeft request = s.stepsLeft request := by
  simp only [stepsLeft, guard, connection, turnedAway, calls]

namespace Stepped

/-- A request across a step of the guard. -/
private theorem stepsLeft_guard {b : RequireApiKey.Action} {guard : RequireApiKey.State} {checkedOut : Finset Checkout}
    (steps : RequireApiKey.Stepped crypto ttlSeconds s.guard b guard) (pool : guardPool s.checkedOut b = some checkedOut)
    (request : ℕ) : { s with guard, checkedOut : State }.stepsLeft request < s.stepsLeft request ∨
      (Action.guard b).continues ≠ some request ∧
        { s with guard, checkedOut : State }.stepsLeft request ≤ s.stepsLeft request := by
  have apart (same : guard.calls request = s.guard.calls request)
      (other : b ≠ .verify request ∧ b ≠ .interrupt request) :
      { s with guard, checkedOut : State }.stepsLeft request = s.stepsLeft request := by
    refine State.stepsLeft_congr same ?_ .rfl fun _ => rfl
    rw [mem_guardPool pool]
    exact and_iff_left fun _ own => Checkout.guard.inj own ▸ other
  cases steps with
  | @start mover header phase cache fresh looked =>
    refine .inr ⟨(Option.some_ne_none request).symm, ?_⟩
    by_cases own : request = mover
    · subst own
      have before : s.stepsLeft request = 12 := by simp only [State.stepsLeft, fresh]
      exact before ▸ State.stepsLeft_le
    · exact (apart (RequireApiKey.State.calls_record_of_ne _ own ..) ⟨by simp, by simp⟩).le
  | @select mover header startedAt presented waiting =>
    by_cases own : request = mover
    · subst own
      have out : .guard request ∈ s.checkedOut := by
        by_contra without
        simp only [guardPool, if_neg without, reduceCtorEq] at pool
      left
      simp only [State.stepsLeft, RequireApiKey.State.calls_record_self, waiting, if_pos out]
      decide
    · exact .inr ⟨fun same => own (Option.some.inj same).symm,
        (apart (RequireApiKey.State.calls_record_of_ne _ own ..) ⟨by simp, by simp⟩).le⟩
  | @verify mover header startedAt presented record phase cache waiting concluded =>
    by_cases own : request = mover
    · subst own
      have before : s.stepsLeft request = 10 := by simp only [State.stepsLeft, waiting]
      left
      rw [before]
      cases concluded with
      | refused =>
        simp only [State.stepsLeft, RequireApiKey.State.calls_record_self]
        decide
      | verified =>
        simp only [State.stepsLeft, RequireApiKey.State.calls_record_self]
        split_ifs
        · decide
        · exact (Call.stepsLeft_le _).trans_lt (by decide)
    · refine .inr ⟨fun same => own (Option.some.inj same).symm,
        (apart (RequireApiKey.State.calls_record_of_ne _ own ..) ⟨fun same => ?_, by simp⟩).le⟩
      exact own (RequireApiKey.Action.verify.inj same).symm
  | @interrupt mover call running waiting =>
    refine .inr ⟨(Option.some_ne_none request).symm, ?_⟩
    by_cases own : request = mover
    · subst own
      simp only [State.stepsLeft, RequireApiKey.State.calls_record_self]
      exact Nat.zero_le _
    · refine (apart (RequireApiKey.State.calls_record_of_ne _ own ..) ⟨by simp, fun same => ?_⟩).le
      exact own (RequireApiKey.Action.interrupt.inj same).symm
  | invalidate | revoke | rewrite | tick => exact .inr ⟨(Option.some_ne_none request).symm, (apart rfl ⟨by simp, by simp⟩).le⟩

/-- A request across a step of a service. -/
private theorem stepsLeft_service (pooled : Pooled s) {b : Meterly.Action} {txn : CallId} (admits : s.Admits b)
    {services : Meterly.State} (steps : Meterly.Stepped s.services b services) (caller : b.caller = some txn)
    {checkedOut : Finset Checkout} (pool : servicePool size s.checkedOut txn (services.calls txn) = some checkedOut)
    (request : ℕ) : { s with services, checkedOut : State }.stepsLeft request < s.stepsLeft request ∨
      (Action.service b).continues ≠ some request ∧
        { s with services, checkedOut : State }.stepsLeft request ≤ s.stepsLeft request := by
  by_cases own : request = txn.number
  · subst own
    have before (accepted : s.txn txn.number = some txn) (kept : txn.number ∉ s.turnedAway) :
        s.stepsLeft txn.number = (s.services.calls txn).stepsLeft :=
      (State.stepsLeft_of_txn accepted).trans (if_neg kept)
    have after (accepted : s.txn txn.number = some txn) (kept : txn.number ∉ s.turnedAway) :
        { s with services, checkedOut : State }.stepsLeft txn.number = (services.calls txn).stepsLeft :=
      (State.stepsLeft_of_txn (s := { s with services, checkedOut }) accepted).trans (if_neg kept)
    cases steps with
    | @start mover asked idle =>
      obtain rfl := Option.some.inj caller
      obtain ⟨accepted, kept⟩ := admits
      left
      rw [before accepted kept, after accepted kept, idle, Meterly.State.calls_record_self]
      exact asked.stepsLeft_call
    | @advance mover call db moves =>
      obtain rfl := Option.some.inj caller
      obtain ⟨accepted, kept⟩ := pooled.serves mover fun idle => by rw [idle] at moves; cases moves
      left
      rw [before accepted kept, after accepted kept, Meterly.State.calls_record_self]
      exact moves.stepsLeft
    | @interrupt mover running =>
      obtain rfl := Option.some.inj caller
      obtain ⟨accepted, kept⟩ := pooled.serves mover fun idle => by rw [idle] at running; contradiction
      refine .inr ⟨(Option.some_ne_none _).symm, ?_⟩
      rw [after accepted kept, Meterly.State.calls_record_self, Call.stepsLeft_interrupt running]
      exact Nat.zero_le _
    | tick => contradiction
  · refine .inr ⟨?_, le_of_eq (State.stepsLeft_congr rfl ?_ .rfl fun apiKeyId => ?_)⟩
    · cases b with
      | start other asked | advance other =>
        obtain rfl := Option.some.inj caller
        exact fun same => own (Option.some.inj same).symm
      | interrupt | tick => exact (Option.some_ne_none request).symm
    · rw [mem_servicePool pool, if_neg (by simp)]
    · refine steps.calls_of_ne fun same => own ?_
      obtain rfl := Option.some.inj (same.symm.trans caller)
      rfl

/-- A step takes its own request nearer to its end and sets no other back. -/
theorem stepsLeft_cases (pooled : Pooled s) (steps : Stepped crypto ttlSeconds size s a next) (request : ℕ) :
    next.stepsLeft request < s.stepsLeft request ∨
      a.continues ≠ some request ∧ next.stepsLeft request ≤ s.stepsLeft request := by
  cases steps with
  | guard moves pool => exact stepsLeft_guard (RequireApiKey.stepped_of_step moves) pool request
  | @connect mover header startedAt presented missed without room =>
    by_cases own : request = mover
    · subst own
      left
      simp only [State.stepsLeft, missed, if_neg without, Finset.mem_insert_self, if_true]
      decide
    · refine .inr ⟨fun same => own (Option.some.inj same).symm,
        le_of_eq (State.stepsLeft_congr rfl ?_ .rfl fun _ => rfl)⟩
      rw [Finset.mem_insert, or_iff_right fun same => own (Checkout.guard.inj same)]
  | @turnAway mover txn accepted idle first =>
    by_cases own : request = mover
    · subst own
      have after := State.stepsLeft_of_txn (s := { s with turnedAway := insert request s.turnedAway }) accepted
      rw [if_pos (Finset.mem_insert_self ..)] at after
      left
      rw [after, State.stepsLeft_of_txn accepted, if_neg first, idle]
      exact of_decide_eq_true rfl
    · refine .inr ⟨fun same => own (Option.some.inj same).symm,
        le_of_eq (State.stepsLeft_congr rfl .rfl ?_ fun _ => rfl)⟩
      rw [Finset.mem_insert, or_iff_right own]
  | service admits moves caller pool => exact stepsLeft_service pooled admits (Meterly.stepped_of_step moves) caller pool request
  | @clock b services moves caller =>
    cases Meterly.stepped_of_step moves with
    | tick => exact .inr ⟨(Option.some_ne_none request).symm, le_of_eq (State.stepsLeft_congr rfl .rfl .rfl fun _ => rfl)⟩
    | start | advance | interrupt => contradiction

end Stepped

/-- The requests that a schedule presents to the guard. -/
def presented (schedule : List Action) : Finset ℕ :=
  (schedule.filterMap fun
    | .guard (.start request _) => some request
    | _ => none).toFinset

theorem presented_append (schedule later : List Action) :
    presented (schedule ++ later) = presented schedule ∪ presented later := by
  simp only [presented, List.filterMap_append, List.toFinset_append]

/-- A request that is unfinished has been presented. -/
theorem mem_presented_of_run {apiKeys : List ApiKeyRecord} {db : Database}
    (reached : Machine.run (step crypto ttlSeconds size) (.init apiKeys db) schedule = some s) {call : RequireApiKey.Call}
    (there : s.guard.calls request = some call) : request ∈ presented schedule := by
  revert call
  refine Machine.run_induction (motive := fun schedule s => ∀ {call}, s.guard.calls request = some call →
    request ∈ presented schedule) _ (fun there => by contradiction) ?_ reached
  intro schedule s a next before ih steps call there
  rw [presented_append, Finset.mem_union]
  cases stepped_of_step steps with
  | guard moves pool =>
    rcases (RequireApiKey.stepped_of_step moves).header_cases there with ⟨-, rfl⟩ | ⟨earlier, there, -⟩
    · exact .inr (List.mem_toFinset.mpr (List.mem_singleton.mpr rfl))
    · exact .inl (ih there)
  | connect | turnAway | service | clock => exact .inl (ih there)

/-- A request that takes a step of its own has been presented. -/
theorem Stepped.guard_of_continues (pooled : Pooled s) (steps : Stepped crypto ttlSeconds size s a next)
    (continues : a.continues = some request) : ∃ call, s.guard.calls request = some call := by
  have ofTxn {txn : CallId} (accepted : s.txn request = some txn) : ∃ call, s.guard.calls request = some call :=
    have ⟨_, _, _, _, _, answered⟩ := State.guard_of_txn accepted
    ⟨_, answered⟩
  cases steps with
  | guard moves pool =>
    cases RequireApiKey.stepped_of_step moves with
    | select waiting | verify waiting =>
      obtain rfl := Option.some.inj continues
      exact ⟨_, waiting⟩
    | start | interrupt | invalidate | revoke | rewrite | tick => contradiction
  | connect missed without room =>
    obtain rfl := Option.some.inj continues
    exact ⟨_, missed⟩
  | turnAway accepted idle first =>
    obtain rfl := Option.some.inj continues
    exact ofTxn accepted
  | service admits moves caller pool =>
    cases Meterly.stepped_of_step moves with
    | start idle =>
      obtain rfl := Option.some.inj continues
      exact ofTxn admits.1
    | @advance txn call db advances =>
      obtain rfl := Option.some.inj continues
      exact ofTxn (pooled.serves txn fun idle => by rw [idle] at advances; cases advances).1
    | interrupt | tick => contradiction
  | clock moves caller =>
    cases Meterly.stepped_of_step moves with
    | start | advance | interrupt | tick => contradiction

/-- A server that a run has reached, with the requests that have been presented to it. -/
structure Open (ids : Finset ℕ) (s : State) : Prop where
  pooled : Pooled s
  consistent : Consistent s.services
  presented : ∀ request call, s.guard.calls request = some call → request ∈ ids

/-- What all the requests have before them. -/
def State.totalLeft (ids : Finset ℕ) (s : State) : ℕ := ∑ request ∈ ids, s.stepsLeft request

variable {ids : Finset ℕ}

namespace Open

/-- No request is presented by a step that takes one further. -/
theorem step (opened : Open ids s) (continues : a.continues.isSome)
    (steps : Server.step crypto ttlSeconds size s a = some next) : Open ids next := by
  have single : Machine.run (Server.step crypto ttlSeconds size) s [a] = some next :=
    (Machine.run_singleton a).trans steps
  obtain ⟨shown, services⟩ := exists_run_services single
  refine ⟨opened.pooled.of_run single, opened.consistent.of_run services, fun request call there => ?_⟩
  cases stepped_of_step steps with
  | guard moves pool =>
    rcases (RequireApiKey.stepped_of_step moves).header_cases there with ⟨-, rfl⟩ | ⟨earlier, there, -⟩
    · contradiction
    · exact opened.presented request earlier there
  | connect | turnAway | service | clock => exact opened.presented request call there

/-- Each step that takes a request further is paid for. -/
theorem totalLeft_lt (opened : Open ids s) (continues : a.continues.isSome)
    (steps : Server.step crypto ttlSeconds size s a = some next) : next.totalLeft ids < s.totalLeft ids := by
  obtain ⟨request, continues⟩ := Option.isSome_iff_exists.mp continues
  have stepped := stepped_of_step steps
  obtain ⟨call, there⟩ := stepped.guard_of_continues opened.pooled continues
  apply Finset.sum_lt_sum
  · exact fun other _ => (stepped.stepsLeft_cases opened.pooled other).elim le_of_lt And.right
  · exact ⟨request, opened.presented request call there,
      (stepped.stepsLeft_cases opened.pooled request).resolve_right fun apart => apart.1 continues⟩

/-- While a request is unfinished, some request can go on. -/
theorem exists_step (opened : Open ids s) (positive : 1 ≤ size) (unfinished : ¬ ∀ request, ¬ s.Unfinished request) :
    ∃ a : Action, a.continues.isSome ∧ (Server.step crypto ttlSeconds size s a).isSome := by
  obtain ⟨request, unfinished⟩ := not_forall_not.mp unfinished
  have climbs : ∀ waiting waitedFor, s.WaitsFor size waiting waitedFor → s.rank waiting < s.rank waitedFor :=
    fun _ _ waits => (opened.pooled.waitsFor opened.consistent waits).2
  obtain ⟨last, chain, free⟩ := Machine.exists_waits_for_nobody climbs request
  have still : s.Unfinished last := by
    rcases Relation.ReflTransGen.cases_tail chain with rfl | ⟨_, -, waits⟩
    · exact unfinished
    · exact (opened.pooled.waitsFor opened.consistent waits).1
  rcases opened.pooled.continues_or_waits positive still with ⟨a, continues, enabled⟩ | ⟨waitedFor, waits⟩
  · exact ⟨a, by rw [continues]; rfl, enabled⟩
  · exact absurd waits (free waitedFor)

theorem of_run {apiKeys : List ApiKeyRecord} {collation : Collation} {now : Instant} {nextEventId : ℕ} {tables : Tables}
    (reached : Machine.run (Server.step crypto ttlSeconds size)
      (.init apiKeys (.atRest collation now nextEventId tables)) schedule = some s) : Open (Server.presented schedule) s :=
  have ⟨_, services⟩ := exists_run_services reached
  ⟨(Pooled.init apiKeys _).of_run reached, (Consistent.init collation now nextEventId tables).of_run services,
    fun _ _ => mem_presented_of_run reached⟩

end Open

theorem State.totalLeft_le : s.totalLeft ids ≤ 12 * ids.card := by
  rw [State.totalLeft, mul_comm]
  exact Finset.sum_le_card_nsmul ids _ 12 fun _ _ => stepsLeft_le

/-- A request takes at most twelve steps of its own, whatever the others do. Once no more requests are
presented, whatever order the rest go on in, it is over after twelve steps for each request, and where it
stops none is unfinished; and it can be gone on with until then. -/
theorem requests_end (positive : 1 ≤ size) {apiKeys : List ApiKeyRecord} {collation : Collation} {now : Instant}
    {nextEventId : ℕ} {tables : Tables}
    (reached : Machine.run (step crypto ttlSeconds size)
      (.init apiKeys (.atRest collation now nextEventId tables)) schedule = some s) :
    (∀ request, schedule.countP (·.continues = some request) ≤ 12) ∧
    (∀ onward final, (∀ a ∈ onward, a.continues.isSome) →
      Machine.run (step crypto ttlSeconds size) s onward = some final →
      onward.length ≤ 12 * (presented schedule).card ∧
      ((∀ a : Action, a.continues.isSome → step crypto ttlSeconds size final a = none) →
        ∀ request, ¬ final.Unfinished request)) ∧
    ∃ onward final, (∀ a ∈ onward, a.continues.isSome) ∧
      Machine.run (step crypto ttlSeconds size) s onward = some final ∧ ∀ request, ¬ final.Unfinished request := by
  have opened := Open.of_run reached
  refine ⟨fun request => ?_, fun onward final continues onwards => ?_, ?_⟩
  · have started : Pooled (.init apiKeys (.atRest collation now nextEventId tables)) := .init ..
    obtain ⟨-, bound⟩ := Machine.countP_add_le_of_run (fun a : Action => decide (a.continues = some request))
      (State.stepsLeft · request) started (fun _ _ => trivial) reached
      (fun s a next pooled _ steps => pooled.step (stepped_of_step steps)) fun s a next pooled _ steps => by
        rw [decide_eq_false_iff_not]
        exact (stepped_of_step steps).stepsLeft_cases pooled request
    exact (Nat.le_of_add_right_le bound).trans State.stepsLeft_le
  · obtain ⟨still, bound⟩ := Machine.length_le_of_run opened continues onwards (fun _ _ _ => Open.step)
      fun _ _ _ => Open.totalLeft_lt
    exact ⟨bound.trans State.totalLeft_le, Machine.done_of_stuck (fun _ opened => opened.exists_step positive) still⟩
  · exact Machine.exists_run_to_done (fun _ _ _ => Open.step) (fun _ _ _ => Open.totalLeft_lt)
      (fun _ opened => opened.exists_step positive) opened

/-- Two requests at one connection, which the second has: both come to their end within 24 steps. -/
theorem requests_end_one_connection :
    let header := some "Bearer mtr_live_k1_s1"
    let crypto : Crypto := ⟨fun value => value, fun secret storedHash => storedHash = "$argon2id$" ++ secret⟩
    ∃ s onward final, Machine.run (step crypto 300 1) (.init [⟨7, "k1", "$argon2id$s1", 100, none, .ingest⟩]
        (.atRest .codePoint 0 1 ⟨∅, ∅, ∅⟩)) [.guard (.start 0 header), .guard (.start 1 header), .connect 1] = some s ∧
      s.checkedOut = {.guard 1} ∧ s.Unfinished 0 ∧ Machine.run (step crypto 300 1) s onward = some final ∧
      onward.length ≤ 24 ∧ ¬ final.Unfinished 0 ∧ ¬ final.Unfinished 1 := by
  intro header crypto
  have trace : (Machine.run (step crypto 300 1) (.init [⟨7, "k1", "$argon2id$s1", 100, none, .ingest⟩]
      (.atRest .codePoint 0 1 ⟨∅, ∅, ∅⟩)) [.guard (.start 0 header), .guard (.start 1 header), .connect 1]).map
      (fun s => ((s.guard.calls 0).map fun call => call.phase.isWaiting, decide (s.checkedOut = {.guard 1}))) =
      some (some true, true) := by decide +kernel
  obtain ⟨s, reached, facts⟩ := Option.map_eq_some_iff.mp trace
  obtain ⟨missed, out⟩ := Prod.mk.inj facts
  obtain ⟨call, there, waits⟩ := Option.map_eq_some_iff.mp missed
  obtain ⟨-, bounded, onward, final, continues, onwards, ended⟩ := requests_end (le_refl 1) reached
  exact ⟨s, onward, final, reached, of_decide_eq_true out, .inl ⟨call, there, waits⟩, onwards,
    (bounded onward final continues onwards).1, ended 0, ended 1⟩

end Server

end Meterly
