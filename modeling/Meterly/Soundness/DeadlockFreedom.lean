import Mathlib.Data.Fintype.Order
import Meterly.Machine.Progress
import Meterly.Soundness.LockOrder
import Meterly.Soundness.Pooled

/-! # Requests do not deadlock

A request waits for a connection while the pool is exhausted, or for a key that the open transaction
of another request holds. What it waits for ranks below what the one it waits for waits for itself, so
waiting never closes a circle, and as long as some request is unfinished one of them can go on.
-/

namespace Meterly

namespace Server

variable {crypto : Crypto} {ttlSeconds : ℤ} {size : ℕ} {s next : State} {txn other : CallId} {request waiting : ℕ}

namespace State

/-- The next step of a request needs one more connection. -/
def WantsConnection (s : State) (request : ℕ) : Prop :=
  (∃ header startedAt presented, s.guard.calls request = some ⟨header, startedAt, .missed presented⟩ ∧
    .guard request ∉ s.checkedOut) ∨
  ∃ txn, s.txn request = some txn ∧ (s.services.calls txn).opens

/-- One request waits for another: for a connection that the other has checked out, while there is none
left, or for a key that the other's transaction holds. -/
inductive WaitsFor (size : ℕ) (s : State) : ℕ → ℕ → Prop
  | connection {waiting : ℕ} {holder : Checkout} (wants : s.WantsConnection waiting)
      (exhausted : size ≤ s.checkedOut.card) (out : holder ∈ s.checkedOut) : WaitsFor size s waiting holder.request
  | lock {txn other : CallId} {lock : Lock} (next : (s.services.calls txn).nextLock txn = some lock)
      (held : s.services.db.owner lock = some other) (differs : other ≠ txn) :
      WaitsFor size s txn.number other.number

/-- The request has been presented and has neither been answered nor broken off. -/
def Unfinished (s : State) (request : ℕ) : Prop :=
  (∃ call, s.guard.calls request = some call ∧ call.phase.isWaiting) ∨
  ∃ txn, s.txn request = some txn ∧ request ∉ s.turnedAway ∧ ¬ (s.services.calls txn).isAnswered

end State

/-- The request that an action takes further. -/
def Action.continues : Action → Option ℕ
  | .guard (.select request) | .guard (.verify request) | .connect request | .turnAway request => some request
  | .service (.start txn _) | .service (.advance txn) => some txn.number
  | _ => none

/-- The request can take its next step. -/
def State.CanContinue (crypto : Crypto) (ttlSeconds : ℤ) (size : ℕ) (s : State) (request : ℕ) : Prop :=
  ∃ a : Action, a.continues = some request ∧ (step crypto ttlSeconds size s a).isSome

/-- The place in the order of what a request waits for. -/
def State.rank (s : State) (request : ℕ) : Fin 5 :=
  match s.guard.calls request with
  | some ⟨_, _, .missed _⟩ => if .guard request ∈ s.checkedOut then nothingRank else connectionRank
  | some ⟨_, _, .answered (.ok principal) _⟩ =>
    (s.services.calls ⟨principal.apiKeyId, request⟩).rank ⟨principal.apiKeyId, request⟩
  | _ => nothingRank

theorem State.rank_of_txn (accepted : s.txn request = some txn) :
    s.rank request = (s.services.calls txn).rank txn := by
  obtain ⟨header, startedAt, principal, answeredAt, rfl, answered⟩ := guard_of_txn accepted
  simp only [rank, answered]

theorem State.rank_of_wantsConnection (wants : s.WantsConnection request) : s.rank request = 0 := by
  rcases wants with ⟨header, startedAt, presented, missed, without⟩ | ⟨txn, accepted, opens⟩
  · simp only [rank, missed, if_neg without, connectionRank]
  · rw [rank_of_txn accepted, Call.rank, if_pos opens]

namespace Pooled

/-- A call whose transaction is open serves a request that is unfinished. -/
theorem unfinished_of_isOpen (pooled : Pooled s) (isOpen : (s.services.calls txn).isOpen) :
    s.txn txn.number = some txn ∧ s.Unfinished txn.number := by
  have started : s.services.calls txn ≠ .idle := by
    intro idle
    rw [idle] at isOpen
    contradiction
  obtain ⟨accepted, kept⟩ := pooled.serves txn started
  have running := (Call.running_of_isOpen isOpen).1
  exact ⟨accepted, .inr ⟨txn, accepted, kept, fun answered => Call.not_running_of_answered answered running⟩⟩

/-- Whoever has a connection checked out is unfinished and does not wait for one. -/
theorem unfinished_of_checkedOut (pooled : Pooled s) {holder : Checkout} (out : holder ∈ s.checkedOut) :
    s.Unfinished holder.request ∧ 0 < s.rank holder.request := by
  cases holder with
  | guard request =>
    obtain ⟨call, running, waits⟩ := pooled.guard request out
    refine ⟨.inl ⟨call, running, waits⟩, ?_⟩
    obtain ⟨header, startedAt, phase⟩ := call
    cases phase with
    | missed presented =>
      rw [Checkout.request, State.rank, running]
      exact (if_pos out).symm ▸ (by decide : (0 : Fin 5) < 4)
    | selected presented record =>
      rw [Checkout.request, State.rank, running]
      exact (by decide : (0 : Fin 5) < 4)
    | answered | interrupted => contradiction
  | service txn =>
    have isOpen := (pooled.service txn).mp out
    obtain ⟨accepted, unfinished⟩ := pooled.unfinished_of_isOpen isOpen
    exact ⟨unfinished, (State.rank_of_txn accepted).symm ▸ Call.rank_pos isOpen⟩

/-- Waiting leads up the order, to a request that is unfinished. -/
theorem waitsFor (pooled : Pooled s) (consistent : Consistent s.services) {waitedFor : ℕ}
    (waits : s.WaitsFor size waiting waitedFor) :
    s.Unfinished waitedFor ∧ s.rank waiting < s.rank waitedFor := by
  cases waits with
  | connection wants exhausted out =>
    rw [State.rank_of_wantsConnection wants]
    exact pooled.unfinished_of_checkedOut out
  | @lock txn other lock next held differs =>
    have started : s.services.calls txn ≠ .idle := by
      intro idle
      rw [idle] at next
      contradiction
    obtain ⟨isOpen, later⟩ := consistent.rank_of_owner held
    obtain ⟨accepted, unfinished⟩ := pooled.unfinished_of_isOpen isOpen
    refine ⟨unfinished, ?_⟩
    rw [State.rank_of_txn (pooled.serves txn started).1, State.rank_of_txn accepted, Call.rank_of_nextLock next]
    exact later

/-- A guard between its awaits goes on or waits for a connection. -/
private theorem guard_continues (positive : 1 ≤ size) {call : RequireApiKey.Call}
    (running : s.guard.calls request = some call) (waits : call.phase.isWaiting) :
    s.CanContinue crypto ttlSeconds size request ∨ ∃ waitedFor, s.WaitsFor size request waitedFor := by
  obtain ⟨header, startedAt, phase⟩ := call
  cases phase with
  | missed presented =>
    by_cases out : .guard request ∈ s.checkedOut
    · exact .inl ⟨.guard (.select request), rfl, by simp [Server.step, RequireApiKey.step, running, guardPool, out]⟩
    · by_cases room : s.checkedOut.card < size
      · exact .inl ⟨.connect request, rfl, by simp [Server.step, running, out, room]⟩
      · have exhausted := not_lt.mp room
        obtain ⟨holder, taken⟩ := Finset.card_pos.mp (positive.trans exhausted)
        exact .inr ⟨_, .connection (.inl ⟨_, _, _, running, out⟩) exhausted taken⟩
  | selected presented record =>
    exact .inl ⟨.guard (.verify request), rfl, by simp [Server.step, RequireApiKey.step, running, guardPool]⟩
  | answered | interrupted => contradiction

/-- A call goes on, waits for a connection, or waits for a key. -/
private theorem service_continues (pooled : Pooled s) (positive : 1 ≤ size) (accepted : s.txn txn.number = some txn)
    (running : (s.services.calls txn).isRunning) :
    s.CanContinue crypto ttlSeconds size txn.number ∨ ∃ waitedFor, s.WaitsFor size txn.number waitedFor := by
  by_cases blocked : ∃ lock owner, (s.services.calls txn).nextLock txn = some lock ∧
    s.services.db.owner lock = some owner ∧ owner ≠ txn
  · obtain ⟨lock, owner, next, held, differs⟩ := blocked
    exact .inr ⟨owner.number, .lock next held differs⟩
  by_cases starved : (s.services.calls txn).opens ∧ size ≤ s.checkedOut.card
  · obtain ⟨opens, exhausted⟩ := starved
    obtain ⟨holder, taken⟩ := Finset.card_pos.mp (positive.trans exhausted)
    exact .inr ⟨_, .connection (.inr ⟨txn, accepted, opens⟩) exhausted taken⟩
  have moves : ((s.services.calls txn).advance txn s.services.db).isSome := by
    apply Call.isSome_advance running
    intro lock next owner held
    by_contra differs
    exact blocked ⟨lock, owner, next, held, differs⟩
  obtain ⟨⟨call, db⟩, moves⟩ := Option.isSome_iff_exists.mp moves
  have services : Meterly.step s.services (.advance txn) = some (s.services.record txn call db) := by
    simp only [Meterly.step, moves, Option.map_some]
  -- An open transaction has its connection, and one that is opened now finds the pool not exhausted.
  have pool : (servicePool size s.checkedOut txn call).isSome := by
    unfold servicePool
    split_ifs with isOpen out room
    · rfl
    · rfl
    · rcases (Call.advanced_of_advance moves).opens isOpen with before | opens
      · exact absurd ((pooled.service txn).mpr before) out
      · exact absurd ⟨opens, not_lt.mp room⟩ starved
    · rfl
  obtain ⟨checkedOut, pool⟩ := Option.isSome_iff_exists.mp pool
  refine .inl ⟨.service (.advance txn), rfl, ?_⟩
  simp only [Server.step, State.Admits, if_true, services, Option.bind_some, Action.caller, Meterly.State.calls_record_self, pool,
    Option.map_some, Option.isSome_some]

/-- An unfinished request goes on or waits for another. -/
theorem continues_or_waits (pooled : Pooled s) (positive : 1 ≤ size) (unfinished : s.Unfinished request) :
    s.CanContinue crypto ttlSeconds size request ∨ ∃ waitedFor, s.WaitsFor size request waitedFor := by
  rcases unfinished with ⟨call, running, waits⟩ | ⟨txn, accepted, kept, unanswered⟩
  · exact guard_continues positive running waits
  obtain ⟨header, startedAt, principal, answeredAt, rfl, answered⟩ := State.guard_of_txn accepted
  by_cases idle : s.services.calls ⟨principal.apiKeyId, request⟩ = .idle
  · refine .inl ⟨.service (.start ⟨principal.apiKeyId, request⟩ .listQuotas), rfl, ?_⟩
    simp [Server.step, State.Admits, accepted, kept, Meterly.step, idle, servicePool, Action.caller, Request.call, Call.isOpen,
      Reading.Phase.isOpen]
  · exact pooled.service_continues positive accepted (Call.isRunning_of_started idle unanswered)

end Pooled

/-- In no reachable state does a request wait for itself, directly or through others; a request that is
unfinished goes on or waits for another; and while any is unfinished, one of them can go on. -/
theorem no_deadlock (positive : 1 ≤ size) {apiKeys : List ApiKeyRecord} {collation : Collation} {now : Instant}
    {nextEventId : ℕ} {tables : Tables} {schedule : List Action}
    (reached : Machine.run (step crypto ttlSeconds size)
      (.init apiKeys (.atRest collation now nextEventId tables)) schedule = some s) :
    (∀ request, ¬ Relation.TransGen (s.WaitsFor size) request request) ∧
    (∀ request, s.Unfinished request →
      s.CanContinue crypto ttlSeconds size request ∨ ∃ waitedFor, s.WaitsFor size request waitedFor) ∧
    ((∃ request, s.Unfinished request) →
      ∃ request, s.Unfinished request ∧ s.CanContinue crypto ttlSeconds size request) := by
  have pooled := (Pooled.init apiKeys _).of_run reached
  obtain ⟨shown, services⟩ := exists_run_services reached
  have consistent := (Consistent.init collation now nextEventId tables).of_run services
  have climbs : ∀ waiting waitedFor, s.WaitsFor size waiting waitedFor → s.rank waiting < s.rank waitedFor :=
    fun _ _ waits => (pooled.waitsFor consistent waits).2
  refine ⟨Machine.not_waits_for_itself climbs, fun request => pooled.continues_or_waits positive, ?_⟩
  rintro ⟨request, unfinished⟩
  obtain ⟨last, chain, free⟩ := Machine.exists_waits_for_nobody climbs request
  have still : s.Unfinished last := by
    rcases Relation.ReflTransGen.cases_tail chain with rfl | ⟨_, -, waits⟩
    · exact unfinished
    · exact (pooled.waitsFor consistent waits).1
  rcases pooled.continues_or_waits positive still with continues | ⟨waitedFor, waits⟩
  · exact ⟨last, still, continues⟩
  · exact absurd waits (free waitedFor)

/-- Two requests record an event under one idempotency key over two connections: the second, whose API key
is found in the cache, waits for the first to end. -/
theorem no_deadlock_same_idempotency_key :
    let header := some "Bearer mtr_live_k1_s1"
    let crypto : Crypto := ⟨fun value => value, fun secret storedHash => storedHash = "$argon2id$" ++ secret⟩
    let body : Request := .createEvent ⟨"acme", "calls", ⟨5, by decide, by decide⟩, "once"⟩ 0
    let schedule := [.guard (.start 0 header), .connect 0, .guard (.select 0), .guard (.verify 0),
      .service (.start ⟨7, 0⟩ body)] ++ List.replicate 3 (.service (.advance ⟨7, 0⟩)) ++
      [.guard (.start 1 header), .service (.start ⟨7, 1⟩ body)] ++ List.replicate 2 (.service (.advance ⟨7, 1⟩))
    ∃ s, Machine.run (step crypto 300 2) (.init [⟨7, "k1", "$argon2id$s1", 100, none, .ingest⟩]
        (.atRest .codePoint 0 1 ⟨∅, ∅, ∅⟩)) schedule = some s ∧
      s.WaitsFor 2 1 0 ∧ ¬ Relation.TransGen (s.WaitsFor 2) 0 0 ∧
      ∃ request, s.Unfinished request ∧ s.CanContinue crypto 300 2 request := by
  intro header crypto body schedule
  have trace : (Machine.run (step crypto 300 2) (.init [⟨7, "k1", "$argon2id$s1", 100, none, .ingest⟩]
      (.atRest .codePoint 0 1 ⟨∅, ∅, ∅⟩)) schedule).map (fun s => decide
        ((s.services.calls ⟨7, 1⟩).nextLock ⟨7, 1⟩ = some (.event ⟨7, "once"⟩) ∧
          s.services.db.owner (.event ⟨7, "once"⟩) = some ⟨7, 0⟩ ∧ s.txn 0 = some ⟨7, 0⟩ ∧ 0 ∉ s.turnedAway ∧
          ¬ (s.services.calls ⟨7, 0⟩).isAnswered)) = some true := by decide +kernel
  obtain ⟨s, reached, facts⟩ := Option.map_eq_some_iff.mp trace
  obtain ⟨next, held, accepted, kept, unanswered⟩ := of_decide_eq_true facts
  obtain ⟨acyclic, -, progress⟩ := no_deadlock (by decide : 1 ≤ 2) reached
  exact ⟨s, reached, .lock next held (by decide), acyclic 0, progress ⟨0, .inr ⟨⟨7, 0⟩, accepted, kept, unanswered⟩⟩⟩

end Server

end Meterly
