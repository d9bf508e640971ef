import Meterly.Model.Server
import Meterly.Soundness.Calls

/-! # The pool knows who holds a connection

In every reachable state the connections checked out are those of the guards between their awaits and
of the calls with a transaction open. The guard has given its connection back when the service starts,
so no request ever has two.
-/

namespace Meterly

namespace Server

variable {crypto : Crypto} {ttlSeconds : ℤ} {size : ℕ} {s next : State} {a : Action} {txn : CallId} {request : ℕ}

theorem State.guard_of_txn (accepted : s.txn request = some txn) :
    ∃ header startedAt principal answeredAt, txn = ⟨principal.apiKeyId, request⟩ ∧
      s.guard.calls request = some ⟨header, startedAt, .answered (.ok principal) answeredAt⟩ := by
  unfold State.txn at accepted
  split at accepted
  · next header startedAt principal answeredAt answered =>
    exact ⟨header, startedAt, principal, answeredAt, (Option.some.inj accepted).symm, answered⟩
  · contradiction

/-- A key that was accepted stays accepted. -/
theorem State.txn_of_stepped {guard : RequireApiKey.State} {b : RequireApiKey.Action}
    (steps : RequireApiKey.Stepped crypto ttlSeconds s.guard b guard) {checkedOut : Finset Checkout}
    (accepted : s.txn request = some txn) : { s with guard, checkedOut : State }.txn request = some txn := by
  obtain ⟨header, startedAt, principal, answeredAt, rfl, answered⟩ := guard_of_txn accepted
  have same : guard.calls request = s.guard.calls request := by
    rcases steps.call_cases request with same | fresh | ⟨before, after, running, waiting, -⟩
    · exact same
    · rw [fresh] at answered
      contradiction
    · rw [answered, Option.some.injEq] at running
      subst running
      contradiction
  simp only [State.txn, same, answered]

private theorem mem_erase_guard {checkedOut : Finset Checkout} {holder : Checkout} :
    holder ∈ checkedOut.erase (.guard request) ↔
      holder ∈ checkedOut ∧ ∀ other, holder = .guard other → request ≠ other := by
  rw [Finset.mem_erase, and_comm]
  refine and_congr_right fun _ => ⟨fun differs other same own => ?_, fun others same => others request same rfl⟩
  exact differs (own ▸ same)

/-- After a step of the guard everybody has the connection they had, but for a guard that gave its own
back. -/
theorem mem_guardPool {checkedOut after : Finset Checkout} {b : RequireApiKey.Action}
    (pool : guardPool checkedOut b = some after) (holder : Checkout) :
    holder ∈ after ↔ holder ∈ checkedOut ∧
      ∀ request, holder = .guard request → b ≠ .verify request ∧ b ≠ .interrupt request := by
  unfold guardPool at pool
  split at pool
  · split_ifs at pool
    obtain rfl := Option.some.inj pool
    simp only [ne_eq, reduceCtorEq, not_false_eq_true, and_self, implies_true, and_true]
  · next request =>
    obtain rfl := Option.some.inj pool
    simp only [mem_erase_guard, ne_eq, RequireApiKey.Action.verify.injEq, reduceCtorEq, not_false_eq_true, and_true]
  · next request =>
    obtain rfl := Option.some.inj pool
    simp only [mem_erase_guard, ne_eq, RequireApiKey.Action.interrupt.injEq, reduceCtorEq, not_false_eq_true,
      true_and]
  · next verifies interrupts =>
    obtain rfl := Option.some.inj pool
    exact ⟨fun out => ⟨out, fun request _ => ⟨verifies request, interrupts request⟩⟩, And.left⟩

/-- After a step of a service its connection is checked out if its transaction is open, and the others
are where they were. -/
theorem mem_servicePool {checkedOut after : Finset Checkout} {call : Call}
    (pool : servicePool size checkedOut txn call = some after) (holder : Checkout) :
    holder ∈ after ↔ if holder = .service txn then call.isOpen = true else holder ∈ checkedOut := by
  unfold servicePool at pool
  split_ifs at pool with isOpen out room
  · obtain rfl := Option.some.inj pool
    by_cases own : holder = .service txn
    · subst own
      simp only [if_true, out, isOpen]
    · rw [if_neg own]
  · obtain rfl := Option.some.inj pool
    by_cases own : holder = .service txn
    · subst own
      simp only [if_true, Finset.mem_insert_self, isOpen]
    · rw [if_neg own, Finset.mem_insert, or_iff_right own]
  · obtain rfl := Option.some.inj pool
    by_cases own : holder = .service txn
    · subst own
      simp only [if_true, Finset.notMem_erase, isOpen, Bool.false_eq_true]
    · rw [if_neg own, Finset.mem_erase, and_iff_right own]

/-- Who holds a connection, and that every call serves a request whose key was accepted. -/
structure Pooled (s : State) : Prop where
  guard : ∀ request, .guard request ∈ s.checkedOut →
    ∃ call, s.guard.calls request = some call ∧ call.phase.isWaiting
  service : ∀ txn, .service txn ∈ s.checkedOut ↔ (s.services.calls txn).isOpen
  serves : ∀ txn, s.services.calls txn ≠ .idle → s.txn txn.number = some txn ∧ txn.number ∉ s.turnedAway

namespace Pooled

theorem init (apiKeys : List ApiKeyRecord) (db : Database) : Pooled (.init apiKeys db) where
  guard := fun _ out => absurd out (Finset.notMem_empty _)
  service := fun _ => ⟨fun out => absurd out (Finset.notMem_empty _), fun isOpen => absurd isOpen Bool.false_ne_true⟩
  serves := fun _ started => absurd rfl started

private theorem step_guard (pooled : Pooled s) {b : RequireApiKey.Action} {guard : RequireApiKey.State}
    {checkedOut : Finset Checkout} (steps : RequireApiKey.Stepped crypto ttlSeconds s.guard b guard)
    (pool : guardPool s.checkedOut b = some checkedOut) : Pooled { s with guard, checkedOut } where
  guard := by
    intro request out
    obtain ⟨before, other⟩ := (mem_guardPool pool _).mp out
    obtain ⟨call, running, waiting⟩ := pooled.guard request before
    rcases steps.call_cases request with same | fresh | ⟨_, after, _, _, moved, still⟩
    · exact ⟨call, same.trans running, waiting⟩
    · rw [fresh] at running
      contradiction
    · rcases still with still | verifies | interrupts
      · exact ⟨after, moved, still⟩
      · exact absurd verifies (other request rfl).1
      · exact absurd interrupts (other request rfl).2
  service := by
    intro txn
    rw [mem_guardPool pool, pooled.service txn]
    exact and_iff_left fun request same => nomatch same
  serves := fun txn started => (pooled.serves txn started).imp_left (State.txn_of_stepped steps)

private theorem step_service (pooled : Pooled s) {b : Meterly.Action} (admits : s.Admits b)
    {services : Meterly.State} (steps : Meterly.Stepped s.services b services) (caller : b.caller = some txn)
    {checkedOut : Finset Checkout} (pool : servicePool size s.checkedOut txn (services.calls txn) = some checkedOut) :
    Pooled { s with services, checkedOut } where
  guard := by
    intro request out
    rw [mem_servicePool pool, if_neg (by simp)] at out
    exact pooled.guard request out
  service := by
    intro other
    rw [mem_servicePool pool]
    by_cases own : other = txn
    · subst own
      rw [if_pos rfl]
    · rw [if_neg fun same => own (Checkout.service.inj same), pooled.service other]
      exact iff_of_eq (congrArg (Call.isOpen · = true)
        (steps.calls_of_ne fun same => own (Option.some.inj (same.symm.trans caller))).symm)
  serves := by
    intro other started
    by_cases own : other = txn
    · subst own
      cases steps with
      | start idle =>
        obtain rfl := Option.some.inj caller
        exact admits
      | advance moves =>
        obtain rfl := Option.some.inj caller
        apply pooled.serves _
        intro idle
        rw [idle] at moves
        cases moves
      | interrupt running =>
        obtain rfl := Option.some.inj caller
        apply pooled.serves _
        intro idle
        rw [idle] at running
        contradiction
      | tick => contradiction
    · refine pooled.serves other fun idle => started ?_
      exact (steps.calls_of_ne fun same => own (Option.some.inj (same.symm.trans caller))).trans idle

theorem step (pooled : Pooled s) (steps : Stepped crypto ttlSeconds size s a next) : Pooled next := by
  cases steps with
  | guard moves pool => exact pooled.step_guard (RequireApiKey.stepped_of_step moves) pool
  | connect missed without room =>
    refine ⟨?_, ?_, pooled.serves⟩
    · intro request out
      rcases Finset.mem_insert.mp out with same | out
      · obtain rfl := Checkout.guard.inj same
        exact ⟨_, missed, rfl⟩
      · exact pooled.guard request out
    · intro txn
      rw [Finset.mem_insert, or_iff_right (by simp)]
      exact pooled.service txn
  | turnAway accepted idle first =>
    refine ⟨pooled.guard, pooled.service, fun txn started => ?_⟩
    obtain ⟨serves, kept⟩ := pooled.serves txn started
    refine ⟨serves, fun out => ?_⟩
    rcases Finset.mem_insert.mp out with rfl | out
    · obtain rfl := Option.some.inj (serves.symm.trans accepted)
      exact started idle
    · exact kept out
  | service admits moves caller pool => exact pooled.step_service admits (Meterly.stepped_of_step moves) caller pool
  | clock moves caller =>
    cases Meterly.stepped_of_step moves with
    | tick => exact ⟨pooled.guard, pooled.service, pooled.serves⟩
    | start | advance | interrupt => contradiction

/-- The connections are where they belong in every reachable state. -/
theorem of_run {schedule : List Action} (pooled : Pooled s)
    (reached : Machine.run (Server.step crypto ttlSeconds size) s schedule = some next) : Pooled next :=
  Machine.run_invariant pooled (fun _ _ _ valid steps => valid.step (Server.stepped_of_step steps)) reached

end Pooled

/-- Behind the pool the services make a run of their own. -/
theorem exists_run_services {schedule : List Action}
    (reached : Machine.run (step crypto ttlSeconds size) s schedule = some next) :
    ∃ shown, Machine.run Meterly.step s.services shown = some next.services := by
  refine Machine.exists_run_of_simulation State.services ?_ reached
  intro s a next steps
  cases stepped_of_step steps with
  | guard | connect | turnAway => exact .inl rfl
  | service admits moves => exact .inr ⟨_, moves⟩
  | clock moves => exact .inr ⟨_, moves⟩

end Server

end Meterly
