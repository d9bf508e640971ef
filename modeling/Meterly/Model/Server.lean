import Mathlib.Data.Finset.Card
import Meterly.Auth.RequireApiKey
import Meterly.Model.System

/-! # Requests behind one connection pool

A request passes the guard, may be turned away by the throttle or by validation, and is then served.
The guard takes a connection for its `SELECT` on a cache miss and gives it back before it answers; a
service takes one for each transaction it opens and keeps it until commit or rollback. A connection
that is not there is waited for. The guard and the services move here as they do on their own.
-/

namespace Meterly

/-! ## Which phases have a transaction open -/

def CreateEvent.Phase.isOpen : CreateEvent.Phase → Bool
  | .received | .answered _ => false
  | _ => true

def UpsertQuota.Phase.isOpen : UpsertQuota.Phase → Bool
  | .received | .answered _ => false
  | _ => true

def DeleteQuota.Phase.isOpen : DeleteQuota.Phase → Bool
  | .received | .answered _ => false
  | _ => true

def Reading.Phase.isOpen {Args Result Response : Type} : Reading.Phase Args Result Response → Bool
  | .received | .answered _ => false
  | _ => true

/-- The export opens a second transaction when its body is asked for. -/
def ExportUsage.Phase.isOpen : ExportUsage.Phase → Bool
  | .begun | .counted _ | .streamBegun | .streaming _ => true
  | .received | .prepared | .headerSent | .answered _ => false

/-- A transaction of the call is open. -/
def Call.isOpen : Call → Bool
  | idle => false
  | createEvent _ _ phase => phase.isOpen
  | upsertQuota _ phase => phase.isOpen
  | deleteQuota _ phase => phase.isOpen
  | listQuotas phase => phase.isOpen
  | getUsage _ phase => phase.isOpen
  | getDailyUsage _ _ phase => phase.isOpen
  | exportUsage _ phase => phase.isOpen

namespace Server

/-- What a connection is checked out for: the guard of a request, or a transaction of a service. -/
inductive Checkout where
  | guard (request : ℕ)
  | service (txn : CallId)
deriving DecidableEq

/-- The request on whose behalf a connection is checked out. -/
def Checkout.request : Checkout → ℕ
  | guard request => request
  | service txn => txn.number

/-- The guard, the services with the database, the requests that were turned away between the two, and
the connections that are checked out. -/
structure State where
  guard : RequireApiKey.State
  services : Meterly.State
  turnedAway : Finset ℕ
  checkedOut : Finset Checkout

/-- One scheduling decision: a step of the guard or of the services, with what it means for the pool, a
connection for the guard, or a request that goes no further than the guard. -/
inductive Action where
  | guard (a : RequireApiKey.Action)
  | connect (request : ℕ)
  | turnAway (request : ℕ)
  | service (a : Meterly.Action)

/-- A server that has just started, over a database. -/
def State.init (apiKeys : List ApiKeyRecord) (db : Database) : State :=
  ⟨RequireApiKey.init apiKeys, .init db, ∅, ∅⟩

/-- The call that serves a request whose key was accepted. -/
def State.txn (s : State) (request : ℕ) : Option CallId :=
  match s.guard.calls request with
  | some ⟨_, _, .answered (.ok principal) _⟩ => some ⟨principal.apiKeyId, request⟩
  | _ => none

/-- A service starts for a request whose key was accepted and that was not turned away. -/
def State.Admits (s : State) : Meterly.Action → Prop
  | .start txn _ => s.txn txn.number = some txn ∧ txn.number ∉ s.turnedAway
  | _ => True

instance (s : State) : (a : Meterly.Action) → Decidable (s.Admits a)
  | .start _ _ => inferInstanceAs (Decidable (_ ∧ _))
  | .advance _ | .interrupt _ | .tick _ => inferInstanceAs (Decidable True)

/-- `async with get_engine().connect()`: the `SELECT` needs the connection, and the check of the row, or
whatever breaks it off, gives it back. -/
def guardPool (checkedOut : Finset Checkout) : RequireApiKey.Action → Option (Finset Checkout)
  | .select request => if .guard request ∈ checkedOut then some checkedOut else none
  | .verify request | .interrupt request => some (checkedOut.erase (.guard request))
  | _ => some checkedOut

/-- `async with session_factory()`: a call that has come to its next place keeps its connection, takes
one that is there, or gives it back. -/
def servicePool (size : ℕ) (checkedOut : Finset Checkout) (txn : CallId) (call : Call) : Option (Finset Checkout) :=
  if call.isOpen then
    if .service txn ∈ checkedOut then some checkedOut
    else if checkedOut.card < size then some (insert (.service txn) checkedOut)
    else none
  else some (checkedOut.erase (.service txn))

/-- Execute one action, if it is enabled; the pool holds `size` connections. -/
def step (crypto : Crypto) (ttlSeconds : ℤ) (size : ℕ) (s : State) : Action → Option State
  | .guard a =>
    (RequireApiKey.step crypto ttlSeconds s.guard a).bind fun guard =>
      (guardPool s.checkedOut a).map fun checkedOut => { s with guard, checkedOut }
  | .connect request =>
    match s.guard.calls request with
    | some ⟨_, _, .missed _⟩ =>
      if .guard request ∉ s.checkedOut ∧ s.checkedOut.card < size then
        some { s with checkedOut := insert (.guard request) s.checkedOut }
      else none
    | _ => none
  | .turnAway request =>
    match s.txn request with
    | none => none
    | some txn =>
      match s.services.calls txn with
      | .idle => if request ∉ s.turnedAway then some { s with turnedAway := insert request s.turnedAway } else none
      | _ => none
  | .service a =>
    if s.Admits a then
      (Meterly.step s.services a).bind fun services =>
        match a.caller with
        | none => some { s with services }
        | some txn => (servicePool size s.checkedOut txn (services.calls txn)).map fun checkedOut =>
          { s with services, checkedOut }
    else none

variable {crypto : Crypto} {ttlSeconds : ℤ} {size : ℕ}

/-- What one action does to the state. -/
inductive Stepped (crypto : Crypto) (ttlSeconds : ℤ) (size : ℕ) (s : State) : Action → State → Prop
  | guard {a : RequireApiKey.Action} {guard : RequireApiKey.State} {checkedOut : Finset Checkout}
      (moves : RequireApiKey.step crypto ttlSeconds s.guard a = some guard)
      (pool : guardPool s.checkedOut a = some checkedOut) :
      Stepped crypto ttlSeconds size s (.guard a) { s with guard, checkedOut }
  | connect {request : ℕ} {header : Option String} {startedAt : ℚ} {presented : PresentedKey}
      (missed : s.guard.calls request = some ⟨header, startedAt, .missed presented⟩)
      (without : .guard request ∉ s.checkedOut) (room : s.checkedOut.card < size) :
      Stepped crypto ttlSeconds size s (.connect request)
        { s with checkedOut := insert (.guard request) s.checkedOut }
  | turnAway {request : ℕ} {txn : CallId} (accepted : s.txn request = some txn)
      (idle : s.services.calls txn = .idle) (first : request ∉ s.turnedAway) :
      Stepped crypto ttlSeconds size s (.turnAway request) { s with turnedAway := insert request s.turnedAway }
  | service {a : Meterly.Action} {txn : CallId} {services : Meterly.State} {checkedOut : Finset Checkout}
      (admits : s.Admits a) (moves : Meterly.step s.services a = some services) (caller : a.caller = some txn)
      (pool : servicePool size s.checkedOut txn (services.calls txn) = some checkedOut) :
      Stepped crypto ttlSeconds size s (.service a) { s with services, checkedOut }
  | clock {a : Meterly.Action} {services : Meterly.State} (moves : Meterly.step s.services a = some services)
      (caller : a.caller = none) : Stepped crypto ttlSeconds size s (.service a) { s with services }

theorem stepped_of_step {s next : State} {a : Action} (steps : step crypto ttlSeconds size s a = some next) :
    Stepped crypto ttlSeconds size s a next := by
  cases a with
  | guard a =>
    obtain ⟨guard, moves, rest⟩ := Option.bind_eq_some_iff.mp steps
    obtain ⟨checkedOut, pool, rfl⟩ := Option.map_eq_some_iff.mp rest
    exact .guard moves pool
  | connect request =>
    simp only [step] at steps
    split at steps
    · next missed =>
      split_ifs at steps with room
      obtain rfl := Option.some.inj steps
      exact .connect missed room.1 room.2
    · contradiction
  | turnAway request =>
    simp only [step] at steps
    split at steps
    · contradiction
    · next txn accepted =>
      split at steps
      · next idle =>
        split_ifs at steps with first
        obtain rfl := Option.some.inj steps
        exact .turnAway accepted idle first
      · contradiction
  | service a =>
    simp only [step] at steps
    split_ifs at steps with admits
    obtain ⟨services, moves, rest⟩ := Option.bind_eq_some_iff.mp steps
    split at rest
    · next caller =>
      obtain rfl := Option.some.inj rest
      exact .clock moves caller
    · next txn caller =>
      obtain ⟨checkedOut, pool, rfl⟩ := Option.map_eq_some_iff.mp rest
      exact .service admits moves caller pool

end Server

end Meterly
