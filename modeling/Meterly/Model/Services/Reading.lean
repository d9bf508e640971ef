import Meterly.Model.Database

/-! # Services that read in one transaction

`list_tenant_quotas`, `get_usage` and `get_daily_usage` have one shape: the arguments are derived
from the request, which may raise before the transaction opens; one statement reads the published
rows; the response is built from what it returned.
-/

namespace Meterly.Reading

inductive Phase (Args Result Response : Type) where
  | received
  | begun (args : Args)
  | read (args : Args) (result : Result)
  | answered (outcome : Except ServiceError Response)

variable {Args Result Response : Type}

/-- One step of a reading service. -/
def advance (txn : CallId) (args : Except ServiceError Args) (statement : Args → Database → Result)
    (respond : Args → Result → Response) :
    Phase Args Result Response → Database → Option (Phase Args Result Response × Database)
  | .received, db =>
    match args with
    | .error error => some (.answered (.error error), db)
    | .ok args => some (.begun args, db)
  | .begun args, db => some (.read args (statement args db), db)
  | .read args result, db => some (.answered (.ok (respond args result)), db.commit txn)
  | .answered _, _ => none

/-- Everything that one step of a reading service can do. -/
inductive Advanced (txn : CallId) (args : Except ServiceError Args) (statement : Args → Database → Result)
    (respond : Args → Result → Response) (db : Database) :
    Phase Args Result Response → Phase Args Result Response → Database → Prop
  | refuses {error : ServiceError} (invalid : args = .error error) :
      Advanced txn args statement respond db .received (.answered (.error error)) db
  | opens {value : Args} (valid : args = .ok value) :
      Advanced txn args statement respond db .received (.begun value) db
  | reads {value : Args} : Advanced txn args statement respond db (.begun value) (.read value (statement value db)) db
  | commits {value : Args} {result : Result} :
      Advanced txn args statement respond db (.read value result) (.answered (.ok (respond value result)))
        (db.commit txn)

theorem advanced_of_advance {txn : CallId} {args : Except ServiceError Args} {statement : Args → Database → Result}
    {respond : Args → Result → Response} {phase after : Phase Args Result Response} {db next : Database}
    (moves : advance txn args statement respond phase db = some (after, next)) :
    Advanced txn args statement respond db phase after next := by
  cases phase with
  | received =>
    simp only [advance] at moves
    split at moves
    · obtain ⟨rfl, rfl⟩ := moves
      exact .refuses rfl
    · obtain ⟨rfl, rfl⟩ := moves
      exact .opens rfl
  | begun value =>
    obtain ⟨rfl, rfl⟩ := moves
    exact .reads
  | read value result =>
    obtain ⟨rfl, rfl⟩ := moves
    exact .commits
  | answered outcome => contradiction

end Meterly.Reading
