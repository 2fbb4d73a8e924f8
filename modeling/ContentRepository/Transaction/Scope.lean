import ContentRepository.Transaction.Manager

/-!
# Work inside a transaction

`inTransaction` (`in_transaction`) begins a transaction, does some work and then completes whatever
transaction the thread has: it commits if the work succeeded and rolls back if it failed. The work
may do anything, also to the transactions of its thread; so it is given as an action of any kind
that carries the needed state along.
-/

namespace ContentRepository

/-- What `inTransaction` needs of the surroundings of its work. -/
structure TransactionScope (m : Type → Type) where
  /-- Begins a transaction. -/
  begin : m (Except Error Nat)
  /-- Commits (`true`) or rolls back (`false`) the transaction of the thread. -/
  complete : Bool → m (Except Error Unit)

/-- Does some work in a new transaction. The error of the work takes precedence over one of rolling
back. -/
def TransactionScope.inTransaction {m : Type → Type} [Monad m] {α : Type}
    (scope : TransactionScope m) (work : Nat → m (Except Error α)) : m (Except Error α) := do
  match ← scope.begin with
  | .error e => return .error e
  | .ok id =>
    match ← work id with
    | .ok a =>
      match ← scope.complete true with
      | .ok () => return .ok a
      | .error e => return .error e
    | .error e =>
      let _ ← scope.complete false
      return .error e

end ContentRepository
