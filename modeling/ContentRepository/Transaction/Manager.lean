import ContentRepository.Error
import ContentRepository.Numbered

/-!
# Transactions

A `TransactionManager` is a `LocalTransactionManager`. A transaction belongs to the thread that
began it, until it is completed; suspending and resuming moves it between threads, and several
threads may be bound to it. Whoever wants to take part in the completion registers with the
transaction (`register_synchronization`).

* **`TransactionManager.begin`**, **`suspend`**, **`resume`** and **`register`** lead up to the
  completion.
* **`TransactionManager.complete`** commits or rolls back. For a commit, all participants are first
  asked in the order of their registration, and the first that objects makes it a rollback. Then all
  are told the outcome, in the same order. By then the transaction is bound to no thread any more.

Participants act on a state of their own, which the manager does not look into: a `Protocol` is what
their `Synchronization` does in `before_completion` and `after_completion`, and an `Outcome` is the
`CompletionStatus` that they are told.
-/

namespace ContentRepository

/-- How a transaction ended. -/
inductive Outcome where
  | committed
  | rolledBack
deriving DecidableEq

/-- The outcome as people read it. -/
def Outcome.text : Outcome → String
  | .committed => "committed"
  | .rolledBack => "rolled back"

/-- The number of a transaction as people read it. -/
def transactionText (id : Nat) : String := "txn:" ++ toString id

/-- A transaction that is not completed. -/
structure Transaction (κ : Type) where
  /-- Whether it can only be rolled back. -/
  rollbackOnly : Bool
  /-- Who takes part in the completion, in the order of registration. -/
  participants : List κ

/-- What participants of kind `κ` do to a state at a completion. -/
structure Protocol (κ σ : Type) where
  /-- What a participant does before a commit. An error aborts the transaction. -/
  before : κ → σ → Except Error Unit × σ
  /-- What a participant does when the outcome is settled. -/
  after : κ → Outcome → σ → σ

namespace Protocol

variable {κ σ : Type}

/-- Asks participants one after another, up to the first that objects; the wording of the
objection. -/
def askAll (p : Protocol κ σ) : List κ → σ → Option String × σ
  | [], s => (none, s)
  | k :: rest, s =>
    match p.before k s with
    | (.ok (), s) => askAll p rest s
    | (.error e, s) => (some e.message, s)

/-- Tells all participants the outcome, one after another. -/
def tellAll (p : Protocol κ σ) (outcome : Outcome) (participants : List κ) (s : σ) : σ :=
  participants.foldl (fun s k => p.after k outcome s) s

/-- Why a commit is going to fail, if it is. -/
def objection (p : Protocol κ σ) (t : Transaction κ) (s : σ) : Option String × σ :=
  if t.rollbackOnly then (some "transaction marked rollback-only", s)
  else p.askAll t.participants s

/-- Completes a transaction towards its participants. -/
def settle (p : Protocol κ σ) (commit : Bool) (t : Transaction κ) (s : σ) :
    Except Error Unit × σ :=
  if commit then
    match p.objection t s with
    | (none, s) => (.ok (), p.tellAll .committed t.participants s)
    | (some reason, s) =>
      (.error (.transactionAborted reason), p.tellAll .rolledBack t.participants s)
  else (.ok (), p.tellAll .rolledBack t.participants s)

end Protocol

/-- The transactions that are not completed, and the threads bound to them. -/
structure TransactionManager (κ : Type) where
  /-- The number of the next transaction. -/
  next : Nat
  /-- The transaction of each thread that has one. -/
  bindings : Numbered Nat
  active : Numbered (Transaction κ)

namespace TransactionManager

variable {κ σ : Type}

/-- No transactions so far. -/
def start : TransactionManager κ := ⟨1, .empty, .empty⟩

/-- The transaction of a thread. -/
def current (m : TransactionManager κ) (thread : Nat) : Option Nat := m.bindings.get? thread

/-- Begins a transaction on a thread that has none. -/
def begin (m : TransactionManager κ) (thread : Nat) :
    Except Error (Nat × TransactionManager κ) :=
  if m.bindings.contains thread then .error (.refused .transactionOnThread)
  else .ok (m.next,
    { next := m.next + 1
      bindings := m.bindings.put thread m.next
      active := m.active.put m.next ⟨false, []⟩ })

/-- Rules out that the thread's transaction is committed. -/
def setRollbackOnly (m : TransactionManager κ) (thread : Nat) :
    Except Error (TransactionManager κ) :=
  match (m.current thread).bind fun id => (m.active.get? id).map (id, ·) with
  | none => .error .noActiveTransaction
  | some (id, t) => .ok { m with active := m.active.put id { t with rollbackOnly := true } }

/-- Unbinds a thread from its transaction, which stays active. -/
def suspend (m : TransactionManager κ) (thread : Nat) : Option Nat × TransactionManager κ :=
  (m.current thread, { m with bindings := m.bindings.remove thread })

/-- Binds a thread that has no transaction to an active one. -/
def resume (m : TransactionManager κ) (thread id : Nat) : Except Error (TransactionManager κ) :=
  if !m.active.contains id then .error .noActiveTransaction
  else if m.bindings.contains thread then .error (.refused .transactionOnThread)
  else .ok { m with bindings := m.bindings.put thread id }

/-- Registers a participant with an active transaction. -/
def register (m : TransactionManager κ) (id : Nat) (participant : κ) :
    Except Error (TransactionManager κ) :=
  match m.active.get? id with
  | none => .error .noActiveTransaction
  | some t =>
    let t := { t with participants := t.participants ++ [participant] }
    .ok { m with active := m.active.put id t }

/-- Takes the transaction of a thread out: it is active no longer, and no thread is bound to it. -/
def take (m : TransactionManager κ) (thread : Nat) :
    Option (Nat × Transaction κ) × TransactionManager κ :=
  match m.current thread with
  | none => (none, m)
  | some id =>
    let m' := { m with bindings := m.bindings.keep (· != id), active := m.active.remove id }
    ((m.active.get? id).map (id, ·), m')

/-- Commits or rolls back the transaction of a thread. -/
def complete (p : Protocol κ σ) (commit : Bool) (thread : Nat) (m : TransactionManager κ) (s : σ) :
    Except Error Unit × TransactionManager κ × σ :=
  match m.take thread with
  | (none, m) => (.error .noActiveTransaction, m, s)
  | (some (_, t), m) =>
    let (result, s) := p.settle commit t s
    (result, m, s)

/-- The number of transactions that are not completed. -/
def activeCount (m : TransactionManager κ) : Nat := m.active.size

end TransactionManager

end ContentRepository
