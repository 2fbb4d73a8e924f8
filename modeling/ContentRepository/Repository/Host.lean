import ContentRepository.Repository.Basic
import ContentRepository.Transaction.Scope

/-!
# Hosts: repositories in use by several threads

A `Host` is a program that uses a repository. It puts the `Repository` together with what its
callers bring along: a `LocalTransactionManager`, threads with their interruption flags
(`InterruptHandle`), and indexing, which goes on beside them and can be paused. Threads are given by
numbers; a thread that was never heard of has no transaction and is not interrupted.

* **`Host.connect`** gives a connection that fits the transaction of the thread, as `get_session` of
  the `SessionCoordinator` does.
* **`Host.begin`** and **`Host.complete`** begin and complete transactions. Contexts take part in
  the completion as a `Synchronization` (`participation`): they commit their session in
  `before_completion` and are released in `after_completion`.
* **`Host.settle`** lets indexing catch up. It is called between the steps of the callers, so that
  every step sees the texts of all jobs submitted before, unless indexing is paused.
* **`Host.awaitIdle`** waits for indexing (`wait_for_indexing`, `wait_idle`), and is interrupted
  where their `check` is.
-/

namespace ContentRepository

/-- Who takes part in the completion of a transaction. -/
inductive Participant where
  /-- A context, by number. -/
  | context (number : Nat)
  /-- An observer who keeps a record under a label, and who may object to every commit. -/
  | observer (label : String) (objection : Option Error)

/-- A repository in use. -/
structure Host where
  repository : Repository
  manager : TransactionManager Participant
  /-- What observers of transactions recorded. -/
  record : List String
  /-- The threads whose interruption flag is set. -/
  interrupted : List Nat
  /-- Whether indexing is paused. -/
  paused : Bool
  /-- The documents from which indexing is kept. -/
  obstructed : List String
  /-- Another queue of jobs on the same store. -/
  sideQueue : Option IndexQueue

/-- What participants do, to a repository and a record. -/
def participation : Protocol Participant (Repository × List String) where
  before
    | .context number, (r, record) =>
      let (result, r) := r.commitContext number
      (result, r, record)
    | .observer label objection, (r, record) =>
      (objection.elim (.ok ()) .error, r, record ++ [label ++ ":before"])
  after
    | .context number, _, (r, record) => (r.releaseContext number, record)
    | .observer label _, outcome, (r, record) =>
      (r, record ++ [label ++ ":after:" ++ outcome.text])

namespace Host

/-- A host for a repository that was just opened. -/
def start (repository : Repository) (sideQueue : Option IndexQueue) : Host :=
  { repository, sideQueue
    manager := .start
    record := []
    interrupted := []
    paused := false
    obstructed := [] }

/-! ## Transactions -/

/-- Begins a transaction on a thread. -/
def begin (h : Host) (thread : Nat) : Except Error Nat × Host :=
  match h.manager.begin thread with
  | .ok (id, manager) => (.ok id, { h with manager })
  | .error e => (.error e, h)

/-- Commits or rolls back the transaction of a thread. -/
def complete (h : Host) (commit : Bool) (thread : Nat) : Except Error Unit × Host :=
  let (result, manager, repository, record) :=
    TransactionManager.complete participation commit thread h.manager (h.repository, h.record)
  (result, { h with manager, repository, record })

/-- The host with another manager, or the error. -/
def withManager (h : Host) (manager : Except Error (TransactionManager Participant)) :
    Except Error Unit × Host :=
  match manager with
  | .ok manager => (.ok (), { h with manager })
  | .error e => (.error e, h)

/-- Rules out that the transaction of a thread is committed. -/
def setRollbackOnly (h : Host) (thread : Nat) : Except Error Unit × Host :=
  h.withManager (h.manager.setRollbackOnly thread)

/-- Unbinds a thread from its transaction. -/
def suspend (h : Host) (thread : Nat) : Option Nat × Host :=
  let (id, manager) := h.manager.suspend thread
  (id, { h with manager })

/-- Binds a thread to an active transaction. -/
def resume (h : Host) (thread id : Nat) : Except Error Unit × Host :=
  h.withManager (h.manager.resume thread id)

/-- Registers an observer with a transaction. -/
def observe (h : Host) (id : Nat) (label : String) (objection : Option Error) :
    Except Error Unit × Host :=
  h.withManager (h.manager.register id (.observer label objection))

/-- The scope in which a thread works inside transactions of a host. -/
def scope {m : Type → Type} [Monad m] [MonadStateOf Host m] (thread : Nat) :
    TransactionScope m where
  begin := modifyGet (·.begin thread)
  complete commit := modifyGet (·.complete commit thread)

/-! ## Connections -/

/-- A connection for a caller in the given transaction, or in none. The first one in a transaction
makes its context, which takes part in the completion from then on. -/
def connect (h : Host) (transaction : Option Nat) (id : String) :
    Except Error Connection × Host :=
  match h.repository.requireOpen with
  | .error e => (.error e, h)
  | .ok () =>
    match transaction with
    | none =>
      let (number, repository) := h.repository.newSession id
      (.ok (.session number), { h with repository })
    | some transaction =>
      match h.repository.contextOf? transaction with
      | some context =>
        let (c, repository) := h.repository.newHandle context id
        (.ok c, { h with repository })
      | none =>
        let (context, repository) := h.repository.newContext transaction id
        match h.manager.register transaction (.context context) with
        | .error e => (.error e, h)
        | .ok manager =>
          let (c, repository) := repository.newHandle context id
          (.ok c, { h with manager, repository })

/-- Makes a call through a connection. -/
def perform (h : Host) (c : Connection) (call : Session.Call) :
    Except Error Session.Answer × Host :=
  let (answer, repository) := h.repository.perform c call
  (answer, { h with repository })

/-- Makes a call to the store of the repository. -/
def performOnStore (h : Host) (call : Store.Call) : Except StoreError Store.Answer × Host :=
  let site := h.repository.site
  let (answer, store) := site.store.perform call
  (answer, { h with repository := h.repository.withIndexed site.queue store })

/-- Closes a connection. -/
def close (h : Host) (c : Connection) : Host := { h with repository := h.repository.close c }

/-- Gives up a connection. -/
def drop (h : Host) (c : Connection) : Host := { h with repository := h.repository.drop c }

/-- Completes a context without its transaction: its session is committed, and then it is released
whatever came of that. -/
def completeContext (h : Host) (number : Nat) : Except Error Unit × Host :=
  let (result, repository) := h.repository.commitContext number
  (result, { h with repository := repository.releaseContext number })

/-! ## Indexing -/

/-- What keeps indexing from a document. -/
def obstacle (h : Host) (id : String) : Option StoreError :=
  if h.obstructed.contains id then some (.unavailable "injected") else none

/-- The host with other queue and store on the side. -/
def withSide (h : Host) (queue : IndexQueue) (store : Store) : Host :=
  { h with
    sideQueue := some queue
    repository := h.repository.withIndexed h.repository.site.queue store }

/-- Carries out the jobs of the side queue that wait. -/
def drainSide (h : Host) : Host :=
  match h.sideQueue with
  | none => h
  | some queue =>
    let (queue, store) := queue.drain h.obstacle h.repository.site.store
    h.withSide queue store

/-- Lets indexing catch up, unless it is paused. -/
def settle (h : Host) : Host :=
  if h.paused then h
  else { h with repository := h.repository.drainQueue h.obstacle }.drainSide

/-- Pauses indexing. -/
def pause (h : Host) : Host := { h with paused := true }

/-- Goes on with indexing. -/
def unpause (h : Host) : Host := { h with paused := false }.settle

/-- Hands a job to the side queue. -/
def submit (h : Host) (job : IndexJob) : Except Error Unit × Host :=
  match h.sideQueue with
  | none => (.error (.unavailable "there is no such queue"), h)
  | some queue =>
    match queue.submit job with
    | .ok queue => (.ok (), { h with sideQueue := some queue })
    | .error e => (.error e, h)

/-- Shuts the side queue down. A pause ends with it. -/
def shutDownSide (h : Host) : Host :=
  let h := h.unpause
  match h.sideQueue with
  | none => h
  | some queue =>
    let (queue, store) := queue.shutDown h.obstacle h.repository.site.store
    h.withSide queue store

/-- Shuts the repository down. A pause of indexing ends with it. -/
def shutDown (h : Host) : Host :=
  let h := h.unpause
  { h with repository := h.repository.shutDown h.obstacle }

/-! ## Interruption and waiting -/

/-- Whether the interruption flag of a thread is set. -/
def isInterrupted (h : Host) (thread : Nat) : Bool := h.interrupted.contains thread

/-- Sets the interruption flag of a thread. -/
def interrupt (h : Host) (thread : Nat) : Host :=
  if h.isInterrupted thread then h else { h with interrupted := thread :: h.interrupted }

/-- Clears the interruption flag of a thread; whether it was set. -/
def takeInterrupted (h : Host) (thread : Nat) : Bool × Host :=
  (h.isInterrupted thread, { h with interrupted := h.interrupted.filter (· != thread) })

/-- Fails if the thread is interrupted, and clears the flag. -/
def checkInterrupted (h : Host) (thread : Nat) : Except Error Unit × Host :=
  let (was, h) := h.takeInterrupted thread
  (if was then .error .interrupted else .ok (), h)

/-- What a thread waits for. -/
inductive Awaited where
  /-- The indexing of a repository, through a connection. -/
  | connection (c : Connection)
  /-- The side queue. -/
  | side

/-- What a thread gets that begins to wait now. -/
def await (h : Host) (thread : Nat) : Awaited → Except Error Waiting
  | .connection c =>
    (h.repository.through c fun w => (w.awaitIndexing (h.isInterrupted thread), w)).1
  | .side => return (h.sideQueue.map (·.await (h.isInterrupted thread))).getD .idle

/-- Ends a wait for an interruption. The flag is cleared; but a handle sets it again for those who
called its user. -/
def interruptedWait (h : Host) (thread : Nat) : Awaited → Host
  | .connection (.handle ..) => h
  | _ => (h.takeInterrupted thread).2

/-- What another thread does to one that waits. -/
inductive Intervention where
  /-- It ends the pause of indexing. -/
  | unpause
  /-- It interrupts the waiting thread. -/
  | interrupt

/-- The host after an intervention. -/
def intervene (h : Host) (thread : Nat) : Intervention → Host
  | .unpause => h.unpause
  | .interrupt => h.interrupt thread

/-- What comes of a wait once it is known how it ends: whether the queue is idle, or an error. -/
def endWait (h : Host) (thread : Nat) (awaited : Awaited) :
    Except Error Waiting → Except Error Bool × Host
  | .error e => (.error e, h)
  | .ok .idle => (.ok true, h)
  | .ok .busy => (.ok false, h)
  | .ok .interrupted => (.error .interrupted, h.interruptedWait thread awaited)

/-- Waits until indexing is idle; false if it does not get so in time. Nothing happens during the
wait but the intervention, which comes after a delay. If the wait is over before that, the
intervention still takes place. A wait without `patience` has no bound. -/
def awaitIdle (h : Host) (thread : Nat) (awaited : Awaited) (patience : Option Nat)
    (intervention : Option (Nat × Intervention)) : Except Error Bool × Host :=
  match h.await thread awaited, intervention with
  | waiting, none => h.endWait thread awaited waiting
  | .ok .busy, some (delay, i) =>
    let later := h.intervene thread i
    if patience.all (delay < ·) then later.endWait thread awaited (later.await thread awaited)
    else (.ok false, later)
  | waiting, some (_, i) =>
    let (result, h) := h.endWait thread awaited waiting
    (result, h.intervene thread i)

end Host

end ContentRepository
