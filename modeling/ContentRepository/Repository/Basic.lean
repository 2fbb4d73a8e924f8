import ContentRepository.Config
import ContentRepository.Numbered
import ContentRepository.Session.Call
import ContentRepository.Transaction.Manager

/-!
# Repositories and connections

A `Repository` is a site with all sessions that were ever opened on it, and with the registry of its
`SessionCoordinator`. A `Connection` is what `get_session` gives. Outside of transactions that is a
session of its own, a `DocumentSession`. Inside one, it is a `SessionHandle` on the one session that
the transaction shares; a `Context` is this `TransactionContext`. A handle can be closed alone, and
all are closed when the transaction is completed.

* **`Repository.perform`** makes a call through a connection; **`Repository.through`** is `forward`.
* **`Context.isOpen`** says which handles are usable: those whose own flag is not set. The context's
  list of handles is kept beside the flags, as `new_handle`, `remove_handle` and `after_completion`
  do it (`Context.newHandle`, `Context.closeHandle`, `Context.complete`).
* **`Repository.create`** is `open_with_store`, **`Repository.shutDown`** is `shutdown`, and
  **`Repository.requireOpen`** is `ensure_open`.
-/

namespace ContentRepository

/-- The session that a transaction shares, and the handles on it. A handle is closed when its own
flag is set. The list of handles says whose flags are to be set at the completion, and how many
handles there are. -/
structure Context where
  transaction : Nat
  /-- The number of the shared session. -/
  session : Nat
  /-- The handles that the completion has to close, by number. -/
  handles : List Nat
  /-- The flag of every handle, by number: whether it is closed. -/
  flags : Numbered Bool
  /-- The number of the next handle. -/
  nextHandle : Nat
  /-- Whether the transaction is completed. -/
  completed : Bool

namespace Context

/-- The context of a transaction before its first handle. -/
def start (transaction session : Nat) : Context := ⟨transaction, session, [], .empty, 0, false⟩

/-- Whether a handle is open: it has a flag, and that is not set. -/
def isOpen (c : Context) (handle : Nat) : Bool := c.flags.get? handle == some false

/-- A new handle. After completion it is closed from the beginning, and not listed. -/
def newHandle (c : Context) : Nat × Context :=
  (c.nextHandle,
    { c with
      nextHandle := c.nextHandle + 1
      flags := c.flags.put c.nextHandle c.completed
      handles := if c.completed then c.handles else c.handles ++ [c.nextHandle] })

/-- The context after a handle was closed. Nothing happens to one that is closed already. -/
def closeHandle (c : Context) (handle : Nat) : Context :=
  if c.isOpen handle then
    { c with
      flags := c.flags.put handle true
      handles := c.handles.filter (· != handle) }
  else c

/-- Sets the flags of some handles. -/
def setFlags (flags : Numbered Bool) (handles : List Nat) : Numbered Bool :=
  handles.foldl (fun flags handle => flags.put handle true) flags

/-- The context after the completion: the handles that were listed are closed. -/
def complete (c : Context) : Context :=
  { c with completed := true, flags := setFlags c.flags c.handles, handles := [] }

end Context

/-- What a caller holds to make calls. -/
inductive Connection where
  /-- A session of its own, by number. -/
  | session (number : Nat)
  /-- A handle on a shared session: the id it was opened with, the number of the context, and its
  number there. -/
  | handle (id : String) (context : Nat) (number : Nat)

/-- A repository. -/
structure Repository where
  config : Config
  /-- Whether the store belongs to the repository, which then shuts it down with itself. -/
  ownsStore : Bool
  isOpen : Bool
  site : Site
  /-- All sessions that were opened, by number. -/
  sessions : Numbered Session
  /-- All contexts that were made, by number. -/
  contexts : Numbered Context
  /-- The number of the context of each transaction that has one. -/
  registry : Numbered Nat
  /-- The number of the next session and of the next context. -/
  next : Nat

namespace Repository

/-- Opens a repository on a store. Its root and its folder of versions are written at once. -/
def create (config : Config) (store : Store) (ownsStore : Bool) (clock : Instant) (seed : UInt64) :
    Except Error Repository := do
  let queue := if config.fulltext then some (IndexQueue.start config.name) else none
  let site ← Site.found config.name store (config.ids.source seed) clock queue
  return {
    config, ownsStore, site
    isOpen := true
    sessions := .empty
    contexts := .empty
    registry := .empty
    next := 0 }

/-- A session by number; one that was never opened counts as closed. -/
def session (r : Repository) (number : Nat) : Session :=
  (r.sessions.get? number).getD (Session.fresh "").close

/-- The workspace of a session. -/
def workspace (r : Repository) (number : Nat) : Workspace := ⟨r.site, r.session number⟩

/-- The repository after work in the workspace of a session. -/
def absorb (r : Repository) (number : Nat) (w : Workspace) : Repository :=
  { r with site := w.site, sessions := r.sessions.put number w.session }

/-- A context by number; one that was never made counts as completed. -/
def context (r : Repository) (number : Nat) : Context :=
  (r.contexts.get? number).getD (Context.start 0 0).complete

/-- The context of a transaction. -/
def contextOf? (r : Repository) (transaction : Nat) : Option Nat := r.registry.get? transaction

/-- The number of transactions that have a context. -/
def contextCount (r : Repository) : Nat := r.registry.size

/-- Refuses to give connections of a repository that is shut down. -/
def requireOpen (r : Repository) : Except Error Unit :=
  if r.isOpen then .ok ()
  else .error (.unavailable ("repository " ++ r.config.name ++ " is shut down"))

/-- A new session. -/
def newSession (r : Repository) (id : String) : Nat × Repository :=
  (r.next,
    { r with sessions := r.sessions.put r.next (Session.fresh id), next := r.next + 1 })

/-- A new context for a transaction, with a session opened for it. -/
def newContext (r : Repository) (transaction : Nat) (id : String) : Nat × Repository :=
  let (session, r) := r.newSession id
  (r.next,
    { r with
      contexts := r.contexts.put r.next (Context.start transaction session)
      registry := r.registry.put transaction r.next
      next := r.next + 1 })

/-- A new handle on the session of a context. -/
def newHandle (r : Repository) (context : Nat) (id : String) : Connection × Repository :=
  let (number, c) := (r.context context).newHandle
  (.handle id context number, { r with contexts := r.contexts.put context c })

/-- The number of the session that a connection uses. -/
def sessionOf (r : Repository) : Connection → Nat
  | .session number => number
  | .handle _ context _ => (r.context context).session

/-- The id that a connection was opened with. -/
def idOf (r : Repository) : Connection → String
  | .session number => (r.session number).id
  | .handle id _ _ => id

/-- Whether a handle can be used; a connection that is no handle leaves that to its session. -/
def isUsable (r : Repository) : Connection → Bool
  | .session _ => true
  | .handle _ context number => (r.context context).isOpen number

/-- Whether calls through a connection are not refused as such. -/
def isLive (r : Repository) (c : Connection) : Bool :=
  r.isUsable c && (r.session (r.sessionOf c)).live

/-- The error as callers of the connection see it: to them a closed session is a closed handle. -/
def seenThrough : Connection → Error → Error
  | .handle id _ _, .sessionClosed => .closedHandle id
  | _, e => e

/-- Works in the workspace of a connection that can be used. -/
def through {α : Type} (r : Repository) (c : Connection)
    (work : Workspace → Except Error α × Workspace) : Except Error α × Repository :=
  if r.isUsable c then
    let number := r.sessionOf c
    let (result, w) := work (r.workspace number)
    (result.mapError (seenThrough c), r.absorb number w)
  else (.error (.closedHandle (r.idOf c)), r)

/-- Makes a call through a connection. -/
def perform (r : Repository) (c : Connection) (call : Session.Call) :
    Except Error Session.Answer × Repository :=
  r.through c (·.perform call)

/-- Closes a connection. A handle is closed alone; the session behind it goes on. -/
def close (r : Repository) : Connection → Repository
  | .session number => { r with sessions := r.sessions.put number (r.session number).close }
  | .handle _ context number =>
    { r with contexts := r.contexts.put context ((r.context context).closeHandle number) }

/-- Gives up a connection without closing the session it may be. -/
def drop (r : Repository) : Connection → Repository
  | .session _ => r
  | c => r.close c

/-- Commits the session of a context, before its transaction is committed. -/
def commitContext (r : Repository) (number : Nat) : Except Error Unit × Repository :=
  let session := (r.context number).session
  let (result, w) := (r.workspace session).commit
  (result, r.absorb session w)

/-- Closes the session of a context and all its handles, after its transaction was completed, and
forgets that the transaction had one. -/
def releaseContext (r : Repository) (number : Nat) : Repository :=
  let c := r.context number
  { r with
    sessions := r.sessions.put c.session (r.session c.session).close
    contexts := r.contexts.put number c.complete
    registry := r.registry.remove c.transaction }

/-- The repository with another queue and another store on its site. -/
def withIndexed (r : Repository) (queue : Option IndexQueue) (store : Store) : Repository :=
  { r with site := { r.site with queue, store } }

/-- Carries out the indexing jobs that wait. -/
def drainQueue (r : Repository) (obstacle : String → Option StoreError) : Repository :=
  match r.site.queue with
  | none => r
  | some queue =>
    let (queue, store) := queue.drain obstacle r.site.store
    r.withIndexed (some queue) store

/-- Shuts the repository down: the indexing jobs that wait are carried out, and a store of its own
is shut down too. Connections stay as they are, but there are no new ones. -/
def shutDown (r : Repository) (obstacle : String → Option StoreError) : Repository :=
  if !r.isOpen then r
  else
    let r := match r.site.queue with
      | none => r
      | some queue =>
        let (queue, store) := queue.shutDown obstacle r.site.store
        r.withIndexed (some queue) store
    let store := if r.ownsStore then r.site.store.shutDown else r.site.store
    { r with isOpen := false, site := { r.site with store } }

end Repository

end ContentRepository
