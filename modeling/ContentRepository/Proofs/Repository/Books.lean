import ContentRepository.Numbered.Lemmas
import ContentRepository.Proofs.Session.Frame
import ContentRepository.Proofs.Transaction.History
import ContentRepository.Repository.Host

/-!
# The books of a host

Which handles can be used is settled by few parts of a `Host`, here called its books: the
`TransactionContext`s and the registry of the `SessionCoordinator`, which sessions are live, and
which contexts are registered with the active transactions. Most of what happens to a host leaves
them alone.

* **`Repository.books`**, **`Host.books`** — the books.
* **`Host.books_perform`**, **`Host.books_awaitIdle`** — operations on connections leave them alone,
  and so do, among others, indexing and shutting down.
* **`Repository.through_of_not_usable`** — a handle that cannot be used refuses everything.
-/

namespace ContentRepository

/-- The context that takes part, if it is one. -/
def Participant.context? : Participant → Option Nat
  | .context number => some number
  | .observer .. => none

/-! ## Repositories -/

/-- What is written down about the sessions of a repository. -/
structure Repository.Books where
  contexts : Nat → Option Context
  registry : Nat → Option Nat
  /-- The number of the next session and of the next context. -/
  next : Nat
  /-- Which sessions are live. -/
  live : Nat → Bool

namespace Repository

def books (r : Repository) : Books where
  contexts := r.contexts.get?
  registry := r.registry.get?
  next := r.next
  live number := (r.session number).live

variable {r : Repository}

theorem session_put (r : Repository) (number : Nat) (s : Session) (other : Nat) :
    ({ r with sessions := r.sessions.put number s } : Repository).session other =
      if other = number then s else r.session other := by
  rw [session, Numbered.get?_put]
  split <;> rfl

theorem session_absorb (r : Repository) (number : Nat) (w : Workspace) (other : Nat) :
    (r.absorb number w).session other = if other = number then w.session else r.session other :=
  session_put { r with site := w.site } number w.session other

/-- Work that does not close its session leaves the books alone. -/
theorem books_absorb {number : Nat} {w : Workspace}
    (hlive : w.session.live = (r.session number).live) : (r.absorb number w).books = r.books := by
  have hsame : ∀ other, ((r.absorb number w).session other).live = (r.session other).live := by
    intro other
    rw [session_absorb]
    split
    · next heq => rw [hlive, heq]
    · rfl
  rw [books, funext hsame]
  rfl

theorem books_through {α : Type} (c : Connection) {work : Workspace → Except Error α × Workspace}
    (hlive : ∀ w, (work w).2.session.live = w.session.live) :
    (r.through c work).2.books = r.books := by
  rw [through]
  split
  · exact books_absorb (hlive _)
  · rfl

theorem books_perform (c : Connection) (call : Session.Call) :
    (r.perform c call).2.books = r.books :=
  books_through c fun _ => Workspace.live_perform call

theorem books_commitContext (number : Nat) : (r.commitContext number).2.books = r.books :=
  books_absorb Workspace.live_commit

theorem books_drainQueue (obstacle : String → Option StoreError) :
    (r.drainQueue obstacle).books = r.books := by
  rw [drainQueue]
  split <;> rfl

theorem books_shutDown (obstacle : String → Option StoreError) :
    (r.shutDown obstacle).books = r.books := by
  rw [shutDown]
  cases r.isOpen with
  | false => rfl
  | true => cases r.site.queue <;> rfl

/-! ### New sessions, contexts and handles -/

theorem context_of_get? {n : Nat} {c : Context} (hc : r.contexts.get? n = some c) :
    r.context n = c := by
  rw [context, hc]
  rfl

theorem books_newSession (r : Repository) (id : String) :
    (r.newSession id).2.books =
      { r.books with
        next := r.next + 1
        live := fun s => if s = r.next then true else r.books.live s } := by
  have hlive : ∀ s, ((r.newSession id).2.session s).live =
      if s = r.next then true else (r.session s).live := by
    intro s
    have hput : (r.newSession id).2.session s =
        if s = r.next then Session.fresh id else r.session s :=
      session_put r r.next (Session.fresh id) s
    rw [hput]
    split <;> rfl
  rw [books, funext hlive]
  rfl

theorem newHandle_of_context {n : Nat} {c : Context} (hc : r.contexts.get? n = some c)
    (id : String) : r.newHandle n id = (.handle id n c.nextHandle,
      { r with contexts := r.contexts.put n c.newHandle.2 }) := by
  rw [newHandle, context_of_get? hc]
  rfl

theorem books_put_context (r : Repository) (n : Nat) (c : Context) :
    ({ r with contexts := r.contexts.put n c } : Repository).books =
      { r.books with contexts := fun m => if m = n then some c else r.books.contexts m } := by
  rw [books, funext (Numbered.get?_put r.contexts n c)]
  rfl

/-- A new context with its first handle. -/
theorem newContext_newHandle (r : Repository) (transaction : Nat) (id : String) :
    (r.newContext transaction id).1 = r.next + 1 ∧
    ((r.newContext transaction id).2.newHandle (r.next + 1) id).1 =
      .handle id (r.next + 1) 0 ∧
    ((r.newContext transaction id).2.newHandle (r.next + 1) id).2.books =
      { contexts := fun m =>
          if m = r.next + 1 then some (Context.start transaction r.next).newHandle.2
          else r.books.contexts m
        registry := fun t => if t = transaction then some (r.next + 1) else r.books.registry t
        next := r.next + 2
        live := fun s => if s = r.next then true else r.books.live s } := by
  have hc : (r.newContext transaction id).2.contexts.get? (r.next + 1) =
      some (Context.start transaction r.next) := by
    show (r.contexts.put (r.next + 1) _).get? (r.next + 1) = _
    rw [Numbered.get?_put, if_pos rfl]
  have hcontexts : ∀ m, (r.newContext transaction id).2.contexts.get? m =
      if m = r.next + 1 then some (Context.start transaction r.next) else r.contexts.get? m :=
    Numbered.get?_put r.contexts (r.next + 1) _
  have hregistry : ∀ t, (r.newContext transaction id).2.registry.get? t =
      if t = transaction then some (r.next + 1) else r.registry.get? t :=
    Numbered.get?_put r.registry transaction _
  have hsession : ∀ s, ((r.newContext transaction id).2.session s).live =
      (r.newSession id).2.books.live s := fun _ => rfl
  rw [books_newSession] at hsession
  rw [newHandle_of_context hc]
  refine ⟨rfl, rfl, ?_⟩
  rw [books_put_context, books, funext hcontexts, funext hregistry, funext hsession]
  refine congrArg (fun contexts => Books.mk contexts _ _ _) (funext fun m => ?_)
  dsimp only
  split
  · rfl
  · rfl

theorem books_releaseContext {n : Nat} {c : Context} (hc : r.contexts.get? n = some c) :
    (r.releaseContext n).books =
      { r.books with
        contexts := fun m => if m = n then some c.complete else r.books.contexts m
        registry := fun t => if t = c.transaction then none else r.books.registry t
        live := fun s => if s = c.session then false else r.books.live s } := by
  -- a session that was closed before is not live either
  have hclosed : ∀ s : Session, s.close.live = false := by
    intro s
    rw [Session.close]
    split
    · rfl
    · next hlive => simpa using hlive
  have hlive : ∀ s, ((r.releaseContext n).session s).live =
      if s = c.session then false else (r.session s).live := by
    intro s
    have hput : (r.releaseContext n).session s =
        if s = c.session then (r.session c.session).close else r.session s := by
      rw [releaseContext, context_of_get? hc]
      exact session_put r c.session _ s
    rw [hput]
    split
    · exact hclosed _
    · rfl
  rw [books, funext hlive, releaseContext, context_of_get? hc,
    funext (Numbered.get?_put r.contexts n c.complete),
    funext (Numbered.get?_remove r.registry c.transaction)]
  rfl

/-! ### Refusals -/

/-- **A handle that cannot be used refuses everything, and nothing changes.** -/
theorem through_of_not_usable {α : Type} {c : Connection} (hunusable : r.isUsable c = false)
    (work : Workspace → Except Error α × Workspace) :
    r.through c work = (.error (.closedHandle (r.idOf c)), r) := by
  rw [through, hunusable, if_neg Bool.false_ne_true]

end Repository

/-! ## Participants -/

/-- To ask participants leaves the books alone. -/
theorem books_askAll (participants : List Participant) (r : Repository) (record : List String) :
    (participation.askAll participants (r, record)).2.1.books = r.books := by
  induction participants generalizing r record with
  | nil => rfl
  | cons first rest ih =>
    -- a context commits its session, which stays live
    have hbefore : (participation.before first (r, record)).2.1.books = r.books := by
      cases first with
      | context number => exact Repository.books_commitContext number
      | observer label objection => rfl
    rw [Protocol.askAll]
    split
    · next heq =>
      rw [heq] at hbefore
      exact (ih _ _).trans hbefore
    · next heq =>
      rw [heq] at hbefore
      exact hbefore

/-- To tell participants releases the contexts among them. -/
theorem tellAll_participation (outcome : Outcome) (participants : List Participant)
    (r : Repository) (record : List String) :
    (participation.tellAll outcome participants (r, record)).1 =
      (participants.filterMap Participant.context?).foldl Repository.releaseContext r := by
  induction participants generalizing r record with
  | nil => rfl
  | cons first rest ih =>
    cases first with
    | context number => exact ih (r.releaseContext number) record
    | observer label objection => exact ih r _

/-- A completion may change the site, and then it releases the contexts that take part. -/
theorem settle_participation (commit : Bool) (t : Transaction Participant) (r : Repository)
    (record : List String) : ∃ r' : Repository, r'.books = r.books ∧
      (participation.settle commit t (r, record)).2.1 =
        (t.participants.filterMap Participant.context?).foldl Repository.releaseContext r' := by
  cases commit with
  | false => exact ⟨r, rfl, tellAll_participation .rolledBack t.participants r record⟩
  | true =>
    rw [Protocol.settle, if_pos rfl, Protocol.objection]
    cases t.rollbackOnly with
    | true => exact ⟨r, rfl, tellAll_participation .rolledBack t.participants r record⟩
    | false =>
      rw [if_neg Bool.false_ne_true]
      have hask := books_askAll t.participants r record
      generalize participation.askAll t.participants (r, record) = asked at hask ⊢
      rcases asked with ⟨_ | reason, r', record'⟩
      · exact ⟨r', hask, tellAll_participation .committed t.participants r' record'⟩
      · exact ⟨r', hask, tellAll_participation .rolledBack t.participants r' record'⟩

/-! ## Hosts -/

namespace Host

/-- The contexts that take part in a transaction, while it is active. -/
def parties (h : Host) (transaction : Nat) : Option (List Nat) :=
  (h.manager.active.get? transaction).map fun t =>
    t.participants.filterMap Participant.context?

/-- What is written down about sessions and transactions. -/
structure Books extends Repository.Books where
  /-- The number of the next transaction. -/
  begun : Nat
  parties : Nat → Option (List Nat)

def books (h : Host) : Books where
  toBooks := h.repository.books
  begun := h.manager.next
  parties := h.parties

variable {h h' : Host}

/-- The books are the same if those of the repository and what takes part in transactions are. -/
theorem books_congr (hbooks : h'.repository.books = h.repository.books)
    (hbegun : h'.manager.next = h.manager.next)
    (hparties : ∀ transaction, h'.parties transaction = h.parties transaction) :
    h'.books = h.books := by
  rw [books, hbooks, hbegun, funext hparties]
  rfl

/-! ### What the manager does -/

/-- A change to an active transaction leaves the books alone if the same contexts take part. -/
theorem books_put {id : Nat} {t t' : Transaction Participant}
    (ht : h.manager.active.get? id = some t)
    (hparties : t'.participants.filterMap Participant.context? =
      t.participants.filterMap Participant.context?) :
    ({ h with manager := { h.manager with active := h.manager.active.put id t' } } : Host).books =
      h.books := by
  refine books_congr rfl rfl fun transaction => ?_
  rw [Host.parties, Host.parties, Numbered.get?_put]
  split
  · next heq => rw [heq, ht, Option.map_some, Option.map_some, hparties]
  · rfl

theorem books_suspend (h : Host) (thread : Nat) : (h.suspend thread).2.books = h.books := rfl

theorem books_resume (h : Host) (thread id : Nat) : (h.resume thread id).2.books = h.books := by
  rw [resume, TransactionManager.resume]
  split
  · rfl
  · split <;> rfl

theorem books_setRollbackOnly (h : Host) (thread : Nat) :
    (h.setRollbackOnly thread).2.books = h.books := by
  rw [setRollbackOnly, TransactionManager.setRollbackOnly]
  cases hcurrent : h.manager.current thread with
  | none => rfl
  | some id =>
    rw [Option.bind_some]
    cases ht : h.manager.active.get? id with
    | none => rfl
    | some t => exact books_put ht rfl

theorem books_observe (h : Host) (id : Nat) (label : String) (objection : Option Error) :
    (h.observe id label objection).2.books = h.books := by
  rw [observe, TransactionManager.register]
  cases ht : h.manager.active.get? id with
  | none => rfl
  | some t =>
    refine books_put ht ?_
    rw [List.filterMap_append]
    exact List.append_nil _

theorem books_begin (h : Host) (thread : Nat) :
    (h.begin thread).2.books = h.books ∨
      (h.begin thread).2.books = { h.books with
        begun := h.manager.next + 1
        parties := fun tx => if tx = h.manager.next then some [] else h.parties tx } := by
  rw [begin, TransactionManager.begin]
  split
  · next id manager heq =>
    split at heq
    · cases heq
    · cases heq
      right
      refine congrArg (Books.mk h.repository.books (h.manager.next + 1)) (funext fun tx => ?_)
      rw [Host.parties, Numbered.get?_put]
      split <;> rfl
  · exact .inl rfl

/-- A completion takes a transaction out, and then it releases the contexts that take part. -/
theorem books_complete (h : Host) (commit : Bool) (thread : Nat) :
    (h.complete commit thread).2.books = h.books ∨
      ∃ id ns r, h.parties id = some ns ∧ r.books = h.repository.books ∧
        (h.complete commit thread).2.books =
          { (ns.foldl Repository.releaseContext r).books with
            begun := h.manager.next
            parties := fun tx => if tx = id then none else h.parties tx } := by
  -- nobody takes part any more in the transaction that is taken out
  have hparties : ∀ id tx, ((h.manager.without id).active.get? tx).map
      (fun t => t.participants.filterMap Participant.context?) =
        if tx = id then none else h.parties tx := by
    intro id tx
    rw [TransactionManager.active_without]
    split <;> rfl
  rw [complete]
  cases hcurrent : h.manager.current thread with
  | none =>
    -- the thread has no transaction: refused, and nothing changes
    rw [TransactionManager.complete_of_current_none participation commit hcurrent]
    exact .inl rfl
  | some id =>
    cases ht : h.manager.active.get? id with
    | none =>
      left
      -- its transaction is gone already; that takes nobody out
      rw [TransactionManager.complete_of_not_active participation commit hcurrent ht]
      refine books_congr rfl rfl fun tx => (hparties id tx).trans ?_
      split
      · next heq => rw [heq, Host.parties, ht, Option.map_none]
      · rfl
    | some t =>
      obtain ⟨r, hbooks, hsettle⟩ := settle_participation commit t h.repository h.record
      refine .inr ⟨id, t.participants.filterMap Participant.context?, r, ?_, hbooks, ?_⟩
      · rw [Host.parties, ht, Option.map_some]
      · -- everyone is settled with, and the contexts among them are released
        rw [TransactionManager.complete_of_current_some participation commit hcurrent ht]
        dsimp only
        rw [books, hsettle]
        exact congrArg (Books.mk _ _) (funext (hparties id))

/-! ### Connections are given -/

/-- A repository that is not shut down gives connections. -/
theorem requireOpen_of_isOpen {r : Repository} (hopen : r.isOpen = true) :
    r.requireOpen = .ok () := by
  rw [Repository.requireOpen, if_pos hopen]

/-- A transaction that has a context gets one more handle to it. -/
theorem connect_of_registered {h : Host} {transaction n : Nat}
    (hopen : h.repository.requireOpen = .ok ())
    (hregistry : h.repository.registry.get? transaction = some n) (id : String) :
    h.connect (some transaction) id = (.ok (h.repository.newHandle n id).1,
      { h with repository := (h.repository.newHandle n id).2 }) := by
  unfold connect
  rw [hopen]
  simp only [Repository.contextOf?, hregistry]

/-- A new context is registered with its transaction, or there is no such transaction. -/
theorem connect_of_not_registered {h : Host} {transaction : Nat}
    (hopen : h.repository.requireOpen = .ok ())
    (hnone : h.repository.registry.get? transaction = none) (id : String) :
    h.connect (some transaction) id =
      match h.manager.register transaction (.context (h.repository.next + 1)) with
      | .error e => (.error e, h)
      | .ok manager =>
        let (c, repository) := (h.repository.newContext transaction id).2.newHandle
          (h.repository.next + 1) id
        (.ok c, { h with manager, repository }) := by
  unfold connect
  rw [hopen]
  simp only [Repository.contextOf?, hnone]
  rfl

/-- A connection is refused, or it is a session of its own, or a handle on the context that is
registered with the transaction, or one on a new context. -/
theorem books_connect (h : Host) (transaction : Option Nat) (id : String) :
    (∃ e, h.connect transaction id = (.error e, h)) ∨
      ∃ c h', h.connect transaction id = (.ok c, h') ∧
        ((transaction = none ∧ c = .session h.repository.next ∧
            h'.books = { h.books with
              next := h.repository.next + 1
              live := fun s => if s = h.repository.next then true else h.books.live s }) ∨
          (∃ tx n, transaction = some tx ∧ h.repository.registry.get? tx = some n ∧
            c = (h.repository.newHandle n id).1 ∧
            h'.books = { h.books with toBooks := (h.repository.newHandle n id).2.books }) ∨
          ∃ tx ns, transaction = some tx ∧ h.repository.registry.get? tx = none ∧
            h.parties tx = some ns ∧ c = .handle id (h.repository.next + 1) 0 ∧
            h'.books = { h.books with
              contexts := fun m =>
                if m = h.repository.next + 1 then
                  some (Context.start tx h.repository.next).newHandle.2
                else h.books.contexts m
              registry := fun t =>
                if t = tx then some (h.repository.next + 1) else h.books.registry t
              next := h.repository.next + 2
              live := fun s => if s = h.repository.next then true else h.books.live s
              parties := fun t =>
                if t = tx then some (ns ++ [h.repository.next + 1]) else h.parties t }) := by
  -- a closed repository refuses before it looks at the transaction
  cases hopen : h.repository.requireOpen with
  | error e =>
    left
    refine ⟨e, ?_⟩
    unfold connect
    rw [hopen]
  | ok u =>
    cases transaction with
    | none =>
      -- a session of its own: only the next number and who lives change
      refine .inr ⟨_, { h with repository := (h.repository.newSession id).2 }, ?_,
        .inl ⟨rfl, rfl, ?_⟩⟩
      · unfold connect
        rw [hopen]
        rfl
      · rw [books, Repository.books_newSession]
        rfl
    | some tx =>
      cases hregistry : h.repository.registry.get? tx with
      | some n =>
        -- the transaction has a context: one more handle to it
        refine .inr ⟨_, { h with repository := (h.repository.newHandle n id).2 }, ?_,
          .inr (.inl ⟨tx, n, rfl, hregistry, rfl, ?_⟩)⟩
        · exact connect_of_registered hopen hregistry id
        · rfl
      | none =>
        -- a new context, which becomes a participant of the transaction if that is still active
        rw [connect_of_not_registered hopen hregistry, TransactionManager.register]
        cases ht : h.manager.active.get? tx with
        | none => exact .inl ⟨.noActiveTransaction, rfl⟩
        | some t =>
          obtain ⟨-, hconnection, hbooks⟩ := h.repository.newContext_newHandle tx id
          generalize (h.repository.newContext tx id).2.newHandle (h.repository.next + 1) id =
            made at hconnection hbooks ⊢
          refine .inr ⟨_, _, rfl, .inr (.inr ⟨tx, t.participants.filterMap Participant.context?,
            rfl, hregistry, by rw [Host.parties, ht, Option.map_some], hconnection, ?_⟩)⟩
          rw [books]
          dsimp only
          rw [hbooks]
          -- only the participants of this transaction are longer, by the new context
          refine congrArg (Books.mk _ _) (funext fun t' => ?_)
          rw [Host.parties, Numbered.get?_put]
          split
          · rw [Option.map_some, List.filterMap_append]
            rfl
          · rfl

/-! ### Operations on connections, and indexing -/

theorem books_of_repository {r : Repository} (hbooks : r.books = h.repository.books) :
    ({ h with repository := r } : Host).books = h.books :=
  books_congr hbooks rfl fun _ => rfl

theorem books_perform (h : Host) (c : Connection) (call : Session.Call) :
    (h.perform c call).2.books = h.books :=
  books_of_repository (Repository.books_perform c call)

theorem books_drainSide (h : Host) : h.drainSide.books = h.books := by
  rw [drainSide]
  split <;> rfl

theorem books_settle (h : Host) : h.settle.books = h.books := by
  rw [settle]
  split
  · rfl
  · exact (books_drainSide _).trans
      (books_of_repository (Repository.books_drainQueue h.obstacle))

theorem books_unpause (h : Host) : h.unpause.books = h.books :=
  books_settle { h with paused := false }

theorem books_shutDown (h : Host) : h.shutDown.books = h.books :=
  (books_of_repository (Repository.books_shutDown h.unpause.obstacle)).trans (books_unpause h)

theorem books_intervene (h : Host) (thread : Nat) (i : Intervention) :
    (h.intervene thread i).books = h.books := by
  cases i with
  | unpause => exact books_unpause h
  | interrupt =>
    show (h.interrupt thread).books = h.books
    rw [interrupt]
    split <;> rfl

theorem books_endWait (h : Host) (thread : Nat) (awaited : Awaited)
    (waiting : Except Error Waiting) : (h.endWait thread awaited waiting).2.books = h.books := by
  cases waiting with
  | error e => rfl
  | ok waiting =>
    cases waiting with
    | idle => rfl
    | busy => rfl
    | interrupted =>
      show (h.interruptedWait thread awaited).books = h.books
      unfold interruptedWait
      split <;> rfl

/-- Waiting leaves the books alone, whatever others do meanwhile. -/
theorem books_awaitIdle (h : Host) (thread : Nat) (awaited : Awaited) (patience : Option Nat)
    (intervention : Option (Nat × Intervention)) :
    (h.awaitIdle thread awaited patience intervention).2.books = h.books := by
  unfold awaitIdle
  split
  · exact books_endWait h thread awaited _
  · next _ _ delay i _ =>
    have hlater := books_intervene h thread i
    dsimp only
    split
    · exact (books_endWait _ thread awaited _).trans hlater
    · exact hlater
  · exact (books_intervene _ thread _).trans (books_endWait h thread awaited _)

end Host

end ContentRepository
