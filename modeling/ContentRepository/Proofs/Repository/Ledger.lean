import ContentRepository.Proofs.Repository.Grants

/-!
# Ledgers

A ledger is kept beside a `Host` for the sake of proofs; nobody who uses a repository has one. It
follows the host through the hands of any threads, and notes every connection that `get_session`
gave and every connection that was closed or given up. Connections are named by their place among
those that were given.

* **`Host.Ledger.next`** — what an event does.
* **`Host.Ledger.Kept`** — the books of the host fit what the ledger notes;
  **`Reaches.kept_follows`** shows that they always do.
* **`Host.Ledger.Follows`** — what a later ledger keeps of an earlier one.
-/

namespace ContentRepository.Host

/-- A host with the connections that were given so far. -/
structure Ledger where
  host : Host
  /-- The connections that were given, in their order. -/
  grants : List Grant
  /-- The connections that were closed or given up. -/
  closed : List Connection

namespace Ledger

/-- What may happen. -/
inductive Event where
  | begin (thread : Nat)
  | suspend (thread : Nat)
  | resume (thread id : Nat)
  | setRollbackOnly (thread : Nat)
  | complete (commit : Bool) (thread : Nat)
  /-- Somebody else wants to take part in the completion of a transaction. -/
  | observe (id : Nat) (label : String) (objection : Option Error)
  /-- A caller asks for a connection in the transaction of its thread, which may be over by now. -/
  | connect (transaction : Option Nat) (id : String)
  | perform (n : Nat) (call : Session.Call)
  | await (n thread : Nat) (patience : Option Nat) (intervention : Option (Nat × Intervention))
  | close (n : Nat)
  | drop (n : Nat)

/-- No connections were given so far. -/
def start (host : Host) : Ledger := ⟨host, [], []⟩

/-- The ledger with another host. -/
def withHost (l : Ledger) (host : Host) : Ledger := { l with host }

/-- The ledger after a connection was closed or given up, which made the host another. -/
def without (l : Ledger) (c : Connection) (host : Host) : Ledger :=
  { l with host, closed := c :: l.closed }

/-- What comes of the use of a connection that was given. -/
def through (l : Ledger) (n : Nat) (use : Connection → Ledger) : Ledger :=
  match l.grants[n]? with
  | none => l
  | some g => use g.connection

/-- The ledger after an event. -/
def next (l : Ledger) : Event → Ledger
  | .begin thread => l.withHost (l.host.begin thread).2
  | .suspend thread => l.withHost (l.host.suspend thread).2
  | .resume thread id => l.withHost (l.host.resume thread id).2
  | .setRollbackOnly thread => l.withHost (l.host.setRollbackOnly thread).2
  | .complete commit thread => l.withHost (l.host.complete commit thread).2
  | .observe id label objection => l.withHost (l.host.observe id label objection).2
  | .connect transaction id =>
    match l.host.connect transaction id with
    | (.ok connection, host) =>
      { l with host, grants := l.grants ++ [⟨transaction, id, connection⟩] }
    | (.error _, host) => l.withHost host
  | .perform n call => l.through n fun c => l.withHost (l.host.perform c call).2
  | .await n thread patience intervention => l.through n fun c =>
    l.withHost (l.host.awaitIdle thread (.connection c) patience intervention).2
  | .close n => l.through n fun c => l.without c (l.host.close c)
  | .drop n => l.through n fun c => l.without c (l.host.drop c)

/-- The second ledger comes of the first by events, and by whatever else leaves the books alone, as
do indexing and shutting down. -/
inductive Reaches (l : Ledger) : Ledger → Prop where
  | refl : Reaches l l
  | step {later : Ledger} (event : Event) (hrun : Reaches l later) :
      Reaches l (later.next event)
  | beside {later : Ledger} {host : Host} (hbooks : host.books = later.host.books)
      (hrun : Reaches l later) : Reaches l (later.withHost host)

/-! ## What later ledgers keep -/

/-- The second ledger comes later: it forgets nothing, and what is over stays so. -/
structure Follows (l later : Ledger) : Prop where
  grants : ∀ g ∈ l.grants, g ∈ later.grants
  closed : ∀ c ∈ l.closed, c ∈ later.closed
  begun : l.host.manager.next ≤ later.host.manager.next
  ended : ∀ tx, tx < l.host.manager.next → l.host.parties tx = none →
    later.host.parties tx = none

theorem Follows.refl (l : Ledger) : l.Follows l :=
  ⟨fun _ => id, fun _ => id, Nat.le_refl _, fun _ _ => id⟩

theorem Follows.trans {l l' l'' : Ledger} (h : l.Follows l') (h' : l'.Follows l'') :
    l.Follows l'' :=
  ⟨fun g hg => h'.grants g (h.grants g hg), fun c hc => h'.closed c (h.closed c hc),
    Nat.le_trans h.begun h'.begun,
    fun tx htx hover => h'.ended tx (Nat.lt_of_lt_of_le htx h.begun) (h.ended tx htx hover)⟩

/-- The books fit what the ledger notes. -/
def Kept (l : Ledger) : Prop := l.host.books.Kept l.grants l.closed

/-! ## Events -/

namespace Kept

variable {l : Ledger}

/-- What is to be shown of the books after an event. -/
theorem of_books {later : Ledger} {b : Books} (hbooks : later.host.books = b)
    (hkept : b.Kept later.grants later.closed) (hgrants : ∀ g ∈ l.grants, g ∈ later.grants)
    (hclosed : ∀ c ∈ l.closed, c ∈ later.closed) (hbegun : l.host.manager.next ≤ b.begun)
    (hover : ∀ tx, tx < l.host.manager.next → l.host.parties tx = none → b.parties tx = none) :
    later.Kept ∧ l.Follows later := by
  subst hbooks
  exact ⟨hkept, hgrants, hclosed, hbegun, hover⟩

/-- What leaves the books alone keeps the invariant. -/
theorem beside (hk : l.Kept) {host : Host} (hbooks : host.books = l.host.books) :
    (l.withHost host).Kept ∧ l.Follows (l.withHost host) :=
  of_books hbooks hk (fun _ => id) (fun _ => id) (Nat.le_refl _) fun _ _ => id

theorem begin (hk : l.Kept) (thread : Nat) :
    (l.withHost (l.host.begin thread).2).Kept ∧
      l.Follows (l.withHost (l.host.begin thread).2) := by
  rcases books_begin l.host thread with hbooks | hbooks
  · exact hk.beside hbooks
  · refine of_books hbooks (Books.Kept.begin hk) (fun _ => id) (fun _ => id) (Nat.le_succ _) ?_
    intro tx htx hover
    exact (if_neg (Nat.ne_of_lt htx)).trans hover

theorem complete (hk : l.Kept) (commit : Bool) (thread : Nat) :
    (l.withHost (l.host.complete commit thread).2).Kept ∧
      l.Follows (l.withHost (l.host.complete commit thread).2) := by
  rcases books_complete l.host commit thread with hbooks | ⟨ended, ns, r, hns, hr, hbooks⟩
  · exact hk.beside hbooks
  · have hover : ∀ tx, tx < l.host.manager.next → l.host.parties tx = none →
        (if tx = ended then none else l.host.parties tx) = none := by
      intro tx _ hover
      rw [hover, ite_self]
    refine of_books hbooks ?_ (fun _ => id) (fun _ => id) (Nat.le_refl _) hover
    rw [((Books.Kept.parties hk) ended ns hns).1]
    cases hregistry : l.host.books.registry ended with
    | none =>
      show Books.Kept { r.books with begun := _, parties := _ } _ _
      rw [hr]
      exact Books.Kept.retire hk hregistry
    | some n =>
      obtain ⟨c, hc, -⟩ := (Books.Kept.registered hk) ended n hregistry
      have hc' : r.contexts.get? n = some c :=
        (congrFun (congrArg Repository.Books.contexts hr) n).trans hc
      show Books.Kept { (r.releaseContext n).books with begun := _, parties := _ } _ _
      rw [Repository.books_releaseContext hc', hr]
      exact Books.Kept.release hk hregistry hc

/-- A connection may be given, or refused. -/
theorem connect (hk : l.Kept) (transaction : Option Nat) (id : String) :
    (l.next (.connect transaction id)).Kept ∧ l.Follows (l.next (.connect transaction id)) := by
  rw [next]
  rcases books_connect l.host transaction id with
    ⟨e, heq⟩ | ⟨c, host, heq, ⟨rfl, rfl, hbooks⟩ | ⟨tx, n, rfl, hregistry, rfl, hbooks⟩ |
      ⟨tx, ns, rfl, hregistry, hparties, rfl, hbooks⟩⟩
  · rw [heq]
    exact hk.beside rfl
  · rw [heq]
    exact of_books hbooks (Books.Kept.apart hk id) (fun _ => List.mem_append_left _)
      (fun _ hc => hc) (Nat.le_refl _) fun _ _ hover => hover
  · obtain ⟨c, hc, rfl, hrunning⟩ := (Books.Kept.registered hk) tx n hregistry
    rw [heq]
    rw [Repository.newHandle_of_context hc, Repository.books_put_context] at hbooks
    rw [Repository.newHandle_of_context hc]
    exact of_books hbooks (Books.Kept.join hk id hc hrunning) (fun _ => List.mem_append_left _)
      (fun _ hc => hc) (Nat.le_refl _) fun _ _ hover => hover
  · -- no context takes part where none is registered
    have hns : ns = [] := by
      rw [((Books.Kept.parties hk) tx ns hparties).1]
      exact congrArg Option.toList hregistry
    subst hns
    rw [heq]
    refine of_books hbooks (Books.Kept.enter hk id hregistry hparties)
      (fun _ => List.mem_append_left _) (fun _ hc => hc) (Nat.le_refl _) fun t _ hover => ?_
    dsimp only
    rw [if_neg]
    · exact hover
    · rintro rfl
      cases hparties.symm.trans hover

/-- A connection that was given may be closed, or given up. -/
theorem without (hk : l.Kept) {g : Grant} (hg : g ∈ l.grants) {host : Host}
    (hhost : host = l.host.close g.connection ∨ host = l.host.drop g.connection) :
    (l.without g.connection host).Kept ∧ l.Follows (l.without g.connection host) := by
  -- the transactions are not concerned
  have hfollows : ∀ b : Books, host.books = b → b.Kept l.grants (g.connection :: l.closed) →
      b.begun = l.host.manager.next → b.parties = l.host.parties →
      (l.without g.connection host).Kept ∧ l.Follows (l.without g.connection host) :=
    fun b hbooks hkept hbegun hparties => of_books hbooks hkept (fun _ hg => hg)
      (fun _ => List.mem_cons_of_mem _) (Nat.le_of_eq hbegun.symm)
      fun tx _ hover => (congrFun hparties tx).trans hover
  cases hconnection : g.connection with
  | session k =>
    rw [hconnection] at hhost hfollows
    refine hfollows { l.host.books with live := host.books.live } ?_ ?_ rfl rfl
    · -- only who lives may change
      rcases hhost with rfl | rfl <;> rfl
    · rw [← hconnection]
      refine Books.Kept.closeSession hk hg hconnection fun s hs => ?_
      -- closing it ends this session and no other, dropping it ends none
      rcases hhost with rfl | rfl
      · have hput : (l.host.close (.session k)).repository.session s =
            if s = k then (l.host.repository.session k).close else l.host.repository.session s :=
          Repository.session_put l.host.repository k _ s
        show ((l.host.close (.session k)).repository.session s).live = _
        rw [hput, if_neg hs]
        rfl
      · rfl
  | handle id n k =>
    obtain ⟨c, hc⟩ := Books.Kept.exists_context hk hg
      (hconnection ▸ Connection.numberIn_self id n k)
    have hbooks : (l.host.close (.handle id n k)).books = l.host.books.put n (c.closeHandle k) := by
      have hput := Repository.books_put_context l.host.repository n (c.closeHandle k)
      rw [← Repository.context_of_get? hc] at hput
      rw [← Repository.context_of_get? hc]
      exact congrArg (fun r => Host.Books.mk r _ _) hput
    -- a handle that is given up is closed
    have hclose : host = l.host.close (.handle id n k) := by
      rw [hconnection] at hhost
      exact hhost.elim (fun h => h) fun h => h
    rw [hconnection] at hfollows
    refine hfollows (l.host.books.put n (c.closeHandle k)) (hclose ▸ hbooks) ?_ rfl rfl
    rw [← hconnection]
    exact Books.Kept.closeHandle hk hg hconnection hc

/-- **Every event keeps the books in order.** -/
theorem next (hk : l.Kept) (event : Event) : (l.next event).Kept ∧ l.Follows (l.next event) := by
  -- nothing happens with a connection that was not given
  have hthrough : ∀ (n : Nat) (use : Connection → Ledger),
      (∀ g ∈ l.grants, (use g.connection).Kept ∧ l.Follows (use g.connection)) →
      (l.through n use).Kept ∧ l.Follows (l.through n use) := by
    intro n use huse
    rw [through]
    split
    · exact ⟨hk, .refl l⟩
    · next g heq => exact huse g (List.mem_of_getElem? heq)
  cases event with
  | begin thread => exact hk.begin thread
  | suspend thread => exact hk.beside (books_suspend l.host thread)
  | resume thread id => exact hk.beside (books_resume l.host thread id)
  | setRollbackOnly thread => exact hk.beside (books_setRollbackOnly l.host thread)
  | complete commit thread => exact hk.complete commit thread
  | observe id label objection => exact hk.beside (books_observe l.host id label objection)
  | connect transaction id => exact hk.connect transaction id
  | perform n call =>
    exact hthrough n _ fun g _ => hk.beside (books_perform l.host g.connection call)
  | await n thread patience intervention =>
    exact hthrough n _ fun g _ => hk.beside
      (books_awaitIdle l.host thread (.connection g.connection) patience intervention)
  | close n => exact hthrough n _ fun g hg => hk.without hg (.inl rfl)
  | drop n => exact hthrough n _ fun g hg => hk.without hg (.inr rfl)

end Kept

/-! ## Runs -/

namespace Reaches

variable {l later : Ledger}

/-- Events may come in any order. -/
theorem foldl (hrun : l.Reaches later) (events : List Event) :
    l.Reaches (events.foldl Ledger.next later) := by
  induction events generalizing later with
  | nil => exact hrun
  | cons event rest ih => exact ih (.step event hrun)

/-- **The books are always in order, and nothing is forgotten.** -/
theorem kept_follows (hrun : l.Reaches later) (hk : l.Kept) :
    later.Kept ∧ l.Follows later := by
  induction hrun with
  | refl => exact ⟨hk, .refl l⟩
  | step event _ ih =>
    obtain ⟨hkept, hfollows⟩ := ih.1.next event
    exact ⟨hkept, ih.2.trans hfollows⟩
  | beside hbooks _ ih =>
    obtain ⟨hkept, hfollows⟩ := ih.1.beside hbooks
    exact ⟨hkept, ih.2.trans hfollows⟩

end Reaches

end Ledger

end ContentRepository.Host
