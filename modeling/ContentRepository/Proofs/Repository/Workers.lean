import ContentRepository.Proofs.Fulltext.Queueing
import ContentRepository.Proofs.Repository.Additions
import ContentRepository.Proofs.Repository.Handles
import ContentRepository.Repository.Scenario
import Mathlib.Data.List.Perm.Basic
import Mathlib.Data.List.ProdSigma
import Mathlib.Data.Set.List

/-!
# Workers that write at the same time

Workers add children of their own to the root of a new repository, all in one transaction. However
their calls are interleaved, all of them succeed.

* **`Host.writesInOrder`** lets the workers make their calls in any order; one after another is one
  of them.
-/

namespace ContentRepository

open Addition

/-! ## New repositories -/

/-- The queue of a new repository. -/
def Config.queue? (config : Config) : Option IndexQueue :=
  if config.fulltext then some (.start config.name) else none

/-- A repository that was just opened, on a site. -/
def Repository.opened (config : Config) (ownsStore : Bool) (site : Site) : Repository where
  config := config
  ownsStore := ownsStore
  isOpen := true
  site := site
  sessions := .empty
  contexts := .empty
  registry := .empty
  next := 0

theorem Repository.create_eq_ok_iff {config : Config} {store : Store} {ownsStore : Bool}
    {clock : Instant} {seed : UInt64} {r : Repository} :
    create config store ownsStore clock seed = .ok r ↔
      ∃ site, Site.found config.name store (config.ids.source seed) clock config.queue? = .ok site ∧
        opened config ownsStore site = r := by
  refine bind_eq_ok_iff.trans (exists_congr fun site => and_congr_right fun _ => ?_)
  constructor
  · intro heq
    cases heq
    rfl
  · rintro rfl
    rfl

namespace Site

variable {repository : String} {provision : Provision} {ids : IdSource} {clock : Instant}
  {queue : Option IndexQueue} {start : Site}

/-- Children may be put under the root of a new repository. -/
theorem isContainer_root (hids : ids.Unrepeated)
    (hfound : found repository (Store.empty provision) ids clock queue = .ok start) :
    start.IsContainer start.root := by
  rw [Coherent.found_eq_ok hids] at hfound
  cases hfound
  have hne : ids.peek 0 ≠ ids.peek 1 := fun heq => by cases IdSource.peek_injective hids heq
  refine ⟨rootDocument (ids.peek 0), ?_, ?_, ?_, hne⟩
  · rw [Store.find?_eq rfl, Coherent.foundShelf, Table.get?_insert, if_neg hne, Table.get?_insert,
      if_pos rfl]
  all_goals
    simp +decide [rootDocument, Document.withId, Document.setAll, Document.get?_set,
      Document.isProxy, Document.isVersion, Document.flag]

/-- Its only child there is the folder of versions. -/
theorem isFree_of_found (hids : ids.Unrepeated)
    (hfound : found repository (Store.empty provision) ids clock queue = .ok start)
    {parent name : String} (hname : name ≠ versionsName) : start.IsFree (parent, name) := by
  have hstored := (Coherent.of_found hids hfound).stored
  intro id d hd hparent hnamed
  rw [Store.find?_eq hstored, Except.ok.injEq] at hd
  obtain ⟨-, rfl⟩ | ⟨-, -, rfl⟩ := Coherent.get?_foundShelf hd
  · have hversions : (versionsDocument (ids.peek 1) (ids.peek 0)).name? = some versionsName := by
      simp +decide [versionsDocument, Document.withId, Document.setAll, Document.get?_set,
        Document.name?, Document.string?, Value.string?]
    exact hname (Option.some.inj (hnamed.symm.trans hversions))
  · have hroot : (rootDocument (ids.peek 0)).parent? = none := by
      simp +decide [rootDocument, Document.withId, Document.setAll, Document.get?_set,
        Document.parent?, Document.reference?]
    cases hroot.symm.trans hparent

/-- A queue that takes the jobs of its site. -/
def QueueTakes (site : Site) : Prop :=
  ∀ queue, site.queue = some queue →
    queue.accepting = true ∧ queue.repository = site.repository

/-- The queue of a new repository takes its jobs. -/
theorem queueTakes_of_found {config : Config} (hids : ids.Unrepeated)
    (hfound : found config.name (Store.empty provision) ids clock config.queue? = .ok start) :
    start.QueueTakes := by
  rw [Coherent.found_eq_ok hids] at hfound
  cases hfound
  intro queue hqueue
  have hqueue : config.queue? = some queue := hqueue
  rw [Config.queue?] at hqueue
  split at hqueue
  · cases hqueue
    exact ⟨rfl, rfl⟩
  · cases hqueue

end Site

namespace Workspace

/-- A commit of a live session succeeds if the queue takes its jobs. -/
theorem exists_commit_eq {w : Workspace} {shelf : Shelf} (hlive : w.session.live = true)
    (hstored : w.site.store.shelf? = some shelf) (htakes : w.site.QueueTakes) :
    ∃ queue session, w.commit = (.ok (), ⟨{ w.site with queue }, session⟩) := by
  cases hqueue : w.site.queue with
  | none =>
    have hsite : w.liveSite = .ok w.site := liveSite_eq_ok_iff.2 ⟨hlive, rfl⟩
    refine ⟨none, { w.session with pending := Table.empty }, ?_⟩
    rw [commit, hsite]
    dsimp only
    rw [hqueue]
    dsimp only
    rw [← hqueue]
  | some queue =>
    obtain ⟨haccepting, hnamed⟩ := htakes queue hqueue
    exact ⟨_, _, commit_eq hlive hstored hqueue haccepting hnamed⟩

/-- What a session lists as children. -/
theorem children_eq {w : Workspace} {shelf : Shelf} (hlive : w.session.live = true)
    (hstored : w.site.store.shelf? = some shelf) (parent : String) :
    w.children parent = .ok (shelf.childrenOf parent w.site.versions) :=
  bind_eq_ok_iff.2 ⟨_, ask_eq_ok hlive (Store.having_eq hstored _ _ _), rfl⟩

end Workspace

namespace Host

/-! ## What the workers ask for -/

/-- What the documents of workers are called. -/
def workerName (worker document : Nat) : String :=
  "w" ++ toString worker ++ "-" ++ toString document

theorem workerName_inj {m n k l : Nat} (heq : workerName m k = workerName n l) :
    m = n ∧ k = l := by
  have hdash : ∀ n : Nat, '-' ∉ (toString n).toList := by
    intro n hmem
    rw [Nat.toString_eq_repr, Nat.repr_eq_ofList_toDigits, String.toList_ofList] at hmem
    have := Nat.isDigit_of_mem_toDigits (by omega) (by omega) hmem
    exact absurd this (by decide)
  have hlist : (toString m).toList ++ '-' :: (toString k).toList =
      (toString n).toList ++ '-' :: (toString l).toList := by
    have := congrArg String.toList heq
    simpa [workerName, String.toList_append] using this
  obtain ⟨hworker, -, hdocument⟩ :=
    (List.append_cons_inj_of_notMem (hdash m) (hdash k)).1 hlist
  exact ⟨toString_injective (String.toList_injective hworker),
    toString_injective (String.toList_injective hdocument)⟩

theorem workerName_ne (worker document : Nat) : workerName worker document ≠ versionsName := by
  intro heq
  have hfirst := congrArg (fun s => s.toList.head?) heq
  simp [workerName, versionsName] at hfirst

/-- The additions of workers. -/
def workerAdditions (root : String) (documents : Nat) (workers : List (Nat × Connection)) :
    List (Connection × Addition) :=
  workers.flatMap fun (n, c) => (List.range documents).map fun k =>
    (c, ⟨root, workerName n k, fileType⟩)

/-- A request as a call. -/
def callOf (x : Connection × Addition) : Connection × Session.Call := (x.1, x.2.call)

theorem callOf_injective : Function.Injective callOf := by
  rintro ⟨c, a⟩ ⟨d, b⟩ heq
  cases a
  cases b
  cases heq
  rfl

theorem workerCalls_eq (root : String) (documents : Nat) (workers : List (Nat × Connection)) :
    workerCalls root documents workers = (workerAdditions root documents workers).map callOf := by
  simp [workerCalls, workerAdditions, callOf, Addition.call, workerName, List.map_flatMap,
    Function.comp_def]

/-- The places that workers ask for. -/
theorem map_place_workerAdditions (root : String) (documents : Nat)
    (workers : List (Nat × Connection)) :
    (workerAdditions root documents workers).map (·.2.place) =
      ((workers.map (·.1)) ×ˢ List.range documents).map fun p => (root, workerName p.1 p.2) := by
  induction workers with
  | nil => rfl
  | cons w rest ih =>
    rw [workerAdditions, List.flatMap_cons, List.map_append, List.map_cons, List.product_cons,
      List.map_append, ← ih]
    simp [workerAdditions, Addition.place, Function.comp_def]

/-- **Workers never ask for the same place.** -/
theorem nodup_places (root : String) (documents : Nat) {workers : List (Nat × Connection)}
    (hworkers : (workers.map (·.1)).Nodup) :
    ((workerAdditions root documents workers).map (·.2.place)).Nodup := by
  rw [map_place_workerAdditions]
  refine (hworkers.product List.nodup_range).map ?_
  rintro ⟨m, k⟩ ⟨n, l⟩ heq
  obtain ⟨rfl, rfl⟩ := workerName_inj (congrArg Prod.snd heq)
  rfl

theorem length_workerAdditions (root : String) (documents : Nat)
    (workers : List (Nat × Connection)) :
    (workerAdditions root documents workers).length = workers.length * documents := by
  have hlength := congrArg List.length (map_place_workerAdditions root documents workers)
  simpa [List.length_product] using hlength

/-! ## Loads -/

/-- A load of additions counts which of them succeed. -/
theorem load_map_callOf (run : List (Connection × Addition)) (l : Load) (h : Host) :
    load (run.map callOf) l h =
      (⟨l.succeeded + (h.addAll run).1.countP (·.2.isOk),
        l.failed + (h.addAll run).1.countP (!·.2.isOk)⟩, (h.addAll run).2) := by
  induction run generalizing l h with
  | nil => rfl
  | cons x rest ih =>
    obtain ⟨c, a⟩ := x
    rw [List.map_cons, callOf, load, addAll]
    dsimp only
    cases hperform : h.perform c a.call with
    | mk answer h' =>
      cases answer with
      | error e =>
        -- a refusal counts as failed, and the load goes on
        dsimp only
        rw [ih]
        simp [Except.isOk, Except.toBool]
        omega
      | ok answer =>
        dsimp only
        rw [ih]
        simp [Except.isOk, Except.toBool]
        omega

/-! ## Opening connections -/

/-- The transaction is active, it may be committed, and nothing but contexts takes part in it. -/
def Undecided (h : Host) (tx : Nat) : Prop :=
  ∃ t, h.manager.active.get? tx = some t ∧ t.rollbackOnly = false ∧
    ∀ p ∈ t.participants, ∃ n, p = .context n

/-- The repository gives connections, and the main thread has a transaction that may be committed. -/
structure Ready (h : Host) (tx : Nat) : Prop where
  isOpen : h.repository.isOpen = true
  current : h.manager.current mainThread = some tx
  undecided : h.Undecided tx

/-- A connection that is asked for is given. -/
theorem Ready.exists_connect_eq {h : Host} {tx : Nat} (hready : h.Ready tx) (id : String) :
    ∃ c h', h.connect (some tx) id = (.ok c, h') ∧ h'.Ready tx ∧
      h'.repository.site = h.repository.site := by
  have hopen := requireOpen_of_isOpen hready.isOpen
  -- a context that stands grants a handle; a new one is made only while the transaction runs
  cases hregistry : h.repository.registry.get? tx with
  | some n =>
    exact ⟨_, _, connect_of_registered hopen hregistry id,
      ⟨hready.isOpen, hready.current, hready.undecided⟩, rfl⟩
  | none =>
    obtain ⟨t, ht, hno, hcontexts⟩ := hready.undecided
    rw [connect_of_not_registered hopen hregistry, TransactionManager.register, ht]
    refine ⟨_, _, rfl, ⟨hready.isOpen, hready.current, ?_⟩, rfl⟩
    -- the new participant is a context like the others
    refine ⟨_, (Numbered.get?_put _ tx _ tx).trans (if_pos rfl), hno, fun p hp => ?_⟩
    obtain hp | hp := List.mem_append.1 hp
    · exact hcontexts p hp
    · exact ⟨_, List.mem_singleton.1 hp⟩

/-- What has come of the opening of connections for workers. -/
structure Opened (l l' : Ledger) (tx : Nat) (ns : List Nat) (workers : List (Nat × Connection)) :
    Prop where
  kept : l'.Kept
  ready : l'.host.Ready tx
  closed : l'.closed = []
  site : l'.host.repository.site = l.host.repository.site
  grants : l.grants ⊆ l'.grants
  numbers : workers.map (·.1) = ns
  granted : ∀ w ∈ workers, ∃ g ∈ l'.grants, g.transaction = some tx ∧ g.connection = w.2

/-- **Every worker gets a connection.** Induction on the workers. -/
theorem exists_openWorkers_eq {l : Ledger} {tx : Nat} (ns : List Nat) (hk : l.Kept)
    (hready : l.host.Ready tx) (hclosed : l.closed = []) :
    ∃ workers l', openWorkers ns l.host = (.ok workers, l'.host) ∧ Opened l l' tx ns workers := by
  induction ns generalizing l with
  | nil => exact ⟨[], l, rfl, hk, hready, hclosed, rfl, List.Subset.refl _, rfl, nofun⟩
  | cons n rest ih =>
    let id := "worker-" ++ toString n
    obtain ⟨c, h', hconnect, hready', hsite⟩ := hready.exists_connect_eq id
    have hopen : l.host.open? id = (.ok c, h') := by
      rw [open?, hready.current, hconnect]
    let l₁ : Ledger := { l with host := h', grants := l.grants ++ [⟨some tx, id, c⟩] }
    have hnext : l.next (.connect (some tx) id) = l₁ := by
      rw [Ledger.next, hconnect]
    -- the books of the ledger are kept by the grant, so the rest of the workers may rely on them
    have hk₁ : l₁.Kept := hnext ▸ (hk.next (.connect (some tx) id)).1
    obtain ⟨workers, l', heq, hopened⟩ := ih (l := l₁) hk₁ hready' hclosed
    refine ⟨(n, c) :: workers, l', ?_, hopened.kept, hopened.ready, hopened.closed,
      hopened.site.trans hsite, fun g hg => hopened.grants (List.mem_append_left _ hg),
      congrArg (n :: ·) hopened.numbers, fun w hw => ?_⟩
    · have heq : openWorkers rest h' = (.ok workers, l'.host) := heq
      rw [openWorkers, hopen]
      dsimp only
      rw [heq]
    · -- the worker just opened has the last grant, the others theirs
      obtain rfl | hw := List.mem_cons.1 hw
      · exact ⟨_, hopened.grants (List.mem_append_right _ List.mem_cons_self), rfl, rfl⟩
      · exact hopened.granted w hw

/-- In a repository that is just opened a transaction is begun, and every worker gets a
connection. -/
theorem exists_opened_of_start (config : Config) (ownsStore : Bool) (start : Site)
    (sideQueue : Option IndexQueue) (ns : List Nat) :
    ∃ (l l' : Ledger) (workers : List (Nat × Connection)),
      (Host.start (Repository.opened config ownsStore start) sideQueue).begin mainThread =
        (.ok 1, l.host) ∧
      openWorkers ns l.host = (.ok workers, l'.host) ∧ Opened l l' 1 ns workers ∧
      l'.host.repository.site = start := by
  let h := Host.start (Repository.opened config ownsStore start) sideQueue
  let l : Ledger := (Ledger.start h).next (.begin mainThread)
  have hstart : (Ledger.start h).Kept :=
    Books.Kept.start (fun _ => rfl) (fun _ => rfl) fun _ => rfl
  have hk : l.Kept := (hstart.next (.begin mainThread)).1
  have hready : l.host.Ready 1 := ⟨rfl, rfl, ⟨false, []⟩, rfl, rfl, nofun⟩
  obtain ⟨workers, l', hopen, hopened⟩ := exists_openWorkers_eq ns hk hready rfl
  exact ⟨l, l', workers, rfl, hopen, hopened, hopened.site⟩

/-- The connections of the workers are live. -/
theorem Opened.isLive {l l' : Ledger} {tx : Nat} {ns : List Nat} {workers : List (Nat × Connection)}
    (h : Opened l l' tx ns workers) {w : Nat × Connection} (hw : w ∈ workers) :
    l'.host.repository.isLive w.2 = true := by
  obtain ⟨g, hg, htx, hconnection⟩ := h.granted w hw
  obtain ⟨t, ht, -⟩ := h.ready.undecided
  rw [← hconnection, Ledger.Kept.isLive_eq h.kept hg htx, Ledger.Kept.isUsable_iff h.kept hg htx,
    h.closed, ht]
  exact ⟨List.not_mem_nil, rfl⟩

/-! ## The completion -/

/-- Participants that are contexts can be told by these. -/
theorem eq_map_context {participants : List Participant}
    (hcontexts : ∀ p ∈ participants, ∃ n, p = .context n) :
    participants = (participants.filterMap Participant.context?).map .context := by
  induction participants with
  | nil => rfl
  | cons p rest ih =>
    obtain ⟨n, rfl⟩ := hcontexts p List.mem_cons_self
    exact congrArg _ (ih fun p hp => hcontexts p (List.mem_cons_of_mem _ hp))

/-- What takes part in the transaction is committed, and on the site only the queue is not as
before. -/
theorem exists_settle_eq {l : Ledger} {tx : Nat} {t : Transaction Participant} {shelf : Shelf} (hk : l.Kept)
    (ht : l.host.manager.active.get? tx = some t) (hno : t.rollbackOnly = false)
    (hcontexts : ∀ p ∈ t.participants, ∃ n, p = .context n)
    (hstored : l.host.repository.site.store.shelf? = some shelf)
    (htakes : l.host.repository.site.QueueTakes) :
    ∃ r record queue,
      participation.settle true t (l.host.repository, l.host.record) = (.ok (), r, record) ∧
        r.site = { l.host.repository.site with queue } := by
  have hparties : l.host.parties tx = some (t.participants.filterMap Participant.context?) := by
    rw [parties, ht, Option.map_some]
  have hparticipants := eq_map_context hcontexts
  rw [(Books.Kept.parties hk tx _ hparties).1] at hparticipants
  rw [Protocol.settle, if_pos rfl, Protocol.objection, hno, if_neg Bool.false_ne_true,
    hparticipants]
  cases hregistry : l.host.books.registry tx with
  | none => exact ⟨_, _, _, rfl, rfl⟩
  | some n =>
    -- the one context commits its session, and is released then
    obtain ⟨c, hc, -, hrunning⟩ := Books.Kept.registered hk tx n hregistry
    have hlive : (l.host.repository.session c.session).live = true :=
      ((Books.Kept.context hk n c hc).running hrunning).2.2
    obtain ⟨queue, session, hcommit⟩ := Workspace.exists_commit_eq
      (w := l.host.repository.workspace c.session) hlive hstored htakes
    let after := l.host.repository.absorb c.session
      ⟨{ l.host.repository.site with queue }, session⟩
    have hcontext : l.host.repository.commitContext n = (.ok (), after) := by
      rw [Repository.commitContext, Repository.context_of_get? hc, hcommit]
      rfl
    have hask : participation.askAll [.context n] (l.host.repository, l.host.record) =
        (none, after, l.host.record) := by
      rw [Protocol.askAll]
      simp only [participation, hcontext]
      rfl
    refine ⟨after.releaseContext n, l.host.record, queue, ?_, rfl⟩
    rw [Option.toList_some, List.map_singleton, hask]
    rfl

/-- **The transaction is committed**, and on the site only the queue is not as before. -/
theorem exists_complete_eq {l : Ledger} {tx : Nat} {shelf : Shelf} (hk : l.Kept)
    (hcurrent : l.host.manager.current mainThread = some tx) (hundecided : l.host.Undecided tx)
    (hstored : l.host.repository.site.store.shelf? = some shelf)
    (htakes : l.host.repository.site.QueueTakes) :
    ∃ h' queue, l.host.complete true mainThread = (.ok (), h') ∧
      h'.repository.site = { l.host.repository.site with queue } := by
  obtain ⟨t, ht, hno, hcontexts⟩ := hundecided
  obtain ⟨r, record, queue, hsettle, hsite⟩ :=
    exists_settle_eq hk ht hno hcontexts hstored htakes
  refine ⟨{ l.host with manager := l.host.manager.without tx, repository := r, record }, queue, ?_,
    hsite⟩
  rw [Host.complete, TransactionManager.complete_of_current_some participation true hcurrent ht,
    hsettle]

/-- The transaction of workers is committed after they have added their documents. -/
theorem Opened.exists_complete_eq {l l' : Ledger} {tx : Nat} {ns : List Nat}
    {workers : List (Nat × Connection)} (hopened : Opened l l' tx ns workers)
    (htakes : l'.host.repository.site.QueueTakes) {shelf t : Shelf}
    {run : List (Connection × Addition)} {outcomes : List Answered} {h' : Host}
    (hadded : l'.host.AddedAll shelf run outcomes h' t) :
    ∃ h'' queue, h'.complete true mainThread = (.ok (), h'') ∧
      h''.repository.site = { h'.repository.site with queue } := by
  have hk : (l'.withHost h').Kept := (Ledger.Kept.beside hopened.kept hadded.books).1
  have hcurrent : h'.manager.current mainThread = some tx := by
    rw [hadded.manager]
    exact hopened.ready.current
  have hundecided : h'.Undecided tx := by
    rw [Undecided, hadded.manager]
    exact hopened.ready.undecided
  have hqueue : h'.repository.site.QueueTakes := by
    obtain ⟨ids, clock, hsite⟩ := hadded.site
    rw [hsite]
    exact htakes
  exact Host.exists_complete_eq hk hcurrent hundecided hadded.coherent.stored hqueue

/-! ## Everything together -/

/-- Lets workers write like `concurrentWrites`, but with their calls in another order than one
worker after another. -/
def writesInOrder (order : List (Connection × Session.Call) → List (Connection × Session.Call))
    (h : Host) (workers documents : Nat) : Except Error Load × Host :=
  match h.begin mainThread with
  | (.error e, h) => (.error e, h)
  | (.ok _, h) =>
    match openWorkers (List.range workers) h with
    | (.error e, h) => (.error e, h)
    | (.ok connections, h) =>
      let (result, h) :=
        load (order (workerCalls h.repository.site.root documents connections)) ⟨0, 0⟩ h
      match h.complete true mainThread with
      | (.ok (), h) => (.ok result, h)
      | (.error e, h) => (.error e, h)

theorem writesInOrder_id (h : Host) (workers documents : Nat) :
    h.writesInOrder id workers documents = h.concurrentWrites workers documents := rfl

/-- The calls of workers in some order are additions in some order. -/
theorem exists_run_of_perm {root : String} {documents : Nat} {workers : List (Nat × Connection)}
    {calls : List (Connection × Session.Call)}
    (hcalls : calls.Perm (workerCalls root documents workers)) :
    ∃ run : List (Connection × Addition),
      run.Perm (workerAdditions root documents workers) ∧ run.map callOf = calls := by
  rw [workerCalls_eq] at hcalls
  have hrange : calls ∈ Set.range (List.map callOf) := by
    rw [Set.range_list_map]
    intro x hx
    obtain ⟨y, -, hy⟩ := List.mem_map.1 (hcalls.mem_iff.1 hx)
    exact ⟨y, hy⟩
  obtain ⟨run, rfl⟩ := hrange
  exact ⟨run, (List.map_perm_map_iff callOf_injective).1 hcalls, rfl⟩

/-- What each of the workers' additions is. -/
theorem of_mem_workerAdditions {root : String} {documents : Nat}
    {workers : List (Nat × Connection)} {x : Connection × Addition}
    (hx : x ∈ workerAdditions root documents workers) :
    (∃ w ∈ workers, w.2 = x.1) ∧ x.2.parent = root ∧ x.2.name ≠ versionsName := by
  obtain ⟨w, hw, hx⟩ := List.mem_flatMap.1 hx
  obtain ⟨k, -, rfl⟩ := List.mem_map.1 hx
  exact ⟨⟨w, hw, rfl⟩, rfl, workerName_ne w.1 k⟩

/-- **Workers do not get in each other's way:** their calls all succeed, in any order, if no
document under the root has a name like theirs. -/
theorem exists_load_eq {h : Host} {shelf : Shelf} {workers : List (Nat × Connection)}
    {documents : Nat} {calls : List (Connection × Session.Call)}
    (hco : h.repository.site.Coherent shelf)
    (hroot : h.repository.site.IsContainer h.repository.site.root)
    (hfree : ∀ name, name ≠ versionsName →
      h.repository.site.IsFree (h.repository.site.root, name))
    (hworkers : (workers.map (·.1)).Nodup)
    (hlive : ∀ w ∈ workers, h.repository.isLive w.2 = true)
    (hcalls : calls.Perm (workerCalls h.repository.site.root documents workers)) :
    ∃ run outcomes h' t, load calls ⟨0, 0⟩ h = (⟨workers.length * documents, 0⟩, h') ∧
      h.AddedAll shelf run outcomes h' t ∧
      shelf.Planted h.repository.site.ids (granted outcomes) t ∧
      (granted outcomes).length = workers.length * documents ∧
      ∀ a ∈ granted outcomes, a.parent = h.repository.site.root := by
  obtain ⟨run, hperm, rfl⟩ := exists_run_of_perm hcalls
  have hadditions : ∀ x ∈ run, (∃ w ∈ workers, w.2 = x.1) ∧
      x.2.parent = h.repository.site.root ∧ x.2.name ≠ versionsName :=
    fun x hx => of_mem_workerAdditions (hperm.mem_iff.1 hx)
  have hcontainers : ∀ x ∈ run, h.repository.site.IsContainer x.2.parent := by
    intro x hx
    rw [(hadditions x hx).2.1]
    exact hroot
  obtain ⟨outcomes, h', t, hadd, hadded⟩ := exists_addAll_eq hco
    (fun x hx => by
      obtain ⟨⟨w, hw, hc⟩, -⟩ := hadditions x hx
      exact hc ▸ hlive w hw) hcontainers
  have hnodup : (run.map (·.2.place)).Nodup := by
    rw [(hperm.map _).nodup_iff]
    exact nodup_places _ _ hworkers
  have hplaces : ∀ x ∈ run, h.repository.site.IsFree x.2.place := by
    intro x hx
    obtain ⟨-, hparent, hname⟩ := hadditions x hx
    rw [Addition.place, hparent]
    exact hfree _ hname
  obtain ⟨hgranted, hok, hfailed⟩ := hadded.all_granted hco hnodup hplaces
  have hlength := hperm.length_eq.trans (length_workerAdditions _ _ _)
  refine ⟨run, outcomes, h', t, ?_, hadded, hadded.planted hco hcontainers, hgranted.trans hlength,
    fun a ha => ?_⟩
  · rw [load_map_callOf, hadd, hok, hfailed, hlength, Nat.zero_add]
  · obtain ⟨o, ho, rfl⟩ := List.mem_map.1 ha
    obtain ⟨x, hx, hxo⟩ := hadded.exists_of_mem (List.mem_of_mem_filter ho)
    rw [← hxo]
    exact (hadditions x hx).2.1

section Founded

variable {config : Config} {provision : Provision} {ids : IdSource} {clock : Instant}
  {start : Site}

/-- **All that workers write in a new repository is there at the end**, whatever the order of their
calls. -/
theorem exists_writesInOrder_eq (hids : ids.Unrepeated)
    (hfound : Site.found config.name (Store.empty provision) ids clock config.queue? = .ok start)
    (ownsStore : Bool) (sideQueue : Option IndexQueue) (workers documents : Nat)
    {order : List (Connection × Session.Call) → List (Connection × Session.Call)}
    (horder : ∀ calls, (order calls).Perm calls) :
    ∃ h' s t, writesInOrder order (Host.start (Repository.opened config ownsStore start) sideQueue)
        workers documents = (.ok ⟨workers * documents, 0⟩, h') ∧
      start.store.shelf? = some s ∧ h'.repository.site.store.shelf? = some t ∧
      h'.repository.site.versions = start.versions ∧
      s.childrenOf start.root start.versions ⊆ t.childrenOf start.root start.versions ∧
      (t.childrenOf start.root start.versions).length =
        (s.childrenOf start.root start.versions).length + workers * documents := by
  obtain ⟨l, l', connections, hbegin, hopen, hopened, hsite⟩ :=
    exists_opened_of_start config ownsStore start sideQueue (List.range workers)
  have hnumber : connections.length = workers := by
    simpa using congrArg List.length hopened.numbers
  -- the calls go through
  have hco := Site.Coherent.of_found hids hfound
  have hcalls := horder (workerCalls l'.host.repository.site.root documents connections)
  obtain ⟨run, outcomes, h', t, hload, hadded, hplanted, hgranted, hparents⟩ :=
    exists_load_eq (hsite.symm ▸ hco) (hsite.symm ▸ Site.isContainer_root hids hfound)
      (fun name hname => hsite.symm ▸ Site.isFree_of_found hids hfound hname)
      (hopened.numbers ▸ List.nodup_range) (fun w hw => hopened.isLive hw) hcalls
  rw [hsite] at hplanted hparents
  rw [hnumber] at hload hgranted
  -- and the completion changes no document
  obtain ⟨h'', queue, hcomplete, hcompleted⟩ :=
    hopened.exists_complete_eq (hsite.symm ▸ Site.queueTakes_of_found hids hfound) hadded
  obtain ⟨e, he, -⟩ := hco.tree.folder
  obtain ⟨hold, hlength⟩ := hplanted.children hco.freshFor hco.keyed hadded.coherent.keyed hparents
    (Option.isSome_iff_exists.2 ⟨e, he⟩)
  refine ⟨h'', _, t, ?_, hco.stored, ?_, ?_, hold, hgranted ▸ hlength⟩
  · rw [writesInOrder, hbegin]
    dsimp only
    rw [hopen]
    dsimp only
    rw [hload]
    dsimp only
    rw [hcomplete]
  · rw [hcompleted]
    exact hadded.coherent.stored
  · obtain ⟨ids', clock', hadditions⟩ := hadded.site
    rw [hcompleted, hadditions, hsite]

/-- **Additions are confluent.** Let a new repository have come into any state by what sessions do,
and let some additions to containers be requested, through any live connections. In whatever order
they are made, just one of the requests for a place succeeds if the place is free, and none if it is
not; all others are in conflict (`Serves`). The documents after two orders are the same, but for the
ids of the new ones and the types of those that were contended for (`EndsAlike`).

So when workers add documents to the root of a new repository in one transaction, then in any order
of their calls all of them succeed, and the root has just so many more children. -/
theorem additions_confluent (hids : ids.Unrepeated)
    (hfound : Site.found config.name (Store.empty provision) ids clock config.queue? = .ok start) :
    (∀ (h : Host) (requests : List Addition) (first second : List (Connection × Addition)),
      start.Reaches h.repository.site →
      (∀ a ∈ requests, h.repository.site.IsContainer a.parent) →
      (first.map (·.2)).Perm requests → (second.map (·.2)).Perm requests →
      (∀ x ∈ first ++ second, h.repository.isLive x.1 = true) →
        h.repository.site.Serves (first.map (·.2)) (h.addAll first).1 ∧
        h.repository.site.Serves (second.map (·.2)) (h.addAll second).1 ∧
        ∃ before σ s t, h.EndsAlike first second before σ s t) ∧
    ∀ (ownsStore : Bool) (sideQueue : Option IndexQueue) (workers documents : Nat)
      (order : List (Connection × Session.Call) → List (Connection × Session.Call)),
      (∀ calls, (order calls).Perm calls) →
        let h := Host.start (Repository.opened config ownsStore start) sideQueue
        ∃ h', h.writesInOrder order workers documents = (.ok ⟨workers * documents, 0⟩, h') ∧
          (order = id → h.concurrentWrites workers documents = (.ok ⟨workers * documents, 0⟩, h')) ∧
          ∀ session : Session, session.live = true → ∃ old new,
            Workspace.children ⟨start, session⟩ start.root = .ok old ∧
            Workspace.children ⟨h'.repository.site, session⟩ start.root = .ok new ∧
            old ⊆ new ∧ new.length = old.length + workers * documents := by
  refine ⟨?requests, ?workers⟩
  case requests =>
    intro h requests first second hrun hcontainers hfirst hsecond hlive
    obtain ⟨shelf, hco, -, -⟩ := Site.coherent_of_reaches hids hfound hrun
    -- both orders place the same requests, so every parent is a container in either
    have hparents : ∀ x ∈ first ++ second, h.repository.site.IsContainer x.2.parent := by
      intro x hx
      refine hcontainers x.2 ?_
      obtain hx | hx := List.mem_append.1 hx
      · exact hfirst.mem_iff.1 (List.mem_map_of_mem hx)
      · exact hsecond.mem_iff.1 (List.mem_map_of_mem hx)
    refine ⟨serves_addAll hco (fun x hx => hlive x (List.mem_append_left _ hx))
        fun x hx => hparents x (List.mem_append_left _ hx),
      serves_addAll hco (fun x hx => hlive x (List.mem_append_right _ hx))
        fun x hx => hparents x (List.mem_append_right _ hx), shelf, ?_⟩
    exact exists_alike_addAll hco hlive hparents (hfirst.trans hsecond.symm)
  case workers =>
    intro ownsStore sideQueue workers documents order horder h
    obtain ⟨h', s, t, hwrites, hs, ht, hversions, hold, hlength⟩ :=
      exists_writesInOrder_eq hids hfound ownsStore sideQueue workers documents horder
    refine ⟨h', hwrites, ?_, fun session hlive => ⟨_, _,
      Workspace.children_eq (w := ⟨start, session⟩) hlive hs start.root, ?_, hold, hlength⟩⟩
    · -- with the order left alone, it is the run of the source itself
      rintro rfl
      rw [← writesInOrder_id, hwrites]
    rw [Workspace.children_eq (w := ⟨h'.repository.site, session⟩) hlive ht start.root, hversions]

/-- Two sessions both want the name `x` under the root, and one of them `y` besides; and three
workers write two documents each, one worker after another. -/
theorem additions_of_two_sessions :
    ∃ start, Site.found (scenarioConfig false).name (Store.empty .own) .sequential
        ⟨0, 0, by decide⟩ (scenarioConfig false).queue? = .ok start ∧
      (let h := (((Host.start (Repository.opened (scenarioConfig false) true start) none).connect
          none "s").2.connect none "t").2
        let a : Addition := ⟨start.root, "x", "File"⟩
        let b : Addition := ⟨start.root, "x", "Folder"⟩
        let c : Addition := ⟨start.root, "y", "File"⟩
        let first := [(Connection.session 0, a), (.session 1, b), (.session 1, c)]
        let second := [(Connection.session 0, c), (.session 1, b), (.session 0, a)]
        h.repository.site.Serves [a, b, c] (h.addAll first).1 ∧
        h.repository.site.Serves [c, b, a] (h.addAll second).1 ∧
        ∃ before σ s t, h.EndsAlike first second before σ s t) ∧
      ∃ h, Host.fresh ⟨0, 0, by decide⟩ false = .ok h ∧
        (h.concurrentWrites 3 2).1 = .ok ⟨6, 0⟩ := by
  have hids := IdSource.unrepeated_sequential
  obtain ⟨start, hfound⟩ : ∃ start, Site.found (scenarioConfig false).name (Store.empty .own)
      .sequential ⟨0, 0, by decide⟩ (scenarioConfig false).queue? = .ok start :=
    ⟨_, Site.Coherent.found_eq_ok hids⟩
  obtain ⟨hrequests, hworkers⟩ := additions_confluent hids hfound
  have hroot := Site.isContainer_root hids hfound
  refine ⟨start, hfound, ?_, ?_⟩
  · intro h a b c first second
    have hparents : ∀ x ∈ [a, b, c], h.repository.site.IsContainer x.parent := by
      intro x hx
      simp only [List.mem_cons, List.not_mem_nil, or_false] at hx
      obtain rfl | rfl | rfl := hx <;> exact hroot
    have hlive : ∀ x ∈ first ++ second, h.repository.isLive x.1 = true := by
      intro x hx
      simp only [first, second, List.cons_append, List.nil_append, List.mem_cons, List.not_mem_nil,
        or_false] at hx
      obtain rfl | rfl | rfl | rfl | rfl | rfl := hx <;> rfl
    exact hrequests h [a, b, c] first second .refl hparents (.refl _)
      (List.reverse_perm [a, b, c]) hlive
  · obtain ⟨h', -, hwrites, -⟩ := hworkers true none 3 2 id fun calls => .refl calls
    have hcreate : Repository.create (scenarioConfig false) (Store.empty .own) true
        ⟨0, 0, by decide⟩ 0 = .ok (Repository.opened (scenarioConfig false) true start) :=
      Repository.create_eq_ok_iff.2 ⟨start, hfound, rfl⟩
    exact ⟨_, bind_eq_ok_iff.2 ⟨_, hcreate, rfl⟩, congrArg Prod.fst (hwrites rfl)⟩

end Founded

end Host

end ContentRepository
