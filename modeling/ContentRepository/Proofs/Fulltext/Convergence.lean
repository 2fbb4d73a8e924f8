import ContentRepository.Proofs.Fulltext.Plans
import ContentRepository.Proofs.Fulltext.Queueing
import ContentRepository.Proofs.Repository.Books

/-!
# Indexed texts catch up with the documents

Between a call that changes a document and the job that puts its new text into the index, the two
differ. They agree again as soon as nothing is on its way: the queue is empty, and the document is
pending in no session. This holds however calls, commits and jobs are interleaved, with any number
of sessions, and although a job carries the text of the document as it was at the commit.

* **`Chronicle`** — a repository with its sessions, each a `DocumentSession`, together with what is
  noted of its documents for the sake of the proof: which were written through sessions, and which
  were given up by closing a session they were pending in.
* **`Chronicle.Sound`** — the invariant: each document that was written, and is neither given up nor
  pending, is going to have its text when the jobs that wait are carried out.
* **`Chronicle.Sound.next`** — every event keeps the invariant.
* **`Chronicle.converges_of_reaches`** — so with an empty queue the indexed texts are those of the
  documents.
* **`Chronicle.Sound.exists_caught_up`** — and the worker empties the queue if nobody else does
  anything.
-/

namespace ContentRepository

/-! ## Runs -/

/-- The repository after the worker carried out the next job, if there is one. -/
def Repository.indexNext (r : Repository) : Repository :=
  match r.site.queue with
  | none => r
  | some queue =>
    let (queue, store) := queue.step unobstructed r.site.store
    r.withIndexed (some queue) store

/-- The ids under which there is a document now and was none before. -/
def Store.added (before after : Store) : List String :=
  match before.shelf?, after.shelf? with
  | some s, some t => t.keys.filter fun id => !s.contains id
  | _, _ => []

/-- The ids of the documents that a call wrote for indexing: new documents other than proxies, and
documents that were replaced. A call that stops half-way may have written some of them. -/
def Session.Call.wrote (call : Session.Call) (answer : Except Error Session.Answer)
    (before after : Store) : List String :=
  match call, answer with
  | .create _, _ | .addChild .., _ | .copy .., _ | .checkIn .., _ => before.added after
  | .update d, .ok _ => d.id?.toList
  | .revise .., .ok (.store (.document (some d))) => d.id?.toList
  | _, _ => []

/-- A repository and what is noted of its documents. -/
structure Chronicle where
  repository : Repository
  /-- The ids of the documents that were written through sessions. -/
  written : List String
  /-- The ids of the documents that were pending in a session when it was closed. -/
  forsaken : List String

namespace Chronicle

/-- Nothing was written yet. -/
def start (repository : Repository) : Chronicle := ⟨repository, [], []⟩

/-- What may happen. -/
inductive Event where
  /-- A session is opened. -/
  | connect (id : String)
  /-- A call through a session, given by its number. -/
  | call (number : Nat) (call : Session.Call)
  /-- A session is closed. -/
  | close (number : Nat)
  /-- The worker carries out the next job. -/
  | index

/-- The repository after an event, and what is noted. -/
def next (c : Chronicle) : Event → Chronicle
  | .connect id => { c with repository := (c.repository.newSession id).2 }
  | .call number call =>
    let (answer, repository) := c.repository.perform (.session number) call
    { c with
      repository
      written := c.written ++ call.wrote answer c.repository.site.store repository.site.store }
  | .close number =>
    { c with
      repository := c.repository.close (.session number)
      forsaken := c.forsaken ++ (c.repository.session number).pending.keys }
  | .index => { c with repository := c.repository.indexNext }

/-- The second state comes about from the first by events. -/
inductive Reaches (first : Chronicle) : Chronicle → Prop where
  | refl : Reaches first first
  | step {c : Chronicle} (event : Event) (hrun : Reaches first c) : Reaches first (c.next event)

/-- No session has the document pending. -/
def Idle (c : Chronicle) (id : String) : Prop :=
  ∀ number, id ∉ (c.repository.session number).pending.keys

theorem idle_of_others {c : Chronicle} {id : String} {number : Nat}
    (hown : id ∉ (c.repository.session number).pending.keys)
    (hothers : ∀ n, n ≠ number → id ∉ (c.repository.session n).pending.keys) : c.Idle id := by
  intro n
  by_cases heq : n = number
  · rw [heq]
    exact hown
  · exact hothers n heq

/-- What holds of a repository in which documents are indexed. -/
structure Sound (c : Chronicle) (shelf : Shelf) (queue : IndexQueue) : Prop where
  stored : c.repository.site.store.shelf? = some shelf
  keyed : shelf.Keyed
  queued : c.repository.site.queue = some queue
  accepting : queue.accepting = true
  named : queue.repository = c.repository.site.repository
  /-- All jobs come from commits. -/
  submitted : ∀ job ∈ queue.pending, ∃ repository id d, job = .ofDocument repository id d
  /-- Sessions that are yet to be opened count as closed. -/
  unopened : ∀ number, c.repository.next ≤ number → (c.repository.session number).live = false
  /-- Closed sessions have nothing pending. -/
  closed : ∀ number, (c.repository.session number).live = false →
    (c.repository.session number).pending.keys = []
  /-- Documents that nobody has pending are going to have their texts. -/
  foreseen : ∀ id d, shelf.get? id = some d → d.isProxy = false → id ∈ c.written →
    id ∉ c.forsaken → c.Idle id → IndexJob.Foresee queue.pending id d

end Chronicle

/-! ## Written documents -/

theorem Store.notMem_added {before : Store} {shelf : Shelf} {id : String} {d : Document}
    (hstored : before.shelf? = some shelf) (hd : shelf.get? id = some d) (after : Store) :
    id ∉ before.added after := by
  rw [added, hstored]
  cases after.shelf? with
  | none => simp
  | some t => simp [Table.contains_eq_isSome, hd]

/-- **What a call writes over is pending after it.** -/
theorem Workspace.mem_pending_of_wrote {w after : Workspace} {call : Session.Call}
    {answer : Except Error Session.Answer} {shelf : Shelf} {id : String} {d : Document}
    (hperform : w.perform call = (answer, after)) (hstored : w.site.store.shelf? = some shelf)
    (hd : shelf.get? id = some d)
    (hwrote : id ∈ call.wrote answer w.site.store after.site.store) :
    id ∈ after.session.pending.keys := by
  have hold : id ∉ w.site.store.added after.site.store := Store.notMem_added hstored hd _
  cases call with
  -- what these write is new, but there was a document before
  | create | addChild | copy | checkIn => exact absurd hwrote hold
  | update e =>
    rw [perform, writing] at hperform
    cases hupdate : w.update e with
    | mk result other =>
      rw [hupdate] at hperform
      cases result with
      | error error =>
        -- nothing is written if the update is refused
        cases hperform
        cases hwrote
      | ok u =>
        cases hperform
        have hid : id ∈ e.id?.toList := hwrote
        exact mem_pending_of_update hupdate (Option.mem_toList.1 hid)
  | revise k fields cleared =>
    rw [perform, writing, revise] at hperform
    -- as before: only an update that succeeds has written something
    split at hperform
    · cases hperform
      cases hwrote
    · cases hperform
      cases hwrote
    · next e _ =>
      dsimp only at hperform
      split at hperform
      · next hupdate =>
        cases hperform
        have hid : id ∈ ((e.setAll fields).unsetAll cleared).id?.toList := hwrote
        exact mem_pending_of_update hupdate (Option.mem_toList.1 hid)
      · cases hperform
        cases hwrote
  | _ => cases hwrote

namespace Repository

variable {r : Repository}

/-- A call through a session is the call in its workspace. -/
theorem perform_session (r : Repository) (number : Nat) (call : Session.Call) :
    r.perform (.session number) call = (((r.workspace number).perform call).1,
      r.absorb number ((r.workspace number).perform call).2) := by
  show ((((r.workspace number).perform call).1.mapError (seenThrough (.session number))), _) = _
  cases ((r.workspace number).perform call).1 <;> rfl

end Repository

/-! ## Events -/

namespace Chronicle.Sound

variable {c : Chronicle} {shelf : Shelf} {queue : IndexQueue}

theorem connect (h : c.Sound shelf queue) (id : String) :
    (c.next (.connect id)).Sound shelf queue := by
  have hsession : ∀ n, (c.next (.connect id)).repository.session n =
      if n = c.repository.next then Session.fresh id else c.repository.session n := fun n =>
    Repository.session_put { c.repository with next := c.repository.next + 1 } c.repository.next
      (Session.fresh id) n
  -- the number was free, so no document is pending less than before
  have hpending : ∀ n, ((c.next (.connect id)).repository.session n).pending.keys =
      (c.repository.session n).pending.keys := by
    intro n
    rw [hsession]
    split
    · next heq =>
      rw [heq, h.closed _ (h.unopened _ (Nat.le_refl _))]
      rfl
    · rfl
  exact {
    stored := h.stored
    keyed := h.keyed
    queued := h.queued
    accepting := h.accepting
    named := h.named
    submitted := h.submitted
    unopened := by
      intro n hn
      have hnext : c.repository.next + 1 ≤ n := hn
      rw [hsession, if_neg (by omega)]
      exact h.unopened n (by omega)
    closed := by
      intro n hclosed
      rw [hsession] at hclosed
      split at hclosed
      · cases hclosed
      · rw [hpending]
        exact h.closed n hclosed
    foreseen := by
      intro id d hd hproxy hwritten hforsaken hidle
      refine h.foreseen id d hd hproxy hwritten hforsaken fun n => ?_
      rw [← hpending n]
      exact hidle n }

/-- What was pending in a closed session is given up. -/
theorem close (h : c.Sound shelf queue) (number : Nat) :
    (c.next (.close number)).Sound shelf queue := by
  have hsession : ∀ n, (c.next (.close number)).repository.session n =
      if n = number then (c.repository.session number).close else c.repository.session n :=
    Repository.session_put c.repository number (c.repository.session number).close
  have hclose : ∀ s : Session, s.close.live = false ∧ (s.live = true → s.close.pending.keys = []) ∧
      (s.live = false → s.close = s) := by
    intro s
    cases hlive : s.live <;> simp [Session.close, hlive, Table.keys, Table.empty]
  obtain ⟨hdead, hforgot, hsame⟩ := hclose (c.repository.session number)
  have hempty : (c.repository.session number).close.pending.keys = [] := by
    -- a session that is closed again has nothing pending already
    cases hlive : (c.repository.session number).live with
    | true => exact hforgot hlive
    | false => rw [hsame hlive, h.closed number hlive]
  exact {
    stored := h.stored
    keyed := h.keyed
    queued := h.queued
    accepting := h.accepting
    named := h.named
    submitted := h.submitted
    unopened := by
      intro n hn
      rw [hsession]
      split
      · exact hdead
      · exact h.unopened n hn
    closed := by
      intro n hclosed
      rw [hsession] at hclosed ⊢
      split at hclosed
      · next heq => rw [if_pos heq, hempty]
      · next hne =>
        rw [if_neg hne]
        exact h.closed n hclosed
    foreseen := by
      intro id d hd hproxy hwritten hforsaken hidle
      -- the document was not pending in the session, or it would be given up now
      obtain ⟨hbefore, hpending⟩ := not_or.1 (mt List.mem_append.2 hforsaken)
      refine h.foreseen id d hd hproxy hwritten hbefore (idle_of_others hpending fun n hne => ?_)
      have hn := hidle n
      rwa [hsession, if_neg hne] at hn }

/-- A step of the queue, from what it means for the documents. -/
theorem index_of_step (h : c.Sound shelf queue) {q : IndexQueue} {store : Store} {t : Shelf}
    (hstep : queue.step unobstructed c.repository.site.store = (q, store))
    (ht : store.shelf? = some t) (hkeyed : t.Keyed)
    (hqueue : q.accepting = queue.accepting ∧ q.repository = queue.repository)
    (hpending : q.pending ⊆ queue.pending)
    (hbecame : ∀ k e, t.get? k = some e → e.isProxy = false → ∃ d, shelf.get? k = some d ∧
      d.isProxy = false ∧ (IndexJob.Foresee queue.pending k d → IndexJob.Foresee q.pending k e)) :
    (c.next .index).Sound t q := by
  have hnext : c.repository.indexNext = c.repository.withIndexed (some q) store := by
    rw [Repository.indexNext, h.queued]
    dsimp only
    rw [hstep]
  rw [next, hnext]
  exact {
    stored := ht
    keyed := hkeyed
    queued := rfl
    accepting := hqueue.1.trans h.accepting
    named := hqueue.2.trans h.named
    submitted := fun job hjob => h.submitted job (hpending hjob)
    unopened := h.unopened
    closed := h.closed
    foreseen := by
      intro k e he hproxy hwritten hforsaken hidle
      obtain ⟨d, hd, hbefore, hnearer⟩ := hbecame k e he hproxy
      exact hnearer (h.foreseen k d hd hbefore hwritten hforsaken hidle) }

/-- **The worker brings the documents nearer to their texts.** -/
theorem index (h : c.Sound shelf queue) :
    ∃ t q, (c.next .index).Sound t q ∧ q.pending = queue.pending.tail := by
  cases hpending : queue.pending with
  | nil =>
    have hstep : queue.step unobstructed c.repository.site.store =
        (queue, c.repository.site.store) := by rw [IndexQueue.step, hpending]
    refine ⟨shelf, queue, h.index_of_step hstep h.stored h.keyed ⟨rfl, rfl⟩ (List.Subset.refl _)
      fun k e he hproxy => ⟨e, he, hproxy, fun hforesee => hforesee⟩, hpending⟩
  | cons job rest =>
    obtain ⟨repository, id, d, rfl⟩ := h.submitted job (by rw [hpending]; exact List.mem_cons_self)
    obtain ⟨outcome, t, hstep, hkeyed, hbecame⟩ :=
      IndexQueue.exists_step h.stored h.keyed hpending
    obtain ⟨hrest, hqueue⟩ : ({ queue with pending := rest }.record outcome).pending = rest ∧
        ({ queue with pending := rest }.record outcome).accepting = queue.accepting ∧
        ({ queue with pending := rest }.record outcome).repository = queue.repository := by
      cases outcome <;> exact ⟨rfl, rfl, rfl⟩
    refine ⟨t, _, h.index_of_step hstep rfl hkeyed hqueue ?_ fun k e he hproxy => ?_, hrest⟩
    · rw [hrest, hpending]
      exact List.subset_cons_self _ _
    · rw [hrest, hpending]
      obtain ⟨hstays, hself⟩ | ⟨rfl, old, hold, hbefore, rfl⟩ := hbecame k e he
      · -- the job is for another document, as this one is no proxy
        refine ⟨e, hstays, hproxy, fun hforesee => hforesee.of_cons_of_ne ?_⟩
        intro htarget
        cases htarget
        rw [hself rfl] at hproxy
        cases hproxy
      · exact ⟨old, hold, hbefore, IndexJob.Foresee.of_cons⟩

/-- Only the session of a call may have other documents pending after it. -/
theorem session_call (c : Chronicle) (number : Nat) (call : Session.Call) (n : Nat) :
    (c.next (.call number call)).repository.session n =
      if n = number then ((c.repository.workspace number).perform call).2.session
      else c.repository.session n := by
  rw [next, Repository.perform_session]
  exact Repository.session_absorb _ _ _ _

/-- A call, from what it does to its workspace. -/
theorem call_of_perform (h : c.Sound shelf queue) {number : Nat} {call : Session.Call}
    {answer : Except Error Session.Answer} {after : Workspace} {t : Shelf} {q : IndexQueue}
    (hperform : (c.repository.workspace number).perform call = (answer, after))
    (ht : after.site.store.shelf? = some t) (hkeyed : t.Keyed) (hq : after.site.queue = some q)
    (haccepting : q.accepting = true) (hnamed : q.repository = after.site.repository)
    (hsubmitted : ∀ job ∈ q.pending, ∃ repository id d, job = .ofDocument repository id d)
    (hclosed : (c.repository.session number).live = false → after.session.pending.keys = [])
    (hforeseen : ∀ id d, t.get? id = some d → d.isProxy = false →
      id ∈ c.written ∨ id ∈ call.wrote answer c.repository.site.store after.site.store →
      id ∉ c.forsaken → id ∉ after.session.pending.keys →
      (∀ n, n ≠ number → id ∉ (c.repository.session n).pending.keys) →
      IndexJob.Foresee q.pending id d) :
    (c.next (.call number call)).Sound t q := by
  have hsession := session_call c number call
  rw [hperform] at hsession
  have hsite : (c.next (.call number call)).repository.site = after.site := by
    rw [next, Repository.perform_session, hperform]
    rfl
  have hwritten : (c.next (.call number call)).written =
      c.written ++ call.wrote answer c.repository.site.store after.site.store := by
    rw [next, Repository.perform_session, hperform]
    rfl
  -- a call neither opens nor closes a session
  have hlive : ∀ n, ((c.next (.call number call)).repository.session n).live =
      (c.repository.session n).live := by
    intro n
    rw [hsession]
    split
    · next heq =>
      have hsame := Workspace.live_perform (w := c.repository.workspace number) call
      rw [hperform] at hsame
      rw [hsame, heq]
      rfl
    · rfl
  exact {
    stored := by rw [hsite, ht]
    keyed := hkeyed
    queued := by rw [hsite, hq]
    accepting := haccepting
    named := by rw [hsite, hnamed]
    submitted := hsubmitted
    unopened := by
      intro n hn
      rw [hlive]
      exact h.unopened n hn
    closed := by
      intro n hdead
      rw [hlive] at hdead
      rw [hsession]
      split
      · next heq => exact hclosed (heq ▸ hdead)
      · exact h.closed n hdead
    foreseen := by
      intro id d hd hproxy hmem hforsaken hidle
      -- it was written before or by this very call, and the caller of the lemma knows both cases
      rw [hwritten, List.mem_append] at hmem
      refine hforeseen id d hd hproxy hmem hforsaken ?_ fun n hne => ?_
      · have hown := hidle number
        rwa [hsession, if_pos rfl] at hown
      · have hother := hidle n
        rwa [hsession, if_neg hne] at hother }

/-- **A call leaves pending what it writes.** -/
theorem perform (h : c.Sound shelf queue) (number : Nat) {call : Session.Call}
    (hcall : call ≠ .commit) : ∃ t, (c.next (.call number call)).Sound t queue := by
  let w := c.repository.workspace number
  obtain ⟨answer, after, hperform⟩ : ∃ answer after, w.perform call = (answer, after) :=
    ⟨_, _, rfl⟩
  have htidied : w.Tidied shelf after := by
    have hcalled : w.Tidied shelf (w.perform call).2 := Workspace.tidied_perform h.stored hcall
    rwa [hperform] at hcalled
  obtain ⟨t, ht, hkeyed, haccounts⟩ := htidied.exists_accounts h.stored h.keyed
  obtain ⟨store, ids, clock, hsite⟩ := htidied.exists_site
  refine ⟨t, h.call_of_perform hperform ht hkeyed ?_ h.accepting ?_ h.submitted ?_ ?_⟩
  · rw [hsite]
    exact h.queued
  · rw [hsite]
    exact h.named
  · intro hdead
    rw [htidied.eq_of_closed hdead]
    exact h.closed number hdead
  · intro id e he hproxy hwritten hforsaken hpending hothers
    -- of the three ways to account for the document only one is left
    obtain hmarked | hisProxy | ⟨hbefore, d, hd, hde⟩ := haccounts id e he
    · exact absurd hmarked hpending
    · rw [hproxy] at hisProxy
      cases hisProxy
    have hold : id ∈ c.written := by
      refine hwritten.resolve_right fun hwrote => hpending ?_
      exact Workspace.mem_pending_of_wrote hperform h.stored hd hwrote
    have hidle : c.Idle id := idle_of_others hbefore hothers
    exact (h.foreseen id d hd (hde.isProxy.symm.trans hproxy) hold hforsaken hidle).congr hde

/-- **A commit submits what was pending.** -/
theorem commit (h : c.Sound shelf queue) (number : Nat) :
    ∃ q, (c.next (.call number .commit)).Sound shelf q := by
  let w := c.repository.workspace number
  cases hlive : w.session.live with
  | false =>
    have hperform : w.perform .commit = (.error .sessionClosed, w) := by
      simp [Workspace.perform, Workspace.writing, Workspace.commit, Workspace.liveSite, hlive,
        Except.map]
    refine ⟨queue, h.call_of_perform hperform h.stored h.keyed h.queued h.accepting h.named
      h.submitted (h.closed number) ?_⟩
    intro id d hd hproxy hwritten hforsaken hown hothers
    exact h.foreseen id d hd hproxy (hwritten.resolve_right List.not_mem_nil) hforsaken
      (idle_of_others hown hothers)
  | true =>
    have hcommit := w.commit_eq hlive h.stored h.queued h.accepting h.named
    have hperform : w.perform .commit = (.ok (Workspace.done ()), w.commit.2) := by
      rw [Workspace.perform, Workspace.writing, hcommit]
      rfl
    rw [hcommit] at hperform
    refine ⟨_, h.call_of_perform hperform h.stored h.keyed rfl h.accepting h.named ?_ ?_ ?_⟩
    · intro job hjob
      rcases List.mem_append.1 hjob with hjob | hjob
      · exact h.submitted job hjob
      · obtain ⟨id, -, d, -, -, rfl⟩ := Shelf.mem_jobs.1 hjob
        exact ⟨_, id, d, rfl⟩
    · exact fun _ => rfl
    · intro id d hd hproxy hwritten hforsaken _ hothers
      have hown : ∀ job ∈ shelf.jobs queue.repository w.session.pending.keys,
          job.target = .document id → job = .ofDocument queue.repository id d := by
        intro job hjob htarget
        obtain ⟨k, -, e, he, -, rfl⟩ := Shelf.mem_jobs.1 hjob
        cases htarget
        cases hd.symm.trans he
        rfl
      by_cases hpending : id ∈ w.session.pending.keys
      · -- it was pending here, so its text as it is now is submitted last
        exact .of_submitted queue.pending hown
          (Shelf.mem_jobs.2 ⟨id, hpending, d, hd, hproxy, rfl⟩)
      · have hforesee := h.foreseen id d hd hproxy (hwritten.resolve_right List.not_mem_nil)
          hforsaken (idle_of_others hpending hothers)
        exact hforesee.append hown

/-- **Every event keeps what holds of a repository in which documents are indexed.** -/
theorem next (h : c.Sound shelf queue) (event : Event) : ∃ t q, (c.next event).Sound t q := by
  cases event with
  | connect id => exact ⟨shelf, queue, h.connect id⟩
  | close number => exact ⟨shelf, queue, h.close number⟩
  | index =>
    obtain ⟨t, q, hnext, -⟩ := h.index
    exact ⟨t, q, hnext⟩
  | call number call =>
    by_cases hcall : call = .commit
    · subst hcall
      obtain ⟨q, hq⟩ := h.commit number
      exact ⟨shelf, q, hq⟩
    · obtain ⟨t, ht⟩ := h.perform number hcall
      exact ⟨t, queue, ht⟩

/-- **A repository that has just been opened.** Its store may have any documents in it. -/
theorem of_create {config : Config} {store : Store} {ownsStore : Bool} {clock : Instant}
    {seed : UInt64} {first : Repository} (hindexed : config.fulltext = true)
    (hstored : store.shelf? = some shelf) (hkeyed : shelf.Keyed)
    (hopened : Repository.create config store ownsStore clock seed = .ok first) :
    ∃ t, (Chronicle.start first).Sound t (IndexQueue.start config.name) := by
  simp only [Repository.create, bind_eq_ok_iff, hindexed, if_true] at hopened
  obtain ⟨site, hfound, heq⟩ := hopened
  cases heq
  simp only [Site.found, bind_eq_ok_iff] at hfound
  obtain ⟨middle, hroot, last, hversions, heq⟩ := hfound
  cases heq
  obtain ⟨s, hs, hskeyed⟩ := Site.exists_keyed_create hstored hkeyed hroot
  obtain ⟨t, ht, htkeyed⟩ := Site.exists_keyed_create hs hskeyed hversions
  exact ⟨t, {
    stored := ht
    keyed := htkeyed
    queued := rfl
    accepting := rfl
    named := rfl
    submitted := fun job hjob => absurd hjob List.not_mem_nil
    unopened := fun n _ => rfl
    closed := fun n _ => rfl
    foreseen := fun id d _ _ hwritten => absurd hwritten List.not_mem_nil }⟩

end Chronicle.Sound

/-! ## Whole runs -/

namespace Chronicle

variable {first : Repository} {c : Chronicle}

/-- **What holds of a repository in which documents are indexed holds after every run.** Induction
on the run. -/
theorem Reaches.exists_sound {start : Chronicle} {shelf : Shelf} {queue : IndexQueue}
    (hrun : Reaches start c) (h : start.Sound shelf queue) : ∃ t q, c.Sound t q := by
  induction hrun with
  | refl => exact ⟨shelf, queue, h⟩
  | step event _ ih =>
    obtain ⟨t, q, hc⟩ := ih
    exact hc.next event

/-- Events before a run make a longer run. -/
theorem Reaches.of_next {event : Event} {last : Chronicle} (hrun : (c.next event).Reaches last) :
    c.Reaches last := by
  induction hrun with
  | refl => exact .step event .refl
  | step later _ ih => exact .step later ih

/-- **The worker catches up on its own**, as soon as it is given the time. Induction on the jobs
that wait. -/
theorem Sound.exists_caught_up {shelf : Shelf} {queue : IndexQueue} (h : c.Sound shelf queue) :
    ∃ last t q, c.Reaches last ∧ last.Sound t q ∧ q.pending = [] ∧ last.written = c.written ∧
      last.forsaken = c.forsaken ∧ last.repository.sessions = c.repository.sessions := by
  have hsessions : ∀ c : Chronicle,
      (c.next .index).repository.sessions = c.repository.sessions := by
    intro c
    show c.repository.indexNext.sessions = _
    rw [Repository.indexNext]
    split <;> rfl
  generalize hjobs : queue.pending = jobs
  induction jobs generalizing c shelf queue with
  | nil => exact ⟨c, shelf, queue, .refl, h, hjobs, rfl, rfl, rfl⟩
  | cons job rest ih =>
    obtain ⟨t, q, hnext, hrest⟩ := h.index
    rw [hjobs, List.tail_cons] at hrest
    obtain ⟨last, u, p, hrun, hlast, hidle, hwritten, hforsaken, hsame⟩ := ih hnext hrest
    exact ⟨last, u, p, hrun.of_next, hlast, hidle, hwritten, hforsaken, hsame.trans (hsessions c)⟩

/-- **Whatever sessions do to a repository in which documents are indexed, the indexed texts catch
up with the documents.** The repository is opened on a store that may have any documents in it.
Whenever no job waits, a document that is no proxy and was written through a session has its text in
the field for it, unless a session that is live has it pending, or one was closed that had. Nothing
is asked of the order of calls, commits and jobs. -/
theorem converges_of_reaches {config : Config} {provision : Provision} {calls : List Store.Call}
    {ownsStore : Bool} {clock : Instant} {seed : UInt64} (hindexed : config.fulltext = true)
    (hcalls : .shutDown ∉ calls)
    (hopened : Repository.create config ((Store.empty provision).performAll calls) ownsStore clock
      seed = .ok first)
    (hrun : (start first).Reaches c) :
    ∃ shelf queue, c.repository.site.store.shelf? = some shelf ∧
      c.repository.site.queue = some queue ∧
      (queue.pending = [] → ∀ id d, shelf.get? id = some d → d.isProxy = false → id ∈ c.written →
        id ∉ c.forsaken →
        (∀ number, (c.repository.session number).live = true →
          id ∉ (c.repository.session number).pending.keys) →
        d.get? Field.simpleText = some (.string d.simpleText)) := by
  have hempty : (Store.empty provision).shelf? = some Table.empty := rfl
  have hkeyed : Shelf.Keyed Table.empty := fun id d hd => by cases hd
  obtain ⟨stored, hstored, hstoredKeyed⟩ :=
    Store.exists_keyed_performAll hcalls hempty hkeyed
  obtain ⟨s, hs⟩ := Sound.of_create hindexed hstored hstoredKeyed hopened
  obtain ⟨shelf, queue, h⟩ := hrun.exists_sound hs
  refine ⟨shelf, queue, h.stored, h.queued, ?_⟩
  intro hidle id d hd hproxy hwritten hforsaken hlive
  have hnobody : c.Idle id := by
    intro number
    cases hnumber : (c.repository.session number).live with
    | true => exact hlive number hnumber
    | false => simp [h.closed number hnumber]
  have hforesee := h.foreseen id d hd hproxy hwritten hforsaken hnobody
  rw [hidle] at hforesee
  exact hforesee

/-- For instance after a document was added, got a title and was handed to indexing. -/
theorem converges_after_commit :
    ∃ first, Repository.create { name := "test", ids := .sequential }
        ((Store.empty .own).performAll []) true ⟨0, 0, by decide⟩ 0 = .ok first ∧
      let c := (((((start first).next (.connect "s")).next
        (.call 0 (.addChild "UUID_0" "a" "File"))).next
        (.call 0 (.revise "UUID_2" [("title", .string "hello")] []))).next
        (.call 0 .commit)).next .index
      ∃ shelf queue d, c.repository.site.store.shelf? = some shelf ∧
        c.repository.site.queue = some queue ∧ queue.pending = [] ∧
        shelf.get? "UUID_2" = some d ∧ d.isProxy = false ∧ "UUID_2" ∈ c.written ∧
        "UUID_2" ∉ c.forsaken ∧ d.get? Field.simpleText = some (.string d.simpleText) ∧
        d.simpleText = "hello" := by
  have hopened : Repository.create { name := "test", ids := .sequential }
      ((Store.empty .own).performAll []) true ⟨0, 0, by decide⟩ 0 = .ok _ := rfl
  refine ⟨_, hopened, ?_⟩
  intro c
  obtain ⟨shelf, queue, hshelf, hqueue, hconverges⟩ :=
    converges_of_reaches rfl List.not_mem_nil hopened
      (.step _ (.step _ (.step _ (.step _ (.step _ .refl)))))
  -- what the run leads to
  have hidle : (c.repository.site.queue.map (·.pending)) = some [] := rfl
  have htitled : (c.repository.site.store.shelf?.bind (·.get? "UUID_2")).map
    (fun d => (d.isProxy, d.simpleText)) = some (false, "hello") := rfl
  have hwritten : c.written = ["UUID_2", "UUID_2"] := rfl
  have hforsaken : c.forsaken = [] := rfl
  have hnobody : ∀ number, "UUID_2" ∉ (c.repository.session number).pending.keys := by
    intro number
    cases number <;> exact List.not_mem_nil
  rw [hqueue] at hidle
  have hempty : queue.pending = [] := Option.some.inj hidle
  rw [hshelf] at htitled
  obtain ⟨d, hd, htext⟩ := Option.map_eq_some_iff.1 htitled
  obtain ⟨hproxy, htext⟩ := Prod.mk.inj htext
  have hmem : "UUID_2" ∈ c.written := by simp [hwritten]
  have hkept : "UUID_2" ∉ c.forsaken := by simp [hforsaken]
  exact ⟨shelf, queue, d, hshelf, hqueue, hempty, hd, hproxy, hmem, hkept,
    hconverges hempty _ d hd hproxy hmem hkept fun number _ => hnobody number, htext⟩

end Chronicle

end ContentRepository
