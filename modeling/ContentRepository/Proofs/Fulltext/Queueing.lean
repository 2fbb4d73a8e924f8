import ContentRepository.Proofs.Fulltext.Texts
import ContentRepository.Proofs.Session.Checks
import ContentRepository.Proofs.Store.Filing

/-!
# From a commit to the store

A commit appends one job to the queue for each document that is pending, still there and no proxy.
The worker takes the jobs from the other end and puts their texts on the shelf.

* **`Workspace.commit_eq`** — what a commit submits.
* **`IndexQueue.exists_step`** — what carrying out the next job does to each document.
-/

namespace ContentRepository

variable {shelf : Shelf} {queue : IndexQueue}

/-! ## Submitting -/

/-- The jobs for some documents, as these are on the shelf. -/
def Shelf.jobs (shelf : Shelf) (repository : String) (ids : List String) : List IndexJob :=
  ids.filterMap fun id => (shelf.get? id).bind fun d =>
    if d.isProxy then none else some (.ofDocument repository id d)

theorem Shelf.mem_jobs {repository : String} {ids : List String} {job : IndexJob} :
    job ∈ shelf.jobs repository ids ↔ ∃ id ∈ ids, ∃ d, shelf.get? id = some d ∧
      d.isProxy = false ∧ job = .ofDocument repository id d := by
  simp only [jobs, List.mem_filterMap, Option.bind_eq_some_iff]
  refine exists_congr fun id => and_congr_right fun _ => exists_congr fun d =>
    and_congr_right fun _ => ?_
  cases d.isProxy <;> simp [eq_comm]

/-- An open queue takes all jobs for its own repository. -/
theorem submitEach_eq {store : Store} (hstored : store.shelf? = some shelf)
    (haccepting : queue.accepting = true) (ids : List String) :
    submitEach queue.repository store IndexQueue.submit ids queue =
      (.ok (), { queue with pending := queue.pending ++ shelf.jobs queue.repository ids }) := by
  induction ids generalizing queue with
  | nil => simp [submitEach, Shelf.jobs]
  | cons id rest ih =>
    rw [submitEach, Store.find?_eq hstored]
    cases hd : shelf.get? id with
    | none =>
      -- a document that is gone is passed over
      dsimp only
      rw [ih haccepting]
      simp [Shelf.jobs, hd]
    | some d =>
      cases hproxy : d.isProxy with
      | true =>
        -- so is a proxy
        simp only [hproxy, if_true]
        rw [ih haccepting]
        simp [Shelf.jobs, hd, hproxy]
      | false =>
        -- an open queue takes a job for its own repository
        let submitted : IndexQueue := { queue with
          pending := queue.pending ++ [.ofDocument queue.repository id d] }
        have hsubmit : queue.submit (.ofDocument queue.repository id d) = .ok submitted := by
          simp [IndexQueue.submit, IndexJob.ofDocument, haccepting, submitted]
        simp only [hproxy, hsubmit, Bool.false_eq_true, if_false]
        have hopen : submitted.accepting = true := haccepting
        have hrest : submitEach queue.repository store IndexQueue.submit rest submitted = _ :=
          ih hopen
        rw [hrest]
        simp [Shelf.jobs, hd, hproxy, submitted]

/-- **A commit submits a job for each document that is pending, and nothing is pending then.** -/
theorem Workspace.commit_eq {w : Workspace} (hlive : w.session.live = true)
    (hstored : w.site.store.shelf? = some shelf) (hqueue : w.site.queue = some queue)
    (haccepting : queue.accepting = true) (hnamed : queue.repository = w.site.repository) :
    w.commit = (.ok (),
      { site := { w.site with queue := some { queue with
          pending := queue.pending ++ shelf.jobs queue.repository w.session.pending.keys } }
        session := { w.session with pending := Table.empty } }) := by
  have hsite : w.liveSite = .ok w.site := liveSite_eq_ok_iff.2 ⟨hlive, rfl⟩
  simp only [commit, hsite, hqueue]
  rw [← hnamed, submitEach_eq hstored haccepting]

/-! ## Carrying out -/

/-- The worker is kept from no document. -/
def unobstructed (_ : String) : Option StoreError := none

theorem IndexJob.apply_of_edit {job : IndexJob} {store after : Store} {id : String} {edited : Bool}
    (htarget : job.target = .document id) (hedit : store.edit id job.fillOne = .ok (edited, after)) :
    job.apply unobstructed store = (.ok edited.toNat, after) := by
  simp [apply, htarget, editUnless, unobstructed, hedit]

/-- A document that is gone is passed over. -/
theorem IndexJob.apply_of_absent {job : IndexJob} {store : Store} {id other : String}
    (htarget : job.target = .document id)
    (hedit : store.edit id job.fillOne = .error (.notFound other)) :
    job.apply unobstructed store = (.ok 0, store) := by
  simp [apply, htarget, editUnless, unobstructed, hedit]

/-- **Carrying out the next job fills in one document.** The others stay, and so does the document
itself if it is a proxy. -/
theorem IndexQueue.exists_step {store : Store} {repository id : String} {c : Document}
    {rest : List IndexJob} (hstored : store.shelf? = some shelf) (hkeyed : shelf.Keyed)
    (hpending : queue.pending = .ofDocument repository id c :: rest) :
    ∃ outcome t, queue.step unobstructed store =
        ({ queue with pending := rest }.record outcome, store.withShelf t) ∧ t.Keyed ∧
      ∀ k e, t.get? k = some e →
        (shelf.get? k = some e ∧ (k = id → e.isProxy = true)) ∨
        (k = id ∧ ∃ d, shelf.get? id = some d ∧ d.isProxy = false ∧
          e = ((IndexJob.ofDocument repository id c).fill d).set Field.id (.string id)) := by
  let job := IndexJob.ofDocument repository id c
  have htarget : job.target = .document id := rfl
  have hsame : store.withShelf shelf = store := Store.withShelf_self hstored
  have hstep : queue.step unobstructed store =
      ({ queue with pending := rest }.record (job.apply unobstructed store).1,
        (job.apply unobstructed store).2) := by
    rw [IndexQueue.step, hpending]
  have hedit := Store.edit_eq hstored id job.fillOne
  rw [hstep]
  cases hd : shelf.get? id with
  | none =>
    -- the document is gone by now
    rw [hd] at hedit
    rw [IndexJob.apply_of_absent htarget hedit]
    refine ⟨_, shelf, by rw [hsame], hkeyed, fun k e he => .inl ⟨he, ?_⟩⟩
    rintro rfl
    cases hd.symm.trans he
  | some d =>
    rw [hd] at hedit
    cases hproxy : d.isProxy with
    | true =>
      -- it is a proxy, which the job leaves alone
      have hdeclined : job.fillOne d = none := by simp [IndexJob.fillOne, hproxy]
      simp only [hdeclined] at hedit
      rw [IndexJob.apply_of_edit htarget hedit]
      refine ⟨_, shelf, by rw [hsame], hkeyed, fun k e he => .inl ⟨he, ?_⟩⟩
      rintro rfl
      cases hd.symm.trans he
      exact hproxy
    | false =>
      -- it gets its text
      have hfilled : job.fillOne d = some (job.fill d) := by simp [IndexJob.fillOne, hproxy]
      simp only [hfilled] at hedit
      rw [IndexJob.apply_of_edit htarget hedit]
      refine ⟨_, _, rfl, hkeyed.insert (Store.id?_set_id _ id), fun k e he => ?_⟩
      obtain ⟨rfl, rfl⟩ | ⟨hne, he⟩ := Table.get?_insert_eq_some_iff.1 he
      · exact .inr ⟨rfl, d, rfl, hproxy, rfl⟩
      · exact .inl ⟨he, fun heq => absurd heq hne⟩

end ContentRepository
