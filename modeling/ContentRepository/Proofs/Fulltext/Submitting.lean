import ContentRepository.Proofs.Fulltext.Plans
import ContentRepository.Proofs.Fulltext.Queueing
import ContentRepository.Proofs.Tree.Contents

/-!
# Commits whose jobs may be refused

A commit hands the pending documents to a taker of jobs, and the first job that is refused ends it.
Besides what a commit does, this module says what it starts from: which documents a call marks, told
apart from those that were pending before.

* **`Workspace.commitTo`** — a commit against any taker, and **`Workspace.commit_eq_commitTo`**: the
  queue of a site is one.
* **`submitEach_taker`** — which jobs are taken.
* **`Workspace.marks`** and **`Workspace.exceeds_perform`** — what is pending after a call was
  pending before or is marked by it, and what it marks is pending.
-/

namespace ContentRepository

/-! ## Takers -/

/-- Something that jobs are handed to. It may refuse any of them for any reason. -/
structure Taker where
  /-- Why a job is refused, given the jobs taken since the commit began; none if it is taken. -/
  refusal? : List IndexJob → IndexJob → Option Error

/-- The taker that takes everything. -/
def Taker.willing : Taker := ⟨fun _ _ => none⟩

/-- The taker that takes nothing. -/
def Taker.unwilling (e : Error) : Taker := ⟨fun _ _ => some e⟩

/-- Hands a job over. -/
def Taker.submit (taker : Taker) (taken : List IndexJob) (job : IndexJob) :
    Except Error (List IndexJob) :=
  (taker.refusal? taken job).elim (.ok (taken ++ [job])) .error

/-- A queue takes jobs. What it holds already makes no difference to what it refuses. -/
def IndexQueue.taker (queue : IndexQueue) : Taker where
  refusal? _ job := match queue.submit job with
    | .ok _ => none
    | .error e => some e

namespace Workspace

/-- The workspace with other documents pending. -/
def withPending (w : Workspace) (pending : TextSet) : Workspace :=
  { w with session := { w.session with pending } }

/-- A commit against a taker: how it ends, the workspace afterwards, and the jobs that were taken. -/
def commitTo (w : Workspace) (taker : Taker) : Except Error Unit × Workspace × List IndexJob :=
  match w.liveSite with
  | .error e => (.error e, w, [])
  | .ok site =>
    let (result, taken) :=
      submitEach site.repository site.store taker.submit w.session.pending.keys []
    (result, w.withPending Table.empty, taken)

end Workspace

/-- Submitting to a queue appends to it what it takes. -/
theorem submitEach_queue (repository : String) (store : Store) (queue : IndexQueue)
    (ids : List String) (taken : List IndexJob) :
    submitEach repository store IndexQueue.submit ids
        { queue with pending := queue.pending ++ taken } =
      ((submitEach repository store queue.taker.submit ids taken).1,
        { queue with pending :=
            queue.pending ++ (submitEach repository store queue.taker.submit ids taken).2 }) := by
  induction ids generalizing taken with
  | nil => rfl
  | cons id rest ih =>
    simp only [submitEach]
    split
    · rfl
    · exact ih taken
    · next d _ =>
      split
      · exact ih taken
      · -- whether a job is refused depends on nothing that taking jobs changes
        have hsubmit : ∀ job : IndexJob,
            { queue with pending := queue.pending ++ taken }.submit job =
              (queue.taker.submit taken job).map fun taken =>
                { queue with pending := queue.pending ++ taken } := by
          intro job
          simp only [IndexQueue.submit, Taker.submit, IndexQueue.taker]
          split_ifs <;> simp [Except.map]
        rw [hsubmit]
        cases queue.taker.submit taken (.ofDocument repository id d) with
        | error e => rfl
        | ok more => exact ih more

/-- **A commit of a site is a commit against its queue**, which holds afterwards what it took. -/
theorem Workspace.commit_eq_commitTo {w : Workspace} {queue : IndexQueue}
    (hqueue : w.site.queue = some queue) :
    w.commit = ((w.commitTo queue.taker).1,
      { (w.commitTo queue.taker).2.1 with site := { w.site with queue := some { queue with
          pending := queue.pending ++ (w.commitTo queue.taker).2.2 } } }) := by
  rw [commit, commitTo]
  cases hsite : w.liveSite with
  | error e =>
    simp only [List.append_nil]
    rw [← hqueue]
  | ok site =>
    obtain ⟨-, rfl⟩ := liveSite_eq_ok_iff.1 hsite
    simp only [hqueue]
    have hall := submitEach_queue w.site.repository w.site.store queue w.session.pending.keys []
    simp only [List.append_nil] at hall
    rw [hall]
    rfl

variable {shelf : Shelf}

/-- **What is taken begins like what there is to hand over**, and is all of it unless the commit
fails. -/
theorem submitEach_taker {store : Store} (hstored : store.shelf? = some shelf)
    (repository : String) (taker : Taker) (ids : List String) (taken : List IndexJob) :
    ∃ jobs, (submitEach repository store taker.submit ids taken).2 = taken ++ jobs ∧
      jobs <+: shelf.jobs repository ids ∧
      ((submitEach repository store taker.submit ids taken).1 = .ok () →
        jobs = shelf.jobs repository ids) := by
  induction ids generalizing taken with
  | nil => exact ⟨[], by simp [submitEach], List.nil_prefix, fun _ => rfl⟩
  | cons id rest ih =>
    -- the first document has a job of its own or none
    have hsplit : shelf.jobs repository (id :: rest) =
        ((shelf.get? id).bind fun d => if d.isProxy then none
          else some (IndexJob.ofDocument repository id d)).toList ++ shelf.jobs repository rest := by
      rw [Shelf.jobs, List.filterMap_cons]
      split
      · next hnone => rw [hnone]; rfl
      · next hsome => rw [hsome]; rfl
    rw [submitEach, Store.find?_eq hstored, hsplit]
    cases hd : shelf.get? id with
    -- documents that are gone and proxies have none
    | none => exact ih taken
    | some d =>
      cases hproxy : d.isProxy with
      | true =>
        simp only [hproxy, if_true, Option.bind_some, Option.toList_none, List.nil_append]
        exact ih taken
      | false =>
        simp only [hproxy, Bool.false_eq_true, if_false, Option.bind_some, Option.toList_some,
          List.singleton_append, Taker.submit]
        cases taker.refusal? taken (.ofDocument repository id d) with
        -- a job that is refused ends it: nothing was taken, and the commit fails
        | some e => exact ⟨[], by simp, List.nil_prefix, fun hok => by cases hok⟩
        | none =>
          -- a job that is taken comes first, before those for the rest
          obtain ⟨jobs, htaken, hbegin, hall⟩ := ih (taken ++ [.ofDocument repository id d])
          refine ⟨.ofDocument repository id d :: jobs, ?_, ?_, fun hok => ?_⟩
          · rw [Option.elim_none]
            simpa using htaken
          · exact (List.cons_prefix_cons).2 ⟨rfl, hbegin⟩
          · rw [hall hok]

/-- **A commit takes everything off the list of what is pending**, and has a beginning of the jobs
taken; all of them if it succeeds. -/
theorem Workspace.exists_commitTo_eq {w : Workspace} (hlive : w.session.live = true)
    (hstored : w.site.store.shelf? = some shelf) (taker : Taker) :
    ∃ result taken, w.commitTo taker = (result, w.withPending Table.empty, taken) ∧
      taken <+: shelf.jobs w.site.repository w.session.pending.keys ∧
      (result = .ok () → taken = shelf.jobs w.site.repository w.session.pending.keys) := by
  obtain ⟨jobs, htaken, hbegin, hall⟩ :=
    submitEach_taker hstored w.site.repository taker w.session.pending.keys []
  have hsite : w.liveSite = .ok w.site := liveSite_eq_ok_iff.2 ⟨hlive, rfl⟩
  refine ⟨_, jobs, ?_, hbegin, hall⟩
  rw [commitTo, hsite]
  simp [htaken]

/-! ## What a call marks -/

namespace Workspace

variable {w v : Workspace} {base : List String}

/-- The documents that a call leaves to the next commit: those that are pending after it if nothing
was before. -/
def marks (w : Workspace) (call : Session.Call) : List String :=
  ((w.withPending Table.empty).perform call).2.session.pending.keys

/-- Both are on the same site, and what more is pending in the first than in the second comes from
the given documents. -/
structure Exceeds (w : Workspace) (base : List String) (v : Workspace) : Prop where
  site : w.site = v.site
  kept : ∀ id ∈ v.session.pending.keys, id ∈ w.session.pending.keys
  origin : ∀ id ∈ w.session.pending.keys, id ∈ base ∨ id ∈ v.session.pending.keys

namespace Exceeds

theorem withStore (h : w.Exceeds base v) (store : Store) :
    (w.withStore store).Exceeds base (v.withStore store) where
  site := by rw [Workspace.withStore, Workspace.withStore, h.site]
  kept := h.kept
  origin := h.origin

theorem mark (h : w.Exceeds base v) (id : String) : (w.mark id).Exceeds base (v.mark id) where
  site := h.site
  kept other hother :=
    TextSet.mem_keys_add.2 ((TextSet.mem_keys_add.1 hother).imp_right (h.kept other))
  origin other hother := by
    rcases TextSet.mem_keys_add.1 hother with rfl | hother
    · exact .inr (TextSet.mem_keys_add.2 (.inl rfl))
    · exact (h.origin other hother).imp_right fun hmem => TextSet.mem_keys_add.2 (.inr hmem)

theorem unmark (h : w.Exceeds base v) (id : String) :
    (w.unmark id).Exceeds base (v.unmark id) where
  site := h.site
  kept other hother :=
    Table.mem_keys_erase.2 ((Table.mem_keys_erase.1 hother).imp_right (h.kept other))
  origin other hother := by
    obtain ⟨hne, hother⟩ := Table.mem_keys_erase.1 hother
    exact (h.origin other hother).imp_right fun hmem => Table.mem_keys_erase.2 ⟨hne, hmem⟩

/-- Writes get equally far in both. -/
theorem writeAll (h : w.Exceeds base v) (writes : List Write) :
    (writeAll writes w).2.Exceeds base (writeAll writes v).2 := by
  induction writes generalizing w v with
  | nil => exact h
  | cons first rest ih =>
    rw [Workspace.writeAll, Workspace.writeAll]
    cases first with
    -- only marks and deletions touch what is pending
    | mark id => exact ih (h.mark id)
    | create d =>
      -- the stores are the same, so both get on or neither does
      rw [write, write, h.site]
      cases v.site.store.create d with
      | error e => exact h
      | ok store => exact ih (h.withStore store)
    | update d =>
      rw [write, write, h.site]
      cases v.site.store.update d with
      | error e => exact h
      | ok store => exact ih (h.withStore store)
    | delete id =>
      rw [write, write, h.site]
      cases v.site.store.delete id with
      | error e => exact h
      | ok store => exact ih ((h.withStore store).unmark id)

theorem execute (h : w.Exceeds base v) (plan : Plan) :
    (w.execute plan).2.Exceeds base (v.execute plan).2 := by
  have hbegun : Exceeds
      { w with site := { w.site with
        ids := w.site.ids.skip plan.drawn, clock := w.site.clock.next } } base
      { v with site := { v.site with
        ids := v.site.ids.skip plan.drawn, clock := v.site.clock.next } } :=
    ⟨by rw [h.site], h.kept, h.origin⟩
  exact hbegun.writeAll plan.writes

theorem change (h : w.Exceeds base v) (plan : Except Error Plan) :
    (w.change plan).2.Exceeds base (v.change plan).2 := by
  cases plan with
  | error e => exact h
  | ok plan => exact h.execute plan

theorem produce (h : w.Exceeds base v) (plan : Except Error (Plan × String)) :
    (w.produce plan).2.Exceeds base (v.produce plan).2 := by
  cases plan with
  | error e => exact h
  | ok plan =>
    obtain ⟨plan, id⟩ := plan
    rw [snd_produce, snd_produce]
    exact h.execute plan

end Exceeds

theorem exceeds_withPending_empty (w : Workspace) :
    w.Exceeds w.session.pending.keys (w.withPending Table.empty) where
  site := rfl
  kept id hid := by cases hid
  origin id hid := .inl hid

/-- **What is pending before a call makes no difference to what it does.** So what is pending after
it was pending before or is marked by the call. -/
theorem exceeds_perform (w : Workspace) {call : Session.Call} (hcall : call ≠ .commit) :
    (w.perform call).2.Exceeds w.session.pending.keys
      ((w.withPending Table.empty).perform call).2 := by
  have h := w.exceeds_withPending_empty
  cases call with
  | create | update | delete | remove | checkOut | setPolicy => exact h.change _
  -- all other calls carry out a plan, which does not depend on what is pending
  | addChild | move | copy | checkIn | addProxy => exact h.produce _
  | revise id fields cleared =>
    have hask : (w.withPending Table.empty).ask (·.find? id) = w.ask (·.find? id) := rfl
    show (w.revise id fields cleared).2.Exceeds _
      ((w.withPending Table.empty).revise id fields cleared).2
    cases hfound : w.ask (·.find? id) with
    | error e =>
      -- if there is nothing to revise, nothing happens on either side
      rw [revise, revise, hask, hfound]
      exact h
    | ok found =>
      cases found with
      | none =>
        rw [revise, revise, hask, hfound]
        exact h
      | some d =>
        rw [snd_revise_of_found hfound, snd_revise_of_found (hask.trans hfound)]
        exact h.change _
  | commit => exact absurd rfl hcall
  | _ => exact h

end Workspace

end ContentRepository
