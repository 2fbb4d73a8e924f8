import ContentRepository.Proofs.Fulltext.Submitting

/-!
# The diary of a session

A commit forgets what was pending whether it succeeds or not. A document whose turn had not come
when a job was refused is therefore left out by the next commit as well, unless a call marks it
anew. This module keeps a diary of one session and settles from it which documents have had a job
taken since they were last marked: after a commit that succeeds, exactly those that no failed commit
has dropped in the meantime.

* **`Diary`** — a `DocumentSession` with notes that only the proof keeps: what it marked, which jobs
  were taken and which documents failed commits dropped.
* **`Diary.Sound`** — the invariant, and **`Diary.Sound.next`**: every event keeps it.
* **`Diary.served_iff_of_commit`** — what a commit that succeeds leaves behind.
-/

namespace ContentRepository

/-- One note about a session. -/
inductive Note where
  /-- A document was left to the next commit. -/
  | marked (id : String)
  /-- A commit had a job taken. -/
  | taken (job : IndexJob)
  /-- A commit failed. The documents had been pending and got no job taken. -/
  | failed (left : List String)
deriving DecidableEq

namespace Note

/-- The note is of a job for the document. -/
def Serves (id : String) : Note → Prop
  | .taken job => job.target = .document id
  | _ => False

/-- The note is of a commit that failed and left the document without a job. -/
def Drops (id : String) : Note → Prop
  | .failed left => id ∈ left
  | _ => False

/-- The notes of a commit, newest first: a failure comes after the jobs that were taken. -/
def ofCommit (pending : TextSet) (result : Except Error Unit) (taken : List IndexJob) :
    List Note :=
  let failure : List Note := match result with
    | .ok () => []
    | .error _ =>
      [.failed (pending.keys.filter fun id => taken.all fun job => job.target ≠ .document id)]
  failure ++ taken.reverse.map .taken

end Note

/-- A session on its site, and the notes about it, newest first. -/
structure Diary where
  workspace : Workspace
  notes : List Note

namespace Diary

/-- Nothing is noted yet. -/
def start (w : Workspace) : Diary := ⟨w, []⟩

/-- What may happen. -/
inductive Event where
  /-- A call through the session. -/
  | call (call : Session.Call)
  /-- A commit. What takes the jobs may be another each time. -/
  | commit (taker : Taker)
  /-- An indexing job is carried out. -/
  | index (obstacle : String → Option StoreError) (job : IndexJob)

/-- The session after an event, and what is noted. -/
def next (d : Diary) : Event → Diary
  | .call call =>
    { workspace := (d.workspace.perform call).2
      notes := (d.workspace.marks call).map .marked ++ d.notes }
  | .commit taker =>
    let (result, workspace, taken) := d.workspace.commitTo taker
    { workspace, notes := Note.ofCommit d.workspace.session.pending result taken ++ d.notes }
  | .index obstacle job =>
    { d with workspace := d.workspace.withStore (job.apply obstacle d.workspace.site.store).2 }

/-- The second diary comes about from the first by events. Commits are made against a taker. -/
inductive Reaches (first : Diary) : Diary → Prop where
  | refl : Reaches first first
  | step {d : Diary} (event : Event) (hrun : Reaches first d) (hevent : event ≠ .call .commit) :
      Reaches first (d.next event)

/-- There is such a note since the document was last marked. -/
def Since (d : Diary) (id : String) (P : Note → Prop) : Prop :=
  ∃ note ∈ d.notes.takeWhile (· ≠ .marked id), P note

/-- A job for the document has been taken since it was last marked. -/
def Served (d : Diary) (id : String) : Prop := d.Since id (Note.Serves id)

/-- A commit has failed since the document was last marked, and left it without a job. -/
def Dropped (d : Diary) (id : String) : Prop := d.Since id (Note.Drops id)

/-! ## Reading the notes -/

section Notes

variable {w : Workspace} {notes new : List Note} {id : String} {P : Note → Prop}

/-- New notes other than marks count besides the older ones. -/
theorem since_append (hnew : ∀ note ∈ new, note ≠ .marked id) :
    Since ⟨w, new ++ notes⟩ id P ↔ (∃ note ∈ new, P note) ∨ Since ⟨w, notes⟩ id P := by
  have hsplit : (new ++ notes).takeWhile (· ≠ .marked id) =
      new ++ notes.takeWhile (· ≠ .marked id) :=
    List.takeWhile_append_of_pos fun note hnote => decide_eq_true (hnew note hnote)
  simp only [Since, hsplit, List.mem_append, or_and_right, exists_or]

/-- **A mark makes a new start.** Documents that are not marked keep the notes that they had. -/
theorem since_marks {marks : List String} (hP : ∀ other, ¬ P (.marked other)) :
    Since ⟨w, marks.map .marked ++ notes⟩ id P ↔ id ∉ marks ∧ Since ⟨w, notes⟩ id P := by
  by_cases hid : id ∈ marks
  · have hstop : ((marks.map Note.marked).takeWhile (· ≠ .marked id)).length ≠
        (marks.map Note.marked).length := by
      intro hlength
      have hsame := (List.takeWhile_sublist (l := marks.map Note.marked)
        (fun note => decide (note ≠ .marked id))).eq_of_length hlength
      have hall := List.takeWhile_eq_self_iff.1 hsame _ (List.mem_map_of_mem hid)
      simp at hall
    simp only [hid, not_true_eq_false, false_and, iff_false, Since, not_exists, not_and]
    intro note hnote
    rw [List.takeWhile_append, if_neg hstop] at hnote
    obtain ⟨other, -, rfl⟩ := List.mem_map.1 (List.takeWhile_subset _ hnote)
    exact hP other
  · have hnew : ∀ note ∈ marks.map Note.marked, note ≠ .marked id := by
      rintro note hnote rfl
      obtain ⟨other, hother, heq⟩ := List.mem_map.1 hnote
      cases heq
      exact hid hother
    have hnone : ¬ ∃ note ∈ marks.map Note.marked, P note := by
      rintro ⟨note, hnote, hholds⟩
      obtain ⟨other, -, rfl⟩ := List.mem_map.1 hnote
      exact hP other hholds
    rw [since_append hnew, or_iff_right hnone]
    simp [hid]

theorem mem_ofCommit_ne_marked {pending : TextSet} {result : Except Error Unit}
    {taken : List IndexJob} : ∀ note ∈ Note.ofCommit pending result taken, note ≠ .marked id := by
  rintro note hnote rfl
  cases result <;> simp [Note.ofCommit] at hnote

theorem serves_ofCommit {pending : TextSet} {result : Except Error Unit}
    {taken : List IndexJob} :
    (∃ note ∈ Note.ofCommit pending result taken, note.Serves id) ↔
      ∃ job ∈ taken, job.target = .document id := by
  cases result <;> simp [Note.ofCommit, Note.Serves]

theorem drops_ofCommit {pending : TextSet} {result : Except Error Unit}
    {taken : List IndexJob} :
    (∃ note ∈ Note.ofCommit pending result taken, note.Drops id) ↔
      result ≠ .ok () ∧ id ∈ pending.keys ∧ ¬ ∃ job ∈ taken, job.target = .document id := by
  cases result <;> simp [Note.ofCommit, Note.Drops]

end Notes

variable {d : Diary} {taker : Taker} {id : String}

theorem served_commit : (d.next (.commit taker)).Served id ↔
    (∃ job ∈ (d.workspace.commitTo taker).2.2, job.target = .document id) ∨ d.Served id :=
  (since_append mem_ofCommit_ne_marked).trans (or_congr_left serves_ofCommit)

theorem dropped_commit : (d.next (.commit taker)).Dropped id ↔
    ((d.workspace.commitTo taker).1 ≠ .ok () ∧ id ∈ d.workspace.session.pending.keys ∧
      ¬ ∃ job ∈ (d.workspace.commitTo taker).2.2, job.target = .document id) ∨ d.Dropped id :=
  (since_append mem_ofCommit_ne_marked).trans (or_congr_left drops_ofCommit)

/-- A commit marks nothing. -/
theorem marked_commit_iff : .marked id ∈ (d.next (.commit taker)).notes ↔ .marked id ∈ d.notes :=
  List.mem_append.trans (or_iff_right fun hnew => mem_ofCommit_ne_marked _ hnew rfl)

/-! ## The invariant -/

/-- What holds of the diary of a live session. -/
structure Sound (d : Diary) (shelf : Shelf) : Prop where
  stored : d.workspace.site.store.shelf? = some shelf
  keyed : shelf.Keyed
  live : d.workspace.session.live = true
  /-- What is pending has come to no end yet. -/
  undecided : ∀ id ∈ d.workspace.session.pending.keys, ¬ d.Served id ∧ ¬ d.Dropped id
  /-- What was marked and is no longer pending was served or dropped, and not both. -/
  settled : ∀ id e, shelf.get? id = some e → e.isProxy = false → .marked id ∈ d.notes →
    id ∉ d.workspace.session.pending.keys → (d.Served id ↔ ¬ d.Dropped id)

namespace Sound

variable {d : Diary} {shelf : Shelf}

theorem start {w : Workspace} {id : String} (hfresh : w.session = .fresh id)
    (hstored : w.site.store.shelf? = some shelf) (hkeyed : shelf.Keyed) :
    (Diary.start w).Sound shelf where
  stored := hstored
  keyed := hkeyed
  live := by rw [Diary.start, hfresh]; rfl
  undecided := by
    intro other hother
    rw [Diary.start, hfresh] at hother
    cases hother
  settled _ _ _ _ hmarked := by cases hmarked

/-- **A call leaves pending what it marks.** Documents that it does not mark are pending only if
they were, and those it takes from what was pending are gone. -/
theorem call (h : d.Sound shelf) {call : Session.Call} (hcall : call ≠ .commit) :
    ∃ t, (d.next (.call call)).Sound t := by
  have htidied := Workspace.tidied_perform h.stored hcall
  have hexceeds := d.workspace.exceeds_perform hcall
  obtain ⟨t, ht, hkeyed, haccounts⟩ := htidied.exists_accounts h.stored h.keyed
  have hserved : ∀ id, (d.next (.call call)).Served id ↔
      id ∉ d.workspace.marks call ∧ d.Served id := fun _ => since_marks fun _ hfalse => hfalse
  have hdropped : ∀ id, (d.next (.call call)).Dropped id ↔
      id ∉ d.workspace.marks call ∧ d.Dropped id := fun _ => since_marks fun _ hfalse => hfalse
  refine ⟨t, ht, hkeyed, (Workspace.live_perform call).trans h.live, ?_, ?_⟩
  · intro id hpending
    rw [hserved, hdropped]
    rcases hexceeds.origin id hpending with hbefore | hmarked
    · obtain ⟨hunserved, hkept⟩ := h.undecided id hbefore
      exact ⟨fun hboth => hunserved hboth.2, fun hboth => hkept hboth.2⟩
    · exact ⟨fun hboth => hboth.1 hmarked, fun hboth => hboth.1 hmarked⟩
  · intro id e he hproxy hmarked hpending
    have hunmarked : id ∉ d.workspace.marks call := fun hmem => hpending (hexceeds.kept id hmem)
    -- of the three ways to account for the document only one is left
    obtain hafter | hisProxy | ⟨hbefore, c, hc, hce⟩ := haccounts id e he
    · exact absurd hafter hpending
    · rw [hproxy] at hisProxy
      cases hisProxy
    have hold : .marked id ∈ d.notes := by
      rcases List.mem_append.1 hmarked with hnew | hold
      · obtain ⟨other, hother, heq⟩ := List.mem_map.1 hnew
        cases heq
        exact absurd hother hunmarked
      · exact hold
    have hiff := h.settled id c hc (hce.isProxy.symm.trans hproxy) hold hbefore
    simp [hserved, hdropped, hunmarked, hiff]

/-- **A commit serves what was pending, or drops it.** -/
theorem commit (h : d.Sound shelf) (taker : Taker) : (d.next (.commit taker)).Sound shelf := by
  obtain ⟨result, taken, hcommit, hbegin, hall⟩ :=
    d.workspace.exists_commitTo_eq h.live h.stored taker
  have hafter : (d.next (.commit taker)).workspace = d.workspace.withPending Table.empty := by
    rw [Diary.next, hcommit]
  refine ⟨by rw [hafter]; exact h.stored, h.keyed, by rw [hafter]; exact h.live, ?_, ?_⟩
  · intro id hpending
    rw [hafter] at hpending
    cases hpending
  intro id e he hproxy hmarked _
  rw [marked_commit_iff] at hmarked
  rw [served_commit, dropped_commit, hcommit]
  by_cases hpending : id ∈ d.workspace.session.pending.keys
  · obtain ⟨hunserved, hkept⟩ := h.undecided id hpending
    have hjob : result = .ok () → ∃ job ∈ taken, job.target = .document id := by
      intro hok
      rw [hall hok]
      exact ⟨_, Shelf.mem_jobs.2 ⟨id, hpending, e, he, hproxy, rfl⟩, rfl⟩
    simp only [hunserved, hkept, or_false, hpending, true_and, not_and, not_not]
    refine ⟨fun htook _ => htook, fun himp => ?_⟩
    by_contra hnone
    exact hnone (himp fun hok => hnone (hjob hok))
  · -- no job was for this document, as it was not pending
    have hnone : ¬ ∃ job ∈ taken, job.target = .document id := by
      rintro ⟨job, hjob, htarget⟩
      obtain ⟨other, hother, c, -, -, rfl⟩ := Shelf.mem_jobs.1 (hbegin.subset hjob)
      cases htarget
      exact hpending hother
    simp only [hnone, false_or, hpending, false_and, and_false]
    exact h.settled id e he hproxy hmarked hpending

/-- Indexing jobs change neither what is there nor which of it is a proxy. -/
theorem index (h : d.Sound shelf) (obstacle : String → Option StoreError) (job : IndexJob) :
    ∃ t, (d.next (.index obstacle job)).Sound t := by
  obtain ⟨t, ht, hagree⟩ := IndexJob.agreesOn_structural_of_apply h.stored h.keyed obstacle job
  refine ⟨t, ht, h.keyed.congr hagree (by decide), h.live, h.undecided, ?_⟩
  intro id e he hproxy hmarked hpending
  obtain ⟨c, hc, hce⟩ := hagree.right he
  exact h.settled id c hc ((hce.flag (by decide)).symm.trans hproxy) hmarked hpending

/-- **Every event keeps what holds of the diary.** -/
theorem next (h : d.Sound shelf) {event : Event} (hevent : event ≠ .call .commit) :
    ∃ t, (d.next event).Sound t := by
  cases event with
  | call call => exact h.call fun heq => hevent (heq ▸ rfl)
  | commit taker => exact ⟨shelf, h.commit taker⟩
  | index obstacle job => exact h.index obstacle job

end Sound

/-- **What holds of a diary holds after every run.** Induction on the run. -/
theorem Reaches.exists_sound {first d : Diary} {shelf : Shelf} (hrun : Reaches first d)
    (h : first.Sound shelf) : ∃ t, d.Sound t := by
  induction hrun with
  | refl => exact ⟨shelf, h⟩
  | step event _ hevent ih =>
    obtain ⟨t, ht⟩ := ih
    exact ht.next hevent

/-- **What a commit that succeeds leaves behind.** The session was opened on a store that may have
any documents in it, and what was handed to commits may have been refused at any time. A document
that was marked, and is there and no proxy, has had a job taken since it was last marked, unless a
commit has failed since then before the turn of the document came. In the latter case it has had
none. -/
theorem served_iff_of_commit {w : Workspace} {name : String} {shelf : Shelf}
    (hfresh : w.session = .fresh name) (hstored : w.site.store.shelf? = some shelf)
    (hkeyed : shelf.Keyed) (hrun : (start w).Reaches d)
    (hcommit : (d.workspace.commitTo taker).1 = .ok ()) :
    ∃ t, (d.next (.commit taker)).workspace.site.store.shelf? = some t ∧
      ∀ id e, t.get? id = some e → e.isProxy = false → .marked id ∈ d.notes →
        ((d.next (.commit taker)).Served id ↔ ¬ d.Dropped id) := by
  obtain ⟨t, h⟩ := hrun.exists_sound (Sound.start hfresh hstored hkeyed)
  have hafter := h.commit taker
  have hnothing : (d.next (.commit taker)).workspace.session.pending = Table.empty := by
    obtain ⟨result, taken, heq, -, -⟩ := d.workspace.exists_commitTo_eq h.live h.stored taker
    rw [next, heq]
    rfl
  refine ⟨t, hafter.stored, fun id e he hproxy hmarked => ?_⟩
  have hsettled := hafter.settled id e he hproxy (marked_commit_iff.2 hmarked)
    (by rw [hnothing]; exact List.not_mem_nil)
  have hsame : (d.next (.commit taker)).Dropped id ↔ d.Dropped id := by
    rw [dropped_commit]
    exact or_iff_right fun hfailed => hfailed.1 hcommit
  rw [hsettled, hsame]

/-- The refusal of a queue that is shut down. -/
def shutDownQueue : Error := .unavailable "fulltext queue is shut down"

/-- For instance after a document was added, its job refused, and its title changed. -/
theorem served_after_mark :
    ∃ start, Site.found "test" (Store.empty .own) .sequential ⟨0, 0, by decide⟩ none = .ok start ∧
      let d := (((Diary.start ⟨start, .fresh "s"⟩).next (.call (.addChild start.root "a" "File"))).next
        (.commit (.unwilling shutDownQueue))).next
        (.call (.revise "UUID_2" [("title", .string "hello")] []))
      (d.workspace.commitTo .willing).1 = .ok () ∧
        ∃ t e, (d.next (.commit .willing)).workspace.site.store.shelf? = some t ∧
          t.get? "UUID_2" = some e ∧ e.isProxy = false ∧ .marked "UUID_2" ∈ d.notes ∧
          ¬ d.Dropped "UUID_2" ∧ (d.next (.commit .willing)).Served "UUID_2" := by
  have hfound : Site.found "test" (Store.empty .own) .sequential ⟨0, 0, by decide⟩ none = .ok _ :=
    rfl
  refine ⟨_, hfound, ?_⟩
  intro d
  have hcommit : (d.workspace.commitTo .willing).1 = .ok () := rfl
  have hnotes : d.notes = [.marked "UUID_2", .failed ["UUID_2"], .marked "UUID_2"] := rfl
  have hstays : ((d.next (.commit .willing)).workspace.site.store.shelf?.bind
    (·.get? "UUID_2")).map (·.isProxy) = some false := rfl
  have hkeyed := (Site.Coherent.of_found IdSource.unrepeated_sequential hfound).keyed
  obtain ⟨t, ht, hserved⟩ := served_iff_of_commit rfl rfl hkeyed
    (.step _ (.step _ (.step _ .refl (by simp)) (by simp)) (by simp)) hcommit
  have hdropped : ¬ d.Dropped "UUID_2" := by simp [Dropped, Since, hnotes]
  have hmarked : .marked "UUID_2" ∈ d.notes := by simp [hnotes]
  rw [ht] at hstays
  obtain ⟨e, he, hproxy⟩ := Option.map_eq_some_iff.1 hstays
  exact ⟨hcommit, t, e, ht, he, hproxy, hmarked, hdropped,
    (hserved _ e he hproxy hmarked).2 hdropped⟩

/-- **A commit may succeed and leave a marked document without a job**: when the commit before it
failed. -/
theorem unserved_after_failed_commit :
    ∃ start, Site.found "test" (Store.empty .own) .sequential ⟨0, 0, by decide⟩ none = .ok start ∧
      let d := ((Diary.start ⟨start, .fresh "s"⟩).next (.call (.addChild start.root "a" "File"))).next
        (.commit (.unwilling shutDownQueue))
      (d.workspace.commitTo .willing).1 = .ok () ∧
        ∃ t e, (d.next (.commit .willing)).workspace.site.store.shelf? = some t ∧
          t.get? "UUID_2" = some e ∧ e.isProxy = false ∧ .marked "UUID_2" ∈ d.notes ∧
          ¬ (d.next (.commit .willing)).Served "UUID_2" := by
  refine ⟨_, rfl, ?_⟩
  intro d
  -- the second commit has nothing to hand over
  have hnotes : (d.next (.commit .willing)).notes = [.failed ["UUID_2"], .marked "UUID_2"] := rfl
  have hmarked : d.notes = [.failed ["UUID_2"], .marked "UUID_2"] := rfl
  refine ⟨rfl, _, _, rfl, rfl, rfl, by simp [hmarked], ?_⟩
  simp [Served, Since, hnotes, Note.Serves]

end Diary

end ContentRepository
