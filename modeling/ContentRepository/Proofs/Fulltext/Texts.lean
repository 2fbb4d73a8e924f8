import ContentRepository.Proofs.Tree.Links
import ContentRepository.Session.Commit

/-!
# Documents of the same text, and texts that are on their way

The text of a document comes from its own fields alone, so neither the tree operations nor indexing
itself change it. Between a commit and the last job that it submitted, the field for the indexed
text lags behind; what the field is going to be is settled by the jobs that wait.

* **`Document.SameText`** — two documents differ only in fields that indexing does not look at; then
  they have the same text (`SameText.simpleText`).
* **`IndexJob.foreseen`** — what the jobs that wait are going to make of a document.
* **`IndexJob.get?_foreseen_of_submitted`** — after jobs for one state of a document, it is going to
  have the text of this state.
-/

namespace ContentRepository

/-- The reserved fields that indexing does not look at. -/
def Field.managed : List String :=
  reserved.filter fun key => key ∉ [id, isProxy, simpleText]

namespace Document

variable {d e : Document}

/-! ## Texts -/

theorem not_isContent_of_reserved {key : String} (hkey : key ∈ Field.reserved) :
    isContent key = false := by
  simp [isContent, Field.isReserved, hkey]

/-- The text of a document comes from its own fields alone. -/
theorem simpleText_congr (hcontent : ∀ key, isContent key = true → e.get? key = d.get? key) :
    e.simpleText = d.simpleText := by
  have hfields : (Table.filter e fun key _ => isContent key) =
      Table.filter d fun key _ => isContent key := by
    refine Table.ext fun key => ?_
    rw [Table.get?_filter, Table.get?_filter]
    cases hkey : isContent key with
    | true => rw [hcontent key hkey]
    | false => cases e.get? key <;> cases d.get? key <;> rfl
  exact congrArg (fun fields : Document =>
    " ".intercalate (fields.entries.flatMap fun entry => entry.2.texts)) hfields

/-- Reserved fields are no part of the text. -/
theorem simpleText_set {key : String} (hkey : key ∈ Field.reserved) (d : Document) (value : Value) :
    (d.set key value).simpleText = d.simpleText := by
  refine simpleText_congr fun other hother => ?_
  rw [get?_set, if_neg]
  rintro rfl
  rw [not_isContent_of_reserved hkey] at hother
  cases hother

/-- The documents differ only in fields that indexing does not look at. -/
def SameText (d e : Document) : Prop := ∀ key, key ∉ Field.managed → e.get? key = d.get? key

namespace SameText

theorem refl (d : Document) : SameText d d := fun _ _ => rfl

/-- Edits of managed fields keep the text. -/
theorem of_agreesOn (hagree : ∀ keys, (∀ key ∈ keys, key ∉ Field.managed) → AgreesOn keys d e) :
    SameText d e :=
  fun key hkey => hagree [key] (by simpa using hkey) key (by simp)

theorem id? (h : SameText d e) : e.id? = d.id? := by
  rw [Document.id?, Document.id?, string?, string?, h _ (by decide)]

theorem isProxy (h : SameText d e) : e.isProxy = d.isProxy := by
  rw [Document.isProxy, Document.isProxy, flag, flag, h _ (by decide)]

/-- **Documents that differ only in managed fields have the same text.** -/
theorem simpleText (h : SameText d e) : e.simpleText = d.simpleText := by
  refine simpleText_congr fun key hkey => h key fun hmem => ?_
  rw [not_isContent_of_reserved (List.mem_filter.1 hmem).1] at hkey
  cases hkey

end SameText

theorem sameText_set {key : String} (hkey : key ∈ Field.managed) (d : Document) (value : Value) :
    SameText d (d.set key value) :=
  .of_agreesOn fun _ hkeys => agreesOn_set (fun hmem => hkeys key hmem hkey) d value

theorem sameText_setAll {fields : List (String × Value)}
    (hfields : ∀ field ∈ fields, field.1 ∈ Field.managed) (d : Document) :
    SameText d (d.setAll fields) :=
  .of_agreesOn fun _ hkeys =>
    agreesOn_setAll (fun field hfield hmem => hkeys _ hmem (hfields field hfield)) d

theorem sameText_unset {key : String} (hkey : key ∈ Field.managed) (d : Document) :
    SameText d (d.unset key) :=
  .of_agreesOn fun _ hkeys => agreesOn_unset (fun hmem => hkeys key hmem hkey) d

theorem sameText_relinked (d : Document) (add remove : List String) :
    SameText d (d.relinked add remove) :=
  .of_agreesOn fun _ hkeys => agreesOn_relinked (fun hmem => hkeys _ hmem (by decide)) d add remove

/-- What a field holds after others were set depends only on what it held before. -/
theorem get?_setAll_congr {key : String} (h : e.get? key = d.get? key)
    (fields : List (String × Value)) : (e.setAll fields).get? key = (d.setAll fields).get? key := by
  induction fields generalizing d e with
  | nil => exact h
  | cons field rest ih =>
    refine ih (d := d.set field.1 field.2) (e := e.set field.1 field.2) ?_
    rw [get?_set, get?_set, h]

end Document

/-! ## Texts on their way -/

namespace IndexJob

variable {job : IndexJob} {jobs : List IndexJob} {id : String} {d e : Document}

/-- What the jobs that wait are going to make of a document. -/
def foreseen (jobs : List IndexJob) (id : String) (d : Document) : Document :=
  jobs.foldl (fun d job => if job.target = .document id then job.fill d else d) d

theorem foreseen_cons (job : IndexJob) (rest : List IndexJob) (id : String) (d : Document) :
    foreseen (job :: rest) id d =
      foreseen rest id (if job.target = .document id then job.fill d else d) := rfl

theorem foreseen_append (jobs more : List IndexJob) (id : String) (d : Document) :
    foreseen (jobs ++ more) id d = foreseen more id (foreseen jobs id d) := by
  rw [foreseen, List.foldl_append]
  rfl

/-- What becomes of a field depends only on what it holds now. -/
theorem get?_foreseen_congr {key : String} (h : e.get? key = d.get? key) (jobs : List IndexJob)
    (id : String) : (foreseen jobs id e).get? key = (foreseen jobs id d).get? key := by
  induction jobs generalizing d e with
  | nil => exact h
  | cons job rest ih =>
    rw [foreseen_cons, foreseen_cons]
    split
    · exact ih (Document.get?_setAll_congr h _)
    · exact ih h

theorem fill_ofDocument (repository id : String) (d e : Document) :
    (ofDocument repository id d).fill e = e.set Field.simpleText (.string d.simpleText) := by
  simp [fill, ofDocument, TextKind.field, Document.setAll]

/-- **After jobs for one state of a document, it is going to have the text of this state**, provided
that it has it already or that there is such a job. Induction on the jobs. -/
theorem get?_foreseen_of_submitted {repository : String} {c : Document}
    (hjobs : ∀ job ∈ jobs, job.target = .document id → job = ofDocument repository id c)
    (hsome : d.get? Field.simpleText = some (.string c.simpleText) ∨
      ∃ job ∈ jobs, job.target = .document id) :
    (foreseen jobs id d).get? Field.simpleText = some (.string c.simpleText) := by
  induction jobs generalizing d with
  | nil =>
    obtain hthere | ⟨job, hmem, -⟩ := hsome
    · exact hthere
    · cases hmem
  | cons job rest ih =>
    -- only jobs for the document itself do something to it
    have hrest : ∀ other ∈ rest, other.target = .document id → other = ofDocument repository id c :=
      fun other hmem => hjobs other (List.mem_cons_of_mem _ hmem)
    rw [foreseen_cons]
    split
    · next htarget =>
      -- a job for the document puts the text there, whatever was there before
      refine ih hrest (.inl ?_)
      rw [hjobs job List.mem_cons_self htarget, fill_ofDocument, Document.get?_set, if_pos rfl]
    · next hother =>
      -- so the job that was submitted is still among the rest
      refine ih hrest (hsome.imp_right ?_)
      rintro ⟨submitted, hmem, htarget⟩
      rcases List.mem_cons.1 hmem with rfl | hmem
      · exact absurd htarget hother
      · exact ⟨submitted, hmem, htarget⟩

/-- The jobs are going to bring the indexed text up to the document as it is now. -/
def Foresee (jobs : List IndexJob) (id : String) (d : Document) : Prop :=
  (foreseen jobs id d).get? Field.simpleText = some (.string d.simpleText)

namespace Foresee

/-- It does not matter if managed fields are another. -/
theorem congr (h : Foresee jobs id d) (hde : d.SameText e) : Foresee jobs id e := by
  rw [Foresee, hde.simpleText, get?_foreseen_congr (hde _ (by decide))]
  exact h

/-- More jobs may be submitted if each of those for the document has its text as it is now. -/
theorem append {repository : String} {more : List IndexJob} (h : Foresee jobs id d)
    (hmore : ∀ job ∈ more, job.target = .document id → job = ofDocument repository id d) :
    Foresee (jobs ++ more) id d := by
  rw [Foresee, foreseen_append]
  exact get?_foreseen_of_submitted hmore (.inl h)

/-- Once a job with the text of the document is submitted, earlier jobs do not matter. -/
theorem of_submitted {repository : String} {more : List IndexJob} (jobs : List IndexJob)
    (hmore : ∀ job ∈ more, job.target = .document id → job = ofDocument repository id d)
    (hsubmitted : ofDocument repository id d ∈ more) : Foresee (jobs ++ more) id d := by
  rw [Foresee, foreseen_append]
  exact get?_foreseen_of_submitted hmore (.inr ⟨_, hsubmitted, rfl⟩)

/-- A job for another document is passed over. -/
theorem of_cons_of_ne (h : Foresee (job :: jobs) id d) (hne : job.target ≠ .document id) :
    Foresee jobs id d := by
  rw [Foresee, foreseen_cons, if_neg hne] at h
  exact h

/-- **Carrying out the next job brings the document nearer to its text.** The id is put back after
an edit in place. -/
theorem of_cons {repository : String} {c : Document}
    (h : Foresee (ofDocument repository id c :: jobs) id d) :
    Foresee jobs id (((ofDocument repository id c).fill d).set Field.id (.string id)) := by
  have htarget : (ofDocument repository id c).target = .document id := rfl
  rw [Foresee, foreseen_cons, if_pos htarget, fill_ofDocument] at h
  have hfield : ((d.set Field.simpleText (.string c.simpleText)).set Field.id (.string id)).get?
      Field.simpleText = (d.set Field.simpleText (.string c.simpleText)).get? Field.simpleText := by
    rw [Document.get?_set, if_neg (by decide)]
  rw [Foresee, fill_ofDocument, Document.simpleText_set (by decide),
    Document.simpleText_set (by decide), get?_foreseen_congr hfield]
  exact h

end Foresee

end IndexJob

end ContentRepository
