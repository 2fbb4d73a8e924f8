import ContentRepository.Document.Text
import ContentRepository.Store.Basic

/-!
# Indexing jobs

An `IndexJob` (`FulltextJob`) puts texts into the fields that indexing owns: either of one document,
or of all documents that wait for a shared job (`FulltextTarget`). Proxies are left alone; the
documents they stand for carry the text.

* **`IndexJob.fill`** (`set_text`) is what a job makes of a document, **`IndexJob.apply`** what it
  does to a store. The fields are those of `fulltext_key` (`TextKind.field`).
-/

namespace ContentRepository

/-- Where an indexed text comes from. -/
inductive TextKind where
  /-- From the fields of the document. -/
  | simple
  /-- From binary contents. -/
  | binary
deriving DecidableEq

/-- The index whose field has the bare name. -/
def defaultIndex : String := "default"

/-- The field for texts of a kind in an index. -/
def TextKind.field (kind : TextKind) (index : String) : String :=
  let base := match kind with
    | .simple => Field.simpleText
    | .binary => Field.binaryText
  if index = defaultIndex then base else base ++ "_" ++ index

/-- The documents that a job is for. -/
inductive IndexTarget where
  /-- One document, if it is still there. -/
  | document (id : String)
  /-- All documents that wait for the job with this id. -/
  | waiting (job : String)
deriving DecidableEq

/-- A piece of indexing work. -/
structure IndexJob where
  /-- The repository that has the documents. -/
  repository : String
  target : IndexTarget
  kind : TextKind
  /-- The text for each index; of two for one index the later counts. -/
  texts : List (String × String)
deriving DecidableEq

namespace IndexJob

/-- The document with the texts of the job. -/
def fill (job : IndexJob) (d : Document) : Document :=
  d.setAll (job.texts.map fun (index, text) => (job.kind.field index, .string text))

/-- The edit of the one document that a job is for. -/
def fillOne (job : IndexJob) (d : Document) : Option Document :=
  if d.isProxy then none else some (job.fill d)

/-- The edit of a document that waits for the job with the given id. It waits no longer then. -/
def fillWaiting (job : IndexJob) (id : String) (d : Document) : Option Document :=
  if d.isProxy || !d.holds Field.textJob (.string id) then none
  else some ((job.fill d).unset Field.textJob)

/-- The documents that wait for the job with the given id. -/
def waitingIds (s : Store) (id : String) : Except StoreError (List String) :=
  return (← s.having Field.textJob (.string id) []).filterMap fun d =>
    if d.isProxy then none else d.id?

/-- Edits by a writer that is kept from some documents. -/
def editUnless (obstacle : String → Option StoreError) (s : Store) (id : String)
    (change : Document → Option Document) : Except StoreError (Bool × Store) :=
  match obstacle id with
  | some e => .error e
  | none => s.edit id change

/-- Edits the documents one after another, passing over those that cannot be edited; the number of
those that were edited. -/
def editEach (obstacle : String → Option StoreError) (change : Document → Option Document) :
    List String → Store → Nat × Store
  | [], s => (0, s)
  | id :: rest, s =>
    match editUnless obstacle s id change with
    | .ok (edited, s) =>
      let (count, s) := editEach obstacle change rest s
      (count + edited.toNat, s)
    | .error _ => editEach obstacle change rest s

/-- Carries a job out; the number of documents that got the texts. `obstacle` tells from which
documents the writer is kept, and by what. -/
def apply (obstacle : String → Option StoreError) (job : IndexJob) (s : Store) :
    Except StoreError Nat × Store :=
  match job.target with
  | .document id =>
    match editUnless obstacle s id job.fillOne with
    | .ok (edited, s) => (.ok edited.toNat, s)
    | .error (.notFound _) => (.ok 0, s)
    | .error e => (.error e, s)
  | .waiting id =>
    match waitingIds s id with
    | .error e => (.error e, s)
    | .ok ids =>
      let (count, s) := editEach obstacle (job.fillWaiting id) ids s
      (.ok count, s)

end IndexJob

end ContentRepository
