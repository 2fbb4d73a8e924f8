import ContentRepository.Session.Basic

/-!
# Commits

A commit hands the documents that are pending in a session to indexing, in ascending order of their
ids, each with its text as it is then. Documents that are gone and proxies are passed over. Whatever
happens, nothing is pending afterwards.

* **`Workspace.commit`** submits to the queue of the site; **`submitEach`** is the same for any
  taker of jobs (`WorkSubmitter`). What is called `save` does just the same.
* **`Workspace.awaitIndexing`** waits for the queue (`wait_for_indexing`).
-/

namespace ContentRepository

/-- The job that indexes the text of a document. -/
def IndexJob.ofDocument (repository id : String) (d : Document) : IndexJob :=
  { repository
    target := .document id
    kind := .simple
    texts := [(defaultIndex, d.simpleText)] }

/-- Hands documents to indexing one after another. The first error ends it; what was submitted
before stays submitted. -/
def submitEach {σ : Type} (repository : String) (store : Store)
    (submit : σ → IndexJob → Except Error σ) : List String → σ → Except Error Unit × σ
  | [], taker => (.ok (), taker)
  | id :: rest, taker =>
    match store.find? id with
    | .error e => (.error (.store e), taker)
    | .ok none => submitEach repository store submit rest taker
    | .ok (some d) =>
      if d.isProxy then submitEach repository store submit rest taker
      else match submit taker (.ofDocument repository id d) with
        | .error e => (.error e, taker)
        | .ok taker => submitEach repository store submit rest taker

namespace Workspace

/-- Hands what is pending to indexing. -/
def commit (w : Workspace) : Except Error Unit × Workspace :=
  match w.liveSite with
  | .error e => (.error e, w)
  | .ok site =>
    let session := { w.session with pending := Table.empty }
    match site.queue with
    | none => (.ok (), { w with session })
    | some queue =>
      let (result, queue) :=
        submitEach site.repository site.store IndexQueue.submit w.session.pending.keys queue
      (result, { site := { site with queue := some queue }, session })

/-- What a thread gets that waits for indexing. Without indexing there is nothing to wait for. -/
def awaitIndexing (w : Workspace) (interrupted : Bool) : Except Error Waiting := do
  match (← w.liveSite).queue with
  | none => return .idle
  | some queue => return queue.await interrupted

end Workspace

end ContentRepository
