import ContentRepository.Number.Binary64
import ContentRepository.Repository.Host

/-!
# Scenarios

Repositories in well-known states, and a load of writes from several threads.

* **`Host.populated`** (`populated_repository`) has a number of documents under its root,
  **`Host.folderPath`** (`folder_path`) makes a chain of folders.
* **`Host.concurrentWrites`** (`concurrent_handle_writes`, with its `StressTestResult`) lets workers
  write through handles of one transaction. Each adds documents of its own, so the order in which
  the workers get on makes no difference but to ids; here one works after the other.
* **`idsAreUnique`** (`ids_are_unique`) tells whether a list of documents can be stored.
-/

namespace ContentRepository

/-- Whether every document has an id field and no two have the same id. A document whose id is no
text counts as having no id, of which there may be one. -/
def idsAreUnique (documents : List Document) : Bool :=
  documents.all (·.contains Field.id) && decide (documents.map (·.id?)).Nodup

/-- The type of the documents that scenarios add. -/
def fileType : String := "File"

def folderType : String := "Folder"

/-- How a load of writes went. -/
structure Load where
  succeeded : Nat
  failed : Nat
deriving DecidableEq

namespace Load

def total (l : Load) : Nat := l.succeeded + l.failed

/-- A time in seconds: the whole ones, and the nanoseconds below a second as a fraction. -/
def duration (seconds nanos : Nat) : Binary64 :=
  let whole := Binary64.ofInt (seconds + nanos / Instant.perSecond : Nat)
  whole.add ((Binary64.ofInt (nanos % Instant.perSecond : Nat)).div (.ofInt Instant.perSecond))

/-- Calls per second, when the load took the given seconds and nanoseconds; zero if it took no
time. -/
def rate (l : Load) (seconds nanos : Nat) : Binary64 :=
  let time := duration seconds nanos
  if time.isZero then .zero else (Binary64.ofInt l.total).div time

end Load

namespace Host

/-- The configuration of scenarios: ids that count, so that they are known beforehand. -/
def scenarioConfig (fulltext : Bool) : Config :=
  { name := "test", ids := .sequential, fulltext }

/-- The main thread. -/
def mainThread : Nat := 0

/-- A host for a repository with nothing in it. -/
def fresh (clock : Instant) (fulltext : Bool) : Except Error Host := do
  let store := Store.empty .own
  return Host.start (← Repository.create (scenarioConfig fulltext) store true clock 0) none

/-- A connection of the main thread. -/
def open? (h : Host) (id : String) : Except Error Connection × Host :=
  h.connect (h.manager.current mainThread) id

/-- Adds a child through a connection; its id. -/
def addChild (h : Host) (c : Connection) (parent name type : String) :
    Except Error (Option String) × Host :=
  match h.perform c (.addChild parent name type) with
  | (.ok (.store (.document (some d))), h) => (.ok d.id?, h)
  | (.ok _, h) => (.ok none, h)
  | (.error e, h) => (.error e, h)

/-- Adds documents under the root, named by their numbers, which they also hold as their size. -/
def populate (c : Connection) : List Nat → Host → Host
  | [], h => h
  | n :: rest, h =>
    match h.addChild c h.repository.site.root ("doc-" ++ toString n) fileType with
    | (.ok (some id), h) =>
      populate c rest (h.perform c (.revise id [("size", .long (Int64.ofNat n))] [])).2
    | (_, h) => h

/-- A host for a repository with `count` documents under its root. -/
def populated (clock : Instant) (count : Nat) : Except Error Host := do
  let h ← fresh clock false
  match h.open? "populate" with
  | (.ok c, h) => return populate c (List.range count) h
  | (.error e, _) => throw e

/-- Adds folders below each other; their ids. -/
def addFolders (c : Connection) : String → List String → Host → List String × Host
  | _, [], h => ([], h)
  | parent, name :: rest, h =>
    match h.addChild c parent name folderType with
    | (.ok (some id), h) =>
      let (ids, h) := addFolders c id rest h
      (id :: ids, h)
    | (_, h) => ([], h)

/-- Makes a chain of folders under the root; their ids, from the top. -/
def folderPath (h : Host) (names : List String) : List String × Host :=
  match h.open? "fixture" with
  | (.ok c, h) => addFolders c h.repository.site.root names h
  | (.error _, h) => ([], h)

/-- Opens connections for workers. -/
def openWorkers : List Nat → Host → Except Error (List (Nat × Connection)) × Host
  | [], h => (.ok [], h)
  | n :: rest, h =>
    match h.open? ("worker-" ++ toString n) with
    | (.error e, h) => (.error e, h)
    | (.ok c, h) =>
      match openWorkers rest h with
      | (.ok workers, h) => (.ok ((n, c) :: workers), h)
      | (.error e, h) => (.error e, h)

/-- The documents that workers add under the root: each the given number, named after the worker and
the document. -/
def workerCalls (root : String) (documents : Nat) (workers : List (Nat × Connection)) :
    List (Connection × Session.Call) :=
  workers.flatMap fun (n, c) =>
    (List.range documents).map fun k =>
      (c, .addChild root ("w" ++ toString n ++ "-" ++ toString k) fileType)

/-- Makes calls one after another and counts how they went. -/
def load : List (Connection × Session.Call) → Load → Host → Load × Host
  | [], l, h => (l, h)
  | (c, call) :: rest, l, h =>
    match h.perform c call with
    | (.ok _, h) => load rest { l with succeeded := l.succeeded + 1 } h
    | (.error _, h) => load rest { l with failed := l.failed + 1 } h

/-- Lets `workers` workers add `documents` documents each in one transaction. -/
def concurrentWrites (h : Host) (workers documents : Nat) : Except Error Load × Host :=
  match h.begin mainThread with
  | (.error e, h) => (.error e, h)
  | (.ok _, h) =>
    match openWorkers (List.range workers) h with
    | (.error e, h) => (.error e, h)
    | (.ok connections, h) =>
      let (result, h) :=
        load (workerCalls h.repository.site.root documents connections) ⟨0, 0⟩ h
      match h.complete true mainThread with
      | (.ok (), h) => (.ok result, h)
      | (.error e, h) => (.error e, h)

/-- Work in a new transaction of the main thread, through a connection opened in it. -/
def withTransaction {α : Type} (work : Connection → StateM Host (Except Error α)) :
    StateM Host (Except Error α) :=
  (Host.scope mainThread).inTransaction fun _ => do
    match ← modifyGet (·.open? "txn") with
    | .ok c => work c
    | .error e => return .error e

end Host

end ContentRepository
