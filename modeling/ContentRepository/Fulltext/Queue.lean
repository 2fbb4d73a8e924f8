import ContentRepository.Error
import ContentRepository.Fulltext.Job

/-!
# The queue of indexing jobs

An `IndexQueue` is a `FulltextQueue` with its `FulltextStats`. Jobs are carried out one at a time in
the order in which they were submitted. One that fails is counted and dropped. A queue that is shut
down carries out what it holds and takes nothing more.

* **`IndexQueue.submit`** adds a job, **`IndexQueue.step`** carries the next one out and
  **`IndexQueue.drain`** all that wait.
* **`IndexQueue.await`** is what a thread gets that waits for the queue as it stands (`wait_idle`).
-/

namespace ContentRepository

/-- The jobs submitted for one repository. -/
structure IndexQueue where
  repository : String
  /-- Whether jobs can still be submitted. -/
  accepting : Bool
  /-- The jobs not yet carried out, the next one first. -/
  pending : List IndexJob
  /-- The number of jobs carried out. -/
  processed : Nat
  /-- The number of jobs that failed. -/
  failed : Nat

/-- How a wait for an idle queue ends. -/
inductive Waiting where
  /-- There is nothing to wait for. -/
  | idle
  /-- The waiting thread is interrupted. -/
  | interrupted
  /-- Time passes and the jobs are still there. -/
  | busy
deriving DecidableEq

namespace IndexQueue

/-- A queue that has seen no job. -/
def start (repository : String) : IndexQueue := ⟨repository, true, [], 0, 0⟩

/-- Adds a job. It must be for the repository of this queue, and the queue must be open. -/
def submit (q : IndexQueue) (job : IndexJob) : Except Error IndexQueue :=
  if job.repository ≠ q.repository then .error (.refused (.wrongQueue job.repository q.repository))
  else if q.accepting then .ok { q with pending := q.pending ++ [job] }
  else .error (.unavailable "fulltext queue is shut down")

/-- Counts a job by its outcome. -/
def record (q : IndexQueue) (outcome : Except StoreError Nat) : IndexQueue :=
  match outcome with
  | .ok _ => { q with processed := q.processed + 1 }
  | .error _ => { q with failed := q.failed + 1 }

/-- Carries out the next job. -/
def step (obstacle : String → Option StoreError) (q : IndexQueue) (s : Store) :
    IndexQueue × Store :=
  match q.pending with
  | [] => (q, s)
  | job :: rest =>
    let (outcome, s) := job.apply obstacle s
    ({ q with pending := rest }.record outcome, s)

/-- Carries out as many jobs as are given, if there are so many. -/
def steps (obstacle : String → Option StoreError) : Nat → IndexQueue → Store → IndexQueue × Store
  | 0, q, s => (q, s)
  | n + 1, q, s =>
    let (q, s) := q.step obstacle s
    steps obstacle n q s

/-- Carries out all jobs. -/
def drain (obstacle : String → Option StoreError) (q : IndexQueue) (s : Store) :
    IndexQueue × Store :=
  steps obstacle q.pending.length q s

/-- Takes no more jobs and carries out those that wait. -/
def shutDown (obstacle : String → Option StoreError) (q : IndexQueue) (s : Store) :
    IndexQueue × Store :=
  drain obstacle { q with accepting := false } s

/-- What a thread gets that waits for the queue. An idle queue is not waited for, so an interruption
is only noticed while jobs are pending. -/
def await (q : IndexQueue) (interrupted : Bool) : Waiting :=
  if q.pending.isEmpty then .idle else if interrupted then .interrupted else .busy

end IndexQueue

end ContentRepository
