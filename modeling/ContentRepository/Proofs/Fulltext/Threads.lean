import ContentRepository.Fulltext.Queue

/-!
# The threads at a queue of indexing jobs

For an `IndexQueue` a submission is one step, and so is the work on a job. An `Indexer` is a
`FulltextQueue` as its threads see it, who take turns in between: a submission (`submit`) passes the
checks and gets hold of the channel, then it is counted, then it puts its job into the channel, for
which there must be room; the worker (`run`) receives a job, carries it out, then counts the
outcome. Shutting down takes the channel away from submissions to come, but not from those that have
hold of it, and the worker stops when it has emptied a channel that nobody holds any more. The
counters are kept by all of these threads.

* **`Indexer.step`**: what one thread does when it is its turn, and what a submission is answered if
  it ends there.
* **`Indexer.queue`**: the queue as it stands, in which jobs wait that are in the channel or
  received, and in which an outcome counts at once.
* **`Indexer.await`**: what a thread gets that waits for idleness, which it can only tell by the
  counter of pending jobs.
* **`Indexer.Moves`**, **`moves_step`**: all that a step can do. What is said of steps is proved by
  cases on it.
-/

namespace ContentRepository

/-- What is counted of a queue. -/
structure Counters where
  pending : Nat
  processed : Nat
  failed : Nat
deriving DecidableEq

namespace Counters

def charge (c : Counters) : Counters := { c with pending := c.pending + 1 }

/-- A job is pending no longer. There is no counting below zero. -/
def release (c : Counters) : Counters := { c with pending := c.pending - 1 }

/-- Counts the outcome of a job that was pending. -/
def record (c : Counters) : Except StoreError Nat → Counters
  | .ok _ => { c.release with processed := c.processed + 1 }
  | .error _ => { c.release with failed := c.failed + 1 }

variable (c : Counters) (outcome : Except StoreError Nat)

theorem pending_record : (c.record outcome).pending = c.pending - 1 := by
  cases outcome <;> rfl

theorem processed_record :
    (c.record outcome).processed = c.processed + if outcome.isOk then 1 else 0 := by
  cases outcome <;> rfl

theorem failed_record :
    (c.record outcome).failed = c.failed + if !outcome.isOk then 1 else 0 := by
  cases outcome <;> rfl

end Counters

/-- What the worker of a queue is doing. -/
inductive Worker where
  /-- It waits for a job. -/
  | free
  | holding (job : IndexJob)
  /-- It has carried a job out and not counted the outcome yet. -/
  | done (job : IndexJob) (outcome : Except StoreError Nat)
  | stopped

namespace Worker

/-- The job that was received and is still to be carried out. -/
@[simp]
def held : Worker → List IndexJob
  | holding job => [job]
  | free | done _ _ | stopped => []

/-- The job that was carried out and is still to be counted. -/
@[simp]
def unrecorded : Worker → List (IndexJob × Except StoreError Nat)
  | done job outcome => [(job, outcome)]
  | free | holding _ | stopped => []

end Worker

/-- The threads at the queue of one repository. -/
structure Indexer where
  repository : String
  /-- How many jobs the channel has room for, but it has room for one in any case. -/
  capacity : Nat
  /-- Whether a submission can get hold of the channel. -/
  accepting : Bool
  /-- The jobs of the submissions that have hold of the channel and are not counted. -/
  entered : List IndexJob
  /-- The jobs of the submissions that are counted and are still to put their jobs in. -/
  counted : List IndexJob
  channel : List IndexJob
  worker : Worker
  counters : Counters
  store : Store
  /-- The jobs that have been put into the channel so far. -/
  taken : List IndexJob
  /-- The jobs whose outcomes have been counted so far. -/
  recorded : List (IndexJob × Except StoreError Nat)

namespace Indexer

/-- Which thread has its turn. A submission under way is told by its place among those that are as
far as it is. -/
inductive Event where
  /-- A thread submits a job and is refused or gets hold of the channel. -/
  | enter (job : IndexJob)
  /-- A submission that has hold of the channel is counted. -/
  | count (n : Nat)
  /-- A submission that is counted puts its job into the channel. -/
  | send (n : Nat)
  /-- The worker receives a job. -/
  | receive
  /-- The worker carries out its job, kept from some documents. -/
  | carryOut (obstacle : String → Option StoreError)
  /-- The worker counts its outcome. -/
  | record
  /-- The worker stops. -/
  | stop
  | shutDown
  /-- The store is changed by others, or shut down. -/
  | elsewhere (store : Store)

/-- A queue that has seen no job, and its worker. -/
def start (repository : String) (capacity : Nat) (store : Store) : Indexer :=
  ⟨repository, capacity, true, [], [], [], .free, ⟨0, 0, 0⟩, store, [], []⟩

/-- The jobs that have been carried out, with their outcomes. -/
def carriedOut (m : Indexer) : List (IndexJob × Except StoreError Nat) :=
  m.recorded ++ m.worker.unrecorded

/-- The queue as it stands. -/
def queue (m : Indexer) : IndexQueue where
  repository := m.repository
  accepting := m.accepting
  pending := m.worker.held ++ m.channel
  processed := m.counters.processed + m.worker.unrecorded.countP (·.2.isOk)
  failed := m.counters.failed + m.worker.unrecorded.countP (!·.2.isOk)

/-- Puts a job into the channel. There is no answer while there is no room. -/
def send (m : Indexer) (n : Nat) (job : IndexJob) : Option (Except Error Unit) × Indexer :=
  match m.worker with
  | .stopped =>
    -- the job was counted as pending and will never be carried out
    (some (.error (.unavailable "fulltext worker has stopped")),
      { m with counted := m.counted.eraseIdx n, counters := m.counters.release })
  | _ =>
    if m.channel.length < max m.capacity 1 then
      (some (.ok ()),
        { m with counted := m.counted.eraseIdx n, channel := m.channel ++ [job],
                 taken := m.taken ++ [job] })
    else (none, m)

/-- What becomes of the threads when one of them has its turn, and the answer of a submission that
ends then. A thread that cannot go on waits. -/
def step (m : Indexer) : Event → Option (Except Error Unit) × Indexer
  | .enter job =>
    -- the checks are those of the queue, only the job is not in it yet
    match m.queue.submit job with
    | .error e => (some (.error e), m)
    | .ok _ => (none, { m with entered := m.entered ++ [job] })
  | .count n =>
    match m.entered[n]? with
    | none => (none, m)
    | some job =>
      (none, { m with entered := m.entered.eraseIdx n, counted := m.counted ++ [job],
                      counters := m.counters.charge })
  | .send n => (m.counted[n]?).elim (none, m) (m.send n)
  | .receive =>
    match m.worker, m.channel with
    | .free, job :: rest => (none, { m with worker := .holding job, channel := rest })
    | _, _ => (none, m)
  | .carryOut obstacle =>
    match m.worker with
    | .holding job =>
      let (outcome, store) := job.apply obstacle m.store
      (none, { m with worker := .done job outcome, store })
    | _ => (none, m)
  | .record =>
    match m.worker with
    | .done job outcome =>
      (none, { m with worker := .free, counters := m.counters.record outcome,
                      recorded := m.recorded ++ [(job, outcome)] })
    | _ => (none, m)
  | .stop =>
    -- a submission that has hold of the channel keeps it open after the shutdown
    match m.worker, m.accepting, m.entered, m.counted, m.channel with
    | .free, false, [], [], [] => (none, { m with worker := .stopped })
    | _, _, _, _, _ => (none, m)
  | .shutDown => (none, { m with accepting := false })
  | .elsewhere store => (none, { m with store })

/-- What becomes of the threads when they have their turns in this order. -/
def run (m : Indexer) (events : List Event) : Indexer := events.foldl (fun m e => (m.step e).2) m

/-- What a thread gets that waits for the queue. -/
def await (m : Indexer) (interrupted : Bool) : Waiting :=
  if m.counters.pending = 0 then .idle else if interrupted then .interrupted else .busy

/-! ## What a step does -/

/-- All that a step can do: the answer, and what becomes of the threads. -/
inductive Moves (m : Indexer) : Event → Option (Except Error Unit) × Indexer → Prop where
  | waits (event : Event) : Moves m event (none, m)
  | refused (job : IndexJob) (e : Error) (h : m.queue.submit job = .error e) :
    Moves m (.enter job) (some (.error e), m)
  | entered (job : IndexJob) (q : IndexQueue) (h : m.queue.submit job = .ok q) :
    Moves m (.enter job) (none, { m with entered := m.entered ++ [job] })
  | counted (i : Nat) (job : IndexJob) (h : m.entered[i]? = some job) :
    Moves m (.count i) (none,
      { m with entered := m.entered.eraseIdx i, counted := m.counted ++ [job],
               counters := m.counters.charge })
  | sent (i : Nat) (job : IndexJob) (h : m.counted[i]? = some job)
      (hroom : m.channel.length < max m.capacity 1) :
    Moves m (.send i) (some (.ok ()),
      { m with counted := m.counted.eraseIdx i, channel := m.channel ++ [job],
               taken := m.taken ++ [job] })
  | failed (i : Nat) (job : IndexJob) (h : m.counted[i]? = some job)
      (hstopped : m.worker = .stopped) :
    Moves m (.send i) (some (.error (.unavailable "fulltext worker has stopped")),
      { m with counted := m.counted.eraseIdx i, counters := m.counters.release })
  | received (job : IndexJob) (rest : List IndexJob) (hfree : m.worker = .free)
      (h : m.channel = job :: rest) :
    Moves m .receive (none, { m with worker := .holding job, channel := rest })
  | carried (obstacle : String → Option StoreError) (job : IndexJob)
      (h : m.worker = .holding job) :
    Moves m (.carryOut obstacle) (none,
      { m with worker := .done job (job.apply obstacle m.store).1,
               store := (job.apply obstacle m.store).2 })
  | recorded (job : IndexJob) (outcome : Except StoreError Nat) (h : m.worker = .done job outcome) :
    Moves m .record (none,
      { m with worker := .free, counters := m.counters.record outcome,
               recorded := m.recorded ++ [(job, outcome)] })
  | stopped (hfree : m.worker = .free) (hclosed : m.accepting = false) (hentered : m.entered = [])
      (hcounted : m.counted = []) (hchannel : m.channel = []) :
    Moves m .stop (none, { m with worker := .stopped })
  | closed : Moves m .shutDown (none, { m with accepting := false })
  | elsewhere (store : Store) : Moves m (.elsewhere store) (none, { m with store })

theorem moves_step (m : Indexer) (event : Event) : m.Moves event (m.step event) := by
  cases event with
  | enter job =>
    simp only [step]
    -- the checks at the queue decide
    split
    · next e h => exact .refused job e h
    · next q h => exact .entered job q h
  | count i =>
    simp only [step]
    -- a submission that is not there any more has no turn
    split
    · exact .waits _
    · next job h => exact .counted i job h
  | send i =>
    simp only [step]
    cases h : m.counted[i]? with
    | none => exact .waits _
    | some job =>
      -- there is a job to send: the channel takes it if it has room and the worker has not stopped
      show m.Moves (.send i) (m.send i job)
      unfold send
      split
      · next hstopped => exact .failed i job h hstopped
      · split
        · next hroom => exact .sent i job h hroom
        · exact .waits _
  | receive =>
    simp only [step]
    split
    · -- the worker goes on only if it is free and the channel has something
      next job rest hfree h => exact .received job rest hfree h
    · exact .waits _
  | carryOut obstacle =>
    simp only [step]
    split
    · next job h => exact .carried obstacle job h
    · exact .waits _
  | record =>
    simp only [step]
    split
    · next job outcome h => exact .recorded job outcome h
    · exact .waits _
  | stop =>
    simp only [step]
    -- it stops only if it is free, all is closed, and nobody has hold of the channel
    split
    · next hfree hclosed hentered hcounted hchannel =>
      exact .stopped hfree hclosed hentered hcounted hchannel
    · exact .waits _
  | shutDown => exact .closed
  | elsewhere store => exact .elsewhere store

end Indexer

end ContentRepository
