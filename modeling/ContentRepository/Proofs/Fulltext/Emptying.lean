import ContentRepository.Proofs.Fulltext.Counting
import Mathlib.Data.List.Perm.Basic

/-!
# No indexing job is lost

Whatever the order in which the threads at a queue have their turns, its jobs are carried out once
each in the order in which they were taken, and the counters tell how far this has got.

* **`Sound.exists_work_lt`**: while something is begun, some thread can go on.
* **`Sound.exists_settled`**, **`Sound.exists_stopped`**: so the threads can always finish what they
  have begun, and a queue that is shut down comes to its end.
* **`Sound.queue_shutDown`**: the worker alone does what `IndexQueue.shutDown` says.
* **`Indexer.Exact`**, **`exact_run`**: what holds of every run.
-/

namespace ContentRepository

/-! ## Steps of the queue -/

namespace IndexQueue

variable {obstacle : String → Option StoreError}

theorem pending_step (q : IndexQueue) (s : Store) :
    (q.step obstacle s).1.pending = q.pending.tail := by
  unfold step
  split
  · next h => rw [h]; rfl
  · next job rest h =>
    show (record _ (job.apply obstacle s).1).pending = q.pending.tail
    rw [h, record_eq, List.tail_cons]

theorem pending_steps (k : Nat) (q : IndexQueue) (s : Store) :
    (steps obstacle k q s).1.pending = q.pending.drop k := by
  induction k generalizing q s with
  | zero => rfl
  | succ k ih =>
    rw [steps, ih, pending_step, List.drop_tail]

/-- More steps than there are jobs change nothing more. -/
theorem steps_eq_drain {k : Nat} {q : IndexQueue} (h : q.pending.length ≤ k) (s : Store) :
    steps obstacle k q s = q.drain obstacle s := by
  unfold drain
  induction k generalizing q s with
  | zero => rw [Nat.le_zero.1 h]
  | succ k ih =>
    cases hpending : q.pending with
    | nil =>
      -- an empty queue is left alone, however many steps there are to go
      have hstep : q.step obstacle s = (q, s) := by rw [step, hpending]
      have hnil : q.pending.length ≤ k := by simp [hpending]
      rw [steps, hstep]
      simpa [hpending] using ih hnil s
    | cons job rest =>
      -- one job less, and one step less
      have hrest : (q.step obstacle s).1.pending = rest := by rw [pending_step, hpending]; rfl
      have hlength : (q.step obstacle s).1.pending.length ≤ k := by
        rw [hrest]
        rw [hpending, List.length_cons] at h
        omega
      simp only [steps, List.length_cons]
      rw [ih hlength, hrest]

end IndexQueue

namespace Indexer

variable {m : Indexer}

/-! ## Finishing -/

/-- The worker has its turn, kept from some documents. -/
def Event.OfWorker (obstacle : String → Option StoreError) : Event → Prop
  | .receive | .record | .stop => True
  | .carryOut other => other = obstacle
  | _ => False

/-- The worker or a submission under way has its turn. -/
def Event.Inside (obstacle : String → Option StoreError) : Event → Prop
  | .count _ | .send _ => True
  | event => event.OfWorker obstacle

/-- How many turns are left to what has been begun. -/
def work (m : Indexer) : Nat :=
  5 * m.entered.length + 4 * m.counted.length + 3 * m.channel.length + 2 * m.worker.held.length +
    m.worker.unrecorded.length

theorem work_eq_zero_iff : m.work = 0 ↔ m.entered = [] ∧ m.counted = [] ∧ m.channel = [] ∧
    m.worker.held = [] ∧ m.worker.unrecorded = [] := by
  simp only [← List.length_eq_zero_iff, work]
  omega

/-- While something is begun, the worker or a submission can go on with it. -/
theorem Sound.exists_work_lt (h : m.Sound) (obstacle : String → Option StoreError)
    (hwork : m.work ≠ 0) : ∃ event : Event, event.Inside obstacle ∧ (m.step event).2.work < m.work := by
  cases hworker : m.worker with
  | done job outcome =>
    refine ⟨.record, trivial, ?_⟩
    simp [Indexer.step, hworker, work]
  | holding job =>
    refine ⟨.carryOut obstacle, rfl, ?_⟩
    simp [Indexer.step, hworker, work]
  | stopped =>
    obtain ⟨-, hentered, hcounted, hchannel⟩ := h.stopped hworker
    simp [work, hworker, hentered, hcounted, hchannel] at hwork
  | free =>
    -- whoever is furthest on its way goes on
    cases hchannel : m.channel with
    | cons job rest =>
      refine ⟨.receive, trivial, ?_⟩
      simp [Indexer.step, hworker, hchannel, work]
      omega
    | nil =>
      cases hcounted : m.counted with
      | cons job rest =>
        -- the channel is empty, so there is room in it
        have hroom : 0 < max m.capacity 1 := by omega
        refine ⟨.send 0, trivial, ?_⟩
        simp [Indexer.step, send, hworker, hchannel, hcounted, work, hroom]
        omega
      | nil =>
        cases hentered : m.entered with
        | cons job rest =>
          refine ⟨.count 0, trivial, ?_⟩
          simp [Indexer.step, hworker, hchannel, hcounted, hentered, work]
          omega
        | nil =>
          simp [work, hworker, hentered, hcounted, hchannel] at hwork

theorem run_cons (m : Indexer) (event : Event) (events : List Event) :
    m.run (event :: events) = (m.step event).2.run events := rfl

theorem run_append (m : Indexer) (events more : List Event) :
    m.run (events ++ more) = (m.run events).run more := List.foldl_append

/-- **The threads can always finish what they have begun.** -/
theorem Sound.exists_settled (h : m.Sound) (obstacle : String → Option StoreError) :
    ∃ events : List Event, (∀ event ∈ events, event.Inside obstacle) ∧ (m.run events).work = 0 := by
  induction hwork : m.work using Nat.strongRecOn generalizing m with
  | ind left ih =>
    by_cases hzero : m.work = 0
    · exact ⟨[], by simp, hzero⟩
    · obtain ⟨event, hinside, hless⟩ := h.exists_work_lt obstacle hzero
      obtain ⟨events, hall, hsettled⟩ := ih _ (hwork ▸ hless) (h.step event) rfl
      exact ⟨event :: events, List.forall_mem_cons.2 ⟨hinside, hall⟩, hsettled⟩

/-- The jobs of all submissions that were not refused. -/
def begun (m : Indexer) : List IndexJob := m.taken ++ m.counted ++ m.entered

theorem perm_of_getElem? {jobs : List IndexJob} {i : Nat} {job : IndexJob}
    (h : jobs[i]? = some job) : (job :: jobs.eraseIdx i).Perm jobs := by
  obtain ⟨hi, rfl⟩ := List.getElem?_eq_some_iff.1 h
  exact List.getElem_cons_eraseIdx_perm hi

/-- What is begun stays begun while the threads inside go on. -/
theorem Sound.inside (h : m.Sound) {obstacle : String → Option StoreError} {event : Event}
    (hinside : event.Inside obstacle) :
    (m.step event).2.accepting = m.accepting ∧ (m.step event).2.begun.Perm m.begun := by
  have hmoves := m.moves_step event
  generalize m.step event = r at hmoves ⊢
  cases hmoves with
  | counted i job hjob =>
    refine ⟨rfl, ?_⟩
    simp only [begun, List.append_assoc, List.singleton_append]
    exact ((perm_of_getElem? hjob).append_left _).append_left _
  | sent i job hjob =>
    refine ⟨rfl, ?_⟩
    simp only [begun, List.append_assoc, List.singleton_append]
    exact ((perm_of_getElem? hjob).append_right _).append_left _
  | failed i job hjob hstopped => exact absurd hstopped (h.running_of_counted hjob)
  | entered | closed | elsewhere => exact hinside.elim
  | _ => exact ⟨rfl, .refl _⟩

theorem Sound.inside_run (h : m.Sound) {obstacle : String → Option StoreError} {events : List Event}
    (hinside : ∀ event ∈ events, event.Inside obstacle) :
    (m.run events).accepting = m.accepting ∧ (m.run events).begun.Perm m.begun := by
  induction events generalizing m with
  | nil => exact ⟨rfl, .refl _⟩
  | cons event rest ih =>
    obtain ⟨hfirst, hrest⟩ := List.forall_mem_cons.1 hinside
    obtain ⟨haccepting, hperm⟩ := h.inside hfirst
    obtain ⟨haccepting', hperm'⟩ := ih (h.step event) hrest
    exact ⟨haccepting'.trans haccepting, hperm'.trans hperm⟩

/-- A queue that is shut down comes to its end. -/
theorem Sound.exists_stopped (h : m.Sound) (hclosed : m.accepting = false)
    (obstacle : String → Option StoreError) :
    ∃ events : List Event, (∀ event ∈ events, event.Inside obstacle) ∧
      (m.run events).worker = .stopped := by
  obtain ⟨events, hinside, hsettled⟩ := h.exists_settled obstacle
  have haccepting : (m.run events).accepting = false := (h.inside_run hinside).1.trans hclosed
  obtain ⟨hentered, hcounted, hchannel, hheld, hunrecorded⟩ := work_eq_zero_iff.1 hsettled
  cases hworker : (m.run events).worker with
  | stopped => exact ⟨events, hinside, hworker⟩
  -- a worker that holds a job or has an outcome to record is not settled
  | holding job => rw [hworker] at hheld; cases hheld
  | done job outcome => rw [hworker] at hunrecorded; cases hunrecorded
  | free =>
    -- a free worker stops with one more step, since nobody has hold of the channel
    refine ⟨events ++ [.stop], ?_, ?_⟩
    · intro event hevent
      rw [List.mem_append, List.mem_singleton] at hevent
      obtain hevent | rfl := hevent
      · exact hinside event hevent
      · trivial
    · rw [run_append, run_cons]
      simp only [Indexer.step, hworker, haccepting, hentered, hcounted, hchannel]
      rfl

/-! ## The worker alone -/

theorem queue_step_of_worker (m : Indexer) {obstacle : String → Option StoreError} {event : Event}
    (hworker : event.OfWorker obstacle) :
    ((m.step event).2.queue, (m.step event).2.store) = (m.queue, m.store) ∨
      ((m.step event).2.queue, (m.step event).2.store) = m.queue.step obstacle m.store := by
  have hmoves := m.moves_step event
  generalize m.step event = r at hmoves ⊢
  cases hmoves with
  | waits => exact .inl rfl
  | received job rest hfree hchannel => left; simp [queue, hfree, hchannel]
  | carried other job hholding =>
    right
    cases hworker
    exact queue_carried hholding
  | recorded job outcome hdone =>
    left
    exact Prod.ext (queue_recorded hdone) rfl
  | stopped hfree => left; simp [queue, hfree]
  | _ => exact hworker.elim

theorem exists_steps_of_worker (m : Indexer) {obstacle : String → Option StoreError}
    {events : List Event} (hworker : ∀ event ∈ events, event.OfWorker obstacle) :
    ∃ k, ((m.run events).queue, (m.run events).store) =
      IndexQueue.steps obstacle k m.queue m.store := by
  induction events generalizing m with
  | nil => exact ⟨0, rfl⟩
  | cons event rest ih =>
    obtain ⟨hfirst, hrest⟩ := List.forall_mem_cons.1 hworker
    obtain ⟨k, hk⟩ := ih (m.step event).2 hrest
    rw [run_cons, hk]
    obtain hsame | hstep := m.queue_step_of_worker hfirst
    · rw [Prod.mk.injEq] at hsame
      exact ⟨k, by rw [hsame.1, hsame.2]⟩
    · refine ⟨k + 1, ?_⟩
      rw [IndexQueue.steps, ← hstep]

/-- Shut down, with the worker alone, a queue ends as `IndexQueue.shutDown` says. -/
theorem Sound.queue_shutDown (h : m.Sound) {obstacle : String → Option StoreError}
    {events : List Event} (hworker : ∀ event ∈ events, event.OfWorker obstacle)
    (hstopped : ((m.step .shutDown).2.run events).worker = .stopped) :
    (((m.step .shutDown).2.run events).queue, ((m.step .shutDown).2.run events).store) =
      m.queue.shutDown obstacle m.store := by
  obtain ⟨k, hk⟩ := (m.step .shutDown).2.exists_steps_of_worker hworker
  have hsound := (h.step .shutDown).run events
  have hempty : ((m.step .shutDown).2.run events).queue.pending = [] := by
    simp [queue, hstopped, (hsound.stopped hstopped).2.2.2]
  have hlength : (m.step .shutDown).2.queue.pending.length ≤ k := by
    rw [← List.drop_eq_nil_iff, ← IndexQueue.pending_steps, ← hk]
    exact hempty
  rw [hk, IndexQueue.steps_eq_drain hlength]
  rfl

/-! ## What holds of every run -/

/-- Jobs are neither lost nor repeated nor reordered, and the counters tell where they are. -/
structure Exact (m : Indexer) : Prop where
  /-- The jobs taken were carried out once each in the order in which they were taken, up to those
  that wait. -/
  order : m.carriedOut.map (·.1) ++ m.queue.pending = m.taken
  /-- Every submission that was counted is pending, processed or failed. -/
  total : m.counters.pending + m.counters.processed + m.counters.failed =
    (m.taken ++ m.counted).length
  /-- Pending are the jobs that were not carried out, and one whose outcome is about to be
  counted. -/
  pending : m.counters.pending =
    m.counted.length + m.queue.pending.length + m.worker.unrecorded.length
  /-- A job is counted once, by its outcome. -/
  outcomes : m.counters.processed = m.recorded.countP (·.2.isOk) ∧
    m.counters.failed = m.recorded.countP (!·.2.isOk) ∧
    m.carriedOut = m.recorded ++ m.worker.unrecorded
  /-- Idleness is reported when every submission that was counted has been carried out, and then
  only. -/
  idle : ∀ interrupted, m.await interrupted = .idle ↔
    m.counted = [] ∧ m.carriedOut.map (·.1) = m.taken ∧ m.worker.unrecorded = []
  /-- Between the turns of the threads, waiting is what it is for the queue. -/
  waiting : m.counted = [] → m.worker.unrecorded = [] →
    ∀ interrupted, m.await interrupted = m.queue.await interrupted
  /-- A submission for another repository, or to a queue that is shut down, changes nothing. -/
  refuses : ∀ job : IndexJob, job.repository ≠ m.repository ∨ m.accepting = false →
    ∃ e, m.queue.submit job = .error e ∧ m.step (.enter job) = (some (.error e), m)
  /-- Any other submission gets hold of the channel, so it is one of those that are begun. -/
  admits : ∀ job : IndexJob, job.repository = m.repository → m.accepting = true →
    m.step (.enter job) = (none, { m with entered := m.entered ++ [job] })
  /-- What a step is for the queue. No submission is refused but in this way, and none that was
  counted. -/
  turn : ∀ event, m.Turn event (m.step event).1 (m.step event).2
  /-- The threads can finish what they have begun. -/
  settles : ∀ obstacle, ∃ events : List Event, (∀ event ∈ events, event.Inside obstacle) ∧
    (m.run events).carriedOut.map (·.1) = (m.run events).taken ∧
    (m.run events).counters.pending = 0 ∧ ((m.run events).taken).Perm m.begun
  /-- The worker stops when every job has been carried out, and then nobody is left to submit. -/
  stopped : m.worker = .stopped → m.accepting = false ∧ m.entered = [] ∧ m.counted = [] ∧
    m.carriedOut.map (·.1) = m.taken ∧ m.counters.pending = 0
  /-- A queue that is shut down comes to its end. -/
  ends : ∀ obstacle, ∃ events : List Event, (∀ event ∈ events, event.Inside obstacle) ∧
    ((m.step .shutDown).2.run events).worker = .stopped ∧
    (((m.step .shutDown).2.run events).carriedOut.map (·.1)).Perm m.begun
  /-- If only the worker is left, this is how `IndexQueue.shutDown` leaves it. -/
  drains : ∀ obstacle (events : List Event), (∀ event ∈ events, event.OfWorker obstacle) →
    ((m.step .shutDown).2.run events).worker = .stopped →
    (((m.step .shutDown).2.run events).queue, ((m.step .shutDown).2.run events).store) =
      m.queue.shutDown obstacle m.store

namespace Sound

theorem length_taken (h : m.Sound) :
    m.carriedOut.length + m.queue.pending.length = m.taken.length := by
  rw [← h.order, List.length_append, List.length_map]
  rfl

theorem pending_eq (h : m.Sound) : m.counters.pending =
    m.counted.length + m.queue.pending.length + m.worker.unrecorded.length := by
  have hlength : m.queue.pending.length = m.worker.held.length + m.channel.length :=
    List.length_append
  rw [h.pending, hlength]
  omega

theorem total (h : m.Sound) : m.counters.pending + m.counters.processed + m.counters.failed =
    (m.taken ++ m.counted).length := by
  have hrecorded : m.recorded.length = m.counters.processed + m.counters.failed := by
    rw [h.processed, h.failed]
    simpa using List.length_eq_countP_add_countP (fun e => e.2.isOk) (l := m.recorded)
  have hcarried : m.carriedOut.length = m.recorded.length + m.worker.unrecorded.length :=
    List.length_append
  have htaken := h.length_taken
  have hpending := h.pending_eq
  rw [List.length_append]
  omega

/-- Nothing waits exactly if everything that was taken is carried out. -/
theorem pending_nil_iff (h : m.Sound) :
    m.queue.pending = [] ↔ m.carriedOut.map (·.1) = m.taken := by
  have horder : m.carriedOut.map (·.1) ++ m.queue.pending = m.taken := h.order
  rw [← horder]
  simp

theorem pending_eq_zero_iff (h : m.Sound) : m.counters.pending = 0 ↔
    m.counted = [] ∧ m.queue.pending = [] ∧ m.worker.unrecorded = [] := by
  rw [h.pending_eq]
  simp only [← List.length_eq_zero_iff]
  omega

theorem await_eq_idle_iff (m : Indexer) (interrupted : Bool) :
    m.await interrupted = .idle ↔ m.counters.pending = 0 := by
  unfold await
  by_cases hpending : m.counters.pending = 0
  · simp [hpending]
  · cases interrupted <;> simp [hpending]

theorem await_queue (h : m.Sound) (hcounted : m.counted = []) (hunrecorded : m.worker.unrecorded = [])
    (interrupted : Bool) : m.await interrupted = m.queue.await interrupted := by
  have hpending : m.counters.pending = 0 ↔ m.queue.pending = [] := by
    rw [h.pending_eq_zero_iff]
    exact ⟨fun hall => hall.2.1, fun hempty => ⟨hcounted, hempty, hunrecorded⟩⟩
  simp [await, IndexQueue.await, hpending]

theorem step_enter_of_refused {job : IndexJob}
    (h : job.repository ≠ m.repository ∨ m.accepting = false) :
    ∃ e, m.queue.submit job = .error e ∧ m.step (.enter job) = (some (.error e), m) := by
  cases hsubmit : m.queue.submit job with
  | error e => exact ⟨e, rfl, by simp only [Indexer.step, hsubmit]⟩
  | ok q =>
    obtain ⟨hown, hopen, -⟩ := IndexQueue.submit_eq_ok_iff.1 hsubmit
    obtain hother | hclosed := h
    · exact absurd hown hother
    · cases hopen.symm.trans hclosed

theorem step_enter_of_admitted {job : IndexJob} (hown : job.repository = m.repository)
    (hopen : m.accepting = true) :
    m.step (.enter job) = (none, { m with entered := m.entered ++ [job] }) := by
  have hsubmit : m.queue.submit job =
      .ok { m.queue with pending := m.queue.pending ++ [job] } :=
    IndexQueue.submit_eq_ok_iff.2 ⟨hown, hopen, rfl⟩
  simp only [Indexer.step, hsubmit]

/-- When nothing is left to do, everything that was begun has been carried out and counted. -/
theorem settled (h : m.Sound) (hsettled : m.work = 0) :
    m.carriedOut.map (·.1) = m.taken ∧ m.counters.pending = 0 ∧ m.begun = m.taken := by
  obtain ⟨hentered, hcounted, hchannel, hheld, hunrecorded⟩ := work_eq_zero_iff.1 hsettled
  have hempty : m.queue.pending = [] := List.append_eq_nil_iff.2 ⟨hheld, hchannel⟩
  refine ⟨h.pending_nil_iff.1 hempty, h.pending_eq_zero_iff.2 ⟨hcounted, hempty, hunrecorded⟩, ?_⟩
  simp [begun, hcounted, hentered]

theorem work_of_stopped (h : m.Sound) (hstopped : m.worker = .stopped) : m.work = 0 := by
  obtain ⟨-, hentered, hcounted, hchannel⟩ := h.stopped hstopped
  simp [work, hstopped, hentered, hcounted, hchannel]

theorem exact (h : m.Sound) : m.Exact where
  order := h.order
  total := h.total
  pending := h.pending_eq
  outcomes := ⟨h.processed, h.failed, rfl⟩
  idle interrupted := by
    rw [await_eq_idle_iff, h.pending_eq_zero_iff, h.pending_nil_iff]
  waiting hcounted hunrecorded interrupted := h.await_queue hcounted hunrecorded interrupted
  refuses _ hjob := step_enter_of_refused hjob
  admits _ hown hopen := step_enter_of_admitted hown hopen
  turn := h.turn
  settles obstacle := by
    obtain ⟨events, hinside, hwork⟩ := h.exists_settled obstacle
    obtain ⟨hcarried, hpending, hbegun⟩ := (h.run events).settled hwork
    refine ⟨events, hinside, hcarried, hpending, ?_⟩
    rw [← hbegun]
    exact (h.inside_run hinside).2
  stopped hstopped := by
    obtain ⟨haccepting, hentered, hcounted, -⟩ := h.stopped hstopped
    obtain ⟨hcarried, hpending, -⟩ := h.settled (h.work_of_stopped hstopped)
    exact ⟨haccepting, hentered, hcounted, hcarried, hpending⟩
  ends obstacle := by
    have hclosed : (m.step .shutDown).2.Sound := h.step .shutDown
    obtain ⟨events, hinside, hstopped⟩ := hclosed.exists_stopped rfl obstacle
    have hrun := hclosed.run events
    obtain ⟨hcarried, -, hbegun⟩ := hrun.settled (hrun.work_of_stopped hstopped)
    refine ⟨events, hinside, hstopped, ?_⟩
    rw [hcarried, ← hbegun]
    exact (hclosed.inside_run hinside).2
  drains obstacle events hworker hstopped := h.queue_shutDown hworker hstopped

end Sound

/-- **No job is lost, repeated or reordered**, in whatever order the threads have their turns and
whatever happens to the store in between. -/
theorem exact_run (repository : String) (capacity : Nat) (store : Store) (events : List Event) :
    (start repository capacity store).queue = .start repository ∧
      ((start repository capacity store).run events).Exact :=
  ⟨rfl, ((sound_start repository capacity store).run events).exact⟩

/-- A submission that has got hold of the channel before the queue is shut down is still carried out,
though its job fails; one that comes later is refused and leaves no trace. -/
example (store : Store) :
    let job : IndexJob := ⟨"test", .document "d", .simple, []⟩
    ((start "test" 1 store).run
      [.enter job, .shutDown, .enter job, .count 0, .send 0, .stop, .receive,
        .carryOut fun _ => some .shutDown, .record, .stop]).counters = ⟨0, 0, 1⟩ := by
  cbv

end Indexer

end ContentRepository
