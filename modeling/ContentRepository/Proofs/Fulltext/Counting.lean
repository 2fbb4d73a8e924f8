import ContentRepository.Proofs.Fulltext.Threads
import Mathlib.Data.List.Basic

/-!
# Every job is counted

Threads that submit and the worker keep the counters of a queue together, each at another place. A
submission counts its job as pending before the job is in the channel, so that the worker cannot
count the outcome first; and it would take its count back if the worker were gone by then.

* **`Indexer.Sound`**: the invariant. The worker does not stop while somebody has hold of the
  channel, so a submission that is counted is never refused and no count is taken back; and nothing
  is taken from the pending jobs that was not added to them.
* **`Sound.step`**, **`Sound.run`**: one step preserves it, so every run does.
* **`Indexer.Turn`**, **`Sound.turn`**: what a step is for the queue as a whole, by the operations
  of `IndexQueue`.
-/

namespace ContentRepository

/-! ## The queue -/

namespace IndexQueue

theorem submit_eq_ok_iff {q r : IndexQueue} {job : IndexJob} :
    q.submit job = .ok r ↔ job.repository = q.repository ∧ q.accepting = true ∧
      { q with pending := q.pending ++ [job] } = r := by
  unfold submit
  by_cases hown : job.repository = q.repository
  · by_cases hopen : q.accepting = true
    · simp [hown, hopen]
    · simp [hown, hopen]
  · simp [hown]

theorem record_eq (q : IndexQueue) (outcome : Except StoreError Nat) :
    q.record outcome = { q with
      processed := q.processed + if outcome.isOk then 1 else 0
      failed := q.failed + if !outcome.isOk then 1 else 0 } := by
  cases outcome <;> rfl

end IndexQueue

namespace Indexer

variable {m : Indexer}

/-! ## The invariant -/

/-- What holds of the threads at all times. -/
structure Sound (m : Indexer) : Prop where
  /-- Whoever has hold of the channel has passed the check of the repository. -/
  own : ∀ job, job ∈ m.entered ∨ job ∈ m.counted → job.repository = m.repository
  /-- The jobs taken are those carried out, the one received and those in the channel. -/
  order : m.carriedOut.map (·.1) ++ (m.worker.held ++ m.channel) = m.taken
  /-- A job is pending from when its submission is counted until its outcome is. -/
  pending : m.counters.pending =
    m.counted.length + m.channel.length + m.worker.held.length + m.worker.unrecorded.length
  processed : m.counters.processed = m.recorded.countP (·.2.isOk)
  failed : m.counters.failed = m.recorded.countP (!·.2.isOk)
  /-- The worker does not stop while somebody has hold of the channel. -/
  stopped : m.worker = .stopped →
    m.accepting = false ∧ m.entered = [] ∧ m.counted = [] ∧ m.channel = []

theorem sound_start (repository : String) (capacity : Nat) (store : Store) :
    (start repository capacity store).Sound where
  own _ h := by cases h with | inl h => cases h | inr h => cases h
  order := rfl
  pending := rfl
  processed := rfl
  failed := rfl
  stopped h := by cases h

namespace Sound

theorem running_of_counted (h : m.Sound) {i : Nat} {job : IndexJob} (hjob : m.counted[i]? = some job) :
    m.worker ≠ .stopped := by
  intro hstopped
  rw [(h.stopped hstopped).2.2.1] at hjob
  cases hjob

/-- **One step preserves the invariant.** -/
theorem step (h : m.Sound) (event : Event) : (m.step event).2.Sound := by
  have hmoves := m.moves_step event
  generalize m.step event = r at hmoves ⊢
  cases hmoves with
  | waits => exact h
  | refused => exact h
  | entered job q hsubmit =>
    -- the checks of the submission are the invariant for its job, and show that the queue is open
    obtain ⟨hown, hopen, -⟩ := IndexQueue.submit_eq_ok_iff.1 hsubmit
    refine { h with own := ?_, stopped := ?_ }
    · intro other hother
      rw [List.mem_append, List.mem_singleton] at hother
      obtain (hother | rfl) | hother := hother
      · exact h.own other (.inl hother)
      · exact hown
      · exact h.own other (.inr hother)
    · intro hstopped
      cases hopen.symm.trans (h.stopped hstopped).1
  | counted i job hjob =>
    -- the job moves on, and is counted as pending along with those in the channel
    have hmem : job ∈ m.entered := List.mem_of_getElem? hjob
    refine { h with own := ?_, pending := ?_, stopped := ?_ }
    · intro other hother
      rw [List.mem_append, List.mem_singleton] at hother
      obtain hother | hother | rfl := hother
      · exact h.own other (.inl (List.mem_of_mem_eraseIdx hother))
      · exact h.own other (.inr hother)
      · exact h.own other (.inl hmem)
    · have := h.pending
      simp only [Counters.charge, List.length_append, List.length_singleton]
      omega
    · -- the worker does not stop while a submission has hold of the channel
      intro hstopped
      rw [(h.stopped hstopped).2.1] at hmem
      cases hmem
  | sent i job hjob hroom =>
    -- the job goes from the submission to the channel; either way it counts as pending
    have hmem : job ∈ m.counted := List.mem_of_getElem? hjob
    refine { h with own := ?_, order := ?_, pending := ?_, stopped := ?_ }
    · intro other hother
      exact h.own other (hother.imp_right List.mem_of_mem_eraseIdx)
    · rw [← h.order]
      simp [carriedOut]
    · have hlength := List.length_eraseIdx_add_one (List.getElem?_eq_some_iff.1 hjob).1
      have := h.pending
      simp only [List.length_append, List.length_singleton]
      omega
    · exact fun hstopped => absurd hstopped (h.running_of_counted hjob)
  | failed i job hjob hstopped => exact absurd hstopped (h.running_of_counted hjob)
  | received job rest hfree hchannel =>
    -- the head of the channel is what the worker holds now, so their order is the same
    refine { h with order := ?_, pending := ?_, stopped := ?_ }
    · rw [← h.order, hchannel]
      simp [carriedOut, hfree]
    · have := h.pending
      simp only [hfree, hchannel, Worker.held, Worker.unrecorded, List.length_cons,
        List.length_nil] at this ⊢
      omega
    · intro hstopped
      cases hstopped
  | carried obstacle job hholding =>
    -- a job that is carried out is still counted until its outcome is recorded
    refine { h with order := ?_, pending := ?_, stopped := ?_ }
    · rw [← h.order]
      simp [carriedOut, hholding]
    · have := h.pending
      simp only [hholding, Worker.held, Worker.unrecorded, List.length_cons,
        List.length_nil] at this ⊢
      omega
    · intro hstopped
      cases hstopped
  | recorded job outcome hdone =>
    refine { own := h.own, order := ?_, pending := ?_, processed := ?_, failed := ?_, stopped := ?_ }
    · rw [← h.order]
      simp [carriedOut, hdone]
    · -- what is taken off here was added when the submission was counted
      have := h.pending
      rw [Counters.pending_record]
      simp only [hdone, Worker.held, Worker.unrecorded, List.length_cons, List.length_nil] at this ⊢
      omega
    · rw [Counters.processed_record, h.processed, List.countP_append, List.countP_singleton]
    · rw [Counters.failed_record, h.failed, List.countP_append, List.countP_singleton]
    · intro hstopped
      cases hstopped
  | stopped hfree hclosed hentered hcounted hchannel =>
    -- nothing is left to come, as this is what the worker waits for
    refine { h with order := ?_, pending := ?_, stopped := ?_ }
    · rw [← h.order]
      simp [carriedOut, hfree]
    · rw [h.pending]
      simp [hfree]
    · -- a worker that stops has found everything closed and empty
      exact fun _ => ⟨hclosed, hentered, hcounted, hchannel⟩
  | closed => exact { h with stopped := fun hstopped => ⟨rfl, (h.stopped hstopped).2⟩ }
  | elsewhere store => exact { h with }

theorem run (h : m.Sound) (events : List Event) : (m.run events).Sound := by
  induction events generalizing m with
  | nil => exact h
  | cons event rest ih => exact ih (h.step event)

end Sound

/-! ## What a step is for the queue -/

/-- What the queue and the store see of a step, by the operations of `IndexQueue`. -/
inductive Turn (m : Indexer) : Event → Option (Except Error Unit) → Indexer → Prop where
  /-- A submission is refused. Nothing changes. -/
  | refuse (job : IndexJob) (e : Error) (h : m.queue.submit job = .error e) :
    Turn m (.enter job) (some (.error e)) m
  /-- A submission succeeds. -/
  | take (i : Nat) (job : IndexJob) {n : Indexer} (hcounted : job ∈ m.counted)
      (hqueue : n.queue = { m.queue with pending := m.queue.pending ++ [job] })
      (hsubmit : m.accepting = true → m.queue.submit job = .ok n.queue)
      (hstore : n.store = m.store) (htaken : n.taken = m.taken ++ [job])
      (hcarried : n.carriedOut = m.carriedOut) :
    Turn m (.send i) (some (.ok ())) n
  /-- The next job is carried out. -/
  | work (obstacle : String → Option StoreError) (job : IndexJob) {n : Indexer}
      (hnext : m.queue.pending = job :: n.queue.pending)
      (hqueue : (n.queue, n.store) = m.queue.step obstacle m.store) (htaken : n.taken = m.taken)
      (hcarried : n.carriedOut = m.carriedOut ++ [(job, (job.apply obstacle m.store).1)]) :
    Turn m (.carryOut obstacle) none n
  | close : Turn m .shutDown none { m with accepting := false }
  | elsewhere (store : Store) : Turn m (.elsewhere store) none { m with store }
  /-- Threads go on, or wait, and the queue is not concerned. -/
  | rest (event : Event) {n : Indexer} (hqueue : n.queue = m.queue) (hstore : n.store = m.store)
      (htaken : n.taken = m.taken) (hcarried : n.carriedOut = m.carriedOut) :
    Turn m event none n

/-- Carrying the received job out is a step of the queue. -/
theorem queue_carried {obstacle : String → Option StoreError} {job : IndexJob}
    (hholding : m.worker = .holding job) :
    (({ m with worker := .done job (job.apply obstacle m.store).1,
               store := (job.apply obstacle m.store).2 } : Indexer).queue,
      (job.apply obstacle m.store).2) = m.queue.step obstacle m.store := by
  have hpending : m.queue.pending = job :: m.channel := by
    unfold queue
    rw [hholding]
    rfl
  rw [IndexQueue.step, hpending]
  refine Prod.ext ?_ rfl
  show _ = IndexQueue.record _ (job.apply obstacle m.store).1
  rw [IndexQueue.record_eq]
  unfold queue
  simp [hholding]

/-- Counting an outcome changes nothing that is known of the queue. -/
theorem queue_recorded {job : IndexJob} {outcome : Except StoreError Nat}
    (hdone : m.worker = .done job outcome) :
    ({ m with worker := .free, counters := m.counters.record outcome,
              recorded := m.recorded ++ [(job, outcome)] } : Indexer).queue = m.queue := by
  unfold queue
  rw [Counters.processed_record, Counters.failed_record, hdone]
  simp

theorem Sound.turn (h : m.Sound) (event : Event) :
    m.Turn event (m.step event).1 (m.step event).2 := by
  have hmoves := m.moves_step event
  generalize m.step event = r at hmoves ⊢
  cases hmoves with
  | waits => exact .rest event rfl rfl rfl rfl
  | refused job e hsubmit => exact .refuse job e hsubmit
  | entered => exact .rest _ rfl rfl rfl rfl
  | counted => exact .rest _ rfl rfl rfl rfl
  | sent i job hjob =>
    -- the one step that is a submission for the queue as a whole
    have hmem : job ∈ m.counted := List.mem_of_getElem? hjob
    have hpending : m.worker.held ++ (m.channel ++ [job]) = m.queue.pending ++ [job] :=
      (List.append_assoc ..).symm
    refine .take i job hmem ?_ ?_ rfl rfl rfl
    · simp only [queue, hpending]
    · intro hopen
      rw [IndexQueue.submit_eq_ok_iff]
      refine ⟨h.own job (.inr hmem), hopen, ?_⟩
      simp only [queue, hpending]
  | failed i job hjob hstopped => exact absurd hstopped (h.running_of_counted hjob)
  | received job rest hfree hchannel =>
    -- what was received still waits as far as the queue as a whole is concerned
    refine .rest _ ?_ rfl rfl ?_
    · simp [queue, hfree, hchannel]
    · simp [carriedOut, hfree]
  | carried obstacle job hholding =>
    -- the one step that is work for the queue as a whole: from here on the outcome counts
    refine .work obstacle job ?_ (queue_carried hholding) rfl ?_
    · simp [queue, hholding]
    · simp [carriedOut, hholding]
  | recorded job outcome hdone =>
    refine .rest _ (queue_recorded hdone) rfl rfl ?_
    simp [carriedOut, hdone]
  | stopped hfree =>
    refine .rest _ ?_ rfl rfl ?_
    · simp [queue, hfree]
    · simp [carriedOut, hfree]
  | closed => exact .close
  | elsewhere store => exact .elsewhere store

end Indexer

end ContentRepository
