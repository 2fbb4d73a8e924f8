import ContentRepository.Proofs.Transaction.History

/-!
# The protocol of completion

* **`TransactionManager.Completion`** — what a completion does: whom it asks, whom it tells, and
  what is left of the transaction.
* **`TransactionManager.Disciplined`** — what holds of a manager and its past: threads are bound to
  active transactions only, numbers of transactions are never used again, those can only be rolled
  back that were marked, completions are as they should be, and a transaction that is over stays so.
* **`TransactionManager.completion_of_reaches`** — it holds in every history of a manager.
-/

namespace ContentRepository.TransactionManager

variable {κ σ : Type}

/-- A transaction that is not active can be neither resumed nor registered with. -/
theorem refused_of_not_active {m : TransactionManager κ} {id : Nat}
    (hover : m.active.get? id = none) :
    (∀ thread, m.resume thread id = .error .noActiveTransaction) ∧
      ∀ participant, m.register id participant = .error .noActiveTransaction := by
  refine ⟨fun thread => ?_, fun participant => ?_⟩
  · rw [resume, if_pos]
    simp [Numbered.contains, hover]
  · rw [register, hover]

/-- Whoever has no transaction can begin one. -/
theorem isOk_begin (m : TransactionManager κ) (thread : Nat) :
    (m.begin thread).isOk = (m.current thread).isNone := by
  rw [begin, current, Numbered.contains]
  cases m.bindings.get? thread with
  | none => rfl
  | some id => rfl

/-- Whoever has no transaction can resume an active one. -/
theorem isOk_resume (m : TransactionManager κ) (thread id : Nat) :
    (m.resume thread id).isOk = ((m.active.get? id).isSome && (m.current thread).isNone) := by
  rw [resume, current, Numbered.contains, Numbered.contains]
  cases m.active.get? id with
  | none => rfl
  | some t =>
    cases m.bindings.get? thread with
    | none => rfl
    | some other => rfl

/-- Whoever resumes a transaction is bound to it. -/
theorem current_resume {m after : TransactionManager κ} {thread id : Nat}
    (hresume : m.resume thread id = .ok after) : after.current thread = some id := by
  rw [resume] at hresume
  split at hresume
  · cases hresume
  · split at hresume
    · cases hresume
    · cases hresume
      exact (Numbered.get?_put _ _ _ _).trans (if_pos rfl)

/-- Whoever suspends its transaction is bound to none. -/
theorem current_suspend (m : TransactionManager κ) (thread : Nat) :
    (m.suspend thread).1 = m.current thread ∧ (m.suspend thread).2.current thread = none :=
  ⟨rfl, (Numbered.get?_remove _ _ _).trans (if_pos rfl)⟩

/-- Participants can be registered with a transaction while it is active. -/
theorem isOk_register (m : TransactionManager κ) (id : Nat) (participant : κ) :
    (m.register id participant).isOk = (m.active.get? id).isSome := by
  rw [register]
  cases m.active.get? id with
  | none => rfl
  | some t => rfl

/-- Whoever is bound to a transaction can mark it. -/
theorem isOk_setRollbackOnly {h : History κ σ} (hs : h.Sound) (thread : Nat) :
    (h.manager.setRollbackOnly thread).isOk = (h.manager.current thread).isSome := by
  rw [setRollbackOnly]
  cases hcurrent : h.manager.current thread with
  | none => rfl
  | some id =>
    obtain ⟨t, ht⟩ := hs.active_of_current hcurrent
    rw [Option.bind_some, ht]
    rfl

/-- A completion of the thread's transaction, as it should be after a history. -/
structure Completion (p : Protocol κ σ) (h : History κ σ) (commit : Bool) (thread id : Nat)
    (t : Transaction (Nat × κ)) (result : Except Error Unit) (asked : List Firing)
    (outcome : Outcome) (manager : TransactionManager (Nat × κ)) (world : σ) : Prop where
  active : h.manager.active.get? id = some t
  begun : id ∈ h.begun
  /-- Those take part who were registered with it, in that order. -/
  participants : t.participants.map (·.1) = (h.registered.filter (·.2 == id)).map (·.1)
  /-- It is ruled out to commit it if it was marked, and only then. -/
  marked : t.rollbackOnly = true ↔ id ∈ h.marked
  /-- Some are asked, and then all are told the outcome. -/
  complete : TransactionManager.complete p.recorded commit thread h.manager (h.fired, h.world) =
    (result, manager, h.fired ++ asked ++ t.tellings outcome, world)
  /-- The record of the calls changes nothing. -/
  bare : p.settle commit t.bare h.world = (result, world)
  settlement : Settlement commit t result asked outcome
  /-- Nothing is left of it: it is not active, and no thread is bound to it. -/
  gone : manager.active.get? id = none
  unbound : ∀ other, manager.current other ≠ some id
  /-- The others are as they were, and so are the threads that are bound to them. -/
  others : ∀ other, other ≠ id → manager.active.get? other = h.manager.active.get? other ∧
    ∀ bystander, h.manager.current bystander = some other →
      manager.current bystander = some other

/-- What holds of a manager after a history. -/
structure Disciplined (p : Protocol κ σ) (h : History κ σ) : Prop where
  /-- A thread is bound to an active transaction only. -/
  bound : ∀ thread id, h.manager.current thread = some id →
    ∃ t, h.manager.active.get? id = some t
  /-- Numbers of transactions ascend: a new one, which its thread is bound to, is above all before. -/
  ascending : h.begun.Pairwise (· < ·)
  above : ∀ thread id manager, h.manager.begin thread = .ok (id, manager) →
    manager.current thread = some id ∧ ∀ other ∈ h.begun, other < id
  /-- A thread that is bound to no transaction can begin one or resume an active one, and anybody can
  be registered with an active one. -/
  beginning : ∀ thread, (h.manager.begin thread).isOk = (h.manager.current thread).isNone
  resuming : ∀ thread id, (h.manager.resume thread id).isOk =
    ((h.manager.active.get? id).isSome && (h.manager.current thread).isNone)
  registering : ∀ id participant,
    (h.manager.register id participant).isOk = (h.manager.active.get? id).isSome
  /-- A thread that resumes a transaction is bound to it, and one that suspends it to none. -/
  resumed : ∀ thread id manager, h.manager.resume thread id = .ok manager →
    manager.current thread = some id
  suspended : ∀ thread, (h.manager.suspend thread).1 = h.manager.current thread ∧
    (h.manager.suspend thread).2.current thread = none
  /-- A thread can mark a transaction whenever it is bound to one. Active transactions can only be
  rolled back if they were marked in this way, and then that stays so. -/
  marking : ∀ thread,
    (h.manager.setRollbackOnly thread).isOk = (h.manager.current thread).isSome
  marks : ∀ id t, h.manager.active.get? id = some t → (t.rollbackOnly = true ↔ id ∈ h.marked)
  /-- A thread without a transaction completes nothing; any other completes its own. -/
  refused : ∀ commit thread, h.manager.current thread = none →
    TransactionManager.complete p.recorded commit thread h.manager (h.fired, h.world) =
      (.error .noActiveTransaction, h.manager, h.fired, h.world)
  completion : ∀ commit thread id, h.manager.current thread = some id →
    ∃ t result asked outcome manager world,
      Completion p h commit thread id t result asked outcome manager world
  /-- A transaction that is over stays so: no thread is bound to it, and it can be neither resumed
  nor registered with. -/
  ended : ∀ id ∈ h.begun, h.manager.active.get? id = none →
    ∀ later : History κ σ, h.Reaches p later →
      later.manager.active.get? id = none ∧
      (∀ thread, later.manager.current thread ≠ some id) ∧
      (∀ thread, later.manager.resume thread id = .error .noActiveTransaction) ∧
      ∀ participant, later.manager.register id participant = .error .noActiveTransaction
  /-- Every participant of such a transaction was told, and no callback was called twice. -/
  told : ∀ r ∈ h.registered, h.manager.active.get? r.2 = none →
    (r.1, true) ∈ h.fired.map Firing.callback
  once : (h.fired.map Firing.callback).Nodup

/-- **A manager keeps its discipline in every history, whatever threads do and however participants
answer.** -/
theorem completion_of_reaches (p : Protocol κ σ) (world : σ) (h : History κ σ)
    (hrun : (History.start world).Reaches p h) : Disciplined p h := by
  have hs := hrun.sound (.start world)
  refine ⟨fun _ _ => hs.active_of_current, hs.ascending, ?above, isOk_begin h.manager,
    isOk_resume h.manager, isOk_register h.manager, fun _ _ _ => current_resume,
    current_suspend h.manager, isOk_setRollbackOnly hs, hs.marks, ?refused, ?completion, ?ended,
    hs.told, hs.once⟩
  case above =>
    intro thread id manager hbegin
    rw [TransactionManager.begin] at hbegin
    split at hbegin
    · -- the thread has a transaction already: refused
      cases hbegin
    · cases hbegin
      -- the number is the next one, above all that were begun
      exact ⟨(Numbered.get?_put _ _ _ _).trans (if_pos rfl), hs.below⟩
  case refused =>
    intro commit thread hcurrent
    exact complete_of_current_none p.recorded commit hcurrent _
  case completion =>
    intro commit thread id hcurrent
    obtain ⟨t, ht⟩ := hs.active_of_current hcurrent
    obtain ⟨result, asked, outcome, world', hsettle, hsettled⟩ :=
      p.settle_recorded commit t h.fired h.world
    refine ⟨t, result, asked, outcome, h.manager.without id, world', ht, hs.begunActive id t ht,
      hs.participants id t ht, hs.marks id t ht, ?_, ?_, hsettled, ?_,
      current_without h.manager id, fun other hne => ⟨?_, fun _ => current_without_of_ne hne⟩⟩
    · -- what the recorded protocol does
      rw [complete_of_current_some p.recorded commit hcurrent ht, hsettle]
    · -- and what the plain one does, which answers the same
      rw [p.settle_bare commit t h.fired h.world, hsettle]
    · rw [active_without, if_pos rfl]
    · rw [active_without, if_neg hne]
  case ended =>
    intro id hid hover later hlater
    obtain ⟨-, hover'⟩ := hlater.ended hs hid hover
    refine ⟨hover', fun thread hcurrent => ?_, refused_of_not_active hover'⟩
    -- a thread that is bound to it would be bound to an active transaction
    obtain ⟨t, ht⟩ := (hlater.sound hs).active_of_current hcurrent
    rw [hover'] at ht
    cases ht

/-- Participants that are flags: each says whether it agrees, and the world counts the told. -/
def agreement : Protocol Bool Nat where
  before agrees told := (if agrees then .ok () else .error .interrupted, told)
  after _ _ told := told + 1

/-- A transaction begun on one thread and completed on another; the second of three participants
objects to its commit. -/
def History.objected : History Bool Nat :=
  [.begin 7, .register 1 true, .register 1 false, .register 1 true, .suspend 7, .resume 8 1,
    .complete true 8].foldl (History.next agreement) (.start 0)

/-- The last participant is not asked, but told like the others, and all of them once. -/
theorem callbacks_of_objected :
    History.objected.fired = [.asked 0 true, .asked 1 false, .told 0 .rolledBack,
      .told 1 .rolledBack, .told 2 .rolledBack] ∧
    (History.objected.fired.map Firing.callback).Nodup ∧
    ∀ later : History Bool Nat, History.objected.Reaches agreement later →
      later.manager.resume 7 1 = .error .noActiveTransaction := by
  have hrun : (History.start 0).Reaches agreement History.objected := .foldl .refl _
  have hdisciplined := completion_of_reaches agreement 0 History.objected hrun
  refine ⟨by decide, hdisciplined.once, fun later hlater => ?_⟩
  exact (hdisciplined.ended 1 (by decide) (by decide) later hlater).2.2.1 7

-- A transaction that was marked is not committed, and nobody is asked.
example : ([.begin 7, .register 1 true, .setRollbackOnly 7, .complete true 7].foldl
    (History.next agreement) (.start 0)).fired = [.told 0 .rolledBack] := by decide

end ContentRepository.TransactionManager
