import ContentRepository.Proofs.Transaction.Completion
import ContentRepository.Transaction.Scope

/-!
# Which transaction work inside a transaction completes

`inTransaction` begins a transaction, and when its work is done it completes the transaction that
the thread has then. The work may have put another one in its place, or none.

* **`TransactionManager.Work`** — work of any kind: whatever it does may depend on all that happened
  so far.
* **`TransactionManager.Ends`** — how work inside a transaction ends: the transaction that the
  thread has in the end is completed, and nothing else happens.
* **`TransactionManager.endsOwn_iff_of_inTransaction`** — so it is its own transaction that is
  completed, and no other, exactly if the thread is left with it, or is left with none when it is
  over.
-/

namespace ContentRepository.TransactionManager

variable {κ σ α : Type} {p : Protocol κ σ} {thread : Nat}

/-! ## Work -/

/-- Some work. Either it is done, or something happens and it goes on in a way that may depend on
all that happened so far. -/
inductive Work (κ σ α : Type) where
  | done (result : Except Error α)
  | act (event : Event κ σ) (next : History κ σ → Work κ σ α)

/-- Whether the event may leave the thread without the transaction that it has. -/
def Event.Unbinds (thread : Nat) : Event κ σ → Prop
  | .suspend other => other = thread
  | .complete _ _ => True
  | _ => False

namespace Work

/-- Does the work. -/
def run (p : Protocol κ σ) : Work κ σ α → StateM (History κ σ) (Except Error α)
  | done result => fun h => (result, h)
  | act event next => fun h => run p (next (h.next p event)) (h.next p event)

/-- All that may happen in the course of the work satisfies a condition. -/
def All (condition : Event κ σ → Prop) : Work κ σ α → Prop
  | done _ => True
  | act event next => condition event ∧ ∀ h, All condition (next h)

/-- Work continues the history. Induction on the work. -/
theorem reaches_run (work : Work κ σ α) {h later : History κ σ} (hrun : h.Reaches p later) :
    h.Reaches p (work.run p later).2 := by
  induction work generalizing later with
  | done result => exact hrun
  | act event next ih => exact ih (later.next p event) (.step event hrun)

end Work

/-- A thread that has a transaction keeps it when one that has none gets one. -/
theorem get?_put_of_free {bindings : Numbered Nat} {other k id : Nat}
    (hfree : ¬ bindings.contains other = true) (hbound : bindings.get? thread = some id) :
    (bindings.put other k).get? thread = some id := by
  rw [Numbered.get?_put, if_neg]
  · exact hbound
  · rintro rfl
    apply hfree
    rw [Numbered.contains, hbound]
    rfl

/-- **A thread keeps its transaction** unless it suspends it or a transaction is completed. -/
theorem History.current_next {h : History κ σ} {id : Nat} (event : Event κ σ)
    (hcurrent : h.manager.current thread = some id) (hkeeps : ¬ event.Unbinds thread) :
    (h.next p event).manager.current thread = some id := by
  cases event with
  | begin other =>
    simp only [History.next, TransactionManager.begin]
    by_cases hother : h.manager.bindings.contains other = true
    · -- a thread that has a transaction begins none, so the new one is of another thread
      rw [if_pos hother]
      exact hcurrent
    · rw [if_neg hother]
      exact get?_put_of_free hother hcurrent
  | register other participant =>
    simp only [History.next, TransactionManager.register]
    cases h.manager.active.get? other with
    | none => exact hcurrent
    | some t => exact hcurrent
  | suspend other =>
    show (h.manager.bindings.remove other).get? thread = some id
    -- only the thread that suspends loses its transaction
    rw [Numbered.get?_remove, if_neg fun heq => hkeeps heq.symm]
    exact hcurrent
  | resume other k =>
    simp only [History.next, TransactionManager.resume]
    split
    · -- the transaction is not active, or the thread has one already: refused
      exact hcurrent
    · split
      · exact hcurrent
      · next hother => exact get?_put_of_free hother hcurrent
  | setRollbackOnly other =>
    simp only [History.next, TransactionManager.setRollbackOnly]
    cases (h.manager.current other).bind fun k => (h.manager.active.get? k).map (k, ·) with
    | none => exact hcurrent
    | some marked => exact hcurrent
  | complete commit other => exact absurd trivial hkeeps
  | elsewhere world => exact hcurrent

/-- Work keeps the transaction of the thread if nothing that happens takes it away. Induction on the
work. -/
theorem Work.current_run {work : Work κ σ α} {h : History κ σ} {id : Nat}
    (hkeeps : work.All fun event => ¬ event.Unbinds thread)
    (hcurrent : h.manager.current thread = some id) :
    (work.run p h).2.manager.current thread = some id := by
  induction work generalizing h with
  | done result => exact hcurrent
  | act event next ih =>
    obtain ⟨hevent, hnext⟩ := hkeeps
    exact ih (h.next p event) (hnext _) (History.current_next event hcurrent hevent)

/-! ## Work inside a transaction -/

/-- The scope in which a thread works inside transactions. -/
def History.scope (p : Protocol κ σ) (thread : Nat) : TransactionScope (StateM (History κ σ)) where
  begin h := ((h.manager.begin thread).map (·.1), h.next p (.begin thread))
  complete commit h :=
    ((TransactionManager.complete p.recorded commit thread h.manager (h.fired, h.world)).1,
      h.next p (.complete commit thread))

/-- How work inside a transaction ends. The transaction that the thread has when the work is done is
completed; if it has none, there is nothing to complete. The error of the work comes first. -/
inductive Ends (thread : Nat) (result : Except Error α) (worked : History κ σ) :
    Except Error α → History κ σ → Prop where
  | unbound (hnone : worked.manager.current thread = none) :
      Ends thread result worked (result.bind fun _ => .error .noActiveTransaction) worked
  | bound {k : Nat} {t : Transaction (Nat × κ)} {settled : Except Error Unit} {asked : List Firing}
      {outcome : Outcome} (hcurrent : worked.manager.current thread = some k)
      (ht : worked.manager.active.get? k = some t)
      (hsettled : Settlement result.isOk t settled asked outcome) (world : σ) :
      Ends thread result worked (result.bind fun a => settled.map fun _ => a)
        (worked.finish k (asked ++ t.tellings outcome) world)

/-- On a thread that has a transaction no other is begun, and no work is done. -/
theorem inTransaction_of_bound {h : History κ σ} (hbound : h.manager.current thread ≠ none)
    (work : Nat → Work κ σ α) :
    ((History.scope p thread).inTransaction fun id => (work id).run p) h =
      (.error (.refused .transactionOnThread), h) := by
  have hcontains : h.manager.bindings.contains thread = true := Option.isSome_iff_ne_none.2 hbound
  have hbegin : (History.scope p thread).begin h =
      (.error (.refused .transactionOnThread), h) := by
    simp [History.scope, History.next, TransactionManager.begin, hcontains, Except.map]
  unfold TransactionScope.inTransaction
  simp [bind, StateT.bind, hbegin]
  rfl

/-- On a thread that has none a transaction is begun. -/
theorem scope_begin {h : History κ σ} (hfree : h.manager.current thread = none) :
    (History.scope p thread).begin h = (.ok h.manager.next, h.enter thread) := by
  have hcontains : h.manager.bindings.contains thread = false := by
    rw [Numbered.contains, show h.manager.bindings.get? thread = none from hfree]
    rfl
  simp [History.scope, History.next, TransactionManager.begin, hcontains, History.enter, Except.map]

/-- Work is begun in a new transaction, and what the thread has then is completed by its result. -/
theorem inTransaction_eq {h : History κ σ} (hfree : h.manager.current thread = none)
    (work : Nat → Work κ σ α) :
    ((History.scope p thread).inTransaction fun id => (work id).run p) h =
      let worked := (work h.manager.next).run p (h.enter thread)
      let settled := (History.scope p thread).complete worked.1.isOk worked.2
      (worked.1.bind fun a => settled.1.map fun _ => a, settled.2) := by
  have hbegin := scope_begin (p := p) hfree
  unfold TransactionScope.inTransaction
  rcases hworked : (work h.manager.next).run p (h.enter thread) with ⟨result, worked⟩
  rcases hsettled : (History.scope p thread).complete result.isOk worked with ⟨settled, after⟩
  cases result with
  | error e =>
    simp only [Except.isOk, Except.toBool] at hsettled
    simp [bind, StateT.bind, hbegin, hworked, hsettled, Except.isOk, Except.toBool]
    rfl
  | ok a =>
    simp only [Except.isOk, Except.toBool] at hsettled
    cases settled <;>
      simp [bind, StateT.bind, hbegin, hworked, hsettled, Except.isOk, Except.toBool] <;> rfl

/-- A completion settles the transaction that the thread has. -/
theorem ends_complete {worked : History κ σ} (hs : worked.Sound) (result : Except Error α) :
    let settled := (History.scope p thread).complete result.isOk worked
    Ends thread result worked (result.bind fun a => settled.1.map fun _ => a) settled.2 := by
  simp only [History.scope, History.next]
  cases hcurrent : worked.manager.current thread with
  | none =>
    simp only [complete_of_current_none p.recorded _ hcurrent]
    exact .unbound hcurrent
  | some k =>
    obtain ⟨t, ht⟩ := hs.active_of_current hcurrent
    obtain ⟨settled, asked, outcome, world, hsettle, hsettled⟩ :=
      p.settle_recorded result.isOk t worked.fired worked.world
    rw [complete_of_current_some p.recorded _ hcurrent ht, hsettle, List.append_assoc]
    exact .bound hcurrent ht hsettled world

namespace Ends

variable {result answer : Except Error α} {worked after : History κ σ}

/-- The error of the work comes first. -/
theorem answer_of_error {e : Error} (hends : Ends thread (.error e : Except Error α) worked answer after) :
    answer = .error e := by
  cases hends <;> rfl

/-- Exactly the transaction of the thread is completed. -/
theorem active_get? (hends : Ends thread result worked answer after) (k : Nat) :
    after.manager.active.get? k =
      if worked.manager.current thread = some k then none else worked.manager.active.get? k := by
  cases hends with
  | unbound hnone => simp [hnone]
  | bound hcurrent ht hsettled world =>
    show (worked.manager.without _).active.get? k = _
    rw [active_without, hcurrent]
    simp [eq_comm]

/-- After work that failed, the participants are told that the transaction was rolled back. -/
theorem fired_of_error {e : Error} {k : Nat} {t : Transaction (Nat × κ)}
    (hends : Ends thread (.error e : Except Error α) worked answer after)
    (hcurrent : worked.manager.current thread = some k)
    (ht : worked.manager.active.get? k = some t) :
    after.fired = worked.fired ++ t.tellings .rolledBack := by
  cases hends with
  | unbound hnone => cases hcurrent.symm.trans hnone
  | @bound _ _ _ asked outcome hcurrent' ht' hsettled world =>
    cases hcurrent.symm.trans hcurrent'
    cases ht.symm.trans ht'
    have hspared : asked = [] := hsettled.spared (.inl rfl)
    have houtcome : outcome ≠ .committed := fun h => Bool.false_ne_true (hsettled.settled.1 h).1
    cases outcome with
    | committed => exact absurd rfl houtcome
    | rolledBack =>
      rw [hspared]
      rfl

end Ends

/-- Work inside a transaction ends with the transaction that was begun for it, and with no other: it
is over; it was rolled back if the work failed and left it active, with the error of the work as the
answer; and all others are as the work left them. -/
structure EndsOwn (id : Nat) (result : Except Error α) (worked : History κ σ)
    (answer : Except Error α) (after : History κ σ) : Prop where
  gone : after.manager.active.get? id = none
  failed : ∀ e, result = .error e → answer = .error e ∧
    ∀ t, worked.manager.active.get? id = some t →
      after.fired = worked.fired ++ t.tellings .rolledBack
  others : ∀ k, k ≠ id → after.manager.active.get? k = worked.manager.active.get? k

/-- **It ends its own transaction, and no other, exactly if the thread is left with it**, or is left
with none when it is over. -/
theorem Ends.endsOwn_iff {result answer : Except Error α} {worked after : History κ σ} {id : Nat}
    (hends : Ends thread result worked answer after) (hs : worked.Sound) :
    EndsOwn id result worked answer after ↔
      worked.manager.current thread = some id ∨
        (worked.manager.current thread = none ∧ worked.manager.active.get? id = none) := by
  constructor
  · intro hown
    cases hcurrent : worked.manager.current thread with
    | none =>
      -- no transaction is bound: its own was gone before the end, or it would still be there
      have hgone := hown.gone
      rw [hends.active_get?, hcurrent, if_neg (by simp)] at hgone
      exact .inr ⟨rfl, hgone⟩
    | some k =>
      -- the thread's transaction was active and is so no longer, so it is no other one
      obtain ⟨t, ht⟩ := hs.active_of_current hcurrent
      refine .inl (congrArg some (Decidable.byContradiction fun hne => ?_))
      have hkept := hown.others k hne
      rw [hends.active_get?, if_pos hcurrent, ht] at hkept
      cases hkept
  · intro hleft
    refine ⟨?gone, ?failed, ?others⟩
    case gone =>
      rw [hends.active_get?]
      -- bound to its own: the end takes it out
      rcases hleft with hcurrent | ⟨-, hgone⟩
      · rw [if_pos hcurrent]
      · -- gone already: there is nothing to take out
        rw [hgone, ite_self]
    case failed =>
      rintro e rfl
      refine ⟨hends.answer_of_error, fun t ht => ?_⟩
      rcases hleft with hcurrent | ⟨-, hgone⟩
      · exact hends.fired_of_error hcurrent ht
      · cases hgone.symm.trans ht
    case others =>
      intro k hne
      rw [hends.active_get?, if_neg]
      rcases hleft with hcurrent | ⟨hnone, -⟩
      · -- bound to its own, so no other is concerned
        rw [hcurrent]
        exact fun heq => hne (Option.some.inj heq).symm
      · -- bound to none, so nothing ends
        rw [hnone]
        exact nofun

/-- **Work inside a transaction ends with the transaction that the thread has then**, in every
history of a manager and whatever happens in the course of the work. So it ends its own transaction,
and no other, exactly if the work leaves the thread with it, or with none when it is over; and so
does all work in which the thread does not suspend its transaction and none is completed. On a
thread that has a transaction already, no work is done. -/
theorem endsOwn_iff_of_inTransaction (p : Protocol κ σ) {world : σ} {h : History κ σ}
    (hrun : (History.start world).Reaches p h) (thread : Nat) (work : Nat → Work κ σ α) :
    let id := h.manager.next
    let worked := (work id).run p (h.next p (.begin thread))
    let ended := ((History.scope p thread).inTransaction fun id => (work id).run p) h
    (h.manager.current thread ≠ none → ended = (.error (.refused .transactionOnThread), h)) ∧
    (h.manager.current thread = none →
      Ends thread worked.1 worked.2 ended.1 ended.2 ∧
      (EndsOwn id worked.1 worked.2 ended.1 ended.2 ↔
        worked.2.manager.current thread = some id ∨
          (worked.2.manager.current thread = none ∧ worked.2.manager.active.get? id = none)) ∧
      (((work id).All fun event => ¬ event.Unbinds thread) →
        EndsOwn id worked.1 worked.2 ended.1 ended.2)) := by
  intro id worked ended
  refine ⟨fun hbound => inTransaction_of_bound hbound work, fun hfree => ?_⟩
  have henter : h.next p (.begin thread) = h.enter thread :=
    congrArg Prod.snd (scope_begin (p := p) hfree)
  have hs : worked.2.Sound :=
    ((work id).reaches_run (.step (.begin thread) hrun)).sound (.start world)
  have hends : Ends thread worked.1 worked.2 ended.1 ended.2 := by
    have heq : ended = _ := inTransaction_eq hfree work
    rw [heq, ← henter]
    exact ends_complete hs worked.1
  have hown : EndsOwn id worked.1 worked.2 ended.1 ended.2 ↔ _ := hends.endsOwn_iff hs
  refine ⟨hends, hown, fun hkeeps => hown.2 (.inl ?_)⟩
  have hcurrent : (h.next p (.begin thread)).manager.current thread = some id := by
    rw [henter]
    show (h.manager.bindings.put thread id).get? thread = some id
    rw [Numbered.get?_put, if_pos rfl]
  exact Work.current_run hkeeps hcurrent

/-- A thread has begun a transaction and suspended it. -/
def History.suspended : History Bool Nat :=
  [.begin 0, .register 1 true, .suspend 0].foldl (History.next agreement) (.start 0)

/-- Work that takes the suspended transaction up in place of its own, and fails. -/
def takingOver (_ : Nat) : Work Bool Nat Unit :=
  .act (.suspend 0) fun _ => .act (.resume 0 1) fun _ => .done (.error .interrupted)

/-- So another transaction is rolled back, and the one begun for the work stays active. -/
theorem rolls_back_resumed :
    (History.start 0).Reaches agreement History.suspended ∧
    History.suspended.manager.current 0 = none ∧
      let worked := (takingOver 2).run agreement (History.suspended.next agreement (.begin 0))
      let ended := ((History.scope agreement 0).inTransaction fun id =>
        (takingOver id).run agreement) History.suspended
      ended.1 = .error .interrupted ∧ ended.2.fired = [.told 0 .rolledBack] ∧
      ended.2.manager.active.get? 1 = none ∧ ended.2.manager.active.get? 2 = some ⟨false, []⟩ ∧
      ¬ EndsOwn 2 worked.1 worked.2 ended.1 ended.2 := by
  have hrun : (History.start 0).Reaches agreement History.suspended := .foldl .refl _
  have hfree : History.suspended.manager.current 0 = none := rfl
  obtain ⟨-, hends⟩ := endsOwn_iff_of_inTransaction agreement hrun 0 takingOver
  obtain ⟨-, hown, -⟩ := hends hfree
  refine ⟨hrun, hfree, rfl, rfl, rfl, rfl, mt hown.1 ?_⟩
  rintro (hcurrent | ⟨hnone, -⟩)
  · cases hcurrent
  · cases hnone

/-- Work that registers with its transaction, suspends it and fails. -/
def leaving (id : Nat) : Work Bool Nat Unit :=
  .act (.register id true) fun _ =>
    .act (.suspend 0) fun _ => .done (.error (.invalidOperation "boom"))

/-- A transaction that its work suspended is not rolled back. -/
theorem forgets_suspended :
    ¬ ∀ work : Nat → Work Bool Nat Unit,
      let h := History.start 0
      let worked := (work 1).run agreement (h.next agreement (.begin 0))
      let ended := ((History.scope agreement 0).inTransaction fun id => (work id).run agreement) h
      EndsOwn 1 worked.1 worked.2 ended.1 ended.2 := by
  intro hown
  have hgone := (hown leaving).gone
  cases hgone

end ContentRepository.TransactionManager
