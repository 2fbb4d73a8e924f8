import ContentRepository.Proofs.Transaction.Firing
import Mathlib.Data.List.Nodup

/-!
# Histories of a transaction manager

A history is whatever happened to a manager (`LocalTransactionManager`) in the hands of any threads,
in any order, with participants (`Synchronization`) that agree and object as they like. It keeps
what the manager itself forgets: the transactions begun, the registrations made, the transactions
that threads ruled out to be committed, and the calls to participants.

* **`TransactionManager.History.next`** — what an event does.
* **`TransactionManager.History.Sound`** — the invariant that ties bindings, active transactions and
  the calls made so far together; **`Sound.next`** and **`Reaches.sound`** show that it holds.
-/

namespace ContentRepository

namespace TransactionManager

variable {κ σ : Type}

/-- A manager with its past. Participants are registered under numbers. -/
structure History (κ σ : Type) where
  manager : TransactionManager (Nat × κ)
  /-- What participants act on. -/
  world : σ
  /-- The calls made to participants, in their order. -/
  fired : List Firing
  /-- The transactions begun, in their order. -/
  begun : List Nat
  /-- The registrations made, in their order: the number of each and its transaction. -/
  registered : List (Nat × Nat)
  /-- The transactions that threads were bound to when they asked, with success, that it can only be
  rolled back. -/
  marked : List Nat

/-- What may happen. -/
inductive Event (κ σ : Type) where
  | begin (thread : Nat)
  | register (id : Nat) (participant : κ)
  | suspend (thread : Nat)
  | resume (thread id : Nat)
  | setRollbackOnly (thread : Nat)
  | complete (commit : Bool) (thread : Nat)
  /-- What participants act on changes by itself. -/
  | elsewhere (world : σ)

/-! ## Completions -/

/-- What is left when a transaction was taken out. -/
def without (m : TransactionManager κ) (id : Nat) : TransactionManager κ :=
  { m with bindings := m.bindings.keep (· != id), active := m.active.remove id }

/-- A completion on a thread without a transaction is refused. -/
theorem complete_of_current_none (p : Protocol κ σ) (commit : Bool) {m : TransactionManager κ}
    {thread : Nat} (hcurrent : m.current thread = none) (s : σ) :
    TransactionManager.complete p commit thread m s = (.error .noActiveTransaction, m, s) := by
  rw [TransactionManager.complete, take, hcurrent]

/-- A completion takes the transaction out and settles it. -/
theorem complete_of_current_some (p : Protocol κ σ) (commit : Bool) {m : TransactionManager κ}
    {thread id : Nat} {t : Transaction κ} (hcurrent : m.current thread = some id)
    (ht : m.active.get? id = some t) (s : σ) :
    TransactionManager.complete p commit thread m s =
      ((p.settle commit t s).1, m.without id, (p.settle commit t s).2) := by
  rw [TransactionManager.complete, take, hcurrent]
  simp only [ht, Option.map_some]
  rfl

/-- Without an active transaction there is nothing to settle. -/
theorem complete_of_not_active (p : Protocol κ σ) (commit : Bool) {m : TransactionManager κ}
    {thread id : Nat} (hcurrent : m.current thread = some id) (ht : m.active.get? id = none)
    (s : σ) : TransactionManager.complete p commit thread m s =
      (.error .noActiveTransaction, m.without id, s) := by
  rw [TransactionManager.complete, take, hcurrent]
  simp only [ht, Option.map_none]
  rfl

/-- A transaction taken out is bound to no thread. -/
theorem current_without (m : TransactionManager κ) (id thread : Nat) :
    (m.without id).current thread ≠ some id := by
  intro hcurrent
  have hmem := Numbered.mem_entries_of_get? hcurrent
  have := (Numbered.mem_entries_keep.1 hmem).2
  simp at this

/-- A thread that is bound to another transaction still is. -/
theorem current_without_of_ne {m : TransactionManager κ} {id other thread : Nat} (hne : other ≠ id)
    (hcurrent : m.current thread = some other) : (m.without id).current thread = some other :=
  Numbered.get?_keep_of_get? hcurrent (by simpa using hne)

@[simp]
theorem active_without (m : TransactionManager κ) (id k : Nat) :
    (m.without id).active.get? k = if k = id then none else m.active.get? k :=
  Numbered.get?_remove _ _ _

namespace History

/-- Nothing happened yet. -/
def start (world : σ) : History κ σ := ⟨.start, world, [], [], [], []⟩

/-- The history with another manager, unless there was an error. -/
def withManager (h : History κ σ) : Except Error (TransactionManager (Nat × κ)) → History κ σ
  | .ok manager => { h with manager }
  | .error _ => h

/-- The history after an event. -/
def next (p : Protocol κ σ) (h : History κ σ) : Event κ σ → History κ σ
  | .begin thread =>
    match h.manager.begin thread with
    | .ok (id, manager) => { h with manager, begun := h.begun ++ [id] }
    | .error _ => h
  | .register id participant =>
    match h.manager.register id (h.registered.length, participant) with
    | .ok manager =>
      { h with manager, registered := h.registered ++ [(h.registered.length, id)] }
    | .error _ => h
  | .suspend thread => { h with manager := (h.manager.suspend thread).2 }
  | .resume thread id => h.withManager (h.manager.resume thread id)
  | .setRollbackOnly thread =>
    match h.manager.setRollbackOnly thread with
    | .ok manager => { h with manager, marked := h.marked ++ (h.manager.current thread).toList }
    | .error _ => h
  | .complete commit thread =>
    let (_, manager, fired, world) :=
      TransactionManager.complete p.recorded commit thread h.manager (h.fired, h.world)
    { h with manager, fired, world }
  | .elsewhere world => { h with world }

/-- The second history continues the first. -/
inductive Reaches (p : Protocol κ σ) (h : History κ σ) : History κ σ → Prop where
  | refl : Reaches p h h
  | step {later : History κ σ} (event : Event κ σ) (hrun : Reaches p h later) :
      Reaches p h (later.next p event)

/-! ## What events come to -/

/-- Threads are bound to other transactions. -/
def rebind (h : History κ σ) (bindings : Numbered Nat) : History κ σ :=
  { h with manager := { h.manager with bindings } }

/-- A transaction is begun. -/
def enter (h : History κ σ) (thread : Nat) : History κ σ :=
  { h with
    manager :=
      { next := h.manager.next + 1
        bindings := h.manager.bindings.put thread h.manager.next
        active := h.manager.active.put h.manager.next ⟨false, []⟩ }
    begun := h.begun ++ [h.manager.next] }

/-- A transaction can only be rolled back. -/
def mark (h : History κ σ) (id : Nat) (t : Transaction (Nat × κ)) : History κ σ :=
  { h with
    manager :=
      { h.manager with
        active := h.manager.active.put id { t with rollbackOnly := true } }
    marked := h.marked ++ [id] }

/-- A participant is registered. -/
def enrol (h : History κ σ) (id : Nat) (t : Transaction (Nat × κ)) (participant : κ) :
    History κ σ :=
  { h with
    manager :=
      { h.manager with
        active := h.manager.active.put id
          ⟨t.rollbackOnly, t.participants ++ [(h.registered.length, participant)]⟩ }
    registered := h.registered ++ [(h.registered.length, id)] }

/-- A transaction is completed with calls to participants. -/
def finish (h : History κ σ) (id : Nat) (calls : List Firing) (world : σ) : History κ σ :=
  { h with manager := h.manager.without id, world, fired := h.fired ++ calls }

theorem active_enter (h : History κ σ) (thread id : Nat) :
    (h.enter thread).manager.active.get? id =
      if id = h.manager.next then some ⟨false, []⟩ else h.manager.active.get? id :=
  Numbered.get?_put _ _ _ _

@[simp] theorem registered_enter (h : History κ σ) (thread : Nat) :
    (h.enter thread).registered = h.registered := rfl

@[simp] theorem registered_enrol (h : History κ σ) (id : Nat) (t : Transaction (Nat × κ))
    (participant : κ) : (h.enrol id t participant).registered =
      h.registered ++ [(h.registered.length, id)] := rfl

theorem active_mark (h : History κ σ) (id : Nat) (t : Transaction (Nat × κ)) (k : Nat) :
    (h.mark id t).manager.active.get? k =
      if k = id then some { t with rollbackOnly := true } else h.manager.active.get? k :=
  Numbered.get?_put _ _ _ _

theorem active_enrol (h : History κ σ) (id : Nat) (t : Transaction (Nat × κ)) (participant : κ)
    (k : Nat) : (h.enrol id t participant).manager.active.get? k =
      if k = id then
        some ⟨t.rollbackOnly, t.participants ++ [(h.registered.length, participant)]⟩
      else h.manager.active.get? k :=
  Numbered.get?_put _ _ _ _

@[simp] theorem marked_mark (h : History κ σ) (id : Nat) (t : Transaction (Nat × κ)) :
    (h.mark id t).marked = h.marked ++ [id] := rfl

/-- What an event may come to. -/
inductive Step (h : History κ σ) : History κ σ → Prop where
  | elsewhere (world : σ) : Step h { h with world }
  | rebind {bindings : Numbered Nat}
      (hbound : ∀ e ∈ bindings.entries, ∃ t, h.manager.active.get? e.2 = some t) :
      Step h (h.rebind bindings)
  | enter (thread : Nat) : Step h (h.enter thread)
  | mark {id : Nat} {t : Transaction (Nat × κ)} (ht : h.manager.active.get? id = some t) :
      Step h (h.mark id t)
  | enrol {id : Nat} {t : Transaction (Nat × κ)} (ht : h.manager.active.get? id = some t)
      (participant : κ) : Step h (h.enrol id t participant)
  | finish {id : Nat} {t : Transaction (Nat × κ)} {commit : Bool} {result : Except Error Unit}
      {asked : List Firing} {outcome : Outcome} (ht : h.manager.active.get? id = some t)
      (hsettled : Settlement commit t result asked outcome) (world : σ) :
      Step h (h.finish id (asked ++ t.tellings outcome) world)

/-- What holds of every history. -/
structure Sound (h : History κ σ) : Prop where
  /-- Threads are bound to active transactions. -/
  bound : ∀ e ∈ h.manager.bindings.entries, ∃ t, h.manager.active.get? e.2 = some t
  /-- Transactions are begun in ascending order of their numbers. -/
  ascending : h.begun.Pairwise (· < ·)
  below : ∀ id ∈ h.begun, id < h.manager.next
  begunActive : ∀ id t, h.manager.active.get? id = some t → id ∈ h.begun
  /-- The participants of an active transaction are those registered with it. -/
  participants : ∀ id t, h.manager.active.get? id = some t →
    t.participants.map (·.1) = (h.registered.filter (·.2 == id)).map (·.1)
  /-- Registrations are numbered from zero on, and made with transactions that were begun. -/
  numbers : h.registered.map (·.1) = List.range h.registered.length
  registeredBegun : ∀ r ∈ h.registered, r.2 ∈ h.begun
  /-- The active transactions that can only be rolled back are those that were marked. -/
  marks : ∀ id t, h.manager.active.get? id = some t → (t.rollbackOnly = true ↔ id ∈ h.marked)
  markedBegun : ∀ id ∈ h.marked, id ∈ h.begun
  /-- Participants are called only when their transaction is over. -/
  ended : ∀ f ∈ h.fired, ∃ id, (f.callback.1, id) ∈ h.registered ∧
    h.manager.active.get? id = none
  /-- All that were registered are told by then. -/
  told : ∀ r ∈ h.registered, h.manager.active.get? r.2 = none →
    (r.1, true) ∈ h.fired.map (·.callback)
  /-- No callback is called twice. -/
  once : (h.fired.map (·.callback)).Nodup

namespace Sound

variable {h : History κ σ}

theorem start (world : σ) : (History.start world : History κ σ).Sound := by
  refine ⟨?_, .nil, ?_, ?_, ?_, rfl, ?_, ?_, ?_, ?_, ?_, .nil⟩
  all_goals intros; contradiction

/-- A thread is bound to an active transaction only. -/
theorem active_of_current (hs : h.Sound) {thread id : Nat}
    (hcurrent : h.manager.current thread = some id) :
    ∃ t, h.manager.active.get? id = some t :=
  hs.bound _ (Numbered.mem_entries_of_get? hcurrent)

/-- Threads are bound to active transactions also when one of these changes. -/
theorem bound_put (hs : h.Sound) {id : Nat} {t : Transaction (Nat × κ)}
    (ht : h.manager.active.get? id = some t) (t' : Transaction (Nat × κ)) :
    ∀ e ∈ h.manager.bindings.entries, ∃ u, (h.manager.active.put id t').get? e.2 = some u := by
  intro e he
  obtain ⟨u, hu⟩ := hs.bound e he
  refine Option.ne_none_iff_exists'.1 fun heq => ?_
  rw [(Numbered.get?_put_eq_none_iff ht e.2).1 heq] at hu
  cases hu

/-! ## What single events keep -/

/-- Threads may be bound to other active transactions. -/
theorem rebind (hs : h.Sound) {bindings : Numbered Nat}
    (hbound : ∀ e ∈ bindings.entries, ∃ t, h.manager.active.get? e.2 = some t) :
    (h.rebind bindings).Sound :=
  { hs with bound := hbound }

/-- A transaction may be begun, under a new number. -/
theorem enter (hs : h.Sound) (thread : Nat) : (h.enter thread).Sound := by
  -- the number is a new one
  have hnew : h.manager.next ∉ h.begun := fun hmem => Nat.lt_irrefl _ (hs.below _ hmem)
  have hget : ∀ id, id ∈ h.begun →
      (h.enter thread).manager.active.get? id = h.manager.active.get? id := by
    intro id hid
    rw [active_enter, if_neg]
    rintro rfl
    exact hnew hid
  refine ⟨?bound, ?ascending, ?below, ?begunActive, ?participants, hs.numbers, ?registeredBegun,
    ?marks, ?markedBegun, ?ended, ?told, hs.once⟩
  case bound =>
    intro e he
    rcases Numbered.mem_entries_of_put he with rfl | he
    · -- the binding that was made is to the transaction that was begun
      exact ⟨_, by rw [active_enter, if_pos rfl]⟩
    · obtain ⟨t, ht⟩ := hs.bound e he
      exact ⟨t, (hget e.2 (hs.begunActive e.2 t ht)).trans ht⟩
  case ascending =>
    refine List.pairwise_append.2 ⟨hs.ascending, List.pairwise_singleton _ _, ?_⟩
    intro a ha b hb
    rw [List.mem_singleton.1 hb]
    exact hs.below a ha
  case below =>
    intro id hid
    show id < h.manager.next + 1
    rcases List.mem_append.1 hid with hid | hid
    · have := hs.below id hid
      omega
    · have := List.mem_singleton.1 hid
      omega
  case begunActive =>
    intro id t ht
    rw [active_enter] at ht
    split at ht
    · next heq => exact List.mem_append_right _ (List.mem_singleton.2 heq)
    · exact List.mem_append_left _ (hs.begunActive id t ht)
  case participants =>
    intro id t ht
    rw [active_enter] at ht
    split at ht
    · next heq =>
      cases ht
      -- nobody has registered with a number that was not given out
      have hnone : h.registered.filter (·.2 == id) = [] := by
        refine List.filter_eq_nil_iff.2 fun r hr heq' => hnew ?_
        rw [← heq, ← beq_iff_eq.1 heq']
        exact hs.registeredBegun r hr
      rw [registered_enter, hnone]
      rfl
    · exact hs.participants id t ht
  case registeredBegun => exact fun r hr => List.mem_append_left _ (hs.registeredBegun r hr)
  case marks =>
    intro id t ht
    rw [active_enter] at ht
    split at ht
    · next heq =>
      cases ht
      -- nor was it marked
      exact ⟨nofun, fun hmem => absurd (hs.markedBegun id hmem) (heq ▸ hnew)⟩
    · exact hs.marks id t ht
  case markedBegun => exact fun id hid => List.mem_append_left _ (hs.markedBegun id hid)
  case ended =>
    intro f hf
    obtain ⟨id, hmem, hnone⟩ := hs.ended f hf
    exact ⟨id, hmem, (hget id (hs.registeredBegun _ hmem)).trans hnone⟩
  case told =>
    intro r hr hnone
    rw [hget r.2 (hs.registeredBegun r hr)] at hnone
    exact hs.told r hr hnone

/-- An active transaction may be marked. -/
theorem mark (hs : h.Sound) {id : Nat} {t : Transaction (Nat × κ)}
    (ht : h.manager.active.get? id = some t) : (h.mark id t).Sound := by
  have hnone : ∀ k, (h.mark id t).manager.active.get? k = none ↔
      h.manager.active.get? k = none := Numbered.get?_put_eq_none_iff ht
  -- a mark changes nothing about who takes part
  have hcases : ∀ k u, (h.mark id t).manager.active.get? k = some u →
      ∃ v, h.manager.active.get? k = some v ∧ v.participants = u.participants := by
    intro k u hu
    rw [active_mark] at hu
    split at hu
    · next heq =>
      cases hu
      exact ⟨t, heq ▸ ht, rfl⟩
    · exact ⟨u, hu, rfl⟩
  refine ⟨?bound, hs.ascending, hs.below, ?begunActive, ?participants, hs.numbers,
    hs.registeredBegun, ?marks, ?markedBegun, ?ended, ?told, hs.once⟩
  case bound => exact hs.bound_put ht _
  case begunActive =>
    intro k u hu
    obtain ⟨v, hv, -⟩ := hcases k u hu
    exact hs.begunActive k v hv
  case participants =>
    intro k u hu
    obtain ⟨v, hv, hsame⟩ := hcases k u hu
    rw [← hsame]
    exact hs.participants k v hv
  case marks =>
    intro k u hu
    rw [marked_mark, List.mem_append, List.mem_singleton]
    rw [active_mark] at hu
    split at hu
    · -- this one is marked now
      next heq =>
      cases hu
      exact ⟨fun _ => .inr heq, fun _ => rfl⟩
    · -- and the marks of the others are as before
      next hne =>
      rw [or_iff_left hne]
      exact hs.marks k u hu
  case markedBegun =>
    intro k hk
    rcases List.mem_append.1 hk with hk | hk
    · exact hs.markedBegun k hk
    · rw [List.mem_singleton.1 hk]
      exact hs.begunActive id t ht
  case ended =>
    intro f hf
    obtain ⟨k, hmem, hk⟩ := hs.ended f hf
    exact ⟨k, hmem, (hnone k).2 hk⟩
  case told =>
    intro r hr hr'
    exact hs.told r hr ((hnone r.2).1 hr')

/-- A participant may be registered with an active transaction. -/
theorem enrol (hs : h.Sound) {id : Nat} {t : Transaction (Nat × κ)}
    (ht : h.manager.active.get? id = some t) (participant : κ) :
    (h.enrol id t participant).Sound := by
  have hnone : ∀ k, (h.enrol id t participant).manager.active.get? k = none ↔
      h.manager.active.get? k = none := Numbered.get?_put_eq_none_iff ht
  refine ⟨?bound, hs.ascending, hs.below, ?begunActive, ?participants, ?numbers,
    ?registeredBegun, ?marks, hs.markedBegun, ?ended, ?told, hs.once⟩
  case bound => exact hs.bound_put ht _
  case begunActive =>
    intro k u hu
    rw [active_enrol] at hu
    split at hu
    · next heq => exact heq ▸ hs.begunActive id t ht
    · exact hs.begunActive k u hu
  case participants =>
    intro k u hu
    rw [active_enrol] at hu
    split at hu
    · next heq =>
      -- the transaction enrolled in gains the last registration, which has its id
      cases hu
      subst heq
      rw [List.map_append, hs.participants k t ht, registered_enrol, List.filter_append,
        List.map_append]
      simp
    · next hne =>
      -- the registration is none of another transaction
      rw [registered_enrol, List.filter_append, List.map_append, ← hs.participants k u hu]
      simp [Ne.symm hne]
  case numbers =>
    rw [registered_enrol, List.map_append, hs.numbers, List.length_append, List.length_singleton,
      List.range_succ]
    rfl
  case registeredBegun =>
    intro r hr
    rcases List.mem_append.1 hr with hr | hr
    · exact hs.registeredBegun r hr
    · rw [List.mem_singleton.1 hr]
      exact hs.begunActive id t ht
  case marks =>
    intro k u hu
    rw [active_enrol] at hu
    split at hu
    · next heq =>
      cases hu
      -- enrolling does not touch the mark
      exact heq ▸ hs.marks id t ht
    · exact hs.marks k u hu
  case ended =>
    intro f hf
    obtain ⟨k, hmem, hk⟩ := hs.ended f hf
    exact ⟨k, List.mem_append_left _ hmem, (hnone k).2 hk⟩
  case told =>
    intro r hr hr'
    have hr'' := (hnone r.2).1 hr'
    rcases List.mem_append.1 hr with hr | hr
    · exact hs.told r hr hr''
    · -- the transaction just enrolled in is active, so nobody has been told of its end
      rw [List.mem_singleton.1 hr, ht] at hr''
      cases hr''

/-- Two registrations have different numbers. -/
theorem registered_inj (hs : h.Sound) {n id other : Nat} (hid : (n, id) ∈ h.registered)
    (hother : (n, other) ∈ h.registered) : id = other := by
  have hnodup : (h.registered.map (·.1)).Nodup := by
    rw [hs.numbers]
    exact List.nodup_range
  exact congrArg Prod.snd (List.inj_on_of_nodup_map hnodup hid hother rfl)

/-- The participants of a transaction are different registrations. -/
theorem nodup_participants (hs : h.Sound) {id : Nat} {t : Transaction (Nat × κ)}
    (ht : h.manager.active.get? id = some t) : (t.participants.map (·.1)).Nodup := by
  rw [hs.participants id t ht]
  -- they are some of the numbers from zero on
  refine List.Nodup.sublist (List.filter_sublist.map _) ?_
  rw [hs.numbers]
  exact List.nodup_range

/-- An active transaction may be completed, with calls to its participants as they should be. -/
theorem finish (hs : h.Sound) {id : Nat} {t : Transaction (Nat × κ)} {commit : Bool}
    {result : Except Error Unit} {asked : List Firing} {outcome : Outcome}
    (ht : h.manager.active.get? id = some t) (hsettled : Settlement commit t result asked outcome)
    (world : σ) : (h.finish id (asked ++ t.tellings outcome) world).Sound := by
  have hget : ∀ k, k ≠ id → (h.manager.without id).active.get? k = h.manager.active.get? k := by
    intro k hk
    rw [active_without, if_neg hk]
  have hgone : (h.manager.without id).active.get? id = none := by
    rw [active_without, if_pos rfl]
  have hold : ∀ k u, (h.manager.without id).active.get? k = some u →
      k ≠ id ∧ h.manager.active.get? k = some u := by
    intro k u hu
    rw [active_without] at hu
    split at hu
    · cases hu
    · next hne => exact ⟨hne, hu⟩
  -- the participants are the registrations with the transaction
  have hregistered : ∀ n, n ∈ t.participants.map (·.1) ↔ (n, id) ∈ h.registered := by
    intro n
    rw [hs.participants id t ht]
    simp
  have hasked : ∀ f ∈ asked, (f.callback.1, id) ∈ h.registered := by
    intro f hf
    obtain ⟨k, hk, heq⟩ := List.mem_map.1
      (hsettled.callbacks_asked_prefix.subset (List.mem_map_of_mem hf))
    rw [← heq]
    exact (hregistered k.1).1 (List.mem_map_of_mem hk)
  have htold : ∀ f ∈ t.tellings outcome, (f.callback.1, id) ∈ h.registered := by
    intro f hf
    obtain ⟨k, hk, rfl⟩ := List.mem_map.1 hf
    exact (hregistered k.1).1 (List.mem_map_of_mem hk)
  refine ⟨?bound, hs.ascending, hs.below, ?begunActive, ?participants, hs.numbers,
    hs.registeredBegun, ?marks, hs.markedBegun, ?ended, ?told, ?once⟩
  case bound =>
    intro e he
    obtain ⟨he, hne⟩ := Numbered.mem_entries_keep.1 he
    obtain ⟨u, hu⟩ := hs.bound e he
    exact ⟨u, (hget e.2 (by simpa using hne)).trans hu⟩
  case begunActive => exact fun k u hu => hs.begunActive k u (hold k u hu).2
  case participants => exact fun k u hu => hs.participants k u (hold k u hu).2
  case marks => exact fun k u hu => hs.marks k u (hold k u hu).2
  case ended =>
    intro f hf
    rcases List.mem_append.1 hf with hf | hf
    · obtain ⟨k, hmem, hk⟩ := hs.ended f hf
      refine ⟨k, hmem, ?_⟩
      -- called back before: that transaction was over, or is over now
      by_cases heq : k = id
      · exact heq ▸ hgone
      · exact (hget k heq).trans hk
    · -- called back now, for the transaction that ends here
      exact ⟨id, (List.mem_append.1 hf).elim (hasked f) (htold f), hgone⟩
  case told =>
    intro r hr hnone
    show (r.1, true) ∈ (h.fired ++ (asked ++ t.tellings outcome)).map Firing.callback
    rw [List.map_append, List.map_append, t.callbacks_tellings]
    by_cases heq : r.2 = id
    · -- it took part in this transaction, so it is told now
      have hmem : r.1 ∈ t.participants.map (·.1) := (hregistered r.1).2 (heq ▸ hr)
      obtain ⟨k, hk, hrk⟩ := List.mem_map.1 hmem
      refine List.mem_append_right _ (List.mem_append_right _ ?_)
      exact List.mem_map.2 ⟨k, hk, by rw [hrk]⟩
    · -- it took part in another that was over before, and was told then
      exact List.mem_append_left _ (hs.told r hr ((hget r.2 heq).symm.trans hnone))
  case once =>
    -- all that was called before belongs to a transaction that was over, unlike this one
    have hfresh : ∀ f ∈ h.fired, (f.callback.1, id) ∉ h.registered := by
      intro f hf hmem
      obtain ⟨k, hmem', hnone⟩ := hs.ended f hf
      rw [← hs.registered_inj hmem hmem', ht] at hnone
      cases hnone
    show ((h.fired ++ (asked ++ t.tellings outcome)).map Firing.callback).Nodup
    rw [List.map_append, List.nodup_append]
    refine ⟨hs.once, hsettled.callbacks_nodup (hs.nodup_participants ht), ?_⟩
    intro a ha b hb heq
    obtain ⟨f, hf, rfl⟩ := List.mem_map.1 ha
    obtain ⟨g, hg, rfl⟩ := List.mem_map.1 hb
    exact hfresh f hf (heq ▸ (List.mem_append.1 hg).elim (hasked g) (htold g))

end Sound

namespace Step

variable {h h' : History κ σ}

/-- Every step keeps the invariant. -/
theorem sound (hstep : h.Step h') (hs : h.Sound) : h'.Sound := by
  cases hstep with
  | elsewhere world => exact { hs with }
  | rebind hbound => exact hs.rebind hbound
  | enter thread => exact hs.enter thread
  | mark ht => exact hs.mark ht
  | enrol ht participant => exact hs.enrol ht participant
  | finish ht hsettled world => exact hs.finish ht hsettled world

/-- A transaction that is over stays so. -/
theorem ended (hstep : h.Step h') (hs : h.Sound) {id : Nat} (hid : id ∈ h.begun)
    (hover : h.manager.active.get? id = none) :
    id ∈ h'.begun ∧ h'.manager.active.get? id = none := by
  cases hstep with
  | elsewhere world => exact ⟨hid, hover⟩
  | rebind hbound => exact ⟨hid, hover⟩
  | enter thread =>
    refine ⟨List.mem_append_left _ hid, ?_⟩
    rw [active_enter, if_neg (Nat.ne_of_lt (hs.below id hid))]
    exact hover
  | mark ht => exact ⟨hid, (Numbered.get?_put_eq_none_iff ht id).2 hover⟩
  | enrol ht participant => exact ⟨hid, (Numbered.get?_put_eq_none_iff ht id).2 hover⟩
  | finish ht hsettled world =>
    refine ⟨hid, ?_⟩
    show (h.manager.without _).active.get? id = none
    rw [active_without, hover, ite_self]

end Step

/-- Every event comes to a step. -/
theorem Sound.step {h : History κ σ} (hs : h.Sound) (p : Protocol κ σ) (event : Event κ σ) :
    h.Step (h.next p event) := by
  -- an event that is refused leaves the history as it is
  have hstay : h.Step h := .elsewhere h.world
  cases event with
  | begin thread =>
    simp only [History.next, TransactionManager.begin]
    split
    · next heq =>
      split at heq
      · cases heq
      · -- a new transaction, bound to the thread
        cases heq
        exact .enter thread
    · exact hstay
  | register id participant =>
    simp only [History.next, TransactionManager.register]
    cases ht : h.manager.active.get? id with
    | none => exact hstay
    | some t => exact .enrol ht participant
  -- what is bound afterwards was bound before
  | suspend thread => exact .rebind fun e he => hs.bound e (Numbered.mem_entries_of_remove he)
  | resume thread id =>
    simp only [History.next, TransactionManager.resume]
    split
    · exact hstay
    · next hactive =>
      split
      · exact hstay
      · -- the thread was free and the transaction is active: the binding is a good one
        refine .rebind fun e he => ?_
        rcases Numbered.mem_entries_of_put he with rfl | he
        · exact Option.ne_none_iff_exists'.1 (by simpa [Numbered.contains] using hactive)
        · exact hs.bound e he
  | setRollbackOnly thread =>
    simp only [History.next, TransactionManager.setRollbackOnly]
    cases hcurrent : h.manager.current thread with
    | none => exact hstay
    | some id =>
      obtain ⟨t, ht⟩ := hs.active_of_current hcurrent
      rw [Option.bind_some, ht]
      exact .mark ht
  | complete commit thread =>
    simp only [History.next]
    cases hcurrent : h.manager.current thread with
    | none => simpa only [complete_of_current_none p.recorded commit hcurrent] using hstay
    | some id =>
      -- a bound transaction is active, so it is settled
      obtain ⟨t, ht⟩ := hs.active_of_current hcurrent
      obtain ⟨result, asked, outcome, world, hsettle, hsettled⟩ :=
        p.settle_recorded commit t h.fired h.world
      rw [complete_of_current_some p.recorded commit hcurrent ht, hsettle, List.append_assoc]
      exact .finish ht hsettled world
  | elsewhere world => exact .elsewhere world

namespace Reaches

variable {p : Protocol κ σ} {h later : History κ σ}

/-- Events may come in any order. -/
theorem foldl (hrun : h.Reaches p later) (events : List (Event κ σ)) :
    h.Reaches p (events.foldl (History.next p) later) := by
  induction events generalizing later with
  | nil => exact hrun
  | cons event rest ih => exact ih (.step event hrun)

/-- **Every history of a manager is sound.** -/
theorem sound (hrun : h.Reaches p later) (hs : h.Sound) : later.Sound := by
  induction hrun with
  | refl => exact hs
  | step event _ ih => exact (ih.step p event).sound ih

theorem ended (hrun : h.Reaches p later) (hs : h.Sound) {id : Nat} (hid : id ∈ h.begun)
    (hover : h.manager.active.get? id = none) :
    id ∈ later.begun ∧ later.manager.active.get? id = none := by
  induction hrun with
  | refl => exact ⟨hid, hover⟩
  | step event hrun ih => exact ((hrun.sound hs).step p event).ended (hrun.sound hs) ih.1 ih.2

end Reaches

end History

end TransactionManager

end ContentRepository
