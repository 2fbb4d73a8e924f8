import ContentRepository.Proofs.Repository.Books
import ContentRepository.Proofs.Repository.Contexts
import Mathlib.Data.List.Nodup
import Mathlib.Data.List.Pairwise

/-!
# Grants and the books

A grant is a connection that a host has given: what a call of `get_session` came to. The invariant
`Host.Books.Kept` ties the books to all grants so far and to the connections that were closed.

* **`Host.Books.Kept`** — the invariant; **`Host.Books.ContextKept`** is its part for one context.
* **`Kept.begin`**, **`Kept.retire`**, **`Kept.release`**, **`Kept.apart`**, **`Kept.enter`**,
  **`Kept.join`**, **`Kept.closeHandle`** and **`Kept.closeSession`** — what happens to the books
  keeps it.
-/

namespace ContentRepository

/-- The number of a handle in a context, for a handle of that context. -/
def Connection.numberIn (context : Nat) : Connection → Option Nat
  | .session _ => none
  | .handle _ n number => if n = context then some number else none

theorem Connection.numberIn_self (id : String) (context number : Nat) :
    (Connection.handle id context number).numberIn context = some number := if_pos rfl

namespace Host

/-- A connection that was given. -/
structure Grant where
  /-- The transaction it was given in. -/
  transaction : Option Nat
  id : String
  connection : Connection

namespace Books

/-! ## The invariant -/

/-- What holds of a context by number. -/
structure ContextKept (b : Books) (grants : List Grant) (n : Nat) (c : Context) : Prop where
  below : n < b.next
  sessionBelow : c.session < b.next
  running : c.completed = false →
    b.registry c.transaction = some n ∧ (b.parties c.transaction).isSome ∧ b.live c.session = true
  ended : c.completed = true →
    c.handles = [] ∧ b.parties c.transaction = none ∧ b.live c.session = false
  /-- It was made for a grant. -/
  given : ∃ g ∈ grants, g.transaction = some c.transaction
  /-- Its handles were given under ascending numbers. -/
  issued : grants.filterMap (·.connection.numberIn n) = List.range c.nextHandle
  /-- Its list of handles agrees with their flags. -/
  agrees : c.Agrees

/-- The books fit the grants and the connections that were closed. -/
structure Kept (b : Books) (grants : List Grant) (closed : List Connection) : Prop where
  context : ∀ n c, b.contexts n = some c → b.ContextKept grants n c
  /-- No two contexts share a session, nor a transaction. -/
  session : ∀ n c n' c', b.contexts n = some c → b.contexts n' = some c' →
    c.session = c'.session → n = n'
  transaction : ∀ n c n' c', b.contexts n = some c → b.contexts n' = some c' →
    c.transaction = c'.transaction → n = n'
  registered : ∀ tx n, b.registry tx = some n →
    ∃ c, b.contexts n = some c ∧ c.transaction = tx ∧ c.completed = false
  /-- In an active transaction the context that is registered takes part, and no other. -/
  parties : ∀ tx ns, b.parties tx = some ns → ns = (b.registry tx).toList ∧ tx < b.begun
  /-- A grant in a transaction is a handle on its context, which is open until either is closed. -/
  handle : ∀ g ∈ grants, ∀ tx, g.transaction = some tx → tx < b.begun ∧
    ∃ n k c, g.connection = .handle g.id n k ∧ b.contexts n = some c ∧ c.transaction = tx ∧
      (k ∈ c.handles ↔ c.completed = false ∧ g.connection ∉ closed)
  /-- A grant outside of transactions is a session that no context has. -/
  alone : ∀ g ∈ grants, g.transaction = none →
    ∃ k, g.connection = .session k ∧ k < b.next ∧ ∀ n c, b.contexts n = some c → c.session ≠ k
  closed : ∀ c ∈ closed, ∃ g ∈ grants, g.connection = c

/-- The books with another context under a number. -/
def put (b : Books) (n : Nat) (c : Context) : Books :=
  { b with contexts := fun m => if m = n then some c else b.contexts m }

theorem contexts_put_eq_some {b : Books} {n m : Nat} {c d : Context} :
    (b.put n c).contexts m = some d ↔ (m = n ∧ d = c) ∨ (m ≠ n ∧ b.contexts m = some d) := by
  rw [put]
  by_cases heq : m = n
  · simp [heq, eq_comm]
  · simp [heq]

namespace ContextKept

variable {b b' : Books} {grants : List Grant} {n : Nat} {c : Context}

/-- Books that say the same about a context will do as well. -/
theorem of_books (h : b.ContextKept grants n c) (hnext : b.next ≤ b'.next)
    (hregistry : b'.registry c.transaction = b.registry c.transaction)
    (hparties : b'.parties c.transaction = b.parties c.transaction)
    (hlive : b'.live c.session = b.live c.session) : b'.ContextKept grants n c := by
  refine ⟨Nat.lt_of_lt_of_le h.below hnext, Nat.lt_of_lt_of_le h.sessionBelow hnext, ?_, ?_,
    h.given, h.issued, h.agrees⟩
  · rw [hregistry, hparties, hlive]
    exact h.running
  · rw [hparties, hlive]
    exact h.ended

/-- Connections elsewhere are given without regard to a context. -/
theorem append (h : b.ContextKept grants n c) {g : Grant} (hg : g.connection.numberIn n = none) :
    b.ContextKept (grants ++ [g]) n c := by
  obtain ⟨g', hg', htx⟩ := h.given
  refine ⟨h.below, h.sessionBelow, h.running, h.ended, ⟨g', List.mem_append_left _ hg', htx⟩, ?_,
    h.agrees⟩
  have hnil : [g].filterMap (·.connection.numberIn n) = [] := by simp [hg]
  rw [List.filterMap_append, h.issued, hnil, List.append_nil]

end ContextKept

namespace Kept

variable {b : Books} {grants : List Grant} {closed : List Connection}

/-- Nothing is in the books at first. -/
theorem start (hcontexts : ∀ n, b.contexts n = none) (hregistry : ∀ tx, b.registry tx = none)
    (hparties : ∀ tx, b.parties tx = none) : b.Kept [] [] := by
  refine ⟨?_, ?_, ?_, ?_, ?_, nofun, nofun, nofun⟩
  · intro n c hc
    rw [hcontexts] at hc
    cases hc
  · intro n c n' c' hc
    rw [hcontexts] at hc
    cases hc
  · intro n c n' c' hc
    rw [hcontexts] at hc
    cases hc
  · intro tx n hn
    rw [hregistry] at hn
    cases hn
  · intro tx ns hns
    rw [hparties] at hns
    cases hns

/-- The transaction of a context was begun. -/
theorem transaction_lt (hk : b.Kept grants closed) {n : Nat} {c : Context}
    (hc : b.contexts n = some c) : c.transaction < b.begun := by
  obtain ⟨g, hg, htx⟩ := (hk.context n c hc).given
  exact (hk.handle g hg _ htx).1

/-- Handles of a context have numbers below the next one. -/
theorem number_lt (hk : b.Kept grants closed) {g : Grant} (hg : g ∈ grants) {n k : Nat}
    {c : Context} (hc : b.contexts n = some c) (hnumber : g.connection.numberIn n = some k) :
    k < c.nextHandle := by
  have hmem : k ∈ grants.filterMap (·.connection.numberIn n) :=
    List.mem_filterMap.2 ⟨g, hg, hnumber⟩
  rw [(hk.context n c hc).issued] at hmem
  exact List.mem_range.1 hmem

/-- Handles are given on contexts that exist. -/
theorem exists_context (hk : b.Kept grants closed) {g : Grant} (hg : g ∈ grants) {n k : Nat}
    (hnumber : g.connection.numberIn n = some k) : ∃ c, b.contexts n = some c := by
  cases htx : g.transaction with
  | none =>
    obtain ⟨s, hconnection, -⟩ := hk.alone g hg htx
    rw [hconnection] at hnumber
    cases hnumber
  | some tx =>
    obtain ⟨-, m, k', c, hconnection, hc, -⟩ := hk.handle g hg tx htx
    rw [hconnection, Connection.numberIn] at hnumber
    split at hnumber
    · next heq => exact ⟨c, heq ▸ hc⟩
    · cases hnumber

/-- Two grants of one handle are the same. -/
theorem grant_eq (hk : b.Kept grants closed) {g g' : Grant} (hg : g ∈ grants) (hg' : g' ∈ grants)
    {n k : Nat} {c : Context} (hc : b.contexts n = some c)
    (hnumber : g.connection.numberIn n = some k) (hnumber' : g'.connection.numberIn n = some k) :
    g = g' := by
  have hnodup : (grants.filterMap (·.connection.numberIn n)).Nodup := by
    rw [(hk.context n c hc).issued]
    exact List.nodup_range
  have hpairwise := List.pairwise_filterMap.1 hnodup
  have hsymmetric : Std.Symm fun a a' : Grant => ∀ k, a.connection.numberIn n = some k →
      ∀ k', a'.connection.numberIn n = some k' → k ≠ k' :=
    ⟨fun _ _ h k hk k' hk' heq => h k' hk' k hk heq.symm⟩
  by_contra hne
  exact hpairwise.forall hg hg' hne k hnumber k hnumber' rfl

/-- No handle was given on a context that does not exist. -/
theorem numberIn_of_no_context (hk : b.Kept grants closed) {n : Nat} (hn : b.contexts n = none)
    {g : Grant} (hg : g ∈ grants) : g.connection.numberIn n = none := by
  cases heq : g.connection.numberIn n with
  | none => rfl
  | some k =>
    obtain ⟨c, hc⟩ := hk.exists_context hg heq
    cases hn.symm.trans hc

/-- A handle under a number that was not given is not closed. -/
theorem notMem_closed (hk : b.Kept grants closed) {n k : Nat}
    (hnew : ∀ g ∈ grants, g.connection.numberIn n ≠ some k) (id : String) :
    Connection.handle id n k ∉ closed := by
  intro hmem
  obtain ⟨g, hg, heq⟩ := hk.closed _ hmem
  exact hnew g hg (heq ▸ Connection.numberIn_self id n k)

/-- No context has the numbers that come next, nor is there one for an active transaction where
none is registered. -/
theorem apart_of_unregistered (hk : b.Kept grants closed) {tx : Nat} {ns : List Nat}
    (hnone : b.registry tx = none) (hparties : b.parties tx = some ns) {m : Nat} {d : Context}
    (hd : b.contexts m = some d) : m ≠ b.next + 1 ∧ d.session ≠ b.next ∧ d.transaction ≠ tx := by
  have h := hk.context m d hd
  refine ⟨Nat.ne_of_lt (Nat.lt_succ_of_lt h.below), Nat.ne_of_lt h.sessionBelow, ?_⟩
  rintro rfl
  -- it would be registered, or its transaction would be over
  cases hcompleted : d.completed with
  | false => cases (h.running hcompleted).1.symm.trans hnone
  | true => cases (h.ended hcompleted).2.1.symm.trans hparties

/-! ## Another context under a number -/

/-- What tells contexts apart still does if the new one has it in common with no other. -/
theorem unique_put {key : Context → Nat} {n : Nat} {c : Context}
    (hkey : ∀ m d m' d', b.contexts m = some d → b.contexts m' = some d' → key d = key d' → m = m')
    (hc : ∀ m d, m ≠ n → b.contexts m = some d → key d ≠ key c) (m : Nat) (d : Context) (m' : Nat)
    (d' : Context) (hd : (b.put n c).contexts m = some d)
    (hd' : (b.put n c).contexts m' = some d') (heq : key d = key d') : m = m' := by
  rw [contexts_put_eq_some] at hd hd'
  rcases hd with ⟨rfl, rfl⟩ | ⟨hne, hd⟩
  · rcases hd' with ⟨rfl, rfl⟩ | ⟨hne', hd'⟩
    · rfl
    · exact absurd heq.symm (hc m' d' hne' hd')
  · rcases hd' with ⟨rfl, rfl⟩ | ⟨-, hd'⟩
    · exact absurd heq (hc m d hne hd)
    · exact hkey m d m' d' hd hd' heq

/-- Contexts are still different when one is revised. -/
theorem unique_revised (hk : b.Kept grants closed) {n : Nat} {c : Context} (c' : Context)
    (hc : b.contexts n = some c) (hsession : c'.session = c.session)
    (htransaction : c'.transaction = c.transaction) :
    (∀ m d m' d', (b.put n c').contexts m = some d → (b.put n c').contexts m' = some d' →
      d.session = d'.session → m = m') ∧
    ∀ m d m' d', (b.put n c').contexts m = some d → (b.put n c').contexts m' = some d' →
      d.transaction = d'.transaction → m = m' := by
  refine ⟨unique_put hk.session ?_, unique_put hk.transaction ?_⟩
  · intro m d hne hd heq
    exact hne (hk.session m d n c hd hc (heq.trans hsession))
  · intro m d hne hd heq
    exact hne (hk.transaction m d n c hd hc (heq.trans htransaction))

/-- Grants outside of transactions are still apart. -/
theorem alone_put (hk : b.Kept grants closed) {n : Nat} {c : Context} (c' : Context)
    (hc : b.contexts n = some c) (hsession : c'.session = c.session) {g : Grant} (hg : g ∈ grants)
    (hnone : g.transaction = none) : ∃ k, g.connection = .session k ∧ k < b.next ∧
      ∀ m d, (b.put n c').contexts m = some d → d.session ≠ k := by
  obtain ⟨k, hconnection, hlt, hother⟩ := hk.alone g hg hnone
  refine ⟨k, hconnection, hlt, fun m d hd => ?_⟩
  rcases contexts_put_eq_some.1 hd with ⟨rfl, rfl⟩ | ⟨-, hd⟩
  · exact hsession ▸ hother m c hc
  · exact hother m d hd

/-- A context that is not completed may be registered as it was. -/
theorem registered_put (hk : b.Kept grants closed) {n : Nat} {c : Context} (c' : Context)
    (hc : b.contexts n = some c) (htransaction : c'.transaction = c.transaction)
    (hcompleted : c'.completed = c.completed) {tx m : Nat} (hm : b.registry tx = some m) :
    ∃ d, (b.put n c').contexts m = some d ∧ d.transaction = tx ∧ d.completed = false := by
  obtain ⟨d, hd, htx, hrunning⟩ := hk.registered tx m hm
  by_cases heq : m = n
  · subst heq
    cases hc.symm.trans hd
    exact ⟨c', contexts_put_eq_some.2 (.inl ⟨rfl, rfl⟩), htransaction.trans htx,
      hcompleted.trans hrunning⟩
  · exact ⟨d, contexts_put_eq_some.2 (.inr ⟨heq, hd⟩), htx, hrunning⟩

theorem closed_append (hk : b.Kept grants closed) (g : Grant) :
    ∀ c ∈ closed, ∃ g' ∈ grants ++ [g], g'.connection = c := by
  intro c hc
  obtain ⟨g', hg', heq⟩ := hk.closed c hc
  exact ⟨g', List.mem_append_left _ hg', heq⟩

theorem closed_cons (hk : b.Kept grants closed) {g : Grant} (hg : g ∈ grants) :
    ∀ c ∈ g.connection :: closed, ∃ g' ∈ grants, g'.connection = c := by
  intro c hc
  rcases List.mem_cons.1 hc with rfl | hc
  · exact ⟨g, hg, rfl⟩
  · exact hk.closed c hc

/-! ## Transactions begin and end -/

/-- A transaction may be begun. -/
theorem begin (hk : b.Kept grants closed) :
    Kept { b with
      begun := b.begun + 1
      parties := fun tx => if tx = b.begun then some [] else b.parties tx } grants closed := by
  refine ⟨?context, hk.session, hk.transaction, hk.registered, ?parties, ?handle, hk.alone,
    hk.closed⟩
  case context =>
    intro n c hc
    -- no context belongs to a transaction that was not begun
    exact (hk.context n c hc).of_books (Nat.le_refl _) rfl
      (if_neg (Nat.ne_of_lt (hk.transaction_lt hc))) rfl
  case parties =>
    intro tx ns hns
    dsimp only at hns ⊢
    split at hns
    · next heq =>
      cases hns
      refine ⟨?_, by omega⟩
      cases hregistry : b.registry tx with
      | none => rfl
      | some n =>
        obtain ⟨c, hc, htx, -⟩ := hk.registered tx n hregistry
        have := hk.transaction_lt hc
        omega
    · obtain ⟨hparties, hlt⟩ := hk.parties tx ns hns
      exact ⟨hparties, Nat.lt_succ_of_lt hlt⟩
  case handle =>
    intro g hg tx htx
    obtain ⟨hlt, hhandle⟩ := hk.handle g hg tx htx
    exact ⟨Nat.lt_succ_of_lt hlt, hhandle⟩

/-- A transaction without a context may end. -/
theorem retire (hk : b.Kept grants closed) {id : Nat} (hnone : b.registry id = none) :
    Kept { b with parties := fun tx => if tx = id then none else b.parties tx } grants
      closed := by
  refine ⟨?context, hk.session, hk.transaction, hk.registered, ?parties, hk.handle, hk.alone,
    hk.closed⟩
  case context =>
    intro n c hc
    have h := hk.context n c hc
    refine h.of_books (Nat.le_refl _) rfl ?_ rfl
    dsimp only
    split
    · next heq =>
      -- a context that is not completed would be registered
      cases hcompleted : c.completed with
      | false =>
        rw [← heq, (h.running hcompleted).1] at hnone
        cases hnone
      | true => exact (h.ended hcompleted).2.1.symm
    · rfl
  case parties =>
    intro tx ns hns
    dsimp only at hns
    split at hns
    · cases hns
    · exact hk.parties tx ns hns

/-- A transaction may end with its context. -/
theorem release (hk : b.Kept grants closed) {id n : Nat} {c : Context}
    (hregistry : b.registry id = some n) (hc : b.contexts n = some c) :
    Kept { b.put n c.complete with
      registry := fun tx => if tx = c.transaction then none else b.registry tx
      live := fun s => if s = c.session then false else b.live s
      parties := fun tx => if tx = id then none else b.parties tx } grants closed := by
  obtain ⟨c', hc', rfl, -⟩ := hk.registered id n hregistry
  cases hc.symm.trans hc'
  -- no other context has its session or its transaction
  obtain ⟨hsession, htransaction⟩ := hk.unique_revised c.complete hc rfl rfl
  refine ⟨?context, hsession, htransaction, ?registered, ?parties, ?handle,
    fun g hg hnone => hk.alone_put c.complete hc rfl hg hnone, hk.closed⟩
  case context =>
    intro m d hd
    -- the context itself is completed, and so may be without a place in the registry
    rcases contexts_put_eq_some.1 hd with ⟨rfl, rfl⟩ | ⟨hne, hd⟩
    · have h := hk.context m c hc
      exact ⟨h.below, h.sessionBelow, nofun, fun _ => ⟨rfl, if_pos rfl, if_pos rfl⟩, h.given,
        h.issued, h.agrees.complete⟩
    · -- the others keep their session and their place: they are not shared
      have htx : d.transaction ≠ c.transaction := fun heq => hne (hk.transaction m d n c hd hc heq)
      have hs : d.session ≠ c.session := fun heq => hne (hk.session m d n c hd hc heq)
      exact (hk.context m d hd).of_books (Nat.le_refl _) (if_neg htx) (if_neg htx) (if_neg hs)
  case registered =>
    intro tx m hm
    dsimp only at hm
    split at hm
    · cases hm
    · next hne =>
      -- what is still registered is of another transaction, hence another context
      obtain ⟨d, hd, htx, hrunning⟩ := hk.registered tx m hm
      refine ⟨d, contexts_put_eq_some.2 (.inr ⟨?_, hd⟩), htx, hrunning⟩
      rintro rfl
      cases hc.symm.trans hd
      exact hne htx.symm
  case parties =>
    intro tx ns hns
    dsimp only at hns ⊢
    split at hns
    · cases hns
    · next hne =>
      rw [if_neg hne]
      exact hk.parties tx ns hns
  case handle =>
    intro g hg tx htx
    obtain ⟨hlt, m, k, d, hconnection, hd, htransaction, hopen⟩ := hk.handle g hg tx htx
    refine ⟨hlt, m, k, ?_⟩
    -- a handle to the context released is usable no more, whatever its flag; the others as before
    by_cases heq : m = n
    · subst heq
      cases hc.symm.trans hd
      exact ⟨c.complete, hconnection, contexts_put_eq_some.2 (.inl ⟨rfl, rfl⟩), htransaction,
        by simp [Context.complete]⟩
    · exact ⟨d, hconnection, contexts_put_eq_some.2 (.inr ⟨heq, hd⟩), htransaction, hopen⟩

/-! ## Connections are given -/

/-- A session of its own may be given. -/
theorem apart (hk : b.Kept grants closed) (id : String) :
    Kept { b with
      next := b.next + 1
      live := fun s => if s = b.next then true else b.live s }
      (grants ++ [⟨none, id, .session b.next⟩]) closed := by
  refine ⟨?context, hk.session, hk.transaction, hk.registered, hk.parties, ?handle, ?alone,
    hk.closed_append _⟩
  case context =>
    intro n c hc
    -- the next session number is above those of all contexts
    have h := hk.context n c hc
    exact (h.append rfl).of_books (Nat.le_succ _) rfl rfl (if_neg (Nat.ne_of_lt h.sessionBelow))
  case handle =>
    intro g hg tx htx
    rcases List.mem_append.1 hg with hg | hg
    · exact hk.handle g hg tx htx
    · -- the session granted has no transaction
      rw [List.mem_singleton.1 hg] at htx
      cases htx
  case alone =>
    intro g hg hnone
    rcases List.mem_append.1 hg with hg | hg
    · obtain ⟨k, hconnection, hlt, hother⟩ := hk.alone g hg hnone
      exact ⟨k, hconnection, Nat.lt_succ_of_lt hlt, hother⟩
    · -- its number is a new one, which no context has
      rw [List.mem_singleton.1 hg]
      exact ⟨b.next, rfl, Nat.lt_succ_self _,
        fun n c hc => Nat.ne_of_lt (hk.context n c hc).sessionBelow⟩

/-- A handle on a context may be given. -/
theorem join (hk : b.Kept grants closed) (id : String) {n : Nat} {c : Context}
    (hc : b.contexts n = some c) (hrunning : c.completed = false) :
    (b.put n c.newHandle.2).Kept
      (grants ++ [⟨some c.transaction, id, .handle id n c.nextHandle⟩]) closed := by
  have hhandles := Context.handles_newHandle hrunning
  obtain ⟨hsession, htransaction⟩ := hk.unique_revised c.newHandle.2 hc rfl rfl
  refine ⟨?context, hsession, htransaction, fun tx m => hk.registered_put c.newHandle.2 hc rfl rfl,
    hk.parties, ?handle, ?alone, hk.closed_append _⟩
  case context =>
    intro m d hd
    rcases contexts_put_eq_some.1 hd with ⟨rfl, rfl⟩ | ⟨hne, hd⟩
    · -- the context that is joined runs on, with one number more given out
      have h := hk.context m c hc
      obtain ⟨g, hg, htx⟩ := h.given
      refine ⟨h.below, h.sessionBelow, fun _ => h.running hrunning, ?_,
        ⟨g, List.mem_append_left _ hg, htx⟩, ?_, h.agrees.newHandle hrunning⟩
      · intro hover
        cases hrunning.symm.trans hover
      · show _ = List.range (c.nextHandle + 1)
        rw [List.filterMap_append, h.issued, List.range_succ]
        simp [Connection.numberIn]
    · -- no other context has the new handle
      have h := (hk.context m d hd).append
        (g := ⟨some c.transaction, id, .handle id n c.nextHandle⟩) (if_neg (Ne.symm hne))
      exact h.of_books (Nat.le_refl _) rfl rfl rfl
  case handle =>
    intro g hg tx htx
    rcases List.mem_append.1 hg with hold | hnew
    · obtain ⟨hlt, m, k, d, hconnection, hd, htransaction, hopen⟩ := hk.handle g hold tx htx
      refine ⟨hlt, m, k, ?_⟩
      by_cases heq : m = n
      · subst heq
        cases hc.symm.trans hd
        -- an old handle of this context has an older number, so it is open as before
        have hk' := hk.number_lt hold hc (hconnection ▸ Connection.numberIn_self g.id m k)
        refine ⟨_, hconnection, contexts_put_eq_some.2 (.inl ⟨rfl, rfl⟩), htransaction, ?_⟩
        rw [hhandles, List.mem_append, List.mem_singleton]
        exact (or_iff_left (Nat.ne_of_lt hk')).trans hopen
      · exact ⟨d, hconnection, contexts_put_eq_some.2 (.inr ⟨heq, hd⟩), htransaction, hopen⟩
    · -- the handle just granted
      cases List.mem_singleton.1 hnew
      cases htx
      refine ⟨hk.transaction_lt hc, n, c.nextHandle, _, rfl,
        contexts_put_eq_some.2 (.inl ⟨rfl, rfl⟩), rfl, ?_⟩
      -- the number is a new one, so nothing under it was closed
      have hfresh : Connection.handle id n c.nextHandle ∉ closed := by
        refine hk.notMem_closed (fun g' hg' hnumber => ?_) id
        exact Nat.lt_irrefl _ (hk.number_lt hg' hc hnumber)
      rw [hhandles]
      exact ⟨fun _ => ⟨hrunning, hfresh⟩,
        fun _ => List.mem_append_right _ (List.mem_singleton_self _)⟩
  case alone =>
    intro g hg hnone
    rcases List.mem_append.1 hg with hg | hg
    · exact hk.alone_put c.newHandle.2 hc rfl hg hnone
    · rw [List.mem_singleton.1 hg] at hnone
      cases hnone

/-- A handle on a new context may be given, in an active transaction that has no context. -/
theorem enter (hk : b.Kept grants closed) (id : String) {tx : Nat} {ns : List Nat}
    (hnone : b.registry tx = none) (hparties : b.parties tx = some ns) :
    Kept { b.put (b.next + 1) (Context.start tx b.next).newHandle.2 with
      registry := fun t => if t = tx then some (b.next + 1) else b.registry t
      next := b.next + 2
      live := fun s => if s = b.next then true else b.live s
      parties := fun t => if t = tx then some [b.next + 1] else b.parties t }
      (grants ++ [⟨some tx, id, .handle id (b.next + 1) 0⟩]) closed := by
  -- no context that exists is the new one, has its session or its transaction
  have hold : ∀ m d, b.contexts m = some d →
      m ≠ b.next + 1 ∧ d.session ≠ b.next ∧ d.transaction ≠ tx :=
    fun m d => hk.apart_of_unregistered hnone hparties
  -- nor has any grant a handle to it
  have hnumber : ∀ g ∈ grants, g.connection.numberIn (b.next + 1) = none := by
    intro g hg
    refine hk.numberIn_of_no_context (Option.eq_none_iff_forall_ne_some.2 fun d hd => ?_) hg
    exact (hold _ d hd).1 rfl
  refine ⟨?context, unique_put hk.session fun m d _ hd => (hold m d hd).2.1,
    unique_put hk.transaction fun m d _ hd => (hold m d hd).2.2, ?registered, ?parties, ?handle,
    ?alone, hk.closed_append _⟩
  case context =>
    intro m d hd
    -- the new context has just the handle of this grant
    rcases contexts_put_eq_some.1 hd with ⟨rfl, rfl⟩ | ⟨hne, hd⟩
    · refine ⟨Nat.lt_succ_self _, Nat.lt_add_of_pos_right Nat.zero_lt_two,
        fun _ => ⟨if_pos rfl, Option.isSome_iff_exists.2 ⟨_, if_pos rfl⟩, if_pos rfl⟩, nofun,
        ⟨_, List.mem_append_right _ (List.mem_singleton_self _), rfl⟩, ?_,
        (Context.Agrees.start tx b.next).newHandle rfl⟩
      have hnil : grants.filterMap (·.connection.numberIn (b.next + 1)) = [] :=
        List.filterMap_eq_nil_iff.2 hnumber
      rw [List.filterMap_append, hnil]
      simp [Connection.numberIn, Context.newHandle, Context.start]
    · obtain ⟨-, hsession, htransaction⟩ := hold m d hd
      have h := (hk.context m d hd).append
        (g := ⟨some tx, id, .handle id (b.next + 1) 0⟩) (if_neg (Ne.symm hne))
      exact h.of_books (Nat.le_add_right _ _) (if_neg htransaction) (if_neg htransaction)
        (if_neg hsession)
  case registered =>
    intro t m hm
    dsimp only at hm
    split at hm
    · next heq =>
      cases hm
      exact ⟨_, contexts_put_eq_some.2 (.inl ⟨rfl, rfl⟩), heq.symm, rfl⟩
    · obtain ⟨d, hd, htx, hrunning⟩ := hk.registered t m hm
      exact ⟨d, contexts_put_eq_some.2 (.inr ⟨(hold m d hd).1, hd⟩), htx, hrunning⟩
  case parties =>
    intro t ns' hns
    dsimp only at hns ⊢
    split at hns
    · next heq =>
      -- the transaction had only this one participant to gain
      cases hns
      rw [if_pos heq, heq]
      exact ⟨rfl, (hk.parties tx ns hparties).2⟩
    · next hne =>
      rw [if_neg hne]
      exact hk.parties t ns' hns
  case handle =>
    intro g hg t htx
    rcases List.mem_append.1 hg with hg | hg
    · obtain ⟨hlt, m, k, d, hconnection, hd, htransaction, hopen⟩ := hk.handle g hg t htx
      exact ⟨hlt, m, k, d, hconnection, contexts_put_eq_some.2 (.inr ⟨(hold m d hd).1, hd⟩),
        htransaction, hopen⟩
    · cases List.mem_singleton.1 hg
      cases htx
      refine ⟨(hk.parties tx ns hparties).2, b.next + 1, 0, _, rfl,
        contexts_put_eq_some.2 (.inl ⟨rfl, rfl⟩), rfl, ?_⟩
      -- the handle is new, so it was not closed before it was granted
      have hfresh : Connection.handle id (b.next + 1) 0 ∉ closed := by
        refine hk.notMem_closed (fun g' hg' hgiven => ?_) id
        cases (hnumber g' hg').symm.trans hgiven
      exact ⟨fun _ => ⟨rfl, hfresh⟩, fun _ => List.mem_singleton_self 0⟩
  case alone =>
    intro g hg hnone
    rcases List.mem_append.1 hg with hg | hg
    · obtain ⟨k, hconnection, hlt, hother⟩ := hk.alone g hg hnone
      refine ⟨k, hconnection, Nat.lt_add_right 2 hlt, fun m d hd => ?_⟩
      rcases contexts_put_eq_some.1 hd with ⟨rfl, rfl⟩ | ⟨-, hd⟩
      · exact Ne.symm (Nat.ne_of_lt hlt)
      · exact hother m d hd
    · rw [List.mem_singleton.1 hg] at hnone
      cases hnone

/-! ## Connections are closed -/

/-- A handle that was given may be closed. -/
theorem closeHandle (hk : b.Kept grants closed) {g : Grant} (hg : g ∈ grants) {id : String}
    {n k : Nat} {c : Context} (hconnection : g.connection = .handle id n k)
    (hc : b.contexts n = some c) :
    (b.put n (c.closeHandle k)).Kept grants (g.connection :: closed) := by
  have hownTx := c.transaction_closeHandle k
  have hownSession := c.session_closeHandle k
  have h := hk.context n c hc
  obtain ⟨hsession, htransaction⟩ := hk.unique_revised (c.closeHandle k) hc hownSession hownTx
  refine ⟨?context, hsession, htransaction,
    fun tx m => hk.registered_put (c.closeHandle k) hc hownTx (c.completed_closeHandle k),
    hk.parties, ?handle, fun g hg hnone => hk.alone_put (c.closeHandle k) hc hownSession hg hnone,
    hk.closed_cons hg⟩
  case context =>
    intro m d hd
    rcases contexts_put_eq_some.1 hd with ⟨rfl, rfl⟩ | ⟨hne, hd⟩
    · -- its own flags and list are closed together
      refine ⟨h.below, hownSession ▸ h.sessionBelow, ?_, ?_, hownTx ▸ h.given,
        (c.nextHandle_closeHandle k) ▸ h.issued, h.agrees.closeHandle k⟩
      · rw [c.completed_closeHandle, hownTx, hownSession]
        exact h.running
      · rw [c.completed_closeHandle, hownTx, hownSession, h.agrees.handles_closeHandle]
        -- a completed context has no open handles to begin with
        intro hover
        obtain ⟨hnil, hparties, hlive⟩ := h.ended hover
        exact ⟨by rw [hnil, List.filter_nil], hparties, hlive⟩
    · exact (hk.context m d hd).of_books (Nat.le_refl _) rfl rfl rfl
  case handle =>
    intro g' hg' tx htx
    obtain ⟨hlt, m, k', d, hconnection', hd, htransaction, hopen⟩ := hk.handle g' hg' tx htx
    refine ⟨hlt, m, k', ?_⟩
    by_cases heq : m = n
    · subst heq
      cases hc.symm.trans hd
      refine ⟨_, hconnection', contexts_put_eq_some.2 (.inl ⟨rfl, rfl⟩),
        hownTx.trans htransaction, ?_⟩
      -- handles of one context are told apart by their numbers
      have hsame : g'.connection = g.connection ↔ k' = k := by
        constructor
        · intro h
          rw [hconnection', hconnection] at h
          cases h
          rfl
        · rintro rfl
          rw [hk.grant_eq hg' hg hc (hconnection' ▸ Connection.numberIn_self _ m k')
            (hconnection ▸ Connection.numberIn_self _ m k')]
      rw [List.mem_cons, not_or, hsame, c.completed_closeHandle, h.agrees.handles_closeHandle,
        List.mem_filter, hopen, bne_iff_ne, and_assoc]
      exact and_congr_right fun _ => and_comm
    · -- a handle of another context is another connection
      refine ⟨d, hconnection', contexts_put_eq_some.2 (.inr ⟨heq, hd⟩), htransaction, ?_⟩
      rw [hopen, List.mem_cons, not_or]
      have hne : g'.connection ≠ g.connection := by
        rw [hconnection', hconnection]
        intro h
        cases h
        exact heq rfl
      exact and_congr_right fun _ => (and_iff_right hne).symm

/-- A session that was given may be closed or given up. -/
theorem closeSession (hk : b.Kept grants closed) {g : Grant} (hg : g ∈ grants) {k : Nat}
    (hconnection : g.connection = .session k) {live : Nat → Bool}
    (hlive : ∀ s, s ≠ k → live s = b.live s) :
    Kept { b with live } grants (g.connection :: closed) := by
  refine ⟨?context, hk.session, hk.transaction, hk.registered, hk.parties, ?handle, hk.alone,
    hk.closed_cons hg⟩
  case context =>
    intro n c hc
    -- the session is no context's
    have hne : c.session ≠ k := by
      cases htx : g.transaction with
      | none =>
        obtain ⟨k', hconnection', -, hother⟩ := hk.alone g hg htx
        rw [hconnection] at hconnection'
        cases hconnection'
        exact hother n c hc
      | some tx =>
        obtain ⟨-, m, k', -, hconnection', -⟩ := hk.handle g hg tx htx
        rw [hconnection] at hconnection'
        cases hconnection'
    exact (hk.context n c hc).of_books (Nat.le_refl _) rfl rfl (hlive _ hne)
  case handle =>
    intro g' hg' tx htx
    obtain ⟨hlt, m, k', d, hconnection', hd, htransaction, hopen⟩ := hk.handle g' hg' tx htx
    refine ⟨hlt, m, k', d, hconnection', hd, htransaction, ?_⟩
    rw [hopen, List.mem_cons, not_or]
    have hne : g'.connection ≠ g.connection := by
      rw [hconnection', hconnection]
      exact nofun
    exact and_congr_right fun _ => (and_iff_right hne).symm

end Kept

end Books

end Host

end ContentRepository
