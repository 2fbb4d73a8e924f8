import ContentRepository.Proofs.Session.Writing
import Mathlib.Data.List.Pairwise

/-!
# Plans that stop half-way

A write that is refused ends the plan, and those before it stay. For a batch of new documents, or of
deletions, this module finds the write that is refused, if there is one, and says what is there and
what is pending when it comes to it.

* **`Shelf.Refuses`**, **`Shelf.Stops`** — a write is refused; a plan gets as far as that.
* **`Shelf.Fresh.or_clash`** — new documents can all be created, or there is a first whose id is
  taken.
* **`Shelf.stored_or_absent`** — documents can all be deleted, or there is a first that is absent.
* **`Workspace.execute_of_stops`** — what a workspace is left with.
-/

namespace ContentRepository

namespace Shelf

/-- The write is refused. -/
inductive Refuses (s : Shelf) : Write → StoreError → Prop
  | taken {d : Document} {id : String} (hid : d.id? = some id) (htaken : (s.get? id).isSome) :
      Refuses s (.create d) (.alreadyExists id)
  | absent {id : String} (habsent : s.get? id = none) : Refuses s (.delete id) (.notFound id)

/-- The writes succeed as far as `done`, which leads to the shelf `t`; the next one is refused. -/
def Stops (s : Shelf) (writes done : List Write) (t : Shelf) (e : StoreError) : Prop :=
  ∃ first rest, writes = done ++ first :: rest ∧ s.Writes done t ∧ t.Refuses first e

/-! ## New documents -/

/-- The documents have ids of their own, under which nothing lies yet. -/
structure Fresh (s : Shelf) (ds : List Document) : Prop where
  distinct : ds.Pairwise fun d e => d.id? ≠ e.id?
  free : ∀ d ∈ ds, ∃ id, d.id? = some id ∧ s.get? id = none

/-- New documents are created, and each is left to the next commit. -/
def creating (ds : List Document) : List Write :=
  ds.flatMap fun d => [.create d, .mark (d.id?.getD "")]

namespace Fresh

variable {s : Shelf} {ds : List Document}

/-- **New documents are fresh, or there is a first whose id is taken**: by a document that is there,
or by one of the new ones before it. Induction on the list, from its end. -/
theorem or_clash (hids : ∀ d ∈ ds, d.id?.isSome) :
    s.Fresh ds ∨ ∃ before d after id, ds = before ++ d :: after ∧ s.Fresh before ∧
      d.id? = some id ∧ ((s.get? id).isSome ∨ ∃ c ∈ before, c.id? = some id) := by
  induction ds using List.reverseRecOn with
  | nil => exact .inl ⟨.nil, by simp⟩
  | append_singleton ds d ih =>
    obtain hfresh | ⟨before, first, after, id, rfl, hclash⟩ :=
      ih fun e he => hids e (List.mem_append_left _ he)
    · -- all before it are fresh: the last one clashes with the shelf, with one of them, or not at
      -- all
      obtain ⟨id, hid⟩ := Option.isSome_iff_exists.1 (hids d (by simp))
      by_cases htaken : (s.get? id).isSome ∨ ∃ c ∈ ds, c.id? = some id
      · exact .inr ⟨ds, d, [], id, rfl, hfresh, hid, htaken⟩
      · obtain ⟨hfree, hothers⟩ := not_or.1 htaken
        refine .inl ⟨List.pairwise_append.2 ⟨hfresh.distinct, List.pairwise_singleton _ _, ?_⟩, ?_⟩
        · intro c hc e he heq
          rw [List.mem_singleton.1 he, hid] at heq
          exact hothers ⟨c, hc, heq⟩
        · intro c hc
          obtain hc | hc := List.mem_append.1 hc
          · exact hfresh.free c hc
          · rw [List.mem_singleton.1 hc]
            exact ⟨id, hid, by simpa using hfree⟩
    · -- an earlier one clashes already
      exact .inr ⟨before, first, after ++ [d], id, by simp, hclash⟩

/-- What is there stays as it is. -/
theorem get?_of_stored (h : s.Fresh ds) {id : String} {d : Document} (hd : s.get? id = some d) :
    (s.putAll ds).get? id = some d := by
  rw [get?_putAll_of_forall_ne, hd]
  intro e he hid
  obtain ⟨other, hother, hfree⟩ := h.free e he
  cases hid.symm.trans hother
  rw [hd] at hfree
  cases hfree

/-- A new document is told by its id. -/
theorem eq_of_id? (h : s.Fresh ds) {d e : Document} (hd : d ∈ ds) (he : e ∈ ds)
    (hid : d.id? = e.id?) : d = e := by
  have hsymm : Std.Symm fun d e : Document => d.id? ≠ e.id? := ⟨fun _ _ hne heq => hne heq.symm⟩
  by_contra hne
  exact h.distinct.forall hd he hne hid

theorem get?_of_mem (h : s.Fresh ds) {id : String} {d : Document} (hd : d ∈ ds)
    (hid : d.id? = some id) : (s.putAll ds).get? id = some d :=
  get?_putAll_of_mem (fun _ he heid => h.eq_of_id? he hd (heid.trans hid.symm)) hd hid

/-- What is there then was there before, or is new. -/
theorem isSome_iff (h : s.Fresh ds) {id : String} :
    ((s.putAll ds).get? id).isSome ↔ (s.get? id).isSome ∨ ∃ d ∈ ds, d.id? = some id := by
  by_cases hnew : ∃ d ∈ ds, d.id? = some id
  · obtain ⟨d, hd, hid⟩ := hnew
    rw [h.get?_of_mem hd hid]
    exact iff_of_true rfl (.inr ⟨d, hd, hid⟩)
  · rw [get?_putAll_of_forall_ne fun d hd hid => hnew ⟨d, hd, hid⟩, or_iff_left hnew]

/-- Fresh documents can be created. -/
theorem writes (h : s.Fresh ds) : s.Writes (creating ds) (s.putAll ds) :=
  .creations h.distinct h.free

/-- Nothing but the new documents is left to the next commit besides what was before. -/
theorem mem_pending (h : s.Fresh ds) {pending : TextSet} {id : String} :
    id ∈ ((creating ds).foldl Write.leave pending).keys ↔
      id ∈ pending.keys ∨ ∃ d ∈ ds, d.id? = some id := by
  have hids := h.free
  clear h
  induction ds generalizing pending with
  | nil => simp [creating]
  | cons d ds ih =>
    obtain ⟨other, hother, -⟩ := hids d List.mem_cons_self
    have hrest : id ∈ ((creating ds).foldl Write.leave (pending.add other)).keys ↔ _ :=
      ih fun e he => hids e (List.mem_cons_of_mem _ he)
    rw [creating, List.flatMap_cons, hother]
    refine hrest.trans ?_
    simp only [TextSet.mem_keys_add, List.mem_cons, exists_eq_or_imp, hother, Option.some.injEq]
    tauto

end Fresh

/-! ## Deletions -/

/-- **The documents are all there, or there is a first that is absent.** -/
theorem stored_or_absent (s : Shelf) (ids : List String) :
    (∀ id ∈ ids, (s.get? id).isSome) ∨ ∃ before k after, ids = before ++ k :: after ∧
      (∀ id ∈ before, (s.get? id).isSome) ∧ s.get? k = none := by
  cases habsent : ids.find? fun id => !(s.get? id).isSome with
  | none =>
    refine .inl fun id hid => Option.isSome_iff_ne_none.2 ?_
    simpa using List.find?_eq_none.1 habsent id hid
  | some k =>
    obtain ⟨hk, before, after, hids, hbefore⟩ := List.find?_eq_some_iff_append.1 habsent
    exact .inr ⟨before, k, after, hids, fun id hid => by simpa using hbefore id hid,
      by simpa using hk⟩

/-- What is deleted is no longer pending. -/
theorem mem_pending_deletions {ids : List String} {pending : TextSet} {id : String} :
    id ∈ ((ids.map Write.delete).foldl Write.leave pending).keys ↔
      id ∈ pending.keys ∧ id ∉ ids := by
  induction ids generalizing pending with
  | nil => simp
  | cons first ids ih =>
    rw [List.map_cons, List.foldl_cons, ih, Write.leave, Table.mem_keys_erase, List.mem_cons]
    tauto

/-- Updates have nothing to do with what is pending. -/
theorem pending_updates (ds : List Document) (pending : TextSet) :
    (ds.map Write.update).foldl Write.leave pending = pending := by
  induction ds with
  | nil => rfl
  | cons d ds ih => exact ih

end Shelf

namespace Workspace

variable {w : Workspace} {shelf after : Shelf} {first : Write} {e : StoreError}

theorem write_of_refuses (hrefuses : shelf.Refuses first e)
    (hstore : w.site.store.shelf? = some shelf) : w.write first = .error e := by
  cases hrefuses with
  | @taken d id hid htaken =>
    have hcreate : w.site.store.create d = .error (.alreadyExists id) := by
      simp [Store.create, Store.idToWrite, Store.shelf, hid, hstore, Shelf.create,
        Table.contains_eq_isSome, htaken, bind, Except.bind]
    rw [write, hcreate]
    rfl
  | @absent id habsent =>
    have hdelete : w.site.store.delete id = .error (.notFound id) := by
      simp [Store.delete, Store.shelf, hstore, Shelf.delete, Table.contains_eq_isSome, habsent,
        bind, Except.bind]
    rw [write, hdelete]
    rfl

/-- **What a plan that stops leaves behind**: all writes before the refused one. -/
theorem execute_of_stops {plan : Plan} {done : List Write}
    (hstops : shelf.Stops plan.writes done after e) (hstore : w.site.store.shelf? = some shelf) :
    w.execute plan = (.error (.store e), ⟨w.site.settled plan.drawn after,
      { w.session with pending := done.foldl Write.leave w.session.pending }⟩) := by
  obtain ⟨first, rest, hwrites, hdone, hrefuses⟩ := hstops
  let begun : Workspace := { w with site := { w.site with
    ids := w.site.ids.skip plan.drawn, clock := w.site.clock.next } }
  have hbegun : begun.site.store.shelf? = some shelf := hstore
  rw [execute, hwrites]
  refine (writeAll_append hdone hbegun).trans ?_
  rw [writeAll, write_of_refuses hrefuses rfl]
  rfl

end Workspace

end ContentRepository
