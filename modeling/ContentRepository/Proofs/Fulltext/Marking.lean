import ContentRepository.Proofs.Fulltext.Texts
import ContentRepository.Proofs.Store.Filing

/-!
# Plans that mark what they write

A session has to leave to its next commit what changes the text of a document. Plans do so by marks
among their writes. Which documents a plan has to mark is put here as a property of its list of
writes alone (`Shelf.Tidy`), and what follows from it holds however far the writes get: every
document that is there then is marked, or is a proxy, or has the text that it had, and was not
pending before (`Shelf.Accounts`).

* **`Shelf.Tidy`** — the writes mark each document whose text they may change.
* **`Workspace.exists_accounts_writeAll`** and **`Workspace.exists_accounts_execute`** — carrying
  them out, to the end or up to the first that fails, accounts for every document.
-/

namespace ContentRepository

/-! ## Writes -/

/-- The write puts the document on the shelf. -/
inductive Write.Files : Write → Document → Prop where
  | create (d : Document) : Files (.create d) d
  | update (d : Document) : Files (.update d) d

/-- The document may be written without being marked: it is a proxy, or it is marked already, or it
has the text of a document on the shelf under the same id. -/
def Shelf.Spares (s : Shelf) (marked : List String) (d : Document) : Prop :=
  d.isProxy = true ∨ (∃ id ∈ marked, d.id? = some id) ∨
    ∃ id c, s.get? id = some c ∧ c.SameText d

/-- The writes mark each document that they may not leave unmarked. Deletions come last. -/
inductive Shelf.Tidy (s : Shelf) : List String → List Write → Prop where
  | deletions (marked ids : List String) : Tidy s marked (ids.map .delete)
  | marks {marked : List String} {first : Write} {d : Document} {rest : List Write}
      (hfirst : first.Files d) (hrest : Tidy s (d.id?.toList ++ marked) rest) :
      Tidy s marked (first :: (d.id?.toList.map .mark ++ rest))
  | spares {marked : List String} {first : Write} {d : Document} {rest : List Write}
      (hfirst : first.Files d) (hspared : s.Spares marked d) (hrest : Tidy s marked rest) :
      Tidy s marked (first :: rest)

namespace Shelf

variable {s : Shelf} {marked : List String} {rest : List Write}

theorem spares_of_sameText {id : String} {c d : Document} (hc : s.get? id = some c)
    (hcd : c.SameText d) : s.Spares marked d := .inr (.inr ⟨id, c, hc, hcd⟩)

namespace Tidy

theorem nil : s.Tidy marked [] := .deletions marked []

/-- A document that is written and marked under its id. -/
theorem marks_id {first : Write} {d : Document} {id : String} (hfirst : first.Files d)
    (hid : d.id? = some id) (hrest : s.Tidy (id :: marked) rest) :
    s.Tidy marked (first :: .mark id :: rest) := by
  have htidy : s.Tidy marked (first :: (d.id?.toList.map .mark ++ rest)) :=
    .marks hfirst (by rw [hid]; exact hrest)
  rw [hid] at htidy
  exact htidy

/-- Several new documents, each marked under its id. -/
theorem creations {ds : List Document} (hids : ∀ d ∈ ds, d.id?.isSome)
    (hrest : s.Tidy ((ds.filterMap (·.id?)).reverse ++ marked) rest) :
    s.Tidy marked ((ds.flatMap fun d => [.create d, .mark (d.id?.getD "")]) ++ rest) := by
  induction ds generalizing marked with
  | nil => exact hrest
  | cons d ds ih =>
    obtain ⟨id, hid⟩ := Option.isSome_iff_exists.1 (hids d List.mem_cons_self)
    rw [List.flatMap_cons, hid]
    refine .marks_id (.create d) hid (ih (fun e he => hids e (List.mem_cons_of_mem _ he)) ?_)
    rw [List.filterMap_cons_some hid, List.reverse_cons, List.append_assoc] at hrest
    exact hrest

/-- Several updates of documents that may go unmarked. -/
theorem updates {writes : List Write}
    (hwrites : ∀ u ∈ writes, ∃ d, u = .update d ∧ s.Spares marked d)
    (hrest : s.Tidy marked rest) : s.Tidy marked (writes ++ rest) := by
  induction writes with
  | nil => exact hrest
  | cons u writes ih =>
    obtain ⟨d, rfl, hspared⟩ := hwrites u List.mem_cons_self
    exact .spares (.update d) hspared (ih fun v hv => hwrites v (List.mem_cons_of_mem _ hv))

theorem of_updates {writes : List Write}
    (hwrites : ∀ u ∈ writes, ∃ d, u = .update d ∧ s.Spares marked d) : s.Tidy marked writes := by
  have htidy : s.Tidy marked (writes ++ []) := .updates hwrites .nil
  rwa [List.append_nil] at htidy

end Tidy

end Shelf

/-! ## Documents accounted for -/

/-- What may be said of a document after writes that began on the shelf `s`: it is pending, or it is
a proxy, or it has the text that it had. -/
def Shelf.Tracks (s : Shelf) (pending : TextSet) (id : String) (e : Document) : Prop :=
  id ∈ pending.keys ∨ e.isProxy = true ∨ ∃ d, s.get? id = some d ∧ d.SameText e

/-- The documents that are there after writes, and what is pending then. A document that is neither
pending nor a proxy has the text that it had, and was not pending before either. -/
def Shelf.Accounts (s : Shelf) (before : TextSet) (t : Shelf) (after : TextSet) : Prop :=
  ∀ id e, t.get? id = some e → id ∈ after.keys ∨ e.isProxy = true ∨
    (id ∉ before.keys ∧ ∃ d, s.get? id = some d ∧ d.SameText e)

namespace Shelf.Accounts

variable {s t : Shelf} {before after : TextSet}

theorem refl (s : Shelf) (pending : TextSet) : s.Accounts pending s pending := by
  intro id e he
  by_cases hpending : id ∈ pending.keys
  · exact .inl hpending
  · exact .inr (.inr ⟨hpending, e, he, .refl e⟩)

/-- What is deleted is no longer pending, and need not be. -/
theorem erase (h : s.Accounts before t after) (id : String) :
    s.Accounts before (Table.erase t id) (Table.erase after id) := by
  intro other e he
  rw [Table.get?_erase] at he
  split at he
  · cases he
  · next hne =>
    refine (h other e he).imp_left fun hpending => ?_
    exact Table.mem_keys_erase.2 ⟨hne, hpending⟩

end Shelf.Accounts

/-! ## Carrying writes out -/

namespace Workspace

variable {w after : Workspace} {s t : Shelf} {before : TextSet} {marked : List String}

theorem of_write_files {first : Write} {d : Document} (hfirst : first.Files d)
    (hstored : w.site.store.shelf? = some t) (hw : w.write first = .ok after) :
    ∃ id, d.id? = some id ∧
      after = w.withStore (w.site.store.withShelf (Table.insert t id d)) := by
  cases hfirst with
  | create d =>
    obtain ⟨store, hcreate, heq⟩ := bind_eq_ok_iff.1 hw
    cases heq
    obtain ⟨id, shelf, hid, hshelf, -, rfl⟩ := Store.create_eq_ok_iff.1 hcreate
    cases hstored.symm.trans hshelf
    exact ⟨id, hid, rfl⟩
  | update d =>
    obtain ⟨store, hupdate, heq⟩ := bind_eq_ok_iff.1 hw
    cases heq
    obtain ⟨id, shelf, hid, hshelf, -, rfl⟩ := Store.update_eq_ok_iff.1 hupdate
    cases hstored.symm.trans hshelf
    exact ⟨id, hid, rfl⟩

theorem of_write_delete {id : String} (hstored : w.site.store.shelf? = some t)
    (hw : w.write (.delete id) = .ok after) :
    after = (w.withStore (w.site.store.withShelf (Table.erase t id))).unmark id := by
  obtain ⟨store, hdelete, heq⟩ := bind_eq_ok_iff.1 hw
  cases heq
  obtain ⟨shelf, hshelf, -, rfl⟩ := Store.delete_eq_ok_iff.1 hdelete
  cases hstored.symm.trans hshelf
  rfl

/-- Writes concern nothing of a site but its store. -/
theorem exists_site_writeAll (writes : List Write) (w : Workspace) :
    ∃ store, (writeAll writes w).2.site = { w.site with store } := by
  induction writes generalizing w with
  | nil => exact ⟨w.site.store, rfl⟩
  | cons first rest ih =>
    rw [writeAll]
    split
    · next after hw =>
      -- a mark leaves the store alone, and any other write leaves at most another store
      obtain ⟨store, hstore⟩ : ∃ store, after.site = { w.site with store } := by
        cases first with
        | mark id =>
          cases hw
          exact ⟨w.site.store, rfl⟩
        | _ =>
          obtain ⟨store, -, heq⟩ := bind_eq_ok_iff.1 hw
          cases heq
          exact ⟨store, rfl⟩
      obtain ⟨last, hlast⟩ := ih after
      exact ⟨last, by rw [hlast, hstore]⟩
    · exact ⟨w.site.store, rfl⟩

theorem exists_site_execute (w : Workspace) (plan : Plan) : ∃ store ids clock,
    (w.execute plan).2.site = { w.site with store, ids, clock } :=
  let ⟨store, hstore⟩ := exists_site_writeAll plan.writes _
  ⟨store, _, _, hstore⟩

/-- What holds between the writes of a tidy list, before the first deletion. Nothing that was
pending has been taken back, and what had to be marked is marked. -/
structure Writing (s : Shelf) (before : TextSet) (marked : List String) (w : Workspace)
    (t : Shelf) : Prop where
  stored : w.site.store.shelf? = some t
  keyed : t.Keyed
  kept : ∀ id ∈ before.keys, id ∈ w.session.pending.keys
  marked : ∀ id ∈ marked, id ∈ w.session.pending.keys
  tracked : ∀ id e, t.get? id = some e → s.Tracks w.session.pending id e

namespace Writing

theorem start (hstored : w.site.store.shelf? = some s) (hkeyed : s.Keyed) :
    Writing s w.session.pending [] w s where
  stored := hstored
  keyed := hkeyed
  kept _ hid := hid
  marked _ hid := by cases hid
  tracked _ e he := .inr (.inr ⟨e, he, .refl e⟩)

/-- One more document is marked. -/
theorem mark (h : Writing s before marked w t) (id : String) :
    Writing s before (id :: marked) (w.mark id) t where
  stored := h.stored
  keyed := h.keyed
  kept other hother := TextSet.mem_keys_add.2 (.inr (h.kept other hother))
  marked other hother := by
    refine TextSet.mem_keys_add.2 ?_
    exact (List.mem_cons.1 hother).imp_right (h.marked other)
  tracked other e he :=
    (h.tracked other e he).imp_left fun hother => TextSet.mem_keys_add.2 (.inr hother)

/-- A document that need not be marked is put on the shelf. -/
theorem file (h : Writing s before marked w t) {id : String} {d : Document}
    (hid : d.id? = some id) (htracks : s.Tracks w.session.pending id d) :
    Writing s before marked (w.withStore (w.site.store.withShelf (Table.insert t id d)))
      (Table.insert t id d) where
  stored := rfl
  keyed := h.keyed.insert hid
  kept := h.kept
  marked := h.marked
  tracked other e he := by
    obtain ⟨rfl, rfl⟩ | ⟨-, he⟩ := Table.get?_insert_eq_some_iff.1 he
    · exact htracks
    · exact h.tracked other e he

/-- A document is put on the shelf and marked. -/
theorem file_mark (h : Writing s before marked w t) {id : String} {d : Document}
    (hid : d.id? = some id) :
    Writing s before (id :: marked)
      ((w.withStore (w.site.store.withShelf (Table.insert t id d))).mark id)
      (Table.insert t id d) := by
  -- marking comes second, but it has nothing to do with the store
  have hmarked := h.mark id
  exact hmarked.file hid (.inl (hmarked.marked id List.mem_cons_self))

theorem accounts (h : Writing s before marked w t) : s.Accounts before t w.session.pending := by
  intro id e he
  by_cases hpending : id ∈ w.session.pending.keys
  · exact .inl hpending
  · refine (h.tracked id e he).imp_right (Or.imp_right fun hsame => ⟨?_, hsame⟩)
    exact fun hbefore => hpending (h.kept id hbefore)

end Writing

/-- Deletions, up to the first that fails. -/
theorem exists_accounts_deletions (ids : List String) (hstored : w.site.store.shelf? = some t)
    (hkeyed : t.Keyed) (haccounts : s.Accounts before t w.session.pending) :
    ∃ u, (writeAll (ids.map .delete) w).2.site.store.shelf? = some u ∧ u.Keyed ∧
      s.Accounts before u (writeAll (ids.map .delete) w).2.session.pending := by
  induction ids generalizing w t with
  | nil => exact ⟨t, hstored, hkeyed, haccounts⟩
  | cons id rest ih =>
    rw [List.map_cons, writeAll]
    split
    · next hw =>
      rw [of_write_delete hstored hw]
      exact ih rfl (hkeyed.erase id) (haccounts.erase id)
    · exact ⟨t, hstored, hkeyed, haccounts⟩

/-- **Tidy writes account for every document**, however far they get. Induction on the list. -/
theorem exists_accounts_writeAll {writes : List Write} (htidy : s.Tidy marked writes)
    (hs : s.Keyed) (h : Writing s before marked w t) :
    ∃ u, (writeAll writes w).2.site.store.shelf? = some u ∧ u.Keyed ∧
      s.Accounts before u (writeAll writes w).2.session.pending := by
  induction htidy generalizing w t with
  | deletions marked ids => exact exists_accounts_deletions ids h.stored h.keyed h.accounts
  | marks hfirst _ ih =>
    rw [writeAll]
    split
    · next hw =>
      obtain ⟨id, hid, rfl⟩ := of_write_files hfirst h.stored hw
      rw [hid] at ih ⊢
      exact ih (h.file_mark hid)
    · exact ⟨t, h.stored, h.keyed, h.accounts⟩
  | spares hfirst hspared _ ih =>
    rw [writeAll]
    split
    · next hw =>
      obtain ⟨id, hid, rfl⟩ := of_write_files hfirst h.stored hw
      refine ih (h.file hid ?_)
      obtain hproxy | ⟨other, hother, hmarked⟩ | ⟨other, c, hc, hcd⟩ := hspared
      · exact .inr (.inl hproxy)
      · cases hid.symm.trans hmarked
        exact .inl (h.marked id hother)
      · -- the document is written under the id of the one whose text it has
        cases hid.symm.trans (hcd.id?.trans (hs other c hc))
        exact .inr (.inr ⟨c, hc, hcd⟩)
    · exact ⟨t, h.stored, h.keyed, h.accounts⟩

/-- **A tidy plan accounts for every document.** -/
theorem exists_accounts_execute {plan : Plan} (htidy : s.Tidy [] plan.writes)
    (hstored : w.site.store.shelf? = some s) (hkeyed : s.Keyed) :
    ∃ u, (w.execute plan).2.site.store.shelf? = some u ∧ u.Keyed ∧
      s.Accounts w.session.pending u (w.execute plan).2.session.pending := by
  let begun : Workspace := { w with site := { w.site with
    ids := w.site.ids.skip plan.drawn, clock := w.site.clock.next } }
  have hbegun : begun.site.store.shelf? = some s := hstored
  exact exists_accounts_writeAll htidy hkeyed (Writing.start hbegun hkeyed)

end Workspace

end ContentRepository
