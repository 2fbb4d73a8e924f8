import ContentRepository.Proofs.Fulltext.Marking
import ContentRepository.Proofs.Tree.Contents

/-!
# What writes make of the documents

However far the writes of a plan get, a document that is there afterwards is one that was there, or
one of those that the plan writes. So what an operation may do to a document can be read off its
plan.

* **`Field.OfIndexing`** and **`IndexJob.agreesUnless_of_apply`** — the fields that indexing writes.
* **`Shelf.Yields`** and **`Workspace.exists_yields_execute`** — where the documents after a plan
  come from.
-/

namespace ContentRepository

/-! ## Fields of indexing -/

namespace Field

/-- The fields that indexing writes. -/
def OfIndexing (key : String) : Prop :=
  key = textJob ∨ ∃ (kind : TextKind) (index : String), key = kind.field index

/-- The fields that may change in a document because of others: indexing writes its texts, and
proxies of it come and go. -/
def Incidental (key : String) : Prop := key = proxies ∨ OfIndexing key

theorem not_ofIndexing {keys : List String}
    (hkeys : ∀ key ∈ keys, key.toList.take 8 ≠ "fulltext".toList) :
    ∀ key ∈ keys, ¬ OfIndexing key := by
  rintro key hkey (rfl | ⟨kind, index, rfl⟩)
  · exact hkeys _ hkey (by decide)
  · exact IndexJob.field_notMem hkeys kind index hkey

theorem not_incidental {keys : List String} (hproxies : proxies ∉ keys)
    (hkeys : ∀ key ∈ keys, key.toList.take 8 ≠ "fulltext".toList) :
    ∀ key ∈ keys, ¬ Incidental key := by
  rintro key hkey (rfl | hindexing)
  · exact hproxies hkey
  · exact not_ofIndexing hkeys key hkey hindexing

end Field

/-- **An indexing job writes the fields of indexing alone.** -/
theorem IndexJob.agreesUnless_of_apply {s : Store} {shelf : Shelf}
    (hstore : s.shelf? = some shelf) (hkeyed : shelf.Keyed)
    (obstacle : String → Option StoreError) (job : IndexJob) :
    ∃ t, (job.apply obstacle s).2.shelf? = some t ∧ ∀ id e, t.get? id = some e →
      ∃ d, shelf.get? id = some d ∧ Document.AgreesUnless Field.OfIndexing d e := by
  obtain ⟨t, ht, hagree⟩ := agreesOn_structural_of_apply hstore hkeyed obstacle job
  refine ⟨t, ht, fun id e he => ?_⟩
  obtain ⟨d, hd, -⟩ := hagree.right he
  refine ⟨d, hd, fun key hkey => ?_⟩
  -- the job keeps any set of fields that has the id and none of indexing
  have hfields : ∀ kind index, TextKind.field kind index ∉ [Field.id, key] := by
    intro kind index hmem
    rcases List.mem_cons.1 hmem with hid | hmem
    · exact field_notMem (by decide) kind index (List.mem_singleton.2 hid)
    · exact hkey (.inr ⟨kind, index, (List.mem_singleton.1 hmem).symm⟩)
  have hjob : Field.textJob ∉ [Field.id, key] := by
    intro hmem
    rcases List.mem_cons.1 hmem with hid | hmem
    · exact absurd hid (by decide)
    · exact hkey (.inl (List.mem_singleton.1 hmem).symm)
  have hkept : ∃ u, (job.apply obstacle s).2.shelf? = some u ∧
      shelf.AgreesOn [Field.id, key] u :=
    agreesOn_of_apply List.mem_cons_self hfields hjob hstore hkeyed obstacle job
  obtain ⟨u, hu, hsame⟩ := hkept
  cases ht.symm.trans hu
  obtain ⟨c, hc, hce⟩ := hsame.right he
  cases hd.symm.trans hc
  exact hce key (by simp)

/-! ## Documents kept and documents written -/

/-- Every document on the second shelf was on the first one, or is one that the writes put there. In
the latter case its id was taken on the first shelf, or the writes create a document under it. -/
def Shelf.Yields (s : Shelf) (writes : List Write) (t : Shelf) : Prop :=
  ∀ id e, t.get? id = some e → s.get? id = some e ∨
    ((∃ first ∈ writes, first.Files e) ∧ e.id? = some id ∧
      ((s.get? id).isSome = true ∨ ∃ c, .create c ∈ writes ∧ c.id? = some id))

namespace Shelf.Yields

variable {s t u : Shelf} {writes rest : List Write} {first : Write} {id : String} {d : Document}

theorem refl (s : Shelf) (writes : List Write) : s.Yields writes s := fun _ _ he => .inl he

theorem erase (s : Shelf) (writes : List Write) (id : String) :
    s.Yields writes (Table.erase s id) := by
  intro other e he
  rw [Table.get?_erase] at he
  split at he
  · cases he
  · exact .inl he

theorem file (hfiles : first.Files d) (hid : d.id? = some id)
    (horigin : (s.get? id).isSome = true ∨ first = .create d) :
    s.Yields [first] (Table.insert s id d) := by
  intro other e he
  obtain ⟨rfl, rfl⟩ | ⟨-, he⟩ := Table.get?_insert_eq_some_iff.1 he
  · refine .inr ⟨⟨first, List.mem_cons_self, hfiles⟩, hid, horigin.imp_right fun heq => ?_⟩
    exact ⟨e, by rw [heq]; exact List.mem_cons_self, hid⟩
  · exact .inl he

/-- An id that is taken then was taken before, or a document was created under it. -/
theorem origin (h : s.Yields writes t) (hid : (t.get? id).isSome = true) :
    (s.get? id).isSome = true ∨ ∃ c, .create c ∈ writes ∧ c.id? = some id := by
  obtain ⟨e, he⟩ := Option.isSome_iff_exists.1 hid
  obtain hkept | ⟨-, -, horigin⟩ := h id e he
  · exact .inl (by rw [hkept]; rfl)
  · exact horigin

theorem cons (hfirst : s.Yields [first] u) (hrest : u.Yields rest t) :
    s.Yields (first :: rest) t := by
  -- what the first write creates, the list creates
  have horigin : ∀ id, (u.get? id).isSome = true →
      (s.get? id).isSome = true ∨ ∃ c, .create c ∈ first :: rest ∧ c.id? = some id := by
    intro id hid
    obtain hold | ⟨c, hc, hcid⟩ := hfirst.origin hid
    · exact .inl hold
    · exact .inr ⟨c, List.mem_cons.2 (.inl (List.mem_singleton.1 hc)), hcid⟩
  intro id e he
  obtain hkept | ⟨⟨later, hlater, hfiles⟩, hid, hthen⟩ := hrest id e he
  · obtain hold | ⟨⟨_, hmem, hfiles⟩, hid, -⟩ := hfirst id e hkept
    · exact .inl hold
    · cases List.mem_singleton.1 hmem
      exact .inr ⟨⟨first, List.mem_cons_self, hfiles⟩, hid, horigin id (by rw [hkept]; rfl)⟩
  · refine .inr ⟨⟨later, List.mem_cons_of_mem _ hlater, hfiles⟩, hid, ?_⟩
    obtain hthere | ⟨c, hc, hcid⟩ := hthen
    · exact horigin id hthere
    · exact .inr ⟨c, List.mem_cons_of_mem _ hc, hcid⟩

end Shelf.Yields

namespace Workspace

variable {w : Workspace} {s : Shelf}

theorem exists_yields_write {after : Workspace} {first : Write}
    (hstored : w.site.store.shelf? = some s) (hw : w.write first = .ok after) :
    ∃ t, after.site.store.shelf? = some t ∧ s.Yields [first] t := by
  cases first with
  | mark id =>
    cases hw
    exact ⟨s, hstored, .refl s _⟩
  | delete id =>
    rw [of_write_delete hstored hw]
    exact ⟨_, rfl, .erase s _ id⟩
  | create d =>
    obtain ⟨id, hid, rfl⟩ := of_write_files (.create d) hstored hw
    exact ⟨_, rfl, .file (.create d) hid (.inr rfl)⟩
  | update d =>
    obtain ⟨store, hupdate, heq⟩ := bind_eq_ok_iff.1 hw
    cases heq
    obtain ⟨id, shelf, hid, hshelf, hthere, rfl⟩ := Store.update_eq_ok_iff.1 hupdate
    cases hstored.symm.trans hshelf
    exact ⟨_, rfl, .file (.update d) hid (.inl hthere)⟩

/-- **However far the writes get, the documents that are there then were there before or are among
those written.** Induction on the list. -/
theorem exists_yields_writeAll (writes : List Write) (hstored : w.site.store.shelf? = some s) :
    ∃ t, (writeAll writes w).2.site.store.shelf? = some t ∧ s.Yields writes t := by
  induction writes generalizing w s with
  | nil => exact ⟨s, hstored, .refl s []⟩
  | cons first rest ih =>
    rw [writeAll]
    cases hw : w.write first with
    | error e => exact ⟨s, hstored, .refl s _⟩
    | ok after =>
      obtain ⟨u, hu, hfirst⟩ := exists_yields_write hstored hw
      obtain ⟨t, ht, hrest⟩ := ih hu
      exact ⟨t, ht, hfirst.cons hrest⟩

theorem exists_yields_execute (plan : Plan) (hstored : w.site.store.shelf? = some s) :
    ∃ t, (w.execute plan).2.site.store.shelf? = some t ∧ s.Yields plan.writes t := by
  let begun : Workspace := { w with site := { w.site with
    ids := w.site.ids.skip plan.drawn, clock := w.site.clock.next } }
  have hbegun : begun.site.store.shelf? = some s := hstored
  exact exists_yields_writeAll plan.writes hbegun

end Workspace

end ContentRepository
