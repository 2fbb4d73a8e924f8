import ContentRepository.Proofs.Tree.Runs

/-!
# What is left after a removal

The plan of a removal is drawn up from lists: those of the ancestors and those of the proxies. What
it comes to is said by the parents and the targets alone. The document goes with all from which a
chain of parents leads to it, and with the proxies of any of these; whatever else there was is left
as it was, except that documents which had proxies among what goes list them no more.

* **`Shelf.Pruned`** — a shelf without a document and what hangs on it.
* **`Site.Coherent.pruned_remaining`** — what a removal leaves is such a shelf.
* **`Site.pruned_of_remove`** — every document but the two folders can be removed, and this is what
  becomes of a repository then.
-/

namespace ContentRepository

/-- The second shelf is the first without a document and what hangs on it. -/
structure Shelf.Pruned (s t : Shelf) (id : String) (below : List String) : Prop where
  /-- The document, and all from which a chain of parents leads to it. -/
  mem_iff : ∀ k, k ∈ below ↔ s.InSubtree k id
  /-- Gone are these and the proxies that stand for one of them. -/
  stored : ∀ k, (t.get? k).isSome = true ↔
    (s.get? k).isSome = true ∧ k ∉ below ∧ ∀ b ∈ below, ¬ s.StandsFor k b
  /-- A document stays as it was if none of its proxies was below. -/
  untouched : ∀ k d e, s.get? k = some d → t.get? k = some e →
    (∀ p ∈ below, ¬ s.StandsFor p k) → e = d
  /-- Those that were below are taken from its list, and nothing else is. -/
  detached : ∀ k d e, s.get? k = some d → t.get? k = some e →
    (∃ p ∈ below, s.StandsFor p k) → Document.AgreesUnless (· = Field.proxies) d e ∧
      e.ListsProxies (d.proxies.filter fun p => !below.contains p)

namespace Site

variable {site : Site} {shelf : Shelf} {id : String} {d : Document} {r : Removal}

namespace Filed

/-- A document that is there has a plan for its removal. -/
theorem exists_planRemove (h : Filed site shelf) (hd : shelf.get? id = some d) :
    ∃ plan, site.planRemove id = .ok plan := by
  simp only [planRemove, removal, bind_eq_ok_iff, h.detachments_eq]
  exact ⟨_, _, ⟨d, (require_eq_ok_iff h.stored).2 hd, _, below_eq h.stored id true, rfl⟩, _, rfl, rfl⟩

/-- A document is relinked only for proxies that it loses. -/
theorem exists_of_get?_detached (h : Filed site shelf) (hr : site.removal id = .ok r) {k : String}
    {lost : TextSet} (hlost : r.detached.get? k = some lost) : ∃ p, p ∈ lost.keys := by
  simp only [removal, bind_eq_ok_iff, require_eq_ok_iff h.stored, below_eq h.stored,
    Except.ok.injEq] at hr
  obtain ⟨d, -, below, -, heq⟩ := hr
  cases heq
  exact exists_of_get?_gatherLinks hlost

end Filed

namespace Coherent

/-- What becomes of a document. -/
theorem get?_remaining (h : Coherent site shelf) (r : Removal) (k : String) :
    (remaining shelf r).get? k = if k ∈ gone r then none else
      (shelf.get? k).map fun d => (r.detached.get? k).elim d fun lost =>
        d.relinked [] lost.keys := by
  rw [remaining, Shelf.get?_eraseAll, h.filed.get?_putAll_detached]

theorem of_get?_remaining (h : Coherent site shelf) {k : String} {e : Document}
    (hd : shelf.get? k = some d) (he : (remaining shelf r).get? k = some e) :
    k ∉ gone r ∧ e = (r.detached.get? k).elim d fun lost => d.relinked [] lost.keys := by
  rw [h.get?_remaining, hd] at he
  split at he
  · cases he
  · next hstays => exact ⟨hstays, (Option.some.inj he).symm⟩

/-- What goes is the subtree and the proxies of it. -/
theorem mem_gone_iff (h : Coherent site shelf) (hr : r.Complete shelf id) {k : String} :
    k ∈ gone r ↔ k ∈ r.removed.keys ∨ ∃ b ∈ r.removed.keys, shelf.StandsFor k b := by
  simp only [gone, List.mem_append, hr.orphaned, h.links.standsFor_iff]
  constructor
  · rintro (hk | ⟨-, d, b, hd, htarget, hb⟩)
    · exact .inl hk
    · exact .inr ⟨b, hb, d, hd, htarget⟩
  · rintro (hk | ⟨b, hb, d, hd, htarget⟩)
    · exact .inl hk
    · exact or_iff_not_imp_left.2 fun hk => ⟨hk, d, b, hd, htarget, hb⟩

theorem notMem_gone_iff (h : Coherent site shelf) (hr : r.Complete shelf id) {k : String} :
    k ∉ gone r ↔ k ∉ r.removed.keys ∧ ∀ b ∈ r.removed.keys, ¬ shelf.StandsFor k b := by
  rw [h.mem_gone_iff hr, not_or]
  refine and_congr_right fun _ => ⟨fun hnone b hb hk => hnone ⟨b, hb, hk⟩, ?_⟩
  rintro hnone ⟨b, hb, hk⟩
  exact hnone b hb hk

/-- A document that is not removed loses the proxies of it that are. -/
theorem mem_detached (h : Coherent site shelf) (hr : r.Complete shelf id) {k p : String}
    (hk : k ∉ r.removed.keys) :
    p ∈ ((r.detached.get? k).getD Table.empty).keys ↔
      p ∈ r.removed.keys ∧ shelf.StandsFor p k := by
  rw [hr.detached, h.links.standsFor_iff]
  exact and_iff_right hk

/-- **A removal leaves all but the subtree and the proxies of it.** -/
theorem pruned_remaining (h : Coherent site shelf) (hd : shelf.get? id = some d)
    (hr : site.removal id = .ok r) : shelf.Pruned (remaining shelf r) id r.removed.keys := by
  have hcomplete := h.complete_removal hr
  refine ⟨?mem_iff, ?stored, ?untouched, ?detached⟩
  case mem_iff =>
    -- what is removed is the subtree
    intro k
    rw [hcomplete.removed, h.tree.inSubtree_iff hd]
  case stored =>
    intro k
    rw [h.get?_remaining, ← h.notMem_gone_iff hcomplete]
    split
    · next hgone => simp [hgone]
    · next hstays => simp [hstays]
  case untouched =>
    intro k d e hd he hnone
    obtain ⟨hstays, rfl⟩ := h.of_get?_remaining hd he
    cases hlost : r.detached.get? k with
    | none => rfl
    | some lost =>
      -- it would be relinked for a proxy below
      obtain ⟨p, hp⟩ := h.filed.exists_of_get?_detached hr hlost
      have hk := ((h.notMem_gone_iff hcomplete).1 hstays).1
      have hmem := (h.mem_detached hcomplete hk (p := p)).1 (by rw [hlost]; exact hp)
      exact absurd hmem.2 (hnone p hmem.1)
  case detached =>
    rintro k d e hd he ⟨p, hp, hstands⟩
    obtain ⟨hstays, rfl⟩ := h.of_get?_remaining hd he
    have hk := ((h.notMem_gone_iff hcomplete).1 hstays).1
    have hlost := fun q => h.mem_detached hcomplete hk (p := q)
    cases hget : r.detached.get? k with
    | none =>
      -- a proxy that pointed here is gone, so something was detached
      have hmem := (hlost p).2 ⟨hp, hstands⟩
      rw [hget] at hmem
      simp [Table.empty, Table.keys] at hmem
    | some lost =>
      rw [hget] at hlost
      -- what is detached are just those of the listed that are gone
      have hfilter : (d.proxies.filter fun q => !lost.keys.contains q) =
          d.proxies.filter fun q => !r.removed.keys.contains q := by
        refine List.filter_congr fun q hq => ?_
        rw [Bool.not_inj_iff, Bool.eq_iff_iff, List.contains_iff_mem, List.contains_iff_mem]
        refine (hlost q).trans (and_iff_left ?_)
        exact h.links.standsFor_iff.2 ((h.links.mem_proxies_iff hd).1 hq)
      refine ⟨Document.agreesUnless_relinked d [] lost.keys, ?_⟩
      rw [← hfilter]
      exact d.listsProxies_relinked [] lost.keys

end Coherent

section Founded

variable {repository : String} {provision : Provision} {ids : IdSource} {clock : Instant}
  {queue : Option IndexQueue} {start : Site} {session : Session}

/-- **A removal takes away the subtree and the proxies of it, and nothing else.** Let a run lead from
a new repository to a site, and there let a document be stored, other than the root and the folder
of versions. Then any live session can remove it.

* Afterwards all is there that was before, except for the document, for all from which a chain of
  parents leads to it, and for the proxies that stand for one of these.
* What is there is unchanged, except that a document for which one of those stood lists the proxies
  it did, in the same order, without those from which a chain of parents leads to the one removed. -/
theorem pruned_of_remove (hids : ids.Unrepeated)
    (hfound : Site.found repository (Store.empty provision) ids clock queue = .ok start)
    (hrun : start.Reaches site) (hlive : session.live = true) (hroot : id ≠ site.root)
    (hversions : id ≠ site.versions) (hd : site.store.find? id = .ok (some d)) :
    ∃ after s t below, Workspace.remove ⟨site, session⟩ id = (.ok (), after) ∧
      site.store.shelf? = some s ∧ after.site.store.shelf? = some t ∧ s.Pruned t id below := by
  obtain ⟨shelf, h, -, -⟩ := coherent_of_reaches hids hfound hrun
  rw [Store.find?_eq h.stored, Except.ok.injEq] at hd
  obtain ⟨plan, hplan⟩ := h.filed.exists_planRemove hd
  obtain ⟨r, hr, hwrites⟩ := h.writes_planRemove hplan
  obtain ⟨last, hexecute⟩ :=
    Workspace.execute_of_writes (w := ⟨site, session⟩) hwrites h.stored
  have hremove : Workspace.remove ⟨site, session⟩ id =
      (.ok (), ⟨site.settled plan.drawn (Coherent.remaining shelf r), last⟩) := by
    rw [Workspace.remove, Workspace.requireOrdinary_bind_eq hlive ⟨hroot, hversions⟩, hplan]
    exact hexecute
  exact ⟨_, _, _, _, hremove, h.stored, rfl, h.pruned_remaining hd hr⟩

/-- For instance a folder with a document in it, while a proxy of that document stands elsewhere and
a proxy of another one is in the folder. -/
theorem pruned_of_folder :
    ∃ start, Site.found "test" (Store.empty .own) .sequential ⟨0, 0, by decide⟩ none = .ok start ∧
      let site := start.afterCalls (.fresh "s")
        [.addChild start.root "a" "Folder", .addChild "UUID_2" "b" "File",
          .addProxy "UUID_3" start.root "c", .addChild start.root "d" "File",
          .addProxy "UUID_5" "UUID_2" "e"]
      ∃ after s t below, Workspace.remove ⟨site, .fresh "s"⟩ "UUID_2" = (.ok (), after) ∧
        site.store.shelf? = some s ∧ after.site.store.shelf? = some t ∧
        s.Pruned t "UUID_2" below := by
  refine ⟨_, Coherent.found_eq_ok IdSource.unrepeated_sequential, ?_⟩
  intro site
  have hname : (site.store.find? "UUID_2").toOption.join.map (·.name?) = some (some "a") := by
    decide +kernel
  have hroot : "UUID_2" ≠ site.root := by decide +kernel
  have hversions : "UUID_2" ≠ site.versions := by decide +kernel
  obtain ⟨d, hd, -⟩ := Store.exists_find?_eq hname
  exact pruned_of_remove IdSource.unrepeated_sequential
    (Coherent.found_eq_ok IdSource.unrepeated_sequential)
    (.afterCalls _ _ (by simp [AdmitsCall])) rfl hroot hversions hd

end Founded

end Site

end ContentRepository
