import ContentRepository.Proofs.Session.Frame
import ContentRepository.Proofs.Session.Planned
import ContentRepository.Proofs.Store.Filing
import ContentRepository.Proofs.Tree.Coherence

/-!
# Operations that leave the tree and the links alone

Most writes concern other fields than those of the tree and of the links: checking out, policies,
the content of documents, indexed texts. A site stays coherent through each of them, also through
those that fail.

* **`Site.Coherent.of_planCheckOut`** and **`Site.Coherent.of_planPolicy`** — one field of a
  document is changed.
* **`Site.Coherent.update`** and **`Site.Coherent.revise`** — the content of a document is changed.
* **`Site.Coherent.index`** — an indexing job is carried out.
* **`Site.Coherent.commit`** — jobs are submitted, and nothing is written.
-/

namespace ContentRepository

/-! ## What indexing jobs write -/

/-- **An edit in place keeps the fields that its change keeps**, and the id besides. -/
theorem Store.agreesOn_of_edit {s after : Store} {shelf : Shelf} {keys : List String}
    {id : String} {change : Document → Option Document} {edited : Bool}
    (hstore : s.shelf? = some shelf) (hkeyed : shelf.Keyed)
    (hchange : ∀ d e, change d = some e → Document.AgreesOn keys d e)
    (hedit : s.edit id change = .ok (edited, after)) :
    ∃ t, after.shelf? = some t ∧ shelf.AgreesOn keys t := by
  rw [edit_eq hstore] at hedit
  cases hd : shelf.get? id with
  | none =>
    rw [hd] at hedit
    cases hedit
  | some d =>
    rw [hd] at hedit
    cases hc : change d with
    | none =>
      simp only [hc] at hedit
      cases hedit
      exact ⟨shelf, hstore, .refl keys shelf⟩
    | some e =>
      simp only [hc] at hedit
      cases hedit
      refine ⟨_, rfl, .insert hd ?_⟩
      -- the id is put back, and it is the one that the document had
      intro key hkey
      rw [Document.get?_set]
      split
      · next heq => rw [heq, Document.string?_eq_some_iff.1 (hkeyed id d hd)]
      · exact hchange d e hc key hkey

namespace IndexJob

/-- The names of the fields for indexed texts begin alike, so a field whose name begins otherwise is
none of them. -/
theorem field_notMem {keys : List String}
    (hkeys : ∀ key ∈ keys, key.toList.take 8 ≠ "fulltext".toList) (kind : TextKind)
    (index : String) : kind.field index ∉ keys := by
  have hbegin : ∃ rest, (kind.field index).toList = "fulltext".toList ++ rest := by
    cases kind <;> simp only [TextKind.field] <;> split
    · exact ⟨"Simple".toList, by decide⟩
    · exact ⟨"Simple_".toList ++ index.toList, by simp [Field.simpleText, String.toList_append]⟩
    · exact ⟨"Binary".toList, by decide⟩
    · exact ⟨"Binary_".toList ++ index.toList, by simp [Field.binaryText, String.toList_append]⟩
  obtain ⟨rest, hrest⟩ := hbegin
  intro hmem
  refine hkeys _ hmem ?_
  rw [hrest]
  exact List.take_left' (by decide)

/-- No indexed text is kept in a structural field. -/
theorem field_notMem_structural (kind : TextKind) (index : String) :
    kind.field index ∉ Field.structural :=
  field_notMem (by decide) kind index

section Keys

variable {keys : List String}

theorem agreesOn_fill (hfields : ∀ kind index, TextKind.field kind index ∉ keys) (job : IndexJob)
    (d : Document) : Document.AgreesOn keys d (job.fill d) := by
  refine Document.agreesOn_setAll ?_ d
  intro field hfield
  obtain ⟨⟨index, text⟩, -, rfl⟩ := List.mem_map.1 hfield
  exact hfields job.kind index

theorem agreesOn_fillOne (hfields : ∀ kind index, TextKind.field kind index ∉ keys)
    (job : IndexJob) (d e : Document) (hfill : job.fillOne d = some e) :
    Document.AgreesOn keys d e := by
  rw [fillOne] at hfill
  split at hfill
  · cases hfill
  · cases hfill
    exact agreesOn_fill hfields job d

theorem agreesOn_fillWaiting (hfields : ∀ kind index, TextKind.field kind index ∉ keys)
    (hjob : Field.textJob ∉ keys) (job : IndexJob) (id : String) (d e : Document)
    (hfill : job.fillWaiting id d = some e) : Document.AgreesOn keys d e := by
  rw [fillWaiting] at hfill
  split at hfill
  · cases hfill
  · cases hfill
    exact (agreesOn_fill hfields job d).trans (Document.agreesOn_unset hjob _)

variable {s : Store} {shelf : Shelf}

theorem agreesOn_of_editUnless {after : Store} {id : String} {edited : Bool}
    {obstacle : String → Option StoreError} {change : Document → Option Document}
    (hstore : s.shelf? = some shelf) (hkeyed : shelf.Keyed)
    (hchange : ∀ d e, change d = some e → Document.AgreesOn keys d e)
    (hedit : editUnless obstacle s id change = .ok (edited, after)) :
    ∃ t, after.shelf? = some t ∧ shelf.AgreesOn keys t := by
  rw [editUnless] at hedit
  split at hedit
  · cases hedit
  · exact Store.agreesOn_of_edit hstore hkeyed hchange hedit

/-- Edits one after another, whether they succeed or not. -/
theorem agreesOn_of_editEach {obstacle : String → Option StoreError}
    {change : Document → Option Document} (hid : Field.id ∈ keys) (hstore : s.shelf? = some shelf)
    (hkeyed : shelf.Keyed) (hchange : ∀ d e, change d = some e → Document.AgreesOn keys d e)
    (ids : List String) :
    ∃ t, (editEach obstacle change ids s).2.shelf? = some t ∧ shelf.AgreesOn keys t := by
  induction ids generalizing s shelf with
  | nil => exact ⟨shelf, hstore, .refl _ shelf⟩
  | cons id rest ih =>
    rw [editEach]
    split
    · next edited after hedit =>
      obtain ⟨t, ht, hst⟩ := agreesOn_of_editUnless hstore hkeyed hchange hedit
      obtain ⟨u, hu, htu⟩ := ih ht (hkeyed.congr hst hid)
      exact ⟨u, hu, hst.trans htu⟩
    · exact ih hstore hkeyed

/-- **An indexing job leaves all fields alone but those of indexing.** -/
theorem agreesOn_of_apply (hid : Field.id ∈ keys)
    (hfields : ∀ kind index, TextKind.field kind index ∉ keys) (hjob : Field.textJob ∉ keys)
    (hstore : s.shelf? = some shelf) (hkeyed : shelf.Keyed)
    (obstacle : String → Option StoreError) (job : IndexJob) :
    ∃ t, (job.apply obstacle s).2.shelf? = some t ∧ shelf.AgreesOn keys t := by
  rw [apply]
  split
  · split
    · next hedit =>
      exact agreesOn_of_editUnless hstore hkeyed (agreesOn_fillOne hfields job) hedit
    · exact ⟨shelf, hstore, .refl _ shelf⟩
    · exact ⟨shelf, hstore, .refl _ shelf⟩
  · next id htarget =>
    split
    · exact ⟨shelf, hstore, .refl _ shelf⟩
    · next ids hids =>
      exact agreesOn_of_editEach hid hstore hkeyed (agreesOn_fillWaiting hfields hjob job id) ids

end Keys

/-- **An indexing job leaves the structural fields alone.** -/
theorem agreesOn_structural_of_apply {s : Store} {shelf : Shelf} (hstore : s.shelf? = some shelf)
    (hkeyed : shelf.Keyed) (obstacle : String → Option StoreError) (job : IndexJob) :
    ∃ t, (job.apply obstacle s).2.shelf? = some t ∧ shelf.AgreesOn Field.structural t :=
  agreesOn_of_apply (by decide) field_notMem_structural (by decide) hstore hkeyed obstacle job

end IndexJob

namespace Site.Coherent

variable {site : Site} {shelf : Shelf}

/-- Only the store is another, and its documents agree on the structural fields. -/
theorem withStore (h : Coherent site shelf) {store : Store} {after : Shelf}
    (hstored : store.shelf? = some after) (hagree : shelf.AgreesOn Field.structural after) :
    Coherent { site with store } after :=
  h.of_agreesOn hstored rfl rfl rfl (Nat.le_refl _) hagree

/-- **A stored document may be replaced by one that agrees with it on the structural fields.** -/
theorem of_update (h : Coherent site shelf) {id : String} {d e : Document}
    (hd : shelf.get? id = some d) (hde : Document.AgreesOn Field.structural d e) :
    ∃ t, shelf.Writes [.update e] t ∧ Coherent (site.settled 0 t) t := by
  have hid : e.id? = some id := (hde.string? (by decide)).trans (h.keyed id d hd)
  refine ⟨_, .update hid (by rw [hd]; rfl) (.nil _), ?_⟩
  exact h.of_agreesOn rfl rfl rfl rfl (Nat.le_add_right _ _) (.insert hd hde)

/-! ## Single fields -/

/-- **A document can be checked out.** -/
theorem of_planCheckOut (h : Coherent site shelf) {id : String} {plan : Plan}
    (hplan : site.planCheckOut id = .ok plan) :
    ∃ t, shelf.Writes plan.writes t ∧ Coherent (site.settled plan.drawn t) t := by
  obtain ⟨d, hd, -, rfl⟩ := planCheckOut_eq_ok h.stored hplan
  exact h.of_update hd (Document.agreesOn_unset (by decide) d)

/-- **A policy can be put on a document.** -/
theorem of_planPolicy (h : Coherent site shelf) {id : String} {policy : Policy}
    {overwrite : Bool} {plan : Plan} (hplan : site.planPolicy id policy overwrite = .ok plan) :
    ∃ t, shelf.Writes plan.writes t ∧ Coherent (site.settled plan.drawn t) t := by
  obtain ⟨d, merged, hd, rfl⟩ := planPolicy_eq_ok h.stored hplan
  refine h.of_update hd ?_
  rw [Document.withPolicy]
  split
  · exact Document.agreesOn_unset (by decide) d
  · exact Document.agreesOn_set (by decide) d _

/-! ## Contents -/

/-- Marks come to nothing on the shelf. -/
theorem writes_mark (ids : List String) (shelf : Shelf) :
    shelf.Writes (ids.map .mark) shelf := by
  induction ids with
  | nil => exact .nil shelf
  | cons id rest ih => exact .mark ih

/-- **The content of a document may be replaced.** The document that is written agrees on the
structural fields with the one that is stored under its id; if there is none, nothing is written. -/
theorem update {w : Workspace} (h : Coherent w.site shelf) {d : Document}
    (hagree : ∀ id e, d.id? = some id → shelf.get? id = some e →
      Document.AgreesOn Field.structural e d) :
    ∃ t, Coherent (w.update d).2.site t := by
  by_cases hthere : ∃ id e, d.id? = some id ∧ shelf.get? id = some e
  · obtain ⟨id, e, hid, he⟩ := hthere
    refine h.change fun plan hplan => ?_
    obtain ⟨site, -, heq⟩ := bind_eq_ok_iff.1 hplan
    cases heq
    obtain ⟨t, hwrites, ht⟩ := h.of_update he (hagree id e hid he)
    exact ⟨t, hwrites.append (writes_mark _ t), ht⟩
  · have habsent : ∀ id, d.id? = some id → shelf.get? id = none := by
      intro id hid
      cases he : shelf.get? id with
      | none => rfl
      | some e => exact absurd ⟨id, e, hid, he⟩ hthere
    obtain ⟨error, herror⟩ := Store.exists_update_eq_error h.stored habsent
    refine ⟨shelf, ?_⟩
    cases hlive : w.session.live with
    | false =>
      rw [Workspace.update, Workspace.liveSite, hlive]
      exact h
    | true =>
      rw [Workspace.update, Workspace.liveSite, hlive]
      show Coherent (w.execute { writes := .update d :: d.id?.toList.map .mark }).2.site shelf
      rw [Workspace.execute, Workspace.writeAll, Workspace.write, herror]
      -- time passes even so
      exact h.of_agreesOn h.stored rfl rfl rfl (Nat.le_add_right _ _) (.refl _ _)

/-- **Fields of a document other than the structural ones may be set and cleared.** -/
theorem revise {w : Workspace} (h : Coherent w.site shelf) {id : String}
    {fields : List (String × Value)} {cleared : List String}
    (hfields : ∀ field ∈ fields, field.1 ∉ Field.structural)
    (hcleared : ∀ key ∈ cleared, key ∉ Field.structural) :
    ∃ t, Coherent (w.revise id fields cleared).2.site t := by
  obtain hsame | ⟨d, hask, hupdate⟩ := w.snd_revise id fields cleared
  · rw [hsame]
    exact ⟨shelf, h⟩
  have hd : shelf.get? id = some d := by
    have hfind := (Workspace.of_liveSite_bind hask).2
    rw [find?_eq h.stored] at hfind
    exact Except.ok.inj hfind
  have hkept : Document.AgreesOn Field.structural d ((d.setAll fields).unsetAll cleared) :=
    (Document.agreesOn_setAll hfields d).trans (Document.agreesOn_unsetAll hcleared _)
  rw [hupdate]
  refine h.update fun other e hother he => ?_
  rw [Document.id?, hkept.string? (by decide)] at hother
  cases (h.keyed id d hd).symm.trans hother
  cases hd.symm.trans he
  exact hkept

/-! ## Indexed texts -/

/-- **An indexing job leaves a site coherent**, whatever the job and whatever is in its way. -/
theorem index (h : Coherent site shelf) (obstacle : String → Option StoreError) (job : IndexJob) :
    ∃ t, Coherent { site with store := (job.apply obstacle site.store).2 } t := by
  obtain ⟨t, ht, hagree⟩ := IndexJob.agreesOn_structural_of_apply h.stored h.keyed obstacle job
  exact ⟨t, h.withStore ht hagree⟩

/-! ## Commits -/

/-- **A commit leaves a site coherent.** -/
theorem commit {w : Workspace} (h : Coherent w.site shelf) : Coherent w.commit.2.site shelf := by
  obtain ⟨queue, heq⟩ := Workspace.exists_site_commit (w := w)
  rw [heq]
  exact h.of_agreesOn h.stored rfl rfl rfl (Nat.le_refl _) (.refl _ _)

end Site.Coherent

end ContentRepository
