import ContentRepository.Proofs.Session.Revising
import ContentRepository.Proofs.Tree.Coherence
import Mathlib.Data.List.TakeWhile

/-!
# Moves

A move gives a document another parent and another name. Of the ancestors of everything below it,
the part that leads to it is replaced.

* **`Site.rebasedAncestors_of_parent`** and **`Site.rebasedAncestors_append`** — the new ancestors
  follow the chain of parents.
* **`Site.moved`** — what becomes of each document.
* **`Shelf.AdmitsMove`** — what is asked of a move.
* **`TreeShaped.move`** — a tree stays a tree.
* **`Site.Filed.planMove_eq_ok`** and **`Site.Filed.planMove_eq`** — what a move plans, and what it
  takes to have a plan; by **`Site.Filed.writes_relocated`** that can be carried out.
* **`Site.Coherent.of_planMove`** — it leads to a coherent site.
-/

namespace ContentRepository

namespace Site

/-! ## Ancestors after a move -/

/-- What led to the moved document is replaced, and what comes after it stays. -/
theorem rebasedAncestors_of_notMem {id : String} {front before rest : List String}
    (hid : id ∉ before) : rebasedAncestors id front (before ++ id :: rest) = front ++ rest := by
  have hbefore : before.dropWhile (fun k => decide (k ≠ id)) = [] := by
    refine List.dropWhile_eq_nil_iff.2 fun k hk => ?_
    refine decide_eq_true ?_
    rintro rfl
    exact hid hk
  rw [rebasedAncestors, List.dropWhile_append, hbefore]
  simp

/-- The children of the moved document come right below it. -/
theorem rebasedAncestors_of_parent {id : String} {front ancestors : List String}
    (hid : id ∉ ancestors) : rebasedAncestors id front (ancestors ++ [id]) = front :=
  (rebasedAncestors_of_notMem hid).trans (List.append_nil front)

/-- Further below, a child comes below its parent as before. -/
theorem rebasedAncestors_append {id p : String} {front ancestors : List String}
    (hid : id ∈ ancestors) :
    rebasedAncestors id front (ancestors ++ [p]) = rebasedAncestors id front ancestors ++ [p] := by
  obtain ⟨before, rest, rfl, hbefore⟩ := List.eq_append_cons_of_mem hid
  rw [List.append_assoc, List.cons_append, rebasedAncestors_of_notMem hbefore,
    rebasedAncestors_of_notMem hbefore, List.append_assoc]

/-! ## Documents after a move -/

/-- A document below the moved one, with its new ancestors. -/
def rebased (id : String) (front : List String) (d : Document) : Document :=
  d.set Field.ancestors (.references (rebasedAncestors id front d.ancestors))

/-- What becomes of a document when `id` is moved. -/
def moved (id : String) (dest : Document) (destId name : String) (k : String) (d : Document) :
    Document :=
  if k = id then relocated d dest destId name
  else if id ∈ d.ancestors then rebased id (dest.childAncestors ++ [id]) d
  else d

variable {id destId name k : String} {d dest : Document}

theorem agreesUnless_relocated :
    Document.AgreesUnless (· ∈ [Field.parent, Field.name, Field.ancestors]) d
      (relocated d dest destId name) :=
  Document.agreesUnless_setAll (by simp +decide) d

theorem agreesUnless_rebased {front : List String} :
    Document.AgreesUnless (· ∈ [Field.parent, Field.name, Field.ancestors]) d
      (rebased id front d) :=
  Document.agreesUnless_set_of_mem (by decide) d _

theorem get?_ancestors_rebased {front : List String} :
    (rebased id front d).get? Field.ancestors =
      some (.references (rebasedAncestors id front d.ancestors)) := by
  rw [rebased, Document.get?_set, if_pos rfl]

theorem ancestors_rebased {front : List String} :
    (rebased id front d).ancestors = rebasedAncestors id front d.ancestors :=
  Document.references_of_get? get?_ancestors_rebased

theorem get?_relocated (d : Document) (name : String) (hdest : dest.id? = some destId) :
    (relocated d dest destId name).get? Field.parent = some (.reference destId) ∧
      (relocated d dest destId name).get? Field.name = some (.string name) ∧
      (relocated d dest destId name).get? Field.ancestors =
        some (.references (dest.ancestors ++ [destId])) ∧
      Document.AgreesOn [Field.id, Field.isProxy, Field.isVersion, Field.target, Field.proxies] d
        (relocated d dest destId name) := by
  have hchild : dest.childAncestors = dest.ancestors ++ [destId] := by
    rw [Document.childAncestors, hdest]
    rfl
  refine ⟨?_, ?_, ?_, ?_⟩
  case refine_4 => exact agreesUnless_relocated.agreesOn (by decide)
  all_goals simp +decide [relocated, Document.setAll, Document.get?_set, hchild]

/-- A move concerns the place of documents alone. -/
theorem agreesOn_moved : Document.AgreesOn
    [Field.id, Field.isProxy, Field.isVersion, Field.target, Field.proxies] d
      (moved id dest destId name k d) := by
  rw [moved]
  split
  · exact agreesUnless_relocated.agreesOn (by decide)
  · split
    · exact agreesUnless_rebased.agreesOn (by decide)
    · exact .refl _ d

/-- All documents but the moved one keep their parents and their names. -/
theorem agreesOn_moved_of_ne (hne : k ≠ id) :
    Document.AgreesOn [Field.parent, Field.name] d (moved id dest destId name k d) := by
  rw [moved, if_neg hne]
  split
  · exact Document.agreesOn_set (by decide) d _
  · exact .refl _ d

end Site

open Site

/-! ## The shape after a move -/

/-- What is asked of a move: the document is neither the root nor the folder of versions nor a
version, it goes under a container that is not below it, and nothing else there has its name. -/
structure Shelf.AdmitsMove (shelf : Shelf) (root versions id destId name : String)
    (d dest : Document) : Prop where
  document : shelf.get? id = some d
  destination : shelf.get? destId = some dest
  keyed : dest.id? = some destId
  ne_root : id ≠ root
  ne_versions : id ≠ versions
  version : d.isVersion = false
  unfiled : destId ≠ versions
  container : dest.isProxy = false ∧ dest.isVersion = false
  ne : destId ≠ id
  elsewhere : id ∉ dest.ancestors
  unused : ∀ other e, shelf.get? other = some e →
    e.get? Field.parent = some (.reference destId) → e.get? Field.name = some (.string name) →
    other = id

namespace Shelf.AdmitsMove

variable {s : Shelf} {root versions id destId name k other p : String}
  {d dest e c dp : Document}

theorem moved_self (hm : s.AdmitsMove root versions id destId name d dest)
    (he : s.get? id = some e) :
    moved id dest destId name id e = relocated d dest destId name := by
  cases hm.document.symm.trans he
  rw [moved, if_pos rfl]

theorem moved_of_notMem (hk : k ≠ id) (hid : id ∉ e.ancestors) :
    moved id dest destId name k e = e := by
  rw [moved, if_neg hk, if_neg hid]

theorem moved_of_mem (hk : k ≠ id) (hid : id ∈ e.ancestors) :
    moved id dest destId name k e = rebased id (dest.childAncestors ++ [id]) e := by
  rw [moved, if_neg hk, if_pos hid]

/-- The ancestors of a child still follow those of its parent. The cases are how far the child is
below the moved document. -/
theorem ancestors_moved (hm : s.AdmitsMove root versions id destId name d dest)
    (h : TreeShaped root versions s) (he : s.get? k = some e) (hk : k ≠ id)
    (hparent : e.get? Field.parent = some (.reference p)) (hdp : s.get? p = some dp) :
    (moved id dest destId name k e).get? Field.ancestors =
      some (.references ((moved id dest destId name p dp).ancestors ++ [p])) := by
  obtain ⟨-, -, hplace, -⟩ := get?_relocated d name hm.keyed
  have hancestors := h.ancestors_of_child he hparent hdp
  have hmem := h.mem_ancestors_of_child (a := id) he hparent hdp
  by_cases hpid : p = id
  · -- a child of the moved document
    subst hpid
    rw [hm.moved_self hdp, moved_of_mem hk (hmem.2 (.inr rfl)), get?_ancestors_rebased,
      Document.ancestors, Document.references_of_get? hancestors,
      rebasedAncestors_of_parent (h.notMem_ancestors hdp), Document.ancestors,
      Document.references_of_get? hplace, Document.childAncestors, hm.keyed]
    rfl
  · by_cases hbelow : id ∈ dp.ancestors
    · -- further below
      rw [moved_of_mem hk (hmem.2 (.inl hbelow)), moved_of_mem hpid hbelow,
        get?_ancestors_rebased, Document.ancestors, Document.references_of_get? hancestors,
        rebasedAncestors_append hbelow, ancestors_rebased]
    · -- elsewhere
      have hbelowK : id ∉ e.ancestors := fun hid =>
        (hmem.1 hid).elim hbelow fun heq => hpid heq.symm
      rw [moved_of_notMem hk hbelowK, moved_of_notMem hpid hbelow]
      exact hancestors

/-- The moved document keeps its new name to itself. -/
theorem eq_of_place (hm : s.AdmitsMove root versions id destId name d dest)
    (he : s.get? k = some e)
    (hparent : (moved id dest destId name k e).get? Field.parent = some (.reference destId))
    (hname : (moved id dest destId name k e).get? Field.name = some (.string name)) : k = id := by
  by_contra hk
  rw [agreesOn_moved_of_ne hk _ (by decide)] at hparent hname
  exact hk (hm.unused k e he hparent hname)

/-- A move brings no name in twice. -/
theorem eq_of_names (hm : s.AdmitsMove root versions id destId name d dest)
    (h : TreeShaped root versions s) (he : s.get? k = some e) (hc : s.get? other = some c)
    (hparent : (moved id dest destId name k e).get? Field.parent =
      (moved id dest destId name other c).get? Field.parent)
    (hname : (moved id dest destId name k e).get? Field.name =
      (moved id dest destId name other c).get? Field.name) : k = other := by
  obtain ⟨hparentId, hnameId, -, -⟩ := get?_relocated d name hm.keyed
  by_cases hk : k = id
  · subst hk
    rw [hm.moved_self he] at hparent hname
    exact (hm.eq_of_place hc (hparent.symm.trans hparentId) (hname.symm.trans hnameId)).symm
  · by_cases hother : other = id
    · subst hother
      rw [hm.moved_self hc] at hparent hname
      exact hm.eq_of_place he (hparent.trans hparentId) (hname.trans hnameId)
    · -- neither was moved, so both have their parents and names as before
      rw [agreesOn_moved_of_ne hk _ (by decide), agreesOn_moved_of_ne hother _ (by decide)]
        at hparent hname
      exact h.names k other e c he hc hparent hname

end Shelf.AdmitsMove

/-- **A move that is admitted leaves a tree.** -/
theorem TreeShaped.move {root versions id destId name : String} {s t : Shelf} {d dest : Document}
    (h : TreeShaped root versions s) (hm : s.AdmitsMove root versions id destId name d dest)
    (hget : ∀ k, t.get? k = (s.get? k).map (moved id dest destId name k)) :
    TreeShaped root versions t := by
  obtain ⟨hparentId, -, hancestorsId, -⟩ := get?_relocated d name hm.keyed
  -- every document is the old one as it is moved
  have hnew : ∀ {k e}, s.get? k = some e → t.get? k = some (moved id dest destId name k e) := by
    intro k e he
    rw [hget, he]
    rfl
  have hold : ∀ {k f}, t.get? k = some f →
      ∃ e, s.get? k = some e ∧ moved id dest destId name k e = f := by
    intro k f hf
    rw [hget] at hf
    exact Option.map_eq_some_iff.1 hf
  refine ⟨?top, ?child, ?names, ?filed, ?versionName, ?childless, ?folder⟩
  case top =>
    obtain ⟨r, hr, hrest⟩ := h.top
    refine ⟨r, ?_, hrest⟩
    -- the root is not below what is moved
    rw [hnew hr, Shelf.AdmitsMove.moved_of_notMem hm.ne_root.symm]
    rw [h.ancestors_root hr]
    exact List.not_mem_nil
  case folder =>
    obtain ⟨f, hf, hrest⟩ := h.folder
    refine ⟨f, ?_, hrest⟩
    -- nor is the folder of the versions, which is only below the root
    rw [hnew hf, Shelf.AdmitsMove.moved_of_notMem hm.ne_versions.symm]
    rw [h.ancestors_versions hf, List.mem_singleton]
    exact hm.ne_root
  case child =>
    intro k f hf hk
    obtain ⟨e, he, rfl⟩ := hold hf
    by_cases hkid : k = id
    · -- the moved document is below its destination
      subst hkid
      rw [hm.moved_self he]
      refine ⟨destId, dest, hparentId, ?_, hancestorsId⟩
      rw [hnew hm.destination, Shelf.AdmitsMove.moved_of_notMem hm.ne hm.elsewhere]
    · -- the others keep their parent, and their ancestors are those of the parent as it is now
      obtain ⟨p, dp, hparent, hdp, -⟩ := h.child k e he hk
      exact ⟨p, _, (agreesOn_moved_of_ne hkid _ (by decide)).trans hparent, hnew hdp,
        hm.ancestors_moved h he hkid hparent hdp⟩
  case names =>
    intro k other f g hf hg hparent hname
    obtain ⟨e, he, rfl⟩ := hold hf
    obtain ⟨c, hc, rfl⟩ := hold hg
    -- siblings with one name were siblings before, for the destination has no such child
    exact hm.eq_of_names h he hc hparent hname
  case filed =>
    intro k f hf
    obtain ⟨e, he, rfl⟩ := hold hf
    rw [Document.isVersion, agreesOn_moved.flag (by decide)]
    by_cases hk : k = id
    · -- the destination of the moved document is not the folder of the versions
      subst hk
      cases hm.document.symm.trans he
      rw [hm.moved_self he, hparentId, ← Document.isVersion, hm.version]
      simp [hm.unfiled]
    · -- the others are filed where they were
      rw [agreesOn_moved_of_ne hk _ (by decide)]
      exact h.filed k e he
  case versionName =>
    intro k f hf hisVersion
    obtain ⟨e, he, rfl⟩ := hold hf
    rw [Document.isVersion, agreesOn_moved.flag (by decide)] at hisVersion
    -- the moved document is no version
    have hk : k ≠ id := by
      rintro rfl
      cases hm.document.symm.trans he
      rw [← Document.isVersion, hm.version] at hisVersion
      cases hisVersion
    exact (agreesOn_moved_of_ne hk _ (by decide)).trans (h.versionName k e he hisVersion)
  case childless =>
    intro k f p fp hf hparent hfp
    obtain ⟨e, he, rfl⟩ := hold hf
    obtain ⟨ep, hep, rfl⟩ := hold hfp
    rw [Document.isProxy, Document.isVersion, agreesOn_moved.flag (by decide),
      agreesOn_moved.flag (by decide)]
    by_cases hk : k = id
    · -- the parent is the destination, which may have children
      subst hk
      rw [hm.moved_self he, hparentId] at hparent
      cases hparent
      cases hm.destination.symm.trans hep
      exact hm.container
    · -- the parent is the same as before, and it is no other kind of document now
      rw [agreesOn_moved_of_ne hk _ (by decide)] at hparent
      exact h.childless k e p ep he hparent hep

namespace Site

variable {site : Site} {shelf : Shelf} {id destId answer : String} {name? : Option String}
  {plan : Plan}

/-! ## What a move plans -/

/-- The documents below a moved one, rebased. -/
def Coherent.rebasedBelow (shelf : Shelf) (id : String) (front : List String) : List Document :=
  shelf.revisions
    ((shelf.listing Field.ancestors (.reference id) [] false false).ids.erase id).keys (fun k => k)
    fun _ d => rebased id front d

/-- A move passes its checks: the document is no version, it goes under a container that is neither
itself nor below it, and no other child of that has the name. -/
structure ChecksMove (site : Site) (shelf : Shelf) (id destId name : String) (d dest : Document) :
    Prop where
  document : shelf.get? id = some d
  version : d.isVersion = false
  destination : shelf.get? destId = some dest
  container : dest.isProxy = false ∧ dest.isVersion = false ∧ dest.id? ≠ some site.versions
  elsewhere : destId ≠ id ∧ id ∉ dest.ancestors
  unused : ∀ present, shelf.child? destId name [] = some present → present.id? = some id

namespace Filed

theorem rebasings_eq (h : Filed site shelf) (front : List String) :
    site.rebasings id front = .ok ((Coherent.rebasedBelow shelf id front).map .update) := by
  rw [rebasings, below_eq h.stored]
  refine Shelf.collect_eq fun k => ?_
  rw [find?_eq h.stored]
  rfl

/-- Rebasing keeps the ids. -/
theorem keepsIds_rebasedBelow (h : Filed site shelf) (id : String) (front : List String) :
    shelf.KeepsIds ((shelf.listing Field.ancestors (.reference id) [] false false).ids.erase
      id).keys (fun k => k) fun _ e => rebased id front e := by
  intro k _ e he
  have hagree : Document.AgreesOn [Field.id] e (rebased id front e) :=
    Document.agreesOn_set (by decide) e _
  exact (hagree.string? (by decide)).trans (h.keyed k e he)

/-- **What a move plans.** Nothing when the document is there already. Otherwise it is put in its
new place, and the documents below it are rebased. -/
theorem planMove_eq_ok (h : Filed site shelf)
    (hplan : site.planMove id destId name? = .ok (plan, answer)) :
    answer = id ∧ ∃ d name, shelf.get? id = some d ∧ d.isVersion = false ∧
      name = (name?.or d.name?).getD "" ∧
      (((d.parent? = some destId ∧ d.name? = some name) ∧ plan = { writes := [] }) ∨
        (¬ (d.parent? = some destId ∧ d.name? = some name) ∧
          ∃ dest, site.ChecksMove shelf id destId name d dest ∧
            plan = { writes := .update (relocated d dest destId name) ::
              (Coherent.rebasedBelow shelf id (dest.childAncestors ++ [id])).map .update })) := by
  simp only [planMove, bind_eq_ok_iff, require_eq_ok_iff h.stored] at hplan
  obtain ⟨d, hd, hplan⟩ := hplan
  split at hplan
  · cases hplan
  next hversion =>
  rw [Bool.not_eq_true] at hversion
  simp only [bind_eq_ok_iff, require_eq_ok_iff h.stored, requireContainer_eq_ok_iff,
    requireElsewhere_eq_ok_iff] at hplan
  obtain ⟨dest, hdest, -, hcontainer, -, helsewhere, hplan⟩ := hplan
  split at hplan
  · -- it is there already
    next hthere =>
    cases hplan
    exact ⟨rfl, d, _, hd, hversion, rfl, .inl ⟨hthere, rfl⟩⟩
  next hthere =>
  simp only [Store.child?_eq h.stored, h.rebasings_eq, bind_eq_ok_iff] at hplan
  obtain ⟨present?, hpresent, hplan⟩ := hplan
  generalize hname : (name?.or d.name?).getD "" = name at hpresent hplan hthere
  cases hpresent
  obtain ⟨hself, heq⟩ : (∀ present, shelf.child? destId name [] = some present →
      present.id? = some id) ∧
      (plan, answer) = (({ writes := .update (relocated d dest destId name) ::
        (Coherent.rebasedBelow shelf id (dest.childAncestors ++ [id])).map .update } : Plan), id) := by
    split at hplan
    · next present hpresent =>
      split at hplan
      · cases hplan
      · next hid =>
        cases hplan
        refine ⟨fun found heq => ?_, rfl⟩
        cases hpresent.symm.trans heq
        exact Decidable.not_not.1 hid
    · next hnone =>
      cases hplan
      exact ⟨fun present heq => absurd heq (hnone present), rfl⟩
  cases heq
  exact ⟨rfl, d, name, hd, hversion, hname.symm,
    .inr ⟨hthere, dest, ⟨hd, hversion, hdest, hcontainer, helsewhere, hself⟩, rfl⟩⟩

/-- A move that passes its checks has a plan. -/
theorem planMove_eq (h : Filed site shelf) {name : String} {d dest : Document}
    (hchecks : site.ChecksMove shelf id destId name d dest) :
    site.planMove id destId (some name) =
      .ok ({ writes := if d.parent? = some destId ∧ d.name? = some name then [] else
        .update (relocated d dest destId name) ::
          (Coherent.rebasedBelow shelf id (dest.childAncestors ++ [id])).map .update }, id) := by
  have hchild : (site.store.child? destId name []).mapError Error.store =
      .ok (shelf.child? destId name []) := by
    rw [Store.child?_eq h.stored]
    rfl
  have hname : ((some name).or d.name?).getD "" = name := rfl
  rw [planMove, (require_eq_ok_iff h.stored).2 hchecks.document]
  simp only [bind, Except.bind, hchecks.version, Bool.false_eq_true, if_false,
    (require_eq_ok_iff h.stored).2 hchecks.destination,
    (requireContainer_eq_ok_iff (u := ())).2 hchecks.container,
    (requireElsewhere_eq_ok_iff (u := ())).2 hchecks.elsewhere, h.rebasings_eq]
  -- in that place already there is nothing to write
  by_cases hthere : d.parent? = some destId ∧ d.name? = some name
  · simp only [hthere, and_self, if_true, Option.some_or, Option.getD_some]
    rfl
  · simp only [hname, hthere, if_false, hchild]
    cases hpresent : shelf.child? destId name [] with
    | none => rfl
    | some present =>
      -- a child of that name is the document itself, for the place is unused by others
      have hid := hchecks.unused present hpresent
      simp [hid, pure, Except.pure]

/-- **A move can be carried out.** -/
theorem writes_relocated (h : Filed site shelf) {name : String} {d dest : Document}
    (hd : shelf.get? id = some d) (hdest : shelf.get? destId = some dest) :
    shelf.Writes (.update (relocated d dest destId name) ::
        (Coherent.rebasedBelow shelf id (dest.childAncestors ++ [id])).map .update)
      (Shelf.putAll (Table.insert shelf id (relocated d dest destId name))
        (Coherent.rebasedBelow shelf id (dest.childAncestors ++ [id]))) := by
  have hmovedId : (relocated d dest destId name).id? = some id := by
    obtain ⟨-, -, -, hagree⟩ := get?_relocated d name (h.keyed destId dest hdest)
    exact (hagree.string? (by decide)).trans (h.keyed id d hd)
  refine .update hmovedId (by rw [hd]; rfl) ?_
  refine Shelf.writes_revisions (h.keepsIds_rebasedBelow id _) fun k hk => ?_
  rw [Table.get?_insert]
  split
  · rfl
  · exact hk

end Filed

end Site

namespace Site.Coherent

variable {site : Site} {shelf : Shelf} {id destId : String}

/-- A move that passes its checks is admitted by the tree. -/
theorem admitsMove (h : Coherent site shelf) {name : String} {d dest : Document}
    (hroot : id ≠ site.root) (hversions : id ≠ site.versions)
    (hchecks : site.ChecksMove shelf id destId name d dest) :
    shelf.AdmitsMove site.root site.versions id destId name d dest where
  document := hchecks.document
  destination := hchecks.destination
  keyed := h.keyed destId dest hchecks.destination
  ne_root := hroot
  ne_versions := hversions
  version := hchecks.version
  unfiled := h.ne_versions_of_container hchecks.destination hchecks.container.2.2
  container := ⟨hchecks.container.1, hchecks.container.2.1⟩
  ne := hchecks.elsewhere.1
  elsewhere := hchecks.elsewhere.2
  unused := by
    intro other e he hparent hname
    cases hfound : shelf.child? destId name [] with
    | none => exact absurd hname (Shelf.name_ne_of_child?_eq_none hfound other e he hparent)
    | some present =>
      -- the child that was found is the document itself, and there is no other of the name
      obtain ⟨⟨k, hk⟩, hp, hn⟩ := Shelf.of_child? hfound
      cases (h.keyed k present hk).symm.trans (hchecks.unused present hfound)
      refine h.tree.names other id e present he hk ?_ ?_
      · rw [hparent, Document.reference?_eq_some_iff.1 hp]
      · rw [hname, Document.string?_eq_some_iff.1 hn]

/-- A move that the tree admits passes its checks. -/
theorem checksMove (h : Coherent site shelf) {name : String} {d dest : Document}
    (hm : shelf.AdmitsMove site.root site.versions id destId name d dest) :
    site.ChecksMove shelf id destId name d dest where
  document := hm.document
  version := hm.version
  destination := hm.destination
  container := by
    refine ⟨hm.container.1, hm.container.2, ?_⟩
    rw [hm.keyed]
    exact fun heq => hm.unfiled (Option.some.inj heq)
  elsewhere := ⟨hm.ne, hm.elsewhere⟩
  unused := by
    intro present hfound
    obtain ⟨⟨k, hk⟩, hparent, hname⟩ := Shelf.of_child? hfound
    obtain rfl := hm.unused k present hk (Document.reference?_eq_some_iff.1 hparent)
      (Document.string?_eq_some_iff.1 hname)
    exact h.keyed k present hk

/-- **What a move plans in a tree.** Nothing, or a move that the tree admits. -/
theorem planMove_eq_ok (h : Coherent site shelf) {name? : Option String} {plan : Plan}
    {answer : String} (hroot : id ≠ site.root) (hversions : id ≠ site.versions)
    (hplan : site.planMove id destId name? = .ok (plan, answer)) :
    plan = { writes := [] } ∨ ∃ name d dest,
      shelf.AdmitsMove site.root site.versions id destId name d dest ∧
      plan = { writes := .update (relocated d dest destId name) ::
        (rebasedBelow shelf id (dest.childAncestors ++ [id])).map .update } := by
  obtain ⟨-, d, name, -, -, -, ⟨-, rfl⟩ | ⟨-, dest, hchecks, rfl⟩⟩ := h.filed.planMove_eq_ok hplan
  · exact .inl rfl
  · exact .inr ⟨name, d, dest, h.admitsMove hroot hversions hchecks, rfl⟩

/-- The writes of a move, one after the other, make of each document what becomes of it. -/
theorem get?_putAll_rebasedBelow (h : Coherent site shelf) {d : Document}
    (hd : shelf.get? id = some d) (dest : Document) (destId name k : String) :
    (Shelf.putAll (Table.insert shelf id (relocated d dest destId name))
      (rebasedBelow shelf id (dest.childAncestors ++ [id]))).get? k =
        (shelf.get? k).map (moved id dest destId name k) := by
  have hids := h.filed.keepsIds_rebasedBelow id (dest.childAncestors ++ [id])
  by_cases hk : k = id
  · subst hk
    rw [rebasedBelow, Shelf.get?_putAll_of_absent hids, Table.get?_insert, if_pos rfl, hd,
      Option.map_some, moved, if_pos rfl]
    rintro x hx rfl
    exact absurd rfl (Table.mem_keys_erase.1 hx).1
  · -- the first write concerns the moved document alone
    have hbase : (Table.insert shelf id (relocated d dest destId name)).get? k =
        shelf.get? k := by
      rw [Table.get?_insert, if_neg hk]
    cases he : shelf.get? k with
    | none =>
      rw [rebasedBelow, Shelf.get?_putAll_of_absent hids fun x _ heq => heq ▸ he, hbase, he]
      rfl
    | some e =>
      rw [Option.map_some, moved, if_neg hk]
      split
      · next hbelow =>
        have hmem : k ∈ ((shelf.listing Field.ancestors (.reference id) []
            false false).ids.erase id).keys :=
          Table.mem_keys_erase.2 ⟨hk, h.filed.mem_below.2 ⟨e, he, hbelow⟩⟩
        exact Shelf.get?_putAll_revisions hids (by simpa using Table.nodup_keys _) hmem he
      · next hnot =>
        rw [rebasedBelow, Shelf.get?_putAll_of_absent hids, hbase, he]
        rintro x hx rfl
        -- what is listed below the document has it among its ancestors
        obtain ⟨e', he', hbelow⟩ := h.filed.mem_below.1 (Table.mem_keys_erase.1 hx).2
        cases he.symm.trans he'
        exact absurd hbelow hnot

/-- A site stays coherent when a document is moved as the tree admits. -/
theorem settled_of_moved (h : Coherent site shelf) {name : String} {d dest : Document} {t : Shelf}
    (hm : shelf.AdmitsMove site.root site.versions id destId name d dest)
    (hget : ∀ k, t.get? k = (shelf.get? k).map (moved id dest destId name k)) (drawn : Nat) :
    Coherent (site.settled drawn t) t := by
  have hagree : shelf.AgreesOn
      [Field.id, Field.isProxy, Field.isVersion, Field.target, Field.proxies] t :=
    Shelf.agreesOn_of_map hget fun _ _ _ => agreesOn_moved
  refine h.settled (h.keyed.congr hagree (by decide)) ?_ (h.tree.move hm hget)
    (h.links.congr (hagree.mono (by decide)))
  intro k e he
  obtain ⟨e, he, -⟩ := hagree.right he
  exact .inl (by rw [he]; rfl)

/-- **A move leads to a coherent site.** -/
theorem of_planMove (h : Coherent site shelf) {name? : Option String} {plan : Plan}
    {answer : String} (hroot : id ≠ site.root) (hversions : id ≠ site.versions)
    (hplan : site.planMove id destId name? = .ok (plan, answer)) :
    ∃ t, shelf.Writes plan.writes t ∧ Coherent (site.settled plan.drawn t) t := by
  obtain rfl | ⟨name, d, dest, hm, rfl⟩ := h.planMove_eq_ok hroot hversions hplan
  · exact ⟨shelf, .nil _, h.of_agreesOn rfl rfl rfl rfl (Nat.le_add_right _ _) (.refl _ _)⟩
  · exact ⟨_, h.filed.writes_relocated hm.document hm.destination, h.settled_of_moved hm
      (h.get?_putAll_rebasedBelow hm.document dest destId name) _⟩

end Site.Coherent

end ContentRepository
