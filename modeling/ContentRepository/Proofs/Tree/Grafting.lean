import ContentRepository.Proofs.Tree.Links
import ContentRepository.Proofs.Tree.Shape

/-!
# Grafts: many new documents at once

A graft puts copies of some documents on a shelf, each under a new id of its own, and leaves all
other documents as they are. `Grafted` says that of two shelves; what else the copies have to be for
the tree and the links to stay sound is asked by the theorems.

* **`Shelf.CopiesUnder`** — what is asked of copies of a document and of all below it.
* **`TreeShaped.graft`** — copies of a document and of all below it can be put under a container.
* **`ProxyLinked.graft`** — proxies may be copied if the targets then list the copies, or if the
  copies stand for copies.
-/

namespace ContentRepository

/-- The second shelf has all documents of the first, and copies of some of them under new ids. -/
structure Grafted (s t : Shelf) (copied : List String) (rename : String → String)
    (copy : String → Document → Document) : Prop where
  stored : ∀ k ∈ copied, ∃ d, s.get? k = some d
  fresh : ∀ k ∈ copied, s.get? (rename k) = none
  injective : ∀ k ∈ copied, ∀ l ∈ copied, rename k = rename l → k = l
  old : ∀ k e, s.get? k = some e → t.get? k = some e
  new : ∀ k ∈ copied, ∀ d, s.get? k = some d → t.get? (rename k) = some (copy k d)
  /-- There is nothing else. -/
  cases : ∀ l e, t.get? l = some e →
    s.get? l = some e ∨ ∃ k ∈ copied, ∃ d, s.get? k = some d ∧ l = rename k ∧ e = copy k d

namespace Grafted

variable {root versions : String} {s t : Shelf} {copied : List String} {rename : String → String}
  {copy : String → Document → Document} {k l : String} {e : Document}

/-- What is stored has no new id. -/
theorem ne_rename (hg : Grafted s t copied rename copy) (hk : k ∈ copied)
    (he : s.get? l = some e) : l ≠ rename k := by
  rintro rfl
  rw [hg.fresh k hk] at he
  cases he

/-- Nor has the parent of a stored document. -/
theorem parent_ne_rename (hg : Grafted s t copied rename copy) (h : TreeShaped root versions s)
    (hk : k ∈ copied) (he : s.get? l = some e) :
    e.get? Field.parent ≠ some (.reference (rename k)) := by
  intro hparent
  obtain ⟨dp, hdp, -⟩ := h.exists_of_parent he hparent
  exact hg.ne_rename hk hdp rfl

end Grafted

/-! ## The tree after a graft -/

/-- What is asked of the copies of a document and of all below it. The document's own copy is given
a name that is free under a container; below it, copies are the children of copies. -/
structure Shelf.CopiesUnder (s : Shelf) (versions id destId : String) (d dest : Document)
    (name : Value) (copied : List String) (rename : String → String)
    (copy : String → Document → Document) : Prop where
  document : s.get? id = some d
  destination : s.get? destId = some dest
  unfiled : destId ≠ versions
  container : dest.isProxy = false ∧ dest.isVersion = false
  unused : ∀ other e, s.get? other = some e →
    e.get? Field.parent = some (.reference destId) → e.get? Field.name ≠ some name
  kind : ∀ k ∈ copied, ∀ e, s.get? k = some e →
    Document.AgreesOn [Field.isProxy, Field.isVersion] e (copy k e) ∧ e.isVersion = false
  top : (copy id d).get? Field.parent = some (.reference destId) ∧
    (copy id d).get? Field.name = some name ∧
    (copy id d).get? Field.ancestors = some (.references (dest.ancestors ++ [destId]))
  below : ∀ k ∈ copied, k ≠ id → ∀ e, s.get? k = some e → ∃ p ∈ copied, ∃ dp,
    s.get? p = some dp ∧ e.get? Field.parent = some (.reference p) ∧
    (copy k e).get? Field.parent = some (.reference (rename p)) ∧
    (copy k e).get? Field.name = e.get? Field.name ∧
    (copy k e).get? Field.ancestors =
      some (.references ((copy p dp).ancestors ++ [rename p]))

namespace Shelf.CopiesUnder

variable {root versions : String} {s t : Shelf} {id destId k j l : String}
  {d dest e c f : Document} {name : Value} {copied : List String} {rename : String → String}
  {copy : String → Document → Document}

/-- No stored document shares parent and name with a copy. -/
theorem name_ne_copy (hc : s.CopiesUnder versions id destId d dest name copied rename copy)
    (hg : Grafted s t copied rename copy) (h : TreeShaped root versions s) (hk : k ∈ copied)
    (he : s.get? k = some e) (hf : s.get? l = some f)
    (hparent : f.get? Field.parent = (copy k e).get? Field.parent) :
    f.get? Field.name ≠ (copy k e).get? Field.name := by
  intro hname
  by_cases hkid : k = id
  · subst hkid
    cases hc.document.symm.trans he
    exact hc.unused l f hf (hparent.trans hc.top.1) (hname.trans hc.top.2.1)
  · obtain ⟨p, hp, dp, -, -, hcopied, -⟩ := hc.below k hk hkid e he
    exact hg.parent_ne_rename h hp hf (hparent.trans hcopied)

/-- Copies further below are not put where the document's own copy is. -/
theorem parent_ne_top (hc : s.CopiesUnder versions id destId d dest name copied rename copy)
    (hg : Grafted s t copied rename copy) (hk : k ∈ copied) (hkid : k ≠ id)
    (he : s.get? k = some e) :
    (copy k e).get? Field.parent ≠ (copy id d).get? Field.parent := by
  obtain ⟨p, hp, dp, -, -, hcopied, -⟩ := hc.below k hk hkid e he
  intro heq
  rw [hcopied, hc.top.1] at heq
  exact hg.ne_rename hp hc.destination (by cases heq; rfl)

/-- Copies with the parent and the name in common are copies of one document. -/
theorem eq_of_names (hc : s.CopiesUnder versions id destId d dest name copied rename copy)
    (hg : Grafted s t copied rename copy) (h : TreeShaped root versions s) (hk : k ∈ copied)
    (he : s.get? k = some e) (hj : j ∈ copied) (hf : s.get? j = some f)
    (hparent : (copy k e).get? Field.parent = (copy j f).get? Field.parent)
    (hname : (copy k e).get? Field.name = (copy j f).get? Field.name) : k = j := by
  by_cases hkid : k = id <;> by_cases hjid : j = id
  · rw [hkid, hjid]
  · subst hkid
    cases hc.document.symm.trans he
    exact absurd hparent.symm (hc.parent_ne_top hg hj hjid hf)
  · subst hjid
    cases hc.document.symm.trans hf
    exact absurd hparent (hc.parent_ne_top hg hk hkid he)
  · -- copies of siblings, which have different names
    obtain ⟨p, hp, -, -, hparentK, hcopiedK, hnameK, -⟩ := hc.below k hk hkid e he
    obtain ⟨q, hq, -, -, hparentJ, hcopiedJ, hnameJ, -⟩ := hc.below j hj hjid f hf
    rw [hcopiedK, hcopiedJ] at hparent
    have hpq : p = q := hg.injective p hp q hq (by simpa using hparent)
    exact h.names k j e f he hf (by rw [hparentK, hparentJ, hpq]) (by rw [← hnameK, hname, hnameJ])

end Shelf.CopiesUnder

/-- **Copies of a document and of all below it can be put under a container.** -/
theorem TreeShaped.graft {root versions id destId : String} {s t : Shelf} {d dest : Document}
    {name : Value} {copied : List String} {rename : String → String}
    {copy : String → Document → Document} (h : TreeShaped root versions s)
    (hg : Grafted s t copied rename copy)
    (hc : s.CopiesUnder versions id destId d dest name copied rename copy) :
    TreeShaped root versions t := by
  refine ⟨?top, ?child, ?names, ?filed, ?versionName, ?childless, ?folder⟩
  case top =>
    obtain ⟨r, hr, hrest⟩ := h.top
    exact ⟨r, hg.old _ _ hr, hrest⟩
  case folder =>
    obtain ⟨f, hf, hrest⟩ := h.folder
    exact ⟨f, hg.old _ _ hf, hrest⟩
  case child =>
    intro l f hf hl
    rcases hg.cases l f hf with hf | ⟨k, hk, e, he, rfl, rfl⟩
    · -- an old document has its old parent
      obtain ⟨p, dp, hparent, hdp, hancestors⟩ := h.child l f hf hl
      exact ⟨p, dp, hparent, hg.old _ _ hdp, hancestors⟩
    · -- the top of the copy is below the destination, and the rest below the copies of the parents
      by_cases hkid : k = id
      · subst hkid
        cases hc.document.symm.trans he
        exact ⟨destId, dest, hc.top.1, hg.old _ _ hc.destination, hc.top.2.2⟩
      · obtain ⟨p, hp, dp, hdp, -, hparent, -, hancestors⟩ := hc.below k hk hkid e he
        exact ⟨rename p, copy p dp, hparent, hg.new p hp dp hdp, hancestors⟩
  case names =>
    intro l m f g hf hg' hparent hname
    rcases hg.cases l f hf with hf | ⟨k, hk, e, he, rfl, rfl⟩ <;>
      rcases hg.cases m g hg' with hg' | ⟨j, hj, c, hc', rfl, rfl⟩
    · -- two old documents
      exact h.names l m f g hf hg' hparent hname
    · -- an old one and a copy have different parents, or different names
      exact absurd hname (hc.name_ne_copy hg h hj hc' hf hparent)
    · exact absurd hname.symm (hc.name_ne_copy hg h hk he hg' hparent.symm)
    · -- two copies of siblings are copies of one document
      rw [hc.eq_of_names hg h hk he hj hc' hparent hname]
  case filed =>
    intro l f hf
    rcases hg.cases l f hf with hf | ⟨k, hk, e, he, rfl, rfl⟩
    · exact h.filed l f hf
    · obtain ⟨hagree, hversion⟩ := hc.kind k hk e he
      rw [Document.isVersion, hagree.flag (by decide), ← Document.isVersion, hversion]
      by_cases hkid : k = id
      · -- the top is filed under the destination, which is not the folder of the versions
        subst hkid
        cases hc.document.symm.trans he
        rw [hc.top.1]
        simp [hc.unfiled]
      · -- the others are filed under copies, and the folder is none of them
        obtain ⟨p, hp, dp, -, -, hcopied, -⟩ := hc.below k hk hkid e he
        obtain ⟨v, hv, -⟩ := h.folder
        rw [hcopied]
        simp [(hg.ne_rename hp hv).symm]
  case versionName =>
    intro l f hf hisVersion
    rcases hg.cases l f hf with hf | ⟨k, hk, e, he, rfl, rfl⟩
    · exact h.versionName l f hf hisVersion
    · -- a copy is no version
      obtain ⟨hagree, hversion⟩ := hc.kind k hk e he
      rw [Document.isVersion, hagree.flag (by decide), ← Document.isVersion, hversion]
        at hisVersion
      cases hisVersion
  case childless =>
    intro l f p fp hf hparent hfp
    rcases hg.cases l f hf with hf | ⟨k, hk, e, he, rfl, rfl⟩
    · -- no old document has a copy for its parent
      obtain hfp | ⟨j, hj, c, -, rfl, -⟩ := hg.cases p fp hfp
      · exact h.childless l f p fp hf hparent hfp
      · exact absurd hparent (hg.parent_ne_rename h hj hf)
    · by_cases hkid : k = id
      · subst hkid
        cases hc.document.symm.trans he
        rw [hc.top.1] at hparent
        cases hparent
        cases (hg.old _ _ hc.destination).symm.trans hfp
        exact hc.container
      · obtain ⟨q, hq, dq, hdq, hparentK, hcopied, -⟩ := hc.below k hk hkid e he
        -- the parent of a copy is the copy of the parent, which may have children
        rw [hcopied] at hparent
        cases hparent
        cases (hg.new q hq dq hdq).symm.trans hfp
        obtain ⟨hagree, -⟩ := hc.kind q hq dq hdq
        rw [Document.isProxy, Document.isVersion, hagree.flag (by decide),
          hagree.flag (by decide)]
        exact h.childless k e q dq he hparentK hdq

/-! ## The links after a graft -/

/-- The starts of the links that lead to a document. -/
def startsOf (links : Table TextSet) (finish : String) : List String :=
  ((links.get? finish).getD Table.empty).keys

/-- **Proxies may be copied along with other documents.** The copy of a proxy stands for the copy of
its target, or for its target where that is not copied; afterwards each of these gets the copied
proxies that stand for it. -/
theorem ProxyLinked.graft {s t u : Shelf} {copied : List String} {rename : String → String}
    {copy : String → Document → Document} {links : Table TextSet} (h : ProxyLinked s)
    (hg : Grafted s t copied rename copy) (hstays : ∀ k, k ∉ copied → rename k = k)
    (hkind : ∀ k ∈ copied, ∀ e, s.get? k = some e →
      (copy k e).isProxy = e.isProxy ∧ (copy k e).proxies = [] ∧
        (copy k e).get? Field.target = e.target?.map fun target => .reference (rename target))
    (hlinks : ∀ start finish, start ∈ startsOf links finish ↔
      ∃ k ∈ copied, ∃ e, s.get? k = some e ∧ start = rename k ∧
        (copy k e).get? Field.target = some (.reference finish))
    (hget : ∀ l, u.get? l = (t.get? l).map fun e =>
      (links.get? l).elim e fun starts => e.relinked starts.keys []) : ProxyLinked u := by
  -- what was not there before is a copy
  have hcopy : ∀ {l e}, s.get? l = none → t.get? l = some e →
      ∃ k ∈ copied, ∃ d, s.get? k = some d ∧ l = rename k ∧ e = copy k d := by
    intro l e hl he
    rcases hg.cases l e he with he | hcopied
    · cases hl.symm.trans he
    · exact hcopied
  have hgetD : ∀ finish, ((links.get? finish).map Table.keys).getD [] = startsOf links finish := by
    intro finish
    rw [startsOf]
    cases links.get? finish <;> rfl
  refine h.attach (show Attached s t u fun l => (links.get? l).map Table.keys from
    ⟨hg.old, ?new, ?starts, ?nodup, ?get⟩)
  case new =>
    intro l e hl he
    obtain ⟨k, hk, d, hd, rfl, rfl⟩ := hcopy hl he
    obtain ⟨hproxy, hproxies, htarget⟩ := hkind k hk d hd
    refine ⟨hproxies, ?_, fun hp => ?_⟩
    · rw [hproxy, htarget, Option.isSome_map]
      constructor
      · intro hsome
        obtain ⟨target, ht⟩ := Option.isSome_iff_exists.1 hsome
        exact h.isProxy_of_target hd (Document.reference?_eq_some_iff.1 ht)
      · intro hp
        obtain ⟨target, dt, ht, -⟩ := h.listed k d hd hp
        rw [Document.target?, Document.reference?_eq_some_iff.2 ht]
        rfl
    · -- it stands for the copy of the target, or for the target itself
      rw [hproxy] at hp
      obtain ⟨target, dt, ht, hdt, hno, -⟩ := h.listed k d hd hp
      rw [Document.target?, Document.reference?_eq_some_iff.2 ht] at htarget
      by_cases hcopied : target ∈ copied
      · exact ⟨_, _, htarget, hg.new target hcopied dt hdt,
          (hkind target hcopied dt hdt).1.trans hno⟩
      · refine ⟨_, dt, htarget, ?_, hno⟩
        rw [hstays target hcopied]
        exact hg.old _ _ hdt
  case starts =>
    intro start finish
    rw [hgetD, hlinks]
    constructor
    · rintro ⟨k, hk, d, hd, rfl, htarget⟩
      exact ⟨hg.fresh k hk, _, hg.new k hk d hd, htarget⟩
    · rintro ⟨hfree, e, he, htarget⟩
      obtain ⟨k, hk, d, hd, rfl, rfl⟩ := hcopy hfree he
      exact ⟨k, hk, d, hd, rfl, htarget⟩
  case nodup =>
    intro finish
    rw [hgetD]
    exact Table.nodup_keys _
  case get =>
    intro l
    rw [hget]
    cases links.get? l <;> rfl

end ContentRepository
