import ContentRepository.Proofs.Tree.Agreement
import Mathlib.Logic.Relation

/-!
# The shape of the document tree

The tree lies in the documents: each names its parent and lists its ancestors. `TreeShaped` says
when these add up to a tree with the root at the top and the folder of versions below it.

* **`TreeShaped.ancestors_prefix_of_mem`** — what a document lists before an ancestor are the
  ancestors of that ancestor.
* **`TreeShaped.notMem_ancestors`** and **`TreeShaped.not_transGen_childOf`** — there is no cycle.
* **`TreeShaped.mem_ancestors_of_child`** — below a document are its children and what is below
  these.
* **`TreeShaped.inSubtree_iff`** — the subtree that the chains of parents lead to is the one that
  the lists of ancestors tell of.
* **`TreeShaped.congr`** and **`TreeShaped.plant`** — the two ways in which most writes keep the
  shape: they leave it alone, or they put a new document under a container.
-/

namespace ContentRepository

/-- The documents of the shelf form a tree. -/
structure TreeShaped (root versions : String) (shelf : Shelf) : Prop where
  /-- The root is there, without parent and without ancestors. -/
  top : ∃ d, shelf.get? root = some d ∧ d.get? Field.parent = none ∧
    d.get? Field.ancestors = some (.references [])
  /-- Every other document has a parent that is there. Its ancestors are those of the parent and
  the parent itself. -/
  child : ∀ id d, shelf.get? id = some d → id ≠ root →
    ∃ p dp, d.get? Field.parent = some (.reference p) ∧ shelf.get? p = some dp ∧
      d.get? Field.ancestors = some (.references (dp.ancestors ++ [p]))
  /-- No two documents have both the parent and the name in common. -/
  names : ∀ id other d e, shelf.get? id = some d → shelf.get? other = some e →
    d.get? Field.parent = e.get? Field.parent → d.get? Field.name = e.get? Field.name → id = other
  /-- The children of the folder of versions are exactly the versions. -/
  filed : ∀ id d, shelf.get? id = some d →
    (d.get? Field.parent = some (.reference versions) ↔ d.isVersion = true)
  /-- A version is named by its id. -/
  versionName : ∀ id d, shelf.get? id = some d → d.isVersion = true →
    d.get? Field.name = some (.string id)
  /-- Neither a proxy nor a version has children. -/
  childless : ∀ id d p dp, shelf.get? id = some d → d.get? Field.parent = some (.reference p) →
    shelf.get? p = some dp → dp.isProxy = false ∧ dp.isVersion = false
  /-- The folder of versions is a child of the root and no proxy. -/
  folder : ∃ d, shelf.get? versions = some d ∧ d.get? Field.parent = some (.reference root) ∧
    d.isProxy = false

/-- The first document names the second as its parent. -/
def Shelf.ChildOf (shelf : Shelf) (k p : String) : Prop :=
  ∃ d, shelf.get? k = some d ∧ d.parent? = some p

/-- A chain of parents leads from the first document to the second, or they are the same. -/
def Shelf.InSubtree (shelf : Shelf) (k id : String) : Prop :=
  Relation.ReflTransGen shelf.ChildOf k id

namespace TreeShaped

variable {root versions : String} {s t : Shelf} {id : String} {d : Document}

/-! ## Ancestors -/

theorem ancestors_root (h : TreeShaped root versions s) (hd : s.get? root = some d) :
    d.ancestors = [] := by
  obtain ⟨e, he, -, hancestors⟩ := h.top
  cases hd.symm.trans he
  exact Document.references_of_get? hancestors

/-- Every document has a list of its ancestors. -/
theorem get?_ancestors (h : TreeShaped root versions s) (hd : s.get? id = some d) :
    d.get? Field.ancestors = some (.references d.ancestors) := by
  obtain ⟨ids, hids⟩ : ∃ ids, d.get? Field.ancestors = some (.references ids) := by
    by_cases hroot : id = root
    · subst hroot
      obtain ⟨e, he, -, hancestors⟩ := h.top
      cases hd.symm.trans he
      exact ⟨_, hancestors⟩
    · obtain ⟨p, dp, -, -, hancestors⟩ := h.child id d hd hroot
      exact ⟨_, hancestors⟩
  rw [hids, Document.ancestors, Document.references_of_get? hids]

/-- Every document but the root is a child of one that is there. -/
theorem exists_parent (h : TreeShaped root versions s) (hd : s.get? id = some d)
    (hne : id ≠ root) : ∃ p dp, d.get? Field.parent = some (.reference p) ∧ s.get? p = some dp ∧
      d.ancestors = dp.ancestors ++ [p] := by
  obtain ⟨p, dp, hparent, hdp, hancestors⟩ := h.child id d hd hne
  exact ⟨p, dp, hparent, hdp, Document.references_of_get? hancestors⟩

/-- Only the root has no parent. -/
theorem parent_eq_none_iff (h : TreeShaped root versions s) (hd : s.get? id = some d) :
    d.get? Field.parent = none ↔ id = root := by
  constructor
  · intro hnone
    by_contra hne
    obtain ⟨p, dp, hparent, -, -⟩ := h.exists_parent hd hne
    rw [hnone] at hparent
    cases hparent
  · rintro rfl
    obtain ⟨e, he, hnone, -⟩ := h.top
    cases hd.symm.trans he
    exact hnone

/-- Whatever is named as a parent is there. -/
theorem exists_of_parent (h : TreeShaped root versions s) (hd : s.get? id = some d) {p : String}
    (hparent : d.get? Field.parent = some (.reference p)) : ∃ dp, s.get? p = some dp ∧
      d.get? Field.ancestors = some (.references (dp.ancestors ++ [p])) := by
  have hne : id ≠ root := by
    intro heq
    rw [(h.parent_eq_none_iff hd).2 heq] at hparent
    cases hparent
  obtain ⟨q, dq, hq, hdq, hancestors⟩ := h.child id d hd hne
  cases hparent.symm.trans hq
  exact ⟨dq, hdq, hancestors⟩

/-- The ancestors of a child are those of its parent and the parent itself. -/
theorem ancestors_of_child (h : TreeShaped root versions s) (hd : s.get? id = some d)
    {p : String} {dp : Document} (hparent : d.get? Field.parent = some (.reference p))
    (hdp : s.get? p = some dp) :
    d.get? Field.ancestors = some (.references (dp.ancestors ++ [p])) := by
  obtain ⟨dq, hdq, hancestors⟩ := h.exists_of_parent hd hparent
  cases hdp.symm.trans hdq
  exact hancestors

theorem mem_ancestors_of_child (h : TreeShaped root versions s) (hd : s.get? id = some d)
    {p : String} {dp : Document} (hparent : d.get? Field.parent = some (.reference p))
    (hdp : s.get? p = some dp) {a : String} :
    a ∈ d.ancestors ↔ a ∈ dp.ancestors ∨ a = p := by
  have hancestors : d.ancestors = dp.ancestors ++ [p] :=
    Document.references_of_get? (h.ancestors_of_child hd hparent hdp)
  simp [hancestors]

/-- **What a document lists up to an ancestor is the path to that ancestor.** Induction on the
number of ancestors, from a child to its parent. -/
theorem ancestors_prefix_of_mem (h : TreeShaped root versions s) {a : String}
    (hd : s.get? id = some d) (ha : a ∈ d.ancestors) :
    ∃ da, s.get? a = some da ∧ da.ancestors ++ [a] <+: d.ancestors := by
  induction hn : d.ancestors.length using Nat.strongRecOn generalizing id d with
  | ind n ih =>
    by_cases hroot : id = root
    · rw [h.ancestors_root (hroot ▸ hd)] at ha
      cases ha
    · obtain ⟨p, dp, -, hdp, hancestors⟩ := h.exists_parent hd hroot
      rw [hancestors] at ha ⊢
      rcases List.mem_append.1 ha with ha | ha
      · have hshorter : dp.ancestors.length < n := by rw [← hn, hancestors]; simp
        obtain ⟨da, hda, hprefix⟩ := ih _ hshorter hdp ha rfl
        exact ⟨da, hda, hprefix.trans (List.prefix_append _ _)⟩
      · cases List.mem_singleton.1 ha
        exact ⟨dp, hdp, List.prefix_refl _⟩

/-- The ancestors of a document begin with those of any of them. -/
theorem exists_ancestors_eq (h : TreeShaped root versions s) (hd : s.get? id = some d)
    {k : String} {e : Document} (he : s.get? k = some e) (hmem : id ∈ e.ancestors) :
    ∃ rest, e.ancestors = d.ancestors ++ id :: rest := by
  obtain ⟨d', hd', rest, hrest⟩ := h.ancestors_prefix_of_mem he hmem
  cases hd.symm.trans hd'
  exact ⟨rest, by simpa using hrest.symm⟩

/-- **There is no cycle.** A document below itself would list more ancestors than it does. -/
theorem notMem_ancestors (h : TreeShaped root versions s) (hd : s.get? id = some d) :
    id ∉ d.ancestors := by
  intro hmem
  obtain ⟨e, he, hprefix⟩ := h.ancestors_prefix_of_mem hd hmem
  cases hd.symm.trans he
  have hlength := hprefix.length_le
  rw [List.length_append, List.length_singleton] at hlength
  omega

/-- Whatever is above a document by a chain of parents is among its ancestors. -/
theorem mem_ancestors_of_transGen (h : TreeShaped root versions s) {a : String}
    (hd : s.get? id = some d) (hchain : Relation.TransGen s.ChildOf id a) : a ∈ d.ancestors := by
  have hparentOf : ∀ {k p e}, s.get? k = some e → s.ChildOf k p → ∃ dp, s.get? p = some dp ∧
      e.ancestors = dp.ancestors ++ [p] := by
    rintro k p e he ⟨e', he', hparent⟩
    cases he.symm.trans he'
    rw [Document.parent?, Document.reference?_eq_some_iff] at hparent
    obtain ⟨dp, hdp, hancestors⟩ := h.exists_of_parent he hparent
    exact ⟨dp, hdp, Document.references_of_get? hancestors⟩
  induction hchain using Relation.TransGen.head_induction_on generalizing d with
  | single hlast =>
    obtain ⟨dp, -, hancestors⟩ := hparentOf hd hlast
    simp [hancestors]
  | head hfirst _ ih =>
    obtain ⟨dp, hdp, hancestors⟩ := hparentOf hd hfirst
    rw [hancestors]
    exact List.mem_append_left _ (ih hdp)

/-- Whatever a document lists as an ancestor is above it by a chain of parents. Induction on the
number of ancestors, from a child to its parent. -/
theorem transGen_of_mem_ancestors (h : TreeShaped root versions s) {a : String}
    (hd : s.get? id = some d) (ha : a ∈ d.ancestors) : Relation.TransGen s.ChildOf id a := by
  induction hn : d.ancestors.length using Nat.strongRecOn generalizing id d with
  | ind n ih =>
    have hne : id ≠ root := by
      rintro rfl
      rw [h.ancestors_root hd] at ha
      cases ha
    obtain ⟨p, dp, hparent, hdp, hancestors⟩ := h.exists_parent hd hne
    have hchild : s.ChildOf id p := ⟨d, hd, Document.reference?_eq_some_iff.2 hparent⟩
    rw [hancestors] at ha
    rcases List.mem_append.1 ha with ha | ha
    · have hshorter : dp.ancestors.length < n := by rw [← hn, hancestors]; simp
      exact .head hchild (ih _ hshorter hdp ha rfl)
    · cases List.mem_singleton.1 ha
      exact .single hchild

/-- **The chain of parents passes through the ancestors and nothing else.** -/
theorem transGen_iff (h : TreeShaped root versions s) {a : String} :
    Relation.TransGen s.ChildOf id a ↔ ∃ d, s.get? id = some d ∧ a ∈ d.ancestors := by
  constructor
  · intro hchain
    obtain ⟨-, ⟨d, hd, -⟩, -⟩ := Relation.TransGen.head'_iff.1 hchain
    exact ⟨d, hd, h.mem_ancestors_of_transGen hd hchain⟩
  · rintro ⟨d, hd, ha⟩
    exact h.transGen_of_mem_ancestors hd ha

/-- **A subtree has its top, and the documents that list the top as an ancestor.** -/
theorem inSubtree_iff (h : TreeShaped root versions s) (hd : s.get? id = some d) {k : String} :
    s.InSubtree k id ↔ ∃ e, s.get? k = some e ∧ (k = id ∨ id ∈ e.ancestors) := by
  rw [Shelf.InSubtree, Relation.reflTransGen_iff_eq_or_transGen, h.transGen_iff]
  constructor
  · rintro (rfl | ⟨e, he, hmem⟩)
    · exact ⟨d, hd, .inl rfl⟩
    · exact ⟨e, he, .inr hmem⟩
  · rintro ⟨e, he, rfl | hmem⟩
    · exact .inl rfl
    · exact .inr ⟨e, he, hmem⟩

/-- **No chain of parents leads from a document back to it.** -/
theorem not_transGen_childOf (h : TreeShaped root versions s) :
    ¬ Relation.TransGen s.ChildOf id id := by
  intro hchain
  obtain ⟨-, ⟨d, hd, -⟩, -⟩ := Relation.TransGen.head'_iff.1 hchain
  exact h.notMem_ancestors hd (h.mem_ancestors_of_transGen hd hchain)

/-! ## The two folders -/

theorem versions_ne_root (h : TreeShaped root versions s) : versions ≠ root := by
  intro heq
  obtain ⟨d, hd, hparent, -⟩ := h.folder
  rw [(h.parent_eq_none_iff hd).2 heq] at hparent
  cases hparent

/-- The folder of versions is not below anything but the root. -/
theorem ancestors_versions (h : TreeShaped root versions s) (hd : s.get? versions = some d) :
    d.ancestors = [root] := by
  obtain ⟨e, he, hparent, -⟩ := h.folder
  cases hd.symm.trans he
  obtain ⟨r, hr, -⟩ := h.top
  have hancestors := Document.references_of_get? (h.ancestors_of_child hd hparent hr)
  rw [h.ancestors_root hr] at hancestors
  exact hancestors

/-- The folder of versions is no version. -/
theorem isVersion_versions (h : TreeShaped root versions s) (hd : s.get? versions = some d) :
    d.isVersion = false := by
  obtain ⟨e, he, hparent, -⟩ := h.folder
  cases hd.symm.trans he
  rw [← Bool.not_eq_true, ← h.filed versions d hd, hparent]
  intro heq
  exact h.versions_ne_root (by cases heq; rfl)

/-- Neither of the two folders is a proxy. -/
theorem isProxy_folder (h : TreeShaped root versions s) (hid : id = root ∨ id = versions)
    (hd : s.get? id = some d) : d.isProxy = false := by
  obtain ⟨e, he, hparent, hproxy⟩ := h.folder
  rcases hid with rfl | rfl
  · exact (h.childless versions e id d he hparent hd).1
  · cases hd.symm.trans he
    exact hproxy

/-- What is below an ordinary document is no version: versions have only the folder of versions and
the root above them. -/
theorem isVersion_of_mem_ancestors (h : TreeShaped root versions s) {a : String}
    (hd : s.get? id = some d) (ha : a ∈ d.ancestors) (hroot : a ≠ root) (hversions : a ≠ versions) :
    d.isVersion = false := by
  rw [← Bool.not_eq_true, ← h.filed id d hd]
  intro hparent
  obtain ⟨f, hf, -⟩ := h.folder
  rcases (h.mem_ancestors_of_child hd hparent hf).1 ha with ha | ha
  · rw [h.ancestors_versions hf, List.mem_singleton] at ha
    exact hroot ha
  · exact hversions ha

/-! ## Writes that keep the shape -/

/-- **The shape lies in the fields of the tree alone.** -/
theorem congr (h : TreeShaped root versions s) (hst : s.AgreesOn Field.ofTree t) :
    TreeShaped root versions t where
  top := by
    obtain ⟨d, hd, hparent, hancestors⟩ := h.top
    obtain ⟨e, he, hde⟩ := hst.left hd
    exact ⟨e, he, (hde _ (by decide)).trans hparent, (hde _ (by decide)).trans hancestors⟩
  child := by
    intro id e he hne
    obtain ⟨d, hd, hde⟩ := hst.right he
    obtain ⟨p, dp, hparent, hdp, hancestors⟩ := h.child id d hd hne
    obtain ⟨ep, hep, hp⟩ := hst.left hdp
    refine ⟨p, ep, (hde _ (by decide)).trans hparent, hep, ?_⟩
    rw [hde _ (by decide), hancestors, Document.ancestors, Document.ancestors,
      hp.references (by decide)]
  names := by
    intro id other e f he hf hparent hname
    obtain ⟨d, hd, hde⟩ := hst.right he
    obtain ⟨c, hc, hcf⟩ := hst.right hf
    rw [hde _ (by decide), hcf _ (by decide)] at hparent hname
    exact h.names id other d c hd hc hparent hname
  filed := by
    intro id e he
    obtain ⟨d, hd, hde⟩ := hst.right he
    rw [hde _ (by decide), Document.isVersion, hde.flag (by decide)]
    exact h.filed id d hd
  versionName := by
    intro id e he hversion
    obtain ⟨d, hd, hde⟩ := hst.right he
    rw [Document.isVersion, hde.flag (by decide)] at hversion
    exact (hde _ (by decide)).trans (h.versionName id d hd hversion)
  childless := by
    intro id e p ep he hparent hep
    obtain ⟨d, hd, hde⟩ := hst.right he
    obtain ⟨dp, hdp, hp⟩ := hst.right hep
    rw [hde _ (by decide)] at hparent
    rw [Document.isProxy, Document.isVersion, hp.flag (by decide), hp.flag (by decide)]
    exact h.childless id d p dp hd hparent hdp
  folder := by
    obtain ⟨d, hd, hparent, hproxy⟩ := h.folder
    obtain ⟨e, he, hde⟩ := hst.left hd
    refine ⟨e, he, (hde _ (by decide)).trans hparent, ?_⟩
    rw [Document.isProxy, hde.flag (by decide)]
    exact hproxy

/-- **A new document may be put under a container.** The container is neither a proxy nor a version,
it has no child of the name yet, and the new document is a version exactly if the container is the
folder of versions. -/
theorem plant (h : TreeShaped root versions s) {p : String} {dp : Document} {name : Value}
    (hfree : s.get? id = none) (hdp : s.get? p = some dp)
    (hcontainer : dp.isProxy = false ∧ dp.isVersion = false)
    (hparent : d.get? Field.parent = some (.reference p)) (hname : d.get? Field.name = some name)
    (hancestors : d.get? Field.ancestors = some (.references (dp.ancestors ++ [p])))
    (hunused : ∀ other e, s.get? other = some e → e.get? Field.parent = some (.reference p) →
      e.get? Field.name ≠ some name)
    (hversion : p = versions ↔ d.isVersion = true)
    (hnamed : p = versions → name = .string id) :
    TreeShaped root versions (Table.insert s id d) := by
  have hkept : ∀ other e, s.get? other = some e → (Table.insert s id d).get? other = some e :=
    fun _ _ => Table.get?_insert_of_free hfree
  -- every document is the new one or an old one
  have hcases : ∀ other e, (Table.insert s id d).get? other = some e →
      (other = id ∧ e = d) ∨ (other ≠ id ∧ s.get? other = some e) :=
    fun _ _ => Table.get?_insert_eq_some_iff.1
  -- no old document is a child of the new one: its parent was there before
  have hparentOld : ∀ other e q, s.get? other = some e →
      e.get? Field.parent = some (.reference q) → q ≠ id := by
    rintro other e q he hq rfl
    obtain ⟨dq, hdq, -⟩ := h.exists_of_parent he hq
    cases hfree.symm.trans hdq
  have hpid : p ≠ id := by
    rintro rfl
    rw [hfree] at hdp
    cases hdp
  refine ⟨?top, ?child, ?names, ?filed, ?versionName, ?childless, ?folder⟩
  case top =>
    obtain ⟨e, he, hrest⟩ := h.top
    exact ⟨e, hkept _ _ he, hrest⟩
  case child =>
    intro other e he hne
    rcases hcases other e he with ⟨rfl, rfl⟩ | ⟨-, he⟩
    · exact ⟨p, dp, hparent, hkept _ _ hdp, hancestors⟩
    · obtain ⟨q, dq, hq, hdq, hrest⟩ := h.child other e he hne
      exact ⟨q, dq, hq, hkept _ _ hdq, hrest⟩
  case names =>
    intro first second e f he hf hsameParent hsameName
    rcases hcases first e he with ⟨rfl, rfl⟩ | ⟨-, he'⟩
    · rcases hcases second f hf with ⟨rfl, rfl⟩ | ⟨-, hf'⟩
      · rfl
      · exact absurd (hsameName.symm.trans hname)
          (hunused second f hf' (hsameParent.symm.trans hparent))
    · rcases hcases second f hf with ⟨rfl, rfl⟩ | ⟨-, hf'⟩
      · exact absurd (hsameName.trans hname) (hunused first e he' (hsameParent.trans hparent))
      · exact h.names first second e f he' hf' hsameParent hsameName
  case filed =>
    intro other e he
    rcases hcases other e he with ⟨rfl, rfl⟩ | ⟨-, he⟩
    · rw [hparent, ← hversion]
      simp
    · exact h.filed other e he
  case versionName =>
    intro other e he hisVersion
    rcases hcases other e he with ⟨rfl, rfl⟩ | ⟨-, he⟩
    · rw [hname, hnamed (hversion.2 hisVersion)]
    · exact h.versionName other e he hisVersion
  case childless =>
    intro other e q dq he hq hdq
    rcases hcases other e he with ⟨rfl, rfl⟩ | ⟨-, he⟩
    · cases hparent.symm.trans hq
      rcases hcases p dq hdq with ⟨heq, -⟩ | ⟨-, hdq⟩
      · exact absurd heq hpid
      · cases hdp.symm.trans hdq
        exact hcontainer
    · rcases hcases q dq hdq with ⟨heq, -⟩ | ⟨-, hdq⟩
      · exact absurd heq (hparentOld other e q he hq)
      · exact h.childless other e q dq he hq hdq
  case folder =>
    obtain ⟨e, he, hrest⟩ := h.folder
    exact ⟨e, hkept _ _ he, hrest⟩

end TreeShaped

end ContentRepository
