import ContentRepository.Proofs.Session.Planned
import ContentRepository.Proofs.Tree.Coherence

/-!
# Operations that add one document

Adding a child, checking a document in and adding a proxy each put one new document under a
container. A check-in and a new proxy also update one document that is there already.

* **`Site.Coherent.of_planAdd`**, **`Site.Coherent.of_planCheckIn`** and
  **`Site.Coherent.of_planProxy`** — each of these plans is carried out to the end and leads to a
  coherent site.
-/

namespace ContentRepository

/-! ## The new documents -/

/-- A new child under its parent, whatever other fields it gets besides. -/
theorem Document.get?_newChild (id name : String) {parentId : String} {parent : Document}
    (hparent : parent.id? = some parentId) :
    (newChild id parent parentId name).get? Field.id = some (.string id) ∧
      (newChild id parent parentId name).get? Field.parent = some (.reference parentId) ∧
      (newChild id parent parentId name).get? Field.name = some (.string name) ∧
      (newChild id parent parentId name).get? Field.ancestors =
        some (.references (parent.ancestors ++ [parentId])) ∧
      ∀ key, key ∉ [Field.id, Field.parent, Field.name, Field.ancestors] →
        (newChild id parent parentId name).get? key = none := by
  have hchild : parent.childAncestors = parent.ancestors ++ [parentId] := by
    rw [childAncestors, hparent]
    rfl
  refine ⟨?_, ?_, ?_, ?_, ?_⟩
  case refine_5 =>
    intro key hkey
    simp only [List.mem_cons, List.not_mem_nil, or_false, not_or] at hkey
    obtain ⟨hid, hparent, hname, hancestors⟩ := hkey
    simp [newChild, withId, setAll, get?_set, hid, hparent, hname, hancestors]
  all_goals simp +decide [newChild, withId, setAll, get?_set, hchild]

namespace Site.Coherent

variable {site : Site} {shelf : Shelf} {id : String} {plan : Plan}

/-- **A new document under a container keeps the tree in shape.** -/
theorem plant_child (h : Coherent site shelf) {p name : String} {dp d : Document}
    (hdp : shelf.get? p = some dp)
    (hcontainer : dp.isProxy = false ∧ dp.isVersion = false ∧ dp.id? ≠ some site.versions)
    (hunused : shelf.child? p name [] = none)
    (hagree : Document.AgreesOn [Field.parent, Field.name, Field.ancestors]
      (Document.newChild (site.ids.peek 0) dp p name) d)
    (hversion : d.isVersion = false) :
    TreeShaped site.root site.versions (Table.insert shelf (site.ids.peek 0) d) := by
  have hne := h.ne_versions_of_container hdp hcontainer.2.2
  obtain ⟨-, hparent, hname, hancestors, -⟩ :=
    Document.get?_newChild (site.ids.peek 0) name (h.keyed p dp hdp)
  refine h.tree.plant (h.get?_peek 0) hdp ⟨hcontainer.1, hcontainer.2.1⟩
    ((hagree _ (by decide)).trans hparent) ((hagree _ (by decide)).trans hname)
    ((hagree _ (by decide)).trans hancestors) (Shelf.name_ne_of_child?_eq_none hunused) ?_ ?_
  · simp [hne, hversion]
  · exact fun heq => absurd heq hne

/-- One new document with the next id: only this id has to be drawn. -/
theorem drawn_insert {other : String} {d e : Document}
    (he : Table.get? (Table.insert shelf (site.ids.peek 0) d) other = some e) :
    (shelf.get? other).isSome = true ∨ ∃ m, m < 1 ∧ other = site.ids.peek m := by
  rw [Table.get?_insert] at he
  split at he
  · next heq => exact .inr ⟨0, by omega, heq⟩
  · exact .inl (by rw [he]; rfl)

/-! ## Adding a child -/

/-- **A child can be added.** -/
theorem of_planAdd (h : Coherent site shelf) {parent name type : String}
    (hplan : site.planAdd parent name type = .ok (plan, id)) :
    ∃ t, shelf.Writes plan.writes t ∧ Coherent (site.settled plan.drawn t) t := by
  obtain ⟨dp, hdp, hcontainer, hunused, -, rfl⟩ := planAdd_eq_ok h.stored hplan
  obtain ⟨hid, -, -, -, hother⟩ :=
    Document.get?_newChild (site.ids.peek 0) name (h.keyed parent dp hdp)
  let d := (Document.newChild (site.ids.peek 0) dp parent name).set Field.type (.string type)
  have hagree : Document.AgreesOn Field.structural
      (Document.newChild (site.ids.peek 0) dp parent name) d :=
    Document.agreesOn_set (by decide) _ _
  -- a new child is no proxy, no version, and has no links
  have hnone : ∀ key ∈ [Field.isProxy, Field.isVersion, Field.target, Field.proxies],
      d.get? key = none := by
    intro key hkey
    rw [hagree key (by revert key; decide)]
    exact hother key (by revert key; decide)
  have hdid : d.id? = some (site.ids.peek 0) :=
    Document.string?_eq_some_iff.2 ((hagree _ (by decide)).trans hid)
  refine ⟨_, .create hdid (h.get?_peek 0) (.mark (.nil _)), h.settled (h.keyed.insert hdid) ?_ ?_ ?_⟩
  · exact fun other e he => drawn_insert he
  · exact h.plant_child hdp hcontainer hunused (hagree.mono (by decide))
      (Document.flag_of_get?_eq_none (hnone _ (by decide)))
  · exact h.links.plant (h.get?_peek 0) (Document.flag_of_get?_eq_none (hnone _ (by decide)))
      (hnone _ (by decide)) (Document.references_of_get?_eq_none (hnone _ (by decide)))

/-! ## Adding a proxy -/

/-- **A proxy can be added.** -/
theorem of_planProxy (h : Coherent site shelf) {target parent name : String}
    (hplan : site.planProxy target parent name = .ok (plan, id)) :
    ∃ t, shelf.Writes plan.writes t ∧ Coherent (site.settled plan.drawn t) t := by
  obtain ⟨dt, dp, hdt, hno, hdp, hcontainer, hunused, -, rfl⟩ := planProxy_eq_ok h.stored hplan
  obtain ⟨hid, -, -, -, hother⟩ :=
    Document.get?_newChild (site.ids.peek 0) name (h.keyed parent dp hdp)
  let fields := [(Field.isProxy, Value.boolean true), (Field.target, .reference target)] ++
    dt.type?.toList.map fun type => (Field.type, .string type)
  let d := proxyOf (site.ids.peek 0) target parent name dt dp
  have hset : d = (Document.newChild (site.ids.peek 0) dp parent name).setAll fields := rfl
  have hagree : Document.AgreesOn
      [Field.id, Field.parent, Field.name, Field.ancestors, Field.isVersion, Field.proxies]
      (Document.newChild (site.ids.peek 0) dp parent name) d := by
    rw [hset]
    refine Document.agreesOn_setAll ?_ _
    intro field hfield
    simp only [fields, List.mem_append, List.mem_cons, List.not_mem_nil, or_false, List.mem_map,
      Option.mem_toList] at hfield
    rcases hfield with (rfl | rfl) | ⟨type, -, rfl⟩ <;> simp +decide
  have honce : (fields.map (·.1)).Nodup := by
    cases htype : dt.type? <;> simp +decide [fields, htype]
  have hproxy : d.isProxy = true :=
    Document.flag_iff.2 (Document.get?_setAll_of_mem honce (by simp))
  have htarget : d.get? Field.target = some (.reference target) :=
    Document.get?_setAll_of_mem honce (by simp)
  have hnone : ∀ key ∈ [Field.isVersion, Field.proxies], d.get? key = none := by
    intro key hkey
    rw [hagree key (by revert key; decide)]
    exact hother key (by revert key; decide)
  have hdid : d.id? = some (site.ids.peek 0) :=
    Document.string?_eq_some_iff.2 ((hagree _ (by decide)).trans hid)
  have hthere : Table.get? (Table.insert shelf (site.ids.peek 0) d) target = some dt := by
    rw [Table.get?_insert, if_neg (h.ne_peek hdt 0).symm, hdt]
  have hrelinked : Document.AgreesOn Field.ofTree dt (dt.relinked [site.ids.peek 0] []) :=
    Document.agreesOn_relinked (by decide) dt _ _
  have htid : (dt.relinked [site.ids.peek 0] []).id? = some target :=
    (hrelinked.string? (by decide)).trans (h.keyed _ _ hdt)
  -- relinking the target afterwards does not change the tree
  have hsame := Shelf.AgreesOn.insert hthere hrelinked
  refine ⟨_, .create hdid (h.get?_peek 0) (.update htid (by rw [hthere]; rfl) (.nil _)),
    h.settled ((h.keyed.insert hdid).insert htid) ?_ ?_ ?_⟩
  · intro other e he
    obtain ⟨e, he, -⟩ := hsame.right he
    exact drawn_insert he
  · exact (h.plant_child hdp hcontainer hunused (hagree.mono (by decide))
      (Document.flag_of_get?_eq_none (hnone _ (by decide)))).congr hsame
  · exact h.links.link (h.get?_peek 0) hdt hno hproxy htarget
      (Document.references_of_get?_eq_none (hnone _ (by decide)))

/-! ## Checking in -/

/-- The fields of a version that place it. -/
theorem place_nextVersion {folder : Document} (d : Document) (id : String) (increment : Increment)
    (hfolder : folder.id? = some site.versions) :
    (site.nextVersion d folder id increment).get? Field.id = some (.string (site.ids.peek 0)) ∧
      (site.nextVersion d folder id increment).get? Field.parent =
        some (.reference site.versions) ∧
      (site.nextVersion d folder id increment).get? Field.name =
        some (.string (site.ids.peek 0)) ∧
      (site.nextVersion d folder id increment).get? Field.ancestors =
        some (.references (folder.ancestors ++ [site.versions])) ∧
      (site.nextVersion d folder id increment).get? Field.isVersion = some (.boolean true) ∧
      (site.nextVersion d folder id increment).get? Field.proxies = none ∧
      Document.AgreesOn [Field.isProxy, Field.target] d
        (site.nextVersion d folder id increment) := by
  have hchild : folder.childAncestors = folder.ancestors ++ [site.versions] := by
    rw [Document.childAncestors, hfolder]
    rfl
  refine ⟨?_, ?_, ?_, ?_, ?_, ?_, ?_⟩
  case refine_7 =>
    exact (Document.agreesOn_unsetAll (by decide) d).trans
      (Document.agreesOn_setAll (by simp +decide [VersionNumber.fields]) _)
  all_goals simp +decide [nextVersion, versionOf, VersionNumber.fields, Document.setAll,
    Document.get?_set, Document.get?_unsetAll, hchild]

/-- **A check-in can be carried out.** -/
theorem of_planCheckIn (h : Coherent site shelf) {live : String} {increment : Increment}
    (hplan : site.planCheckIn live increment = .ok (plan, id)) :
    ∃ t, shelf.Writes plan.writes t ∧ Coherent (site.settled plan.drawn t) t := by
  obtain ⟨d, folder, ⟨hd, hproxy, hversion, -, hfolder⟩, -, rfl⟩ :=
    planCheckIn_eq_ok h.stored hplan
  let versionId := site.ids.peek 0
  let v := site.nextVersion d folder live increment
  obtain ⟨hvid, hparent, hname, hancestors, hisVersion, hproxies, hlinks⟩ :=
    place_nextVersion d live increment (h.keyed _ _ hfolder)
  have hvproxy : v.isProxy = false := (hlinks.flag (by decide)).trans hproxy
  have hvtarget : v.get? Field.target = none := by
    rw [hlinks _ (by decide)]
    cases htarget : d.get? Field.target with
    | none => rfl
    | some target =>
      rw [h.links.isProxy_of_target hd htarget] at hproxy
      cases hproxy
  have hcontainer : folder.isProxy = false := by
    obtain ⟨e, he, -, hno⟩ := h.tree.folder
    cases hfolder.symm.trans he
    exact hno
  have hfree : shelf.get? versionId = none := h.get?_peek 0
  -- versions are named by their ids, so the name of the new one is free
  have hunused : ∀ other e, shelf.get? other = some e →
      e.get? Field.parent = some (.reference site.versions) →
      e.get? Field.name ≠ some (.string versionId) := by
    intro other e he hp heq
    have hnamed := h.tree.versionName other e he ((h.tree.filed other e he).1 hp)
    cases hnamed.symm.trans heq
    rw [hfree] at he
    cases he
  have htree : TreeShaped site.root site.versions (Table.insert shelf versionId v) :=
    h.tree.plant hfree hfolder ⟨hcontainer, h.tree.isVersion_versions hfolder⟩ hparent hname
      hancestors hunused (by simp [Document.flag_iff.2 hisVersion, Document.isVersion, v])
      (fun _ => rfl)
  have hlinked : ProxyLinked (Table.insert shelf versionId v) :=
    h.links.plant hfree hvproxy hvtarget (Document.references_of_get?_eq_none hproxies)
  have hvdid : v.id? = some versionId := Document.string?_eq_some_iff.2 hvid
  have hthere : Table.get? (Table.insert shelf versionId v) live = some d := by
    rw [Table.get?_insert, if_neg (h.ne_peek hd 0).symm, hd]
  have hupdated : Document.AgreesOn Field.structural d (site.nextLive d increment) :=
    Document.agreesOn_setAll (by simp +decide [VersionNumber.fields]) d
  have hdid : (site.nextLive d increment).id? = some live :=
    (hupdated.string? (by decide)).trans (h.keyed _ _ hd)
  have hsame := Shelf.AgreesOn.insert hthere hupdated
  refine ⟨_, .create hvdid hfree (.mark (.update hdid (by rw [hthere]; rfl) (.nil _))),
    h.settled ((h.keyed.insert hvdid).insert hdid) ?_ ?_ ?_⟩
  · intro other e he
    obtain ⟨e, he, -⟩ := hsame.right he
    exact drawn_insert he
  · exact htree.congr (hsame.mono (List.subset_append_left _ _))
  · exact hlinked.congr (hsame.mono (List.subset_append_right _ _))

end Site.Coherent

end ContentRepository
