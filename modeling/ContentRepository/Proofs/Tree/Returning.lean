import ContentRepository.Proofs.Tree.Runs

/-!
# Moving there and back

A move overwrites the place of a document, and in every document below it the first part of the
ancestors. Nothing of this is lost: the place can be named in another move, and the part that was
overwritten follows from the place. So a move can be taken back, and the tree is what it was, field
by field.

* **`Shelf.Relocated`** — what a move changes, and that it changes nothing else.
* **`Site.moved_moved`** and **`Shelf.AdmitsMove.moved_in_place`** — of two moves of a document the
  second decides, and one to where it is changes nothing.
* **`Shelf.AdmitsMove.back`** — whatever was moved may be moved back.
* **`Site.restored_of_move`** — a move and the way back restore the store.
-/

namespace ContentRepository

/-- On the second shelf a document has another place than on the first, under `destId` and with a
name. -/
structure Shelf.Relocated (s t : Shelf) (id destId name : String) (d e : Document) : Prop where
  before : s.get? id = some d
  after : t.get? id = some e
  /-- Of the document its parent, its name and its ancestors change. -/
  kept : Document.AgreesUnless (· ∈ [Field.parent, Field.name, Field.ancestors]) d e
  parent : e.get? Field.parent = some (.reference destId)
  name : e.get? Field.name = some (.string name)
  ancestors : ∃ dest, s.get? destId = some dest ∧
    e.get? Field.ancestors = some (.references (dest.ancestors ++ [destId]))
  /-- Of what is below it the ancestors change: those of the document are replaced. -/
  below : ∀ k c, s.get? k = some c → Relation.TransGen s.ChildOf k id → ∃ f rest,
    t.get? k = some f ∧ Document.AgreesUnless (· = Field.ancestors) c f ∧
      c.ancestors = d.ancestors ++ id :: rest ∧
      f.get? Field.ancestors = some (.references (e.ancestors ++ id :: rest))
  /-- All else is as it was. -/
  others : ∀ k, ¬ s.InSubtree k id → t.get? k = s.get? k

namespace Site

variable {id destId name p n k : String} {c d dest dp : Document}

/-! ## Two moves -/

/-- Of two places the second counts. -/
theorem relocated_relocated :
    relocated (relocated d dest destId name) dp p n = relocated d dp p n := by
  refine Table.ext fun key => ?_
  by_cases hkey : key ∈ [Field.parent, Field.name, Field.ancestors]
  · -- each of the three is set by the second
    simp only [List.mem_cons, List.not_mem_nil, or_false] at hkey
    rcases hkey with rfl | rfl | rfl <;>
      simp +decide [relocated, Document.setAll, Document.get?_set]
  · rw [agreesUnless_relocated key hkey, agreesUnless_relocated key hkey,
      agreesUnless_relocated key hkey]

/-- Of two ways from the root to the moved document the second counts. -/
theorem rebased_rebased {front other : List String} (hid : id ∉ front) (hmem : id ∈ c.ancestors) :
    rebased id other (rebased id (front ++ [id]) c) = rebased id other c := by
  obtain ⟨before, rest, hancestors, hbefore⟩ := List.eq_append_cons_of_mem hmem
  have htwice : rebasedAncestors id other (rebasedAncestors id (front ++ [id]) c.ancestors) =
      rebasedAncestors id other c.ancestors := by
    rw [hancestors, rebasedAncestors_of_notMem hbefore, rebasedAncestors_of_notMem hbefore,
      List.append_assoc]
    exact rebasedAncestors_of_notMem hid
  rw [rebased, ancestors_rebased, htwice, rebased, rebased]
  exact Table.insert_insert c Field.ancestors _ _

/-- **Of two moves of a document the second counts.** -/
theorem moved_moved (hdest : dest.id? = some destId) (hne : destId ≠ id)
    (helsewhere : id ∉ dest.ancestors) :
    moved id dp p n k (moved id dest destId name k c) = moved id dp p n k c := by
  have hfront : id ∉ dest.childAncestors := by
    rw [Document.childAncestors, hdest]
    simpa [helsewhere] using hne.symm
  by_cases hk : k = id
  · simp only [moved, hk, if_true, relocated_relocated]
  by_cases hmem : id ∈ c.ancestors
  · -- it is still below the moved document after the first move
    obtain ⟨before, rest, hancestors, hbefore⟩ := List.eq_append_cons_of_mem hmem
    have hstill : id ∈ (rebased id (dest.childAncestors ++ [id]) c).ancestors := by
      rw [ancestors_rebased, hancestors, rebasedAncestors_of_notMem hbefore]
      simp
    simp only [moved, hk, hmem, hstill, if_false, if_true, rebased_rebased hfront hmem]
  · simp only [moved, hk, hmem, if_false]

end Site

namespace Shelf.AdmitsMove

open Site

variable {s t : Shelf} {root versions id destId name p n k : String} {c d dest dp : Document}

/-- A document may be moved to where it is. -/
theorem of_place (h : TreeShaped root versions s) (hkeyed : s.Keyed) (hd : s.get? id = some d)
    (hparent : d.parent? = some p) (hname : d.name? = some n) (hversions : id ≠ versions)
    (hversion : d.isVersion = false) : ∃ dp, s.AdmitsMove root versions id p n d dp := by
  rw [Document.parent?, Document.reference?_eq_some_iff] at hparent
  rw [Document.name?, Document.string?_eq_some_iff] at hname
  obtain ⟨dp, hdp, hancestors⟩ := h.exists_of_parent hd hparent
  have hmem := h.mem_ancestors_of_child (a := id) hd hparent hdp
  have hcycle := mt hmem.2 (h.notMem_ancestors hd)
  rw [not_or] at hcycle
  refine ⟨dp, hd, hdp, hkeyed p dp hdp, ?ne_root, hversions, hversion, ?unfiled,
    (h.childless id d p dp hd hparent hdp), Ne.symm hcycle.2, hcycle.1, ?unused⟩
  case ne_root =>
    -- the root has no parent to return to
    rintro rfl
    rw [(h.parent_eq_none_iff hd).2 rfl] at hparent
    cases hparent
  case unfiled =>
    -- what is filed under the versions is a version
    rintro rfl
    rw [(h.filed id d hd).1 hparent] at hversion
    cases hversion
  case unused =>
    -- names are unique among the children of its parent
    intro other e he heparent hename
    exact h.names other id e d he hd (heparent.trans hparent.symm) (hename.trans hname.symm)

/-- **A move to where the document is changes nothing.** -/
theorem moved_in_place (hm : s.AdmitsMove root versions id p n d dp)
    (h : TreeShaped root versions s) (hparent : d.parent? = some p) (hname : d.name? = some n)
    (hc : s.get? k = some c) : moved id dp p n k c = c := by
  rw [Document.parent?, Document.reference?_eq_some_iff] at hparent
  rw [Document.name?, Document.string?_eq_some_iff] at hname
  have hancestors := h.ancestors_of_child hm.document hparent hm.destination
  by_cases hk : k = id
  · -- the document itself gets the place, name and ancestors it has
    subst hk
    cases hc.symm.trans hm.document
    obtain ⟨hparent', hname', hancestors', -⟩ := get?_relocated c n hm.keyed
    rw [hm.moved_self hc]
    refine Table.ext fun key => ?_
    by_cases hkey : key ∈ [Field.parent, Field.name, Field.ancestors]
    · simp only [List.mem_cons, List.not_mem_nil, or_false] at hkey
      rcases hkey with rfl | rfl | rfl
      · exact hparent'.trans hparent.symm
      · exact hname'.trans hname.symm
      · exact hancestors'.trans hancestors.symm
    · exact agreesUnless_relocated key hkey
  by_cases hmem : id ∈ c.ancestors
  · -- the ancestors of a document below start with those it gets again
    obtain ⟨rest, hrest⟩ := h.exists_ancestors_eq hm.document hc hmem
    have hchild : dp.childAncestors = d.ancestors := by
      rw [Document.childAncestors, hm.keyed]
      exact (Document.references_of_get? hancestors).symm
    rw [moved_of_mem hk hmem]
    refine Table.ext fun key => ?_
    by_cases hkey : key = Field.ancestors
    · rw [hkey, get?_ancestors_rebased, h.get?_ancestors hc, hrest, hchild,
        rebasedAncestors_of_notMem (h.notMem_ancestors hm.document), List.append_assoc]
      rfl
    · exact Document.agreesUnless_set c Field.ancestors _ key hkey
  · -- all others are left alone
    exact moved_of_notMem hk hmem

/-- **Whatever was moved may be moved back.** What was asked of the move does not stand in the way:
where the document came from is no part of what was moved, and its name there has not been given
away. -/
theorem back (hm : s.AdmitsMove root versions id destId name d dest)
    (hplace : s.AdmitsMove root versions id p n d dp)
    (hget : ∀ k, t.get? k = (s.get? k).map (moved id dest destId name k)) :
    t.AdmitsMove root versions id p n (relocated d dest destId name) dp where
  document := by rw [hget, hm.document, Option.map_some, hm.moved_self hm.document]
  destination := by
    rw [hget, hplace.destination, Option.map_some, moved_of_notMem hplace.ne hplace.elsewhere]
  keyed := hplace.keyed
  ne_root := hm.ne_root
  ne_versions := hm.ne_versions
  version := by
    obtain ⟨-, -, -, hagree⟩ := get?_relocated d name hm.keyed
    exact (hagree.flag (by decide)).trans hm.version
  unfiled := hplace.unfiled
  container := hplace.container
  ne := hplace.ne
  elsewhere := hplace.elsewhere
  unused := by
    intro other f hf hparent hname
    by_contra hother
    rw [hget] at hf
    obtain ⟨e, he, rfl⟩ := Option.map_eq_some_iff.1 hf
    rw [agreesOn_moved_of_ne hother _ (by decide)] at hparent hname
    exact hother (hplace.unused other e he hparent hname)

/-- **What a move changes.** -/
theorem relocated (hm : s.AdmitsMove root versions id destId name d dest)
    (h : TreeShaped root versions s)
    (hget : ∀ k, t.get? k = (s.get? k).map (moved id dest destId name k)) :
    s.Relocated t id destId name d (Site.relocated d dest destId name) := by
  obtain ⟨hparent, hname, hancestors, -⟩ := get?_relocated d name hm.keyed
  have hchild : dest.childAncestors = dest.ancestors ++ [destId] := by
    rw [Document.childAncestors, hm.keyed]
    rfl
  refine ⟨hm.document, ?after, agreesUnless_relocated, hparent, hname,
    ⟨dest, hm.destination, hancestors⟩, ?below, ?others⟩
  case after => rw [hget, hm.document, Option.map_some, hm.moved_self hm.document]
  case below =>
    intro k c hc hchain
    obtain ⟨c', hc', hmem⟩ := h.transGen_iff.1 hchain
    cases hc.symm.trans hc'
    obtain ⟨rest, hrest⟩ := h.exists_ancestors_eq hm.document hc hmem
    -- a document below is not the moved one, as nothing is above itself
    have hk : k ≠ id := by
      rintro rfl
      exact h.notMem_ancestors hc hmem
    refine ⟨rebased id (dest.childAncestors ++ [id]) c, rest,
      by rw [hget, hc, Option.map_some, moved_of_mem hk hmem], Document.agreesUnless_set c _ _,
      hrest, ?_⟩
    rw [get?_ancestors_rebased, hrest,
      rebasedAncestors_of_notMem (h.notMem_ancestors hm.document), Document.ancestors,
      Document.references_of_get? hancestors, hchild, List.append_assoc]
    rfl
  case others =>
    -- what is neither the document nor below it is left alone
    intro k hk
    rw [hget]
    cases hc : s.get? k with
    | none => rfl
    | some c =>
      rw [h.inSubtree_iff hm.document] at hk
      have hne : k ≠ id := fun heq => hk ⟨c, hc, .inl heq⟩
      exact congrArg some (moved_of_notMem hne fun hmem => hk ⟨c, hc, .inr hmem⟩)

end Shelf.AdmitsMove

namespace Site.Coherent

variable {w : Workspace} {site : Site} {shelf : Shelf} {id destId : String}

/-- **A move that has a plan is admitted by the tree, and the plan can be carried out.** -/
theorem admits_of_planMove (h : Coherent site shelf) {name? : Option String} {plan : Plan}
    {answer : String} (hroot : id ≠ site.root) (hversions : id ≠ site.versions)
    (hplan : site.planMove id destId name? = .ok (plan, answer)) :
    answer = id ∧ ∃ name d dest t, name = (name?.or d.name?).getD "" ∧
      shelf.AdmitsMove site.root site.versions id destId name d dest ∧
      (∀ k, t.get? k = (shelf.get? k).map (moved id dest destId name k)) ∧
      shelf.Writes plan.writes t := by
  obtain ⟨rfl, d, name, hd, hversion, hname, ⟨⟨hparent, hown⟩, rfl⟩ | ⟨-, dest, hchecks, rfl⟩⟩ :=
    h.filed.planMove_eq_ok hplan
  · -- it is there already, and being moved changes nothing
    obtain ⟨dest, hm⟩ := Shelf.AdmitsMove.of_place h.tree h.keyed hd hparent hown hversions hversion
    refine ⟨rfl, name, d, dest, shelf, hname, hm, fun k => ?_, .nil shelf⟩
    cases hc : shelf.get? k with
    | none => rfl
    | some c => exact congrArg some (hm.moved_in_place h.tree hparent hown hc).symm
  · exact ⟨rfl, name, d, dest, _, hname, h.admitsMove hroot hversions hchecks,
      h.get?_putAll_rebasedBelow hchecks.document dest destId name,
      h.filed.writes_relocated hchecks.document hchecks.destination⟩

/-- **What a move that succeeds has done.** -/
theorem of_move (h : Coherent w.site shelf) {name? : Option String} {e : Document}
    {after : Workspace} (hmove : w.move id destId name? = (.ok e, after)) :
    ∃ name d dest t drawn, name = (name?.or d.name?).getD "" ∧
      shelf.AdmitsMove w.site.root w.site.versions id destId name d dest ∧
      (∀ k, t.get? k = (shelf.get? k).map (moved id dest destId name k)) ∧
      e = relocated d dest destId name ∧ after.site = w.site.settled drawn t := by
  obtain ⟨⟨hroot, hversions⟩, hlive, plan, answer, hplan, hproduce⟩ :=
    Workspace.exists_plan_of_produce hmove
  obtain ⟨rfl, name, d, dest, t, hname, hm, hget, hwrites⟩ :=
    h.admits_of_planMove hroot hversions hplan
  have he : t.get? answer = some (relocated d dest destId name) := by
    rw [hget, hm.document, Option.map_some, hm.moved_self hm.document]
  obtain ⟨last, heq⟩ := Workspace.exists_produce_eq hlive h.stored hwrites he
  cases heq.symm.trans hproduce
  exact ⟨name, d, dest, t, plan.drawn, hname, hm, hget, rfl, rfl⟩

/-- **A move that the tree admits succeeds.** -/
theorem exists_move_eq (h : Coherent w.site shelf) (hlive : w.session.live = true) {name : String}
    {d dest : Document}
    (hm : shelf.AdmitsMove w.site.root w.site.versions id destId name d dest) :
    ∃ t last, (∀ k, t.get? k = (shelf.get? k).map (moved id dest destId name k)) ∧
      w.move id destId (some name) =
        (.ok (relocated d dest destId name), ⟨w.site.settled 0 t, last⟩) := by
  have hplan := h.filed.planMove_eq (h.checksMove hm)
  obtain ⟨-, other, d', dest', t, hother, hm', hget, hwrites⟩ :=
    h.admits_of_planMove hm.ne_root hm.ne_versions hplan
  obtain rfl : name = other := hother.symm
  cases hm.document.symm.trans hm'.document
  cases hm.destination.symm.trans hm'.destination
  have he : t.get? id = some (relocated d dest destId name) := by
    rw [hget, hm.document, Option.map_some, hm.moved_self hm.document]
  obtain ⟨last, heq⟩ := Workspace.exists_produce_eq hlive h.stored hwrites he
  refine ⟨t, last, hget, ?_⟩
  rw [Workspace.move, Workspace.requireOrdinary_bind_eq hlive ⟨hm.ne_root, hm.ne_versions⟩, hplan]
  exact heq

end Site.Coherent

namespace Site

section Founded

variable {repository : String} {provision : Provision} {ids : IdSource} {clock : Instant}
  {queue : Option IndexQueue} {start site : Site} {session : Session} {id destId p n : String}
  {name? : Option String} {d e : Document} {after : Workspace}

/-- **A move changes the place of a document and nothing else, and it can be taken back.** Let a run
lead from a new repository to a site, and there let a document with a parent `p` and a name `n` be
moved.

* Of the document the parent, the name and the ancestors are different, of the documents below it
  the ancestors, and of these only the part that leads to the document. All else is the same.
* Any live session can then move the document to `p` with the name `n`, and thereby the store
  becomes what it was. -/
theorem restored_of_move (hids : ids.Unrepeated)
    (hfound : Site.found repository (Store.empty provision) ids clock queue = .ok start)
    (hrun : start.Reaches site) (hd : site.store.find? id = .ok (some d))
    (hparent : d.parent? = some p) (hname : d.name? = some n)
    (hmove : Workspace.move ⟨site, session⟩ id destId name? = (.ok e, after)) :
    ∃ s t, site.store.shelf? = some s ∧ after.site.store.shelf? = some t ∧
      s.Relocated t id destId (name?.getD n) d e ∧
      ∀ other : Session, other.live = true → ∃ last,
        Workspace.move ⟨after.site, other⟩ id p (some n) = (.ok d, last) ∧
          last.site.store = site.store := by
  obtain ⟨shelf, h, -, -⟩ := coherent_of_reaches hids hfound hrun
  rw [Store.find?_eq h.stored, Except.ok.injEq] at hd
  obtain ⟨name, d', dest, t, drawn, rfl, hm, hget, rfl, hafter⟩ :=
    Coherent.of_move (w := ⟨site, session⟩) h hmove
  cases hd.symm.trans hm.document
  have hgiven : (name?.or d.name?).getD "" = name?.getD n := by
    rw [hname]
    cases name? <;> rfl
  rw [hgiven] at hm hget ⊢
  obtain ⟨dp, hplace⟩ := Shelf.AdmitsMove.of_place h.tree h.keyed hd hparent hname hm.ne_versions
    hm.version
  refine ⟨shelf, t, h.stored, by rw [hafter]; rfl, hm.relocated h.tree hget, fun other hlive => ?_⟩
  rw [hafter]
  have ht : Coherent (site.settled drawn t) t := h.settled_of_moved hm hget drawn
  obtain ⟨u, last, hu, hback⟩ := Coherent.exists_move_eq (w := ⟨site.settled drawn t, other⟩) ht
    hlive (hm.back hplace hget)
  have hrestored : u = shelf := by
    refine Table.ext fun k => ?_
    rw [hu, hget]
    cases hc : shelf.get? k with
    | none => rfl
    | some c =>
      rw [Option.map_some, Option.map_some, moved_moved hm.keyed hm.ne hm.elsewhere,
        hplace.moved_in_place h.tree hparent hname hc]
  have hsame : relocated (relocated d dest destId (name?.getD n)) dp p n = d := by
    rw [relocated_relocated, ← hplace.moved_self hd, hplace.moved_in_place h.tree hparent hname hd]
  rw [hsame] at hback
  refine ⟨_, hback, ?_⟩
  rw [hrestored]
  exact Store.withShelf_self h.stored

/-- For instance a folder with a document in it that is moved into another folder under another
name. -/
theorem restored_of_folder :
    ∃ start, Site.found "test" (Store.empty .own) .sequential ⟨0, 0, by decide⟩ none = .ok start ∧
      let site := start.afterCalls (.fresh "s")
        [.addChild start.root "a" "Folder", .addChild start.root "b" "Folder",
          .addChild "UUID_2" "c" "File"]
      ∃ d e after, site.store.find? "UUID_2" = .ok (some d) ∧ d.parent? = some start.root ∧
        d.name? = some "a" ∧
        Workspace.move ⟨site, .fresh "s"⟩ "UUID_2" "UUID_3" (some "d") = (.ok e, after) ∧
        ∃ s t, site.store.shelf? = some s ∧ after.site.store.shelf? = some t ∧
          s.Relocated t "UUID_2" "UUID_3" "d" d e ∧
          ∀ other : Session, other.live = true → ∃ last,
            Workspace.move ⟨after.site, other⟩ "UUID_2" start.root (some "a") = (.ok d, last) ∧
              last.site.store = site.store := by
  refine ⟨_, Coherent.found_eq_ok IdSource.unrepeated_sequential, ?_⟩
  intro site
  have hplace : (site.store.find? "UUID_2").toOption.join.map (fun d => (d.parent?, d.name?)) =
      some (some "UUID_0", some "a") := by decide +kernel
  have hok : (Workspace.move ⟨site, .fresh "s"⟩ "UUID_2" "UUID_3" (some "d")).1.isOk = true := by
    decide +kernel
  obtain ⟨d, hd, hboth⟩ := Store.exists_find?_eq hplace
  obtain ⟨hparent, hname⟩ := Prod.mk.inj hboth
  obtain ⟨e, after, hmove⟩ := exists_eq_ok_of_isOk hok
  exact ⟨d, e, after, hd, hparent, hname, hmove,
    restored_of_move IdSource.unrepeated_sequential
      (Coherent.found_eq_ok IdSource.unrepeated_sequential)
      (.afterCalls _ _ (by simp [AdmitsCall])) hd hparent hname hmove⟩

end Founded

end Site

end ContentRepository
