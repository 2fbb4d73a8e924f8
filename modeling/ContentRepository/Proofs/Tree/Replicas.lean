import ContentRepository.Proofs.Tree.Runs
import Mathlib.Data.Set.Function

/-!
# What a copy adds

The documents to copy are found in the order of their ids, not from the top down, and the targets of
copied proxies are told in a second pass. What comes of it is the subtree once more: the ids are
renamed, whatever refers to a document of the subtree refers to its copy, and what is not about the
content of a document is left out.

* **`Shelf.Replica`** — what the copy of one document is.
* **`Shelf.Replicated`** — a shelf with the copies of a subtree, and with nothing else that is new.
* **`Site.Coherent.replicated_copied`** — the shelf after a copy is of this kind.
* **`Site.replicated_of_copy`** — so it is in every repository, and a copy that fails adds nothing.
-/

namespace ContentRepository

/-- The proxies of a document that are new after the subtree of `id` was copied: the copies of its
proxies in there. -/
structure Shelf.NewProxies (s : Shelf) (id : String) (rename : String → String) (k : String)
    (added : List String) : Prop where
  nodup : added.Nodup
  mem_iff : ∀ q, q ∈ added ↔ ∃ p, s.InSubtree p id ∧ s.StandsFor p k ∧ q = rename p

/-- What the copy of a document is that was stored under `k`. -/
structure Shelf.Replica (s t : Shelf) (id : String) (rename : String → String) (k : String)
    (e copy : Document) : Prop where
  own : copy.get? Field.id = some (.string (rename k))
  /-- The ancestors follow from the parent, whichever that is. -/
  ancestors : ∃ p dp, copy.get? Field.parent = some (.reference p) ∧ t.get? p = some dp ∧
    copy.get? Field.ancestors = some (.references (dp.ancestors ++ [p]))
  target : copy.get? Field.target = e.target?.map fun target => .reference (rename target)
  proxies : ∃ added, s.NewProxies id rename k added ∧ copy.ListsProxies added
  blank : ∀ key ∈ Site.uncopied, key ≠ Field.proxies → copy.get? key = none
  kept : Document.AgreesUnless (· ∈ [Field.id, Field.parent, Field.name, Field.ancestors,
    Field.target] ++ Site.uncopied) e copy

/-- The second shelf is the first with a copy of the subtree of `id` under `destId`, the copy of its
top with a name. -/
structure Shelf.Replicated (s t : Shelf) (id destId name : String) (rename : String → String) :
    Prop where
  /-- What is new are the copies, one for each document of the subtree. -/
  bijective : Set.BijOn rename {k | s.InSubtree k id} {l | s.get? l = none ∧ (t.get? l).isSome}
  /-- Documents elsewhere are not renamed. -/
  elsewhere : ∀ k, ¬ s.InSubtree k id → rename k = k
  replica : ∀ k e, s.InSubtree k id → s.get? k = some e → ∃ copy, t.get? (rename k) = some copy ∧
    s.Replica t id rename k e copy
  top : ∃ copy, t.get? (rename id) = some copy ∧
    copy.get? Field.parent = some (.reference destId) ∧ copy.get? Field.name = some (.string name)
  below : ∀ k e copy, s.InSubtree k id → k ≠ id → s.get? k = some e → t.get? (rename k) = some copy →
    copy.get? Field.name = e.get? Field.name ∧ ∃ p, e.get? Field.parent = some (.reference p) ∧
      copy.get? Field.parent = some (.reference (rename p))
  /-- A document stays as it was, unless it is elsewhere and has proxies that were copied. -/
  untouched : ∀ k e, s.get? k = some e →
    (s.InSubtree k id ∨ ∀ p, s.InSubtree p id → ¬ s.StandsFor p k) → t.get? k = some e
  /-- Then these are added to its list. -/
  attached : ∀ k e, s.get? k = some e → ¬ s.InSubtree k id →
    (∃ p, s.InSubtree p id ∧ s.StandsFor p k) → ∃ f added, t.get? k = some f ∧
      Document.AgreesUnless (· = Field.proxies) e f ∧ s.NewProxies id rename k added ∧
      f.ListsProxies (e.proxies ++ added)

namespace Site.Coherent

variable {site : Site} {shelf : Shelf} {id destId name k : String} {d dest e : Document}

/-! ## Links to attach -/

/-- What becomes of a document to which links are attached that are new to it. -/
theorem attached_cases (copies : List Document) (k : String)
    (hnew : ∀ q ∈ startsOf (copyLinks copies) k, q ∉ e.proxies) :
    let f := ((copyLinks copies).get? k).elim e fun starts => e.relinked starts.keys []
    (startsOf (copyLinks copies) k = [] ∧ f = e) ∨
      (startsOf (copyLinks copies) k ≠ [] ∧ Document.AgreesUnless (· = Field.proxies) e f ∧
        f.ListsProxies (e.proxies ++ startsOf (copyLinks copies) k)) := by
  intro f
  cases hget : (copyLinks copies).get? k with
  | none =>
    -- no copy has this target
    refine .inl ⟨?_, ?_⟩
    · rw [startsOf, hget]
      rfl
    · simp only [f, hget, Option.elim_none]
  | some starts =>
    have hstarts : startsOf (copyLinks copies) k = starts.keys := by
      rw [startsOf, hget]
      rfl
    have hf : f = e.relinked starts.keys [] := by simp only [f, hget, Option.elim_some]
    -- the copies with this target are the new entries of its list
    obtain ⟨start, hstart⟩ := exists_of_get?_gatherLinks hget
    rw [hstarts] at hnew ⊢
    rw [hf]
    exact .inr ⟨List.ne_nil_of_mem hstart, Document.agreesUnless_relinked e starts.keys [],
      Document.listsProxies_relinked_add e starts.nodup_keys hnew⟩

/-- The same for a document that has no proxies yet. -/
theorem attached_of_get?_eq_none (copies : List Document) (k : String)
    (hnone : e.get? Field.proxies = none) :
    let f := ((copyLinks copies).get? k).elim e fun starts => e.relinked starts.keys []
    Document.AgreesUnless (· = Field.proxies) e f ∧
      f.ListsProxies (startsOf (copyLinks copies) k) := by
  have hempty : e.proxies = [] := Document.references_of_get?_eq_none hnone
  obtain ⟨hstarts, hf⟩ | ⟨-, hagree, hlists⟩ := attached_cases (e := e) copies k
    (by simp [hempty])
  · dsimp only
    rw [hf, hstarts]
    exact ⟨.refl _ e, Document.listsProxies_of_get?_eq_none hnone⟩
  · rw [hempty] at hlists
    exact ⟨hagree, hlists⟩

/-! ## Renaming -/

theorem mem_copyList_iff (h : Coherent site shelf) (hd : shelf.get? id = some d) :
    k ∈ copyList shelf id ↔ shelf.InSubtree k id := by
  rw [h.filed.mem_copyList hd, h.tree.inSubtree_iff hd]

/-- Renaming keeps apart what is stored, whether it is copied or not. -/
theorem eq_of_renamed (h : Coherent site shelf) {a b : String} {da db : Document}
    (ha : shelf.get? a = some da) (hb : shelf.get? b = some db)
    (heq : renamed (copyNames site shelf id) a = renamed (copyNames site shelf id) b) : a = b := by
  have hfresh : ∀ {c l dl}, c ∈ copyList shelf id → shelf.get? l = some dl →
      renamed (copyNames site shelf id) c ≠ l := by
    rintro c l dl hc hl rfl
    cases (h.get?_renamed hc).symm.trans hl
  have hstays : ∀ {c}, c ∉ copyList shelf id → renamed (copyNames site shelf id) c = c :=
    fun hc => renamed_of_notMem site.ids hc
  by_cases haCopied : a ∈ copyList shelf id <;> by_cases hbCopied : b ∈ copyList shelf id
  · exact h.renamed_copyNames_inj haCopied hbCopied heq
  · rw [hstays hbCopied] at heq
    exact absurd heq (hfresh haCopied hb)
  · rw [hstays haCopied] at heq
    exact absurd heq.symm (hfresh hbCopied ha)
  · rwa [hstays haCopied, hstays hbCopied] at heq

/-- **Links lead to where their targets are renamed to.** -/
theorem mem_startsOf_iff (h : Coherent site shelf) (hd : shelf.get? id = some d) {q l : String} :
    q ∈ startsOf (copyLinks (copiesOf shelf (copyNames site shelf id) id d dest destId name)) l ↔
      ∃ p k, shelf.InSubtree p id ∧ shelf.StandsFor p k ∧
        q = renamed (copyNames site shelf id) p ∧ l = renamed (copyNames site shelf id) k := by
  rw [h.mem_startsOf_copiesOf]
  simp only [h.mem_copyList_iff hd]
  constructor
  · rintro ⟨p, hp, e, he, rfl, htarget⟩
    rw [h.get?_target_copy _ he] at htarget
    obtain ⟨k, hk, heq⟩ := Option.map_eq_some_iff.1 htarget
    cases heq
    exact ⟨p, k, hp, h.links.standsFor_iff.2 ⟨e, he, Document.reference?_eq_some_iff.1 hk⟩, rfl, rfl⟩
  · rintro ⟨p, k, hp, ⟨e, he, -, hk⟩, rfl, rfl⟩
    refine ⟨p, hp, e, he, rfl, ?_⟩
    rw [h.get?_target_copy _ he, hk]
    rfl

/-- Links to a renamed document are the new proxies of the document. -/
theorem newProxies_startsOf (h : Coherent site shelf) (hd : shelf.get? id = some d)
    (he : shelf.get? k = some e) {l : String} (hl : renamed (copyNames site shelf id) k = l) :
    shelf.NewProxies id (renamed (copyNames site shelf id)) k
      (startsOf (copyLinks (copiesOf shelf (copyNames site shelf id) id d dest destId name)) l) := by
  subst hl
  refine ⟨Table.nodup_keys _, fun q => ?_⟩
  rw [h.mem_startsOf_iff hd]
  constructor
  · rintro ⟨p, l, hp, hstands, rfl, heq⟩
    obtain ⟨dp, hdp, htarget⟩ := h.links.standsFor_iff.1 hstands
    obtain ⟨dl, hdl, -⟩ := h.links.exists_target hdp htarget
    cases h.eq_of_renamed he hdl heq
    exact ⟨p, hp, hstands, rfl⟩
  · rintro ⟨p, hp, hstands, rfl⟩
    exact ⟨p, k, hp, hstands, rfl, rfl⟩

/-- No link leads to a document that was copied: proxies of it that were copied too stand for the
copy. -/
theorem startsOf_eq_nil (h : Coherent site shelf) (hd : shelf.get? id = some d)
    (he : shelf.get? k = some e) (hk : shelf.InSubtree k id) :
    startsOf (copyLinks (copiesOf shelf (copyNames site shelf id) id d dest destId name)) k = [] := by
  refine List.eq_nil_iff_forall_not_mem.2 fun q hq => ?_
  obtain ⟨p, l, -, -, -, heq⟩ := (h.mem_startsOf_iff hd).1 hq
  by_cases hl : l ∈ copyList shelf id
  · have hfree := h.get?_renamed hl
    rw [← heq, he] at hfree
    cases hfree
  · rw [copyNames, renamed_of_notMem site.ids hl] at heq
    exact hl ((h.mem_copyList_iff hd).2 (heq ▸ hk))

/-! ## The shelf after a copy -/

/-- **Each copy is what it should be.** When it was created it had no proxies; attaching them changes
nothing else. -/
theorem exists_copy (h : Coherent site shelf) (hd : shelf.get? id = some d)
    (hk : shelf.InSubtree k id) (he : shelf.get? k = some e) :
    ∃ copy, (copied shelf (copiesOf shelf (copyNames site shelf id) id d dest destId name)).get?
        (renamed (copyNames site shelf id) k) = some copy ∧
      Document.AgreesUnless (· = Field.proxies)
        (copyFor (copyNames site shelf id) id d dest destId name k e) copy ∧
      ∃ added, shelf.NewProxies id (renamed (copyNames site shelf id)) k added ∧
        copy.ListsProxies added := by
  have hmem := (h.mem_copyList_iff hd).2 hk
  have hnone : (copyFor (copyNames site shelf id) id d dest destId name k e).get? Field.proxies =
      none := (get?_copyFor _ id (h.keyed k e he)).2.1
  obtain ⟨hagree, hlists⟩ := attached_of_get?_eq_none
    (copiesOf shelf (copyNames site shelf id) id d dest destId name)
    (renamed (copyNames site shelf id) k) hnone
  refine ⟨_, ?_, hagree, _, h.newProxies_startsOf hd he rfl, hlists⟩
  rw [get?_copied (h.keyed.putAll _), (h.grafted hd).new k hmem e he, Option.map_some]

theorem replica_of_copyFor (h : Coherent site shelf) {t : Shelf} {copy : Document}
    (ht : TreeShaped site.root site.versions t) (hk : shelf.get? k = some e)
    (hcopy : t.get? (renamed (copyNames site shelf id) k) = some copy)
    (hfree : shelf.get? (renamed (copyNames site shelf id) k) = none)
    (hagree : Document.AgreesUnless (· = Field.proxies)
      (copyFor (copyNames site shelf id) id d dest destId name k e) copy)
    (hproxies : ∃ added, shelf.NewProxies id (renamed (copyNames site shelf id)) k added ∧
      copy.ListsProxies added) :
    shelf.Replica t id (renamed (copyNames site shelf id)) k e copy where
  own := by
    rw [hagree _ (by decide)]
    exact (get?_copyFor _ id (h.keyed k e hk)).1
  ancestors := by
    refine ht.child _ copy hcopy ?_
    -- the root was there before
    rintro heq
    obtain ⟨r, hr, -⟩ := h.tree.top
    rw [heq, hr] at hfree
    cases hfree
  target := by
    rw [hagree _ (by decide)]
    exact h.get?_target_copy _ hk
  proxies := hproxies
  blank := by
    intro key hkey hne
    have htarget : key ≠ Field.target := by
      rintro rfl
      revert hkey
      decide
    rw [hagree key hne, copyFor, get?_copyOf htarget, if_pos hkey]
  kept := agreesUnless_copyFor.trans (hagree.mono fun key hkey => by
    rw [hkey]
    decide)

/-- **A document that was there** is left alone if no link leads to it, and otherwise it gets these
at the end of its list. -/
theorem get?_copied_cases (h : Coherent site shelf) (hd : shelf.get? id = some d)
    (he : shelf.get? k = some e) :
    let copies := copiesOf shelf (copyNames site shelf id) id d dest destId name
    (startsOf (copyLinks copies) k = [] ∧ (copied shelf copies).get? k = some e) ∨
      (startsOf (copyLinks copies) k ≠ [] ∧ ∃ f, (copied shelf copies).get? k = some f ∧
        Document.AgreesUnless (· = Field.proxies) e f ∧
        f.ListsProxies (e.proxies ++ startsOf (copyLinks copies) k)) := by
  intro copies
  have hget : (copied shelf copies).get? k = some
      (((copyLinks copies).get? k).elim e fun starts => e.relinked starts.keys []) := by
    rw [get?_copied (h.keyed.putAll _), (h.grafted hd).old k e he, Option.map_some]
  -- the links start at copies, which nothing stored lists as yet
  have hnew : ∀ q ∈ startsOf (copyLinks copies) k, q ∉ e.proxies := by
    intro q hq hlisted
    obtain ⟨p, -, hp, -, rfl, -⟩ := (h.mem_startsOf_iff hd).1 hq
    obtain ⟨dq, hdq, -⟩ := (h.links.mem_proxies_iff he).1 hlisted
    cases (h.get?_renamed ((h.mem_copyList_iff hd).2 hp)).symm.trans hdq
  obtain ⟨hnil, heq⟩ | ⟨hsome, hrest⟩ := attached_cases copies k hnew
  · exact .inl ⟨hnil, hget.trans (congrArg some heq)⟩
  · exact .inr ⟨hsome, _, hget, hrest⟩

/-- The copies are all that is new. -/
theorem bijOn_renamed (h : Coherent site shelf) (hd : shelf.get? id = some d) :
    Set.BijOn (renamed (copyNames site shelf id)) {k | shelf.InSubtree k id} {l | shelf.get? l = none ∧
      ((copied shelf (copiesOf shelf (copyNames site shelf id) id d dest destId name)).get?
        l).isSome} := by
  refine ⟨fun k hk => ?mapsTo, fun k hk l hl heq => ?injOn, fun l hl => ?surjOn⟩
  case mapsTo =>
    obtain ⟨e, he, -⟩ := (h.tree.inSubtree_iff hd).1 hk
    obtain ⟨copy, hcopy, -⟩ := h.exists_copy hd hk he
    exact ⟨h.get?_renamed ((h.mem_copyList_iff hd).2 hk), by rw [hcopy]; rfl⟩
  case injOn =>
    exact h.renamed_copyNames_inj ((h.mem_copyList_iff hd).2 hk) ((h.mem_copyList_iff hd).2 hl) heq
  case surjOn =>
    obtain ⟨hfree, hthere⟩ := hl
    rw [get?_copied (h.keyed.putAll _), Option.isSome_map] at hthere
    obtain ⟨c, hc⟩ := Option.isSome_iff_exists.1 hthere
    rcases (h.grafted hd).cases l c hc with hold | ⟨k, hk, -, -, rfl, -⟩
    · cases hfree.symm.trans hold
    · exact ⟨k, (h.mem_copyList_iff hd).1 hk, rfl⟩

/-- **A copy adds the subtree once more and nothing else.** -/
theorem replicated_copied (h : Coherent site shelf) (hroot : id ≠ site.root)
    (hversions : id ≠ site.versions) (hchecks : site.ChecksCopy shelf id destId name d dest) :
    shelf.Replicated
      (copied shelf (copiesOf shelf (copyNames site shelf id) id d dest destId name))
      id destId name (renamed (copyNames site shelf id)) := by
  have hd := hchecks.document
  have hdest := h.keyed destId dest hchecks.destination
  have hshaped := h.treeShaped_copied hd hroot hversions hchecks.version hchecks.destination
    hchecks.container hchecks.unused
  -- what is not copied keeps its name
  have hstays : ∀ k, ¬ shelf.InSubtree k id → renamed (copyNames site shelf id) k = k :=
    fun k hk => renamed_of_notMem site.ids (mt (h.mem_copyList_iff hd).1 hk)
  refine ⟨h.bijOn_renamed hd, hstays, ?replica, ?top, ?below, ?untouched, ?attached⟩
  case replica =>
    intro k e hk he
    obtain ⟨copy, hcopy, hagree, hproxies⟩ := h.exists_copy hd hk he
    exact ⟨copy, hcopy, h.replica_of_copyFor hshaped he hcopy
      (h.get?_renamed ((h.mem_copyList_iff hd).2 hk)) hagree hproxies⟩
  case top =>
    obtain ⟨copy, hcopy, hagree, -⟩ := h.exists_copy hd .refl hd
    obtain ⟨hparent, hname, -⟩ := get?_copyFor_self (copyNames site shelf id) id name d d hdest
    exact ⟨copy, hcopy, (hagree _ (by decide)).trans hparent, (hagree _ (by decide)).trans hname⟩
  case below =>
    intro k e copy hk hne he hcopy
    obtain ⟨copy', hcopy', hagree, -⟩ := h.exists_copy hd hk he
    cases hcopy.symm.trans hcopy'
    -- the root is below nothing, so a document below has a parent
    have hk' : k ≠ site.root := by
      rintro rfl
      obtain ⟨r, hr, heq | hmem⟩ := (h.tree.inSubtree_iff hd).1 hk
      · exact hne heq
      · rw [h.tree.ancestors_root hr] at hmem
        cases hmem
    obtain ⟨p, dp, hparent, -, -⟩ := h.tree.exists_parent he hk'
    obtain ⟨hcparent, hcname, -⟩ :=
      get?_copyFor_below (copyNames site shelf id) name d hne hdest hparent
    exact ⟨(hagree _ (by decide)).trans hcname, p, hparent, (hagree _ (by decide)).trans hcparent⟩
  case untouched =>
    intro k e he hcase
    obtain ⟨-, hget⟩ | ⟨hsome, -⟩ := h.get?_copied_cases hd he
    · exact hget
    · -- no copied proxy points here, so nothing was added to its list
      refine absurd ?_ hsome
      by_cases hk : shelf.InSubtree k id
      · exact h.startsOf_eq_nil hd he hk
      · refine List.eq_nil_iff_forall_not_mem.2 fun q hq => ?_
        obtain ⟨p, hp, hstands, -⟩ :=
          ((h.newProxies_startsOf hd he (hstays k hk)).mem_iff q).1 hq
        exact hcase.resolve_left hk p hp hstands
  case attached =>
    rintro k e he hk ⟨p, hp, hstands⟩
    have hadded : shelf.NewProxies id (renamed (copyNames site shelf id)) k (startsOf (copyLinks
        (copiesOf shelf (copyNames site shelf id) id d dest destId name)) k) :=
      h.newProxies_startsOf hd he (hstays k hk)
    obtain ⟨hnil, -⟩ | ⟨-, f, hf, hagree, hlists⟩ := h.get?_copied_cases hd he
    · -- a copied proxy points here, so the list of what is added is not empty
      have hmem := (hadded.mem_iff _).2 ⟨p, hp, hstands, rfl⟩
      rw [hnil] at hmem
      cases hmem
    · exact ⟨f, _, hf, hagree, hadded, hlists⟩

/-! ## Copying -/

/-- **What a copy does.** It fails before anything is written, or all of its plan is carried out. -/
theorem copy_cases {w : Workspace} (h : Coherent w.site shelf) (id destId : String)
    (name? : Option String) :
    (∃ e, w.copy id destId name? = (.error e, w)) ∨
      ∃ name d dest c drawn session, name = (name?.or d.name?).getD "" ∧
        (id ≠ w.site.root ∧ id ≠ w.site.versions) ∧
        w.site.ChecksCopy shelf id destId name d dest ∧
        let t := copied shelf (copiesOf shelf (copyNames w.site shelf id) id d dest destId name)
        t.get? (renamed (copyNames w.site shelf id) id) = some c ∧
        w.copy id destId name? = (.ok c, ⟨w.site.settled drawn t, session⟩) := by
  cases hplan : (do
      w.site.requireOrdinary id "copy"
      (← w.liveSite).planCopy id destId name?) with
  | error e => exact .inl ⟨e, by rw [Workspace.copy, hplan, Workspace.produce]⟩
  | ok planned =>
    obtain ⟨hid, hlive, hplan'⟩ := Workspace.of_requireOrdinary_bind hplan
    obtain ⟨name, d, dest, hname, hchecks, hanswer, hwrites⟩ := h.planCopy_eq_ok hplan'
    obtain ⟨c, hc, -⟩ := h.exists_copy hchecks.document .refl hchecks.document
    have hwritten : shelf.Writes planned.1.writes (copied shelf
        (copiesOf shelf (copyNames w.site shelf id) id d dest destId name)) := by
      rw [hwrites]
      exact h.writes_copied
    obtain ⟨session, hproduce⟩ :=
      Workspace.exists_produce_eq hlive h.stored hwritten (hanswer ▸ hc)
    exact .inr ⟨name, d, dest, c, planned.1.drawn, session, hname, hid, hchecks, hc,
      by rw [Workspace.copy, hplan]; exact hproduce⟩

end Site.Coherent

namespace Site

section Founded

variable {repository : String} {provision : Provision} {ids : IdSource} {clock : Instant}
  {queue : Option IndexQueue} {start site : Site}

/-- **A copy adds the subtree once more and nothing else.** Let a run lead from a new repository to a
site, and there let a session copy a document.

* If the copy succeeds then the documents of the subtree are there once more, under ids that were
  never drawn, and nothing else is new or different. What is returned is the copy of the document.
* If it fails then nothing happened. -/
theorem replicated_of_copy (hids : ids.Unrepeated)
    (hfound : Site.found repository (Store.empty provision) ids clock queue = .ok start)
    (hrun : start.Reaches site) (session : Session) (id destId : String) (name? : Option String) :
    (∀ c after, Workspace.copy ⟨site, session⟩ id destId name? = (.ok c, after) →
      ∃ s t d rename, site.store.shelf? = some s ∧ after.site.store.shelf? = some t ∧
        s.get? id = some d ∧ s.Replicated t id destId ((name?.or d.name?).getD "") rename ∧
        (∀ k, s.InSubtree k id → ¬ site.ids.Drew (rename k)) ∧ t.get? (rename id) = some c) ∧
    ∀ e after, Workspace.copy ⟨site, session⟩ id destId name? = (.error e, after) →
      after = ⟨site, session⟩ := by
  obtain ⟨shelf, h, -, -⟩ := coherent_of_reaches hids hfound hrun
  obtain ⟨e, hcopy⟩ | ⟨_, d, dest, c, drawn, last, rfl, ⟨hroot, hversions⟩, hchecks, hc, hcopy⟩ :=
    Coherent.copy_cases (w := ⟨site, session⟩) h id destId name?
  · -- a copy that fails leaves everything as it was
    rw [hcopy]
    refine ⟨fun c after heq => ?_, fun e after heq => (congrArg Prod.snd heq).symm⟩
    cases congrArg Prod.fst heq
  · -- a copy that succeeds gives the new documents, under ids never drawn before
    rw [hcopy]
    refine ⟨fun c' after heq => ?_, fun e after heq => ?_⟩
    · cases heq
      refine ⟨shelf, _, d, _, h.stored, rfl, hchecks.document,
        h.replicated_copied hroot hversions hchecks, fun k hk => ?_, hc⟩
      rw [h.renamed_copyNames ((h.mem_copyList_iff hchecks.document).2 hk)]
      exact IdSource.not_drew_peek h.unrepeated _
    · cases congrArg Prod.fst heq

/-- For instance a folder with a document in it and with proxies of the document and of the folder
that it is copied to. -/
theorem replicated_of_folder :
    ∃ start, Site.found "test" (Store.empty .own) .sequential ⟨0, 0, by decide⟩ none = .ok start ∧
      let site := start.afterCalls (.fresh "s")
        [.addChild start.root "a" "Folder", .addChild "UUID_2" "b" "File",
          .addProxy "UUID_3" "UUID_2" "c", .addChild start.root "d" "Folder",
          .addProxy "UUID_5" "UUID_2" "e"]
      ∃ c after,
        Workspace.copy ⟨site, .fresh "s"⟩ "UUID_2" "UUID_5" (some "f") = (.ok c, after) ∧
        ∃ s t d rename, site.store.shelf? = some s ∧ after.site.store.shelf? = some t ∧
          s.get? "UUID_2" = some d ∧ s.Replicated t "UUID_2" "UUID_5" "f" rename ∧
          (∀ k, s.InSubtree k "UUID_2" → ¬ site.ids.Drew (rename k)) ∧
          t.get? (rename "UUID_2") = some c := by
  refine ⟨_, Coherent.found_eq_ok IdSource.unrepeated_sequential, ?_⟩
  intro site
  have hok : (Workspace.copy ⟨site, .fresh "s"⟩ "UUID_2" "UUID_5" (some "f")).1.isOk = true := by
    decide +kernel
  obtain ⟨c, after, hcopy⟩ := exists_eq_ok_of_isOk hok
  exact ⟨c, after, hcopy, (replicated_of_copy IdSource.unrepeated_sequential
    (Coherent.found_eq_ok IdSource.unrepeated_sequential)
    (.afterCalls _ _ (by simp [AdmitsCall])) (.fresh "s") "UUID_2" "UUID_5" (some "f")).1 c after
      hcopy⟩

end Founded

end Site

end ContentRepository
