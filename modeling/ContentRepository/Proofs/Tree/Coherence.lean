import ContentRepository.Proofs.Tree.Links
import ContentRepository.Proofs.Tree.Shape

/-!
# Coherent sites

A site is coherent when its documents form a tree, proxies and targets are linked, every document
is filed under its own id, and all ids in use were drawn from the source, which never repeats one.
The tree operations need all of this together: a removal, for instance, deletes proxies that are
known only from the lists of their targets, and would stop half-way if one of them were not there.

* **`Site.Filed`** — the part of it that all calls keep, raw writes included: it is enough to say
  what the plans of the tree operations find and write.
* **`Site.Coherent`** — the invariant of the tree operations.
* **`Site.Coherent.of_found`** — a new repository is coherent.
* **`Site.Coherent.change`** and **`Site.Coherent.produce`** — an operation keeps the invariant if
  the writes of its plan succeed and lead to a coherent site.
-/

namespace ContentRepository

/-- A number can be read off its digits. -/
theorem toString_injective : Function.Injective (toString : Nat → String) := by
  intro m n heq
  have hdigits : Nat.toDigits 10 m = Nat.toDigits 10 n := by
    simpa [Nat.toString_eq_repr, Nat.repr_eq_ofList_toDigits] using congrArg String.toList heq
  have hvalue := congrArg (fun digits => Nat.ofDigitChars 10 digits 0) hdigits
  simpa using hvalue

namespace IdSource

/-- No id comes twice. -/
def Unrepeated (s : IdSource) : Prop := Function.Injective s.name

/-- The id was drawn before. -/
def Drew (s : IdSource) (id : String) : Prop := ∃ n, n < s.drawn ∧ s.name n = id

variable {s : IdSource}

theorem unrepeated_sequential : sequential.Unrepeated := by
  intro m n heq
  have hdigits : ("UUID_" ++ toString m).toList = ("UUID_" ++ toString n).toList :=
    congrArg String.toList heq
  rw [String.toList_append, String.toList_append, List.append_cancel_left_eq] at hdigits
  exact toString_injective (String.toList_injective hdigits)

theorem peek_injective (h : s.Unrepeated) : Function.Injective s.peek := by
  intro m n heq
  have := h heq
  omega

theorem not_drew_peek (h : s.Unrepeated) (n : Nat) : ¬ s.Drew (s.peek n) := by
  rintro ⟨m, hlt, heq⟩
  have := h heq
  omega

theorem Drew.skip {id : String} (h : s.Drew id) (n : Nat) : (s.skip n).Drew id := by
  obtain ⟨m, hlt, heq⟩ := h
  exact ⟨m, Nat.lt_of_lt_of_le hlt (Nat.le_add_right _ _), heq⟩

theorem drew_peek_skip {m n : Nat} (hlt : m < n) : (s.skip n).Drew (s.peek m) :=
  ⟨s.drawn + m, Nat.add_lt_add_left hlt _, rfl⟩

end IdSource

namespace Shelf

theorem Keyed.congr {keys : List String} {s t : Shelf} (h : s.Keyed) (hst : s.AgreesOn keys t)
    (hkeys : Field.id ∈ keys) : t.Keyed := by
  intro id e he
  obtain ⟨d, hd, hde⟩ := hst.right he
  exact (hde.string? hkeys).trans (h id d hd)

end Shelf

namespace Site

/-- A document that is filed on a store leaves each under its own id. -/
theorem exists_keyed_create {store after : Store} {shelf : Shelf} {d : Document}
    (hstored : store.shelf? = some shelf) (hkeyed : shelf.Keyed)
    (hcreate : (store.create d).mapError Error.store = .ok after) :
    ∃ t, after.shelf? = some t ∧ t.Keyed := by
  cases hok : store.create d with
  | error e =>
    rw [hok] at hcreate
    cases hcreate
  | ok other =>
    rw [hok] at hcreate
    cases hcreate
    obtain ⟨id, s, hid, hs, -, rfl⟩ := Store.create_eq_ok_iff.1 hok
    cases hstored.symm.trans hs
    exact ⟨_, rfl, hkeyed.insert hid⟩

/-- The store of a site has the given shelf, with every document under its own id. -/
structure Filed (site : Site) (shelf : Shelf) : Prop where
  stored : site.store.shelf? = some shelf
  keyed : shelf.Keyed

namespace Filed

variable {site : Site} {shelf : Shelf}

/-- A repository may be founded on a store with documents in it. -/
theorem of_found {repository : String} {store : Store} {ids : IdSource} {clock : Instant}
    {queue : Option IndexQueue} (hstored : store.shelf? = some shelf) (hkeyed : shelf.Keyed)
    (hfound : Site.found repository store ids clock queue = .ok site) : ∃ t, Filed site t := by
  simp only [Site.found, bind_eq_ok_iff] at hfound
  obtain ⟨middle, hroot, last, hversions, heq⟩ := hfound
  cases heq
  obtain ⟨s, hs, hskeyed⟩ := exists_keyed_create hstored hkeyed hroot
  obtain ⟨t, ht, htkeyed⟩ := exists_keyed_create hs hskeyed hversions
  exact ⟨t, ht, htkeyed⟩

/-- The documents below one are those that have it among their ancestors. -/
theorem mem_below (h : Filed site shelf) {id k : String} {withProxies : Bool} :
    k ∈ (shelf.listing Field.ancestors (.reference id) [] withProxies withProxies).ids.keys ↔
      ∃ d, shelf.get? k = some d ∧ id ∈ d.ancestors := by
  rw [Shelf.mem_ids_listing h.keyed]
  simp only [Document.listed_reference_iff, Document.ancestors]

/-- The ids of documents that are there, found again in the documents. -/
theorem map_id? (h : Filed site shelf) {ks : List String}
    (hthere : ∀ k ∈ ks, ∃ e, shelf.get? k = some e) :
    (ks.filterMap (shelf.get? ·)).map (·.id?) = ks.map some := by
  induction ks with
  | nil => rfl
  | cons k rest ih =>
    obtain ⟨e, he⟩ := hthere k List.mem_cons_self
    rw [List.filterMap_cons_some he, List.map_cons, List.map_cons, h.keyed k e he,
      ih fun l hl => hthere l (List.mem_cons_of_mem _ hl)]

end Filed

/-- What the tree operations keep, on a site with the given shelf. -/
structure Coherent (site : Site) (shelf : Shelf) : Prop where
  stored : site.store.shelf? = some shelf
  keyed : shelf.Keyed
  unrepeated : site.ids.Unrepeated
  /-- All ids in use were drawn. -/
  drawn : ∀ id d, shelf.get? id = some d → site.ids.Drew id
  tree : TreeShaped site.root site.versions shelf
  links : ProxyLinked shelf

namespace Coherent

variable {site : Site} {shelf after : Shelf}

theorem filed (h : Coherent site shelf) : Filed site shelf := ⟨h.stored, h.keyed⟩

/-- Nothing lies under an id that is yet to be drawn. -/
theorem get?_peek (h : Coherent site shelf) (n : Nat) : shelf.get? (site.ids.peek n) = none := by
  cases hd : shelf.get? (site.ids.peek n) with
  | none => rfl
  | some d => exact absurd (h.drawn _ d hd) (IdSource.not_drew_peek h.unrepeated n)

/-- An id that is yet to be drawn is not that of a document. -/
theorem ne_peek (h : Coherent site shelf) {id : String} {d : Document}
    (hd : shelf.get? id = some d) (n : Nat) : site.ids.peek n ≠ id := by
  rintro rfl
  rw [h.get?_peek] at hd
  cases hd

/-- A container is never the folder of versions. -/
theorem ne_versions_of_container (h : Coherent site shelf) {p : String} {dp : Document}
    (hdp : shelf.get? p = some dp) (hid : dp.id? ≠ some site.versions) : p ≠ site.versions := by
  rintro rfl
  exact hid (h.keyed _ _ hdp)

/-- A site stays coherent with a coherent shelf whose new ids were drawn. -/
theorem settled (h : Coherent site shelf) {n : Nat} (hkeyed : after.Keyed)
    (hdrawn : ∀ id d, after.get? id = some d →
      (shelf.get? id).isSome = true ∨ ∃ m, m < n ∧ id = site.ids.peek m)
    (htree : TreeShaped site.root site.versions after) (hlinks : ProxyLinked after) :
    Coherent (site.settled n after) after where
  stored := rfl
  keyed := hkeyed
  unrepeated := h.unrepeated
  drawn := by
    intro id d hd
    rcases hdrawn id d hd with hold | ⟨m, hlt, rfl⟩
    · obtain ⟨e, he⟩ := Option.isSome_iff_exists.1 hold
      exact (h.drawn id e he).skip n
    · exact IdSource.drew_peek_skip hlt
  tree := htree
  links := hlinks

/-- Coherence lies in the fields of the tree and of the links, and in the ids that were drawn. -/
theorem of_agreesOn (h : Coherent site shelf) {other : Site}
    (hstored : other.store.shelf? = some after)
    (hroot : other.root = site.root) (hversions : other.versions = site.versions)
    (hname : other.ids.name = site.ids.name) (hdrawn : site.ids.drawn ≤ other.ids.drawn)
    (hagree : shelf.AgreesOn Field.structural after) : Coherent other after where
  stored := hstored
  keyed := h.keyed.congr hagree (by decide)
  unrepeated := by
    rw [IdSource.Unrepeated, hname]
    exact h.unrepeated
  drawn := by
    intro id e he
    obtain ⟨d, hd, -⟩ := hagree.right he
    obtain ⟨n, hlt, heq⟩ := h.drawn id d hd
    exact ⟨n, Nat.lt_of_lt_of_le hlt hdrawn, by rw [hname, heq]⟩
  tree := by
    rw [hroot, hversions]
    exact h.tree.congr (hagree.mono (List.subset_append_left _ _))
  links := h.links.congr (hagree.mono (List.subset_append_right _ _))

/-- **An operation keeps a site coherent** if, whenever it has a plan, the writes of the plan
succeed and lead to a coherent site. -/
theorem change {w : Workspace} (h : Coherent w.site shelf) {plan : Except Error Plan}
    (hplan : ∀ p, plan = .ok p →
      ∃ t, shelf.Writes p.writes t ∧ Coherent (w.site.settled p.drawn t) t) :
    ∃ t, Coherent (w.change plan).2.site t := by
  cases plan with
  | error e => exact ⟨shelf, h⟩
  | ok p =>
    obtain ⟨t, hwrites, ht⟩ := hplan p rfl
    obtain ⟨session, heq⟩ := Workspace.execute_of_writes hwrites h.stored
    refine ⟨t, ?_⟩
    rw [Workspace.change, heq]
    exact ht

/-- The same for operations that answer a document. -/
theorem produce {w : Workspace} (h : Coherent w.site shelf)
    {plan : Except Error (Plan × String)}
    (hplan : ∀ p id, plan = .ok (p, id) →
      ∃ t, shelf.Writes p.writes t ∧ Coherent (w.site.settled p.drawn t) t) :
    ∃ t, Coherent (w.produce plan).2.site t := by
  cases plan with
  | error e => exact ⟨shelf, h⟩
  | ok plan =>
    obtain ⟨p, id⟩ := plan
    obtain ⟨t, hwrites, ht⟩ := hplan p id rfl
    obtain ⟨session, heq⟩ := Workspace.execute_of_writes hwrites h.stored
    refine ⟨t, ?_⟩
    rw [Workspace.produce, heq]
    exact ht

/-! ## New repositories -/

/-- The shelf of a new repository. -/
def foundShelf (root versions : String) : Shelf :=
  Table.insert (Table.insert Table.empty root (rootDocument root)) versions
    (versionsDocument versions root)

theorem get?_foundShelf {root versions id : String} {d : Document}
    (hd : (foundShelf root versions).get? id = some d) :
    (id = versions ∧ d = versionsDocument versions root) ∨
      (id ≠ versions ∧ id = root ∧ d = rootDocument root) := by
  rw [foundShelf, Table.get?_insert] at hd
  split at hd
  · next heq => exact .inl ⟨heq, (Option.some.inj hd).symm⟩
  · next hne =>
    rw [Table.get?_insert] at hd
    split at hd
    · next heq => exact .inr ⟨hne, heq, (Option.some.inj hd).symm⟩
    · cases hd

theorem treeShaped_foundShelf {root versions : String} (hne : versions ≠ root) :
    TreeShaped root versions (foundShelf root versions) := by
  have hversions : (foundShelf root versions).get? versions =
      some (versionsDocument versions root) := by
    rw [foundShelf, Table.get?_insert, if_pos rfl]
  have hroot : (foundShelf root versions).get? root = some (rootDocument root) := by
    rw [foundShelf, Table.get?_insert, if_neg hne.symm, Table.get?_insert, if_pos rfl]
  -- the fields of the two documents, as they are written
  obtain ⟨hRparent, hRancestors, hRversion, hRproxy⟩ :
      (rootDocument root).get? Field.parent = none ∧
      (rootDocument root).get? Field.ancestors = some (.references []) ∧
      (rootDocument root).isVersion = false ∧ (rootDocument root).isProxy = false := by
    simp +decide [rootDocument, Document.withId, Document.setAll, Document.get?_set,
      Document.isVersion, Document.isProxy, Document.flag, Value.references]
  obtain ⟨hVparent, hVancestors, hVversion, hVproxy⟩ :
      (versionsDocument versions root).get? Field.parent = some (.reference root) ∧
      (versionsDocument versions root).get? Field.ancestors = some (.references [root]) ∧
      (versionsDocument versions root).isVersion = false ∧
      (versionsDocument versions root).isProxy = false := by
    simp +decide [versionsDocument, Document.withId, Document.setAll, Document.get?_set,
      Document.isVersion, Document.isProxy, Document.flag]
  refine ⟨?top, ?child, ?names, ?filed, ?versionName, ?childless, ?folder⟩
  case top => exact ⟨_, hroot, hRparent, hRancestors⟩
  case folder => exact ⟨_, hversions, hVparent, hVproxy⟩
  case child =>
    intro id d hd hneRoot
    rcases get?_foundShelf hd with ⟨rfl, rfl⟩ | ⟨-, heq, -⟩
    · refine ⟨root, _, hVparent, hroot, ?_⟩
      rw [hVancestors, Document.ancestors, Document.references_of_get? hRancestors]
      rfl
    · exact absurd heq hneRoot
  case names =>
    -- only one of the two has a parent
    intro id other d e hd he hparent _
    rcases get?_foundShelf hd with ⟨rfl, rfl⟩ | ⟨-, rfl, rfl⟩ <;>
      rcases get?_foundShelf he with ⟨rfl, rfl⟩ | ⟨-, rfl, rfl⟩
    · rfl
    · rw [hVparent, hRparent] at hparent
      cases hparent
    · rw [hVparent, hRparent] at hparent
      cases hparent
    · rfl
  case filed =>
    intro id d hd
    -- the folder of the versions is filed under the root, so it is no version
    rcases get?_foundShelf hd with ⟨rfl, rfl⟩ | ⟨-, rfl, rfl⟩
    · rw [hVparent, hVversion]
      simpa using hne.symm
    · -- the root is filed nowhere
      rw [hRparent, hRversion]
      simp
  case versionName =>
    intro id d hd hversion
    rcases get?_foundShelf hd with ⟨rfl, rfl⟩ | ⟨-, rfl, rfl⟩
    · rw [hVversion] at hversion
      cases hversion
    · rw [hRversion] at hversion
      cases hversion
  case childless =>
    intro id d p dp _ _ hdp
    rcases get?_foundShelf hdp with ⟨rfl, rfl⟩ | ⟨-, rfl, rfl⟩
    · exact ⟨hVproxy, hVversion⟩
    · exact ⟨hRproxy, hRversion⟩

/-- There are no proxies yet. -/
theorem proxyLinked_foundShelf (root versions : String) :
    ProxyLinked (foundShelf root versions) := by
  have hnone : ∀ id d, (foundShelf root versions).get? id = some d →
      d.isProxy = false ∧ d.get? Field.target = none ∧ d.proxies = [] := by
    intro id d hd
    rcases get?_foundShelf hd with ⟨-, rfl⟩ | ⟨-, -, rfl⟩ <;>
      simp +decide [rootDocument, versionsDocument, Document.withId, Document.setAll,
        Document.get?_set, Document.isProxy, Document.flag, Document.proxies, Document.references]
  refine ⟨?_, ?_, ?_⟩
  · intro id d hd
    obtain ⟨hproxy, htarget, -⟩ := hnone id d hd
    simp [hproxy, htarget]
  · intro p d hd hproxy
    rw [(hnone p d hd).1] at hproxy
    cases hproxy
  · intro t dt p hdt hmem
    rw [(hnone t dt hdt).2.2] at hmem
    cases hmem

theorem id?_rootDocument (id : String) : (rootDocument id).id? = some id := by
  simp +decide [rootDocument, Document.withId, Document.setAll, Document.get?_set, Document.id?,
    Document.string?, Value.string?]

theorem id?_versionsDocument (id root : String) : (versionsDocument id root).id? = some id := by
  simp +decide [versionsDocument, Document.withId, Document.setAll, Document.get?_set, Document.id?,
    Document.string?, Value.string?]

/-- A repository can be founded on an empty store. -/
theorem found_eq_ok {repository : String} {provision : Provision} {ids : IdSource} {clock : Instant}
    {queue : Option IndexQueue} (hids : ids.Unrepeated) :
    Site.found repository (Store.empty provision) ids clock queue =
      .ok { repository, clock, queue
            store := ⟨some (foundShelf (ids.peek 0) (ids.peek 1)), provision⟩
            ids := ids.skip 2
            root := ids.peek 0
            versions := ids.peek 1 } := by
  -- the two folders do not get in each other's way
  have hne : ids.peek 1 ≠ ids.peek 0 := fun heq => by cases IdSource.peek_injective hids heq
  have hroot := Store.create_eq_ok (s := Store.empty provision) rfl
    (id?_rootDocument (ids.peek 0)) (Table.get?_empty _)
  have hfree : Table.get? (Table.insert Table.empty (ids.peek 0) (rootDocument (ids.peek 0)))
      (ids.peek 1) = none := by
    rw [Table.get?_insert, if_neg hne, Table.get?_empty]
  have hversions := Store.create_eq_ok
    (s := (Store.empty provision).withShelf (Table.insert Table.empty (ids.peek 0)
      (rootDocument (ids.peek 0)))) rfl
    (id?_versionsDocument (ids.peek 1) (ids.peek 0)) hfree
  rw [Site.found, hroot]
  simp only [Except.mapError, bind, Except.bind, hversions]
  rfl

/-- **A new repository is coherent.** -/
theorem of_found {repository : String} {provision : Provision} {ids : IdSource} {clock : Instant}
    {queue : Option IndexQueue} {site : Site} (hids : ids.Unrepeated)
    (hfound : Site.found repository (Store.empty provision) ids clock queue = .ok site) :
    Coherent site (foundShelf (ids.peek 0) (ids.peek 1)) := by
  rw [found_eq_ok hids] at hfound
  cases hfound
  have hne : ids.peek 1 ≠ ids.peek 0 := fun heq => by cases IdSource.peek_injective hids heq
  refine ⟨rfl, ?_, hids, ?_, treeShaped_foundShelf hne, proxyLinked_foundShelf _ _⟩
  · intro id d hd
    rcases get?_foundShelf hd with ⟨rfl, rfl⟩ | ⟨-, rfl, rfl⟩
    · exact id?_versionsDocument _ _
    · exact id?_rootDocument _
  · intro id d hd
    rcases get?_foundShelf hd with ⟨rfl, -⟩ | ⟨-, rfl, -⟩
    · exact IdSource.drew_peek_skip (by omega)
    · exact IdSource.drew_peek_skip (by omega)

end Coherent

end Site

end ContentRepository
