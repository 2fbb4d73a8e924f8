import ContentRepository.Proofs.Tree.Agreement

/-!
# The links between proxies and their targets

A proxy names its target and the target lists its proxies. `ProxyLinked` says that both tell the
same.

* **`ProxyLinked.mem_proxies_iff`** — a document lists exactly the proxies that stand for it.
* **`ProxyLinked.of_mem_proxies_iff`** — this is all there is to show of a shelf.
* **`ProxyLinked.congr`** and **`ProxyLinked.plant`** — writes that leave the links alone.
* **`ProxyLinked.standsFor_iff`** — in such a shelf whatever has a target stands for it.
* **`Document.proxies_relinked`** and its companions — what relinking does to a document.
* **`Attached`**, **`ProxyLinked.attach`** and **`ProxyLinked.link`** — new documents, with proxies
  among them.
-/

namespace ContentRepository

/-- Proxies and their targets refer to each other. -/
structure ProxyLinked (shelf : Shelf) : Prop where
  /-- Exactly the proxies have a target. -/
  target : ∀ id d, shelf.get? id = some d →
    ((d.get? Field.target).isSome = true ↔ d.isProxy = true)
  /-- The target of a proxy is there, is no proxy itself, and lists the proxy once. -/
  listed : ∀ p d, shelf.get? p = some d → d.isProxy = true →
    ∃ t dt, d.get? Field.target = some (.reference t) ∧ shelf.get? t = some dt ∧
      dt.isProxy = false ∧ dt.proxies.count p = 1
  /-- What a document lists are proxies that are there and stand for it. -/
  back : ∀ t dt p, shelf.get? t = some dt → p ∈ dt.proxies →
    ∃ d, shelf.get? p = some d ∧ d.isProxy = true ∧ d.get? Field.target = some (.reference t)

/-- The first document is a proxy and stands for the second. -/
def Shelf.StandsFor (shelf : Shelf) (p k : String) : Prop :=
  ∃ d, shelf.get? p = some d ∧ d.isProxy = true ∧ d.target? = some k

namespace ProxyLinked

variable {s t : Shelf} {id : String} {d : Document}

/-- A document that names a target is a proxy. -/
theorem isProxy_of_target (h : ProxyLinked s) (hd : s.get? id = some d) {target : Value}
    (htarget : d.get? Field.target = some target) : d.isProxy = true :=
  (h.target id d hd).1 (by rw [htarget]; rfl)

/-- The target of a proxy is there, and no proxy. -/
theorem exists_target (h : ProxyLinked s) (hd : s.get? id = some d) {target : String}
    (htarget : d.get? Field.target = some (.reference target)) :
    ∃ dt, s.get? target = some dt ∧ dt.isProxy = false := by
  obtain ⟨other, dt, hother, hdt, hproxy, -⟩ :=
    h.listed id d hd (h.isProxy_of_target hd htarget)
  cases htarget.symm.trans hother
  exact ⟨dt, hdt, hproxy⟩

/-- **A document lists exactly the proxies that stand for it.** -/
theorem mem_proxies_iff (h : ProxyLinked s) (hd : s.get? id = some d) {p : String} :
    p ∈ d.proxies ↔ ∃ dp, s.get? p = some dp ∧ dp.get? Field.target = some (.reference id) := by
  constructor
  · intro hmem
    obtain ⟨dp, hdp, -, htarget⟩ := h.back id d p hd hmem
    exact ⟨dp, hdp, htarget⟩
  · rintro ⟨dp, hdp, htarget⟩
    obtain ⟨other, dt, hother, hdt, -, hcount⟩ :=
      h.listed p dp hdp (h.isProxy_of_target hdp htarget)
    cases htarget.symm.trans hother
    cases hd.symm.trans hdt
    exact List.count_pos_iff.1 (by omega)

theorem standsFor_iff (h : ProxyLinked s) {p k : String} :
    s.StandsFor p k ↔ ∃ dp, s.get? p = some dp ∧ dp.get? Field.target = some (.reference k) := by
  refine exists_congr fun dp => and_congr_right fun hdp => ?_
  rw [Document.target?, Document.reference?_eq_some_iff, and_iff_right_iff_imp]
  exact h.isProxy_of_target hdp

theorem nodup_proxies (h : ProxyLinked s) (hd : s.get? id = some d) : d.proxies.Nodup := by
  refine List.nodup_iff_count.2 fun p => ?_
  by_cases hmem : p ∈ d.proxies
  · obtain ⟨dp, hdp, hproxy, htarget⟩ := h.back id d p hd hmem
    obtain ⟨other, dt, hother, hdt, -, hcount⟩ := h.listed p dp hdp hproxy
    cases htarget.symm.trans hother
    cases hd.symm.trans hdt
    omega
  · rw [List.count_eq_zero_of_not_mem hmem]
    omega

/-- **The links are sound if every document lists exactly the proxies that stand for it.** -/
theorem of_mem_proxies_iff
    (htarget : ∀ id d, s.get? id = some d →
      ((d.get? Field.target).isSome = true ↔ d.isProxy = true))
    (hthere : ∀ p d, s.get? p = some d → d.isProxy = true →
      ∃ t dt, d.get? Field.target = some (.reference t) ∧ s.get? t = some dt ∧ dt.isProxy = false)
    (hnodup : ∀ t dt, s.get? t = some dt → dt.proxies.Nodup)
    (hlists : ∀ t dt p, s.get? t = some dt →
      (p ∈ dt.proxies ↔ ∃ d, s.get? p = some d ∧ d.get? Field.target = some (.reference t))) :
    ProxyLinked s where
  target := htarget
  listed := by
    intro p d hd hproxy
    obtain ⟨t, dt, ht, hdt, hno⟩ := hthere p d hd hproxy
    refine ⟨t, dt, ht, hdt, hno, ?_⟩
    rw [(hnodup t dt hdt).count, if_pos ((hlists t dt p hdt).2 ⟨d, hd, ht⟩)]
  back := by
    intro t dt p hdt hmem
    obtain ⟨d, hd, ht⟩ := (hlists t dt p hdt).1 hmem
    exact ⟨d, hd, (htarget p d hd).1 (by rw [ht]; rfl), ht⟩

/-! ## Writes that leave the links alone -/

/-- **The links lie in three fields alone.** -/
theorem congr (h : ProxyLinked s) (hst : s.AgreesOn Field.ofLinks t) : ProxyLinked t where
  target := by
    intro id e he
    obtain ⟨d, hd, hde⟩ := hst.right he
    rw [hde _ (by decide), Document.isProxy, hde.flag (by decide)]
    exact h.target id d hd
  listed := by
    intro p e he hproxy
    obtain ⟨d, hd, hde⟩ := hst.right he
    rw [Document.isProxy, hde.flag (by decide)] at hproxy
    obtain ⟨target, dt, htarget, hdt, hno, hcount⟩ := h.listed p d hd hproxy
    obtain ⟨et, het, hdet⟩ := hst.left hdt
    refine ⟨target, et, (hde _ (by decide)).trans htarget, het, ?_, ?_⟩
    · rw [Document.isProxy, hdet.flag (by decide)]
      exact hno
    · rw [Document.proxies, hdet.references (by decide)]
      exact hcount
  back := by
    intro target et p het hmem
    obtain ⟨dt, hdt, hdet⟩ := hst.right het
    rw [Document.proxies, hdet.references (by decide)] at hmem
    obtain ⟨d, hd, hproxy, htarget⟩ := h.back target dt p hdt hmem
    obtain ⟨e, he, hde⟩ := hst.left hd
    refine ⟨e, he, ?_, (hde _ (by decide)).trans htarget⟩
    rw [Document.isProxy, hde.flag (by decide)]
    exact hproxy

/-- **A new document that is no proxy and has none changes no link.** -/
theorem plant (h : ProxyLinked s) (hfree : s.get? id = none) (hproxy : d.isProxy = false)
    (htarget : d.get? Field.target = none) (hproxies : d.proxies = []) :
    ProxyLinked (Table.insert s id d) := by
  refine ⟨?target, ?listed, ?back⟩
  case target =>
    intro other e he
    -- the new document is no proxy and has no target
    rcases Table.get?_insert_eq_some_iff.1 he with ⟨rfl, rfl⟩ | ⟨-, he⟩
    · simp [htarget, hproxy]
    · exact h.target other e he
  case listed =>
    intro p e he hp
    rcases Table.get?_insert_eq_some_iff.1 he with ⟨rfl, rfl⟩ | ⟨-, he⟩
    · cases hproxy.symm.trans hp
    · obtain ⟨target, dt, ht, hdt, hrest⟩ := h.listed p e he hp
      -- an old target is still there beside the new document
      exact ⟨target, dt, ht, Table.get?_insert_of_free hfree hdt, hrest⟩
  case back =>
    intro target et p het hmem
    rcases Table.get?_insert_eq_some_iff.1 het with ⟨rfl, rfl⟩ | ⟨-, het⟩
    · -- the new document lists nobody
      rw [hproxies] at hmem
      cases hmem
    · obtain ⟨e, he, hrest⟩ := h.back target et p het hmem
      exact ⟨e, Table.get?_insert_of_free hfree he, hrest⟩

end ProxyLinked

/-! ## Relinking -/

namespace Document

/-- Relinking touches the list of proxies alone. -/
theorem get?_relinked (d : Document) (add remove : List String) {key : String}
    (hkey : key ≠ Field.proxies) : (d.relinked add remove).get? key = d.get? key := by
  rw [relinked]
  split
  · rw [get?_unset, if_neg hkey]
  · rw [get?_set, if_neg hkey]

theorem agreesOn_relinked {keys : List String} (hkeys : Field.proxies ∉ keys) (d : Document)
    (add remove : List String) : AgreesOn keys d (d.relinked add remove) := by
  intro key hkey
  refine get?_relinked d add remove ?_
  rintro rfl
  exact hkeys hkey

theorem agreesUnless_relinked (d : Document) (add remove : List String) :
    AgreesUnless (· = Field.proxies) d (d.relinked add remove) :=
  fun _ hother => get?_relinked d add remove hother

/-- The document lists these proxies and no others, and without any it has no list. -/
def ListsProxies (d : Document) (ids : List String) : Prop :=
  d.get? Field.proxies = if ids.isEmpty then none else some (.references ids)

theorem ListsProxies.proxies_eq {d : Document} {ids : List String} (h : d.ListsProxies ids) :
    d.proxies = ids := by
  rw [ListsProxies] at h
  split at h
  · next hempty => rw [proxies, references_of_get?_eq_none h, List.isEmpty_iff.1 hempty]
  · exact references_of_get? h

theorem listsProxies_relinked (d : Document) (add remove : List String) :
    (d.relinked add remove).ListsProxies
      (add.foldl (fun ids id => if ids.contains id then ids else ids ++ [id])
        (d.proxies.filter fun id => !remove.contains id)) := by
  simp only [ListsProxies, relinked]
  split
  · rw [get?_unset, if_pos rfl]
  · rw [get?_set, if_pos rfl]

theorem listsProxies_of_get?_eq_none {d : Document} (h : d.get? Field.proxies = none) :
    d.ListsProxies [] := h

theorem proxies_relinked (d : Document) (add remove : List String) :
    (d.relinked add remove).proxies =
      add.foldl (fun ids id => if ids.contains id then ids else ids ++ [id])
        (d.proxies.filter fun id => !remove.contains id) :=
  (d.listsProxies_relinked add remove).proxies_eq

/-- Proxies taken out are gone, the others keep their order. -/
theorem proxies_relinked_remove (d : Document) (remove : List String) :
    (d.relinked [] remove).proxies = d.proxies.filter fun id => !remove.contains id :=
  proxies_relinked d [] remove

/-- New proxies come at the end. -/
theorem proxies_relinked_add (d : Document) {add : List String} (hnodup : add.Nodup)
    (hnew : ∀ id ∈ add, id ∉ d.proxies) : (d.relinked add []).proxies = d.proxies ++ add := by
  have happend : ∀ ids : List String, (∀ id ∈ add, id ∉ ids) →
      add.foldl (fun ids id => if ids.contains id then ids else ids ++ [id]) ids = ids ++ add := by
    clear hnew
    induction add with
    | nil => simp
    | cons id rest ih =>
      intro ids hnew
      obtain ⟨hid, hnodup⟩ := List.nodup_cons.1 hnodup
      -- an id that is not listed yet is appended
      have hnotin : ids.contains id = false := by simpa using hnew id List.mem_cons_self
      rw [List.foldl_cons, hnotin, if_neg Bool.false_ne_true, ih hnodup, List.append_assoc]
      · rfl
      · intro other hother hmem
        rcases List.mem_append.1 hmem with hmem | hmem
        · exact hnew other (List.mem_cons_of_mem _ hother) hmem
        · rw [List.mem_singleton.1 hmem] at hother
          exact hid hother
  have hkept : (d.proxies.filter fun id => !([] : List String).contains id) = d.proxies := by simp
  rw [proxies_relinked, hkept, happend d.proxies hnew]

theorem listsProxies_relinked_add (d : Document) {add : List String} (hnodup : add.Nodup)
    (hnew : ∀ id ∈ add, id ∉ d.proxies) :
    (d.relinked add []).ListsProxies (d.proxies ++ add) := by
  rw [← proxies_relinked_add d hnodup hnew, proxies_relinked]
  exact d.listsProxies_relinked add []

end Document

/-! ## New proxies -/

/-- What relinking makes of a document to which new proxies are added, if any. -/
def Document.linkedTo (d : Document) (added : Option (List String)) : Document :=
  added.elim d fun starts => d.relinked starts []

theorem Document.agreesOn_linkedTo {keys : List String} (hkeys : Field.proxies ∉ keys)
    (d : Document) (added : Option (List String)) : AgreesOn keys d (d.linkedTo added) := by
  cases added with
  | none => exact .refl keys d
  | some starts => exact agreesOn_relinked hkeys d starts []

theorem Document.proxies_linkedTo (d : Document) {added : Option (List String)}
    (hnodup : (added.getD []).Nodup) (hnew : ∀ p ∈ added.getD [], p ∉ d.proxies) :
    (d.linkedTo added).proxies = d.proxies ++ added.getD [] := by
  cases added with
  | none => exact (List.append_nil _).symm
  | some starts => exact proxies_relinked_add d hnodup hnew

/-- New documents come, and the targets of the proxies among them are told. The second shelf has the
new documents besides those of the first; in the third, documents list the new proxies as well. -/
structure Attached (s t u : Shelf) (added : String → Option (List String)) : Prop where
  old : ∀ k e, s.get? k = some e → t.get? k = some e
  /-- Nothing stands for a new document, and a new proxy stands for a document that is none. -/
  new : ∀ k e, s.get? k = none → t.get? k = some e → e.proxies = [] ∧
    ((e.get? Field.target).isSome = true ↔ e.isProxy = true) ∧
    (e.isProxy = true → ∃ target dt, e.get? Field.target = some (.reference target) ∧
      t.get? target = some dt ∧ dt.isProxy = false)
  starts : ∀ start finish, start ∈ (added finish).getD [] ↔ s.get? start = none ∧
    ∃ e, t.get? start = some e ∧ e.get? Field.target = some (.reference finish)
  nodup : ∀ finish, ((added finish).getD []).Nodup
  get : ∀ k, u.get? k = (t.get? k).map (·.linkedTo (added k))

namespace Attached

variable {s t u : Shelf} {added : String → Option (List String)} {k p : String} {e f : Document}

/-- A document was there before, or it is new. -/
theorem old_or_new (ha : Attached s t u added) (he : t.get? k = some e) :
    s.get? k = some e ∨ s.get? k = none := by
  cases hk : s.get? k with
  | none => exact .inr rfl
  | some d => exact .inl ((ha.old k d hk).symm.trans he)

theorem exists_of_get? (ha : Attached s t u added) (hf : u.get? k = some f) :
    ∃ e, t.get? k = some e ∧ e.linkedTo (added k) = f := by
  rw [ha.get] at hf
  exact Option.map_eq_some_iff.1 hf

/-- The new proxies are new to the documents that they stand for. -/
theorem notMem_proxies (ha : Attached s t u added) (h : ProxyLinked s) (he : s.get? k = some e)
    (hp : p ∈ (added k).getD []) : p ∉ e.proxies := by
  intro hmem
  obtain ⟨dp, hdp, -⟩ := (h.mem_proxies_iff he).1 hmem
  cases ((ha.starts p k).1 hp).1.symm.trans hdp

/-- What a document lists in the end. -/
theorem proxies_linkedTo (ha : Attached s t u added) (h : ProxyLinked s) (he : t.get? k = some e) :
    (e.linkedTo (added k)).proxies = e.proxies ++ (added k).getD [] := by
  refine Document.proxies_linkedTo e (ha.nodup k) fun p hp => ?_
  rcases ha.old_or_new he with he | hfree
  · exact ha.notMem_proxies h he hp
  · rw [(ha.new k e hfree he).1]
    exact List.not_mem_nil

/-- For a document stand those that did and the new ones linked to it. -/
theorem stands_iff (ha : Attached s t u added) :
    (∃ g, u.get? p = some g ∧ g.get? Field.target = some (.reference k)) ↔
      (∃ d, s.get? p = some d ∧ d.get? Field.target = some (.reference k)) ∨
        p ∈ (added k).getD [] := by
  -- being linked changes no target
  have hagree : ∀ d : Document, (d.linkedTo (added p)).get? Field.target = d.get? Field.target := by
    intro d
    have hsame : Document.AgreesOn [Field.target] d (d.linkedTo (added p)) :=
      Document.agreesOn_linkedTo (by decide) d _
    exact hsame _ (by decide)
  rw [ha.starts]
  constructor
  · rintro ⟨g, hg, htarget⟩
    obtain ⟨d, hd, rfl⟩ := ha.exists_of_get? hg
    rw [hagree] at htarget
    -- the proxy was there before, or it is one of those added to its target
    rcases ha.old_or_new hd with hd' | hfree
    · exact .inl ⟨d, hd', htarget⟩
    · exact .inr ⟨hfree, d, hd, htarget⟩
  · intro hcase
    obtain ⟨d, hd, htarget⟩ : ∃ d, t.get? p = some d ∧
        d.get? Field.target = some (.reference k) := by
      rcases hcase with ⟨d, hd, htarget⟩ | ⟨-, hrest⟩
      · exact ⟨d, ha.old p d hd, htarget⟩
      · exact hrest
    exact ⟨_, by rw [ha.get, hd, Option.map_some], (hagree d).trans htarget⟩

end Attached

/-- **New documents may come, if the targets of the proxies among them are told.** -/
theorem ProxyLinked.attach {s t u : Shelf} (h : ProxyLinked s)
    {added : String → Option (List String)} (ha : Attached s t u added) : ProxyLinked u := by
  have hagree : ∀ (k : String) (e : Document),
      Document.AgreesOn [Field.isProxy, Field.target] e (e.linkedTo (added k)) :=
    fun k e => Document.agreesOn_linkedTo (by decide) e _
  refine .of_mem_proxies_iff ?target ?there ?nodup ?lists
  case target =>
    intro k f hf
    obtain ⟨e, he, rfl⟩ := ha.exists_of_get? hf
    rw [hagree k e _ (by decide), Document.isProxy, (hagree k e).flag (by decide)]
    -- an old document keeps its target, and a new one has one exactly if it is a proxy
    rcases ha.old_or_new he with he | hfree
    · exact h.target k e he
    · exact (ha.new k e hfree he).2.1
  case there =>
    intro p f hf hproxy
    obtain ⟨e, he, rfl⟩ := ha.exists_of_get? hf
    rw [Document.isProxy, (hagree p e).flag (by decide)] at hproxy
    obtain ⟨target, dt, htarget, hdt, hno⟩ : ∃ target dt,
        e.get? Field.target = some (.reference target) ∧ t.get? target = some dt ∧
          dt.isProxy = false := by
      -- the target was there before, or came with the proxy
      rcases ha.old_or_new he with he | hfree
      · obtain ⟨target, dt, htarget, hdt, hno, -⟩ := h.listed p e he hproxy
        exact ⟨target, dt, htarget, ha.old _ _ hdt, hno⟩
      · exact (ha.new p e hfree he).2.2 hproxy
    refine ⟨target, dt.linkedTo (added target), (hagree p e _ (by decide)).trans htarget, ?_, ?_⟩
    · rw [ha.get, hdt, Option.map_some]
    · rw [Document.isProxy, (hagree target dt).flag (by decide)]
      exact hno
  case nodup =>
    intro k f hf
    obtain ⟨e, he, rfl⟩ := ha.exists_of_get? hf
    rw [ha.proxies_linkedTo h he]
    -- what is added was not listed before
    rcases ha.old_or_new he with he | hfree
    · refine List.nodup_append.2 ⟨h.nodup_proxies he, ha.nodup k, ?_⟩
      rintro p hmem _ hp rfl
      exact ha.notMem_proxies h he hp hmem
    · rw [(ha.new k e hfree he).1]
      exact ha.nodup k
  case lists =>
    intro k f p hf
    obtain ⟨e, he, rfl⟩ := ha.exists_of_get? hf
    rw [ha.proxies_linkedTo h he, List.mem_append, ha.stands_iff]
    rcases ha.old_or_new he with he | hfree
    · rw [h.mem_proxies_iff he]
    · -- nothing stood for a document that was not there
      have hnone : ¬ ∃ d, s.get? p = some d ∧ d.get? Field.target = some (.reference k) := by
        rintro ⟨d, hd, htarget⟩
        obtain ⟨dt, hdt, -⟩ := h.exists_target hd htarget
        cases hfree.symm.trans hdt
      simp [(ha.new k e hfree he).1, hnone]

/-- **A new proxy may be linked to a document that is no proxy.** -/
theorem ProxyLinked.link {s : Shelf} {id target : String} {dp dt : Document} (h : ProxyLinked s)
    (hfree : s.get? id = none) (hdt : s.get? target = some dt) (hno : dt.isProxy = false)
    (hproxy : dp.isProxy = true) (htarget : dp.get? Field.target = some (.reference target))
    (hproxies : dp.proxies = []) :
    ProxyLinked (Table.insert (Table.insert s id dp) target (dt.relinked [id] [])) := by
  -- the proxy is the only document that is new
  have hnewOnly : ∀ {k e}, s.get? k = none → (Table.insert s id dp).get? k = some e →
      k = id ∧ e = dp := by
    intro k e hk he
    rcases Table.get?_insert_eq_some_iff.1 he with hnew | ⟨-, he⟩
    · exact hnew
    · cases hk.symm.trans he
  have hdt' : (Table.insert s id dp).get? target = some dt := Table.get?_insert_of_free hfree hdt
  refine h.attach (show Attached s (Table.insert s id dp) _
    (fun k => if k = target then some [id] else none) from
      ⟨fun _ _ => Table.get?_insert_of_free hfree, ?new, ?starts, ?nodup, ?get⟩)
  case new =>
    intro k e hk he
    -- it lists nobody, and it has a target that is no proxy
    obtain ⟨rfl, rfl⟩ := hnewOnly hk he
    exact ⟨hproxies, by simp [htarget, hproxy], fun _ => ⟨target, dt, htarget, hdt', hno⟩⟩
  case starts =>
    intro start finish
    -- the target alone gains a proxy, the new one
    have hmem : start ∈ (if finish = target then some [id] else none).getD [] ↔
        finish = target ∧ start = id := by
      split <;> simp [*]
    rw [hmem]
    constructor
    · rintro ⟨rfl, rfl⟩
      exact ⟨hfree, dp, by rw [Table.get?_insert, if_pos rfl], htarget⟩
    · rintro ⟨hstart, e, he, hfinish⟩
      obtain ⟨rfl, rfl⟩ := hnewOnly hstart he
      cases htarget.symm.trans hfinish
      exact ⟨rfl, rfl⟩
  case nodup =>
    intro finish
    split <;> simp
  case get =>
    intro k
    rw [Table.get?_insert]
    split
    · next heq =>
      rw [heq, hdt']
      rfl
    · cases (Table.insert s id dp).get? k <;> rfl

end ContentRepository
