import ContentRepository.Proofs.Session.Revising
import ContentRepository.Proofs.Tree.Coherence
import ContentRepository.Proofs.Tree.Grafting
import ContentRepository.Proofs.Tree.Moving

/-!
# Copies

A copy of a document takes all that is below it along. Every document copied gets a new id, and
references among the copied documents are turned into references among the copies.

* **`Site.renamed_of_mem`** and **`Site.renamed_of_notMem`** — which ids are given.
* **`Site.copied`** — what the copy of a document is, and what it holds.
* **`Site.Filed.planCopy_eq_ok`** — what a copy plans.
* **`Site.Coherent.grafted`** — the copies are a graft.
* **`Site.Coherent.of_planCopy`** — a copy is carried out to the end and leads to a coherent site.
-/

namespace ContentRepository

namespace Site

/-! ## New ids -/

/-- The new ids for the copied documents, in the order of the documents. -/
def namesFor (ids : IdSource) (copied : List String) : Table String :=
  .ofList (copied.zip (ids.take copied.length))

variable {ids : IdSource} {copied : List String} {k : String}

/-- **Each copied document gets an id of its own.** -/
theorem renamed_of_mem (ids : IdSource) (hnodup : copied.Nodup) (hk : k ∈ copied) :
    renamed (namesFor ids copied) k = ids.peek (copied.idxOf k) := by
  -- the table pairs each document with the id in the same place
  have hzip : ∀ l n, (l, n) ∈ copied.zip (ids.take copied.length) ↔
      ∃ i, copied[i]? = some l ∧ n = ids.peek i := by
    intro l n
    rw [List.mem_iff_getElem?]
    refine exists_congr fun i => ?_
    rw [List.getElem?_zip_eq_some]
    refine and_congr_right fun hi => ?_
    have hlt : i < copied.length := (List.getElem?_eq_some_iff.1 hi).1
    simp [IdSource.take, List.getElem?_range hlt, eq_comm]
  have hget : (namesFor ids copied).get? k = some (ids.peek (copied.idxOf k)) := by
    refine (Table.get?_ofList_eq_some_iff ?_).2 ((hzip _ _).2 ⟨_, ?_, rfl⟩)
    · intro l m n hm hn
      obtain ⟨i, hi, rfl⟩ := (hzip l m).1 hm
      obtain ⟨j, hj, rfl⟩ := (hzip l n).1 hn
      obtain ⟨hilt, hi⟩ := List.getElem?_eq_some_iff.1 hi
      obtain ⟨hjlt, hj⟩ := List.getElem?_eq_some_iff.1 hj
      rw [(hnodup.getElem_inj_iff).1 (hi.trans hj.symm)]
    · have hlt := List.idxOf_lt_length_iff.2 hk
      rw [List.getElem?_eq_getElem hlt, List.getElem_idxOf]
  rw [renamed, hget]
  rfl

theorem renamed_of_notMem (ids : IdSource) (hk : k ∉ copied) :
    renamed (namesFor ids copied) k = k := by
  have hnone : (namesFor ids copied).get? k = none := by
    rw [← Option.not_isSome_iff_eq_none, ← Table.mem_keys, namesFor, Table.mem_keys_ofList,
      List.map_fst_zip]
    · exact hk
    · simp [IdSource.take]
  rw [renamed, hnone]
  rfl

/-! ## Copied documents -/

/-- The copy of the document `k`, made for a copy of `id`. -/
def copyFor (names : Table String) (id : String) (d dest : Document) (destId name k : String)
    (e : Document) : Document :=
  copyOf names e
    (if k = id then copiedTop names e dest destId name
     else copiedBelow names e dest.childAncestors d.ancestors.length)

variable {names : Table String} {id destId name : String} {d dest e : Document}

theorem get?_copyOf {placed : Document} {key : String} (hkey : key ≠ Field.target) :
    (copyOf names e placed).get? key = if key ∈ uncopied then none else placed.get? key := by
  rw [copyOf]
  split
  · rw [Document.get?_set, if_neg hkey, Document.get?_unsetAll]
  · rw [Document.get?_unsetAll]

theorem get?_id_copiedTop :
    (copiedTop names e dest destId name).get? Field.id =
      some (.string (renamed names (e.id?.getD ""))) := by
  simp +decide [copiedTop, relocated, Document.setAll, Document.get?_set]

theorem get?_id_copiedBelow {front : List String} {depth : Nat} :
    (copiedBelow names e front depth).get? Field.id =
      some (.string (renamed names (e.id?.getD ""))) := by
  simp only [copiedBelow]
  split <;> simp +decide [Document.get?_set]

theorem agreesUnless_copiedTop :
    Document.AgreesUnless (· ∈ [Field.id, Field.parent, Field.name, Field.ancestors]) e
      (copiedTop names e dest destId name) := by
  exact (Document.agreesUnless_set_of_mem (by decide) e _).trans
    (agreesUnless_relocated.mono fun key hkey => List.mem_cons_of_mem _ hkey)

theorem agreesUnless_copiedBelow {front : List String} {depth : Nat} :
    Document.AgreesUnless (· ∈ [Field.id, Field.parent, Field.ancestors]) e
      (copiedBelow names e front depth) := by
  have hid : Document.AgreesUnless (· ∈ [Field.id, Field.parent, Field.ancestors]) e
      (e.set Field.id (.string (renamed names (e.id?.getD "")))) :=
    Document.agreesUnless_set_of_mem (by decide) e _
  simp only [copiedBelow]
  split
  · exact (hid.trans (Document.agreesUnless_set_of_mem (by decide) _ _)).trans
      (Document.agreesUnless_set_of_mem (by decide) _ _)
  · exact hid.trans (Document.agreesUnless_set_of_mem (by decide) _ _)

/-- All else is copied. -/
theorem agreesUnless_copyFor :
    Document.AgreesUnless
      (· ∈ [Field.id, Field.parent, Field.name, Field.ancestors, Field.target] ++ uncopied) e
      (copyFor names id d dest destId name k e) := by
  intro key hkey
  simp only [List.mem_append, List.mem_cons, List.not_mem_nil, or_false, not_or] at hkey
  obtain ⟨⟨hid, hparent, hname, hancestors, htarget⟩, hcopied⟩ := hkey
  rw [copyFor, get?_copyOf htarget, if_neg hcopied]
  split
  · exact agreesUnless_copiedTop key (by simp [hid, hparent, hname, hancestors])
  · exact agreesUnless_copiedBelow key (by simp [hid, hparent, hancestors])

/-- **A copy has the new id, no proxies, and the kind of the document.** -/
theorem get?_copyFor (names : Table String) (id : String) (hid : e.id? = some k) :
    (copyFor names id d dest destId name k e).get? Field.id =
        some (.string (renamed names k)) ∧
      (copyFor names id d dest destId name k e).get? Field.proxies = none ∧
      Document.AgreesOn [Field.isProxy, Field.isVersion] e
        (copyFor names id d dest destId name k e) := by
  refine ⟨?_, ?_, ?_⟩
  · rw [copyFor, get?_copyOf (by decide), if_neg (by decide)]
    split
    · rw [get?_id_copiedTop, hid]
      rfl
    · rw [get?_id_copiedBelow, hid]
      rfl
  · rw [copyFor, get?_copyOf (by decide), if_pos (by decide)]
  · exact agreesUnless_copyFor.agreesOn (by decide)

/-- **The copy of a proxy stands for the copy of its target**, if that is copied. -/
theorem get?_target_copyFor (hkind : e.get? Field.target = none ∨ e.target?.isSome = true) :
    (copyFor names id d dest destId name k e).get? Field.target =
      e.target?.map fun target => .reference (renamed names target) := by
  rw [copyFor, copyOf]
  cases htarget : e.target? with
  | some target => rw [Document.get?_set, if_pos rfl, Option.map_some]
  | none =>
    rw [htarget] at hkind
    have hnone : e.get? Field.target = none := hkind.resolve_right Bool.false_ne_true
    simp only
    rw [Document.get?_unsetAll, if_neg (by decide), Option.map_none]
    split
    · rw [agreesUnless_copiedTop _ (by decide), hnone]
    · rw [agreesUnless_copiedBelow _ (by decide), hnone]

/-- The copy of the document that was asked for goes to the destination. -/
theorem get?_copyFor_self (names : Table String) (id name : String) (d e : Document)
    (hdest : dest.id? = some destId) :
    (copyFor names id d dest destId name id e).get? Field.parent = some (.reference destId) ∧
      (copyFor names id d dest destId name id e).get? Field.name = some (.string name) ∧
      (copyFor names id d dest destId name id e).get? Field.ancestors =
        some (.references (dest.ancestors ++ [destId])) := by
  obtain ⟨hparent, hname, hancestors, -⟩ :=
    get?_relocated (e.set Field.id (.string (renamed names (e.id?.getD "")))) name hdest
  rw [copyFor, if_pos rfl, get?_copyOf (by decide), get?_copyOf (by decide),
    get?_copyOf (by decide)]
  exact ⟨hparent, hname, hancestors⟩

/-- Below it, a copy goes to the copy of the parent. -/
theorem get?_copyFor_below (names : Table String) (name : String) (d : Document) {p : String}
    (hne : k ≠ id) (hdest : dest.id? = some destId)
    (hparent : e.get? Field.parent = some (.reference p)) :
    (copyFor names id d dest destId name k e).get? Field.parent =
        some (.reference (renamed names p)) ∧
      (copyFor names id d dest destId name k e).get? Field.name = e.get? Field.name ∧
      (copyFor names id d dest destId name k e).get? Field.ancestors =
        some (.references (dest.ancestors ++ [destId] ++
          (e.ancestors.drop d.ancestors.length).map (renamed names))) := by
  have hchild : dest.childAncestors = dest.ancestors ++ [destId] := by
    rw [Document.childAncestors, hdest]
    rfl
  have hparent? : e.parent? = some p := Document.reference?_eq_some_iff.2 hparent
  rw [copyFor, if_neg hne, get?_copyOf (by decide), get?_copyOf (by decide),
    get?_copyOf (by decide)]
  refine ⟨?_, agreesUnless_copiedBelow _ (by decide), ?_⟩
  · simp +decide [copiedBelow, hparent?, Document.get?_set]
  · simp +decide [copiedBelow, Document.get?_set, hchild]

end Site

namespace Site

variable {site : Site} {shelf : Shelf} {id destId name answer : String} {d dest : Document}
  {name? : Option String} {plan : Plan}

/-! ## What a copy plans -/

/-- The ids of the documents that are copied: the one asked for and those below it. -/
def Coherent.copyList (shelf : Shelf) (id : String) : List String :=
  id :: (shelf.listing Field.ancestors (.reference id) [] false false).ids.keys

/-- The copies of these documents. -/
def Coherent.copiesOf (shelf : Shelf) (names : Table String) (id : String) (d dest : Document)
    (destId name : String) : List Document :=
  shelf.revisions (Coherent.copyList shelf id) (fun k => k) (copyFor names id d dest destId name)

/-- The new ids of a copy. -/
def Coherent.copyNames (site : Site) (shelf : Shelf) (id : String) : Table String :=
  namesFor site.ids (Coherent.copyList shelf id)

/-- The copied proxies by what they stand for. -/
def Coherent.copyLinks (copies : List Document) : Table TextSet :=
  gatherLinks (copies.filterMap fun copy => do return (← copy.id?, ← copy.target?))

theorem Coherent.id?_copyFor (names : Table String) {k : String} {e : Document}
    (hid : e.id? = some k) :
    (copyFor names id d dest destId name k e).id? = some (renamed names k) :=
  Document.string?_eq_some_iff.2 (get?_copyFor _ _ hid).1

/-- A copy passes its checks: the document is no version, and it goes under a container that is
neither itself nor below it, where nothing has the name. -/
structure ChecksCopy (site : Site) (shelf : Shelf) (id destId name : String) (d dest : Document) :
    Prop where
  document : shelf.get? id = some d
  version : d.isVersion = false
  destination : shelf.get? destId = some dest
  container : dest.isProxy = false ∧ dest.isVersion = false ∧ dest.id? ≠ some site.versions
  unused : shelf.child? destId name [] = none

namespace Filed

open Coherent (copyList copiesOf copyNames copyLinks)

theorem mem_copyList (h : Filed site shelf) (hd : shelf.get? id = some d) {k : String} :
    k ∈ copyList shelf id ↔ ∃ e, shelf.get? k = some e ∧ (k = id ∨ id ∈ e.ancestors) := by
  rw [copyList, List.mem_cons, h.mem_below]
  constructor
  · rintro (rfl | ⟨e, he, hmem⟩)
    · exact ⟨d, hd, .inl rfl⟩
    · exact ⟨e, he, .inr hmem⟩
  · rintro ⟨e, he, rfl | hmem⟩
    · exact .inl rfl
    · exact .inr ⟨e, he, hmem⟩

theorem exists_of_mem_copyList (h : Filed site shelf) (hd : shelf.get? id = some d) {k : String}
    (hk : k ∈ copyList shelf id) : ∃ e, shelf.get? k = some e :=
  let ⟨e, he, _⟩ := (h.mem_copyList hd).1 hk
  ⟨e, he⟩

/-- The documents found for copying, each with its id. -/
theorem copySources_eq (h : Filed site shelf) (hd : shelf.get? id = some d) :
    site.copySources id d = .ok ((copyList shelf id).filterMap (shelf.get? ·)) := by
  have hlook : ∀ ks : List String, (ks.mapM fun k => (site.store.find? k).mapError Error.store) =
      .ok (ks.map (shelf.get? ·)) := by
    intro ks
    rw [funext (find?_eq h.stored)]
    exact List.mapM_pure
  rw [copySources, below_eq h.stored]
  simp only [bind, Except.bind, hlook, pure, Except.pure]
  rw [copyList, List.filterMap_cons_some hd, List.filterMap_map]
  congr 1
  -- no document that was found is left out for want of an id
  refine List.filter_eq_self.2 fun e he => ?_
  rcases List.mem_cons.1 he with rfl | he
  · rw [h.keyed id e hd]
    rfl
  · obtain ⟨k, -, hk⟩ := List.mem_filterMap.1 he
    rw [h.keyed k e hk]
    rfl

theorem filterMap_id? (h : Filed site shelf) {ks : List String}
    (hthere : ∀ k ∈ ks, ∃ e, shelf.get? k = some e) :
    (ks.filterMap (shelf.get? ·)).filterMap (·.id?) = ks := by
  have hmap := congrArg (List.filterMap id) (h.map_id? hthere)
  rw [List.filterMap_map, List.filterMap_map] at hmap
  simpa using hmap

/-- The plan makes just the copies. -/
theorem map_copyOf (h : Filed site shelf) (names : Table String) :
    ((copyList shelf id).filterMap (shelf.get? ·)).map (fun source =>
      copyOf names source
        (if source.id? = some id then copiedTop names source dest destId name
         else copiedBelow names source dest.childAncestors d.ancestors.length)) =
      copiesOf shelf names id d dest destId name := by
  rw [copiesOf, Shelf.revisions, List.map_filterMap]
  refine List.filterMap_congr fun k _ => ?_
  cases he : shelf.get? k with
  | none => rfl
  | some e =>
    rw [Option.map_some, Option.map_some, copyFor, h.keyed k e he]
    simp only [Option.some.injEq]

/-- A target is looked for among the copies and then in the store, which is to look for it on the
shelf with the copies. -/
theorem attachments_eq (h : Filed site shelf) {copies : List Document}
    (hsingle : ∀ c ∈ copies, ∀ e ∈ copies, c.id? = e.id? → c = e) (links : Table TextSet) :
    site.attachments copies links = .ok (((shelf.putAll copies).revisions links.entries (·.1)
      fun link e => e.relinked link.2.keys []).map .update) := by
  refine Shelf.collect_eq fun (target, proxies) => ?_
  dsimp only
  cases hfind : copies.find? (·.id? = some target) with
  | some copy =>
    have hid : copy.id? = some target := by simpa using List.find?_some hfind
    have hmem := List.mem_of_find?_eq_some hfind
    rw [Shelf.get?_putAll_of_mem (fun c hc hcid => hsingle c hc copy hmem (hcid.trans hid.symm))
      hmem hid]
    rfl
  | none =>
    have hnone : ∀ c ∈ copies, c.id? ≠ some target := by simpa using hfind
    rw [Shelf.get?_putAll_of_forall_ne hnone]
    simp only
    rw [find?_eq h.stored]
    rfl

/-- **What a copy plans.** It creates the copies and marks each, and then updates the targets of
copied proxies. -/
theorem planCopy_eq_ok (h : Filed site shelf)
    (hplan : site.planCopy id destId name? = .ok (plan, answer)) :
    ∃ name d dest attachments, name = (name?.or d.name?).getD "" ∧
      site.ChecksCopy shelf id destId name d dest ∧ answer = renamed (copyNames site shelf id) id ∧
      let copies := copiesOf shelf (copyNames site shelf id) id d dest destId name
      site.attachments copies (copyLinks copies) = .ok attachments ∧
      plan =
        { writes := (copies.flatMap fun copy => [.create copy, .mark (copy.id?.getD "")]) ++
            attachments
          drawn := (copyList shelf id).length } := by
  simp only [planCopy, bind_eq_ok_iff, require_eq_ok_iff h.stored] at hplan
  obtain ⟨d, hd, hplan⟩ := hplan
  split at hplan
  · cases hplan
  next hversion =>
  simp only [bind_eq_ok_iff, require_eq_ok_iff h.stored, requireContainer_eq_ok_iff,
    requireElsewhere_eq_ok_iff, requireFreeName_eq_ok_iff h.stored, h.copySources_eq hd,
    Except.ok.injEq] at hplan
  obtain ⟨dest, hdest, -, hcontainer, -, -, -, hunused, sources, rfl, hplan⟩ := hplan
  generalize hname : (name?.or d.name?).getD "" = name at hunused hplan
  rw [h.filterMap_id? fun k hk => h.exists_of_mem_copyList hd hk, h.map_copyOf] at hplan
  obtain ⟨attachments, hattachments, heq⟩ := hplan
  cases heq
  exact ⟨name, d, dest, attachments, hname.symm,
    ⟨hd, by simpa using hversion, hdest, hcontainer, hunused⟩, rfl, hattachments, rfl⟩

end Filed

end Site

namespace Site.Coherent

variable {site : Site} {shelf : Shelf} {id destId name : String} {d dest : Document}

theorem nodup_copyList (h : Coherent site shelf) (id : String) : (copyList shelf id).Nodup := by
  refine List.nodup_cons.2 ⟨fun hmem => ?_, Table.nodup_keys _⟩
  obtain ⟨e, he, hbelow⟩ := h.filed.mem_below.1 hmem
  exact h.tree.notMem_ancestors he hbelow

/-! ## Copies as a graft -/

theorem renamed_copyNames (h : Coherent site shelf) {k : String} (hk : k ∈ copyList shelf id) :
    renamed (copyNames site shelf id) k = site.ids.peek ((copyList shelf id).idxOf k) :=
  renamed_of_mem site.ids (h.nodup_copyList id) hk

theorem renamed_copyNames_inj (h : Coherent site shelf) {k l : String}
    (hk : k ∈ copyList shelf id) (hl : l ∈ copyList shelf id)
    (heq : renamed (copyNames site shelf id) k = renamed (copyNames site shelf id) l) : k = l := by
  rw [h.renamed_copyNames hk, h.renamed_copyNames hl] at heq
  exact (List.idxOf_inj hk).1 (IdSource.peek_injective h.unrepeated heq)

theorem get?_renamed (h : Coherent site shelf) {k : String} (hk : k ∈ copyList shelf id) :
    shelf.get? (renamed (copyNames site shelf id) k) = none := by
  rw [h.renamed_copyNames hk]
  exact h.get?_peek _

/-- A copy is told by its id. -/
theorem eq_of_mem_copiesOf (h : Coherent site shelf) {c e : Document}
    (hc : c ∈ copiesOf shelf (copyNames site shelf id) id d dest destId name)
    (he : e ∈ copiesOf shelf (copyNames site shelf id) id d dest destId name)
    (hid : c.id? = e.id?) : c = e := by
  obtain ⟨k, hk, dk, hdk, rfl⟩ := Shelf.mem_revisions.1 hc
  obtain ⟨l, hl, dl, hdl, rfl⟩ := Shelf.mem_revisions.1 he
  rw [id?_copyFor _ (h.keyed k dk hdk), id?_copyFor _ (h.keyed l dl hdl)] at hid
  have hkl : k = l := h.renamed_copyNames_inj hk hl (Option.some.inj hid)
  subst hkl
  rw [hdk] at hdl
  rw [Option.some.inj hdl]

/-- **The copies are a graft.** -/
theorem grafted (h : Coherent site shelf) (hd : shelf.get? id = some d) :
    Grafted shelf (shelf.putAll (copiesOf shelf (copyNames site shelf id) id d dest destId name))
      (copyList shelf id) (renamed (copyNames site shelf id))
      (copyFor (copyNames site shelf id) id d dest destId name) := by
  let names := copyNames site shelf id
  let copies := copiesOf shelf names id d dest destId name
  -- every document of the list is found again under its new name
  have hnew : ∀ k ∈ copyList shelf id, ∀ e, shelf.get? k = some e →
      (shelf.putAll copies).get? (renamed names k) =
        some (copyFor names id d dest destId name k e) := by
    intro k hk e he
    have hmem : copyFor names id d dest destId name k e ∈ copies :=
      Shelf.mem_revisions.2 ⟨k, hk, e, he, rfl⟩
    have hid : (copyFor names id d dest destId name k e).id? = some (renamed names k) :=
      id?_copyFor names (h.keyed k e he)
    refine Shelf.get?_putAll_of_mem (fun c hc hcid => ?_) hmem hid
    -- two copies of one id are the same copy
    exact h.eq_of_mem_copiesOf hc hmem (hcid.trans hid.symm)
  refine ⟨fun k hk => h.filed.exists_of_mem_copyList hd hk, fun k hk => h.get?_renamed hk,
    fun k hk l hl heq => h.renamed_copyNames_inj hk hl heq, ?old, hnew, ?cases⟩
  case old =>
    intro k e he
    -- an old document has the id of no copy, for the new ids are free
    rw [Shelf.get?_putAll_of_forall_ne, he]
    intro c hc hid
    obtain ⟨l, hl, dl, hdl, rfl⟩ := Shelf.mem_revisions.1 hc
    rw [id?_copyFor _ (h.keyed l dl hdl)] at hid
    have hfree := h.get?_renamed hl
    rw [Option.some.inj hid, he] at hfree
    cases hfree
  case cases =>
    intro l e he
    -- what is stored now is one of the copies, or was there before
    by_cases hcopy : ∃ c ∈ copies, c.id? = some l
    · obtain ⟨c, hc, hid⟩ := hcopy
      obtain ⟨k, hk, dk, hdk, rfl⟩ := Shelf.mem_revisions.1 hc
      rw [id?_copyFor _ (h.keyed k dk hdk)] at hid
      cases hid
      rw [hnew k hk dk hdk] at he
      exact .inr ⟨k, hk, dk, hdk, rfl, (Option.some.inj he).symm⟩
    · rw [Shelf.get?_putAll_of_forall_ne fun c hc hid => hcopy ⟨c, hc, hid⟩] at he
      exact .inl he

/-! ## Attaching copied proxies -/

/-- The targets of copied proxies keep their ids when they get these. -/
theorem keepsIds_attached {s : Shelf} (hkeyed : s.Keyed) (links : Table TextSet) :
    s.KeepsIds links.entries (·.1) fun link e => e.relinked link.2.keys [] := by
  intro link _ e he
  have hagree : Document.AgreesOn [Field.id] e (e.relinked link.2.keys []) :=
    Document.agreesOn_relinked (by decide) e _ _
  exact (hagree.string? (by decide)).trans (hkeyed _ e he)

theorem mem_startsOf_copyLinks {copies : List Document} {start finish : String} :
    start ∈ startsOf (copyLinks copies) finish ↔
      ∃ copy ∈ copies, copy.id? = some start ∧ copy.target? = some finish := by
  rw [startsOf, copyLinks, mem_keys_gatherLinks, List.mem_filterMap]
  simp [Option.bind_eq_some_iff]

/-! ## Carrying a copy out -/

/-- What a copy writes: the copies, each marked, and then the targets of copied proxies. -/
def copyWrites (shelf : Shelf) (copies : List Document) : List Write :=
  (copies.flatMap fun copy => [.create copy, .mark (copy.id?.getD "")]) ++
    ((shelf.putAll copies).revisions (copyLinks copies).entries (·.1)
      fun link e => e.relinked link.2.keys []).map .update

/-- The shelf after a copy: the copies are there, and targets are told of the copied proxies. -/
def copied (shelf : Shelf) (copies : List Document) : Shelf :=
  (shelf.putAll copies).putAll ((shelf.putAll copies).revisions (copyLinks copies).entries (·.1)
    fun link e => e.relinked link.2.keys [])

theorem get?_copied {copies : List Document} (hkeyed : (shelf.putAll copies).Keyed) (k : String) :
    (copied shelf copies).get? k = ((shelf.putAll copies).get? k).map fun e =>
      ((copyLinks copies).get? k).elim e fun starts => e.relinked starts.keys [] :=
  Shelf.get?_putAll_revisions_entries (fun (starts : TextSet) e => e.relinked starts.keys [])
    (keepsIds_attached hkeyed (copyLinks copies)) k

/-- **The writes of a copy succeed.** -/
theorem writes_copied (h : Coherent site shelf) :
    let copies := copiesOf shelf (copyNames site shelf id) id d dest destId name
    shelf.Writes (copyWrites shelf copies) (copied shelf copies) := by
  intro copies
  have hcreations : shelf.Writes
      (copies.flatMap fun copy => [.create copy, .mark (copy.id?.getD "")])
      (shelf.putAll copies) := by
    refine .creations ?_ ?_
    · refine List.pairwise_filterMap.2 ((h.nodup_copyList id).imp_of_mem ?_)
      intro k l hk hl hne c hc e he heq
      obtain ⟨dk, hdk, rfl⟩ := Option.map_eq_some_iff.1 hc
      obtain ⟨dl, hdl, rfl⟩ := Option.map_eq_some_iff.1 he
      rw [id?_copyFor _ (h.keyed k dk hdk), id?_copyFor _ (h.keyed l dl hdl)] at heq
      exact hne (h.renamed_copyNames_inj hk hl (Option.some.inj heq))
    · intro c hc
      obtain ⟨k, hk, dk, hdk, rfl⟩ := Shelf.mem_revisions.1 hc
      exact ⟨_, id?_copyFor _ (h.keyed k dk hdk), h.get?_renamed hk⟩
  exact hcreations.append (Shelf.writes_revisions
    (keepsIds_attached (h.keyed.putAll _) (copyLinks copies)) fun k hk => hk)

/-- Below the document asked for, ancestors of copies follow the chain of copied parents. -/
theorem ancestors_copyFor (h : Coherent site shelf) (hd : shelf.get? id = some d)
    (hdest : dest.id? = some destId) {k p : String} {e dp : Document} (hk : k ≠ id)
    (hmem : id ∈ e.ancestors) (he : shelf.get? k = some e)
    (hparent : e.get? Field.parent = some (.reference p)) (hdp : shelf.get? p = some dp) :
    let names := copyNames site shelf id
    (copyFor names id d dest destId name k e).get? Field.ancestors =
      some (.references ((copyFor names id d dest destId name p dp).ancestors ++
        [renamed names p])) := by
  intro names
  have hancestors : e.ancestors = dp.ancestors ++ [p] :=
    Document.references_of_get? (h.tree.ancestors_of_child he hparent hdp)
  obtain ⟨-, -, hcopy⟩ := get?_copyFor_below names name d hk hdest hparent
  rw [hcopy, hancestors]
  by_cases hp : p = id
  · -- a child of the document itself
    subst hp
    cases hd.symm.trans hdp
    have htop : (copyFor names p d dest destId name p d).ancestors = dest.ancestors ++ [destId] :=
      Document.references_of_get? (get?_copyFor_self names p name d d hdest).2.2
    rw [htop, List.drop_left]
    rfl
  · -- further below
    have hbelow : id ∈ dp.ancestors :=
      ((h.tree.mem_ancestors_of_child he hparent hdp).1 hmem).resolve_right fun heq => hp heq.symm
    have hroot : p ≠ site.root := by
      rintro rfl
      rw [h.tree.ancestors_root hdp] at hbelow
      cases hbelow
    obtain ⟨q, dq, hq, -, -⟩ := h.tree.exists_parent hdp hroot
    have hup : (copyFor names id d dest destId name p dp).ancestors = dest.ancestors ++ [destId] ++
        (dp.ancestors.drop d.ancestors.length).map (renamed names) :=
      Document.references_of_get? (get?_copyFor_below names name d hp hdest hq).2.2
    obtain ⟨d', hd', hprefix⟩ := h.tree.ancestors_prefix_of_mem hdp hbelow
    cases hd.symm.trans hd'
    -- the ancestors that are replaced are those of the document asked for, so there are enough
    have hdepth : d.ancestors.length ≤ dp.ancestors.length := by
      have hlength := hprefix.length_le
      rw [List.length_append] at hlength
      omega
    rw [hup, List.drop_append_of_le_length hdepth, List.map_append, ← List.append_assoc]
    rfl

/-- **The copies keep the documents a tree.** -/
theorem treeShaped_copied (h : Coherent site shelf) (hd : shelf.get? id = some d)
    (hroot : id ≠ site.root) (hversions : id ≠ site.versions) (hversion : d.isVersion = false)
    (hdest : shelf.get? destId = some dest)
    (hcontainer : dest.isProxy = false ∧ dest.isVersion = false ∧ dest.id? ≠ some site.versions)
    (hunused : shelf.child? destId name [] = none) :
    TreeShaped site.root site.versions
      (copied shelf (copiesOf shelf (copyNames site shelf id) id d dest destId name)) := by
  let names := copyNames site shelf id
  have hdestId := h.keyed destId dest hdest
  -- to attach proxies does not touch the tree
  have hagree : Shelf.AgreesOn Field.ofTree
      (shelf.putAll (copiesOf shelf names id d dest destId name))
      (copied shelf (copiesOf shelf names id d dest destId name)) := by
    refine Shelf.agreesOn_of_map (get?_copied (h.keyed.putAll _)) fun k e _ => ?_
    cases (copyLinks (copiesOf shelf names id d dest destId name)).get? k with
    | none => exact .refl _ e
    | some starts => exact Document.agreesOn_relinked (by decide) e starts.keys []
  refine TreeShaped.congr (h.tree.graft (h.grafted hd)
    { document := hd
      destination := hdest
      unfiled := h.ne_versions_of_container hdest hcontainer.2.2
      container := ⟨hcontainer.1, hcontainer.2.1⟩
      unused := Shelf.name_ne_of_child?_eq_none hunused
      kind := ?kind
      top := get?_copyFor_self names id name d d hdestId
      below := ?below }) hagree
  case kind =>
    intro k hk e he
    refine ⟨(get?_copyFor _ _ (h.keyed k e he)).2.2, ?_⟩
    -- what is copied is no version, neither the top nor anything below it
    obtain ⟨e', he', heq | hmem⟩ := (h.filed.mem_copyList hd).1 hk
    · rw [heq, hd] at he
      rw [← Option.some.inj he, hversion]
    · cases he.symm.trans he'
      exact h.tree.isVersion_of_mem_ancestors he hmem hroot hversions
  case below =>
    intro k hk hkid e he
    obtain ⟨e', he', hcase⟩ := (h.filed.mem_copyList hd).1 hk
    cases he.symm.trans he'
    have hmem : id ∈ e.ancestors := hcase.resolve_left hkid
    -- the root is below nothing
    have hne : k ≠ site.root := by
      rintro rfl
      rw [h.tree.ancestors_root he] at hmem
      cases hmem
    obtain ⟨p, dp, hparent, hdp, -⟩ := h.tree.exists_parent he hne
    -- the parent is copied as well: it is the document itself or below it
    have hp : p ∈ copyList shelf id := by
      refine (h.filed.mem_copyList hd).2 ⟨dp, hdp, ?_⟩
      rcases (h.tree.mem_ancestors_of_child he hparent hdp).1 hmem with hmem | heq
      · exact .inr hmem
      · exact .inl heq.symm
    obtain ⟨hcparent, hcname, -⟩ := get?_copyFor_below names name d hkid hdestId hparent
    exact ⟨p, hp, dp, hdp, hparent, hcparent, hcname,
      h.ancestors_copyFor hd hdestId hkid hmem he hparent hdp⟩

/-- A target is there for proxies only, and then it can be read. -/
theorem get?_target_copy (h : Coherent site shelf) (names : Table String) {k : String}
    {e : Document} (he : shelf.get? k = some e) :
    (copyFor names id d dest destId name k e).get? Field.target =
      e.target?.map fun target => .reference (renamed names target) := by
  refine get?_target_copyFor ?_
  cases ht : e.get? Field.target with
  | none => exact .inl rfl
  | some v =>
    obtain ⟨t, dt, htarget, -⟩ := h.links.listed k e he (h.links.isProxy_of_target he ht)
    rw [Document.target?, Document.reference?_eq_some_iff.2 htarget]
    exact .inr rfl

/-- The links to attach are those of the copied proxies. -/
theorem mem_startsOf_copiesOf (h : Coherent site shelf) {names : Table String}
    {start finish : String} :
    start ∈ startsOf (copyLinks (copiesOf shelf names id d dest destId name)) finish ↔
      ∃ k ∈ copyList shelf id, ∃ e, shelf.get? k = some e ∧ start = renamed names k ∧
        (copyFor names id d dest destId name k e).get? Field.target =
          some (.reference finish) := by
  rw [mem_startsOf_copyLinks]
  constructor
  · rintro ⟨c, hc, hid, ht⟩
    obtain ⟨k, hk, e, he, rfl⟩ := Shelf.mem_revisions.1 hc
    rw [id?_copyFor _ (h.keyed k e he)] at hid
    exact ⟨k, hk, e, he, (Option.some.inj hid).symm, Document.reference?_eq_some_iff.1 ht⟩
  · rintro ⟨k, hk, e, he, rfl, ht⟩
    exact ⟨_, Shelf.mem_revisions.2 ⟨k, hk, e, he, rfl⟩, id?_copyFor _ (h.keyed k e he),
      Document.reference?_eq_some_iff.2 ht⟩

/-- **The copies keep the links sound.** -/
theorem proxyLinked_copied (h : Coherent site shelf) (hd : shelf.get? id = some d) :
    ProxyLinked (copied shelf (copiesOf shelf (copyNames site shelf id) id d dest destId name)) := by
  refine h.links.graft (h.grafted hd) (fun k hk => renamed_of_notMem site.ids hk) ?kind
    (fun start finish => h.mem_startsOf_copiesOf) (get?_copied (h.keyed.putAll _))
  intro k hk e he
  obtain ⟨-, hproxies, hagree⟩ := get?_copyFor (copyNames site shelf id) id (h.keyed k e he)
  exact ⟨hagree.flag (by decide), Document.references_of_get?_eq_none hproxies,
    h.get?_target_copy _ he⟩

/-- **What a copy plans in a tree.** The targets of copied proxies are then found among the
documents and the copies, and the plan is all known beforehand. -/
theorem planCopy_eq_ok (h : Coherent site shelf) {name? : Option String} {plan : Plan}
    {answer : String} (hplan : site.planCopy id destId name? = .ok (plan, answer)) :
    ∃ name d dest, name = (name?.or d.name?).getD "" ∧
      site.ChecksCopy shelf id destId name d dest ∧ answer = renamed (copyNames site shelf id) id ∧
      plan =
        { writes := copyWrites shelf
            (copiesOf shelf (copyNames site shelf id) id d dest destId name)
          drawn := (copyList shelf id).length } := by
  obtain ⟨name, d, dest, attachments, hname, hchecks, hanswer, hattachments, rfl⟩ :=
    h.filed.planCopy_eq_ok hplan
  rw [h.filed.attachments_eq (fun c hc e he => h.eq_of_mem_copiesOf hc he)] at hattachments
  cases hattachments
  exact ⟨name, d, dest, hname, hchecks, hanswer, rfl⟩

/-- **A copy leads to a coherent site.** -/
theorem of_planCopy (h : Coherent site shelf) {name? : Option String} {plan : Plan}
    {answer : String} (hroot : id ≠ site.root) (hversions : id ≠ site.versions)
    (hplan : site.planCopy id destId name? = .ok (plan, answer)) :
    ∃ t, shelf.Writes plan.writes t ∧ Coherent (site.settled plan.drawn t) t := by
  obtain ⟨name, d, dest, -, ⟨hd, hversion, hdest, hcontainer, hunused⟩, -, rfl⟩ :=
    h.planCopy_eq_ok hplan
  let copies := copiesOf shelf (copyNames site shelf id) id d dest destId name
  -- what is there in the end was there under the same id before proxies were attached
  have hcases : ∀ k f, (copied shelf copies).get? k = some f → ∃ e, (shelf.putAll copies).get? k =
      some e ∧ Document.AgreesOn [Field.id] e f := by
    intro k f hf
    rw [get?_copied (h.keyed.putAll _)] at hf
    obtain ⟨e, he, rfl⟩ := Option.map_eq_some_iff.1 hf
    refine ⟨e, he, ?_⟩
    cases (copyLinks copies).get? k with
    | none => exact .refl _ e
    | some starts => exact Document.agreesOn_relinked (by decide) e starts.keys []
  refine ⟨copied shelf copies, h.writes_copied, h.settled ?keyed ?drawn ?tree ?links⟩
  case keyed =>
    intro k f hf
    obtain ⟨e, he, hagree⟩ := hcases k f hf
    exact (hagree.string? (by decide)).trans (h.keyed.putAll _ k e he)
  case drawn =>
    intro k f hf
    obtain ⟨e, he, -⟩ := hcases k f hf
    rcases (h.grafted hd).cases k e he with he | ⟨l, hl, -, -, rfl, -⟩
    · exact .inl (by rw [he]; rfl)
    · exact .inr ⟨_, List.idxOf_lt_length_iff.2 hl, h.renamed_copyNames hl⟩
  case tree =>
    exact h.treeShaped_copied hd hroot hversions hversion hdest hcontainer hunused
  case links => exact h.proxyLinked_copied hd

end Site.Coherent

end ContentRepository
