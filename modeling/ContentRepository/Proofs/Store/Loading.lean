import ContentRepository.Proofs.Store.Filing
import ContentRepository.Proofs.Table.Building
import ContentRepository.Repository.Scenario

/-!
# Which lists of documents can be stored

Documents that are stored one after another in a new store are refused for two reasons only: one has
no id, or its id is taken. So a list can be stored exactly if all its documents have ids and no two
have the same, and then the store holds just these documents.

The check `idsAreUnique` asks for the field of the id and compares the ids. A field that holds no
text thus passes for an id, as long as there is only one such document. So besides the lists that
can be stored, the check lets those pass that one such document was put into.

* **`Store.load`** — documents stored one after another.
* **`Store.holdsJust_of_load`** and **`Store.exists_load_iff`** — what is stored then, and when it
  succeeds.
* **`idsAreUnique_iff`** — which lists pass the check.
-/

namespace ContentRepository

/-- Every document has an id, and no two have the same. -/
def Loadable (documents : List Document) : Prop :=
  (∀ d ∈ documents, ∃ id, d.id? = some id) ∧ (documents.map (·.id?)).Nodup

/-- A document that has the field of the id, but no text in it. -/
def Document.MissesText (d : Document) : Prop := d.contains Field.id = true ∧ d.id? = none

/-- The shelf holds each of the documents under its id, and nothing else. -/
structure Shelf.HoldsJust (shelf : Shelf) (documents : List Document) : Prop where
  found : ∀ id d, shelf.get? id = some d ↔ d ∈ documents ∧ d.id? = some id
  count : shelf.size = documents.length

section Lists

variable {documents : List Document} {d : Document}

theorem loadable_nil : Loadable [] := ⟨by simp, List.nodup_nil⟩

/-- One more document can be stored if it has an id of its own. -/
theorem loadable_concat_iff : Loadable (documents ++ [d]) ↔
    Loadable documents ∧ ∃ id, d.id? = some id ∧ ∀ e ∈ documents, e.id? ≠ some id := by
  have hperm : (documents ++ [d]).Perm (d :: documents) := List.perm_append_singleton d documents
  rw [Loadable, (hperm.map _).nodup_iff, List.map_cons, List.nodup_cons, Loadable]
  simp only [List.mem_append, List.mem_singleton, List.mem_map]
  constructor
  · rintro ⟨hids, hfree, hnodup⟩
    obtain ⟨id, hid⟩ := hids d (.inr rfl)
    exact ⟨⟨fun e he => hids e (.inl he), hnodup⟩, id, hid, fun e he heq =>
      hfree ⟨e, he, heq.trans hid.symm⟩⟩
  · rintro ⟨⟨hids, hnodup⟩, id, hid, hfree⟩
    refine ⟨?_, fun ⟨e, he, heq⟩ => hfree e he (heq.trans hid), hnodup⟩
    rintro e (he | rfl)
    · exact hids e he
    · exact ⟨id, hid⟩

/-- A document without id can stand in the list only once if no two ids are to be the same. -/
theorem nodup_ids_insert_iff {before after : List Document} (hid : d.id? = none) :
    ((before ++ d :: after).map (·.id?)).Nodup ↔ Loadable (before ++ after) := by
  rw [(List.perm_middle.map _).nodup_iff, List.map_cons, List.nodup_cons, hid, Loadable]
  refine and_congr_left fun _ => ?_
  simp only [List.mem_map, not_exists, not_and, ← Option.ne_none_iff_exists', ne_eq]

theorem contains_id_of_id? {id : String} (hid : d.id? = some id) :
    d.contains Field.id = true := by
  rw [Table.contains_eq_isSome, Document.string?_eq_some_iff.1 hid]
  rfl

/-- **The check lets pass what can be stored, and that with one more document put in whose id is no
text.** -/
theorem idsAreUnique_iff : idsAreUnique documents = true ↔
    Loadable documents ∨ ∃ before d after, documents = before ++ d :: after ∧ d.MissesText ∧
      Loadable (before ++ after) := by
  simp only [idsAreUnique, Bool.and_eq_true, List.all_eq_true, decide_eq_true_eq]
  constructor
  · -- every id field is a text, or one of them is something else
    rintro ⟨hfields, hnodup⟩
    by_cases hids : ∀ d ∈ documents, ∃ id, d.id? = some id
    · exact .inl ⟨hids, hnodup⟩
    · push Not at hids
      obtain ⟨d, hd, hnone⟩ := hids
      have hid : d.id? = none := Option.eq_none_iff_forall_ne_some.2 hnone
      obtain ⟨before, after, rfl⟩ := List.append_of_mem hd
      -- the ids that are texts are distinct, and there is one fewer of them than documents
      exact .inr ⟨before, d, after, rfl, ⟨hfields d hd, hid⟩, (nodup_ids_insert_iff hid).1 hnodup⟩
  · rintro (h | ⟨before, d, after, rfl, ⟨hfield, hid⟩, h⟩)
    · refine ⟨fun d hd => ?_, h.2⟩
      obtain ⟨id, hid⟩ := h.1 d hd
      exact contains_id_of_id? hid
    · -- the one without a text passes for its field
      refine ⟨fun e he => ?_, (nodup_ids_insert_iff hid).2 h⟩
      rcases List.mem_cons.1 (List.perm_middle.mem_iff.1 he) with rfl | he
      · exact hfield
      · obtain ⟨id, hid⟩ := h.1 e he
        exact contains_id_of_id? hid

end Lists

namespace Store

variable {s t : Store} {shelf : Shelf} {documents : List Document}

/-- Stores documents one after another, up to the first that is refused. -/
def load (s : Store) (documents : List Document) : Except StoreError Store :=
  documents.foldlM create s

theorem load_concat (s : Store) (documents : List Document) (d : Document) :
    s.load (documents ++ [d]) = s.load documents >>= (·.create d) := by
  simp [load, List.foldlM_append]

/-- What was loaded into a new store can be loaded, and is what the store holds. Induction on the
documents, from the last one. -/
theorem holdsJust_of_load {provision : Provision}
    (h : (Store.empty provision).load documents = .ok t) :
    Loadable documents ∧ ∃ shelf, t.shelf? = some shelf ∧ shelf.HoldsJust documents := by
  induction documents using List.reverseRecOn generalizing t with
  | nil =>
    cases h
    exact ⟨loadable_nil, Table.empty, rfl, by simp, rfl⟩
  | append_singleton documents d ih =>
    rw [load_concat, bind_eq_ok_iff] at h
    obtain ⟨s, hs, hcreate⟩ := h
    obtain ⟨hloadable, shelf, hshelf, hholds⟩ := ih hs
    obtain ⟨id, shelf', hid, hshelf', hfree, rfl⟩ := create_eq_ok_iff.1 hcreate
    cases hshelf.symm.trans hshelf'
    have hapart : ∀ e ∈ documents, e.id? ≠ some id := fun e he heq => by
      cases hfree.symm.trans ((hholds.found id e).2 ⟨he, heq⟩)
    refine ⟨loadable_concat_iff.2 ⟨hloadable, id, hid, hapart⟩, _, rfl, fun other e => ?_, ?_⟩
    · rw [Table.get?_insert_eq_some_iff, hholds.found, List.mem_append, List.mem_singleton]
      constructor
      · rintro (⟨rfl, rfl⟩ | ⟨-, he, hother⟩)
        · exact ⟨.inr rfl, hid⟩
        · exact ⟨.inl he, hother⟩
      · rintro ⟨he | rfl, hother⟩
        · refine .inr ⟨?_, he, hother⟩
          rintro rfl
          exact hapart e he hother
        · exact .inl ⟨Option.some.inj (hother.symm.trans hid), rfl⟩
    · rw [Table.size_insert_of_free hfree, hholds.count, List.length_append]
      rfl

/-- **A list can be loaded into a new store exactly if all its documents have ids and no two have
the same.** -/
theorem exists_load_iff (provision : Provision) (documents : List Document) :
    (∃ t, (Store.empty provision).load documents = .ok t) ↔ Loadable documents := by
  refine ⟨fun ⟨t, h⟩ => (holdsJust_of_load h).1, fun h => ?_⟩
  induction documents using List.reverseRecOn with
  | nil => exact ⟨_, rfl⟩
  | append_singleton documents d ih =>
    obtain ⟨hloadable, id, hid, hapart⟩ := loadable_concat_iff.1 h
    obtain ⟨s, hs⟩ := ih hloadable
    obtain ⟨-, shelf, hshelf, hholds⟩ := holdsJust_of_load hs
    have hfree : shelf.get? id = none := by
      rw [Option.eq_none_iff_forall_ne_some]
      intro e he
      obtain ⟨hmem, heq⟩ := (hholds.found id e).1 he
      exact hapart e hmem heq
    refine ⟨s.withShelf (Table.insert shelf id d), ?_⟩
    rw [load_concat, bind_eq_ok_iff]
    exact ⟨s, hs, create_eq_ok_iff.2 ⟨id, shelf, hid, hshelf, hfree, rfl⟩⟩

/-- **What can be loaded, what passes the check, and what is stored then.** A list is loaded into a
new store without an error exactly if all its documents have ids and no two have the same. Exactly
such lists pass the check, and those that one document was put into whose id is no text. And a store
that a list was loaded into has under each id the document of the list with that id, and no more
documents than the list. -/
theorem loading_of_idsAreUnique (provision : Provision) (documents : List Document) :
    ((∃ t, (Store.empty provision).load documents = .ok t) ↔ Loadable documents) ∧
      (idsAreUnique documents = true ↔ Loadable documents ∨
        ∃ before d after, documents = before ++ d :: after ∧ d.MissesText ∧
          Loadable (before ++ after)) ∧
      ∀ t, (Store.empty provision).load documents = .ok t →
        (∀ id d, t.find? id = .ok (some d) ↔ d ∈ documents ∧ d.id? = some id) ∧
          t.size = .ok documents.length := by
  refine ⟨exists_load_iff provision documents, idsAreUnique_iff, fun t h => ?_⟩
  obtain ⟨-, shelf, hshelf, hholds⟩ := holdsJust_of_load h
  refine ⟨fun id d => ?_, ?_⟩
  · rw [find?_eq hshelf, Except.ok.injEq, hholds.found]
  · rw [size, shelf_eq_ok_iff.2 hshelf, ← hholds.count]
    rfl

/-- Two documents with ids are loaded, and the second is found under its id. -/
theorem loading_of_two :
    let a : Document := .withId "a"
    let b : Document := (Document.withId "b").set Field.parent (.reference "a")
    ∃ t, (Store.empty .own).load [a, b] = .ok t ∧ t.find? "b" = .ok (some b) ∧
      t.size = .ok 2 := by
  intro a b
  have hids : [a, b].map (·.id?) = [some "a", some "b"] := by decide
  have hloadable : Loadable [a, b] := by
    refine ⟨fun d hd => Option.isSome_iff_exists.1 ?_, by rw [hids]; decide⟩
    revert d
    decide
  obtain ⟨t, ht⟩ := (loading_of_idsAreUnique .own [a, b]).1.2 hloadable
  obtain ⟨hfound, hsize⟩ := (loading_of_idsAreUnique .own [a, b]).2.2 t ht
  exact ⟨t, ht, (hfound "b" b).2 ⟨by simp, by decide⟩, hsize⟩

/-- But a single document whose id is a number passes the check and cannot be stored. -/
theorem check_passes_numbered :
    ¬ ∀ documents, idsAreUnique documents = true ↔
      ∃ t, (Store.empty .own).load documents = .ok t := by
  intro hpredicts
  let numbered : Document := Document.set Table.empty Field.id (.long 1)
  obtain ⟨t, ht⟩ := (hpredicts [numbered]).1 (by decide)
  have hrefused : (Store.empty .own).load [numbered] = .error .missingId := rfl
  rw [hrefused] at ht
  cases ht

end Store

end ContentRepository
