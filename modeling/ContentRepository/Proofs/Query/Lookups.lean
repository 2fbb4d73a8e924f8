import ContentRepository.Proofs.Query.Paging

/-!
# Lookups and queries

A store has lookups of its own besides queries: by the value of a field, by an item of an array, and
by parent and name. Each of them goes through the documents separately, with its own test. Yet each
answers as a query does that says the same, and the tree operations, which find by lookups what they
write, may be understood by queries.

* **`Store.matching`** — what a query answers without an order and without pages; by
  **`Store.matching_eq`** the documents that satisfy it, in the order of their ids.
* **`Listing.Describes`** — a listing tells about some documents, and about no others.
* **`Store.lookups_agree`** — each lookup answers as its query, in every store.
-/

namespace ContentRepository

open Query (Expression SortKeys)

theorem Value.equals_string_iff {v : Value} {text : String} :
    v.equals (.string text) = true ↔ v = .string text := by
  cases v <;> simp [equals]

/-! ## The queries -/

/-- Without keys the documents stay as they are. -/
theorem Query.SortKeys.sort_nil (documents : List Document) : sort [] documents = documents :=
  List.mergeSort_of_pairwise (List.pairwise_of_forall fun _ _ => rfl)

/-- What a query answers that is neither ordered nor cut into pages. -/
def Store.matching (s : Store) (predicate : Expression) (ignored : List String) :
    Except StoreError (List Document) :=
  (s.fetch { predicate } ignored).map (·.items)

theorem Store.matching_eq {s : Store} {shelf : Shelf} (hshelf : s.shelf? = some shelf)
    {predicate : Expression} (hvalid : predicate.unorderable? = none) (ignored : List String) :
    s.matching predicate ignored = .ok ((shelf.visible ignored).filter (predicate.holds ·)) := by
  rw [matching, fetch_eq hshelf { predicate } hvalid]
  exact congrArg Except.ok (SortKeys.sort_nil _)

/-- The field is there and equals the value. -/
def Query.Expression.has (key : String) (value : Value) : Expression := .compares key .eq value

/-- The document is a child of the parent and has the name. -/
def Query.Expression.isChild (parent name : String) : Expression :=
  .all [.has Field.parent (.reference parent), .has Field.name (.string name)]

theorem Query.Expression.holds_has (d : Document) (key : String) (value : Value) :
    (has key value).holds d = d.holds key value := rfl

/-- A reference is that to a parent exactly if it refers to it, and a text is the name exactly if it
is that text. -/
theorem Query.Expression.holds_isChild (d : Document) (parent name : String) :
    (isChild parent name).holds d = (d.parent? == some parent && d.name? == some name) := by
  have hparent : d.holds Field.parent (.reference parent) = (d.parent? == some parent) := by
    rw [Bool.eq_iff_iff, Document.holds_reference_iff, beq_iff_eq, Document.parent?,
      Document.reference?_eq_some_iff]
  have hname : d.holds Field.name (.string name) = (d.name? == some name) := by
    rw [Bool.eq_iff_iff, beq_iff_eq, Document.name?, Document.string?_eq_some_iff]
    simp [Document.holds, Option.any_eq_true, Value.equals_string_iff]
  rw [isChild, holds, allHold, allHold, allHold, holds_has, holds_has, hparent, hname,
    Bool.and_true]

/-! ## Listings -/

/-- The listing tells about these documents: their ids, and if asked for, what the proxies among
them stand for and which proxies those have that have some. -/
structure Listing.Describes (l : Listing) (found : List Document)
    (wantTargets wantProxies : Bool) : Prop where
  ids : l.ids.keys.map some = found.map (·.id?)
  targets : ∀ id target, l.targets.get? id = some target ↔ wantTargets = true ∧
    ∃ d ∈ found, d.id? = some id ∧ d.isProxy = true ∧ d.target? = some target
  proxies : ∀ id proxies, l.proxies.get? id = some proxies ↔ wantProxies = true ∧
    ∃ d ∈ found, d.id? = some id ∧ d.proxies = proxies ∧ proxies ≠ []

/-- Documents in the order of their ids are listed in this order. -/
theorem Shelf.keys_ofList_items {ds : List Document} (hids : ds.Pairwise SortKeys.IdBefore)
    (hnamed : ∀ d ∈ ds, ∃ id, d.id? = some id) :
    (Table.ofList (ds.filterMap (item? fun _ => some ()))).keys.map some = ds.map (·.id?) := by
  have hmap : (ds.filterMap (·.id?)).map some = ds.map (·.id?) := by
    clear hids
    induction ds with
    | nil => rfl
    | cons d rest ih =>
      obtain ⟨id, hid⟩ := hnamed d List.mem_cons_self
      rw [List.filterMap_cons_some hid, List.map_cons, List.map_cons, hid,
        ih fun e he => hnamed e (List.mem_cons_of_mem _ he)]
  have hascending : (ds.filterMap (·.id?)).Pairwise (· < ·) := by
    refine List.pairwise_filterMap.2 (hids.imp ?_)
    rintro d e ⟨i, j, hi, hj, hij⟩ _ hdi _ hej
    cases hi.symm.trans hdi
    cases hj.symm.trans hej
    exact hij
  have hkeys : ∀ id, id ∈ (Table.ofList (ds.filterMap (item? fun _ => some ()))).keys ↔
      id ∈ ds.filterMap (·.id?) := by
    intro id
    rw [Table.mem_keys_ofList]
    simp [item?, Option.bind_eq_some_iff]
  -- both lists ascend, and they have the same members
  have hnodup : (ds.filterMap (·.id?)).Nodup := hascending.imp String.ne_of_lt
  have hperm := (List.perm_ext_iff_of_nodup (Table.nodup_keys _) hnodup).2 hkeys
  rw [← hmap, hperm.eq_of_pairwise (fun a _ _ _ hab hba =>
    absurd (String.lt_trans hab hba) (String.lt_irrefl a)) (Table.pairwise_keys _) hascending]

theorem Shelf.describes_listing {shelf : Shelf} (hkeyed : shelf.Keyed) (key : String) (item : Value)
    (ignored : List String) (wantTargets wantProxies : Bool) :
    (shelf.listing key item ignored wantTargets wantProxies).Describes
      ((shelf.visible ignored).filter (·.listed key item)) wantTargets wantProxies := by
  -- no two documents that are found have an id in common
  have honly : ∀ d ∈ (shelf.visible ignored).filter (·.listed key item),
      ∀ e ∈ (shelf.visible ignored).filter (·.listed key item),
        ∀ id, d.id? = some id → e.id? = some id → d = e :=
    fun d hd e he _ => eq_of_mem_visible hkeyed (List.mem_filter.1 hd).1 (List.mem_filter.1 he).1
  rw [listing, foldl_add]
  refine ⟨?ids, fun id target => ?targets, fun id proxies => ?proxies⟩
  case ids =>
    refine keys_ofList_items ((Query.pairwise_visible hkeyed ignored).filter _) fun d hd => ?_
    obtain ⟨id, -, hid⟩ := mem_visible.1 (List.mem_filter.1 hd).1
    exact ⟨id, hkeyed id d hid⟩
  case targets =>
    rw [get?_ofList_items _ honly]
    cases wantTargets <;> simp [listedTarget_eq_some_iff]
  case proxies =>
    rw [get?_ofList_items _ honly]
    cases wantProxies <;> simp [listedProxies_eq_some_iff]

/-! ## Lookups and their queries -/

/-- The lookups of a store answer as queries do, whichever documents are passed over. -/
structure Store.LooksUp (s : Store) (ignored : List String) : Prop where
  having : ∀ key value, ∃ found, s.matching (.has key value) ignored = .ok found ∧
    s.having key value ignored = .ok found ∧
    s.anyHaving key value ignored = .ok (!found.isEmpty)
  listing : ∀ key item wantTargets wantProxies, ∃ found l,
    s.matching (.lists key item) ignored = .ok found ∧
    s.listing key item ignored wantTargets wantProxies = .ok l ∧
    l.Describes found wantTargets wantProxies
  child : ∀ parent name, ∃ found, s.matching (.isChild parent name) ignored = .ok found ∧
    s.child? parent name ignored = .ok found.head? ∧
    s.hasChild parent name ignored = .ok (!found.isEmpty)

theorem Store.looksUp {s : Store} {shelf : Shelf} (hshelf : s.shelf? = some shelf)
    (hkeyed : shelf.Keyed) (ignored : List String) : s.LooksUp ignored where
  having := by
    intro key value
    refine ⟨_, matching_eq hshelf rfl ignored, having_eq hshelf key value ignored, ?_⟩
    rw [anyHaving_eq_map, shelf_eq hshelf]
    rfl
  listing := by
    intro key item wantTargets wantProxies
    exact ⟨_, _, matching_eq hshelf rfl ignored,
      listing_eq hshelf key item ignored wantTargets wantProxies,
      Shelf.describes_listing hkeyed key item ignored wantTargets wantProxies⟩
  child := by
    intro parent name
    have hchild : shelf.child? parent name ignored =
        ((shelf.visible ignored).filter ((Expression.isChild parent name).holds ·)).head? := by
      rw [List.head?_filter, Shelf.child?]
      simp only [Expression.holds_isChild]
    refine ⟨_, matching_eq hshelf rfl ignored, ?_, ?_⟩
    · rw [child?_eq hshelf, hchild]
    · rw [hasChild_eq hshelf, hchild]
      cases (shelf.visible ignored).filter ((Expression.isChild parent name).holds ·) <;> rfl

/-- **Lookups agree with queries.** Let some calls be made of a new store.

* The documents in which a field has a value are those that the query for it answers, in the same
  order, and there is one exactly if the query answers one.
* A listing tells the ids of just the documents that the query for the item answers, and of these
  the targets and the proxies, if it is asked to.
* The child of a name is the first document that the query for it answers, and there is one exactly
  if the query answers one. -/
theorem Store.lookups_agree (provision : Provision) (calls : List Store.Call)
    (hcalls : .shutDown ∉ calls) (ignored : List String) :
    ((Store.empty provision).performAll calls).LooksUp ignored := by
  have hempty : (Store.empty provision).shelf? = some Table.empty := rfl
  obtain ⟨shelf, hshelf, hkeyed⟩ :=
    Store.exists_keyed_performAll hcalls hempty fun _ _ h => nomatch h
  exact Store.looksUp hshelf hkeyed ignored

/-- A store with a document, a proxy of it, and a document that is passed over. -/
theorem Store.lookups_agree_of_three :
    let proxy := (Document.withId "p").setAll
      [(Field.isProxy, .boolean true), (Field.target, .reference "t")]
    let target := (Document.withId "t").set Field.proxies (.references ["p"])
    let calls : List Store.Call := [.create target, .create proxy, .create (.withId "q")]
    .shutDown ∉ calls ∧ ((Store.empty .own).performAll calls).LooksUp ["q"] := by
  intro proxy target calls
  have hcalls : .shutDown ∉ calls := by simp [calls]
  exact ⟨hcalls, Store.lookups_agree .own calls hcalls ["q"]⟩

end ContentRepository
