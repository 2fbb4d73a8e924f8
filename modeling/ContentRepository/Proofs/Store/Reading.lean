import ContentRepository.Document.Lemmas
import ContentRepository.Proofs.Table.Building

/-!
# What a store answers about the documents on its shelf

Every reading call of a store goes through the documents of its shelf. On a shelf that files each
document under its own id (`Shelf.Keyed`) the answers say just what documents there are.

* **`Shelf.child?_eq_none_iff`** — no child is found exactly when there is none.
* **`Shelf.mem_ids_listing`**, **`Shelf.get?_targets_listing`** and
  **`Shelf.get?_proxies_listing`** — the three tables of a listing.
* **`Store.find?_eq`** and its companions — a store that is not shut down answers as its shelf does.
* **`bind_eq_ok_iff`** — what is done in steps succeeds when each of them does.
-/

namespace ContentRepository

/-- A computation succeeds when both of its steps do. -/
theorem bind_eq_ok_iff {ε α β : Type} {x : Except ε α} {f : α → Except ε β} {b : β} :
    x >>= f = .ok b ↔ ∃ a, x = .ok a ∧ f a = .ok b := by
  cases x with
  | error e => simp [bind, Except.bind]
  | ok a => simp [bind, Except.bind]

/-- An operation that answers without an error has an answer. -/
theorem exists_eq_ok_of_isOk {ε α β : Type} {r : Except ε α × β} (h : r.1.isOk = true) :
    ∃ a b, r = (.ok a, b) := by
  obtain ⟨_ | a, b⟩ := r
  · cases h
  · exact ⟨a, b, rfl⟩

namespace Shelf

/-- Every document is filed under the id in its own id field. -/
def Keyed (shelf : Shelf) : Prop := ∀ id d, shelf.get? id = some d → d.id? = some id

theorem Keyed.insert {s : Shelf} {id : String} {d : Document} (h : s.Keyed)
    (hid : d.id? = some id) : Keyed (Table.insert s id d) := by
  intro other e he
  rw [Table.get?_insert] at he
  split at he
  · next heq =>
    cases he
    rw [hid, heq]
  · exact h other e he

theorem Keyed.erase {s : Shelf} (h : s.Keyed) (id : String) : Keyed (Table.erase s id) := by
  intro other e he
  rw [Table.get?_erase] at he
  split at he
  · cases he
  · exact h other e he

theorem mem_visible {shelf : Shelf} {ignored : List String} {d : Document} :
    d ∈ shelf.visible ignored ↔ ∃ id, id ∉ ignored ∧ shelf.get? id = some d := by
  simp [visible, Table.mem_values, Table.get?_filter, Option.filter_eq_some_iff, and_comm]

/-- A child that is found has the parent and the name that were asked for. -/
theorem of_child? {shelf : Shelf} {parent name : String} {d : Document}
    (h : shelf.child? parent name [] = some d) :
    (∃ id, shelf.get? id = some d) ∧ d.parent? = some parent ∧ d.name? = some name := by
  have hmem := List.mem_of_find?_eq_some h
  have hprop := List.find?_some h
  obtain ⟨id, -, hid⟩ := mem_visible.1 hmem
  simp only [Bool.and_eq_true, beq_iff_eq] at hprop
  exact ⟨⟨id, hid⟩, hprop⟩

/-- **No child is found exactly when there is none.** -/
theorem child?_eq_none_iff {shelf : Shelf} {parent name : String} :
    shelf.child? parent name [] = none ↔
      ∀ id d, shelf.get? id = some d → d.parent? = some parent → d.name? ≠ some name := by
  simp only [child?, List.find?_eq_none, mem_visible, List.not_mem_nil, not_false_eq_true,
    true_and, Bool.and_eq_true, beq_iff_eq, not_and, forall_exists_index]
  constructor
  · intro h id d hid
    exact h d id hid
  · intro h d id hid
    exact h id d hid

/-- A name that no child was found for is not in use. -/
theorem name_ne_of_child?_eq_none {shelf : Shelf} {p name : String}
    (hnone : shelf.child? p name [] = none) (other : String) (e : Document)
    (he : shelf.get? other = some e) (hparent : e.get? Field.parent = some (.reference p)) :
    e.get? Field.name ≠ some (.string name) := by
  intro hname
  exact child?_eq_none_iff.1 hnone other e he (Document.reference?_eq_some_iff.2 hparent)
    (Document.string?_eq_some_iff.2 hname)

/-! ## Listings -/

/-- What a document contributes to a table by ids. -/
def item? {β : Type} (content : Document → Option β) (d : Document) : Option (String × β) := do
  return (← d.id?, ← content d)

theorem mem_filterMap_item? {β : Type} {content : Document → Option β} {ds : List Document}
    {id : String} {b : β} :
    (id, b) ∈ ds.filterMap (item? content) ↔ ∃ d ∈ ds, d.id? = some id ∧ content d = some b := by
  simp [item?, List.mem_filterMap, Option.bind_eq_some_iff]

/-- What is collected from documents, of which no two have one id, is what each contributes. -/
theorem get?_ofList_items {β : Type} (content : Document → Option β) {ds : List Document}
    (honly : ∀ d ∈ ds, ∀ e ∈ ds, ∀ id, d.id? = some id → e.id? = some id → d = e) {id : String}
    {b : β} :
    (Table.ofList (ds.filterMap (item? content))).get? id = some b ↔
      ∃ d ∈ ds, d.id? = some id ∧ content d = some b := by
  rw [Table.get?_ofList_eq_some_iff, mem_filterMap_item?]
  intro k a c ha hc
  obtain ⟨d, hd, hdk, ha⟩ := mem_filterMap_item?.1 ha
  obtain ⟨e, he, hek, hc⟩ := mem_filterMap_item?.1 hc
  cases honly d hd e he k hdk hek
  exact Option.some.inj (ha.symm.trans hc)

/-- No two documents of a shelf have one id. -/
theorem eq_of_mem_visible {shelf : Shelf} (hkeyed : shelf.Keyed) {ignored : List String}
    {d e : Document} (hd : d ∈ shelf.visible ignored) (he : e ∈ shelf.visible ignored) {id : String}
    (hdid : d.id? = some id) (heid : e.id? = some id) : d = e := by
  obtain ⟨i, -, hi⟩ := mem_visible.1 hd
  obtain ⟨j, -, hj⟩ := mem_visible.1 he
  -- a document has one id only, the one it is filed under
  cases (hkeyed i d hi).symm.trans hdid
  cases (hkeyed j e hj).symm.trans heid
  exact Option.some.inj (hi.symm.trans hj)

/-- What is collected from documents of a shelf is what the document of each id contributes. -/
theorem get?_collect {β : Type} {shelf : Shelf} (hkeyed : shelf.Keyed)
    (content : Document → Option β) (keep : Document → Bool) {id : String} {b : β} :
    (Table.ofList (((shelf.visible []).filter keep).filterMap (item? content))).get? id = some b ↔
      ∃ d, shelf.get? id = some d ∧ keep d = true ∧ content d = some b := by
  rw [get?_ofList_items content fun d hd e he _ =>
    eq_of_mem_visible hkeyed (List.mem_filter.1 hd).1 (List.mem_filter.1 he).1]
  simp only [List.mem_filter, mem_visible, List.not_mem_nil, not_false_eq_true, true_and]
  constructor
  · rintro ⟨d, ⟨⟨other, hd⟩, hkeep⟩, hid, hcontent⟩
    cases (hkeyed other d hd).symm.trans hid
    exact ⟨d, hd, hkeep, hcontent⟩
  · rintro ⟨d, hd, hkeep, hcontent⟩
    exact ⟨d, ⟨⟨id, hd⟩, hkeep⟩, hkeyed id d hd, hcontent⟩

/-- The target of a proxy that is listed. -/
def listedTarget (want : Bool) (d : Document) : Option String :=
  if want && d.isProxy then d.target? else none

/-- The proxies of a document that is listed. -/
def listedProxies (want : Bool) (d : Document) : Option (List String) :=
  if want && !d.proxies.isEmpty then some d.proxies else none

theorem listedTarget_eq_some_iff {want : Bool} {d : Document} {target : String} :
    listedTarget want d = some target ↔
      want = true ∧ d.isProxy = true ∧ d.target? = some target := by
  cases want <;> simp [listedTarget]

theorem listedProxies_eq_some_iff {want : Bool} {d : Document} {proxies : List String} :
    listedProxies want d = some proxies ↔ want = true ∧ d.proxies = proxies ∧ proxies ≠ [] := by
  cases want with
  | false => simp [listedProxies]
  | true =>
    cases hp : d.proxies <;> simp [listedProxies, hp, eq_comm]
    rintro rfl
    simp

theorem foldl_add (wantTargets wantProxies : Bool) (ds : List Document) :
    ds.foldl (Listing.add wantTargets wantProxies) Listing.empty =
      { ids := Table.ofList (ds.filterMap (item? fun _ => some ()))
        targets := Table.ofList (ds.filterMap (item? (listedTarget wantTargets)))
        proxies := Table.ofList (ds.filterMap (item? (listedProxies wantProxies))) } := by
  induction ds using List.reverseRecOn with
  | nil => rfl
  | append_singleton ds d ih =>
    rw [List.foldl_append, ih, List.foldl_cons, List.foldl_nil]
    cases hid : d.id? with
    -- without an id the document is not listed
    | none => simp [Listing.add, hid, item?]
    | some id =>
      have hids : item? (fun _ => some ()) d = some (id, ()) := by simp [item?, hid]
      simp only [Listing.add, hid, List.filterMap_append]
      congr 1
      · -- its id, then its target and its proxies if they are asked for
        simp [hids, TextSet.add, Table.ofList_concat]
      · cases ht : d.target? <;> cases wantTargets <;> cases hp : d.isProxy <;>
          simp [item?, listedTarget, hid, ht, hp, Table.ofList_concat]
      · cases wantProxies <;> cases hp : d.proxies.isEmpty <;>
          simp [item?, listedProxies, hid, hp, Table.ofList_concat]

theorem mem_ids_listing {shelf : Shelf} (hkeyed : shelf.Keyed) {key : String} {item : Value}
    {wantTargets wantProxies : Bool} {id : String} :
    id ∈ (shelf.listing key item [] wantTargets wantProxies).ids.keys ↔
      ∃ d, shelf.get? id = some d ∧ d.listed key item = true := by
  rw [listing, foldl_add, Table.mem_keys, Option.isSome_iff_exists]
  simp [get?_collect hkeyed]

theorem get?_targets_listing {shelf : Shelf} (hkeyed : shelf.Keyed) {key : String} {item : Value}
    {wantProxies : Bool} {id target : String} :
    (shelf.listing key item [] true wantProxies).targets.get? id = some target ↔
      ∃ d, shelf.get? id = some d ∧ d.listed key item = true ∧ d.isProxy = true ∧
        d.target? = some target := by
  rw [listing, foldl_add, get?_collect hkeyed]
  simp only [listedTarget_eq_some_iff, true_and]

theorem get?_proxies_listing {shelf : Shelf} (hkeyed : shelf.Keyed) {key : String} {item : Value}
    {wantTargets : Bool} {id : String} {proxies : List String} :
    (shelf.listing key item [] wantTargets true).proxies.get? id = some proxies ↔
      ∃ d, shelf.get? id = some d ∧ d.listed key item = true ∧ d.proxies = proxies ∧
        proxies ≠ [] := by
  rw [listing, foldl_add, get?_collect hkeyed]
  simp only [listedProxies_eq_some_iff, true_and]

end Shelf

/-! ## Stores that are not shut down -/

namespace Store

variable {s : Store} {shelf : Shelf}

theorem shelf_eq (h : s.shelf? = some shelf) : s.shelf = .ok shelf := by simp [Store.shelf, h]

theorem find?_eq (h : s.shelf? = some shelf) (id : String) :
    s.find? id = .ok (shelf.get? id) := by
  rw [find?, shelf_eq h]
  rfl

/-- Something can be said only of a document that is found. -/
theorem exists_find?_eq {α : Type} {f : Document → α} {a : α} {id : String}
    (h : (s.find? id).toOption.join.map f = some a) : ∃ d, s.find? id = .ok (some d) ∧ f d = a := by
  cases hfind : s.find? id with
  | error e =>
    rw [hfind] at h
    cases h
  | ok found =>
    rw [hfind] at h
    obtain ⟨d, rfl, heq⟩ := Option.map_eq_some_iff.1 h
    exact ⟨d, rfl, heq⟩

theorem child?_eq (h : s.shelf? = some shelf) (parent name : String) (ignored : List String) :
    s.child? parent name ignored = .ok (shelf.child? parent name ignored) := by
  rw [child?, shelf_eq h]
  rfl

theorem hasChild_eq (h : s.shelf? = some shelf) (parent name : String) (ignored : List String) :
    s.hasChild parent name ignored = .ok (shelf.child? parent name ignored).isSome := by
  rw [hasChild, child?_eq h]
  rfl

theorem having_eq (h : s.shelf? = some shelf) (key : String) (value : Value)
    (ignored : List String) : s.having key value ignored = .ok (shelf.having key value ignored) := by
  rw [having, shelf_eq h]
  rfl

/-- Both provisions of asking whether any document has a value come to looking for all that have
it. -/
theorem anyHaving_eq_map (s : Store) (key : String) (value : Value) (ignored : List String) :
    s.anyHaving key value ignored =
      s.shelf.map fun shelf => !(shelf.having key value ignored).isEmpty := by
  have hfound : ∀ ds : List Document,
      ds.any (·.holds key value) = !(ds.filter (·.holds key value)).isEmpty := by
    intro ds
    rw [Bool.eq_iff_iff]
    simp [List.any_eq_true]
  rw [anyHaving]
  cases s.provision with
  | own =>
    cases s.shelf with
    | error e => rfl
    | ok shelf => exact congrArg Except.ok (hfound (shelf.visible ignored))
  | derived =>
    rw [having]
    cases s.shelf <;> rfl

theorem listing_eq (h : s.shelf? = some shelf) (key : String) (item : Value)
    (ignored : List String) (wantTargets wantProxies : Bool) :
    s.listing key item ignored wantTargets wantProxies =
      .ok (shelf.listing key item ignored wantTargets wantProxies) := by
  rw [listing, shelf_eq h]
  rfl

/-- Both provisions of looking several documents up come to the same. -/
theorem findEach_eq (h : s.shelf? = some shelf) (ids : List String) :
    s.findEach ids = .ok (ids.map (shelf.get? ·)) := by
  cases hp : s.provision with
  | own =>
    rw [findEach, hp]
    simp [shelf_eq h, bind, Except.bind, pure, Except.pure]
  | derived =>
    have hfind : s.find? = fun id => pure (shelf.get? id) := funext (find?_eq h)
    rw [findEach, hp]
    show ids.mapM s.find? = _
    rw [hfind, List.mapM_pure]
    rfl

end Store

end ContentRepository
