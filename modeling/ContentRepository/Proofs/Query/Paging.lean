import ContentRepository.Proofs.Query.Sorting
import ContentRepository.Proofs.Store.Filing

/-!
# Pages tile the results

A query has one result: the matching documents in the order of its keys and then of their ids. Its
pages, laid end to end, are that result, and every page reports the same total.

* **`Query.IsResult`** — what the result of a query is, whichever way it is computed;
  **`Query.IsResult.unique`** — there is only one.
* **`Query.flatten_windows`** — windows of one size, side by side.
* **`Store.Paged`** — what is answered page by page; **`Store.fetch_pages`** — so it is by every
  store, whatever was stored in it.
-/

namespace ContentRepository

namespace Query

/-! ## The result -/

/-- The matching documents that are not passed over, each once, by the keys and then by their ids. -/
structure IsResult (q : Query) (shelf : Shelf) (ignored : List String) (result : List Document) :
    Prop where
  nodup : result.Nodup
  mem_iff : ∀ d, d ∈ result ↔
    ∃ id, shelf.get? id = some d ∧ id ∉ ignored ∧ q.predicate.holds d = true
  ordered : result.Pairwise q.order.Before

theorem IsResult.unique {q : Query} {shelf : Shelf} {ignored : List String}
    {result other : List Document} (h : q.IsResult shelf ignored result)
    (hother : q.IsResult shelf ignored other) : other = result := by
  have hperm : other.Perm result := (List.perm_ext_iff_of_nodup hother.nodup h.nodup).2 fun d =>
    (hother.mem_iff d).trans (h.mem_iff d).symm
  exact hperm.eq_of_pairwise (fun _ _ _ _ hab hba => absurd hba hab.asymm) hother.ordered h.ordered

/-- What is on a shelf stands there in ascending order of the ids. -/
theorem pairwise_visible {shelf : Shelf} (hkeyed : shelf.Keyed) (ignored : List String) :
    (shelf.visible ignored).Pairwise SortKeys.IdBefore := by
  rw [Shelf.visible, Table.values, List.pairwise_map]
  refine (Table.filter shelf _).ascending.imp_of_mem fun {a b} ha hb hlt => ?_
  have hid : ∀ e ∈ (Table.filter shelf fun id _ => !ignored.contains id).entries,
      e.2.id? = some e.1 := by
    intro e he
    have hentry : e ∈ shelf.entries := (List.mem_filter.1 he).1
    exact hkeyed e.1 e.2 (Table.mem_entries.1 hentry)
  exact ⟨a.1, b.1, hid a ha, hid b hb, hlt⟩

theorem isResult_results {shelf : Shelf} (hkeyed : shelf.Keyed) (q : Query)
    (ignored : List String) :
    q.IsResult shelf ignored (q.results (shelf.visible ignored)) := by
  have hids : ((shelf.visible ignored).filter (q.predicate.holds ·)).Pairwise SortKeys.IdBefore :=
    (pairwise_visible hkeyed ignored).filter _
  have hperm : (q.results (shelf.visible ignored)).Perm
      ((shelf.visible ignored).filter (q.predicate.holds ·)) := SortKeys.perm_sort
  refine ⟨?_, fun d => ?_, SortKeys.pairwise_sort hids⟩
  · -- ids ascend strictly, so no document stands twice among those that match
    refine hperm.nodup_iff.2 (hids.imp ?_)
    rintro a b ⟨i, j, hi, hj, hij⟩ rfl
    cases hi.symm.trans hj
    exact String.lt_irrefl _ hij
  · rw [hperm.mem_iff, List.mem_filter, Shelf.mem_visible]
    constructor
    · rintro ⟨⟨id, hignored, hd⟩, hholds⟩
      exact ⟨id, hd, hignored, hholds⟩
    · rintro ⟨id, hd, hignored, hholds⟩
      exact ⟨⟨id, hignored, hd⟩, hholds⟩

/-! ## Windows -/

theorem window_of_pos {α : Type} {limit : Nat} (hlimit : 0 < limit) (offset : Nat)
    (items : List α) : window limit offset items = (items.drop offset).take limit := by
  rw [window, if_neg (Nat.ne_of_gt hlimit)]

/-- **Windows side by side show what they cover.** Induction on their number. -/
theorem flatten_windows {α : Type} {limit : Nat} (hlimit : 0 < limit) (items : List α) (n : Nat) :
    ((List.range n).map fun i => window limit (i * limit) items).flatten =
      items.take (n * limit) := by
  induction n with
  | zero => simp
  | succ n ih =>
    rw [List.range_succ, List.map_append, List.flatten_append, ih, List.map_singleton,
      List.flatten_singleton, window_of_pos hlimit, Nat.succ_mul, List.take_add]

/-- There is a first window with nothing in it, and all before it together show everything. -/
theorem exists_windows {α : Type} {limit : Nat} (hlimit : 0 < limit) (items : List α) :
    ∃ n, (∀ i < n, window limit (i * limit) items ≠ []) ∧ window limit (n * limit) items = [] ∧
      ((List.range n).map fun i => window limit (i * limit) items).flatten = items := by
  have hempty : ∀ i, window limit (i * limit) items = [] ↔ items.length ≤ i * limit := by
    intro i
    rw [window_of_pos hlimit]
    simp [Nat.ne_of_gt hlimit]
  have hexists : ∃ n, items.length ≤ n * limit :=
    ⟨items.length, Nat.le_mul_of_pos_right _ hlimit⟩
  refine ⟨Nat.find hexists, fun i hi => ?_, ?_, ?_⟩
  · exact mt (hempty i).1 (Nat.find_min hexists hi)
  · exact (hempty _).2 (Nat.find_spec hexists)
  · rw [flatten_windows hlimit, List.take_of_length_le (Nat.find_spec hexists)]

theorem run_eq {q : Query} (hvalid : q.predicate.unorderable? = none) (candidates : List Document) :
    q.run candidates = .ok ⟨window q.limit q.offset (q.results candidates),
      q.counting.total (q.results candidates).length⟩ := by
  rw [run, hvalid]

end Query

/-! ## Stores -/

theorem Store.fetch_eq {store : Store} {shelf : Shelf} (hshelf : store.shelf? = some shelf)
    (q : Query) (hvalid : q.predicate.unorderable? = none) (ignored : List String) :
    store.fetch q ignored = .ok ⟨Query.window q.limit q.offset (q.results (shelf.visible ignored)),
      q.counting.total (q.results (shelf.visible ignored)).length⟩ := by
  rw [Store.fetch, shelf_eq hshelf]
  show shelf.fetch q ignored = _
  rw [Shelf.fetch, Query.run_eq hvalid]
  rfl

/-- What is answered to a query with any limit and offset, its result being `result` and the size of
that being reported as `total`. -/
structure Store.Paged (store : Store) (q : Query) (ignored : List String) (result : List Document)
    (total : Query.Total) : Prop where
  whole : store.fetch { q with limit := 0 } ignored = .ok ⟨result, total⟩
  /-- The pages up to the first empty one are the result piece by piece. -/
  tiled : ∀ limit, 0 < limit → ∃ pages : List (List Document), pages.flatten = result ∧ [] ∉ pages ∧
    (∀ i (h : i < pages.length),
      store.fetch { q with limit, offset := i * limit } ignored = .ok ⟨pages[i], total⟩) ∧
    store.fetch { q with limit, offset := pages.length * limit } ignored = .ok ⟨[], total⟩
  /-- Every page reports the same total. -/
  reported : ∀ limit offset, ∃ items,
    store.fetch { q with limit, offset } ignored = .ok ⟨items, total⟩
  exact : q.counting = .exact → total = .exact result.length
  skipped : q.counting = .skip → total.toInt = -1
  bounded : ∀ bound, q.counting = .upTo bound →
    if result.length ≤ bound then total = .exact result.length else total.toInt = -2

theorem Store.paged {store : Store} {shelf : Shelf} (hshelf : store.shelf? = some shelf) {q : Query}
    (hvalid : q.predicate.unorderable? = none) (ignored : List String) :
    store.Paged q ignored (q.results (shelf.visible ignored))
      (q.counting.total (q.results (shelf.visible ignored)).length) := by
  generalize hresult : q.results (shelf.visible ignored) = result
  have hfetch : ∀ limit offset, store.fetch { q with limit, offset } ignored =
      .ok ⟨Query.window limit offset result, q.counting.total result.length⟩ := by
    intro limit offset
    rw [Store.fetch_eq hshelf { q with limit, offset } hvalid ignored, ← hresult]
    rfl
  refine ⟨hfetch 0 q.offset, fun limit hlimit => ?_, fun limit offset => ⟨_, hfetch limit offset⟩,
    fun hcounting => ?_, fun hcounting => ?_, fun bound hcounting => ?_⟩
  · -- the windows of one size tile the result, and the next one is empty
    obtain ⟨n, hsome, hnone, htiled⟩ := Query.exists_windows hlimit result
    refine ⟨(List.range n).map fun i => Query.window limit (i * limit) result, htiled, ?_,
      fun i h => ?_, ?_⟩
    · intro hmem
      obtain ⟨i, hi, hpage⟩ := List.mem_map.1 hmem
      exact hsome i (List.mem_range.1 hi) hpage
    · rw [hfetch, List.getElem_map, List.getElem_range]
    · rw [hfetch, List.length_map, List.length_range, hnone]
  · -- the total depends on how far is counted
    rw [hcounting]
    rfl
  · rw [hcounting]
    rfl
  · rw [hcounting, Query.Counting.total]
    split
    · -- no more results than the bound are counted exactly
      next hle => rw [if_neg (Nat.not_lt.2 hle)]
    · next hgt =>
      rw [if_pos (Nat.not_le.1 hgt)]
      rfl

/-- **Pages tile the ordered result.** Let some calls be made of a new store, and a query be fetched
whose predicate can be evaluated.

* The keys of the query put all documents in a total preorder.
* The query has one result, which is answered without a limit, and with a limit page by page.
* Whatever the limit and the offset, the total is the same: the size of the result if it is counted
  exactly, minus one if it is not counted, and if it is counted up to a bound, the size unless it is
  beyond the bound, and minus two otherwise. -/
theorem Store.fetch_pages (provision : Provision) (calls : List Store.Call)
    (hcalls : .shutDown ∉ calls) (q : Query) (hvalid : q.predicate.unorderable? = none)
    (ignored : List String) :
    Std.TransCmp q.order.compare ∧
      ∃ shelf result total, ((Store.empty provision).performAll calls).shelf? = some shelf ∧
        q.IsResult shelf ignored result ∧
        (∀ other, q.IsResult shelf ignored other → other = result) ∧
        ((Store.empty provision).performAll calls).Paged q ignored result total := by
  have hempty : (Store.empty provision).shelf? = some Table.empty := rfl
  obtain ⟨shelf, hshelf, hkeyed⟩ :=
    Store.exists_keyed_performAll hcalls hempty fun _ _ h => nomatch h
  have hresult := Query.isResult_results hkeyed q ignored
  exact ⟨inferInstance, shelf, _, _, hshelf, hresult, fun _ => hresult.unique,
    Store.paged hshelf hvalid ignored⟩

/-- A store with three documents, one of which is passed over. -/
theorem Store.fetch_pages_of_three :
    let rated (id : String) (rating : Value) := (Document.withId id).set "rating" rating
    let calls : List Store.Call :=
      [.create (rated "b" (.long 3)), .create (rated "a" (.double .zero)), .create (.withId "c")]
    let q : Query :=
      { predicate := .isNotNull "rating", order := [⟨"rating", true⟩], counting := .upTo 1 }
    .shutDown ∉ calls ∧ q.predicate.unorderable? = none ∧
      ∃ result total, ((Store.empty .own).performAll calls).Paged q ["c"] result total := by
  intro rated calls q
  have hcalls : .shutDown ∉ calls := by simp [calls]
  have hvalid : q.predicate.unorderable? = none := rfl
  obtain ⟨-, shelf, result, total, -, -, -, hpaged⟩ :=
    Store.fetch_pages .own calls hcalls q hvalid ["c"]
  exact ⟨hcalls, hvalid, result, total, hpaged⟩

end ContentRepository
