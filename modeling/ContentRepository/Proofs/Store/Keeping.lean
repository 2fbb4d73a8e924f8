import ContentRepository.Proofs.Store.Provisions

/-!
# What a store keeps

A write names one id, that of the document it brings or the one it is addressed to, and what is
stored under other ids stays. A new document never takes the place of another, no other call adds
one, and a write that is refused leaves everything as it was, as does an edit that declines.

So every document stays under the id in its own id field, also where an edit tampers with that
field, and to pass over ids is to pass over the documents that have them.

* **`Store.Call.Effect`** — what a call may do to the documents; **`Store.effect_perform`** — that
  is all it does.
* **`Shelf.visible_eq`** — what is seen when ids are passed over.
* **`Store.perform_without`** — a call that passes over ids answers as if the documents that have
  them were not stored.
* **`Store.keeping_of_performAll`** — so it is after any calls.
-/

namespace ContentRepository

/-! ## Documents left out -/

namespace Shelf

variable {shelf : Shelf}

/-- The shelf less the documents that have one of these ids in their id field. -/
def without (shelf : Shelf) (ids : List String) : Shelf :=
  Table.filter shelf fun _ d => !d.id?.any (ids.contains ·)

/-- **To pass over ids is to leave out the documents that have them.** -/
theorem visible_eq (hkeyed : shelf.Keyed) (ids : List String) :
    shelf.visible ids = (shelf.without ids).values := by
  have hsame : Table.filter shelf (fun id _ => !ids.contains id) = shelf.without ids := by
    ext1 id
    rw [without, Table.get?_filter, Table.get?_filter]
    cases hd : shelf.get? id with
    | none => rfl
    | some d => simp [Option.filter, hkeyed id d hd]
  rw [visible, hsame]

theorem without_nil (shelf : Shelf) : shelf.without [] = shelf := by
  ext1 id
  rw [without, Table.get?_filter]
  cases hd : shelf.get? id with
  | none => rfl
  | some d => cases hid : d.id? <;> simp [Option.filter, hid]

theorem values_without (shelf : Shelf) (ids : List String) :
    (shelf.without ids).values =
      shelf.values.filter fun d => !d.id?.any (ids.contains ·) := by
  rw [without, Table.filter, Table.values, Table.values, List.filter_map]
  rfl

theorem Keyed.without (hkeyed : shelf.Keyed) (ids : List String) : (shelf.without ids).Keyed := by
  intro id d hd
  rw [Shelf.without, Table.get?_filter, Option.filter_eq_some_iff] at hd
  exact hkeyed id d hd.1

/-- With the documents left out, nothing need be passed over. -/
theorem visible_without (hkeyed : shelf.Keyed) (ids : List String) :
    (shelf.without ids).visible [] = shelf.visible ids := by
  rw [visible_eq (hkeyed.without ids), without_nil, visible_eq hkeyed]

end Shelf

namespace Store

/-! ## What a call does to the documents -/

/-- The documents of a store; none once it is shut down. -/
def stored (s : Store) : Shelf := s.shelf?.getD Table.empty

namespace Call

/-- Whether a call may touch what is stored under an id. -/
def Touches : Call → String → Prop
  | .create d, id | .update d, id => d.id? = some id
  | .edit named _, id | .delete named, id => id = named
  | .shutDown, _ => True
  | _, _ => False

/-- What a call that succeeds leaves under an id it touches, where it found this. -/
def leaves : Call → Option Document → Option Document
  | .create d, _ | .update d, _ => some d
  | .edit id change, found =>
    found.map fun d => (change d).elim d (·.set Field.id (.string id))
  | _, _ => none

/-- What a call may do to the documents of a store. -/
structure Effect (call : Call) (before : Shelf) (answer : Except StoreError Answer)
    (after : Shelf) : Prop where
  /-- A new document takes no other's place. -/
  kept : ∀ d, call = .create d → ∀ id e, before.get? id = some e → after.get? id = some e
  /-- No other call adds a document. -/
  added : (∀ d, call ≠ .create d) → ∀ id, before.get? id = none → after.get? id = none
  untouched : ∀ id, ¬ call.Touches id → after.get? id = before.get? id
  touched : answer.isOk = true →
    ∀ id, call.Touches id → after.get? id = call.leaves (before.get? id)
  refused : answer.isOk = false → after = before
  /-- An edit that declines, if there is anything to edit, changes nothing. -/
  declined : ∀ id change, call = .edit id change →
    (∀ d, before.get? id = some d → change d = none) → after = before

namespace Effect

variable {call : Call} {before after : Shelf} {answer : Except StoreError Answer} {id : String}

/-- A call may leave all as it is, if what it has done comes to that. -/
theorem unchanged (hsame : answer.isOk = true →
    ∀ id, call.Touches id → before.get? id = call.leaves (before.get? id)) :
    call.Effect before answer before where
  kept _ _ _ _ he := he
  added _ _ hnone := hnone
  untouched _ _ := rfl
  touched := hsame
  refused _ := rfl
  declined _ _ _ _ := rfl

theorem of_error (call : Call) (before : Shelf) (e : StoreError) :
    call.Effect before (.error e) before :=
  unchanged fun hok => by cases hok

/-- A call that touches no id leaves all as it is. -/
theorem of_reading (hcall : ∀ id, ¬ call.Touches id) : call.Effect before answer before :=
  unchanged fun _ id htouches => absurd htouches (hcall id)

/-- A write that succeeds does so under the one id it names. -/
theorem of_write (hnamed : ∀ other, call.Touches other ↔ other = id) (hok : answer.isOk = true)
    (hget : ∀ other, after.get? other =
      if other = id then call.leaves (before.get? id) else before.get? other)
    (hfree : ∀ d, call = .create d → before.get? id = none)
    (hthere : (∀ d, call ≠ .create d) → before.get? id ≠ none)
    (haccepts : ∀ id change, call = .edit id change →
      ∃ d, before.get? id = some d ∧ change d ≠ none) : call.Effect before answer after where
  kept d hcall other e he := by
    rw [hget, if_neg, he]
    rintro rfl
    rw [hfree d hcall] at he
    cases he
  added hcall other hnone := by
    rw [hget, if_neg, hnone]
    rintro rfl
    exact hthere hcall hnone
  untouched other hother := by
    rw [hget, if_neg (mt (hnamed other).2 hother)]
  touched _ other hother := by
    obtain rfl := (hnamed other).1 hother
    rw [hget, if_pos rfl]
  refused hfailed := by
    rw [hok] at hfailed
    cases hfailed
  declined other change hcall hdeclines := by
    obtain ⟨d, hd, hchange⟩ := haccepts other change hcall
    exact absurd (hdeclines d hd) hchange

end Effect

end Call

variable {s : Store} {shelf : Shelf}

theorem stored_eq (hshelf : s.shelf? = some shelf) : s.stored = shelf := by
  rw [stored, hshelf]
  rfl

theorem stored_withShelf (s : Store) (shelf : Shelf) : (s.withShelf shelf).stored = shelf := rfl

/-- A write that fails leaves the store alone, so only what one that succeeds does is of interest. -/
theorem effect_of_writing {α : Type} {call : Call} {answer : α → Answer}
    {result : Except StoreError (α × Store)} (hperform : s.perform call = s.writing answer result)
    (hdone : ∀ a t, result = .ok (a, t) → call.Effect s.stored (.ok (answer a)) t.stored) :
    call.Effect s.stored (s.perform call).1 (s.perform call).2.stored := by
  rw [hperform]
  match result with
  | .ok (a, t) => exact hdone a t rfl
  | .error e => exact .of_error call s.stored e

theorem effect_of_filing {call : Call} {result : Except StoreError Store}
    (hperform : s.perform call = s.writing (fun () => .done) (result.map ((), ·)))
    (hdone : ∀ t, result = .ok t → call.Effect s.stored (.ok .done) t.stored) :
    call.Effect s.stored (s.perform call).1 (s.perform call).2.stored := by
  refine effect_of_writing hperform fun _ t hresult => ?_
  cases result with
  | error e => cases hresult
  | ok _ =>
    cases hresult
    exact hdone t rfl

theorem effect_create (s : Store) (d : Document) :
    (Call.create d).Effect s.stored (s.perform (.create d)).1 (s.perform (.create d)).2.stored := by
  refine effect_of_filing rfl fun t hcreate => ?_
  obtain ⟨id, shelf, hid, hshelf, hfree, rfl⟩ := create_eq_ok_iff.1 hcreate
  rw [stored_eq hshelf, stored_withShelf]
  refine .of_write (fun other => ?_) rfl (fun other => Table.get?_insert ..)
    (fun _ _ => hfree) (fun hother => absurd rfl (hother d)) (fun _ _ hedit => by cases hedit)
  rw [Call.Touches, hid, Option.some.injEq, eq_comm]

theorem effect_update (s : Store) (d : Document) :
    (Call.update d).Effect s.stored (s.perform (.update d)).1 (s.perform (.update d)).2.stored := by
  refine effect_of_filing rfl fun t hupdate => ?_
  obtain ⟨id, shelf, hid, hshelf, hthere, rfl⟩ := update_eq_ok_iff.1 hupdate
  rw [stored_eq hshelf, stored_withShelf]
  refine .of_write (fun other => ?_) rfl (fun other => Table.get?_insert ..)
    (fun _ hcreate => by cases hcreate) (fun _ => Option.isSome_iff_ne_none.1 hthere)
    (fun _ _ hedit => by cases hedit)
  rw [Call.Touches, hid, Option.some.injEq, eq_comm]

theorem effect_delete (s : Store) (id : String) :
    (Call.delete id).Effect s.stored (s.perform (.delete id)).1
      (s.perform (.delete id)).2.stored := by
  refine effect_of_filing rfl fun t hdelete => ?_
  obtain ⟨shelf, hshelf, hthere, rfl⟩ := delete_eq_ok_iff.1 hdelete
  rw [stored_eq hshelf, stored_withShelf]
  exact .of_write (fun _ => Iff.rfl) rfl (fun other => Table.get?_erase ..)
    (fun _ hcreate => by cases hcreate) (fun _ => Option.isSome_iff_ne_none.1 hthere)
    (fun _ _ hedit => by cases hedit)

theorem effect_edit (s : Store) (id : String) (change : Document → Option Document) :
    (Call.edit id change).Effect s.stored (s.perform (.edit id change)).1
      (s.perform (.edit id change)).2.stored := by
  refine effect_of_writing rfl fun edited t hedit => ?_
  cases hshelf : s.shelf? with
  -- a store that is shut down refuses
  | none => cases (edit_of_shutDown hshelf id change).symm.trans hedit
  | some shelf =>
    rw [edit_eq hshelf] at hedit
    rw [stored_eq hshelf]
    cases hd : shelf.get? id with
    -- no document, no edit
    | none => simp [hd] at hedit
    | some d =>
      -- there is a document to edit, and the edit decides whether it is replaced
      cases hchange : change d with
      | none =>
        obtain ⟨-, rfl⟩ : false = edited ∧ s = t := by simpa [hd, hchange] using hedit
        rw [stored_eq hshelf]
        -- declined: everything is left
        refine .unchanged fun _ other hother => ?_
        obtain rfl : other = id := hother
        simp [Call.leaves, hd, hchange]
      | some e =>
        obtain ⟨-, rfl⟩ : true = edited ∧
            s.withShelf (Table.insert shelf id (e.set Field.id (.string id))) = t := by
          simpa [hd, hchange] using hedit
        rw [stored_withShelf]
        refine .of_write (fun _ => Iff.rfl) rfl (fun other => ?_)
          (fun _ hcreate => by cases hcreate) (fun _ => by simp [hd]) ?_
        · -- what is put back has the id it was found under
          rw [Table.get?_insert]
          simp [Call.leaves, hd, hchange]
        · -- a document was there for it
          rintro _ _ hedits
          cases hedits
          exact ⟨d, hd, by simp [hchange]⟩

/-- **No call does anything else to the documents.** -/
theorem effect_perform (s : Store) (call : Call) :
    call.Effect s.stored (s.perform call).1 (s.perform call).2.stored := by
  cases call with
  | create d => exact effect_create s d
  | update d => exact effect_update s d
  | edit id change => exact effect_edit s id change
  | delete id => exact effect_delete s id
  | shutDown =>
    exact {
      kept := fun _ hcreate => by cases hcreate
      added := fun _ _ _ => rfl
      untouched := fun _ huntouched => absurd trivial huntouched
      touched := fun _ _ _ => rfl
      refused := fun hfailed => by cases hfailed
      declined := fun _ _ hedit => by cases hedit }
  | _ => exact .of_reading fun _ => id

/-! ## Passing over ids -/

/-- The store less the documents that have one of these ids in their id field. -/
def without (s : Store) (ids : List String) : Store :=
  { s with shelf? := s.shelf?.map (·.without ids) }

/-- The ids a call passes over. -/
def Call.passedOver : Call → List String
  | .child _ _ ignored | .hasChild _ _ ignored | .having _ _ ignored | .anyHaving _ _ ignored
  | .listing _ _ ignored _ _ | .fetch _ ignored => ignored
  | _ => []

/-- The same call, passing over nothing. -/
def Call.overAll : Call → Call
  | .child parent name _ => .child parent name []
  | .hasChild parent name _ => .hasChild parent name []
  | .having key value _ => .having key value []
  | .anyHaving key value _ => .anyHaving key value []
  | .listing key item _ wantTargets wantProxies => .listing key item [] wantTargets wantProxies
  | .fetch query _ => .fetch query []
  | call => call

/-- The documents a call sees that passes over these ids. -/
def seen (s : Store) (ids : List String) : Except StoreError (List Document) :=
  s.shelf.map (·.visible ids)

theorem seen_without (hkeyed : s.stored.Keyed) (ids : List String) :
    (s.without ids).seen [] = s.seen ids := by
  cases hshelf : s.shelf? with
  | none => simp [seen, without, Store.shelf, hshelf, Except.map]
  | some shelf =>
    rw [stored_eq hshelf] at hkeyed
    simp [seen, without, Store.shelf, hshelf, Except.map, Shelf.visible_without hkeyed]

theorem child?_eq_map (s : Store) (parent name : String) (ids : List String) :
    s.child? parent name ids =
      (s.seen ids).map (·.find? fun d => d.parent? == some parent && d.name? == some name) := by
  rw [child?, seen]
  cases s.shelf <;> rfl

theorem having_eq_map (s : Store) (key : String) (value : Value) (ids : List String) :
    s.having key value ids = (s.seen ids).map (·.filter (·.holds key value)) := by
  rw [having, seen]
  cases s.shelf <;> rfl

theorem anyHaving_eq_having (s : Store) (key : String) (value : Value) (ids : List String) :
    s.anyHaving key value ids = (s.having key value ids).map fun found => !found.isEmpty := by
  rw [anyHaving_eq_map, having]
  cases s.shelf <;> rfl

theorem listing_eq_map (s : Store) (key : String) (item : Value) (ids : List String)
    (wantTargets wantProxies : Bool) :
    s.listing key item ids wantTargets wantProxies =
      (s.seen ids).map fun seen =>
        (seen.filter (·.listed key item)).foldl (Listing.add wantTargets wantProxies)
          Listing.empty := by
  rw [listing, seen]
  cases s.shelf <;> rfl

theorem fetch_eq_bind (s : Store) (query : Query) (ids : List String) :
    s.fetch query ids = (s.seen ids).bind fun seen => (query.run seen).mapError .ofFault := by
  rw [fetch, seen]
  cases s.shelf <;> rfl

theorem without_nil (s : Store) : s.without [] = s := by
  obtain ⟨shelf?, provision⟩ := s
  cases shelf? with
  | none => rfl
  | some shelf => rw [without, Option.map_some, Shelf.without_nil]

/-- **A call that passes over ids answers as if the documents that have them were not stored.** -/
theorem perform_without (hkeyed : s.stored.Keyed) (call : Call) :
    ((s.without call.passedOver).perform call.overAll).1 = (s.perform call).1 := by
  have hseen := seen_without hkeyed
  cases call with
  | child parent name ids =>
    simp only [perform, reading, Call.passedOver, Call.overAll, child?_eq_map, hseen]
  | hasChild parent name ids =>
    simp only [perform, reading, Call.passedOver, Call.overAll, hasChild, child?_eq_map, hseen]
  | having key value ids =>
    simp only [perform, reading, Call.passedOver, Call.overAll, having_eq_map, hseen]
  | anyHaving key value ids =>
    simp only [perform, reading, Call.passedOver, Call.overAll, anyHaving_eq_having, having_eq_map,
      hseen]
  | listing key item ids wantTargets wantProxies =>
    simp only [perform, reading, Call.passedOver, Call.overAll, listing_eq_map, hseen]
  | fetch query ids =>
    simp only [perform, reading, Call.passedOver, Call.overAll, fetch_eq_bind, hseen]
  -- the other calls pass over nothing
  | _ => exact congrArg (fun t : Store => (t.perform _).1) (without_nil s)

/-! ## Any calls -/

theorem keyed_stored_performAll (provision : Provision) (calls : List Call) :
    ((Store.empty provision).performAll calls).stored.Keyed := by
  have hempty : Shelf.Keyed Table.empty := fun _ _ hd => by cases hd
  by_cases hdown : .shutDown ∈ calls
  · -- nothing is stored from the shutdown on
    have hnone := (shelf?_performAll_eq_none_iff (.empty provision) calls).2 (.inr hdown)
    rw [stored, hnone]
    exact hempty
  · have hnew : (Store.empty provision).shelf? = some Table.empty := rfl
    obtain ⟨shelf, hshelf, hkeyed⟩ := exists_keyed_performAll hdown hnew hempty
    rw [stored_eq hshelf]
    exact hkeyed

/-- **What a store keeps through any calls.** After any calls of a new store every document is under
the id in its own id field. The next call does nothing to the documents but what is allowed to it: a
new document takes no other's place, no other call adds one, a write touches only what is under the
id it names and leaves there what it should, and nothing changes if a call is refused or an edit
declines. To pass over ids is to pass over the documents that have them, so a call that does answers
as if these documents were not stored. -/
theorem keeping_of_performAll (provision : Provision) (calls : List Call) :
    let s := (Store.empty provision).performAll calls
    s.stored.Keyed ∧
      (∀ call : Call, call.Effect s.stored (s.perform call).1 (s.perform call).2.stored) ∧
      (∀ ids : List String, s.stored.visible ids =
        s.stored.values.filter fun d => !d.id?.any (ids.contains ·)) ∧
      ∀ call : Call,
        (s.perform call).1 = ((s.without call.passedOver).perform call.overAll).1 := by
  intro s
  have hkeyed : s.stored.Keyed := keyed_stored_performAll provision calls
  refine ⟨hkeyed, effect_perform s, fun ids => ?_, fun call => (perform_without hkeyed call).symm⟩
  rw [Shelf.visible_eq hkeyed, Shelf.values_without]

/-- An edit that gives the document another id leaves it where it was. -/
example :
    let s := (Store.empty .own).performAll [.create (.withId "a"),
      .edit "a" fun d => some (d.set Field.id (.string "b"))]
    s.stored.keys = ["a"] ∧ (s.stored.get? "a").bind (·.id?) = some "a" := by decide

end Store

end ContentRepository
