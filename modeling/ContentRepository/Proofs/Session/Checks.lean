import ContentRepository.Proofs.Store.Reading
import ContentRepository.Store.Lemmas

/-!
# What plans find and check

A plan is made by looking documents up and by passing checks. On a site whose store is not shut
down each of them is settled by the shelf alone.

* **`Site.require_eq_ok_iff`**, **`Site.requireContainer_eq_ok_iff`**,
  **`Site.requireFreeName_eq_ok_iff`**, **`Site.requireOrdinary_eq_ok_iff`** and
  **`Site.requireElsewhere_eq_ok_iff`** — when a check is passed.
* **`Workspace.of_liveSite_bind`**, **`Workspace.of_requireOrdinary_bind`** and
  **`Workspace.requireOrdinary_bind_eq`** — what a session must be like for a plan to be made.
* **`Workspace.ask_eq_ok`** and **`Workspace.require_eq_ok`** — what a live session reads.
-/

namespace ContentRepository

namespace Site

variable {site : Site} {shelf : Shelf}

theorem find?_eq (hstore : site.store.shelf? = some shelf) (id : String) :
    (site.store.find? id).mapError Error.store = .ok (shelf.get? id) := by
  rw [Store.find?_eq hstore]
  rfl

/-- A document that must be there is found exactly if it is. -/
theorem require_eq_ok_iff (hstore : site.store.shelf? = some shelf) {id : String} {d : Document} :
    site.require id = .ok d ↔ shelf.get? id = some d := by
  rw [require, find?_eq hstore]
  cases hd : shelf.get? id <;> simp [bind, Except.bind, pure, Except.pure]

theorem below_eq (hstore : site.store.shelf? = some shelf) (id : String) (withProxies : Bool) :
    site.below id withProxies =
      .ok (shelf.listing Field.ancestors (.reference id) [] withProxies withProxies) := by
  rw [below, Store.listing_eq hstore]
  rfl

/-- Containers are the documents that are neither proxies nor versions, except for the folder of
versions. -/
theorem requireContainer_eq_ok_iff {parent : Document} {u : Unit} :
    site.requireContainer parent = .ok u ↔
      parent.isProxy = false ∧ parent.isVersion = false ∧ parent.id? ≠ some site.versions := by
  rw [requireContainer]
  cases parent.isProxy <;> cases parent.isVersion <;>
    simp [pure, Except.pure]

theorem requireFreeName_eq_ok_iff (hstore : site.store.shelf? = some shelf) {parent name : String}
    {u : Unit} :
    site.requireFreeName parent name = .ok u ↔ shelf.child? parent name [] = none := by
  rw [requireFreeName, Store.hasChild_eq hstore]
  cases shelf.child? parent name [] <;> simp [bind, Except.bind, pure, Except.pure, Except.mapError]

theorem requireOrdinary_eq_ok_iff {id action : String} {u : Unit} :
    site.requireOrdinary id action = .ok u ↔ id ≠ site.root ∧ id ≠ site.versions := by
  rw [requireOrdinary]
  split
  · next h => simp [← not_or, h]
  · next h => simpa [pure, Except.pure, not_or] using h

theorem requireElsewhere_eq_ok_iff {id destId action : String} {dest : Document} {u : Unit} :
    requireElsewhere id destId action dest = .ok u ↔ destId ≠ id ∧ id ∉ dest.ancestors := by
  rw [requireElsewhere]
  split
  · next h => simp [← not_or, h]
  · next h => simpa [pure, Except.pure, not_or] using h

end Site

namespace Workspace

variable {w : Workspace} {α : Type} {f : Site → Except Error α} {a : α}

/-- A session can be worked in as long as it is live. -/
theorem liveSite_eq_ok_iff {site : Site} :
    w.liveSite = .ok site ↔ w.session.live = true ∧ site = w.site := by
  rw [liveSite]
  cases w.session.live <;> simp [eq_comm]

/-- What is planned for a session is planned on its own site. -/
theorem of_liveSite_bind (h : (w.liveSite >>= f) = .ok a) :
    w.session.live = true ∧ f w.site = .ok a := by
  obtain ⟨site, hsite, hf⟩ := bind_eq_ok_iff.1 h
  obtain ⟨hlive, rfl⟩ := liveSite_eq_ok_iff.1 hsite
  exact ⟨hlive, hf⟩

theorem of_requireOrdinary_bind {id action : String}
    (h : (do
      w.site.requireOrdinary id action
      f (← w.liveSite)) = .ok a) :
    (id ≠ w.site.root ∧ id ≠ w.site.versions) ∧ w.session.live = true ∧ f w.site = .ok a := by
  obtain ⟨u, hu, hf⟩ := bind_eq_ok_iff.1 h
  exact ⟨Site.requireOrdinary_eq_ok_iff.1 hu, of_liveSite_bind hf⟩

/-- An operation that succeeds had a plan, for a document that is not one of the folders. -/
theorem exists_plan_of_produce {id action : String} {plan? : Site → Except Error (Plan × String)}
    {d : Document} {after : Workspace}
    (h : w.produce (do
      w.site.requireOrdinary id action
      plan? (← w.liveSite)) = (.ok d, after)) :
    (id ≠ w.site.root ∧ id ≠ w.site.versions) ∧ w.session.live = true ∧ ∃ plan answer,
      plan? w.site = .ok (plan, answer) ∧ w.produce (.ok (plan, answer)) = (.ok d, after) := by
  cases hplan : (do
      w.site.requireOrdinary id action
      plan? (← w.liveSite)) with
  | error e =>
    rw [hplan] at h
    cases h
  | ok planned =>
    obtain ⟨hid, hlive, hplan'⟩ := of_requireOrdinary_bind hplan
    rw [hplan] at h
    exact ⟨hid, hlive, planned.1, planned.2, hplan', h⟩

theorem requireOrdinary_bind_eq (hlive : w.session.live = true) {id action : String}
    (hid : id ≠ w.site.root ∧ id ≠ w.site.versions) :
    (do
      w.site.requireOrdinary id action
      f (← w.liveSite)) = f w.site := by
  rw [Site.requireOrdinary_eq_ok_iff (u := ()) |>.2 hid, liveSite_eq_ok_iff.2 ⟨hlive, rfl⟩]
  rfl

/-- A live session gets what its store answers. -/
theorem ask_eq_ok {call : Store → Except StoreError α} (hlive : w.session.live = true)
    (hcall : call w.site.store = .ok a) : w.ask call = .ok a := by
  refine bind_eq_ok_iff.2 ⟨w.site, liveSite_eq_ok_iff.2 ⟨hlive, rfl⟩, ?_⟩
  rw [hcall]
  rfl

/-- A live session finds a document that is there. -/
theorem require_eq_ok {shelf : Shelf} {id : String} {d : Document} (hlive : w.session.live = true)
    (hstored : w.site.store.shelf? = some shelf) (hd : shelf.get? id = some d) :
    w.require id = .ok d :=
  bind_eq_ok_iff.2 ⟨w.site, liveSite_eq_ok_iff.2 ⟨hlive, rfl⟩,
    (Site.require_eq_ok_iff hstored).2 hd⟩

end Workspace

end ContentRepository
