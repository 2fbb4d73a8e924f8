import ContentRepository.Proofs.Fulltext.Marking
import ContentRepository.Proofs.Session.Planned
import ContentRepository.Proofs.Session.Planning
import ContentRepository.Proofs.Session.Revising
import ContentRepository.Proofs.Tree.Copying

/-!
# Every plan marks what it writes

Each operation of a session makes a tidy plan, on any site and for any arguments. Nothing is assumed
of the documents but that each is filed under its own id; in particular they need not form a tree.

* **`Site.tidy_planAdd`** … **`Site.tidy_planCopy`** — one theorem for each kind of plan.
* **`Site.tidy_of_plans`** — the plan of any call.
* **`Workspace.tidied_perform`** — a call other than a commit leaves a workspace as it is, or
  carries out a tidy plan.
* **`Workspace.Tidied.exists_accounts`** — so it accounts for every document.
-/

namespace ContentRepository

namespace Site

variable {site : Site} {shelf : Shelf} {plan : Plan} {id answer : String}

/-! ## One document -/

theorem tidy_planAdd (hstored : site.store.shelf? = some shelf) {parent name type : String}
    (hplan : site.planAdd parent name type = .ok (plan, answer)) : shelf.Tidy [] plan.writes := by
  obtain ⟨d, -, -, -, -, rfl⟩ := planAdd_eq_ok hstored hplan
  refine .marks_id (.create _) ?_ .nil
  simp +decide [Document.id?, Document.string?_eq_some_iff, Document.newChild, Document.withId,
    Document.setAll, Document.get?_set]

theorem tidy_planProxy (hstored : site.store.shelf? = some shelf) {target parent name : String}
    (hplan : site.planProxy target parent name = .ok (plan, answer)) :
    shelf.Tidy [] plan.writes := by
  obtain ⟨d, dp, hd, -, -, -, -, -, rfl⟩ := planProxy_eq_ok hstored hplan
  refine .spares (.create _) (.inl ?_) (.spares (.update _) ?_ .nil)
  case refine_2 => exact Shelf.spares_of_sameText hd (Document.sameText_relinked d _ _)
  rw [proxyOf]
  cases d.type? <;>
    simp +decide [Document.isProxy, Document.flag_iff, Document.newChild, Document.withId,
      Document.setAll, Document.get?_set]

/-- A check-in marks the version. The document itself only takes note of it. -/
theorem tidy_planCheckIn (hstored : site.store.shelf? = some shelf) {increment : Increment}
    (hplan : site.planCheckIn id increment = .ok (plan, answer)) : shelf.Tidy [] plan.writes := by
  obtain ⟨d, folder, hchecks, -, rfl⟩ := planCheckIn_eq_ok hstored hplan
  refine .marks_id (.create _) ?_ (.spares (.update _)
    (Shelf.spares_of_sameText hchecks.document (Document.sameText_setAll ?_ d)) .nil)
  · simp +decide [Document.id?, Document.string?_eq_some_iff, nextVersion, versionOf, Document.setAll,
      VersionNumber.fields, Document.get?_set]
  · simp +decide [VersionNumber.fields]

theorem tidy_planCheckOut (hstored : site.store.shelf? = some shelf)
    (hplan : site.planCheckOut id = .ok plan) : shelf.Tidy [] plan.writes := by
  obtain ⟨d, hd, -, rfl⟩ := planCheckOut_eq_ok hstored hplan
  exact .spares (.update _) (Shelf.spares_of_sameText hd (Document.sameText_unset (by decide) d))
    .nil

theorem tidy_planPolicy (hstored : site.store.shelf? = some shelf) {policy : Policy}
    {overwrite : Bool} (hplan : site.planPolicy id policy overwrite = .ok plan) :
    shelf.Tidy [] plan.writes := by
  obtain ⟨d, merged, hd, rfl⟩ := planPolicy_eq_ok hstored hplan
  refine .spares (.update _) (Shelf.spares_of_sameText hd ?_) .nil
  rw [Document.withPolicy]
  split
  · exact Document.sameText_unset (by decide) d
  · exact Document.sameText_set (by decide) d _

/-! ## Many documents -/

theorem tidy_planRemove (hstored : site.store.shelf? = some shelf)
    (hplan : site.planRemove id = .ok plan) : shelf.Tidy [] plan.writes := by
  simp only [planRemove, bind_eq_ok_iff] at hplan
  obtain ⟨removal, -, updates, hupdates, heq⟩ := hplan
  cases heq
  refine .updates (fun u hu => ?_) (.deletions [] _)
  obtain ⟨link, -, hlook⟩ := Shelf.exists_of_collect hupdates u hu
  simp only [find?_eq hstored] at hlook
  obtain ⟨d, hd, rfl⟩ := Option.map_eq_some_iff.1 (Except.ok.inj hlook)
  exact ⟨_, rfl, Shelf.spares_of_sameText hd (Document.sameText_relinked d _ _)⟩

/-- A move does not touch what is indexed, of the document and of those below it. -/
theorem tidy_planMove (hstored : site.store.shelf? = some shelf) {dest : String}
    {name? : Option String} (hplan : site.planMove id dest name? = .ok (plan, answer)) :
    shelf.Tidy [] plan.writes := by
  simp only [planMove, bind_eq_ok_iff, require_eq_ok_iff hstored] at hplan
  obtain ⟨d, hd, hplan⟩ := hplan
  split at hplan
  · cases hplan
  simp only [bind_eq_ok_iff] at hplan
  obtain ⟨destination, -, -, -, -, -, hplan⟩ := hplan
  split at hplan
  · -- it is there already
    cases hplan
    exact .nil
  -- whichever way the name turned out to be free, the same is written
  obtain ⟨front, updates, hupdates, hwrites⟩ : ∃ front updates,
      site.rebasings id front = .ok updates ∧ plan.writes =
        .update (relocated d destination dest ((name?.or d.name?).getD "")) :: updates := by
    obtain ⟨present?, -, hplan⟩ := bind_eq_ok_iff.1 hplan
    split at hplan
    · split at hplan
      · cases hplan
      · obtain ⟨updates, hupdates, heq⟩ := bind_eq_ok_iff.1 hplan
        cases heq
        exact ⟨_, updates, hupdates, rfl⟩
    · obtain ⟨updates, hupdates, heq⟩ := bind_eq_ok_iff.1 hplan
      cases heq
      exact ⟨_, updates, hupdates, rfl⟩
  rw [hwrites]
  refine .spares (.update _)
    (Shelf.spares_of_sameText hd (Document.sameText_setAll (by simp +decide) d)) ?_
  rw [rebasings, below_eq hstored] at hupdates
  refine .of_updates fun u hu => ?_
  obtain ⟨k, -, hlook⟩ := Shelf.exists_of_collect hupdates u hu
  rw [find?_eq hstored] at hlook
  obtain ⟨e, he, rfl⟩ := Option.map_eq_some_iff.1 (Except.ok.inj hlook)
  exact ⟨_, rfl, Shelf.spares_of_sameText he (Document.sameText_set (by decide) e _)⟩

/-- A copy marks every copied document. Targets that get new proxies are either copies themselves,
or keep their texts. -/
theorem tidy_planCopy (hstored : site.store.shelf? = some shelf) {dest : String}
    {name? : Option String} (hplan : site.planCopy id dest name? = .ok (plan, answer)) :
    shelf.Tidy [] plan.writes := by
  simp only [planCopy, bind_eq_ok_iff, require_eq_ok_iff hstored] at hplan
  obtain ⟨d, hd, hplan⟩ := hplan
  split at hplan
  · -- versions are not copied
    cases hplan
  simp only [bind_eq_ok_iff] at hplan
  obtain ⟨destination, -, -, -, -, -, -, -, sources, -, updates, hupdates, heq⟩ := hplan
  cases heq
  refine .creations ?marked (.of_updates fun u hu => ?spared)
  case marked =>
    intro copy hcopy
    -- each new document is marked under its own id, be it the top or below
    obtain ⟨source, -, rfl⟩ := List.mem_map.1 hcopy
    rw [Document.id?, Document.string?, get?_copyOf (by decide), if_neg (by decide)]
    split
    · rw [get?_id_copiedTop]
      rfl
    · rw [get?_id_copiedBelow]
      rfl
  case spared =>
    obtain ⟨link, -, hlook⟩ := Shelf.exists_of_collect hupdates u hu
    simp only at hlook
    split at hlook
    · -- a relinked copy is one of those that are marked
      next copy hfind =>
      cases hlook
      have hid : copy.id? = some link.1 := by simpa using List.find?_some hfind
      refine ⟨_, rfl, .inr (.inl ⟨link.1, ?_, (Document.sameText_relinked copy _ _).id?.trans hid⟩)⟩
      rw [List.append_nil, List.mem_reverse]
      exact List.mem_filterMap.2 ⟨copy, List.mem_of_find?_eq_some hfind, hid⟩
    · -- any other target was there before, and relinking does not touch its text
      rw [find?_eq hstored] at hlook
      obtain ⟨e, he, rfl⟩ := Option.map_eq_some_iff.1 (Except.ok.inj hlook)
      exact ⟨_, rfl, Shelf.spares_of_sameText he (Document.sameText_relinked e _ _)⟩

/-! ## Calls -/

/-- A document that a caller writes is marked, if it has an id to be marked under. -/
theorem tidy_ofWrite {first : Write} {d : Document} (hfirst : first.Files d) :
    shelf.Tidy [] (Plan.ofWrite first d).writes := by
  have htidy : shelf.Tidy [] (first :: (d.id?.toList.map .mark ++ [])) := .marks hfirst .nil
  rwa [List.append_nil] at htidy

/-- **Every call makes a tidy plan.** -/
theorem tidy_of_plans (hstored : site.store.shelf? = some shelf) {call : Session.Call}
    (hplans : site.Plans plan call) : shelf.Tidy [] plan.writes := by
  cases call with
  | create d =>
    -- raw writes mark the document that they write
    cases hplans
    exact tidy_ofWrite (.create d)
  | update d =>
    cases hplans
    exact tidy_ofWrite (.update d)
  | revise id fields cleared =>
    obtain ⟨d, -, rfl⟩ := hplans
    exact tidy_ofWrite (.update _)
  | delete id =>
    cases hplans
    -- what is deleted has no text any more
    exact .deletions [] [id]
  | addChild =>
    -- the others have a plan each
    obtain ⟨answer, hplan⟩ := hplans
    exact tidy_planAdd hstored hplan
  | addProxy =>
    obtain ⟨answer, hplan⟩ := hplans
    exact tidy_planProxy hstored hplan
  | checkIn =>
    obtain ⟨answer, hplan⟩ := hplans
    exact tidy_planCheckIn hstored hplan
  | checkOut => exact tidy_planCheckOut hstored hplans
  | setPolicy => exact tidy_planPolicy hstored hplans
  | remove => exact tidy_planRemove hstored hplans.2
  | move =>
    obtain ⟨-, answer, hplan⟩ := hplans
    exact tidy_planMove hstored hplan
  | copy =>
    obtain ⟨-, answer, hplan⟩ := hplans
    exact tidy_planCopy hstored hplan
  -- calls that only read have no plan, and commits neither
  | _ => exact hplans.elim

end Site

namespace Workspace

variable {w : Workspace} {shelf : Shelf}

/-- The workspace is left as it is, or a tidy plan is carried out in it. -/
def Tidied (w : Workspace) (shelf : Shelf) (after : Workspace) : Prop :=
  after = w ∨
    (w.session.live = true ∧ ∃ plan, shelf.Tidy [] plan.writes ∧ after = (w.execute plan).2)

/-- **A call other than a commit leaves a workspace as it is, or carries out a tidy plan.** -/
theorem tidied_perform (hstored : w.site.store.shelf? = some shelf) {call : Session.Call}
    (hcall : call ≠ .commit) : w.Tidied shelf (w.perform call).2 := by
  obtain hsame | ⟨hlive, plan, hplans, hexecute⟩ := perform_cases hcall
  · exact .inl hsame
  · exact .inr ⟨hlive, plan, Site.tidy_of_plans hstored hplans, hexecute⟩

namespace Tidied

variable {after : Workspace}

/-- **So every call but a commit accounts for every document.** -/
theorem exists_accounts (h : w.Tidied shelf after) (hstored : w.site.store.shelf? = some shelf)
    (hkeyed : shelf.Keyed) :
    ∃ u, after.site.store.shelf? = some u ∧ u.Keyed ∧
      shelf.Accounts w.session.pending u after.session.pending := by
  obtain rfl | ⟨-, plan, htidy, rfl⟩ := h
  · exact ⟨shelf, hstored, hkeyed, .refl shelf _⟩
  · exact exists_accounts_execute htidy hstored hkeyed

/-- The queue is none of its business. -/
theorem exists_site (h : w.Tidied shelf after) :
    ∃ store ids clock, after.site = { w.site with store, ids, clock } := by
  obtain rfl | ⟨-, plan, -, rfl⟩ := h
  · exact ⟨_, _, _, rfl⟩
  · exact exists_site_execute w plan

/-- A closed session does nothing. -/
theorem eq_of_closed (h : w.Tidied shelf after) (hclosed : w.session.live = false) : after = w := by
  obtain heq | ⟨hlive, -⟩ := h
  · exact heq
  · rw [hclosed] at hlive
    cases hlive

end Tidied

/-! ## What is marked -/

/-- A document that is replaced is pending then. -/
theorem mem_pending_of_update {d : Document} {id : String} {after : Workspace}
    (hupdate : w.update d = (.ok (), after)) (hid : d.id? = some id) :
    id ∈ after.session.pending.keys := by
  rw [update] at hupdate
  cases hsite : w.liveSite with
  | error e =>
    rw [hsite] at hupdate
    cases hupdate
  | ok site =>
    rw [hsite] at hupdate
    have hexecute : w.execute { writes := .update d :: d.id?.toList.map .mark } = (.ok (), after) :=
      hupdate
    rw [execute, hid, writeAll] at hexecute
    split at hexecute
    · cases hexecute
      exact TextSet.mem_keys_add.2 (.inl rfl)
    · cases hexecute

end Workspace

end ContentRepository
