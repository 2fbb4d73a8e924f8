import ContentRepository.Proofs.Session.Checks
import ContentRepository.Session.Access
import ContentRepository.Session.Proxy
import ContentRepository.Session.Version

/-!
# What plans for single documents write

Five operations write one new document, or change one that is there, or both. If such a plan is
made, this module says what was found and what is going to be written.

* **`Site.planAdd_eq_ok`**, **`Site.planProxy_eq_ok`** and **`Site.planCheckIn_eq_ok`** — a new
  document.
* **`Site.planCheckOut_eq_ok`** and **`Site.planPolicy_eq_ok`** — a change.
-/

namespace ContentRepository.Site

variable {site : Site} {shelf : Shelf} {plan : Plan} {id answer : String}

/-- The proxy of a document that is to be put under a parent. -/
def proxyOf (id targetId parentId name : String) (target parent : Document) : Document :=
  (Document.newChild id parent parentId name).setAll <|
    [(Field.isProxy, .boolean true), (Field.target, .reference targetId)] ++
    target.type?.toList.map fun type => (Field.type, .string type)

/-- A document can be checked in: it is neither a proxy nor a version nor checked in already, and
there is a folder for its version. -/
structure ChecksIn (site : Site) (shelf : Shelf) (id : String) (d folder : Document) : Prop where
  document : shelf.get? id = some d
  proxy : d.isProxy = false
  version : d.isVersion = false
  free : d.isCheckedIn = false
  folder : shelf.get? site.versions = some folder

/-- The version that is made of a document that can be checked in. -/
def nextVersion (site : Site) (d folder : Document) (id : String) (increment : Increment) :
    Document :=
  site.versionOf folder d id (site.ids.peek 0) (d.versionNumber.next increment)

/-- The document after the check-in. -/
def nextLive (site : Site) (d : Document) (increment : Increment) : Document :=
  checkedIn d (site.ids.peek 0) (d.versionNumber.next increment)

theorem planAdd_eq_ok (hstored : site.store.shelf? = some shelf) {parent name type : String}
    (hplan : site.planAdd parent name type = .ok (plan, answer)) :
    ∃ dp, shelf.get? parent = some dp ∧
      (dp.isProxy = false ∧ dp.isVersion = false ∧ dp.id? ≠ some site.versions) ∧
      shelf.child? parent name [] = none ∧ answer = site.ids.peek 0 ∧
      plan =
        { writes :=
            [.create ((Document.newChild (site.ids.peek 0) dp parent name).set Field.type
              (.string type)), .mark (site.ids.peek 0)]
          drawn := 1 } := by
  simp only [planAdd, bind_eq_ok_iff, require_eq_ok_iff hstored, requireContainer_eq_ok_iff,
    requireFreeName_eq_ok_iff hstored] at hplan
  obtain ⟨dp, hdp, -, hcontainer, -, hunused, heq⟩ := hplan
  cases heq
  exact ⟨dp, hdp, hcontainer, hunused, rfl, rfl⟩

theorem planProxy_eq_ok (hstored : site.store.shelf? = some shelf) {target parent name : String}
    (hplan : site.planProxy target parent name = .ok (plan, answer)) :
    ∃ dt dp, shelf.get? target = some dt ∧ dt.isProxy = false ∧ shelf.get? parent = some dp ∧
      (dp.isProxy = false ∧ dp.isVersion = false ∧ dp.id? ≠ some site.versions) ∧
      shelf.child? parent name [] = none ∧ answer = site.ids.peek 0 ∧
      plan =
        { writes :=
            [.create (proxyOf (site.ids.peek 0) target parent name dt dp),
              .update (dt.relinked [site.ids.peek 0] [])]
          drawn := 1 } := by
  simp only [planProxy, bind_eq_ok_iff, require_eq_ok_iff hstored] at hplan
  obtain ⟨dt, hdt, hplan⟩ := hplan
  split at hplan
  · cases hplan
  next hno =>
  simp only [bind_eq_ok_iff, require_eq_ok_iff hstored, requireContainer_eq_ok_iff,
    requireFreeName_eq_ok_iff hstored] at hplan
  obtain ⟨dp, hdp, -, hcontainer, -, hunused, heq⟩ := hplan
  cases heq
  exact ⟨dt, dp, hdt, by simpa using hno, hdp, hcontainer, hunused, rfl, rfl⟩

theorem planCheckIn_eq_ok (hstored : site.store.shelf? = some shelf) {increment : Increment}
    (hplan : site.planCheckIn id increment = .ok (plan, answer)) :
    ∃ d folder, site.ChecksIn shelf id d folder ∧ answer = site.ids.peek 0 ∧
      plan =
        { writes :=
            [.create (site.nextVersion d folder id increment), .mark (site.ids.peek 0),
              .update (site.nextLive d increment)]
          drawn := 1 } := by
  simp only [planCheckIn, bind_eq_ok_iff, require_eq_ok_iff hstored] at hplan
  obtain ⟨d, hd, hplan⟩ := hplan
  split at hplan
  · cases hplan
  next hno =>
  split at hplan
  · cases hplan
  next hfree =>
  simp only [bind_eq_ok_iff, require_eq_ok_iff hstored] at hplan
  obtain ⟨folder, hfolder, heq⟩ := hplan
  cases heq
  simp only [Bool.or_eq_true, not_or, Bool.not_eq_true] at hno
  exact ⟨d, folder, ⟨hd, hno.1, hno.2, by simpa using hfree, hfolder⟩, rfl, rfl⟩

theorem planCheckOut_eq_ok (hstored : site.store.shelf? = some shelf)
    (hplan : site.planCheckOut id = .ok plan) :
    ∃ d, shelf.get? id = some d ∧ d.isCheckedIn = true ∧
      plan = { writes := [.update (d.unset Field.isCheckedIn)] } := by
  simp only [planCheckOut, bind_eq_ok_iff, require_eq_ok_iff hstored] at hplan
  obtain ⟨d, hd, hplan⟩ := hplan
  split at hplan
  · cases hplan
  next hcheckedIn =>
  cases hplan
  exact ⟨d, hd, by simpa using hcheckedIn, rfl⟩

/-- The policy that comes of one when another is put in its place or merged into it. -/
def revisedPolicy (p policy : Policy) (overwrite : Bool) : Policy :=
  if overwrite then policy else p.merge policy

/-- The policy is put in the place of that of the document, or merged into it. -/
theorem planPolicy_revises (hstored : site.store.shelf? = some shelf) {policy : Policy}
    {overwrite : Bool} (hplan : site.planPolicy id policy overwrite = .ok plan) :
    ∃ d p, shelf.get? id = some d ∧ (overwrite = false → d.policy = .ok p) ∧
      plan = { writes := [.update (d.withPolicy (revisedPolicy p policy overwrite))] } := by
  simp only [planPolicy, bind_eq_ok_iff, require_eq_ok_iff hstored] at hplan
  obtain ⟨d, hd, hplan⟩ := hplan
  -- overwriting does not ask what the policy was
  cases overwrite with
  | true =>
    cases hplan
    exact ⟨d, .empty, hd, by simp, rfl⟩
  | false =>
    obtain ⟨merged, hmerged, heq⟩ := bind_eq_ok_iff.1 hplan
    cases heq
    -- merging needs the old policy, and what cannot be read is refused
    cases hpolicy : d.policy with
    | error e =>
      rw [hpolicy] at hmerged
      cases hmerged
    | ok p =>
      rw [hpolicy] at hmerged
      cases hmerged
      exact ⟨d, p, hd, fun _ => hpolicy, rfl⟩

/-- Some policy is put on the document. -/
theorem planPolicy_eq_ok (hstored : site.store.shelf? = some shelf) {policy : Policy}
    {overwrite : Bool} (hplan : site.planPolicy id policy overwrite = .ok plan) :
    ∃ d merged, shelf.get? id = some d ∧
      plan = { writes := [.update (d.withPolicy merged)] } := by
  obtain ⟨d, p, hd, -, rfl⟩ := planPolicy_revises hstored hplan
  exact ⟨d, _, hd, rfl⟩

end ContentRepository.Site
