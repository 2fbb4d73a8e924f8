import ContentRepository.Proofs.Session.Amending
import ContentRepository.Proofs.Session.Planning
import ContentRepository.Proofs.Tree.Runs

/-!
# What an event may do to a document

In a coherent site every event does one of few things to a document that is there, and puts new
documents there in few ways only. What is kept of a document through a whole run follows from this
list, with nothing more to be said of the single operations.

* **`Site.Event.Derives`** — the list, with all that is known in each case.
* **`Site.Coherent.derives_of_plans`** — every plan keeps to it.
* **`Site.Coherent.exists_derives`** — so does every event, and the site stays coherent.
* **`Site.Event.Amends`**, **`Site.Event.Plants`** and **`Site.Coherent.exists_next`** — the same in
  less detail, for facts about versions.
-/

namespace ContentRepository

namespace Field

/-- The fields that say how a document stands with its versions. -/
def ofVersioning : List String :=
  [isVersion, series, isCheckedIn, baseVersion, versionLabel, majorVersion, minorVersion]

/-- The fields of a document that say what was checked in from it last. -/
def ofCheckIn : List String := [isCheckedIn, baseVersion, versionLabel, majorVersion, minorVersion]

/-- The fields that a document may have when it was added as a child or as a proxy. -/
def ofChild : List String := [id, parent, name, ancestors, type, isProxy, target]

end Field

namespace Site

/-- The content or the policy of this very document is written. -/
def Event.Addresses : Event → String → Prop
  | .call _ (.update d), id => d.id? = some id
  | .call _ (.revise other _ _), id => other = id
  | .call _ (.setPolicy other _ _), id => other = id
  | _, _ => False

/-- What an event may make of a stored document. -/
inductive Event.Amends (event : Event) (id : String) (d : Document) : Document → Prop where
  /-- Its texts are written, or proxies of it come or go. -/
  | incidental {e : Document} (hagree : Document.AgreesUnless Field.Incidental d e) :
      Amends event id d e
  /-- It gets another place in the tree. Versions have theirs for good. -/
  | place {e : Document} (hversion : d.isVersion = false)
      (hagree : Document.AgreesUnless (· ∈ [Field.parent, Field.name, Field.ancestors]) d e) :
      Amends event id d e
  /-- Its content or its policy is written. -/
  | content {e : Document} (haddressed : event.Addresses id)
      (hagree : Document.AgreesUnless (fun key => key = Field.policy ∨ key ∉ Field.reserved) d e) :
      Amends event id d e
  /-- It is checked in. -/
  | checkIn {e : Document} {session : Session} {increment : Increment}
      (hevent : event = .call session (.checkIn id increment)) (hversion : d.isVersion = false) :
      Amends event id d e
  /-- It is checked out. -/
  | checkOut {e : Document} {session : Session} (hevent : event = .call session (.checkOut id))
      (hcheckedIn : d.isCheckedIn = true) : Amends event id d e

/-- What an event may put on a shelf as a new document. -/
inductive Event.Plants (event : Event) (shelf : Shelf) (e : Document) : Prop where
  /-- A document that knows of no versions. -/
  | blank (hblank : ∀ key ∈ Field.ofVersioning, e.get? key = none)
  /-- A copy of a document. It is not checked in, and never was. -/
  | copy {k : String} {c : Document} (hc : shelf.get? k = some c) (hversion : c.isVersion = false)
      (hagree : Document.AgreesOn [Field.isVersion, Field.series] c e)
      (hblank : ∀ key ∈ Field.ofCheckIn, e.get? key = none)
  /-- A version. -/
  | version {session : Session} {id : String} {increment : Increment}
      (hevent : event = .call session (.checkIn id increment))

/-- What an event may put on the shelf under an id: an amendment of the document that is there, or a
new document under an id that was never drawn. -/
def Event.Files (event : Event) (site : Site) (shelf : Shelf) (id : String) (e : Document) : Prop :=
  (∃ d, shelf.get? id = some d ∧ event.Amends id d e) ∨
    (¬ site.ids.Drew id ∧ event.Plants shelf e)

/-- How a document that is on the shelf after an event comes of what was there before. -/
inductive Event.Derives (event : Event) (site : Site) (shelf : Shelf) (id : String)
    (e : Document) : Prop where
  /-- It is as it was. -/
  | same (he : shelf.get? id = some e)
  /-- Its texts are written. -/
  | indexed {d : Document} (hd : shelf.get? id = some d)
      (hagree : Document.AgreesUnless Field.OfIndexing d e)
  /-- Proxies of it come or go. -/
  | relinked {d : Document} (hd : shelf.get? id = some d)
      (hagree : Document.AgreesUnless (· = Field.proxies) d e)
  /-- It gets another place in the tree. -/
  | placed {d : Document} (hd : shelf.get? id = some d) (hversion : d.isVersion = false)
      (hagree : Document.AgreesUnless (· ∈ [Field.parent, Field.name, Field.ancestors]) d e)
  /-- Its content is written. -/
  | content {d : Document} (hd : shelf.get? id = some d) (haddressed : event.Addresses id)
      (hagree : Document.AgreesOn Field.reserved d e)
  /-- A policy is put on it. -/
  | policy {session : Session} {policy : Policy} {overwrite : Bool} {d : Document}
      (hevent : event = .call session (.setPolicy id policy overwrite))
      (hd : shelf.get? id = some d) (hagree : Document.AgreesUnless (· = Field.policy) d e)
  /-- It is checked in. -/
  | checkedIn {session : Session} {increment : Increment} {d : Document}
      (hevent : event = .call session (.checkIn id increment)) (hd : shelf.get? id = some d)
      (hversion : d.isVersion = false) (hagree : Document.AgreesUnless (· ∈ Field.ofCheckIn) d e)
  /-- It is checked out. -/
  | checkedOut {session : Session} {d : Document} (hevent : event = .call session (.checkOut id))
      (hd : shelf.get? id = some d) (hcheckedIn : d.isCheckedIn = true)
      (hagree : Document.AgreesUnless (· = Field.isCheckedIn) d e)
  /-- It is a child that was added. -/
  | child {session : Session} {parent name type : String} (hnew : ¬ site.ids.Drew id)
      (hevent : event = .call session (.addChild parent name type))
      (hblank : ∀ key, key ∉ Field.ofChild → e.get? key = none)
  /-- It is a proxy that was added. -/
  | proxy {session : Session} {target parent name : String} (hnew : ¬ site.ids.Drew id)
      (hevent : event = .call session (.addProxy target parent name))
      (hblank : ∀ key, key ∉ Field.ofChild → e.get? key = none)
  /-- It is a copy of a document, which is not checked in, and never was. -/
  | copy {session : Session} {k dest l : String} {name? : Option String} {c : Document}
      (hnew : ¬ site.ids.Drew id) (hevent : event = .call session (.copy k dest name?))
      (hc : shelf.get? l = some c) (hcopied : l = k ∨ k ∈ c.ancestors)
      (hversion : c.isVersion = false)
      (hagree : Document.AgreesUnless
        (· ∈ [Field.id, Field.parent, Field.name, Field.ancestors, Field.target] ++ uncopied) c e)
      (hblank : ∀ key ∈ Field.ofCheckIn, e.get? key = none)
  /-- It is the version of a document that was checked in. -/
  | version {session : Session} {k : String} {increment : Increment} {d folder : Document}
      (hnew : ¬ site.ids.Drew id) (hevent : event = .call session (.checkIn k increment))
      (hd : shelf.get? k = some d) (he : e = site.nextVersion d folder k increment)

namespace Coherent

variable {site : Site} {shelf : Shelf} {event : Event} {plan : Plan} {id answer : String}

/-! ## Single writes -/

/-- What is written in place of a document is filed under its id. -/
theorem eq_of_agreesUnless (h : Coherent site shelf) {k : String} {d e : Document}
    {may : String → Prop} (hd : shelf.get? k = some d) (hagree : Document.AgreesUnless may d e)
    (hmay : ¬ may Field.id) (hid : e.id? = some id) : k = id := by
  have hsame : Document.AgreesOn [Field.id] d e := hagree.agreesOn (by simpa using hmay)
  have hk : e.id? = some k := (hsame.string? (by decide)).trans (h.keyed k d hd)
  exact Option.some.inj (hk.symm.trans hid)

theorem derives_relinked (h : Coherent site shelf) {k : String} {d : Document}
    (hd : shelf.get? k = some d) (add remove : List String)
    (hid : (d.relinked add remove).id? = some id) :
    event.Derives site shelf id (d.relinked add remove) := by
  have hagree := Document.agreesUnless_relinked d add remove
  obtain rfl := h.eq_of_agreesUnless hd hagree (by decide) hid
  exact .relinked hd hagree

/-- An id that is yet to be drawn is new. -/
theorem not_drew_of_peek (h : Coherent site shelf) {n : Nat} {e : Document}
    (hnew : e.id? = some (site.ids.peek n)) (hid : e.id? = some id) : ¬ site.ids.Drew id := by
  cases hnew.symm.trans hid
  exact IdSource.not_drew_peek h.unrepeated n

/-! ## Plans that write few documents -/

/-- What a write puts on the shelf, if it puts something there. -/
theorem eq_of_files_create {d e : Document} (hfiles : Write.Files (.create d) e) : e = d := by
  cases hfiles
  rfl

theorem eq_of_files_update {d e : Document} (hfiles : Write.Files (.update d) e) : e = d := by
  cases hfiles
  rfl

theorem derives_planAdd (h : Coherent site shelf) {session : Session} {parent name type : String}
    (hplan : site.planAdd parent name type = .ok (plan, answer)) {first : Write} {e : Document}
    (hfirst : first ∈ plan.writes) (hfiles : first.Files e) (hid : e.id? = some id) :
    Event.Derives (.call session (.addChild parent name type)) site shelf id e := by
  obtain ⟨dp, hdp, -, -, -, rfl⟩ := planAdd_eq_ok h.stored hplan
  simp only [List.mem_cons, List.not_mem_nil, or_false] at hfirst
  obtain rfl | rfl := hfirst
  · obtain rfl := eq_of_files_create hfiles
    obtain ⟨hnew, -, -, -, hother⟩ :=
      Document.get?_newChild (site.ids.peek 0) name (h.keyed parent dp hdp)
    have hagree := Document.agreesUnless_set (Document.newChild (site.ids.peek 0) dp parent name)
      Field.type (.string type)
    refine .child (h.not_drew_of_peek (n := 0) ?_ hid) rfl fun key hkey => ?_
    · exact Document.string?_eq_some_iff.2 ((hagree _ (by decide)).trans hnew)
    · simp only [Field.ofChild, List.mem_cons, not_or] at hkey
      rw [hagree key hkey.2.2.2.2.1]
      exact hother key (by simp [hkey])
  · cases hfiles

theorem derives_planProxy (h : Coherent site shelf) {session : Session}
    {target parent name : String} (hplan : site.planProxy target parent name = .ok (plan, answer))
    {first : Write} {e : Document} (hfirst : first ∈ plan.writes) (hfiles : first.Files e)
    (hid : e.id? = some id) :
    Event.Derives (.call session (.addProxy target parent name)) site shelf id e := by
  obtain ⟨dt, dp, hdt, -, hdp, -, -, -, rfl⟩ := planProxy_eq_ok h.stored hplan
  simp only [List.mem_cons, List.not_mem_nil, or_false] at hfirst
  obtain rfl | rfl := hfirst
  · -- the proxy itself, which has the fields of a child and those that make it a proxy
    obtain ⟨hnew, -, -, -, hother⟩ :=
      Document.get?_newChild (site.ids.peek 0) name (h.keyed parent dp hdp)
    have hagree : Document.AgreesUnless (· ∈ [Field.type, Field.isProxy, Field.target])
        (Document.newChild (site.ids.peek 0) dp parent name) e := by
      rw [eq_of_files_create hfiles]
      refine Document.agreesUnless_setAll (fun field hfield => ?_) _
      simp only [List.mem_append, List.mem_cons, List.not_mem_nil, or_false, List.mem_map,
        Option.mem_toList] at hfield
      obtain (rfl | rfl) | ⟨type, -, rfl⟩ := hfield <;> simp
    refine .proxy (h.not_drew_of_peek (n := 0) ?_ hid) rfl fun key hkey => ?_
    · exact Document.string?_eq_some_iff.2 ((hagree _ (by decide)).trans hnew)
    · simp only [Field.ofChild, List.mem_cons, not_or] at hkey
      rw [hagree key (by simp [hkey])]
      exact hother key (by simp [hkey])
  · -- its target, which gains the link
    obtain rfl := eq_of_files_update hfiles
    exact h.derives_relinked hdt _ _ hid

theorem derives_planCheckIn (h : Coherent site shelf) {session : Session} {live : String}
    {increment : Increment} (hplan : site.planCheckIn live increment = .ok (plan, answer))
    {first : Write} {e : Document} (hfirst : first ∈ plan.writes) (hfiles : first.Files e)
    (hid : e.id? = some id) :
    Event.Derives (.call session (.checkIn live increment)) site shelf id e := by
  obtain ⟨d, folder, hchecks, -, rfl⟩ := planCheckIn_eq_ok h.stored hplan
  simp only [List.mem_cons, List.not_mem_nil, or_false] at hfirst
  obtain rfl | rfl | rfl := hfirst
  · obtain rfl := eq_of_files_create hfiles
    obtain ⟨hnew, -⟩ := place_nextVersion d live increment (h.keyed _ _ hchecks.folder)
    exact .version (h.not_drew_of_peek (Document.string?_eq_some_iff.2 hnew) hid) rfl
      hchecks.document rfl
  · cases hfiles
  · obtain rfl := eq_of_files_update hfiles
    have hagree : Document.AgreesUnless (· ∈ Field.ofCheckIn) d (site.nextLive d increment) :=
      Document.agreesUnless_setAll (by simp +decide [VersionNumber.fields]) d
    obtain rfl := h.eq_of_agreesUnless hchecks.document hagree (by decide) hid
    exact .checkedIn rfl hchecks.document hchecks.version hagree

theorem derives_planCheckOut (h : Coherent site shelf) {session : Session} {live : String}
    (hplan : site.planCheckOut live = .ok plan) {first : Write} {e : Document}
    (hfirst : first ∈ plan.writes) (hfiles : first.Files e) (hid : e.id? = some id) :
    Event.Derives (.call session (.checkOut live)) site shelf id e := by
  obtain ⟨d, hd, hcheckedIn, rfl⟩ := planCheckOut_eq_ok h.stored hplan
  cases List.mem_singleton.1 hfirst
  obtain rfl := eq_of_files_update hfiles
  have hagree := Document.agreesUnless_unset d Field.isCheckedIn
  obtain rfl := h.eq_of_agreesUnless hd hagree (by decide) hid
  exact .checkedOut rfl hd hcheckedIn hagree

theorem derives_planPolicy (h : Coherent site shelf) {session : Session} {k : String}
    {policy : Policy} {overwrite : Bool} (hplan : site.planPolicy k policy overwrite = .ok plan)
    {first : Write} {e : Document} (hfirst : first ∈ plan.writes) (hfiles : first.Files e)
    (hid : e.id? = some id) :
    Event.Derives (.call session (.setPolicy k policy overwrite)) site shelf id e := by
  obtain ⟨d, merged, hd, rfl⟩ := planPolicy_eq_ok h.stored hplan
  cases List.mem_singleton.1 hfirst
  obtain rfl := eq_of_files_update hfiles
  have hagree : Document.AgreesUnless (· = Field.policy) d (d.withPolicy merged) := by
    rw [Document.withPolicy]
    split
    · exact Document.agreesUnless_unset d _
    · exact Document.agreesUnless_set d _ _
  obtain rfl := h.eq_of_agreesUnless hd hagree (by decide) hid
  exact .policy rfl hd hagree

/-! ## Plans that write contents -/

theorem eq_of_files_ofWrite {first later : Write} {d e : Document} (hfirst : first.Files d)
    (hlater : later ∈ (Plan.ofWrite first d).writes) (hfiles : later.Files e) : e = d := by
  rw [Plan.ofWrite] at hlater
  rcases List.mem_cons.1 hlater with rfl | hmark
  · cases hfirst <;> cases hfiles <;> rfl
  · obtain ⟨id, -, rfl⟩ := List.mem_map.1 hmark
    cases hfiles

/-! ## Plans that write many documents -/

theorem derives_planRemove (h : Coherent site shelf) {k : String}
    (hplan : site.planRemove k = .ok plan) {first : Write} {e : Document}
    (hfirst : first ∈ plan.writes) (hfiles : first.Files e) (hid : e.id? = some id) :
    event.Derives site shelf id e := by
  obtain ⟨r, -, rfl⟩ := h.filed.planRemove_eq_ok hplan
  rcases List.mem_append.1 hfirst with hupdate | hdelete
  · obtain ⟨relinked, hmem, rfl⟩ := List.mem_map.1 hupdate
    obtain ⟨link, -, d, hd, rfl⟩ := Shelf.mem_revisions.1 hmem
    obtain rfl := eq_of_files_update hfiles
    exact h.derives_relinked hd _ _ hid
  · obtain ⟨other, -, rfl⟩ := List.mem_map.1 hdelete
    cases hfiles

/-- A document that is moved along is no version: those lie right below their folder. -/
theorem derives_planMove (h : Coherent site shelf) {k dest : String} {name? : Option String}
    (hroot : k ≠ site.root) (hversions : k ≠ site.versions)
    (hplan : site.planMove k dest name? = .ok (plan, answer)) {first : Write} {e : Document}
    (hfirst : first ∈ plan.writes) (hfiles : first.Files e) (hid : e.id? = some id) :
    event.Derives site shelf id e := by
  obtain rfl | ⟨name, d, destination, hm, rfl⟩ := h.planMove_eq_ok hroot hversions hplan
  · cases hfirst
  rcases List.mem_cons.1 hfirst with rfl | hupdate
  · obtain rfl := eq_of_files_update hfiles
    obtain rfl := h.eq_of_agreesUnless hm.document agreesUnless_relocated (by decide) hid
    exact .placed hm.document hm.version agreesUnless_relocated
  · obtain ⟨rebasedDoc, hmem, rfl⟩ := List.mem_map.1 hupdate
    obtain ⟨below, hbelow, c, hc, rfl⟩ := Shelf.mem_revisions.1 hmem
    obtain rfl := eq_of_files_update hfiles
    obtain ⟨c', hc', hancestor⟩ := h.filed.mem_below.1 (Table.mem_keys_erase.1 hbelow).2
    cases hc.symm.trans hc'
    have hversion := h.tree.isVersion_of_mem_ancestors hc hancestor hroot hversions
    obtain rfl := h.eq_of_agreesUnless hc agreesUnless_rebased (by decide) hid
    exact .placed hc hversion agreesUnless_rebased

/-- What agrees with the copy of a document is as good as the copy: a copy knows nothing of proxies
or versions of what it is a copy of. -/
theorem derives_copyFor (h : Coherent site shelf) {session : Session} {k l dest name : String}
    {name? : Option String} {c d destination e : Document} (hd : shelf.get? k = some d)
    (hversion : d.isVersion = false) (hroot : k ≠ site.root) (hversions : k ≠ site.versions)
    (hl : l ∈ copyList shelf k) (hc : shelf.get? l = some c)
    (hagree : Document.AgreesUnless (· = Field.proxies)
      (copyFor (copyNames site shelf k) k d destination dest name l c) e)
    (hid : e.id? = some id) :
    Event.Derives (.call session (.copy k dest name?)) site shelf id e := by
  obtain ⟨c', hc', hcopied⟩ := (h.filed.mem_copyList hd).1 hl
  cases hc.symm.trans hc'
  -- what is copied is no version: neither the top, nor anything below it
  have hkind : c.isVersion = false := by
    rcases hcopied with rfl | hancestor
    · cases hd.symm.trans hc
      exact hversion
    · exact h.tree.isVersion_of_mem_ancestors hc hancestor hroot hversions
  -- the copy has a new id, the one of its place in the list
  have hnew : e.id? = some (site.ids.peek ((copyList shelf k).idxOf l)) := by
    rw [← h.renamed_copyNames hl, ← id?_copyFor _ (h.keyed l c hc)]
    have hsame : Document.AgreesOn [Field.id] _ e := hagree.agreesOn (by decide)
    exact hsame.string? (by decide)
  refine .copy (h.not_drew_of_peek hnew hid) rfl hc hcopied hkind ?_ fun key hkey => ?_
  · exact agreesUnless_copyFor.trans (hagree.mono fun key hkey => by rw [hkey]; decide)
  · rw [hagree key (by revert key; decide), copyFor, get?_copyOf (by revert key; decide), if_pos]
    revert key
    decide

theorem derives_planCopy (h : Coherent site shelf) {session : Session} {k dest : String}
    {name? : Option String} (hroot : k ≠ site.root) (hversions : k ≠ site.versions)
    (hplan : site.planCopy k dest name? = .ok (plan, answer)) {first : Write} {e : Document}
    (hfirst : first ∈ plan.writes) (hfiles : first.Files e) (hid : e.id? = some id) :
    Event.Derives (.call session (.copy k dest name?)) site shelf id e := by
  obtain ⟨name, d, destination, -, ⟨hd, hversion, -, -, -⟩, -, rfl⟩ := h.planCopy_eq_ok hplan
  rcases List.mem_append.1 hfirst with hcreate | hupdate
  · obtain ⟨copy, hcopy, hfirst⟩ := List.mem_flatMap.1 hcreate
    obtain ⟨l, hl, c, hc, rfl⟩ := Shelf.mem_revisions.1 hcopy
    simp only [List.mem_cons, List.not_mem_nil, or_false] at hfirst
    obtain rfl | rfl := hfirst
    · obtain rfl := eq_of_files_create hfiles
      exact h.derives_copyFor hd hversion hroot hversions hl hc (.refl _ _) hid
    · cases hfiles
  · obtain ⟨relinked, hmem, rfl⟩ := List.mem_map.1 hupdate
    obtain ⟨link, -, target, htarget, rfl⟩ := Shelf.mem_revisions.1 hmem
    obtain rfl := eq_of_files_update hfiles
    -- the target was there before, or it is a copy itself
    obtain hold | ⟨l, hl, c, hc, -, rfl⟩ := (h.grafted hd).cases _ target htarget
    · exact h.derives_relinked hold _ _ hid
    · exact h.derives_copyFor hd hversion hroot hversions hl hc
        (Document.agreesUnless_relinked _ _ _) hid

/-! ## Every event -/

/-- **The plan of a call keeps to the list.** -/
theorem derives_of_plans (h : Coherent site shelf) {session : Session} {call : Session.Call}
    (hadmits : site.AdmitsCall call) (hplans : site.Plans plan call) {first : Write}
    {e : Document} (hfirst : first ∈ plan.writes) (hfiles : first.Files e) (hid : e.id? = some id)
    (horigin : (shelf.get? id).isSome = true ∨ ∃ c, .create c ∈ plan.writes ∧ c.id? = some id) :
    Event.Derives (.call session call) site shelf id e := by
  cases call with
  | create d => exact hadmits.elim
  | delete k => exact hadmits.elim
  | update d =>
    cases hplans
    obtain rfl := eq_of_files_ofWrite (.update d) hfirst hfiles
    -- the plan creates nothing, so the document was there
    have hthere : (shelf.get? id).isSome = true := by
      refine horigin.resolve_right ?_
      rintro ⟨c, hc, -⟩
      simp [Plan.ofWrite] at hc
    obtain ⟨d, hd⟩ := Option.isSome_iff_exists.1 hthere
    refine .content hd hid (hadmits id d hid ?_)
    rw [Store.find?_eq h.stored, hd]
  | revise k fields cleared =>
    obtain ⟨d, hd, rfl⟩ := hplans
    obtain rfl := eq_of_files_ofWrite (.update _) hfirst hfiles
    rw [Store.find?_eq h.stored, Except.ok.injEq] at hd
    -- what the caller sets and clears is not reserved
    have hagree : Document.AgreesOn Field.reserved d ((d.setAll fields).unsetAll cleared) :=
      (Document.agreesOn_setAll hadmits.1 d).trans (Document.agreesOn_unsetAll hadmits.2 _)
    have hexcept : Document.AgreesUnless (· ∉ Field.reserved) d
        ((d.setAll fields).unsetAll cleared) := fun key hkey => hagree key (not_not.1 hkey)
    obtain rfl := h.eq_of_agreesUnless hd hexcept (by decide) hid
    exact .content hd rfl hagree
  | addChild =>
    obtain ⟨answer, hplan⟩ := hplans
    exact h.derives_planAdd hplan hfirst hfiles hid
  | addProxy =>
    obtain ⟨answer, hplan⟩ := hplans
    exact h.derives_planProxy hplan hfirst hfiles hid
  | checkIn =>
    obtain ⟨answer, hplan⟩ := hplans
    exact h.derives_planCheckIn hplan hfirst hfiles hid
  | checkOut => exact h.derives_planCheckOut hplans hfirst hfiles hid
  | setPolicy => exact h.derives_planPolicy hplans hfirst hfiles hid
  -- these refuse the two folders of the site before they plan
  | remove => exact h.derives_planRemove hplans.2 hfirst hfiles hid
  | move =>
    obtain ⟨⟨hroot, hversions⟩, answer, hplan⟩ := hplans
    exact h.derives_planMove hroot hversions hplan hfirst hfiles hid
  | copy =>
    obtain ⟨⟨hroot, hversions⟩, answer, hplan⟩ := hplans
    exact h.derives_planCopy hroot hversions hplan hfirst hfiles hid
  | _ => exact hplans.elim

/-- **After an event, every document comes of what was there before as the list says.** -/
theorem exists_derives (h : Coherent site shelf) (hadmits : site.Admits event) :
    ∃ t, Coherent (site.next event) t ∧
      ∀ id e, t.get? id = some e → event.Derives site shelf id e := by
  obtain ⟨t, ht⟩ := h.next hadmits
  refine ⟨t, ht, ?_⟩
  cases event with
  | index obstacle job =>
    obtain ⟨u, hu, hagree⟩ := IndexJob.agreesUnless_of_apply h.stored h.keyed obstacle job
    cases ht.stored.symm.trans hu
    intro id e he
    obtain ⟨d, hd, hde⟩ := hagree id e he
    exact .indexed hd hde
  | call session call =>
    -- a commit writes nothing to the store
    by_cases hcall : call = .commit
    · subst hcall
      have hcommit : Coherent (Workspace.perform ⟨site, session⟩ .commit).2.site shelf :=
        commit (w := ⟨site, session⟩) h
      cases ht.stored.symm.trans hcommit.stored
      exact fun id e he => .same he
    obtain hsame | ⟨-, plan, hplans, hexecute⟩ :=
      Workspace.perform_cases (w := ⟨site, session⟩) hcall
    · -- the call was refused, or only reads
      have hstored : (site.next (.call session call)).store.shelf? = some shelf := by
        rw [Site.next, hsame]
        exact h.stored
      cases ht.stored.symm.trans hstored
      exact fun id e he => .same he
    · obtain ⟨u, hu, hyields⟩ :=
        Workspace.exists_yields_execute (w := ⟨site, session⟩) plan h.stored
      have hstored : (site.next (.call session call)).store.shelf? = some u := by
        rw [Site.next, hexecute]
        exact hu
      cases ht.stored.symm.trans hstored
      intro id e he
      -- the document is that of before, or it was filed by a write of the plan
      obtain hkept | ⟨⟨first, hfirst, hfiles⟩, hid, horigin⟩ := hyields id e he
      · exact .same hkept
      · exact h.derives_of_plans hadmits hplans hfirst hfiles hid horigin

end Coherent

/-! ## The same in less detail -/

/-- A document that comes of what was there is an amendment of a document, or new. -/
theorem Event.Derives.files {event : Event} {site : Site} {shelf : Shelf} {id : String}
    {e : Document} (h : event.Derives site shelf id e) : event.Files site shelf id e := by
  cases h with
  | same he => exact .inl ⟨e, he, .incidental (.refl _ e)⟩
  | indexed hd hagree => exact .inl ⟨_, hd, .incidental (hagree.mono fun key hkey => .inr hkey)⟩
  | relinked hd hagree => exact .inl ⟨_, hd, .incidental (hagree.mono fun key hkey => .inl hkey)⟩
  | placed hd hversion hagree => exact .inl ⟨_, hd, .place hversion hagree⟩
  | content hd haddressed hagree =>
    exact .inl ⟨_, hd, .content haddressed fun key hkey =>
      hagree key (by_contra fun hnot => hkey (.inr hnot))⟩
  | policy hevent hd hagree =>
    subst hevent
    exact .inl ⟨_, hd, .content rfl (hagree.mono fun key hkey => .inl hkey)⟩
  | checkedIn hevent hd hversion _ => exact .inl ⟨_, hd, .checkIn hevent hversion⟩
  | checkedOut hevent hd hcheckedIn _ => exact .inl ⟨_, hd, .checkOut hevent hcheckedIn⟩
  | child hnew _ hblank | proxy hnew _ hblank =>
    exact .inr ⟨hnew, .blank fun key hkey => hblank key (by revert key; decide)⟩
  | copy hnew _ hc _ hversion hagree hblank =>
    exact .inr ⟨hnew, .copy hc hversion (hagree.agreesOn (by decide)) hblank⟩
  | version hnew hevent _ _ => exact .inr ⟨hnew, .version hevent⟩

/-- **After an event, every document is an amendment of one that was there, or new.** -/
theorem Coherent.exists_next {site : Site} {shelf : Shelf} {event : Event}
    (h : Coherent site shelf) (hadmits : site.Admits event) :
    ∃ t, Coherent (site.next event) t ∧
      ∀ id e, t.get? id = some e → event.Files site shelf id e := by
  obtain ⟨t, ht, hderives⟩ := h.exists_derives hadmits
  exact ⟨t, ht, fun id e he => (hderives id e he).files⟩

/-- **An id that was drawn stays drawn**, whatever happens. -/
theorem drew_next {site : Site} {id : String} (h : site.ids.Drew id) (event : Event) :
    (site.next event).ids.Drew id := by
  cases event with
  | index obstacle job => exact h
  | call session call =>
    by_cases hcall : call = .commit
    · subst hcall
      obtain ⟨queue, hcommit⟩ := Workspace.exists_site_commit (w := ⟨site, session⟩)
      show (Workspace.commit ⟨site, session⟩).2.site.ids.Drew id
      rw [hcommit]
      exact h
    · obtain hsame | ⟨-, plan, -, hexecute⟩ :=
        Workspace.perform_cases (w := ⟨site, session⟩) hcall
      · rw [Site.next, hsame]
        exact h
      · rw [Site.next, hexecute, Workspace.ids_execute]
        exact h.skip plan.drawn

end Site

end ContentRepository
