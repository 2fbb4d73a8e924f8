import ContentRepository.Proofs.Tree.Amendments

/-!
# Checking in and out, to the letter

In a coherent site a check-in is either refused, with nothing written, or it succeeds: then exactly
two documents are different, the version that is new and the document itself. A check-out changes
the document alone.

* **`Site.Coherent.checkIn_cases`** and **`Site.Coherent.checkOut_cases`** — all that the two
  operations can do.
-/

namespace ContentRepository

namespace Site

variable {site : Site} {shelf : Shelf} {id : String} {d folder : Document}

/-- The shelf after the check-in. -/
def checkInShelf (site : Site) (shelf : Shelf) (id : String) (d folder : Document)
    (increment : Increment) : Shelf :=
  Table.insert (Table.insert shelf (site.ids.peek 0) (site.nextVersion d folder id increment)) id
    (site.nextLive d increment)

/-! ## Fields -/

theorem agreesUnless_nextLive (site : Site) (d : Document) (increment : Increment) :
    Document.AgreesUnless (· ∈ Field.ofCheckIn) d (site.nextLive d increment) :=
  Document.agreesUnless_setAll (by simp +decide [VersionNumber.fields]) d

/-- What a version says of itself. -/
theorem get?_nextVersion (site : Site) (d folder : Document) (id : String) (increment : Increment) :
    (site.nextVersion d folder id increment).get? Field.isVersion = some (.boolean true) ∧
      (site.nextVersion d folder id increment).get? Field.isCheckedIn = none ∧
      (site.nextVersion d folder id increment).get? Field.series = some (.reference id) ∧
      ∀ field ∈ (d.versionNumber.next increment).fields,
        (site.nextVersion d folder id increment).get? field.1 = some field.2 := by
  simp +decide [nextVersion, versionOf, VersionNumber.fields, Document.setAll, Document.get?_set,
    Document.get?_unsetAll]

/-- What the document says of the version. -/
theorem get?_nextLive (site : Site) (d : Document) (increment : Increment) :
    (site.nextLive d increment).get? Field.isCheckedIn = some (.boolean true) ∧
      (site.nextLive d increment).get? Field.baseVersion =
        some (.reference (site.ids.peek 0)) ∧
      ∀ field ∈ (d.versionNumber.next increment).fields,
        (site.nextLive d increment).get? field.1 = some field.2 := by
  simp +decide [nextLive, checkedIn, VersionNumber.fields, Document.setAll, Document.get?_set]

theorem isVersion_nextVersion (site : Site) (d folder : Document) (id : String)
    (increment : Increment) : (site.nextVersion d folder id increment).isVersion = true :=
  Document.flag_iff.2 (get?_nextVersion site d folder id increment).1

theorem isCheckedIn_nextVersion (site : Site) (d folder : Document) (id : String)
    (increment : Increment) : (site.nextVersion d folder id increment).isCheckedIn = false :=
  Document.flag_of_get?_eq_none (get?_nextVersion site d folder id increment).2.1

/-- The number that is set is the number that is read. -/
theorem versionNumber_of_fields {n : VersionNumber}
    (hfields : ∀ field ∈ n.fields, d.get? field.1 = some field.2) : d.versionNumber = n := by
  have hmajor : d.get? Field.majorVersion = some (.long n.major) :=
    hfields (Field.majorVersion, .long n.major) (by simp [VersionNumber.fields])
  have hminor : d.get? Field.minorVersion = some (.long n.minor) :=
    hfields (Field.minorVersion, .long n.minor) (by simp [VersionNumber.fields])
  rw [Document.versionNumber, Document.count, Document.count, hmajor, hminor]
  rfl

/-! ## The shelf -/

theorem of_get?_checkInShelf {increment : Increment} {k : String} {e : Document}
    (he : (site.checkInShelf shelf id d folder increment).get? k = some e) :
    (k = id ∧ e = site.nextLive d increment) ∨
      (k = site.ids.peek 0 ∧ e = site.nextVersion d folder id increment) ∨
      (k ≠ id ∧ k ≠ site.ids.peek 0 ∧ shelf.get? k = some e) := by
  obtain hlive | ⟨hne, he⟩ := Table.get?_insert_eq_some_iff.1 he
  · exact .inl hlive
  obtain hversion | ⟨hother, he⟩ := Table.get?_insert_eq_some_iff.1 he
  · exact .inr (.inl hversion)
  · exact .inr (.inr ⟨hne, hother, he⟩)

end Site

namespace Site.Filed

variable {site : Site} {shelf : Shelf} {id : String} {d folder : Document}

theorem id?_nextVersion (h : Filed site shelf) (hchecks : site.ChecksIn shelf id d folder)
    (increment : Increment) :
    (site.nextVersion d folder id increment).id? = some (site.ids.peek 0) := by
  obtain ⟨hid, -⟩ := Coherent.place_nextVersion d id increment (h.keyed _ _ hchecks.folder)
  exact Document.string?_eq_some_iff.2 hid

theorem id?_nextLive (h : Filed site shelf) (hchecks : site.ChecksIn shelf id d folder)
    (increment : Increment) : (site.nextLive d increment).id? = some id := by
  have hsame : Document.AgreesOn [Field.id] d (site.nextLive d increment) :=
    (agreesUnless_nextLive site d increment).agreesOn (by decide)
  exact (hsame.string? (by decide)).trans (h.keyed _ _ hchecks.document)

end Site.Filed

namespace Site.Coherent

variable {site : Site} {w : Workspace} {shelf : Shelf} {id : String} {d folder : Document}

theorem get?_checkInShelf_version (h : Coherent site shelf)
    (hchecks : site.ChecksIn shelf id d folder) (increment : Increment) :
    (site.checkInShelf shelf id d folder increment).get? (site.ids.peek 0) =
      some (site.nextVersion d folder id increment) := by
  rw [checkInShelf, Table.get?_insert, if_neg (h.ne_peek hchecks.document 0), Table.get?_insert,
    if_pos rfl]

/-! ## The two operations -/

/-- **A check-in is refused, or it makes a version and changes the document, and nothing else.** -/
theorem checkIn_cases (h : Coherent w.site shelf) (id : String) (increment : Increment) :
    (∃ e, w.checkIn id increment = (.error e, w)) ∨
      ∃ d folder session, w.site.ChecksIn shelf id d folder ∧
        w.checkIn id increment = (.ok (w.site.nextVersion d folder id increment),
          ⟨w.site.settled 1 (w.site.checkInShelf shelf id d folder increment), session⟩) ∧
        Coherent (w.site.settled 1 (w.site.checkInShelf shelf id d folder increment))
          (w.site.checkInShelf shelf id d folder increment) := by
  rw [Workspace.checkIn]
  cases hplan : w.liveSite >>= (·.planCheckIn id increment) with
  | error e => exact .inl ⟨e, rfl⟩
  | ok planned =>
    obtain ⟨plan, answer⟩ := planned
    obtain ⟨hlive, hplan⟩ := Workspace.of_liveSite_bind hplan
    obtain ⟨t, hwrites, ht⟩ := h.of_planCheckIn hplan
    obtain ⟨d, folder, hchecks, rfl, rfl⟩ := planCheckIn_eq_ok h.stored hplan
    -- the writes succeed, so they lead to this very shelf
    have hshelf : t = w.site.checkInShelf shelf id d folder increment := by
      have hrest := (hwrites.rest_of_create (h.filed.id?_nextVersion hchecks increment)).rest_of_mark
      exact (hrest.rest_of_update (h.filed.id?_nextLive hchecks increment)).eq_of_nil
    subst hshelf
    obtain ⟨session, hproduce⟩ := Workspace.exists_produce_eq hlive h.stored hwrites
      (h.get?_checkInShelf_version hchecks increment)
    exact .inr ⟨d, folder, session, hchecks, hproduce, ht⟩

/-- **A check-out is refused, or it lets a document go that is checked in, and nothing else.** -/
theorem checkOut_cases (h : Coherent w.site shelf) (id : String) :
    (∃ e, w.checkOut id = (.error e, w)) ∨
      ∃ d session, shelf.get? id = some d ∧ d.isCheckedIn = true ∧
        w.checkOut id = (.ok (), ⟨w.site.settled 0
          (Table.insert shelf id (d.unset Field.isCheckedIn)), session⟩) ∧
        Coherent (w.site.settled 0 (Table.insert shelf id (d.unset Field.isCheckedIn)))
          (Table.insert shelf id (d.unset Field.isCheckedIn)) := by
  rw [Workspace.checkOut]
  cases hplan : w.liveSite >>= (·.planCheckOut id) with
  | error e => exact .inl ⟨e, rfl⟩
  | ok plan =>
    obtain ⟨-, hplan⟩ := Workspace.of_liveSite_bind hplan
    obtain ⟨t, hwrites, ht⟩ := h.of_planCheckOut hplan
    obtain ⟨d, hd, hcheckedIn, rfl⟩ := planCheckOut_eq_ok h.stored hplan
    have hshelf : t = Table.insert shelf id (d.unset Field.isCheckedIn) := by
      have hsame : Document.AgreesOn [Field.id] d (d.unset Field.isCheckedIn) :=
        Document.agreesOn_unset (by decide) d
      have hid := (hsame.string? (by decide)).trans (h.keyed _ _ hd)
      exact (hwrites.rest_of_update hid).eq_of_nil
    subst hshelf
    obtain ⟨session, hexecute⟩ := Workspace.execute_of_writes hwrites h.stored
    exact .inr ⟨d, session, hd, hcheckedIn, hexecute, ht⟩

end Site.Coherent

end ContentRepository
