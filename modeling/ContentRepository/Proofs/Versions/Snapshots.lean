import ContentRepository.Proofs.Versions.CheckIn

/-!
# Versions are snapshots

A version is a copy of the document that was checked in, filed in another place and with a number.
From then on nothing that happens to the document touches it, and nothing that happens to any other:
a move does not reach below the folder of versions, and only live documents are checked in or out.
What is left are the proxies of the version itself, its texts, and writes addressed to it.

* **`Site.ReachesSparing`** — runs without such writes.
* **`Site.Coherent.snapshot_next`** and **`Site.ReachesSparing.exists_snapshot`** — what one event
  leaves of a version, and what a run does.
* **`Site.snapshot_of_checkIn`** — a version is faithful when it is made, and stays so.
-/

namespace ContentRepository

/-- The fields in which a version may differ from what was checked in: its place, its number and
what it does not take over. -/
def Field.ofSnapshot : List String :=
  [Field.id, Field.parent, Field.name, Field.ancestors, Field.proxies, Field.isCheckedIn,
   Field.baseVersion, Field.isVersion, Field.series, Field.majorVersion, Field.minorVersion,
   Field.versionLabel, Field.versionCreated]

namespace Site

/-- The second site comes about from the first by a run in which nobody writes the content or the
policy of one document. -/
inductive ReachesSparing (id : String) (start : Site) : Site → Prop where
  | refl : ReachesSparing id start start
  | step {site : Site} (event : Event) (hrun : ReachesSparing id start site)
      (hadmits : site.Admits event) (hspares : ¬ event.Addresses id) :
      ReachesSparing id start (site.next event)

/-! ## When it is made -/

/-- Apart from its place and its number, a version is the document that was checked in. -/
theorem agreesUnless_nextVersion (site : Site) (d folder : Document) (id : String)
    (increment : Increment) :
    Document.AgreesUnless (· ∈ Field.ofSnapshot) d (site.nextVersion d folder id increment) :=
  (Document.agreesUnless_unsetAll (by decide) d).trans
    (Document.agreesUnless_setAll (by simp +decide [VersionNumber.fields]) _)

/-! ## From then on -/

/-- Under an id there is nothing any more but the version that was filed there, the same but for its
texts and its proxies. -/
structure Snapshot (site : Site) (shelf : Shelf) (id : String) (v : Document) : Prop where
  version : v.isVersion = true
  free : v.isCheckedIn = false
  drawn : site.ids.Drew id
  kept : ∀ e, shelf.get? id = some e → Document.AgreesUnless Field.Incidental v e

namespace Coherent

variable {site : Site} {shelf : Shelf} {id : String} {v : Document} {event : Event}

/-- A version that is stored is left as it is. -/
theorem snapshot_of_get? (h : Coherent site shelf) (hv : shelf.get? id = some v)
    (hversion : v.isVersion = true) (hfree : v.isCheckedIn = false) :
    Snapshot site shelf id v := by
  refine ⟨hversion, hfree, h.drawn id v hv, fun e he => ?_⟩
  obtain rfl := Option.some.inj (hv.symm.trans he)
  exact .refl _ v

/-- **No event changes a version but in its texts and its proxies**, if it is not addressed to
it. -/
theorem snapshot_next (h : Coherent site shelf) (hsnapshot : Snapshot site shelf id v)
    (hadmits : site.Admits event) (hspares : ¬ event.Addresses id) :
    ∃ t, Coherent (site.next event) t ∧ Snapshot (site.next event) t id v := by
  obtain ⟨t, ht, hfiles⟩ := h.exists_next hadmits
  refine ⟨t, ht, hsnapshot.version, hsnapshot.free, drew_next hsnapshot.drawn event,
    fun e he => ?_⟩
  obtain ⟨d, hd, hamends⟩ | ⟨hnew, -⟩ := hfiles id e he
  · have hkept := hsnapshot.kept d hd
    have hsame : Document.AgreesOn [Field.isVersion, Field.isCheckedIn] v d :=
      hkept.agreesOn (Field.not_incidental (by decide) (by decide))
    have hversion : d.isVersion = true := (hsame.flag (by decide)).trans hsnapshot.version
    have hfree : d.isCheckedIn = false := (hsame.flag (by decide)).trans hsnapshot.free
    cases hamends with
    | incidental hagree => exact hkept.trans hagree
    | place hlive => exact absurd hversion (by simp [hlive])
    | content haddressed => exact absurd haddressed hspares
    | checkIn _ hlive => exact absurd hversion (by simp [hlive])
    | checkOut _ hcheckedIn => exact absurd hcheckedIn (by simp [hfree])
  · -- an id that is drawn is not used again
    exact absurd hsnapshot.drawn hnew

end Coherent

/-- **A run changes a version no more than one event does.** Induction on the run. -/
theorem ReachesSparing.exists_snapshot {start site : Site} {shelf : Shelf} {id : String}
    {v : Document} (hrun : ReachesSparing id start site) (h : Coherent start shelf)
    (hsnapshot : Snapshot start shelf id v) :
    ∃ t, Coherent site t ∧ Snapshot site t id v := by
  induction hrun with
  | refl => exact ⟨shelf, h, hsnapshot⟩
  | step event _ hadmits hspares ih =>
    obtain ⟨t, ht, hkept⟩ := ih
    exact ht.snapshot_next hkept hadmits hspares

section Founded

variable {repository : String} {provision : Provision} {ids : IdSource} {clock : Instant}
  {queue : Option IndexQueue} {start site : Site} {session : Session} {id : String}
  {increment : Increment} {v : Document} {after : Workspace}

/-- **Versions are faithful snapshots, and nothing changes them.** The version that a check-in
answers agrees with the document as it was, but for its place and its number. As long as the version
is stored, it agrees with what the check-in answered, but for its texts and its proxies, if nobody
wrote the content or the policy of the version itself. -/
theorem snapshot_of_checkIn (hids : ids.Unrepeated)
    (hfound : Site.found repository (Store.empty provision) ids clock queue = .ok start)
    (hrun : start.Reaches site)
    (hcheckIn : Workspace.checkIn ⟨site, session⟩ id increment = (.ok v, after)) :
    ∃ d versionId, site.store.find? id = .ok (some d) ∧ v.id? = some versionId ∧
      Document.AgreesUnless (· ∈ Field.ofSnapshot) d v ∧
      after.site.store.find? versionId = .ok (some v) ∧
      ∀ later, ReachesSparing versionId after.site later →
        ∀ e, later.store.find? versionId = .ok (some e) →
          Document.AgreesUnless Field.Incidental v e := by
  obtain ⟨shelf, h, -, -⟩ := coherent_of_reaches hids hfound hrun
  obtain ⟨error, hrefused⟩ | ⟨d, folder, session, hchecks, hdone, ht⟩ :=
    h.checkIn_cases (w := ⟨site, session⟩) id increment
  · rw [hrefused] at hcheckIn
    cases hcheckIn
  rw [hdone] at hcheckIn
  obtain ⟨hv, hafter⟩ := Prod.mk.inj hcheckIn
  obtain rfl := Except.ok.inj hv
  obtain rfl := hafter
  have hstored := h.get?_checkInShelf_version hchecks increment
  refine ⟨d, site.ids.peek 0, ?_, h.filed.id?_nextVersion hchecks increment,
    agreesUnless_nextVersion site d folder id increment, ?_, fun later hlater e he => ?_⟩
  · -- what it was made from
    rw [Store.find?_eq h.stored, hchecks.document]
  · -- the version is stored when the check-in answers
    rw [Store.find?_eq ht.stored, hstored]
  · -- and what no later event writes is kept
    have hsnapshot := ht.snapshot_of_get? hstored
      (isVersion_nextVersion site d folder id increment)
      (isCheckedIn_nextVersion site d folder id increment)
    obtain ⟨t, htlater, hkept⟩ := hlater.exists_snapshot ht hsnapshot
    rw [Store.find?_eq htlater.stored] at he
    exact hkept.kept e (Except.ok.inj he)

/-- For instance for the version of a document that was just added. -/
theorem snapshot_of_first_checkIn :
    ∃ start, Site.found "test" (Store.empty .own) .sequential ⟨0, 0, by decide⟩ none = .ok start ∧
      let site := start.next (.call (.fresh "s") (.addChild start.root "a" "File"))
      ∃ v after, Workspace.checkIn ⟨site, .fresh "s"⟩ "UUID_2" .minor = (.ok v, after) ∧
        ∃ d versionId, site.store.find? "UUID_2" = .ok (some d) ∧ v.id? = some versionId ∧
          Document.AgreesUnless (· ∈ Field.ofSnapshot) d v ∧
          after.site.store.find? versionId = .ok (some v) ∧
          ∀ later, ReachesSparing versionId after.site later →
            ∀ e, later.store.find? versionId = .ok (some e) →
              Document.AgreesUnless Field.Incidental v e := by
  refine ⟨_, Coherent.found_eq_ok IdSource.unrepeated_sequential, ?_⟩
  intro site
  have hok : (Workspace.checkIn ⟨site, .fresh "s"⟩ "UUID_2" .minor).1.isOk = true := by
    decide +kernel
  cases hcheckIn : Workspace.checkIn ⟨site, .fresh "s"⟩ "UUID_2" .minor with
  | mk result after =>
    rw [hcheckIn] at hok
    cases result with
    | error e => cases hok
    | ok v =>
      exact ⟨v, after, rfl, snapshot_of_checkIn IdSource.unrepeated_sequential
        (Coherent.found_eq_ok IdSource.unrepeated_sequential) (.step _ .refl trivial) hcheckIn⟩

end Founded

end Site

end ContentRepository
