import ContentRepository.Proofs.Query.Paging
import ContentRepository.Proofs.Versions.Lasting

/-!
# The history of a document

In whatever order documents are changed, moved, copied, removed, checked in and checked out, the
versions of a document tell its history.

* **`Annals.Sound.records_checkIn`** and **`Annals.Sound.records_checkOut`** — what the two deeds
  do.
* **`Annals.Sound.next`** and **`Annals.Reaches.exists_sound`** — the annals are sound after every
  event, and so after every run.
* **`Annals.Sound.versionsOf_eq`** — the versions of a document are listed as they were checked in.
* **`Annals.Tells`** and **`Annals.history_of_reaches`** — all this for a new repository.
-/

namespace ContentRepository

namespace Annals

/-! ## What deeds do -/

namespace Sound

variable {a : Annals} {shelf : Shelf} {id : String} {d folder : Document} {increment : Increment}

theorem records_checkIn (h : Sound a shelf) (hchecks : a.site.ChecksIn shelf id d folder)
    (hroom : d.versionNumber.HasNext increment)
    (ht : Site.Coherent (a.site.settled 1 (a.site.checkInShelf shelf id d folder increment))
      (a.site.checkInShelf shelf id d folder increment)) :
    Records a shelf (.checkIn id (a.site.nextVersion d folder id increment)) d
      (a.site.settled 1 (a.site.checkInShelf shelf id d folder increment))
      (a.site.checkInShelf shelf id d folder increment) := by
  obtain ⟨hversion, hfree, hseries, hnumber⟩ :=
    Site.get?_nextVersion a.site d folder id increment
  obtain ⟨hcheckedIn, hbase, hlive⟩ := Site.get?_nextLive a.site d increment
  have hagree : Document.AgreesOn [Field.isVersion, Field.series] d
      (a.site.nextLive d increment) :=
    (Site.agreesUnless_nextLive a.site d increment).agreesOn (by decide)
  have hnewLive : Document.AgreesOn Field.ofNumber (a.site.nextVersion d folder id increment)
      (a.site.nextLive d increment) :=
    Document.agreesOn_number hnumber hlive
  have hvid := h.coherent.filed.id?_nextVersion hchecks increment
  have hvnumber : (a.site.nextVersion d folder id increment).versionNumber =
      d.versionNumber.next increment := Site.versionNumber_of_fields hnumber
  refine ⟨ht, fun _ hdrew => hdrew.skip 1, hchecks.document, hchecks.version, ?turn, ?version,
    fun k e he => ?kept⟩
  case turn => simp [Deed.isCheckIn, Deed.version?, hchecks.free]
  case version =>
    intro v hv
    obtain rfl : a.site.nextVersion d folder id increment = v := Option.some.inj hv
    refine ⟨_, hvid, IdSource.not_drew_peek h.coherent.unrepeated 0,
      h.coherent.get?_checkInShelf_version hchecks increment, ?_, ?_⟩
    · exact ⟨Document.flag_iff.2 hversion, Document.flag_of_get?_eq_none hfree, hseries, .refl _ _⟩
    · rw [hvnumber]
      exact VersionNumber.key_lt_key_next hroom
  case kept =>
    obtain ⟨rfl, rfl⟩ | ⟨rfl, rfl⟩ | ⟨hne, -, he⟩ := Site.of_get?_checkInShelf he
    · -- the document is checked in now, and based on the version that was made of it
      have hshows := h.live k d hchecks.document hchecks.version
      refine .inl ⟨rfl, (hagree.flag (by decide)).trans hchecks.version,
        (hagree _ (by decide)).trans hshows.series, ?_, ?_⟩
      · rw [Deed.endIn_concat]
        exact Document.flag_iff.2 hcheckedIn
      · rw [Deed.versions_concat, Deed.version?, Option.toList_some, List.getLast?_concat]
        refine ⟨?_, hnewLive⟩
        rw [hbase, hvid]
        rfl
    · exact .inr (.inl ⟨_, rfl, hvid⟩)
    · exact .inr (.inr ⟨hne, he⟩)

theorem records_checkOut (h : Sound a shelf) (hd : shelf.get? id = some d)
    (hcheckedIn : d.isCheckedIn = true)
    (ht : Site.Coherent (a.site.settled 0 (Table.insert shelf id (d.unset Field.isCheckedIn)))
      (Table.insert shelf id (d.unset Field.isCheckedIn))) :
    Records a shelf (.checkOut id) d
      (a.site.settled 0 (Table.insert shelf id (d.unset Field.isCheckedIn)))
      (Table.insert shelf id (d.unset Field.isCheckedIn)) := by
  have hlive : d.isVersion = false := by
    cases hversion : d.isVersion with
    | false => rfl
    | true =>
      obtain ⟨live, v, -, -, hrepresents⟩ := h.exists_represents hd hversion
      exact absurd hrepresents.free (by simp [hcheckedIn])
  have hagree : Document.AgreesUnless (· = Field.isCheckedIn) d (d.unset Field.isCheckedIn) :=
    Document.agreesUnless_unset d _
  refine ⟨ht, fun _ hdrew => hdrew.skip 0, hd, hlive, ?turn, ?version, fun k e he => ?kept⟩
  case turn => simp [Deed.isCheckIn, Deed.version?, hcheckedIn]
  case version =>
    intro v hv
    cases hv
  case kept =>
    obtain ⟨rfl, rfl⟩ | ⟨hne, he⟩ := Table.get?_insert_eq_some_iff.1 he
    · -- the document is free again, and based on the same version as before
      have hshows := h.live k d hd hlive
      have hversion : Document.AgreesOn [Field.isVersion] d (d.unset Field.isCheckedIn) :=
        hagree.agreesOn (by decide)
      refine .inl ⟨rfl, (hversion.flag (by decide)).trans hlive,
        (hagree _ (by decide)).trans hshows.series, ?_, ?_⟩
      · rw [Deed.endIn_concat]
        refine Document.flag_of_get?_eq_none ?_
        rw [Document.get?_unset, if_pos rfl]
      · rw [Deed.versions_concat, Deed.version?, Option.toList_none, List.append_nil]
        exact hshows.base.congr (hagree.agreesOn (by decide))
    · exact .inr (.inr ⟨hne, he⟩)

/-! ## Every event -/

theorem next_quiet (h : Sound a shelf) {event : Site.Event} (hadmits : a.site.Admits event)
    (hquiet : Quiet event) (hdeed : a.site.deed? event = none) : ∃ t, Sound (a.next event) t := by
  obtain ⟨t, ht, hfiles⟩ := h.coherent.exists_next hadmits
  refine ⟨t, ?_⟩
  rw [Annals.next, hdeed, Option.toList_none, List.append_nil]
  exact h.quiet ht (fun id hdrew => Site.drew_next hdrew event)
    (fun id e he => h.carries_of_files hquiet (hfiles id e he)) _

/-- **Every event leaves the annals sound**, if no version number overflows. -/
theorem next (h : Sound a shelf) {event : Site.Event} (hadmits : a.site.Admits event)
    (hroom : a.site.HasRoom event) : ∃ t, Sound (a.next event) t := by
  cases event with
  -- an index job is no deed
  | index obstacle job => exact h.next_quiet hadmits trivial rfl
  | call session call =>
    cases call with
    | checkIn id increment =>
      show ∃ t, Sound ⟨(Workspace.checkIn ⟨a.site, session⟩ id increment).2.site, a.deeds ++
        ((Workspace.checkIn ⟨a.site, session⟩ id increment).1.toOption.map
          (Deed.checkIn id)).toList, a.removed ++ []⟩ t
      rw [List.append_nil]
      obtain ⟨error, hrefused⟩ | ⟨d, folder, session, hchecks, hdone, ht⟩ :=
        h.coherent.checkIn_cases (w := ⟨a.site, session⟩) id increment
      · -- refused: no deed, and the shelf as before
        rw [hrefused]
        simpa [Except.toOption] using ⟨shelf, h⟩
      · -- the check-in is recorded, with a number that is not the last of its kind
        have hd : a.site.store.find? id = .ok (some d) := by
          rw [Store.find?_eq h.coherent.stored, hchecks.document]
        have hraised := hroom d _ hd (congrArg Prod.fst hdone)
        rw [hdone]
        exact ⟨_, h.concat (h.records_checkIn hchecks hraised ht)⟩
    | checkOut id =>
      show ∃ t, Sound ⟨(Workspace.checkOut ⟨a.site, session⟩ id).2.site, a.deeds ++
        ((Workspace.checkOut ⟨a.site, session⟩ id).1.toOption.map
          fun _ => Deed.checkOut id).toList, a.removed ++ []⟩ t
      rw [List.append_nil]
      obtain ⟨error, hrefused⟩ | ⟨d, session, hd, hcheckedIn, hdone, ht⟩ :=
        h.coherent.checkOut_cases (w := ⟨a.site, session⟩) id
      · -- refused: no deed
        rw [hrefused]
        simpa [Except.toOption] using ⟨shelf, h⟩
      · rw [hdone]
        exact ⟨_, h.concat (h.records_checkOut hd hcheckedIn ht)⟩
    -- no other call is a deed
    | _ => exact h.next_quiet hadmits trivial rfl

/-! ## Listing versions -/

theorem represents_of_mem_versions (h : Sound a shelf) {v e : Document} (hv : v ∈ a.versions id)
    (he : v.id?.bind (shelf.get? ·) = some e) :
    (∃ k, shelf.get? k = some e) ∧ e.Represents id v := by
  obtain ⟨-, k, hk, -, hrepresents⟩ := h.filed id v (mem_versions.1 hv)
  rw [hk] at he
  exact ⟨⟨k, he⟩, hrepresents e he⟩

/-- **The documents of a series are what is still stored of the versions.** -/
theorem mem_having_series (h : Sound a shelf) {e : Document} :
    e ∈ shelf.having Field.series (.reference id) [] ↔ e ∈ a.remaining shelf id := by
  rw [Shelf.having, List.mem_filter, Shelf.mem_visible, Document.holds_reference_iff, remaining,
    List.mem_filterMap]
  constructor
  · rintro ⟨⟨k, -, he⟩, hseries⟩
    cases hversion : e.isVersion with
    | false =>
      -- a live document has no series
      rw [(h.live k e he hversion).series] at hseries
      cases hseries
    | true =>
      -- a version has the series of the document it was checked in for
      obtain ⟨live, v, hmem, hk, hrepresents⟩ := h.exists_represents he hversion
      have hlive : live = id := by
        rw [hrepresents.series] at hseries
        exact Value.reference.inj (Option.some.inj hseries)
      rw [hlive] at hmem
      exact ⟨v, mem_versions.2 hmem, by rw [hk]; exact he⟩
  · rintro ⟨v, hv, he⟩
    obtain ⟨⟨k, hk⟩, hrepresents⟩ := h.represents_of_mem_versions hv he
    exact ⟨⟨k, List.not_mem_nil, hk⟩, hrepresents.series⟩

theorem ascending_remaining (h : Sound a shelf) (id : String) :
    (a.remaining shelf id).Pairwise fun d e => d.versionNumber.key < e.versionNumber.key := by
  refine List.pairwise_filterMap.2 ((h.ascending id).imp_of_mem ?_)
  intro v w hv hw hlt d hd e he
  have hdv := (h.represents_of_mem_versions hv hd).2.number
  have hew := (h.represents_of_mem_versions hw he).2.number
  rw [Document.versionNumber_of_agreesOn hdv, Document.versionNumber_of_agreesOn hew]
  exact hlt

/-- **The versions of a document are listed as they were checked in.** -/
theorem versionsOf_eq (h : Sound a shelf) {session : Session} (hlive : session.live = true)
    (id : String) : Workspace.versionsOf ⟨a.site, session⟩ id = .ok (a.remaining shelf id) := by
  have hask : Workspace.ask ⟨a.site, session⟩ (·.having Field.series (.reference id) []) =
      .ok (shelf.having Field.series (.reference id) []) :=
    Workspace.ask_eq_ok hlive (Store.having_eq h.coherent.stored _ _ _)
  have hfound : (shelf.having Field.series (.reference id) []).Nodup := by
    refine ((Query.pairwise_visible h.coherent.keyed []).filter _).imp ?_
    rintro d e ⟨i, j, hi, hj, hij⟩ rfl
    cases hi.symm.trans hj
    exact String.lt_irrefl _ hij
  have hordered : (a.remaining shelf id).Nodup :=
    (h.ascending_remaining id).imp fun hlt heq => hlt.ne (by rw [heq])
  have hperm := (List.perm_ext_iff_of_nodup hfound hordered).2 fun e => h.mem_having_series
  rw [Workspace.versionsOf, hask]
  show Except.ok _ = _
  rw [VersionNumber.mergeSort_eq_of_perm hperm (h.ascending_remaining id)]

/-! ## Runs -/

section Founding

variable {repository : String} {provision : Provision} {ids : IdSource} {clock : Instant}
  {queue : Option IndexQueue} {start : Site}

/-- The documents of a new repository know of no versions. -/
theorem blank_foundShelf {e : Document}
    (he : (Site.Coherent.foundShelf (ids.peek 0) (ids.peek 1)).get? id = some e) :
    ∀ key ∈ Field.ofVersioning, e.get? key = none := by
  obtain ⟨-, rfl⟩ | ⟨-, -, rfl⟩ := Site.Coherent.get?_foundShelf he <;>
    simp +decide [rootDocument, versionsDocument, Document.withId, Document.setAll,
      Document.get?_set, Field.ofVersioning]

theorem not_isVersion_foundShelf {e : Document}
    (he : (Site.Coherent.foundShelf (ids.peek 0) (ids.peek 1)).get? id = some e) :
    e.isVersion ≠ true := by
  rw [Document.isVersion, Document.flag_of_get?_eq_none (blank_foundShelf he _ (by decide))]
  exact Bool.false_ne_true

theorem of_found (hids : ids.Unrepeated)
    (hfound : Site.found repository (Store.empty provision) ids clock queue = .ok start) :
    Sound ⟨start, [], []⟩ (Site.Coherent.foundShelf (ids.peek 0) (ids.peek 1)) where
  coherent := .of_found hids hfound
  drawn := by simp
  filed := by simp
  known := fun _ _ he hversion => absurd hversion (not_isVersion_foundShelf he)
  live := fun _ _ hd _ => Document.shows_nil_of_blank (blank_foundShelf hd)
  alternate := fun _ => ⟨by simp [deedsOf], .nil⟩
  ascending := fun _ => .nil

theorem lasting_of_found (start : Site) :
    Lasting ⟨start, [], []⟩ (Site.Coherent.foundShelf (ids.peek 0) (ids.peek 1)) where
  plain := fun _ _ he hversion => absurd hversion (not_isVersion_foundShelf he)
  drawn := by simp
  stored := by simp

end Founding

end Sound

/-- **A run leaves the annals sound, and the versions there.** Induction on the run. -/
theorem Reaches.exists_sound {start : Site} {a : Annals} {shelf : Shelf} (hrun : Reaches start a)
    (h : Sound ⟨start, [], []⟩ shelf) (hlasting : Lasting ⟨start, [], []⟩ shelf) :
    ∃ t, Sound a t ∧ Lasting a t := by
  induction hrun with
  | refl => exact ⟨shelf, h, hlasting⟩
  | step event _ hadmits hroom ih =>
    obtain ⟨s, hs, hlasts⟩ := ih
    obtain ⟨t, ht⟩ := hs.next hadmits hroom
    exact ⟨t, ht, hlasts.next hs hadmits ht.coherent⟩

/-- The versions of a document tell its history. -/
structure Tells (a : Annals) (shelf : Shelf) (id : String) : Prop where
  /-- The document is checked in and out by turns. -/
  alternate : Deed.Alternate (a.deedsOf id)
  /-- Each check-in makes a version with a greater number than those before. -/
  ascending : (a.versions id).Pairwise fun v w => v.versionNumber.key < w.versionNumber.key
  /-- It is stored until a call is given it to remove, and under its id there is never anything
  else. -/
  filed : ∀ v ∈ a.versions id, v.Represents id v ∧ ∃ k, v.id? = some k ∧
    ((shelf.get? k).isSome = true ↔ k ∉ a.removed) ∧
      ∀ e, shelf.get? k = some e → e.Represents id v
  /-- The versions are listed in the order in which they were checked in, without those that were
  removed. -/
  listed : ∀ session : Session, session.live = true →
    Workspace.versionsOf ⟨a.site, session⟩ id =
      .ok ((a.versions id).filterMap fun v => v.id?.bind (shelf.get? ·))
  /-- As long as the document is there, it refers to the last of them and has its number. -/
  based : ∀ d, shelf.get? id = some d → d.isVersion = false → d.BasedOn (a.versions id).getLast?

/-- Sound annals tell the history of every document. -/
theorem Sound.tells {a : Annals} {shelf : Shelf} (h : Sound a shelf) (hlasting : Lasting a shelf)
    (id : String) : a.Tells shelf id where
  alternate := h.alternate id
  ascending := h.ascending id
  filed := by
    intro v hv
    have hmem := mem_versions.1 hv
    obtain ⟨hversion, k, hk, -, hrepresents⟩ := h.filed id v hmem
    exact ⟨hversion, k, hk, hlasting.stored id v hmem k hk, hrepresents⟩
  listed := fun _ hlive => h.versionsOf_eq hlive id
  based := fun d hd hlive => (h.live id d hd hlive).base

section Founded

variable {repository : String} {provision : Provision} {ids : IdSource} {clock : Instant}
  {queue : Option IndexQueue} {start : Site} {a : Annals}

/-- **Whatever happens to a new repository, the versions of a document tell its history.** -/
theorem history_of_reaches (hids : ids.Unrepeated)
    (hfound : Site.found repository (Store.empty provision) ids clock queue = .ok start)
    (hrun : Reaches start a) :
    ∃ shelf, a.site.store.shelf? = some shelf ∧ ∀ id, a.Tells shelf id := by
  obtain ⟨shelf, h, hlasting⟩ :=
    hrun.exists_sound (.of_found hids hfound) (Sound.lasting_of_found start)
  exact ⟨shelf, h.coherent.stored, h.tells hlasting⟩

/-- For instance after a document was added, checked in and checked out, and its version was
removed. -/
theorem history_after_checkOut :
    ∃ start, Site.found "test" (Store.empty .own) .sequential ⟨0, 0, by decide⟩ none = .ok start ∧
      let a := ((((Annals.mk start [] []).next
        (.call (.fresh "s") (.addChild start.root "a" "File"))).next
        (.call (.fresh "s") (.checkIn "UUID_2" .minor))).next
        (.call (.fresh "s") (.checkOut "UUID_2"))).next
        (.call (.fresh "s") (.remove "UUID_3"))
      (a.deedsOf "UUID_2").map Deed.isCheckIn = [true, false] ∧ a.removed = ["UUID_3"] ∧
        ∃ shelf, a.site.store.shelf? = some shelf ∧ ∀ id, a.Tells shelf id := by
  refine ⟨_, Site.Coherent.found_eq_ok IdSource.unrepeated_sequential, ?_⟩
  intro a
  have hdeeds : (a.deedsOf "UUID_2").map Deed.isCheckIn = [true, false] := by decide +kernel
  have hremoved : a.removed = ["UUID_3"] := by decide +kernel
  refine ⟨hdeeds, hremoved, history_of_reaches IdSource.unrepeated_sequential
    (Site.Coherent.found_eq_ok IdSource.unrepeated_sequential)
    (.step _ (.step _ (.step _ (.step _ .refl trivial trivial) trivial ?room) trivial trivial)
      trivial trivial)⟩
  case room =>
    intro d v hd _
    have hnumber : (Except.toOption (.ok (some d) : Except StoreError (Option Document))).join.map
        (·.versionNumber) = some ⟨0, 0⟩ := by
      rw [← hd]
      decide +kernel
    have hzero : d.versionNumber = ⟨0, 0⟩ := Option.some.inj hnumber
    rw [hzero]
    show (0 : Int64) < Int64.maxValue
    decide

end Founded

end Annals

end ContentRepository
