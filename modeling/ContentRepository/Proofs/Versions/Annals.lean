import ContentRepository.Proofs.Versions.CheckIn
import ContentRepository.Proofs.Versions.Numbers
import Mathlib.Data.List.Chain

/-!
# Annals of check-ins and check-outs

The documents themselves keep no history: a live document knows its last version only, and the
versions lie side by side in their folder. `Annals` add to a site what the calls of `checkin`,
`checkout` and `remove` did so far, as they answered. Proofs keep them, a repository does not. That
the documents fit the annals is an invariant.

* **`Annals.next`** — the annals after one more event.
* **`Annals.Sound`** — the documents fit the annals.
* **`Annals.Sound.quiet`** and **`Annals.Sound.concat`** — they still do after an event that is no
  deed, and after a deed.
-/

namespace ContentRepository

/-- A check-in or a check-out that succeeded. -/
inductive Deed where
  /-- The document was checked in, and the version was answered. -/
  | checkIn (id : String) (version : Document)
  | checkOut (id : String)

namespace Deed

def subject : Deed → String
  | .checkIn id _ => id
  | .checkOut id => id

/-- The version that was made. A check-out makes none. -/
def version? : Deed → Option Document
  | .checkIn _ version => some version
  | .checkOut _ => none

def isCheckIn (deed : Deed) : Bool := deed.version?.isSome

/-- Check-ins and check-outs take turns, and a check-in comes first. -/
structure Alternate (deeds : List Deed) : Prop where
  first : ∀ deed ∈ deeds.head?, deed.isCheckIn = true
  turns : deeds.IsChain fun deed later => deed.isCheckIn ≠ later.isCheckIn

/-- Whether the last of them is a check-in. -/
def endIn (deeds : List Deed) : Bool := deeds.getLast?.any isCheckIn

def versions (deeds : List Deed) : List Document := deeds.filterMap version?

theorem eq_checkIn {deed : Deed} {v : Document} (hversion : deed.version? = some v) :
    deed = .checkIn deed.subject v := by
  cases deed with
  | checkIn id version =>
    cases hversion
    rfl
  | checkOut id => cases hversion

@[simp] theorem endIn_concat (deeds : List Deed) (deed : Deed) :
    endIn (deeds ++ [deed]) = deed.isCheckIn := by
  simp [endIn]

theorem versions_concat (deeds : List Deed) (deed : Deed) :
    versions (deeds ++ [deed]) = versions deeds ++ deed.version?.toList := by
  rw [versions, versions, List.filterMap_append]
  cases hversion : deed.version? <;> simp [hversion]

theorem Alternate.concat {deeds : List Deed} (h : Alternate deeds) {deed : Deed}
    (hturn : deed.isCheckIn = !endIn deeds) : Alternate (deeds ++ [deed]) where
  first := by
    intro first hfirst
    cases deeds with
    | nil =>
      cases hfirst
      exact hturn
    | cons head rest => exact h.first first hfirst
  turns := by
    refine List.isChain_append.2 ⟨h.turns, .singleton deed, ?_⟩
    intro last hlast next hnext
    cases hnext
    rw [hturn, endIn, Option.mem_def.1 hlast]
    simp

end Deed

/-- A site, and what was checked in and out so far, the oldest first. -/
structure Annals where
  site : Site
  deeds : List Deed
  /-- The ids that calls were given to remove, and did. -/
  removed : List String

/-- The deed that an event is, if it is one and succeeds. -/
def Site.deed? (site : Site) : Event → Option Deed
  | .call session (.checkIn id increment) =>
    (Workspace.checkIn ⟨site, session⟩ id increment).1.toOption.map (.checkIn id)
  | .call session (.checkOut id) =>
    (Workspace.checkOut ⟨site, session⟩ id).1.toOption.map fun _ => .checkOut id
  | _ => none

/-- What an event removes, if it is a removal and succeeds. -/
def Site.removal? (site : Site) : Event → Option String
  | .call session (.remove id) => (Workspace.remove ⟨site, session⟩ id).1.toOption.map fun _ => id
  | _ => none

/-- No version number overflows in the event. -/
def Site.HasRoom (site : Site) : Event → Prop
  | .call session (.checkIn id increment) => ∀ d v, site.store.find? id = .ok (some d) →
      (Workspace.checkIn ⟨site, session⟩ id increment).1 = .ok v →
        d.versionNumber.HasNext increment
  | _ => True

namespace Annals

/-- The annals after one more event. -/
def next (a : Annals) (event : Site.Event) : Annals :=
  ⟨a.site.next event, a.deeds ++ (a.site.deed? event).toList,
    a.removed ++ (a.site.removal? event).toList⟩

/-- The annals come about from a site by a run in which no version number overflows. -/
inductive Reaches (start : Site) : Annals → Prop where
  | refl : Reaches start ⟨start, [], []⟩
  | step {a : Annals} (event : Site.Event) (hrun : Reaches start a)
      (hadmits : a.site.Admits event) (hroom : a.site.HasRoom event) :
      Reaches start (a.next event)

/-- What was done to one document. -/
def deedsOf (a : Annals) (id : String) : List Deed := a.deeds.filter (·.subject = id)

/-- The versions checked in from one document. -/
def versions (a : Annals) (id : String) : List Document := Deed.versions (a.deedsOf id)

/-- What is still stored of them, in the order of the check-ins. -/
def remaining (a : Annals) (shelf : Shelf) (id : String) : List Document :=
  (a.versions id).filterMap fun v => v.id?.bind (shelf.get? ·)

variable {a : Annals} {site : Site} {deed : Deed} {id : String}

theorem mem_versions {v : Document} : v ∈ a.versions id ↔ .checkIn id v ∈ a.deeds := by
  rw [versions, Deed.versions, deedsOf, List.mem_filterMap]
  constructor
  · rintro ⟨deed, hdeed, hversion⟩
    obtain ⟨hmem, hsubject⟩ := List.mem_filter.1 hdeed
    cases deed with
    | checkOut other => cases hversion
    | checkIn other version =>
      cases hversion
      rw [← of_decide_eq_true hsubject]
      exact hmem
  · intro hmem
    exact ⟨_, List.mem_filter.2 ⟨hmem, decide_eq_true rfl⟩, rfl⟩

/-- The annals of another site, after one more deed. -/
def concat (a : Annals) (site : Site) (deed : Deed) : Annals :=
  { a with site, deeds := a.deeds ++ [deed] }

theorem deedsOf_concat_self (a : Annals) (site : Site) (deed : Deed) :
    (a.concat site deed).deedsOf deed.subject = a.deedsOf deed.subject ++ [deed] := by
  simp [concat, deedsOf, List.filter_append]

theorem deedsOf_concat_of_ne (hne : id ≠ deed.subject) (a : Annals) (site : Site) :
    (a.concat site deed).deedsOf id = a.deedsOf id := by
  simp [concat, deedsOf, List.filter_append, hne.symm]

theorem versions_concat_self (a : Annals) (site : Site) (deed : Deed) :
    (a.concat site deed).versions deed.subject =
      a.versions deed.subject ++ deed.version?.toList := by
  rw [versions, versions, deedsOf_concat_self, Deed.versions_concat]

theorem versions_concat_of_ne (hne : id ≠ deed.subject) (a : Annals) (site : Site) :
    (a.concat site deed).versions id = a.versions id := by
  rw [versions, versions, deedsOf_concat_of_ne hne]

end Annals

/-! ## The invariant -/

/-- The fields that hold the number of a version. -/
def Field.ofNumber : List String :=
  [Field.versionLabel, Field.majorVersion, Field.minorVersion]

namespace Document

/-- The document refers to its last version and has its number; to nothing if there is none. -/
def BasedOn (d : Document) : Option Document → Prop
  | none => ∀ key ∈ Field.baseVersion :: Field.ofNumber, d.get? key = none
  | some v => d.get? Field.baseVersion = v.id?.map .reference ∧ AgreesOn Field.ofNumber v d

/-- The document is what is stored of the version `v` that was checked in from `id`. -/
structure Represents (e : Document) (id : String) (v : Document) : Prop where
  version : e.isVersion = true
  free : e.isCheckedIn = false
  series : e.get? Field.series = some (.reference id)
  number : AgreesOn Field.ofNumber v e

/-- The document is no version, and shows of the deeds done to it just what it should. -/
structure Shows (d : Document) (deeds : List Deed) : Prop where
  series : d.get? Field.series = none
  checkedIn : d.isCheckedIn = Deed.endIn deeds
  base : d.BasedOn (Deed.versions deeds).getLast?

variable {d e v : Document} {id : String}

theorem BasedOn.congr {last : Option Document} (h : d.BasedOn last)
    (hde : AgreesOn (Field.baseVersion :: Field.ofNumber) d e) : e.BasedOn last := by
  cases last with
  | none => exact fun key hkey => (hde key hkey).trans (h key hkey)
  | some v => exact ⟨(hde _ (by decide)).trans h.1, h.2.trans (hde.mono (by decide))⟩

theorem Represents.congr (h : d.Represents id v) (hde : AgreesOn Field.ofVersioning d e) :
    e.Represents id v where
  version := (hde.flag (by decide)).trans h.version
  free := (hde.flag (by decide)).trans h.free
  series := (hde _ (by decide)).trans h.series
  number := h.number.trans (hde.mono (by decide))

theorem Shows.congr {deeds : List Deed} (h : d.Shows deeds)
    (hde : AgreesOn Field.ofVersioning d e) : e.Shows deeds where
  series := (hde _ (by decide)).trans h.series
  checkedIn := (hde.flag (by decide)).trans h.checkedIn
  base := h.base.congr (hde.mono (by decide))

/-- A document that knows of no versions shows nothing. -/
theorem shows_nil (hseries : d.get? Field.series = none)
    (hblank : ∀ key ∈ Field.ofCheckIn, d.get? key = none) : d.Shows [] := by
  have hsub : Field.baseVersion :: Field.ofNumber ⊆ Field.ofCheckIn := by decide
  exact ⟨hseries, flag_of_get?_eq_none (hblank _ (by decide)), fun key hkey =>
    hblank key (hsub hkey)⟩

theorem shows_nil_of_blank (hblank : ∀ key ∈ Field.ofVersioning, d.get? key = none) :
    d.Shows [] := by
  have hsub : Field.ofCheckIn ⊆ Field.ofVersioning := by decide
  exact shows_nil (hblank _ (by decide)) fun key hkey => hblank key (hsub hkey)

theorem versionNumber_of_agreesOn (hde : AgreesOn Field.ofNumber d e) :
    e.versionNumber = d.versionNumber := by
  rw [versionNumber, versionNumber, count, count, count, count, hde _ (by decide),
    hde _ (by decide)]

/-- Documents that were given the same number agree on it. -/
theorem agreesOn_number {n : VersionNumber}
    (hd : ∀ field ∈ n.fields, d.get? field.1 = some field.2)
    (he : ∀ field ∈ n.fields, e.get? field.1 = some field.2) : AgreesOn Field.ofNumber d e := by
  have hfields : Field.ofNumber ⊆ n.fields.map (·.1) := by
    simp [Field.ofNumber, VersionNumber.fields]
  intro key hkey
  obtain ⟨field, hfield, rfl⟩ := List.mem_map.1 (hfields hkey)
  rw [hd field hfield, he field hfield]

end Document

namespace Annals

/-- The documents on the shelf fit the annals. -/
structure Sound (a : Annals) (shelf : Shelf) : Prop where
  coherent : Site.Coherent a.site shelf
  /-- The ids of all documents that were ever checked in or out are drawn. -/
  drawn : ∀ deed ∈ a.deeds, a.site.ids.Drew deed.subject
  /-- What was answered is a version, and under its id there is nothing else. -/
  filed : ∀ id v, .checkIn id v ∈ a.deeds → v.Represents id v ∧
    ∃ k, v.id? = some k ∧ a.site.ids.Drew k ∧ ∀ e, shelf.get? k = some e → e.Represents id v
  /-- There are no versions but those that were checked in. -/
  known : ∀ k e, shelf.get? k = some e → e.isVersion = true →
    ∃ id v, .checkIn id v ∈ a.deeds ∧ v.id? = some k
  live : ∀ id d, shelf.get? id = some d → d.isVersion = false → d.Shows (a.deedsOf id)
  alternate : ∀ id, Deed.Alternate (a.deedsOf id)
  ascending : ∀ id, (a.versions id).Pairwise fun v w =>
    v.versionNumber.key < w.versionNumber.key

namespace Sound

variable {a : Annals} {shelf t : Shelf} {after : Site} {id : String} {d : Document}

/-- A document is a version if it is one of those that were checked in. -/
theorem exists_represents (h : Sound a shelf) (hd : shelf.get? id = some d)
    (hversion : d.isVersion = true) : ∃ live v, .checkIn live v ∈ a.deeds ∧ v.id? = some id ∧
      d.Represents live v := by
  obtain ⟨live, v, hmem, hv⟩ := h.known id d hd hversion
  obtain ⟨-, k, hk, -, hrepresents⟩ := h.filed live v hmem
  obtain rfl := Option.some.inj (hv.symm.trans hk)
  exact ⟨live, v, hmem, hv, hrepresents d hd⟩

/-- Nothing was done to a document that is yet to be made. -/
theorem deedsOf_eq_nil (h : Sound a shelf) (hnew : ¬ a.site.ids.Drew id) : a.deedsOf id = [] := by
  refine List.filter_eq_nil_iff.2 fun deed hdeed hsubject => hnew ?_
  rw [← of_decide_eq_true hsubject]
  exact h.drawn deed hdeed

/-! ## Events that are no deeds -/

/-- Neither a check-in nor a check-out. -/
def Quiet : Site.Event → Prop
  | .call _ (.checkIn _ _) => False
  | .call _ (.checkOut _) => False
  | _ => True

/-- What such an event leaves under an id: a document that says of its versions what it said before,
or a new one that says nothing. -/
inductive Carries (a : Annals) (shelf : Shelf) (id : String) (e : Document) : Prop where
  | old {d : Document} (hd : shelf.get? id = some d)
      (hagree : Document.AgreesOn Field.ofVersioning d e) : Carries a shelf id e
  | new (hnew : ¬ a.site.ids.Drew id) (hlive : e.isVersion = false) (hshows : e.Shows []) :
      Carries a shelf id e

theorem carries_of_files (h : Sound a shelf) {event : Site.Event} (hquiet : Quiet event)
    {e : Document} (hfiles : event.Files a.site shelf id e) : Carries a shelf id e := by
  obtain ⟨d, hd, hamends⟩ | ⟨hnew, hplants⟩ := hfiles
  · refine .old hd ?_
    cases hamends with
    | incidental hagree =>
      exact hagree.agreesOn (Field.not_incidental (by decide) (by decide))
    | place _ hagree => exact hagree.agreesOn (by decide)
    | content _ hagree => exact hagree.agreesOn (by decide)
    | checkIn hevent => exact absurd hquiet (by simp [hevent, Quiet])
    | checkOut hevent => exact absurd hquiet (by simp [hevent, Quiet])
  · cases hplants with
    | blank hblank =>
      exact .new hnew (Document.flag_of_get?_eq_none (hblank _ (by decide)))
        (Document.shows_nil_of_blank hblank)
    | copy hc hversion hagree hblank =>
      -- what is copied is no version, so it belongs to no series
      have hseries : e.get? Field.series = none :=
        (hagree _ (by decide)).trans (h.live _ _ hc hversion).series
      exact .new hnew ((hagree.flag (by decide)).trans hversion)
        (Document.shows_nil hseries hblank)
    | version hevent => exact absurd hquiet (by simp [hevent, Quiet])

/-- **An event that is no deed leaves the annals sound.** -/
theorem quiet (h : Sound a shelf) (ht : Site.Coherent after t)
    (hdrew : ∀ id, a.site.ids.Drew id → after.ids.Drew id)
    (hcarries : ∀ id e, t.get? id = some e → Carries a shelf id e) (removed : List String) :
    Sound ⟨after, a.deeds, removed⟩ t where
  coherent := ht
  drawn := fun deed hdeed => hdrew _ (h.drawn deed hdeed)
  filed := by
    intro id v hmem
    obtain ⟨hversion, k, hk, hdrawn, hrepresents⟩ := h.filed id v hmem
    -- the version may have gone; if it is there, it is the one filed
    refine ⟨hversion, k, hk, hdrew k hdrawn, fun e he => ?_⟩
    cases hcarries k e he with
    | old hd hagree => exact (hrepresents _ hd).congr hagree
    | new hnew => exact absurd hdrawn hnew
  known := by
    intro k e he hversion
    cases hcarries k e he with
    | old hd hagree => exact h.known k _ hd ((hagree.flag (by decide)).symm.trans hversion)
    -- a document that is new is no version here, and so none is unknown
    | new _ hlive => exact absurd hversion (by simp [hlive])
  live := by
    intro id e he hlive
    cases hcarries id e he with
    | old hd hagree =>
      exact (h.live id _ hd ((hagree.flag (by decide)).symm.trans hlive)).congr hagree
    | new hnew _ hshows =>
      -- nothing was done to a document that is new
      show e.Shows (a.deedsOf id)
      rw [h.deedsOf_eq_nil hnew]
      exact hshows
  alternate := h.alternate
  ascending := h.ascending

/-! ## Deeds -/

/-- What a deed does to the shelf: the document shows it, the version that is made is put under an
id of its own, and all else stays. -/
structure Records (a : Annals) (shelf : Shelf) (deed : Deed) (d : Document) (after : Site)
    (t : Shelf) : Prop where
  coherent : Site.Coherent after t
  drew : ∀ id, a.site.ids.Drew id → after.ids.Drew id
  there : shelf.get? deed.subject = some d
  live : d.isVersion = false
  turn : deed.isCheckIn = !d.isCheckedIn
  version : ∀ v, deed.version? = some v → ∃ k, v.id? = some k ∧ ¬ a.site.ids.Drew k ∧
    t.get? k = some v ∧ v.Represents deed.subject v ∧ d.versionNumber.key < v.versionNumber.key
  kept : ∀ k e, t.get? k = some e →
    (k = deed.subject ∧ e.isVersion = false ∧ e.Shows (a.deedsOf deed.subject ++ [deed])) ∨
      (∃ v, deed.version? = some v ∧ v.id? = some k) ∨
      (k ≠ deed.subject ∧ shelf.get? k = some e)

/-- What is filed under the id of a new version is that version. -/
theorem Records.of_version {deed : Deed} (hr : Records a shelf deed d after t) {k : String}
    {v e : Document} (hversion : deed.version? = some v) (hk : v.id? = some k)
    (he : t.get? k = some e) : ¬ a.site.ids.Drew k ∧ e = v ∧ v.Represents deed.subject v := by
  obtain ⟨other, hother, hnew, hv, hrepresents, -⟩ := hr.version v hversion
  obtain rfl := Option.some.inj (hk.symm.trans hother)
  exact ⟨hnew, Option.some.inj (he.symm.trans hv), hrepresents⟩

/-- No version checked in before has a greater number than the document: they ascend, and the
document has the number of the last. -/
theorem key_le_of_mem_versions (h : Sound a shelf) (hd : shelf.get? id = some d)
    (hlive : d.isVersion = false) {v : Document} (hv : v ∈ a.versions id) :
    v.versionNumber.key ≤ d.versionNumber.key := by
  have hbase : d.BasedOn (a.versions id).getLast? := (h.live id d hd hlive).base
  cases hlast : (a.versions id).getLast? with
  | none =>
    rw [List.getLast?_eq_none_iff.1 hlast] at hv
    cases hv
  | some last =>
    rw [hlast] at hbase
    rw [Document.versionNumber_of_agreesOn hbase.2]
    obtain ⟨before, hsplit⟩ := List.getLast?_eq_some_iff.1 hlast
    have hascending := h.ascending id
    rw [hsplit] at hv hascending
    obtain hv | hv := List.mem_append.1 hv
    · exact ((List.pairwise_append.1 hascending).2.2 v hv last List.mem_cons_self).le
    · rw [List.mem_singleton.1 hv]

/-- **A deed leaves the annals sound.** -/
theorem concat (h : Sound a shelf) {deed : Deed} (hr : Records a shelf deed d after t) :
    Sound (a.concat after deed) t where
  coherent := hr.coherent
  drawn := by
    intro other hother
    obtain hold | hnew := List.mem_append.1 hother
    · exact hr.drew _ (h.drawn other hold)
    · rw [List.mem_singleton.1 hnew]
      exact hr.drew _ (h.coherent.drawn _ d hr.there)
  filed := by
    intro id v hmem
    obtain hold | hnew := List.mem_append.1 hmem
    · obtain ⟨hversion, k, hk, hdrawn, hrepresents⟩ := h.filed id v hold
      refine ⟨hversion, k, hk, hr.drew k hdrawn, fun e he => ?_⟩
      -- the id of an old version is neither that of the live document nor that of the new version
      obtain ⟨rfl, -⟩ | ⟨w, hw, hwk⟩ | ⟨-, he⟩ := hr.kept k e he
      · exact absurd (hrepresents d hr.there).version (by simp [hr.live])
      · exact absurd hdrawn (hr.of_version hw hwk he).1
      · exact hrepresents e he
    · obtain rfl := List.mem_singleton.1 hnew
      obtain ⟨k, hk, -, hv, hrepresents, -⟩ := hr.version v rfl
      refine ⟨hrepresents, k, hk, hr.coherent.drawn k v hv, fun e he => ?_⟩
      rw [(hr.of_version rfl hk he).2.1]
      exact hrepresents
  known := by
    intro k e he hversion
    obtain ⟨-, hlive, -⟩ | ⟨v, hv, hk⟩ | ⟨-, he⟩ := hr.kept k e he
    · exact absurd hversion (by simp [hlive])
    · refine ⟨deed.subject, v, List.mem_append_right _ ?_, hk⟩
      rw [← Deed.eq_checkIn hv]
      exact List.mem_singleton_self deed
    · obtain ⟨id, v, hmem, hk⟩ := h.known k e he hversion
      exact ⟨id, v, List.mem_append_left _ hmem, hk⟩
  live := by
    intro id e he hlive
    obtain ⟨rfl, -, hshows⟩ | ⟨v, hv, hk⟩ | ⟨hne, he⟩ := hr.kept id e he
    · rw [deedsOf_concat_self]
      exact hshows
    · obtain ⟨-, rfl, hrepresents⟩ := hr.of_version hv hk he
      exact absurd hrepresents.version (by simp [hlive])
    · rw [deedsOf_concat_of_ne hne]
      exact h.live id e he hlive
  alternate := by
    intro id
    by_cases hid : id = deed.subject
    · subst hid
      rw [deedsOf_concat_self]
      refine (h.alternate deed.subject).concat ?_
      rw [hr.turn, (h.live _ d hr.there hr.live).checkedIn]
    · rw [deedsOf_concat_of_ne hid]
      exact h.alternate id
  ascending := by
    intro id
    by_cases hid : id = deed.subject
    · subst hid
      rw [versions_concat_self]
      refine List.pairwise_append.2 ⟨h.ascending _, ?_, fun w hw v hv => ?_⟩
      · cases deed.version? <;> simp
      · obtain ⟨k, -, -, -, -, hraised⟩ := hr.version v (Option.mem_toList.1 hv)
        exact (h.key_le_of_mem_versions hr.there hr.live hw).trans_lt hraised
    · rw [versions_concat_of_ne hid]
      exact h.ascending id

end Sound

end Annals

end ContentRepository
