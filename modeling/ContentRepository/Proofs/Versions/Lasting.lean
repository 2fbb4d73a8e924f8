import ContentRepository.Proofs.Tree.Remaining
import ContentRepository.Proofs.Versions.Annals
import ContentRepository.Proofs.Versions.Snapshots

/-!
# Versions last until they are removed

Of all plans only those of removals delete documents, and a removal takes no version but the one it
is for: versions lie in a folder that cannot be removed, have nothing below them and are no proxies.

* **`Shelf.Keeps`** — nothing is taken from a shelf; **`Site.Coherent.keeps_next`** — no event takes
  anything that is no removal.
* **`Site.Coherent.remove_cases`** and **`Site.Coherent.isSome_remaining`** — all that a removal can
  do, and what it leaves of the versions.
* **`Annals.Lasting`** — the versions checked in are there, except for those that were removed.
-/

namespace ContentRepository

/-- Whatever was there still is. -/
def Shelf.Keeps (s t : Shelf) : Prop := ∀ k, (s.get? k).isSome = true → (t.get? k).isSome = true

namespace Shelf.Keeps

variable {s t u : Shelf}

theorem refl (s : Shelf) : s.Keeps s := fun _ hk => hk

theorem trans (h : s.Keeps t) (h' : t.Keeps u) : s.Keeps u := fun k hk => h' k (h k hk)

theorem insert (s : Shelf) (id : String) (d : Document) : s.Keeps (Table.insert s id d) := by
  intro k hk
  rw [Table.get?_insert]
  split
  · rfl
  · exact hk

end Shelf.Keeps

/-- A plan that deletes nothing. -/
def Plan.Spares (plan : Plan) : Prop := ∀ k, .delete k ∉ plan.writes

/-! ## Events that remove nothing -/

namespace Workspace

variable {w : Workspace} {s : Shelf}

theorem exists_keeps_write {after : Workspace} {first : Write} (hfirst : ∀ k, first ≠ .delete k)
    (hstored : w.site.store.shelf? = some s) (hw : w.write first = .ok after) :
    ∃ t, after.site.store.shelf? = some t ∧ s.Keeps t := by
  cases first with
  | mark id =>
    cases hw
    exact ⟨s, hstored, .refl s⟩
  | delete id => exact absurd rfl (hfirst id)
  | create d =>
    obtain ⟨id, -, rfl⟩ := of_write_files (.create d) hstored hw
    exact ⟨_, rfl, .insert s id d⟩
  | update d =>
    obtain ⟨id, -, rfl⟩ := of_write_files (.update d) hstored hw
    exact ⟨_, rfl, .insert s id d⟩

/-- However far the writes get, they take nothing away. Induction on the list. -/
theorem exists_keeps_writeAll {writes : List Write} (hwrites : ∀ k, .delete k ∉ writes)
    (hstored : w.site.store.shelf? = some s) :
    ∃ t, (writeAll writes w).2.site.store.shelf? = some t ∧ s.Keeps t := by
  induction writes generalizing w s with
  | nil => exact ⟨s, hstored, .refl s⟩
  | cons first rest ih =>
    rw [writeAll]
    cases hw : w.write first with
    | error e => exact ⟨s, hstored, .refl s⟩
    | ok after =>
      have hfirst : ∀ k, first ≠ .delete k := fun k heq => hwrites k (heq ▸ List.mem_cons_self)
      obtain ⟨u, hu, hkeeps⟩ := exists_keeps_write hfirst hstored hw
      obtain ⟨t, ht, hrest⟩ := ih (fun k hk => hwrites k (List.mem_cons_of_mem _ hk)) hu
      exact ⟨t, ht, hkeeps.trans hrest⟩

theorem exists_keeps_execute {plan : Plan} (hplan : plan.Spares)
    (hstored : w.site.store.shelf? = some s) :
    ∃ t, (w.execute plan).2.site.store.shelf? = some t ∧ s.Keeps t := by
  let begun : Workspace := { w with site := { w.site with
    ids := w.site.ids.skip plan.drawn, clock := w.site.clock.next } }
  have hbegun : begun.site.store.shelf? = some s := hstored
  exact exists_keeps_writeAll hplan hbegun

end Workspace

namespace Site

variable {site : Site} {shelf t : Shelf} {plan : Plan} {event : Event} {id k : String}
  {d e : Document}

namespace Coherent

/-- **Only the plan of a removal deletes documents.** -/
theorem spares_of_plans (h : Coherent site shelf) {call : Session.Call}
    (hadmits : site.AdmitsCall call) (hcall : ∀ id, call ≠ .remove id)
    (hplans : site.Plans plan call) : plan.Spares := by
  intro k
  cases call with
  -- the two raw writes are not admitted, and a removal is the exception
  | create d => exact hadmits.elim
  | delete id => exact hadmits.elim
  | remove id => exact absurd rfl (hcall id)
  | update d =>
    cases hplans
    -- no other plan has a deletion among its writes
    simp [Plan.ofWrite]
  | revise id fields cleared =>
    obtain ⟨d, -, rfl⟩ := hplans
    simp [Plan.ofWrite]
  | addChild parent name type =>
    obtain ⟨answer, hplan⟩ := hplans
    obtain ⟨dp, -, -, -, -, rfl⟩ := planAdd_eq_ok h.stored hplan
    simp
  | addProxy target parent name =>
    obtain ⟨answer, hplan⟩ := hplans
    obtain ⟨dt, dp, -, -, -, -, -, -, rfl⟩ := planProxy_eq_ok h.stored hplan
    simp
  | checkIn id increment =>
    obtain ⟨answer, hplan⟩ := hplans
    obtain ⟨d, folder, -, -, rfl⟩ := planCheckIn_eq_ok h.stored hplan
    simp
  | checkOut id =>
    obtain ⟨d, -, -, rfl⟩ := planCheckOut_eq_ok h.stored hplans
    simp
  | setPolicy id policy overwrite =>
    obtain ⟨d, merged, -, rfl⟩ := planPolicy_eq_ok h.stored hplans
    simp
  | move id dest name? =>
    obtain ⟨⟨hroot, hversions⟩, answer, hplan⟩ := hplans
    -- the move may have nothing to write at all
    obtain rfl | ⟨name, d, dest, -, rfl⟩ := h.planMove_eq_ok hroot hversions hplan
    · simp
    · simp
  | copy id dest name? =>
    obtain ⟨-, answer, hplan⟩ := hplans
    obtain ⟨name, d, dest, -, -, -, rfl⟩ := h.planCopy_eq_ok hplan
    simp [copyWrites]
  | _ => exact hplans.elim

/-- **An event that is no removal takes nothing away.** -/
theorem keeps_next (h : Coherent site shelf) (hadmits : site.Admits event)
    (hevent : ∀ session id, event ≠ .call session (.remove id))
    (ht : (site.next event).store.shelf? = some t) : shelf.Keeps t := by
  cases event with
  | index obstacle job =>
    obtain ⟨u, hu, hagree⟩ := IndexJob.agreesOn_structural_of_apply h.stored h.keyed obstacle job
    cases ht.symm.trans hu
    exact fun k hk => hagree.isSome.trans hk
  | call session call =>
    -- a commit writes nothing to the store
    by_cases hcall : call = .commit
    · subst hcall
      have hcommit : Coherent (Workspace.perform ⟨site, session⟩ .commit).2.site shelf :=
        commit (w := ⟨site, session⟩) h
      cases ht.symm.trans hcommit.stored
      exact .refl shelf
    obtain hsame | ⟨-, plan, hplans, hexecute⟩ :=
      Workspace.perform_cases (w := ⟨site, session⟩) hcall
    · -- refused, or it only reads
      rw [Site.next, hsame] at ht
      cases ht.symm.trans h.stored
      exact .refl shelf
    · have hspares := h.spares_of_plans hadmits (fun id heq => hevent session id (heq ▸ rfl)) hplans
      obtain ⟨u, hu, hkeeps⟩ :=
        Workspace.exists_keeps_execute (w := ⟨site, session⟩) hspares h.stored
      rw [Site.next, hexecute] at ht
      cases ht.symm.trans hu
      exact hkeeps

/-! ## Removals -/

/-- **A removal is refused, or it takes away what hangs on a document.** -/
theorem remove_cases {w : Workspace} (h : Coherent w.site shelf) (id : String) :
    (∃ e, w.remove id = (.error e, w)) ∨
      ∃ d r drawn session, (id ≠ w.site.root ∧ id ≠ w.site.versions) ∧ shelf.get? id = some d ∧
        w.site.removal id = .ok r ∧
        w.remove id = (.ok (), ⟨w.site.settled drawn (remaining shelf r), session⟩) := by
  rw [Workspace.remove]
  cases hplan : (do
      w.site.requireOrdinary id "remove"
      (← w.liveSite).planRemove id) with
  | error e => exact .inl ⟨e, rfl⟩
  | ok plan =>
    obtain ⟨hordinary, -, hplan⟩ := Workspace.of_requireOrdinary_bind hplan
    obtain ⟨r, hr, hwrites⟩ := h.writes_planRemove hplan
    obtain ⟨session, hexecute⟩ := Workspace.execute_of_writes hwrites h.stored
    obtain ⟨d, hd, -⟩ := bind_eq_ok_iff.1 hr
    rw [require_eq_ok_iff h.stored] at hd
    exact .inr ⟨d, r, plan.drawn, session, hordinary, hd, hr, hexecute⟩

/-- What lies in the folder of versions has no ancestors but the two folders. -/
theorem ancestors_of_isVersion (h : Coherent site shelf) (he : shelf.get? k = some e)
    (hversion : e.isVersion = true) : e.ancestors = [site.root, site.versions] := by
  obtain ⟨folder, hfolder, hparent, -⟩ := h.tree.folder
  obtain ⟨top, htop, -⟩ := h.tree.top
  have hbelow := h.tree.ancestors_of_child he ((h.tree.filed k e he).2 hversion) hfolder
  have habove := h.tree.ancestors_of_child hfolder hparent htop
  rw [h.tree.ancestors_root htop] at habove
  have hfolders : folder.ancestors = [site.root] := Document.references_of_get? habove
  rw [hfolders] at hbelow
  exact Document.references_of_get? hbelow

/-- **A removal takes no version but the one it is for.** -/
theorem isSome_remaining {r : Removal} (h : Coherent site shelf) (hd : shelf.get? id = some d)
    (hordinary : id ≠ site.root ∧ id ≠ site.versions) (hr : site.removal id = .ok r)
    (he : shelf.get? k = some e) (hversion : e.isVersion = true) (hproxy : e.isProxy = false)
    (hne : k ≠ id) : ((remaining shelf r).get? k).isSome = true := by
  have hpruned := h.pruned_remaining hd hr
  refine (hpruned.stored k).2 ⟨by rw [he]; rfl, fun hk => ?_, ?_⟩
  · -- it is below none but the two folders, and these stay
    obtain ⟨e', he', heq | hmem⟩ := (h.tree.inSubtree_iff hd).1 ((hpruned.mem_iff k).1 hk)
    · exact hne heq
    · cases he.symm.trans he'
      rw [h.ancestors_of_isVersion he hversion] at hmem
      simp [hordinary] at hmem
  · rintro b - ⟨e', he', hstands, -⟩
    cases he.symm.trans he'
    rw [hproxy] at hstands
    cases hstands

/-- What is removed is gone. -/
theorem get?_remaining_self {r : Removal} (h : Coherent site shelf) (hd : shelf.get? id = some d)
    (hr : site.removal id = .ok r) : (remaining shelf r).get? id = none := by
  have hpruned := h.pruned_remaining hd hr
  refine Option.not_isSome_iff_eq_none.1 fun hthere => ?_
  exact ((hpruned.stored id).1 hthere).2.1 ((hpruned.mem_iff id).2 .refl)

end Coherent

/-! ## Every event -/

/-- A version that is stored after an event was stored before and is as much of a proxy, or it is the
one that was made. -/
theorem Event.Derives.version_cases (h : event.Derives site shelf k e)
    (hversion : e.isVersion = true) :
    (∃ d, shelf.get? k = some d ∧ Document.AgreesOn [Field.isVersion, Field.isProxy] d e) ∨
      (¬ site.ids.Drew k ∧
        ∃ session id increment, event = .call session (.checkIn id increment)) := by
  cases h with
  | same he => exact .inl ⟨e, he, .refl _ e⟩
  | indexed hd hagree =>
    exact .inl ⟨_, hd, hagree.agreesOn (Field.not_ofIndexing (by decide))⟩
  | relinked hd hagree => exact .inl ⟨_, hd, hagree.agreesOn (by decide)⟩
  | placed hd _ hagree => exact .inl ⟨_, hd, hagree.agreesOn (by decide)⟩
  | content hd _ hagree => exact .inl ⟨_, hd, hagree.mono (by decide)⟩
  | policy _ hd hagree => exact .inl ⟨_, hd, hagree.agreesOn (by decide)⟩
  | checkedIn _ hd _ hagree => exact .inl ⟨_, hd, hagree.agreesOn (by decide)⟩
  | checkedOut _ hd _ hagree => exact .inl ⟨_, hd, hagree.agreesOn (by decide)⟩
  | child _ _ hblank =>
    rw [Document.isVersion, Document.flag_of_get?_eq_none (hblank _ (by decide))] at hversion
    cases hversion
  | proxy _ _ hblank =>
    rw [Document.isVersion, Document.flag_of_get?_eq_none (hblank _ (by decide))] at hversion
    cases hversion
  | @copy _ _ _ _ _ c _ _ _ _ hlive hagree =>
    -- what is copied is no version
    have hsame : Document.AgreesOn [Field.isVersion] c e := hagree.agreesOn (by decide)
    have hkind : c.isVersion = true := (hsame.flag (by decide)).symm.trans hversion
    rw [hlive] at hkind
    cases hkind
  | version hnew hevent => exact .inr ⟨hnew, _, _, _, hevent⟩

/-- No version is a proxy: proxies cannot be checked in. -/
def VersionsPlain (shelf : Shelf) : Prop :=
  ∀ k e, shelf.get? k = some e → e.isVersion = true → e.isProxy = false

namespace Coherent

theorem versionsPlain_next (h : Coherent site shelf) (hplain : VersionsPlain shelf)
    (hadmits : site.Admits event) (ht : Coherent (site.next event) t) : VersionsPlain t := by
  intro k e he hversion
  obtain ⟨u, hu, hderives⟩ := h.exists_derives hadmits
  cases ht.stored.symm.trans hu.stored
  obtain ⟨d, hd, hsame⟩ | ⟨hnew, session, id, increment, rfl⟩ :=
    (hderives k e he).version_cases hversion
  · -- an older version, which has kept its flags
    have hproxy : e.isProxy = d.isProxy := hsame.flag (by decide)
    rw [hproxy]
    exact hplain k d hd ((hsame.flag (by decide)).symm.trans hversion)
  · -- a new version: it was made by a check-in
    have hafter : (Workspace.checkIn ⟨site, session⟩ id increment).2.site.store.shelf? = some t :=
      ht.stored
    have hold : ∀ {d}, shelf.get? k ≠ some d := fun hd => hnew (h.drawn k _ hd)
    obtain ⟨error, hrefused⟩ | ⟨d, folder, session, hchecks, hdone, -⟩ :=
      h.checkIn_cases (w := ⟨site, session⟩) id increment
    · rw [hrefused] at hafter
      cases hafter.symm.trans h.stored
      exact absurd he hold
    · rw [hdone] at hafter
      obtain rfl := Option.some.inj hafter
      -- the document, its new version, or another: only the version is new
      obtain ⟨rfl, -⟩ | ⟨-, rfl⟩ | ⟨-, -, hstays⟩ := of_get?_checkInShelf he
      · exact absurd hchecks.document hold
      · have hsame : Document.AgreesOn [Field.isProxy] d _ :=
          (agreesUnless_nextVersion site d folder id increment).agreesOn (by decide)
        exact (hsame.flag (by decide)).trans hchecks.proxy
      · exact absurd hstays hold

end Coherent

/-- **A version that is stored stays, unless it is removed.** -/
theorem Coherent.isSome_next (h : Coherent site shelf) (hplain : VersionsPlain shelf)
    (hadmits : site.Admits event) (ht : Coherent (site.next event) t) (he : shelf.get? k = some e)
    (hversion : e.isVersion = true) (hkept : site.removal? event ≠ some k) :
    (t.get? k).isSome = true := by
  -- a removal takes one version at most, the one it names
  by_cases hremoval : ∃ session id, event = .call session (.remove id)
  · obtain ⟨session, id, rfl⟩ := hremoval
    have hafter : (Workspace.remove ⟨site, session⟩ id).2.site.store.shelf? = some t := ht.stored
    rw [removal?] at hkept
    obtain ⟨error, hrefused⟩ | ⟨d, r, drawn, session, hordinary, hd, hr, hdone⟩ :=
      h.remove_cases (w := ⟨site, session⟩) id
    · -- refused: nothing is removed
      rw [hrefused] at hafter
      cases hafter.symm.trans h.stored
      rw [he]
      rfl
    · rw [hdone] at hafter hkept
      obtain rfl := Option.some.inj hafter
      have hne : k ≠ id := fun heq => hkept (congrArg some heq.symm)
      exact h.isSome_remaining hd hordinary hr he hversion (hplain k e he hversion) hne
  · -- no other call takes a document away
    refine h.keeps_next hadmits (fun session id heq => hremoval ⟨session, id, heq⟩) ht.stored k ?_
    rw [he]
    rfl

theorem exists_remove_of_removal? (hremoval : site.removal? event = some k) :
    ∃ session, event = .call session (.remove k) := by
  cases event with
  | index obstacle job => cases hremoval
  | call session call =>
    cases call with
    | remove id =>
      obtain ⟨-, -, rfl⟩ := Option.map_eq_some_iff.1 hremoval
      exact ⟨session, rfl⟩
    | _ => cases hremoval

theorem exists_checkIn_of_deed? {v : Document} (hdeed : site.deed? event = some (.checkIn id v)) :
    ∃ session increment, event = .call session (.checkIn id increment) ∧
      (Workspace.checkIn ⟨site, session⟩ id increment).1.toOption = some v := by
  cases event with
  | index obstacle job => cases hdeed
  | call session call =>
    cases call with
    | checkIn other increment =>
      obtain ⟨w, hv, heq⟩ := Option.map_eq_some_iff.1 hdeed
      cases heq
      exact ⟨session, increment, rfl, hv⟩
    | checkOut other =>
      obtain ⟨-, -, heq⟩ := Option.map_eq_some_iff.1 hdeed
      cases heq
    | _ => cases hdeed

namespace Coherent

/-- What a removal is given was there before, and is gone after it. -/
theorem of_removal? (h : Coherent site shelf) (ht : Coherent (site.next event) t)
    (hremoval : site.removal? event = some k) : site.ids.Drew k ∧ t.get? k = none := by
  obtain ⟨session, rfl⟩ := exists_remove_of_removal? hremoval
  have hafter : (Workspace.remove ⟨site, session⟩ k).2.site.store.shelf? = some t := ht.stored
  rw [removal?] at hremoval
  obtain ⟨error, hrefused⟩ | ⟨d, r, drawn, session, -, hd, hr, hdone⟩ :=
    h.remove_cases (w := ⟨site, session⟩) k
  · rw [hrefused] at hremoval
    cases hremoval
  · rw [hdone] at hafter
    obtain rfl := Option.some.inj hafter
    exact ⟨h.drawn k d hd, h.get?_remaining_self hd hr⟩

/-- **A version is stored when its check-in answers**, under an id that is new. -/
theorem of_deed?_checkIn (h : Coherent site shelf) (ht : Coherent (site.next event) t)
    {v : Document} (hdeed : site.deed? event = some (.checkIn id v)) :
    ∃ k, v.id? = some k ∧ ¬ site.ids.Drew k ∧ t.get? k = some v := by
  obtain ⟨session, increment, rfl, hv⟩ := exists_checkIn_of_deed? hdeed
  have hafter : (Workspace.checkIn ⟨site, session⟩ id increment).2.site.store.shelf? = some t :=
    ht.stored
  obtain ⟨error, hrefused⟩ | ⟨d, folder, session, hchecks, hdone, -⟩ :=
    h.checkIn_cases (w := ⟨site, session⟩) id increment
  · rw [hrefused] at hv
    cases hv
  · rw [hdone] at hafter hv
    obtain rfl := Option.some.inj hafter
    obtain rfl := Option.some.inj hv
    exact ⟨_, h.filed.id?_nextVersion hchecks increment, IdSource.not_drew_peek h.unrepeated 0,
      h.get?_checkInShelf_version hchecks increment⟩

/-- Nothing is put under an id that was drawn before. -/
theorem get?_next_eq_none (h : Coherent site shelf) (hadmits : site.Admits event)
    (ht : Coherent (site.next event) t) (hdrew : site.ids.Drew k) (hnone : shelf.get? k = none) :
    t.get? k = none := by
  obtain ⟨u, hu, hfiles⟩ := h.exists_next hadmits
  cases ht.stored.symm.trans hu.stored
  cases he : t.get? k with
  | none => rfl
  | some e =>
    obtain ⟨d, hd, -⟩ | ⟨hnew, -⟩ := hfiles k e he
    · cases hnone.symm.trans hd
    · exact absurd hdrew hnew

end Coherent

end Site

namespace Annals

/-- The versions that were checked in are there, except for those that were removed. -/
structure Lasting (a : Annals) (shelf : Shelf) : Prop where
  plain : Site.VersionsPlain shelf
  drawn : ∀ k ∈ a.removed, a.site.ids.Drew k
  stored : ∀ id v, .checkIn id v ∈ a.deeds → ∀ k, v.id? = some k →
    ((shelf.get? k).isSome = true ↔ k ∉ a.removed)

variable {a : Annals} {shelf t : Shelf} {event : Site.Event}

/-- **Every event leaves the versions there**, except for those it removes. -/
theorem Lasting.next (hlasting : Lasting a shelf) (h : Sound a shelf)
    (hadmits : a.site.Admits event) (ht : Site.Coherent (a.site.next event) t) :
    Lasting (a.next event) t where
  plain := h.coherent.versionsPlain_next hlasting.plain hadmits ht
  drawn := by
    intro k hk
    obtain hold | hnew := List.mem_append.1 hk
    · exact Site.drew_next (hlasting.drawn k hold) event
    · exact Site.drew_next (h.coherent.of_removal? ht (Option.mem_toList.1 hnew)).1 event
  stored := by
    intro id v hmem k hk
    have hremoved : k ∈ (a.next event).removed ↔ k ∈ a.removed ∨ a.site.removal? event = some k := by
      rw [Annals.next, List.mem_append, Option.mem_toList]
    rw [hremoved, not_or]
    obtain hold | hnew := List.mem_append.1 hmem
    · obtain ⟨-, l, hl, hdrew, hrepresents⟩ := h.filed id v hold
      obtain rfl := Option.some.inj (hk.symm.trans hl)
      have hstored := hlasting.stored id v hold k hk
      constructor
      · refine fun hthere => ⟨hstored.1 ?_, fun hgone => ?_⟩
        · by_contra hnone
          rw [h.coherent.get?_next_eq_none hadmits ht hdrew (Option.not_isSome_iff_eq_none.1 hnone)]
            at hthere
          cases hthere
        · rw [(h.coherent.of_removal? ht hgone).2] at hthere
          cases hthere
      · rintro ⟨hthere, hkept⟩
        obtain ⟨e, he⟩ := Option.isSome_iff_exists.1 (hstored.2 hthere)
        exact h.coherent.isSome_next hlasting.plain hadmits ht he (hrepresents e he).version hkept
    · obtain ⟨l, hl, hunused, hv⟩ := h.coherent.of_deed?_checkIn ht (Option.mem_toList.1 hnew)
      obtain rfl := Option.some.inj (hk.symm.trans hl)
      -- what was removed was drawn before
      refine iff_of_true (by rw [hv]; rfl) ⟨fun hgone => hunused (hlasting.drawn k hgone), ?_⟩
      exact fun hgone => hunused (h.coherent.of_removal? ht hgone).1

end Annals

end ContentRepository
