import ContentRepository.Proofs.Fulltext.Plans
import ContentRepository.Proofs.Session.Stopping
import ContentRepository.Proofs.Tree.Runs
import ContentRepository.Proofs.Versions.CheckIn
import Mathlib.Data.List.Count

/-!
# What failing tree operations leave behind

Sessions may write documents behind the back of the tree operations, so these meet stores that are
not coherent: ids that are drawn may be in use, documents may list proxies that are not there, and a
document may be among its own ancestors. The operations write one document after another, and
nothing is undone. Still an operation that fails has changed nothing, for the checks come first, and
of the writes all but the first are known to succeed. The exceptions are two:

* A removal that finds a proxy listed which is not there stops when it comes to delete that, and all
  that was to be removed is gone by then (`StoppedRemoval`).
* A copy that draws an id in use stops there, and the documents copied so far stay (`StoppedCopy`).

* **`Site.Becomes`** — a site after any events, raw writes included; **`Site.Filed.of_becomes`** —
  all that is left of coherence then.
* **`Site.Filed.planCopy_cases`**, **`Site.Filed.planRemove_cases`** — a plan can be carried out, or
  it stops in just that way.
* **`Site.failure_of_becomes`** — what a tree operation that fails leaves behind.
-/

namespace ContentRepository

/-- The operations that keep the tree, the versions, the proxies and the policies in order. -/
def Session.Call.OfTree : Session.Call → Prop
  | .addChild _ _ _ | .remove _ | .move _ _ _ | .copy _ _ _ | .checkIn _ _ | .checkOut _
  | .addProxy _ _ _ | .setPolicy _ _ _ => True
  | _ => False

/-! ## Whatever happens -/

namespace Site

/-- The second site comes about from the first by any events, raw writes of documents included. -/
inductive Becomes (start : Site) : Site → Prop where
  | refl : Becomes start start
  | step {site : Site} (event : Event) (hrun : Becomes start site) : Becomes start (site.next event)

namespace Filed

variable {start site : Site} {shelf : Shelf}

/-- Whatever a session calls for, every document is under its own id. -/
theorem perform {w : Workspace} (h : Filed w.site shelf) (call : Session.Call) :
    ∃ t, Filed (w.perform call).2.site t := by
  by_cases hcall : call = .commit
  · subst hcall
    obtain ⟨queue, hqueue⟩ := Workspace.exists_site_commit (w := w)
    refine ⟨shelf, ?_, h.keyed⟩
    have hsite : (w.perform .commit).2.site = { w.site with queue } := hqueue
    rw [hsite]
    exact h.stored
  · obtain ⟨t, ht, hkeyed, -⟩ :=
      (Workspace.tidied_perform h.stored hcall).exists_accounts h.stored h.keyed
    exact ⟨t, ht, hkeyed⟩

theorem next (h : Filed site shelf) (event : Event) : ∃ t, Filed (site.next event) t := by
  cases event with
  | call session call => exact perform (w := ⟨site, session⟩) h call
  | index obstacle job =>
    obtain ⟨t, ht, hagree⟩ := IndexJob.agreesOn_structural_of_apply h.stored h.keyed obstacle job
    exact ⟨t, ht, h.keyed.congr hagree (by decide)⟩

/-- **Whatever happens to a site, every document is under its own id.** Induction on the run. -/
theorem of_becomes (h : Filed start shelf) (hrun : start.Becomes site) : ∃ t, Filed site t := by
  induction hrun with
  | refl => exact ⟨shelf, h⟩
  | step event _ ih =>
    obtain ⟨t, ht⟩ := ih
    exact ht.next event

end Filed

end Site

/-! ## Operations that do all or nothing -/

namespace Workspace

/-- The operation succeeds, or it leaves the store and what is pending as they were. -/
def AllOrNothing {α : Type} (w : Workspace) (outcome : Except Error α × Workspace) : Prop :=
  (∃ a, outcome.1 = .ok a) ∨
    (outcome.2.site.store = w.site.store ∧ outcome.2.session = w.session)

variable {w : Workspace} {shelf : Shelf}

theorem AllOrNothing.writing {α : Type} {outcome : Except Error α × Workspace}
    (h : w.AllOrNothing outcome) (answer : α → Session.Answer) :
    w.AllOrNothing (writing answer outcome) := by
  refine h.imp_left fun ⟨a, ha⟩ => ⟨answer a, ?_⟩
  rw [Workspace.writing, ha]
  rfl

/-- A plan that stops at its first write changes nothing. -/
theorem nothing_of_stops {plan : Plan} {e : StoreError} (hstops : shelf.Stops plan.writes [] shelf e)
    (hstored : w.site.store.shelf? = some shelf) :
    (w.execute plan).1 = .error (.store e) ∧ (w.execute plan).2.site.store = w.site.store ∧
      (w.execute plan).2.session = w.session := by
  rw [execute_of_stops hstops hstored]
  exact ⟨rfl, Store.withShelf_self hstored, rfl⟩

theorem allOrNothing_change {plan : Except Error Plan} (hstored : w.site.store.shelf? = some shelf)
    (hplan : ∀ p, plan = .ok p → ∃ t, shelf.Writes p.writes t) :
    w.AllOrNothing (w.change plan) := by
  cases plan with
  | error e => exact .inr ⟨rfl, rfl⟩
  | ok p =>
    obtain ⟨t, hwrites⟩ := hplan p rfl
    obtain ⟨session, hexecute⟩ := execute_of_writes hwrites hstored
    exact .inl ⟨(), congrArg Prod.fst hexecute⟩

/-- The document that is answered is there, if the plan can be carried out. -/
theorem allOrNothing_produce {plan : Except Error (Plan × String)}
    (hstored : w.site.store.shelf? = some shelf)
    (hplan : ∀ p answer, plan = .ok (p, answer) → w.session.live = true ∧
      ((∃ t, shelf.Writes p.writes t ∧ (t.get? answer).isSome) ∨
        ∃ e, shelf.Stops p.writes [] shelf e)) :
    w.AllOrNothing (w.produce plan) := by
  cases plan with
  | error e => exact .inr ⟨rfl, rfl⟩
  | ok plan =>
    obtain ⟨hlive, ⟨t, hwrites, hthere⟩ | ⟨e, hstops⟩⟩ := hplan plan.1 plan.2 rfl
    · obtain ⟨d, hd⟩ := Option.isSome_iff_exists.1 hthere
      obtain ⟨session, hproduce⟩ := exists_produce_eq hlive hstored hwrites hd
      exact .inl ⟨d, congrArg Prod.fst hproduce⟩
    · refine .inr ?_
      rw [snd_produce]
      exact (nothing_of_stops hstops hstored).2

end Workspace

namespace Site.Filed

variable {site : Site} {shelf : Shelf} {id answer : String} {plan : Plan}

/-- A plan that begins with a new document can only fail there, if the rest can be carried out. -/
theorem writes_or_taken {d : Document} {rest : List Write} (hid : d.id? = some id)
    (hrest : ∃ t, Shelf.Writes rest (Table.insert shelf id d) t ∧ (t.get? id).isSome) :
    (∃ t, shelf.Writes (.create d :: rest) t ∧ (t.get? id).isSome) ∨
      ∃ e, shelf.Stops (.create d :: rest) [] shelf e := by
  cases htaken : shelf.get? id with
  | none =>
    obtain ⟨t, hwrites, hthere⟩ := hrest
    exact .inl ⟨t, .create hid htaken hwrites, hthere⟩
  | some e =>
    exact .inr ⟨_, .create d, rest, rfl, .nil shelf, .taken hid (by rw [htaken]; rfl)⟩

theorem planAdd_cases (h : Filed site shelf) {parent name type : String}
    (hplan : site.planAdd parent name type = .ok (plan, answer)) :
    (∃ t, shelf.Writes plan.writes t ∧ (t.get? answer).isSome) ∨
      ∃ e, shelf.Stops plan.writes [] shelf e := by
  obtain ⟨dp, hdp, -, -, rfl, rfl⟩ := planAdd_eq_ok h.stored hplan
  obtain ⟨hid, -⟩ := Document.get?_newChild (site.ids.peek 0) name (h.keyed parent dp hdp)
  have hsame : Document.AgreesOn [Field.id] (Document.newChild (site.ids.peek 0) dp parent name)
      ((Document.newChild (site.ids.peek 0) dp parent name).set Field.type (.string type)) :=
    Document.agreesOn_set (by decide) _ _
  refine writes_or_taken ((hsame.string? (by decide)).trans (Document.string?_eq_some_iff.2 hid))
    ⟨_, .mark (.nil _), ?_⟩
  rw [Table.get?_insert, if_pos rfl]
  rfl

theorem planProxy_cases (h : Filed site shelf) {target parent name : String}
    (hplan : site.planProxy target parent name = .ok (plan, answer)) :
    (∃ t, shelf.Writes plan.writes t ∧ (t.get? answer).isSome) ∨
      ∃ e, shelf.Stops plan.writes [] shelf e := by
  -- the new proxy is created and its target updated, unless the id drawn is taken
  obtain ⟨dt, dp, hdt, -, hdp, -, -, rfl, rfl⟩ := planProxy_eq_ok h.stored hplan
  obtain ⟨hid, -⟩ := Document.get?_newChild (site.ids.peek 0) name (h.keyed parent dp hdp)
  have hsame : Document.AgreesOn [Field.id] (Document.newChild (site.ids.peek 0) dp parent name)
      (proxyOf (site.ids.peek 0) target parent name dt dp) :=
    Document.agreesOn_setAll (by simp +decide) _
  have htarget : (dt.relinked [site.ids.peek 0] []).id? = some target :=
    ((Document.agreesOn_relinked (by decide) dt _ _).string?
      (List.mem_singleton_self Field.id)).trans (h.keyed target dt hdt)
  refine writes_or_taken ((hsame.string? (by decide)).trans (Document.string?_eq_some_iff.2 hid))
    ⟨_, .update htarget ?there (.nil _), ?answer⟩
  case there =>
    rw [Table.get?_insert]
    -- the target may be the very id that was drawn
    split
    · rfl
    · rw [hdt]
      rfl
  case answer =>
    rw [Table.get?_insert]
    split
    · rfl
    · rw [Table.get?_insert, if_pos rfl]
      rfl

theorem planCheckIn_cases (h : Filed site shelf) {increment : Increment}
    (hplan : site.planCheckIn id increment = .ok (plan, answer)) :
    (∃ t, shelf.Writes plan.writes t ∧ (t.get? answer).isSome) ∨
      ∃ e, shelf.Stops plan.writes [] shelf e := by
  obtain ⟨d, folder, hchecks, rfl, rfl⟩ := planCheckIn_eq_ok h.stored hplan
  refine writes_or_taken (h.id?_nextVersion hchecks increment)
    ⟨_, .mark (.update (h.id?_nextLive hchecks increment) ?there (.nil _)), ?answer⟩
  case there =>
    rw [Table.get?_insert]
    split
    · rfl
    · rw [hchecks.document]
      rfl
  case answer =>
    rw [Table.get?_insert]
    split
    · rfl
    · rw [Table.get?_insert, if_pos rfl]
      rfl

/-- A document that is there can be replaced. -/
theorem writes_update (h : Filed site shelf) {d e : Document} (hd : shelf.get? id = some d)
    (hde : Document.AgreesOn [Field.id] d e) :
    ∃ t, shelf.Writes [.update e] t :=
  ⟨_, .update ((hde.string? (by decide)).trans (h.keyed id d hd)) (by rw [hd]; rfl) (.nil _)⟩

theorem writes_planCheckOut (h : Filed site shelf) (hplan : site.planCheckOut id = .ok plan) :
    ∃ t, shelf.Writes plan.writes t := by
  obtain ⟨d, hd, -, rfl⟩ := planCheckOut_eq_ok h.stored hplan
  exact h.writes_update hd (Document.agreesOn_unset (by decide) d)

theorem writes_planPolicy (h : Filed site shelf) {policy : Policy} {overwrite : Bool}
    (hplan : site.planPolicy id policy overwrite = .ok plan) : ∃ t, shelf.Writes plan.writes t := by
  obtain ⟨d, merged, hd, rfl⟩ := planPolicy_eq_ok h.stored hplan
  refine h.writes_update hd ?_
  rw [Document.withPolicy]
  split
  · exact Document.agreesOn_unset (by decide) d
  · exact Document.agreesOn_set (by decide) d _

theorem writes_planMove (h : Filed site shelf) {destId : String} {name? : Option String}
    (hplan : site.planMove id destId name? = .ok (plan, answer)) :
    ∃ t, shelf.Writes plan.writes t ∧ (t.get? answer).isSome := by
  obtain ⟨rfl, d, name, hd, -, -, ⟨-, rfl⟩ | ⟨-, dest, hchecks, rfl⟩⟩ := h.planMove_eq_ok hplan
  · exact ⟨shelf, .nil shelf, by rw [hd]; rfl⟩
  have hids := h.keepsIds_rebasedBelow answer (dest.childAncestors ++ [answer])
  refine ⟨_, h.writes_relocated hchecks.document hchecks.destination, ?_⟩
  -- the moved document is not among those rebased
  rw [Coherent.rebasedBelow, Shelf.get?_putAll_of_absent hids, Table.get?_insert, if_pos rfl]
  · rfl
  · rintro k hk rfl
    exact absurd rfl (Table.mem_keys_erase.1 hk).1

end Site.Filed

/-! ## Removals that stop -/

/-- The document, or one below it. -/
def Shelf.Within (s : Shelf) (id k : String) (d : Document) : Prop :=
  s.get? k = some d ∧ (k = id ∨ id ∈ d.ancestors)

/-- What a removal leaves behind that stopped at `k`: the shelf `t`, and what is pending `after`. -/
structure StoppedRemoval (s t : Shelf) (before after : TextSet) (id k : String) : Prop where
  /-- What stopped it: one of the documents to be removed lists `k`, which is not there. -/
  dangling : s.get? k = none ∧ ∃ o d, s.Within id o d ∧ k ∈ d.proxies
  /-- All the documents to be removed are gone. -/
  gone : ∀ o d, s.Within id o d → t.get? o = none
  /-- Any other document is either gone, and listed as a proxy by one of those to be removed, or
  still there, and then only its list of proxies may be different. -/
  others : ∀ o d, s.get? o = some d → (∀ d, ¬ s.Within id o d) →
    (t.get? o = none ∧ ∃ r e, s.Within id r e ∧ o ∈ e.proxies) ∨
      ∃ c, t.get? o = some c ∧ Document.AgreesUnless (· = Field.proxies) d c
  /-- Nothing is new. -/
  new : ∀ o, s.get? o = none → t.get? o = none
  /-- What is gone is no longer pending. -/
  pending : ∀ o, o ∈ after.keys ↔ o ∈ before.keys ∧ ((s.get? o).isSome → (t.get? o).isSome)

namespace Site.Filed

variable {site : Site} {shelf : Shelf} {id : String} {plan : Plan} {r : Site.Removal}

/-- What is to be removed comes before what it lists. -/
theorem removed_subset_of_gone {before after : List String} {k : String}
    (hgone : Coherent.gone r = before ++ k :: after) (hk : k ∉ r.removed.keys) :
    r.removed.keys ⊆ before := by
  obtain ⟨others, rfl, -⟩ | ⟨others, hremoved, hafter⟩ := List.append_eq_append_iff.1 hgone
  · exact List.subset_append_left _ _
  · cases others with
    | nil =>
      rw [hremoved, List.append_nil]
      exact List.Subset.refl _
    | cons first others =>
      -- `k` would be one of those to be removed
      cases hafter
      exact absurd (by rw [hremoved]; simp) hk

/-- What is left when the proxies that go are detached, and some documents are deleted. -/
theorem get?_detached_eraseAll (h : Filed site shelf) (links : Table TextSet) (gone : List String)
    {o : String} {d : Document} (hd : shelf.get? o = some d) (ho : o ∉ gone) :
    ∃ c, (Shelf.eraseAll (shelf.putAll (Coherent.detached shelf links)) gone).get? o = some c ∧
      Document.AgreesUnless (· = Field.proxies) d c := by
  rw [Shelf.get?_eraseAll, if_neg ho, h.get?_putAll_detached, hd]
  refine ⟨_, rfl, ?_⟩
  cases links.get? o with
  | none => exact .refl _ d
  | some lost => exact Document.agreesUnless_relinked d [] lost.keys

theorem get?_detached_eraseAll_of_absent (h : Filed site shelf) (links : Table TextSet)
    (gone : List String) {o : String} (ho : shelf.get? o = none) :
    (Shelf.eraseAll (shelf.putAll (Coherent.detached shelf links)) gone).get? o = none := by
  rw [Shelf.get?_eraseAll, h.get?_putAll_detached, ho]
  split <;> rfl

theorem isSome_detached (h : Filed site shelf) (links : Table TextSet) (k : String) :
    ((shelf.putAll (Coherent.detached shelf links)).get? k).isSome = (shelf.get? k).isSome := by
  rw [h.get?_putAll_detached, Option.isSome_map]

/-- What goes, and is not to be removed itself, is listed by a document that is. -/
theorem exists_within_of_mem_gone (hr : r.Found shelf id) {p : String} (hp : p ∈ Coherent.gone r)
    (hnot : p ∉ r.removed.keys) : ∃ o d, shelf.Within id o d ∧ p ∈ d.proxies := by
  obtain ⟨-, o, ho, d, hd, hmem⟩ := (hr.orphaned p).1 ((List.mem_append.1 hp).resolve_left hnot)
  obtain ⟨d', hd', hwithin⟩ := (hr.removed o).1 ho
  cases hd.symm.trans hd'
  exact ⟨o, d, ⟨hd, hwithin⟩, hmem⟩

/-- What a removal leaves behind that has deleted `before`, and finds that `k` is absent. -/
theorem stoppedRemoval_of_absent (h : Filed site shelf) (hr : r.Found shelf id)
    {before after : List String} {k : String} (hgone : Coherent.gone r = before ++ k :: after)
    (hbefore : ∀ o ∈ before, (shelf.get? o).isSome) (hk : shelf.get? k = none)
    (pending : TextSet) :
    StoppedRemoval shelf ((shelf.putAll (Coherent.detached shelf r.detached)).eraseAll before)
      pending (((Coherent.detached shelf r.detached).map Write.update ++
        before.map Write.delete).foldl Write.leave pending) id k := by
  have hkept : k ∉ r.removed.keys := by
    intro hmem
    obtain ⟨d, hd, -⟩ := (hr.removed k).1 hmem
    cases hk.symm.trans hd
  refine ⟨⟨hk, exists_within_of_mem_gone hr (by simp [hgone]) hkept⟩, ?gone, ?others, ?new,
    ?pending⟩
  case gone =>
    intro o d ⟨hd, hwithin⟩
    have hremoved := removed_subset_of_gone hgone hkept
    rw [Shelf.get?_eraseAll, if_pos (hremoved ((hr.removed o).2 ⟨d, hd, hwithin⟩))]
  case others =>
    intro o d hd hnot
    by_cases ho : o ∈ before
    · -- what was deleted so far is not to be removed itself, so it is a proxy
      refine .inl ⟨by rw [Shelf.get?_eraseAll, if_pos ho],
        exists_within_of_mem_gone hr (by simp [hgone, ho]) fun hmem => ?_⟩
      obtain ⟨e, he, hwithin⟩ := (hr.removed o).1 hmem
      exact hnot e ⟨he, hwithin⟩
    · exact .inr (h.get?_detached_eraseAll r.detached before hd ho)
  case new =>
    intro o ho
    exact h.get?_detached_eraseAll_of_absent r.detached before ho
  case pending =>
    intro o
    rw [List.foldl_append, Shelf.pending_updates, Shelf.mem_pending_deletions]
    refine and_congr_right fun _ => ⟨fun ho hthere => ?_, fun hstays ho => ?_⟩
    · rw [Shelf.get?_eraseAll, if_neg ho, h.isSome_detached]
      exact hthere
    · have hleft := hstays (hbefore o ho)
      rw [Shelf.get?_eraseAll, if_pos ho] at hleft
      cases hleft

/-- **A removal can be carried out, or it stops at a proxy that is not there.** -/
theorem planRemove_cases (h : Filed site shelf) (hplan : site.planRemove id = .ok plan) :
    (∃ t, shelf.Writes plan.writes t) ∨
      ∃ done t k, shelf.Stops plan.writes done t (.notFound k) ∧
        ∀ pending, StoppedRemoval shelf t pending (done.foldl Write.leave pending) id k := by
  obtain ⟨r, hremoval, rfl⟩ := h.planRemove_eq_ok hplan
  have hr := h.found_removal hremoval
  -- all detached documents are there, so only a deletion can fail, at the first id that is absent
  let mid := shelf.putAll (Coherent.detached shelf r.detached)
  have hdetached : shelf.Writes ((Coherent.detached shelf r.detached).map .update) mid :=
    Shelf.writes_revisions (h.keepsIds_detached r.detached) fun k hk => hk
  have hmid : ∀ k, (mid.get? k).isSome = (shelf.get? k).isSome := h.isSome_detached r.detached
  obtain hall | ⟨before, k, after, hgone, hbefore, hk⟩ := mid.stored_or_absent (Coherent.gone r)
  · exact .inl ⟨_, hdetached.append (.deletions hr.nodup_gone hall)⟩
  have hnodup : before.Nodup := by
    have hall := hr.nodup_gone
    rw [hgone] at hall
    exact (List.nodup_append.1 hall).1
  -- the deletions before it were made
  refine .inr ⟨_, _, k, ⟨.delete k, after.map .delete, by simp [hgone],
    hdetached.append (.deletions hnodup hbefore), .absent ?_⟩, ?_⟩
  · rw [Shelf.get?_eraseAll, hk]
    split <;> rfl
  · have habsent : shelf.get? k = none := by
      rw [← Option.not_isSome_iff_eq_none, ← hmid, hk]
      exact Bool.false_ne_true
    exact h.stoppedRemoval_of_absent hr hgone (fun o ho => (hmid o).symm.trans (hbefore o ho)) habsent

end Site.Filed

/-! ## Copies that stop -/

/-- The ids for the copies, one for each document copied. -/
def Site.copyIds (site : Site) (s : Shelf) (id : String) : List String :=
  (Site.Coherent.copyList s id).map (Site.renamed (Site.Coherent.copyNames site s id))

/-- What a copy leaves behind that stopped at the id `k`: the shelf `t`, and what is pending
`after`. -/
structure StoppedCopy (site : Site) (s t : Shelf) (before after : TextSet) (id k : String) :
    Prop where
  /-- What stopped it: `k` was drawn for a copy, and is in use or was given to two of the copies. -/
  clash : (∃ n < (Site.Coherent.copyList s id).length, k = site.ids.peek n) ∧
    ((s.get? k).isSome ∨ 1 < (site.copyIds s id).count k)
  /-- All documents stay as they are. -/
  kept : ∀ o d, s.get? o = some d → t.get? o = some d
  /-- What is new are copies. -/
  new : ∀ o, (t.get? o).isSome → (s.get? o).isSome ∨ o ∈ site.copyIds s id
  /-- The copies that are there are left to the next commit. -/
  pending : ∀ o, o ∈ after.keys ↔ o ∈ before.keys ∨ (s.get? o = none ∧ (t.get? o).isSome)

namespace Site.Filed

open Coherent (copyList copiesOf copyNames copyLinks)

variable {site : Site} {shelf : Shelf} {id destId name answer : String} {d dest : Document}
  {name? : Option String} {plan : Plan}

/-- The copies have the ids that are there for them. -/
theorem map_id?_copiesOf (h : Filed site shelf) (hd : shelf.get? id = some d) :
    (copiesOf shelf (copyNames site shelf id) id d dest destId name).map (·.id?) =
      (site.copyIds shelf id).map some := by
  have hthere : ∀ k ∈ copyList shelf id, ∃ e, shelf.get? k = some e :=
    fun k hk => h.exists_of_mem_copyList hd hk
  rw [copiesOf, copyIds, Shelf.revisions, List.map_filterMap, List.map_map]
  refine List.filterMap_eq_map_iff_forall_eq_some.2 fun k hk => ?_
  obtain ⟨e, he⟩ := hthere k hk
  simp [he, Coherent.id?_copyFor _ (h.keyed k e he)]

/-- The ids of the copies are drawn for them. -/
theorem exists_peek_of_mem_copyIds {k : String} (hk : k ∈ site.copyIds shelf id) :
    ∃ n < (copyList shelf id).length, k = site.ids.peek n := by
  obtain ⟨l, hl, rfl⟩ := List.mem_map.1 hk
  have hkeys : l ∈ (copyNames site shelf id).keys := by
    rw [copyNames, namesFor, Table.mem_keys_ofList, List.map_fst_zip (by simp [IdSource.take])]
    exact hl
  obtain ⟨k, hget⟩ := Option.isSome_iff_exists.1 (Table.mem_keys.1 hkeys)
  have hmem : k ∈ site.ids.take (copyList shelf id).length :=
    (List.of_mem_zip (Table.mem_of_get?_ofList hget)).2
  obtain ⟨n, hn, heq⟩ := List.mem_map.1 hmem
  rw [renamed, hget]
  exact ⟨n, List.mem_range.1 hn, heq.symm⟩

/-- Fresh copies can be written, and then the proxies that come with them attached. -/
theorem writes_copies (h : Filed site shelf) {copies : List Document} {attachments : List Write}
    (hfresh : shelf.Fresh copies)
    (hattachments : site.attachments copies (copyLinks copies) = .ok attachments) :
    shelf.Writes (Shelf.creating copies ++ attachments) (Coherent.copied shelf copies) := by
  -- the targets of copied proxies are there, or are copies
  rw [h.attachments_eq fun c hc e he hid => hfresh.eq_of_id? hc he hid] at hattachments
  cases hattachments
  exact hfresh.writes.append (Shelf.writes_revisions
    (Coherent.keepsIds_attached (h.keyed.putAll _) (copyLinks copies)) fun k hk => hk)

/-- What a copy leaves behind that has written the copies before `c`, and finds its id taken. -/
theorem stoppedCopy_of_clash {copies before after : List Document} {c : Document} {k : String}
    (hids : copies.map (·.id?) = (site.copyIds shelf id).map some)
    (hsplit : copies = before ++ c :: after) (hfresh : shelf.Fresh before) (hk : c.id? = some k)
    (hclash : (shelf.get? k).isSome ∨ ∃ b ∈ before, b.id? = some k) (pending : TextSet) :
    StoppedCopy site shelf (shelf.putAll before) pending
      ((Shelf.creating before).foldl Write.leave pending) id k := by
  have hdrawn : ∀ e ∈ copies, ∀ o, e.id? = some o → o ∈ site.copyIds shelf id := by
    intro e he o ho
    have hmem : e.id? ∈ copies.map (·.id?) := List.mem_map_of_mem he
    rw [hids, ho] at hmem
    exact (List.mem_map_of_injective fun _ _ => Option.some.inj).1 hmem
  refine ⟨⟨?drawn, hclash.imp_right ?shared⟩, fun o e he => hfresh.get?_of_stored he, ?new, ?pending⟩
  case drawn =>
    exact exists_peek_of_mem_copyIds (hdrawn c (by simp [hsplit]) k hk)
  case shared =>
    rintro ⟨first, hfirst, hid⟩
    -- the id comes twice among those of the copies: before `c`, and with it
    have hcount : (site.copyIds shelf id).count k = (copies.map (·.id?)).count (some k) := by
      rw [hids, List.count_map_of_injective _ _ fun _ _ => Option.some.inj]
    have hpos : 0 < (before.map (·.id?)).count (some k) :=
      List.count_pos_iff.2 (List.mem_map.2 ⟨first, hfirst, hid⟩)
    rw [hcount, hsplit, List.map_append, List.map_cons, List.count_append, hk, List.count_cons_self]
    omega
  case new =>
    intro o ho
    refine (hfresh.isSome_iff.1 ho).imp_right ?_
    rintro ⟨e, he, hid⟩
    exact hdrawn e (by simp [hsplit, he]) o hid
  case pending =>
    intro o
    rw [hfresh.mem_pending]
    apply or_congr_right
    constructor
    · rintro ⟨e, he, hid⟩
      obtain ⟨l, hl, hfree⟩ := hfresh.free e he
      cases hid.symm.trans hl
      exact ⟨hfree, hfresh.isSome_iff.2 (.inr ⟨e, he, hid⟩)⟩
    · rintro ⟨habsent, hthere⟩
      refine (hfresh.isSome_iff.1 hthere).resolve_left ?_
      rw [habsent]
      exact Bool.false_ne_true

/-- **A copy can be carried out, or it stops at an id that is taken.** -/
theorem planCopy_cases (h : Filed site shelf)
    (hplan : site.planCopy id destId name? = .ok (plan, answer)) :
    (∃ t, shelf.Writes plan.writes t ∧ (t.get? answer).isSome) ∨
      ∃ done t k, shelf.Stops plan.writes done t (.alreadyExists k) ∧
        ∀ pending, StoppedCopy site shelf t pending (done.foldl Write.leave pending) id k := by
  obtain ⟨name, d, dest, attachments, -, hchecks, rfl, hattachments, rfl⟩ := h.planCopy_eq_ok hplan
  let copies := copiesOf shelf (copyNames site shelf id) id d dest destId name
  have hids : copies.map (·.id?) = (site.copyIds shelf id).map some :=
    h.map_id?_copiesOf hchecks.document
  have hsome : ∀ c ∈ copies, c.id?.isSome := by
    intro c hc
    have hmem : c.id? ∈ copies.map (·.id?) := List.mem_map_of_mem hc
    rw [hids] at hmem
    obtain ⟨k, -, heq⟩ := List.mem_map.1 hmem
    rw [← heq]
    rfl
  obtain hfresh | ⟨before, c, after, k, hsplit, hfresh, hk, hclash⟩ :=
    Shelf.Fresh.or_clash (s := shelf) hsome
  · refine .inl ⟨Coherent.copied shelf copies, h.writes_copies hfresh hattachments, ?_⟩
    rw [Coherent.get?_copied (h.keyed.putAll _), Option.isSome_map]
    -- the copy that is answered is the one of the document itself
    refine hfresh.isSome_iff.2 (.inr ⟨_, Shelf.mem_revisions.2
      ⟨id, List.mem_cons_self, d, hchecks.document, rfl⟩, ?_⟩)
    exact Coherent.id?_copyFor _ (h.keyed id d hchecks.document)
  · refine .inr ⟨Shelf.creating before, _, k, ⟨.create c, .mark (c.id?.getD "") ::
      (Shelf.creating after ++ attachments), ?_, hfresh.writes, .taken hk ?_⟩,
      stoppedCopy_of_clash hids hsplit hfresh hk hclash⟩
    · have hcreating : Shelf.creating copies =
          Shelf.creating before ++ .create c :: .mark (c.id?.getD "") :: Shelf.creating after := by
        rw [hsplit, Shelf.creating, List.flatMap_append, List.flatMap_cons]
        rfl
      refine (congrArg (· ++ attachments) hcreating).trans ?_
      simp
    · exact hfresh.isSome_iff.2 hclash

end Site.Filed

/-! ## What is left behind -/

/-- What a tree operation leaves behind that failed with the error. -/
inductive Aftermath (w : Workspace) (shelf : Shelf) :
    Session.Call → Error → Workspace → Prop where
  /-- Documents and what is pending are as before. -/
  | nothing {call : Session.Call} {e : Error} {after : Workspace}
      (hstore : after.site.store = w.site.store) (hsession : after.session = w.session) :
      Aftermath w shelf call e after
  | removal {id k : String} {t : Shelf} {after : Workspace}
      (hstore : after.site.store = w.site.store.withShelf t)
      (hstopped : StoppedRemoval shelf t w.session.pending after.session.pending id k) :
      Aftermath w shelf (.remove id) (.store (.notFound k)) after
  | copy {id dest k : String} {name? : Option String} {t : Shelf} {after : Workspace}
      (hstore : after.site.store = w.site.store.withShelf t)
      (hstopped : StoppedCopy w.site shelf t w.session.pending after.session.pending id k) :
      Aftermath w shelf (.copy id dest name?) (.store (.alreadyExists k)) after

namespace Workspace

variable {w : Workspace} {shelf : Shelf}

/-- Where an operation does all or nothing, it does nothing if it fails. -/
theorem AllOrNothing.aftermath {call : Session.Call} {e : Error}
    (h : w.AllOrNothing (w.perform call)) (hfails : (w.perform call).1 = .error e) :
    Aftermath w shelf call e (w.perform call).2 := by
  obtain ⟨a, ha⟩ | ⟨hstore, hsession⟩ := h
  · cases ha.symm.trans hfails
  · exact .nothing hstore hsession

theorem aftermath_remove (h : w.site.Filed shelf) {id : String} {e : Error}
    (hfails : (w.perform (.remove id)).1 = .error e) :
    Aftermath w shelf (.remove id) e (w.perform (.remove id)).2 := by
  cases hplan : (do
      w.site.requireOrdinary id "remove"
      (← w.liveSite).planRemove id) with
  | error e' =>
    -- no plan: nothing was written
    have hsame : w.remove id = (.error e', w) := by rw [remove, hplan, change]
    refine .nothing ?_ ?_ <;> rw [perform, hsame, Workspace.writing]
  | ok plan =>
    have hexecute : w.remove id = w.execute plan := by rw [remove, hplan, change]
    obtain ⟨-, -, hplan⟩ := of_requireOrdinary_bind hplan
    obtain ⟨t, hwrites⟩ | ⟨done, t, k, hstops, hstopped⟩ := h.planRemove_cases hplan
    · -- all writes go through, so the call does not fail
      obtain ⟨session, hok⟩ := execute_of_writes hwrites h.stored
      rw [perform, Workspace.writing, hexecute, hok] at hfails
      cases hfails
    · -- the writes stop half-way
      have hleft := execute_of_stops hstops h.stored
      rw [perform, Workspace.writing, hexecute, hleft] at hfails ⊢
      cases hfails
      exact .removal rfl (hstopped _)

theorem aftermath_copy (h : w.site.Filed shelf) {id dest : String} {name? : Option String} {e : Error}
    (hfails : (w.perform (.copy id dest name?)).1 = .error e) :
    Aftermath w shelf (.copy id dest name?) e (w.perform (.copy id dest name?)).2 := by
  cases hplan : (do
      w.site.requireOrdinary id "copy"
      (← w.liveSite).planCopy id dest name?) with
  | error e' =>
    -- no plan: nothing was written
    have hsame : w.copy id dest name? = (.error e', w) := by rw [copy, hplan, produce]
    refine .nothing ?_ ?_ <;> rw [perform, hsame, Workspace.writing]
  | ok planned =>
    obtain ⟨plan, answer⟩ := planned
    have hproduce : w.copy id dest name? = w.produce (.ok (plan, answer)) := by rw [copy, hplan]
    obtain ⟨-, hlive, hplan⟩ := of_requireOrdinary_bind hplan
    obtain ⟨t, hwrites, hthere⟩ | ⟨done, t, k, hstops, hstopped⟩ := h.planCopy_cases hplan
    · -- all writes go through and the copy is found, so the call does not fail
      obtain ⟨d, hd⟩ := Option.isSome_iff_exists.1 hthere
      obtain ⟨session, hok⟩ := exists_produce_eq hlive h.stored hwrites hd
      rw [perform, Workspace.writing, hproduce, hok] at hfails
      cases hfails
    · -- the writes stop half-way
      have hleft := execute_of_stops hstops h.stored
      rw [perform, Workspace.writing, hproduce, produce, hleft] at hfails ⊢
      cases hfails
      exact .copy rfl (hstopped _)

/-- **All operations but removals and copies do all or nothing.** -/
theorem allOrNothing_perform (h : w.site.Filed shelf) {call : Session.Call} (hcall : call.OfTree)
    (hremove : ∀ id, call ≠ .remove id) (hcopy : ∀ id dest name?, call ≠ .copy id dest name?) :
    w.AllOrNothing (w.perform call) := by
  cases call with
  | remove id => exact absurd rfl (hremove id)
  | copy id dest name? => exact absurd rfl (hcopy id dest name?)
  | addChild =>
    -- these create at most one document, and the creation is the first write
    refine .writing (allOrNothing_produce h.stored fun p answer hplan => ?_) made
    exact (of_liveSite_bind hplan).imp_right fun hplan => h.planAdd_cases hplan
  | addProxy =>
    refine .writing (allOrNothing_produce h.stored fun p answer hplan => ?_) made
    exact (of_liveSite_bind hplan).imp_right fun hplan => h.planProxy_cases hplan
  | checkIn =>
    refine .writing (allOrNothing_produce h.stored fun p answer hplan => ?_) made
    exact (of_liveSite_bind hplan).imp_right fun hplan => h.planCheckIn_cases hplan
  | move =>
    refine .writing (allOrNothing_produce h.stored fun p answer hplan => ?_) made
    obtain ⟨-, hlive, hplan⟩ := of_requireOrdinary_bind hplan
    exact ⟨hlive, .inl (h.writes_planMove hplan)⟩
  | checkOut =>
    -- these write one document, which is there
    refine .writing (allOrNothing_change h.stored fun p hplan => ?_) done
    exact h.writes_planCheckOut (of_liveSite_bind hplan).2
  | setPolicy =>
    refine .writing (allOrNothing_change h.stored fun p hplan => ?_) done
    exact h.writes_planPolicy (of_liveSite_bind hplan).2
  | _ => exact hcall.elim

/-- **What a tree operation that fails leaves behind**, where every document is under its own id. -/
theorem aftermath_perform (h : w.site.Filed shelf) {call : Session.Call} (hcall : call.OfTree)
    {e : Error} (hfails : (w.perform call).1 = .error e) :
    Aftermath w shelf call e (w.perform call).2 := by
  cases call with
  | remove id => exact aftermath_remove h hfails
  | copy id dest name? => exact aftermath_copy h hfails
  | _ =>
    have hall := allOrNothing_perform h hcall (fun _ heq => by cases heq)
      fun _ _ _ heq => by cases heq
    exact hall.aftermath hfails

end Workspace

namespace Site

section Founded

variable {repository : String} {store : Store} {first : Shelf} {ids : IdSource} {clock : Instant}
  {queue : Option IndexQueue} {start site : Site}

/-- **What a tree operation that fails leaves behind, whatever happened before.** Nothing, with two
exceptions: a removal that stopped at a proxy that is listed but not there, and a copy that stopped
at an id drawn that was taken (`Aftermath`). The repository may have been founded on a store with
documents in it, and its source of ids may repeat itself. -/
theorem failure_of_becomes (hstored : store.shelf? = some first) (hkeyed : first.Keyed)
    (hfound : Site.found repository store ids clock queue = .ok start)
    (hrun : start.Becomes site) (session : Session) {call : Session.Call} (hcall : call.OfTree)
    {e : Error} (hfails : (Workspace.perform ⟨site, session⟩ call).1 = .error e) :
    ∃ shelf, site.store.shelf? = some shelf ∧
      Aftermath ⟨site, session⟩ shelf call e (Workspace.perform ⟨site, session⟩ call).2 := by
  obtain ⟨founded, h⟩ := Filed.of_found hstored hkeyed hfound
  obtain ⟨shelf, h⟩ := h.of_becomes hrun
  exact ⟨shelf, h.stored, Workspace.aftermath_perform (w := ⟨site, session⟩) h hcall hfails⟩

/-- A document added to the root, which then lists a proxy that is not there. -/
def dangling (start : Site) : Site :=
  (start.next (.call (.fresh "s") (.addChild start.root "a" "Folder"))).next
    (.call (.fresh "s") (.revise "UUID_2" [(Field.proxies, .references ["ghost"])] []))

/-- The removal of that document fails, and leaves behind what is said. -/
theorem failure_of_dangling :
    ∃ start, Site.found "test" (Store.empty .own) .sequential ⟨0, 0, by decide⟩ none = .ok start ∧
      let outcome := Workspace.perform ⟨start.dangling, .fresh "s"⟩ (.remove "UUID_2")
      outcome.1 = .error (.store (.notFound "ghost")) ∧
      ∃ shelf, start.dangling.store.shelf? = some shelf ∧
        Aftermath ⟨start.dangling, .fresh "s"⟩ shelf (.remove "UUID_2")
          (.store (.notFound "ghost")) outcome.2 := by
  refine ⟨_, Coherent.found_eq_ok IdSource.unrepeated_sequential, rfl, ?_⟩
  have hkeyed : Shelf.Keyed Table.empty := by
    intro id d hd
    rw [Table.get?_empty] at hd
    cases hd
  have hcall : Session.Call.OfTree (.remove "UUID_2") := trivial
  exact failure_of_becomes rfl hkeyed (Coherent.found_eq_ok IdSource.unrepeated_sequential)
    (.step _ (.step _ .refl)) (.fresh "s") hcall rfl

/-- A document with a child, and a document under the second of the ids that are drawn next. -/
def clashing (start : Site) : Site :=
  ((start.next (.call (.fresh "s") (.addChild start.root "a" "Folder"))).next
    (.call (.fresh "s") (.addChild "UUID_2" "b" "Folder"))).next
      (.call (.fresh "s") (.create (Document.withId "UUID_5")))

/-- The removal of a document that lists a proxy which is not there fails, and still the document is
gone. A copy fails that draws an id in use, and still the first document is copied. -/
theorem stops_half_way :
    ∃ start, Site.found "test" (Store.empty .own) .sequential ⟨0, 0, by decide⟩ none = .ok start ∧
      start.Becomes start.dangling ∧ start.Becomes start.clashing ∧
      (let outcome := Workspace.perform ⟨start.dangling, .fresh "s"⟩ (.remove "UUID_2")
       (∃ e, outcome.1 = .error e) ∧ ¬ outcome.2.site.store = start.dangling.store) ∧
      let outcome :=
        Workspace.perform ⟨start.clashing, .fresh "s"⟩ (.copy "UUID_2" start.root (some "c"))
      (∃ e, outcome.1 = .error e) ∧ ¬ outcome.2.site.store = start.clashing.store := by
  refine ⟨_, Coherent.found_eq_ok IdSource.unrepeated_sequential, .step _ (.step _ .refl),
    .step _ (.step _ (.step _ .refl)), ⟨⟨_, rfl⟩, fun hsame => ?_⟩, ⟨_, rfl⟩, fun hsame => ?_⟩
  · have hgone := congrArg (fun store => ((store.find? "UUID_2").toOption.bind id).isSome) hsame
    exact Bool.false_ne_true hgone
  · have hcopied := congrArg (fun store => ((store.find? "UUID_4").toOption.bind id).isSome) hsame
    exact Bool.false_ne_true hcopied.symm

end Founded

end Site

end ContentRepository
