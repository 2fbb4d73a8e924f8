import ContentRepository.Proofs.Session.Frame
import ContentRepository.Proofs.Tree.Contents
import ContentRepository.Proofs.Tree.Copying
import ContentRepository.Proofs.Tree.Growth
import ContentRepository.Proofs.Tree.Removal

/-!
# Runs of a site

A site (`SessionBackend`) changes by the calls of its sessions and by indexing jobs. A run is any
sequence of these, in any order and with any arguments, succeeding or failing; only raw writes of
documents are kept out that would put reserved fields out of order.

* **`Site.Event`** and **`Site.next`** — what may happen, and the site afterwards.
* **`Site.Admits`** — which events belong to a run.
* **`Site.Reaches`** — what comes about by a run.
* **`Site.Coherent.next`** and **`Site.Reaches.coherent`** — a site stays coherent through one event
  and through a run.
* **`Site.treeShaped_of_reaches`** and **`Site.proxyLinked_of_reaches`** — so the documents of a
  repository always form a tree, and proxies and their targets refer to each other.
-/

namespace ContentRepository

namespace Site

/-! ## Events -/

/-- What may happen to a site. -/
inductive Event where
  /-- A call through a session. It may be any session, open or closed, and another one each time. -/
  | call (session : Session) (call : Session.Call)
  /-- An indexing job is carried out, by a writer that may be kept from some documents. -/
  | index (obstacle : String → Option StoreError) (job : IndexJob)

/-- The site after an event. -/
def next (site : Site) : Event → Site
  | .call session call => (Workspace.perform ⟨site, session⟩ call).2.site
  | .index obstacle job => { site with store := (job.apply obstacle site.store).2 }

/-- Calls that leave the reserved fields to the repository: no document is created or deleted behind
its back, and contents are replaced by such as hold the same in all reserved fields. -/
def AdmitsCall (site : Site) : Session.Call → Prop
  | .create _ => False
  | .delete _ => False
  | .update d => ∀ id e, d.id? = some id → site.store.find? id = .ok (some e) →
      Document.AgreesOn Field.reserved e d
  | .revise _ fields cleared =>
      (∀ field ∈ fields, field.1 ∉ Field.reserved) ∧ ∀ key ∈ cleared, key ∉ Field.reserved
  | _ => True

/-- The events that belong to a run. -/
def Admits (site : Site) : Event → Prop
  | .call _ call => site.AdmitsCall call
  | .index _ _ => True

/-- The second site comes about from the first by a run. -/
inductive Reaches (start : Site) : Site → Prop where
  | refl : Reaches start start
  | step {site : Site} (event : Event) (hrun : Reaches start site) (hadmits : site.Admits event) :
      Reaches start (site.next event)

/-- The site after calls through one session. -/
def afterCalls (site : Site) (session : Session) (calls : List Session.Call) : Site :=
  calls.foldl (fun site call => site.next (.call session call)) site

namespace Coherent

variable {site : Site} {shelf : Shelf}

/-! ## One event -/

/-- Reserved fields cover the structural ones. -/
theorem structural_subset_reserved : Field.structural ⊆ Field.reserved := by decide

/-- **Every call that is admitted leaves a site coherent.** -/
theorem perform {w : Workspace} (h : Coherent w.site shelf) {call : Session.Call}
    (hadmits : w.site.AdmitsCall call) : ∃ t, Coherent (w.perform call).2.site t := by
  cases call with
  -- the two raw writes are not admitted
  | create d => exact hadmits.elim
  | delete id => exact hadmits.elim
  | update d =>
    -- an update may not touch the fields that make up the tree
    refine h.update fun id e hid he => ?_
    have hfind : w.site.store.find? id = .ok (some e) := by rw [Store.find?_eq h.stored, he]
    exact (hadmits id e hid hfind).mono structural_subset_reserved
  | revise id fields cleared =>
    exact h.revise (fun field hfield hmem => hadmits.1 field hfield (structural_subset_reserved hmem))
      fun key hkey hmem => hadmits.2 key hkey (structural_subset_reserved hmem)
  | addChild parent name type =>
    exact h.produce fun p id hplan => h.of_planAdd (Workspace.of_liveSite_bind hplan).2
  | addProxy target parent name =>
    exact h.produce fun p id hplan => h.of_planProxy (Workspace.of_liveSite_bind hplan).2
  | checkIn id increment =>
    exact h.produce fun p _ hplan => h.of_planCheckIn (Workspace.of_liveSite_bind hplan).2
  | checkOut id =>
    exact h.change fun p hplan => h.of_planCheckOut (Workspace.of_liveSite_bind hplan).2
  | setPolicy id policy overwrite =>
    exact h.change fun p hplan => h.of_planPolicy (Workspace.of_liveSite_bind hplan).2
  | remove id =>
    -- a removal, a move and a copy refuse the two folders of the site before they plan
    refine h.change fun p hplan => ?_
    obtain ⟨⟨hroot, hversions⟩, -, hplan⟩ := Workspace.of_requireOrdinary_bind hplan
    exact h.of_planRemove hroot hversions hplan
  | move id dest name? =>
    refine h.produce fun p _ hplan => ?_
    obtain ⟨⟨hroot, hversions⟩, -, hplan⟩ := Workspace.of_requireOrdinary_bind hplan
    exact h.of_planMove hroot hversions hplan
  | copy id dest name? =>
    refine h.produce fun p _ hplan => ?_
    obtain ⟨⟨hroot, hversions⟩, -, hplan⟩ := Workspace.of_requireOrdinary_bind hplan
    exact h.of_planCopy hroot hversions hplan
  -- a commit and the calls that only read write nothing
  | commit => exact ⟨shelf, h.commit⟩
  | _ => exact ⟨shelf, h⟩

/-- **Every event of a run leaves a site coherent.** -/
theorem next (h : Coherent site shelf) {event : Event} (hadmits : site.Admits event) :
    ∃ t, Coherent (site.next event) t := by
  cases event with
  | call session call => exact h.perform hadmits
  | index obstacle job => exact h.index obstacle job

end Coherent

theorem folders_next (site : Site) (event : Event) : (site.next event).folders = site.folders := by
  cases event with
  | call session call => exact Workspace.folders_perform call
  | index obstacle job => rfl

/-! ## Listing proxies -/

/-- **The proxies of a document are all that stand for it, each once.** -/
theorem Coherent.exists_proxiesOf_eq {w : Workspace} {shelf : Shelf} {t : String} {dt : Document}
    (h : Coherent w.site shelf) (hlive : w.session.live = true) (hdt : shelf.get? t = some dt) :
    ∃ ps, w.proxiesOf t none = .ok ps ∧ (ps.map (·.id?)).Nodup ∧
      ∀ p, p ∈ ps ↔ p.isProxy = true ∧ p.target? = some t ∧ ∃ id, shelf.get? id = some p := by
  have hrequire : w.require t = .ok dt := Workspace.require_eq_ok hlive h.stored hdt
  have hask : w.ask (·.findEach dt.proxies) = .ok (dt.proxies.map (shelf.get? ·)) :=
    Workspace.ask_eq_ok hlive (Store.findEach_eq h.stored dt.proxies)
  -- nothing that the document lists is missing
  have hthere : ∀ k ∈ dt.proxies, ∃ e, shelf.get? k = some e := by
    intro k hk
    obtain ⟨e, he, -⟩ := (h.links.mem_proxies_iff hdt).1 hk
    exact ⟨e, he⟩
  refine ⟨dt.proxies.filterMap (shelf.get? ·), ?_, ?_, ?_⟩
  · rw [Workspace.proxiesOf, hrequire]
    simp only [bind, Except.bind, hask, pure, Except.pure, List.filterMap_map]
    congr 1
    exact List.filter_eq_self.2 fun p _ => rfl
  · rw [h.filed.map_id? hthere]
    exact (h.links.nodup_proxies hdt).map fun _ _ => Option.some.inj
  · intro p
    rw [List.mem_filterMap]
    constructor
    · rintro ⟨k, hk, hp⟩
      obtain ⟨e, he, htarget⟩ := (h.links.mem_proxies_iff hdt).1 hk
      cases hp.symm.trans he
      exact ⟨h.links.isProxy_of_target hp htarget, Document.reference?_eq_some_iff.2 htarget, k, hp⟩
    · rintro ⟨-, htarget, k, hp⟩
      rw [Document.target?, Document.reference?_eq_some_iff] at htarget
      exact ⟨k, (h.links.mem_proxies_iff hdt).2 ⟨p, hp, htarget⟩, hp⟩

/-! ## Whole runs -/

namespace Reaches

variable {start site : Site} {shelf : Shelf}

/-- **A run leaves a site coherent.** Induction on the run. -/
theorem coherent (hrun : Reaches start site) (h : Coherent start shelf) :
    ∃ t, Coherent site t := by
  induction hrun with
  | refl => exact ⟨shelf, h⟩
  | step event _ hadmits ih =>
    obtain ⟨t, ht⟩ := ih
    exact ht.next hadmits

/-- Calls that are admitted anywhere are a run. Induction on the calls, from the last one. -/
theorem afterCalls (start : Site) (session : Session) {calls : List Session.Call}
    (hadmits : ∀ call ∈ calls, ∀ site : Site, site.AdmitsCall call) :
    Reaches start (start.afterCalls session calls) := by
  induction calls using List.reverseRecOn with
  | nil => exact .refl
  | append_singleton calls call ih =>
    rw [Site.afterCalls, List.foldl_append]
    exact .step (.call session call)
      (ih fun other hother => hadmits other (List.mem_append_left _ hother))
      (hadmits call (by simp) _)

theorem folders (hrun : Reaches start site) : site.folders = start.folders := by
  induction hrun with
  | refl => rfl
  | step event _ _ ih => rw [folders_next, ih]

end Reaches

section Founded

variable {repository : String} {provision : Provision} {ids : IdSource} {clock : Instant}
  {queue : Option IndexQueue} {start site : Site}

/-- What a run from a new repository leads to. -/
theorem coherent_of_reaches (hids : ids.Unrepeated)
    (hfound : Site.found repository (Store.empty provision) ids clock queue = .ok start)
    (hrun : start.Reaches site) :
    ∃ shelf, Coherent site shelf ∧ site.root = start.root ∧ site.versions = start.versions := by
  obtain ⟨shelf, h⟩ := hrun.coherent (Coherent.of_found hids hfound)
  exact ⟨shelf, h, congrArg Prod.fst hrun.folders, congrArg Prod.snd hrun.folders⟩

/-- **Whatever happens to a new repository, its documents form a tree.** The root is the only
document without parent; every other has a parent that is there, and lists the ancestors of that
parent and then the parent; no two have parent and name in common; the children of the folder of
versions are the versions; proxies and versions have no children (`TreeShaped`). So no document is
below itself. -/
theorem treeShaped_of_reaches (hids : ids.Unrepeated)
    (hfound : Site.found repository (Store.empty provision) ids clock queue = .ok start)
    (hrun : start.Reaches site) :
    ∃ shelf, site.store.shelf? = some shelf ∧ shelf.Keyed ∧
      TreeShaped start.root start.versions shelf ∧
      (∀ id d, shelf.get? id = some d → (d.get? Field.parent = none ↔ id = start.root)) ∧
      (∀ id d, shelf.get? id = some d → id ∉ d.ancestors) ∧
      ∀ id, ¬ Relation.TransGen shelf.ChildOf id id := by
  obtain ⟨shelf, h, hroot, hversions⟩ := coherent_of_reaches hids hfound hrun
  have htree : TreeShaped start.root start.versions shelf := by
    rw [← hroot, ← hversions]
    exact h.tree
  exact ⟨shelf, h.stored, h.keyed, htree, fun id d hd => htree.parent_eq_none_iff hd,
    fun id d hd => htree.notMem_ancestors hd, fun id => htree.not_transGen_childOf⟩

/-- For instance after a document was added to the root and then removed. -/
theorem treeShaped_after_removal :
    ∃ start, Site.found "test" (Store.empty .own) .sequential ⟨0, 0, by decide⟩ none = .ok start ∧
      let site := (start.next (.call (.fresh "s") (.addChild start.root "a" "Folder"))).next
        (.call (.fresh "s") (.remove "UUID_2"))
      ∃ shelf, site.store.shelf? = some shelf ∧ shelf.Keyed ∧
        TreeShaped start.root start.versions shelf ∧
        (∀ id d, shelf.get? id = some d → (d.get? Field.parent = none ↔ id = start.root)) ∧
        (∀ id d, shelf.get? id = some d → id ∉ d.ancestors) ∧
        ∀ id, ¬ Relation.TransGen shelf.ChildOf id id := by
  refine ⟨_, Coherent.found_eq_ok IdSource.unrepeated_sequential, ?_⟩
  exact treeShaped_of_reaches IdSource.unrepeated_sequential
    (Coherent.found_eq_ok IdSource.unrepeated_sequential)
    (.step _ (.step _ .refl trivial) trivial)

/-- **Whatever happens to a new repository, proxies and their targets refer to each other.** Exactly
the proxies have a target; it is there, is no proxy and lists the proxy once; and what a document
lists are proxies of it (`ProxyLinked`). So listing the proxies of a document finds all that stand
for it, each once. -/
theorem proxyLinked_of_reaches (hids : ids.Unrepeated)
    (hfound : Site.found repository (Store.empty provision) ids clock queue = .ok start)
    (hrun : start.Reaches site) :
    ∃ shelf, site.store.shelf? = some shelf ∧ ProxyLinked shelf ∧
      ∀ (session : Session) (t : String) (dt : Document), session.live = true →
        shelf.get? t = some dt → ∃ ps, Workspace.proxiesOf ⟨site, session⟩ t none = .ok ps ∧
          (ps.map (·.id?)).Nodup ∧
          ∀ p, p ∈ ps ↔ p.isProxy = true ∧ p.target? = some t ∧ ∃ id, shelf.get? id = some p := by
  obtain ⟨shelf, h, -, -⟩ := coherent_of_reaches hids hfound hrun
  exact ⟨shelf, h.stored, h.links, fun session t dt hlive hdt =>
    h.exists_proxiesOf_eq (w := ⟨site, session⟩) hlive hdt⟩

/-- For instance after a document was added to the root, and a proxy of it beside it. -/
theorem proxyLinked_after_proxy :
    ∃ start, Site.found "test" (Store.empty .own) .sequential ⟨0, 0, by decide⟩ none = .ok start ∧
      let site := (start.next (.call (.fresh "s") (.addChild start.root "a" "Folder"))).next
        (.call (.fresh "s") (.addProxy "UUID_2" start.root "b"))
      ∃ shelf, site.store.shelf? = some shelf ∧ ProxyLinked shelf ∧
        ∀ (session : Session) (t : String) (dt : Document), session.live = true →
          shelf.get? t = some dt → ∃ ps, Workspace.proxiesOf ⟨site, session⟩ t none = .ok ps ∧
            (ps.map (·.id?)).Nodup ∧
            ∀ p, p ∈ ps ↔ p.isProxy = true ∧ p.target? = some t ∧ ∃ id, shelf.get? id = some p := by
  refine ⟨_, Coherent.found_eq_ok IdSource.unrepeated_sequential, ?_⟩
  exact proxyLinked_of_reaches IdSource.unrepeated_sequential
    (Coherent.found_eq_ok IdSource.unrepeated_sequential)
    (.step _ (.step _ .refl trivial) trivial)

end Founded

end Site

end ContentRepository
