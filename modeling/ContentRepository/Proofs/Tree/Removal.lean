import ContentRepository.Proofs.Session.Revising
import ContentRepository.Proofs.Tree.Coherence

/-!
# Removals

A removal takes a document away with all below it, and with the proxies elsewhere that stand for
one of these; documents that stay while proxies of theirs go are relinked. So nothing is left that
hangs on what is gone.

* **`TreeShaped.eraseAll`** — documents may go if all below them go.
* **`ProxyLinked.without`** — documents may go if the proxies that stand for them go, and if they
  are taken from the lists of their own targets.
* **`Site.Filed.planRemove_eq_ok`** — what a removal plans.
* **`Site.Coherent.complete_removal`** — in a tree a removal finds all that has to go along.
* **`Site.Coherent.writes_planRemove`** and **`Site.Coherent.of_planRemove`** — a removal is carried
  out to the end and leads to a coherent site.
-/

namespace ContentRepository

/-! ## What may go -/

/-- **Documents may go if their children go**, and the two folders stay. -/
theorem TreeShaped.eraseAll {root versions : String} {s : Shelf} (h : TreeShaped root versions s)
    {gone : List String} (hroot : root ∉ gone) (hversions : versions ∉ gone)
    (hclosed : ∀ id d p, s.get? id = some d → d.get? Field.parent = some (.reference p) →
      p ∈ gone → id ∈ gone) : TreeShaped root versions (s.eraseAll gone) := by
  have hold : ∀ {id d}, (s.eraseAll gone).get? id = some d → id ∉ gone ∧ s.get? id = some d := by
    intro id d hd
    rw [Shelf.get?_eraseAll] at hd
    split at hd
    · cases hd
    · next hstays => exact ⟨hstays, hd⟩
  have hkept : ∀ {id d}, id ∉ gone → s.get? id = some d → (s.eraseAll gone).get? id = some d := by
    intro id d hstays hd
    rw [Shelf.get?_eraseAll, if_neg hstays, hd]
  refine ⟨?top, ?child, ?names, ?filed, ?versionName, ?childless, ?folder⟩
  case top =>
    obtain ⟨d, hd, hrest⟩ := h.top
    exact ⟨d, hkept hroot hd, hrest⟩
  case child =>
    intro id d hd hne
    obtain ⟨hstays, hd⟩ := hold hd
    obtain ⟨p, dp, hparent, hdp, hancestors⟩ := h.child id d hd hne
    -- a document that stays has a parent that stays, as what is gone is closed under children
    exact ⟨p, dp, hparent, hkept (fun hp => hstays (hclosed id d p hd hparent hp)) hdp, hancestors⟩
  case names =>
    intro id other d e hd he
    exact h.names id other d e (hold hd).2 (hold he).2
  case filed => exact fun id d hd => h.filed id d (hold hd).2
  case versionName => exact fun id d hd => h.versionName id d (hold hd).2
  case childless =>
    intro id d p dp hd hparent hdp
    exact h.childless id d p dp (hold hd).2 hparent (hold hdp).2
  case folder =>
    obtain ⟨d, hd, hrest⟩ := h.folder
    exact ⟨d, hkept hversions hd, hrest⟩

/-- **Documents may go if the proxies that stand for them go**, and if those that stay list what
they did without what is gone. -/
theorem ProxyLinked.without {s t : Shelf} (h : ProxyLinked s) (gone : List String)
    (hgone : ∀ k e, t.get? k = some e → k ∉ gone ∧ (s.get? k).isSome = true)
    (hkept : ∀ k d, k ∉ gone → s.get? k = some d → ∃ e, t.get? k = some e ∧
      Document.AgreesOn [Field.isProxy, Field.target] d e ∧
      e.proxies = d.proxies.filter fun p => !gone.contains p)
    (horphans : ∀ p d k, s.get? p = some d → d.get? Field.target = some (.reference k) →
      k ∈ gone → p ∈ gone) : ProxyLinked t := by
  -- what is there now was there before, with its proxies that are gone left out
  have hold : ∀ {k e}, t.get? k = some e → k ∉ gone ∧ ∃ d, s.get? k = some d ∧
      Document.AgreesOn [Field.isProxy, Field.target] d e ∧
      e.proxies = d.proxies.filter fun p => !gone.contains p := by
    intro k e he
    obtain ⟨hstays, hsome⟩ := hgone k e he
    obtain ⟨d, hd⟩ := Option.isSome_iff_exists.1 hsome
    obtain ⟨e', he', hrest⟩ := hkept k d hstays hd
    cases he.symm.trans he'
    exact ⟨hstays, d, hd, hrest⟩
  refine ⟨?target, ?listed, ?back⟩
  case target =>
    intro k e he
    obtain ⟨-, d, hd, hagree, -⟩ := hold he
    rw [hagree _ (by decide), Document.isProxy, hagree.flag (by decide)]
    exact h.target k d hd
  case listed =>
    intro p e he hproxy
    obtain ⟨hstays, d, hd, hagree, -⟩ := hold he
    rw [Document.isProxy, hagree.flag (by decide)] at hproxy
    obtain ⟨k, dk, htarget, hdk, hno, hcount⟩ := h.listed p d hd hproxy
    -- the target of a proxy that stays has stayed, or the proxy would be an orphan
    obtain ⟨ek, hek, hkagree, hproxies⟩ :=
      hkept k dk (fun hk => hstays (horphans p d k hd htarget hk)) hdk
    refine ⟨k, ek, (hagree _ (by decide)).trans htarget, hek, ?_, ?_⟩
    · rw [Document.isProxy, hkagree.flag (by decide)]
      exact hno
    · -- the proxy itself is not filtered out of the list
      rw [hproxies, List.count_filter (by simpa using hstays), hcount]
  case back =>
    intro k ek p hek hmem
    obtain ⟨-, dk, hdk, -, hproxies⟩ := hold hek
    rw [hproxies, List.mem_filter] at hmem
    obtain ⟨hmem, hstays⟩ := hmem
    obtain ⟨d, hd, hproxy, htarget⟩ := h.back k dk p hdk hmem
    obtain ⟨e, he, hagree, -⟩ := hkept p d (by simpa using hstays) hd
    refine ⟨e, he, ?_, (hagree _ (by decide)).trans htarget⟩
    rw [Document.isProxy, hagree.flag (by decide)]
    exact hproxy

namespace Site

variable {site : Site} {shelf : Shelf} {id : String} {d : Document} {below : Listing}

/-! ## What a removal plans -/

/-- What is found for a removal. -/
structure Removal.Found (r : Removal) (shelf : Shelf) (id : String) : Prop where
  /-- The document goes, and all below it. -/
  removed : ∀ k, k ∈ r.removed.keys ↔ ∃ d, shelf.get? k = some d ∧ (k = id ∨ id ∈ d.ancestors)
  /-- So does what these list as their proxies. -/
  orphaned : ∀ p, p ∈ r.orphaned.keys ↔ p ∉ r.removed.keys ∧
    ∃ t ∈ r.removed.keys, ∃ e, shelf.get? t = some e ∧ p ∈ e.proxies

/-- All that goes: the documents that are removed, and the proxies that would be left behind. -/
def Coherent.gone (r : Removal) : List String := r.removed.keys ++ r.orphaned.keys

/-- Nothing is removed twice. -/
theorem Removal.Found.nodup_gone {r : Removal} (hr : r.Found shelf id) : (Coherent.gone r).Nodup := by
  refine List.nodup_append.2 ⟨r.removed.nodup_keys, r.orphaned.nodup_keys, ?_⟩
  rintro k hk _ hk' rfl
  exact ((hr.orphaned k).1 hk').1 hk

/-- The documents that lose proxies, relinked. -/
def Coherent.detached (shelf : Shelf) (links : Table TextSet) : List Document :=
  shelf.revisions links.entries (·.1) fun link d => d.relinked [] link.2.keys

namespace Filed

open Coherent (gone detached)

theorem mem_removed (h : Filed site shelf) (hd : shelf.get? id = some d)
    (hbelow : shelf.listing Field.ancestors (.reference id) [] true true = below) (k : String) :
    k ∈ (below.ids.add id).keys ↔ ∃ e, shelf.get? k = some e ∧ (k = id ∨ id ∈ e.ancestors) := by
  rw [TextSet.mem_keys_add, ← hbelow, h.mem_below]
  constructor
  · rintro (rfl | ⟨e, he, hmem⟩)
    · exact ⟨d, hd, .inl rfl⟩
    · exact ⟨e, he, .inr hmem⟩
  · rintro ⟨e, he, rfl | hmem⟩
    · exact .inl rfl
    · exact .inr ⟨e, he, hmem⟩

/-- A table about the documents below one, with the entry of the document itself besides, is about
the documents that go. -/
theorem get?_elim_insert (h : Filed site shelf) (hd : shelf.get? id = some d)
    (hbelow : shelf.listing Field.ancestors (.reference id) [] true true = below) {β : Type}
    (content : Document → Option β) (t : Table β)
    (ht : ∀ k b, t.get? k = some b ↔
      ∃ e, shelf.get? k = some e ∧ id ∈ e.ancestors ∧ content e = some b) (k : String) (b : β) :
    ((content d).elim t (t.insert id)).get? k = some b ↔
      k ∈ (below.ids.add id).keys ∧ ∃ e, shelf.get? k = some e ∧ content e = some b := by
  rw [h.mem_removed hd hbelow]
  -- whether the document is below itself or not, its entry is what it contains
  by_cases hk : k = id
  · subst hk
    cases hc : content d with
    | none => simp [ht, hd, hc]
    | some c => simp [Table.get?_insert, hd, hc]
  · have hstored : (t.get? k = some b) ↔
        (∃ e, shelf.get? k = some e ∧ (k = id ∨ id ∈ e.ancestors)) ∧
          ∃ e, shelf.get? k = some e ∧ content e = some b := by
      rw [ht]
      constructor
      · rintro ⟨e, he, hmem, hc⟩
        exact ⟨⟨e, he, .inr hmem⟩, e, he, hc⟩
      · rintro ⟨⟨e, he, hcase⟩, f, hf, hc⟩
        cases he.symm.trans hf
        exact ⟨e, he, hcase.resolve_left hk, hc⟩
    cases content d with
    | none => exact hstored
    | some c =>
      rw [Option.elim_some, Table.get?_insert, if_neg hk]
      exact hstored

/-- The proxies of the documents that go, all together. -/
theorem mem_proxies_removed (h : Filed site shelf) (hd : shelf.get? id = some d)
    (hbelow : shelf.listing Field.ancestors (.reference id) [] true true = below) (p : String) :
    p ∈ (if d.proxies.isEmpty then below.proxies
      else below.proxies.insert id d.proxies).values.flatten ↔
        ∃ t ∈ (below.ids.add id).keys, ∃ e, shelf.get? t = some e ∧ p ∈ e.proxies := by
  -- a document without proxies has no entry
  have hown : (if d.proxies.isEmpty then below.proxies
      else below.proxies.insert id d.proxies) =
        (Shelf.listedProxies true d).elim below.proxies (below.proxies.insert id) := by
    cases hp : d.proxies <;> simp [Shelf.listedProxies, hp]
  have hlisted := h.get?_elim_insert hd hbelow (Shelf.listedProxies true) below.proxies <| by
    intro k l
    rw [← hbelow, Shelf.get?_proxies_listing h.keyed]
    refine exists_congr fun e => and_congr_right fun he => ?_
    rw [Document.listed_reference_iff]
    rw [Shelf.listedProxies_eq_some_iff, eq_self, true_and]
    rfl
  rw [hown]
  simp only [List.mem_flatten, Table.mem_values, hlisted]
  constructor
  · rintro ⟨l, ⟨t, ht, e, he, hl⟩, hp⟩
    obtain ⟨-, rfl, -⟩ := Shelf.listedProxies_eq_some_iff.1 hl
    exact ⟨t, ht, e, he, hp⟩
  · rintro ⟨t, ht, e, he, hp⟩
    refine ⟨e.proxies, ⟨t, ht, e, he, ?_⟩, hp⟩
    exact Shelf.listedProxies_eq_some_iff.2 ⟨rfl, rfl, List.ne_nil_of_mem hp⟩

/-- **What a removal finds.** -/
theorem found_removal (h : Filed site shelf) {r : Removal} (hr : site.removal id = .ok r) :
    r.Found shelf id := by
  simp only [removal, bind_eq_ok_iff, require_eq_ok_iff h.stored, below_eq h.stored,
    Except.ok.injEq] at hr
  obtain ⟨d, hd, below, hbelow, heq⟩ := hr
  cases heq
  refine ⟨h.mem_removed hd hbelow, fun p => ?_⟩
  simp only [TextSet.mem_keys_ofTexts, List.mem_filter, h.mem_proxies_removed hd hbelow,
    Bool.not_eq_true', ← Bool.not_eq_true, Table.contains_iff]
  rw [and_comm]

theorem detachments_eq (h : Filed site shelf) (links : Table TextSet) :
    site.detachments links = .ok ((detached shelf links).map .update) := by
  refine Shelf.collect_eq fun (target, proxies) => ?_
  dsimp only
  rw [find?_eq h.stored]
  rfl

theorem keepsIds_detached (h : Filed site shelf) (links : Table TextSet) :
    shelf.KeepsIds links.entries (·.1) fun link d => d.relinked [] link.2.keys := by
  intro link _ d hd
  have hagree : Document.AgreesOn [Field.id] d (d.relinked [] link.2.keys) :=
    Document.agreesOn_relinked (by decide) d _ _
  exact (hagree.string? (by decide)).trans (h.keyed _ d hd)

/-- What becomes of a document when proxies are detached. -/
theorem get?_putAll_detached (h : Filed site shelf) (links : Table TextSet) (k : String) :
    (shelf.putAll (detached shelf links)).get? k = (shelf.get? k).map fun d =>
      (links.get? k).elim d fun lost => d.relinked [] lost.keys :=
  Shelf.get?_putAll_revisions_entries (fun (lost : TextSet) d => d.relinked [] lost.keys)
    (h.keepsIds_detached links) k

/-- Relinking touches nothing but the lists of proxies. -/
theorem agreesOn_putAll_detached (h : Filed site shelf) (links : Table TextSet) :
    shelf.AgreesOn (Field.ofTree ++ [Field.target]) (shelf.putAll (detached shelf links)) := by
  refine Shelf.agreesOn_of_map (h.get?_putAll_detached links) fun k d _ => ?_
  cases links.get? k with
  | none => exact .refl _ d
  | some lost => exact Document.agreesOn_relinked (by decide) d [] lost.keys

/-- **What a removal plans.** It relinks the documents that lose proxies, and then deletes what
goes. -/
theorem planRemove_eq_ok (h : Filed site shelf) {plan : Plan}
    (hplan : site.planRemove id = .ok plan) :
    ∃ r, site.removal id = .ok r ∧
      plan = { writes := (detached shelf r.detached).map .update ++ (gone r).map .delete } := by
  simp only [planRemove, bind_eq_ok_iff, h.detachments_eq, Except.ok.injEq] at hplan
  obtain ⟨r, hfound, updates, rfl, heq⟩ := hplan
  cases heq
  exact ⟨r, hfound, rfl⟩

end Filed

end Site

/-- What a removal takes along is complete. -/
structure Site.Removal.Complete (r : Site.Removal) (shelf : Shelf) (id : String) : Prop where
  /-- The document goes, and all below it. -/
  removed : ∀ k, k ∈ r.removed.keys ↔ ∃ d, shelf.get? k = some d ∧ (k = id ∨ id ∈ d.ancestors)
  /-- So do the proxies elsewhere that stand for one of them. -/
  orphaned : ∀ p, p ∈ r.orphaned.keys ↔ p ∉ r.removed.keys ∧ ∃ d t, shelf.get? p = some d ∧
    d.get? Field.target = some (.reference t) ∧ t ∈ r.removed.keys
  /-- Each document that stays is relinked for the proxies that it loses. -/
  detached : ∀ t p, p ∈ ((r.detached.get? t).getD Table.empty).keys ↔
    t ∉ r.removed.keys ∧ p ∈ r.removed.keys ∧ ∃ d, shelf.get? p = some d ∧
      d.get? Field.target = some (.reference t)

namespace Site.Coherent

variable {site : Site} {shelf : Shelf} {id : String} {d : Document} {below : Listing}

/-! ## What a removal finds -/

theorem get?_targets_removed (h : Coherent site shelf) (hd : shelf.get? id = some d)
    (hbelow : shelf.listing Field.ancestors (.reference id) [] true true = below) (k t : String) :
    (d.target?.elim below.targets (below.targets.insert id)).get? k = some t ↔
      k ∈ (below.ids.add id).keys ∧ ∃ e, shelf.get? k = some e ∧ e.target? = some t := by
  refine h.filed.get?_elim_insert hd hbelow Document.target? below.targets ?_ k t
  intro k t
  rw [← hbelow, Shelf.get?_targets_listing h.keyed]
  refine exists_congr fun e => and_congr_right fun he => ?_
  rw [Document.listed_reference_iff]
  refine and_congr_right fun _ => ⟨And.right, fun ht => ⟨?_, ht⟩⟩
  exact h.links.isProxy_of_target he (Document.reference?_eq_some_iff.1 ht)

/-- **A removal finds all that has to go along.** -/
theorem complete_removal (h : Coherent site shelf) {r : Removal}
    (hr : site.removal id = .ok r) : r.Complete shelf id := by
  have hfound := h.filed.found_removal hr
  simp only [removal, bind_eq_ok_iff, require_eq_ok_iff h.stored, below_eq h.stored,
    Except.ok.injEq] at hr
  obtain ⟨d, hd, below, hbelow, heq⟩ := hr
  cases heq
  refine ⟨hfound.removed, ?orphaned, ?detached⟩
  case orphaned =>
    intro p
    rw [hfound.orphaned]
    refine and_congr_right fun _ => ?_
    constructor
    · -- a proxy listed by what is removed points there
      rintro ⟨t, ht, e, he, hmem⟩
      obtain ⟨dp, hdp, htarget⟩ := (h.links.mem_proxies_iff he).1 hmem
      exact ⟨dp, t, hdp, htarget, ht⟩
    · -- and a proxy that points there is listed, as the links agree
      rintro ⟨dp, t, hdp, htarget, ht⟩
      obtain ⟨e, he, -⟩ := h.links.exists_target hdp htarget
      exact ⟨t, ht, e, he, (h.links.mem_proxies_iff he).2 ⟨dp, hdp, htarget⟩⟩
  case detached =>
    intro t p
    simp only [mem_keys_gatherLinks, List.mem_filter, Table.mem_entries, Bool.not_eq_true',
      ← Bool.not_eq_true, Table.contains_iff]
    rw [and_comm]
    refine and_congr_right fun _ => ?_
    have hown := h.get?_targets_removed hd hbelow p t
    simp only [Document.target?, Document.reference?_eq_some_iff] at hown ⊢
    -- the top of what is removed may itself be a proxy
    cases htarget : d.reference? Field.target with
    | none =>
      rw [htarget] at hown
      exact hown
    | some target =>
      rw [htarget] at hown
      exact hown

/-! ## What is gone after a removal -/

variable {r : Removal} {k p : String} {e dp : Document}

theorem isSome_of_gone (hr : r.Complete shelf id) (hk : k ∈ gone r) :
    (shelf.get? k).isSome = true := by
  rcases List.mem_append.1 hk with hk | hk
  · obtain ⟨d, hd, -⟩ := (hr.removed k).1 hk
    rw [hd]
    rfl
  · obtain ⟨-, d, -, hd, -⟩ := (hr.orphaned k).1 hk
    rw [hd]
    rfl

/-- The root and the folder of versions stay. -/
theorem folder_notMem_gone (h : Coherent site shelf) (hr : r.Complete shelf id)
    (hroot : id ≠ site.root) (hversions : id ≠ site.versions)
    (hk : k = site.root ∨ k = site.versions) : k ∉ gone r := by
  intro hmem
  rcases List.mem_append.1 hmem with hmem | hmem
  · obtain ⟨d, hd, heq | hid⟩ := (hr.removed k).1 hmem
    · rcases hk with rfl | rfl
      · exact hroot heq.symm
      · exact hversions heq.symm
    · rcases hk with rfl | rfl
      · rw [h.tree.ancestors_root hd] at hid
        cases hid
      · rw [h.tree.ancestors_versions hd] at hid
        exact hroot (List.mem_singleton.1 hid)
  · obtain ⟨-, d, t, hd, htarget, -⟩ := (hr.orphaned k).1 hmem
    have hproxy := h.tree.isProxy_folder hk hd
    rw [h.links.isProxy_of_target hd htarget] at hproxy
    cases hproxy

/-- Children go with their parents. -/
theorem gone_of_parent (h : Coherent site shelf) (hr : r.Complete shelf id)
    (he : shelf.get? k = some e) (hparent : e.get? Field.parent = some (.reference p))
    (hp : p ∈ gone r) : k ∈ gone r := by
  rcases List.mem_append.1 hp with hp | hp
  · -- what is below a removed document is removed
    obtain ⟨dp, hdp, hcase⟩ := (hr.removed p).1 hp
    refine List.mem_append_left _ ((hr.removed k).2 ⟨e, he, .inr ?_⟩)
    rw [h.tree.mem_ancestors_of_child he hparent hdp]
    rcases hcase with rfl | hid
    · exact .inr rfl
    · exact .inl hid
  · -- a proxy has nothing below it
    obtain ⟨-, dp, t, hdp, htarget, -⟩ := (hr.orphaned p).1 hp
    have hproxy := (h.tree.childless k e p dp he hparent hdp).1
    rw [h.links.isProxy_of_target hdp htarget] at hproxy
    cases hproxy

/-- Proxies go with the documents that they stand for. -/
theorem gone_of_target (h : Coherent site shelf) (hr : r.Complete shelf id)
    (hdp : shelf.get? p = some dp) (htarget : dp.get? Field.target = some (.reference k))
    (hk : k ∈ gone r) : p ∈ gone r := by
  by_cases hp : p ∈ r.removed.keys
  · exact List.mem_append_left _ hp
  rcases List.mem_append.1 hk with hk | hk
  · exact List.mem_append_right _ ((hr.orphaned p).2 ⟨hp, dp, k, hdp, htarget, hk⟩)
  · -- nothing stands for a proxy
    obtain ⟨-, dk, t, hdk, htargetk, -⟩ := (hr.orphaned k).1 hk
    obtain ⟨dk', hdk', hno⟩ := h.links.exists_target hdp htarget
    cases hdk.symm.trans hdk'
    rw [h.links.isProxy_of_target hdk htargetk] at hno
    cases hno

/-- The proxies detached from a document that stays are those of its own that go. -/
theorem mem_detached_iff (h : Coherent site shelf) (hr : r.Complete shelf id)
    (hk : k ∉ gone r) (he : shelf.get? k = some e) (hp : p ∈ e.proxies) :
    p ∈ ((r.detached.get? k).getD Table.empty).keys ↔ p ∈ gone r := by
  obtain ⟨dp, hdp, htarget⟩ := (h.links.mem_proxies_iff he).1 hp
  rw [hr.detached, gone, List.mem_append]
  constructor
  · rintro ⟨-, hmem, -⟩
    exact .inl hmem
  · rintro (hmem | hmem)
    · exact ⟨fun hremoved => hk (List.mem_append_left _ hremoved), hmem, dp, hdp, htarget⟩
    · -- an orphan stands for a document that goes, and this one stays
      obtain ⟨-, dp', t, hdp', htarget', ht⟩ := (hr.orphaned p).1 hmem
      cases hdp.symm.trans hdp'
      cases htarget.symm.trans htarget'
      exact absurd (List.mem_append_left _ ht) hk

/-! ## Carrying a removal out -/

/-- A document that stays lists the proxies that it did, without those that go. -/
theorem proxies_detached (h : Coherent site shelf) (hr : r.Complete shelf id) (hk : k ∉ gone r)
    (hd : shelf.get? k = some d)
    (he : (shelf.putAll (detached shelf r.detached)).get? k = some e) :
    e.proxies = d.proxies.filter fun p => !(gone r).contains p := by
  have hproxies : e.proxies = d.proxies.filter fun p =>
      !(((r.detached.get? k).getD Table.empty).keys).contains p := by
    rw [h.filed.get?_putAll_detached, hd] at he
    rw [← Option.some.inj he]
    cases r.detached.get? k with
    | none => exact (List.filter_eq_self.2 (by simp [Table.keys, Table.empty])).symm
    | some lost => exact Document.proxies_relinked_remove d lost.keys
  rw [hproxies]
  refine List.filter_congr fun p hp => ?_
  rw [Bool.not_inj_iff, Bool.eq_iff_iff, List.contains_iff_mem, List.contains_iff_mem]
  exact h.mem_detached_iff hr hk hd hp

/-- The shelf after a removal. -/
def remaining (shelf : Shelf) (r : Removal) : Shelf :=
  (shelf.putAll (detached shelf r.detached)).eraseAll (gone r)

/-- The writes that are planned succeed. -/
theorem writes_planRemove (h : Coherent site shelf) {plan : Plan}
    (hplan : site.planRemove id = .ok plan) :
    ∃ r, site.removal id = .ok r ∧ shelf.Writes plan.writes (remaining shelf r) := by
  obtain ⟨r, hr, rfl⟩ := h.filed.planRemove_eq_ok hplan
  refine ⟨r, hr, (Shelf.writes_revisions (h.filed.keepsIds_detached r.detached)
    fun k hk => hk).append ?_⟩
  exact .deletions (h.filed.found_removal hr).nodup_gone fun k hk =>
    (h.filed.agreesOn_putAll_detached r.detached).isSome.trans
      (isSome_of_gone (h.complete_removal hr) hk)

/-- **A removal is carried out to the end and leads to a coherent site.** -/
theorem of_planRemove (h : Coherent site shelf) {plan : Plan}
    (hroot : id ≠ site.root) (hversions : id ≠ site.versions)
    (hplan : site.planRemove id = .ok plan) :
    ∃ t, shelf.Writes plan.writes t ∧ Coherent (site.settled plan.drawn t) t := by
  obtain ⟨r, hremoval, hwrites⟩ := h.writes_planRemove hplan
  have hr := h.complete_removal hremoval
  let mid := shelf.putAll (detached shelf r.detached)
  have hagree : shelf.AgreesOn (Field.ofTree ++ [Field.target]) mid :=
    h.filed.agreesOn_putAll_detached r.detached
  -- what remains is what was detached, less what is gone
  have hold : ∀ {k e}, (remaining shelf r).get? k = some e →
      k ∉ gone r ∧ mid.get? k = some e := by
    intro k e he
    rw [remaining, Shelf.get?_eraseAll] at he
    split at he
    · cases he
    · next hstays => exact ⟨hstays, he⟩
  refine ⟨_, hwrites, h.settled ?keyed ?drawn ?tree ?links⟩
  case keyed =>
    intro k e he
    exact h.keyed.congr hagree (by decide) k e (hold he).2
  case drawn =>
    intro k e he
    obtain ⟨d, hd, -⟩ := hagree.right (hold he).2
    exact .inl (by rw [hd]; rfl)
  case tree =>
    refine (h.tree.congr (hagree.mono (by decide))).eraseAll
      (h.folder_notMem_gone hr hroot hversions (.inl rfl))
      -- a child of what is gone is gone
      (h.folder_notMem_gone hr hroot hversions (.inr rfl)) ?_
    intro k e p he hparent hp
    obtain ⟨d, hd, hde⟩ := hagree.right he
    rw [hde _ (by decide)] at hparent
    exact h.gone_of_parent hr hd hparent hp
  case links =>
    -- the proxies of what is gone are gone, and the lists of the others lose just them
    refine h.links.without (gone r) ?_ ?_ fun p d k => h.gone_of_target hr
    · intro k e he
      obtain ⟨hstays, he⟩ := hold he
      obtain ⟨d, hd, -⟩ := hagree.right he
      exact ⟨hstays, by rw [hd]; rfl⟩
    · intro k d hstays hd
      obtain ⟨e, he, hde⟩ := hagree.left hd
      refine ⟨e, ?_, hde.mono (by decide), h.proxies_detached hr hstays hd he⟩
      rw [remaining, Shelf.get?_eraseAll, if_neg hstays, he]

end Site.Coherent

end ContentRepository
