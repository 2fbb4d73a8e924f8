import ContentRepository.Proofs.Session.Writing
import Mathlib.Data.List.Nodup

/-!
# Plans that revise many documents

Several plans go through a list, look a document up for each item and update what they find. The
documents that come out are the `Shelf.revisions`.

* **`Shelf.collect_eq`** — going through the list cannot fail, and yields the revisions.
* **`Shelf.get?_putAll_revisions`** and **`Shelf.get?_putAll_of_absent`** — writing the revisions
  gives every document of the list its revision and leaves the others as they are.
-/

namespace ContentRepository.Shelf

variable {α : Type} {shelf base : Shelf} {xs : List α} {key : α → String}
  {revise : α → Document → Document}

/-- The revised documents: one for each item of the list that leads to a document. -/
def revisions (shelf : Shelf) (xs : List α) (key : α → String)
    (revise : α → Document → Document) : List Document :=
  xs.filterMap fun x => (shelf.get? (key x)).map (revise x)

theorem mem_revisions {e : Document} :
    e ∈ shelf.revisions xs key revise ↔
      ∃ x ∈ xs, ∃ d, shelf.get? (key x) = some d ∧ revise x d = e := by
  simp [revisions, List.mem_filterMap]

/-- **Going through the list yields the updates of all documents found.** -/
theorem collect_eq {look : α → Except Error (Option Write)}
    (hlook : ∀ x, look x = .ok ((shelf.get? (key x)).map fun d => .update (revise x d))) :
    (do
      let updates ← xs.mapM look
      return updates.filterMap fun update => update) =
        (.ok ((shelf.revisions xs key revise).map .update) : Except Error (List Write)) := by
  have hpure : look = fun x =>
      pure ((shelf.get? (key x)).map fun d => Write.update (revise x d)) := funext hlook
  rw [hpure, List.mapM_pure]
  simp only [bind, Except.bind, pure, Except.pure, List.filterMap_map, revisions,
    List.map_filterMap]
  congr 2
  funext x
  cases hx : shelf.get? (key x) <;> simp [hx]

/-- Whatever is collected was found for an item of the list. -/
theorem exists_of_collect {look : α → Except Error (Option Write)} {writes : List Write}
    (h : (do
      let updates ← xs.mapM look
      return updates.filterMap fun update => update) = .ok writes) :
    ∀ u ∈ writes, ∃ x ∈ xs, look x = .ok (some u) := by
  obtain ⟨updates, hupdates, heq⟩ := bind_eq_ok_iff.1 h
  cases heq
  clear h
  induction xs generalizing updates with
  | nil =>
    cases hupdates
    intro u hu
    cases hu
  | cons x rest ih =>
    rw [List.mapM_cons] at hupdates
    obtain ⟨first, hfirst, hupdates⟩ := bind_eq_ok_iff.1 hupdates
    obtain ⟨others, hothers, heq⟩ := bind_eq_ok_iff.1 hupdates
    cases heq
    intro u hu
    rw [List.mem_filterMap] at hu
    obtain ⟨update, hmem, rfl⟩ := hu
    -- the update is of the first element, or it was collected from the others
    rcases List.mem_cons.1 hmem with rfl | hmem
    · exact ⟨x, List.mem_cons_self, hfirst⟩
    · obtain ⟨y, hy, hlook⟩ := ih others hothers u (List.mem_filterMap.2 ⟨_, hmem, rfl⟩)
      exact ⟨y, List.mem_cons_of_mem _ hy, hlook⟩

/-- A revision keeps the id under which the document was found. -/
def KeepsIds (shelf : Shelf) (xs : List α) (key : α → String)
    (revise : α → Document → Document) : Prop :=
  ∀ x ∈ xs, ∀ d, shelf.get? (key x) = some d → (revise x d).id? = some (key x)

/-- **Every document of the list becomes its revision.** -/
theorem get?_putAll_revisions (hids : shelf.KeepsIds xs key revise) (hnodup : (xs.map key).Nodup)
    {x : α} {d : Document} (hx : x ∈ xs) (hd : shelf.get? (key x) = some d) :
    (base.putAll (shelf.revisions xs key revise)).get? (key x) = some (revise x d) := by
  refine get?_putAll_of_mem ?_ (mem_revisions.2 ⟨x, hx, d, hd, rfl⟩) (hids x hx d hd)
  intro e he hid
  obtain ⟨y, hy, c, hc, rfl⟩ := mem_revisions.1 he
  have hkey : key y = key x := Option.some.inj ((hids y hy c hc).symm.trans hid)
  -- no two items lead to one document
  have hyx : y = x := List.inj_on_of_nodup_map hnodup hy hx hkey
  rw [hyx] at hc ⊢
  rw [hd] at hc
  rw [Option.some.inj hc]

/-- **The other documents stay.** -/
theorem get?_putAll_of_absent (hids : shelf.KeepsIds xs key revise) {k : String}
    (habsent : ∀ x ∈ xs, key x = k → shelf.get? k = none) :
    (base.putAll (shelf.revisions xs key revise)).get? k = base.get? k := by
  refine get?_putAll_of_forall_ne fun e he hid => ?_
  obtain ⟨x, hx, d, hd, rfl⟩ := mem_revisions.1 he
  have hkey : key x = k := Option.some.inj ((hids x hx d hd).symm.trans hid)
  rw [hkey, habsent x hx hkey] at hd
  cases hd

/-- Where the list is a table, each document has at most one revision. -/
theorem get?_putAll_revisions_entries {β : Type} {t : Table β}
    (revise : β → Document → Document)
    (hids : shelf.KeepsIds t.entries (·.1) fun entry => revise entry.2) (k : String) :
    (shelf.putAll (shelf.revisions t.entries (·.1) fun entry => revise entry.2)).get? k =
      (shelf.get? k).map fun d => (t.get? k).elim d fun b => revise b d := by
  cases ht : t.get? k with
  | none =>
    rw [get?_putAll_of_absent hids]
    · cases shelf.get? k <;> rfl
    · rintro ⟨_, b⟩ hmem rfl
      rw [Table.mem_entries.1 hmem] at ht
      cases ht
  | some b =>
    cases hd : shelf.get? k with
    | some d => exact get?_putAll_revisions hids t.nodup_keys (Table.mem_entries.2 ht) hd
    | none =>
      rw [get?_putAll_of_absent hids fun _ _ heq => heq ▸ hd, hd]
      rfl

/-- Revisions can be written on a shelf that has the documents. -/
theorem writes_revisions (hids : shelf.KeepsIds xs key revise)
    (hthere : ∀ k, (shelf.get? k).isSome = true → (base.get? k).isSome = true) :
    base.Writes ((shelf.revisions xs key revise).map .update)
      (base.putAll (shelf.revisions xs key revise)) := by
  refine .updates fun e he => ?_
  obtain ⟨x, hx, d, hd, rfl⟩ := mem_revisions.1 he
  exact ⟨key x, hids x hx d hd, hthere _ (by rw [hd]; rfl)⟩

end ContentRepository.Shelf
