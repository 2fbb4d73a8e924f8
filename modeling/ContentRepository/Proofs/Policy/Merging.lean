import ContentRepository.Proofs.Policy.Coding
import Mathlib.Data.List.Basic

/-!
# Merging policies

A policy with distinct names is known by the names of its lists, in their order, and by the list it
has under each name. Both are easily said of a merged policy: the names are those of the first
policy and then the new ones of the second, and the list of a name is that of the second policy, if
it has one.

* **`Policy.names_merge`** and **`Policy.list?_merge`** — names and lists of a merged policy.
* **`Policy.eq_of_names`** — a policy is known by them.
* **`Policy.merge_assoc`**, **`Policy.merge_self`**, **`Policy.empty_merge`** and
  **`Policy.merge_empty`** — the laws of merging.
-/

namespace ContentRepository.Policy

variable {a b c p q : Policy} {lists : List AccessList} {name : String}

/-- The names of the lists, in their order. -/
def names (p : Policy) : List String := p.lists.map (·.name)

/-! ## What a policy is known by -/

theorem find?_name_of_mem {list : AccessList} (hnodup : (lists.map (·.name)).Nodup)
    (hlist : list ∈ lists) : lists.find? (fun l => l.name == list.name) = some list := by
  induction lists with
  | nil => cases hlist
  | cons first rest ih =>
    obtain ⟨hfree, hrest⟩ := List.nodup_cons.1 hnodup
    rcases List.mem_cons.1 hlist with rfl | hlist
    · exact List.find?_cons_of_pos (beq_self_eq_true _)
    · have hne : first.name ≠ list.name := fun heq =>
        hfree (List.mem_map.2 ⟨list, hlist, heq.symm⟩)
      rw [List.find?_cons_of_neg (by simpa using hne), ih hrest hlist]

theorem find?_name_eq_none (h : name ∉ lists.map (·.name)) :
    lists.find? (fun l => l.name == name) = none := by
  rw [List.find?_eq_none]
  intro l hl heq
  exact h (beq_iff_eq.1 heq ▸ List.mem_map_of_mem hl)

theorem lists_eq_filterMap (h : p.Distinct) : p.lists = p.names.filterMap p.list? := by
  rw [names, List.filterMap_map]
  have hsome : ∀ l ∈ p.lists, (p.list? ∘ (·.name)) l = some l := fun l hl =>
    find?_name_of_mem h hl
  rw [List.filterMap_congr hsome, List.filterMap_some]

/-- **A policy is known by its names, in their order, and by the list it has under each name.** -/
theorem eq_of_names (hp : p.Distinct) (hq : q.Distinct) (hnames : p.names = q.names)
    (hlists : p.list? = q.list?) : p = q := by
  have heq : p.lists = q.lists := by
    rw [lists_eq_filterMap hp, lists_eq_filterMap hq, hnames, hlists]
  cases p
  cases q
  cases heq
  rfl

/-! ## Merged policies -/

theorem names_foldl_add (hnodup : (lists.map (·.name)).Nodup) (p : Policy) :
    (lists.foldl add p).names = p.names ++ (lists.map (·.name)).filter (· ∉ p.names) := by
  induction lists generalizing p with
  | nil => simp
  | cons list rest ih =>
    obtain ⟨hfree, hrest⟩ := List.nodup_cons.1 hnodup
    have hadd : (p.add list).names =
        if list.name ∈ p.names then p.names else p.names ++ [list.name] :=
      map_name_place list p.lists
    rw [List.foldl_cons, ih hrest, hadd, List.map_cons]
    split
    · next hmem => rw [List.filter_cons_of_neg (by simpa using hmem)]
    · next hnew =>
      -- the name that is added now does not come again
      have hsame : (rest.map (·.name)).filter (· ∉ p.names ++ [list.name]) =
          (rest.map (·.name)).filter (· ∉ p.names) := by
        refine List.filter_congr fun other hother => ?_
        have hne : other ≠ list.name := by
          rintro rfl
          exact hfree hother
        simp [hne]
      rw [List.filter_cons_of_pos (by simpa using hnew), hsame, List.append_assoc]
      rfl

theorem list?_foldl_add (hnodup : (lists.map (·.name)).Nodup) (p : Policy) (name : String) :
    (lists.foldl add p).list? name = (list? ⟨lists⟩ name).or (p.list? name) := by
  induction lists generalizing p with
  | nil => rfl
  | cons list rest ih =>
    obtain ⟨hfree, hrest⟩ := List.nodup_cons.1 hnodup
    rw [List.foldl_cons, ih hrest, list?_add]
    by_cases heq : list.name = name
    · subst heq
      have hnone : list? ⟨rest⟩ list.name = none := find?_name_eq_none hfree
      have hfound : list? ⟨list :: rest⟩ list.name = some list :=
        List.find?_cons_of_pos (beq_self_eq_true _)
      rw [hnone, hfound, if_pos rfl]
      rfl
    · have hpass : list? ⟨list :: rest⟩ name = list? ⟨rest⟩ name :=
        List.find?_cons_of_neg (by simpa using heq)
      rw [hpass, if_neg (Ne.symm heq)]

/-- **A merged policy has the names of the first one and then the new ones of the second.** -/
theorem names_merge (hb : b.Distinct) (a : Policy) :
    (a.merge b).names = a.names ++ b.names.filter (· ∉ a.names) :=
  names_foldl_add hb a

/-- **Under each name a merged policy has the list of the second one, or else of the first.** -/
theorem list?_merge (hb : b.Distinct) (a : Policy) (name : String) :
    (a.merge b).list? name = (b.list? name).or (a.list? name) :=
  list?_foldl_add hb a name

theorem distinct_merge (ha : a.Distinct) (b : Policy) : (a.merge b).Distinct :=
  distinct_foldl_add b.lists ha

/-! ## Laws -/

theorem merge_empty (a : Policy) : a.merge empty = a := rfl

theorem empty_merge (ha : a.Distinct) : empty.merge a = a :=
  foldl_add_of_nodup a.lists ha

theorem merge_self (ha : a.Distinct) : a.merge a = a := by
  refine eq_of_names (distinct_merge ha a) ha ?_ (funext fun name => ?_)
  · have hnone : a.names.filter (· ∉ a.names) = [] := by
      rw [List.filter_eq_nil_iff]
      intro name hname
      simpa using hname
    rw [names_merge ha, hnone, List.append_nil]
  · rw [list?_merge ha, Option.or_self]

theorem merge_assoc (ha : a.Distinct) (hb : b.Distinct) (hc : c.Distinct) :
    (a.merge b).merge c = a.merge (b.merge c) := by
  have hbc : (b.merge c).Distinct := distinct_merge hb c
  refine eq_of_names (distinct_merge (distinct_merge ha b) c) (distinct_merge ha _) ?_
    (funext fun name => ?_)
  · rw [names_merge hc, names_merge hb, names_merge hbc, names_merge hc, List.filter_append,
      List.filter_filter, List.append_assoc]
    congr 2
    refine List.filter_congr fun name _ => ?_
    by_cases hname : name ∈ a.names <;> simp [hname]
  · rw [list?_merge hc, list?_merge hb, list?_merge hbc, list?_merge hc, Option.or_assoc]

end ContentRepository.Policy
