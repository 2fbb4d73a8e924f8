import ContentRepository.Table

/-!
# What the table operations do to the entry of each key

Every operation is described through `get?` alone, and `Table.ext` says that nothing else matters:
two tables that answer every lookup alike are equal.
-/

namespace ContentRepository.Table

variable {α : Type u} {β : Type v}

/-- In an ascending list an entry is present exactly when the search for its key finds it. -/
theorem mem_iff_find? {l : List (String × α)} (ascending : l.Pairwise fun a b => a.1 < b.1)
    (key : String) (value : α) :
    (key, value) ∈ l ↔ (l.find? fun e => e.1 == key).map (·.2) = some value := by
  induction l with
  | nil => simp
  | cons e rest ih =>
    obtain ⟨low, ascending⟩ := List.pairwise_cons.1 ascending
    by_cases h : e.1 = key
    · -- the head has the key, so no later entry has it
      have absent : (key, value) ∉ rest := fun hm => by
        have := low _ hm
        exact String.lt_irrefl _ (h ▸ this)
      constructor
      · intro hm
        rcases List.mem_cons.1 hm with rfl | hm
        · simp
        · exact absurd hm absent
      · intro hf
        have : e.2 = value := by simpa [List.find?_cons, h] using hf
        rw [← this, ← h]
        exact List.mem_cons_self
    · have next : (e :: rest).find? (fun e => e.1 == key) = rest.find? fun e => e.1 == key :=
        List.find?_cons_of_neg (by simpa using h)
      rw [next, ← ih ascending, List.mem_cons]
      constructor
      · rintro (rfl | hm)
        · exact absurd rfl h
        · exact hm
      · exact Or.inr

/-- The entries are exactly what lookups find. -/
theorem mem_entries {t : Table α} {key : String} {value : α} :
    (key, value) ∈ t.entries ↔ t.get? key = some value :=
  mem_iff_find? t.ascending key value

theorem contains_eq_isSome (t : Table α) (key : String) :
    t.contains key = (t.get? key).isSome := by
  simp only [contains, get?, Option.isSome_map]
  rw [Bool.eq_iff_iff, List.any_eq_true, List.find?_isSome]

theorem mem_keys {t : Table α} {key : String} : key ∈ t.keys ↔ (t.get? key).isSome := by
  simp only [keys, List.mem_map, Option.isSome_iff_exists]
  constructor
  · rintro ⟨⟨k, a⟩, hm, rfl⟩
    exact ⟨a, mem_entries.1 hm⟩
  · rintro ⟨a, h⟩
    exact ⟨(key, a), mem_entries.2 h, rfl⟩

@[simp] theorem get?_empty (key : String) : (empty : Table α).get? key = none := rfl

theorem get?_filter (t : Table α) (keep : String → α → Bool) (key : String) :
    (t.filter keep).get? key = (t.get? key).filter (keep key) := by
  apply Option.ext
  intro a
  rw [← mem_entries, filter, List.mem_filter, mem_entries, Option.filter_eq_some_iff]

theorem get?_erase (t : Table α) (key other : String) :
    (t.erase key).get? other = if other = key then none else t.get? other := by
  rw [erase, get?_filter]
  split <;> cases t.get? other <;> simp_all [Option.filter]

theorem get?_map (t : Table α) (f : α → β) (key : String) :
    (t.map f).get? key = (t.get? key).map f := by
  simp [get?, map, List.find?_map, Function.comp_def, Option.map_map]

theorem get?_insert (t : Table α) (key : String) (value : α) (other : String) :
    (t.insert key value).get? other = if other = key then some value else t.get? other := by
  apply Option.ext
  intro a
  rw [← mem_entries, insert, List.mem_append, List.mem_cons, List.mem_filter, List.mem_filter]
  simp only [decide_eq_true_eq, mem_entries, Prod.mk.injEq]
  split
  · next h =>
    subst h
    constructor
    · rintro (⟨_, h⟩ | ⟨_, rfl⟩ | ⟨_, h⟩)
      · exact absurd h (String.lt_irrefl _)
      · rfl
      · exact absurd h (String.lt_irrefl _)
    · intro h
      exact Or.inr (Or.inl ⟨rfl, (Option.some.inj h).symm⟩)
  · next h =>
    constructor
    · rintro (⟨h, _⟩ | ⟨rfl, _⟩ | ⟨h, _⟩)
      · exact h
      · contradiction
      · exact h
    · intro hg
      by_cases low : other < key
      · exact Or.inl ⟨hg, low⟩
      · refine Or.inr (Or.inr ⟨hg, ?_⟩)
        exact Decidable.byContradiction fun high =>
          h (String.le_antisymm (String.not_lt.1 high) (String.not_lt.1 low))

/-- Two ascending lists with the same members are the same list. -/
theorem eq_of_mem_iff {l m : List (String × α)} (hl : l.Pairwise fun a b => a.1 < b.1)
    (hm : m.Pairwise fun a b => a.1 < b.1) (h : ∀ e, e ∈ l ↔ e ∈ m) : l = m := by
  induction l generalizing m with
  | nil =>
    cases m with
    | nil => rfl
    | cons e _ => exact absurd ((h e).2 List.mem_cons_self) (by simp)
  | cons a l ih =>
    cases m with
    | nil => exact absurd ((h a).1 List.mem_cons_self) (by simp)
    | cons b m =>
      obtain ⟨la, hl⟩ := List.pairwise_cons.1 hl
      obtain ⟨mb, tail⟩ := List.pairwise_cons.1 hm
      -- the heads are the least entries of the same set
      have heads : a = b := by
        rcases List.mem_cons.1 ((h a).1 List.mem_cons_self) with rfl | ha
        · rfl
        · rcases List.mem_cons.1 ((h b).2 List.mem_cons_self) with rfl | hb
          · rfl
          · exact absurd (String.lt_trans (la b hb) (mb a ha)) (String.lt_irrefl _)
      subst heads
      congr 1
      refine ih hl tail fun e => ⟨fun he => ?_, fun he => ?_⟩
      · rcases List.mem_cons.1 ((h e).1 (List.mem_cons_of_mem _ he)) with rfl | he'
        · exact absurd (la _ he) (String.lt_irrefl _)
        · exact he'
      · rcases List.mem_cons.1 ((h e).2 (List.mem_cons_of_mem _ he)) with rfl | he'
        · exact absurd (mb _ he) (String.lt_irrefl _)
        · exact he'

/-- **A table is determined by its lookups.** -/
@[ext] theorem ext {t u : Table α} (h : ∀ key, t.get? key = u.get? key) : t = u := by
  have entries : t.entries = u.entries :=
    eq_of_mem_iff t.ascending u.ascending fun ⟨k, a⟩ => by rw [mem_entries, mem_entries, h]
  cases t
  cases u
  cases entries
  rfl

end ContentRepository.Table
