import ContentRepository.Policy.Basic

/-!
# What adding and merging does to the lists of a policy
-/

namespace ContentRepository.Policy

/-- A list goes to the place of the one of its name, or to the end. -/
theorem map_name_place (list : AccessList) (lists : List AccessList) :
    (place list lists).map (·.name) =
      if list.name ∈ lists.map (·.name) then lists.map (·.name)
      else lists.map (·.name) ++ [list.name] := by
  induction lists with
  | nil => simp [place]
  | cons first rest ih =>
    by_cases h : first.name = list.name
    · simp [place, h]
    · have h' : list.name ≠ first.name := fun e => h e.symm
      rw [place, if_neg h, List.map_cons, ih, List.map_cons]
      by_cases hm : list.name ∈ rest.map (·.name)
      · rw [if_pos hm, if_pos (List.mem_cons_of_mem _ hm)]
      · rw [if_neg hm, if_neg fun all => (List.mem_cons.1 all).elim h' hm, List.cons_append]

/-- The added list is found under its name, and every other name keeps its list. -/
theorem list?_add (p : Policy) (list : AccessList) (name : String) :
    (p.add list).list? name = if name = list.name then some list else p.list? name := by
  obtain ⟨lists⟩ := p
  simp only [add, list?]
  induction lists with
  | nil =>
    by_cases h : name = list.name
    · simp [place, h]
    · have : list.name ≠ name := fun e => h e.symm
      simp [place, h, this]
  | cons first rest ih =>
    by_cases hf : first.name = list.name
    · rw [place, if_pos hf]
      by_cases hn : name = list.name
      · simp [hn]
      · have : list.name ≠ name := fun e => hn e.symm
        simp [hn, hf, this]
    · rw [place, if_neg hf]
      by_cases hn : first.name = name
      · have : name ≠ list.name := hn ▸ hf
        simp [hn, this]
      · rw [List.find?_cons_of_neg (by simpa using hn), List.find?_cons_of_neg (by simpa using hn),
          ih]

end ContentRepository.Policy
