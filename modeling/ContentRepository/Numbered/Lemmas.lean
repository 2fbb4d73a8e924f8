import ContentRepository.Numbered

/-!
# What the operations do to the thing under each number

As with tables, `get?` is the view: the order in which entries are listed is never seen through it.
-/

namespace ContentRepository.Numbered

variable {α : Type u}

/-- Filtering out one number hides what is under it and nothing else. -/
theorem find?_filter_ne (entries : List (Nat × α)) (n other : Nat) :
    (entries.filter fun e => e.1 != n).find? (fun e => e.1 == other) =
      if other = n then none else entries.find? fun e => e.1 == other := by
  induction entries with
  | nil => simp
  | cons e rest ih =>
    by_cases hn : e.1 = n
    · -- the head is dropped, and a search for another number passes over it anyway
      have dropped : (e :: rest).filter (fun e => e.1 != n) = rest.filter fun e => e.1 != n := by
        simp [hn]
      rw [dropped, ih]
      split
      · rfl
      · next h =>
        rw [List.find?_cons_of_neg (by simpa [hn] using fun e => h e.symm)]
    · have kept : (e :: rest).filter (fun e => e.1 != n) = e :: rest.filter fun e => e.1 != n := by
        simp [hn]
      rw [kept]
      by_cases ho : e.1 = other
      · have : other ≠ n := ho ▸ hn
        simp [ho, this]
      · rw [List.find?_cons_of_neg (by simpa using ho), List.find?_cons_of_neg (by simpa using ho),
          ih]

@[simp] theorem get?_empty (n : Nat) : (empty : Numbered α).get? n = none := rfl

theorem get?_remove (m : Numbered α) (n other : Nat) :
    (m.remove n).get? other = if other = n then none else m.get? other := by
  rw [get?, remove, find?_filter_ne]
  split <;> rfl

theorem get?_put (m : Numbered α) (n : Nat) (a : α) (other : Nat) :
    (m.put n a).get? other = if other = n then some a else m.get? other := by
  by_cases h : other = n
  · simp [get?, put, h]
  · -- the search passes over the new head, and the filter hides nothing it looks for
    have : (m.put n a).get? other = (m.remove n).get? other := by
      rw [get?, put, List.find?_cons_of_neg (by simpa using fun e => h e.symm), remove, get?]
    rw [this, get?_remove, if_neg h, if_neg h]

/-- Replacing a thing leaves the same numbers in use. -/
theorem get?_put_eq_none_iff {m : Numbered α} {n : Nat} {a b : α} (h : m.get? n = some b)
    (other : Nat) : (m.put n a).get? other = none ↔ m.get? other = none := by
  rw [get?_put]
  split
  · next heq => simp [heq, h]
  · exact Iff.rfl

/-- What satisfies the condition is kept, for the search finds it among the rest as before. -/
theorem get?_keep_of_get? {m : Numbered α} {n : Nat} {a : α} {condition : α → Bool}
    (h : m.get? n = some a) (hkept : condition a = true) : (m.keep condition).get? n = some a := by
  obtain ⟨e, hfind, rfl⟩ := Option.map_eq_some_iff.1 h
  obtain ⟨hn, before, after, hentries, hbefore⟩ := List.find?_eq_some_iff_append.1 hfind
  refine Option.map_eq_some_iff.2 ⟨e, List.find?_eq_some_iff_append.2 ⟨hn, ?_⟩, rfl⟩
  refine ⟨before.filter fun e => condition e.2, after.filter fun e => condition e.2, ?_, ?_⟩
  · simp [keep, hentries, hkept]
  · exact fun other hother => hbefore other (List.mem_filter.1 hother).1

/-! ## Entries -/

theorem mem_entries_of_get? {m : Numbered α} {n : Nat} {a : α} (h : m.get? n = some a) :
    (n, a) ∈ m.entries := by
  obtain ⟨⟨k, b⟩, hfind, rfl⟩ := Option.map_eq_some_iff.1 h
  have hk : k = n := by simpa using List.find?_some hfind
  subst hk
  exact List.mem_of_find?_eq_some hfind

theorem mem_entries_of_put {m : Numbered α} {n : Nat} {a : α} {e : Nat × α}
    (h : e ∈ (m.put n a).entries) : e = (n, a) ∨ e ∈ m.entries :=
  (List.mem_cons.1 h).imp_right fun hmem => (List.mem_filter.1 hmem).1

theorem mem_entries_of_remove {m : Numbered α} {n : Nat} {e : Nat × α}
    (h : e ∈ (m.remove n).entries) : e ∈ m.entries := (List.mem_filter.1 h).1

theorem mem_entries_keep {m : Numbered α} {condition : α → Bool} {e : Nat × α} :
    e ∈ (m.keep condition).entries ↔ e ∈ m.entries ∧ condition e.2 = true := List.mem_filter

end ContentRepository.Numbered
