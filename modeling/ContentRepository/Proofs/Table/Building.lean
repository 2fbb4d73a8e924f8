import ContentRepository.Session.Tree
import ContentRepository.Table.Lemmas
import Mathlib.Data.List.Induction

/-!
# Tables that are built up entry by entry

Tables are made by inserting entries one after another: from a list of entries (`Table.ofList`),
from a list of texts (`TextSet.ofTexts`), from a list of links (`gatherLinks`). This module says
what such a table answers in terms of the list alone.

* **`Table.get?_ofList_eq_some_iff`** — a table of entries that do not contradict each other holds
  just these entries.
* **`TextSet.mem_keys_ofTexts`** — a set of texts has exactly the texts it was made of.
* **`mem_keys_gatherLinks`** — the links gathered under an end are those that lead there.
-/

namespace ContentRepository

namespace Table

variable {α : Type u}

/-- The values of a table are what lookups find. -/
theorem mem_values {t : Table α} {a : α} : a ∈ t.values ↔ ∃ key, t.get? key = some a := by
  simp only [values, List.mem_map, ← mem_entries]
  constructor
  · rintro ⟨⟨key, _⟩, hmem, rfl⟩
    exact ⟨key, hmem⟩
  · rintro ⟨key, hmem⟩
    exact ⟨(key, a), hmem, rfl⟩

theorem pairwise_keys (t : Table α) : t.keys.Pairwise (· < ·) := List.pairwise_map.2 t.ascending

/-- The keys are listed without repetition. -/
theorem nodup_keys (t : Table α) : t.keys.Nodup := t.pairwise_keys.imp String.ne_of_lt

theorem contains_iff {t : Table α} {key : String} : t.contains key = true ↔ key ∈ t.keys := by
  rw [contains_eq_isSome, mem_keys]

theorem get?_insert_eq_some_iff {t : Table α} {key other : String} {value found : α} :
    (t.insert key value).get? other = some found ↔
      (other = key ∧ found = value) ∨ (other ≠ key ∧ t.get? other = some found) := by
  rw [get?_insert]
  by_cases heq : other = key
  · simp [heq, eq_comm]
  · simp [heq]

/-- What is there stays when something is put under a free key. -/
theorem get?_insert_of_free {t : Table α} {key other : String} {value found : α}
    (hfree : t.get? key = none) (hfound : t.get? other = some found) :
    (t.insert key value).get? other = some found := by
  refine get?_insert_eq_some_iff.2 (.inr ⟨?_, hfound⟩)
  rintro rfl
  cases hfree.symm.trans hfound

/-- Something put under a free key is one entry more. -/
theorem size_insert_of_free {t : Table α} {key : String} (hfree : t.get? key = none) (value : α) :
    (t.insert key value).size = t.size + 1 := by
  -- no entry has the key, so those not below it are above it
  have hside : t.entries.filter (fun e => decide (key < e.1)) =
      t.entries.filter (fun e => !decide (e.1 < key)) := by
    refine List.filter_congr fun e he => ?_
    have hne : e.1 ≠ key := by
      intro heq
      have hfound : t.get? key = some e.2 := mem_entries.1 (by rw [← heq]; exact he)
      cases hfree.symm.trans hfound
    rw [Bool.eq_iff_iff, decide_eq_true_iff, Bool.not_eq_true', decide_eq_false_iff_not]
    refine ⟨fun habove hbelow => String.lt_irrefl _ (String.lt_trans habove hbelow), fun h => ?_⟩
    exact Decidable.byContradiction fun hnot =>
      hne (String.le_antisymm (String.not_lt.1 hnot) (String.not_lt.1 h))
  have hparts := (List.filter_append_perm (fun e => decide (e.1 < key)) t.entries).length_eq
  rw [List.length_append] at hparts
  rw [size, insert, List.length_append, List.length_cons, hside, ← Nat.add_assoc, hparts, size]

/-- Of two entries put under one key the later stays. -/
theorem insert_insert (t : Table α) (key : String) (first second : α) :
    (t.insert key first).insert key second = t.insert key second := by
  refine ext fun other => ?_
  rw [get?_insert, get?_insert, get?_insert]
  split <;> rfl

theorem mem_keys_erase {t : Table α} {key other : String} :
    other ∈ (t.erase key).keys ↔ other ≠ key ∧ other ∈ t.keys := by
  rw [mem_keys, mem_keys, get?_erase]
  split <;> simp_all

/-! ## Tables of lists of entries -/

theorem ofList_concat (entries : List (String × α)) (key : String) (value : α) :
    ofList (entries ++ [(key, value)]) = (ofList entries).insert key value := by
  simp [ofList]

/-- Whatever is found in the table of a list stands in the list. -/
theorem mem_of_get?_ofList {entries : List (String × α)} {key : String} {value : α}
    (h : (ofList entries).get? key = some value) : (key, value) ∈ entries := by
  induction entries using List.reverseRecOn with
  | nil => cases h
  | append_singleton entries entry ih =>
    obtain ⟨k, a⟩ := entry
    rw [ofList_concat, get?_insert] at h
    split at h
    · next heq =>
      cases h
      simp [heq]
    · exact List.mem_append_left _ (ih h)

/-- The keys of the table of a list are those of the list. -/
theorem mem_keys_ofList {entries : List (String × α)} {key : String} :
    key ∈ (ofList entries).keys ↔ key ∈ entries.map (·.1) := by
  rw [mem_keys]
  induction entries using List.reverseRecOn with
  | nil => simp [ofList]
  | append_singleton entries entry ih =>
    obtain ⟨k, a⟩ := entry
    rw [ofList_concat, get?_insert]
    split
    · next heq => simp [heq]
    · next hne => simp [ih, hne]

/-- **The table of entries that do not contradict each other holds just these.** -/
theorem get?_ofList_eq_some_iff {entries : List (String × α)}
    (hsingle : ∀ key a b, (key, a) ∈ entries → (key, b) ∈ entries → a = b)
    {key : String} {value : α} :
    (ofList entries).get? key = some value ↔ (key, value) ∈ entries := by
  constructor
  · exact mem_of_get?_ofList
  · intro hmem
    have hkey : key ∈ (ofList entries).keys :=
      mem_keys_ofList.2 (List.mem_map.2 ⟨(key, value), hmem, rfl⟩)
    obtain ⟨b, hb⟩ := Option.isSome_iff_exists.1 (mem_keys.1 hkey)
    rw [hb, hsingle key b value (mem_of_get?_ofList hb) hmem]

/-- Entries that are in order are just those of their table. -/
theorem ofList_entries (t : Table α) : ofList t.entries = t := by
  refine ext fun key => Option.ext fun value => ?_
  rw [get?_ofList_eq_some_iff, mem_entries]
  intro key a b ha hb
  exact Option.some.inj ((mem_entries.1 ha).symm.trans (mem_entries.1 hb))

/-- Entries whose keys are in order are just those of their table. -/
theorem entries_ofList {entries : List (String × α)} (h : (entries.map (·.1)).Pairwise (· < ·)) :
    (ofList entries).entries = entries :=
  congrArg Table.entries (ofList_entries ⟨entries, List.pairwise_map.1 h⟩)

end Table

/-! ## Sets of texts -/

namespace TextSet

theorem mem_keys_add {s : TextSet} {text other : String} :
    other ∈ (s.add text).keys ↔ other = text ∨ other ∈ s.keys := by
  rw [Table.mem_keys, Table.mem_keys, add, Table.get?_insert]
  split <;> simp_all

theorem mem_keys_ofTexts {texts : List String} {text : String} :
    text ∈ (ofTexts texts).keys ↔ text ∈ texts := by
  induction texts using List.reverseRecOn with
  | nil => simp [ofTexts, Table.mem_keys]
  | append_singleton texts last ih =>
    have hlast : ofTexts (texts ++ [last]) = (ofTexts texts).add last := by simp [ofTexts]
    rw [hlast, mem_keys_add, ih]
    simp [or_comm]

end TextSet

/-! ## Links -/

theorem gatherLinks_concat (links : List (String × String)) (start finish : String) :
    gatherLinks (links ++ [(start, finish)]) =
      (gatherLinks links).insert finish
        ((((gatherLinks links).get? finish).getD Table.empty).add start) := by
  simp [gatherLinks]

/-- **Under an end are gathered the starts of the links that lead there.** -/
theorem mem_keys_gatherLinks {links : List (String × String)} {start finish : String} :
    start ∈ (((gatherLinks links).get? finish).getD Table.empty).keys ↔
      (start, finish) ∈ links := by
  induction links using List.reverseRecOn with
  | nil => simp [gatherLinks, Table.mem_keys]
  | append_singleton links link ih =>
    obtain ⟨s, f⟩ := link
    rw [gatherLinks_concat, Table.get?_insert]
    split
    · next heq =>
      rw [Option.getD_some, TextSet.mem_keys_add, ← heq, ih]
      simp [or_comm]
    · next hne => simp [ih, hne]

/-- An end under which something is gathered is that of a link. -/
theorem exists_of_get?_gatherLinks {links : List (String × String)} {finish : String}
    {starts : TextSet} (h : (gatherLinks links).get? finish = some starts) :
    ∃ start, start ∈ starts.keys := by
  induction links using List.reverseRecOn with
  | nil => cases h
  | append_singleton links link ih =>
    obtain ⟨s, f⟩ := link
    rw [gatherLinks_concat, Table.get?_insert] at h
    split at h
    · cases h
      exact ⟨s, TextSet.mem_keys_add.2 (.inl rfl)⟩
    · exact ih h

end ContentRepository
