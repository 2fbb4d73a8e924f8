import ContentRepository.Document.Basic
import ContentRepository.Table.Lemmas

/-!
# What the edits of a document do to each field, and what its accessors find
-/

namespace ContentRepository

namespace Value

theorem equals_reference_iff {v : Value} {id : String} :
    v.equals (.reference id) = true ↔ v = .reference id := by
  cases v <;> simp [equals]

theorem string?_eq_some_iff {v : Value} {text : String} :
    v.string? = some text ↔ v = .string text := by
  cases v <;> simp [string?]

theorem reference?_eq_some_iff {v : Value} {id : String} :
    v.reference? = some id ↔ v = .reference id := by
  cases v <;> simp [reference?]

theorem boolean?_eq_some_iff {v : Value} {b : Bool} : v.boolean? = some b ↔ v = .boolean b := by
  cases v <;> simp [boolean?]

theorem array?_eq_some_iff {v : Value} {items : List Value} :
    v.array? = some items ↔ v = .array items := by
  cases v <;> simp [array?]

end Value

namespace Document

/-! ## Edits -/

theorem get?_set (d : Document) (key : String) (value : Value) (other : String) :
    (d.set key value).get? other = if other = key then some value else d.get? other :=
  Table.get?_insert d key value other

theorem get?_unset (d : Document) (key other : String) :
    (d.unset key).get? other = if other = key then none else d.get? other :=
  Table.get?_erase d key other

/-- Exactly the given fields are gone. -/
theorem get?_unsetAll (d : Document) (keys : List String) (other : String) :
    (d.unsetAll keys).get? other = if other ∈ keys then none else d.get? other := by
  induction keys generalizing d with
  | nil => simp [unsetAll]
  | cons key rest ih =>
    have step : d.unsetAll (key :: rest) = (d.unset key).unsetAll rest := rfl
    rw [step, ih, get?_unset]
    by_cases h : other = key <;> simp [h]

/-- Setting a field to what it holds changes nothing. -/
theorem set_of_get? {d : Document} {key : String} {value : Value} (h : d.get? key = some value) :
    d.set key value = d := by
  refine Table.ext fun other => ?_
  rw [get?_set]
  split
  · next heq => rw [heq, h]
  · rfl

/-- Of several values set for one field the last counts. -/
theorem get?_setAll (d : Document) (fields : List (String × Value)) (key : String) :
    (d.setAll fields).get? key =
      ((fields.reverse.find? fun field => field.1 == key).map (·.2)).or (d.get? key) := by
  induction fields generalizing d with
  | nil => rfl
  | cons field rest ih =>
    have step : d.setAll (field :: rest) = (d.set field.1 field.2).setAll rest := rfl
    rw [step, ih, List.reverse_cons, List.find?_append]
    cases rest.reverse.find? fun field => field.1 == key with
    | some last => rfl
    | none =>
      rw [get?_set]
      by_cases hkey : key = field.1
      · simp [hkey]
      · simp [hkey, Ne.symm hkey]

/-- A field that is not among those set stays as it is. -/
theorem get?_setAll_of_notMem {d : Document} {fields : List (String × Value)} {other : String}
    (h : other ∉ fields.map (·.1)) : (d.setAll fields).get? other = d.get? other := by
  have hnone : (fields.reverse.find? fun field => field.1 == other) = none := by
    rw [List.find?_eq_none]
    intro field hfield heq
    exact h (List.mem_map.2 ⟨field, List.mem_reverse.1 hfield, beq_iff_eq.1 heq⟩)
  rw [get?_setAll, hnone]
  rfl

/-- A field set once among those set has that value afterwards. -/
theorem get?_setAll_of_mem {d : Document} {fields : List (String × Value)} {key : String}
    {value : Value} (once : (fields.map (·.1)).Nodup) (h : (key, value) ∈ fields) :
    (d.setAll fields).get? key = some value := by
  induction fields generalizing d with
  | nil => cases h
  | cons field rest ih =>
    obtain ⟨head, tail⟩ := List.nodup_cons.1 once
    have step : d.setAll (field :: rest) = (d.set field.1 field.2).setAll rest := rfl
    rw [step]
    rcases List.mem_cons.1 h with rfl | h
    · rw [get?_setAll_of_notMem head, get?_set, if_pos rfl]
    · exact ih tail h

/-! ## What accessors find -/

theorem string?_eq_some_iff {d : Document} {key text : String} :
    d.string? key = some text ↔ d.get? key = some (.string text) := by
  simp [string?, Option.bind_eq_some_iff, Value.string?_eq_some_iff]

theorem reference?_eq_some_iff {d : Document} {key id : String} :
    d.reference? key = some id ↔ d.get? key = some (.reference id) := by
  simp [reference?, Option.bind_eq_some_iff, Value.reference?_eq_some_iff]

theorem flag_iff {d : Document} {key : String} :
    d.flag key = true ↔ d.get? key = some (.boolean true) := by
  simp [flag, Option.bind_eq_some_iff, Value.boolean?_eq_some_iff]

/-- An absent field is no truth value. -/
theorem flag_of_get?_eq_none {d : Document} {key : String} (h : d.get? key = none) :
    d.flag key = false := by
  rw [flag, h]
  rfl

/-- An absent field refers to nothing. -/
theorem references_of_get?_eq_none {d : Document} {key : String} (h : d.get? key = none) :
    d.references key = [] := by
  rw [references, h]
  rfl

theorem references_of_get? {d : Document} {key : String} {ids : List String}
    (h : d.get? key = some (.references ids)) : d.references key = ids := by
  simp [references, h, Value.references, Value.array?, List.filterMap_map, Function.comp_def,
    Value.reference?]

theorem listed_reference_iff {d : Document} {key id : String} :
    d.listed key (.reference id) = true ↔ id ∈ d.references key := by
  simp only [listed, references, List.any_eq_true, List.mem_filterMap, Value.equals_reference_iff,
    Value.reference?_eq_some_iff]

theorem holds_reference_iff {d : Document} {key id : String} :
    d.holds key (.reference id) = true ↔ d.get? key = some (.reference id) := by
  simp only [holds, Option.any_eq_true, Value.equals_reference_iff]
  constructor
  · rintro ⟨v, hv, rfl⟩
    exact hv
  · intro h
    exact ⟨_, h, rfl⟩

end Document

end ContentRepository
