import ContentRepository.Document.Lemmas
import ContentRepository.Policy.Lemmas
import ContentRepository.Policy.Value

/-!
# Policies are read back as they were written

Reading builds a policy by adding its lists one after another, and adding replaces a list of the
same name. A policy with two lists of one name would therefore come back with one list less; none of
the operations builds such a policy.

* **`Built`**: the policies that the operations build, from the empty one or the one of a new
  repository.
* **`distinct_add`**, **`distinct_foldl_add`**: what one added list preserves and what a whole merge
  preserves, so that the names in a built policy are distinct (`Built.distinct`).
* **`ofValue?_toValue_iff`**: a policy is read back as it was written exactly if its names are
  distinct. One lemma a level leads there: the fields of an object, the entries of a list, the
  lists.
* **`exists_ofValue?_iff`**: what is read at all, again one lemma a level.
-/

namespace ContentRepository

/-! ## Fields of objects -/

namespace Value

/-- A field of an object that was made of a list of fields. -/
theorem field?_ofFields (fields : List (String × Value)) (key : String) :
    (ofFields fields).field? key = (Table.ofList fields).get? key := by
  unfold field? ofFields Table.get?
  show ((Table.ofList fields).entries.find? _).bind _ = _
  rw [Option.map_eq_bind]
  rfl

/-- An object with the texts of a principal and a permission and the truth value of a grant. -/
def IsEntry (v : Value) : Prop :=
  (∃ text, v.field? "principal" = some (.string text)) ∧
    (∃ text, v.field? "permission" = some (.string text)) ∧
      ∃ b, v.field? "granted" = some (.boolean b)

/-- An object with the text of a name and an array of entries. -/
def IsList (v : Value) : Prop :=
  (∃ text, v.field? "name" = some (.string text)) ∧
    ∃ items, v.field? "aces" = some (.array items) ∧ ∀ item ∈ items, item.IsEntry

/-- An array of lists. -/
def IsPolicy (v : Value) : Prop := ∃ items, v = .array items ∧ ∀ item ∈ items, item.IsList

end Value

/-! ## Lists read item by item -/

section Items

variable {α : Type u} {β : Type v} {read : α → Option β}

/-- A list is read if each item is. -/
theorem exists_mapM_eq_some_iff (items : List α) :
    (∃ all, items.mapM read = some all) ↔ ∀ item ∈ items, ∃ b, read item = some b := by
  simp only [← Option.isSome_iff_exists]
  induction items with
  | nil => simp
  | cons item rest ih =>
    rw [List.mapM_cons, List.forall_mem_cons, ← ih]
    cases read item with
    | none => simp
    | some b => cases rest.mapM read <;> simp

/-- Items that are read back as they were written make a list that is. -/
theorem mapM_map_of_left_inverse {write : β → α} (h : ∀ b, read (write b) = some b) (items : List β) :
    (items.map write).mapM read = some items := by
  induction items with
  | nil => rfl
  | cons item rest ih => rw [List.map_cons, List.mapM_cons, h, ih]; rfl

end Items

/-! ## Entries and lists -/

namespace AccessEntry

theorem ofValue?_toValue (e : AccessEntry) : ofValue? e.toValue = some e := by
  unfold ofValue? toValue
  simp [Value.field?_ofFields, Table.ofList, Table.get?_insert, Value.string?, Value.boolean?]

theorem exists_ofValue?_iff (v : Value) : (∃ e, ofValue? v = some e) ↔ v.IsEntry := by
  unfold ofValue? Value.IsEntry
  simp only [Option.bind_eq_bind, Option.bind_eq_some_iff, Value.string?_eq_some_iff,
    Value.boolean?_eq_some_iff]
  constructor
  · rintro ⟨_, _, hp, text, rfl, _, hq, other, rfl, _, hg, b, rfl, _⟩
    exact ⟨⟨text, hp⟩, ⟨other, hq⟩, b, hg⟩
  · rintro ⟨⟨text, hp⟩, ⟨other, hq⟩, b, hg⟩
    exact ⟨⟨text, other, b⟩, _, hp, text, rfl, _, hq, other, rfl, _, hg, b, rfl, rfl⟩

end AccessEntry

namespace AccessList

theorem ofValue?_toValue (l : AccessList) : ofValue? l.toValue = some l := by
  unfold ofValue? toValue
  simp [Value.field?_ofFields, Table.ofList, Table.get?_insert, Value.string?, Value.array?,
    mapM_map_of_left_inverse AccessEntry.ofValue?_toValue]

theorem exists_ofValue?_iff (v : Value) : (∃ l, ofValue? v = some l) ↔ v.IsList := by
  unfold ofValue? Value.IsList
  simp only [← AccessEntry.exists_ofValue?_iff, ← exists_mapM_eq_some_iff, Option.bind_eq_bind,
    Option.bind_eq_some_iff, Value.string?_eq_some_iff, Value.array?_eq_some_iff]
  constructor
  · rintro ⟨_, _, hn, text, rfl, _, ha, items, rfl, entries, he, _⟩
    exact ⟨⟨text, hn⟩, items, ha, entries, he⟩
  · rintro ⟨⟨text, hn⟩, items, ha, entries, he⟩
    exact ⟨⟨text, entries⟩, _, hn, text, rfl, _, ha, items, rfl, entries, he, rfl⟩

end AccessList

namespace Policy

/-! ## Distinct names -/

/-- No two lists have one name. -/
def Distinct (p : Policy) : Prop := (p.lists.map (·.name)).Nodup

instance (p : Policy) : Decidable p.Distinct :=
  inferInstanceAs (Decidable (p.lists.map (·.name)).Nodup)

theorem distinct_add {p : Policy} (h : p.Distinct) (list : AccessList) : (p.add list).Distinct := by
  unfold Distinct at h ⊢
  show ((place list p.lists).map (·.name)).Nodup
  rw [map_name_place]
  split
  · exact h
  · next hfree =>
    rw [List.nodup_append]
    refine ⟨h, List.pairwise_singleton _ _, ?_⟩
    intro name hname other hother heq
    rw [List.mem_singleton] at hother
    subst heq hother
    exact hfree hname

theorem distinct_foldl_add (lists : List AccessList) {p : Policy} (h : p.Distinct) :
    (lists.foldl add p).Distinct := by
  induction lists generalizing p with
  | nil => exact h
  | cons list rest ih => exact ih (distinct_add h list)

theorem distinct_empty : empty.Distinct := List.nodup_nil

/-- A list of a name that is free goes to the end. -/
theorem place_of_free {list : AccessList} {lists : List AccessList}
    (h : list.name ∉ lists.map (·.name)) : place list lists = lists ++ [list] := by
  induction lists with
  | nil => rfl
  | cons first rest ih =>
    rw [List.map_cons, List.mem_cons, not_or] at h
    rw [place, if_neg (Ne.symm h.1), ih h.2, List.cons_append]

/-- Lists of distinct names are added as they are. -/
theorem foldl_add_of_nodup (lists : List AccessList) {p : Policy}
    (h : ((p.lists ++ lists).map (·.name)).Nodup) : lists.foldl add p = ⟨p.lists ++ lists⟩ := by
  induction lists generalizing p with
  | nil => simp
  | cons list rest ih =>
    have hfree : list.name ∉ p.lists.map (·.name) := by
      intro hmem
      rw [List.map_append, List.nodup_append] at h
      exact h.2.2 list.name hmem list.name (by simp) rfl
    have hadd : p.add list = ⟨p.lists ++ [list]⟩ := by unfold add; rw [place_of_free hfree]
    rw [List.foldl_cons, hadd, ih (by simpa using h)]
    simp

/-! ## The policies that are built -/

/-- The policies that come from the empty one and the one of a new repository by adding, merging and
reading. -/
inductive Built : Policy → Prop where
  | empty : Built empty
  | rootDefault : Built rootDefault
  | add {p : Policy} (base : Built p) (list : AccessList) : Built (p.add list)
  | merge {p other : Policy} (base : Built p) (more : Built other) : Built (p.merge other)
  | read {v : Value} {p : Policy} (h : ofValue? v = some p) : Built p

/-- What is read was added to the empty policy. -/
theorem exists_of_ofValue? {v : Value} {p : Policy} (h : ofValue? v = some p) :
    ∃ lists : List AccessList, lists.foldl Policy.add .empty = p := by
  unfold ofValue? at h
  simp only [Option.bind_eq_bind, Option.bind_eq_some_iff] at h
  obtain ⟨_, _, lists, _, hp⟩ := h
  exact ⟨lists, Option.some.inj hp⟩

theorem Built.distinct {p : Policy} (h : p.Built) : p.Distinct := by
  induction h with
  | empty => exact distinct_empty
  | rootDefault => exact distinct_add distinct_empty _
  | add _ list ih => exact distinct_add ih list
  | merge _ _ ih _ => exact distinct_foldl_add _ ih
  | read h =>
    obtain ⟨lists, rfl⟩ := exists_of_ofValue? h
    exact distinct_foldl_add lists distinct_empty

/-! ## Writing and reading -/

/-- What is read of a written policy: its lists, added one after another. -/
theorem ofValue?_toValue (p : Policy) : ofValue? p.toValue = some (p.lists.foldl add empty) := by
  unfold ofValue? toValue
  simp [Value.array?, mapM_map_of_left_inverse AccessList.ofValue?_toValue]

/-- **Exactly the policies of distinct names are read back as they were written.** -/
theorem ofValue?_toValue_iff (p : Policy) : ofValue? p.toValue = some p ↔ p.Distinct := by
  rw [ofValue?_toValue, Option.some.injEq]
  constructor
  · intro h
    rw [← h]
    exact distinct_foldl_add _ distinct_empty
  · intro h
    exact foldl_add_of_nodup p.lists h

/-- A value is read exactly if it is of the form of a policy. -/
theorem exists_ofValue?_iff (v : Value) : (∃ p, ofValue? v = some p) ↔ v.IsPolicy := by
  unfold ofValue? Value.IsPolicy
  simp only [← AccessList.exists_ofValue?_iff, ← exists_mapM_eq_some_iff, Option.bind_eq_bind,
    Option.bind_eq_some_iff, Value.array?_eq_some_iff]
  constructor
  · rintro ⟨_, items, rfl, lists, hl, _⟩
    exact ⟨items, rfl, lists, hl⟩
  · rintro ⟨items, rfl, lists, hl⟩
    exact ⟨_, items, rfl, lists, hl, rfl⟩

/-- **Policies survive storing.** A policy that was built has lists of distinct names and is read
back as it was written; whatever a value is read as is read again from what it is written as; and
just the values that are not of the form of a policy are refused. -/
theorem coding_of_built {p : Policy} (h : p.Built) :
    (p.lists.map (·.name)).Nodup ∧ ofValue? p.toValue = some p ∧
      (∀ v q, ofValue? v = some q → ofValue? q.toValue = some q) ∧
      ∀ v, ofValue? v = none ↔ ¬ v.IsPolicy := by
  refine ⟨h.distinct, (ofValue?_toValue_iff p).2 h.distinct, ?_, ?_⟩
  · intro v q hread
    exact (ofValue?_toValue_iff q).2 (Built.read hread).distinct
  · intro v
    rw [← exists_ofValue?_iff, ← Option.isSome_iff_exists, Option.not_isSome_iff_eq_none]

/-- The policy of a new repository with a list of denials and an empty local list merged into it: the
local list keeps its place. A number in place of a list is refused. -/
theorem coding_of_merged :
    ofValue? (rootDefault.merge
        ((empty.add ⟨"inherited", [⟨"bob", readPermission, false⟩]⟩).add ⟨localList, []⟩)).toValue =
      some ⟨[⟨localList, []⟩, ⟨"inherited", [⟨"bob", readPermission, false⟩]⟩]⟩ ∧
    ofValue? (.array [.long 1]) = none := by
  have h := coding_of_built (.merge .rootDefault ((Built.empty.add
    ⟨"inherited", [⟨"bob", readPermission, false⟩]⟩).add ⟨localList, []⟩))
  refine ⟨h.2.1.trans (by decide), (h.2.2.2 _).2 ?_⟩
  rintro ⟨items, heq, hlists⟩
  cases heq
  obtain ⟨⟨name, hname⟩, -⟩ := hlists (.long 1) (by simp)
  cases hname

end Policy

end ContentRepository
