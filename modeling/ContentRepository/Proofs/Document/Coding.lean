import ContentRepository.Document.Json
import ContentRepository.Proofs.Value.Coding

/-!
# The JSON texts of documents are read back

A text says just one tree, and the tree of a document just this document. What a reader allows in
nesting is what may keep it from finding the document again; the text still stands for no other.

* **`Document.read?_write`**, **`Document.readList?_writeList`** — which documents, and which lists
  of documents, are read back.
* **`Document.eq_of_write_eq`** — at any depth, different documents have different texts.
* **`Document.reading_back`** — all of it in one; `Document.chest` is a document beyond the limit.
-/

namespace ContentRepository

namespace Document

/-- The levels of nesting that the fields of a document take. -/
def levels (d : Document) : Nat := Value.levelsOfFields d.entries

/-- The doubles in the fields of a document. -/
def doubles (d : Document) : List Binary64 := Value.doublesOfFields d.entries

/-- A document that JSON can express: the fields of every object in it stand in order, and its
doubles are numbers. -/
structure IsProper (d : Document) : Prop where
  canonical : Value.CanonicalFields d.entries
  finite : ∀ x ∈ d.doubles, x.isFinite = true

/-- All doubles of the document are read back from their texts. -/
def HasExactDoubles (d : Document) : Prop := ∀ x ∈ d.doubles, x.ReadsBack

/-! ## One document -/

section One

variable {d e : Document}

theorem wellFormed_toJson (h : d.IsProper) : d.toJson.WellFormed :=
  Value.wellFormed_fieldsToJson d.entries h.finite

theorem ofJsonWithin?_toJson (h : d.IsProper) (room : Nat) :
    ofJsonWithin? (room + 1) d.toJson = some d ↔ d.levels ≤ room ∧ d.HasExactDoubles := by
  rw [toJson, ofJsonWithin?, Option.map_eq_some_iff]
  refine Iff.trans ?_ (Value.fieldsOfJson?_toJson d.entries h.canonical room false)
  constructor
  · rintro ⟨found, hfound, rfl⟩
    have hkeys : (found.map (·.1)).Pairwise (· < ·) :=
      Value.keys_of_fieldsOfJson? hfound ▸ (Table.ofList found).pairwise_keys
    rw [Table.entries_ofList hkeys] at hfound ⊢
    exact hfound
  · intro hfound
    exact ⟨d.entries, hfound, Table.ofList_entries d⟩

/-- **A document is read back from its text** just if it is not nested too deeply and its doubles
are exact. -/
theorem read?_write (h : d.IsProper) :
    read? d.write = some d ↔ d.levels ≤ 126 ∧ d.HasExactDoubles := by
  rw [read?, write, Json.read?_write (wellFormed_toJson h)]
  exact ofJsonWithin?_toJson h 126

/-- A reader with room for both tells two documents apart. -/
theorem eq_of_toJson_eq (hd : d.IsProper) (he : e.IsProper) (hdoubles : d.HasExactDoubles)
    (hdoubles' : e.HasExactDoubles) (h : d.toJson = e.toJson) : d = e := by
  have hread := (ofJsonWithin?_toJson hd (max d.levels e.levels)).2
    ⟨Nat.le_max_left _ _, hdoubles⟩
  have hread' := (ofJsonWithin?_toJson he (max d.levels e.levels)).2
    ⟨Nat.le_max_right _ _, hdoubles'⟩
  rw [h, hread'] at hread
  exact (Option.some.inj hread).symm

/-- **At any depth, different documents have different texts.** -/
theorem eq_of_write_eq (hd : d.IsProper) (he : e.IsProper) (hdoubles : d.HasExactDoubles)
    (hdoubles' : e.HasExactDoubles) (h : d.write = e.write) : d = e :=
  eq_of_toJson_eq hd he hdoubles hdoubles'
    (Json.eq_of_write_eq (wellFormed_toJson hd) (wellFormed_toJson he) h)

end One

/-! ## Lists of documents -/

section Several

variable {documents others : List Document}

theorem wellFormed_listToJson (h : ∀ d ∈ documents, d.IsProper) :
    (listToJson documents).WellFormed := by
  show Json.WellFormedItems (documents.map toJson)
  induction documents with
  | nil => trivial
  | cons d documents ih =>
    rw [List.forall_mem_cons] at h
    exact ⟨wellFormed_toJson h.1, ih h.2⟩

/-- **A list of documents is read back from its text** just if each of them is within the list,
which takes a level itself. -/
theorem readList?_writeList (h : ∀ d ∈ documents, d.IsProper) :
    readList? (writeList documents) = some documents ↔
      ∀ d ∈ documents, d.levels ≤ 125 ∧ d.HasExactDoubles := by
  rw [readList?, writeList, Json.read?_write (wellFormed_listToJson h)]
  show (documents.map toJson).mapM (ofJsonWithin? 126) = some documents ↔ _
  induction documents with
  | nil => simp
  | cons d documents ih =>
    rw [List.forall_mem_cons] at h
    rw [List.map_cons, Value.mapM_cons_eq_some_iff, ofJsonWithin?_toJson h.1, ih h.2,
      List.forall_mem_cons]

theorem eq_of_map_toJson_eq (h : ∀ d ∈ documents, d.IsProper ∧ d.HasExactDoubles)
    (h' : ∀ d ∈ others, d.IsProper ∧ d.HasExactDoubles)
    (heq : documents.map toJson = others.map toJson) : documents = others := by
  induction documents generalizing others with
  | nil => exact (List.map_eq_nil_iff.1 heq.symm).symm
  | cons d documents ih =>
    obtain ⟨e, others, rfl, hfirst, hrest⟩ := List.map_eq_cons_iff.1 heq.symm
    rw [List.forall_mem_cons] at h h'
    rw [eq_of_toJson_eq h.1.1 h'.1.1 h.1.2 h'.1.2 hfirst.symm, ih h.2 h'.2 hrest.symm]

/-- **At any depth, different lists of documents have different texts.** -/
theorem eq_of_writeList_eq (h : ∀ d ∈ documents, d.IsProper ∧ d.HasExactDoubles)
    (h' : ∀ d ∈ others, d.IsProper ∧ d.HasExactDoubles)
    (heq : writeList documents = writeList others) : documents = others :=
  eq_of_map_toJson_eq h h' <| Json.array.inj <|
    Json.eq_of_write_eq (wellFormed_listToJson fun d hd => (h d hd).1)
      (wellFormed_listToJson fun d hd => (h' d hd).1) heq

end Several

/-! ## Texts and documents -/

/-- **Texts stand for documents.** A document is read back from its text, and a list of documents
from its own, just if nesting keeps within the limit of the reader and the doubles are exact. Beyond
the limit, too, no other document and no other list has the same text. A text, a reference and a
date are read as what they are, whatever they contain. -/
theorem reading_back :
    (∀ d : Document, d.IsProper →
      (read? d.write = some d ↔ d.levels ≤ 126 ∧ d.HasExactDoubles)) ∧
    (∀ documents : List Document, (∀ d ∈ documents, d.IsProper) →
      (readList? (writeList documents) = some documents ↔
        ∀ d ∈ documents, d.levels ≤ 125 ∧ d.HasExactDoubles)) ∧
    (∀ d e : Document, d.IsProper → e.IsProper → d.HasExactDoubles → e.HasExactDoubles →
      d.write = e.write → d = e) ∧
    (∀ documents others : List Document, (∀ d ∈ documents, d.IsProper ∧ d.HasExactDoubles) →
      (∀ d ∈ others, d.IsProper ∧ d.HasExactDoubles) →
      writeList documents = writeList others → documents = others) ∧
    (∀ (text id : String) (t : Instant),
      Value.read? (Value.string text).write = some (.string text) ∧
      Value.read? (Value.reference id).write = some (.reference id) ∧
      Value.read? (Value.date t).write = some (.date t)) := by
  refine ⟨fun d => read?_write, fun documents => readList?_writeList,
    fun d e => eq_of_write_eq, fun documents others => eq_of_writeList_eq, fun text id t => ?_⟩
  -- what these contain takes one level and has no doubles in it
  exact ⟨Value.read?_write_of_isScalar rfl rfl, Value.read?_write_of_isScalar rfl rfl,
    Value.read?_write_of_isScalar rfl rfl⟩

/-- A document with an array of two objects and a number less than zero. -/
def notice : Document :=
  ⟨[("parts", .array [.object [("by", .reference "2024"), ("said", .string "\"2024\"")],
      .object [("on", .date ⟨0, 500000000, by decide⟩)]]),
    ("weight", .double ⟨0xBFE0000000000000⟩)], by decide⟩

theorem isProper_notice : notice.IsProper := by
  have hfirst : ([("by", .reference "2024"), ("said", .string "\"2024\"")] :
      List (String × Value)).Pairwise fun a b => a.1 < b.1 := by decide
  exact ⟨⟨⟨⟨⟨trivial, trivial, trivial⟩, hfirst⟩, ⟨⟨trivial, trivial⟩, List.pairwise_singleton _ _⟩,
    trivial⟩, trivial, trivial⟩, by decide⟩

theorem hasExactDoubles_notice : notice.HasExactDoubles := by
  have hdoubles : notice.doubles = [⟨0xBFE0000000000000⟩] := rfl
  have hexact : Json.double? (Value.jsonDoubles.write ⟨0xBFE0000000000000⟩) =
      some ⟨0xBFE0000000000000⟩ := by decide +kernel
  rw [HasExactDoubles, hdoubles, List.forall_mem_singleton]
  exact hexact

/-- The notice is read back, alone and in a list, and what is no copy of it has another text. -/
theorem reading_back_notice :
    read? notice.write = some notice ∧
      readList? (writeList [notice, withId "2024"]) = some [notice, withId "2024"] ∧
      notice.write ≠ (withId "2024").write ∧
      writeList [notice] ≠ writeList [notice, notice] := by
  have hid : (withId "2024").IsProper := ⟨⟨trivial, trivial⟩, by decide⟩
  have hexact : (withId "2024").HasExactDoubles := by
    intro x hx
    cases hx
  obtain ⟨hone, hseveral, hdifferent, hdifferent', -⟩ := reading_back
  refine ⟨(hone notice isProper_notice).2 ⟨by decide, hasExactDoubles_notice⟩,
    (hseveral _ ?_).2 ?_, fun heq => ?_, fun heq => ?_⟩
  · simp [isProper_notice, hid]
  · simp only [List.forall_mem_cons]
    exact ⟨⟨by decide, hasExactDoubles_notice⟩, ⟨by decide, hexact⟩, List.forall_mem_nil _⟩
  · have hsame := hdifferent notice (withId "2024") isProper_notice hid hasExactDoubles_notice
      hexact heq
    exact absurd (congrArg Table.size hsame) (by decide)
  · have hsame := hdifferent' [notice] [notice, notice]
      (by simp [isProper_notice, hasExactDoubles_notice])
      (by simp [isProper_notice, hasExactDoubles_notice]) heq
    exact absurd (congrArg List.length hsame) (by decide)

/-! ## Beyond the limit -/

/-- Arrays inside each other, the innermost one empty. -/
def nested : Nat → Value
  | 0 => .array []
  | n + 1 => .array [nested n]

theorem levels_nested (n : Nat) : (nested n).levels = 2 * n + 2 := by
  induction n with
  | zero => rfl
  | succ n ih =>
    rw [nested, Value.levels, Value.levelsOfItems, Value.levelsOfItems, ih]
    omega

theorem doubles_nested (n : Nat) : (nested n).doubles = [] := by
  induction n with
  | zero => rfl
  | succ n ih =>
    rw [nested, Value.doubles, Value.doublesOfItems, Value.doublesOfItems, ih]
    rfl

theorem isCanonical_nested (n : Nat) : (nested n).IsCanonical := by
  induction n with
  | zero => trivial
  | succ n ih => exact ⟨ih, trivial⟩

/-- A document with arrays inside each other in one of its fields. -/
def chest (n : Nat) : Document := (withId "a").set "deep" (nested n)

theorem entries_chest (n : Nat) :
    (chest n).entries = [("deep", nested n), ("id", .string "a")] := rfl

theorem levels_chest (n : Nat) : (chest n).levels = 2 * n + 2 := by
  have hid : Value.levelsOfFields [("id", .string "a")] = 1 := rfl
  rw [levels, entries_chest, Value.levelsOfFields, levels_nested, hid]
  omega

theorem doubles_chest (n : Nat) : (chest n).doubles = [] := by
  rw [doubles, entries_chest, Value.doublesOfFields, doubles_nested]
  rfl

theorem isProper_chest (n : Nat) : (chest n).IsProper := by
  refine ⟨?_, ?_⟩
  · rw [entries_chest]
    exact ⟨isCanonical_nested n, trivial, trivial⟩
  · rw [doubles_chest]
    exact List.forall_mem_nil _

/-- Sixty-four arrays inside each other are too deep for every reader. -/
theorem chest_not_read_back :
    (chest 63).IsProper ∧ (chest 63).HasExactDoubles ∧ read? (chest 63).write ≠ some (chest 63) ∧
      readList? (writeList [chest 63]) ≠ some [chest 63] := by
  have hproper := isProper_chest 63
  refine ⟨hproper, ?_, fun hread => ?_, fun hread => ?_⟩
  · rw [HasExactDoubles, doubles_chest]
    exact List.forall_mem_nil _
  · have hlevels := ((read?_write hproper).1 hread).1
    rw [levels_chest] at hlevels
    omega
  · have hall : ∀ d ∈ [chest 63], d.IsProper := List.forall_mem_singleton.2 hproper
    have hlevels := ((readList?_writeList hall).1 hread (chest 63) List.mem_cons_self).1
    rw [levels_chest] at hlevels
    omega

end Document

end ContentRepository
