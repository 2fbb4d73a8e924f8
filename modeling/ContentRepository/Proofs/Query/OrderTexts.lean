import ContentRepository.Proofs.Store.Reading
import ContentRepository.Proofs.Text.Words
import Mathlib.Data.List.Forall2

/-!
# Which texts are orderings

A text is an ordering if it is made up of clauses with commas between. A clause is a field, followed
by a direction or not, with white space around and between. The first word of a clause is its field,
whatever it is, so a field may have the name of a direction.

* **`Clause`** and **`SortKeys.WrittenAs`** — the texts of a key and of several keys.
* **`SortKeys.parse_eq_ok_iff`** — the keys of a text are those it is the text of.
* **`SortKeys.write`** — one of the texts of some keys.
* **`SortKeys.parse_accepts_clauses`** — the keys every text has, and that what is written is read
  back.
-/

namespace ContentRepository.Query

open Text

/-- The word for a direction, in capital letters. -/
def directionWord (descending : Bool) : List Char :=
  if descending then ['D', 'E', 'S', 'C'] else ['A', 'S', 'C']

/-- The text is the word, each letter of it capital or small. -/
def CaseVariant (text word : List Char) : Prop :=
  List.Forall₂ (fun c letter => c = letter ∨ c = letter.toLower) text word

/-- What can name a field in an ordering: a word without comma. -/
structure IsKeyField (field : List Char) : Prop where
  word : IsWord field
  free : ',' ∉ field

/-- The texts of a key. -/
inductive Clause : List Char → SortKey → Prop
  | plain {lead field trail : List Char} : Blank lead → IsKeyField field → Blank trail →
      Clause (lead ++ (field ++ trail)) ⟨String.ofList field, false⟩
  | directed {lead field gap direction trail : List Char} (descending : Bool) : Blank lead →
      IsKeyField field → Blank gap → gap ≠ [] → CaseVariant direction (directionWord descending) →
      Blank trail →
      Clause (lead ++ (field ++ (gap ++ (direction ++ trail)))) ⟨String.ofList field, descending⟩

/-- The text consists of one clause for each of the keys, with commas between. -/
def SortKeys.WrittenAs (keys : SortKeys) (text : String) : Prop :=
  ∃ clauses : List (List Char), text.toList = [','].intercalate clauses ∧
    List.Forall₂ Clause clauses keys

/-! ## Directions -/

section Directions

variable {text word : List Char}

theorem caseVariant_iff (h : ∀ letter ∈ word, letter.isUpper = true) :
    CaseVariant text word ↔ text.map Char.toUpper = word := by
  induction word generalizing text with
  | nil => rw [CaseVariant, List.forall₂_nil_right_iff, List.map_eq_nil_iff]
  | cons letter word ih =>
    obtain ⟨hletter, hword⟩ := List.forall_mem_cons.1 h
    cases text with
    | nil => simp [CaseVariant]
    | cons c text =>
      rw [CaseVariant, List.forall₂_cons, List.map_cons, List.cons.injEq, toUpper_eq_iff hletter]
      exact and_congr_right fun _ => ih hword

theorem caseVariant_direction_iff {descending : Bool} :
    CaseVariant text (directionWord descending) ↔
      text.map Char.toUpper = directionWord descending := by
  have hupper : (directionWord descending).all Char.isUpper = true := by
    cases descending <;> decide
  exact caseVariant_iff (List.all_eq_true.1 hupper)

theorem CaseVariant.self (word : List Char) : CaseVariant word word :=
  List.forall₂_same.2 fun _ _ => .inl rfl

/-- Each character of a direction is one of its letters, so none is white space or a comma. -/
theorem CaseVariant.isKeyField {descending : Bool} (h : CaseVariant text (directionWord descending)) :
    IsKeyField text := by
  have hletters : (directionWord descending).all (fun letter => letter.isUpper = true ∧
      (isBlank letter = false ∧ letter ≠ ',') ∧
        isBlank letter.toLower = false ∧ letter.toLower ≠ ',') = true := by
    cases descending <;> decide
  have hfree : ∀ c ∈ text, isBlank c = false ∧ c ≠ ',' := by
    intro c hc
    have hcapital : c.toUpper ∈ directionWord descending :=
      caseVariant_direction_iff.1 h ▸ List.mem_map_of_mem hc
    obtain ⟨hupper, hletter, hsmall⟩ := of_decide_eq_true (List.all_eq_true.1 hletters _ hcapital)
    rcases (toUpper_eq_iff hupper).1 rfl with heq | heq
    · exact heq ▸ hletter
    · exact heq ▸ hsmall
  refine ⟨⟨?_, fun c hc => (hfree c hc).1⟩, fun hcomma => (hfree _ hcomma).2 rfl⟩
  rintro rfl
  cases descending <;> cases h

end Directions

/-! ## Clauses -/

section Clauses

variable {text field direction : List Char} {words : List (List Char)} {key : SortKey}

theorem not_comma_of_blank (h : Blank text) : ',' ∉ text := fun hcomma => by
  cases h ',' hcomma

theorem Clause.free (h : Clause text key) : ',' ∉ text := by
  cases h with
  | plain hlead hfield htrail =>
    simp only [List.mem_append, not_or]
    exact ⟨not_comma_of_blank hlead, hfield.free, not_comma_of_blank htrail⟩
  | directed _ hlead hfield hgap _ hdirection htrail =>
    simp only [List.mem_append, not_or]
    exact ⟨not_comma_of_blank hlead, hfield.free, not_comma_of_blank hgap,
      hdirection.isKeyField.free, not_comma_of_blank htrail⟩

/-- The field of a clause is one of its words. -/
theorem Clause.not_blank (h : Clause text key) : ¬ Blank text := by
  cases h with
  | plain _ hfield _ =>
    intro hblank
    exact hfield.word.not_blank (blank_append.1 (blank_append.1 hblank).2).1
  | directed _ _ hfield _ _ _ _ =>
    intro hblank
    exact hfield.word.not_blank (blank_append.1 (blank_append.1 hblank).2).1

theorem caseVariant_iff_capitals {descending : Bool} : CaseVariant direction (directionWord descending) ↔
    String.ofList (direction.map Char.toUpper) = if descending then "DESC" else "ASC" := by
  rw [caseVariant_direction_iff, ← String.toList_inj, String.toList_ofList]
  cases descending <;> rfl

theorem keyOfWords_pair_iff : SortKeys.keyOfWords (field :: direction :: words) = .ok key ↔
    words = [] ∧ ∃ descending, CaseVariant direction (directionWord descending) ∧
      key = ⟨String.ofList field, descending⟩ := by
  simp only [SortKeys.keyOfWords, caseVariant_iff_capitals, Bool.exists_bool]
  generalize String.ofList (direction.map Char.toUpper) = capitals
  by_cases hasc : capitals = "ASC"
  · subst hasc
    cases words <;> simp [eq_comm]
  · by_cases hdesc : capitals = "DESC"
    · subst hdesc
      cases words <;> simp [eq_comm]
    · simp [hasc, hdesc]

/-- A text without comma is a clause if its words are those of a key. -/
theorem keyOfWords_eq_ok_iff (hfree : ',' ∉ text) :
    SortKeys.keyOfWords (Text.words text) = .ok key ↔ Clause text key := by
  constructor
  · intro hkey
    generalize hfound : Text.words text = found at hkey
    cases words_eq_iff.1 hfound with
    | blank => cases hkey
    | @word lead field rest more hlead hword hends hrest =>
      simp only [List.mem_append, not_or] at hfree
      have hfield : IsKeyField field := ⟨hword, hfree.2.1⟩
      cases hrest with
      | blank htrail =>
        cases hkey
        exact .plain hlead hfield htrail
      | @word gap direction trail more hgap hsolid _ hmore =>
        obtain ⟨rfl, descending, hdirection, rfl⟩ := keyOfWords_pair_iff.1 hkey
        cases hmore with
        | blank htrail =>
          refine .directed descending hlead hfield hgap ?_ hdirection htrail
          rintro rfl
          obtain ⟨c, direction, rfl⟩ := List.exists_cons_of_ne_nil hsolid.nonempty
          cases (hends c rfl).symm.trans (hsolid.solid c List.mem_cons_self)
  · rintro (⟨hlead, hfield, htrail⟩ | ⟨descending, hlead, hfield, hgap, hgap', hdirection, htrail⟩)
    · have hwords := Worded.word hlead hfield.word (.of_blank htrail) (.blank htrail)
      rw [words_eq_iff.2 hwords]
      rfl
    · have hrest := Worded.word hgap hdirection.isKeyField.word (.of_blank htrail) (.blank htrail)
      have hwords := Worded.word hlead hfield.word (endsWord_append hgap hgap') hrest
      rw [words_eq_iff.2 hwords, keyOfWords_pair_iff]
      exact ⟨rfl, descending, hdirection, rfl⟩

end Clauses

/-! ## Several clauses -/

theorem mapM_eq_ok_iff {ε α β : Type} {f : α → Except ε β} {items : List α} {all : List β} :
    items.mapM f = .ok all ↔ List.Forall₂ (fun item b => f item = .ok b) items all := by
  induction items generalizing all with
  | nil =>
    rw [List.mapM_nil, List.forall₂_nil_left_iff, eq_comm (a := all)]
    exact Iff.of_eq (Except.ok.injEq [] all)
  | cons item items ih =>
    rw [List.mapM_cons, bind_eq_ok_iff, List.forall₂_cons_left_iff]
    refine exists_congr fun b => ?_
    rw [bind_eq_ok_iff]
    constructor
    · rintro ⟨hb, rest, hrest, ⟨⟩⟩
      exact ⟨rest, hb, ih.1 hrest, rfl⟩
    · rintro ⟨rest, hb, hrest, rfl⟩
      exact ⟨hb, rest, ih.2 hrest, rfl⟩

theorem forall₂_clause_free {clauses : List (List Char)} {keys : SortKeys}
    (h : List.Forall₂ Clause clauses keys) : ∀ clause ∈ clauses, ',' ∉ clause := by
  induction h with
  | nil => simp
  | cons hclause _ ih => exact List.forall_mem_cons.2 ⟨hclause.free, ih⟩

namespace SortKeys

variable {text : String} {keys : SortKeys}

/-- The clauses of a text are what is between its commas. -/
theorem writtenAs_iff (hkeys : keys ≠ []) :
    keys.WrittenAs text ↔ List.Forall₂ Clause (pieces (· == ',') text.toList) keys := by
  constructor
  · rintro ⟨clauses, htext, hclauses⟩
    have hne : clauses ≠ [] := by
      rintro rfl
      exact hkeys (List.forall₂_nil_left_iff.1 hclauses)
    rwa [pieces_eq_iff.2 ⟨hne, forall₂_clause_free hclauses, htext.symm⟩]
  · intro hclauses
    obtain ⟨-, -, htext⟩ := pieces_eq_iff.1 (Eq.refl (pieces (· == ',') text.toList))
    exact ⟨_, htext.symm, hclauses⟩

/-- The clauses of a text have the keys that it is the text of. -/
theorem mapM_keyOfWords_eq_ok_iff :
    ((pieces (· == ',') text.toList).mapM fun clause => keyOfWords (Text.words clause)) =
      .ok keys ↔ List.Forall₂ Clause (pieces (· == ',') text.toList) keys := by
  obtain ⟨-, hfree, -⟩ := pieces_eq_iff.1 (Eq.refl (pieces (· == ',') text.toList))
  rw [mapM_eq_ok_iff]
  generalize pieces (· == ',') text.toList = clauses at hfree ⊢
  induction clauses generalizing keys with
  | nil => simp
  | cons clause clauses ih =>
    obtain ⟨hclause, hclauses⟩ := List.forall_mem_cons.1 hfree
    simp only [List.forall₂_cons_left_iff, keyOfWords_eq_ok_iff hclause, ih hclauses]

/-- Each clause has a field. -/
theorem WrittenAs.not_blank (h : keys.WrittenAs text) (hkeys : keys ≠ []) :
    ¬ Blank text.toList := by
  intro hblank
  have hsingle : pieces (· == ',') text.toList = [text.toList] :=
    pieces_eq_iff.2 ⟨List.cons_ne_nil _ [], by simpa using not_comma_of_blank hblank,
      List.intercalate_singleton⟩
  rw [writtenAs_iff hkeys, hsingle, List.forall₂_cons_left_iff] at h
  obtain ⟨key, -, hclause, -⟩ := h
  exact hclause.not_blank hblank

/-- **The keys of a text are those it is the text of.** -/
theorem parse_eq_ok_iff (hkeys : keys ≠ []) : parse text = .ok keys ↔ keys.WrittenAs text := by
  rw [parse]
  split
  · next hblank =>
    constructor
    · rintro ⟨⟩
      exact absurd rfl hkeys
    · intro hwritten
      exact absurd (blank_iff_allBlank.2 hblank) (hwritten.not_blank hkeys)
  · rw [mapM_keyOfWords_eq_ok_iff, writtenAs_iff hkeys]

/-- **Only white space has no keys.** -/
theorem parse_eq_nil_iff : parse text = .ok [] ↔ Blank text.toList := by
  rw [parse, blank_iff_allBlank]
  split
  · next hblank => exact iff_of_true rfl hblank
  · next hblank =>
    refine iff_of_false (fun hnone => ?_) hblank
    rw [mapM_keyOfWords_eq_ok_iff, List.forall₂_nil_right_iff] at hnone
    exact (pieces_eq_iff.1 hnone).1 rfl

end SortKeys

/-! ## Writing keys -/

/-- The key as it is written. Whether an ascending key has a direction can be chosen. -/
def SortKey.write (spelled : Bool) (key : SortKey) : String :=
  key.field ++ if key.descending then " DESC" else if spelled then " ASC" else ""

/-- The keys as they are written. -/
def SortKeys.write (spelled : SortKey → Bool) (keys : SortKeys) : String :=
  ", ".intercalate (keys.map fun key => key.write (spelled key))

theorem blank_space : Blank [' '] := by
  simp only [Blank, List.mem_singleton, forall_eq]
  decide

theorem SortKey.clause_write (spelled : Bool) {key : SortKey} (h : IsKeyField key.field.toList)
    {lead : List Char} (hlead : Blank lead) :
    Clause (lead ++ (key.write spelled).toList) key := by
  obtain ⟨field, descending⟩ := key
  -- the key with its direction written out, and the key without
  have hdirected (descending : Bool) : Clause (lead ++ (field.toList ++
      ([' '] ++ (directionWord descending ++ [])))) ⟨String.ofList field.toList, descending⟩ :=
    .directed descending hlead h blank_space (List.cons_ne_nil ' ' []) (.self _) blank_nil
  have hplain : Clause (lead ++ (field.toList ++ [])) ⟨String.ofList field.toList, false⟩ :=
    .plain hlead h blank_nil
  rw [String.ofList_toList] at hplain
  simp only [String.ofList_toList] at hdirected
  rw [SortKey.write, String.toList_append]
  cases descending with
  | true =>
    -- a descending key always has its direction written out
    have hdesc : " DESC".toList = [' '] ++ (directionWord true ++ []) := rfl
    rw [if_pos rfl, hdesc]
    exact hdirected true
  | false =>
    have hasc : " ASC".toList = [' '] ++ (directionWord false ++ []) := rfl
    rw [if_neg Bool.false_ne_true]
    -- an ascending key is written in either way
    cases spelled with
    | true =>
      rw [if_pos rfl, hasc]
      exact hdirected false
    | false =>
      rw [if_neg Bool.false_ne_true]
      exact hplain

/-- A blank after each comma belongs to the next clause. -/
theorem intercalate_comma_blank (clause : List Char) (clauses : List (List Char)) :
    [',', ' '].intercalate (clause :: clauses) =
      [','].intercalate (clause :: clauses.map ([' '] ++ ·)) := by
  induction clauses generalizing clause with
  | nil => rfl
  | cons next clauses ih =>
    rw [List.intercalate_cons_cons, ih, List.map_cons, List.intercalate_cons_cons]
    cases clauses with
    | nil => simp
    | cons => simp [List.intercalate_cons_cons]

namespace SortKeys

theorem forall₂_clause_write {lead : List Char} (hlead : Blank lead) (spelled : SortKey → Bool)
    {keys : SortKeys} (h : ∀ key ∈ keys, IsKeyField key.field.toList) :
    List.Forall₂ Clause (keys.map fun key => lead ++ (key.write (spelled key)).toList) keys := by
  rw [List.forall₂_map_left_iff, List.forall₂_same]
  exact fun key hkey => key.clause_write (spelled key) (h key hkey) hlead

theorem writtenAs_write (spelled : SortKey → Bool) {keys : SortKeys}
    (h : ∀ key ∈ keys, IsKeyField key.field.toList) : keys.WrittenAs (keys.write spelled) := by
  have hwrite : (keys.write spelled).toList =
      [',', ' '].intercalate (keys.map fun key => (key.write (spelled key)).toList) := by
    rw [write, String.toList_intercalate, List.map_map]
    rfl
  cases keys with
  | nil => exact ⟨[], hwrite, .nil⟩
  | cons key keys =>
    obtain ⟨hkey, hkeys⟩ := List.forall_mem_cons.1 h
    refine ⟨_, ?_, .cons (key.clause_write (spelled key) hkey blank_nil)
      (forall₂_clause_write blank_space spelled hkeys)⟩
    rw [hwrite, List.map_cons, intercalate_comma_blank, List.map_map]
    rfl

/-- **What is written is read back.** -/
theorem parse_written (spelled : SortKey → Bool) {keys : SortKeys}
    (h : ∀ key ∈ keys, IsKeyField key.field.toList) : parse (keys.write spelled) = .ok keys := by
  by_cases hkeys : keys = []
  · subst hkeys
    exact parse_eq_nil_iff.2 blank_nil
  · exact (parse_eq_ok_iff hkeys).2 (writtenAs_write spelled h)

/-- **The orderings that texts have.** Every text has the keys that it consists of clauses of, with
commas between; a text has no keys exactly if it is white space; and for every other text the answer
is a fault, which a store reports as an invalid expression. So keys are read back from what is
written for them, with or without the direction of ascending keys, whatever their fields. -/
theorem parse_accepts_clauses :
    (∀ text (keys : SortKeys), keys ≠ [] → (parse text = .ok keys ↔ keys.WrittenAs text)) ∧
      (∀ text, parse text = .ok [] ↔ Blank text.toList) ∧
      (∀ text, ¬ Blank text.toList → (¬ ∃ keys : SortKeys, keys ≠ [] ∧ keys.WrittenAs text) →
        ∃ fault, parse text = .error fault ∧
          StoreError.ofFault fault = .invalidExpression fault.message) ∧
      ∀ (spelled : SortKey → Bool) (keys : SortKeys),
        (∀ key ∈ keys, IsKeyField key.field.toList) → parse (keys.write spelled) = .ok keys := by
  refine ⟨fun _ _ => parse_eq_ok_iff, fun _ => parse_eq_nil_iff, fun text hblank hnone => ?_,
    fun spelled _ => parse_written spelled⟩
  cases hparse : parse text with
  | error fault => exact ⟨fault, rfl, rfl⟩
  | ok keys =>
    by_cases hkeys : keys = []
    · subst hkeys
      exact absurd (parse_eq_nil_iff.1 hparse) hblank
    · exact absurd ⟨keys, hkeys, (parse_eq_ok_iff hkeys).1 hparse⟩ hnone

/-- Fields with the names of directions. -/
theorem parse_of_direction_fields :
    parse "DESC, ASC DESC" = .ok [⟨"DESC", false⟩, ⟨"ASC", true⟩] := by
  have hwritten : "DESC, ASC DESC" =
      write (fun _ => false) [⟨"DESC", false⟩, ⟨"ASC", true⟩] := by decide
  rw [hwritten]
  refine parse_accepts_clauses.2.2.2 (fun _ => false) _ fun key hkey => ?_
  have hfields : key.field = "DESC" ∨ key.field = "ASC" := by
    simp only [List.mem_cons, List.not_mem_nil, or_false] at hkey
    rcases hkey with rfl | rfl
    · exact .inl rfl
    · exact .inr rfl
  have hdirection (descending : Bool) : IsKeyField (directionWord descending) :=
    (CaseVariant.self _).isKeyField
  rcases hfields with hfield | hfield
  · rw [hfield]
    exact hdirection true
  · rw [hfield]
    exact hdirection false

end SortKeys

end ContentRepository.Query
