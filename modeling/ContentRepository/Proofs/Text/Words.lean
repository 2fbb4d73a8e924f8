import ContentRepository.Text.Words

/-!
# What the pieces and words of a text are

The pieces of a text are what stands between the separators, so joining them by the separator gives
the text again. The words are found by going through the text from left to right: white space, a
word up to the next white space, and so on.

* **`Text.pieces_eq_iff`** — the pieces are the only texts without separator that make up the text.
* **`Text.Worded`** — how a text is made up of words and white space.
* **`Text.words_eq_iff`** — the words of a text are those it is made up of.
* **`Text.toUpper_eq_iff`** — the characters a capital letter stands for, regardless of case.
-/

namespace ContentRepository.Text

/-! ## Pieces -/

theorem pieces_eq_splitOnP (cut : Char → Bool) (text : List Char) :
    pieces cut text = text.splitOnP cut := by
  induction text with
  | nil => rfl
  | cons c rest ih =>
    rw [pieces, ih, List.splitOnP_cons_eq_if_modifyHead]
    cases hrest : rest.splitOnP cut with
    | nil => exact absurd hrest (List.splitOnP_ne_nil cut rest)
    | cons piece more => rfl

/-- No piece contains the separator. -/
theorem not_mem_of_mem_pieces {c : Char} {piece text : List Char}
    (h : piece ∈ pieces (· == c) text) : c ∉ piece := by
  induction text generalizing piece with
  | nil => simp_all [pieces]
  | cons d rest ih =>
    rw [pieces] at h
    split at h
    · -- a separator begins an empty piece
      rcases List.mem_cons.1 h with rfl | h
      · exact List.not_mem_nil
      · exact ih h
    · next hd =>
      have hne : c ≠ d := fun heq => hd (beq_iff_eq.2 heq.symm)
      split at h
      · -- the text is a single character
        simp_all
      · next first more hrest =>
        rw [hrest] at ih
        -- the character goes to the first piece, which goes on as before
        rcases List.mem_cons.1 h with rfl | h
        · rw [List.mem_cons, not_or]
          exact ⟨hne, ih List.mem_cons_self⟩
        · exact ih (List.mem_cons_of_mem first h)

/-- **The pieces of a text are the only texts without separator that, joined by it, make up the
text.** -/
theorem pieces_eq_iff {c : Char} {text : List Char} {parts : List (List Char)} :
    pieces (· == c) text = parts ↔
      parts ≠ [] ∧ (∀ part ∈ parts, c ∉ part) ∧ [c].intercalate parts = text := by
  have hpieces : pieces (· == c) text = text.splitOn c := by
    rw [pieces_eq_splitOnP, List.splitOn_eq_splitOnP]
  constructor
  · rintro rfl
    refine ⟨?_, fun _ => not_mem_of_mem_pieces, ?_⟩
    · exact hpieces ▸ List.splitOn_ne_nil c text
    · exact hpieces ▸ List.intercalate_splitOn c
  · rintro ⟨hparts, hfree, rfl⟩
    rw [hpieces]
    exact List.splitOn_intercalate c hfree hparts

/-! ## Words -/

/-- White space only, possibly none. -/
def Blank (text : List Char) : Prop := ∀ c ∈ text, isBlank c = true

/-- At least one character, none of them white space. -/
structure IsWord (text : List Char) : Prop where
  nonempty : text ≠ []
  solid : ∀ c ∈ text, isBlank c = false

/-- A word that stands before this text ends there. -/
def EndsWord (rest : List Char) : Prop := ∀ c ∈ rest.head?, isBlank c = true

/-- The text is made up of the words in this order, with white space around them. -/
inductive Worded : List Char → List (List Char) → Prop
  | blank {text : List Char} : Blank text → Worded text []
  | word {lead word rest : List Char} {more : List (List Char)} : Blank lead → IsWord word →
      EndsWord rest → Worded rest more → Worded (lead ++ (word ++ rest)) (word :: more)

section Words

variable {lead word rest text : List Char} {found : List (List Char)}

theorem blank_iff_allBlank : Blank text ↔ allBlank text = true := by
  rw [allBlank, List.all_eq_true]
  rfl

theorem blank_nil : Blank [] := by simp [Blank]

theorem blank_append : Blank (lead ++ rest) ↔ Blank lead ∧ Blank rest := by
  simp only [Blank, List.mem_append, or_imp, forall_and]

theorem IsWord.not_blank (h : IsWord word) : ¬ Blank word := by
  obtain ⟨c, hc⟩ := List.exists_mem_of_ne_nil word h.nonempty
  intro hblank
  cases (hblank c hc).symm.trans (h.solid c hc)

theorem EndsWord.of_blank (h : Blank rest) : EndsWord rest :=
  fun c hc => h c (List.mem_of_mem_head? hc)

theorem endsWord_append (hlead : Blank lead) (hne : lead ≠ []) : EndsWord (lead ++ rest) := by
  obtain ⟨c, lead, rfl⟩ := List.exists_cons_of_ne_nil hne
  rintro _ ⟨⟩
  exact hlead c List.mem_cons_self

theorem words_blank_append (h : Blank lead) : words (lead ++ rest) = words rest := by
  induction lead with
  | nil => rfl
  | cons c lead ih =>
    have hc : isBlank c = true := h c List.mem_cons_self
    have hlead : Blank lead := fun d hd => h d (List.mem_cons_of_mem c hd)
    rw [← ih hlead, words, words, List.cons_append, pieces, if_pos hc]
    rfl

theorem words_of_blank (h : Blank text) : words text = [] := by
  rw [← List.append_nil text, words_blank_append h]
  rfl

/-- A word at the beginning is the first word. -/
theorem words_word_append (h : IsWord word) (hends : EndsWord rest) :
    words (word ++ rest) = word :: words rest := by
  have hkeep : ∀ more : List (List Char),
      (word :: more).filter (· ≠ []) = word :: more.filter (· ≠ []) := fun more =>
    List.filter_cons_of_pos (decide_eq_true h.nonempty)
  cases rest with
  | nil =>
    rw [List.append_nil, words, pieces_eq_splitOnP, List.splitOnP_eq_singleton h.solid, hkeep]
    rfl
  | cons c rest =>
    have hc : isBlank c = true := hends c rfl
    rw [words, pieces_eq_splitOnP, List.splitOnP_append_cons_of_forall_mem h.solid c hc, hkeep,
      ← pieces_eq_splitOnP, words, pieces, if_pos hc]
    rfl

theorem Worded.words_eq (h : Worded text found) : words text = found := by
  induction h with
  | blank h => exact words_of_blank h
  | word hlead hword hends _ ih => rw [words_blank_append hlead, words_word_append hword hends, ih]

theorem Worded.cons_blank {c : Char} (h : Worded text found) (hc : isBlank c = true) :
    Worded (c :: text) found := by
  cases h with
  | blank h => exact .blank (List.forall_mem_cons.2 ⟨hc, h⟩)
  | word hlead hword hends hrest =>
    exact .word (List.forall_mem_cons.2 ⟨hc, hlead⟩) hword hends hrest

/-- A character that is no white space makes the first word longer, or is a word of its own. -/
theorem Worded.exists_cons_solid {c : Char} (h : Worded text found) (hc : isBlank c = false) :
    ∃ found', Worded (c :: text) found' := by
  have hsingle : IsWord [c] := ⟨List.cons_ne_nil c [], by simpa using hc⟩
  cases id h with
  | blank hblank => exact ⟨_, .word blank_nil hsingle (.of_blank hblank) h⟩
  | @word lead word rest more hlead hword hends hrest =>
    cases lead with
    | nil =>
      exact ⟨_, .word blank_nil ⟨List.cons_ne_nil c word, List.forall_mem_cons.2 ⟨hc, hword.solid⟩⟩
        hends hrest⟩
    | cons b lead =>
      exact ⟨_, .word blank_nil hsingle (endsWord_append hlead (List.cons_ne_nil b lead)) h⟩

theorem exists_worded (text : List Char) : ∃ found, Worded text found := by
  induction text with
  | nil => exact ⟨[], .blank blank_nil⟩
  | cons c text ih =>
    obtain ⟨found, h⟩ := ih
    cases hc : isBlank c with
    | true => exact ⟨found, h.cons_blank hc⟩
    | false => exact h.exists_cons_solid hc

/-- **The words of a text are those it is made up of.** -/
theorem words_eq_iff : words text = found ↔ Worded text found := by
  refine ⟨?_, Worded.words_eq⟩
  rintro rfl
  obtain ⟨found, h⟩ := exists_worded text
  rwa [h.words_eq]

end Words

/-! ## Letter case -/

/-- **What becomes a capital letter is this letter or its small one.** -/
theorem toUpper_eq_iff {c letter : Char} (h : letter.isUpper = true) :
    c.toUpper = letter ↔ c = letter ∨ c = letter.toLower := by
  have hbounds : 65 ≤ letter.val.toNat ∧ letter.val.toNat ≤ 90 := of_decide_eq_true h
  have hlower : letter.toLower.val.toNat = (letter.val.toNat + 32) % 4294967296 := by
    show (dite _ _ _ : Char).val.toNat = _
    rw [dif_pos (of_decide_eq_true h), UInt32.toNat_add,
      show ('a'.val - 'A'.val).toNat = 32 by decide]
  simp only [Char.ext_iff, UInt32.toNat_inj.symm, hlower]
  by_cases hc : 'a'.val ≤ c.val ∧ c.val ≤ 'z'.val
  · have hsmall : 97 ≤ c.val.toNat ∧ c.val.toNat ≤ 122 := hc
    have hupper : c.toUpper.val.toNat = (c.val.toNat + 4294967264) % 4294967296 := by
      show (dite _ _ _ : Char).val.toNat = _
      rw [dif_pos hc, UInt32.toNat_add,
        show ('A'.val - 'a'.val).toNat = 4294967264 by decide]
    omega
  · have hlarge : ¬ (97 ≤ c.val.toNat ∧ c.val.toNat ≤ 122) := hc
    have hsame : c.toUpper = c := dif_neg hc
    rw [hsame]
    omega

end ContentRepository.Text
