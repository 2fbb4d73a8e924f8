import ContentRepository.Proofs.Text.Digits
import ContentRepository.Query.Scan
import Mathlib.Data.List.Forall2

/-!
# Scanning words with blanks between them

A word spells a token if the scanner, having taken its first character, takes all of it and nothing
after it, provided that the text ends there or goes on with a blank. A text of such words, with
single blanks between them, is scanned into their tokens.

* **`Spells`** — a word spells a token.
* **`spells_name`**, **`spells_long`**, **`spells_text`** — names, integers, and text literals with
  any content.
* **`scan_intercalate`** — whole texts.
-/

namespace ContentRepository

namespace Text

/-- No letter comes before the capital A. -/
theorem le_of_isAlphabetic {c : Char} (hc : isAlphabetic c = true) : 65 ≤ c.toNat := by
  have hlow : ∀ r ∈ alphabeticRanges, 65 ≤ r.1 := by decide +kernel
  obtain ⟨r, hr, hle, -⟩ := CodeRanges.contains_iff.1 hc
  exact Nat.le_trans (hlow r hr) hle

/-- No letter is white space. -/
theorem isBlank_of_isAlphabetic {c : Char} (hc : isAlphabetic c = true) : isBlank c = false := by
  have hapart : ∀ b ∈ blankRanges, ∀ r ∈ alphabeticRanges, r.2 < b.1 ∨ b.2 < r.1 := by
    decide +kernel
  rw [← Bool.not_eq_true]
  intro hblank
  obtain ⟨r, hr, hlow, hhigh⟩ := CodeRanges.contains_iff.1 hc
  obtain ⟨b, hb, hlow', hhigh'⟩ := CodeRanges.contains_iff.1 hblank
  have := hapart b hb r hr
  omega

end Text

namespace Query

open Text (isDigit_of_mem_toDigits)

/-! ## Words -/

/-- The text ends, or goes on with a blank. -/
def EndsWord (rest : List Char) : Prop := ∀ c, rest.head? = some c → c = ' '

/-- Scanning takes the word for the token. -/
def Spells (word : List Char) (token : Token) : Prop :=
  ∃ c cs, word = c :: cs ∧ Text.isBlank c = false ∧
    ∀ rest, EndsWord rest → firstToken c (cs ++ rest) = .ok (token, rest)

theorem endsWord_nil : EndsWord [] := by
  intro c h
  cases h

theorem endsWord_blank (rest : List Char) : EndsWord (' ' :: rest) := by
  intro c h
  exact (Option.some.inj h).symm

theorem EndsWord.endsRun {keep : Char → Bool} {rest : List Char} (hend : EndsWord rest)
    (hblank : keep ' ' = false) : Text.EndsRun keep rest := by
  intro c hc
  rw [hend c hc, hblank]

theorem scanFrom_of_spells {word rest : List Char} {token : Token} (hword : Spells word token)
    (hend : EndsWord rest) (steps : Nat) (found : List Token) :
    scanFrom (steps + 1) found (word ++ rest) = scanFrom steps (token :: found) rest := by
  obtain ⟨c, cs, rfl, hblank, hfirst⟩ := hword
  rw [List.cons_append, scanFrom, hblank, hfirst rest hend]
  rfl

theorem length_pos_of_spells {word : List Char} {token : Token} (hword : Spells word token) :
    0 < word.length := by
  obtain ⟨c, cs, rfl, -⟩ := hword
  simp

/-- **Words are scanned one after another.** Induction on the words; a blank takes a step too. -/
theorem scanFrom_words {words : List (List Char)} {tokens : List Token}
    (h : List.Forall₂ Spells words tokens) (found : List Token) (steps : Nat)
    (hsteps : ([' '].intercalate words).length ≤ steps) :
    scanFrom steps found ([' '].intercalate words) = .ok (found.reverse ++ tokens) := by
  induction h generalizing found steps with
  | nil =>
    rw [List.append_nil]
    cases steps <;> rfl
  | @cons word token words tokens hword htail ih =>
    -- a word has a character at least, so each takes a step
    have hpos := length_pos_of_spells hword
    cases htail with
    | nil =>
      -- the last word ends with the text
      rw [List.intercalate_singleton] at hsteps ⊢
      obtain ⟨steps, rfl⟩ : ∃ n, steps = n + 1 := ⟨steps - 1, by omega⟩
      have hscan := scanFrom_of_spells hword endsWord_nil steps found
      rw [List.append_nil] at hscan
      rw [hscan]
      cases steps <;> simp [scanFrom]
    | cons hnext hmore =>
      -- any other word ends at the blank that follows, and the blank takes a step of its own
      rw [List.intercalate_cons_cons, List.append_assoc] at hsteps ⊢
      rw [List.length_append, List.singleton_append, List.length_cons] at hsteps
      obtain ⟨steps, rfl⟩ : ∃ n, steps = n + 2 := ⟨steps - 2, by omega⟩
      rw [List.singleton_append, scanFrom_of_spells hword (endsWord_blank _)]
      have hblank : Text.isBlank ' ' = true := by decide
      rw [scanFrom, hblank, if_pos rfl, ih _ _ (by omega)]
      simp

/-- **A text of words is scanned into their tokens.** -/
theorem scan_intercalate {words : List String} {tokens : List Token}
    (h : List.Forall₂ (fun word token => Spells word.toList token) words tokens) :
    scan (" ".intercalate words) = .ok tokens := by
  rw [scan, String.toList_intercalate]
  exact scanFrom_words (List.forall₂_map_left_iff.2 h) [] _ (Nat.le_refl _)

/-! ## Names -/

/-- The characters with a meaning of their own, wherever they begin a token. -/
def marks : List Char := ['(', ')', ',', '=', '!', '<', '>', '\'']

theorem firstToken_of_notMem_marks {c : Char} (hc : c ∉ marks) (rest : List Char) :
    firstToken c rest =
      if c.isDigit || c == '-' then
        (numberToken (c :: rest.takeWhile continuesNumber)).map
          (·, rest.dropWhile continuesNumber)
      else if startsName c then
        .ok (wordToken (c :: rest.takeWhile continuesName), rest.dropWhile continuesName)
      else .error (.unexpectedCharacter c) := by
  unfold firstToken
  split <;> first | exact absurd (by decide) hc | rfl

theorem le_of_startsName {c : Char} (hc : startsName c = true) : 65 ≤ c.toNat := by
  rw [startsName, Bool.or_eq_true, beq_iff_eq] at hc
  rcases hc with hc | rfl
  · exact Text.le_of_isAlphabetic hc
  · decide

theorem isBlank_of_startsName {c : Char} (hc : startsName c = true) : Text.isBlank c = false := by
  rw [startsName, Bool.or_eq_true, beq_iff_eq] at hc
  rcases hc with hc | rfl
  · exact Text.isBlank_of_isAlphabetic hc
  · decide +kernel

theorem firstToken_of_startsName {c : Char} (hc : startsName c = true) (rest : List Char) :
    firstToken c rest =
      .ok (wordToken (c :: rest.takeWhile continuesName), rest.dropWhile continuesName) := by
  have hle := le_of_startsName hc
  -- the marks, the digits and the minus sign all come before the letters
  have hmark : c ∉ marks := by
    intro hmem
    have hlow : marks.all (·.toNat < 65) = true := by decide
    have hcode : c.toNat < 65 := of_decide_eq_true (List.all_eq_true.1 hlow c hmem)
    omega
  have hdigit : c.isDigit = false := by
    rw [← Bool.not_eq_true]
    intro hdigit
    have hhigh : c.toNat ≤ 57 := (Char.isDigit_iff_toNat.1 hdigit).2
    omega
  have hminus : (c == '-') = false := by
    rw [beq_eq_false_iff_ne]
    rintro rfl
    exact absurd hle (by decide)
  rw [firstToken_of_notMem_marks hmark, hdigit, hminus, Bool.or_self, if_neg Bool.false_ne_true,
    if_pos hc]

/-- **A name spells a keyword or a field.** -/
theorem spells_name {c : Char} {cs : List Char} (hc : startsName c = true)
    (hcs : ∀ d ∈ cs, continuesName d = true) : Spells (c :: cs) (wordToken (c :: cs)) := by
  refine ⟨c, cs, rfl, isBlank_of_startsName hc, fun rest hend => ?_⟩
  have hblank : continuesName ' ' = false := by decide +kernel
  rw [firstToken_of_startsName hc, Text.takeWhile_run hcs (hend.endsRun hblank),
    Text.dropWhile_run hcs (hend.endsRun hblank)]

theorem spells_keyword (k : Keyword) : Spells k.spelling (.keyword k) := by
  have hspelt : ∃ c cs, k.spelling = c :: cs ∧ startsName c = true ∧
      (∀ d ∈ cs, continuesName d = true) ∧ wordToken (c :: cs) = .keyword k := by
    cases k <;>
      exact ⟨_, _, rfl, by decide, List.all_eq_true.1 (by decide), by decide⟩
  obtain ⟨c, cs, hspelling, hc, hcs, htoken⟩ := hspelt
  rw [hspelling, ← htoken]
  exact spells_name hc hcs

/-! ## Marks -/

theorem spells_leftParen : Spells "(".toList .leftParen :=
  ⟨'(', [], rfl, by decide, fun _ _ => rfl⟩

theorem spells_rightParen : Spells ")".toList .rightParen :=
  ⟨')', [], rfl, by decide, fun _ _ => rfl⟩

theorem spells_comma : Spells ",".toList .comma :=
  ⟨',', [], rfl, by decide, fun _ _ => rfl⟩

/-- The relation as it is written. -/
def Relation.symbol : Relation → String
  | .eq => "="
  | .ne => "<>"
  | .lt => "<"
  | .le => "<="
  | .gt => ">"
  | .ge => ">="

/-- The shorter of two symbols that begin alike is told by the blank after it. -/
theorem spells_symbol (r : Relation) : Spells r.symbol.toList (.relation r) := by
  cases r with
  | eq => exact ⟨'=', [], rfl, by decide, fun rest _ => rfl⟩
  | ne => exact ⟨'<', ['>'], rfl, by decide, fun rest _ => rfl⟩
  | le => exact ⟨'<', ['='], rfl, by decide, fun rest _ => rfl⟩
  | ge => exact ⟨'>', ['='], rfl, by decide, fun rest _ => rfl⟩
  | lt =>
    refine ⟨'<', [], rfl, by decide, fun rest hend => ?_⟩
    cases rest with
    | nil => rfl
    | cons c tail =>
      obtain rfl := hend c rfl
      rfl
  | gt =>
    refine ⟨'>', [], rfl, by decide, fun rest hend => ?_⟩
    cases rest with
    | nil => rfl
    | cons c tail =>
      obtain rfl := hend c rfl
      rfl

theorem spells_bang_equals : Spells "!=".toList (.relation .ne) :=
  ⟨'!', ['='], rfl, by decide, fun _ _ => rfl⟩

/-! ## Text literals -/

/-- A character as it is written inside a text literal. -/
def quotedChar (c : Char) : List Char := if c = '\'' then ['\'', '\''] else [c]

/-- The text literal: the content between quotes. -/
def quotedChars (content : List Char) : List Char :=
  '\'' :: (content.flatMap quotedChar ++ ['\''])

theorem literalBody_close {rest : List Char} (hend : EndsWord rest) :
    literalBody ('\'' :: rest) = some ([], rest) := by
  cases rest with
  | nil => rfl
  | cons c tail =>
    obtain rfl := hend c rfl
    rfl

theorem literalBody_quotedChar (c : Char) (rest : List Char) :
    literalBody (quotedChar c ++ rest) =
      (literalBody rest).map fun (body, after) => (c :: body, after) := by
  by_cases hc : c = '\''
  · subst hc
    rfl
  · rw [quotedChar, if_neg hc, List.singleton_append, literalBody]
    · rintro _ rfl
      exact absurd rfl hc
    · exact hc

/-- **No content closes the literal early.** Induction on the content. -/
theorem literalBody_quoted (content : List Char) {rest : List Char} (hend : EndsWord rest) :
    literalBody (content.flatMap quotedChar ++ '\'' :: rest) = some (content, rest) := by
  induction content with
  | nil => exact literalBody_close hend
  | cons c content ih =>
    rw [List.flatMap_cons, List.append_assoc, literalBody_quotedChar, ih]
    rfl

/-- **Whatever it contains, a text between quotes spells that text.** -/
theorem spells_text (content : String) : Spells (quotedChars content.toList) (.text content) := by
  refine ⟨'\'', _, rfl, by decide, fun rest hend => ?_⟩
  have hbody := literalBody_quoted content.toList hend
  rw [List.append_assoc, List.singleton_append]
  simp [firstToken, hbody]

/-! ## Integers -/

theorem numeral_toDigits (n : Nat) : numeral (Nat.toDigits 10 n) = n := Stamp.digitsValue_toDigits n

theorem longOf?_toDigits {negative : Bool} {size : Nat} {n : Int64}
    (hn : n.toInt = if negative then -(size : Int) else size) :
    longOf? negative (Nat.toDigits 10 size) = some n := by
  have hdigits : (Nat.toDigits 10 size).all Char.isDigit = true :=
    List.all_eq_true.2 fun c hc => isDigit_of_mem_toDigits hc
  have hsome : (Nat.toDigits 10 size).isEmpty = false := by simp
  have hlow := n.minValue_le_toInt
  have hhigh := n.toInt_le
  simp only [longOf?, numeral_toDigits, hsome, hdigits, ← hn, decide_eq_true hlow,
    decide_eq_true hhigh, Int64.ofInt_toInt]
  rfl

theorem numberToken_toDigits {size : Nat} {n : Int64} (hn : n.toInt = size) :
    numberToken (Nat.toDigits 10 size) = .ok (.long n) := by
  have hpoint : '.' ∉ Nat.toDigits 10 size := fun h => absurd (isDigit_of_mem_toDigits h) (by decide)
  have hminus : ∀ rest, Nat.toDigits 10 size ≠ '-' :: rest := by
    intro rest heq
    have hmem : '-' ∈ Nat.toDigits 10 size := heq ▸ List.mem_cons_self
    exact absurd (isDigit_of_mem_toDigits hmem) (by decide)
  have hlong : longOf? false (Nat.toDigits 10 size) = some n := longOf?_toDigits hn
  rw [numberToken]
  · simp [hpoint, hlong]
  · exact hminus

theorem numberToken_minus_toDigits {size : Nat} {n : Int64} (hn : n.toInt = -(size : Int)) :
    numberToken ('-' :: Nat.toDigits 10 size) = .ok (.long n) := by
  have hpoint : '.' ∉ Nat.toDigits 10 size := fun h => absurd (isDigit_of_mem_toDigits h) (by decide)
  have hlong : longOf? true (Nat.toDigits 10 size) = some n := longOf?_toDigits hn
  simp [numberToken, hpoint, hlong]

/-- A word that starts like a number and goes on like one is taken as a number. -/
theorem spells_number {c : Char} {cs : List Char} {token : Token}
    (hc : c.isDigit = true ∨ c = '-') (hcs : ∀ d ∈ cs, d.isDigit = true)
    (htoken : numberToken (c :: cs) = .ok token) : Spells (c :: cs) token := by
  have hstart : (c.isDigit || c == '-') = true := by simpa using hc
  have hcode : 48 ≤ c.toNat ∧ c.toNat ≤ 57 ∨ c = '-' := hc.imp_left Char.isDigit_iff_toNat.1
  -- no mark is a digit or minus sign
  have hmark : c ∉ marks := by
    intro hmem
    have hother : marks.all (fun m => ¬ (48 ≤ m.toNat ∧ m.toNat ≤ 57 ∨ m = '-')) = true := by decide
    exact of_decide_eq_true (List.all_eq_true.1 hother c hmem) hcode
  have hblank : Text.isBlank c = false := by
    rcases hc with hc | rfl
    · exact Text.isBlank_of_isDigit hc
    · decide
  have hinside : ∀ d ∈ cs, continuesNumber d = true := fun d hd => by
    rw [continuesNumber, hcs d hd, Bool.true_or]
  refine ⟨c, cs, rfl, hblank, fun rest hend => ?_⟩
  have hstop : Text.EndsRun continuesNumber rest := hend.endsRun (by decide)
  rw [firstToken_of_notMem_marks hmark, if_pos hstart, Text.takeWhile_run hinside hstop,
    Text.dropWhile_run hinside hstop, htoken]
  rfl

/-- **An integer spells itself**, with a minus sign before the negative ones. -/
theorem spells_long (n : Int64) : Spells (toString n.toInt).toList (.long n) := by
  rw [Int.toString_eq_repr, Int.repr_eq_if]
  by_cases hn : 0 ≤ n.toInt
  · rw [if_pos hn, Nat.repr_eq_ofList_toDigits, String.toList_ofList]
    have htoken : numberToken (Nat.toDigits 10 n.toInt.toNat) = .ok (.long n) :=
      numberToken_toDigits (by omega)
    obtain ⟨c, cs, hdigits⟩ : ∃ c cs, Nat.toDigits 10 n.toInt.toNat = c :: cs :=
      List.exists_cons_of_ne_nil Nat.toDigits_ne_nil
    have hall : ∀ d ∈ c :: cs, d.isDigit = true := fun d hd =>
      isDigit_of_mem_toDigits (hdigits ▸ hd)
    rw [hdigits] at htoken ⊢
    exact spells_number (.inl (hall c List.mem_cons_self))
      (fun d hd => hall d (List.mem_cons_of_mem c hd)) htoken
  · have htoken : numberToken ('-' :: Nat.toDigits 10 (-n.toInt).toNat) = .ok (.long n) :=
      numberToken_minus_toDigits (by omega)
    have hword : ("-" ++ String.ofList (Nat.toDigits 10 (-n.toInt).toNat)).toList =
        '-' :: Nat.toDigits 10 (-n.toInt).toNat := by simp
    rw [if_neg hn, Nat.repr_eq_ofList_toDigits, hword]
    exact spells_number (.inr rfl) (fun d hd => isDigit_of_mem_toDigits hd) htoken

end Query

end ContentRepository
