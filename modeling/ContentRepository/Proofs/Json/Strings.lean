import ContentRepository.Json.Read
import ContentRepository.Json.Write
import Mathlib.Tactic.IntervalCases

/-!
# String literals are read back as they were written

A character is written as itself or as an escape. Either way reading takes just what was written of
it, and finds its code point.

* **`Json.literalUnits_escape`** — one character.
* **`Json.stringLiteral_writeText`** — whole texts.
-/

namespace ContentRepository.Json

/-! ## One character -/

/-- Every control character is escaped, in one way or another. -/
theorem literalUnits_escape_control {n : Nat} (hn : n < 0x20) (found : List Nat) (rest : List Char) :
    literalUnits found (escape (Char.ofNat n) ++ rest) = literalUnits (n :: found) rest := by
  interval_cases n <;> rfl

/-- **What is written of a character is read as its code point.** -/
theorem literalUnits_escape (found : List Nat) (c : Char) (rest : List Char) :
    literalUnits found (escape c ++ rest) = literalUnits (c.toNat :: found) rest := by
  by_cases hcontrol : c.toNat < 0x20
  · have hescape := literalUnits_escape_control hcontrol found rest
    rw [Char.ofNat_toNat] at hescape
    exact hescape
  · by_cases hquote : c = '"'
    · subst hquote
      rfl
    · by_cases hslash : c = '\\'
      · subst hslash
        rfl
      · have hplain : escape c = [c] := by
          unfold escape
          split <;> simp_all
        rw [hplain, List.singleton_append, literalUnits]
        · simp [hcontrol, hslash]
        · simp [hquote]
        all_goals simp [hslash]

/-! ## Whole texts -/

theorem literalUnits_flatMap_escape (found : List Nat) (content rest : List Char) :
    literalUnits found (content.flatMap escape ++ '"' :: rest) =
      some (found.reverse ++ content.map Char.toNat, rest) := by
  induction content generalizing found with
  | nil => simp [literalUnits]
  | cons c content ih =>
    rw [List.flatMap_cons, List.append_assoc, literalUnits_escape, ih, List.reverse_cons,
      List.append_assoc]
    rfl

/-- No character is a surrogate. -/
theorem joinSurrogates_map_toNat (content : List Char) :
    joinSurrogates (content.map Char.toNat) = some content := by
  induction content with
  | nil => rfl
  | cons c content ih =>
    have hvalid : c.toNat < 0xD800 ∨ 0xDFFF < c.toNat := by
      rcases c.valid with h | h
      · exact .inl h
      · exact .inr h.1
    have hhigh : ¬ (0xD800 ≤ c.toNat ∧ c.toNat < 0xDC00) := by omega
    have hlow : ¬ (0xDC00 ≤ c.toNat ∧ c.toNat < 0xE000) := by omega
    rw [List.map_cons, joinSurrogates.eq_def]
    simp only [if_neg hhigh, if_neg hlow, ih, Option.map_some, Char.ofNat_toNat]

/-- **A text is read back as it was written, and nothing else is taken.** -/
theorem stringLiteral_writeText (content : String) (rest : List Char) :
    stringLiteral ((content.toList.flatMap escape) ++ '"' :: rest) = some (some content, rest) := by
  rw [stringLiteral, literalUnits_flatMap_escape]
  show some (_, rest) = _
  rw [List.reverse_nil, List.nil_append, joinSurrogates_map_toNat, Option.map_some,
    String.ofList_toList]

theorem toList_writeText (content : String) :
    (writeText content).toList = '"' :: (content.toList.flatMap escape ++ ['"']) := by
  simp [writeText]

end ContentRepository.Json
