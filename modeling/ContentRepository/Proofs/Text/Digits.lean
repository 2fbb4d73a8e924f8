import ContentRepository.Time.Stamp
import Mathlib.Data.List.TakeDrop

/-!
# Runs of characters, and numbers written with digits

A reader takes the characters at the front of a text as long as they are of one kind. It takes just
a given run if the text after the run ends or goes on with a character of another kind.

* **`Text.takeWhile_run`**, **`Text.dropWhile_run`** — what is taken, and what is left.
* **`Stamp.digitsValue_toDigits`** — the digits of a number stand for that number, whatever zeros
  come before them (`Instant.digitsValue_padded`).
-/

namespace ContentRepository

/-! ## Runs -/

namespace Text

/-- The text ends, or goes on with a character that is not kept. -/
def EndsRun (keep : Char → Bool) (rest : List Char) : Prop :=
  ∀ c, rest.head? = some c → keep c = false

variable {keep : Char → Bool} {run rest : List Char}

theorem endsRun_nil : EndsRun keep [] := by
  intro c h
  cases h

theorem endsRun_cons {c : Char} (hc : keep c = false) : EndsRun keep (c :: rest) := by
  intro d h
  cases h
  exact hc

theorem EndsRun.mono {other : Char → Bool} (hend : EndsRun keep rest)
    (hkeep : ∀ c, other c = true → keep c = true) : EndsRun other rest := by
  intro c hc
  rw [← Bool.not_eq_true]
  intro hother
  exact absurd (hkeep c hother) (by simp [hend c hc])

theorem takeWhile_of_endsRun (hend : EndsRun keep rest) : rest.takeWhile keep = [] := by
  cases rest with
  | nil => rfl
  | cons c rest => simp [hend c rfl]

theorem dropWhile_of_endsRun (hend : EndsRun keep rest) : rest.dropWhile keep = rest := by
  cases rest with
  | nil => rfl
  | cons c rest => simp [hend c rfl]

theorem takeWhile_run (hinside : ∀ c ∈ run, keep c = true) (hend : EndsRun keep rest) :
    (run ++ rest).takeWhile keep = run := by
  rw [List.takeWhile_append_of_pos hinside, takeWhile_of_endsRun hend, List.append_nil]

theorem dropWhile_run (hinside : ∀ c ∈ run, keep c = true) (hend : EndsRun keep rest) :
    (run ++ rest).dropWhile keep = rest := by
  rw [List.dropWhile_append_of_pos hinside, dropWhile_of_endsRun hend]

/-! ## Digits -/

/-- A run of at least one digit. -/
def IsNumeral (digits : List Char) : Prop := digits ≠ [] ∧ ∀ c ∈ digits, c.isDigit = true

theorem isDigit_of_mem_toDigits {n : Nat} {c : Char} (hc : c ∈ Nat.toDigits 10 n) :
    c.isDigit = true :=
  Nat.isDigit_of_mem_toDigits (by omega) (by omega) hc

theorem isNumeral_toDigits (n : Nat) : IsNumeral (Nat.toDigits 10 n) :=
  ⟨Nat.toDigits_ne_nil, fun _ => isDigit_of_mem_toDigits⟩

theorem CodeRanges.contains_iff {ranges : CodeRanges} {c : Char} :
    ranges.contains c = true ↔ ∃ r ∈ ranges, r.1 ≤ c.toNat ∧ c.toNat ≤ r.2 := by
  simp [CodeRanges.contains]

/-- No digit is white space. -/
theorem isBlank_of_isDigit {c : Char} (hc : c.isDigit = true) : isBlank c = false := by
  have hapart : ∀ b ∈ blankRanges, b.2 < 48 ∨ 57 < b.1 := by decide
  have hcode : 48 ≤ c.toNat ∧ c.toNat ≤ 57 := Char.isDigit_iff_toNat.1 hc
  rw [← Bool.not_eq_true]
  intro hblank
  obtain ⟨b, hb, hlow, hhigh⟩ := CodeRanges.contains_iff.1 hblank
  have := hapart b hb
  omega

/-- Only zero is written with a zero in front. Induction on the number without its last digit. -/
theorem head?_toDigits_ne_zero {n : Nat} (hn : 0 < n) : (Nat.toDigits 10 n).head? ≠ some '0' := by
  induction n using Nat.strongRecOn with
  | ind n ih =>
    rw [Nat.toDigits_eq_if (by omega)]
    split
    · next hlt =>
      have hall : ∀ m < 10, 0 < m → ([Nat.digitChar m] : List Char).head? ≠ some '0' := by decide
      exact hall n hlt hn
    · next hge =>
      have hfirst := ih (n / 10) (by omega) (by omega)
      obtain ⟨c, cs, hdigits⟩ : ∃ c cs, Nat.toDigits 10 (n / 10) = c :: cs :=
        List.exists_cons_of_ne_nil Nat.toDigits_ne_nil
      rw [hdigits] at hfirst ⊢
      exact hfirst

end Text

namespace Stamp

theorem digitsValue_eq (digits : List Char) :
    digitsValue digits = Nat.ofDigitChars 10 digits 0 := by
  rw [digitsValue, Nat.ofDigitChars_eq_foldl]
  congr 1
  funext sofar c
  rw [Nat.mul_comm]

theorem digitsValue_toDigits (n : Nat) : digitsValue (Nat.toDigits 10 n) = n := by
  rw [digitsValue_eq, Nat.ofDigitChars_ten_toDigits]

end Stamp

/-! ## Digits after leading zeros -/

namespace Instant

theorem isNumeral_padded (width n : Nat) : Text.IsNumeral (padded width n) := by
  obtain ⟨hne, hdigit⟩ := Text.isNumeral_toDigits n
  refine ⟨by simp [padded], fun c hc => ?_⟩
  rcases List.mem_append.1 hc with hc | hc
  · obtain rfl := List.eq_of_mem_replicate hc
    rfl
  · exact hdigit c hc

theorem length_padded {width n : Nat} (hwidth : 0 < width) (hn : n < Nat.pow 10 width) :
    (padded width n).length = width := by
  have hle : (Nat.toDigits 10 n).length ≤ width :=
    (Nat.length_toDigits_le_iff (by omega) hwidth).2 hn
  rw [padded, List.length_append, List.length_replicate]
  omega

theorem digitsValue_padded (width n : Nat) : Stamp.digitsValue (padded width n) = n := by
  rw [Stamp.digitsValue_eq, padded, Nat.ofDigitChars_append, Nat.ofDigitChars_replicate_zero,
    Nat.mul_zero, Nat.ofDigitChars_ten_toDigits]

end Instant

end ContentRepository
