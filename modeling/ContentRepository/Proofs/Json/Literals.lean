import ContentRepository.Json.Number
import ContentRepository.Json.Read
import ContentRepository.Proofs.Text.Digits

/-!
# The literals of numbers are read as they stand

A number literal has a sign or none, digits before the point, and may have a point with digits and
an exponent (`IsLiteral`). The reader takes all of it, provided that the text goes on with nothing
that a literal may have in it.

* **`Json.numberLiteral_run`** — the reader takes the literal and leaves the rest.
* **`Json.isLiteral_toString`**, **`Json.long?_toString`** — an integer of 64 bits is written as a
  literal, and this literal stands for it.
-/

namespace ContentRepository.Json

open Text (EndsRun IsNumeral)

/-! ## The grammar of literals -/

/-- The digits before the point: a zero stands alone. -/
def IsWhole (whole : List Char) : Prop :=
  whole = ['0'] ∨ (IsNumeral whole ∧ whole.head? ≠ some '0')

/-- The point with the digits after it, or nothing. -/
def IsFraction (fraction : List Char) : Prop :=
  fraction = [] ∨ ∃ run, IsNumeral run ∧ fraction = '.' :: run

/-- The exponent with its letter and its sign, or nothing. -/
def IsExponent (exponent : List Char) : Prop :=
  exponent = [] ∨ ∃ sign run, sign ∈ [[], ['+'], ['-']] ∧ IsNumeral run ∧
    exponent = 'e' :: (sign ++ run)

/-- The minus sign, or nothing. -/
def minus (negative : Bool) : List Char := if negative then ['-'] else []

/-- The literals of numbers. -/
inductive IsLiteral : String → Prop
  | intro {whole fraction exponent : List Char} (negative : Bool) (hwhole : IsWhole whole)
      (hfraction : IsFraction fraction) (hexponent : IsExponent exponent) :
      IsLiteral (String.ofList (minus negative ++ whole ++ fraction ++ exponent))

/-- A literal can go on with this character. -/
def continuesLiteral (c : Char) : Bool := c.isDigit || c ∈ ['.', 'e', 'E']

/-! ## Reading the parts -/

theorem bind_eq {α β : Type} {reader : Reader α} {next : α → Reader β} {text rest : List Char}
    {a : α} (h : reader text = some (a, rest)) : (reader >>= next) text = next a rest := by
  show (reader text).bind _ = _
  rw [h]
  rfl

section Reading

variable {run whole fraction exponent rest : List Char}

theorem digits_run (hrun : IsNumeral run) (hend : EndsRun Char.isDigit rest) :
    digits (run ++ rest) = some (run, rest) := by
  obtain ⟨hne, hdigit⟩ := hrun
  rw [digits, Text.takeWhile_run hdigit hend, Text.dropWhile_run hdigit hend]
  cases run with
  | nil => exact absurd rfl hne
  | cons c run => rfl

theorem wholeDigits_run (hwhole : IsWhole whole) (hend : EndsRun Char.isDigit rest) :
    wholeDigits (whole ++ rest) = some (whole, rest) := by
  rcases hwhole with rfl | ⟨hrun, hfirst⟩
  · rfl
  · obtain ⟨c, cs, rfl⟩ := List.exists_cons_of_ne_nil hrun.1
    have hdigits := digits_run hrun hend
    rw [List.cons_append] at hdigits ⊢
    rw [wholeDigits]
    · exact hdigits
    · rintro tail heq
      cases heq
      exact hfirst rfl

theorem fractionDigits_run (hfraction : IsFraction fraction)
    (hend : EndsRun (fun c => c.isDigit || c == '.') rest) :
    fractionDigits (fraction ++ rest) = some (fraction, rest) := by
  rcases hfraction with rfl | ⟨run, hrun, rfl⟩
  · rw [List.nil_append, fractionDigits]
    rintro tail rfl
    cases hend '.' rfl
  · have hdigits := digits_run hrun (hend.mono fun c hc => by rw [hc, Bool.true_or])
    rw [List.cons_append, fractionDigits, hdigits]
    rfl

theorem exponentDigits_run (hexponent : IsExponent exponent)
    (hend : EndsRun continuesLiteral rest) :
    exponentDigits (exponent ++ rest) = some (exponent, rest) := by
  rcases hexponent with rfl | ⟨sign, run, hsign, hrun, rfl⟩
  · -- no exponent: the rest must not start with the letter
    cases rest with
    | nil => rfl
    | cons c rest =>
      -- a letter would continue the literal
      have hc := hend c rfl
      have hletter : ¬ (c = 'e' ∨ c = 'E') := by
        rintro (rfl | rfl) <;> cases hc
      simp only [List.nil_append, exponentDigits, if_neg hletter]
  · -- the digits of the exponent end where the literal ends
    have hstop : EndsRun Char.isDigit rest :=
      hend.mono fun c hc => by rw [continuesLiteral, hc, Bool.true_or]
    have hdigits := digits_run hrun hstop
    obtain ⟨d, ds, rfl⟩ := List.exists_cons_of_ne_nil hrun.1
    simp only [List.mem_cons, List.not_mem_nil, or_false] at hsign
    rcases hsign with rfl | rfl | rfl
    · -- without sign the first digit must not be taken for one
      have hd := hrun.2 d List.mem_cons_self
      have hsign : ¬ (d = '+' ∨ d = '-') := by
        rintro (rfl | rfl) <;> cases hd
      simp only [List.cons_append, List.nil_append] at hdigits ⊢
      simp [exponentDigits, hsign, hdigits]
    · simp only [List.cons_append, List.nil_append] at hdigits ⊢
      simp [exponentDigits, hdigits]
    · simp only [List.cons_append, List.nil_append] at hdigits ⊢
      simp [exponentDigits, hdigits]

theorem endsRun_exponent (hexponent : IsExponent exponent) (hend : EndsRun continuesLiteral rest) :
    EndsRun (fun c => c.isDigit || c == '.') (exponent ++ rest) := by
  rcases hexponent with rfl | ⟨sign, run, hsign, hrun, rfl⟩
  · refine hend.mono fun c hc => ?_
    rw [Bool.or_eq_true, beq_iff_eq] at hc
    rcases hc with hc | rfl
    · rw [continuesLiteral, hc, Bool.true_or]
    · rfl
  · exact Text.endsRun_cons (by decide)

theorem endsRun_fraction (hfraction : IsFraction fraction)
    (hend : EndsRun (fun c => c.isDigit || c == '.') rest) :
    EndsRun Char.isDigit (fraction ++ rest) := by
  rcases hfraction with rfl | ⟨run, hrun, rfl⟩
  · exact hend.mono fun c hc => by rw [hc, Bool.true_or]
  · exact Text.endsRun_cons (by decide)

theorem head?_whole_ne_minus (hwhole : IsWhole whole) (rest : List Char) :
    (whole ++ rest).head? ≠ some '-' := by
  rcases hwhole with rfl | ⟨⟨hne, hdigit⟩, -⟩
  · simp
  · obtain ⟨c, cs, rfl⟩ := List.exists_cons_of_ne_nil hne
    intro h
    cases h
    cases hdigit '-' List.mem_cons_self

/-- **The reader takes the whole literal and nothing after it.** -/
theorem numberLiteral_run {literal : String} (hliteral : IsLiteral literal)
    (hend : EndsRun continuesLiteral rest) :
    numberLiteral (literal.toList ++ rest) = some (literal, rest) := by
  obtain @⟨whole, fraction, exponent, negative, hwhole, hfraction, hexponent⟩ := hliteral
  have hpoint := endsRun_exponent hexponent hend
  have hw := wholeDigits_run hwhole (endsRun_fraction hfraction hpoint)
  have hf := fractionDigits_run hfraction hpoint
  have he := exponentDigits_run hexponent hend
  have hminus := head?_whole_ne_minus hwhole (fraction ++ (exponent ++ rest))
  rw [String.toList_ofList, List.append_assoc, List.append_assoc, List.append_assoc, numberLiteral]
  cases negative with
  | true =>
    have hword : word ['-'] ('-' :: (whole ++ (fraction ++ (exponent ++ rest)))) =
        some ((), whole ++ (fraction ++ (exponent ++ rest))) := rfl
    simp only [minus, if_true, List.singleton_append]
    rw [bind_eq (a := some '-') rfl]
    simp only [if_true]
    rw [bind_eq hword, bind_eq hw, bind_eq hf, bind_eq he]
    rfl
  | false =>
    rw [minus, if_neg Bool.false_ne_true, List.nil_append, bind_eq rfl]
    simp only [if_neg hminus]
    rw [bind_eq hw, bind_eq hf, bind_eq he]
    rfl

end Reading

/-! ## Integers -/

theorem isWhole_toDigits (n : Nat) : IsWhole (Nat.toDigits 10 n) := by
  rcases Nat.eq_zero_or_pos n with rfl | hn
  · exact .inl rfl
  · exact .inr ⟨Text.isNumeral_toDigits n, Text.head?_toDigits_ne_zero hn⟩

theorem toString_int (n : Int) :
    toString n = String.ofList (minus (n < 0) ++ Nat.toDigits 10 n.natAbs) := by
  rw [Int.toString_eq_repr, Int.repr_eq_if]
  by_cases hn : 0 ≤ n
  · rw [if_pos hn, Nat.repr_eq_ofList_toDigits, minus, if_neg (by simpa using hn), List.nil_append]
    congr 2
    omega
  · rw [if_neg hn, Nat.repr_eq_ofList_toDigits, minus, if_pos (by simpa using hn),
      String.ofList_append]
    congr 3
    omega

theorem isLiteral_toString (n : Int) : IsLiteral (toString n) := by
  have h := IsLiteral.intro (n < 0) (isWhole_toDigits n.natAbs) (.inl rfl) (.inl rfl)
  rw [List.append_nil, List.append_nil] at h
  rw [toString_int]
  exact h

theorem le_ofDigitChars (digits : List Char) (found : Nat) :
    found ≤ Nat.ofDigitChars 10 digits found := by
  induction digits generalizing found with
  | nil => exact Nat.le_refl _
  | cons c digits ih =>
    rw [Nat.ofDigitChars_cons]
    exact Nat.le_trans (by omega) (ih _)

/-- Digits of a number that fits are all gathered. -/
theorem gatherWhole_of_le {digits : List Char} {found : Nat}
    (h : Nat.ofDigitChars 10 digits found ≤ largestSignificand) :
    gatherWhole found digits = ⟨Nat.ofDigitChars 10 digits found, 0⟩ := by
  induction digits generalizing found with
  | nil => rfl
  | cons c digits ih =>
    rw [Nat.ofDigitChars_cons, Nat.mul_comm] at h
    have hnext : found * 10 + (c.toNat - '0'.toNat) ≤ largestSignificand :=
      Nat.le_trans (le_ofDigitChars digits _) h
    rw [gatherWhole]
    simp only [if_pos hnext]
    rw [ih h, Nat.ofDigitChars_cons, Nat.mul_comm]

theorem literalParts_toDigits (n : Nat) :
    literalParts (Nat.toDigits 10 n) = (Nat.toDigits 10 n, none, none) := by
  have hdigit : ∀ c ∈ Nat.toDigits 10 n, c.isDigit = true := fun _ => Text.isDigit_of_mem_toDigits
  have htake := Text.takeWhile_run hdigit Text.endsRun_nil
  have hdrop := Text.dropWhile_run hdigit Text.endsRun_nil
  rw [List.append_nil] at htake hdrop
  simp only [literalParts, htake, hdrop]

theorem gatherWhole_toDigits {n : Nat} (hn : n ≤ largestSignificand) :
    gatherWhole 0 (Nat.toDigits 10 n) = ⟨n, 0⟩ := by
  rw [gatherWhole_of_le] <;> rw [Nat.ofDigitChars_ten_toDigits]
  exact hn

theorem number?_toString {n : Int} (hlow : Int64.minValue.toInt ≤ n)
    (hhigh : n ≤ Int64.maxValue.toInt) : number? (toString n) = some (.integer n) := by
  have hmin : Int64.minValue.toInt = -9223372036854775808 := by decide
  have hmax : Int64.maxValue.toInt = 9223372036854775807 := by decide
  have hfits : n.natAbs ≤ largestSignificand := by
    have : largestSignificand = 18446744073709551615 := by decide
    omega
  have hparts := literalParts_toDigits n.natAbs
  have hgathered := gatherWhole_toDigits hfits
  by_cases hn : n < 0
  · have hlist : (toString n).toList = '-' :: Nat.toDigits 10 n.natAbs := by
      rw [toString_int, minus, if_pos (by simpa using hn), String.toList_ofList]
      rfl
    have hsmall : ¬ (n.natAbs = 0 ∨ Int64.maxValue.toInt + 1 < n.natAbs) := by omega
    have hback : -(n.natAbs : Int) = n := by omega
    simp only [number?, hlist, hparts, hgathered, hsmall, hback, Bool.not_true, if_true,
      Bool.false_eq_true, if_false]
  · have hlist : (toString n).toList = Nat.toDigits 10 n.natAbs := by
      rw [toString_int, minus, if_neg (by simpa using hn), String.toList_ofList]
      rfl
    have hback : (n.natAbs : Int) = n := by omega
    have hminus : ∀ rest, Nat.toDigits 10 n.natAbs ≠ '-' :: rest := by
      intro rest heq
      cases Text.isDigit_of_mem_toDigits (heq ▸ List.mem_cons_self)
    simp only [number?, hlist, hparts, hgathered, hback, Bool.not_false, if_true]

/-- **The literal of an integer of 64 bits stands for it.** -/
theorem long?_toString (n : Int64) : long? (toString n.toInt) = some n := by
  have hlow := n.minValue_le_toInt
  have hhigh := n.toInt_le
  rw [long?, number?_toString hlow hhigh]
  simp only [if_pos (And.intro hlow hhigh), Int64.ofInt_toInt]

end ContentRepository.Json
