import ContentRepository.Number.Layout
import ContentRepository.Proofs.Json.Literals

/-!
# The text of a finite double is a literal

Of the digits before the point a literal lets the first be zero only if there is no other. A layout
keeps to this, because the digits it is given begin with zero only for zero itself.

* **`Binary64.shortest_digits`** — the digits of a double.
* **`Layout.isLiteral_write`** — the texts of finite doubles in any layout.
-/

namespace ContentRepository

/-! ## The digits are not zero -/

namespace Binary64

variable {d : Binary64} {tie : Tie} {power : Int} {decimal : Decimal}

theorem significand_pos (hd : d.isZero = false) : 0 < d.significand := by
  rw [isZero, beq_eq_false_iff_ne] at hd
  rw [significand]
  split
  · next hlt =>
    rw [Nat.mod_eq_of_lt hlt]
    omega
  · have hweight : 0 < exponentWeight := by decide
    omega

/-- Zero rounds to no other double. -/
theorem covers_zero (hd : d.isZero = false) : d.covers ⟨0, power⟩ = false := by
  have hsignificand := significand_pos hd
  have hreach : d.reachBelow ≤ 2 := by
    rw [reachBelow]
    split <;> omega
  have hlow : 0 < d.quarterUnits - d.reachBelow := by
    rw [quarterUnits]
    omega
  have hunit : 0 < Nat.pow 2 (d.exponent - 2).toNat * Nat.pow 10 (-power).toNat :=
    Nat.mul_pos (Nat.pow_pos (by omega)) (Nat.pow_pos (by omega))
  have hpos := Nat.mul_pos hlow hunit
  rw [covers]
  simp only [Nat.zero_mul]
  split
  · rw [decide_eq_false (Nat.not_le.2 hpos), Bool.false_and]
  · rw [decide_eq_false (Nat.not_lt_zero _), Bool.false_and]

theorem digits_pos_of_onGrid? (hd : d.isZero = false) (h : onGrid? tie d power = some decimal) :
    0 < decimal.digits := by
  -- zero is too far away to round to the double
  have hlower : d.covers ⟨(d.gridBelow power).1, power⟩ = true → 0 < (d.gridBelow power).1 := by
    intro hcovers
    refine Nat.pos_of_ne_zero fun hzero => ?_
    rw [hzero, covers_zero hd] at hcovers
    cases hcovers
  rw [onGrid?] at h
  simp only at h
  split at h
  · next hcovers _ =>
    -- both neighbours on the grid would do: the nearer is taken, which may be the upper one
    cases h
    split
    · exact Nat.succ_pos _
    · exact hlower hcovers
  · next hcovers _ =>
    -- only the lower one would do
    cases h
    exact hlower hcovers
  · -- only the upper one would do, and that is a successor
    cases h
    exact Nat.succ_pos _
  · cases h

/-- **Only zero has zero for its digits**, and these are written without a power of ten. -/
theorem shortest_digits (tie : Tie) (d : Binary64) :
    0 < (d.shortest tie).digits ∨ d.shortest tie = ⟨0, 0⟩ := by
  rw [shortest]
  split
  · exact .inr rfl
  · next hd =>
    rw [Bool.not_eq_true] at hd
    cases hfound : gridPowers.findSome? (onGrid? tie d) with
    | none => exact .inr rfl
    | some decimal =>
      obtain ⟨power, -, hgrid⟩ := List.exists_of_findSome?_eq_some hfound
      exact .inl (digits_pos_of_onGrid? hd hgrid)

end Binary64

/-! ## Layouts -/

namespace Layout

open Json (IsWhole IsFraction IsExponent IsLiteral minus)
open Text (IsNumeral)

/-- Characters that are the parts of a literal without its sign. -/
def IsUnsigned (chars : List Char) : Prop :=
  ∃ whole fraction exponent, IsWhole whole ∧ IsFraction fraction ∧ IsExponent exponent ∧
    chars = whole ++ fraction ++ exponent

theorem isNumeral_append {run other : List Char} (hrun : IsNumeral run)
    (hother : ∀ c ∈ other, c.isDigit = true) : IsNumeral (run ++ other) := by
  refine ⟨List.append_ne_nil_of_left_ne_nil hrun.1 _, fun c hc => ?_⟩
  rcases List.mem_append.1 hc with hc | hc
  · exact hrun.2 c hc
  · exact hother c hc

theorem isDigit_of_mem_zeros {n : Nat} {c : Char} (hc : c ∈ List.replicate n '0') :
    c.isDigit = true := by
  obtain rfl := List.eq_of_mem_replicate hc
  rfl

/-- The digits stand so that none before the point leads with a zero. -/
theorem isUnsigned_positional {digits : List Char} {exponent : Int} (hdigits : IsNumeral digits)
    (hfirst : digits.head? ≠ some '0' ∨ (digits = ['0'] ∧ exponent = 0)) :
    IsUnsigned (positional digits exponent) := by
  cases exponent with
  | negSucc zeros =>
    refine ⟨['0'], '.' :: (List.replicate zeros '0' ++ digits), [], .inl rfl, .inr ⟨_, ?_, rfl⟩,
      .inl rfl, by simp [positional]⟩
    refine ⟨List.append_ne_nil_of_right_ne_nil _ hdigits.1, fun c hc => ?_⟩
    rcases List.mem_append.1 hc with hc | hc
    · exact isDigit_of_mem_zeros hc
    · exact hdigits.2 c hc
  | ofNat e =>
    rcases hfirst with hfirst | ⟨rfl, he⟩
    · obtain ⟨c, cs, rfl⟩ := List.exists_cons_of_ne_nil hdigits.1
      rw [positional]
      split
      · -- all digits stand before the point
        exact ⟨c :: cs ++ List.replicate (e + 1 - (c :: cs).length) '0', ['.', '0'], [],
          .inr ⟨isNumeral_append hdigits fun _ => isDigit_of_mem_zeros, hfirst⟩,
          .inr ⟨['0'], Text.isNumeral_toDigits 0, rfl⟩, .inl rfl, by simp⟩
      · next hlong =>
        have hwhole : IsNumeral ((c :: cs).take (e + 1)) :=
          ⟨by simp, fun d hd => hdigits.2 d (List.mem_of_mem_take hd)⟩
        have hfraction : IsNumeral ((c :: cs).drop (e + 1)) :=
          ⟨by rwa [Ne, List.drop_eq_nil_iff], fun d hd => hdigits.2 d (List.mem_of_mem_drop hd)⟩
        exact ⟨(c :: cs).take (e + 1), '.' :: (c :: cs).drop (e + 1), [],
          .inr ⟨hwhole, by simpa using hfirst⟩, .inr ⟨_, hfraction, rfl⟩, .inl rfl, by simp⟩
    · cases he
      exact ⟨['0'], ['.', '0'], [], .inl rfl, .inr ⟨['0'], Text.isNumeral_toDigits 0, rfl⟩,
        .inl rfl, rfl⟩

theorem isWhole_singleton {c : Char} (hc : c.isDigit = true) : IsWhole [c] := by
  by_cases hzero : c = '0'
  · exact .inl (by rw [hzero])
  · exact .inr ⟨⟨by simp, by simpa using hc⟩, by simpa using hzero⟩

theorem isExponent_scientific (signed : Bool) (exponent : Int) :
    IsExponent ('e' :: ((if exponent < 0 then ['-'] else if signed then ['+'] else []) ++
      Nat.toDigits 10 exponent.natAbs)) := by
  refine .inr ⟨_, _, ?_, Text.isNumeral_toDigits _, rfl⟩
  split
  · decide
  · split <;> decide

theorem isUnsigned_scientific {signed : Bool} {digits : List Char} {exponent : Int}
    (hdigits : IsNumeral digits) : IsUnsigned (scientific signed digits exponent) := by
  obtain ⟨hne, hdigit⟩ := hdigits
  have hexponent := isExponent_scientific signed exponent
  match digits, hne, hdigit with
  | [c], _, hdigit =>
    exact ⟨[c], [], _, isWhole_singleton (hdigit c List.mem_cons_self), .inl rfl, hexponent,
      by simp [scientific]⟩
  | c :: d :: more, _, hdigit =>
    refine ⟨[c], '.' :: d :: more, _, isWhole_singleton (hdigit c List.mem_cons_self),
      .inr ⟨d :: more, ⟨by simp, fun e he => hdigit e (List.mem_cons_of_mem c he)⟩, rfl⟩, hexponent,
      by simp [scientific]⟩

theorem isUnsigned_unsigned (layout : Layout) (d : Binary64) : IsUnsigned (layout.unsigned d) := by
  have hdigits := Text.isNumeral_toDigits (d.shortest layout.tie).digits
  rw [unsigned]
  split
  · refine isUnsigned_positional hdigits ?_
    rcases Binary64.shortest_digits layout.tie d with hpos | hzero
    · exact .inl (Text.head?_toDigits_ne_zero hpos)
    · exact .inr (by rw [hzero]; exact ⟨rfl, rfl⟩)
  · exact isUnsigned_scientific hdigits

/-- **In any layout the text of a finite double is a literal.** -/
theorem isLiteral_write (layout : Layout) {d : Binary64} (hd : d.isFinite = true) :
    IsLiteral (layout.write d) := by
  have hnan : d.isNaN = false := by
    rw [Binary64.isFinite, decide_eq_true_iff] at hd
    rw [Binary64.isNaN, decide_eq_false_iff_not]
    omega
  obtain ⟨whole, fraction, exponent, hwhole, hfraction, hexponent, hchars⟩ :=
    isUnsigned_unsigned layout d
  have hliteral := IsLiteral.intro d.isNegative hwhole hfraction hexponent
  rw [List.append_assoc, List.append_assoc, ← List.append_assoc whole, ← hchars] at hliteral
  rw [write, hnan, if_neg Bool.false_ne_true, if_pos hd]
  cases hnegative : d.isNegative with
  | true =>
    rw [hnegative] at hliteral
    exact hliteral
  | false =>
    rw [hnegative] at hliteral
    exact hliteral

end Layout

end ContentRepository
