import ContentRepository.Number.Binary64
import Mathlib.Tactic.Ring
import Mathlib.Data.Nat.Log

/-!
# Rounding integers to doubles keeps their order

The magnitude of the double nearest to a positive integer is made of the integer's binade and of
the integer in units of the last place, rounded. Within a binade the second part does not decrease,
and from one binade to the next the first part makes up for it.

* **`Binary64.nearestMagnitude_mono`** — magnitudes of positive integers.
* **`Binary64.orderKey_ofInt_mono`** — a greater integer is rounded to no smaller double.
-/

namespace ContentRepository.Binary64

/-! ## Rounding a quotient -/

theorem le_roundHalfEven (num den : Nat) : num / den ≤ roundHalfEven num den := by
  simp only [roundHalfEven]
  split <;> omega

theorem roundHalfEven_le (num den : Nat) : roundHalfEven num den ≤ num / den + 1 := by
  simp only [roundHalfEven]
  split <;> omega

theorem roundHalfEven_one (num : Nat) : roundHalfEven num 1 = num := by
  simp [roundHalfEven, Nat.mod_one]

/-- A greater quotient is not rounded to less. -/
theorem roundHalfEven_mono {num num' den : Nat} (hle : num ≤ num') :
    roundHalfEven num den ≤ roundHalfEven num' den := by
  have hquotient : num / den ≤ num' / den := Nat.div_le_div_right hle
  rcases hquotient.lt_or_eq with hlt | heq
  · have hup := roundHalfEven_le num den
    have hdown := le_roundHalfEven num' den
    omega
  · -- with the same quotient, the greater number leaves the greater rest
    have hrest : num % den ≤ num' % den := by
      have h := Nat.div_add_mod num den
      have h' := Nat.div_add_mod num' den
      rw [← heq] at h'
      omega
    simp only [roundHalfEven, ← heq]
    split
    · next hup =>
      rw [if_pos]
      simp only [Bool.or_eq_true, decide_eq_true_eq, Bool.and_eq_true, beq_iff_eq] at hup ⊢
      omega
    · split <;> omega

theorem scaled_mono {num num' den : Nat} (power : Int) (hle : num ≤ num') :
    scaled num den power ≤ scaled num' den power := by
  cases power with
  | ofNat up => exact roundHalfEven_mono hle
  | negSucc down => exact roundHalfEven_mono (Nat.mul_le_mul_right _ hle)

/-! ## Positive integers -/

/-- The unit in the last place goes with the highest bit of an integer. -/
theorem unitExponent_one {num : Nat} (hnum : num ≠ 0) :
    unitExponent num 1 = (num.log2 : Int) - 52 := by
  have hlow : 2 ^ num.log2 ≤ num := Nat.log2_self_le hnum
  have hone : Nat.log2 1 = 0 := rfl
  simp only [unitExponent, hone, exponentWeight, Nat.one_mul, Nat.pow_eq]
  rcases Nat.lt_or_ge num.log2 52 with hsmall | hlarge
  · obtain ⟨down, hdown⟩ : ∃ down, num.log2 + (down + 1) = 52 := ⟨51 - num.log2, by omega⟩
    have hestimate : (num.log2 : Int) - (0 : Nat) - 52 = .negSucc down := by omega
    have hbinade : 2 ^ 52 ≤ num * 2 ^ (down + 1) := by
      calc 2 ^ 52 = 2 ^ num.log2 * 2 ^ (down + 1) := by rw [← Nat.pow_add, hdown]
        _ ≤ num * 2 ^ (down + 1) := Nat.mul_le_mul_right _ hlow
    rw [hestimate]
    simp only [decide_eq_false (Nat.not_lt.2 hbinade)]
    simp only [Bool.false_eq_true, if_false]
    omega
  · obtain ⟨up, hup⟩ : ∃ up, num.log2 = up + 52 := ⟨num.log2 - 52, by omega⟩
    have hestimate : (num.log2 : Int) - (0 : Nat) - 52 = .ofNat up := by
      rw [Int.ofNat_eq_natCast]
      omega
    have hbinade : 2 ^ up * 2 ^ 52 ≤ num := by
      rwa [← Nat.pow_add, ← hup]
    rw [hestimate]
    simp only [decide_eq_false (Nat.not_lt.2 hbinade)]
    simp only [Bool.false_eq_true, if_false]
    omega

/-- In units of the last place an integer has 53 bits, unless it is rounded to a power of two. -/
theorem scaled_one_bounds {num : Nat} (hnum : num ≠ 0) :
    2 ^ 52 ≤ scaled num 1 ((num.log2 : Int) - 52) ∧
      scaled num 1 ((num.log2 : Int) - 52) ≤ 2 ^ 53 := by
  have hlow : 2 ^ num.log2 ≤ num := Nat.log2_self_le hnum
  have hhigh : num < 2 ^ (num.log2 + 1) := Nat.lt_log2_self
  rcases Nat.lt_or_ge num.log2 52 with hsmall | hlarge
  · -- few digits: the number is scaled up, and nothing is rounded
    obtain ⟨down, hdown⟩ : ∃ down, num.log2 + (down + 1) = 52 := ⟨51 - num.log2, by omega⟩
    have hpower : (num.log2 : Int) - 52 = .negSucc down := by omega
    rw [hpower, scaled, roundHalfEven_one, Nat.pow_eq]
    constructor
    · calc 2 ^ 52 = 2 ^ num.log2 * 2 ^ (down + 1) := by rw [← Nat.pow_add, hdown]
        _ ≤ num * 2 ^ (down + 1) := Nat.mul_le_mul_right _ hlow
    · calc num * 2 ^ (down + 1) ≤ 2 ^ (num.log2 + 1) * 2 ^ (down + 1) :=
            Nat.mul_le_mul_right _ hhigh.le
        _ = 2 ^ 53 := by rw [← Nat.pow_add]; congr 1; omega
  · -- many digits: it is scaled down, and rounding stays between the two neighbours
    obtain ⟨up, hup⟩ : ∃ up, num.log2 = up + 52 := ⟨num.log2 - 52, by omega⟩
    have hpower : (num.log2 : Int) - 52 = .ofNat up := by
      rw [Int.ofNat_eq_natCast]
      omega
    rw [hpower, scaled, Nat.one_mul, Nat.pow_eq]
    rw [hup] at hlow hhigh
    constructor
    · refine Nat.le_trans ?_ (le_roundHalfEven num (2 ^ up))
      rw [Nat.le_div_iff_mul_le (Nat.two_pow_pos up), ← Nat.pow_add, Nat.add_comm 52 up]
      exact hlow
    · refine Nat.le_trans (roundHalfEven_le num (2 ^ up)) ?_
      rw [Nat.succ_le_iff, Nat.div_lt_iff_lt_mul (Nat.two_pow_pos up), ← Nat.pow_add]
      exact Nat.lt_of_lt_of_eq hhigh (by congr 1; omega)

theorem nearestMagnitude_one {num : Nat} (hnum : num ≠ 0) :
    nearestMagnitude num 1 = min infiniteMagnitude
      ((num.log2 + 1022) * exponentWeight + scaled num 1 ((num.log2 : Int) - 52)) := by
  have hfield : ((num.log2 : Int) - 52 + 1074).toNat = num.log2 + 1022 := by omega
  rw [nearestMagnitude, unitExponent_one hnum]
  simp only [hfield]

/-- **A greater integer has no smaller magnitude.** -/
theorem nearestMagnitude_mono {num num' : Nat} (hnum : num ≠ 0) (hle : num ≤ num') :
    nearestMagnitude num 1 ≤ nearestMagnitude num' 1 := by
  have hnum' : num' ≠ 0 := by omega
  rw [nearestMagnitude_one hnum, nearestMagnitude_one hnum']
  refine min_le_min_left infiniteMagnitude ?_
  have hbinade : num.log2 ≤ num'.log2 := by
    rw [Nat.le_log2 hnum']
    exact Nat.le_trans (Nat.log2_self_le hnum) hle
  rcases hbinade.lt_or_eq with hlt | heq
  · have hhigh := (scaled_one_bounds hnum).2
    have hlow := (scaled_one_bounds hnum').1
    have hfield : (num.log2 + 1022) * exponentWeight + exponentWeight ≤
        (num'.log2 + 1022) * exponentWeight := by
      rw [← Nat.succ_mul]
      exact Nat.mul_le_mul_right _ (by omega)
    have hweight : exponentWeight = 2 ^ 52 := rfl
    omega
  · rw [heq]
    exact Nat.add_le_add_left (scaled_mono _ hle) _

/-! ## Integers with a sign -/

/-- The magnitude of the double nearest to an integer of this size. -/
def sizeMagnitude (size : Nat) : Nat := if size = 0 then 0 else nearestMagnitude size 1

theorem sizeMagnitude_mono {size size' : Nat} (hle : size ≤ size') :
    sizeMagnitude size ≤ sizeMagnitude size' := by
  by_cases hsize : size = 0
  · rw [sizeMagnitude, if_pos hsize]
    exact Nat.zero_le _
  · rw [sizeMagnitude, sizeMagnitude, if_neg hsize, if_neg (by omega)]
    exact nearestMagnitude_mono hsize hle

theorem sizeMagnitude_lt (size : Nat) : sizeMagnitude size < signWeight := by
  have hinfinite : infiniteMagnitude < signWeight := by decide
  have hpositive : 0 < signWeight := by decide
  rw [sizeMagnitude]
  split
  · exact hpositive
  · exact Nat.lt_of_le_of_lt (Nat.min_le_left _ _) hinfinite

theorem orderKey_ofMagnitude (negative : Bool) {magnitude : Nat} (h : magnitude < signWeight) :
    (ofMagnitude negative magnitude).orderKey =
      if negative then -(magnitude : Int) - 1 else magnitude := by
  have hfits : signWeight + magnitude < UInt64.size := by
    have hweight : signWeight + signWeight = UInt64.size := rfl
    omega
  cases negative with
  | false =>
    have hbits : (ofMagnitude false magnitude).bits.toNat = magnitude :=
      UInt64.toNat_ofNat_of_lt' (Nat.lt_of_le_of_lt (Nat.le_add_left _ _) hfits)
    simp [orderKey, isNegative, Binary64.magnitude, hbits, Nat.not_le.2 h, Nat.mod_eq_of_lt h]
  | true =>
    have hbits : (ofMagnitude true magnitude).bits.toNat = signWeight + magnitude :=
      UInt64.toNat_ofNat_of_lt' hfits
    simp [orderKey, isNegative, Binary64.magnitude, hbits, Nat.mod_eq_of_lt h]

theorem orderKey_ofInt (n : Int) :
    (ofInt n).orderKey =
      if n < 0 then -(sizeMagnitude n.natAbs : Int) - 1 else sizeMagnitude n.natAbs := by
  have h := orderKey_ofMagnitude (n < 0) (sizeMagnitude_lt n.natAbs)
  simpa [ofInt, ofRatio, sizeMagnitude] using h

/-- **A greater integer is rounded to no smaller double.** -/
theorem orderKey_ofInt_mono {m n : Int} (hle : m ≤ n) :
    (ofInt m).orderKey ≤ (ofInt n).orderKey := by
  rw [orderKey_ofInt, orderKey_ofInt]
  by_cases hm : m < 0
  · by_cases hn : n < 0
    · -- among the negative ones the smaller is the larger in size
      have hsize := sizeMagnitude_mono (show n.natAbs ≤ m.natAbs by omega)
      rw [if_pos hm, if_pos hn]
      omega
    · rw [if_pos hm, if_neg hn]
      omega
  · have hsize := sizeMagnitude_mono (show m.natAbs ≤ n.natAbs by omega)
    rw [if_neg hm, if_neg (by omega)]
    omega

/-- Of two integers the one with the greater rounding is the greater. -/
theorem lt_of_orderKey_ofInt_lt {m n : Int} (hlt : (ofInt m).orderKey < (ofInt n).orderKey) :
    m < n := by
  rw [← Int.not_le]
  intro hle
  exact Int.not_le.2 hlt (orderKey_ofInt_mono hle)

/-- A double is told by its place in the order. -/
theorem eq_of_orderKey_eq {a b : Binary64} (h : a.orderKey = b.orderKey) : a = b := by
  have hweight : signWeight = 2 ^ 63 := rfl
  have ha : a.bits.toNat < 2 ^ 64 := a.bits.toNat_lt
  have hb : b.bits.toNat < 2 ^ 64 := b.bits.toNat_lt
  have hwords : a.bits.toNat = b.bits.toNat := by
    simp only [orderKey, isNegative, magnitude, decide_eq_true_eq, hweight] at h
    split at h <;> split at h <;> omega
  have hbits : a.bits = b.bits := UInt64.toNat_inj.1 hwords
  cases a
  cases b
  exact congrArg Binary64.mk hbits

end ContentRepository.Binary64
