import ContentRepository.Document.Lemmas
import ContentRepository.Proofs.Value.Ordering
import ContentRepository.Query.Expression

/-!
# Comparisons and equality

A field is compared with a value in six ways. Two of them ask whether the contents are equal, the
other four how they are ordered. These are different notions, each with its own definition, but
among scalars of one variant they fit together, for the order has no ties: just one value is neither
less nor greater than a given one, and it is the equal one. Doubles alone are equal as numbers. A
NaN is not even equal to itself, and the two zeros are equal while the order puts the negative one
first.

* **`Value.Alike`** — scalars of one variant; **`Value.compareScalar?_of_alike`** — they are ordered
  by the total order.
* **`Value.equals_iff_of_alike`** — which of them are equal.
* **`Query.Coherent`** — the six comparisons fit together; **`Query.comparisons_of_alike`** — so
  they do, except between the two zeros.
-/

namespace ContentRepository

/-! ## Zeros -/

namespace Binary64

/-- The negative zero. -/
def negativeZero : Binary64 := ofMagnitude true 0

/-- There are two zeros. -/
theorem eq_of_isZero {d : Binary64} (h : d.isZero = true) : d = zero ∨ d = negativeZero := by
  have hmagnitude : d.magnitude = 0 := by simpa [isZero] using h
  cases hsign : d.isNegative with
  | false =>
    refine .inl (eq_of_orderKey_eq ?_)
    rw [orderKey, hsign, hmagnitude]
    rfl
  | true =>
    refine .inr (eq_of_orderKey_eq ?_)
    rw [orderKey, hsign, hmagnitude]
    rfl

/-- Numbers are equal when their words are, and the zeros are equal. -/
theorem sameNumber_iff {c d : Binary64} (hc : c.isNaN = false) (hd : d.isNaN = false) :
    c.sameNumber d = true ↔
      c = d ∨ c = negativeZero ∧ d = zero ∨ c = zero ∧ d = negativeZero := by
  constructor
  · intro hsame
    simp only [sameNumber, hc, hd, Bool.not_false, Bool.true_and, Bool.or_eq_true, beq_iff_eq,
      Bool.and_eq_true] at hsame
    obtain hbits | ⟨hcz, hdz⟩ := hsame
    · cases c
      cases d
      exact .inl (congrArg mk hbits)
    · obtain rfl | rfl := eq_of_isZero hcz <;> obtain rfl | rfl := eq_of_isZero hdz <;> simp
  · rintro (rfl | ⟨rfl, rfl⟩ | ⟨rfl, rfl⟩)
    · simp [sameNumber, hc]
    · rfl
    · rfl

end Binary64

namespace Value

def positiveZero : Value := .double .zero

def negativeZero : Value := .double .negativeZero

/-- One of them is the positive zero and the other the negative one. -/
def OppositeZeros (a b : Value) : Prop :=
  a = negativeZero ∧ b = positiveZero ∨ a = positiveZero ∧ b = negativeZero

def isNaN : Value → Bool
  | .double d => d.isNaN
  | _ => false

/-! ## Scalars of one variant -/

/-- Scalars of one variant. Unlike in a kind, integers and doubles are apart. -/
inductive Alike : Value → Value → Prop
  | boolean (a b : Bool) : Alike (.boolean a) (.boolean b)
  | long (m n : Int64) : Alike (.long m) (.long n)
  | double (c d : Binary64) : Alike (.double c) (.double d)
  | string (s t : String) : Alike (.string s) (.string t)
  | reference (s t : String) : Alike (.reference s) (.reference t)
  | date (s t : Instant) : Alike (.date s) (.date t)

variable {a b : Value}

/-- Rounding plays no part within a variant, so scalars are ordered as all values are. -/
theorem compareScalar?_of_alike (h : Alike a b) :
    compareScalar? a b = some (compareTotal a b) := by
  cases h <;> rfl

/-- **Equal is what is the same**, but for the zeros. -/
theorem equals_iff_of_alike (h : Alike a b) (ha : a.isNaN = false) (hb : b.isNaN = false) :
    a.equals b = true ↔ a = b ∨ a.OppositeZeros b := by
  cases h with
  | double c d =>
    rw [equals, Binary64.sameNumber_iff ha hb]
    simp [OppositeZeros, positiveZero, negativeZero]
  | _ => simp [equals, OppositeZeros, positiveZero, negativeZero]

end Value

namespace Query

open Expression (related)

variable {d : Document} {field : String} {x v : Value}

/-! ## The six comparisons -/

theorem Expression.holds_compares (hx : d.get? field = some x) (relation : Relation) (v : Value) :
    (compares field relation v).holds d = related x relation v := by
  rw [holds, hx]
  rfl

theorem Expression.related_of_isOrder {relation : Relation} (h : relation.isOrder = true)
    (x v : Value) : related x relation v = (x.compareScalar? v).any relation.accepts := by
  cases relation with
  | eq | ne => cases h
  | _ => rfl

/-- The comparisons of a field with a value fit together. -/
structure Coherent (d : Document) (field : String) (v : Value) : Prop where
  /-- It is less, equal or greater. -/
  one : ∃! relation, relation ∈ [Relation.lt, .eq, .gt] ∧
    (Expression.compares field relation v).holds d = true
  le_iff : (Expression.compares field .le v).holds d = true ↔
    (Expression.compares field .lt v).holds d = true ∨
      (Expression.compares field .eq v).holds d = true
  ge_iff : (Expression.compares field .ge v).holds d = true ↔
    (Expression.compares field .gt v).holds d = true ∨
      (Expression.compares field .eq v).holds d = true
  ne_iff : (Expression.compares field .ne v).holds d = true ↔
    (Expression.compares field .lt v).holds d = true ∨
      (Expression.compares field .gt v).holds d = true

/-- Comparisons fit together that all go by one outcome. -/
theorem Coherent.of_accepts {o : Ordering}
    (h : ∀ relation, (Expression.compares field relation v).holds d = relation.accepts o) :
    Coherent d field v := by
  refine ⟨?_, ?_, ?_, ?_⟩
  · simp only [h]
    cases o with
    | lt => exact ⟨.lt, by decide, by rintro (_ | _ | _ | _ | _ | _) <;> decide⟩
    | eq => exact ⟨.eq, by decide, by rintro (_ | _ | _ | _ | _ | _) <;> decide⟩
    | gt => exact ⟨.gt, by decide, by rintro (_ | _ | _ | _ | _ | _) <;> decide⟩
  all_goals
    simp only [h]
    cases o <;> decide

/-- Between scalars of one variant every comparison goes by the total order, but for the zeros. -/
theorem related_of_alike (halike : x.Alike v) (hx : x.isNaN = false) (hv : v.isNaN = false)
    (hzeros : ¬ x.OppositeZeros v) (relation : Relation) :
    related x relation v = relation.accepts (x.compareTotal v) := by
  have hequals : x.equals v = (x.compareTotal v == .eq) := by
    rw [Bool.eq_iff_iff, Value.equals_iff_of_alike halike hx hv, or_iff_left hzeros, beq_iff_eq,
      Std.LawfulEqCmp.compare_eq_iff_eq]
  cases relation with
  | eq => exact hequals
  | ne =>
    rw [related, hequals]
    rfl
  | _ =>
    rw [Expression.related_of_isOrder rfl, Value.compareScalar?_of_alike halike]
    rfl

/-- **Comparing a field with a scalar of the variant it holds, neither of them a NaN.**

* The comparisons fit together, unless the two are the zeros.
* Of the zeros, the negative one equals the positive one and is less, and the positive one equals
  the negative one and is greater. -/
theorem comparisons_of_alike (hx : d.get? field = some x) (halike : x.Alike v)
    (hxn : x.isNaN = false) (hvn : v.isNaN = false) :
    (¬ x.OppositeZeros v → Coherent d field v) ∧
      (x = .negativeZero → v = .positiveZero → ∀ relation,
        (Expression.compares field relation v).holds d = true ↔ relation ∈ [.eq, .lt, .le]) ∧
      (x = .positiveZero → v = .negativeZero → ∀ relation,
        (Expression.compares field relation v).holds d = true ↔ relation ∈ [.eq, .gt, .ge]) := by
  refine ⟨fun hzeros => ?_, ?_, ?_⟩
  · refine .of_accepts (o := x.compareTotal v) fun relation => ?_
    rw [Expression.holds_compares hx, related_of_alike halike hxn hvn hzeros]
  · rintro rfl rfl relation
    rw [Expression.holds_compares hx]
    cases relation <;> decide
  · rintro rfl rfl relation
    rw [Expression.holds_compares hx]
    cases relation <;> decide

/-- The negative zero is less than the positive one, and equal to it. -/
theorem comparisons_of_negativeZero :
    let d := (Document.withId "a").set "weight" .negativeZero
    d.get? "weight" = some .negativeZero ∧
      Value.negativeZero.Alike .positiveZero ∧
      Value.negativeZero.isNaN = false ∧ Value.positiveZero.isNaN = false ∧
      ∀ relation, (Expression.compares "weight" relation .positiveZero).holds d = true ↔
        relation ∈ [.eq, .lt, .le] := by
  intro d
  have hweight : d.get? "weight" = some .negativeZero := by
    rw [Document.get?_set, if_pos rfl]
  have halike : Value.negativeZero.Alike .positiveZero := .double _ _
  have hpositive : Value.positiveZero.isNaN = false := rfl
  obtain ⟨-, hnegative, -⟩ := comparisons_of_alike hweight halike rfl hpositive
  exact ⟨hweight, halike, rfl, hpositive, hnegative rfl rfl⟩

/-- So the comparisons do not fit together in all cases. -/
theorem zeros_not_coherent :
    ¬ ∀ (d : Document) (field : String) (x v : Value), d.get? field = some x → x.Alike v →
      x.isNaN = false → v.isNaN = false → Coherent d field v := by
  intro hcoherent
  have hweight : ((Document.withId "a").set "weight" .negativeZero).get? "weight" =
      some .negativeZero := by
    rw [Document.get?_set, if_pos rfl]
  have hfit := hcoherent _ _ _ .positiveZero hweight (.double _ _) rfl rfl
  have hlt : Expression.related .negativeZero .lt .positiveZero = true := by decide
  have heq : Expression.related .negativeZero .eq .positiveZero = true := by decide
  -- two of the three hold at once
  have hboth := hfit.one.unique ⟨by simp, (Expression.holds_compares hweight .lt _).trans hlt⟩
    ⟨by simp, (Expression.holds_compares hweight .eq _).trans heq⟩
  cases hboth

end Query

end ContentRepository
