/-!
# Binary64: double precision numbers as 64-bit words

A double is its word, so two doubles are equal as Lean values exactly when they agree bit for bit.
Everything here is exact arithmetic on natural numbers and rationals; nothing is left to the
hardware, so every function can be reasoned about.

* **`Binary64.orderKey`** places every double, the two zeros, the infinities and the NaNs included,
  on one line of integers. The total order of doubles is the order of their keys.
* **`Binary64.sameNumber`** is numeric equality: a NaN equals nothing and the two zeros are equal.
* **`Binary64.ofRatio`** rounds a quotient to the nearest double, a tie going to the even
  significand. Conversion from integers and the arithmetic below are this one rounding.
-/

namespace ContentRepository

/-- A double precision number, given by the 64 bits of its binary interchange format. -/
structure Binary64 where
  bits : UInt64
deriving DecidableEq

namespace Binary64

/-- Weight of the sign bit; words from here on are negative. -/
def signWeight : Nat := Nat.pow 2 63

/-- Weight of the exponent field: the magnitudes below are those of the subnormal numbers. -/
def exponentWeight : Nat := Nat.pow 2 52

/-- The magnitude of an infinity; larger magnitudes are NaNs. -/
def infiniteMagnitude : Nat := 2047 * exponentWeight

/-- The word without its sign bit. Magnitudes of numbers are ordered like their absolute values. -/
def magnitude (d : Binary64) : Nat := d.bits.toNat % signWeight

/-- Whether the sign bit is set. -/
def isNegative (d : Binary64) : Bool := signWeight ≤ d.bits.toNat

def isNaN (d : Binary64) : Bool := infiniteMagnitude < d.magnitude

def isFinite (d : Binary64) : Bool := d.magnitude < infiniteMagnitude

/-- Whether this is one of the two zeros. -/
def isZero (d : Binary64) : Bool := d.magnitude == 0

/-- The double with the given sign and magnitude. -/
def ofMagnitude (negative : Bool) (magnitude : Nat) : Binary64 :=
  ⟨UInt64.ofNat (if negative then signWeight + magnitude else magnitude)⟩

/-- The positive zero. -/
def zero : Binary64 := ofMagnitude false 0

/-- The position of a double in the total order: negative NaNs, negative numbers from the infinity
up, the negative zero, the positive zero, positive numbers, positive NaNs. -/
def orderKey (d : Binary64) : Int :=
  if d.isNegative then -(d.magnitude : Int) - 1 else d.magnitude

/-- The total order of doubles. -/
def compareTotal (a b : Binary64) : Ordering := compare a.orderKey b.orderKey

/-- Numeric equality: no NaN is equal to anything, and the zeros are equal to each other. -/
def sameNumber (a b : Binary64) : Bool :=
  !a.isNaN && !b.isNaN && (a.bits == b.bits || (a.isZero && b.isZero))

/-- The integer `m` of a finite double `m * 2 ^ exponent`. -/
def significand (d : Binary64) : Nat :=
  let fraction := d.magnitude % exponentWeight
  if d.magnitude < exponentWeight then fraction else exponentWeight + fraction

/-- The power of two that goes with `significand`. -/
def exponent (d : Binary64) : Int :=
  if d.magnitude < exponentWeight then -1074 else (d.magnitude / exponentWeight : Nat) - 1075

/-- The quotient rounded to the nearest integer, a tie going to the even one. -/
def roundHalfEven (num den : Nat) : Nat :=
  let quotient := num / den
  let rest := num % den
  if den < 2 * rest || (2 * rest == den && quotient % 2 == 1) then quotient + 1 else quotient

/-- `num / den` divided by `2 ^ power`, rounded to an integer. -/
def scaled (num den : Nat) (power : Int) : Nat :=
  match power with
  | .ofNat up => roundHalfEven num (den * Nat.pow 2 up)
  | .negSucc down => roundHalfEven (num * Nat.pow 2 (down + 1)) den

/-- The exponent of the unit in the last place of the doubles around `num / den`. -/
def unitExponent (num den : Nat) : Int :=
  let estimate : Int := (num.log2 : Int) - den.log2 - 52
  -- the estimate is the binade of the quotient or the one above it
  let short : Bool := match estimate with
    | .ofNat up => num < den * Nat.pow 2 up * exponentWeight
    | .negSucc down => num * Nat.pow 2 (down + 1) < den * exponentWeight
  max (-1074) (if short then estimate - 1 else estimate)

/-- The magnitude of the double nearest to the positive quotient `num / den`; a quotient beyond the
largest finite double rounds to infinity. -/
def nearestMagnitude (num den : Nat) : Nat :=
  let power := unitExponent num den
  -- carrying out of the significand moves into the exponent field, as it should
  min infiniteMagnitude ((power + 1074).toNat * exponentWeight + scaled num den power)

/-- The double nearest to `num / den`, a tie going to the even significand. -/
def ofRatio (negative : Bool) (num den : Nat) : Binary64 :=
  ofMagnitude negative (if num = 0 then 0 else nearestMagnitude num den)

/-- The double nearest to an integer. -/
def ofInt (n : Int) : Binary64 := ofRatio (n < 0) n.natAbs 1

/-- The double nearest to a rational; zero is positive. -/
def ofRat (q : Rat) : Binary64 := ofRatio (q < 0) q.num.natAbs q.den

/-- The double nearest to `digits * 10 ^ power`. -/
def ofDecimal (negative : Bool) (digits : Nat) (power : Int) : Binary64 :=
  match power with
  | .ofNat up => ofRatio negative (digits * Nat.pow 10 up) 1
  | .negSucc down => ofRatio negative digits (Nat.pow 10 (down + 1))

/-- The number a finite double stands for. -/
def toRat (d : Binary64) : Rat :=
  let size := match d.exponent with
    | .ofNat up => mkRat (d.significand * Nat.pow 2 up : Nat) 1
    | .negSucc down => mkRat d.significand (Nat.pow 2 (down + 1))
  if d.isNegative then -size else size

/-- The rounded sum of two finite doubles. -/
def add (a b : Binary64) : Binary64 := ofRat (a.toRat + b.toRat)

/-- The rounded product of two finite doubles. -/
def mul (a b : Binary64) : Binary64 := ofRat (a.toRat * b.toRat)

/-- The rounded quotient of two finite doubles, the second not zero. -/
def div (a b : Binary64) : Binary64 := ofRat (a.toRat / b.toRat)

/-- The same number with the other sign. -/
def neg (d : Binary64) : Binary64 := ofMagnitude (!d.isNegative) d.magnitude

end Binary64

end ContentRepository
