import ContentRepository.Json.Basic
import ContentRepository.Number.Binary64

/-!
# What the numbers of a JSON text stand for

A literal without point and exponent is an integer as long as it fits 64 bits, unsigned or, after a
minus sign, signed. Every other literal is a double. Its digits are gathered into a 64-bit integer;
digits that no longer fit are dropped, those before the point still raising the power of ten. The
integer is rounded to a double, and that is multiplied or divided by the power of ten with one more
rounding. There is no double if the result would be infinite.
-/

namespace ContentRepository.Json

/-- A number of a JSON text. -/
inductive Number where
  | integer (n : Int)
  | double (d : Binary64)

/-- The digits gathered so far: an integer of 64 bits and the power of ten that goes with it. -/
structure Gathered where
  significand : Nat
  power : Int

/-- The largest integer of 64 bits. -/
def largestSignificand : Nat := UInt64.size - 1

/-- The digits before the point. The first that does not fit is dropped with all after it. -/
def gatherWhole : Nat → List Char → Gathered
  | significand, [] => ⟨significand, 0⟩
  | significand, c :: rest =>
    let next := significand * 10 + (c.toNat - '0'.toNat)
    if next ≤ largestSignificand then gatherWhole next rest
    else ⟨significand, (c :: rest).length⟩

/-- The digits after the point. The first that does not fit is dropped with all after it. -/
def gatherFraction : Gathered → List Char → Gathered
  | g, [] => g
  | g, c :: rest =>
    let next := g.significand * 10 + (c.toNat - '0'.toNat)
    if next ≤ largestSignificand then gatherFraction ⟨next, g.power - 1⟩ rest else g

/-- The double nearest to `10 ^ power`. -/
def powerOfTen (power : Nat) : Binary64 := .ofDecimal false 1 power

/-- The greatest power of ten that a double is near to. -/
def greatestPower : Nat := 308

/-- The double divided by a power of ten, in steps no greater than `greatestPower`. -/
def dividedByPower (d : Binary64) (power : Nat) : Binary64 :=
  if d.isZero then d
  else if power ≤ greatestPower then d.div (powerOfTen power)
  else dividedByPower (d.div (powerOfTen greatestPower)) (power - greatestPower)
termination_by power
decreasing_by simp only [greatestPower] at *; omega

/-- The double that the gathered digits stand for. -/
def Gathered.toDouble? (g : Gathered) : Option Binary64 :=
  let d := Binary64.ofInt g.significand
  match g.power with
  | .negSucc down => some (dividedByPower d (down + 1))
  | .ofNat up =>
    if d.isZero then some d
    else if greatestPower < up then none
    else
      let product := d.mul (powerOfTen up)
      if product.isFinite then some product else none

/-- The parts of a literal: digits before the point, digits after it if there is one, and the
exponent if there is one. -/
def literalParts (unsigned : List Char) : List Char × Option (List Char) × Option Int :=
  let whole := unsigned.takeWhile Char.isDigit
  let rest := unsigned.dropWhile Char.isDigit
  let (fraction, rest) := match rest with
    | '.' :: rest => (some (rest.takeWhile Char.isDigit), rest.dropWhile Char.isDigit)
    | _ => (none, rest)
  let digitsValue (digits : List Char) : Int :=
    (digits.foldl (fun n c => n * 10 + (c.toNat - '0'.toNat)) 0 : Nat)
  let exponent := match rest with
    | _ :: '-' :: digits => some (-digitsValue digits)
    | _ :: '+' :: digits => some (digitsValue digits)
    | _ :: digits => some (digitsValue digits)
    | [] => none
  (whole, fraction, exponent)

/-- What a literal stands for; nothing if that would be an infinity. -/
def number? (literal : String) : Option Number :=
  let (negative, unsigned) := match literal.toList with
    | '-' :: rest => (true, rest)
    | chars => (false, chars)
  let (whole, fraction, exponent) := literalParts unsigned
  let gathered := gatherWhole 0 whole
  let signed (d : Binary64) : Number := .double (if negative then d.neg else d)
  match fraction, exponent with
  | none, none =>
    if gathered.power = 0 then
      if !negative then some (.integer gathered.significand)
      else if gathered.significand = 0 ∨ Int64.maxValue.toInt + 1 < gathered.significand then
        some (signed (Binary64.ofInt gathered.significand))
      else some (.integer (-gathered.significand))
    else gathered.toDouble?.map signed
  | _, _ =>
    let gathered := gatherFraction gathered (fraction.getD [])
    let gathered := { gathered with power := gathered.power + exponent.getD 0 }
    gathered.toDouble?.map signed

/-- The integer of 64 bits with sign that a literal stands for. -/
def long? (literal : String) : Option Int64 :=
  match number? literal with
  | some (.integer n) =>
    if Int64.minValue.toInt ≤ n ∧ n ≤ Int64.maxValue.toInt then some (Int64.ofInt n) else none
  | _ => none

/-- The double that a literal stands for; integers are rounded to the nearest one. -/
def double? (literal : String) : Option Binary64 :=
  (number? literal).map fun
    | .integer n => .ofInt n
    | .double d => d

end ContentRepository.Json
