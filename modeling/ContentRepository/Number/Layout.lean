import ContentRepository.Number.Shortest

/-!
# Layouts: how the digits of a double are written

The digits of a double are the shortest that read back (`Binary64.shortest`). A `Layout` holds what
is left to a format: how a tie goes, where positional writing ends, whether a positive exponent
carries a sign, and the words for numbers that have no digits.
-/

namespace ContentRepository

/-- The decisions of one format for doubles. The exponent of a number is that of its leading
digit: `150` has exponent 2 and `0.015` has exponent -2. -/
structure Layout where
  /-- Which of two equally near digit strings is written. -/
  tie : Tie
  /-- The smallest exponent written positionally. -/
  leastPositional : Int
  /-- The largest exponent written positionally. -/
  greatestPositional : Int
  /-- Whether a positive exponent is written with a plus sign. -/
  signedExponent : Bool
  nanText : String
  infinityText : String
  negativeInfinityText : String

namespace Layout

/-- Positional writing. There is always a point with a digit on both sides. -/
def positional (digits : List Char) (exponent : Int) : List Char :=
  match exponent with
  | .negSucc zeros => '0' :: '.' :: List.replicate zeros '0' ++ digits
  | .ofNat e =>
    if digits.length ≤ e + 1 then digits ++ List.replicate (e + 1 - digits.length) '0' ++ ['.', '0']
    else digits.take (e + 1) ++ '.' :: digits.drop (e + 1)

/-- Writing with an exponent. A single digit stands without a point. -/
def scientific (signedExponent : Bool) (digits : List Char) (exponent : Int) : List Char :=
  let mantissa := match digits with
    | first :: second :: rest => first :: '.' :: second :: rest
    | short => short
  let sign := if exponent < 0 then ['-'] else if signedExponent then ['+'] else []
  mantissa ++ 'e' :: sign ++ Nat.toDigits 10 exponent.natAbs

/-- The characters of a finite double without its sign. -/
def unsigned (layout : Layout) (d : Binary64) : List Char :=
  let decimal := d.shortest layout.tie
  let digits := Nat.toDigits 10 decimal.digits
  let exponent := decimal.power + digits.length - 1
  if layout.leastPositional ≤ exponent ∧ exponent ≤ layout.greatestPositional then
    positional digits exponent
  else scientific layout.signedExponent digits exponent

/-- The text of a double. -/
def write (layout : Layout) (d : Binary64) : String :=
  if d.isNaN then layout.nanText
  else if d.isFinite then
    String.ofList (if d.isNegative then '-' :: layout.unsigned d else layout.unsigned d)
  else if d.isNegative then layout.negativeInfinityText else layout.infinityText

end Layout

end ContentRepository
