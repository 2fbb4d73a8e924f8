import ContentRepository.Number.Binary64

/-!
# The shortest decimal that reads back

Every decimal close enough to a double rounds to that double. Among those decimals
`Binary64.shortest` picks one with the fewest digits, and of these the one nearest to the double.
Where two are equally near, the caller's `Tie` decides.

The decimals that round to a double form an interval around it, its ends included exactly when the
significand is even. The search goes through the grids of multiples of `10 ^ k`, the coarsest
first. If any point of a grid lies in the interval, so does one of the two grid points next to the
double, so each grid costs two tests.
-/

namespace ContentRepository

/-- A decimal `digits * 10 ^ power`. -/
structure Decimal where
  digits : Nat
  power : Int
deriving DecidableEq

/-- Which of two equally near neighbours on a grid is taken. -/
inductive Tie where
  | up
  | toEven
deriving DecidableEq

/-- Whether a number between `below` and `below + 1` goes to the upper one. `excess` compares twice
its distance from `below` with one. -/
def Tie.roundsUp (tie : Tie) (below : Nat) (excess : Ordering) : Bool :=
  match excess, tie with
  | .lt, _ => false
  | .gt, _ => true
  | .eq, .up => true
  | .eq, .toEven => below % 2 == 1

namespace Binary64

/-- Four times the significand: the unit in which the ends of the rounding interval are integers. -/
def quarterUnits (d : Binary64) : Nat := 4 * d.significand

/-- The distance, in quarter units, down to the lower end of the rounding interval. It is half as
long below a power of two, where the doubles lie twice as dense. -/
def reachBelow (d : Binary64) : Nat :=
  if d.significand = exponentWeight ∧ d.exponent ≠ -1074 then 1 else 2

/-- Whether `decimal` rounds to the positive finite double `d`. -/
def covers (d : Binary64) (decimal : Decimal) : Bool :=
  -- both sides are brought to the common factor `2 ^ twos * 10 ^ tens`
  let twos := d.exponent - 2
  let left := decimal.digits * Nat.pow 10 decimal.power.toNat * Nat.pow 2 (-twos).toNat
  let unit := Nat.pow 2 twos.toNat * Nat.pow 10 (-decimal.power).toNat
  let low := (d.quarterUnits - d.reachBelow) * unit
  let high := (d.quarterUnits + 2) * unit
  if d.significand % 2 = 0 then low ≤ left && left ≤ high else low < left && left < high

/-- The multiple of `10 ^ power` next below the positive finite double `d`, counted in that step,
and twice what `d` exceeds it by compared with a whole step. -/
def gridBelow (d : Binary64) (power : Int) : Nat × Ordering :=
  let num := d.significand * Nat.pow 2 d.exponent.toNat * Nat.pow 10 (-power).toNat
  let den := Nat.pow 2 (-d.exponent).toNat * Nat.pow 10 power.toNat
  (num / den, compare (2 * (num % den)) den)

/-- The grid point that reads back as `d`, if the multiples of `10 ^ power` have one; of two the
nearer. -/
def onGrid? (tie : Tie) (d : Binary64) (power : Int) : Option Decimal :=
  let (below, excess) := d.gridBelow power
  let lower : Decimal := ⟨below, power⟩
  let upper : Decimal := ⟨below + 1, power⟩
  match d.covers lower, d.covers upper with
  | true, true => some (if tie.roundsUp below excess then upper else lower)
  | true, false => some lower
  | false, true => some upper
  | false, false => none

/-- The powers of ten searched: from above the largest double to below half the smallest. -/
def gridPowers : List Int := (List.range 660).map fun (k : Nat) => 310 - (k : Int)

/-- The shortest decimal that reads back as the absolute value of the finite double `d`. -/
def shortest (tie : Tie) (d : Binary64) : Decimal :=
  if d.isZero then ⟨0, 0⟩ else (gridPowers.findSome? (onGrid? tie d)).getD ⟨0, 0⟩

end Binary64

end ContentRepository
