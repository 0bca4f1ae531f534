/-
  SqlCompose.Binary.Shortest

  The shortest decimal that reads back to a given number. The reals that round
  to a finite number form an interval (`Neighbourhood`), whose ends belong to it
  exactly when the significand is even. For one, two, three, ... digits the two
  neighbours of the number on the grid of decimals with so many digits are tested
  against the interval: the first grid with a hit wins, and of two hits the nearer
  one, an exact tie going as `Tie` says.

  All comparisons are between natural numbers.
-/
import SqlCompose.Binary.Round

namespace SqlCompose

-- Powers are those of the core library, whatever else is in scope.
attribute [local instance (high)] instPowNat

/-- The decimal `digits * 10 ^ exponent`. -/
structure Decimal where
  digits : Nat
  exponent : Int
deriving DecidableEq

namespace Decimal

/-- Number of decimal digits of `n`; one for zero. -/
def digitCount (n : Nat) : Nat := (Nat.toDigits 10 n).length

/-- Moves the trailing zeros of `digits` into the exponent. -/
def strip (digits : Nat) (exponent : Int) : Decimal :=
  if digits ≠ 0 ∧ digits % 10 = 0 then strip (digits / 10) (exponent + 1)
  else ⟨digits, exponent⟩
termination_by digits
decreasing_by omega

/-- The least `k` with `num / den < 10 ^ k`, for positive `num` and `den`. -/
def leading (num den : Nat) : Int :=
  if den ≤ num then digitCount (num / den) else 1 - digitCount ((den - 1) / num)

end Decimal

/-- The positive reals that round to a number, as quotients with one denominator. -/
structure Neighbourhood where
  /-- The lower end. -/
  low : Nat
  /-- The number itself. -/
  centre : Nat
  /-- The upper end. -/
  high : Nat
  den : Nat
  /-- Whether the ends belong to it. -/
  closed : Bool

namespace Neighbourhood

/-- Whether `digits * 10 ^ exponent` belongs to the neighbourhood. -/
def contains (n : Neighbourhood) (digits : Nat) (exponent : Int) : Bool :=
  let value := digits * 10 ^ exponent.toNat * n.den
  let low := n.low * 10 ^ (-exponent).toNat
  let high := n.high * 10 ^ (-exponent).toNat
  (low < value && value < high) || (n.closed && (low == value || value == high))

/-- The multiple of `10 ^ exponent` next to the centre that belongs to the
    neighbourhood, the nearer one if both do. -/
def onGrid (n : Neighbourhood) (tie : Tie) (exponent : Int) : Option Nat :=
  let num := n.centre * 10 ^ (-exponent).toNat
  let den := n.den * 10 ^ exponent.toNat
  let below := num / den
  match n.contains below exponent, n.contains (below + 1) exponent with
  | false, false => none
  | true, false => some below
  | false, true => some (below + 1)
  | true, true => some (tie.roundQuotient num den)

end Neighbourhood

namespace Binary

variable {f : Format}

/-- The neighbourhood of the magnitude of a finite number other than zero: halfway
    to the next number on either side. -/
def neighbourhood (x : Binary f) : Neighbourhood :=
  -- A quarter of the last digit, so that the ends of the interval are whole.
  let unit := x.scale - 2
  let low := if x.isNarrowBelow then 4 * x.significand - 1 else 4 * x.significand - 2
  { low := low * 2 ^ unit.toNat
    centre := 4 * x.significand * 2 ^ unit.toNat
    high := (4 * x.significand + 2) * 2 ^ unit.toNat
    den := 2 ^ (-unit).toNat
    closed := x.significand % 2 == 0 }

/-- The most digits that a number of format `f` needs. -/
def maxDigits (f : Format) : Nat := f.precision * 30103 / 100000 + 2

/-- The shortest decimal that reads back to the magnitude of a finite number. If no
    grid had one, the exact value would be given. -/
def shortest (tie : Tie) (x : Binary f) : Decimal :=
  if x.isZero then ⟨0, 0⟩
  else
    let n := x.neighbourhood
    -- The grid `10 ^ (top - k)` is that of the decimals with `k` digits.
    let top := Decimal.leading n.centre n.den
    let found := (List.range (maxDigits f)).findSome? fun i =>
      let exponent : Int := top - (i + 1 : Nat)
      (n.onGrid tie exponent).map (Decimal.strip · exponent)
    found.getD (Decimal.strip (n.centre * 5 ^ (2 - x.scale).toNat) (min 0 (x.scale - 2)))

end Binary

end SqlCompose
