/-
  SqlCompose.Binary.Round

  Rounding to the nearest number of a format, ties to the even one. A positive
  quotient `num / den` is scaled by the power of two that leaves as many digits
  before the point as the format has (or fewer, near zero), the scaled quotient
  is rounded to a natural number, and the code is read off: a carry out of the
  significand moves into the exponent field by itself, and everything from the
  last step on is infinity.

  The same step rounds integers (`ofInt`), decimals (`ofDecimal`) and numbers of
  another format (`convert`).
-/
import SqlCompose.Binary.Basic

namespace SqlCompose

-- Powers are those of the core library, whatever else is in scope.
attribute [local instance (high)] instPowNat

/-- Which neighbour an exact tie goes to. -/
inductive Tie where
  /-- The even one. -/
  | toEven
  /-- The larger one. -/
  | up
deriving DecidableEq

/-- `num / den` rounded to the nearest natural number. -/
def Tie.roundQuotient (tie : Tie) (num den : Nat) : Nat :=
  let quotient := num / den
  match compare (2 * (num % den)) den, tie with
  | .lt, _ => quotient
  | .gt, _ => quotient + 1
  | .eq, .up => quotient + 1
  | .eq, .toEven => quotient + quotient % 2

/-- `n * b ^ e` as a numerator and a denominator. -/
def scaled (n b : Nat) (e : Int) : Nat × Nat := (n * b ^ e.toNat, b ^ (-e).toNat)

/-- The greatest `e` with `2 ^ e ≤ num / den`, for positive `num` and `den`. -/
def binaryExponent (num den : Nat) : Int :=
  let e : Int := (num.log2 : Int) - den.log2
  if den * 2 ^ e.toNat ≤ num * 2 ^ (-e).toNat then e else e - 1

/-- The code of the number of format `f` that is nearest to `num / den`. -/
def Format.nearestCode (f : Format) (num den : Nat) : Nat :=
  if num = 0 then 0
  else
    -- Near zero the scale stops falling, and the significand has fewer digits.
    let scale := max f.minScale (binaryExponent num den - (f.precision - 1))
    let significand := Tie.toEven.roundQuotient (num * 2 ^ (-scale).toNat) (den * 2 ^ scale.toNat)
    -- The leading digit of the significand counts as one step of the exponent field, so a
    -- significand that was rounded up to the next power of two needs no case of its own.
    min f.infinity ((scale - f.minScale).toNat * f.fractions + significand)

namespace Binary

variable {f : Format}

/-- The number nearest to `num / den`, with the given sign. -/
def nearest (negative : Bool) (num den : Nat) : Binary f :=
  ofCode negative (f.nearestCode num den)

/-- The number nearest to `n`. -/
def ofInt (n : Int) : Binary f := nearest (n < 0) n.natAbs 1

/-- The number nearest to `digits * 10 ^ exponent`. Decimals beyond four hundred
    places on either side of the point are infinite, or zero, in every format of at
    most 64 bits, and are not computed. -/
def ofDecimal (negative : Bool) (digits : Nat) (exponent : Int) : Binary f :=
  let places := exponent + (Nat.toDigits 10 digits).length
  if digits = 0 ∨ places < -400 then ofCode negative 0
  else if 400 < places then ofCode negative f.infinity
  else
    let (num, den) := scaled digits 10 exponent
    nearest negative num den

/-- The number of format `g` nearest to `x`. What is no number stays none, with the
    leading digits of its fraction and the first of them set. -/
def convert (g : Format) (x : Binary f) : Binary g :=
  if x.isNaN then
    -- The fraction keeps its leading digits: it is shifted, and cut at the narrower width.
    let (num, den) := scaled x.fraction 2 ((g.precision : Int) - f.precision)
    ofCode x.negative (g.infinity + (num / den ||| g.fractions / 2))
  else if x.isFinite then
    let (num, den) := scaled x.significand 2 x.scale
    nearest x.negative num den
  else ofCode x.negative g.infinity

end Binary

end SqlCompose
