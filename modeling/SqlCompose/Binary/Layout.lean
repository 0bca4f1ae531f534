/-
  SqlCompose.Binary.Layout

  How a decimal is laid out as text. A `Layout` records the decisions of one
  output format: which exponents are written positionally, what follows a whole
  number, and which digits win an exact tie. The library has two layouts, one
  where JSON is written and one where a value is shown as a literal.
-/
import SqlCompose.Binary.Shortest

namespace SqlCompose

/-- The decisions of an output format for numbers. -/
structure Layout where
  /-- Where an exact tie between two shortest decimals goes. -/
  tie : Tie
  /-- Whether a number whose leading digit has this exponent is written out. -/
  writtenOut : Int → Bool
  /-- What follows the digits of a number that is written out and whole. -/
  whole : String

namespace Layout

/-- Writes the digits around a decimal point, with zeros where they are needed. -/
def positional (l : Layout) (d : Decimal) : String :=
  let digits := Nat.toDigits 10 d.digits
  let point := digits.length + d.exponent
  if 0 ≤ d.exponent then
    String.ofList (digits ++ List.replicate d.exponent.toNat '0') ++ l.whole
  else if 0 < point then
    String.ofList (digits.take point.toNat ++ '.' :: digits.drop point.toNat)
  else String.ofList ('0' :: '.' :: List.replicate (-point).toNat '0' ++ digits)

/-- Writes one digit before the point, the others after it, and a signed exponent. -/
def scientific (d : Decimal) : String :=
  let digits := Nat.toDigits 10 d.digits
  let exponent := digits.length - 1 + d.exponent
  let mantissa := if digits.length = 1 then digits else digits.take 1 ++ '.' :: digits.drop 1
  let sign := if exponent < 0 then "e-" else "e+"
  String.ofList mantissa ++ sign ++ toString exponent.natAbs

/-- The text of a decimal. -/
def decimal (l : Layout) (d : Decimal) : String :=
  if l.writtenOut (Decimal.digitCount d.digits - 1 + d.exponent) then l.positional d
  else scientific d

/-- The text of a finite number: its sign and its shortest decimal. -/
def text {f : Format} (l : Layout) (x : Binary f) : String :=
  (if x.negative then "-" else "") ++ l.decimal (x.shortest l.tie)

end Layout

end SqlCompose
