/-
  SqlCompose.Binary.Basic

  Binary floating-point numbers as their bits. A `Format` fixes how many digits
  the significand has and how wide the exponent field is; `Binary f` is a bit
  pattern of that format, read as

      sign bit | exponent field | fraction

  Without its sign, a pattern is a natural number, its `code`: codes grow with
  the magnitude they stand for, `Format.infinity` is the code of infinity, and
  the codes above it are those of no number (`isNaN`). A finite pattern stands
  for `significand * 2 ^ scale`.

  Nothing here uses a floating-point operation of the machine: patterns keep
  their sign of zero and the payload of what is not a number.
-/

namespace SqlCompose

-- Powers are those of the core library, whatever else is in scope.
attribute [local instance (high)] instPowNat

/-- A binary floating-point format. -/
structure Format where
  /-- Binary digits of the significand, the leading one included. -/
  precision : Nat
  /-- Width of the exponent field. -/
  exponentBits : Nat
deriving DecidableEq

namespace Format

/-- The format of 32 bits. -/
def single : Format := ⟨24, 8⟩

/-- The format of 64 bits. -/
def double : Format := ⟨53, 11⟩

/-- Bits of a pattern: the sign, the exponent field and the fraction. -/
abbrev width (f : Format) : Nat := f.exponentBits + f.precision

/-- Number of codes that share an exponent field. -/
def fractions (f : Format) : Nat := 2 ^ (f.precision - 1)

/-- The code of infinity: an exponent field of ones and no fraction. -/
def infinity (f : Format) : Nat := (2 ^ f.exponentBits - 1) * f.fractions

/-- The exponent of the last binary digit of the smallest numbers. -/
def minScale (f : Format) : Int := 3 - 2 ^ (f.exponentBits - 1) - f.precision

end Format

/-- A floating-point number of format `f`, given by its bits. -/
structure Binary (f : Format) where
  /-- Sign, exponent field and fraction. -/
  bits : BitVec f.width
deriving DecidableEq

/-- A number of 32 bits. -/
abbrev Single := Binary Format.single

/-- A number of 64 bits. -/
abbrev Double := Binary Format.double

namespace Binary

variable {f : Format}

/-! ## Fields -/

/-- Whether the sign bit is set. -/
def negative (x : Binary f) : Bool := x.bits.msb

/-- The pattern without its sign bit. -/
def code (x : Binary f) : Nat := x.bits.toNat % 2 ^ (f.width - 1)

/-- The exponent field. -/
def exponentField (x : Binary f) : Nat := x.code / f.fractions

/-- The fraction. -/
def fraction (x : Binary f) : Nat := x.code % f.fractions

/-- The pattern with the given sign and code. -/
def ofCode (negative : Bool) (code : Nat) : Binary f :=
  ⟨BitVec.ofNat f.width (code + if negative then 2 ^ (f.width - 1) else 0)⟩

/-! ## Kinds -/

/-- Whether the pattern stands for a number other than the infinities. -/
def isFinite (x : Binary f) : Bool := x.code < f.infinity

/-- Whether the pattern stands for no number. -/
def isNaN (x : Binary f) : Bool := f.infinity < x.code

/-- Whether the pattern is a zero of either sign. -/
def isZero (x : Binary f) : Bool := x.code == 0

/-- Equality of numbers: the two zeros are equal, and what is no number equals
    nothing, itself included. -/
protected def beq (x y : Binary f) : Bool :=
  !x.isNaN && !y.isNaN && (x.bits == y.bits || (x.isZero && y.isZero))

instance : BEq (Binary f) := ⟨Binary.beq⟩

theorem beq_def (x y : Binary f) :
    (x == y) = (!x.isNaN && !y.isNaN && (x.bits == y.bits || (x.isZero && y.isZero))) := rfl

/-! ## Magnitude -/

/-- The significand as a natural number: the fraction, with its leading digit
    unless the exponent field is zero. -/
def significand (x : Binary f) : Nat :=
  if x.exponentField = 0 then x.fraction else f.fractions + x.fraction

/-- The exponent of the last digit of the significand. -/
def scale (x : Binary f) : Int := f.minScale + (x.exponentField - 1 : Nat)

/-- Whether the next smaller number is nearer than the next larger one: at a power
    of two that is not the least number with a leading digit. -/
def isNarrowBelow (x : Binary f) : Bool := x.fraction == 0 && 1 < x.exponentField

end Binary

end SqlCompose
