/-
  SqlCompose.Wire.Encode

  The binary form of a parameter. An `Encoder` appends to a buffer and may be
  refused; the buffer is state of its own, so that one can ask what a refusal has
  left in it.

  Integers are held wide and narrowed to the declared type: one that does not fit
  is out of range. Both integers and floating-point numbers go into the two
  floating-point types, rounded once. Everything else is accepted by its own types
  alone.

    * `bigEndian_length`   -- an encoding of `width` bytes has `width` bytes;
    * `ofBigEndian_bigEndian` -- it reads back, up to the width.
-/
import SqlCompose.Value.Basic
import SqlCompose.Json.Writer
import SqlCompose.Wire.ColumnType

namespace SqlCompose

-- Powers are those of the core library, whatever else is in scope.
attribute [local instance (high)] instPowNat

/-! ## Bytes -/

/-- The last `width` bytes of `n`, the most significant one first. -/
def bigEndian (n : Nat) : (width : Nat) → List UInt8
  | 0 => []
  | width + 1 => UInt8.ofNat (n / 256 ^ width) :: bigEndian n width

/-- The number with the given bytes, the most significant one first. -/
def ofBigEndian (bytes : List UInt8) : Nat :=
  bytes.foldl (fun n b => 256 * n + b.toNat) 0

@[simp] theorem bigEndian_length (n width : Nat) : (bigEndian n width).length = width := by
  induction width with
  | zero => rfl
  | succ width ih => simp only [bigEndian, List.length_cons, ih]

theorem foldl_bigEndian (n width acc : Nat) :
    (bigEndian n width).foldl (fun n b => 256 * n + b.toNat) acc =
      acc * 256 ^ width + n % 256 ^ width := by
  induction width generalizing acc with
  | zero => simp [bigEndian, Nat.mod_one]
  | succ width ih =>
      simp only [bigEndian, List.foldl_cons, ih, UInt8.toNat_ofNat', Nat.reducePow]
      -- Both sides are sums over the same powers of 256; only their order differs.
      rw [Nat.pow_succ, Nat.mod_mul, Nat.add_mul]
      have : 256 * acc * 256 ^ width = acc * (256 ^ width * 256) := by
        rw [Nat.mul_comm 256 acc, Nat.mul_assoc, Nat.mul_comm 256]
      rw [this, Nat.mul_comm (256 ^ width) (n / 256 ^ width % 256)]
      omega

/-- Reading the bytes gives the number back, up to the width. -/
theorem ofBigEndian_bigEndian (n width : Nat) :
    ofBigEndian (bigEndian n width) = n % 256 ^ width := by
  rw [ofBigEndian, foldl_bigEndian]
  omega

/-! ## Encoders -/

/-- Why a value was not encoded. -/
inductive EncodeError where
  /-- An integer that the declared type cannot hold. -/
  | outOfRange
  /-- A value of a kind that the declared type does not take. -/
  | wrongType (kind : String) (ty : ColumnType)
deriving DecidableEq

/-- What is shown of an error; nothing is fixed for an integer out of range. -/
def EncodeError.message? : EncodeError → Option String
  | .outOfRange => none
  | .wrongType kind ty =>
    some ("cannot convert between the Rust type `" ++ kind ++ "` and the Postgres type `" ++
      ty.shown ++ "`")

/-- Whether a parameter is NULL, in which case it has no bytes. -/
inductive Nullness where
  | isNull
  | notNull
deriving DecidableEq

/-- A computation that appends to a buffer of bytes and may be refused. -/
abbrev Encoder := ExceptT EncodeError (StateM ByteArray)

namespace Encoder

/-- The outcome of an encoder on `buffer`, and the buffer after it. -/
def outcome (x : Encoder Nullness) (buffer : ByteArray) :
    Except EncodeError Nullness × ByteArray :=
  Id.run (StateT.run (ExceptT.run x) buffer)

/-- Appends `bytes` to the buffer. -/
def put (bytes : ByteArray) : Encoder Nullness := do
  modify (· ++ bytes)
  return .notNull

/-- Appends the last `width` bytes of `n`. -/
def putNat (n width : Nat) : Encoder Nullness := put (bigEndian n width).toByteArray

/-- Appends the bits of a floating-point number. -/
def putBinary {f : Format} (x : Binary f) : Encoder Nullness :=
  putNat x.bits.toNat (f.width / 8)

/-- Appends `n` in two's complement if it fits into `width` bytes. -/
def putInt (n : Int) (width : Nat) : Encoder Nullness :=
  let half : Int := 2 ^ (8 * width - 1)
  if -half ≤ n ∧ n < half then putNat (n % 2 ^ (8 * width)).toNat width
  else throw .outOfRange

@[simp] theorem outcome_pure (nullness : Nullness) (buffer : ByteArray) :
    (pure nullness : Encoder Nullness).outcome buffer = (.ok nullness, buffer) := rfl

/-- A refusal leaves the buffer as it is. -/
@[simp] theorem outcome_throw (error : EncodeError) (buffer : ByteArray) :
    (throw error : Encoder Nullness).outcome buffer = (.error error, buffer) := rfl

@[simp] theorem outcome_put (bytes buffer : ByteArray) :
    (put bytes).outcome buffer = (.ok .notNull, buffer ++ bytes) := rfl

end Encoder

namespace Value

/-- The name of the kind of a value in a type error. -/
def kindName : Value → String
  | .null => "null"
  | .bool _ => "bool"
  | .int _ => "i64"
  | .float _ => "f64"
  | .text _ => "alloc::string::String"
  | .json _ => "serde_json::value::Value"

/-- Encodes a value as a parameter of type `ty`. -/
def encode (ty : ColumnType) (v : Value) : Encoder Nullness :=
  let refuse : Encoder Nullness := throw (.wrongType v.kindName ty)
  match v with
  | .null => return .isNull
  | .bool b =>
    if ty = .builtin "bool" then Encoder.putNat b.toNat 1 else refuse
  | .int n =>
    if ty = .builtin "int2" then Encoder.putInt n.toInt 2
    else if ty = .builtin "int4" then Encoder.putInt n.toInt 4
    else if ty = .builtin "int8" then Encoder.putInt n.toInt 8
    else if ty = .builtin "float4" then Encoder.putBinary (Binary.ofInt n.toInt : Single)
    else if ty = .builtin "float8" then Encoder.putBinary (Binary.ofInt n.toInt : Double)
    else refuse
  | .float x =>
    if ty = .builtin "float4" then Encoder.putBinary (x.convert Format.single)
    else if ty = .builtin "float8" then Encoder.putBinary x
    else refuse
  | .text s =>
    if !ty.takesText then refuse
    else
      -- The binary form of a label path starts with the version of the form, which is one.
      let version : List UInt8 := if ColumnType.labelPathNames.contains ty.name then [1] else []
      Encoder.put (version.toByteArray ++ s.toUTF8)
  | .json j =>
    if !ty.takesJson then refuse
    else
      let version : List UInt8 := if ty = .builtin "jsonb" then [1] else []
      Encoder.put (version.toByteArray ++ j.compact.toUTF8)

end Value

end SqlCompose
