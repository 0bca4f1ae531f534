/-
  SqlCompose.Value.Basic

  Values, the only things that are ever bound to a marker. A value is what a
  column can hold: NULL, a truth value, a 64-bit integer, a floating-point number,
  text, or a JSON document. That a value is *absent* is never said with a value;
  where it can be absent there is an `Option Value`.

    * `Value.ofJson`  -- JSON scalars as values of their own kind;
    * `Value.toJson`  -- the JSON form of a value.
-/
import SqlCompose.Json.Basic
import SqlCompose.Binary.Round

namespace SqlCompose

-- Powers are those of the core library, whatever else is in scope.
attribute [local instance (high)] instPowNat

/-- A value that can be bound. -/
inductive Value where
  | null
  | bool (b : Bool)
  | int (n : Int64)
  | float (x : Double)
  | text (s : String)
  | json (j : Json)

namespace Value

/-- Values of different kinds are never equal; numbers are compared as numbers. -/
protected def beq : Value → Value → Bool
  | .null, .null => true
  | .bool a, .bool b => a == b
  | .int m, .int n => m == n
  | .float x, .float y => x == y
  | .text s, .text t => s == t
  | .json i, .json j => i == j
  | _, _ => false

instance : BEq Value := ⟨Value.beq⟩

/-- Whether the value is NULL. -/
def isNull : Value → Bool
  | .null => true
  | _ => false

/-- The text of a text value. -/
def text? : Value → Option String
  | .text s => some s
  | _ => none

/-! ## JSON -/

/-- A number as a value: an integer if it is a signed one of 64 bits, else the
    nearest floating-point number. -/
def ofNumber : Number → Value
  | .whole n _ => if n < 2 ^ (63 : Nat) then .int (Int64.ofInt n) else .float (Binary.ofInt n)
  | .real x _ => .float x

/-- A JSON scalar as a value of its own kind; arrays and objects stay JSON. -/
def ofJson : Json → Value
  | .null => .null
  | .bool b => .bool b
  | .number n => ofNumber n
  | .string s => .text s
  | j => .json j

/-- The JSON form of a value. JSON has no form for the infinities and for what is
    no number; they become null. -/
def toJson : Value → Json
  | .null => .null
  | .bool b => .bool b
  | .int n =>
    .number (.whole n.toInt ⟨n.le_toInt, Int.lt_trans n.toInt_lt (by decide)⟩)
  | .float x => if h : x.isFinite = true then .number (.real x h) else .null
  | .text s => .string s
  | .json j => j

end Value

end SqlCompose
