/-
  SqlCompose.Json.Reader

  Reading a JSON text. A number without point and exponent is an integer if it
  fits into 64 bits, signed or unsigned; every other number, and negative zero,
  is the nearest floating-point number, and none if that is infinite. Escaped
  surrogates must come in pairs. `Json.parse?` gives `none` for every text that is
  not exactly one value.

  The three mutually recursive readers take a bound on their depth; twice the
  length of the text is enough, since no two of them in a row leave the text as it
  is.
-/
import SqlCompose.Json.Basic
import SqlCompose.Binary.Round

namespace SqlCompose.Json

/-! ## Numbers -/

/-- The number with the given decimal digits. -/
def ofDigits (digits : List Char) : Nat :=
  digits.foldl (fun n c => 10 * n + (c.toNat - '0'.toNat)) 0

/-- Digits after a mark, at least one. -/
def digitsAfter (cs : List Char) : Option (List Char × List Char) :=
  match cs.span Char.isDigit with
  | ([], _) => none
  | found => some found

/-- A fraction, if the text goes on with a point. -/
def readFraction : List Char → Option (Option (List Char) × List Char)
  | '.' :: rest => (digitsAfter rest).map fun (ds, after) => (some ds, after)
  | rest => some (none, rest)

/-- An exponent, if the text goes on with its mark. -/
def readExponent : List Char → Option (Option Int × List Char)
  | e :: rest =>
    if e = 'e' ∨ e = 'E' then
      match rest with
      | '-' :: ds => (digitsAfter ds).map fun (ds, after) => (some (-(ofDigits ds : Int)), after)
      | '+' :: ds => (digitsAfter ds).map fun (ds, after) => (some (ofDigits ds : Int), after)
      | ds => (digitsAfter ds).map fun (ds, after) => (some (ofDigits ds : Int), after)
    else some (none, e :: rest)
  | [] => some (none, [])

/-- The number with the given parts. -/
def ofParts (negative : Bool) (whole : List Char) (fraction : Option (List Char))
    (exponent : Option Int) : Option Number :=
  let n := ofDigits whole
  -- Negative zero is no integer: its sign would be lost.
  let integer := if fraction.isNone && exponent.isNone && !(negative && n == 0) then
      Number.ofInt? (if negative then -(n : Int) else n)
    else none
  let places := fraction.getD []
  integer.or (Number.ofDouble? (Binary.ofDecimal negative (ofDigits (whole ++ places))
    (exponent.getD 0 - places.length)))

/-- Reads a number; a leading zero stands alone. -/
def readNumber (cs : List Char) : Option (Number × List Char) := do
  let (negative, cs) := match cs with
    | '-' :: rest => (true, rest)
    | _ => (false, cs)
  let (whole, cs) ← digitsAfter cs
  -- A zero can only stand alone before the point.
  guard (whole.length = 1 ∨ whole.head? ≠ some '0')
  let (fraction, cs) ← readFraction cs
  let (exponent, cs) ← readExponent cs
  let n ← ofParts negative whole fraction exponent
  return (n, cs)

/-! ## Strings -/

/-- The value of a hexadecimal digit. -/
def hexDigit (c : Char) : Option Nat :=
  if c.isDigit then some (c.toNat - '0'.toNat)
  else if 'a' ≤ c ∧ c ≤ 'f' then some (c.toNat - 'a'.toNat + 10)
  else if 'A' ≤ c ∧ c ≤ 'F' then some (c.toNat - 'A'.toNat + 10)
  else none

/-- The number with the given hexadecimal digits. -/
def ofHexDigits (digits : List Char) : Option Nat :=
  digits.foldlM (fun n c => (hexDigit c).map (16 * n + ·)) 0

/-- The character of an escape by one letter. -/
def letterEscape (c : Char) : Option Char :=
  match c with
  | '"' | '\\' | '/' => some c
  | 'b' => some '\x08'
  | 'f' => some '\x0c'
  | 'n' => some '\n'
  | 'r' => some '\r'
  | 't' => some '\t'
  | _ => none

/-- Reads a string after its opening quote, as code points and escaped 16-bit units. -/
def readUnits : List Char → Option (List Nat × List Char)
  | [] => none
  | '"' :: rest => some ([], rest)
  | '\\' :: 'u' :: a :: b :: c :: d :: rest => do
    let unit ← ofHexDigits [a, b, c, d]
    let (units, after) ← readUnits rest
    return (unit :: units, after)
  | '\\' :: letter :: rest => do
    let c ← letterEscape letter
    let (units, after) ← readUnits rest
    return (c.toNat :: units, after)
  | c :: rest => do
    guard (0x20 ≤ c.toNat)
    let (units, after) ← readUnits rest
    return (c.toNat :: units, after)

/-- The characters of a list of code points and paired surrogates. -/
def ofUnits : List Nat → Option (List Char)
  | [] => some []
  | high :: low :: rest =>
    if 0xD800 ≤ high ∧ high < 0xDC00 then
      -- A high surrogate takes the low one behind it, and nothing else may follow it.
      if 0xDC00 ≤ low ∧ low < 0xE000 then
        (ofUnits rest).map (Char.ofNat (0x10000 + (high - 0xD800) * 0x400 + (low - 0xDC00)) :: ·)
      else none
    else if high.isValidChar then (ofUnits (low :: rest)).map (Char.ofNat high :: ·)
    else none
  | [unit] => if unit.isValidChar then some [Char.ofNat unit] else none

/-- Reads a string after its opening quote. -/
def readString (cs : List Char) : Option (String × List Char) := do
  let (units, after) ← readUnits cs
  let text ← ofUnits units
  return (String.ofList text, after)

/-! ## Values -/

/-- The text without the blanks at its start. -/
def skip (cs : List Char) : List Char :=
  cs.dropWhile fun c => c = ' ' || c = '\t' || c = '\n' || c = '\r'

/-- Reads a name that stands for itself. -/
def readName (name : String) (value : Json) (cs : List Char) : Option (Json × List Char) :=
  if name.toList.isPrefixOf cs then some (value, cs.drop name.length) else none

mutual

/-- Reads a value, the text standing at its first character. -/
def readValue : Nat → List Char → Option (Json × List Char)
  | 0, _ => none
  | bound + 1, cs =>
    match cs with
    | '[' :: rest =>
      match skip rest with
      | ']' :: after => some (.array [], after)
      | rest => (readItems bound rest).map fun (items, after) => (.array items, after)
    | '\x7b' :: rest =>
      match skip rest with
      | '\x7d' :: after => some (.object [], after)
      | rest => (readMembers bound rest).map fun (members, after) => (ofMembers members, after)
    | '"' :: rest => (readString rest).map fun (s, after) => (.string s, after)
    | 'n' :: _ => readName "null" .null cs
    | 't' :: _ => readName "true" (.bool true) cs
    | 'f' :: _ => readName "false" (.bool false) cs
    | _ => (readNumber cs).map fun (n, after) => (.number n, after)

/-- Reads the items of an array up to its closing bracket. -/
def readItems : Nat → List Char → Option (List Json × List Char)
  | 0, _ => none
  | bound + 1, cs => do
    let (item, rest) ← readValue bound cs
    match skip rest with
    | ']' :: after => return ([item], after)
    | ',' :: rest =>
      let (items, after) ← readItems bound (skip rest)
      return (item :: items, after)
    | _ => none

/-- Reads the members of an object up to its closing brace. -/
def readMembers : Nat → List Char → Option (List (String × Json) × List Char)
  | 0, _ => none
  | bound + 1, cs => do
    let '"' :: rest := cs | none
    let (key, rest) ← readString rest
    let ':' :: rest := skip rest | none
    let (value, rest) ← readValue bound (skip rest)
    match skip rest with
    | '\x7d' :: after => return ([(key, value)], after)
    | ',' :: rest =>
      let (members, after) ← readMembers bound (skip rest)
      return ((key, value) :: members, after)
    | _ => none

end

/-- The value whose text `s` is. -/
def parse? (s : String) : Option Json :=
  let cs := skip s.toList
  match readValue (2 * cs.length + 1) cs with
  | some (value, rest) => if (skip rest).isEmpty then some value else none
  | none => none

end SqlCompose.Json
