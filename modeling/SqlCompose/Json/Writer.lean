/-
  SqlCompose.Json.Writer

  The compact text of a JSON value: no blanks, and members in the order in which
  the value has them. Of the characters of a string, the double quote, the
  backslash and those below U+0020 are escaped, the common ones by a letter.

  Numbers with a point are written with the fewest digits that read back, written
  out as long as the exponent of the leading digit is between -5 and 15.
-/
import SqlCompose.Json.Basic
import SqlCompose.Binary.Layout

namespace SqlCompose.Json

/-! ## Strings -/

/-- The character as it stands in a string. -/
def escapeChar (c : Char) : List Char :=
  if c = '"' then ['\\', '"']
  else if c = '\\' then ['\\', '\\']
  else if c = '\x08' then ['\\', 'b']
  else if c = '\t' then ['\\', 't']
  else if c = '\n' then ['\\', 'n']
  else if c = '\x0c' then ['\\', 'f']
  else if c = '\r' then ['\\', 'r']
  else if c.toNat < 0x20 then
    let digits := Nat.toDigits 16 c.toNat
    ['\\', 'u'] ++ List.replicate (4 - digits.length) '0' ++ digits
  else [c]

/-- The text of a string, between double quotes. -/
def stringText (s : String) : String :=
  String.ofList ('"' :: s.toList.flatMap escapeChar ++ ['"'])

/-! ## Numbers -/

/-- Numbers are written out from 0.00001 up to sixteen digits before the point, a
    whole one with `.0`; of two shortest decimals equally near, the even one is
    written. -/
def layout : Layout where
  tie := .toEven
  writtenOut exponent := -5 ≤ exponent && exponent ≤ 15
  whole := ".0"

/-- The text of a number. -/
def numberText : Number → String
  | .whole n _ => toString n
  | .real x _ => layout.text x

/-! ## Values -/

mutual

/-- The compact text of a value. -/
def compact : Json → String
  | .null => "null"
  | .bool b => if b then "true" else "false"
  | .number n => numberText n
  | .string s => stringText s
  | .array items => "[" ++ ",".intercalate (compactItems items) ++ "]"
  | .object members => "\x7b" ++ ",".intercalate (compactMembers members) ++ "\x7d"

/-- The compact texts of the items of an array. -/
def compactItems : List Json → List String
  | [] => []
  | x :: xs => x.compact :: compactItems xs

/-- The compact texts of the members of an object. -/
def compactMembers : List (String × Json) → List String
  | [] => []
  | (key, x) :: ms => (stringText key ++ ":" ++ x.compact) :: compactMembers ms

end

end SqlCompose.Json
