/-
  SqlCompose.Text.Escape

  Diagnostics show foreign text with escapes, so that no control or invisible
  character of it reaches a log unseen. Two forms are in use:

    * `shown s`    -- between double quotes; the double quote is escaped, and so
                      is every extending character;
    * `escaped s`  -- without quotes around it; both quotes are escaped, and an
                      extending character only where it comes first.

  In both, NUL, tab, line feed, carriage return and the backslash have short
  forms, and every other unprintable character is written by its code point.
-/
import SqlCompose.Text.Printable
import SqlCompose.Text.Extender

namespace SqlCompose.Text

/-- `c` by its code point: a backslash, `u`, and lower-case hexadecimal digits in
    braces. -/
def byCodePoint (c : Char) : List Char :=
  ['\\', 'u', '\x7b'] ++ Nat.toDigits 16 c.toNat ++ ['\x7d']

/-- The form of one character: a backslash before the characters of `marked`, the
    short forms, and the code point of what is unprintable or, if `extending`
    asks for it, extending. -/
def escapeChar (marked : List Char) (extending : Bool) (c : Char) : List Char :=
  if c = '\x00' then ['\\', '0']
  else if c = '\t' then ['\\', 't']
  else if c = '\n' then ['\\', 'n']
  else if c = '\r' then ['\\', 'r']
  else if c = '\\' ∨ c ∈ marked then ['\\', c]
  else if extending && isExtender c then byCodePoint c
  else if isPrintable c then [c]
  else byCodePoint c

/-- `s` between double quotes, with escapes. -/
def shown (s : String) : String :=
  String.ofList ('"' :: s.toList.flatMap (escapeChar ['"'] true) ++ ['"'])

/-- `s` with escapes and no quotes around it. -/
def escaped (s : String) : String :=
  match s.toList with
  | [] => ""
  | c :: cs =>
      String.ofList (escapeChar ['"', '\''] true c ++ cs.flatMap (escapeChar ['"', '\''] false))

end SqlCompose.Text
