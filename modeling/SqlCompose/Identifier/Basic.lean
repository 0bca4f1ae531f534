/-
  SqlCompose.Identifier.Basic

  SQL identifiers: parts joined by dots, each a plain word or a quoted name, as in
  `public."Odd Name".id`. `Identifier.sql` is the text of an identifier, in which a
  double quote inside a quoted name is written twice.

  `Identifier.isValid` describes the identifiers that a text can denote: at least
  one part, words that match `[A-Za-z_][A-Za-z0-9_$]*`, and quoted names that are
  not empty and hold no NUL.
-/
import SqlCompose.Text.Quoted

namespace SqlCompose

/-! ## Words -/

/-- The characters that start a word: ASCII letters and the underscore. -/
def isWordStart (c : Char) : Bool := c = '_' || c.isAlpha

/-- The characters that continue a word: ASCII letters and digits, the underscore
    and the dollar sign. -/
def isWordRest (c : Char) : Bool := c = '_' || c = '$' || c.isAlphanum

/-- Whether `cs` is a word: one starting character and then continuing ones. -/
def isWord : List Char → Bool
  | [] => false
  | c :: cs => isWordStart c && cs.all isWordRest

/-! ## Identifiers -/

namespace Identifier

/-- A part of an identifier. -/
inductive Part where
  /-- A word, written as it is. -/
  | word (text : String)
  /-- A name written between double quotes. -/
  | quoted (name : String)
deriving DecidableEq

namespace Part

/-- The text of a part. -/
def sql : Part → String
  | .word text => text
  | .quoted name => Text.quoted '"' name

/-- Whether some text denotes the part. -/
def isValid : Part → Bool
  | .word text => isWord text.toList
  | .quoted name => !name.isEmpty && !name.toList.contains '\x00'

end Part

end Identifier

/-- A SQL identifier. -/
structure Identifier where
  parts : List Identifier.Part
deriving DecidableEq

namespace Identifier

/-- The text of an identifier. -/
def sql (i : Identifier) : String := ".".intercalate (i.parts.map Part.sql)

/-- Whether some text denotes the identifier. -/
def isValid (i : Identifier) : Bool := !i.parts.isEmpty && i.parts.all Part.isValid

end Identifier

end SqlCompose
