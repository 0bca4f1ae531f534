/-
  SqlCompose.Identifier.Reader

  Reading an identifier. Parts are read from left to right: a part that starts
  with a double quote runs to its closing quote, any other part runs to the next
  dot, and after a part there is either the end of the text or a dot with another
  part behind it. The first fault is the one that is reported (`Defect`).

  `Identifier.parse` is the reader with the reason put into words.
-/
import SqlCompose.Error
import SqlCompose.Identifier.Basic
import SqlCompose.Text.Escape

namespace SqlCompose.Identifier

/-! ## Faults -/

/-- Why a text is no identifier. -/
inductive Defect where
  /-- It is empty. -/
  | empty
  /-- It holds a NUL. -/
  | nul
  /-- It ends in the dot after a part. -/
  | trailingDot
  /-- A quoted part is followed by something other than a dot. -/
  | missingDot (found : Char)
  /-- A quoted part is not closed. -/
  | unclosedQuote
  /-- A quoted part has nothing between its quotes. -/
  | emptyQuoted
  /-- A word has a character where it cannot stand. -/
  | invalidCharacter (found : Char)
  /-- There is nothing where a word should be. -/
  | emptyPart
deriving DecidableEq

/-- What is said about a fault in `source`. -/
def Defect.message (source : String) : Defect → String
  | .empty => "identifier cannot be empty"
  | .nul => "'" ++ Text.escaped source ++ "' contains a NUL character"
  | .trailingDot => "trailing '.' in '" ++ source ++ "'"
  | .missingDot c =>
    "expected '.' between parts of '" ++ source ++ "', got '" ++ c.toString ++ "'"
  | .unclosedQuote => "unclosed quote in '" ++ source ++ "'"
  | .emptyQuoted => "empty quoted part in '" ++ source ++ "'"
  | .invalidCharacter c => "invalid character '" ++ c.toString ++ "' in '" ++ source ++ "'"
  | .emptyPart => "empty part in '" ++ source ++ "'"

/-! ## Parts -/

/-- Reads a quoted part after its opening quote. -/
def readName (cs : List Char) : Except Defect (Part × List Char) :=
  match Text.readQuoted '"' cs with
  | none => .error .unclosedQuote
  | some ([], _) => .error .emptyQuoted
  | some (name, rest) => .ok (.quoted (String.ofList name), rest)

/-- Reads a word, which runs up to the next dot. -/
def readWord (cs : List Char) : Except Defect (Part × List Char) :=
  match cs.takeWhile (· ≠ '.') with
  | [] => .error .emptyPart
  | c :: word =>
    if !isWordStart c then .error (.invalidCharacter c)
    else match word.find? (!isWordRest ·) with
      | some d => .error (.invalidCharacter d)
      | none => .ok (.word (String.ofList (c :: word)), cs.dropWhile (· ≠ '.'))

/-- Reads the part at the start of the text. -/
def readPart : List Char → Except Defect (Part × List Char)
  | '"' :: rest => readName rest
  | cs => readWord cs

theorem length_lt_of_readWord {cs rest : List Char} {p : Part}
    (h : readWord cs = .ok (p, rest)) : rest.length < cs.length := by
  unfold readWord at h
  split at h
  · simp at h
  · rename_i c word h_run
    split at h
    · simp at h
    · split at h
      · simp at h
      · simp only [Except.ok.injEq, Prod.mk.injEq] at h
        have h_len := congrArg List.length
          (List.takeWhile_append_dropWhile (p := (· ≠ '.')) (l := cs))
        rw [h_run, h.2] at h_len
        simp only [List.length_append, List.length_cons] at h_len
        omega

/-- A part takes at least one character. -/
theorem length_lt_of_readPart {cs rest : List Char} {p : Part}
    (h : readPart cs = .ok (p, rest)) : rest.length < cs.length := by
  unfold readPart at h
  split at h
  · unfold readName at h
    split at h
    · simp at h
    · simp at h
    · rename_i h_read
      simp only [Except.ok.injEq, Prod.mk.injEq] at h
      have := Text.length_lt_of_readQuoted h_read
      simp only [List.length_cons, ← h.2]
      omega
  · exact length_lt_of_readWord h

/-! ## Identifiers -/

/-- Reads parts joined by dots up to the end of the text. -/
def readParts (cs : List Char) : Except Defect (List Part) :=
  match _h : readPart cs with
  | .error defect => .error defect
  | .ok (part, []) => .ok [part]
  -- A dot at the very end is a fault of its own; anywhere else a part has to follow it.
  | .ok (_, ['.']) => .error .trailingDot
  | .ok (part, '.' :: rest) =>
    match readParts rest with
    | .error defect => .error defect
    | .ok parts => .ok (part :: parts)
  | .ok (_, c :: _) => .error (.missingDot c)
termination_by cs.length
decreasing_by
  have := length_lt_of_readPart _h
  simp only [List.length_cons] at this
  omega

/-- The identifier that `s` denotes, or the first fault in `s`. -/
def read (s : String) : Except Defect Identifier :=
  -- A NUL is reported before any other fault, wherever it stands.
  if s.isEmpty then .error .empty
  else if s.toList.contains '\x00' then .error .nul
  else match readParts s.toList with
    | .error defect => .error defect
    | .ok parts => .ok ⟨parts⟩

/-- The identifier that `s` denotes, or what is wrong with `s` in words. -/
def parse (s : String) : Except ComposeError Identifier :=
  match read s with
  | .error defect => .error (.invalidIdentifier (defect.message s))
  | .ok identifier => .ok identifier

end SqlCompose.Identifier
