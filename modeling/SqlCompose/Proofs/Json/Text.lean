/-
  SqlCompose.Proofs.Json.Text

  Strings are read back. A character is written as it is, by a letter or by its number, and
  there is a law of the reader for each of the three. So reading what was written of a
  character gives its code point, whatever follows (`readUnits_escapeChar`). No character is
  a surrogate, so the code points are characters again (`ofUnits_toNat`), and a string is
  read to its closing quote (`readString_escaped`).
-/
import Mathlib.Data.Option.Basic
import Mathlib.Tactic.SplitIfs
import SqlCompose.Json.Reader
import SqlCompose.Json.Writer

namespace SqlCompose.Json

/-! ## Characters -/

theorem readUnits_plain {c : Char} (h_quote : c ≠ '"') (h_slash : c ≠ '\\')
    (h_printable : 0x20 ≤ c.toNat) (rest : List Char) :
    readUnits (c :: rest) = (readUnits rest).map (Prod.map (c.toNat :: ·) id) := by
  have h_guard : (guard (0x20 ≤ c.toNat) : Option Unit) = some () := if_pos h_printable
  rw [readUnits]
  · rw [h_guard]
    cases readUnits rest with
    | none => rfl
    | some found => rfl
  · exact h_quote
  · exact fun _ _ _ _ _ h => absurd h h_slash
  · exact fun _ _ h => absurd h h_slash

theorem readUnits_letter {letter c : Char} (h_letter : letterEscape letter = some c)
    (rest : List Char) :
    readUnits ('\\' :: letter :: rest) = (readUnits rest).map (Prod.map (c.toNat :: ·) id) := by
  have h_u : letter ≠ 'u' := by
    rintro rfl
    cases h_letter
  rw [readUnits]
  · rw [h_letter]
    cases readUnits rest with
    | none => rfl
    | some found => rfl
  · exact fun _ _ _ _ _ h => absurd h h_u

theorem readUnits_digits {digits : List Char} (h_four : digits.length = 4) {unit : Nat}
    (h_unit : ofHexDigits digits = some unit) (rest : List Char) :
    readUnits ('\\' :: 'u' :: (digits ++ rest))
      = (readUnits rest).map (Prod.map (unit :: ·) id) := by
  match digits, h_four with
  | [a, b, c, d], _ =>
      show readUnits ('\\' :: 'u' :: a :: b :: c :: d :: rest) = _
      rw [readUnits, h_unit]
      cases readUnits rest with
      | none => rfl
      | some found => rfl

/-- The digits of a control character are four, and they are its number. -/
theorem controlDigits_spec :
    ∀ n < 32,
      (List.replicate (4 - (Nat.toDigits 16 n).length) '0' ++ Nat.toDigits 16 n).length = 4 ∧
      ofHexDigits (List.replicate (4 - (Nat.toDigits 16 n).length) '0' ++ Nat.toDigits 16 n)
        = some n := by
  decide

/-- A character that is written is read as its code point. -/
theorem readUnits_escapeChar (c : Char) (rest : List Char) :
    readUnits (escapeChar c ++ rest) = (readUnits rest).map (Prod.map (c.toNat :: ·) id) := by
  rw [escapeChar]
  split_ifs with h_quote h_slash h_b h_t h_n h_f h_r h_control
  · rw [h_quote]
    exact readUnits_letter rfl rest
  · rw [h_slash]
    exact readUnits_letter rfl rest
  · rw [h_b]
    exact readUnits_letter rfl rest
  · rw [h_t]
    exact readUnits_letter rfl rest
  · rw [h_n]
    exact readUnits_letter rfl rest
  · rw [h_f]
    exact readUnits_letter rfl rest
  · rw [h_r]
    exact readUnits_letter rfl rest
  · obtain ⟨h_four, h_unit⟩ := controlDigits_spec c.toNat h_control
    have h_read := readUnits_digits h_four h_unit rest
    rw [← List.cons_append, ← List.cons_append] at h_read
    exact h_read
  · exact readUnits_plain h_quote h_slash (Nat.not_lt.mp h_control) rest

theorem readUnits_escaped (cs rest : List Char) :
    readUnits (cs.flatMap escapeChar ++ '"' :: rest) = some (cs.map Char.toNat, rest) := by
  induction cs with
  | nil => rfl
  | cons c cs ih =>
      rw [List.flatMap_cons, List.append_assoc, readUnits_escapeChar, ih]
      rfl

/-! ## Strings -/

/-- Code points of characters are no surrogates, and become the characters again. -/
theorem ofUnits_toNat (cs : List Char) : ofUnits (cs.map Char.toNat) = some cs := by
  induction cs with
  | nil => rfl
  | cons c cs ih =>
      have h_valid : c.toNat.isValidChar := c.valid
      cases cs with
      | nil =>
          show (if c.toNat.isValidChar then some [Char.ofNat c.toNat] else none) = _
          rw [if_pos h_valid, Char.ofNat_toNat]
      | cons d cs =>
          have h_surrogate : ¬(0xD800 ≤ c.toNat ∧ c.toNat < 0xDC00) := by
            rcases h_valid with h | h
            · omega
            · omega
          rw [List.map_cons] at ih
          rw [List.map_cons, List.map_cons, ofUnits, if_neg h_surrogate, if_pos h_valid, ih,
            Char.ofNat_toNat]
          rfl

/-- A string is read back, and reading stops behind its closing quote. -/
theorem readString_escaped (s : String) (rest : List Char) :
    readString (s.toList.flatMap escapeChar ++ '"' :: rest) = some (s, rest) := by
  rw [readString, readUnits_escaped]
  show (ofUnits (s.toList.map Char.toNat)).bind (fun text => some (String.ofList text, rest)) = _
  rw [ofUnits_toNat, Option.bind_some, String.ofList_toList]

end SqlCompose.Json
