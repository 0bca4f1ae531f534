/-
  SqlCompose.Proofs.Marker

  The characters of markers.
-/
import SqlCompose.Marker

namespace SqlCompose.MarkerStyle

theorem toList_positional (position : Nat) :
    (positional.marker position).toList = '$' :: Nat.toDigits 10 position := by
  simp [marker, Nat.toList_repr]

theorem toList_anonymous (position : Nat) : (anonymous.marker position).toList = ['?'] := by
  show "?".toList = ['?']
  decide

theorem isDigit_of_mem {position : Nat} {c : Char} (h : c ∈ Nat.toDigits 10 position) :
    c.isDigit = true := Nat.isDigit_of_mem_toDigits (by decide) (by decide) h

/-- A marker has no character but its mark and digits. -/
theorem ne_of_mem_marker {style : MarkerStyle} {position : Nat} {c d : Char}
    (h : c ∈ (style.marker position).toList) (h_mark : d ≠ '$' ∧ d ≠ '?')
    (h_digit : d.isDigit = false) : c ≠ d := by
  intro h_eq
  subst h_eq
  cases style with
  | anonymous =>
      rw [toList_anonymous] at h
      exact h_mark.2 (List.mem_singleton.mp h)
  | positional =>
      rw [toList_positional] at h
      rcases List.mem_cons.mp h with h_c | h_c
      · exact h_mark.1 h_c
      · rw [isDigit_of_mem h_c] at h_digit
        cases h_digit

theorem marker_ne_empty (style : MarkerStyle) (position : Nat) : style.marker position ≠ "" := by
  intro h
  have h_chars := congrArg String.toList h
  cases style with
  | positional =>
      rw [toList_positional] at h_chars
      cases h_chars
  | anonymous =>
      rw [toList_anonymous] at h_chars
      cases h_chars

end SqlCompose.MarkerStyle
