/-
  SqlCompose.Text.CodePoints

  Sets of characters given as ascending closed ranges of code points. The tables
  of character properties (`Text.Blank`, `Text.Printable`, `Text.Extender`) are
  such sets, and `CodePoints.contains` is the only question asked of them.
-/

namespace SqlCompose.Text

/-- A set of characters: closed ranges of code points, in ascending order. -/
abbrev CodePoints := List (Nat × Nat)

/-- Whether `c` lies in one of the ranges. -/
def CodePoints.contains (set : CodePoints) (c : Char) : Bool :=
  set.any fun (lo, hi) => lo ≤ c.toNat && c.toNat ≤ hi

/-- Membership is membership in some range. -/
theorem CodePoints.contains_iff {set : CodePoints} {c : Char} :
    set.contains c = true ↔ ∃ r ∈ set, r.1 ≤ c.toNat ∧ c.toNat ≤ r.2 := by
  simp only [CodePoints.contains, List.any_eq_true, Bool.and_eq_true, decide_eq_true_eq]

end SqlCompose.Text
