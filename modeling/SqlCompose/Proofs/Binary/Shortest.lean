/-
  SqlCompose.Proofs.Binary.Shortest

  The shortest decimal of a number is read as the number. What `contains` tests is that a
  decimal is near the number (`isNear_of_contains`); whatever the search comes up with has
  passed the test, or is the number itself (`isNear_shortest`). How the decimal is written
  does not matter, only what it stands for (`ofDecimal_of_value`).
-/
import Mathlib.Tactic.FieldSimp
import SqlCompose.Proofs.Binary.Nearest

namespace SqlCompose

-- Powers are those of the core library, whatever else is in scope.
attribute [local instance (high)] instPowNat

/-! ## Decimals -/

namespace Decimal

/-- What a decimal stands for. -/
def value (d : Decimal) : ℚ := d.digits * 10 ^ d.exponent

theorem value_strip (digits : Nat) (exponent : ℤ) :
    (strip digits exponent).value = digits * 10 ^ exponent := by
  induction digits, exponent using strip.induct with
  | case1 digits exponent h ih =>
      rw [strip, if_pos h, ih, zpow_add_one₀ (by norm_num)]
      have h_ten : digits = 10 * (digits / 10) := by omega
      have h_cast : (digits : ℚ) = 10 * ((digits / 10 : Nat) : ℚ) := by exact_mod_cast h_ten
      rw [h_cast]
      ring
  | case2 digits exponent h =>
      rw [strip, if_neg h]
      rfl

end Decimal

/-! ## Neighbourhoods -/

/-- Rounding a quotient gives one of the two natural numbers around it. -/
theorem Tie.roundQuotient_eq_or (tie : Tie) (num den : Nat) :
    tie.roundQuotient num den = num / den ∨ tie.roundQuotient num den = num / den + 1 := by
  cases h : compare (2 * (num % den)) den with
  | lt => simp only [roundQuotient, h, true_or]
  | gt => simp only [roundQuotient, h, or_true]
  | eq =>
      cases tie with
      | up => simp only [roundQuotient, h, or_true]
      | toEven =>
          simp only [roundQuotient, h]
          omega

namespace Neighbourhood

theorem contains_onGrid {n : Neighbourhood} {tie : Tie} {exponent : ℤ} {digits : Nat}
    (h : n.onGrid tie exponent = some digits) : n.contains digits exponent = true := by
  rw [onGrid] at h
  split at h
  · cases h
  · rename_i h_below h_above
    cases h
    exact h_below
  · rename_i h_below h_above
    cases h
    exact h_above
  · rename_i h_below h_above
    cases h
    rcases tie.roundQuotient_eq_or (n.centre * 10 ^ (-exponent).toNat)
      (n.den * 10 ^ exponent.toNat) with h_eq | h_eq
    · rw [h_eq]
      exact h_below
    · rw [h_eq]
      exact h_above

/-- A decimal is in a neighbourhood if it is between the ends, or one of them if they
    belong to it. -/
theorem contains_iff {n : Neighbourhood} (h_den : 0 < n.den) (digits : Nat) (exponent : ℤ) :
    n.contains digits exponent = true ↔
      ((n.low : ℚ) / n.den < digits * 10 ^ exponent ∧
        (digits : ℚ) * 10 ^ exponent < n.high / n.den) ∨
      (n.closed = true ∧ ((n.low : ℚ) / n.den = digits * 10 ^ exponent ∨
        (digits : ℚ) * 10 ^ exponent = n.high / n.den)) := by
  have h_pos : (0 : ℚ) < n.den := Nat.cast_pos.mpr h_den
  have h_power : (0 : ℚ) < ((10 ^ (-exponent).toNat : Nat) : ℚ) :=
    Nat.cast_pos.mpr (Nat.pow_pos (by decide))
  have h_value : (digits : ℚ) * 10 ^ exponent
      = ((digits * 10 ^ exponent.toNat : Nat) : ℚ) / ((10 ^ (-exponent).toNat : Nat) : ℚ) := by
    have h_ten := zpow_eq_div 10 exponent
    rw [Nat.cast_ofNat] at h_ten
    rw [h_ten, Nat.cast_mul, mul_div_assoc]
  -- Products of natural numbers are compared as the quotients that they come from.
  rw [h_value, div_lt_div_iff₀ h_pos h_power, div_lt_div_iff₀ h_power h_pos,
    div_eq_div_iff h_pos.ne' h_power.ne', div_eq_div_iff h_power.ne' h_pos.ne']
  simp only [contains, Bool.or_eq_true, Bool.and_eq_true, decide_eq_true_eq, beq_iff_eq]
  norm_cast

end Neighbourhood

/-! ## The search -/

namespace Binary

theorem significand_pos {x : Double} (h_finite : x.isFinite = true) (h_zero : x.code ≠ 0) :
    0 < x.significand := by
  obtain ⟨k, -, -, h_code, -, h_full, -⟩ := exists_scale h_finite
  omega

/-- A quarter of the last digit as a quotient. -/
theorem quarter_mul (n : Nat) (scale : ℤ) :
    ((n * 2 ^ (scale - 2).toNat : Nat) : ℚ) / ((2 ^ (-(scale - 2)).toNat : Nat) : ℚ)
      = n / 4 * 2 ^ scale := by
  rw [Nat.cast_mul, mul_div_assoc, ← two_zpow_eq_div, zpow_sub₀ two_ne_zero]
  ring

/-- A decimal in the neighbourhood of a number is near it. -/
theorem isNear_of_contains {x : Double} (h_some : 0 < x.significand) {digits : Nat}
    {exponent : ℤ} (h : x.neighbourhood.contains digits exponent = true) :
    x.IsNear (digits * 10 ^ exponent) := by
  have h_low : (x.neighbourhood.low : ℚ) / x.neighbourhood.den
      = (x.significand - x.below) * 2 ^ x.scale := by
    rw [neighbourhood, quarter_mul, below]
    cases x.isNarrowBelow with
    | true =>
        rw [if_pos rfl, if_pos rfl, Nat.cast_sub (by omega)]
        push_cast
        ring
    | false =>
        rw [if_neg Bool.false_ne_true, if_neg Bool.false_ne_true, Nat.cast_sub (by omega)]
        push_cast
        ring
  have h_high : (x.neighbourhood.high : ℚ) / x.neighbourhood.den
      = (x.significand + 1 / 2) * 2 ^ x.scale := by
    rw [neighbourhood, quarter_mul]
    push_cast
    ring
  have h_closed : x.neighbourhood.closed = true ↔ x.significand % 2 = 0 := by
    rw [neighbourhood, beq_iff_eq]
  have h_ends : (x.significand - x.below) * 2 ^ x.scale
      < (x.significand + 1 / 2 : ℚ) * 2 ^ x.scale :=
    mul_lt_mul_of_pos_right (by linarith [x.below_pos]) (two_zpow_pos _)
  rw [Neighbourhood.contains_iff (Nat.two_pow_pos _), h_low, h_high, h_closed] at h
  rcases h with ⟨h_above, h_under⟩ | ⟨h_even, h_end⟩
  · refine ⟨h_above.le, h_under.le, ?_⟩
    rintro (h_eq | h_eq)
    · exact absurd h_eq h_above.ne'
    · exact absurd h_eq h_under.ne
  · rcases h_end with h_eq | h_eq
    · exact ⟨h_eq.le, (h_eq ▸ h_ends).le, fun _ => h_even⟩
    · exact ⟨(h_eq ▸ h_ends).le, h_eq.le, fun _ => h_even⟩

/-- Without a hit the search gives the number itself. -/
theorem value_exact (x : Double) :
    (Decimal.strip (x.neighbourhood.centre * 5 ^ (2 - x.scale).toNat)
        (min 0 (x.scale - 2))).value = x.significand * 2 ^ x.scale := by
  obtain ⟨u, h_u⟩ : ∃ u : ℤ, x.scale = u + 2 := ⟨x.scale - 2, (Int.sub_add_cancel _ _).symm⟩
  have h_back : 2 - (u + 2) = -u := by omega
  rw [Decimal.value_strip, neighbourhood, h_u, Int.add_sub_cancel, h_back,
    zpow_add₀ two_ne_zero]
  dsimp only
  -- One of the two powers is one: the digits of the number are whole, or tenths of such.
  obtain ⟨n, rfl | rfl⟩ := u.eq_nat_or_neg
  · rw [Int.toNat_natCast, Int.toNat_neg_natCast, min_eq_left (Int.natCast_nonneg n),
      zpow_natCast, zpow_zero]
    push_cast
    ring
  · rw [neg_neg, Int.toNat_natCast, Int.toNat_neg_natCast, min_eq_right (by omega), zpow_neg,
      zpow_natCast, zpow_neg, zpow_natCast, show (10 : ℚ) = 5 * 2 by norm_num, mul_pow]
    push_cast
    field_simp

/-- The shortest decimal is near the number. -/
theorem isNear_shortest {x : Double} (h_finite : x.isFinite = true) (h_zero : x.code ≠ 0)
    (tie : Tie) : x.IsNear (x.shortest tie).value := by
  have h_some := significand_pos h_finite h_zero
  have h_nonzero : ¬x.isZero = true := by
    rw [isZero, beq_iff_eq]
    exact h_zero
  rw [shortest, if_neg h_nonzero]
  dsimp only
  cases h_found : (List.range (maxDigits Format.double)).findSome? fun i =>
      (x.neighbourhood.onGrid tie (Decimal.leading x.neighbourhood.centre x.neighbourhood.den -
        ((i + 1 : Nat) : ℤ))).map (Decimal.strip ·
          (Decimal.leading x.neighbourhood.centre x.neighbourhood.den - ((i + 1 : Nat) : ℤ))) with
  | none =>
      rw [Option.getD_none, value_exact]
      exact x.isNear_self
  | some d =>
      obtain ⟨i, -, h_i⟩ := List.exists_of_findSome?_eq_some h_found
      obtain ⟨digits, h_digits, rfl⟩ := Option.map_eq_some_iff.mp h_i
      rw [Option.getD_some, Decimal.value_strip]
      exact isNear_of_contains h_some (Neighbourhood.contains_onGrid h_digits)

theorem shortest_of_zero {x : Double} (h : x.code = 0) (tie : Tie) : x.shortest tie = ⟨0, 0⟩ := by
  have h_isZero : x.isZero = true := by rw [isZero, h, beq_self_eq_true]
  rw [shortest, if_pos h_isZero]

/-- Zero has no exponent. -/
theorem exponent_shortest {x : Double} (h_finite : x.isFinite = true) (tie : Tie)
    (h : (x.shortest tie).digits = 0) : (x.shortest tie).exponent = 0 := by
  by_cases h_zero : x.code = 0
  · rw [shortest_of_zero h_zero]
  · -- No number but zero has zero near it.
    have h_near := isNear_shortest h_finite h_zero tie
    have h_lower := (h_near.bounds h_finite h_zero).1
    rw [Decimal.value, h, Nat.cast_zero, zero_mul] at h_lower
    exact absurd (two_zpow_pos (-1075)) (not_lt.mpr h_lower)

/-- Every decimal with the value of the shortest one is read as the number. -/
theorem ofDecimal_of_value {x : Double} (h_finite : x.isFinite = true) {tie : Tie}
    {digits : Nat} {exponent : ℤ}
    (h : (digits : ℚ) * 10 ^ exponent = (x.shortest tie).value) :
    ofDecimal x.negative digits exponent = x := by
  by_cases h_zero : x.code = 0
  · have h_digits : digits = 0 := by
      rw [shortest_of_zero h_zero, Decimal.value, Nat.cast_zero, zero_mul, mul_eq_zero] at h
      exact Nat.cast_eq_zero.mp (h.resolve_right (zpow_pos (by norm_num) exponent).ne')
    rw [ofDecimal, if_pos (.inl h_digits), ← h_zero, ofCode_code]
  · exact ofDecimal_eq h_finite h_zero (h ▸ isNear_shortest h_finite h_zero tie)

end Binary

end SqlCompose
