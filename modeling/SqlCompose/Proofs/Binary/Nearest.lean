/-
  SqlCompose.Proofs.Binary.Nearest

  Rounding told by the quotient alone. A finite number stands for
  `significand * 2 ^ scale`, and `IsNear x q` says that `q` is no further from it than
  halfway to the next number on either side, and halfway only if the significand is even.
  Quotients that are near a number are rounded to it (`nearestCode_eq_code`), and so are
  decimals (`ofDecimal_eq`).

  The definitions compute with numerators and denominators; here these are compared as
  rational numbers. `zpow_eq_div` is where the one becomes the other.
-/
import Mathlib.Algebra.Order.Field.Power
import Mathlib.Algebra.Order.Field.Rat
import Mathlib.Tactic.Linarith
import Mathlib.Tactic.Ring
import SqlCompose.Binary.Shortest
import SqlCompose.Proofs.Binary.Round

namespace SqlCompose

-- Powers are those of the core library, whatever else is in scope.
attribute [local instance (high)] instPowNat

/-! ## Quotients -/

/-- A power is a quotient of two natural numbers, of which one is one. -/
theorem zpow_eq_div (b : Nat) (e : ℤ) :
    (b : ℚ) ^ e = ((b ^ e.toNat : Nat) : ℚ) / ((b ^ (-e).toNat : Nat) : ℚ) := by
  obtain ⟨n, rfl | rfl⟩ := e.eq_nat_or_neg
  · simp
  · simp

theorem two_zpow_eq_div (e : ℤ) :
    (2 : ℚ) ^ e = ((2 ^ e.toNat : Nat) : ℚ) / ((2 ^ (-e).toNat : Nat) : ℚ) := by
  have h := zpow_eq_div 2 e
  rwa [Nat.cast_two] at h

theorem scaled_div (n b : Nat) (e : ℤ) :
    ((scaled n b e).1 : ℚ) / ((scaled n b e).2 : ℚ) = n * (b : ℚ) ^ e := by
  rw [scaled, Nat.cast_mul, mul_div_assoc, ← zpow_eq_div]

theorem two_zpow_pos (e : ℤ) : (0 : ℚ) < 2 ^ e := zpow_pos two_pos e

/-- A power from a lower one. -/
theorem two_zpow_eq_mul {e low : ℤ} {n : Nat} (h : e = n + low) :
    (2 : ℚ) ^ e = 2 ^ n * 2 ^ low := by
  rw [h, zpow_add₀ two_ne_zero, zpow_natCast]

/-- The natural number that is nearest to a quotient, or of two the even one, is the one that
    it is rounded to. -/
theorem roundQuotient_eq {num den m : Nat} (h_den : 0 < den)
    (h_ge : (m : ℚ) - 1 / 2 ≤ num / den) (h_le : (num : ℚ) / den ≤ m + 1 / 2)
    (h_even : (num : ℚ) / den = m - 1 / 2 ∨ (num : ℚ) / den = m + 1 / 2 → m % 2 = 0) :
    Tie.toEven.roundQuotient num den = m := by
  have h_pos : (0 : ℚ) < den := Nat.cast_pos.mpr h_den
  have h_nearest : NearestMultiple den num m := by
    constructor
    · rw [le_div_iff₀ h_pos] at h_ge
      have h_cast : (2 * (den * m) : ℚ) ≤ 2 * num + den := by linarith
      exact_mod_cast h_cast
    · rw [div_le_iff₀ h_pos] at h_le
      have h_cast : (2 * num : ℚ) ≤ 2 * (den * m) + den := by linarith
      exact_mod_cast h_cast
    · rintro (h | h)
      · apply h_even ∘ Or.inl
        have h_cast : (2 * (den * m) : ℚ) = 2 * num + den := by exact_mod_cast h
        rw [div_eq_iff h_pos.ne']
        linarith
      · apply h_even ∘ Or.inr
        have h_cast : (2 * num : ℚ) = 2 * (den * m) + den := by exact_mod_cast h
        rw [div_eq_iff h_pos.ne']
        linarith
  exact (nearestMultiple_roundQuotient num h_den).unique h_den h_nearest

/-- The powers of two around a natural number. -/
theorem log2_bounds {n : Nat} (h : 0 < n) :
    (2 : ℚ) ^ (n.log2 : ℤ) ≤ n ∧ (n : ℚ) < 2 ^ ((n.log2 : ℤ) + 1) := by
  obtain ⟨h_le, h_lt⟩ := (Nat.log2_eq_iff h.ne').mp rfl
  constructor
  · rw [zpow_natCast]
    exact_mod_cast h_le
  · rw [← Nat.cast_succ, zpow_natCast]
    exact_mod_cast h_lt

/-- A quotient is between the power of two of its exponent and the next one. -/
theorem binaryExponent_bounds {num den : Nat} (h_num : 0 < num) (h_den : 0 < den) :
    (2 : ℚ) ^ binaryExponent num den ≤ num / den ∧
      (num : ℚ) / den < 2 ^ (binaryExponent num den + 1) := by
  obtain ⟨h_numLe, h_numLt⟩ := log2_bounds h_num
  obtain ⟨h_denLe, h_denLt⟩ := log2_bounds h_den
  have h_pos : (0 : ℚ) < den := Nat.cast_pos.mpr h_den
  set e : ℤ := (num.log2 : ℤ) - den.log2 with h_e
  have h_upper : (num : ℚ) / den < 2 ^ (e + 1) := by
    have h_split : (num.log2 : ℤ) + 1 = e + 1 + den.log2 := by omega
    rw [h_split, zpow_add₀ two_ne_zero] at h_numLt
    rw [div_lt_iff₀ h_pos]
    exact h_numLt.trans_le (mul_le_mul_of_nonneg_left h_denLe (two_zpow_pos _).le)
  have h_lower : (2 : ℚ) ^ (e - 1) ≤ num / den := by
    have h_split : (num.log2 : ℤ) = e - 1 + (den.log2 + 1) := by omega
    rw [h_split, zpow_add₀ two_ne_zero] at h_numLe
    rw [le_div_iff₀ h_pos]
    exact (mul_le_mul_of_nonneg_left h_denLt.le (two_zpow_pos _).le).trans h_numLe
  have h_test : den * 2 ^ e.toNat ≤ num * 2 ^ (-e).toNat ↔ (2 : ℚ) ^ e ≤ num / den := by
    rw [two_zpow_eq_div, div_le_div_iff₀ (Nat.cast_pos.mpr (Nat.two_pow_pos _)) h_pos, ← Nat.cast_mul,
      ← Nat.cast_mul, Nat.cast_le, Nat.mul_comm]
  rw [binaryExponent, ← h_e]
  by_cases h : den * 2 ^ e.toNat ≤ num * 2 ^ (-e).toNat
  · rw [if_pos h]
    exact ⟨h_test.mp h, h_upper⟩
  · rw [if_neg h, Int.sub_add_cancel]
    exact ⟨h_lower, not_le.mp (mt h_test.mpr h)⟩

/-! ## Numbers -/

namespace Binary

variable {f : Format}

/-- How far the numbers that are rounded to `x` reach below it, in units of its last digit. -/
def below (x : Binary f) : ℚ := if x.isNarrowBelow then 1 / 4 else 1 / 2

/-- `q` is rounded to the magnitude of `x`: it is no further from it than halfway to the next
    number, and halfway only if the significand is even. -/
structure IsNear (x : Binary f) (q : ℚ) : Prop where
  ge : (x.significand - x.below) * 2 ^ x.scale ≤ q
  le : q ≤ (x.significand + 1 / 2) * 2 ^ x.scale
  even : q = (x.significand - x.below) * 2 ^ x.scale ∨ q = (x.significand + 1 / 2) * 2 ^ x.scale →
    x.significand % 2 = 0

theorem below_le (x : Binary f) : x.below ≤ 1 / 2 := by
  rw [below]
  split
  · norm_num
  · exact le_refl _

theorem below_pos (x : Binary f) : 0 < x.below := by
  rw [below]
  split
  · norm_num
  · norm_num

/-- The magnitude itself is near. -/
theorem isNear_self (x : Binary f) : x.IsNear (x.significand * 2 ^ x.scale) := by
  have h_pos := two_zpow_pos x.scale
  have h_below := x.below_pos
  refine ⟨?_, ?_, ?_⟩
  · exact mul_le_mul_of_nonneg_right (by linarith) h_pos.le
  · exact mul_le_mul_of_nonneg_right (by linarith) h_pos.le
  · rintro (h | h)
    · have h_eq := mul_right_cancel₀ h_pos.ne' h
      exact absurd h_eq (by linarith)
    · have h_eq := mul_right_cancel₀ h_pos.ne' h
      exact absurd h_eq (by linarith)

/-- The fields of a finite number of 64 bits: its scale is `k - 1074`, and its code the
    number of significands below it. -/
theorem exists_scale {x : Double} (h : x.isFinite = true) :
    ∃ k : Nat, k ≤ 2045 ∧ x.scale = k - 1074 ∧ x.code = k * 2 ^ (52 : Nat) + x.significand ∧
      x.significand < 2 ^ (53 : Nat) ∧ (k = 0 ∨ 2 ^ (52 : Nat) ≤ x.significand) ∧
      (x.isNarrowBelow = true ↔ 0 < k ∧ x.significand = 2 ^ (52 : Nat)) := by
  have h_finite : x.code < 2047 * 2 ^ (52 : Nat) := of_decide_eq_true h
  have h_field : x.exponentField = x.code / 2 ^ (52 : Nat) := rfl
  have h_fraction : x.fraction = x.code % 2 ^ (52 : Nat) := rfl
  have h_significand : x.significand
      = if x.exponentField = 0 then x.fraction else 2 ^ (52 : Nat) + x.fraction := rfl
  have h_narrow : x.isNarrowBelow = true ↔ x.fraction = 0 ∧ 1 < x.exponentField := by
    rw [isNarrowBelow, Bool.and_eq_true, beq_iff_eq, decide_eq_true_eq]
  refine ⟨x.exponentField - 1, ?_, ?_, ?_⟩
  · omega
  · rw [scale, Format.minScale_double]
    omega
  · rw [h_narrow, h_significand]
    by_cases h_zero : x.exponentField = 0
    · rw [if_pos h_zero]
      omega
    · rw [if_neg h_zero]
      omega

/-! ## Rounding to a number -/

/-- The scale of a quotient is that of the digits in front of its point, or the least one. -/
theorem scale_eq {num den k : Nat} (h_num : 0 < num) (h_den : 0 < den) {t : ℚ}
    (h_t : (num : ℚ) / den = t * 2 ^ ((k : ℤ) - 1074)) (h_lo : k = 0 ∨ 2 ^ 52 ≤ t)
    (h_hi : t < 2 ^ 53) :
    max (-1074) (binaryExponent num den - (53 - 1)) = (k : ℤ) - 1074 := by
  obtain ⟨h_ge, h_lt⟩ := binaryExponent_bounds h_num h_den
  have h_unit := two_zpow_pos ((k : ℤ) - 1074)
  -- The exponent is at most that of the last digit of a whole significand.
  have h_upper : binaryExponent num den < (k : ℤ) - 1021 := by
    rw [← zpow_lt_zpow_iff_right₀ (one_lt_two : (1 : ℚ) < 2)]
    have h_split : (2 : ℚ) ^ ((k : ℤ) - 1021) = 2 ^ 53 * 2 ^ ((k : ℤ) - 1074) :=
      two_zpow_eq_mul (by omega)
    rw [h_split]
    exact h_ge.trans_lt (h_t ▸ mul_lt_mul_of_pos_right h_hi h_unit)
  rcases h_lo with rfl | h_lo
  · omega
  · have h_lower : (k : ℤ) - 1022 < binaryExponent num den + 1 := by
      rw [← zpow_lt_zpow_iff_right₀ (one_lt_two : (1 : ℚ) < 2)]
      have h_split : (2 : ℚ) ^ ((k : ℤ) - 1022) = 2 ^ 52 * 2 ^ ((k : ℤ) - 1074) :=
        two_zpow_eq_mul (by omega)
      rw [h_split]
      exact (h_t ▸ mul_le_mul_of_nonneg_right h_lo h_unit.le).trans_lt h_lt
    omega

/-- The code of a quotient that is `t` units of some scale and nearest to `m` of them. -/
theorem nearestCode_eq {num den m k : Nat} (h_num : 0 < num) (h_den : 0 < den) {t : ℚ}
    (h_t : (num : ℚ) / den = t * 2 ^ ((k : ℤ) - 1074)) (h_lo : k = 0 ∨ 2 ^ 52 ≤ t)
    (h_hi : t < 2 ^ 53) (h_ge : (m : ℚ) - 1 / 2 ≤ t) (h_le : t ≤ m + 1 / 2)
    (h_even : t = m - 1 / 2 ∨ t = m + 1 / 2 → m % 2 = 0) :
    Format.double.nearestCode num den
      = min (2047 * 2 ^ (52 : Nat)) (k * 2 ^ (52 : Nat) + m) := by
  have h_precision : (Format.double.precision : Int) = 53 := rfl
  have h_unit := two_zpow_pos ((k : ℤ) - 1074)
  have h_den' : 0 < den * 2 ^ ((k : ℤ) - 1074).toNat := Nat.mul_pos h_den (Nat.two_pow_pos _)
  have h_scaled : ((num * 2 ^ (-((k : ℤ) - 1074)).toNat : Nat) : ℚ)
      / ((den * 2 ^ ((k : ℤ) - 1074).toNat : Nat) : ℚ) = t := by
    rw [Nat.cast_mul, Nat.cast_mul, mul_div_mul_comm, h_t, two_zpow_eq_div, mul_assoc,
      div_mul_div_cancel₀, div_self, mul_one]
    · exact Nat.cast_ne_zero.mpr (Nat.two_pow_pos _).ne'
    · exact Nat.cast_ne_zero.mpr (Nat.two_pow_pos _).ne'
  have h_round := roundQuotient_eq h_den' (m := m) (h_scaled ▸ h_ge) (h_scaled ▸ h_le)
    (h_scaled ▸ h_even)
  have h_field : ((k : ℤ) - 1074 - -1074).toNat = k := by omega
  rw [Format.nearestCode, if_neg h_num.ne']
  simp only [Format.minScale_double, h_precision, Format.fractions_double,
    Format.infinity_double, scale_eq h_num h_den h_t h_lo h_hi, h_field, h_round]

/-- A quotient less than a quarter unit below a power of two is rounded to the power: there
    the scale is one finer, and the power its last number. -/
theorem nearestCode_eq_power {num den k : Nat} (h_num : 0 < num) (h_den : 0 < den) {t : ℚ}
    (h_t : (num : ℚ) / den = t * 2 ^ ((k : ℤ) - 1074)) (h_pos : 0 < k)
    (h_ge : (2 : ℚ) ^ 52 - 1 / 4 ≤ t) (h_lt : t < 2 ^ 52) :
    Format.double.nearestCode num den
      = min (2047 * 2 ^ (52 : Nat)) (k * 2 ^ (52 : Nat) + 2 ^ (52 : Nat)) := by
  have h_finer : (num : ℚ) / den = (2 * t) * 2 ^ (((k - 1 : Nat) : ℤ) - 1074) := by
    have h_split : (2 : ℚ) ^ ((k : ℤ) - 1074) = 2 ^ 1 * 2 ^ (((k - 1 : Nat) : ℤ) - 1074) :=
      two_zpow_eq_mul (by omega)
    rw [h_t, h_split]
    ring
  have h_last : ((2 ^ (53 : Nat) : Nat) : ℚ) = 2 ^ 53 := by norm_num
  rw [nearestCode_eq h_num h_den h_finer (m := 2 ^ (53 : Nat)) (.inr (by linarith)) (by linarith)
    (by rw [h_last]; linarith) (by rw [h_last]; linarith) (fun _ => rfl)]
  omega

/-- A quotient that is near a number has the code of the number. -/
theorem nearestCode_eq_code {x : Double} (h_finite : x.isFinite = true) (h_zero : x.code ≠ 0)
    {num den : Nat} (h_den : 0 < den) (h : x.IsNear (num / den)) :
    Format.double.nearestCode num den = x.code := by
  obtain ⟨k, h_k, h_scale, h_code, h_lt, h_full, h_narrow⟩ := exists_scale h_finite
  obtain ⟨h_ge, h_le, h_even⟩ := h
  rw [h_scale] at h_ge h_le h_even
  have h_unit := two_zpow_pos ((k : ℤ) - 1074)
  have h_below := x.below_le
  -- All is counted in units of the last digit.
  obtain ⟨t, h_t⟩ : ∃ t : ℚ, (num : ℚ) / den = t * 2 ^ ((k : ℤ) - 1074) :=
    ⟨num / den / 2 ^ ((k : ℤ) - 1074), (div_mul_cancel₀ _ h_unit.ne').symm⟩
  rw [h_t, mul_le_mul_iff_left₀ h_unit] at h_ge h_le
  rw [h_t, mul_left_inj' h_unit.ne', mul_left_inj' h_unit.ne'] at h_even
  have h_some : 0 < x.significand := by omega
  have h_one : (1 : ℚ) ≤ x.significand := by exact_mod_cast h_some
  have h_num : 0 < num := by
    have h_pos : (0 : ℚ) < num / den := h_t ▸ mul_pos (by linarith) h_unit
    rw [Nat.pos_iff_ne_zero]
    rintro rfl
    rw [Nat.cast_zero, zero_div] at h_pos
    exact lt_irrefl _ h_pos
  have h_finiteCode : x.code ≤ 2047 * 2 ^ (52 : Nat) := Nat.le_of_lt (of_decide_eq_true h_finite)
  have h_last : (x.significand : ℚ) + 1 ≤ 2 ^ 53 := by exact_mod_cast Nat.succ_le_of_lt h_lt
  by_cases h_lo : k = 0 ∨ 2 ^ 52 ≤ t
  · rw [nearestCode_eq h_num h_den h_t h_lo (by linarith) (by linarith) h_le, ← h_code,
      Nat.min_eq_right h_finiteCode]
    rintro (h_eq | h_eq)
    · apply h_even ∘ Or.inl
      linarith
    · exact h_even (.inr h_eq)
  · -- Below the powers of two between which the number is, only the least number is near.
    rw [not_or, not_le] at h_lo
    obtain ⟨h_pos, h_below_lt⟩ := h_lo
    have h_first : x.isNarrowBelow = true := by
      by_contra h_wide
      have h_half : x.below = 1 / 2 := if_neg h_wide
      rw [h_narrow] at h_wide
      have h_next : 2 ^ (52 : Nat) + 1 ≤ x.significand := by omega
      have h_nextCast : (2 ^ 52 + 1 : ℚ) ≤ x.significand := by exact_mod_cast h_next
      linarith
    have h_quarter : x.below = 1 / 4 := if_pos h_first
    have h_significand := (h_narrow.mp h_first).2
    have h_cast : (x.significand : ℚ) = 2 ^ 52 := by exact_mod_cast h_significand
    rw [h_quarter, h_cast] at h_ge
    rw [nearestCode_eq_power h_num h_den h_t (Nat.pos_of_ne_zero h_pos) h_ge h_below_lt]
    omega

/-! ## Decimals -/

/-- A number is its sign and its code. -/
theorem ofCode_code (x : Double) : ofCode x.negative x.code = x := by
  obtain ⟨bits⟩ := x
  have h_lt : bits.toNat < 2 ^ (64 : Nat) := bits.isLt
  have h_code : (⟨bits⟩ : Double).code = bits.toNat % 2 ^ (63 : Nat) := rfl
  have h_negative : (⟨bits⟩ : Double).negative = decide (2 ^ (63 : Nat) ≤ bits.toNat) :=
    BitVec.msb_eq_decide bits
  rw [ofCode, h_code, h_negative, Binary.mk.injEq]
  apply BitVec.eq_of_toNat_eq
  rw [BitVec.toNat_ofNat]
  show (bits.toNat % 2 ^ (63 : Nat) + if decide (2 ^ (63 : Nat) ≤ bits.toNat) then 2 ^ (63 : Nat)
    else 0) % 2 ^ (64 : Nat) = bits.toNat
  by_cases h_sign : 2 ^ (63 : Nat) ≤ bits.toNat
  · rw [decide_eq_true h_sign, if_pos rfl]
    omega
  · rw [decide_eq_false h_sign, if_neg Bool.false_ne_true]
    omega

/-- Between the powers of ten around a natural number there are as many as it has digits. -/
theorem digits_bounds {n : Nat} (h : 0 < n) :
    (10 : ℚ) ^ (((Nat.toDigits 10 n).length : ℤ) - 1) ≤ n ∧
      (n : ℚ) < 10 ^ ((Nat.toDigits 10 n).length : ℤ) := by
  have h_some : 0 < (Nat.toDigits 10 n).length := Nat.length_toDigits_pos
  have h_lt : n < 10 ^ (Nat.toDigits 10 n).length :=
    (Nat.length_toDigits_le_iff (by decide) h_some).mp (Nat.le_refl _)
  have h_le : 10 ^ ((Nat.toDigits 10 n).length - 1) ≤ n := by
    rcases Nat.eq_or_lt_of_le h_some with h_one | h_more
    · rw [← h_one]
      exact h
    · rw [← Nat.not_lt, ← Nat.length_toDigits_le_iff (by decide) (by omega)]
      omega
  constructor
  · rw [← Nat.cast_pred h_some, zpow_natCast]
    exact_mod_cast h_le
  · rw [zpow_natCast]
    exact_mod_cast h_lt

/-- Three binary digits are fewer than one decimal digit. -/
theorem two_zpow_le (n : Nat) : (2 : ℚ) ^ (3 * n : ℤ) ≤ 10 ^ (n : ℤ) := by
  rw [zpow_mul, zpow_natCast, zpow_natCast]
  exact pow_le_pow_left₀ (by norm_num) (by norm_num) n

/-- What is near a number other than zero is of the size of a number. -/
theorem IsNear.bounds {x : Double} {q : ℚ} (h : x.IsNear q) (h_finite : x.isFinite = true)
    (h_zero : x.code ≠ 0) : (2 : ℚ) ^ (-1075 : ℤ) ≤ q ∧ q ≤ 2 ^ (1024 : ℤ) := by
  obtain ⟨k, h_k, h_scale, h_code, h_lt, h_full, -⟩ := exists_scale h_finite
  obtain ⟨h_ge, h_le, -⟩ := h
  have h_below := x.below_le
  have h_some : 0 < x.significand := by omega
  have h_one : (1 : ℚ) ≤ x.significand := by exact_mod_cast h_some
  have h_last : (x.significand : ℚ) + 1 ≤ 2 ^ 53 := by exact_mod_cast Nat.succ_le_of_lt h_lt
  have h_unit := two_zpow_pos x.scale
  constructor
  · calc (2 : ℚ) ^ (-1075 : ℤ) = 1 / 2 * 2 ^ (-1074 : ℤ) := by
          rw [one_div, ← zpow_neg_one, ← zpow_add₀ two_ne_zero]
          rfl
      _ ≤ 1 / 2 * 2 ^ x.scale :=
        mul_le_mul_of_nonneg_left (zpow_le_zpow_right₀ one_le_two (by omega)) (by norm_num)
      _ ≤ (x.significand - x.below) * 2 ^ x.scale :=
        mul_le_mul_of_nonneg_right (by linarith) h_unit.le
      _ ≤ q := h_ge
  · calc q ≤ (x.significand + 1 / 2) * 2 ^ x.scale := h_le
      _ ≤ 2 ^ 53 * 2 ^ x.scale := mul_le_mul_of_nonneg_right (by linarith) h_unit.le
      _ ≤ 2 ^ 53 * 2 ^ (971 : ℤ) :=
        mul_le_mul_of_nonneg_left (zpow_le_zpow_right₀ one_le_two (by omega)) (by norm_num)
      _ = 2 ^ (1024 : ℤ) := (two_zpow_eq_mul rfl).symm

/-- A decimal that is not too small has its first digit at most four hundred places behind
    the point. -/
theorem le_places {digits : Nat} {exponent : ℤ} (h_digits : 0 < digits)
    (h_lower : (2 : ℚ) ^ (-1075 : ℤ) ≤ digits * 10 ^ exponent) :
    -400 ≤ exponent + (Nat.toDigits 10 digits).length := by
  by_contra h_far
  have h_places : (digits : ℚ) * 10 ^ exponent
      < 10 ^ (exponent + (Nat.toDigits 10 digits).length) := by
    rw [zpow_add₀ (by norm_num), mul_comm]
    exact mul_lt_mul_of_pos_left (digits_bounds h_digits).2 (zpow_pos (by norm_num) exponent)
  have h_small : (10 : ℚ) ^ (exponent + (Nat.toDigits 10 digits).length) ≤ 10 ^ (-401 : ℤ) :=
    zpow_le_zpow_right₀ (by norm_num) (by omega)
  have h_tiny : (10 : ℚ) ^ (-401 : ℤ) < 2 ^ (-1075 : ℤ) := by
    have h_inv := inv_anti₀ (two_zpow_pos _) (two_zpow_le 401)
    rw [← zpow_neg, ← zpow_neg] at h_inv
    exact h_inv.trans_lt (zpow_lt_zpow_right₀ one_lt_two (by norm_num))
  exact lt_irrefl _ (h_lower.trans_lt (h_places.trans_le (h_small.trans h_tiny.le)))

/-- A decimal that is not too large has at most four hundred places in front of the point. -/
theorem places_le {digits : Nat} {exponent : ℤ} (h_digits : 0 < digits)
    (h_upper : (digits : ℚ) * 10 ^ exponent ≤ 2 ^ (1024 : ℤ)) :
    exponent + (Nat.toDigits 10 digits).length ≤ 400 := by
  by_contra h_far
  have h_places : (10 : ℚ) ^ (exponent + ((Nat.toDigits 10 digits).length - 1))
      ≤ digits * 10 ^ exponent := by
    rw [zpow_add₀ (by norm_num), mul_comm (digits : ℚ)]
    exact mul_le_mul_of_nonneg_left (digits_bounds h_digits).1 (zpow_pos (by norm_num) exponent).le
  have h_large : (10 : ℚ) ^ (400 : ℤ) ≤ 10 ^ (exponent + ((Nat.toDigits 10 digits).length - 1)) :=
    zpow_le_zpow_right₀ (by norm_num) (by omega)
  have h_huge : (2 : ℚ) ^ (1024 : ℤ) < 10 ^ (400 : ℤ) :=
    (zpow_lt_zpow_right₀ one_lt_two (by norm_num)).trans_le (two_zpow_le 400)
  exact lt_irrefl _ (h_huge.trans_le (h_large.trans (h_places.trans h_upper)))

/-- A decimal that is near a number is read as the number. -/
theorem ofDecimal_eq {x : Double} (h_finite : x.isFinite = true) (h_zero : x.code ≠ 0)
    {digits : Nat} {exponent : ℤ} (h : x.IsNear (digits * 10 ^ exponent)) :
    ofDecimal x.negative digits exponent = x := by
  obtain ⟨h_lower, h_upper⟩ := h.bounds h_finite h_zero
  have h_digits : 0 < digits := by
    rw [Nat.pos_iff_ne_zero]
    rintro rfl
    rw [Nat.cast_zero, zero_mul] at h_lower
    exact absurd (two_zpow_pos (-1075)) (not_lt.mpr h_lower)
  have h_least := le_places h_digits h_lower
  have h_most := places_le h_digits h_upper
  have h_value : ((scaled digits 10 exponent).1 : ℚ) / (scaled digits 10 exponent).2
      = digits * 10 ^ exponent := by
    rw [scaled_div, Nat.cast_ofNat]
  have h_den : 0 < (scaled digits 10 exponent).2 := Nat.pow_pos (by decide)
  rw [ofDecimal, if_neg (by omega), if_neg (by omega)]
  show nearest x.negative (scaled digits 10 exponent).1 (scaled digits 10 exponent).2 = x
  rw [nearest, nearestCode_eq_code h_finite h_zero h_den (h_value ▸ h), ofCode_code]

end Binary

end SqlCompose
