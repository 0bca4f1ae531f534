/-
  SqlCompose.Proofs.Binary.Round

  Rounding of large integers. A quotient is rounded to the nearest integer, and to the even
  one of two that are equally near (`NearestMultiple`, and `.unique`: there is just one).
  Above the digits of a significand the numbers of a format are the multiples of a power
  of two, so an integer there becomes the nearest multiple (`standsFor_ofInt`), and two
  integers become one number if and only if that multiple is the same (`ofInt_eq_iff`).

  A step of `nearestCode` that rounds up may reach the next power of two; the code then
  carries into the exponent field (`standsFor_ofCode_carry`).
-/
import SqlCompose.Binary.Round

namespace SqlCompose

-- Powers are those of the core library, whatever else is in scope.
attribute [local instance (high)] instPowNat

/-! ## Quotients -/

/-- `unit * m` is the multiple of `unit` that is nearest to `n`, or of two the even one. -/
structure NearestMultiple (unit n m : Nat) : Prop where
  le : 2 * (unit * m) ≤ 2 * n + unit
  ge : 2 * n ≤ 2 * (unit * m) + unit
  even : 2 * (unit * m) = 2 * n + unit ∨ 2 * n = 2 * (unit * m) + unit → m % 2 = 0

theorem nearestMultiple_roundQuotient {unit : Nat} (n : Nat) (h_unit : 0 < unit) :
    NearestMultiple unit n (Tie.toEven.roundQuotient n unit) := by
  have h_div := Nat.div_add_mod n unit
  have h_mod := Nat.mod_lt n h_unit
  have h_next : unit * (n / unit + 1) = unit * (n / unit) + unit := Nat.mul_succ unit (n / unit)
  cases h : compare (2 * (n % unit)) unit with
  | lt =>
      have h_lt := Nat.compare_eq_lt.mp h
      simp only [Tie.roundQuotient, h]
      exact ⟨by omega, by omega, by omega⟩
  | gt =>
      have h_gt := Nat.compare_eq_gt.mp h
      simp only [Tie.roundQuotient, h]
      exact ⟨by omega, by omega, by omega⟩
  | eq =>
      have h_eq := Nat.compare_eq_eq.mp h
      simp only [Tie.roundQuotient, h]
      rcases Nat.mod_two_eq_zero_or_one (n / unit) with h_parity | h_parity
      · rw [h_parity, Nat.add_zero]
        exact ⟨by omega, by omega, fun _ => h_parity⟩
      · rw [h_parity]
        exact ⟨by omega, by omega, by omega⟩

/-- Multiples that differ are at least one unit apart, so two are nearest only in a tie,
    and of two neighbours one is odd. -/
theorem NearestMultiple.unique {unit n m m' : Nat} (h_unit : 0 < unit)
    (h : NearestMultiple unit n m) (h' : NearestMultiple unit n m') : m = m' := by
  -- The statement is symmetric, so it is enough that the first is not the smaller one.
  have not_lt {a b : Nat} (h_a : NearestMultiple unit n a) (h_b : NearestMultiple unit n b) :
      ¬a < b := by
    intro h_lt
    obtain ⟨d, rfl⟩ := Nat.exists_eq_add_of_lt h_lt
    have h_apart : unit * (a + d + 1) = unit * a + unit * d + unit := by
      rw [Nat.mul_succ, Nat.mul_add]
    have h_ge := h_a.ge
    have h_le := h_b.le
    have h_d : unit * d = 0 := by omega
    have h_zero : d = 0 := by
      rcases Nat.mul_eq_zero.mp h_d with h | h
      · omega
      · exact h
    subst h_zero
    have h_even := h_a.even (.inr (by omega))
    have h_even' := h_b.even (.inl (by omega))
    omega
  have h_ge := not_lt h h'
  have h_le := not_lt h' h
  omega

/-- The nearest multiple lies between any two multiples that the number lies between. -/
theorem NearestMultiple.bounds {unit n m a b : Nat} (h_unit : 0 < unit)
    (h : NearestMultiple unit n m) (h_a : unit * a ≤ n) (h_b : n ≤ unit * b) : a ≤ m ∧ m ≤ b := by
  have h_le := h.le
  have h_ge := h.ge
  refine ⟨Nat.le_of_not_lt fun h_lt => ?_, Nat.le_of_not_lt fun h_lt => ?_⟩
  · have h_mul := Nat.mul_le_mul_left unit (Nat.succ_le_of_lt h_lt)
    rw [Nat.mul_succ] at h_mul
    omega
  · have h_mul := Nat.mul_le_mul_left unit (Nat.succ_le_of_lt h_lt)
    rw [Nat.mul_succ] at h_mul
    omega

/-! ## Numbers of a format -/

theorem Format.fractions_double : Format.double.fractions = 2 ^ (52 : Nat) := rfl

theorem Format.infinity_double : Format.double.infinity = 2047 * 2 ^ (52 : Nat) := rfl

theorem Format.minScale_double : Format.double.minScale = -1074 := rfl

open Format

namespace Binary

variable {f : Format}

/-- `x` is finite, not negative, and stands for the natural number `n`. -/
structure StandsFor (x : Binary f) (n : Nat) : Prop where
  isFinite : x.isFinite = true
  negative : x.negative = false
  reads : ∃ k : Nat, x.scale = k ∧ x.significand * 2 ^ k = n

theorem StandsFor.unique {x : Binary f} {n m : Nat} (h : x.StandsFor n) (h' : x.StandsFor m) :
    n = m := by
  obtain ⟨k, h_scale, rfl⟩ := h.reads
  obtain ⟨l, h_scale', rfl⟩ := h'.reads
  rw [Int.ofNat_inj.mp (h_scale.symm.trans h_scale')]

theorem toNat_ofCode {code : Nat} (h : code < 2 ^ (f.width - 1)) :
    (ofCode false code : Binary f).bits.toNat = code := by
  have h_width : 2 ^ (f.width - 1) ≤ 2 ^ f.width :=
    Nat.pow_le_pow_right (by decide) (Nat.sub_le _ 1)
  rw [ofCode, BitVec.toNat_ofNat]
  exact Nat.mod_eq_of_lt (Nat.lt_of_lt_of_le h h_width)

theorem code_ofCode {code : Nat} (h : code < 2 ^ (f.width - 1)) :
    (ofCode false code : Binary f).code = code := by
  rw [Binary.code, toNat_ofCode h, Nat.mod_eq_of_lt h]

theorem negative_ofCode {code : Nat} (h : code < 2 ^ (f.width - 1)) :
    (ofCode false code : Binary f).negative = false := by
  rw [Binary.negative, BitVec.msb_eq_decide, toNat_ofCode h]
  exact decide_eq_false (Nat.not_le_of_lt h)

/-! ## Large integers -/

/-- A code is read back by its exponent field and its fraction. -/
theorem standsFor_ofCode {k fraction code n : Nat} (h_k : k ≤ 971)
    (h : fraction < 2 ^ (52 : Nat)) (h_code : code = (k + 1075) * 2 ^ (52 : Nat) + fraction)
    (h_n : n = 2 ^ k * (2 ^ (52 : Nat) + fraction)) :
    (ofCode false code : Double).StandsFor n := by
  have h_lt : code < 2 ^ (Format.double.width - 1) := by
    rw [show Format.double.width - 1 = 63 from rfl]
    omega
  have h_field : (ofCode false code : Double).exponentField = k + 1075 := by
    rw [exponentField, code_ofCode h_lt, fractions_double]
    omega
  have h_fraction : (ofCode false code : Double).fraction = fraction := by
    rw [Binary.fraction, code_ofCode h_lt, fractions_double]
    omega
  refine ⟨?_, negative_ofCode h_lt, k, ?_, ?_⟩
  · rw [Binary.isFinite, code_ofCode h_lt, infinity_double]
    exact decide_eq_true (by omega)
  · rw [scale, h_field, minScale_double]
    omega
  · rw [significand, h_field, h_fraction, if_neg (by omega), fractions_double, h_n, Nat.mul_comm]

/-- A significand that was rounded up to the next power of two carries into the exponent
    field, and the code stands for the same product. -/
theorem standsFor_ofCode_carry {k significand : Nat} (h_k : k ≤ 970)
    (h_ge : 2 ^ (52 : Nat) ≤ significand) (h_le : significand ≤ 2 ^ (53 : Nat)) :
    (ofCode false ((k + 1074) * 2 ^ (52 : Nat) + significand) : Double).StandsFor
      (2 ^ k * significand) := by
  rcases Nat.lt_or_eq_of_le h_le with h_lt | rfl
  · obtain ⟨fraction, rfl⟩ := Nat.exists_eq_add_of_le h_ge
    exact standsFor_ofCode (by omega) (show fraction < 2 ^ (52 : Nat) by omega) (by omega) rfl
  · have h_first : 0 < 2 ^ (52 : Nat) := Nat.two_pow_pos 52
    refine standsFor_ofCode (k := k + 1) (by omega) h_first (by omega) ?_
    rw [Nat.pow_succ]
    omega

theorem binaryExponent_one {n e : Nat} (h_lo : 2 ^ e ≤ n) (h_hi : n < 2 ^ (e + 1)) :
    binaryExponent n 1 = e := by
  have h_pos : n ≠ 0 := Nat.ne_of_gt (Nat.lt_of_lt_of_le (Nat.two_pow_pos e) h_lo)
  have h_log : n.log2 = e := (Nat.log2_eq_iff h_pos).mpr ⟨h_lo, h_hi⟩
  have h_logOne : Nat.log2 1 = 0 := by decide
  rw [binaryExponent, h_log, h_logOne]
  simp [h_lo]

theorem nearestCode_one {n e : Nat} (h_e : 52 ≤ e) (h_lo : 2 ^ e ≤ n) (h_hi : n < 2 ^ (e + 1)) :
    Format.double.nearestCode n 1
      = min (2047 * 2 ^ (52 : Nat))
          ((e - 52 + 1074) * 2 ^ (52 : Nat) + Tie.toEven.roundQuotient n (2 ^ (e - 52))) := by
  have h_precision : (Format.double.precision : Int) = 53 := rfl
  have h_pos : n ≠ 0 := Nat.ne_of_gt (Nat.lt_of_lt_of_le (Nat.two_pow_pos e) h_lo)
  have h_scale : max (-1074) (binaryExponent n 1 - (53 - 1)) = ((e - 52 : Nat) : Int) := by
    rw [binaryExponent_one h_lo h_hi]
    omega
  have h_field : (((e - 52 : Nat) : Int) - -1074).toNat = e - 52 + 1074 := by omega
  have h_back : (-((e - 52 : Nat) : Int)).toNat = 0 := by omega
  rw [Format.nearestCode, if_neg h_pos]
  simp only [minScale_double, h_precision, fractions_double, infinity_double, h_scale, h_field,
    h_back, Int.toNat_natCast, Nat.pow_zero, Nat.mul_one, Nat.one_mul]

/-- The integers from `2 ^ e` to the next power of two are rounded to multiples of
    `2 ^ (e - 52)`. -/
theorem exists_ofInt_eq_ofCode {n e : Nat} (h_e : 52 ≤ e ∧ e ≤ 1022) (h_lo : 2 ^ e ≤ n)
    (h_hi : n < 2 ^ (e + 1)) :
    ∃ significand, NearestMultiple (2 ^ (e - 52)) n significand ∧
      2 ^ (52 : Nat) ≤ significand ∧ significand ≤ 2 ^ (53 : Nat) ∧
      (ofInt n : Double) = ofCode false ((e - 52 + 1074) * 2 ^ (52 : Nat) + significand) := by
  have h_unit : 0 < 2 ^ (e - 52) := Nat.two_pow_pos _
  have h_nearest := nearestMultiple_roundQuotient n h_unit
  have h_first : 2 ^ (e - 52) * 2 ^ (52 : Nat) = 2 ^ e := by
    rw [← Nat.pow_add, Nat.sub_add_cancel h_e.1]
  have h_last : 2 ^ (e - 52) * 2 ^ (53 : Nat) = 2 ^ (e + 1) := by
    rw [show 53 = 52 + 1 from rfl, Nat.pow_succ, ← Nat.mul_assoc, h_first, Nat.pow_succ]
  obtain ⟨h_ge, h_le⟩ := h_nearest.bounds h_unit (h_first ▸ h_lo) (h_last ▸ Nat.le_of_lt h_hi)
  refine ⟨_, h_nearest, h_ge, h_le, ?_⟩
  have h_sign : decide ((n : Int) < 0) = false := decide_eq_false (by omega)
  rw [ofInt, nearest, h_sign, Int.natAbs_natCast, nearestCode_one h_e.1 h_lo h_hi,
    Nat.min_eq_right (by omega)]

theorem standsFor_ofInt {n e m : Nat} (h_e : 52 ≤ e ∧ e ≤ 1022) (h_lo : 2 ^ e ≤ n)
    (h_hi : n < 2 ^ (e + 1)) (h : NearestMultiple (2 ^ (e - 52)) n m) :
    (ofInt n : Double).StandsFor (2 ^ (e - 52) * m) := by
  obtain ⟨m', h', h_ge, h_le, h_eq⟩ := exists_ofInt_eq_ofCode h_e h_lo h_hi
  rw [h.unique (Nat.two_pow_pos _) h', h_eq]
  exact standsFor_ofCode_carry (by omega) h_ge h_le

/-- Integers between the same powers of two become one number if and only if they have
    one nearest multiple. -/
theorem ofInt_eq_iff {n n' e : Nat} (h_e : 52 ≤ e ∧ e ≤ 1022) (h_lo : 2 ^ e ≤ n)
    (h_hi : n < 2 ^ (e + 1)) (h_lo' : 2 ^ e ≤ n') (h_hi' : n' < 2 ^ (e + 1)) :
    (ofInt n : Double) = ofInt n' ↔
      ∃ m, NearestMultiple (2 ^ (e - 52)) n m ∧ NearestMultiple (2 ^ (e - 52)) n' m := by
  have h_unit : 0 < 2 ^ (e - 52) := Nat.two_pow_pos _
  obtain ⟨m, h, -, -, h_eq⟩ := exists_ofInt_eq_ofCode h_e h_lo h_hi
  obtain ⟨m', h', -, -, h_eq'⟩ := exists_ofInt_eq_ofCode h_e h_lo' h_hi'
  constructor
  · intro h_same
    have h_stands := h_same ▸ standsFor_ofInt h_e h_lo h_hi h
    have h_multiple := h_stands.unique (standsFor_ofInt h_e h_lo' h_hi' h')
    rw [Nat.eq_of_mul_eq_mul_left h_unit h_multiple] at h
    exact ⟨m', h, h'⟩
  · rintro ⟨q, h_q, h_q'⟩
    rw [h_eq, h_eq', h.unique h_unit h_q, h'.unique h_unit h_q']

end Binary

end SqlCompose
