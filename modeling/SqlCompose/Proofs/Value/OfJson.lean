/-
  SqlCompose.Proofs.Value.OfJson

  JSON as a value, and the value as JSON again. Everything is kept but the whole numbers
  that are no signed integers of 64 bits (`toJson_ofJson_eq_iff`). All of those lie between
  the same powers of two, where the floating-point numbers are the multiples of 2048: each
  becomes the nearest one (`exists_ofJson_eq_float`), and whole numbers that share it are
  bound as one value (`ofJson_whole_eq_iff`).
-/
import SqlCompose.Proofs.Binary.Round
import SqlCompose.Value.Basic

namespace SqlCompose

-- Powers are those of the core library, whatever else is in scope.
attribute [local instance (high)] instPowNat

/-- The JSON value is the whole number `n`. -/
def Json.IsWhole (j : Json) (n : Int) : Prop :=
  ∃ inRange : -2 ^ (63 : Nat) ≤ n ∧ n < 2 ^ (64 : Nat), j = .number (.whole n inRange)

theorem Json.IsWhole.unique {j : Json} {m n : Int} (h : j.IsWhole m) (h' : j.IsWhole n) :
    m = n := by
  obtain ⟨_, rfl⟩ := h
  obtain ⟨_, h_eq⟩ := h'
  cases h_eq
  rfl

namespace Value

variable {i j : Json} {m n : Int}

/-! ## Whole numbers -/

theorem ofJson_eq_int (h : j.IsWhole n) (h_small : n < 2 ^ (63 : Nat)) :
    ofJson j = .int (Int64.ofInt n) := by
  obtain ⟨_, rfl⟩ := h
  exact if_pos h_small

theorem ofJson_eq_float (h : j.IsWhole n) (h_large : 2 ^ (63 : Nat) ≤ n) :
    ofJson j = .float (Binary.ofInt n) := by
  obtain ⟨_, rfl⟩ := h
  exact if_neg (Int.not_lt.mpr h_large)

theorem toInt_ofInt (h : j.IsWhole n) (h_small : n < 2 ^ (63 : Nat)) :
    (Int64.ofInt n).toInt = n := by
  obtain ⟨⟨h_le, -⟩, -⟩ := h
  exact Int64.toInt_ofInt_of_le h_le h_small

/-- What is beyond the signed integers becomes the nearest multiple of 2048. -/
theorem exists_ofJson_eq_float (h : j.IsWhole n) (h_large : 2 ^ (63 : Nat) ≤ n) :
    ∃ (x : Double) (m : Nat), ofJson j = .float x ∧ NearestMultiple 2048 n.toNat m ∧
      x.StandsFor (2048 * m) := by
  have h_lt := h.1.2
  have h_nat : (n.toNat : Int) = n := Int.toNat_of_nonneg (by omega)
  have h_nearest := nearestMultiple_roundQuotient n.toNat (show 0 < 2048 by decide)
  have h_stands := Binary.standsFor_ofInt (e := 63) (by decide) (by omega) (by omega) h_nearest
  rw [h_nat] at h_stands
  exact ⟨_, _, ofJson_eq_float h h_large, h_nearest, h_stands⟩

/-- Whole numbers beyond the signed integers are bound as one value if and only if they
    have one nearest multiple. -/
theorem ofJson_large_eq_iff (h_i : i.IsWhole m) (h_j : j.IsWhole n) (h_m : 2 ^ (63 : Nat) ≤ m)
    (h_n : 2 ^ (63 : Nat) ≤ n) :
    ofJson i = ofJson j ↔
      ∃ q, NearestMultiple 2048 m.toNat q ∧ NearestMultiple 2048 n.toNat q := by
  have h_lt := h_i.1.2
  have h_lt' := h_j.1.2
  obtain ⟨k, rfl⟩ := Int.eq_ofNat_of_zero_le (show 0 ≤ m by omega)
  obtain ⟨l, rfl⟩ := Int.eq_ofNat_of_zero_le (show 0 ≤ n by omega)
  rw [ofJson_eq_float h_i h_m, ofJson_eq_float h_j h_n, Value.float.injEq]
  exact Binary.ofInt_eq_iff (e := 63) (by decide) (by omega) (by omega) (by omega) (by omega)

/-- Whole numbers are bound as one value only if they are one number, or are both beyond
    the signed integers and have one nearest multiple. -/
theorem ofJson_whole_eq_iff (h_i : i.IsWhole m) (h_j : j.IsWhole n) :
    ofJson i = ofJson j ↔ m = n ∨ 2 ^ (63 : Nat) ≤ m ∧ 2 ^ (63 : Nat) ≤ n ∧
      ∃ q, NearestMultiple 2048 m.toNat q ∧ NearestMultiple 2048 n.toNat q := by
  constructor
  · intro h
    by_cases h_m : m < 2 ^ (63 : Nat) <;> by_cases h_n : n < 2 ^ (63 : Nat)
    · rw [ofJson_eq_int h_i h_m, ofJson_eq_int h_j h_n, Value.int.injEq] at h
      rw [← toInt_ofInt h_i h_m, h, toInt_ofInt h_j h_n]
      exact .inl rfl
    · rw [ofJson_eq_int h_i h_m, ofJson_eq_float h_j (Int.not_lt.mp h_n)] at h
      cases h
    · rw [ofJson_eq_float h_i (Int.not_lt.mp h_m), ofJson_eq_int h_j h_n] at h
      cases h
    · have h_large := Int.not_lt.mp h_m
      have h_large' := Int.not_lt.mp h_n
      exact .inr ⟨h_large, h_large', (ofJson_large_eq_iff h_i h_j h_large h_large').mp h⟩
  · rintro (rfl | ⟨h_m, h_n, h_nearest⟩)
    · obtain ⟨_, rfl⟩ := h_i
      obtain ⟨_, rfl⟩ := h_j
      rfl
    · exact (ofJson_large_eq_iff h_i h_j h_m h_n).mpr h_nearest

/-! ## There and back -/

theorem toJson_int {n : Int64} (h : j.IsWhole n.toInt) : (Value.int n).toJson = j := by
  obtain ⟨_, rfl⟩ := h
  rfl

theorem toJson_float {x : Double} (h : x.isFinite = true) :
    (Value.float x).toJson = .number (.real x h) :=
  dif_pos h

/-- Converting to a value and back gives the JSON value again, unless it is a whole number
    beyond the signed integers. -/
theorem toJson_ofJson_eq_iff :
    (ofJson j).toJson = j ↔ ∀ n, j.IsWhole n → n < 2 ^ (63 : Nat) := by
  by_cases h : ∃ n, j.IsWhole n
  · obtain ⟨n, h_whole⟩ := h
    by_cases h_small : n < 2 ^ (63 : Nat)
    · refine iff_of_true ?_ fun m h_m => h_whole.unique h_m ▸ h_small
      rw [ofJson_eq_int h_whole h_small]
      exact toJson_int ((toInt_ofInt h_whole h_small).symm ▸ h_whole)
    · refine iff_of_false ?_ fun h_all => h_small (h_all n h_whole)
      obtain ⟨x, m, h_eq, -, h_stands⟩ := exists_ofJson_eq_float h_whole (Int.not_lt.mp h_small)
      rw [h_eq, toJson_float h_stands.isFinite]
      obtain ⟨_, rfl⟩ := h_whole
      exact nofun
  · refine iff_of_true ?_ fun n h_n => absurd ⟨n, h_n⟩ h
    cases j with
    | number number =>
        cases number with
        | whole n inRange => exact absurd ⟨n, inRange, rfl⟩ h
        | real x h_x => exact toJson_float h_x
    | null => rfl
    | bool => rfl
    | string => rfl
    | array => rfl
    | object => rfl

/-- A JSON value is kept, unless it is a whole number beyond the signed integers. Such a
    number is bound, and written, as the nearest multiple of 2048, and so are all the others
    for which that is the nearest one. -/
theorem ofJson_keeps_or_rounds (j : Json) :
    ((ofJson j).toJson = j ↔ ∀ n, j.IsWhole n → n < 2 ^ (63 : Nat)) ∧
    (∀ n, j.IsWhole n → 2 ^ (63 : Nat) ≤ n → ∃ (x : Double) (h : x.isFinite = true) (m : Nat),
      NearestMultiple 2048 n.toNat m ∧ x.StandsFor (2048 * m) ∧
      ofJson j = .float x ∧ (ofJson j).toJson = .number (.real x h)) ∧
    ∀ i m n, i.IsWhole m → j.IsWhole n →
      (ofJson i = ofJson j ↔ m = n ∨ 2 ^ (63 : Nat) ≤ m ∧ 2 ^ (63 : Nat) ≤ n ∧
        ∃ q, NearestMultiple 2048 m.toNat q ∧ NearestMultiple 2048 n.toNat q) := by
  refine ⟨toJson_ofJson_eq_iff, ?_, fun i m n => ofJson_whole_eq_iff⟩
  intro n h_whole h_large
  obtain ⟨x, m, h_eq, h_nearest, h_stands⟩ := exists_ofJson_eq_float h_whole h_large
  refine ⟨x, h_stands.isFinite, m, h_nearest, h_stands, h_eq, ?_⟩
  rw [h_eq, toJson_float h_stands.isFinite]

/-- The largest whole number is not kept, and shares its value with the one before it. -/
theorem ofJson_largest :
    ∃ largest before : Json, largest.IsWhole 18446744073709551615 ∧
      before.IsWhole 18446744073709551614 ∧
      (ofJson largest).toJson ≠ largest ∧ ofJson largest = ofJson before := by
  refine ⟨_, _, ⟨by decide, rfl⟩, ⟨by decide, rfl⟩, ?_, ?_⟩
  · rw [ofJson_eq_float ⟨by decide, rfl⟩ (by decide), toJson_float (by decide)]
    exact nofun
  · rw [ofJson_eq_float ⟨by decide, rfl⟩ (by decide), ofJson_eq_float ⟨by decide, rfl⟩ (by decide)]
    exact congrArg Value.float (by decide)

end Value

end SqlCompose
