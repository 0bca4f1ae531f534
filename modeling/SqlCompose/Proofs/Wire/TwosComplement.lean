/-
  SqlCompose.Proofs.Wire.TwosComplement

  Integers in two's complement, the most significant byte first. `ofTwosComplement` reads
  the bytes: as a natural number, less a power of 256 if the first bit is set. Which bytes
  an integer has is said through reading alone (`TwosComplement`): an integer that has some
  of a given width fits (`TwosComplement.fits`), it has no others (`TwosComplement.unique`),
  and if it fits they are the ones that are written (`twosComplement_bigEndian`).
-/
import SqlCompose.Wire.Encode

namespace SqlCompose

-- Powers are those of the core library, whatever else is in scope.
attribute [local instance (high)] instPowNat

/-! ## Bytes -/

theorem foldl_ofBigEndian (bytes : List UInt8) (acc : Nat) :
    bytes.foldl (fun n b => 256 * n + b.toNat) acc
      = acc * 256 ^ bytes.length + ofBigEndian bytes := by
  induction bytes generalizing acc with
  | nil => simp [ofBigEndian]
  | cons b bytes ih =>
      rw [ofBigEndian, List.foldl_cons, List.foldl_cons, ih, ih (256 * 0 + b.toNat),
        List.length_cons, Nat.pow_succ, Nat.add_mul, Nat.mul_zero, Nat.zero_add]
      have h_acc : 256 * acc * 256 ^ bytes.length = acc * (256 ^ bytes.length * 256) := by
        rw [Nat.mul_comm 256 acc, Nat.mul_assoc, Nat.mul_comm 256]
      omega

/-- The first byte counts most. -/
theorem ofBigEndian_cons (b : UInt8) (bytes : List UInt8) :
    ofBigEndian (b :: bytes) = b.toNat * 256 ^ bytes.length + ofBigEndian bytes := by
  rw [ofBigEndian, List.foldl_cons, foldl_ofBigEndian, Nat.mul_zero, Nat.zero_add]

theorem ofBigEndian_lt (bytes : List UInt8) : ofBigEndian bytes < 256 ^ bytes.length := by
  induction bytes with
  | nil => exact Nat.one_pos
  | cons b bytes ih =>
      have h_b : (b.toNat + 1) * 256 ^ bytes.length ≤ 256 * 256 ^ bytes.length :=
        Nat.mul_le_mul_right _ b.toNat_lt
      rw [ofBigEndian_cons, List.length_cons, Nat.pow_succ, Nat.mul_comm _ 256]
      rw [Nat.add_mul, Nat.one_mul] at h_b
      omega

/-- Bytes of one length are the same if they are the same number. -/
theorem ofBigEndian_inj {bytes other : List UInt8} (h_length : bytes.length = other.length)
    (h : ofBigEndian bytes = ofBigEndian other) : bytes = other := by
  induction bytes generalizing other with
  | nil => exact (List.length_eq_zero_iff.mp h_length.symm).symm
  | cons b bytes ih =>
      obtain ⟨c, other, rfl⟩ := List.exists_cons_of_length_eq_add_one h_length.symm
      rw [List.length_cons, List.length_cons, Nat.add_right_cancel_iff] at h_length
      have h_lt := ofBigEndian_lt bytes
      have h_otherLt := ofBigEndian_lt other
      rw [ofBigEndian_cons, ofBigEndian_cons, ← h_length] at h
      rw [← h_length] at h_otherLt
      have h_power : 0 < 256 ^ bytes.length := Nat.pow_pos (by decide)
      have h_first : b.toNat = c.toNat := by
        have h_quotient := congrArg (· / 256 ^ bytes.length) h
        simp only [Nat.mul_comm _ (256 ^ bytes.length), Nat.mul_add_div h_power,
          Nat.div_eq_of_lt h_lt, Nat.div_eq_of_lt h_otherLt, Nat.add_zero] at h_quotient
        exact h_quotient
      rw [h_first, Nat.add_left_cancel_iff] at h
      rw [UInt8.toNat_inj.mp h_first, ih h_length h]

/-! ## Integers -/

/-- The integer whose two's complement the bytes are. -/
def ofTwosComplement (bytes : List UInt8) : Int :=
  if 2 * ofBigEndian bytes < 256 ^ bytes.length then ofBigEndian bytes
  else ofBigEndian bytes - (256 ^ bytes.length : Nat)

/-- The integers that have a two's complement of `width` bytes. -/
def Fits (width : Nat) (n : Int) : Prop :=
  -(2 ^ (8 * width - 1) : Int) ≤ n ∧ n < 2 ^ (8 * width - 1)

instance (width : Nat) (n : Int) : Decidable (Fits width n) := inferInstanceAs (Decidable (_ ∧ _))

/-- `bytes` are the two's complement of `n` in `width` bytes. -/
structure TwosComplement (width : Nat) (n : Int) (bytes : List UInt8) : Prop where
  length_eq : bytes.length = width
  reads : ofTwosComplement bytes = n

/-- Half of the numbers of some bytes, as a power of two. -/
theorem pow_bytes {width : Nat} (h : 0 < width) : 256 ^ width = 2 * 2 ^ (8 * width - 1) := by
  have h_bits : 8 * width = 8 * width - 1 + 1 := by omega
  rw [Nat.mul_comm 2, ← Nat.pow_succ, Nat.succ_eq_add_one, ← h_bits, Nat.pow_mul]

theorem TwosComplement.fits {width : Nat} {n : Int} {bytes : List UInt8} (h_width : 0 < width)
    (h : TwosComplement width n bytes) : Fits width n := by
  obtain ⟨rfl, rfl⟩ := h
  have h_lt := ofBigEndian_lt bytes
  have h_power := pow_bytes h_width
  have h_half : ((2 ^ (8 * bytes.length - 1) : Nat) : Int) = 2 ^ (8 * bytes.length - 1) :=
    Int.natCast_pow 2 _
  rw [Fits, ofTwosComplement, ← h_half]
  generalize 2 ^ (8 * bytes.length - 1) = half at h_power
  split <;> omega

/-- An integer has one two's complement of a given width. -/
theorem TwosComplement.unique {width : Nat} {n : Int} {bytes other : List UInt8}
    (h : TwosComplement width n bytes) (h_other : TwosComplement width n other) :
    bytes = other := by
  have h_length := h.length_eq.trans h_other.length_eq.symm
  have h_lt := ofBigEndian_lt bytes
  have h_otherLt := ofBigEndian_lt other
  have h_reads := h.reads.trans h_other.reads.symm
  refine ofBigEndian_inj h_length ?_
  rw [ofTwosComplement, ofTwosComplement, ← h_length] at h_reads
  rw [← h_length] at h_otherLt
  generalize 256 ^ bytes.length = power at h_reads h_lt h_otherLt
  split at h_reads <;> split at h_reads <;> omega

/-- The bytes of an integer that fits, modulo a power of 256, are its two's complement. -/
theorem twosComplement_bigEndian {width : Nat} {n : Int} (h_width : 0 < width)
    (h : Fits width n) :
    TwosComplement width n (bigEndian (n % 2 ^ (8 * width)).toNat width) := by
  refine ⟨bigEndian_length _ width, ?_⟩
  have h_power := pow_bytes h_width
  have h_modulus : (2 ^ (8 * width) : Int) = (256 ^ width : Nat) := by
    rw [Int.natCast_pow, Int.pow_mul]
    rfl
  have h_half : (2 ^ (8 * width - 1) : Int) = (2 ^ (8 * width - 1) : Nat) :=
    (Int.natCast_pow 2 _).symm
  rw [Fits, h_half] at h
  rw [ofTwosComplement, ofBigEndian_bigEndian, bigEndian_length, h_modulus]
  generalize 256 ^ width = power at h_power
  generalize 2 ^ (8 * width - 1) = half at h_power h
  have h_pos : 0 < (power : Int) := by omega
  have h_nonneg := Int.emod_nonneg n (Int.ne_of_gt h_pos)
  have h_lt := Int.emod_lt_of_pos n h_pos
  rw [Nat.mod_eq_of_lt (by omega), Int.toNat_of_nonneg h_nonneg]
  -- The remainder is the integer itself, or one power more if it is negative.
  by_cases h_sign : 0 ≤ n
  · have h_mod : n % (power : Int) = n := Int.emod_eq_of_lt h_sign (by omega)
    rw [if_pos (by omega), h_mod]
  · have h_mod : n % (power : Int) = n + power := by
      rw [← Int.add_emod_right]
      exact Int.emod_eq_of_lt (by omega) (by omega)
    rw [if_neg (by omega), h_mod]
    omega

example : Fits 2 (-32768) ∧ ¬Fits 2 32768 ∧ ofTwosComplement [0xFF, 0xFE] = -2 := by decide

end SqlCompose
