/-
  SqlCompose.Text.Cut

  Cutting a text to a number of bytes. In UTF-8 a character has one to four bytes, and a
  text can only be cut between two of its characters. `shorten?` takes a limit on the
  bytes back, byte by byte, to the last place where the text can be cut, and takes what
  is in front of it; `abbreviate` puts three dots behind a text that was shortened.

    * `isBoundary_iff_isValid`     -- the bytes tell where a text can be cut;
    * `isBoundary_lastBoundary`    -- going back ends at such a place;
    * `isSome_shorten?`            -- so no text is cut inside a character.
-/

namespace SqlCompose.Text

/-- Whether a byte goes on with a character that a byte in front of it starts. -/
def isContinuation (b : UInt8) : Bool := 0x80 ≤ b && b < 0xC0

/-- Whether a text can be cut in front of its byte `i`: at its two ends, and in front of
    a byte that starts a character. -/
def isBoundary (s : String) (i : Nat) : Bool :=
  if h : i < s.utf8ByteSize then
    i == 0 || !isContinuation (s.getUTF8Byte ⟨i⟩ (String.Pos.Raw.lt_iff.mpr h))
  else i == s.utf8ByteSize

/-- The last place in front of which there are at most `i` bytes and where `s` can be cut. -/
def lastBoundary (s : String) : Nat → Nat
  | 0 => 0
  | i + 1 => if isBoundary s (i + 1) then i + 1 else lastBoundary s i

/-- The first `i` bytes of a text, as a text. There is none if a character would be cut. -/
def front? (s : String) (i : Nat) : Option String :=
  if isBoundary s i then String.fromUTF8? (s.toUTF8.extract 0 i) else none

/-- A text that has more than `m` bytes is cut at the last place that `m` allows. -/
def shorten? (m : Nat) (s : String) : Option String :=
  if s.utf8ByteSize ≤ m then some s else front? s (lastBoundary s m)

/-! ## The bytes of a character -/

theorem isContinuation_ofNat_iff {n : Nat} (h : n < 256) :
    isContinuation (UInt8.ofNat n) = true ↔ 0x80 ≤ n ∧ n < 0xC0 := by
  have h_toNat : (UInt8.ofNat n).toNat = n := UInt8.toNat_ofNat_of_lt' h
  rw [isContinuation, Bool.and_eq_true, decide_eq_true_eq, decide_eq_true_eq,
    UInt8.le_iff_toNat_le, UInt8.lt_iff_toNat_lt, h_toNat]
  rfl

/-- The six bits that a byte behind the first carries, under its mark. -/
theorem isContinuation_marked (n : Nat) :
    isContinuation (UInt8.ofNat (n % 0x40 + 0x80)) = true := by
  rw [isContinuation_ofNat_iff (by omega)]
  omega

theorem isContinuation_eq_false {n : Nat} (h : n < 256) (h_start : n < 0x80 ∨ 0xC0 ≤ n) :
    isContinuation (UInt8.ofNat n) = false := by
  rw [← Bool.not_eq_true, isContinuation_ofNat_iff h]
  omega

/-- The first byte of a character starts it, and all others go on with it. -/
theorem utf8EncodeChar_eq_cons (c : Char) :
    ∃ first rest, String.utf8EncodeChar c = first :: rest ∧ isContinuation first = false ∧
      ∀ b ∈ rest, isContinuation b = true := by
  fun_cases String.utf8EncodeChar c with
  | case1 code h_ascii =>
      exact ⟨_, _, rfl, isContinuation_eq_false (by omega) (by omega), List.forall_mem_nil _⟩
  | case2 code =>
      refine ⟨_, _, rfl, isContinuation_eq_false (by omega) (by omega), ?_⟩
      simp only [List.forall_mem_singleton, isContinuation_marked]
  | case3 code =>
      refine ⟨_, _, rfl, isContinuation_eq_false (by omega) (by omega), ?_⟩
      simp only [List.forall_mem_cons, isContinuation_marked, List.not_mem_nil, false_implies,
        implies_true, and_self]
  | case4 code =>
      refine ⟨_, _, rfl, isContinuation_eq_false (by omega) (by omega), ?_⟩
      simp only [List.forall_mem_cons, isContinuation_marked, List.not_mem_nil, false_implies,
        implies_true, and_self]

theorem isUTF8FirstByte_iff {c : Char} {b : UInt8} (h : b ∈ String.utf8EncodeChar c) :
    b.IsUTF8FirstByte ↔ isContinuation b = false := by
  obtain ⟨first, rest, h_bytes, h_first, h_rest⟩ := utf8EncodeChar_eq_cons c
  obtain ⟨i, h_i, rfl⟩ := List.mem_iff_getElem.mp h
  rw [UInt8.isUTF8FirstByte_getElem_utf8EncodeChar]
  cases i with
  | zero => simp [h_bytes, h_first]
  | succ i =>
      have h_mem : (String.utf8EncodeChar c)[i + 1] ∈ rest := by simp [h_bytes]
      simp [h_rest _ h_mem]

/-- Every byte of a text is a byte of one of its characters. -/
theorem exists_getUTF8Byte_mem (s : String) {p : String.Pos.Raw} (h : p < s.rawEndPos) :
    ∃ c ∈ s.toList, s.getUTF8Byte p h ∈ String.utf8EncodeChar c := by
  have h_bytes : s.toByteArray = (s.toList.flatMap String.utf8EncodeChar).toByteArray := by
    conv => lhs; rw [← s.ofList_toList, String.toByteArray_ofList]
    rfl
  rw [← List.mem_flatMap]
  simp only [String.getUTF8Byte, h_bytes, List.getElem_toByteArray]
  exact List.getElem_mem _

/-! ## Where a text can be cut -/

theorem isBoundary_iff_isValid {s : String} {i : Nat} :
    isBoundary s i = true ↔ String.Pos.Raw.IsValid s ⟨i⟩ := by
  rw [String.Pos.Raw.isValid_iff_isUTF8FirstByte, isBoundary, String.Pos.Raw.ext_iff,
    String.byteIdx_rawEndPos]
  split
  case isTrue h_inside =>
    have h_byte : (s.getUTF8Byte ⟨i⟩ h_inside).IsUTF8FirstByte ↔
        isContinuation (s.getUTF8Byte ⟨i⟩ h_inside) = false := by
      obtain ⟨c, -, h_mem⟩ := exists_getUTF8Byte_mem s (String.Pos.Raw.lt_iff.mpr h_inside)
      exact isUTF8FirstByte_iff h_mem
    rw [Bool.or_eq_true, beq_iff_eq, Bool.not_eq_true', ← h_byte]
    constructor
    · rintro (rfl | h_first)
      -- In front of a text its first byte is not looked at, but it does start a character.
      · exact .inr ⟨h_inside, String.isUTF8FirstByte_getUTF8Byte_zero⟩
      · exact .inr ⟨h_inside, h_first⟩
    · rintro (h_end | ⟨_, h_first⟩)
      · exact absurd h_end (Nat.ne_of_lt h_inside)
      · exact .inr h_first
  case isFalse h_outside =>
    rw [beq_iff_eq]
    constructor
    · exact .inl
    · rintro (h_end | ⟨h_inside, -⟩)
      · exact h_end
      · exact absurd h_inside h_outside

/-- Going back ends where the text can be cut. -/
theorem isBoundary_lastBoundary (s : String) (m : Nat) :
    isBoundary s (lastBoundary s m) = true := by
  induction m with
  | zero => exact isBoundary_iff_isValid.mpr String.Pos.Raw.isValid_zero
  | succ i ih =>
      rw [lastBoundary]
      split
      case isTrue h_here => exact h_here
      case isFalse => exact ih

theorem isSome_front? {s : String} {i : Nat} (h : isBoundary s i = true) :
    (front? s i).isSome = true := by
  have h_bytes := (isBoundary_iff_isValid.mp h).isValidUTF8_extract_zero
  rw [front?, if_pos h, String.fromUTF8?, String.toUTF8_eq_toByteArray, dif_pos h_bytes]
  rfl

/-- A text can be shortened to every number of bytes. -/
theorem isSome_shorten? (m : Nat) (s : String) : (shorten? m s).isSome = true := by
  rw [shorten?]
  split
  case isTrue => rfl
  case isFalse => exact isSome_front? (isBoundary_lastBoundary s m)

/-- `s` if it has at most `m` bytes, else the shortened text and three dots. -/
def abbreviate (m : Nat) (s : String) : String :=
  if s.utf8ByteSize ≤ m then s else (shorten? m s).get (isSome_shorten? m s) ++ "..."

end SqlCompose.Text
