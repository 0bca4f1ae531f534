/-
  SqlCompose.Proofs.Json.Number

  Numbers are read back. A `Numeral` is a number in its parts: its sign, the digits in
  front of the point and behind it, and an exponent. Reading finds the parts again,
  whatever follows (`readNumber_text`). A decimal is written as a numeral with the same
  value, with or without an exponent (`exists_numeral`), and the value is all that matters
  where it is rounded, so a number is read as the number that was written
  (`readNumber_numberText`).
-/
import Mathlib.Tactic.FieldSimp
import SqlCompose.Json.Reader
import SqlCompose.Json.Writer
import SqlCompose.Proofs.Binary.Shortest
import SqlCompose.Proofs.Scan.Text

namespace SqlCompose.Json

-- Powers are those of the core library, whatever else is in scope.
attribute [local instance (high)] instPowNat

/-! ## Digits -/

/-- At least one digit, and nothing else. -/
structure AreDigits (ds : List Char) : Prop where
  ne_nil : ds ≠ []
  isDigit : ∀ c ∈ ds, c.isDigit = true

theorem areDigits_toDigits (n : Nat) : AreDigits (Nat.toDigits 10 n) where
  ne_nil := Nat.toDigits_ne_nil
  isDigit := fun _ h => Nat.isDigit_of_mem_toDigits (by decide) (by decide) h

theorem AreDigits.append {ds es : List Char} (h : AreDigits ds)
    (h_more : ∀ c ∈ es, c.isDigit = true) : AreDigits (ds ++ es) where
  ne_nil := List.append_ne_nil_of_left_ne_nil h.ne_nil es
  isDigit := by
    intro c h_c
    rcases List.mem_append.mp h_c with h_c | h_c
    · exact h.isDigit c h_c
    · exact h_more c h_c

theorem isDigit_of_mem_zeros {n : Nat} {c : Char} (h : c ∈ List.replicate n '0') :
    c.isDigit = true := by
  rw [List.eq_of_mem_replicate h]
  rfl

theorem digitsAfter_append {ds rest : List Char} (h : AreDigits ds) (h_rest : EndsNumber rest) :
    digitsAfter (ds ++ rest) = some (ds, rest) := by
  have h_span : (ds ++ rest).span Char.isDigit = (ds, rest) := by
    rw [List.span_eq_takeWhile_dropWhile, List.takeWhile_append_of_pos h.isDigit,
      List.dropWhile_append_of_pos h.isDigit]
    cases rest with
    | nil => simp
    | cons c rest =>
        have h_c : c.isDigit = false := h_rest c rfl
        simp [h_c]
  rw [digitsAfter, h_span]
  cases ds with
  | nil => exact absurd rfl h.ne_nil
  | cons d ds => rfl

theorem ofDigits_toDigits (n : Nat) : ofDigits (Nat.toDigits 10 n) = n :=
  Nat.ofDigitChars_ten_toDigits

theorem ofDigits_zeros (ds : List Char) (n : Nat) :
    ofDigits (ds ++ List.replicate n '0') = 10 ^ n * ofDigits ds :=
  (Nat.ofDigitChars_append 0).trans Nat.ofDigitChars_replicate_zero

theorem ofDigits_zeros_append (n : Nat) (ds : List Char) :
    ofDigits (List.replicate n '0' ++ ds) = ofDigits ds := by
  have h_append : ofDigits (List.replicate n '0' ++ ds)
      = Nat.ofDigitChars 10 ds (ofDigits (List.replicate n '0')) := Nat.ofDigitChars_append 0
  have h_zero : ofDigits (List.replicate n '0') = 10 ^ n * 0 := Nat.ofDigitChars_replicate_zero
  rw [h_append, h_zero, Nat.mul_zero]
  rfl

/-- A natural number other than zero has no zero in front. -/
theorem head_toDigits {n : Nat} (h : 0 < n) : (Nat.toDigits 10 n).head? ≠ some '0' := by
  induction n using Nat.strongRecOn with
  | ind n ih =>
      by_cases h_lt : n < 10
      · rw [Nat.toDigits_of_lt_base h_lt]
        have h_all : ∀ m < 10, 0 < m → [m.digitChar].head? ≠ some '0' := by decide
        exact h_all n h_lt h
      · rw [Nat.toDigits_of_base_le (by decide) (by omega),
          List.head?_append_of_ne_nil _ Nat.toDigits_ne_nil]
        exact ih (n / 10) (by omega) (by omega)

/-! ## Numerals -/

/-- A number in its parts. -/
structure Numeral where
  negative : Bool
  /-- The digits in front of the point. -/
  whole : List Char
  /-- The digits behind the point, if there is one. -/
  fraction : Option (List Char) := none
  exponent : Option ℤ := none

namespace Numeral

/-- A fraction behind its point. -/
def fractionText : Option (List Char) → List Char
  | none => []
  | some ds => '.' :: ds

/-- An exponent behind its mark, always with a sign. -/
def exponentText : Option ℤ → List Char
  | none => []
  | some e => 'e' :: (if e < 0 then '-' else '+') :: Nat.toDigits 10 e.natAbs

/-- The parts behind the sign, one after the other. -/
def body (n : Numeral) : List Char :=
  n.whole ++ (fractionText n.fraction ++ exponentText n.exponent)

def text (n : Numeral) : List Char := (if n.negative then ['-'] else []) ++ n.body

/-- There are digits where digits are needed, and no zero in front of others. -/
structure WellFormed (n : Numeral) : Prop where
  whole : AreDigits n.whole
  leading : n.whole.length = 1 ∨ n.whole.head? ≠ some '0'
  fraction : ∀ ds ∈ n.fraction, AreDigits ds

/-- What a numeral stands for, without its sign. -/
def value (n : Numeral) : ℚ :=
  ofDigits (n.whole ++ n.fraction.getD []) *
    10 ^ (n.exponent.getD 0 - (n.fraction.getD []).length)

end Numeral

/-- The text goes on with no number. -/
def EndsNumeral (rest : List Char) : Prop :=
  ∀ c ∈ rest.head?, c.isDigit = false ∧ c ≠ '.' ∧ c ≠ 'e' ∧ c ≠ 'E'

theorem EndsNumeral.endsNumber {rest : List Char} (h : EndsNumeral rest) : EndsNumber rest :=
  fun c h_c => (h c h_c).1

/-! ## Reading the parts -/

theorem readExponent_text (e : Option ℤ) {rest : List Char} (h : EndsNumeral rest) :
    readExponent (Numeral.exponentText e ++ rest) = some (e, rest) := by
  cases e with
  | none =>
      cases rest with
      | nil => rfl
      | cons c rest =>
          obtain ⟨-, -, h_e, h_E⟩ := h c rfl
          have h_mark : ¬(c = 'e' ∨ c = 'E') := not_or.mpr ⟨h_e, h_E⟩
          exact if_neg h_mark
  | some e =>
      have h_digits := digitsAfter_append (areDigits_toDigits e.natAbs) h.endsNumber
      rw [Numeral.exponentText]
      by_cases h_sign : e < 0
      · have h_abs : -(e.natAbs : ℤ) = e := by omega
        rw [if_pos h_sign]
        show (digitsAfter (Nat.toDigits 10 e.natAbs ++ rest)).map _ = _
        rw [h_digits, Option.map_some]
        show some (some (-(ofDigits (Nat.toDigits 10 e.natAbs) : ℤ)), rest) = _
        rw [ofDigits_toDigits, h_abs]
      · have h_abs : (e.natAbs : ℤ) = e := by omega
        rw [if_neg h_sign]
        show (digitsAfter (Nat.toDigits 10 e.natAbs ++ rest)).map _ = _
        rw [h_digits, Option.map_some]
        show some (some (ofDigits (Nat.toDigits 10 e.natAbs) : ℤ), rest) = _
        rw [ofDigits_toDigits, h_abs]

/-- No digit and no point starts with the mark of an exponent, or with what ends a number. -/
theorem exponentText_append (e : Option ℤ) {rest : List Char} (h : EndsNumeral rest) :
    ∀ c ∈ (Numeral.exponentText e ++ rest).head?, c.isDigit = false ∧ c ≠ '.' := by
  intro c h_c
  cases e with
  | none => exact ⟨(h c h_c).1, (h c h_c).2.1⟩
  | some e =>
      rw [Numeral.exponentText, List.cons_append, List.head?_cons, Option.mem_some_iff] at h_c
      rw [← h_c]
      decide

theorem readFraction_text {fraction : Option (List Char)}
    (h : ∀ ds ∈ fraction, AreDigits ds) {rest : List Char}
    (h_rest : ∀ c ∈ rest.head?, c.isDigit = false ∧ c ≠ '.') :
    readFraction (Numeral.fractionText fraction ++ rest) = some (fraction, rest) := by
  cases fraction with
  | none =>
      rw [Numeral.fractionText, List.nil_append]
      cases rest with
      | nil => rfl
      | cons c rest =>
          have h_point : c ≠ '.' := (h_rest c rfl).2
          rw [readFraction]
          intro tail h_tail
          exact h_point (List.cons.inj h_tail).1
  | some ds =>
      show (digitsAfter (ds ++ rest)).map _ = _
      rw [digitsAfter_append (h ds rfl) fun c h_c => (h_rest c h_c).1]
      rfl

theorem fractionText_append (fraction : Option (List Char)) {rest : List Char}
    (h : ∀ c ∈ rest.head?, c.isDigit = false ∧ c ≠ '.') :
    EndsNumber (Numeral.fractionText fraction ++ rest) := by
  cases fraction with
  | none => exact fun c h_c => (h c h_c).1
  | some ds => exact endsNumber_cons _ rfl

/-- Reads a number behind its sign. -/
def readUnsigned (negative : Bool) (cs : List Char) : Option (Number × List Char) := do
  let (whole, cs) ← digitsAfter cs
  guard (whole.length = 1 ∨ whole.head? ≠ some '0')
  let (fraction, cs) ← readFraction cs
  let (exponent, cs) ← readExponent cs
  let n ← ofParts negative whole fraction exponent
  return (n, cs)

theorem readNumber_minus (cs : List Char) : readNumber ('-' :: cs) = readUnsigned true cs := rfl

theorem readNumber_digit {c : Char} (h : c.isDigit = true) (cs : List Char) :
    readNumber (c :: cs) = readUnsigned false (c :: cs) := by
  unfold readNumber
  split
  rename_i h_sign
  split at h_sign
  · rename_i h_minus
    rw [(List.cons.inj h_minus).1] at h
    cases h
  · cases h_sign
    rfl

theorem readUnsigned_text {n : Numeral} (h : n.WellFormed) {rest : List Char}
    (h_rest : EndsNumeral rest) :
    readUnsigned n.negative (n.whole ++ (Numeral.fractionText n.fraction ++
        (Numeral.exponentText n.exponent ++ rest)))
      = (ofParts n.negative n.whole n.fraction n.exponent).map (·, rest) := by
  have h_behind := exponentText_append n.exponent h_rest
  have h_digits := digitsAfter_append h.whole (fractionText_append n.fraction h_behind)
  have h_guard : (guard (n.whole.length = 1 ∨ n.whole.head? ≠ some '0') : Option Unit)
      = some () := if_pos h.leading
  rw [readUnsigned, h_digits]
  dsimp only [Option.bind_eq_bind, Option.bind_some]
  rw [h_guard, Option.bind_some, readFraction_text h.fraction h_behind]
  dsimp only [Option.bind_some]
  rw [readExponent_text n.exponent h_rest, Option.bind_some]
  cases ofParts n.negative n.whole n.fraction n.exponent with
  | none => rfl
  | some number => rfl

/-- Reading finds the parts of a numeral and stops behind them. -/
theorem readNumber_text {n : Numeral} (h : n.WellFormed) {rest : List Char}
    (h_rest : EndsNumeral rest) :
    readNumber (n.text ++ rest)
      = (ofParts n.negative n.whole n.fraction n.exponent).map (·, rest) := by
  rw [← readUnsigned_text h h_rest, Numeral.text, Numeral.body]
  cases n.negative with
  | true =>
      simp only [if_true, List.append_assoc, List.cons_append, List.nil_append]
      rw [readNumber_minus]
  | false =>
      simp only [Bool.false_eq_true, if_false, List.append_assoc, List.nil_append]
      cases h_whole : n.whole with
      | nil => exact absurd h_whole h.whole.ne_nil
      | cons c ds =>
          have h_c : c.isDigit = true := h.whole.isDigit c (h_whole ▸ List.mem_cons_self)
          rw [List.cons_append, readNumber_digit h_c]

/-! ## Numbers with a point or an exponent -/

/-- A numeral with a point or an exponent is rounded, whatever its digits are. -/
theorem ofParts_real {n : Numeral} (h_point : n.fraction.isSome ∨ n.exponent.isSome)
    {x : Double} (h_finite : x.isFinite = true) (h_negative : n.negative = x.negative)
    {tie : Tie} (h_value : n.value = (x.shortest tie).value) :
    ofParts n.negative n.whole n.fraction n.exponent = some (.real x h_finite) := by
  have h_real : ¬(n.fraction.isNone && n.exponent.isNone &&
      !(n.negative && ofDigits n.whole == 0)) = true := by
    rcases h_point with h | h
    · simp [Option.isNone_eq_false_iff.mpr h]
    · simp [Option.isNone_eq_false_iff.mpr h]
  rw [ofParts]
  simp only [if_neg h_real, Option.none_or]
  rw [h_negative, Binary.ofDecimal_of_value h_finite h_value, Number.ofDouble?, dif_pos h_finite]

/-- A numeral with the digits of a decimal, and zeros behind them, has its value. -/
theorem Numeral.value_eq {n : Numeral} {d : Decimal} (zeros : Nat)
    (h_digits : ofDigits (n.whole ++ n.fraction.getD []) = 10 ^ zeros * d.digits)
    (h_places : n.exponent.getD 0 - (n.fraction.getD []).length = d.exponent - zeros) :
    n.value = d.value := by
  have h_ten : (10 : ℚ) ^ zeros ≠ 0 := pow_ne_zero zeros (by norm_num)
  rw [Numeral.value, h_digits, h_places, Decimal.value, zpow_sub₀ (by norm_num), zpow_natCast]
  push_cast
  field_simp

/-- `n` writes the decimal with a point. -/
structure Numeral.Positional (n : Numeral) (negative : Bool) (d : Decimal) : Prop where
  wellFormed : n.WellFormed
  negative_eq : n.negative = negative
  isSome : n.fraction.isSome = true
  value_eq : n.value = d.value
  body_eq : n.body = (layout.positional d).toList

/-- A whole decimal is written with its zeros, and one more behind the point. -/
theorem positional_whole {d : Decimal} (h : d.digits = 0 → d.exponent = 0)
    (h_whole : 0 ≤ d.exponent) (negative : Bool) :
    Numeral.Positional
      ⟨negative, Nat.toDigits 10 d.digits ++ List.replicate d.exponent.toNat '0', some ['0'], none⟩
      negative d where
  wellFormed := by
    refine ⟨(areDigits_toDigits _).append fun _ => isDigit_of_mem_zeros, ?_, ?_⟩
    · by_cases h_zero : d.digits = 0
      · have h_none : d.exponent.toNat = 0 := by omega
        rw [h_zero, h_none]
        exact .inl rfl
      · rw [List.head?_append_of_ne_nil _ Nat.toDigits_ne_nil]
        exact .inr (head_toDigits (by omega))
    · rintro ds ⟨⟩
      exact areDigits_toDigits 0
  negative_eq := rfl
  isSome := rfl
  value_eq := by
    apply Numeral.value_eq (d.exponent.toNat + 1)
    · show ofDigits (_ ++ List.replicate d.exponent.toNat '0' ++ List.replicate 1 '0') = _
      rw [List.append_assoc, List.replicate_append_replicate, ofDigits_zeros, ofDigits_toDigits]
    · show (0 : ℤ) - (1 : Nat) = _
      omega
  body_eq := by
    rw [Layout.positional, if_pos h_whole]
    simp [Numeral.body, Numeral.fractionText, Numeral.exponentText, layout]

/-- A decimal is written with its point between two digits, if there is one on either side. -/
theorem positional_split {d : Decimal} {k : Nat} (h_negative : d.exponent < 0) (h_pos : 0 < k)
    (h_point : ((Nat.toDigits 10 d.digits).length : ℤ) + d.exponent = k) (negative : Bool) :
    Numeral.Positional
      ⟨negative, (Nat.toDigits 10 d.digits).take k, some ((Nat.toDigits 10 d.digits).drop k), none⟩
      negative d where
  wellFormed := by
    have h_digits := areDigits_toDigits d.digits
    refine ⟨⟨?_, fun c h_c => h_digits.isDigit c (List.mem_of_mem_take h_c)⟩, ?_, ?_⟩
    · rw [← List.length_pos_iff, List.length_take]
      omega
    · by_cases h_zero : d.digits = 0
      -- Zero has no second digit, so no point stands behind the first one.
      · have h_one : (Nat.toDigits 10 d.digits).length = 1 := by rw [h_zero]; rfl
        omega
      · rw [List.head?_take, if_neg (by omega)]
        exact .inr (head_toDigits (by omega))
    · rintro ds ⟨⟩
      refine ⟨?_, fun c h_c => h_digits.isDigit c (List.mem_of_mem_drop h_c)⟩
      rw [← List.length_pos_iff, List.length_drop]
      omega
  negative_eq := rfl
  isSome := rfl
  value_eq := by
    apply Numeral.value_eq 0
    · rw [Option.getD_some, List.take_append_drop, ofDigits_toDigits, Nat.pow_zero, Nat.one_mul]
    · show (0 : ℤ) - ((Nat.toDigits 10 d.digits).drop k).length = _
      rw [List.length_drop]
      omega
  body_eq := by
    rw [Layout.positional, if_neg (by omega), if_pos (by omega), h_point, Int.toNat_natCast]
    simp [Numeral.body, Numeral.fractionText, Numeral.exponentText]

/-- A decimal below one is written with zeros between its point and its digits. -/
theorem positional_small {d : Decimal} {k : Nat} (h_negative : d.exponent < 0)
    (h_point : -(((Nat.toDigits 10 d.digits).length : ℤ) + d.exponent) = k) (negative : Bool) :
    Numeral.Positional
      ⟨negative, ['0'], some (List.replicate k '0' ++ Nat.toDigits 10 d.digits), none⟩
      negative d where
  wellFormed := by
    have h_digits := areDigits_toDigits d.digits
    refine ⟨areDigits_toDigits 0, .inl rfl, ?_⟩
    rintro ds ⟨⟩
    refine ⟨List.append_ne_nil_of_right_ne_nil _ h_digits.ne_nil, ?_⟩
    intro c h_c
    rcases List.mem_append.mp h_c with h_c | h_c
    · exact isDigit_of_mem_zeros h_c
    · exact h_digits.isDigit c h_c
  negative_eq := rfl
  isSome := rfl
  value_eq := by
    apply Numeral.value_eq 0
    · show ofDigits (List.replicate 1 '0' ++ (List.replicate k '0' ++ _)) = _
      rw [ofDigits_zeros_append, ofDigits_zeros_append, ofDigits_toDigits, Nat.pow_zero,
        Nat.one_mul]
    · show (0 : ℤ) - (List.replicate k '0' ++ Nat.toDigits 10 d.digits).length = _
      rw [List.length_append, List.length_replicate]
      omega
  body_eq := by
    rw [Layout.positional, if_neg (by omega), if_neg (by omega), h_point, Int.toNat_natCast]
    simp [Numeral.body, Numeral.fractionText, Numeral.exponentText]

/-- A decimal is written as a numeral with its value. -/
theorem exists_numeral_positional {d : Decimal} (h : d.digits = 0 → d.exponent = 0)
    (negative : Bool) : ∃ n : Numeral, n.Positional negative d := by
  by_cases h_whole : 0 ≤ d.exponent
  · exact ⟨_, positional_whole h h_whole negative⟩
  have h_negative : d.exponent < 0 := Int.not_le.mp h_whole
  by_cases h_point : 0 < ((Nat.toDigits 10 d.digits).length : ℤ) + d.exponent
  · obtain ⟨k, h_k⟩ := Int.eq_ofNat_of_zero_le h_point.le
    exact ⟨_, positional_split h_negative (by omega) h_k negative⟩
  · obtain ⟨k, h_k⟩ := Int.eq_ofNat_of_zero_le
      (show 0 ≤ -(((Nat.toDigits 10 d.digits).length : ℤ) + d.exponent) by omega)
    exact ⟨_, positional_small h_negative h_k negative⟩

theorem toList_exponentMark (e : ℤ) :
    (if e < 0 then "e-" else "e+").toList = ['e', if e < 0 then '-' else '+'] := by
  by_cases h : e < 0
  · rw [if_pos h, if_pos h]
    rfl
  · rw [if_neg h, if_neg h]
    rfl

/-- A decimal with an exponent is a numeral with its value, too. -/
theorem exists_numeral_scientific (d : Decimal) (negative : Bool) :
    ∃ n : Numeral, n.WellFormed ∧ n.negative = negative ∧ n.exponent.isSome = true ∧
      n.value = d.value ∧ n.body = (Layout.scientific d).toList := by
  have h_digits := areDigits_toDigits d.digits
  have h_value := ofDigits_toDigits d.digits
  rw [Layout.scientific]
  obtain ⟨c, ds, h_eq⟩ := List.exists_cons_of_ne_nil h_digits.ne_nil
  rw [h_eq] at h_digits h_value ⊢
  have h_exponent : ((c :: ds).length : ℤ) - 1 + d.exponent = ds.length + d.exponent := by
    rw [List.length_cons]
    omega
  -- One digit stands alone; of more than one, the others are behind a point.
  refine ⟨⟨negative, [c], if ds = [] then none else some ds, some (ds.length + d.exponent)⟩,
    ⟨⟨nofun, ?_⟩, .inl rfl, ?_⟩, rfl, rfl, ?_, ?_⟩
  · intro c' h_c
    exact h_digits.isDigit c' (List.mem_of_mem_head? (List.mem_singleton.mp h_c ▸ rfl))
  · intro es h_es
    by_cases h_ds : ds = []
    · rw [if_pos h_ds] at h_es
      cases h_es
    · rw [if_neg h_ds] at h_es
      cases h_es
      exact ⟨h_ds, fun c' h_c => h_digits.isDigit c' (List.mem_cons_of_mem c h_c)⟩
  · have h_behind : (if ds = [] then none else some ds).getD [] = ds := by
      by_cases h_ds : ds = []
      · rw [if_pos h_ds, h_ds, Option.getD_none]
      · rw [if_neg h_ds, Option.getD_some]
    apply Numeral.value_eq 0
    · rw [h_behind, List.singleton_append, h_value, Nat.pow_zero, Nat.one_mul]
    · rw [h_behind, Option.getD_some]
      omega
  · rw [Numeral.body, Numeral.exponentText]
    simp only [h_exponent]
    cases ds with
    | nil => simp [Numeral.fractionText, toList_exponentMark]
    | cons e es => simp [Numeral.fractionText, toList_exponentMark]

/-- The text of a decimal is a numeral with its value, and with a point or an exponent. -/
theorem exists_numeral {d : Decimal} (h : d.digits = 0 → d.exponent = 0) (negative : Bool) :
    ∃ n : Numeral, n.WellFormed ∧ n.negative = negative ∧
      (n.fraction.isSome = true ∨ n.exponent.isSome = true) ∧
      n.value = d.value ∧ n.body = (layout.decimal d).toList := by
  rw [Layout.decimal]
  by_cases h_out : layout.writtenOut (Decimal.digitCount d.digits - 1 + d.exponent) = true
  · obtain ⟨n, h_n⟩ := exists_numeral_positional h negative
    rw [if_pos h_out]
    exact ⟨n, h_n.wellFormed, h_n.negative_eq, .inl h_n.isSome, h_n.value_eq, h_n.body_eq⟩
  · obtain ⟨n, h_n, h_negative, h_point, h_value, h_body⟩ := exists_numeral_scientific d negative
    rw [if_neg h_out]
    exact ⟨n, h_n, h_negative, .inr h_point, h_value, h_body⟩

/-! ## Numbers -/

theorem toList_int (n : ℤ) :
    (toString n).toList = (if n < 0 then ['-'] else []) ++ Nat.toDigits 10 n.natAbs := by
  show n.repr.toList = _
  rw [Int.repr_eq_if]
  by_cases h : n < 0
  · have h_abs : (-n).toNat = n.natAbs := by omega
    rw [if_neg (Int.not_le.mpr h), if_pos h, h_abs, Nat.repr_eq_ofList_toDigits,
      String.toList_append, String.toList_ofList, String.toList_ofList]
  · have h_abs : n.toNat = n.natAbs := by omega
    rw [if_pos (Int.not_lt.mp h), if_neg h, h_abs, Nat.repr_eq_ofList_toDigits,
      String.toList_ofList]
    rfl

/-- Without point and exponent, a numeral in range is a whole number. -/
theorem ofParts_whole (n : ℤ) (inRange : -2 ^ (63 : Nat) ≤ n ∧ n < 2 ^ (64 : Nat)) :
    ofParts (decide (n < 0)) (Nat.toDigits 10 n.natAbs) none none = some (.whole n inRange) := by
  have h_zero : (decide (n < 0) && n.natAbs == 0) = false := by
    rw [← Bool.not_eq_true, Bool.and_eq_true, decide_eq_true_eq, beq_iff_eq]
    omega
  have h_signed : (if decide (n < 0) = true then -(n.natAbs : ℤ) else n.natAbs) = n := by
    by_cases h : n < 0
    · rw [decide_eq_true h, if_pos rfl]
      omega
    · rw [decide_eq_false h, if_neg Bool.false_ne_true]
      omega
  simp only [ofParts, ofDigits_toDigits, h_zero, h_signed, Option.isNone_none, Bool.and_self,
    Bool.not_false, if_true, Number.ofInt?, dif_pos inRange, Option.some_or]

/-- The text of a number is a numeral of which the number is made. -/
theorem exists_numeral_numberText (number : Number) :
    ∃ n : Numeral, n.WellFormed ∧ n.text = (numberText number).toList ∧
      ofParts n.negative n.whole n.fraction n.exponent = some number := by
  cases number with
  | whole n inRange =>
      refine ⟨⟨decide (n < 0), Nat.toDigits 10 n.natAbs, none, none⟩,
        ⟨areDigits_toDigits _, ?_, nofun⟩, ?_, ?_⟩
      · by_cases h_zero : n.natAbs = 0
        · rw [h_zero]
          exact .inl rfl
        · exact .inr (head_toDigits (Nat.pos_of_ne_zero h_zero))
      · rw [numberText, toList_int, Numeral.text, Numeral.body]
        simp [Numeral.fractionText, Numeral.exponentText]
      · exact ofParts_whole n inRange
  | real x isFinite =>
      obtain ⟨n, h_n, h_negative, h_point, h_value, h_body⟩ :=
        exists_numeral (Binary.exponent_shortest isFinite layout.tie) x.negative
      refine ⟨n, h_n, ?_, ofParts_real h_point isFinite h_negative h_value⟩
      rw [Numeral.text, h_body, h_negative, numberText, Layout.text, String.toList_append]
      cases x.negative with
      | true => rfl
      | false => rfl

/-- A number is read back, and reading stops behind it. -/
theorem readNumber_numberText (n : Number) {rest : List Char} (h_rest : EndsNumeral rest) :
    readNumber ((numberText n).toList ++ rest) = some (n, rest) := by
  obtain ⟨numeral, h_numeral, h_text, h_parts⟩ := exists_numeral_numberText n
  rw [← h_text, readNumber_text h_numeral h_rest, h_parts]
  rfl

end SqlCompose.Json
