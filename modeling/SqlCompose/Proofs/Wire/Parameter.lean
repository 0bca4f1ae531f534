/-
  SqlCompose.Proofs.Wire.Parameter

  What is sent for a value of a type. `Sends ty v bytes` is the protocol: which bytes a
  database expects for the value, told by what they read back as. A value is of a kind
  that a type takes (`IsTakenBy`) or not, and an integer may be too large for an integer
  type that takes integers (`IsInRange`). The types that take a kind are listed here by
  their names, and so is what an error calls a kind (`IsCalled`).

  Every encoder here appends the same bytes to whatever the buffer holds
  (`Encoder.Appends`), and what it appends follows from the kind of the value and from
  the type (`appends_encode`). `encode_sends_or_refuses` draws the consequences, which
  `Encoded` lists: the outcome is decided by the kind, the type and the range alone, what
  is sent is what the protocol asks for and nothing else, and a refusal leaves the buffer
  as it is.
-/
import SqlCompose.Proofs.Json.RoundTrip
import SqlCompose.Proofs.Wire.TwosComplement

namespace SqlCompose

-- Powers are those of the core library, whatever else is in scope.
attribute [local instance (high)] instPowNat

/-! ## Types -/

namespace ColumnType

/-- The integer types, with the number of bytes of their parameters. -/
def integerTypes : List (ColumnType × Nat) :=
  [(.builtin "int2", 2), (.builtin "int4", 4), (.builtin "int8", 8)]

/-- The floating-point types, with the format of their parameters. -/
def realTypes : List (ColumnType × Format) :=
  [(.builtin "float4", .single), (.builtin "float8", .double)]

theorem integerTypes_pos {ty : ColumnType} {width : Nat} (h : (ty, width) ∈ integerTypes) :
    0 < width :=
  (by decide : ∀ entry ∈ integerTypes, 0 < entry.2) _ h

theorem integerTypes_unique {ty : ColumnType} {width other : Nat}
    (h : (ty, width) ∈ integerTypes) (h_other : (ty, other) ∈ integerTypes) : width = other :=
  (by decide : ∀ entry ∈ integerTypes, ∀ entry' ∈ integerTypes,
    entry.1 = entry'.1 → entry.2 = entry'.2) _ h _ h_other rfl

theorem realTypes_unique {ty : ColumnType} {f g : Format} (h : (ty, f) ∈ realTypes)
    (h_other : (ty, g) ∈ realTypes) : f = g :=
  (by decide : ∀ entry ∈ realTypes, ∀ entry' ∈ realTypes,
    entry.1 = entry'.1 → entry.2 = entry'.2) _ h _ h_other rfl

/-- No type is of both lists. -/
theorem not_mem_realTypes {ty : ColumnType} {width : Nat} {f : Format}
    (h : (ty, width) ∈ integerTypes) : (ty, f) ∉ realTypes := fun h_real =>
  (by decide : ∀ entry ∈ integerTypes, ∀ entry' ∈ realTypes, entry.1 ≠ entry'.1) _ h _ h_real rfl

/-- The type has one of these names, whether it is built in or was added to the database. -/
inductive Named (names : List String) : ColumnType → Prop where
  | builtin {typeName : String} (h : typeName ∈ names) : Named names (.builtin typeName)
  | custom (schema : String) {typeName : String} (h : typeName ∈ names) :
      Named names (.custom schema typeName)

theorem named_iff {names : List String} {ty : ColumnType} : Named names ty ↔ ty.name ∈ names := by
  constructor
  · rintro (h | ⟨_, h⟩)
    · exact h
    · exact h
  · intro h
    cases ty with
    | builtin typeName => exact .builtin h
    | custom schema typeName => exact .custom schema h

/-- The types of label paths, whose text is sent behind a version. -/
def IsLabelPath : ColumnType → Prop := Named ["ltree", "lquery", "ltxtquery"]

/-- The types that take text: some are built in, the others are known by their names. -/
def IsTextual (ty : ColumnType) : Prop :=
  ty ∈ [.builtin "text", .builtin "varchar", .builtin "bpchar", .builtin "name",
    .builtin "unknown"] ∨ Named ["citext"] ty ∨ ty.IsLabelPath

theorem mem_labelPathNames_iff {ty : ColumnType} : ty.name ∈ labelPathNames ↔ ty.IsLabelPath :=
  named_iff.symm

theorem takesText_iff {ty : ColumnType} : ty.takesText = true ↔ ty.IsTextual := by
  rw [takesText, Bool.or_eq_true, Bool.or_eq_true, List.contains_iff_mem, List.contains_iff_mem,
    mem_labelPathNames_iff, beq_iff_eq, IsTextual, named_iff, List.mem_singleton, or_assoc]
  rfl

theorem takesJson_iff {ty : ColumnType} :
    ty.takesJson = true ↔ ty = .builtin "json" ∨ ty = .builtin "jsonb" := by
  rw [takesJson, Bool.or_eq_true, beq_iff_eq, beq_iff_eq]

end ColumnType

open ColumnType

/-! ## The protocol -/

namespace Value

/-- The type takes values of the kind of this one. -/
def IsTakenBy (ty : ColumnType) : Value → Prop
  | .null => True
  | .bool _ => ty = .builtin "bool"
  | .int _ => (∃ width, (ty, width) ∈ integerTypes) ∨ ∃ f, (ty, f) ∈ realTypes
  | .float _ => ∃ f, (ty, f) ∈ realTypes
  | .text _ => ty.IsTextual
  | .json _ => ty = .builtin "json" ∨ ty = .builtin "jsonb"

/-- A type that was added to the database is none of the built-in ones, whatever it is called:
    it takes NULL, and text if it has the name of a text type that is known by its name. -/
theorem isTakenBy_custom_iff {schema typeName : String} {v : Value} :
    v.IsTakenBy (.custom schema typeName) ↔
      v = .null ∨ ∃ s, v = .text s ∧ typeName ∈ ["citext", "ltree", "lquery", "ltxtquery"] := by
  cases v with
  | null => simp [IsTakenBy]
  | bool => simp [IsTakenBy]
  | int => simp [IsTakenBy, integerTypes, realTypes]
  | float => simp [IsTakenBy, realTypes]
  | text => simp [IsTakenBy, IsTextual, IsLabelPath, named_iff, ColumnType.name]
  | json => simp [IsTakenBy]

/-- What an error calls a value that is not NULL: the type that is sent for it. -/
inductive IsCalled : Value → String → Prop where
  | bool (b : Bool) : IsCalled (.bool b) "bool"
  | int (n : Int64) : IsCalled (.int n) "i64"
  | float (x : Double) : IsCalled (.float x) "f64"
  | text (s : String) : IsCalled (.text s) "alloc::string::String"
  | json (j : Json) : IsCalled (.json j) "serde_json::value::Value"

theorem isCalled_iff {v : Value} {kind : String} :
    v.IsCalled kind ↔ v ≠ .null ∧ kind = v.kindName := by
  constructor
  · intro h
    cases h <;> exact ⟨nofun, rfl⟩
  · rintro ⟨h_some, rfl⟩
    cases v with
    | null => exact absurd rfl h_some
    | bool b => exact .bool b
    | int n => exact .int n
    | float x => exact .float x
    | text s => exact .text s
    | json j => exact .json j

/-- The value is no integer that an integer type is too narrow for. -/
def IsInRange (ty : ColumnType) (v : Value) : Prop :=
  ∀ n width, v = .int n → (ty, width) ∈ integerTypes → Fits width n.toInt

/-- The bytes read as the bits of a floating-point number. -/
structure Bits {f : Format} (x : Binary f) (bytes : List UInt8) : Prop where
  length_eq : bytes.length = f.width / 8
  reads : ofBigEndian bytes = x.bits.toNat

/-- What is sent for a value other than NULL. -/
inductive Sends (ty : ColumnType) : Value → List UInt8 → Prop where
  | bool (b : Bool) (h : ty = .builtin "bool") : Sends ty (.bool b) [if b then 1 else 0]
  | integer {n : Int64} {width : Nat} {bytes : List UInt8} (h : (ty, width) ∈ integerTypes)
      (h_bytes : TwosComplement width n.toInt bytes) : Sends ty (.int n) bytes
  | integerAsReal {n : Int64} {f : Format} {bytes : List UInt8} (h : (ty, f) ∈ realTypes)
      (h_bytes : Bits (Binary.ofInt n.toInt : Binary f) bytes) : Sends ty (.int n) bytes
  | single {x : Double} {bytes : List UInt8} (h : ty = .builtin "float4")
      (h_bytes : Bits (x.convert Format.single) bytes) : Sends ty (.float x) bytes
  | double {x : Double} {bytes : List UInt8} (h : ty = .builtin "float8")
      (h_bytes : Bits x bytes) : Sends ty (.float x) bytes
  | text (s : String) (h : ty.IsTextual) (h_plain : ¬ty.IsLabelPath) :
      Sends ty (.text s) s.toUTF8.data.toList
  | labelPath (s : String) (h : ty.IsLabelPath) : Sends ty (.text s) (1 :: s.toUTF8.data.toList)
  | json (j : Json) (h : ty = .builtin "json") : Sends ty (.json j) j.compact.toUTF8.data.toList
  | jsonb (j : Json) (h : ty = .builtin "jsonb") :
      Sends ty (.json j) (1 :: j.compact.toUTF8.data.toList)

end Value

/-! ## Appending -/

namespace Encoder

/-- The computation has this outcome and appends these bytes, whatever the buffer holds. -/
def Appends (x : Encoder Nullness) (result : Except EncodeError Nullness)
    (bytes : List UInt8) : Prop :=
  ∀ buffer : ByteArray, x.outcome buffer = (result, buffer ++ bytes.toByteArray)

theorem appends_pure (nullness : Nullness) : Appends (pure nullness) (.ok nullness) [] := by
  intro buffer
  rw [outcome_pure, List.toByteArray_nil, ByteArray.append_empty]

/-- A refusal appends nothing. -/
theorem appends_throw (error : EncodeError) : Appends (throw error) (.error error) [] := by
  intro buffer
  rw [outcome_throw, List.toByteArray_nil, ByteArray.append_empty]

theorem appends_put (bytes : List UInt8) : Appends (put bytes.toByteArray) (.ok .notNull) bytes :=
  fun buffer => outcome_put bytes.toByteArray buffer

theorem appends_putNat (n width : Nat) :
    Appends (putNat n width) (.ok .notNull) (bigEndian n width) :=
  appends_put _

theorem appends_putInt {width : Nat} {n : Int} (h : Fits width n) :
    Appends (putInt n width) (.ok .notNull) (bigEndian (n % 2 ^ (8 * width)).toNat width) := by
  have h_eq : putInt n width = putNat (n % 2 ^ (8 * width)).toNat width := if_pos h
  exact h_eq ▸ appends_putNat _ width

/-- An integer that does not fit is refused. -/
theorem putInt_eq_throw {width : Nat} {n : Int} (h : ¬Fits width n) :
    putInt n width = throw .outOfRange :=
  if_neg h

/-- The bytes of a text, with a version before them. -/
theorem appends_putText (version : List UInt8) (s : String) :
    Appends (put (version.toByteArray ++ s.toUTF8)) (.ok .notNull)
      (version ++ s.toUTF8.data.toList) := by
  have h_bytes : s.toUTF8.data.toList.toByteArray = s.toUTF8 :=
    ByteArray.ext (by rw [List.data_toByteArray, Array.toArray_toList])
  have h := appends_put (version ++ s.toUTF8.data.toList)
  rwa [List.toByteArray_append, h_bytes] at h

end Encoder

open Encoder

namespace Value

/-! ## What an encoder answers -/

variable {ty : ColumnType}

theorem bits_bigEndian {f : Format} (h : 8 ∣ f.width) (x : Binary f) :
    Bits x (bigEndian x.bits.toNat (f.width / 8)) := by
  refine ⟨bigEndian_length _ _, ?_⟩
  have h_power : 256 ^ (f.width / 8) = 2 ^ f.width := by
    rw [show 256 = 2 ^ 8 from rfl, ← Nat.pow_mul, Nat.mul_div_cancel' h]
  rw [ofBigEndian_bigEndian, h_power]
  exact Nat.mod_eq_of_lt x.bits.isLt

/-- The bits of a number are in one row of bytes. -/
theorem Bits.unique {f : Format} {x : Binary f} {bytes other : List UInt8} (h : Bits x bytes)
    (h_other : Bits x other) : bytes = other :=
  ofBigEndian_inj (h.length_eq.trans h_other.length_eq.symm) (h.reads.trans h_other.reads.symm)

/-- The four answers, each with its reason and with what it appends. -/
inductive Answers (ty : ColumnType) (v : Value) :
    Except EncodeError Nullness → List UInt8 → Prop where
  | null (h : v = .null) : Answers ty v (.ok .isNull) []
  | sent {bytes : List UInt8} (h : Sends ty v bytes) : Answers ty v (.ok .notNull) bytes
  | outOfRange (h_taken : v.IsTakenBy ty) (h_range : ¬v.IsInRange ty) :
      Answers ty v (.error .outOfRange) []
  | refused (h : ¬v.IsTakenBy ty) : Answers ty v (.error (.wrongType v.kindName ty)) []

/-- Every encoder of an integer type answers for the integers. -/
theorem exists_answers_putInt {n : Int64} {width : Nat} (h : (ty, width) ∈ integerTypes) :
    ∃ result bytes, (putInt n.toInt width).Appends result bytes ∧
      Answers ty (.int n) result bytes := by
  by_cases h_fits : Fits width n.toInt
  · have h_bytes := twosComplement_bigEndian (integerTypes_pos h) h_fits
    exact ⟨_, _, appends_putInt h_fits, .sent (.integer h h_bytes)⟩
  · refine ⟨_, _, putInt_eq_throw h_fits ▸ appends_throw _, .outOfRange (.inl ⟨width, h⟩) ?_⟩
    exact fun h_range => h_fits (h_range n width rfl h)

/-- Every encoder has one of the four answers, and appends what goes with it. -/
theorem appends_encode (ty : ColumnType) (v : Value) :
    ∃ result bytes, (v.encode ty).Appends result bytes ∧ Answers ty v result bytes := by
  cases v with
  | null => exact ⟨_, _, appends_pure _, .null rfl⟩
  | bool b =>
      rw [encode]
      split
      · rename_i h
        have h_byte : bigEndian b.toNat 1 = [if b then 1 else 0] := by cases b <;> rfl
        exact ⟨_, _, h_byte ▸ appends_putNat _ 1, .sent (.bool b h)⟩
      · rename_i h
        exact ⟨_, _, appends_throw _, .refused h⟩
  | int n =>
      rw [encode]
      -- One type after the other; what is left in the end is none of them.
      split
      · exact exists_answers_putInt (by simp_all [integerTypes])
      split
      · exact exists_answers_putInt (by simp_all [integerTypes])
      split
      · exact exists_answers_putInt (by simp_all [integerTypes])
      split
      · refine ⟨_, _, appends_putNat _ _, .sent (.integerAsReal ?_ (bits_bigEndian ?_ _))⟩
        · simp_all [realTypes]
        · decide
      split
      · refine ⟨_, _, appends_putNat _ _, .sent (.integerAsReal ?_ (bits_bigEndian ?_ _))⟩
        · simp_all [realTypes]
        · decide
      · refine ⟨_, _, appends_throw _, .refused ?_⟩
        simp_all [IsTakenBy, integerTypes, realTypes]
  | float x =>
      rw [encode]
      split
      · rename_i h
        exact ⟨_, _, appends_putNat _ _, .sent (.single h (bits_bigEndian (by decide) _))⟩
      split
      · rename_i h
        exact ⟨_, _, appends_putNat _ _, .sent (.double h (bits_bigEndian (by decide) _))⟩
      · refine ⟨_, _, appends_throw _, .refused ?_⟩
        simp_all [IsTakenBy, realTypes]
  | text s =>
      rw [encode]
      by_cases h : ty.takesText = true
      · by_cases h_path : ty.name ∈ labelPathNames
        · simp only [h, List.contains_iff_mem.mpr h_path, Bool.not_true, Bool.false_eq_true,
            ↓reduceIte]
          have h_label : ty.IsLabelPath := mem_labelPathNames_iff.mp h_path
          exact ⟨_, _, appends_putText [1] s, .sent (.labelPath s h_label)⟩
        · simp only [h, List.contains_iff_mem, h_path, Bool.not_true, Bool.false_eq_true,
            ↓reduceIte]
          have h_plain : ¬ty.IsLabelPath := mem_labelPathNames_iff.not.mp h_path
          exact ⟨_, _, appends_putText [] s, .sent (.text s (takesText_iff.mp h) h_plain)⟩
      · simp only [h, Bool.not_false, ↓reduceIte]
        exact ⟨_, _, appends_throw _, .refused fun h_taken => h (takesText_iff.mpr h_taken)⟩
  | json j =>
      rw [encode]
      by_cases h : ty.takesJson = true
      · rcases takesJson_iff.mp h with rfl | rfl
        · exact ⟨_, _, appends_putText [] j.compact, .sent (.json j rfl)⟩
        · exact ⟨_, _, appends_putText [1] j.compact, .sent (.jsonb j rfl)⟩
      · simp only [h, Bool.not_false, ↓reduceIte]
        exact ⟨_, _, appends_throw _, .refused fun h_taken => h (takesJson_iff.mpr h_taken)⟩

/-! ## What is sent -/

variable {v : Value} {bytes other : List UInt8}

theorem Sends.ne_null (h : Sends ty v bytes) : v ≠ .null := by
  cases h <;> exact nofun

theorem Sends.isTakenBy (h : Sends ty v bytes) : v.IsTakenBy ty := by
  cases h with
  | bool b h => exact h
  | integer h _ => exact .inl ⟨_, h⟩
  | integerAsReal h _ => exact .inr ⟨_, h⟩
  | single h _ => exact ⟨.single, by simp [h, realTypes]⟩
  | double h _ => exact ⟨.double, by simp [h, realTypes]⟩
  | text s h _ => exact h
  | labelPath s h => exact .inr (.inr h)
  | json j h => exact .inl h
  | jsonb j h => exact .inr h

/-- What is sent of an integer in an integer type reads back as the integer. -/
theorem Sends.twosComplement {n : Int64} {width : Nat} (h : Sends ty (.int n) bytes)
    (h_width : (ty, width) ∈ integerTypes) : TwosComplement width n.toInt bytes := by
  cases h with
  | integer h h_bytes =>
      obtain rfl := integerTypes_unique h h_width
      exact h_bytes
  | integerAsReal h _ => exact absurd h (not_mem_realTypes h_width)

theorem Sends.isInRange (h : Sends ty v bytes) : v.IsInRange ty := by
  rintro n width rfl h_width
  exact (h.twosComplement h_width).fits (integerTypes_pos h_width)

/-- What is sent of JSON is a text that is read as the same JSON, in `jsonb` behind a version. -/
theorem Sends.exists_parse?_iff {j : Json} (h : Sends ty (.json j) bytes) :
    ∃ s : String, (ty = .builtin "json" ∧ bytes = s.toUTF8.data.toList ∨
      ty = .builtin "jsonb" ∧ bytes = 1 :: s.toUTF8.data.toList) ∧
      (Json.parse? s = some j ↔ j.Sorted) := by
  refine ⟨j.compact, ?_, Json.parse?_compact_eq_some_iff j⟩
  cases h with
  | json j h => exact .inl ⟨h, rfl⟩
  | jsonb j h => exact .inr ⟨h, rfl⟩

/-- There is at most one way to send a value. -/
theorem Sends.unique (h : Sends ty v bytes) (h_other : Sends ty v other) : bytes = other := by
  cases h with
  | bool => cases h_other; rfl
  | integer h h_bytes =>
      cases h_other with
      | integer h' h_bytes' =>
          obtain rfl := integerTypes_unique h h'
          exact h_bytes.unique h_bytes'
      | integerAsReal h' => exact absurd h' (not_mem_realTypes h)
  | integerAsReal h h_bytes =>
      cases h_other with
      | integer h' => exact absurd h (not_mem_realTypes h')
      | integerAsReal h' h_bytes' =>
          obtain rfl := realTypes_unique h h'
          exact h_bytes.unique h_bytes'
  | single h h_bytes =>
      cases h_other with
      | single _ h_bytes' => exact h_bytes.unique h_bytes'
      | double h' => exact absurd (h.symm.trans h') (by decide)
  | double h h_bytes =>
      cases h_other with
      | single h' => exact absurd (h.symm.trans h') (by decide)
      | double _ h_bytes' => exact h_bytes.unique h_bytes'
  | text s _ h_plain =>
      cases h_other with
      | text => rfl
      | labelPath _ h_path => exact absurd h_path h_plain
  | labelPath s h_path =>
      cases h_other with
      | text _ _ h_plain => exact absurd h_path h_plain
      | labelPath => rfl
  | json j h =>
      cases h_other with
      | json => rfl
      | jsonb _ h' => exact absurd (h.symm.trans h') (by decide)
  | jsonb j h =>
      cases h_other with
      | json _ h' => exact absurd (h.symm.trans h') (by decide)
      | jsonb => rfl

/-! ## Telling the answers apart -/

variable {result : Except EncodeError Nullness}

theorem Answers.isNull_iff (h : Answers ty v result bytes) :
    result = .ok .isNull ↔ v = .null := by
  cases h with
  | null h => exact iff_of_true rfl h
  | sent h => exact iff_of_false nofun h.ne_null
  | outOfRange _ h_range => exact iff_of_false nofun fun h => h_range (h ▸ nofun)
  | refused h => exact iff_of_false nofun fun h_null => h (h_null ▸ trivial)

theorem Answers.notNull_iff (h : Answers ty v result bytes) :
    result = .ok .notNull ↔ v ≠ .null ∧ v.IsTakenBy ty ∧ v.IsInRange ty := by
  cases h with
  | null h => exact iff_of_false nofun fun h' => h'.1 h
  | sent h => exact iff_of_true rfl ⟨h.ne_null, h.isTakenBy, h.isInRange⟩
  | outOfRange _ h_range => exact iff_of_false nofun fun h' => h_range h'.2.2
  | refused h => exact iff_of_false nofun fun h' => h h'.2.1

theorem Answers.outOfRange_iff (h : Answers ty v result bytes) :
    result = .error .outOfRange ↔ v.IsTakenBy ty ∧ ¬v.IsInRange ty := by
  cases h with
  | null h => exact iff_of_false nofun fun h' => h'.2 (h ▸ nofun)
  | sent h => exact iff_of_false nofun fun h' => h'.2 h.isInRange
  | outOfRange h_taken h_range => exact iff_of_true rfl ⟨h_taken, h_range⟩
  | refused h => exact iff_of_false nofun fun h' => h h'.1

theorem Answers.wrongType_iff (h : Answers ty v result bytes) (kind : String)
    (given : ColumnType) :
    result = .error (.wrongType kind given) ↔
      ¬v.IsTakenBy ty ∧ v.IsCalled kind ∧ given = ty := by
  cases h with
  | null h => exact iff_of_false nofun fun h' => h'.1 (h ▸ trivial)
  | sent h => exact iff_of_false nofun fun h' => h'.1 h.isTakenBy
  | outOfRange h_taken _ => exact iff_of_false nofun fun h' => h'.1 h_taken
  | refused h =>
      have h_some : v ≠ .null := fun h_null => h (h_null ▸ trivial)
      rw [isCalled_iff]
      constructor
      · rintro ⟨⟩
        exact ⟨h, ⟨h_some, rfl⟩, rfl⟩
      · rintro ⟨-, ⟨-, rfl⟩, rfl⟩
        rfl

theorem Answers.sends_iff (h : Answers ty v result bytes) (sent : List UInt8) :
    Sends ty v sent ↔ result = .ok .notNull ∧ sent = bytes := by
  cases h with
  | null h => exact iff_of_false (fun h' => h'.ne_null h) nofun
  | sent h => exact ⟨fun h' => ⟨rfl, h'.unique h⟩, fun h' => h'.2 ▸ h⟩
  | outOfRange _ h_range => exact iff_of_false (fun h' => h_range h'.isInRange) nofun
  | refused h => exact iff_of_false (fun h' => h h'.isTakenBy) nofun

theorem Answers.bytes_eq_nil (h : Answers ty v result bytes) (h_result : result ≠ .ok .notNull) :
    bytes = [] := by
  cases h with
  | sent => exact absurd rfl h_result
  | null => rfl
  | outOfRange => rfl
  | refused => rfl

/-- In an integer type, the range is the range of the type. -/
theorem isInRange_int_iff {n : Int64} {width : Nat} (h : (ty, width) ∈ integerTypes) :
    (Value.int n).IsInRange ty ↔ Fits width n.toInt := by
  refine ⟨fun h_range => h_range n width rfl h, fun h_fits => ?_⟩
  rintro m other h_int h_other
  rw [← Value.int.inj h_int, ← integerTypes_unique h h_other]
  exact h_fits

/-- What the outcome and the appended bytes of a value are in a parameter of a type. -/
structure Encoded (ty : ColumnType) (v : Value) (result : Except EncodeError Nullness)
    (bytes : List UInt8) : Prop where
  /-- NULL is reported, and nothing else as NULL. -/
  isNull_iff : result = .ok .isNull ↔ v = .null
  /-- A value is sent if the type takes its kind and it is in range. -/
  notNull_iff : result = .ok .notNull ↔ v ≠ .null ∧ v.IsTakenBy ty ∧ v.IsInRange ty
  /-- An integer is out of range if the type takes its kind and is too narrow for it. -/
  outOfRange_iff : result = .error .outOfRange ↔ v.IsTakenBy ty ∧ ¬v.IsInRange ty
  /-- A kind that the type does not take is refused, and the error names the kind and the type. -/
  wrongType_iff : ∀ kind given, result = .error (.wrongType kind given) ↔
    ¬v.IsTakenBy ty ∧ v.IsCalled kind ∧ given = ty
  /-- What is sent is what the protocol asks for. -/
  sends_iff : ∀ sent, Sends ty v sent ↔ result = .ok .notNull ∧ sent = bytes
  /-- NULL and refusals append nothing. -/
  bytes_eq_nil : result ≠ .ok .notNull → bytes = []
  /-- An integer is sent in an integer type if it fits, in two's complement. -/
  integer : ∀ n width, v = .int n → (ty, width) ∈ integerTypes →
    (result = .ok .notNull ↔ Fits width n.toInt) ∧
    (result = .ok .notNull → TwosComplement width n.toInt bytes)
  /-- What is sent of JSON is read as the same JSON. -/
  json : ∀ j, v = .json j → result = .ok .notNull → ∃ s : String,
    (ty = .builtin "json" ∧ bytes = s.toUTF8.data.toList ∨
      ty = .builtin "jsonb" ∧ bytes = 1 :: s.toUTF8.data.toList) ∧
    (Json.parse? s = some j ↔ j.Sorted)
  /-- An added type takes text alone, and that only under the name of a text type. -/
  custom : ∀ schema typeName, ty = .custom schema typeName → (result = .ok .notNull ↔
    ∃ s, v = .text s ∧ typeName ∈ ["citext", "ltree", "lquery", "ltxtquery"])

theorem Answers.integer (h : Answers ty v result bytes) {n : Int64} {width : Nat}
    (h_int : v = .int n) (h_width : (ty, width) ∈ integerTypes) :
    (result = .ok .notNull ↔ Fits width n.toInt) ∧
    (result = .ok .notNull → TwosComplement width n.toInt bytes) := by
  subst h_int
  constructor
  · rw [h.notNull_iff, ← isInRange_int_iff h_width]
    exact ⟨fun h' => h'.2.2, fun h_range => ⟨nofun, .inl ⟨width, h_width⟩, h_range⟩⟩
  · intro h_result
    have h_sent : Sends ty (.int n) bytes := (h.sends_iff bytes).mpr ⟨h_result, rfl⟩
    exact h_sent.twosComplement h_width

theorem Answers.custom {schema typeName : String}
    (h : Answers (.custom schema typeName) v result bytes) :
    result = .ok .notNull ↔
      ∃ s, v = .text s ∧ typeName ∈ ["citext", "ltree", "lquery", "ltxtquery"] := by
  rw [h.notNull_iff, isTakenBy_custom_iff]
  constructor
  · rintro ⟨h_some, h_null | h_text, -⟩
    · exact absurd h_null h_some
    · exact h_text
  · rintro ⟨s, rfl, h_name⟩
    exact ⟨nofun, .inr ⟨s, rfl, h_name⟩, nofun⟩

theorem Answers.encoded (h : Answers ty v result bytes) : Encoded ty v result bytes where
  isNull_iff := h.isNull_iff
  notNull_iff := h.notNull_iff
  outOfRange_iff := h.outOfRange_iff
  wrongType_iff := h.wrongType_iff
  sends_iff := h.sends_iff
  bytes_eq_nil := h.bytes_eq_nil
  integer := fun _ _ h_int h_width => h.integer h_int h_width
  json := by
    rintro j rfl h_result
    exact ((h.sends_iff bytes).mpr ⟨h_result, rfl⟩).exists_parse?_iff
  custom := by
    rintro schema typeName rfl
    exact h.custom

/-! ## Encoding -/

section Outcome

variable {x : Encoder Nullness} (h_appends : x.Appends result bytes) (h : Encoded ty v result bytes)
include h_appends h

/-- What the protocol asks for is put behind what the buffer holds. -/
theorem Encoded.outcome_of_sends (h_sends : Sends ty v other) (buffer : ByteArray) :
    x.outcome buffer = (.ok .notNull, buffer ++ other.toByteArray) := by
  obtain ⟨h_result, h_bytes⟩ := (h.sends_iff other).mp h_sends
  rw [h_appends buffer, h_result, h_bytes]

theorem Encoded.outcome_of_error {error : EncodeError} (h_result : result = .error error)
    (buffer : ByteArray) : x.outcome buffer = (.error error, buffer) := by
  have h_nil : bytes = [] := h.bytes_eq_nil (h_result ▸ nofun)
  rw [h_appends buffer, h_result, h_nil, List.toByteArray_nil, ByteArray.append_empty]

end Outcome

/-- A value is sent exactly as the protocol asks for, or it is NULL, or it is refused and
    nothing is appended: for a kind that the type does not take, which the error names, or
    for an integer out of range. -/
theorem encode_sends_or_refuses (ty : ColumnType) (v : Value) :
    ∃ (result : Except EncodeError Nullness) (bytes : List UInt8),
      (v.encode ty).Appends result bytes ∧ Encoded ty v result bytes := by
  obtain ⟨result, bytes, h_appends, h⟩ := appends_encode ty v
  exact ⟨result, bytes, h_appends, h.encoded⟩

/-- The two bytes of a negative integer, an integer that is too large for them, and an
    integer for a type that only has the name of an integer type. -/
theorem encode_sends_or_refuses_narrow :
    ((int (-2)).encode (.builtin "int2")).outcome ⟨#[7]⟩ = (.ok .notNull, ⟨#[7, 255, 254]⟩) ∧
    ((int 32768).encode (.builtin "int2")).outcome ⟨#[7]⟩ = (.error .outOfRange, ⟨#[7]⟩) ∧
    ((int 1).encode (.custom "billing" "int2")).outcome ⟨#[7]⟩
      = (.error (.wrongType "i64" (.custom "billing" "int2")), ⟨#[7]⟩) ∧
    (EncodeError.wrongType "i64" (.custom "billing" "int2")).message?
      = some "cannot convert between the Rust type `i64` and the Postgres type `billing.int2`" := by
  have h_int2 : (ColumnType.builtin "int2", 2) ∈ integerTypes := List.mem_cons_self
  refine ⟨?_, ?_, ?_, by decide⟩
  · obtain ⟨result, bytes, h_appends, h⟩ := encode_sends_or_refuses (.builtin "int2") (int (-2))
    have h_sends : Sends (.builtin "int2") (int (-2)) [255, 254] :=
      .integer h_int2 ⟨rfl, by decide⟩
    exact h.outcome_of_sends h_appends h_sends ⟨#[7]⟩
  · obtain ⟨result, bytes, h_appends, h⟩ := encode_sends_or_refuses (.builtin "int2") (int 32768)
    have h_range : ¬(int 32768).IsInRange (.builtin "int2") :=
      fun h_range => absurd (h_range 32768 2 rfl h_int2) (by decide)
    have h_result := h.outOfRange_iff.mpr ⟨.inl ⟨2, h_int2⟩, h_range⟩
    exact h.outcome_of_error h_appends h_result ⟨#[7]⟩
  · obtain ⟨result, bytes, h_appends, h⟩ :=
      encode_sends_or_refuses (.custom "billing" "int2") (int 1)
    have h_taken : ¬(int 1).IsTakenBy (.custom "billing" "int2") := by
      rw [isTakenBy_custom_iff]
      rintro (h_null | ⟨s, h_text, -⟩)
      · cases h_null
      · cases h_text
    have h_result := (h.wrongType_iff _ _).mpr ⟨h_taken, .int 1, rfl⟩
    exact h.outcome_of_error h_appends h_result ⟨#[7]⟩

end Value

end SqlCompose
