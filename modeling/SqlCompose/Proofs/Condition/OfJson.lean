/-
  SqlCompose.Proofs.Condition.OfJson

  Which data is a condition.

    * An object is one if all its members can be read, and loses none of them
      (`ofJson_object`). All other data that is refused is refused in one way: it
      describes no condition, and this is reported once (`gives_or_refuses`).
    * A pair of a head and an operand is one if the column of the head holds no blank
      (`HeadText.ofJson_pair`). A name in quotes may hold blanks, and the head is cut
      inside such a name. The object with this column as its key is not refused.
-/
import SqlCompose.Proofs.Condition.Head

namespace SqlCompose.Condition

/-! ## Any data -/

theorem gives_iff_read {j : Json} {condition : Condition} :
    (ofJson j).Gives condition ↔ read j = .ok condition :=
  ⟨fun h => read_of_ofJson (h #[]), gives_of_read⟩

/-- Data is a condition, or it is refused for describing none. -/
theorem gives_or_refuses (j : Json) :
    (∃ condition, (ofJson j).Gives condition) ∨
      ∃ detail, (ofJson j).Refuses (.invalidCondition detail) := by
  cases h : read j with
  | ok condition => exact Or.inl ⟨condition, gives_of_read h⟩
  | error defect => exact Or.inr ⟨defect.message, refuses_of_read h⟩

/-! ## Objects -/

/-- An object is a condition if and only if all its keys are identifiers and all its
    values scalars. Each member then is one entry of the map, in the order of the object,
    with its key as it stands and with its value. Data that is no condition is refused
    for this, and this is reported once. -/
theorem ofJson_object {members : List (String × Json)} (h : Json.Ascending members) :
    ((∃ condition, (ofJson (.object members)).Gives condition) ↔
      ∀ member ∈ members,
        (∃ i, Identifier.parse member.1 = .ok i) ∧ member.2.isScalar = true) ∧
    (∀ condition, (ofJson (.object members)).Gives condition →
      ∃ m : ColumnMap, condition = .columns m ∧
        m = ColumnMap.ofList (members.map fun (key, j) => (key, Value.ofJson j)) ∧
        m.entries.toList = members.map fun (key, j) => (key, some (Value.ofJson j))) ∧
    ∀ j : Json, (¬∃ condition, (ofJson j).Gives condition) →
      ∃ detail, (ofJson j).Refuses (.invalidCondition detail) := by
  refine ⟨⟨?_, ?_⟩, ?_, ?_⟩
  · rintro ⟨condition, h_gives⟩
    exact (read_object_eq_ok_iff.mp (gives_iff_read.mp h_gives)).1
  · intro h_entry
    exact ⟨_, gives_of_read (read_object_eq_ok_iff.mpr ⟨h_entry, rfl⟩)⟩
  · intro condition h_gives
    obtain ⟨-, rfl⟩ := read_object_eq_ok_iff.mp (gives_iff_read.mp h_gives)
    exact ⟨_, rfl, rfl, entries_of_ascending h⟩
  · intro j h_none
    exact (gives_or_refuses j).resolve_left h_none

/-- A column in quotes and one that is a path; and a key that is no identifier. -/
theorem ofJson_object_quoted :
    let members : List (String × Json) :=
      [("\"Org Name\"", .string "acme"), ("u.id", .null)]
    Json.Ascending members ∧
    (∃ m : ColumnMap, (ofJson (.object members)).Gives (.columns m) ∧
      m.entries.toList = [("\"Org Name\"", some (.text "acme")), ("u.id", some .null)]) ∧
    ∃ detail, (ofJson (.object [("u.", .null)])).Refuses (.invalidCondition detail) := by
  intro members
  have h : Json.Ascending members := by
    rw [Json.Ascending]
    decide
  have h_quoted : Identifier.parse "\"Org Name\"" = .ok ⟨[.quoted "Org Name"]⟩ :=
    Identifier.parse_sql (i := ⟨[.quoted "Org Name"]⟩) (by decide)
  have h_path : Identifier.parse "u.id" = .ok ⟨[.word "u", .word "id"]⟩ :=
    Identifier.parse_sql (i := ⟨[.word "u", .word "id"]⟩) (by decide)
  have h_entry : ∀ member ∈ members,
      (∃ i, Identifier.parse member.1 = .ok i) ∧ member.2.isScalar = true := by
    intro member h_member
    simp only [members, List.mem_cons, List.not_mem_nil, or_false] at h_member
    rcases h_member with rfl | rfl
    · exact ⟨⟨_, h_quoted⟩, rfl⟩
    · exact ⟨⟨_, h_path⟩, rfl⟩
  obtain ⟨h_iff, h_entries, h_refused⟩ := ofJson_object h
  obtain ⟨condition, h_gives⟩ := h_iff.mpr h_entry
  obtain ⟨m, rfl, -, h_m⟩ := h_entries condition h_gives
  refine ⟨h, ⟨m, h_gives, h_m⟩, h_refused _ ?_⟩
  intro h_some
  have h_single : Json.Ascending [("u.", .null)] := List.pairwise_singleton (· < ·) "u."
  obtain ⟨⟨i, h_i⟩, -⟩ := (ofJson_object h_single).1.mp h_some ("u.", .null) List.mem_cons_self
  rw [Identifier.parse, Identifier.read, Identifier.readParts] at h_i
  cases h_i

/-! ## Pairs -/

theorem read_pair_of_head_error {head : String} {defect : Defect} (operand : Json)
    (h_head : readHead head = .error defect) :
    read (.array [.string head, operand]) = .error defect := by
  simp only [read, h_head]
  rfl

/-- A member on its own is an object. -/
theorem gives_single {name : String} {i : Identifier} (h_name : Identifier.parse name = .ok i)
    {j : Json} (h_scalar : j.isScalar = true) :
    (ofJson (.object [(name, j)])).Gives
      (.columns (ColumnMap.ofList [(name, Value.ofJson j)])) := by
  refine gives_of_read (read_object_eq_ok_iff.mpr ⟨?_, rfl⟩)
  rintro member h_member
  rw [List.mem_singleton.mp h_member]
  exact ⟨⟨i, h_name⟩, h_scalar⟩

/-- A pair is a comparison if its column holds no blank: the column as it stands, and
    the operator in its one spelling. If the column holds a blank, the pair is refused
    for an operator that is not there. The object with the column as its key is a
    condition in both cases. -/
theorem HeadText.ofJson_pair {name operator head : String} (h : HeadText name operator head)
    (h_operator : operator ∈ operators) {i : Identifier} (h_name : Identifier.parse name = .ok i)
    {operand : Json} (h_operand : operand.isOperand = true) :
    (Text.BlankFree name.toList →
      (ofJson (.array [.string head, operand])).Gives
        (.comparison (name ++ " " ++ operator)
          (some (Comparison.mk i operator operand).bindings))) ∧
    (¬Text.BlankFree name.toList →
      ∃ unknown, unknown ∉ operators ∧ (ofJson (.array [.string head, operand])).Refuses
        (.invalidCondition (Defect.unknownOperator unknown).message)) ∧
    (operand.isScalar = true →
      (ofJson (.object [(name, operand)])).Gives
        (.columns (ColumnMap.ofList [(name, Value.ofJson operand)]))) := by
  refine ⟨?_, ?_, gives_single h_name⟩
  · intro h_free
    have h_head := h.readHead_of_blankFree h_operator h_name h_free
    rw [Identifier.sql_of_parse h_name] at h_head
    obtain ⟨bindings, h_bindings⟩ := exists_readOperand_iff.mpr h_operand
    rw [← readOperand_eq_ok (q := ⟨i, operator, operand⟩) h_bindings]
    exact gives_of_read (read_pair_eq_ok_iff.mpr ⟨_, bindings, h_head, h_bindings, rfl⟩)
  · intro h_blank
    obtain ⟨unknown, h_unknown, h_head⟩ := h.readHead_of_blank h_operator h_name h_blank
    exact ⟨unknown, h_unknown, refuses_of_read (read_pair_of_head_error operand h_head)⟩

/-- Blanks around a head and between the words of its operator, which is in mixed case. -/
theorem HeadText.ofJson_pair_spelled :
    let head := "\tu.id  nOt \tIN "
    let operand : Json := .array [.string "a", .null]
    HeadText "u.id" "NOT IN" head ∧ "NOT IN" ∈ operators ∧ operand.isOperand = true ∧
    Text.BlankFree "u.id".toList ∧
    (ofJson (.array [.string head, operand])).Gives
      (.comparison "u.id NOT IN" (some (.list [.text "a", .null]))) := by
  intro head operand
  have h_spells : Text.Spells "NOT IN".toList "nOt \tIN".toList :=
    .char rfl rfl (.char rfl rfl (.char rfl rfl (.space (List.cons_ne_nil ' ' ['\t']) (by decide)
      (.char rfl rfl (.char rfl rfl .nil)))))
  have h_lead : Text.Blanks ['\t'] := by decide
  have h_gap : Text.Blanks [' ', ' '] := by decide
  have h_trail : Text.Blanks [' '] := by decide
  have h : HeadText "u.id" "NOT IN" head :=
    .mk h_lead (List.cons_ne_nil ' ' [' ']) h_gap h_spells h_trail (by decide)
  have h_name : Identifier.parse "u.id" = .ok ⟨[.word "u", .word "id"]⟩ :=
    Identifier.parse_sql (i := ⟨[.word "u", .word "id"]⟩) (by decide)
  have h_operator : "NOT IN" ∈ operators := by decide
  have h_operand : operand.isOperand = true := rfl
  have h_free : Text.BlankFree "u.id".toList := by decide
  exact ⟨h, h_operator, h_operand, h_free, (h.ofJson_pair h_operator h_name h_operand).1 h_free⟩

/-- The name `"Org Name"` in quotes is a column and `=` an operator, and the object with
    this column is a condition, but the pair is none. -/
theorem HeadText.not_gives_quoted :
    let name := "\"Org Name\""
    let head := "\"Org Name\" ="
    let operand : Json := .string "acme"
    HeadText name "=" head ∧ "=" ∈ operators ∧ (∃ i, Identifier.parse name = .ok i) ∧
    operand.isOperand = true ∧
    (∃ condition, (ofJson (.object [(name, operand)])).Gives condition) ∧
    ¬∃ condition, (ofJson (.array [.string head, operand])).Gives condition := by
  intro name head operand
  have h_spells : Text.Spells "=".toList ['='] := .char rfl rfl .nil
  have h_around : Text.Blanks [] := by decide
  have h_gap : Text.Blanks [' '] := by decide
  have h : HeadText name "=" head :=
    .mk h_around (List.cons_ne_nil ' ' []) h_gap h_spells h_around (by decide)
  have h_name : Identifier.parse name = .ok ⟨[.quoted "Org Name"]⟩ :=
    Identifier.parse_sql (i := ⟨[.quoted "Org Name"]⟩) (by decide)
  have h_operator : "=" ∈ operators := by decide
  obtain ⟨unknown, -, h_head⟩ := h.readHead_of_blank h_operator h_name (by decide)
  refine ⟨h, h_operator, ⟨_, h_name⟩, rfl, ⟨_, gives_single h_name rfl⟩, ?_⟩
  rintro ⟨condition, h_gives⟩
  exact (refuses_of_read (read_pair_of_head_error operand h_head)).not_gives condition h_gives

end SqlCompose.Condition
