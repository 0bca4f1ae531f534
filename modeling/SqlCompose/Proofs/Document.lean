/-
  SqlCompose.Proofs.Document

  What JSON data asks for, and that this is what is read from it.

  `Json.comparisons` lists the comparisons that data describes, each with the
  identifier, the operator and the JSON operand it names. It takes data apart and
  checks nothing but that columns are identifiers. Reading the data as a condition
  gives exactly these comparisons (`Document.plays_of_read`), and every one that is
  read has a valid column and a known operator (`Condition.lawful_of_read`).

  What is read is said exactly: a pair if its head and its operand are read
  (`read_pair_eq_ok_iff`), an object if all its members can be (`read_object_eq_ok_iff`).
  An object becomes a column map, in which a column has one place. That no member
  is lost there rests on two facts: the keys of an object differ, and a column is
  written as its key was (`Identifier.sql_of_parse`).
-/
import SqlCompose.Fragment.OfJson
import SqlCompose.Proofs.ColumnMap.Index
import SqlCompose.Proofs.Identifier.RoundTrip
import SqlCompose.Proofs.Plan

namespace SqlCompose

/-- JSON data as it is received: the members of every object are in ascending order
    of their keys, each key once. -/
structure Document where
  json : Json
  sorted : json.Sorted

/-- A comparison that JSON data describes. -/
structure Comparison where
  column : Identifier
  operator : String
  operand : Json

namespace Comparison

/-- The text in front of what is compared. -/
def head (q : Comparison) : String := q.column.sql ++ " " ++ q.operator

/-- The JSON values that are bound: the items of a list, else the operand itself. -/
def bound (q : Comparison) : List Json :=
  match q.operand with
  | .array items => items
  | j => [j]

/-- What the comparison is made with. -/
def bindings (q : Comparison) : Operand :=
  match q.operand with
  | .array items => .list (items.map Value.ofJson)
  | j => .value (Value.ofJson j)

def outline (q : Comparison) : Outline := q.bindings.outline q.head

/-- The column is an identifier that can be written, and the operator a known one. -/
structure Lawful (q : Comparison) : Prop where
  column : q.column.isValid = true
  operator : q.operator ∈ Condition.operators

theorem values_outline (q : Comparison) : q.outline.values = q.bound.map Value.ofJson := by
  rw [outline, Operand.values_outline, bindings, bound]
  cases q.operand with
  | array items => rfl
  | null | bool _ | number _ | string _ | object _ => rfl

end Comparison

namespace Json

/-- The column and the operator of a head; the column ends at the first blank. -/
def headOf? (head : String) : Option (Identifier × String) :=
  match Text.cutAtBlank (Text.trimBlanks head.toList) with
  | none => none
  | some (column, rest) =>
    match Identifier.parse (String.ofList column) with
    | .ok i => some (i, Condition.canonicalOperator rest)
    | .error _ => none

/-- The comparison with `=` that a member of an object describes. -/
def memberComparison? (member : String × Json) : Option Comparison :=
  match Identifier.parse member.1 with
  | .ok i => some ⟨i, "=", member.2⟩
  | .error _ => none

/-- The comparisons that data describes, in order. -/
def comparisons : Json → List Comparison
  | .array [.string head, operand] =>
    match headOf? head with
    | some (column, operator) => [⟨column, operator, operand⟩]
    | none => []
  | .object members => members.filterMap memberComparison?
  | _ => []

/-- Whether the data is an object. -/
def isObject : Json → Bool
  | .object _ => true
  | _ => false

/-- Whether the data can be compared with: anything but an array with an item that is an
    array or an object. -/
def isOperand : Json → Bool
  | .array items => items.all isScalar
  | _ => true

end Json

namespace Condition

/-! ## Pairs -/

theorem readColumn_eq_ok {name column : String} (h : readColumn name = .ok column) :
    ∃ i, Identifier.parse name = .ok i ∧ column = i.sql := by
  rw [readColumn] at h
  cases h_parse : Identifier.parse name with
  | error cause => simp [h_parse] at h
  | ok i =>
      rw [h_parse, Except.ok.injEq] at h
      exact ⟨i, rfl, h.symm⟩

/-- A column is written as its name was. -/
theorem readColumn_of_parse {name : String} {i : Identifier} (h : Identifier.parse name = .ok i) :
    readColumn name = .ok name := by
  rw [readColumn, h]
  exact congrArg Except.ok (Identifier.sql_of_parse h)

/-- A head that is read is a valid column and a known operator. -/
theorem readHead_eq_ok {head text : String} (h : readHead head = .ok text) :
    ∃ i operator, Json.headOf? head = some (i, operator) ∧ i.isValid = true ∧
      operator ∈ operators ∧ text = i.sql ++ " " ++ operator := by
  simp only [readHead] at h
  cases h_cut : Text.cutAtBlank (Text.trimBlanks head.toList) with
  | none => simp [h_cut] at h
  | some parts =>
      obtain ⟨column, rest⟩ := parts
      simp only [h_cut] at h
      by_cases h_known : operators.contains (canonicalOperator rest) = true
      · rw [if_pos h_known] at h
        cases h_column : readColumn (String.ofList column) with
        | error cause =>
            rw [h_column] at h
            simp [Except.map] at h
        | ok name =>
            obtain ⟨i, h_parse, rfl⟩ := readColumn_eq_ok h_column
            rw [h_column] at h
            simp only [Except.map, Except.ok.injEq] at h
            refine ⟨i, canonicalOperator rest, ?_, Identifier.isValid_of_parse h_parse, ?_, h.symm⟩
            · simp only [Json.headOf?, h_cut, h_parse]
            · exact List.contains_iff_mem.mp h_known
      · rw [if_neg h_known] at h
        simp at h

theorem readScalar_eq_ok {j : Json} {v : Value} (h : readScalar j = .ok v) :
    j.isScalar = true ∧ v = Value.ofJson j := by
  rw [readScalar] at h
  by_cases h_scalar : j.isScalar = true
  · rw [if_pos h_scalar, Except.ok.injEq] at h
    exact ⟨h_scalar, h.symm⟩
  · rw [if_neg h_scalar] at h
    simp at h

theorem readScalar_of_isScalar {j : Json} (h : j.isScalar = true) :
    readScalar j = .ok (Value.ofJson j) := by
  rw [readScalar, if_pos h]

theorem readScalars_eq_ok {items : List Json} {vs : List Value} (h : readScalars items = .ok vs) :
    (∀ j ∈ items, j.isScalar = true) ∧ vs = items.map Value.ofJson := by
  induction items generalizing vs with
  | nil =>
      rw [readScalars, Except.ok.injEq] at h
      exact ⟨fun j h_j => absurd h_j List.not_mem_nil, h.symm⟩
  | cons j items ih =>
      rw [readScalars] at h
      cases h_first : readScalar j with
      | error cause => simp [h_first, bind, Except.bind] at h
      | ok v =>
          cases h_rest : readScalars items with
          | error cause => simp [h_first, h_rest, bind, Except.bind] at h
          | ok ws =>
              simp only [h_first, h_rest, bind, Except.bind, pure, Except.pure,
                Except.ok.injEq] at h
              obtain ⟨h_scalar, rfl⟩ := readScalar_eq_ok h_first
              obtain ⟨h_scalars, rfl⟩ := ih h_rest
              refine ⟨?_, h.symm⟩
              intro i h_i
              rcases List.mem_cons.mp h_i with rfl | h_i
              · exact h_scalar
              · exact h_scalars i h_i

theorem readScalars_of_isScalar {items : List Json} (h : ∀ j ∈ items, j.isScalar = true) :
    readScalars items = .ok (items.map Value.ofJson) := by
  induction items with
  | nil => rfl
  | cons j items ih =>
      rw [readScalars, readScalar_of_isScalar (h j List.mem_cons_self),
        ih fun k h_k => h k (List.mem_cons_of_mem j h_k)]
      rfl

theorem readOperand_eq_ok {q : Comparison} {operand : Operand}
    (h : readOperand q.operand = .ok operand) : operand = q.bindings := by
  rw [Comparison.bindings]
  cases h_operand : q.operand with
  | array items =>
      rw [h_operand, readOperand] at h
      cases h_items : readScalars items with
      | error cause => simp [h_items, Except.map] at h
      | ok vs =>
          simp only [h_items, Except.map, Except.ok.injEq] at h
          rw [← h, (readScalars_eq_ok h_items).2]
  | _ =>
      rw [h_operand] at h
      simp only [readOperand, Except.ok.injEq] at h
      exact h.symm

theorem exists_readOperand_iff {j : Json} :
    (∃ operand, readOperand j = .ok operand) ↔ j.isOperand = true := by
  cases j with
  | array items =>
      rw [readOperand, Json.isOperand, List.all_eq_true]
      constructor
      · rintro ⟨operand, h⟩
        cases h_items : readScalars items with
        | error cause => simp [h_items, Except.map] at h
        | ok vs => exact (readScalars_eq_ok h_items).1
      · intro h
        rw [readScalars_of_isScalar h]
        exact ⟨_, rfl⟩
  | null | bool _ | number _ | string _ | object _ => exact ⟨fun _ => rfl, fun _ => ⟨_, rfl⟩⟩

/-- A pair is read if its head and its operand are. -/
theorem read_pair_eq_ok_iff {head : String} {j : Json} {condition : Condition} :
    read (.array [.string head, j]) = .ok condition ↔
      ∃ text operand, readHead head = .ok text ∧ readOperand j = .ok operand ∧
        condition = .comparison text (some operand) := by
  simp only [read]
  constructor
  · intro h
    cases h_head : readHead head with
    | error cause => simp [h_head, bind, Except.bind] at h
    | ok text =>
        cases h_operand : readOperand j with
        | error cause => simp [h_head, h_operand, bind, Except.bind] at h
        | ok operand =>
            simp only [h_head, h_operand, bind, Except.bind, pure, Except.pure,
              Except.ok.injEq] at h
            exact ⟨text, operand, rfl, rfl, h.symm⟩
  · rintro ⟨text, operand, h_head, h_operand, rfl⟩
    rw [h_head, h_operand]
    rfl

/-! ## Objects -/

/-- A member of an object that can be read: its key is an identifier and its value a
    scalar. -/
def IsEntry (member : String × Json) : Prop :=
  (∃ i, Identifier.parse member.1 = .ok i) ∧ member.2.isScalar = true

/-- The column and the value of a member. -/
def entry (member : String × Json) : String × Value := (member.1, Value.ofJson member.2)

/-- Members are read if all of them can be, and then assigned one after the other. -/
theorem readMembers_eq_ok_iff {members : List (String × Json)} {m n : ColumnMap} :
    readMembers m members = .ok n ↔
      (∀ member ∈ members, IsEntry member) ∧ n = m.assignAll (members.map entry) := by
  induction members generalizing m with
  | nil => simp [readMembers, ColumnMap.assignAll, eq_comm]
  | cons member members ih =>
      obtain ⟨key, j⟩ := member
      rw [List.forall_mem_cons, List.map_cons, ColumnMap.assignAll_cons, readMembers]
      constructor
      · intro h
        cases h_column : readColumn key with
        | error cause => simp [h_column, bind, Except.bind] at h
        | ok column =>
            cases h_scalar : readScalar j with
            | error cause => simp [h_column, h_scalar, bind, Except.bind] at h
            | ok v =>
                simp only [h_column, h_scalar, bind, Except.bind] at h
                obtain ⟨i, h_parse, rfl⟩ := readColumn_eq_ok h_column
                obtain ⟨h_isScalar, rfl⟩ := readScalar_eq_ok h_scalar
                obtain ⟨h_rest, rfl⟩ := ih.mp h
                rw [Identifier.sql_of_parse h_parse]
                exact ⟨⟨⟨⟨i, h_parse⟩, h_isScalar⟩, h_rest⟩, rfl⟩
      · rintro ⟨⟨⟨⟨i, h_parse⟩, h_isScalar⟩, h_rest⟩, rfl⟩
        rw [readColumn_of_parse h_parse, readScalar_of_isScalar h_isScalar]
        exact ih.mpr ⟨h_rest, rfl⟩

/-- An object is read if all its members can be, and is the map of their entries. -/
theorem read_object_eq_ok_iff {members : List (String × Json)} {condition : Condition} :
    read (.object members) = .ok condition ↔
      (∀ member ∈ members, IsEntry member) ∧
        condition = .columns (ColumnMap.ofList (members.map entry)) := by
  rw [read]
  constructor
  · intro h
    cases h_members : readMembers .empty members with
    | error cause => simp [h_members, Except.map] at h
    | ok m =>
        simp only [h_members, Except.map, Except.ok.injEq] at h
        obtain ⟨h_entry, rfl⟩ := readMembers_eq_ok_iff.mp h_members
        exact ⟨h_entry, h.symm⟩
  · rintro ⟨h_entry, rfl⟩
    rw [readMembers_eq_ok_iff.mpr ⟨h_entry, rfl⟩]
    rfl

/-- The keys of an object differ, so each of its members has an entry, in their order. -/
theorem entries_of_ascending {members : List (String × Json)} (h : Json.Ascending members) :
    (ColumnMap.ofList (members.map entry)).entries.toList
      = members.map fun (key, j) => (key, some (Value.ofJson j)) := by
  have h_keys : ((members.map entry).map Prod.fst).Nodup := by
    rw [List.map_map]
    refine h.imp ?_
    intro a b h_lt h_eq
    exact String.lt_irrefl a (h_eq ▸ h_lt)
  rw [ColumnMap.entries_ofList h_keys, List.map_map]
  rfl

theorem memberComparison_of_parse {member : String × Json} {i : Identifier}
    (h : Identifier.parse member.1 = .ok i) :
    Json.memberComparison? member = some ⟨i, "=", member.2⟩ := by
  rw [Json.memberComparison?, h]

/-- The comparisons of members that are read are lawful and are made with scalars. -/
theorem lawful_of_isEntry {members : List (String × Json)}
    (h : ∀ member ∈ members, IsEntry member) {q : Comparison}
    (h_q : q ∈ members.filterMap Json.memberComparison?) : q.Lawful ∧ q.operand.isScalar = true := by
  obtain ⟨member, h_member, h_comparison⟩ := List.mem_filterMap.mp h_q
  obtain ⟨⟨i, h_parse⟩, h_isScalar⟩ := h member h_member
  rw [memberComparison_of_parse h_parse, Option.some.injEq] at h_comparison
  subst h_comparison
  exact ⟨⟨Identifier.isValid_of_parse h_parse, List.mem_cons_self⟩, h_isScalar⟩

/-- No member that is read is without a comparison, and its column is its key. -/
theorem map_comparisons_of_isEntry {members : List (String × Json)}
    (h : ∀ member ∈ members, IsEntry member) :
    (members.filterMap Json.memberComparison?).map
        (fun q => (q.column.sql, some (Value.ofJson q.operand)))
      = members.map fun (key, j) => (key, some (Value.ofJson j)) := by
  induction members with
  | nil => rfl
  | cons member members ih =>
      obtain ⟨⟨i, h_parse⟩, -⟩ := h member List.mem_cons_self
      rw [List.filterMap_cons_some (memberComparison_of_parse h_parse), List.map_cons,
        List.map_cons, ih fun other h_other => h other (List.mem_cons_of_mem member h_other),
        Identifier.sql_of_parse h_parse]

theorem operator_of_memberComparison {q : Comparison} {members : List (String × Json)}
    (h : q ∈ members.filterMap Json.memberComparison?) : q.operator = "=" := by
  obtain ⟨member, -, h_member⟩ := List.mem_filterMap.mp h
  rw [Json.memberComparison?] at h_member
  cases h_parse : Identifier.parse member.1 with
  | error cause => simp [h_parse] at h_member
  | ok i =>
      rw [h_parse, Option.some.injEq] at h_member
      rw [← h_member]

/-- The entry of a member has the outline of the comparison. -/
theorem entryOutline_of_isScalar {q : Comparison} (h_operator : q.operator = "=")
    (h_scalar : q.operand.isScalar = true) :
    ColumnMap.entryOutline (q.column.sql, some (Value.ofJson q.operand)) = q.outline := by
  have h_head : q.column.sql ++ " =" = q.head := by
    rw [Comparison.head, h_operator, String.append_assoc]
    rfl
  have h_bindings : q.bindings = .value (Value.ofJson q.operand) := by
    rw [Comparison.bindings]
    cases h_operand : q.operand with
    | array items => simp [h_operand, Json.isScalar] at h_scalar
    | _ => rfl
  rw [ColumnMap.entryOutline, Comparison.outline, h_bindings, ← h_head]
  rfl

/-! ## Documents -/

/-- Data that is read is a pair, and gives one comparison, or an object, and gives one
    entry for each of its comparisons. -/
theorem shape_of_read {d : Document} {condition : Condition} (h : read d.json = .ok condition) :
    (∀ q ∈ d.json.comparisons, q.Lawful) ∧
      ((d.json.isObject = false ∧ ∃ q, d.json.comparisons = [q] ∧
          condition = .comparison q.head (some q.bindings)) ∨
        (d.json.isObject = true ∧ ∃ m, condition = .columns m ∧
          m.entries.toList.map ColumnMap.entryOutline
            = d.json.comparisons.map Comparison.outline)) := by
  obtain ⟨j, h_sorted⟩ := d
  simp only at h ⊢
  unfold read at h
  split at h
  -- A pair of a head and an operand.
  · rename_i head value
    obtain ⟨text, operand, h_head, h_value, rfl⟩ := read_pair_eq_ok_iff.mp h
    obtain ⟨i, operator, h_read, h_valid, h_known, rfl⟩ := readHead_eq_ok h_head
    have h_list : Json.comparisons (.array [.string head, value]) = [⟨i, operator, value⟩] := by
      simp only [Json.comparisons, h_read]
    have h_operand := readOperand_eq_ok (q := ⟨i, operator, value⟩) h_value
    refine ⟨?_, Or.inl ⟨rfl, ⟨i, operator, value⟩, h_list, ?_⟩⟩
    · intro q h_q
      rw [h_list, List.mem_singleton] at h_q
      subst h_q
      exact ⟨h_valid, h_known⟩
    · rw [h_operand]
      rfl
  · simp at h
  · simp at h
  -- An object; as received, no two of its members have one key.
  · rename_i members
    rw [Json.Sorted] at h_sorted
    obtain ⟨h_entry, rfl⟩ := read_object_eq_ok_iff.mp h
    refine ⟨fun q h_q => (lawful_of_isEntry h_entry h_q).1, Or.inr ⟨rfl, _, rfl, ?_⟩⟩
    rw [entries_of_ascending h_sorted.1, ← map_comparisons_of_isEntry h_entry, List.map_map]
    refine List.map_congr_left ?_
    intro q h_q
    exact entryOutline_of_isScalar (operator_of_memberComparison h_q)
      (lawful_of_isEntry h_entry h_q).2
  · simp at h
  · simp at h

theorem lawful_of_read {d : Document} {condition : Condition} (h : read d.json = .ok condition)
    {q : Comparison} (h_q : q ∈ d.json.comparisons) : q.Lawful :=
  (shape_of_read h).1 q h_q

/-- Data is never a fragment. -/
theorem ne_fragment_of_read {d : Document} {condition : Condition}
    (h : read d.json = .ok condition) : ∀ f, condition ≠ .fragment f := by
  intro f h_f
  obtain ⟨-, ⟨-, q, -, rfl⟩ | ⟨-, m, rfl, -⟩⟩ := shape_of_read h
  · cases h_f
  · cases h_f

/-- Data that is taken as a condition is read. -/
theorem read_of_ofJson {j : Json} {condition : Condition} {events after : Array Event}
    (h : (ofJson j).outcome events = (.ok condition, after)) :
    read j = .ok condition := by
  rw [ofJson] at h
  cases h_read : read j with
  | error defect =>
      rw [h_read, Logged.outcome_refuse] at h
      simp at h
  | ok found =>
      rw [h_read, Logged.outcome_pure] at h
      simp only [Prod.mk.injEq, Except.ok.injEq] at h
      rw [h.1]

theorem gives_of_read {j : Json} {condition : Condition} (h : read j = .ok condition) :
    (ofJson j).Gives condition := by
  rw [ofJson, h]
  exact Logged.gives_pure condition

theorem refuses_of_read {j : Json} {defect : Defect} (h : read j = .error defect) :
    (ofJson j).Refuses (.invalidCondition defect.message) := by
  rw [ofJson, h]
  exact Logged.refuses_refuse _

end Condition

/-! ## Roles -/

namespace Document

variable {X Y : Type}

/-- What data is on its own: its one comparison, or the conjunction of its members. -/
def whole (part : Comparison → X) (group : List X → X) (d : Document) : X :=
  match d.json.isObject, d.json.comparisons with
  | false, [q] => part q
  | _, qs => group (qs.map part)

/-- The role of data, for a notion of comparison and of conjunction. -/
def role (part : Comparison → X) (group : List X → X) (d : Document) : Role X :=
  { whole := d.whole part group
    spliced := d.json.comparisons.map part
    only := group (d.json.comparisons.map part) }

/-- The role of data among outlines. -/
def outlines : Document → Role Outline := role Comparison.outline Connective.and.outline

/-- Related comparisons and conjunctions give data related roles. -/
theorem related_role {R : X → Y → Prop} {part : Comparison → X} {part' : Comparison → Y}
    {group : List X → X} {group' : List Y → Y} {d e : Document}
    (h_object : d.json.isObject = e.json.isObject)
    (h_parts : List.Forall₂ (fun q r => R (part q) (part' r)) d.json.comparisons
      e.json.comparisons)
    (h_group : ∀ xs ys, List.Forall₂ R xs ys → R (group xs) (group' ys)) :
    Role.Related R (d.role part group) (e.role part' group') := by
  have h_maps : List.Forall₂ R (d.json.comparisons.map part) (e.json.comparisons.map part') := by
    rw [List.forall₂_map_left_iff, List.forall₂_map_right_iff]
    exact h_parts
  refine ⟨?_, h_maps, h_group _ _ h_maps⟩
  show R (d.whole part group) (e.whole part' group')
  rw [whole, whole, ← h_object]
  cases d.json.isObject with
  | true => exact h_group _ _ h_maps
  | false =>
      revert h_parts h_maps
      generalize d.json.comparisons = qs
      generalize e.json.comparisons = rs
      intro h_parts h_maps
      -- Only a single comparison stands for itself.
      cases h_parts with
      | nil => exact h_group _ _ h_maps
      | cons h_first h_rest =>
          cases h_rest with
          | nil => exact h_first
          | cons h_second h_more => exact h_group _ _ h_maps

/-- Data that is read has its role among outlines. -/
theorem plays_of_read {d : Document} {condition : Condition}
    (h : Condition.read d.json = .ok condition) : condition.Plays d.outlines := by
  obtain ⟨-, ⟨h_object, q, h_list, rfl⟩ | ⟨h_object, m, rfl, h_entries⟩⟩ :=
    Condition.shape_of_read h
  · have h_outline : (Condition.comparison q.head (some q.bindings)).outline = q.outline := by
      rw [Condition.outline]
      rfl
    have h_spliced : (Condition.comparison q.head (some q.bindings)).spliced.map Condition.outline
        = [q.outline] := by
      rw [← h_outline]
      rfl
    refine ⟨rfl, ?_⟩
    rw [Condition.role_eq (fun f h_f => by cases h_f), h_outline, h_spliced, outlines, role, whole,
      h_object, h_list]
    rfl
  · have h_outline : (Condition.columns m).outline
        = Connective.and.outline (d.json.comparisons.map Comparison.outline) := by
      rw [Condition.outline, h_entries]
    have h_spliced : (Condition.columns m).spliced.map Condition.outline
        = d.json.comparisons.map Comparison.outline := by
      rw [Condition.spliced, outlines_conditions, h_entries]
    refine ⟨rfl, ?_⟩
    rw [Condition.role_eq (fun f h_f => by cases h_f), h_outline, h_spliced, outlines, role, whole,
      h_object]

/-- What data binds: the operands of its comparisons, in order. -/
def bound (d : Document) : List Json := d.json.comparisons.flatMap Comparison.bound

theorem binds_role (d : Document) :
    d.outlines.Binds (d.bound.map Value.ofJson) := by
  have h_parts : (d.json.comparisons.map Comparison.outline).flatMap Outline.values
      = d.bound.map Value.ofJson := by
    rw [bound, List.map_flatMap, List.flatMap_map]
    congr 1
    funext q
    exact q.values_outline
  have h_group : (Connective.and.outline (d.json.comparisons.map Comparison.outline)).values
      = d.bound.map Value.ofJson := by
    rw [Connective.values_outline, h_parts]
  refine ⟨?_, h_parts, h_group⟩
  show (d.whole Comparison.outline Connective.and.outline).values = _
  unfold whole
  split
  · rename_i q _ h_one
    rw [bound, h_one, List.flatMap_singleton]
    exact q.values_outline
  · exact h_group

end Document

end SqlCompose
