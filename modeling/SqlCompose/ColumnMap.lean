/-
  SqlCompose.ColumnMap

  Columns with the values they are to have or to be compared with, in the order
  in which they were first named. A column can be recorded without a value: such
  an entry keeps its place and is skipped wherever the map is used.

  An index from columns to positions stands beside the entries, so that naming a
  column again finds its entry. Naming a column again replaces its value, and its
  presence, but not its place.
-/
import Std.Data.HashMap
import SqlCompose.Value.Basic

namespace SqlCompose

/-- Columns and their values, in the order in which they were first named. -/
structure ColumnMap where
  /-- The columns with their values; `none` marks an absent value. -/
  entries : Array (String × Option Value) := #[]
  /-- The position of every column among the entries. -/
  index : Std.HashMap String Nat := {}

namespace ColumnMap

/-- The map without columns. -/
def empty : ColumnMap := {}

/-- Records `value` for `column`: in the place of the column if it has one, else
    at the end. -/
def insert (m : ColumnMap) (column : String) (value : Option Value) : ColumnMap :=
  match m.index[column]? with
  | some position =>
    { m with entries := m.entries.modify position fun (name, _) => (name, value) }
  | none =>
    { entries := m.entries.push (column, value)
      index := m.index.insert column m.entries.size }

/-- Records a value that is present. -/
def assign (m : ColumnMap) (column : String) (value : Value) : ColumnMap :=
  m.insert column (some value)

/-- The map with the given columns, assigned from first to last. -/
def ofList (entries : List (String × Value)) : ColumnMap :=
  entries.foldl (fun m (column, value) => m.assign column value) empty

/-- Number of columns, with or without a value. -/
def size (m : ColumnMap) : Nat := m.entries.size

/-- Whether the map has no columns. -/
def isEmpty (m : ColumnMap) : Bool := m.entries.isEmpty

/-- The columns that have a value. -/
def present (m : ColumnMap) : List (String × Value) :=
  m.entries.toList.filterMap fun (column, value) => value.map (column, ·)

/-- Maps are equal if their entries and their indices are. -/
protected def beq (m n : ColumnMap) : Bool := m.entries == n.entries && m.index == n.index

instance : BEq ColumnMap := ⟨ColumnMap.beq⟩

end ColumnMap

end SqlCompose
