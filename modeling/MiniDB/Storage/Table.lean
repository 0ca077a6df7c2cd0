import MiniDB.Machinery.InPlace
import MiniDB.Storage.Row

/-!
# Storage/Table — a table in memory

Columns and rows, and the operations the executor performs on them.  `find_column` and
`primary_key_index` return the first match, or none for their `-1`.  An access outside the rows or
the cells of a row has no value; `removeRow` shifts in place, and `removeRow_split` says what that
comes to.
-/

namespace MiniDB.Storage

open MiniDB.Core

structure Table where
  name : Text := []
  /-- The path of the `.dat` file. -/
  dataPath : Text := []
  columns : List Column := []
  rows : List Row := []
  deriving DecidableEq, Repr

namespace Table

/-- `Table(name)`. -/
def ofName (name : Text) : Table := { name, dataPath := cString (name ++ ".dat".toList) }

/-- `Table(name, data_dir)`. -/
def inDir (name dataDir : Text) : Table :=
  { name, dataPath := cString dataDir ++ '/' :: cString name ++ ".dat".toList }

def addColumn (t : Table) (col : Column) : Table := { t with columns := t.columns ++ [col] }

/-- The first column of the name. -/
def findColumn (t : Table) (colName : Text) : Option Nat :=
  t.columns.findIdx? (·.name == cString colName)

/-- The first primary column. -/
def primaryKeyIndex (t : Table) : Option Nat := t.columns.findIdx? Column.isPrimary

def insertRow (t : Table) (row : Row) : Table := { t with rows := t.rows ++ [row] }

/-- The rows from `index + 1` on move down, and the last slot is popped. -/
def removeRow (t : Table) (index : Nat) : Option Table :=
  if t.rows.length ≤ index then some t
  else do
    let rows ← InPlace.shiftLeft (t.rows.length - (index + 1)) index t.rows
    return { t with rows := rows.dropLast }

/-- `row_at(i).get_value(j) = v`. -/
def setCell (t : Table) (i j : Nat) (v : Value) : Option Table := do
  let row ← t.rows[i]?
  let row ← InPlace.put row j v
  let rows ← InPlace.put t.rows i row
  return { t with rows }

/-! ## What the operations come to -/

/-- **Removing a row leaves the rows around it.** -/
theorem removeRow_split {t : Table} {pre post : List Row} {row : Row}
    (h : t.rows = pre ++ row :: post) :
    t.removeRow pre.length = some { t with rows := pre ++ post } := by
  have hgap := InPlace.shiftLeft_gap pre post row
  obtain ⟨ys, hys, hlast⟩ := Option.map_eq_some_iff.mp hgap
  rw [removeRow, if_neg (by rw [h, List.length_append, List.length_cons]; omega), h, hys, ← hlast]
  rfl

/-- **Setting a cell leaves the other rows and the other cells.** -/
theorem setCell_split {t : Table} {pre post : List Row} {row : Row} {j : Nat} {v : Value}
    (h : t.rows = pre ++ row :: post) (hj : j < row.length) :
    t.setCell pre.length j v = some { t with rows := pre ++ row.set j v :: post } := by
  simp [setCell, h, InPlace.put, hj]

end Table

end MiniDB.Storage
