import MiniDB.Storage.Disk
import MiniDB.Storage.Table

/-!
# Storage/TableFile — the text file of a table

A table is saved as counted lines: the columns, one a line, then the rows, with `|` between cells
and no escapes.  Loading reads lines with `fgets` into a buffer of 8192 bytes, and cuts them into
fields with `strtok`, which skips empty ones.  A load that fails returns the table it had got to.
-/

namespace MiniDB.Storage

open MiniDB.Core

/-! ## Saving -/

/-- `static_cast<int>(type())`. -/
def ColumnType.code : ColumnType → Int
  | .int => 0
  | .string => 1

/-- `"%s %d %d\n"`. -/
def columnLine (col : Column) : Text :=
  cString col.name ++ ' ' :: intText col.type.code ++ ' ' :: intText (if col.isPrimary then 1 else 0)
    ++ ['\n']

def cellText : Value → Text
  | .int n => intText n
  | .string s => cString s
  | .none => []

/-- The cells of a row, with `|` between them. -/
def rowLine (row : Row) : Text := ['|'].intercalate (row.map cellText) ++ ['\n']

namespace Table

/-- What `save_to_file` writes. -/
def fileText (t : Table) : Text :=
  natText t.columns.length ++ '\n' :: t.columns.flatMap columnLine
    ++ natText t.rows.length ++ '\n' :: t.rows.flatMap rowLine

def saveToFile (t : Table) (disk : Disk) : Bool × Disk := disk.write t.dataPath t.fileText

end Table

/-! ## Loading -/

/-- `fgets(line_buf, sizeof(line_buf), fp)`: the line as a C string, and the rest of the stream. -/
def readLine (fp : Text) : Option (Text × Text) :=
  (fgets 8192 fp).map fun r => (cString r.1, r.2)

/-- A column line: three fields. -/
def columnOfLine (line : Text) : Option Column := do
  let (name, rest) ← strtok " \t\n\r".toList line
  let (typeStr, rest) ← strtok " \t\n\r".toList rest
  let (pkStr, _) ← strtok " \t\n\r".toList rest
  return { name, type := if atoi typeStr = 0 then .int else .string, isPrimary := atoi pkStr != 0 }

/-- The column loop, on the columns read so far: whether it came through, the columns, and the
stream. -/
def readColumns : Nat → Text → List Column → Bool × List Column × Text
  | 0, fp, columns => (true, columns, fp)
  | k + 1, fp, columns =>
    match readLine fp with
    | none => (false, columns, fp)
    | some (line, fp) =>
      match columnOfLine line with
      | none => (false, columns, fp)
      | some col => readColumns k fp (columns ++ [col])

/-- A field as a cell of a column. -/
def cellOfToken (col : Column) (token : Text) : Value :=
  match col.type with
  | .int => .int (atoi token)
  | .string => .string token

/-- The cell loop of a row line: at most `k` more fields. -/
def readCells (columns : List Column) : Nat → Nat → Text → Row → Row
  | 0, _, _, row => row
  | k + 1, colIdx, line, row =>
    match strtok "|\n\r".toList line with
    | none => row
    | some (token, line) =>
      match columns[colIdx]? with
      | some col => readCells columns k (colIdx + 1) line (row ++ [cellOfToken col token])
      | none => readCells columns k (colIdx + 1) line row

/-- The row loop: whether it came through, and the rows. -/
def readRows (columns : List Column) (colCnt : Nat) : Nat → Text → List Row → Bool × List Row
  | 0, _, rows => (true, rows)
  | k + 1, fp, rows =>
    match readLine fp with
    | none => (false, rows)
    | some (line, fp) =>
      readRows columns colCnt k fp (rows ++ [readCells columns colCnt 0 line []])

namespace Table

/-- The body of `load_from_file`, behind the `fopen`. -/
def loadFrom (t : Table) (fp : Text) : Bool × Table :=
  match readLine fp with
  | none => (false, t)
  | some (line, fp) =>
    let colCnt := (atoi line).toNat
    let (ok, columns, fp) := readColumns colCnt fp []
    let t := { t with columns }
    if !ok then (false, t)
    else
      match readLine fp with
      | none => (false, t)
      | some (line, fp) =>
        let (ok, rows) := readRows columns colCnt (atoi line).toNat fp []
        (ok, { t with rows })

def loadFromFile (t : Table) (disk : Disk) : Bool × Table :=
  match disk.read t.dataPath with
  | none => (false, t)
  | some fp => t.loadFrom fp

end Table

end MiniDB.Storage
